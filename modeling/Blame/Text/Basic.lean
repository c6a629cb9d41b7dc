/-!
# Texts

A text is a row of code points. Nearly all of them are characters. The others are halves of surrogate pairs:
a document may hold one alone, and a file name stands for a byte that is no character by one, but no file and
no terminal can be given them.
-/

namespace Blame

/-- A character, or half of a surrogate pair that stands alone. -/
inductive CodePoint where
  | char (c : Char)
  | half (n : Fin 0x800)
  deriving DecidableEq, Repr, Inhabited

namespace CodePoint

instance : Coe Char CodePoint := ⟨char⟩

def toNat : CodePoint → Nat
  | char c => c.toNat
  | half n => 0xD800 + n.val

/-- The code point of a number; a number that is none gives the zero character. -/
def ofNat (n : Nat) : CodePoint :=
  if h : 0xD800 ≤ n ∧ n < 0xE000 then half ⟨n - 0xD800, by omega⟩ else char (Char.ofNat n)

def isHalf : CodePoint → Bool
  | char _ => false
  | half _ => true

def isDigit : CodePoint → Bool
  | char c => c.isDigit
  | half _ => false

/-- The small letter of a capital letter of ASCII, or the code point itself. -/
def toLower : CodePoint → CodePoint
  | char c => char c.toLower
  | half n => half n

instance : LT CodePoint := ⟨fun c d => c.toNat < d.toNat⟩

instance : LE CodePoint := ⟨fun c d => c.toNat ≤ d.toNat⟩

instance (c d : CodePoint) : Decidable (c < d) := inferInstanceAs (Decidable (c.toNat < d.toNat))

instance (c d : CodePoint) : Decidable (c ≤ d) := inferInstanceAs (Decidable (c.toNat ≤ d.toNat))

end CodePoint

/-- A text, which can be compared and put together like a string. -/
structure Text where
  ofList ::
  toList : List CodePoint
  deriving DecidableEq, Repr, Inhabited

namespace Text

/-- A text of characters. -/
def ofString (s : String) : Text := ofList (s.toList.map .char)

instance : Coe String Text := ⟨ofString⟩

instance : Append Text := ⟨fun s t => ofList (s.toList ++ t.toList)⟩

instance : LT Text := ⟨fun s t => s.toList < t.toList⟩

instance : LE Text := ⟨fun s t => ¬ t < s⟩

instance (s t : Text) : Decidable (s < t) := inferInstanceAs (Decidable (s.toList < t.toList))

instance (s t : Text) : Decidable (s ≤ t) := inferInstanceAs (Decidable (¬ t < s))

def length (s : Text) : Nat := s.toList.length

def isEmpty (s : Text) : Bool := s.toList.isEmpty

/-- The texts put together. -/
def join (l : List Text) : Text := ofList (l.flatMap toList)

/-- The texts put together with a separator between each two. -/
def intercalate (sep : Text) : List Text → Text
  | [] => ""
  | [s] => s
  | s :: t :: rest => s ++ sep ++ intercalate sep (t :: rest)

variable {s t u : Text}

@[ext]
theorem ext (h : s.toList = t.toList) : s = t := by
  cases s
  cases t
  exact congrArg ofList h

theorem toList_inj : s.toList = t.toList ↔ s = t := ⟨ext, congrArg toList⟩

theorem ofList_inj {l m : List CodePoint} : ofList l = ofList m ↔ l = m := ⟨ofList.inj, congrArg ofList⟩

@[simp]
theorem toList_ofList (l : List CodePoint) : (ofList l).toList = l := rfl

@[simp]
theorem ofList_toList (s : Text) : ofList s.toList = s := rfl

@[simp]
theorem toList_append (s t : Text) : (s ++ t).toList = s.toList ++ t.toList := rfl

@[simp]
theorem ofList_append (l m : List CodePoint) : ofList (l ++ m) = ofList l ++ ofList m := rfl

@[simp]
theorem toList_ofString (s : String) : (ofString s).toList = s.toList.map .char := rfl

theorem append_assoc (s t u : Text) : s ++ t ++ u = s ++ (t ++ u) := ext (List.append_assoc ..)

@[simp]
theorem append_empty (s : Text) : s ++ "" = s := ext (List.append_nil _)

@[simp]
theorem empty_append (s : Text) : "" ++ s = s := rfl

theorem toList_eq_nil_iff : s.toList = [] ↔ s = "" := toList_inj (t := "")

@[simp]
theorem isEmpty_iff : s.isEmpty = true ↔ s = "" := by rw [isEmpty, List.isEmpty_iff, toList_eq_nil_iff]

@[simp]
theorem join_nil : join [] = "" := rfl

@[simp]
theorem join_cons (s : Text) (l : List Text) : join (s :: l) = s ++ join l := rfl

@[simp]
theorem join_append (l m : List Text) : join (l ++ m) = join l ++ join m := ext List.flatMap_append

theorem intercalate_nil (sep : Text) : sep.intercalate [] = "" := rfl

theorem intercalate_singleton (sep s : Text) : sep.intercalate [s] = s := rfl

theorem intercalate_cons_cons (sep s t : Text) (l : List Text) :
    sep.intercalate (s :: t :: l) = s ++ sep ++ sep.intercalate (t :: l) := rfl

end Text

end Blame
