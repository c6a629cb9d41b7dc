import Blame.Atom.Set
import Blame.Json.Shown

/-!
# Pointer variables

A pointer variable is known by an id that the analysis chooses: a scalar or a tuple of scalars. Ids are
the same if they have one key, in which numbers count by value, so that `1`, `1.0` and `true` name one
variable. Sets and tables keep the first of several ids that are the same.
-/

namespace Blame

open Number

/-- A scalar inside the id of a pointer variable. -/
inductive PointerScalar where
  | null
  | bool (value : Bool)
  | int (value : Int)
  | float (value : Double)
  | str (value : Text)
  deriving DecidableEq, Repr

/-- The id of a pointer variable. -/
inductive PointerId where
  | scalar (value : PointerScalar)
  | tuple (values : List PointerScalar)
  deriving DecidableEq, Repr

/-- What a scalar counts as when ids are compared. -/
inductive ScalarKey where
  | null
  | number (value : Rat)
  | infinite (negative : Bool)
  | nan
  | text (value : Text)
  deriving DecidableEq, Repr

/-- What an id counts as when ids are compared. -/
inductive PointerKey where
  | scalar (key : ScalarKey)
  | tuple (keys : List ScalarKey)
  deriving DecidableEq, Repr

/-- A value inside an id that can be no part of it: a list or an object. -/
structure Unhashable where
  typeName : Text
  deriving DecidableEq, Repr

def Unhashable.message (u : Unhashable) : Text := ("unhashable type: '" ++ u.typeName ++ "'")

namespace PointerScalar

def ofJson? : Json → Except Unhashable PointerScalar
  | .null => .ok null
  | .bool b => .ok (bool b)
  | .int n => .ok (int n)
  | .float x => .ok (float x)
  | .str s => .ok (str s)
  | v => .error ⟨v.typeName⟩

def toJson : PointerScalar → Json
  | null => .null
  | bool b => .bool b
  | int n => .int n
  | float x => .float x
  | str s => .str s

def key : PointerScalar → ScalarKey
  | null => .null
  | bool b => .number (if b then 1 else 0)
  | int n => .number n
  | float (.finite q) => .number q
  | float .negZero => .number 0
  | float (.infinite s) => .infinite s
  | float .nan => .nan
  | str s => .text s

theorem ofJson?_toJson (v : PointerScalar) : ofJson? v.toJson = .ok v := by cases v <;> rfl

end PointerScalar

namespace PointerId

/-- The id that a decoded value stands for; a list stands for a tuple. -/
def ofJson? : Json → Except Unhashable PointerId
  | .list items => (items.mapM PointerScalar.ofJson?).map tuple
  | v => (PointerScalar.ofJson? v).map scalar

def toJson : PointerId → Json
  | scalar v => v.toJson
  | tuple vs => .list (vs.map PointerScalar.toJson)

def key : PointerId → PointerKey
  | scalar v => .scalar v.key
  | tuple vs => .tuple (vs.map PointerScalar.key)

/-- Whether two ids name one pointer variable. -/
def same (p q : PointerId) : Bool := p.key == q.key

theorem ofJson?_toJson (p : PointerId) : ofJson? p.toJson = .ok p := by
  cases p with
  | scalar v => cases v <;> rfl
  | tuple vs =>
    have h : (vs.map PointerScalar.toJson).mapM PointerScalar.ofJson? = .ok vs := by
      induction vs with
      | nil => rfl
      | cons v rest ih =>
        rw [List.map_cons, List.mapM_cons, PointerScalar.ofJson?_toJson, ih]
        rfl
    rw [toJson, ofJson?, h]
    rfl

/-- The id as a message shows it. -/
def shown : PointerId → Text
  | scalar v => v.toJson.shown
  | tuple [v] => "(" ++ v.toJson.shown ++ ",)"
  | tuple vs => "(" ++ Text.intercalate ", " (vs.map fun v => v.toJson.shown) ++ ")"

end PointerId

/-- Puts an id at the end of a list that holds none of the same variable. -/
def appendPointer (p : PointerId) (l : List PointerId) : List PointerId :=
  if p.key ∈ l.map PointerId.key then l else l ++ [p]

theorem mem_keys_appendPointer {p : PointerId} {k : PointerKey} {l : List PointerId} :
    k ∈ (appendPointer p l).map PointerId.key ↔ k = p.key ∨ k ∈ l.map PointerId.key := by
  by_cases h : p.key ∈ l.map PointerId.key
  · rw [appendPointer, if_pos h]
    exact ⟨Or.inr, fun hk => hk.elim (fun e => e ▸ h) id⟩
  · rw [appendPointer, if_neg h, List.map_append, List.mem_append]
    simp [or_comm]

theorem nodup_keys_appendPointer {p : PointerId} {l : List PointerId}
    (hl : (l.map PointerId.key).Nodup) : ((appendPointer p l).map PointerId.key).Nodup := by
  by_cases h : p.key ∈ l.map PointerId.key
  · rwa [appendPointer, if_pos h]
  · rw [appendPointer, if_neg h, List.map_append]
    refine List.nodup_append.2 ⟨hl, by simp, fun a ha b hb hab => h ?_⟩
    simp only [List.map_cons, List.map_nil, List.mem_cons, List.not_mem_nil, or_false] at hb
    exact hb ▸ hab ▸ ha

/-- A finite set of pointer variables, in the order in which they were added. -/
structure PointerSet where
  toList : List PointerId
  distinct : (toList.map PointerId.key).Nodup
  deriving DecidableEq

namespace PointerSet

def empty : PointerSet := ⟨[], .nil⟩

instance : EmptyCollection PointerSet := ⟨empty⟩

instance : Inhabited PointerSet := ⟨empty⟩

def size (s : PointerSet) : Nat := s.toList.length

/-- Whether the set holds an id of the same variable. -/
def contains (s : PointerSet) (p : PointerId) : Bool := decide (p.key ∈ s.toList.map PointerId.key)

/-- Adds a variable that is not yet in the set. -/
def insert (p : PointerId) (s : PointerSet) : PointerSet :=
  ⟨appendPointer p s.toList, nodup_keys_appendPointer s.distinct⟩

theorem contains_iff {s : PointerSet} {p : PointerId} :
    s.contains p = true ↔ ∃ q ∈ s.toList, q.key = p.key := by
  simp [contains]

@[simp] theorem contains_empty (p : PointerId) : (∅ : PointerSet).contains p = false := rfl

theorem contains_congr (s : PointerSet) {p q : PointerId} (h : p.key = q.key) :
    s.contains p = s.contains q := by
  rw [contains, contains, h]

theorem contains_insert (s : PointerSet) (p q : PointerId) :
    (s.insert p).contains q = true ↔ q.key = p.key ∨ s.contains q = true :=
  decide_eq_true_iff.trans
    (mem_keys_appendPointer.trans (or_congr_right decide_eq_true_iff.symm))

end PointerSet

/-- Sets the atoms of a pointer variable; an id that is known keeps its first form and its place. -/
def insertPointerEntry (p : PointerId) (s : AtomSet) :
    List (PointerId × AtomSet) → List (PointerId × AtomSet)
  | [] => [(p, s)]
  | e :: rest => if e.1.key = p.key then (e.1, s) :: rest else e :: insertPointerEntry p s rest

theorem mem_keys_insertPointerEntry {p : PointerId} {s : AtomSet} {k : PointerKey}
    {l : List (PointerId × AtomSet)} :
    k ∈ (insertPointerEntry p s l).map (·.1.key) ↔ k = p.key ∨ k ∈ l.map (·.1.key) := by
  induction l with
  | nil => simp [insertPointerEntry]
  | cons e rest ih => grind [insertPointerEntry]

theorem nodup_keys_insertPointerEntry {p : PointerId} {s : AtomSet} {l : List (PointerId × AtomSet)}
    (h : (l.map (·.1.key)).Nodup) : ((insertPointerEntry p s l).map (·.1.key)).Nodup := by
  induction l with
  | nil => simp [insertPointerEntry]
  | cons e rest ih =>
    have hn := List.nodup_cons.1 h
    by_cases he : e.1.key = p.key
    · simpa [insertPointerEntry, he] using h
    · simp only [insertPointerEntry, if_neg he, List.map_cons]
      refine List.nodup_cons.2 ⟨fun hm => ?_, ih hn.2⟩
      rcases mem_keys_insertPointerEntry.1 hm with hk | hk
      · exact he hk
      · exact hn.1 hk

/-- A relation from pointer variables to atoms. -/
structure PointerRelation where
  entries : List (PointerId × AtomSet)
  distinct : (entries.map (·.1.key)).Nodup
  deriving DecidableEq

namespace PointerRelation

def empty : PointerRelation := ⟨[], .nil⟩

instance : EmptyCollection PointerRelation := ⟨empty⟩

/-- The atoms related to a pointer variable. -/
def image (r : PointerRelation) (p : PointerId) : AtomSet :=
  ((r.entries.find? fun e => e.1.key = p.key).map Prod.snd).getD ∅

/-- Relates a pointer variable to an atom. -/
def add (p : PointerId) (a : Atom) (r : PointerRelation) : PointerRelation :=
  ⟨insertPointerEntry p ((r.image p).insert a) r.entries, nodup_keys_insertPointerEntry r.distinct⟩

theorem image_congr (r : PointerRelation) {p q : PointerId} (h : p.key = q.key) :
    r.image p = r.image q := by
  rw [image, image, h]

/-- Each variable has at most one entry. -/
theorem mem_image_iff {r : PointerRelation} {p : PointerId} {a : Atom} :
    a ∈ r.image p ↔ ∃ e ∈ r.entries, e.1.key = p.key ∧ a ∈ e.2 := by
  have h : ∀ l : List (PointerId × AtomSet), (l.map (·.1.key)).Nodup →
      (a ∈ ((l.find? fun e => e.1.key = p.key).map Prod.snd).getD ∅ ↔
        ∃ e ∈ l, e.1.key = p.key ∧ a ∈ e.2) := by
    intro l hl
    induction l with
    | nil => exact ⟨fun ha => absurd ha AtomSet.not_mem_empty, fun ⟨_, he, _⟩ => absurd he List.not_mem_nil⟩
    | cons e rest ih =>
      have hn := List.nodup_cons.1 hl
      by_cases he : e.1.key = p.key
      · have hr : ∀ u ∈ rest, u.1.key ≠ p.key := fun u hu hk =>
          hn.1 (List.mem_map.2 ⟨u, hu, hk.trans he.symm⟩)
        simpa [he] using fun u w hu hk => absurd hk (hr (u, w) hu)
      · simpa [he] using ih hn.2
  exact h r.entries r.distinct

theorem image_add (r : PointerRelation) (p q : PointerId) (a : Atom) :
    (r.add p a).image q = if q.key = p.key then (r.image p).insert a else r.image q := by
  have h : ∀ (s : AtomSet) (l : List (PointerId × AtomSet)),
      ((insertPointerEntry p s l).find? fun e => e.1.key = q.key).map Prod.snd =
        if q.key = p.key then some s else (l.find? fun e => e.1.key = q.key).map Prod.snd := by
    intro s l
    induction l with
    | nil => grind [insertPointerEntry]
    | cons e rest ih => grind [insertPointerEntry]
  simp only [image, add, h]
  split <;> rfl

end PointerRelation

end Blame
