import Blame.Location

/-!
# Forms of locations

A location can be written as one line of text and as the members of an object, and neither form loses anything. A
file may have a name with colons and digits, so the text is taken apart from its end: a number holds no colon, hence
the last colon of a text is the one before its last number (`append_sep_inj`).
-/

namespace Blame

open Number Text

namespace Text
variable {sep : CodePoint} {a b c d : List CodePoint}

theorem eq_nil_of_sep_cons_eq_append (hb : sep ∉ b) (h : sep :: b = c ++ sep :: d) : c = [] := by
  cases c with
  | nil => rfl
  | cons x c =>
    obtain ⟨-, rfl⟩ := List.cons.inj h
    exact absurd (List.mem_append_right c List.mem_cons_self) hb

/-- What stands before the last separator may hold others. -/
theorem append_sep_inj (hb : sep ∉ b) (hd : sep ∉ d) : a ++ sep :: b = c ++ sep :: d ↔ a = c ∧ b = d := by
  refine ⟨fun h => ?_, fun ⟨hac, hbd⟩ => by rw [hac, hbd]⟩
  have hac : a = c := by
    rcases List.append_eq_append_iff.1 h with ⟨e, rfl, he⟩ | ⟨e, rfl, he⟩
    · rw [eq_nil_of_sep_cons_eq_append hb he, List.append_nil]
    · rw [eq_nil_of_sep_cons_eq_append hd he, List.append_nil]
  subst hac
  exact ⟨rfl, (List.cons.inj (List.append_cancel_left h)).2⟩

theorem sep_cons_eq_append (hc : sep ∉ c) (h : sep :: b = c ++ d) : c = [] := by
  cases c with
  | nil => rfl
  | cons x c =>
    obtain ⟨rfl, -⟩ := List.cons.inj h
    exact absurd List.mem_cons_self hc

/-- What stands behind the first separator may hold others. -/
theorem sep_append_inj (ha : sep ∉ a) (hc : sep ∉ c) : a ++ sep :: b = c ++ sep :: d ↔ a = c ∧ b = d := by
  refine ⟨fun h => ?_, fun ⟨hac, hbd⟩ => by rw [hac, hbd]⟩
  have hac : a = c := by
    rcases List.append_eq_append_iff.1 h with ⟨e, rfl, he⟩ | ⟨e, rfl, he⟩
    · rw [sep_cons_eq_append (fun h => hc (List.mem_append_right a h)) he, List.append_nil]
    · rw [sep_cons_eq_append (fun h => ha (List.mem_append_right c h)) he, List.append_nil]
  subst hac
  exact ⟨rfl, (List.cons.inj (List.append_cancel_left h)).2⟩

end Text

namespace Location
variable {l m : Location}

/-! ### Members -/

theorem ofMembers_toMembers (l : Location) : ofMembers l.toMembers = .ok l := rfl

/-! ### Text -/

theorem colon_notMem_intChars (n : Int) : .char ':' ∉ intChars n := notMem_intChars (by decide) (by decide) n

theorem chars_inj : l.chars = m.chars ↔ l = m := by
  obtain ⟨file, line, colStart, colEnd⟩ := l
  obtain ⟨file', line', colStart', colEnd'⟩ := m
  -- one number after the other from the end; what is left is the file
  rw [chars, chars, append_sep_inj (colon_notMem_intChars _) (colon_notMem_intChars _),
    append_sep_inj (colon_notMem_intChars _) (colon_notMem_intChars _),
    append_sep_inj (colon_notMem_intChars _) (colon_notMem_intChars _), intChars_inj, intChars_inj, intChars_inj,
    Text.toList_inj, mk.injEq, and_assoc, and_assoc]

theorem text_inj : l.text = m.text ↔ l = m := by
  rw [text, text, Text.ofList_inj, chars_inj]

/-! ### Reports -/

theorem shownIn_some (l : Location) : shownIn (some l) = if l.valid then some l.text else none := by
  rw [shownIn, onlyValid, Option.filter_some]
  split <;> rfl

theorem shownIn_some_inj : shownIn (some l) = shownIn (some m) ↔ l = m ∨ l.valid = false ∧ m.valid = false := by
  rw [shownIn_some, shownIn_some]
  by_cases hlm : l = m
  · subst hlm
    exact iff_of_true rfl (.inl rfl)
  · have htext : l.text ≠ m.text := mt text_inj.1 hlm
    cases l.valid <;> cases m.valid <;> simp [hlm, htext]

/-- The members of a location are read as the same location, and its text is that of no other. A report shows two
locations alike only if they are the same or have no place to show. -/
theorem forms_tell_apart (l m : Location) :
    ofMembers l.toMembers = .ok l ∧ (l.text = m.text ↔ l = m) ∧
    (shownIn (some l) = shownIn (some m) ↔ l = m ∨ l.valid = false ∧ m.valid = false) :=
  ⟨ofMembers_toMembers l, text_inj, shownIn_some_inj⟩

/-- A file may be named like a place in another. -/
example : text ⟨"a.c:3:5", -2, 0, 9⟩ = "a.c:3:5:-2:0:9" := by decide +kernel

end Location

end Blame
