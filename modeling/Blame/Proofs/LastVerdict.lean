import Blame.Proofs.Calls
import Blame.Proofs.Lift
import Mathlib.Data.List.Infix

/-!
# The last verdict counts

An atom is filed as in source by what a classifier last said of it while it was a root or indirect, since the tables
were last emptied (`Latest`). What was said before that leaves no trace but the location, and a classifier that has no
answer changes no more than that either. The location of an atom is the last one it was given.
-/

namespace Blame

/-- A call that is no load. -/
def Call.Direct : Call → Prop
  | .load .. => False
  | _ => True

/-- The location that a call gives an atom. -/
def Call.locationFor (a : Atom) : Call → Option Location
  | .write (.locate b l) => if b = a then l else none
  | .write (.classify _ _ b l) => if b = a then l else none
  | _ => none

namespace Index

/-- The atom is filed as in source, among the roots or among the indirect atoms. -/
def InSource (ix : Index) (a : Atom) : Prop := a ∈ ix.rootsInSource ∨ a ∈ ix.indirectInSource

/-- The atom is a root or indirect. -/
def Wild (ix : Index) (a : Atom) : Prop := a ∈ ix.roots ∨ a ∈ ix.indirect

instance (ix : Index) (a : Atom) : Decidable (ix.InSource a) := inferInstanceAs (Decidable (_ ∨ _))

instance (ix : Index) (a : Atom) : Decidable (ix.Wild a) := inferInstanceAs (Decidable (_ ∨ _))

/-- The last call since the tables were last emptied that says something, and what it says. -/
def Latest {α : Type} (Says : Index → Call → α → Prop) (calls : List Call) (x : α) : Prop :=
  ∃ before c rest, calls = before ++ c :: rest ∧ Says (after before) c x ∧
    ∀ mid c' tail, rest = mid ++ c' :: tail → c' ≠ .clear ∧ ∀ y, ¬ Says (after (before ++ c :: mid)) c' y

/-- A call that asks a classifier about an atom that is WILD, and how that ends. -/
inductive Asks (a : Atom) (ix : Index) : Call → Except Unclassifiable Bool → Prop
  | classify {σ : Type} {c : Classifier σ} {memory : σ} {l : Option Location} {verdict : Except Unclassifiable Bool}
      (hwild : ix.Wild a) (hverdict : (ix.classify c memory a l).inSource = verdict) :
      Asks a ix (.write (.classify c memory a l)) verdict

/-- The second index has the locations of the first and files the same atoms as in source. -/
structure SamePlaces (ix ix' : Index) : Prop where
  locations : ix'.locations = ix.locations
  rootsInSource : ix'.rootsInSource = ix.rootsInSource
  indirectInSource : ix'.indirectInSource = ix.indirectInSource

variable {ix ix' : Index} {a b : Atom}

/-! ### The last call that says something -/

theorem after_concat (calls : List Call) (c : Call) : after (calls ++ [c]) = (c.perform (after calls)).1 :=
  List.foldl_concat ..

section
variable {α : Type} {Says : Index → Call → α → Prop} {calls : List Call} {c : Call} {x : α}

theorem not_latest_nil : ¬ Latest Says [] x := by
  rintro ⟨before, c, rest, h, -⟩
  simp at h

theorem latest_concat_iff :
    Latest Says (calls ++ [c]) x ↔
      Says (after calls) c x ∨ c ≠ .clear ∧ (∀ y, ¬ Says (after calls) c y) ∧ Latest Says calls x := by
  constructor
  -- the call in question is the new one, or it stands before it and the new one is the last of those after it
  · rintro ⟨before, d, rest, h, hsaid, hrest⟩
    obtain rfl | ⟨rest, e, rfl⟩ := List.eq_nil_or_concat' rest
    · obtain ⟨rfl, hlast⟩ := List.append_inj' h rfl
      cases hlast
      exact .inl hsaid
    · have hsplit : calls ++ [c] = (before ++ d :: rest) ++ [e] := by simpa using h
      obtain ⟨rfl, hlast⟩ := List.append_inj' hsplit rfl
      cases hlast
      obtain ⟨hclear, hsilent⟩ := hrest rest c [] rfl
      refine .inr ⟨hclear, hsilent, before, d, rest, rfl, hsaid, fun mid c' tail hmid => ?_⟩
      exact hrest mid c' (tail ++ [c]) (by simp [hmid])
  · rintro (hsaid | ⟨hclear, hsilent, before, d, rest, rfl, hsaid, hrest⟩)
    · exact ⟨calls, c, [], rfl, hsaid, by simp⟩
    · refine ⟨before, d, rest ++ [c], by simp, hsaid, fun mid c' tail hmid => ?_⟩
      obtain rfl | ⟨tail, e, rfl⟩ := List.eq_nil_or_concat' tail
      · obtain ⟨rfl, hlast⟩ := List.append_inj' hmid rfl
        cases hlast
        exact ⟨hclear, hsilent⟩
      · have hsplit : rest ++ [c] = (mid ++ c' :: tail) ++ [e] := by simpa using hmid
        exact hrest mid c' tail (List.append_inj' hsplit rfl).1

end

/-! ### What a call does to locations and to what is in source -/

theorem inSource_congr (h : SamePlaces ix ix') : ix'.InSource a ↔ ix.InSource a := by
  rw [InSource, InSource, h.rootsInSource, h.indirectInSource]

theorem locationOf_congr (h : SamePlaces ix ix') : ix'.locationOf a = ix.locationOf a := by
  rw [locationOf, locationOf, h.locations]

theorem not_inSource_empty : ¬ InSource {} a := not_or.2 ⟨AtomSet.not_mem_empty, AtomSet.not_mem_empty⟩

theorem locationOf_empty : locationOf {} a = none := rfl

theorem samePlaces_refl (ix : Index) : SamePlaces ix ix := ⟨rfl, rfl, rfl⟩

theorem samePlaces_answered {α : Type} {f : α → Index} {o : Except Inconsistency α}
    (h : ∀ x, o = .ok x → SamePlaces ix (f x)) : SamePlaces ix (ix.answered f o).1 := by
  cases o with
  | ok x => exact h x rfl
  | error i => exact samePlaces_refl ix

theorem samePlaces_declareRoot {d : Diagnostic} (h : ix.declareRoot a d = .ok ix') : SamePlaces ix ix' := by
  rcases ix.declareRoot_cases a d with ⟨-, ho⟩ | ⟨-, ho⟩ <;> rw [ho] at h <;> cases h
  exact ⟨rfl, rfl, rfl⟩

theorem samePlaces_declareIndirect {new : Bool} (h : ix.declareIndirect a = .ok (ix', new)) : SamePlaces ix ix' := by
  rcases ix.declareIndirect_cases a with ⟨-, ho⟩ | ⟨-, ho⟩ <;> rw [ho] at h <;> cases h
  exact ⟨rfl, rfl, rfl⟩

theorem samePlaces_blame {r : Atom} {fate : EdgeFate} (h : ix.blame r a = .ok (ix', fate)) : SamePlaces ix ix' := by
  rcases ix.blame_cases r a with ⟨-, ho⟩ | ⟨-, -, _, -, ho⟩ | ⟨-, -, ho⟩ <;> rw [ho] at h <;> cases h
  · exact samePlaces_refl ix
  · exact ⟨rfl, rfl, rfl⟩

theorem samePlaces_blamePointer {r : Atom} {p : PointerId} {new : Bool} (h : ix.blamePointer r p = .ok (ix', new)) :
    SamePlaces ix ix' := by
  rcases ix.blamePointer_cases r p with ⟨-, ho⟩ | ⟨-, -, ho⟩ | ⟨-, -, ho⟩ <;> rw [ho] at h <;> cases h
  · exact samePlaces_refl ix
  · exact ⟨rfl, rfl, rfl⟩

theorem samePlaces_lift (ix : Index) : SamePlaces ix ix.lift.1 := by
  obtain ⟨pe, pc, ho⟩ := ix.blamePointers_eq 0 ix.liftedPairs
  rw [lift, ho]
  exact ⟨rfl, rfl, rfl⟩

theorem inSource_locate (b : Atom) (l : Option Location) : (ix.locate b l).InSource a ↔ ix.InSource a := by
  cases l <;> rfl

theorem wild_locate (b : Atom) (l : Option Location) : (ix.locate b l).Wild a ↔ ix.Wild a := by
  cases l <;> rfl

theorem Sound.inSource_fileInSource (h : ix.Sound) (hwild : ix.Wild a) (inSource : Bool) :
    (ix.fileInSource a inSource).InSource a ↔ inSource = true := by
  rcases ix.fileInSource_cases a inSource with ⟨hr, ho⟩ | ⟨hr, hi, ho⟩ | ⟨hr, hi, ho⟩ <;> rw [ho]
  · have hother : a ∉ ix.indirectInSource := fun ha =>
      h.root_not_indirect a hr (h.indirectInSource_indirect a ha)
    show a ∈ setMembership inSource a ix.rootsInSource ∨ a ∈ ix.indirectInSource ↔ _
    rw [mem_setMembership, if_pos rfl, or_iff_left hother]
  · have hother : a ∉ ix.rootsInSource := fun ha => hr (h.rootsInSource_root a ha)
    show a ∈ ix.rootsInSource ∨ a ∈ setMembership inSource a ix.indirectInSource ↔ _
    rw [mem_setMembership, if_pos rfl, or_iff_right hother]
  · exact absurd hwild (not_or.2 ⟨hr, hi⟩)

theorem inSource_fileInSource_of_not (h : ¬ (b = a ∧ ix.Wild a)) (inSource : Bool) :
    (ix.fileInSource b inSource).InSource a ↔ ix.InSource a := by
  have hother : ∀ s : AtomSet, ix.Wild b → (a ∈ setMembership inSource b s ↔ a ∈ s) := by
    intro s hb
    have hne : a ≠ b := by
      rintro rfl
      exact h ⟨rfl, hb⟩
    rw [mem_setMembership, if_neg hne]
  rcases ix.fileInSource_cases b inSource with ⟨hr, ho⟩ | ⟨-, hi, ho⟩ | ⟨-, -, ho⟩ <;> rw [ho]
  · exact or_congr_left (hother _ (.inl hr))
  · exact or_congr_right (hother _ (.inr hi))

theorem locationOf_locate (b : Atom) (l : Option Location) :
    (ix.locate b l).locationOf a = (if b = a then l else none).or (ix.locationOf a) := by
  obtain ⟨locations, ho, hfind⟩ := ix.locate_eq b l
  rw [ho]
  exact hfind a

theorem locationOf_fileInSource (b : Atom) (inSource : Bool) :
    (ix.fileInSource b inSource).locationOf a = ix.locationOf a := by
  rcases ix.fileInSource_cases b inSource with ⟨-, ho⟩ | ⟨-, -, ho⟩ | ⟨-, -, ho⟩ <;> rw [ho] <;> rfl

section
variable {σ : Type} {c : Classifier σ} {memory : σ} {l : Option Location}

theorem classify_cases :
    (∃ e, (ix.classify c memory b l).inSource = .error e ∧ (ix.classify c memory b l).index = ix.locate b l) ∨
    ∃ v, (ix.classify c memory b l).inSource = .ok v ∧
      (ix.classify c memory b l).index = (ix.locate b l).fileInSource b v := by
  rw [classify]
  split
  · exact .inl ⟨_, rfl, rfl⟩
  · exact .inr ⟨_, rfl, rfl⟩

theorem locationOf_classify :
    (ix.classify c memory b l).index.locationOf a = (if b = a then l else none).or (ix.locationOf a) := by
  obtain ⟨e, -, ho⟩ | ⟨v, -, ho⟩ := ix.classify_cases <;> rw [ho]
  · exact locationOf_locate b l
  · exact (locationOf_fileInSource b v).trans (locationOf_locate b l)

theorem asks_classify_iff {verdict : Except Unclassifiable Bool} :
    Asks a ix (.write (.classify c memory b l)) verdict ↔
      (b = a ∧ ix.Wild a) ∧ (ix.classify c memory b l).inSource = verdict := by
  constructor
  · rintro ⟨hwild, hverdict⟩
    exact ⟨⟨rfl, hwild⟩, hverdict⟩
  · rintro ⟨⟨rfl, hwild⟩, hverdict⟩
    exact .classify hwild hverdict

/-- A verdict on a WILD atom files it by that alone; without a verdict, or on another atom, nothing is filed anew. -/
theorem Sound.inSource_classify (h : ix.Sound) :
    (ix.classify c memory b l).index.InSource a ↔
      Asks a ix (.write (.classify c memory b l)) (.ok true) ∨
        (∀ v, ¬ Asks a ix (.write (.classify c memory b l)) (.ok v)) ∧ ix.InSource a := by
  simp only [asks_classify_iff]
  obtain ⟨e, hverdict, ho⟩ | ⟨v, hverdict, ho⟩ := ix.classify_cases <;> rw [hverdict, ho]
  · simp [inSource_locate]
  · by_cases hb : b = a ∧ ix.Wild a
    · obtain ⟨rfl, hwild⟩ := hb
      have hlocated : (ix.locate b l).Wild b := (wild_locate b l).2 hwild
      rw [(h.locate b l).inSource_fileInSource hlocated]
      simp [hwild]
    -- what has to be WILD is the index before the call, what is filed is the one with the new location
    · have hlocated : ¬ (b = a ∧ (ix.locate b l).Wild a) := by rwa [wild_locate]
      rw [inSource_fileInSource_of_not hlocated, inSource_locate]
      simp [hb]

end

end Index

/-- A call that neither places an atom nor asks a classifier about one. -/
def Write.Aside : Write → Prop
  | .locate .. => False
  | .classify .. => False
  | _ => True

namespace Write

theorem cases_aside (w : Write) :
    w.Aside ∨ (∃ b l, w = .locate b l) ∨
      ∃ (σ : Type) (c : Classifier σ) (memory : σ) (b : Atom) (l : Option Location), w = .classify c memory b l := by
  cases w with
  | locate b l => exact .inr (.inl ⟨b, l, rfl⟩)
  | classify c memory b l => exact .inr (.inr ⟨_, c, memory, b, l, rfl⟩)
  | _ => exact .inl trivial

variable {w : Write} {ix : Index}

theorem Aside.not_asks (h : w.Aside) (a : Atom) (v : Except Unclassifiable Bool) :
    ¬ Index.Asks a ix (.write w) v := by
  rintro ⟨-, -⟩
  exact h

theorem Aside.locationFor_eq (h : w.Aside) (a : Atom) : (Call.write w).locationFor a = none := by
  cases w with
  | locate b l => exact h.elim
  | classify c memory b l => exact h.elim
  | _ => rfl

theorem Aside.samePlaces (h : w.Aside) : ix.SamePlaces (w.perform ix).1 := by
  cases w with
  | locate b l => exact h.elim
  | classify c memory b l => exact h.elim
  | declareRoot b d => exact Index.samePlaces_answered fun _ => Index.samePlaces_declareRoot
  | declareIndirect b => exact Index.samePlaces_answered fun _ => Index.samePlaces_declareIndirect
  | blame r b => exact Index.samePlaces_answered fun _ => Index.samePlaces_blame
  | rename b name => exact ⟨rfl, rfl, rfl⟩
  | join b id =>
    rw [perform]
    split
    · exact ⟨rfl, rfl, rfl⟩
    · exact Index.samePlaces_refl ix
  | blamePointer r id =>
    rw [perform]
    split
    · exact Index.samePlaces_refl ix
    · split
      · exact Index.samePlaces_answered fun _ => Index.samePlaces_blamePointer
      · exact Index.samePlaces_refl ix
  | lift =>
    rw [perform_lift]
    exact Index.samePlaces_lift ix

end Write

namespace Call

variable {c : Call} {ix : Index}

theorem inSource_perform (h : ix.Sound) (hc : c.Direct) (a : Atom) :
    (c.perform ix).1.InSource a ↔
      Index.Asks a ix c (.ok true) ∨ c ≠ .clear ∧ (∀ v, ¬ Index.Asks a ix c (.ok v)) ∧ ix.InSource a := by
  cases c with
  | load => exact hc.elim
  | clear =>
    have hasks : ¬ Index.Asks a ix .clear (.ok true) := by rintro ⟨-, -⟩
    simp [hasks, perform, Index.not_inSource_empty]
  | write w =>
    obtain haside | ⟨b, l, rfl⟩ | ⟨σ, c, memory, b, l, rfl⟩ := w.cases_aside
    · show (w.perform ix).1.InSource a ↔ _
      simp [haside.not_asks, Index.inSource_congr haside.samePlaces]
    · have hasks : ∀ v, ¬ Index.Asks a ix (.write (.locate b l)) v := by rintro v ⟨-, -⟩
      show (ix.locate b l).InSource a ↔ _
      simp [hasks, Index.inSource_locate]
    · show (ix.classify c memory b l).index.InSource a ↔ _
      simp [h.inSource_classify]

theorem locationOf_perform (hc : c.Direct) (hclear : c ≠ .clear) (a : Atom) :
    (c.perform ix).1.locationOf a = (c.locationFor a).or (ix.locationOf a) := by
  cases c with
  | load => exact hc.elim
  | clear => exact absurd rfl hclear
  | write w =>
    obtain haside | ⟨b, l, rfl⟩ | ⟨σ, c, memory, b, l, rfl⟩ := w.cases_aside
    · rw [haside.locationFor_eq, Option.none_or]
      exact Index.locationOf_congr haside.samePlaces
    · exact Index.locationOf_locate b l
    · exact Index.locationOf_classify

theorem locationOf_perform_iff (hc : c.Direct) (a : Atom) (l : Location) :
    (c.perform ix).1.locationOf a = some l ↔
      c.locationFor a = some l ∨ c ≠ .clear ∧ (∀ l', c.locationFor a ≠ some l') ∧ ix.locationOf a = some l := by
  by_cases hclear : c = .clear
  · subst hclear
    simp [perform, locationFor, Index.locationOf_empty]
  · rw [locationOf_perform hc hclear, Option.or_eq_some_iff, Option.eq_none_iff_forall_ne_some, and_iff_right hclear]

end Call

namespace Index

variable {calls : List Call}

/-- What one call settles if it says something, and leaves as it was if not, the last call that says something settles
for a whole run. -/
theorem latest_iff {α : Type} (Says : Index → Call → α → Prop) (x : α) (P : Index → Prop) (hempty : ¬ P {})
    (hstep : ∀ ix c, ix.Sound → c.Direct →
      (P (c.perform ix).1 ↔ Says ix c x ∨ c ≠ .clear ∧ (∀ y, ¬ Says ix c y) ∧ P ix))
    (hdirect : ∀ c ∈ calls, c.Direct) : P (after calls) ↔ Latest Says calls x := by
  induction calls using List.reverseRecOn with
  | nil => exact iff_of_false hempty not_latest_nil
  | append_singleton calls c ih =>
    have hc : c.Direct := hdirect c (by simp)
    have hcalls : ∀ c ∈ calls, c.Direct := fun c hmem => hdirect c (by simp [hmem])
    rw [after_concat, latest_concat_iff, hstep (after calls) c (sound_after calls) hc, ih hcalls]

/-- An atom is in source if, since the tables were last emptied, a classifier had an answer about it while it was WILD
and the last such answer was that it is. It is then filed with the atoms of its own kind only, and its location is the
last one it was given. -/
theorem inSource_by_last_verdict (calls : List Call) (hdirect : ∀ c ∈ calls, c.Direct) (a : Atom) :
    let ix := after calls
    (ix.InSource a ↔ Latest (fun ix c v => Asks a ix c (.ok v)) calls true) ∧
    (a ∈ ix.rootsInSource → a ∈ ix.roots ∧ a ∉ ix.indirectInSource) ∧
    (a ∈ ix.indirectInSource → a ∈ ix.indirect ∧ a ∉ ix.rootsInSource) ∧
    ∀ l, ix.locationOf a = some l ↔ Latest (fun _ c l => c.locationFor a = some l) calls l := by
  intro ix
  have hsound : ix.Sound := sound_after calls
  have hapart : a ∈ ix.rootsInSource → a ∉ ix.indirectInSource := fun hr hi =>
    hsound.root_not_indirect a (hsound.rootsInSource_root a hr) (hsound.indirectInSource_indirect a hi)
  refine ⟨?_, ?_, ?_, ?_⟩
  · exact latest_iff (fun ix c v => Asks a ix c (.ok v)) true (InSource · a) not_inSource_empty
      (fun _ _ h hc => Call.inSource_perform h hc a) hdirect
  · intro hr
    exact ⟨hsound.rootsInSource_root a hr, hapart hr⟩
  · intro hi
    exact ⟨hsound.indirectInSource_indirect a hi, fun hr => hapart hr hi⟩
  · intro l
    exact latest_iff (fun _ c l => c.locationFor a = some l) l (fun ix => ix.locationOf a = some l)
      (Option.some_ne_none l).symm (fun _ _ _ hc => Call.locationOf_perform_iff hc a l) hdirect

/-- The classifier of a user who gave no rules. -/
def unruled : Classifier VerdictCache := (FileRules.mk ⟨"/work/proj", some "/home/dev", {}⟩ [] [] []).classifier

/-- A root is filed as in source. -/
def filedRoot : List Call :=
  [.write (.declareRoot 1 ⟨"Cast", none, []⟩), .write (.classify unruled [] 1 (some ⟨"a.c", 3, 1, 4⟩))]

/-- The root is classified again at a place about which there is no answer. -/
def raisedLater : List Call :=
  filedRoot ++ [.write (.classify unruled [("a.c", true)] 1 (some ⟨"~\x00a", 1, 0, 0⟩))]

/-- The same after an atom that is not WILD yet was classified. -/
def calledEarly : List Call :=
  .write (.classify unruled [] 2 (some ⟨"a.c", 3, 1, 4⟩)) :: raisedLater ++ [.write (.blame 1 2)]

theorem inSource_by_last_verdict_calledEarly :
    (∀ c ∈ calledEarly, c.Direct) ∧ Latest (fun ix c v => Asks 1 ix c (.ok v)) calledEarly true ∧
    ¬ Latest (fun ix c v => Asks 2 ix c (.ok v)) calledEarly true ∧
    Latest (fun _ c l => c.locationFor 1 = some l) calledEarly ⟨"~\x00a", 1, 0, 0⟩ := by
  have hdirect : ∀ c ∈ calledEarly, c.Direct := by simp [calledEarly, raisedLater, filedRoot, Call.Direct]
  obtain ⟨hroot, -, -, hplace⟩ := inSource_by_last_verdict calledEarly hdirect 1
  obtain ⟨hindirect, -⟩ := inSource_by_last_verdict calledEarly hdirect 2
  exact ⟨hdirect, hroot.1 (by decide), mt hindirect.2 (by decide), (hplace _).1 (by decide)⟩

/-- Only answers count: a question without one is the last that was asked, and the atom stays in source. -/
theorem inSource_raisedLater :
    (∀ c ∈ raisedLater, c.Direct) ∧ (after raisedLater).InSource 1 ∧ ¬ Latest (Asks 1) raisedLater (.ok true) := by
  refine ⟨by simp [raisedLater, filedRoot, Call.Direct], by decide, ?_⟩
  rw [raisedLater, latest_concat_iff]
  rintro (hasked | ⟨-, hsilent, -⟩)
  · exact nomatch (asks_classify_iff.1 hasked).2
  · exact hsilent (.error .zeroCharacter) (.classify (by decide) rfl)

end Index

end Blame
