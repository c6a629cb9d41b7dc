import Blame.Proofs.Faults
import Blame.Proofs.Reload

/-!
# What a failed load leaves behind

A load does its parts in a fixed order and ends at the first that fails. The sections that are written into
the index come first, and none of them touches a table that the end of a load writes (`Kept`); the side
tables come last, when the index is complete, and touch nothing of it. So the part at which a load ended
tells what it has left behind.
-/

namespace Blame.Snapshot

open Index Stage

/-- A part of a load. -/
inductive Part where
  | atoms
  | roots
  | edges
  | indirect
  | pointers
  | lift
  | settle
  | fill
  | casts
  | voids
  | counts
  deriving DecidableEq, Repr

namespace Part

/-- The sections that are written into the index. -/
def records : List Part := [atoms, roots, edges, indirect, pointers]

/-- What is done with the index once the records are in it. -/
def completion : List Part := [lift, settle, fill]

/-- The sections that are not about the index. -/
def sideTables : List Part := [casts, voids, counts]

/-- The parts of a load in their order. -/
def all : List Part := records ++ completion ++ sideTables

variable {σ : Type}

/-- What a load does in a part. -/
def stage (c : Classifier σ) (d : Document) : Part → Stage σ
  | atoms => ofSection applyAtom d.atoms
  | roots => ofSection applyRoot d.roots
  | edges => (ofSection applyEdge d.edges).andThen (say fun p => ignoredLog d.edges.records p.index)
  | indirect => ofSection applyIndirect d.indirect
  | pointers => ofSection applyPointer d.pointers
  | lift => liftStage d.listsPointers
  | settle => settleStage c d.places
  | fill => fillStage d.places
  | casts => stopAt d.casts.fault
  | voids => stopAt d.voids.fault
  | counts =>
    (say fun _ => unknownCounters d.counts.records).andThen <|
    (stopAt d.counts.fault).andThen <|
    say fun p => loadedLog p.index

end Part

section
variable {σ : Type} {c : Classifier σ} {d d' : Document} {l l' : List Part} {p q : Progress σ}

/-- Does parts in turn. If one of them ends the load, the answer says which and why. -/
def runParts (c : Classifier σ) (d : Document) : List Part → Progress σ → Progress σ × Option (Part × LoadError)
  | [], p => (p, none)
  | x :: rest, p =>
    match x.stage c d p with
    | (q, none) => runParts c d rest q
    | (q, some e) => (q, some (x, e))

/-- The part at which a load ends early, and why it does. -/
def endsAt (c : Classifier σ) (memory : σ) (ix : Index) (d : Document) : Option (Part × LoadError) :=
  (runParts c d Part.all { index := ix, memory }).2

/-! ### A load as a run of parts -/

/-- Nothing is left to be done. -/
def Stage.done : Stage σ := fun p => (p, none)

theorem Stage.andThen_done (f : Stage σ) : f.andThen done = f := by
  funext p
  unfold andThen
  rcases f p with ⟨q, _ | e⟩ <;> rfl

theorem foldr_andThen_eq_runParts (c : Classifier σ) (d : Document) (l : List Part) (p : Progress σ) :
    l.foldr (fun x f => (x.stage c d).andThen f) done p =
      ((runParts c d l p).1, (runParts c d l p).2.map Prod.snd) := by
  induction l generalizing p with
  | nil => rfl
  | cons x rest ih =>
    rw [List.foldr_cons, Stage.andThen, runParts]
    rcases x.stage c d p with ⟨q, _ | e⟩
    · exact ih q
    · rfl

theorem stages_eq_foldr (c : Classifier σ) (d : Document) :
    stages c d = Part.all.foldr (fun x f => (x.stage c d).andThen f) done := by
  simp only [Part.all, Part.records, Part.completion, Part.sideTables, List.cons_append, List.nil_append,
    List.foldr_cons, List.foldr_nil, Part.stage, andThen_assoc, andThen_done]
  rfl

theorem load_eq_runParts (c : Classifier σ) (memory : σ) (ix : Index) (d : Document) :
    load c memory ix d =
      ⟨(runParts c d Part.all { index := ix, memory }).1, (endsAt c memory ix d).map Prod.snd⟩ := by
  rw [load, stages_eq_foldr, foldr_andThen_eq_runParts, endsAt]

theorem runParts_append (c : Classifier σ) (d : Document) (l l' : List Part) (p : Progress σ) :
    runParts c d (l ++ l') p =
      match runParts c d l p with
      | (q, none) => runParts c d l' q
      | (q, some e) => (q, some e) := by
  induction l generalizing p with
  | nil => rfl
  | cons x rest ih =>
    rw [List.cons_append, runParts, runParts]
    rcases x.stage c d p with ⟨q, _ | e⟩
    · exact ih q
    · rfl

theorem runParts_congr (h : ∀ x ∈ l, x.stage c d' = x.stage c d) (p : Progress σ) :
    runParts c d' l p = runParts c d l p := by
  induction l generalizing p with
  | nil => rfl
  | cons x rest ih =>
    rw [runParts, runParts, h x List.mem_cons_self]
    rcases x.stage c d p with ⟨q, _ | e⟩
    · exact ih (fun y hy => h y (List.mem_cons_of_mem x hy)) q
    · rfl

/-- What each part keeps is kept by the run, wherever it ends. -/
theorem within_runParts {R : Index → Index → Prop} [IsPreorder Index R]
    (h : ∀ x ∈ l, (x.stage c d).Within R) (p : Progress σ) : R p.index (runParts c d l p).1.index := by
  induction l generalizing p with
  | nil => exact refl_of R p.index
  | cons x rest ih =>
    have hx := h x List.mem_cons_self p
    rw [runParts]
    rcases ho : x.stage c d p with ⟨q, _ | e⟩ <;> rw [ho] at hx
    · exact trans_of R hx (ih (fun y hy => h y (List.mem_cons_of_mem x hy)) q)
    · exact hx

/-- The part that a run ends at is one of those to be done, and it ended with the error. -/
theorem exists_of_runParts_eq_some {x : Part} {e : LoadError} (h : runParts c d l p = (q, some (x, e))) :
    x ∈ l ∧ ∃ r, x.stage c d r = (q, some e) := by
  induction l generalizing p with
  | nil => cases h
  | cons y rest ih =>
    rw [runParts] at h
    rcases ho : y.stage c d p with ⟨r, _ | e'⟩ <;> rw [ho] at h
    · obtain ⟨hx, hr⟩ := ih h
      exact ⟨List.mem_cons_of_mem y hx, hr⟩
    · cases h
      exact ⟨List.mem_cons_self, p, ho⟩

end

/-! ### The sections that are written into the index -/

section
variable {σ : Type} {ix : Index} {q : Index × List LogLine}

instance : IsPreorder Index Kept where
  refl _ := ⟨rfl, rfl, rfl, rfl, rfl⟩
  trans _ _ _ h k := ⟨k.1.trans h.1, k.2.1.trans h.2.1, k.2.2.1.trans h.2.2.1, k.2.2.2.1.trans h.2.2.2.1,
    k.2.2.2.2.trans h.2.2.2.2⟩

theorem kept_applyAtom (r : AtomRecord) (ho : applyAtom ix r = .ok q) : Kept ix q.1 := by
  cases ho
  exact (refl_of Kept ix).applyName r.atom r.name

theorem kept_applyRoot (r : RootRecord) (ho : applyRoot ix r = .ok q) : Kept ix q.1 := by
  rw [applyRoot] at ho
  rcases ix.declareRoot_cases r.atom r.diagnostic with ⟨-, he⟩ | ⟨-, he⟩ <;> rw [he] at ho <;> cases ho
  have hk : Kept ix { ix with diagnostics := ix.diagnostics.insert r.atom r.diagnostic } := refl_of Kept ix
  exact hk.applyName r.atom r.name

theorem kept_applyEdge (r : EdgeRecord) (ho : applyEdge ix r = .ok q) : Kept ix q.1 := by
  rw [applyEdge] at ho
  rcases ix.blame_cases r.root r.affected with ⟨-, he⟩ | ⟨-, -, _, -, he⟩ | ⟨-, -, he⟩ <;>
    rw [he] at ho <;> cases ho <;> exact refl_of Kept ix

theorem kept_applyIndirect (a : Atom) (ho : applyIndirect ix a = .ok q) : Kept ix q.1 := by
  rw [applyIndirect] at ho
  rcases ix.declareIndirect_cases a with ⟨-, he⟩ | ⟨-, he⟩ <;> rw [he] at ho <;> cases ho
  exact refl_of Kept ix

theorem kept_applyPointer (r : PointerRecord) (ho : applyPointer ix r = .ok q) : Kept ix q.1 := by
  cases ho
  exact (refl_of Kept ix).foldl_join r.pointer r.atoms

theorem Part.within_kept (c : Classifier σ) (d : Document) {x : Part} (hx : x ∈ records) :
    (x.stage c d).Within Kept := by
  simp only [records, List.mem_cons, List.not_mem_nil, or_false] at hx
  rcases hx with rfl | rfl | rfl | rfl | rfl
  · exact within_ofSection (R := Kept) (fun _ r _ => kept_applyAtom r) d.atoms
  · exact within_ofSection (R := Kept) (fun _ r _ => kept_applyRoot r) d.roots
  · exact (within_ofSection (R := Kept) (fun _ r _ => kept_applyEdge r) d.edges).andThen (within_say _)
  · exact within_ofSection (R := Kept) (fun _ a _ => kept_applyIndirect a) d.indirect
  · exact within_ofSection (R := Kept) (fun _ r _ => kept_applyPointer r) d.pointers

theorem Part.within_writes (c : Classifier σ) (d : Document) {x : Part} (hx : x ∈ records) :
    (x.stage c d).Within Writes := by
  simp only [records, List.mem_cons, List.not_mem_nil, or_false] at hx
  rcases hx with rfl | rfl | rfl | rfl | rfl
  · exact within_ofSection applyAtom_writes d.atoms
  · exact within_ofSection applyRoot_writes d.roots
  · exact (within_ofSection applyEdge_writes d.edges).andThen (within_say _)
  · exact within_ofSection applyIndirect_writes d.indirect
  · exact within_ofSection applyPointer_writes d.pointers

end

/-! ### The completion of the index -/

/-- Only the classifier can fail once the records are in a sound index. -/
theorem completion_error {σ : Type} {c : Classifier σ} {d : Document} {p q : Progress σ} {x : Part}
    {e : LoadError} (hp : p.index.Sound) (h : runParts c d Part.completion p = (q, some (x, e))) :
    x = .settle ∧ ∃ u memory file, e = .unclassifiable u ∧ c.ask memory file = .error u := by
  obtain ⟨r, hlift, -⟩ := liftStage_lifted d.listsPointers p hp
  have hsettle : (settleStage c d.places).FailsIn fun e =>
      ∃ u memory file, e = .unclassifiable u ∧ c.ask memory file = .error u :=
    fun p => failsIn_settleAtoms (fun memory _ l u _ _ hask => ⟨u, memory, l.file, rfl, hask⟩) _ p
  simp only [Part.completion, runParts, Part.stage, hlift] at h
  have hr := hsettle r trivial
  rcases ho : settleStage c d.places r with ⟨s, _ | e'⟩ <;> rw [ho] at h hr
  · cases h
  · cases h
    exact ⟨rfl, hr⟩

/-! ### Side tables -/

def sideKeys : List Text := ["casts", "voids", "rewrite_stats"]

/-- The document without its side tables. -/
def withoutSideTables (members : Members) : Members := members.filter fun m => m.1 ∉ sideKeys

theorem member?_withoutSideTables (key : Text) (members : Members) :
    Json.member? key (withoutSideTables members) =
      if key ∈ sideKeys then none else Json.member? key members := by
  induction members with
  | nil => simp [withoutSideTables, Json.member?]
  | cons m rest ih =>
    rw [withoutSideTables] at ih ⊢
    by_cases hm : m.1 ∈ sideKeys
    · rw [List.filter_cons_of_neg (by simp [hm]), ih, Json.member?]
      split
      · rfl
      · rename_i hkey
        rw [if_neg]
        rintro rfl
        exact hkey hm
    · rw [List.filter_cons_of_pos (by simp [hm]), Json.member?, Json.member?, ih]
      by_cases hkey : m.1 = key
      · rw [if_pos hkey, if_pos hkey, if_neg (hkey ▸ hm)]
      · rw [if_neg hkey, if_neg hkey]

theorem readSection_of_member? {α : Type} {read : Text → Json → Reading α} {key : Text} {members : Members}
    (h : Json.member? key members = none) : readSection members key false read = {} := by
  rw [readSection, listAt, h]
  rfl

theorem ofMembers_withoutSideTables (members : Members) :
    Document.ofMembers (withoutSideTables members) =
      { Document.ofMembers members with casts := {}, voids := {}, counts := {} } := by
  have hkept : ∀ key, key ∉ sideKeys →
      Json.member? key (withoutSideTables members) = Json.member? key members :=
    fun key hkey => by rw [member?_withoutSideTables, if_neg hkey]
  have hgone : ∀ key ∈ sideKeys, Json.member? key (withoutSideTables members) = none :=
    fun key hkey => by rw [member?_withoutSideTables, if_pos hkey]
  have hlist : ∀ key, key ∉ sideKeys → ∀ required,
      listAt (withoutSideTables members) key required = listAt members key required :=
    fun key hkey required => by rw [listAt, listAt, hkept key hkey]
  have hsection : ∀ {α : Type} (key : Text), key ∉ sideKeys → ∀ required (read : Text → Json → Reading α),
      readSection (withoutSideTables members) key required read = readSection members key required read :=
    fun key hkey required read => by rw [readSection, readSection, hlist key hkey]
  have hcounts : readCountSection (withoutSideTables members) = {} := by
    rw [readCountSection, hgone "rewrite_stats" (by decide)]
  simp only [Document.ofMembers, hsection "atoms" (by decide), hsection "roots" (by decide),
    hsection "propagation" (by decide), hsection "indirect" (by decide), hsection "pointers" (by decide),
    hlist "pointers" (by decide), readSection_of_member? (hgone "casts" (by decide)),
    readSection_of_member? (hgone "voids" (by decide)), hcounts]

section
variable {σ : Type} (c : Classifier σ) (d : Document) (p : Progress σ)

theorem Part.within_eq {x : Part} (hx : x ∈ sideTables) : (x.stage c d).Within Eq := by
  simp only [sideTables, List.mem_cons, List.not_mem_nil, or_false] at hx
  rcases hx with rfl | rfl | rfl
  · exact within_stopAt _
  · exact within_stopAt _
  · exact (within_say _).andThen <| (within_stopAt _).andThen <| within_say _

/-- Without side tables a load goes on to where it would have come to them. -/
theorem runParts_withoutSideTables :
    runParts c { d with casts := {}, voids := {}, counts := {} } (Part.records ++ Part.completion) p =
      runParts c d (Part.records ++ Part.completion) p := by
  refine runParts_congr (fun x hx => ?_) p
  simp only [Part.records, Part.completion, List.cons_append, List.nil_append, List.mem_cons,
    List.not_mem_nil, or_false] at hx
  rcases hx with rfl | rfl | rfl | rfl | rfl | rfl | rfl | rfl <;> rfl

end

/-- A load that comes to the side tables has made the index that the document makes without them. -/
theorem load_withoutSideTables {σ : Type} {c : Classifier σ} {memory : σ} {ix : Index} {members : Members}
    {q : Progress σ}
    (h : runParts c (Document.ofMembers members) (Part.records ++ Part.completion) { index := ix, memory } =
      (q, none)) :
    let rest := load c memory ix (Document.ofMembers (withoutSideTables members))
    rest.error = none ∧ rest.progress.index = q.index := by
  rw [load_eq_runParts, endsAt, ofMembers_withoutSideTables, Part.all, runParts_append,
    runParts_withoutSideTables, h]
  exact ⟨rfl, rfl⟩

/-! ### Failed loads -/

/-- Where a load ended tells what it left. If it ended in a section that is written into the index, the
tables that the end of a load writes are as before and nothing is taken out of the others; if it ended in a
side table, the index is that of the document without side tables, which can be loaded. It ends nowhere else,
but for a classifier that has no answer about a file. -/
theorem load_failed_leaves {σ : Type} (calls : List Call) (c : Classifier σ) (memory : σ) (members : Members)
    (e : LoadError) :
    let ix := Index.after calls
    let l := load c memory ix (Document.ofMembers members)
    let rest := load c memory ix (Document.ofMembers (withoutSideTables members))
    l.error = some e →
    ∃ x, endsAt c memory ix (Document.ofMembers members) = some (x, e) ∧
      ((x ∈ Part.records ∧ Kept ix l.progress.index ∧ ix.Grows l.progress.index) ∨
      (x ∈ Part.sideTables ∧ rest.error = none ∧ l.progress.index = rest.progress.index) ∨
      (x = .settle ∧ ∃ u memory' file, e = .unclassifiable u ∧ c.ask memory' file = .error u)) := by
  intro ix l rest ho
  have hgrows : ix.Grows l.progress.index := load_grows c memory ix _
  have hl : l = _ := load_eq_runParts c memory ix (Document.ofMembers members)
  rw [hl] at ho hgrows ⊢
  obtain ⟨⟨x, e'⟩, hx, rfl⟩ := Option.map_eq_some_iff.1 ho
  refine ⟨x, hx, ?_⟩
  rw [endsAt, Part.all, runParts_append, runParts_append] at hx
  rw [Part.all, runParts_append, runParts_append] at hgrows ⊢
  have hkept := within_runParts (fun x => Part.within_kept c (Document.ofMembers members) (x := x))
    { index := ix, memory }
  have hwrites := within_runParts (fun x => Part.within_writes c (Document.ofMembers members) (x := x))
    { index := ix, memory }
  rcases h₁ : runParts c (Document.ofMembers members) Part.records { index := ix, memory } with ⟨q, _ | ⟨y, e⟩⟩
    <;> simp only [h₁] at hx hgrows hkept hwrites ⊢
  case some =>
    cases hx
    exact .inl ⟨(exists_of_runParts_eq_some h₁).1, hkept, hgrows⟩
  case none =>
    rcases h₂ : runParts c (Document.ofMembers members) Part.completion q with ⟨r, _ | ⟨y, e⟩⟩
      <;> simp only [h₂] at hx ⊢
    case some =>
      cases hx
      exact .inr (.inr (completion_error (hwrites.sound (sound_after calls)) h₂))
    case none =>
      have heq : r.index = _ := within_runParts (R := Eq)
        (fun x => Part.within_eq c (Document.ofMembers members) (x := x)) r
      obtain ⟨hrest, hindex⟩ := load_withoutSideTables (by rw [runParts_append, h₁]; exact h₂)
      exact .inr (.inl ⟨(exists_of_runParts_eq_some (Prod.ext rfl hx)).1, hrest, heq.symm.trans hindex.symm⟩)

/-- The second edge is no pair. -/
def badEdgeMembers : Members :=
  [("roots", .list [.obj [("atom", .int 2), ("reason", .str "Cast"),
      ("location", .obj [("file", .str "a.c"), ("line", .int 3)])]]),
    ("propagation", .list [.list [.int 2, .int 5], .list [.int 2]])]

/-- The count is no number. -/
def badCountMembers : Members :=
  [("roots", .list [.obj [("atom", .int 2), ("reason", .str "Cast"),
      ("location", .obj [("file", .str "a.c"), ("line", .int 3)])]]),
    ("rewrite_stats", .obj [("NumWildCasts", .str "x")])]

theorem load_failed_leaves_lateFaults :
    let ix := Index.after earlierCalls
    let c := Classifier.ofPred (· == "a.c")
    let edge := load c () ix (Document.ofMembers badEdgeMembers)
    let count := load c () ix (Document.ofMembers badCountMembers)
    let rest := load c () ix (Document.ofMembers (withoutSideTables badCountMembers))
    edge.error = some (.fault (.malformed "propagation[1]" .notAPair)) ∧
    Kept ix edge.progress.index ∧ ix.Grows edge.progress.index ∧
    (edge.progress.index.causesOf 5).toList = [2, 9] ∧
    count.error = some (.fault (.malformed "rewrite_stats.NumWildCasts" (.notAnAtom (.str "x")))) ∧
    rest.error = none ∧ count.progress.index = rest.progress.index ∧ 2 ∈ count.progress.index.rootsInSource := by
  intro ix c edge count rest
  have hedge : edge.error = some (.fault (.malformed "propagation[1]" .notAPair)) := rfl
  have hcount : count.error =
      some (.fault (.malformed "rewrite_stats.NumWildCasts" (.notAnAtom (.str "x")))) := rfl
  obtain ⟨x, hx, hleft⟩ := load_failed_leaves earlierCalls c () badEdgeMembers _ hedge
  obtain ⟨y, hy, hright⟩ := load_failed_leaves earlierCalls c () badCountMembers _ hcount
  have hxedges : x = .edges := by
    cases hx.symm.trans (rfl : _ = some (Part.edges, _))
    rfl
  have hycounts : y = .counts := by
    cases hy.symm.trans (rfl : _ = some (Part.counts, _))
    rfl
  subst hxedges hycounts
  obtain ⟨hkept, hgrows⟩ : Kept ix edge.progress.index ∧ ix.Grows edge.progress.index := by
    rcases hleft with ⟨-, hleft⟩ | ⟨hside, -⟩ | ⟨hsettle, -⟩
    · exact hleft
    · exact absurd hside (by decide)
    · cases hsettle
  obtain ⟨hrest, hindex⟩ : rest.error = none ∧ count.progress.index = rest.progress.index := by
    rcases hright with ⟨hrecords, -⟩ | ⟨-, hright⟩ | ⟨hsettle, -⟩
    · exact absurd hrecords (by decide)
    · exact hright
    · cases hsettle
  exact ⟨hedge, hkept, hgrows, by decide +kernel, hcount, hrest, hindex, by decide +kernel⟩

end Blame.Snapshot
