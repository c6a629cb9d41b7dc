import Blame.Proofs.ProjectFiles
import Blame.Proofs.Stages

/-!
# What a classifier remembers

A classifier remembers the verdicts on the files it was asked about and nothing else (`Remembers`). A load asks it about
the places of atoms and hands what it remembers from one to the next, but the verdicts do not depend on that; so the
load does to the index what one with the bare rules does (`Stage.Mirrors`), whatever the classifier was asked before.
-/

namespace Blame

namespace FileRules
variable {r : FileRules} {memory : VerdictCache} {asked : List Text} {file : Text}

/-! ### One question and many -/

/-- The verdicts on the files that were asked about, each once; a file without a name or without a verdict has none. -/
structure Remembers (r : FileRules) (asked : List Text) (memory : VerdictCache) : Prop where
  distinct : (memory.map Prod.fst).Nodup
  lookup_iff : ∀ file b, memory.lookup file = some b ↔ file ∈ asked ∧ file ≠ "" ∧ r.accepts file = .ok b

theorem memoryAfter_concat (r : FileRules) (asked : List Text) (file : Text) :
    r.memoryAfter (asked ++ [file]) = r.remember (r.memoryAfter asked) file :=
  List.foldl_concat ..

theorem remember_cases (r : FileRules) (memory : VerdictCache) (file : Text) :
    (r.remember memory file = memory ∧
      (file = "" ∨ (∃ b, memory.lookup file = some b) ∨ ∃ u, r.accepts file = .error u)) ∨
    (file ≠ "" ∧ memory.lookup file = none ∧ ∃ b, r.accepts file = .ok b ∧
      r.remember memory file = (file, b) :: memory) := by
  unfold remember
  rcases r.ask_cases memory file with ⟨hfile, ho⟩ | ⟨-, b, hb, ho⟩ | ⟨hfile, hnone, ho⟩ <;> rw [ho]
  · exact .inl ⟨rfl, .inl hfile⟩
  · exact .inl ⟨rfl, .inr (.inl ⟨b, hb⟩)⟩
  · rw [accepts]
    cases hfind : r.find file with
    | error u => exact .inl ⟨rfl, .inr (.inr ⟨u, rfl⟩)⟩
    | ok finding => exact .inr ⟨hfile, hnone, _, rfl, rfl⟩

theorem remembers_nil (r : FileRules) : r.Remembers [] [] := ⟨List.nodup_nil, by simp⟩

theorem Remembers.remember (h : r.Remembers asked memory) (file : Text) :
    r.Remembers (asked ++ [file]) (r.remember memory file) := by
  rcases r.remember_cases memory file with ⟨heq, hknown⟩ | ⟨hfile, hnone, b, hb, heq⟩ <;> rw [heq]
  -- the file is one of those remembered, or there is nothing to remember
  · refine ⟨h.distinct, fun f c => ?_⟩
    rw [h.lookup_iff, List.mem_append, List.mem_singleton]
    refine ⟨fun ⟨hf, hrest⟩ => ⟨.inl hf, hrest⟩, ?_⟩
    rintro ⟨hf | rfl, hne, hc⟩
    · exact ⟨hf, hne, hc⟩
    · rcases hknown with rfl | ⟨b, hb⟩ | ⟨u, hu⟩
      · exact absurd rfl hne
      · exact ⟨((h.lookup_iff f b).1 hb).1, hne, hc⟩
      · cases hc.symm.trans hu
  · refine ⟨?_, fun f c => ?_⟩
    · refine List.nodup_cons.2 ⟨fun hmem => ?_, h.distinct⟩
      obtain ⟨e, he, hkey⟩ := List.mem_map.1 hmem
      have hlookup := List.lookup_eq_none_iff.1 hnone e he
      simp [hkey] at hlookup
    · rw [List.lookup_cons, List.mem_append, List.mem_singleton]
      by_cases hf : f = file
      · subst hf
        simp [hfile, hb]
      · simp [beq_eq_false_iff_ne.2 hf, hf, h.lookup_iff]

theorem remembers_memoryAfter (r : FileRules) (asked : List Text) : r.Remembers asked (r.memoryAfter asked) := by
  induction asked using List.reverseRecOn with
  | nil => exact r.remembers_nil
  | append_singleton asked file ih =>
    rw [memoryAfter_concat]
    exact ih.remember file

end FileRules

/-! ### Two classifiers that say the same -/

namespace Snapshot

variable {σ τ : Type}

/-- Two answers are the same but for the memories, which are related, or both are missing. -/
inductive SameAnswer (K : σ → τ → Prop) :
    Except Unclassifiable (Answer σ) → Except Unclassifiable (Answer τ) → Prop
  | answer {a : Answer σ} {a' : Answer τ} (accepted : a'.accepted = a.accepted) (memory : K a.memory a'.memory) :
    SameAnswer K (.ok a) (.ok a')
  | missing (u : Unclassifiable) : SameAnswer K (.error u) (.error u)

/-- With memories that are related two classifiers give the same answers. -/
def SaysSame (K : σ → τ → Prop) (c : Classifier σ) (c' : Classifier τ) : Prop :=
  ∀ m m' file, K m m' → SameAnswer K (c.ask m file) (c'.ask m' file)

namespace Stage

/-- Two stages do the same to an index and end with the same error, if their memories are related; and so are the
memories that they leave. -/
def Mirrors (K : σ → τ → Prop) (f : Stage σ) (g : Stage τ) : Prop :=
  ∀ p q, q.index = p.index → K p.memory q.memory →
    (g q).1.index = (f p).1.index ∧ (g q).2 = (f p).2 ∧ K (f p).1.memory (g q).1.memory

variable {K : σ → τ → Prop} {α : Type} {step : Index → α → Except Inconsistency (Index × List LogLine)}
  {c : Classifier σ} {c' : Classifier τ}

theorem Mirrors.andThen {f f' : Stage σ} {g g' : Stage τ} (hf : f.Mirrors K g) (hf' : f'.Mirrors K g') :
    (f.andThen f').Mirrors K (g.andThen g') := by
  intro p q hindex hmemory
  obtain ⟨hi, he, hm⟩ := hf p q hindex hmemory
  unfold Stage.andThen
  rcases hp : f p with ⟨p', _ | e⟩ <;> rcases hq : g q with ⟨q', _ | e'⟩ <;> rw [hp, hq] at hi he hm
  · exact hf' p' q' hi hm
  · cases he
  · cases he
  · exact ⟨hi, he, hm⟩

theorem mirrors_each (l : List α) : (each (σ := σ) step l).Mirrors K (each step l) := by
  intro p q hindex hmemory
  induction l generalizing p q with
  | nil => exact ⟨hindex, rfl, hmemory⟩
  | cons x rest ih =>
    unfold each
    rw [hindex]
    split
    · exact ih _ _ rfl hmemory
    · exact ⟨hindex, rfl, hmemory⟩

theorem mirrors_stopAt (fault : Option Fault) : (stopAt (σ := σ) fault).Mirrors K (stopAt fault) :=
  fun _ _ hindex hmemory => ⟨hindex, rfl, hmemory⟩

theorem mirrors_ofSection (s : Section α) : (ofSection (σ := σ) step s).Mirrors K (ofSection step s) :=
  (mirrors_each s.records).andThen (mirrors_stopAt s.fault)

theorem mirrors_say (lines : Progress σ → List LogLine) (lines' : Progress τ → List LogLine) :
    (say lines).Mirrors K (say lines') :=
  fun _ _ hindex hmemory => ⟨hindex, rfl, hmemory⟩

theorem mirrors_liftStage (listsPointers : Bool) :
    (liftStage (σ := σ) listsPointers).Mirrors K (liftStage listsPointers) := by
  intro p q hindex hmemory
  unfold liftStage
  rw [hindex]
  split
  · exact ⟨hindex, rfl, hmemory⟩
  · split <;> exact ⟨rfl, rfl, hmemory⟩

theorem mirrors_fillStage (places : AtomTable (Option Location)) :
    (fillStage (σ := σ) places).Mirrors K (fillStage places) := by
  intro p q hindex hmemory
  exact ⟨congrArg (places.entries.foldl fillPlace) hindex, rfl, hmemory⟩

/-- A location that is not valid is not asked about. -/
theorem sameAnswer_askInSource (h : SaysSame K c c') {m : σ} {m' : τ} (hm : K m m') (l : Option Location) :
    SameAnswer K (Index.askInSource c m l) (Index.askInSource c' m' l) := by
  unfold Index.askInSource
  cases l with
  | none => exact .answer rfl hm
  | some l =>
    dsimp only
    split
    · exact h m m' l.file hm
    · exact .answer rfl hm

theorem mirrors_settleAtoms (h : SaysSame K c c') (places : AtomTable (Option Location)) (l : List Atom) :
    (settleAtoms c places l).Mirrors K (settleAtoms c' places l) := by
  intro p q hindex hmemory
  induction l generalizing p q with
  | nil => exact ⟨hindex, rfl, hmemory⟩
  | cons a rest ih =>
    have hask := sameAnswer_askInSource h hmemory (places.find? a).join
    unfold settleAtoms Index.classify
    rw [hindex]
    generalize Index.askInSource c p.memory (places.find? a).join = o at hask ⊢
    generalize Index.askInSource c' q.memory (places.find? a).join = o' at hask ⊢
    cases hask with
    | answer hsame hm =>
      dsimp only
      rw [hsame]
      exact ih _ _ rfl hm
    | missing u => exact ⟨rfl, rfl, hmemory⟩

theorem mirrors_settleStage (h : SaysSame K c c') (places : AtomTable (Option Location)) :
    (settleStage c places).Mirrors K (settleStage c' places) := by
  intro p q hindex hmemory
  rw [settleStage, settleStage, hindex]
  exact mirrors_settleAtoms h places _ p q hindex hmemory

theorem mirrors_stages (h : SaysSame K c c') (d : Document) : (stages c d).Mirrors K (stages c' d) :=
  (mirrors_ofSection d.atoms).andThen <|
  (mirrors_ofSection d.roots).andThen <|
  (mirrors_ofSection d.edges).andThen <|
  (mirrors_say _ _).andThen <|
  (mirrors_ofSection d.indirect).andThen <|
  (mirrors_ofSection d.pointers).andThen <|
  (mirrors_liftStage d.listsPointers).andThen <|
  (mirrors_settleStage h d.places).andThen <|
  (mirrors_fillStage d.places).andThen <|
  (mirrors_stopAt d.casts.fault).andThen <|
  (mirrors_stopAt d.voids.fault).andThen <|
  (mirrors_say _ _).andThen <|
  (mirrors_stopAt d.counts.fault).andThen <|
  mirrors_say _ _

end Stage

end Snapshot

namespace FileRules

open Snapshot

/-- The rules with no memory. -/
def bareClassifier (r : FileRules) : Classifier Unit :=
  ⟨fun _ file => (r.accepts file).map fun accepted => ⟨accepted, (), []⟩⟩

/-- The classifier says what the bare rules say, once it was asked about some files and then about more. -/
theorem saysSame_bareClassifier (r : FileRules) (asked : List Text) :
    SaysSame (fun m _ => ∃ more, m = r.memoryAfter (asked ++ more)) r.classifier r.bareClassifier := by
  rintro m - file ⟨more, rfl⟩
  have haccepted := (r.recalls_memoryAfter (asked ++ more)).accepted_ask file
  have hmemory := r.memoryAfter_concat (asked ++ more) file
  unfold remember at hmemory
  simp only [bareClassifier, ← haccepted]
  cases ho : r.classifier.ask (r.memoryAfter (asked ++ more)) file with
  | error u => exact .missing u
  | ok answer =>
    rw [ho, List.append_assoc] at hmemory
    exact .answer rfl ⟨more ++ [file], hmemory.symm⟩

/-- A load with a classifier does what it does with the bare rules. -/
theorem load_eq_bare (r : FileRules) (asked : List Text) (ix : Index) (d : Document) :
    let loaded := load r.classifier (r.memoryAfter asked) ix d
    let bare := load r.bareClassifier () ix d
    bare.progress.index = loaded.progress.index ∧ bare.error = loaded.error ∧
      ∃ more, loaded.progress.memory = r.memoryAfter (asked ++ more) := by
  have h := Stage.mirrors_stages (r.saysSame_bareClassifier asked) d
  exact h { index := ix, memory := r.memoryAfter asked } { index := ix, memory := () } rfl ⟨[], by simp⟩

/-- Whatever a classifier was asked before, its verdict on a file is that of the rules, and it remembers exactly the
verdicts it has given on files with a name. A load does the same with it as with one that was asked nothing, and only
asks it about more files. -/
theorem memory_transparent (r : FileRules) (asked : List Text) :
    (∀ file, r.verdict asked file = r.accepts file) ∧ r.verdict asked "" = .ok false ∧
    r.Remembers asked (r.memoryAfter asked) ∧
    ∀ (ix : Index) (d : Document),
      let loaded := load r.classifier (r.memoryAfter asked) ix d
      let fresh := load r.classifier [] ix d
      loaded.progress.index = fresh.progress.index ∧ loaded.error = fresh.error ∧
        ∃ more, loaded.progress.memory = r.memoryAfter (asked ++ more) := by
  refine ⟨r.verdict_eq_accepts asked, r.verdict_eq_accepts asked "", r.remembers_memoryAfter asked, fun ix d => ?_⟩
  obtain ⟨hindex, herror, hmore⟩ := r.load_eq_bare asked ix d
  obtain ⟨hindex', herror', -⟩ := r.load_eq_bare [] ix d
  exact ⟨hindex.symm.trans hindex', herror.symm.trans herror', hmore⟩

end FileRules

end Blame
