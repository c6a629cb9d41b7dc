import Blame.FileRules
import Blame.Proofs.Routes
import Mathlib.Data.List.Forall2

/-!
# Project files by the routes of their paths

A classifier lets the routes of paths decide, and what it was asked before makes no difference
(`verdict_eq_accepts`): a file belongs to the project iff no directory of system headers covers it, no glob fits it,
and a base directory covers it if there are any. A directory with two slashes at its front covers nothing, and a file
without a route has no verdict.
-/

namespace Blame

theorem mapM_eq_ok_iff {ε α β : Type} {f : α → Except ε β} {l : List α} {l' : List β} :
    l.mapM f = .ok l' ↔ List.Forall₂ (fun x y => f x = .ok y) l l' := by
  induction l generalizing l' with
  | nil => cases l' <;> simp [pure, Except.pure]
  | cons x rest ih =>
    rw [List.mapM_cons]
    cases hx : f x with
    | error e => cases l' <;> simp [bind, Except.bind, hx]
    | ok y =>
      cases hrest : rest.mapM f with
      | error e => cases l' <;> simp [bind, Except.bind, hx, ← ih, hrest]
      | ok ys => cases l' <;> simp [bind, Except.bind, pure, Except.pure, hx, ← ih, hrest]

end Blame

namespace Blame.FileRules

/-! ### Whatever was asked before -/

section
variable {r : FileRules} {memory : VerdictCache} {file : Text}

/-- What the classifier remembers after one more question. -/
def remember (r : FileRules) (memory : VerdictCache) (file : Text) : VerdictCache :=
  match r.classifier.ask memory file with
  | .ok answer => answer.memory
  | .error _ => memory

/-- What the classifier remembers once it was asked about some files. -/
def memoryAfter (r : FileRules) (asked : List Text) : VerdictCache := asked.foldl r.remember []

/-- The verdict on a file once the classifier was asked about others. -/
def verdict (r : FileRules) (asked : List Text) (file : Text) : Except Unclassifiable Bool :=
  (r.classifier.ask (r.memoryAfter asked) file).map (·.accepted)

/-- What is remembered is what the rules say. -/
def Recalls (r : FileRules) (memory : VerdictCache) : Prop :=
  ∀ file b, memory.lookup file = some b → r.accepts file = .ok b

theorem recalls_nil : r.Recalls [] := nofun

theorem ask_cases (r : FileRules) (memory : VerdictCache) (file : Text) :
    (file = "" ∧ r.classifier.ask memory file = .ok ⟨false, memory, []⟩) ∨
    (file ≠ "" ∧ ∃ b, memory.lookup file = some b ∧ r.classifier.ask memory file = .ok ⟨b, memory, []⟩) ∨
    (file ≠ "" ∧ memory.lookup file = none ∧ r.classifier.ask memory file = (r.find file).map fun finding =>
      ⟨finding == .project, (file, finding == .project) :: memory, findingLog file finding⟩) := by
  by_cases hfile : file = ""
  · subst hfile
    exact .inl ⟨rfl, rfl⟩
  · cases hlookup : memory.lookup file with
    | some b => exact .inr (.inl ⟨hfile, b, rfl, by simp [classifier, hfile, hlookup]⟩)
    | none => exact .inr (.inr ⟨hfile, rfl, by simp [classifier, hfile, hlookup]⟩)

theorem Recalls.accepted_ask (h : r.Recalls memory) (file : Text) :
    (r.classifier.ask memory file).map (·.accepted) = r.accepts file := by
  rcases r.ask_cases memory file with ⟨rfl, ho⟩ | ⟨-, b, hb, ho⟩ | ⟨-, -, ho⟩ <;> rw [ho]
  · rfl
  · exact (h file b hb).symm
  · rw [accepts]
    cases r.find file <;> rfl

theorem Recalls.memory_ask (h : r.Recalls memory) {answer : Answer VerdictCache}
    (ha : r.classifier.ask memory file = .ok answer) : r.Recalls answer.memory := by
  rcases r.ask_cases memory file with ⟨-, ho⟩ | ⟨-, b, -, ho⟩ | ⟨-, -, ho⟩ <;> rw [ho] at ha
  · cases ha
    exact h
  · cases ha
    exact h
  · cases hfind : r.find file with
    | error u =>
      rw [hfind] at ha
      cases ha
    | ok finding =>
      rw [hfind] at ha
      cases ha
      intro f b hb
      rw [List.lookup_cons] at hb
      split at hb
      · rename_i hf
        rw [beq_iff_eq] at hf
        rw [hf, accepts, hfind]
        exact congrArg Except.ok (Option.some.inj hb)
      · exact h f b hb

theorem Recalls.remember (h : r.Recalls memory) (file : Text) : r.Recalls (r.remember memory file) := by
  rw [FileRules.remember]
  cases ha : r.classifier.ask memory file with
  | ok answer => exact h.memory_ask ha
  | error u => exact h

theorem recalls_memoryAfter (r : FileRules) (asked : List Text) : r.Recalls (r.memoryAfter asked) := by
  have hrun : ∀ memory, r.Recalls memory → r.Recalls (asked.foldl r.remember memory) := by
    intro memory hmemory
    induction asked generalizing memory with
    | nil => exact hmemory
    | cons file rest ih => exact ih _ (hmemory.remember file)
  exact hrun [] recalls_nil

theorem verdict_eq_accepts (r : FileRules) (asked : List Text) (file : Text) :
    r.verdict asked file = r.accepts file :=
  (r.recalls_memoryAfter asked).accepted_ask file

end

/-! ### The rules, one by one -/

section
variable {ctx : Path.Context} {baseDirs systemDirs globs : List Text} {r : FileRules} {file : Text}

theorem normal_eq_ok_iff {p q : Text} : normal ctx p = .ok q ↔ Path.normalise ctx p = .ok q := by
  unfold normal
  cases Path.normalise ctx p <;> simp [Except.mapError]

theorem normal_eq_error_iff {p : Text} {u : Unclassifiable} :
    normal ctx p = .error u ↔ ∃ f, Path.userFault? p = some f ∧ u = .ofName f := by
  simp only [← Path.normalise_eq_error_iff ctx]
  unfold normal
  cases Path.normalise ctx p <;> simp [Except.mapError, eq_comm]

/-- The rules were made for some directories: they hold their normal forms. -/
structure MadeFor (r : FileRules) (ctx : Path.Context) (baseDirs systemDirs : List Text)
    (globs : List (Option Text)) : Prop where
  context : r.context = ctx
  baseDirs : List.Forall₂ (fun d d' => Path.normalise ctx d = .ok d') baseDirs r.baseDirs
  systemDirs : List.Forall₂ (fun d d' => Path.normalise ctx d = .ok d') systemDirs r.systemDirs
  globs : r.generatedGlobs = globs

theorem madeFor_of_make {globs : List (Option Text)} (hr : make ctx baseDirs systemDirs globs = .ok r) :
    r.MadeFor ctx baseDirs systemDirs globs := by
  unfold make at hr
  cases hbase : baseDirs.mapM (normal ctx) with
  | error u =>
    rw [hbase] at hr
    cases hr
  | ok baseDirs' =>
    cases hsystem : systemDirs.mapM (normal ctx) with
    | error u =>
      rw [hbase, hsystem] at hr
      cases hr
    | ok systemDirs' =>
      rw [hbase, hsystem] at hr
      cases hr
      simp only [mapM_eq_ok_iff, normal_eq_ok_iff] at hbase hsystem
      exact ⟨rfl, hbase, hsystem, rfl⟩

theorem any_isUnder_iff {dirs dirs' : List Text} {p : Text} (hcwd : Path.isAbsolute ctx.cwd.toList = true)
    (hp : Path.normalise ctx file = .ok p)
    (hdirs : List.Forall₂ (fun d d' => Path.normalise ctx d = .ok d') dirs dirs') :
    dirs'.any (Path.isUnder p) = true ↔ ∃ d ∈ dirs, Path.Covers ctx d file ∧ ¬ Path.HasTwoSlashes ctx d := by
  induction hdirs with
  | nil => simp
  | cons hd _ ih => rw [List.any_cons, Bool.or_eq_true, ih, Path.isUnder_normalise hcwd hp hd, List.exists_mem_cons_iff]

theorem anyGlobFits_map_some (file : Text) (globs : List Text) :
    anyGlobFits file (globs.map some) = .ok (globs.any (globFits file)) := by
  induction globs with
  | nil => rfl
  | cons glob rest ih =>
    rw [List.map_cons, anyGlobFits, ih, List.any_cons]
    split <;> simp [*]

theorem globFits_eq_false_iff {glob : Text} :
    globFits file glob = false ↔
      Path.Glob.fits glob file.toList = false ∧ Path.Glob.fits glob (Path.baseName file.toList) = false := by
  rw [globFits, Bool.or_eq_false_iff]

theorem accepts_of_userFault? {f : Path.NameFault} (hfile : file ≠ "") (hf : Path.userFault? file = some f) :
    r.accepts file = .error (.ofName f) := by
  have hne : ¬ file.isEmpty = true := mt Text.isEmpty_iff.1 hfile
  have hnormal : normal r.context file = .error (.ofName f) := normal_eq_error_iff.2 ⟨f, hf, rfl⟩
  simp [accepts, find, isSystemHeader, hne, hnormal, Except.map, bind, Except.bind]

theorem accepts_of_normalise {p : Text} (hfile : file ≠ "") (hp : Path.normalise r.context file = .ok p)
    (hglobs : r.generatedGlobs = globs.map some) :
    r.accepts file = .ok (!r.systemDirs.any (Path.isUnder p) && !globs.any (globFits file) &&
      (r.baseDirs.isEmpty || r.baseDirs.any (Path.isUnder p))) := by
  have hne : ¬ file.isEmpty = true := mt Text.isEmpty_iff.1 hfile
  have hnormal : normal r.context file = .ok p := normal_eq_ok_iff.2 hp
  have hsystem : r.isSystemHeader file = .ok (r.systemDirs.any (Path.isUnder p)) := by
    rw [isSystemHeader, hnormal, Except.map]
  have hgenerated : r.isGenerated file = .ok (globs.any (globFits file)) := by
    rw [isGenerated, hglobs, anyGlobFits_map_some]
  have hbase : r.isInBase file = .ok (r.baseDirs.isEmpty || r.baseDirs.any (Path.isUnder p)) := by
    rw [isInBase, hnormal]
    cases r.baseDirs.isEmpty <;> rfl
  rw [accepts, find, if_neg hne, hsystem, hgenerated, hbase]
  cases r.systemDirs.any (Path.isUnder p) <;> cases globs.any (globFits file) <;>
    cases r.baseDirs.isEmpty || r.baseDirs.any (Path.isUnder p) <;> rfl

theorem accepts_cases (hglobs : r.generatedGlobs = globs.map some) (hfile : file ≠ "") :
    (∃ f, Path.userFault? file = some f ∧ r.accepts file = .error (.ofName f)) ∨
    (Path.userFault? file = none ∧ ∃ b, r.accepts file = .ok b) := by
  cases hf : Path.userFault? file with
  | some f => exact .inl ⟨f, rfl, accepts_of_userFault? hfile hf⟩
  | none =>
    obtain ⟨p, hp⟩ := (Path.exists_normalise_iff r.context).2 hf
    exact .inr ⟨rfl, _, accepts_of_normalise hfile hp hglobs⟩

theorem accepts_eq_true_iff (hcwd : Path.isAbsolute ctx.cwd.toList = true)
    (hr : r.MadeFor ctx baseDirs systemDirs (globs.map some)) (hfile : file ≠ "") :
    r.accepts file = .ok true ↔ Path.userFault? file = none ∧
      (∀ s ∈ systemDirs, Path.Covers ctx s file → Path.HasTwoSlashes ctx s) ∧
      (∀ g ∈ globs, Path.Glob.fits g file.toList = false ∧
        Path.Glob.fits g (Path.baseName file.toList) = false) ∧
      (baseDirs = [] ∨ ∃ d ∈ baseDirs, Path.Covers ctx d file ∧ ¬ Path.HasTwoSlashes ctx d) := by
  cases hf : Path.userFault? file with
  | some f => simp [accepts_of_userFault? hfile hf]
  | none =>
    obtain ⟨p, hp⟩ := (Path.exists_normalise_iff ctx).2 hf
    have hsystem := any_isUnder_iff hcwd hp hr.systemDirs
    have hbase := any_isUnder_iff hcwd hp hr.baseDirs
    have hnone : r.baseDirs.isEmpty = true ↔ baseDirs = [] := by
      rw [List.isEmpty_iff, ← List.length_eq_zero_iff, ← hr.baseDirs.length_eq, List.length_eq_zero_iff]
    rw [accepts_of_normalise hfile (hr.context ▸ hp) hr.globs, Except.ok.injEq, Bool.and_eq_true, Bool.and_eq_true,
      Bool.not_eq_true', Bool.not_eq_true', eq_self, true_and, and_assoc]
    refine and_congr ?_ (and_congr ?_ ?_)
    · rw [← Bool.not_eq_true, hsystem]
      simp
    · simp only [List.any_eq_false, Bool.not_eq_true, globFits_eq_false_iff]
    · rw [Bool.or_eq_true, hbase, hnone]

theorem within_ne_empty {dir file : Text} (hempty : dir = "" → file ≠ "") : Path.within dir file ≠ "" := by
  intro h
  have hjoined : Path.joinPath dir.toList file.toList = [] := by
    rw [← Text.toList_ofList (l := Path.joinPath _ _)]
    exact Text.toList_eq_nil_iff.2 h
  have hnil : dir.toList = [] ∧ file.toList = [] := by
    unfold Path.joinPath at hjoined
    split at hjoined
    · rename_i hfile
      rw [hjoined] at hfile
      cases hfile
    · split at hjoined
      · exact List.append_eq_nil_iff.1 hjoined
      · exact absurd (List.append_eq_nil_iff.1 hjoined).2 (List.cons_ne_nil _ _)
  exact hempty (Text.toList_eq_nil_iff.1 hnil.1) (Text.toList_eq_nil_iff.1 hnil.2)

/-- Whatever was asked before, a classifier has a verdict on every path but one that starts with the name of a user
nobody can be asked for. A file belongs to the project iff no directory of system headers comes first on its route, no
glob fits it or its last component, and a base directory comes first on its route if there are any; but a directory
with two slashes at its front is on no route. So a file in a base directory belongs to the project, however the
directory is spelled otherwise, unless it is a system header or a glob fits it. -/
theorem verdict_by_route (hcwd : Path.isAbsolute ctx.cwd.toList = true)
    (hr : make ctx baseDirs systemDirs (globs.map some) = .ok r) (asked : List Text) :
    (∀ file : Text, file ≠ "" →
      (∀ u, r.verdict asked file = .error u ↔ ∃ f, Path.userFault? file = some f ∧ u = .ofName f) ∧
      ((∃ b, r.verdict asked file = .ok b) ↔ Path.userFault? file = none) ∧
      (r.verdict asked file = .ok true ↔ Path.userFault? file = none ∧
        (∀ s ∈ systemDirs, Path.Covers ctx s file → Path.HasTwoSlashes ctx s) ∧
        (∀ g ∈ globs, Path.Glob.fits g file.toList = false ∧
          Path.Glob.fits g (Path.baseName file.toList) = false) ∧
        (baseDirs = [] ∨ ∃ d ∈ baseDirs, Path.Covers ctx d file ∧ ¬ Path.HasTwoSlashes ctx d))) ∧
    ∀ d ∈ baseDirs, ¬ Path.HasTwoSlashes ctx d → ∀ inside : Text,
      Path.isAbsolute inside.toList = false → Path.up ∉ Path.components inside.toList →
      (d = "" → inside ≠ "" ∧ inside.toList.head? ≠ some (.char '~')) →
      (∀ s ∈ systemDirs, ¬ Path.Covers ctx s (Path.within d inside)) →
      (∀ g ∈ globs, Path.Glob.fits g (Path.within d inside).toList = false ∧
        Path.Glob.fits g (Path.baseName (Path.within d inside).toList) = false) →
      r.verdict asked (Path.within d inside) = .ok true := by
  have hmade := madeFor_of_make hr
  refine ⟨fun file hfile => ?_, fun d hd htwo inside hrelative hup hempty hsystem hglobs => ?_⟩
  · rw [r.verdict_eq_accepts]
    refine ⟨fun u => ?_, ?_, accepts_eq_true_iff hcwd hmade hfile⟩ <;>
      rcases accepts_cases hmade.globs hfile with ⟨f, hf, ho⟩ | ⟨hf, b, ho⟩ <;> simp [hf, ho, eq_comm]
  · obtain ⟨d', hform⟩ : ∃ d', Path.normalise ctx d = .ok d' := by
      obtain ⟨n, hn, rfl⟩ := List.getElem_of_mem hd
      exact ⟨_, (List.forall₂_iff_get.1 hmade.baseDirs).2 n hn (hmade.baseDirs.length_eq ▸ hn)⟩
    obtain ⟨p, hexpanded⟩ := Path.exists_expandUser hform
    obtain ⟨q, hq, -⟩ := Path.exists_expandUser_within hrelative (fun h => (hempty h).2) hexpanded
    have hf : Path.userFault? (Path.within d inside) = none :=
      (Path.exists_normalise_iff ctx).1 ⟨_, Path.normalise_eq_ok hcwd hq⟩
    have hcovers := Path.covers_within hcwd hrelative hup (fun h => (hempty h).2) hexpanded
    rw [r.verdict_eq_accepts, accepts_eq_true_iff hcwd hmade (within_ne_empty fun h => (hempty h).1)]
    exact ⟨hf, fun s hs h => absurd h (hsystem s hs), hglobs, .inr ⟨d, hd, hcovers, htwo⟩⟩

end

/-- A project in the home directory of one user, with generated files in it, and the headers of another. -/
def homeProject : FileRules where
  context := ⟨"/w", some "/h/", ⟨some "/own", [([97, 110, 110], "/srv/ann/")]⟩⟩
  baseDirs := ["/h/p"]
  systemDirs := ["/srv/ann/include"]
  generatedGlobs := [some "*.gen.c"]

theorem verdict_by_route_homeProject :
    Path.isAbsolute homeProject.context.cwd.toList = true ∧
    make homeProject.context ["~/x/../p/"] ["~ann/include"] ["*.gen.c"] = .ok homeProject ∧
    homeProject.verdict ["p/b.c", "~/p/b.gen.c"] "~/x/../p/src/a.c" = .ok true ∧
    homeProject.verdict ["p/b.c", "~/p/b.gen.c"] "~/p/b.gen.c" = .ok false ∧
    homeProject.verdict ["p/b.c"] "~ann/x/../include/s.h" = .ok false ∧
    homeProject.verdict [] (.ofList [.char '~', .half 0, .char '/']) =
      .error (.unencodable ⟨"utf-8", 0, 1, .half 0, "surrogates not allowed"⟩) := by
  have hcwd : Path.isAbsolute homeProject.context.cwd.toList = true := by decide +kernel
  have hr : make homeProject.context ["~/x/../p/"] ["~ann/include"] (["*.gen.c"].map some) = .ok homeProject := by
    decide +kernel
  have hverdict := verdict_by_route hcwd hr
  have hrefused (asked : List Text) (file : Text) (hfile : file ≠ "") (hf : Path.userFault? file = none)
      (hno : homeProject.verdict asked file ≠ .ok true) : homeProject.verdict asked file = .ok false := by
    obtain ⟨b, hb⟩ := ((hverdict asked).1 file hfile).2.1.2 hf
    cases b with
    | false => exact hb
    | true => exact absurd hb hno
  refine ⟨hcwd, hr, ?_, ?_, ?_, ?_⟩
  · exact (hverdict _).2 "~/x/../p/" (by decide) (by decide +kernel) "src/a.c" (by decide +kernel)
      (by decide +kernel) (by decide) (by decide +kernel) (by decide +kernel)
  · exact hrefused _ _ (by decide) (by decide +kernel) fun h =>
      absurd (((hverdict _).1 _ (by decide)).2.2.1 h).2.2.1 (by decide +kernel)
  · exact hrefused _ _ (by decide) (by decide +kernel) fun h =>
      absurd (((hverdict _).1 _ (by decide)).2.2.1 h).2.1 (by decide +kernel)
  · exact (((hverdict []).1 _ (by decide)).1 _).2
      ⟨.unencodable ⟨"utf-8", 0, 1, .half 0, "surrogates not allowed"⟩, by decide +kernel, rfl⟩

/-- A project in a directory with two slashes at its front. -/
def twoSlashes : FileRules := ⟨⟨"/w", none, {}⟩, ["//p"], [], []⟩

/-- The file lies in the base directory, but is taken for one elsewhere. -/
theorem elsewhere_twoSlashes :
    make twoSlashes.context ["//p"] [] [] = .ok twoSlashes ∧ Path.within "//p" "a.c" = "//p/a.c" ∧
    Path.Covers twoSlashes.context "//p" "//p/a.c" ∧ twoSlashes.find "//p/a.c" = .ok .elsewhere ∧
    twoSlashes.verdict [] "//p/a.c" = .ok false := by
  decide +kernel

end Blame.FileRules
