import Blame.RunStats
import Mathlib.Algebra.Order.Field.Rat
import Mathlib.Data.List.Induction
import Mathlib.Tactic.Ring

/-!
# Timers over whole runs

What a run has measured is told by its events alone, each with the reading of the clock then. A phase is running if it
was started since it was last stopped (`Running`), and its time is that of its spans, each from the latest start to a
stop (`Tells`). A call about one phase or counter says nothing of another, so a timed block ends the phase it began if
no call made in it is about that phase (`Code.run_other`), and adds the time between (`AddsOwnTime`).
-/

namespace Blame.Session

/-! ### Runs -/

/-- A call to the statistics of a run. -/
inductive Call where
  | start (p : Phase)
  | stop (p : Phase)
  | increment (c : Counter) (amount : Int)
  | decrement (c : Counter)
  deriving DecidableEq, Repr

/-- A call that was made, with the reading of the clock then. -/
structure Event (τ : Type) where
  call : Call
  now : τ
  refused : Bool
  deriving DecidableEq, Repr

section
variable {τ : Type} [Zero τ] [Add τ] [Sub τ]

/-- Does a call: what it leaves, and why it was refused if it was. -/
def Call.perform (s : Session τ) : Call → Session τ × Option NotStarted
  | .start p => (s.start p, none)
  | .stop p =>
    match s.stop p with
    | .ok (s, _) => (s, none)
    | .error e => (s, some e)
  | .increment c n => ({ s with stats := s.stats.increment c n }, none)
  | .decrement c => ({ s with stats := s.stats.decrement c }, none)

def Call.event (s : Session τ) (c : Call) : Event τ := ⟨c, s.clock.read.1, (c.perform s).2.isSome⟩

/-- Does calls in turn on statistics without anything measured: what they leave, and the events, the latest first. -/
def run (clock : Clock τ) (calls : List Call) : Session τ × List (Event τ) :=
  calls.foldl (fun r c => ((c.perform r.1).1, c.event r.1 :: r.2)) (⟨.initial, clock⟩, [])

end

/-! ### What events tell -/

section
variable {τ : Type}

def Event.starts (p : Phase) (e : Event τ) : Bool := e.call = .start p

/-- A refused stop is none. -/
def Event.stops (p : Phase) (e : Event τ) : Bool := e.call = .stop p && !e.refused

/-- The phase was started, and it was not stopped since. -/
def Running (p : Phase) (events : List (Event τ)) : Prop :=
  ∃ later e earlier, events = later ++ e :: earlier ∧ e.starts p = true ∧ ∀ f ∈ later, f.stops p = false

/-- The reading of the clock at the latest start of a phase. -/
def lastStart? (p : Phase) (events : List (Event τ)) : Option τ := (events.find? (·.starts p)).map (·.now)

/-- How long it was from the latest start to each stop of a phase. -/
def spans [Sub τ] (p : Phase) : List (Event τ) → List τ
  | [] => []
  | e :: earlier =>
    (if e.stops p then ((lastStart? p earlier).map (e.now - ·)).toList else []) ++ spans p earlier

end

/-- What the calls added to a counter. -/
def amounts (c : Counter) (calls : List Call) : List Int :=
  calls.filterMap fun
    | .increment d n => if d = c then some n else none
    | _ => none

/-- What the events say of a phase is what the statistics have of it. -/
structure Tells (p : Phase) (events : List (Event ℚ)) (stats : RunStats ℚ) : Prop where
  started : ∀ t, stats.started p = some t ↔ Running p events ∧ lastStart? p events = some t
  time : stats.times p = (spans p events).sum
  one_each : (spans p events).length = events.countP (·.stops p)

/-! ### Code -/

/-- Code that has the statistics of a run, up to where it ends or fails. It goes on as it likes after what it sees. -/
inductive Code (τ ε : Type) where
  | finish
  | fail (e : ε)
  | look (next : RunStats τ → Code τ ε)
  | readClock (next : τ → Code τ ε)
  | call (c : Call) (next : Option NotStarted → Code τ ε)
  | timed (p : Phase) (body : Code τ ε) (next : Option (TimedFailure ε) → Code τ ε)

namespace Code
variable {τ ε : Type} [Zero τ] [Add τ] [Sub τ]

/-- What the code leaves, and what it failed with if it did. -/
def run : Code τ ε → Session τ → Session τ × Option ε
  | finish => fun s => (s, none)
  | fail e => fun s => (s, some e)
  | look next => fun s => (next s.stats).run s
  | readClock next => fun s => (next s.clock.read.1).run { s with clock := s.clock.read.2 }
  | call c next => fun s => (next (c.perform s).2).run (c.perform s).1
  | timed p body next => fun s => (next (s.timed p body.run).2).run (s.timed p body.run).1

/-- The calls that are made when the code runs, also those by which a timed block begins and ends its phase. -/
def calls : Code τ ε → Session τ → List Call
  | finish, _ => []
  | fail _, _ => []
  | look next, s => (next s.stats).calls s
  | readClock next, s => (next s.clock.read.1).calls { s with clock := s.clock.read.2 }
  | call c next, s => c :: (next (c.perform s).2).calls (c.perform s).1
  | timed p body next, s =>
    .start p :: body.calls (s.start p) ++ .stop p :: (next (s.timed p body.run).2).calls (s.timed p body.run).1

end Code

/-! ### What one call does -/

section
variable {τ : Type} [Zero τ] [Add τ] [Sub τ] {s : Session τ} {p : Phase} {c : Call}

/-- What is left when a phase ends that is running since a reading of the clock. -/
def stopped (s : Session τ) (p : Phase) (began : τ) : Session τ :=
  ⟨{ s.stats with
      times := fun q => if q = p then s.stats.times q + (s.clock.read.1 - began) else s.stats.times q
      started := fun q => if q = p then none else s.stats.started q }, s.clock.read.2⟩

theorem stop_of_not_started (h : s.stats.started p = none) : s.stop p = .error ⟨p⟩ := by
  simp [stop, RunStats.stop, h, Except.map]

theorem stop_of_started {began : τ} (h : s.stats.started p = some began) :
    s.stop p = .ok (s.stopped p began, s.clock.read.1 - began) := by
  simp [stop, RunStats.stop, h, Except.map, stopped]

theorem perform_stop_of_not_started (h : s.stats.started p = none) : (Call.stop p).perform s = (s, some ⟨p⟩) := by
  rw [Call.perform, stop_of_not_started h]

theorem perform_stop_of_started {began : τ} (h : s.stats.started p = some began) :
    (Call.stop p).perform s = (s.stopped p began, none) := by
  rw [Call.perform, stop_of_started h]

theorem perform_counts (d : Counter) :
    (c.perform s).1.stats.counts d = s.stats.counts d + (amounts d [c]).sum - [c].count (.decrement d) := by
  cases c with
  | start q => simp [Call.perform, start, RunStats.start, amounts]
  | stop q =>
    cases hstarted : s.stats.started q with
    | none => simp [perform_stop_of_not_started hstarted, amounts]
    | some began => simp [perform_stop_of_started hstarted, stopped, amounts]
  | increment c n => by_cases hc : c = d <;> simp [Call.perform, RunStats.increment, amounts, hc, Ne.symm]
  | decrement c =>
    by_cases hc : d = c
    · simp [Call.perform, RunStats.decrement, RunStats.increment, amounts, hc, Int.sub_eq_add_neg]
    · simp [Call.perform, RunStats.decrement, RunStats.increment, amounts, hc, Ne.symm hc]

theorem perform_other (hstart : c ≠ .start p) (hstop : c ≠ .stop p) :
    (c.perform s).1.stats.times p = s.stats.times p ∧ (c.perform s).1.stats.started p = s.stats.started p := by
  cases c with
  | start q =>
    have hq : p ≠ q := fun h => hstart (h ▸ rfl)
    simp [Call.perform, start, RunStats.start, hq]
  | stop q =>
    have hq : p ≠ q := fun h => hstop (h ▸ rfl)
    cases hstarted : s.stats.started q with
    | none => simp [perform_stop_of_not_started hstarted]
    | some began => simp [perform_stop_of_started hstarted, stopped, hq]
  | increment c n => exact ⟨rfl, rfl⟩
  | decrement c => exact ⟨rfl, rfl⟩

end

/-! ### What events tell, one by one -/

section
variable {τ : Type} {p : Phase} {e : Event τ} {events : List (Event τ)}

theorem not_running_nil : ¬ Running p ([] : List (Event τ)) := by
  rintro ⟨later, e, earlier, h, -⟩
  simp at h

theorem running_cons : Running p (e :: events) ↔ e.starts p = true ∨ e.stops p = false ∧ Running p events := by
  constructor
  · rintro ⟨_ | ⟨f, later⟩, g, earlier, h, hg, hlater⟩
    · cases h
      exact .inl hg
    · cases h
      exact .inr ⟨hlater _ (by simp), later, g, earlier, rfl, hg, fun f hf => hlater f (by simp [hf])⟩
  · rintro (he | ⟨he, later, g, earlier, rfl, hg, hlater⟩)
    · exact ⟨[], e, events, rfl, he, by simp⟩
    · exact ⟨e :: later, g, earlier, rfl, hg, List.forall_mem_cons.2 ⟨he, hlater⟩⟩

instance decidableRunning (p : Phase) : (events : List (Event τ)) → Decidable (Running p events)
  | [] => isFalse not_running_nil
  | _ :: events =>
    have := decidableRunning p events
    decidable_of_iff _ running_cons.symm

theorem Running.exists_lastStart? (h : Running p events) : ∃ t, lastStart? p events = some t := by
  obtain ⟨later, e, earlier, rfl, he, -⟩ := h
  have hfound : ((later ++ e :: earlier).find? (·.starts p)).isSome := List.find?_isSome.2 ⟨e, by simp, he⟩
  obtain ⟨f, hf⟩ := Option.isSome_iff_exists.1 hfound
  exact ⟨f.now, by rw [lastStart?, hf, Option.map_some]⟩

theorem lastStart?_cons_of_starts (he : e.starts p = true) : lastStart? p (e :: events) = some e.now := by
  simp [lastStart?, he]

theorem lastStart?_cons_of_not_starts (he : e.starts p = false) :
    lastStart? p (e :: events) = lastStart? p events := by
  simp [lastStart?, he]

theorem spans_cons_of_not_stops [Sub τ] (he : e.stops p = false) : spans p (e :: events) = spans p events := by
  simp [spans, he]

theorem spans_cons_of_stops [Sub τ] {t : τ} (he : e.stops p = true) (ht : lastStart? p events = some t) :
    spans p (e :: events) = (e.now - t) :: spans p events := by
  simp [spans, he, ht]

end

/-! ### What a run measured -/

namespace Tells
variable {p : Phase} {events : List (Event ℚ)} {stats stats' : RunStats ℚ} {e : Event ℚ} {s : Session ℚ}

theorem nil : Tells p [] .initial where
  started t := by simp [RunStats.initial, not_running_nil]
  time := rfl
  one_each := rfl

theorem not_started_iff (h : Tells p events stats) : stats.started p = none ↔ ¬ Running p events := by
  constructor
  · intro hnone hrunning
    obtain ⟨t, ht⟩ := hrunning.exists_lastStart?
    rw [(h.started t).2 ⟨hrunning, ht⟩] at hnone
    cases hnone
  · intro hnot
    cases hstarted : stats.started p with
    | none => rfl
    | some t => exact absurd ((h.started t).1 hstarted).1 hnot

/-- An event that neither starts nor stops the phase says nothing of it. -/
theorem cons_other (h : Tells p events stats) (hstarts : e.starts p = false) (hstops : e.stops p = false)
    (htime : stats'.times p = stats.times p) (hstarted : stats'.started p = stats.started p) :
    Tells p (e :: events) stats' where
  started t := by
    rw [hstarted, running_cons, lastStart?_cons_of_not_starts hstarts, h.started]
    simp [hstarts, hstops]
  time := by rw [htime, spans_cons_of_not_stops hstops, h.time]
  one_each := by rw [spans_cons_of_not_stops hstops, List.countP_cons_of_neg (by simp [hstops]), h.one_each]

theorem cons_start (h : Tells p events s.stats) :
    Tells p ((Call.start p).event s :: events) ((Call.start p).perform s).1.stats := by
  have hstarts : ((Call.start p).event s).starts p = true := by simp [Event.starts, Call.event]
  have hstops : ((Call.start p).event s).stops p = false := by simp [Event.stops, Call.event]
  refine ⟨fun t => ?_, ?_, ?_⟩
  · rw [running_cons, lastStart?_cons_of_starts hstarts]
    simp only [hstarts, true_or, true_and]
    simp [Call.perform, start, RunStats.start, Call.event]
  · rw [spans_cons_of_not_stops hstops]
    exact h.time
  · rw [spans_cons_of_not_stops hstops, List.countP_cons_of_neg (by simp [hstops]), h.one_each]

theorem cons_stop (h : Tells p events s.stats) :
    Tells p ((Call.stop p).event s :: events) ((Call.stop p).perform s).1.stats := by
  have hstarts : ((Call.stop p).event s).starts p = false := by simp [Event.starts, Call.event]
  cases hstarted : s.stats.started p with
  | none =>
    have hperform := perform_stop_of_not_started hstarted
    refine h.cons_other hstarts ?_ ?_ ?_ <;> simp [Event.stops, Call.event, hperform]
  | some began =>
    have hperform := perform_stop_of_started hstarted
    have hstops : ((Call.stop p).event s).stops p = true := by simp [Event.stops, Call.event, hperform]
    have hspans := spans_cons_of_stops hstops ((h.started began).1 hstarted).2
    refine ⟨fun t => ?_, ?_, ?_⟩
    · rw [running_cons, hperform]
      simp [hstarts, hstops, stopped]
    -- the latest span stands first and is added last
    · rw [hspans, hperform, List.sum_cons, ← h.time, add_comm]
      simp [Call.event, stopped]
    · rw [hspans, List.length_cons, List.countP_cons_of_pos hstops, h.one_each]

theorem step (h : Tells p events s.stats) (c : Call) : Tells p (c.event s :: events) (c.perform s).1.stats := by
  by_cases hstart : c = .start p
  · subst hstart
    exact h.cons_start
  by_cases hstop : c = .stop p
  · subst hstop
    exact h.cons_stop
  obtain ⟨htime, hstarted⟩ := perform_other (s := s) hstart hstop
  exact h.cons_other (by simp [Event.starts, Call.event, hstart]) (by simp [Event.stops, Call.event, hstop]) htime
    hstarted

end Tells

section
variable {clock : Clock ℚ} {calls more : List Call}

theorem run_concat (clock : Clock ℚ) (calls : List Call) (c : Call) :
    run clock (calls ++ [c]) =
      ((c.perform (run clock calls).1).1, c.event (run clock calls).1 :: (run clock calls).2) := by
  rw [run, List.foldl_append]
  rfl

theorem tells_run (clock : Clock ℚ) (calls : List Call) (p : Phase) :
    Tells p (run clock calls).2 (run clock calls).1.stats := by
  induction calls using List.reverseRecOn with
  | nil => exact .nil
  | append_singleton calls c ih =>
    rw [run_concat]
    exact ih.step c

theorem counts_run (clock : Clock ℚ) (calls : List Call) (c : Counter) :
    (run clock calls).1.stats.counts c = (amounts c calls).sum - calls.count (.decrement c) := by
  induction calls using List.reverseRecOn with
  | nil => rfl
  | append_singleton calls d ih =>
    rw [run_concat, perform_counts, ih, List.count_append, amounts, amounts, amounts, List.filterMap_append,
      List.sum_append]
    push_cast
    ring

/-- The calls after some others, none of them about the phase. -/
theorem run_append_other {p : Phase} (hstart : .start p ∉ more) (hstop : .stop p ∉ more) :
    (run clock (calls ++ more)).1.stats.times p = (run clock calls).1.stats.times p ∧
      (run clock (calls ++ more)).1.stats.started p = (run clock calls).1.stats.started p := by
  induction more using List.reverseRecOn with
  | nil => simp
  | append_singleton more c ih =>
    simp only [List.mem_append, List.mem_singleton, not_or] at hstart hstop
    obtain ⟨htime, hstarted⟩ := ih hstart.1 hstop.1
    have hother := perform_other (s := (run clock (calls ++ more)).1) (Ne.symm hstart.2) (Ne.symm hstop.2)
    rw [← List.append_assoc, run_concat, hother.1, hother.2]
    exact ⟨htime, hstarted⟩

theorem run_append_counts {c : Counter} (hincrement : ∀ n, .increment c n ∉ more) (hdecrement : .decrement c ∉ more) :
    (run clock (calls ++ more)).1.stats.counts c = (run clock calls).1.stats.counts c := by
  have hnone : amounts c more = [] := by
    refine List.filterMap_eq_nil_iff.2 fun d hd => ?_
    cases d with
    | increment d n =>
      refine if_neg fun h => hincrement n ?_
      rwa [← h]
    | _ => rfl
  rw [counts_run, counts_run, List.count_append, List.count_eq_zero.2 hdecrement, amounts, List.filterMap_append,
    ← amounts, ← amounts, hnone, List.append_nil, Nat.add_zero]

end

/-! ### Timed blocks -/

section
variable {τ ε : Type} [Zero τ] [Add τ] [Sub τ] {s : Session τ} {p : Phase} {f : Session τ → Session τ × Option ε}

theorem timed_fst (s : Session τ) (p : Phase) (f : Session τ → Session τ × Option ε) :
    (s.timed p f).1 = ((Call.stop p).perform (f (s.start p)).1).1 := by
  rw [timed, Call.perform]
  obtain ⟨left, failure⟩ := f (s.start p)
  cases h : left.stop p <;> simp [h]

theorem timed_of_started {began : τ} (h : (f (s.start p)).1.stats.started p = some began) :
    s.timed p f = ((f (s.start p)).1.stopped p began, (f (s.start p)).2.map .body) := by
  simp [timed, stop_of_started h]

/-- Code that makes no call about a phase says nothing of it. -/
theorem Code.run_other (code : Code τ ε) (s : Session τ) (hstart : .start p ∉ code.calls s)
    (hstop : .stop p ∉ code.calls s) :
    (code.run s).1.stats.times p = s.stats.times p ∧ (code.run s).1.stats.started p = s.stats.started p := by
  induction code generalizing s with
  | finish => exact ⟨rfl, rfl⟩
  | fail e => exact ⟨rfl, rfl⟩
  | look next ih => exact ih s.stats s hstart hstop
  | readClock next ih => exact ih s.clock.read.1 { s with clock := s.clock.read.2 } hstart hstop
  | call c next ih =>
    simp only [calls, List.mem_cons, not_or] at hstart hstop
    obtain ⟨htime, hstarted⟩ := perform_other (s := s) (Ne.symm hstart.1) (Ne.symm hstop.1)
    obtain ⟨htime', hstarted'⟩ := ih _ _ hstart.2 hstop.2
    exact ⟨htime'.trans htime, hstarted'.trans hstarted⟩
  | timed q body next ihbody ih =>
    simp only [calls, List.cons_append, List.mem_cons, List.mem_append, not_or] at hstart hstop
    obtain ⟨hbegin, hbody, hend, hnext⟩ := hstart
    obtain ⟨hbegin', hbody', hend', hnext'⟩ := hstop
    -- the block is its begin, the body and its end, none of them about the phase
    have hentered := perform_other (s := s) (Ne.symm hbegin) (Ne.symm hbegin')
    have hleft := ihbody (s.start q) hbody hbody'
    have hended := perform_other (s := (body.run (s.start q)).1) (Ne.symm hend) (Ne.symm hend')
    rw [← timed_fst] at hended
    obtain ⟨htime, hstarted⟩ := ih _ _ hnext hnext'
    exact ⟨htime.trans (hended.1.trans (hleft.1.trans hentered.1)),
      hstarted.trans (hended.2.trans (hleft.2.trans hentered.2))⟩

end

/-- A timed block fails as its body did, and it adds the time from its begin to its end to its phase and nothing else to
what the body left. -/
structure AddsOwnTime {ε : Type} (p : Phase) (before : Session ℚ) (left : Session ℚ × Option ε)
    (answer : Session ℚ × Option (TimedFailure ε)) : Prop where
  failure : answer.2 = left.2.map .body
  time : answer.1.stats.times p = before.stats.times p + (left.1.clock.read.1 - before.clock.read.1)
  times : ∀ q, q ≠ p → answer.1.stats.times q = left.1.stats.times q
  counts : answer.1.stats.counts = left.1.stats.counts
  started : answer.1.stats.started = fun q => if q = p then none else left.1.stats.started q

theorem addsOwnTime_timed {ε : Type} {p : Phase} {s : Session ℚ} {body : Code ℚ ε}
    (hstart : .start p ∉ body.calls (s.start p)) (hstop : .stop p ∉ body.calls (s.start p)) :
    AddsOwnTime p s (body.run (s.start p)) (s.timed p body.run) := by
  obtain ⟨htime, hstarted⟩ := body.run_other (s.start p) hstart hstop
  have hentered : (s.start p).stats.started p = some s.clock.read.1 := by simp [start, RunStats.start]
  rw [timed_of_started (hstarted.trans hentered)]
  refine ⟨rfl, ?_, fun q hq => ?_, rfl, rfl⟩
  · simp only [stopped, if_pos]
    rw [htime]
    rfl
  · simp [stopped, hq]

/-! ### The timers -/

/-- A stop is refused, and changes nothing, if the phase is not running. The time of a phase is that of its spans, one
for each stop, and a count is what was added to it and not taken back; calls about others leave them. A timed block
whose body makes no call about its phase adds its own time, however the body ends. -/
theorem timers_over_runs {ε : Type} (clock : Clock ℚ) (calls : List Call) :
    let s := (run clock calls).1
    let events := (run clock calls).2
    (∀ p, ((∃ e, s.stop p = .error e) ↔ ¬ Running p events) ∧
      (¬ Running p events → (Call.stop p).perform s = (s, some ⟨p⟩))) ∧
    (∀ p, s.stats.times p = (spans p events).sum ∧ (spans p events).length = events.countP (·.stops p)) ∧
    (∀ c, s.stats.counts c = (amounts c calls).sum - calls.count (.decrement c)) ∧
    (∀ p more, .start p ∉ more → .stop p ∉ more →
      (run clock (calls ++ more)).1.stats.times p = s.stats.times p ∧
        (run clock (calls ++ more)).1.stats.started p = s.stats.started p) ∧
    (∀ c more, (∀ n, .increment c n ∉ more) → .decrement c ∉ more →
      (run clock (calls ++ more)).1.stats.counts c = s.stats.counts c) ∧
    ∀ (before : Session ℚ) (p : Phase) (body : Code ℚ ε),
      .start p ∉ body.calls (before.start p) → .stop p ∉ body.calls (before.start p) →
        AddsOwnTime p before (body.run (before.start p)) (before.timed p body.run) := by
  intro s events
  have htells := tells_run clock calls
  refine ⟨fun p => ⟨?_, fun hnot => ?_⟩, fun p => ⟨(htells p).time, (htells p).one_each⟩, counts_run clock calls,
    fun p more => run_append_other, fun c more => run_append_counts, fun before p body => addsOwnTime_timed⟩
  · rw [← (htells p).not_started_iff]
    cases hstarted : s.stats.started p with
    | none => exact iff_of_true ⟨_, stop_of_not_started hstarted⟩ rfl
    | some began =>
      refine iff_of_false ?_ (Option.some_ne_none began)
      rintro ⟨e, he⟩
      rw [stop_of_started hstarted] at he
      cases he
  · exact perform_stop_of_not_started ((htells p).not_started_iff.2 hnot)

/-- Two phases in turn, the one begun anew after a stop of a third was refused, and then a block that fails. -/
theorem timers_over_runs_interleaved :
    let clock : Clock ℚ := [1, 2, 4, 7, 11, 16, 22]
    let calls : List Call :=
      [.start .rewriting, .start .total, .stop .compile, .increment .itypes 3, .start .rewriting, .stop .rewriting,
        .decrement .itypes, .stop .total]
    let body : Code ℚ Text := .call (.start .total) fun _ => .call (.stop .total) fun _ => .fail "no solution"
    let s := (run clock calls).1
    ¬ Running .compile (run clock calls).2 ∧
      (Call.stop .compile).perform s = (s, some ⟨.compile⟩) ∧
      spans .rewriting (run clock calls).2 = [3] ∧ s.stats.times .rewriting = 3 ∧
      spans .total (run clock calls).2 = [9] ∧ s.stats.times .total = 9 ∧
      s.stats.counts .itypes = 2 ∧
      (run clock (calls ++ [.start .total])).1.stats.times .rewriting = s.stats.times .rewriting ∧
      (run clock (calls ++ [.increment .wildCasts 1])).1.stats.counts .itypes = s.stats.counts .itypes ∧
      .start .compile ∉ body.calls (s.start .compile) ∧ .stop .compile ∉ body.calls (s.start .compile) ∧
      AddsOwnTime .compile s (body.run (s.start .compile)) (s.timed .compile body.run) := by
  intro clock calls body s
  obtain ⟨hstop, htimes, hcounts, hother, hotherCounts, htimed⟩ := @timers_over_runs Text clock calls
  have hidle : ¬ Running .compile (run clock calls).2 := by decide +kernel
  have hrewriting : spans .rewriting (run clock calls).2 = [3] := by decide +kernel
  have htotal : spans .total (run clock calls).2 = [9] := by decide +kernel
  have hstart : .start .compile ∉ body.calls (s.start .compile) := by decide +kernel
  have hend : .stop .compile ∉ body.calls (s.start .compile) := by decide +kernel
  refine ⟨hidle, (hstop .compile).2 hidle, hrewriting, ?_, htotal, ?_, ?_, ?_, ?_, hstart, hend, ?_⟩
  · exact (htimes .rewriting).1.trans (by rw [hrewriting, List.sum_singleton])
  · exact (htimes .total).1.trans (by rw [htotal, List.sum_singleton])
  · exact (hcounts .itypes).trans (by decide)
  · exact (hother .rewriting [.start .total] (by decide) (by decide)).1
  · exact hotherCounts .itypes [.increment .wildCasts 1] (by simp) (by simp)
  · exact htimed s .compile body hstart hend

end Blame.Session
