import Blame.Proofs.InSource
import Blame.Proofs.Transpose
import Mathlib.Algebra.Order.BigOperators.Group.Finset
import Blame.Text.Order

/-!
# The summary by reason

Every root has one reason, so the buckets share the roots out among them, and the report counts a bucket
root by root to the same numbers. The atoms that a bucket explains are not shared out: an atom counts once
in each bucket with a root that explains it, and once for each such root in the report. So the number of
a bucket is at most that of the report, and less as soon as two of its roots explain one atom.
-/

namespace Blame

open Finset

/-- A union is as large as its parts together iff no two of them overlap. -/
theorem card_biUnion_eq_sum_iff {α β : Type} [DecidableEq α] [DecidableEq β] {owners : Finset α}
    {effects : α → Finset β} :
    (owners.biUnion effects).card = ∑ r ∈ owners, (effects r).card ↔
      ∀ b, ∀ r ∈ owners, ∀ q ∈ owners, b ∈ effects r → b ∈ effects q → r = q := by
  have hturn : ∑ r ∈ owners, (effects r).card =
      ∑ b ∈ owners.biUnion effects, (owners.filter fun r => b ∈ effects r).card := by
    simp only [card_eq_sum_ones]
    refine sum_comm' fun r b => ?_
    rw [mem_filter, mem_biUnion]
    exact ⟨fun h => ⟨h, r, h⟩, And.left⟩
  have hone : ∀ b ∈ owners.biUnion effects, 1 ≤ (owners.filter fun r => b ∈ effects r).card := by
    intro b hb
    obtain ⟨r, hr, hbr⟩ := mem_biUnion.1 hb
    exact card_pos.2 ⟨r, mem_filter.2 ⟨hr, hbr⟩⟩
  rw [hturn, card_eq_sum_ones, sum_eq_sum_iff_of_le hone]
  constructor
  · intro h b r hr q hq hbr hbq
    have hcard := h b (mem_biUnion.2 ⟨r, hr, hbr⟩)
    exact card_le_one.1 hcard.ge r (mem_filter.2 ⟨hr, hbr⟩) q (mem_filter.2 ⟨hq, hbq⟩)
  · intro h b hb
    refine le_antisymm (hone b hb) (card_le_one.2 fun r hr q hq => ?_)
    rw [mem_filter] at hr hq
    exact h b r hr.1 q hq.1 hr.2 hq.2

namespace AtomSet

theorem size_le_of_forall_mem {s t : AtomSet} (h : ∀ a ∈ s, a ∈ t) : s.size ≤ t.size := by
  rw [← card_toFinset, ← card_toFinset]
  refine card_le_card fun a ha => ?_
  rw [mem_toFinset] at ha ⊢
  exact h a ha

theorem size_filter (s : AtomSet) (p : Atom → Bool) : (s.filter p).size = s.toList.countP p :=
  List.countP_eq_length_filter.symm

end AtomSet

theorem pairwise_insertReason {r : Text} {l : List Text} (h : l.Pairwise (· < ·)) :
    (insertReason r l).Pairwise (· < ·) := by
  induction l with
  | nil => exact List.pairwise_singleton _ r
  | cons s rest ih =>
    obtain ⟨hs, hrest⟩ := List.pairwise_cons.1 h
    rw [insertReason]
    rcases lt_trichotomy r s with hrs | rfl | hsr
    · rw [if_pos hrs]
      refine List.pairwise_cons.2 ⟨fun x hx => ?_, h⟩
      rcases List.mem_cons.1 hx with rfl | hx
      · exact hrs
      · exact hrs.trans (hs x hx)
    · rw [if_neg (lt_irrefl r), if_pos rfl]
      exact h
    · rw [if_neg hsr.asymm, if_neg hsr.ne']
      refine List.pairwise_cons.2 ⟨fun x hx => ?_, ih hrest⟩
      rcases mem_insertReason.1 hx with rfl | hx
      · exact hsr
      · exact hs x hx

namespace Index

/-- The atom is a root for this reason. -/
def HasReason (ix : Index) (reason : Text) (r : Atom) : Prop :=
  (ix.diagnostics.find? r).map (·.reason) = some reason

instance (ix : Index) (reason : Text) (r : Atom) : Decidable (ix.HasReason reason r) :=
  inferInstanceAs (Decidable (_ = _))

section
variable {ix : Index} {nameOf : Atom → Text} {reason : Text} {r a : Atom}

/-! ### Roots by reason -/

theorem hasReason_iff : ix.HasReason reason r ↔ ∃ d, ix.diagnostics.find? r = some d ∧ d.reason = reason :=
  Option.map_eq_some_iff

theorem mem_rootsFor : r ∈ ix.rootsFor reason ↔ ix.HasReason reason r := by
  rw [rootsFor, AtomSet.mem_filter, roots, AtomTable.mem_keys_iff, hasReason_iff]
  cases ix.diagnostics.find? r <;> simp

theorem HasReason.root (h : ix.HasReason reason r) : r ∈ ix.roots := by
  obtain ⟨d, hd, -⟩ := hasReason_iff.1 h
  exact AtomTable.mem_keys_iff.2 ⟨d, hd⟩

theorem mem_reasons : reason ∈ ix.reasons ↔ ∃ r, ix.HasReason reason r := by
  have hfold : ∀ l : List Text, reason ∈ l.foldr insertReason [] ↔ reason ∈ l := by
    intro l
    induction l with
    | nil => rfl
    | cons s rest ih => rw [List.foldr_cons, mem_insertReason, ih, List.mem_cons]
  rw [reasons, hfold]
  simp only [List.mem_map, Prod.exists, ← AtomTable.find?_eq_some_iff, hasReason_iff]

theorem pairwise_reasons (ix : Index) : ix.reasons.Pairwise (· < ·) := by
  rw [reasons]
  induction ix.diagnostics.entries.map fun e => e.2.reason with
  | nil => exact List.Pairwise.nil
  | cons s rest ih => exact pairwise_insertReason ih

/-- Each root of a set is counted under its reason and no other. -/
theorem sum_rootsFor_inter {s : AtomSet} (hs : ∀ a ∈ s, a ∈ ix.roots) :
    (ix.reasons.map fun reason => ((ix.rootsFor reason).inter s).size).sum = s.size := by
  let reasonOf : Atom → Text := fun a => ((ix.diagnostics.find? a).map (·.reason)).getD ""
  have hreason : ∀ a ∈ s, ∀ reason, ix.HasReason reason a ↔ reasonOf a = reason := by
    intro a ha reason
    obtain ⟨d, hd⟩ := AtomTable.mem_keys_iff.1 (hs a ha)
    simp [HasReason, reasonOf, hd]
  have hmaps : ∀ a ∈ s.toFinset, reasonOf a ∈ ix.reasons.toFinset := by
    intro a ha
    rw [AtomSet.mem_toFinset] at ha
    rw [List.mem_toFinset, mem_reasons]
    exact ⟨a, (hreason a ha _).2 rfl⟩
  have hfiber : ∀ reason, (s.toFinset.filter fun a => reasonOf a = reason) =
      ((ix.rootsFor reason).inter s).toFinset := by
    intro reason
    ext a
    rw [mem_filter, AtomSet.mem_toFinset, AtomSet.mem_toFinset, AtomSet.mem_inter, mem_rootsFor, and_comm]
    exact and_congr_left fun ha => (hreason a ha reason).symm
  rw [← AtomSet.card_toFinset, card_eq_sum_card_fiberwise hmaps,
    List.sum_toFinset _ (ix.pairwise_reasons.imp ne_of_lt)]
  simp only [hfiber, AtomSet.card_toFinset]

theorem inter_roots_rootsFor (ix : Index) (reason : Text) :
    (ix.rootsFor reason).inter ix.roots = ix.rootsFor reason := by
  refine AtomSet.ext_mem fun r => ?_
  rw [AtomSet.mem_inter, mem_rootsFor]
  exact and_iff_left_of_imp HasReason.root

/-! ### Entries of the report -/

theorem reason_entry {e : RootEntry} (he : e ∈ (ix.rootReport nameOf).entries) :
    e.reason = reason ↔ ix.HasReason reason e.atom := by
  obtain ⟨a, d, hd, rfl⟩ := mem_rootReport.1 he
  show d.reason = reason ↔ (ix.diagnostics.find? a).map (·.reason) = some reason
  simp [hd]

theorem atomsAffected_entry {e : RootEntry} (he : e ∈ (ix.rootReport nameOf).entries) :
    e.atomsAffected = (ix.effectsOf e.atom).size := by
  obtain ⟨a, d, -, rfl⟩ := mem_rootReport.1 he
  rfl

theorem inSource_entry {e : RootEntry} (he : e ∈ (ix.rootReport nameOf).entries) :
    e.inSource = decide (e.atom ∈ ix.rootsInSource) := by
  obtain ⟨a, d, -, rfl⟩ := mem_rootReport.1 he
  rfl

/-- Counting entries is counting roots. -/
theorem countP_rootReport {p : RootEntry → Bool} {q : Atom → Bool}
    (h : ∀ e ∈ (ix.rootReport nameOf).entries, (p e = true ↔ q e.atom = true)) :
    (ix.rootReport nameOf).entries.countP p = (ix.roots.filter q).size := by
  rw [AtomSet.size_filter, ← map_atom_rootReport ix nameOf, List.countP_map]
  exact List.countP_congr h

theorem count_bucketFor (ix : Index) (nameOf : Atom → Text) (reason : Text) :
    (ix.bucketFor reason).count = (ix.rootReport nameOf).entries.countP fun e => e.reason = reason := by
  rw [countP_rootReport (q := fun r => ix.HasReason reason r)]
  · show (ix.rootsFor reason).size = _
    congr 1
    refine AtomSet.ext_mem fun r => ?_
    rw [mem_rootsFor, AtomSet.mem_filter, decide_eq_true_eq]
    exact (and_iff_right_of_imp HasReason.root).symm
  · intro e he
    simp only [decide_eq_true_eq]
    exact reason_entry he

theorem inSourceCount_bucketFor (h : ix.Sound) (nameOf : Atom → Text) (reason : Text) :
    (ix.bucketFor reason).inSourceCount =
      (ix.rootReport nameOf).entries.countP fun e => e.reason = reason ∧ e.inSource = true := by
  rw [countP_rootReport (q := fun r => ix.HasReason reason r ∧ r ∈ ix.rootsInSource)]
  · show ((ix.rootsFor reason).inter ix.rootsInSource).size = _
    congr 1
    refine AtomSet.ext_mem fun r => ?_
    rw [AtomSet.mem_inter, mem_rootsFor, AtomSet.mem_filter, decide_eq_true_eq]
    exact (and_iff_right_of_imp fun hr => h.rootsInSource_root r hr.2).symm
  · intro e he
    rw [inSource_entry he]
    simp only [decide_eq_true_eq]
    exact and_congr_left fun _ => reason_entry he

theorem sum_atomsAffected_bucket (ix : Index) (nameOf : Atom → Text) (reason : Text) :
    (((ix.rootReport nameOf).entries.filter fun e => e.reason = reason).map (·.atomsAffected)).sum =
      ∑ r ∈ (ix.rootsFor reason).toFinset, (ix.effectsOf r).toFinset.card := by
  have hfilter : ((ix.rootReport nameOf).entries.filter fun e => e.reason = reason) =
      (ix.rootReport nameOf).entries.filter fun e => (ix.diagnostics.find? e.atom).any (·.reason == reason) := by
    refine List.filter_congr fun e he => ?_
    obtain ⟨a, d, hd, rfl⟩ := mem_rootReport.1 he
    show decide (d.reason = reason) = (ix.diagnostics.find? a).any (·.reason == reason)
    rw [hd]
    rfl
  have hmap : ∀ e ∈ (ix.rootReport nameOf).entries.filter fun e =>
      (ix.diagnostics.find? e.atom).any (·.reason == reason),
      e.atomsAffected = (ix.effectsOf e.atom).size := fun e he =>
    atomsAffected_entry (List.mem_of_mem_filter he)
  rw [hfilter, List.map_congr_left hmap, AtomSet.sum_toFinset]
  show _ = ((ix.roots.toList.filter _).map _).sum
  rw [← map_atom_rootReport ix nameOf, List.filter_map, List.map_map]
  simp only [AtomSet.card_toFinset]
  rfl

/-! ### Atoms that a bucket explains -/

theorem mem_jointEffects {l : List Atom} : a ∈ ix.jointEffects l ↔ ∃ r ∈ l, a ∈ ix.effectsOf r := by
  induction l with
  | nil => exact iff_of_false AtomSet.not_mem_empty (by simp)
  | cons r rest ih =>
    rw [List.exists_mem_cons_iff, ← ih]
    exact AtomSet.mem_union

theorem mem_jointEffects_rootsFor :
    a ∈ ix.jointEffects (ix.rootsFor reason).toList ↔ ∃ r, ix.HasReason reason r ∧ a ∈ ix.effectsOf r := by
  simp only [mem_jointEffects, ← AtomSet.mem_iff, mem_rootsFor]

/-- What roots explain is indirect, so nothing is lost by keeping to the indirect atoms. -/
theorem Sound.inter_indirect_jointEffects (h : ix.Sound) (l : List Atom) :
    (ix.jointEffects l).inter ix.indirect = ix.jointEffects l := by
  refine AtomSet.ext_mem fun a => ?_
  rw [AtomSet.mem_inter]
  refine and_iff_left_of_imp fun ha => ?_
  obtain ⟨r, -, ha⟩ := mem_jointEffects.1 ha
  exact h.explained_indirect r a ((h.effect_iff_cause r a).1 ha)

theorem toFinset_jointEffects_rootsFor (ix : Index) (reason : Text) :
    (ix.jointEffects (ix.rootsFor reason).toList).toFinset =
      (ix.rootsFor reason).toFinset.biUnion fun r => (ix.effectsOf r).toFinset := by
  ext a
  simp [mem_jointEffects_rootsFor, mem_rootsFor]

theorem Sound.indirectCount_bucketFor (h : ix.Sound) (reason : Text) :
    (ix.bucketFor reason).indirectCount = (ix.jointEffects (ix.rootsFor reason).toList).size :=
  congrArg AtomSet.size (h.inter_indirect_jointEffects _)

theorem Sound.indirectCount_eq_countP (h : ix.Sound) (nameOf : Atom → Text) (reason : Text) :
    (ix.bucketFor reason).indirectCount =
      (ix.explained.toList.map (ix.causeEntryFor nameOf)).countP fun e =>
        (ix.causesOf e.atom).toList.any fun r => ix.HasReason reason r := by
  rw [h.indirectCount_bucketFor, List.countP_map]
  show _ = ix.explained.toList.countP fun a => (ix.causesOf a).toList.any fun r => ix.HasReason reason r
  rw [← AtomSet.size_filter]
  congr 1
  refine AtomSet.ext_mem fun a => ?_
  rw [AtomSet.mem_filter, mem_explained, mem_jointEffects_rootsFor, List.any_eq_true]
  simp only [decide_eq_true_eq]
  constructor
  · rintro ⟨r, hr, ha⟩
    have hc := (h.effect_iff_cause r a).1 ha
    exact ⟨⟨r, hc⟩, r, hc, hr⟩
  · rintro ⟨-, r, hc, hr⟩
    exact ⟨r, hr, (h.effect_iff_cause r a).2 hc⟩

theorem indirectCount_bucketFor_le (ix : Index) (reason : Text) :
    (ix.bucketFor reason).indirectCount ≤ ix.summary.indirectCount :=
  AtomSet.size_le_of_forall_mem fun _ ha => (AtomSet.mem_inter.1 ha).2

/-- The bucket counts an atom once, the report once for each of its roots that explains it. -/
theorem Sound.indirectCount_le_sum (h : ix.Sound) (nameOf : Atom → Text) (reason : Text) :
    (ix.bucketFor reason).indirectCount ≤
      (((ix.rootReport nameOf).entries.filter fun e => e.reason = reason).map (·.atomsAffected)).sum := by
  rw [h.indirectCount_bucketFor, sum_atomsAffected_bucket, ← AtomSet.card_toFinset,
    toFinset_jointEffects_rootsFor]
  exact card_biUnion_le

theorem Sound.indirectCount_eq_sum_iff (h : ix.Sound) (nameOf : Atom → Text) (reason : Text) :
    (ix.bucketFor reason).indirectCount =
      (((ix.rootReport nameOf).entries.filter fun e => e.reason = reason).map (·.atomsAffected)).sum ↔
    ∀ a r q, ix.HasReason reason r → ix.HasReason reason q → r ∈ ix.causesOf a → q ∈ ix.causesOf a → r = q := by
  rw [h.indirectCount_bucketFor, sum_atomsAffected_bucket, ← AtomSet.card_toFinset,
    toFinset_jointEffects_rootsFor, card_biUnion_eq_sum_iff]
  simp only [AtomSet.mem_toFinset, mem_rootsFor, h.effect_iff_cause]
  exact ⟨fun hd a r q hr hq => hd a r hr q hq, fun hd a r hr q hq => hd a r q hr hq⟩

end

/-- The summary, the report and the map of causes of an index that comes up agree. The buckets share out
the roots by reason and count them as the report does; the atoms of a bucket are those of the map of causes
that one of its roots explains, no more than the indirect atoms, and no more than the report counts root by
root, which is as many unless two of its roots explain one atom. -/
theorem summary_report_agree (calls : List Call) (nameOf : Atom → Text) :
    let ix := after calls
    let summary := ix.summary
    let report := ix.rootReport nameOf
    (∀ r ∈ ix.roots, ∃ d, ix.diagnosticOf r = .ok d) ∧
    (summary.buckets.map (·.reason)).Pairwise (· < ·) ∧
    (∀ reason, reason ∈ summary.buckets.map (·.reason) ↔
      ∃ r d, ix.diagnosticOf r = .ok d ∧ d.reason = reason) ∧
    (summary.buckets.map (·.count)).sum = summary.rootCount ∧
    (summary.buckets.map (·.inSourceCount)).sum = summary.inSourceRootCount ∧
    ∃ entries, ix.causeMap nameOf = .ok entries ∧ ∀ b ∈ summary.buckets,
      b.count = (report.entries.countP fun e => e.reason = b.reason) ∧
      b.inSourceCount = (report.entries.countP fun e => e.reason = b.reason ∧ e.inSource = true) ∧
      (ix.jointEffects (ix.rootsFor b.reason).toList).inter ix.indirect =
        ix.jointEffects (ix.rootsFor b.reason).toList ∧
      b.indirectCount = (entries.countP fun e =>
        (ix.causesOf e.atom).toList.any fun r => ix.HasReason b.reason r) ∧
      b.indirectCount ≤ summary.indirectCount ∧
      b.indirectCount ≤ ((report.entries.filter fun e => e.reason = b.reason).map (·.atomsAffected)).sum ∧
      (b.indirectCount = ((report.entries.filter fun e => e.reason = b.reason).map (·.atomsAffected)).sum ↔
        ∀ a r q, ix.HasReason b.reason r → ix.HasReason b.reason q →
          r ∈ ix.causesOf a → q ∈ ix.causesOf a → r = q) := by
  intro ix summary report
  have h : ix.Sound := sound_after calls
  have hdiagnostic : ∀ r d, ix.diagnosticOf r = .ok d ↔ ix.diagnostics.find? r = some d := by
    intro r d
    rw [diagnosticOf]
    cases ix.diagnostics.find? r <;> simp
  have hreasons : summary.buckets.map (·.reason) = ix.reasons := by
    show (ix.reasons.map ix.bucketFor).map (·.reason) = ix.reasons
    rw [List.map_map]
    exact List.map_id _
  refine ⟨fun r hr => ?_, ?_, fun reason => ?_, ?_, ?_, _, h.causeMap_eq, fun b hb => ?_⟩
  · obtain ⟨d, hd⟩ := AtomTable.mem_keys_iff.1 hr
    exact ⟨d, (hdiagnostic r d).2 hd⟩
  · rw [hreasons]
    exact ix.pairwise_reasons
  · simp only [hreasons, mem_reasons, hasReason_iff, hdiagnostic]
  · show ((ix.reasons.map ix.bucketFor).map (·.count)).sum = ix.roots.size
    rw [← sum_rootsFor_inter fun _ ha => ha, List.map_map]
    simp only [inter_roots_rootsFor]
    rfl
  · show ((ix.reasons.map ix.bucketFor).map (·.inSourceCount)).sum = ix.rootsInSource.size
    rw [← sum_rootsFor_inter h.rootsInSource_root, List.map_map]
    rfl
  · obtain ⟨reason, -, rfl⟩ := List.mem_map.1 hb
    exact ⟨ix.count_bucketFor nameOf reason, inSourceCount_bucketFor h nameOf reason,
      h.inter_indirect_jointEffects _, h.indirectCount_eq_countP nameOf reason,
      ix.indirectCount_bucketFor_le reason, h.indirectCount_le_sum nameOf reason,
      h.indirectCount_eq_sum_iff nameOf reason⟩

/-- Two casts and a macro explain the atom 5, one of the casts also the atom 6. -/
def sharedAtomCalls : List Call :=
  [.write (.declareRoot 1 ⟨"Cast", none, []⟩), .write (.declareRoot 2 ⟨"Cast", none, []⟩),
    .write (.declareRoot 3 ⟨"Macro", none, []⟩), .write (.blame 1 5), .write (.blame 2 5),
    .write (.blame 3 5), .write (.blame 1 6)]

theorem summary_report_agree_shared :
    let ix := after sharedAtomCalls
    let report := ix.rootReport ix.nameOf
    ix.bucketFor "Cast" ∈ ix.summary.buckets ∧
    (ix.bucketFor "Cast").count = (report.entries.countP fun e => e.reason = ("Cast" : Text)) ∧
    (ix.bucketFor "Cast").indirectCount ≠
      ((report.entries.filter fun e => e.reason = ("Cast" : Text)).map (·.atomsAffected)).sum := by
  intro ix report
  have hreason : ("Cast" : Text) ∈ ix.reasons := by decide +kernel
  have hb : ix.bucketFor "Cast" ∈ ix.summary.buckets := List.mem_map_of_mem hreason
  obtain ⟨-, -, -, -, -, entries, -, hbuckets⟩ := summary_report_agree sharedAtomCalls ix.nameOf
  obtain ⟨hcount, -, -, -, -, -, hiff⟩ := hbuckets _ hb
  refine ⟨hb, hcount, fun heq => ?_⟩
  have hone : (1 : Atom) = 2 :=
    hiff.1 heq 5 1 2 (by decide +kernel) (by decide +kernel) (by decide +kernel) (by decide +kernel)
  exact absurd hone (by decide)

end Index

end Blame
