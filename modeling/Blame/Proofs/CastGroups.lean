import Blame.Snapshot.Load
import Mathlib.Algebra.GroupWithZero.Nat
import Mathlib.Data.List.Infix
import Mathlib.Data.List.Nodup

/-!
# Groups of casts

A cast is added to the first group of its two types, or opens one behind all others. So the groups stand in the
order in which their types first came up (`after_eq_groups`), no two are of the same types, and a group holds the
places of just the casts of its types, one for each cast.
-/

namespace Blame

open Snapshot (CastRecord)

def CastGroup.pair (g : CastGroup) : Text × Text := (g.dst, g.src)

def Snapshot.CastRecord.pair (c : CastRecord) : Text × Text := (c.dst, c.src)

namespace CastTable

/-- The table after a run of casts on an empty one. -/
def after (casts : List CastRecord) : CastTable := casts.foldl (fun t c => t.add c.dst c.src c.location) []

/-- What a table of these casts should hold for two types. -/
def groupOf (casts : List CastRecord) (p : Text × Text) : CastGroup :=
  ⟨p.1, p.2, (casts.filter fun c => c.pair = p).map CastRecord.location⟩

theorem after_concat (casts : List CastRecord) (c : CastRecord) :
    after (casts ++ [c]) = (after casts).add c.dst c.src c.location :=
  List.foldl_concat ..

/-! ### The types in the order of their first cast -/

section
variable {α : Type} [BEq α] [LawfulBEq α]

theorem eraseDups_concat (l : List α) (a : α) :
    (l ++ [a]).eraseDups = if a ∈ l then l.eraseDups else l.eraseDups ++ [a] := by
  rw [List.eraseDups_append]
  by_cases h : a ∈ l <;> simp [List.removeAll, List.eraseDups_cons, h]

theorem pairwise_idxOf_eraseDups (l : List α) : l.eraseDups.Pairwise fun a b => l.idxOf a < l.idxOf b := by
  induction l using List.reverseRecOn with
  | nil => exact .nil
  | append_singleton l a ih =>
    -- What stands in `l` keeps its first place when something is put behind it.
    have hsame : ∀ b ∈ l.eraseDups, (l ++ [a]).idxOf b = l.idxOf b := fun b hb =>
      List.idxOf_append_of_mem (List.mem_eraseDups.1 hb)
    have hfront : l.eraseDups.Pairwise fun b c => (l ++ [a]).idxOf b < (l ++ [a]).idxOf c := by
      refine ih.imp_of_mem fun {b c} hb hc hbc => ?_
      rw [hsame b hb, hsame c hc]
      exact hbc
    rw [eraseDups_concat]
    split
    · exact hfront
    · rename_i ha
      refine List.pairwise_append.2 ⟨hfront, List.pairwise_singleton _ _, fun b hb c hc => ?_⟩
      rw [List.mem_singleton.1 hc, hsame b hb, List.idxOf_append_of_notMem ha]
      have hlt : l.idxOf b < l.length := List.idxOf_lt_length_iff.2 (List.mem_eraseDups.1 hb)
      omega

theorem nodup_eraseDups (l : List α) : l.eraseDups.Nodup := by
  refine List.Pairwise.imp (fun {a b} hab => ?_) (pairwise_idxOf_eraseDups l)
  rintro rfl
  exact Nat.lt_irrefl _ hab

end

/-! ### One more cast -/

theorem groupOf_concat (casts : List CastRecord) (c : CastRecord) (p : Text × Text) :
    groupOf (casts ++ [c]) p =
      if p = c.pair then { groupOf casts p with locations := (groupOf casts p).locations ++ [c.location] }
      else groupOf casts p := by
  by_cases h : p = c.pair
  · simp [groupOf, h]
  · simp [groupOf, h, Ne.symm h]

/-- In a table with one group for each of some pairs of types, a cast of one of them goes to its group. -/
theorem add_of_mem {f : Text × Text → CastGroup} (hf : ∀ p, (f p).pair = p) {pairs : List (Text × Text)}
    (hnodup : pairs.Nodup) {c : CastRecord} (hc : c.pair ∈ pairs) :
    add c.dst c.src c.location (pairs.map f) =
      pairs.map fun p => if p = c.pair then { f p with locations := (f p).locations ++ [c.location] } else f p := by
  induction pairs with
  | nil => exact absurd hc List.not_mem_nil
  | cons p rest ih =>
    obtain ⟨hp, hrest⟩ := List.nodup_cons.1 hnodup
    have hhead : ((f p).dst = c.dst ∧ (f p).src = c.src) ↔ p = c.pair := by
      rw [← Prod.mk.injEq]
      exact Eq.congr_left (hf p)
    rw [List.map_cons, List.map_cons, add]
    by_cases h : p = c.pair
    · have hothers : ∀ q ∈ rest, q ≠ c.pair := by
        rintro q hq rfl
        exact hp (h ▸ hq)
      rw [if_pos (hhead.2 h), if_pos h]
      refine congrArg _ (List.map_congr_left fun q hq => ?_)
      rw [if_neg (hothers q hq)]
    · rw [if_neg (mt hhead.1 h), if_neg h, ih hrest]
      exact (List.mem_cons.1 hc).resolve_left (Ne.symm h)

theorem add_of_notMem {t : CastTable} {c : CastRecord} (hc : c.pair ∉ t.map CastGroup.pair) :
    add c.dst c.src c.location t = t ++ [⟨c.dst, c.src, [c.location]⟩] := by
  induction t with
  | nil => rfl
  | cons g rest ih =>
    rw [List.map_cons, List.mem_cons, not_or] at hc
    have hhead : ¬ (g.dst = c.dst ∧ g.src = c.src) := fun h => hc.1 (Prod.ext h.1.symm h.2.symm)
    rw [add, if_neg hhead, ih hc.2, List.cons_append]

theorem sum_lengths_add (dst src : Text) (l : Location) (t : CastTable) :
    ((add dst src l t).map (·.locations.length)).sum = (t.map (·.locations.length)).sum + 1 := by
  induction t with
  | nil => rfl
  | cons g rest ih =>
    rw [add]
    split
    · simp; omega
    · simp [ih]; omega

/-! ### Runs -/

theorem after_eq_groups (casts : List CastRecord) :
    after casts = (casts.map CastRecord.pair).eraseDups.map (groupOf casts) := by
  induction casts using List.reverseRecOn with
  | nil => rfl
  | append_singleton casts c ih =>
    rw [after_concat, ih, List.map_append, List.map_singleton, eraseDups_concat]
    by_cases hc : c.pair ∈ casts.map CastRecord.pair
    · rw [if_pos hc, add_of_mem (fun _ => rfl) (nodup_eraseDups _) (List.mem_eraseDups.2 hc)]
      exact List.map_congr_left fun p _ => (groupOf_concat casts c p).symm
    · have hnew : c.pair ∉ ((casts.map CastRecord.pair).eraseDups.map (groupOf casts)).map CastGroup.pair := by
        rw [List.map_map, show CastGroup.pair ∘ groupOf casts = id from rfl, List.map_id, List.mem_eraseDups]
        exact hc
      have hnone : casts.filter (fun d => d.pair = c.pair) = [] := by
        refine List.filter_eq_nil_iff.2 fun d hd => ?_
        rw [decide_eq_true_eq]
        exact fun hpair => hc (hpair ▸ List.mem_map_of_mem hd)
      rw [if_neg hc, add_of_notMem hnew, List.map_append, List.map_singleton]
      refine congrArg₂ _ (List.map_congr_left fun p hp => ?_) ?_
      · have hne : p ≠ c.pair := by
          rintro rfl
          exact hc (List.mem_eraseDups.1 hp)
        rw [groupOf_concat, if_neg hne]
      · rw [groupOf_concat, if_pos rfl, groupOf, hnone]
        rfl

theorem sum_lengths_after (casts : List CastRecord) :
    ((after casts).map (·.locations.length)).sum = casts.length := by
  induction casts using List.reverseRecOn with
  | nil => rfl
  | append_singleton casts c ih => rw [after_concat, sum_lengths_add, ih, List.length_append, List.length_singleton]

/-- After any run of casts on an empty table the groups have different types and stand in the order of their first
casts. A group holds the places of all casts of its types, in their order and as often as they came up; so there are
as many places as casts. -/
theorem grouped_without_loss (casts : List CastRecord) :
    let t := after casts
    let pairs := casts.map CastRecord.pair
    (t.map CastGroup.pair).Nodup ∧
    t.map CastGroup.pair = pairs.eraseDups ∧
    (t.map CastGroup.pair).Pairwise (fun p q => pairs.idxOf p < pairs.idxOf q) ∧
    (∀ g ∈ t, g.locations = (casts.filter fun c => c.pair = g.pair).map CastRecord.location) ∧
    (t.map (·.locations.length)).sum = casts.length := by
  intro t pairs
  have hgroups : t = pairs.eraseDups.map (groupOf casts) := after_eq_groups casts
  have hpairs : t.map CastGroup.pair = pairs.eraseDups := by
    rw [hgroups, List.map_map]
    exact List.map_id _
  rw [hpairs]
  refine ⟨nodup_eraseDups pairs, rfl, pairwise_idxOf_eraseDups pairs, fun g hg => ?_, sum_lengths_after casts⟩
  rw [hgroups] at hg
  obtain ⟨p, -, rfl⟩ := List.mem_map.1 hg
  rfl

end CastTable

end Blame
