import Mathlib.Algebra.BigOperators.Group.List.Basic
import Mathlib.Algebra.Order.Monoid.Canonical.Defs
import Mathlib.Data.List.Count

/-!
# Running Sums and Their Running Maximum

Contributions to several sums arrive in any order. Beside the sums, the largest value any of
them has had is kept, and who reached it first: the leader.

- `Leads`: the highest value bounds every sum, and the leader's sum has reached it. Since
  sums only grow, both survive every contribution.
- `Leads.maximal`: whoever leads in the end has the largest sum, although the comparison was
  only ever made with partial sums.
- `sums_run`: the sums are the totals of the contributions.
-/

/-- The sums so far, the largest value seen, and who reached it; nobody at the start. -/
structure RunningMax (ι M : Type*) where
  sums : ι → M
  highest : M
  leader : Option ι

namespace RunningMax

/-! ## Contributions -/

section Contributions

variable {ι M : Type*} [DecidableEq ι] [AddCommMonoid M]

/-- What a list of contributions adds to the sum of `k`. -/
def contribution (k : ι) (l : List (ι × M)) : M :=
  ((l.filter fun p => p.1 = k).map Prod.snd).sum

@[simp] theorem contribution_nil (k : ι) : contribution k ([] : List (ι × M)) = 0 := rfl

theorem contribution_cons (k : ι) (p : ι × M) (l : List (ι × M)) :
    contribution k (p :: l) = (if p.1 = k then p.2 else 0) + contribution k l := by
  unfold contribution
  by_cases hk : p.1 = k
  · simp [hk]
  · simp [hk]

theorem contribution_append (k : ι) (l l' : List (ι × M)) :
    contribution k (l ++ l') = contribution k l + contribution k l' := by
  simp [contribution]

theorem contribution_flatMap {β : Type*} (k : ι) (f : β → List (ι × M)) (bs : List β) :
    contribution k (bs.flatMap f) = (bs.map fun b => contribution k (f b)).sum := by
  induction bs with
  | nil => rfl
  | cons b bs ih => rw [List.flatMap_cons, contribution_append, ih, List.map_cons, List.sum_cons]

/-- One contribution for every element of a list without repetitions. -/
theorem contribution_map {k : ι} {ks : List ι} (hnodup : ks.Nodup) (hk : k ∈ ks) (f : ι → M) :
    contribution k (ks.map fun j => (j, f j)) = f k := by
  induction ks with
  | nil => cases hk
  | cons j ks ih =>
    obtain ⟨hj, hnodup⟩ := List.nodup_cons.mp hnodup
    rw [List.map_cons, contribution_cons]
    rcases List.mem_cons.mp hk with rfl | hmem
    · have hrest : contribution k (ks.map fun j => (j, f j)) = 0 := by
        unfold contribution
        have hnone : (ks.map fun j => (j, f j)).filter (fun p => p.1 = k) = [] := by
          rw [List.filter_eq_nil_iff]
          rintro ⟨j, x⟩ hp
          obtain ⟨j', hj', hpair⟩ := List.mem_map.mp hp
          obtain ⟨rfl, -⟩ := Prod.mk.inj hpair
          rw [decide_eq_true_eq]
          rintro rfl
          exact hj hj'
        rw [hnone]
        rfl
      rw [if_pos rfl, hrest, add_zero]
    · have hne : j ≠ k := by
        rintro rfl
        exact hj hmem
      rw [if_neg hne, zero_add]
      exact ih hnodup hmem

end Contributions

/-! ## The lead -/

section Lead

variable {ι M : Type*} [AddCommMonoid M] [LinearOrder M]

/-- Before any contribution. -/
def start : RunningMax ι M := ⟨fun _ => 0, 0, none⟩

/-- The highest value bounds every sum, and the leader's sum has reached it. -/
structure Leads (r : RunningMax ι M) : Prop where
  bounds : ∀ k, r.sums k ≤ r.highest
  reached : ∀ k, r.leader = some k → r.highest ≤ r.sums k
  unled : r.leader = none → r.highest = 0

theorem leads_start : Leads (start : RunningMax ι M) :=
  ⟨fun _ => le_refl _, (fun _ h => nomatch h), fun _ => rfl⟩

/-- Who leads has the largest sum. -/
theorem Leads.maximal {r : RunningMax ι M} (h : Leads r) {k : ι} (hk : r.leader = some k) (j : ι) :
    r.sums j ≤ r.sums k :=
  (h.bounds j).trans (h.reached k hk)

/-- Somebody leads as soon as one sum is not zero. -/
theorem Leads.exists_leader [CanonicallyOrderedAdd M] {r : RunningMax ι M} (h : Leads r) {k : ι} (hk : r.sums k ≠ 0) :
    ∃ j, r.leader = some j := by
  cases hlead : r.leader with
  | some j => exact ⟨j, rfl⟩
  | none =>
    have hle := h.bounds k
    rw [h.unled hlead] at hle
    exact absurd (nonpos_iff_eq_zero.mp hle) hk

end Lead

/-! ## Runs -/

section Runs

variable {ι M : Type*} [DecidableEq ι] [AddCommMonoid M] [LinearOrder M]

/-- A contribution to the sum of `k`. -/
def add (k : ι) (x : M) (r : RunningMax ι M) : RunningMax ι M where
  sums := Function.update r.sums k (r.sums k + x)
  highest := if r.highest < r.sums k + x then r.sums k + x else r.highest
  leader := if r.highest < r.sums k + x then some k else r.leader

/-- A list of contributions. -/
def run (r : RunningMax ι M) (l : List (ι × M)) : RunningMax ι M :=
  l.foldl (fun r p => r.add p.1 p.2) r

@[simp] theorem run_nil (r : RunningMax ι M) : r.run [] = r := rfl

@[simp] theorem run_cons (r : RunningMax ι M) (p : ι × M) (l : List (ι × M)) :
    r.run (p :: l) = (r.add p.1 p.2).run l := rfl

theorem run_append (r : RunningMax ι M) (l l' : List (ι × M)) :
    r.run (l ++ l') = (r.run l).run l' := by
  simp [run]

/-- **The sums are the totals.** -/
theorem sums_run (r : RunningMax ι M) (l : List (ι × M)) (k : ι) :
    (r.run l).sums k = r.sums k + contribution k l := by
  induction l generalizing r with
  | nil => simp
  | cons p l ih =>
    rw [run_cons, ih, contribution_cons, ← add_assoc]
    congr 1
    by_cases hk : p.1 = k
    · subst hk
      simp [add]
    · have hne : k ≠ p.1 := fun h => hk h.symm
      simp [add, hk, Function.update_of_ne hne]

variable [CanonicallyOrderedAdd M]

/-- **A contribution keeps the lead**: sums never fall, so the leader's sum stays where it is
    unless it is overtaken. -/
theorem Leads.add {r : RunningMax ι M} (h : Leads r) (k : ι) (x : M) : Leads (r.add k x) := by
  have hgrow : r.sums k ≤ r.sums k + x := le_self_add
  unfold RunningMax.add
  by_cases hover : r.highest < r.sums k + x
  · refine ⟨fun j => ?_, fun j hj => ?_, fun hnone => ?_⟩
    · simp only [if_pos hover]
      by_cases hj : j = k
      · subst hj
        simp
      · rw [Function.update_of_ne hj]
        exact (h.bounds j).trans hover.le
    · simp only [if_pos hover, Option.some.injEq] at hj ⊢
      subst hj
      simp
    · simp [hover] at hnone
  · have hle := not_lt.mp hover
    refine ⟨fun j => ?_, fun j hj => ?_, fun hnone => ?_⟩
    · simp only [if_neg hover]
      by_cases hj : j = k
      · subst hj
        simpa using hle
      · rw [Function.update_of_ne hj]
        exact h.bounds j
    · simp only [if_neg hover] at hj ⊢
      have hreached := h.reached j hj
      by_cases hjk : j = k
      · subst hjk
        simpa using hreached.trans hgrow
      · rwa [Function.update_of_ne hjk]
    · simp only [if_neg hover] at hnone ⊢
      exact h.unled hnone

theorem Leads.run {r : RunningMax ι M} (h : Leads r) (l : List (ι × M)) : Leads (r.run l) := by
  induction l generalizing r with
  | nil => exact h
  | cons p l ih => exact ih (h.add p.1 p.2)

/-- **A total that is largest**: after contributions of which one is not zero, somebody leads,
    and nobody has a larger total. -/
theorem leader_run {l : List (ι × M)} {k : ι} (hk : contribution k l ≠ 0) :
    ∃ j, ((start : RunningMax ι M).run l).leader = some j ∧
      ∀ i, contribution i l ≤ contribution j l := by
  have hleads : Leads ((start : RunningMax ι M).run l) := leads_start.run l
  have hsums : ∀ i, ((start : RunningMax ι M).run l).sums i = contribution i l := by
    intro i
    rw [sums_run]
    exact zero_add _
  obtain ⟨j, hj⟩ := hleads.exists_leader (k := k) (by rwa [hsums])
  refine ⟨j, hj, fun i => ?_⟩
  have hmax := hleads.maximal hj i
  rwa [hsums, hsums] at hmax

end Runs

end RunningMax
