import Mathlib.Data.List.Nodup
import Mathlib.Data.Nat.ModEq

/-!
# Segments of a Ring

The cells of a ring of `n` cells that follow one another from cell `s` on. A ring buffer whose
cells pass through several stages is a sequence of such segments, one for each stage.

- `ringSegment_add` splits a segment, `ringSegment_succ` and `ringSegment_concat` take off one end
- a segment that is not longer than the ring has no cell twice (`nodup_ringSegment`)
-/

/-- The `k` cells from cell `s` on. -/
def ringSegment (n s k : ℕ) : List ℕ := (List.range k).map fun i => (s + i) % n

variable {n s k j x : ℕ}

@[simp] theorem ringSegment_zero (n s : ℕ) : ringSegment n s 0 = [] := rfl

@[simp] theorem length_ringSegment (n s k : ℕ) : (ringSegment n s k).length = k := by
  simp [ringSegment]

theorem mem_ringSegment : x ∈ ringSegment n s k ↔ ∃ i < k, (s + i) % n = x := by
  simp [ringSegment]

theorem ringSegment_add (n s j k : ℕ) :
    ringSegment n s (j + k) = ringSegment n s j ++ ringSegment n (s + j) k := by
  unfold ringSegment
  rw [List.range_add, List.map_append, List.map_map]
  congr 1
  apply List.map_congr_left
  intro i _
  simp only [Function.comp_apply]
  rw [Nat.add_assoc]

theorem ringSegment_one (n s : ℕ) : ringSegment n s 1 = [s % n] := rfl

theorem ringSegment_succ (n s k : ℕ) :
    ringSegment n s (k + 1) = s % n :: ringSegment n (s + 1) k := by
  rw [Nat.add_comm k 1, ringSegment_add, ringSegment_one, List.singleton_append]

theorem ringSegment_concat (n s k : ℕ) :
    ringSegment n s (k + 1) = ringSegment n s k ++ [(s + k) % n] := by
  rw [ringSegment_add, ringSegment_one]

/-- Only the cell counts that a segment starts at. -/
theorem ringSegment_mod (n s k : ℕ) : ringSegment n (s % n) k = ringSegment n s k := by
  unfold ringSegment
  apply List.map_congr_left
  intro i _
  exact Nat.mod_add_mod s n i

theorem lt_of_mem_ringSegment (hn : 0 < n) (h : x ∈ ringSegment n s k) : x < n := by
  obtain ⟨i, -, rfl⟩ := mem_ringSegment.mp h
  exact Nat.mod_lt _ hn

/-- **Within one revolution** no cell comes twice. -/
theorem nodup_ringSegment (hk : k ≤ n) : (ringSegment n s k).Nodup := by
  refine List.Nodup.map_on ?_ List.nodup_range
  intro i hi j hj heq
  have hmod : i % n = j % n := Nat.ModEq.add_left_cancel' s heq
  have hi' := List.mem_range.mp hi
  have hj' := List.mem_range.mp hj
  rwa [Nat.mod_eq_of_lt (by omega), Nat.mod_eq_of_lt (by omega)] at hmod
