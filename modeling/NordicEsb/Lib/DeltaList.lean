import Mathlib.Algebra.GroupWithZero.Nat
import Mathlib.Data.List.Nodup
import Mathlib.Data.List.Perm.Basic
import Mathlib.Data.Nat.Notation

/-!
# Delta Lists

A list of things that happen at certain times, each with the time that passes after the one before
it. `dues b l` are the times themselves, counted from `b`.

- `insert` and `remove` edit one entry, and correct the next one
- `expire e` lets the time `e` pass, `expired e` is what happens meanwhile

**Main results**: `mem_dues_insert`, `mem_dues_remove`, `mem_dues_expired`, `mem_dues_expire` and
`dues_sorted`.
-/

namespace DeltaList

variable {α : Type*} {b c e t u : ℕ} {x y : α} {l : List (α × ℕ)} {p : α × ℕ}

/-! ## §1 Times -/

/-- The times of the entries, counted from `b`. -/
def dues (b : ℕ) : List (α × ℕ) → List (α × ℕ)
  | [] => []
  | q :: l => (q.1, b + q.2) :: dues (b + q.2) l

@[simp] theorem dues_nil : dues b ([] : List (α × ℕ)) = [] := rfl

@[simp] theorem dues_cons (q : α × ℕ) : dues b (q :: l) = (q.1, b + q.2) :: dues (b + q.2) l := rfl

/-- The entries themselves, in their order. -/
abbrev keys (l : List (α × ℕ)) : List α := l.map Prod.fst

theorem keys_dues (b : ℕ) (l : List (α × ℕ)) : keys (dues b l) = keys l := by
  induction l generalizing b with
  | nil => rfl
  | cons p l ih => simp [ih]

theorem mem_keys_iff (b : ℕ) : x ∈ keys l ↔ ∃ t, (x, t) ∈ dues b l := by
  rw [← keys_dues b l]
  simp

theorem dues_append (b : ℕ) (l m : List (α × ℕ)) :
    dues b (l ++ m) = dues b l ++ dues (b + (l.map Prod.snd).sum) m := by
  induction l generalizing b with
  | nil => simp
  | cons p l ih => simp [ih, Nat.add_assoc]

theorem le_of_mem_dues (h : p ∈ dues b l) : b ≤ p.2 := by
  induction l generalizing b with
  | nil => cases h
  | cons q l ih =>
    rcases List.mem_cons.mp h with rfl | h
    · exact Nat.le_add_right b _
    · exact Nat.le_trans (Nat.le_add_right b _) (ih h)

theorem le_sum_of_mem_dues (h : p ∈ dues b l) : p.2 ≤ b + (l.map Prod.snd).sum := by
  induction l generalizing b with
  | nil => cases h
  | cons q l ih =>
    rw [List.map_cons, List.sum_cons]
    rcases List.mem_cons.mp h with rfl | h
    · show b + q.2 ≤ _
      omega
    · have hle := ih h
      omega

/-- A later start moves all times. -/
theorem mem_dues_add : (x, u + c) ∈ dues (b + c) l ↔ (x, u) ∈ dues b l := by
  induction l generalizing b with
  | nil => simp
  | cons q l ih =>
    have hstep : b + c + q.2 = b + q.2 + c := by omega
    simp only [dues_cons, List.mem_cons, Prod.mk.injEq]
    rw [hstep, ih]
    apply or_congr _ Iff.rfl
    apply and_congr Iff.rfl
    omega

/-- **The times do not decrease along the list.** -/
theorem dues_sorted (b : ℕ) (l : List (α × ℕ)) : (dues b l).Pairwise fun p q => p.2 ≤ q.2 := by
  induction l generalizing b with
  | nil => exact .nil
  | cons q l ih => exact .cons (fun p hp => le_of_mem_dues hp) (ih _)

/-- An entry has one time. -/
theorem dues_unique (hnodup : (keys l).Nodup) (ht : (x, t) ∈ dues b l) (hu : (x, u) ∈ dues b l) :
    t = u := by
  have hpair := List.inj_on_of_nodup_map ((keys_dues b l).symm ▸ hnodup) ht hu rfl
  exact congrArg Prod.snd hpair

/-! ## §2 Insertion -/

/-- Insert `x` at time `t`, before what happens at the same time. -/
def insert (x : α) : ℕ → List (α × ℕ) → List (α × ℕ)
  | t, [] => [(x, t)]
  | t, q :: l => if t ≤ q.2 then (x, t) :: (q.1, q.2 - t) :: l else q :: insert x (t - q.2) l

/-- **Insertion** changes no other time. -/
theorem mem_dues_insert : p ∈ dues b (insert x t l) ↔ p = (x, b + t) ∨ p ∈ dues b l := by
  induction l generalizing b t with
  | nil => simp [insert]
  | cons q l ih =>
    unfold insert
    by_cases hle : t ≤ q.2
    · have hsum : b + t + (q.2 - t) = b + q.2 := by omega
      rw [if_pos hle]
      simp [hsum]
    · have hsum : b + q.2 + (t - q.2) = b + t := by omega
      rw [if_neg hle]
      simp only [dues_cons, List.mem_cons, ih, hsum]
      constructor
      · rintro (h | h | h) <;> simp [h]
      · rintro (h | h | h) <;> simp [h]

theorem keys_insert_perm (x : α) (t : ℕ) (l : List (α × ℕ)) :
    (keys (insert x t l)).Perm (x :: keys l) := by
  induction l generalizing t with
  | nil => exact .refl _
  | cons q l ih =>
    unfold insert
    by_cases hle : t ≤ q.2
    · rw [if_pos hle]
      exact .refl _
    · rw [if_neg hle]
      exact ((ih (t - q.2)).cons q.1).trans (.swap x q.1 _)

theorem mem_keys_insert : y ∈ keys (insert x t l) ↔ y = x ∨ y ∈ keys l := by
  rw [(keys_insert_perm x t l).mem_iff, List.mem_cons]

theorem nodup_insert (hnodup : (keys l).Nodup) (hx : x ∉ keys l) :
    (keys (insert x t l)).Nodup :=
  (keys_insert_perm x t l).nodup_iff.mpr (List.nodup_cons.mpr ⟨hx, hnodup⟩)

/-! ## §3 Removal -/

/-- Give the first entry the time of the one that was before it. -/
def delay (t : ℕ) : List (α × ℕ) → List (α × ℕ)
  | [] => []
  | q :: l => (q.1, q.2 + t) :: l

@[simp] theorem keys_delay : keys (delay t l) = keys l := by
  cases l <;> rfl

@[simp] theorem dues_delay : dues b (delay t l) = dues (b + t) l := by
  cases l with
  | nil => rfl
  | cons q l =>
    have hsum : b + (q.2 + t) = b + t + q.2 := by omega
    simp [delay, hsum]

variable [DecidableEq α]

/-- Remove the first entry of `x`. -/
def remove (x : α) : List (α × ℕ) → List (α × ℕ)
  | [] => []
  | q :: l => if q.1 = x then delay q.2 l else q :: remove x l

theorem keys_remove (x : α) (l : List (α × ℕ)) : keys (remove x l) = (keys l).erase x := by
  induction l with
  | nil => rfl
  | cons q l ih =>
    unfold remove
    by_cases hq : q.1 = x
    · rw [if_pos hq]
      simp [hq]
    · rw [if_neg hq]
      simp [hq, ih]

theorem nodup_remove (hnodup : (keys l).Nodup) : (keys (remove x l)).Nodup := by
  rw [keys_remove]
  exact hnodup.erase x

theorem mem_keys_remove (hnodup : (keys l).Nodup) : y ∈ keys (remove x l) ↔ y ≠ x ∧ y ∈ keys l := by
  rw [keys_remove, hnodup.mem_erase_iff]

/-- **Removal** changes no other time. -/
theorem mem_dues_remove (hnodup : (keys l).Nodup) :
    p ∈ dues b (remove x l) ↔ p.1 ≠ x ∧ p ∈ dues b l := by
  induction l generalizing b with
  | nil => simp [remove]
  | cons q l ih =>
    obtain ⟨hq, hnodup⟩ := List.nodup_cons.mp hnodup
    unfold remove
    by_cases hx : q.1 = x
    · rw [if_pos hx, dues_delay, dues_cons, List.mem_cons]
      constructor
      · intro hp
        refine ⟨?_, .inr hp⟩
        rintro rfl
        apply hq
        rw [hx, mem_keys_iff (b + q.2)]
        exact ⟨p.2, hp⟩
      · rintro ⟨hne, rfl | hp⟩
        · exact absurd hx hne
        · exact hp
    · rw [if_neg hx, dues_cons, dues_cons, List.mem_cons, List.mem_cons, ih hnodup]
      constructor
      · rintro (rfl | ⟨hne, hp⟩)
        · exact ⟨hx, .inl rfl⟩
        · exact ⟨hne, .inr hp⟩
      · rintro ⟨hne, rfl | hp⟩
        · exact .inl rfl
        · exact .inr ⟨hne, hp⟩

/-! ## §4 Time passes -/

omit [DecidableEq α]

/-- What is left after the time `e`. -/
def expire : ℕ → List (α × ℕ) → List (α × ℕ)
  | _, [] => []
  | e, q :: l => if e < q.2 then (q.1, q.2 - e) :: l else expire (e - q.2) l

/-- What happens in the time `e`. -/
def expired : ℕ → List (α × ℕ) → List (α × ℕ)
  | _, [] => []
  | e, q :: l => if e < q.2 then [] else q :: expired (e - q.2) l

/-- **The list is cut at the time `e`**, and what is left keeps its times. -/
theorem dues_expired_append (b e : ℕ) (l : List (α × ℕ)) :
    dues b (expired e l) ++ dues (b + e) (expire e l) = dues b l := by
  induction l generalizing b e with
  | nil => rfl
  | cons q l ih =>
    unfold expired expire
    by_cases hlt : e < q.2
    · have hsum : b + e + (q.2 - e) = b + q.2 := by omega
      rw [if_pos hlt, if_pos hlt]
      simp [hsum]
    · have hsum : b + e = b + q.2 + (e - q.2) := by omega
      rw [if_neg hlt, if_neg hlt, hsum, dues_cons, List.cons_append, ih]
      rfl

theorem keys_expired_append (e : ℕ) (l : List (α × ℕ)) :
    keys (expired e l) ++ keys (expire e l) = keys l := by
  have h := congrArg keys (dues_expired_append 0 e l)
  unfold keys at h
  rw [List.map_append] at h
  simpa only [keys_dues] using h

theorem le_of_mem_expired (h : p ∈ dues b (expired e l)) : p.2 ≤ b + e := by
  induction l generalizing b e with
  | nil => cases h
  | cons q l ih =>
    unfold expired at h
    by_cases hlt : e < q.2
    · rw [if_pos hlt] at h
      cases h
    · rw [if_neg hlt] at h
      rcases List.mem_cons.mp h with rfl | h
      · show b + q.2 ≤ b + e
        omega
      · have hle := ih h
        omega

theorem lt_of_mem_expire (h : p ∈ dues (b + e) (expire e l)) : b + e < p.2 := by
  induction l generalizing b e with
  | nil => cases h
  | cons q l ih =>
    unfold expire at h
    by_cases hlt : e < q.2
    · rw [if_pos hlt, dues_cons] at h
      rcases List.mem_cons.mp h with rfl | h
      · show b + e < b + e + (q.2 - e)
        omega
      · have hle := le_of_mem_dues h
        omega
    · have hsum : b + e = b + q.2 + (e - q.2) := by omega
      rw [if_neg hlt, hsum] at h
      rw [hsum]
      exact ih h

/-- **What happens in the time `e`** is what is due by then. -/
theorem mem_dues_expired : p ∈ dues b (expired e l) ↔ p ∈ dues b l ∧ p.2 ≤ b + e := by
  rw [← dues_expired_append b e l, List.mem_append]
  constructor
  · intro h
    exact ⟨.inl h, le_of_mem_expired h⟩
  · rintro ⟨h | h, hle⟩
    · exact h
    · exact absurd (lt_of_mem_expire h) (by omega)

/-- **What is left** is due later, at the same time as before. -/
theorem mem_dues_expire : p ∈ dues (b + e) (expire e l) ↔ p ∈ dues b l ∧ b + e < p.2 := by
  rw [← dues_expired_append b e l, List.mem_append]
  constructor
  · intro h
    exact ⟨.inr h, lt_of_mem_expire h⟩
  · rintro ⟨h | h, hlt⟩
    · exact absurd (le_of_mem_expired h) (by omega)
    · exact h

/-- The list is cut between `l` and `m` when the last time of `l` has passed. -/
theorem expired_sum_append {m : List (α × ℕ)} (hm : ∀ q ∈ m.head?, 0 < q.2) :
    expired (l.map Prod.snd).sum (l ++ m) = l := by
  induction l with
  | nil =>
    cases m with
    | nil => rfl
    | cons q m => exact if_pos (hm q rfl)
  | cons q l ih =>
    have hge : ¬ q.2 + (l.map Prod.snd).sum < q.2 := by omega
    have hrest : q.2 + (l.map Prod.snd).sum - q.2 = (l.map Prod.snd).sum := by omega
    rw [List.map_cons, List.sum_cons, List.cons_append]
    unfold expired
    rw [if_neg hge, hrest, ih]

/-- What happens comes first in the list. -/
theorem exists_expired_append (e : ℕ) (l : List (α × ℕ)) : ∃ m, l = expired e l ++ m := by
  induction l generalizing e with
  | nil => exact ⟨[], rfl⟩
  | cons q l ih =>
    unfold expired
    by_cases hlt : e < q.2
    · rw [if_pos hlt]
      exact ⟨q :: l, rfl⟩
    · obtain ⟨m, hm⟩ := ih (e - q.2)
      rw [if_neg hlt]
      exact ⟨m, by rw [List.cons_append, ← hm]⟩

/-- What happens is picked out by its names. -/
theorem filter_expired {f : α × ℕ → Bool} (hnodup : (keys l).Nodup)
    (hf : ∀ q ∈ l, f q = true ↔ q.1 ∈ keys (expired e l)) : l.filter f = expired e l := by
  obtain ⟨m, hm⟩ := exists_expired_append e l
  obtain ⟨k, hk⟩ : ∃ k, k = expired e l := ⟨_, rfl⟩
  rw [← hk] at hm hf ⊢
  rw [hm] at hnodup hf ⊢
  unfold keys at hnodup
  rw [List.map_append] at hnodup
  have hleft : k.filter f = k := List.filter_eq_self.mpr fun q hq =>
    (hf q (List.mem_append_left _ hq)).mpr (List.mem_map_of_mem hq)
  have hright : m.filter f = [] := List.filter_eq_nil_iff.mpr fun q hq hfq =>
    List.disjoint_of_nodup_append hnodup ((hf q (List.mem_append_right _ hq)).mp hfq)
      (List.mem_map_of_mem hq)
  rw [List.filter_append, hleft, hright, List.append_nil]

theorem nodup_expire (hnodup : (keys l).Nodup) : (keys (expire e l)).Nodup := by
  rw [← keys_expired_append e l] at hnodup
  exact hnodup.of_append_right

end DeltaList
