import Mathlib.Data.List.Nodup
import Mathlib.Data.Fintype.Card

/-!
# Linked Lists

Cells that point to each other, given by two functions: `next x` is where the cell `x` points to,
and `val x` is what it holds. `Holds next val p l` says that a walk from `p` meets the cells of `l`
with what they hold, and ends.

**Main results**: `Holds.congr`, `Holds.unique` and `not_holds_self`.
-/

namespace LinkedList

variable {α β : Type*} {next next' : α → Option α} {val val' : α → β} {p : Option α} {x : α} {v : β}
  {l m : List (α × β)}

/-- From `p` the cells of `l` are met, and then the end. -/
def Holds (next : α → Option α) (val : α → β) : Option α → List (α × β) → Prop
  | p, [] => p = none
  | p, (x, v) :: l => p = some x ∧ val x = v ∧ Holds next val (next x) l

theorem Holds.nil_of_none (h : Holds next val none l) : l = [] := by
  cases l with
  | nil => rfl
  | cons q l => cases h.1

theorem Holds.cons_of_some (h : Holds next val (some x) l) :
    ∃ m, l = (x, val x) :: m ∧ Holds next val (next x) m := by
  cases l with
  | nil => cases h
  | cons q l =>
    obtain ⟨hx, hval, hrest⟩ := h
    obtain rfl := Option.some.inj hx
    exact ⟨l, by rw [hval], hrest⟩

/-- **Frame**: cells outside the list do not matter. -/
theorem Holds.congr (h : Holds next val p l)
    (hframe : ∀ x ∈ l.map Prod.fst, next' x = next x ∧ val' x = val x) : Holds next' val' p l := by
  induction l generalizing p with
  | nil => exact h
  | cons q l ih =>
    obtain ⟨hp, hval, hrest⟩ := h
    obtain ⟨hnext, hvalue⟩ := hframe q.1 (List.mem_cons_self ..)
    refine ⟨hp, hvalue.trans hval, ?_⟩
    rw [hnext]
    exact ih hrest fun x hx => hframe x (List.mem_cons_of_mem _ hx)

/-- There is one list at most. -/
theorem Holds.unique (h : Holds next val p l) (hm : Holds next val p m) : l = m := by
  induction l generalizing p m with
  | nil =>
    obtain rfl : p = none := h
    exact hm.nil_of_none.symm
  | cons q l ih =>
    obtain ⟨rfl, hval, hrest⟩ := h
    obtain ⟨k, rfl, hk⟩ := hm.cons_of_some
    rw [ih hrest hk, hval]

/-- A cell that points to itself is in no list. -/
theorem not_holds_self (hself : next x = some x) : ¬ Holds next val (some x) l := by
  induction l with
  | nil => exact fun h => nomatch h
  | cons q l ih =>
    rintro ⟨hx, -, hrest⟩
    obtain rfl := Option.some.inj hx
    rw [hself] at hrest
    exact ih hrest

/-- There are at most as many cells in a list as there are cells. -/
theorem length_le_card [Fintype α] (hnodup : (l.map Prod.fst).Nodup) :
    l.length ≤ Fintype.card α := by
  have hlen := hnodup.length_le_card
  rwa [List.length_map] at hlen

end LinkedList
