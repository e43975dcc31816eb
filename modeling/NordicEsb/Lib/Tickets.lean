import Mathlib.Data.Set.Insert
import Mathlib.Logic.Function.Basic

/-!
# Handing Out Tickets

A desk hands tickets to clients and keeps the set of those it has spent. `Unique` says that
clients hold spent tickets only, and no ticket is held twice. Whatever the order of the
requests, this survives as long as a ticket that is handed out was unspent before and is
spent afterwards.
-/

namespace Tickets

variable {ι α : Type*} {spent spent' : Set α} {held : ι → Option α}

/-- Clients hold spent tickets, each of them by one client. -/
structure Unique (spent : Set α) (held : ι → Option α) : Prop where
  spent : ∀ i x, held i = some x → x ∈ spent
  injective : ∀ i j x, held i = some x → held j = some x → i = j

/-- Nobody holds a ticket. -/
theorem Unique.of_none (h : ∀ i, held i = none) : Unique spent held where
  spent i x hx := by
    rw [h i] at hx
    cases hx
  injective i j x hx := by
    rw [h i] at hx
    cases hx

/-- The desk may spend more tickets than it hands out. -/
theorem Unique.mono (h : Unique spent held) (hsub : spent ⊆ spent') : Unique spent' held :=
  ⟨fun i x hx => hsub (h.spent i x hx), h.injective⟩

/-- **Handing out an unspent ticket** and spending it. -/
theorem Unique.grant [DecidableEq ι] (h : Unique spent held) {x : α} (hfresh : x ∉ spent)
    (hsub : spent ⊆ spent') (hspent : x ∈ spent') (i : ι) :
    Unique spent' (Function.update held i (some x)) where
  spent j y hy := by
    by_cases hj : j = i
    · subst hj
      rw [Function.update_self, Option.some_inj] at hy
      exact hy ▸ hspent
    · rw [Function.update_of_ne hj] at hy
      exact hsub (h.spent j y hy)
  injective j k y hj hk := by
    by_cases hji : j = i <;> by_cases hki : k = i
    · exact hji.trans hki.symm
    · -- the other client would hold the new ticket already
      subst hji
      rw [Function.update_self, Option.some_inj] at hj
      rw [Function.update_of_ne hki] at hk
      exact absurd (h.spent k y hk) (hj ▸ hfresh)
    · subst hki
      rw [Function.update_self, Option.some_inj] at hk
      rw [Function.update_of_ne hji] at hj
      exact absurd (h.spent j y hj) (hk ▸ hfresh)
    · rw [Function.update_of_ne hji] at hj
      rw [Function.update_of_ne hki] at hk
      exact h.injective j k y hj hk

end Tickets
