import Mathlib.Data.Nat.Notation
import Mathlib.Logic.Basic

/-!
# Systems Driven from Outside

A system with states `σ` that answers every input `ε` with one step, under all sequences of
inputs. `Always` is what holds at every moment, `Reaches` what happens at some moment; both
unfold by one step, so that a bounded behaviour is proved by induction on a counter.
-/

namespace Driven

variable {ε σ : Type*} {step : ε → σ → σ} {P Q : σ → Prop} {s : σ}

/-- The state after the first `n` inputs. -/
def drive (step : ε → σ → σ) : (ℕ → ε) → σ → ℕ → σ
  | _, s, 0 => s
  | ev, s, n + 1 => drive step (fun k => ev (k + 1)) (step (ev 0) s) n

/-- `P` holds now and after any inputs. -/
def Always (step : ε → σ → σ) (P : σ → Prop) (s : σ) : Prop := ∀ ev n, P (drive step ev s n)

/-- Whatever the inputs are, `P` holds after some of them. -/
def Reaches (step : ε → σ → σ) (P : σ → Prop) (s : σ) : Prop := ∀ ev, ∃ n, P (drive step ev s n)

/-- **One step of `Always`.** -/
theorem Always.of_step (hnow : P s) (hnext : ∀ e, Always step P (step e s)) : Always step P s := by
  intro ev n
  cases n with
  | zero => exact hnow
  | succ n => exact hnext (ev 0) _ n

/-- What `Always` says now. -/
theorem Always.now (h : Always step P s) [Inhabited ε] : P s := h (fun _ => default) 0

/-- What it says after an input. -/
theorem Always.next (h : Always step P s) (e : ε) : Always step P (step e s) := by
  intro ev n
  exact h (fun k => k.casesOn e ev) (n + 1)

/-- **One step of `Reaches`.** -/
theorem Reaches.of_step (hnext : ∀ e, Reaches step P (step e s)) : Reaches step P s := by
  intro ev
  obtain ⟨n, hn⟩ := hnext (ev 0) (fun k => ev (k + 1))
  exact ⟨n + 1, hn⟩

/-- What holds now is reached. -/
theorem Reaches.of_now (h : P s) : Reaches step P s := fun _ => ⟨0, h⟩

/-- **Every step gets closer**: a measure decreases until `P` holds, and an invariant is kept. -/
theorem Reaches.of_measure {I : σ → Prop} (μ : σ → ℕ)
    (hstep : ∀ s, I s → P s ∨ ∀ e, I (step e s) ∧ μ (step e s) < μ s) (h : I s) :
    Reaches step P s := by
  obtain ⟨n, hn⟩ : ∃ n, n = μ s := ⟨_, rfl⟩
  induction n using Nat.strongRecOn generalizing s with
  | ind n ih =>
    rcases hstep s h with hnow | hnext
    · exact .of_now hnow
    · apply Reaches.of_step
      intro e
      obtain ⟨hinv, hless⟩ := hnext e
      exact ih (μ (step e s)) (by omega) hinv rfl

/-- A state that no input changes. -/
theorem Always.of_fixed (hfixed : ∀ e, step e s = s) (h : P s) : Always step P s := by
  intro ev n
  induction n generalizing ev with
  | zero => exact h
  | succ n ih =>
    unfold drive
    rw [hfixed]
    exact ih _

end Driven
