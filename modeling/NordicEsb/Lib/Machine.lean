import Mathlib.Data.List.Basic

/-!
# Labelled Machines, Runs and Guarded Invariants

A machine is a set of initial states, a guard saying which labels may be taken in
a state, and a step function. `ReachableUnder C` collects the states reached by
runs whose every step meets the condition `C` in the state before it; plain
reachability takes the trivial condition.

`invariant` is the induction over such runs, packaged once: it turns a
preservation lemma for a single step into a fact about whole runs. `follows`
replays a concrete list of labels, so that a trace can be checked by evaluation.
-/

/-- A machine with states `σ` and labels `α`. -/
structure Machine (σ α : Type*) where
  /-- The states a run may start from. -/
  start : σ → Prop
  /-- The labels that may be taken in a state. -/
  enabled : σ → α → Prop
  /-- The state after a label. -/
  step : σ → α → σ

namespace Machine

variable {σ α : Type*} {M : Machine σ α} {C D : σ → α → Prop}

/-- States reached by runs whose steps all meet `C`. -/
inductive ReachableUnder (M : Machine σ α) (C : σ → α → Prop) : σ → Prop where
  | start {s : σ} : M.start s → ReachableUnder M C s
  | step {s : σ} {a : α} :
      ReachableUnder M C s → M.enabled s a → C s a → ReachableUnder M C (M.step s a)

/-- States reached by any run. -/
abbrev Reachable (M : Machine σ α) : σ → Prop := M.ReachableUnder fun _ _ => True

/-- **Run induction**: what holds initially and is preserved by every step that
    meets `C` holds in every state such runs reach. -/
theorem ReachableUnder.invariant {I : σ → Prop} {s : σ} (h : M.ReachableUnder C s)
    (hstart : ∀ s, M.start s → I s)
    (hstep : ∀ s a, I s → M.enabled s a → C s a → I (M.step s a)) : I s := by
  induction h with
  | start h => exact hstart _ h
  | step _ hen hC ih => exact hstep _ _ ih hen hC

/-- The labels of `l` are enabled and meet `C` when taken one after the other. -/
def Follows (M : Machine σ α) (C : σ → α → Prop) : σ → List α → Prop
  | _, [] => True
  | s, a :: l => M.enabled s a ∧ C s a ∧ Follows M C (M.step s a) l

/-- The state after the labels of `l`. -/
def run (M : Machine σ α) (s : σ) (l : List α) : σ := l.foldl M.step s

@[simp] theorem run_nil (s : σ) : M.run s [] = s := rfl

@[simp] theorem run_cons (s : σ) (a : α) (l : List α) : M.run s (a :: l) = M.run (M.step s a) l :=
  rfl

instance decidableFollows [∀ s a, Decidable (M.enabled s a)] [∀ s a, Decidable (C s a)] :
    ∀ s l, Decidable (M.Follows C s l)
  | _, [] => .isTrue trivial
  | s, a :: l =>
    have := decidableFollows (M.step s a) l
    inferInstanceAs (Decidable (_ ∧ _ ∧ _))

/-- A trace that follows the machine ends in a reachable state. -/
theorem ReachableUnder.of_follows {s : σ} {l : List α} (hs : M.ReachableUnder C s)
    (hl : M.Follows C s l) : M.ReachableUnder C (M.run s l) := by
  induction l generalizing s with
  | nil => exact hs
  | cons a l ih => exact ih (.step hs hl.1 hl.2.1) hl.2.2

end Machine
