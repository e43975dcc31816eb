import Mathlib.Data.List.Basic
import Mathlib.Logic.Basic

/-!
# Stop and Wait

A sender repeats an item under its number until the number after it comes back; a receiver accepts
the item with the number it expects and answers with the number it expects then. Items and answers
travel in order, and any of them may be lost. The numbers come from a type with a successor `next`
that differs from its argument, so that two of them are enough.

- `Fresh`: the receiver has accepted all that was sent, and nothing new is on the way
- `Awaited x`: the item `x` is under way, the receiver has not seen it
- `Accepted x`: the receiver has accepted `x`, the sender does not know it yet

Each lemma says what one event does to the three phases.
-/

namespace StopAndWait

/-- The numbers of both ends and what is on the way, the oldest first. -/
structure Link (ν α : Type*) where
  number : ν
  expected : ν
  frames : List (ν × α)
  acks : List ν

variable {ν α : Type*} {next : ν → ν} {l l' : Link ν α} {x y : α} {f : ν × α} {a : ν}

/-- Both ends agree, and nothing with the number of the sender is on the way. -/
structure Fresh (next : ν → ν) (l : Link ν α) : Prop where
  expected : l.expected = l.number
  frames : ∀ f ∈ l.frames, f.1 ≠ l.number
  acks : ∀ a ∈ l.acks, a ≠ next l.number

/-- The sender sends `x`; older frames travel ahead of it. -/
structure Awaited (next : ν → ν) (x : α) (l : Link ν α) : Prop where
  expected : l.expected = l.number
  sorted : l.frames.Pairwise fun f g => f.1 = l.number → g.1 = l.number
  current : ∀ f ∈ l.frames, f.1 = l.number → f.2 = x
  acks : ∀ a ∈ l.acks, a ≠ next l.number

/-- The receiver has `x`; older answers travel ahead of those that say so. -/
structure Accepted (next : ν → ν) (l : Link ν α) : Prop where
  expected : l.expected = next l.number
  frames : ∀ f ∈ l.frames, f.1 = l.number
  acks : l.acks.Pairwise fun a b => a = next l.number → b = next l.number

/-- What a loss leaves. -/
structure Lost (l l' : Link ν α) : Prop where
  number : l'.number = l.number
  expected : l'.expected = l.expected
  frames : List.Sublist l'.frames l.frames
  acks : List.Sublist l'.acks l.acks

/-! ## §1 Losses -/

theorem Fresh.lost (h : Fresh next l) (hlost : Lost l l') : Fresh next l' := by
  refine ⟨?_, fun f hf => ?_, fun a ha => ?_⟩
  · rw [hlost.expected, hlost.number, h.expected]
  · rw [hlost.number]
    exact h.frames f (hlost.frames.subset hf)
  · rw [hlost.number]
    exact h.acks a (hlost.acks.subset ha)

theorem Awaited.lost (h : Awaited next x l) (hlost : Lost l l') : Awaited next x l' := by
  refine ⟨?_, ?_, fun f hf => ?_, fun a ha => ?_⟩
  · rw [hlost.expected, hlost.number, h.expected]
  · rw [hlost.number]
    exact h.sorted.sublist hlost.frames
  · rw [hlost.number]
    exact h.current f (hlost.frames.subset hf)
  · rw [hlost.number]
    exact h.acks a (hlost.acks.subset ha)

theorem Accepted.lost (h : Accepted next l) (hlost : Lost l l') : Accepted next l' := by
  refine ⟨?_, fun f hf => ?_, ?_⟩
  · rw [hlost.expected, hlost.number, h.expected]
  · rw [hlost.number]
    exact h.frames f (hlost.frames.subset hf)
  · rw [hlost.number]
    exact h.acks.sublist hlost.acks

/-! ## §2 The sender -/

/-- A new item on a fresh link. -/
theorem Fresh.begin (h : Fresh next l) (x : α) : Awaited next x l := by
  refine ⟨h.expected, ?_, fun f hf heq => absurd heq (h.frames f hf), h.acks⟩
  refine List.pairwise_of_forall_mem_list fun f hf g _ heq => ?_
  exact absurd heq (h.frames f hf)

/-- An item of which no frame is left, and that the receiver has not seen, leaves a fresh link. -/
theorem Awaited.fresh (h : Awaited next x l) (hgone : ∀ f ∈ l.frames, f.2 ≠ x) : Fresh next l :=
  ⟨h.expected, fun f hf heq => hgone f hf (h.current f hf heq), h.acks⟩

/-- The sender sends the item, or sends it again. -/
theorem Awaited.send (h : Awaited next x l) :
    Awaited next x { l with frames := l.frames ++ [(l.number, x)] } := by
  refine ⟨h.expected, ?_, fun f hf heq => ?_, h.acks⟩
  · refine List.pairwise_append.mpr ⟨h.sorted, List.pairwise_singleton _ _, ?_⟩
    intro f _ g hg _
    rw [List.mem_singleton.mp hg]
  · rcases List.mem_append.mp hf with hf | hf
    · exact h.current f hf heq
    · rw [List.mem_singleton.mp hf]

theorem Accepted.send (h : Accepted next l) :
    Accepted next { l with frames := l.frames ++ [(l.number, x)] } := by
  refine ⟨h.expected, fun f hf => ?_, h.acks⟩
  rcases List.mem_append.mp hf with hf | hf
  · exact h.frames f hf
  · rw [List.mem_singleton.mp hf]

/-- **The answer to the item**: the receiver has it, and the link is fresh again. -/
theorem Accepted.acked (h : Accepted next l) (hnext : ∀ a, next a ≠ a) {acks : List ν}
    (hacks : l.acks = next l.number :: acks) :
    Fresh next { l with number := next l.number, acks := acks } := by
  have hsorted := h.acks
  rw [hacks, List.pairwise_cons] at hsorted
  refine ⟨h.expected, fun f hf heq => ?_, fun a ha heq => ?_⟩
  · -- all frames carry the number before
    rw [h.frames f hf] at heq
    exact hnext _ heq.symm
  · -- what follows the answer says the same
    rw [hsorted.1 a ha rfl] at heq
    exact hnext _ heq.symm

/-- Before the receiver has the item no answer to it is on the way. -/
theorem Awaited.not_acked (h : Awaited next x l) {acks : List ν} (hacks : l.acks = a :: acks) :
    a ≠ next l.number :=
  h.acks a (hacks ▸ List.mem_cons_self)

/-! ## §3 The receiver -/

/-- **The receiver accepts a frame**: it is the item. -/
theorem Awaited.accept (h : Awaited next x l) {frames : List (ν × α)}
    (hframes : l.frames = f :: frames) (hf : f.1 = l.expected) :
    f.2 = x ∧ Accepted next { l with expected := next l.expected, frames := frames } := by
  have hsorted := h.sorted
  rw [hframes, List.pairwise_cons] at hsorted
  rw [h.expected] at hf
  refine ⟨h.current f (hframes ▸ List.mem_cons_self) hf, ?_, ?_, ?_⟩
  · simp only [h.expected]
  · exact fun g hg => hsorted.1 g hg hf
  · refine List.pairwise_of_forall_mem_list fun a ha b _ heq => ?_
    exact absurd heq (h.acks a ha)

/-- Otherwise the receiver accepts nothing. -/
theorem Fresh.not_accept (h : Fresh next l) (hf : f ∈ l.frames) : f.1 ≠ l.expected := by
  rw [h.expected]
  exact h.frames f hf

theorem Accepted.not_accept (h : Accepted next l) (hnext : ∀ a, next a ≠ a) (hf : f ∈ l.frames) :
    f.1 ≠ l.expected := by
  rw [h.expected, h.frames f hf]
  exact (hnext _).symm

/-- The receiver answers. -/
theorem Fresh.answer (h : Fresh next l) (hnext : ∀ a, next a ≠ a) :
    Fresh next { l with acks := l.acks ++ [l.expected] } := by
  refine ⟨h.expected, h.frames, fun a ha => ?_⟩
  rcases List.mem_append.mp ha with ha | ha
  · exact h.acks a ha
  · rw [List.mem_singleton.mp ha, h.expected]
    exact (hnext _).symm

theorem Awaited.answer (h : Awaited next x l) (hnext : ∀ a, next a ≠ a) :
    Awaited next x { l with acks := l.acks ++ [l.expected] } := by
  refine ⟨h.expected, h.sorted, h.current, fun a ha => ?_⟩
  rcases List.mem_append.mp ha with ha | ha
  · exact h.acks a ha
  · rw [List.mem_singleton.mp ha, h.expected]
    exact (hnext _).symm

theorem Accepted.answer (h : Accepted next l) :
    Accepted next { l with acks := l.acks ++ [l.expected] } := by
  refine ⟨h.expected, h.frames, ?_⟩
  refine List.pairwise_append.mpr ⟨h.acks, List.pairwise_singleton _ _, ?_⟩
  intro a _ b hb _
  rw [List.mem_singleton.mp hb, h.expected]

end StopAndWait
