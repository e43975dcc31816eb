import NordicEsb.Lib.FixedArray
import Mathlib.Data.Nat.ModEq

/-!
# Ring Buffers and the Queues They Represent

A ring buffer of capacity `n` keeps its elements in a fixed array together with
an entry point (the next free cell), an exit point (the oldest element) and the
number of elements. The three numbers are updated separately, so nothing but an
invariant ties them together: `Represents r q` says that `r` is a faithful
picture of the queue `q`, oldest element first.

`push`, `dropHead` and `clear` preserve the picture; `Represents.head_cons` reads
the oldest element. `dropHead` on the last element leaves the exit point at a dead
cell, which still holds some older element. `QueueOp` names the operations, so that
a program step can be described by the one it performs.
-/

/-- A ring buffer of capacity `n`. -/
structure RingQueue (n : ℕ) (α : Type*) where
  /-- The cells, live or not. -/
  slots : FixedArray n α
  /-- The cell the next element is written to. -/
  entryPoint : ℕ
  /-- The cell of the oldest element. -/
  exitPoint : ℕ
  /-- The number of elements. -/
  count : ℕ
deriving DecidableEq

namespace RingQueue

variable {n : ℕ} {α : Type*}

/-- The next cell of the ring. -/
def advance (n i : ℕ) : ℕ := if i + 1 ≥ n then 0 else i + 1

/-- Empty the ring; its cells keep their contents. -/
def clear (r : RingQueue n α) : RingQueue n α :=
  { r with entryPoint := 0, exitPoint := 0, count := 0 }

/-- Write an element at the entry point. -/
def push (r : RingQueue n α) (x : α) : RingQueue n α :=
  { r with
    slots := r.slots.set r.entryPoint x
    entryPoint := advance n r.entryPoint
    count := r.count + 1 }

/-- Step the exit point over the oldest element. -/
def dropHead (r : RingQueue n α) : RingQueue n α :=
  { r with exitPoint := advance n r.exitPoint, count := r.count - 1 }

/-- The cell at the exit point. -/
def head [Inhabited α] (r : RingQueue n α) : α := r.slots.get r.exitPoint

/-- The elements from the exit point on, oldest first. -/
def toList [Inhabited α] (r : RingQueue n α) : List α :=
  (List.range r.count).map fun i => r.slots.get ((r.exitPoint + i) % n)

/-- The ring `r` holds exactly the queue `q`, oldest element first. -/
structure Represents [Inhabited α] (r : RingQueue n α) (q : List α) : Prop where
  entry_lt : r.entryPoint < n
  exit_lt : r.exitPoint < n
  count_eq : r.count = q.length
  length_le : q.length ≤ n
  entry_eq : r.entryPoint = (r.exitPoint + r.count) % n
  slot_eq : ∀ i (h : i < q.length), r.slots.get ((r.exitPoint + i) % n) = q[i]

/-! ## Index arithmetic -/

theorem advance_lt {i : ℕ} (h : i < n) : advance n i < n := by
  unfold advance; split <;> omega

theorem advance_eq_mod {i : ℕ} (h : i < n) : advance n i = (i + 1) % n := by
  unfold advance
  split
  · have : i + 1 = n := by omega
    simp [this]
  · rw [Nat.mod_eq_of_lt (by omega)]

/-- Within one revolution, two different offsets name two different cells. -/
theorem offset_ne {i j k : ℕ} (hij : i < j) (hj : j < n) :
    (k + i) % n ≠ (k + j) % n := by
  intro h
  have hmod : i % n = j % n := Nat.ModEq.add_left_cancel' k h
  rw [Nat.mod_eq_of_lt (by omega), Nat.mod_eq_of_lt hj] at hmod
  omega

/-! ## The operations preserve the picture -/

section Refinement

variable [Inhabited α] {r : RingQueue n α} {q : List α}

theorem represents_clear (r : RingQueue n α) (hn : 0 < n) : (clear r).Represents [] where
  entry_lt := hn
  exit_lt := hn
  count_eq := rfl
  length_le := Nat.zero_le n
  entry_eq := by simp [clear]
  slot_eq := by simp

/-- Writing below capacity appends at the tail. -/
theorem Represents.push (h : r.Represents q) (hlt : r.count < n) (x : α) :
    (r.push x).Represents (q ++ [x]) where
  entry_lt := advance_lt h.entry_lt
  exit_lt := h.exit_lt
  count_eq := by simp [RingQueue.push, h.count_eq]
  length_le := by
    have := h.count_eq
    simp only [List.length_append, List.length_cons, List.length_nil]
    omega
  entry_eq := by
    simp only [RingQueue.push]
    rw [advance_eq_mod h.entry_lt, h.entry_eq, Nat.mod_add_mod, Nat.add_assoc]
  slot_eq := by
    intro i hi
    simp only [RingQueue.push]
    rw [FixedArray.get_set _ _ _ _ h.entry_lt, h.entry_eq, h.count_eq]
    simp only [List.length_append, List.length_cons, List.length_nil] at hi
    have hlen := h.count_eq
    by_cases hiq : i < q.length
    · -- an older element: its cell is not the one written
      have hne : (r.exitPoint + i) % n ≠ (r.exitPoint + q.length) % n :=
        offset_ne hiq (by omega)
      rw [if_neg hne, h.slot_eq i hiq, List.getElem_append_left hiq]
    · have hi' : i = q.length := by omega
      subst hi'
      simp

/-- Stepping over the oldest element removes the head. -/
theorem Represents.dropHead (h : r.Represents q) (hpos : 0 < r.count) :
    r.dropHead.Represents q.tail where
  entry_lt := h.entry_lt
  exit_lt := advance_lt h.exit_lt
  count_eq := by simp [RingQueue.dropHead, h.count_eq]
  length_le := by
    have := h.length_le
    simp only [List.length_tail]
    omega
  entry_eq := by
    simp only [RingQueue.dropHead]
    rw [h.entry_eq, advance_eq_mod h.exit_lt, Nat.mod_add_mod]
    congr 1
    omega
  slot_eq := by
    intro i hi
    simp only [List.length_tail] at hi
    simp only [RingQueue.dropHead, List.getElem_tail]
    rw [advance_eq_mod h.exit_lt, Nat.mod_add_mod, ← h.slot_eq (i + 1) (by omega)]
    congr 2
    omega

/-- The cell at the exit point is the head of a non-empty queue. -/
theorem Represents.head_cons {x : α} {q : List α} (h : r.Represents (x :: q)) : r.head = x := by
  have := h.slot_eq 0 (by simp)
  simpa [head, Nat.mod_eq_of_lt h.exit_lt] using this

/-- The element behind the head sits in the next cell. -/
theorem Represents.second {x y : α} {q : List α} (h : r.Represents (x :: y :: q)) :
    r.slots.get (advance n r.exitPoint) = y := by
  have := h.slot_eq 1 (by simp)
  rw [advance_eq_mod h.exit_lt]
  simpa using this

/-- The represented queue can be read off. -/
theorem Represents.toList_eq (h : r.Represents q) : r.toList = q := by
  apply List.ext_getElem
  · simp [toList, h.count_eq]
  · intro i h₁ h₂
    simp [toList, h.slot_eq i h₂]

theorem Represents.nil_iff (h : r.Represents q) : r.count = 0 ↔ q = [] := by
  rw [h.count_eq, List.length_eq_zero_iff]

theorem Represents.pos_iff (h : r.Represents q) : 0 < r.count ↔ q ≠ [] := by
  rw [h.count_eq, List.length_pos_iff]

/-- A ring that steps its *entry* point on removal represents no queue. -/
theorem not_represents_of_entry_advanced (h : r.Represents q) (hpos : 0 < r.count) (hn : 2 < n)
    (q' : List α) :
    ¬ (RingQueue.mk r.slots (advance n r.entryPoint) r.exitPoint (r.count - 1)).Represents q' := by
  intro h'
  have he := h'.entry_eq
  simp only at he
  rw [advance_eq_mod h.entry_lt, h.entry_eq, Nat.mod_add_mod] at he
  -- the entry point is two cells away from where the count puts it
  have hlen := h.count_eq
  have hle := h.length_le
  obtain ⟨c, hc⟩ : ∃ c, r.count = c + 1 := ⟨r.count - 1, by omega⟩
  rw [hc] at he
  have h2 : (2 + (r.exitPoint + c)) % n = (0 + (r.exitPoint + c)) % n := by
    rw [Nat.zero_add]
    convert he using 2 <;> omega
  have hmod : 2 % n = 0 % n := Nat.ModEq.add_right_cancel' (r.exitPoint + c) h2
  rw [Nat.mod_eq_of_lt hn, Nat.zero_mod] at hmod
  omega

end Refinement

end RingQueue

/-! ## Naming the operations -/

/-- The operations on a queue. -/
inductive QueueOp where
  | keep
  | append
  | removeHead
  | empty
deriving DecidableEq, Repr

namespace QueueOp

variable {n : ℕ} {α β : Type*}

/-- The queue after an operation; `x` is what `append` appends. -/
def onList (x : α) (q : List α) : QueueOp → List α
  | keep => q
  | append => q ++ [x]
  | removeHead => q.tail
  | empty => []

/-- The ring after an operation; there is nothing to remove from an empty ring. -/
def onRing (x : α) (r : RingQueue n α) : QueueOp → RingQueue n α
  | keep => r
  | append => r.push x
  | removeHead => if 0 < r.count then r.dropHead else r
  | empty => r.clear

theorem map_onList (f : α → β) (x : α) (q : List α) (op : QueueOp) :
    (op.onList x q).map f = op.onList (f x) (q.map f) := by
  cases op <;> simp [onList]

/-- **The ring refines the queue**: every operation keeps the picture, `append` below
    capacity. -/
theorem represents_onRing [Inhabited α] {r : RingQueue n α} {q : List α} (h : r.Represents q)
    (x : α) (op : QueueOp) (hroom : op = append → r.count < n) :
    (op.onRing x r).Represents (op.onList x q) := by
  cases op with
  | keep => exact h
  | append => exact h.push (hroom rfl) x
  | removeHead =>
    simp only [onRing, onList]
    by_cases hpos : 0 < r.count
    · rw [if_pos hpos]
      exact h.dropHead hpos
    · rw [if_neg hpos, h.nil_iff.mp (by omega)]
      rwa [h.nil_iff.mp (by omega)] at h
  | empty => exact r.represents_clear (by have := h.entry_lt; omega)

end QueueOp
