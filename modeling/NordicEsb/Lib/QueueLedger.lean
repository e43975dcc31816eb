import Mathlib.Data.List.Basic

/-!
# A Queue with a Ledger

A queue that also remembers what has left it: each element that is no longer held was
either taken, one at a time from the front, or discarded together with all others.

- `arrived`: every element that ever came, in order. `take` and `discard` leave it alone, so
  each element is settled at most once and in the order of arrival.
- `taken`: the elements that were taken, in order.
-/

/-- The elements that were settled, each with whether it was taken, and the ones still held;
    oldest first. -/
structure QueueLedger (α : Type*) where
  settled : List (α × Bool)
  held : List α

namespace QueueLedger

variable {α : Type*}

/-- Nothing has come yet. -/
def empty : QueueLedger α := ⟨[], []⟩

/-- Everything that ever came, in order. -/
def arrived (l : QueueLedger α) : List α := l.settled.map Prod.fst ++ l.held

/-- What was taken, in order. -/
def taken (l : QueueLedger α) : List α := (l.settled.filter Prod.snd).map Prod.fst

/-- An element comes in. -/
def arrive (x : α) (l : QueueLedger α) : QueueLedger α := { l with held := l.held ++ [x] }

/-- The oldest element is taken. -/
def take (l : QueueLedger α) : QueueLedger α where
  settled := l.settled ++ l.held.head?.toList.map fun x => (x, true)
  held := l.held.tail

/-- Some elements come in. -/
def arriveAll (xs : List α) (l : QueueLedger α) : QueueLedger α := { l with held := l.held ++ xs }

/-- The oldest `k` elements are taken. -/
def takeMany (k : ℕ) (l : QueueLedger α) : QueueLedger α where
  settled := l.settled ++ (l.held.take k).map fun x => (x, true)
  held := l.held.drop k

/-- All elements are discarded. -/
def discard (l : QueueLedger α) : QueueLedger α where
  settled := l.settled ++ l.held.map fun x => (x, false)
  held := []

/-- The oldest `k` elements are discarded. -/
def discardMany (k : ℕ) (l : QueueLedger α) : QueueLedger α where
  settled := l.settled ++ (l.held.take k).map fun x => (x, false)
  held := l.held.drop k

@[simp] theorem arrived_empty : (empty : QueueLedger α).arrived = [] := rfl

@[simp] theorem taken_empty : (empty : QueueLedger α).taken = [] := rfl

@[simp] theorem arrived_arrive (x : α) (l : QueueLedger α) :
    (l.arrive x).arrived = l.arrived ++ [x] := by
  simp [arrived, arrive]

@[simp] theorem taken_arrive (x : α) (l : QueueLedger α) : (l.arrive x).taken = l.taken := rfl

@[simp] theorem arrived_take (l : QueueLedger α) : l.take.arrived = l.arrived := by
  unfold arrived take
  cases l.held with
  | nil => simp
  | cons x held => simp

@[simp] theorem taken_take (l : QueueLedger α) :
    l.take.taken = l.taken ++ l.held.head?.toList := by
  unfold taken take
  cases l.held with
  | nil => simp
  | cons x held => simp

@[simp] theorem arrived_discard (l : QueueLedger α) : l.discard.arrived = l.arrived := by
  have hfst : (l.held.map fun x => (x, false)).map Prod.fst = l.held := by
    simp [Function.comp_def]
  simp only [arrived, discard, List.map_append, hfst, List.append_nil]

@[simp] theorem taken_discard (l : QueueLedger α) : l.discard.taken = l.taken := by
  have hnone : (l.held.map fun x => (x, false)).filter Prod.snd = [] := by
    simp [List.filter_eq_nil_iff]
  simp only [taken, discard, List.filter_append, hnone, List.append_nil]

@[simp] theorem arrived_arriveAll (xs : List α) (l : QueueLedger α) :
    (l.arriveAll xs).arrived = l.arrived ++ xs := by
  simp [arrived, arriveAll]

@[simp] theorem taken_arriveAll (xs : List α) (l : QueueLedger α) :
    (l.arriveAll xs).taken = l.taken := rfl

@[simp] theorem arrived_takeMany (k : ℕ) (l : QueueLedger α) :
    (l.takeMany k).arrived = l.arrived := by
  have hfst : ((l.held.take k).map fun x => (x, true)).map Prod.fst = l.held.take k := by
    simp [Function.comp_def]
  simp only [arrived, takeMany, List.map_append, hfst, List.append_assoc, List.take_append_drop]

@[simp] theorem taken_takeMany (k : ℕ) (l : QueueLedger α) :
    (l.takeMany k).taken = l.taken ++ l.held.take k := by
  have hall : ((l.held.take k).map fun x => (x, true)).filter Prod.snd =
      (l.held.take k).map fun x => (x, true) := by
    apply List.filter_eq_self.mpr
    intro x hx
    obtain ⟨y, -, rfl⟩ := List.mem_map.mp hx
    rfl
  simp only [taken, takeMany, List.filter_append, hall, List.map_append, List.map_map]
  simp [Function.comp_def]

@[simp] theorem arrived_discardMany (k : ℕ) (l : QueueLedger α) :
    (l.discardMany k).arrived = l.arrived := by
  have hfst : ((l.held.take k).map fun x => (x, false)).map Prod.fst = l.held.take k := by
    simp [Function.comp_def]
  simp only [arrived, discardMany, List.map_append, hfst, List.append_assoc, List.take_append_drop]

@[simp] theorem taken_discardMany (k : ℕ) (l : QueueLedger α) :
    (l.discardMany k).taken = l.taken := by
  have hnone : ((l.held.take k).map fun x => (x, false)).filter Prod.snd = [] := by
    apply List.filter_eq_nil_iff.mpr
    intro x hx
    obtain ⟨y, -, rfl⟩ := List.mem_map.mp hx
    simp
  simp only [taken, discardMany, List.filter_append, hnone, List.append_nil]

/-! ## What was taken, among what came -/

/-- **Once, and in order**: what was taken is a part of what came. -/
theorem taken_sublist (l : QueueLedger α) : l.taken.Sublist l.arrived := by
  unfold taken arrived
  apply List.Sublist.trans _ (List.sublist_append_left _ _)
  exact List.Sublist.map _ List.filter_sublist

/-- As long as nothing is discarded, what came is taken or still held. -/
theorem arrived_eq {l : QueueLedger α} (h : ∀ x ∈ l.settled, x.2 = true) :
    l.arrived = l.taken ++ l.held := by
  unfold arrived taken
  rw [List.filter_eq_self.mpr h]

end QueueLedger
