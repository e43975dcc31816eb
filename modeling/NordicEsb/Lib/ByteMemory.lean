import Mathlib.Data.List.Basic
import Mathlib.Data.Nat.Notation

/-!
# Copying Bytes

A memory of bytes, and lists of bytes that are copied into it and out of it.

- a list that was copied in can be copied out
- copying in changes the addresses of the list only
- what is copied out depends on its addresses only

**Main results**: `copyOut_copyIn`, `copyIn_of_outside`, `copyOut_congr`.
-/

namespace ByteMemory

variable {β : Type*} {mem mem' : ℕ → β} {a k n : ℕ} {bytes : List β}

/-- The memory after `bytes` has been copied to the address `a`. -/
def copyIn (mem : ℕ → β) (a : ℕ) (bytes : List β) : ℕ → β := fun x =>
  if a ≤ x then (bytes[x - a]?).getD (mem x) else mem x

/-- The `n` bytes from the address `a` on. -/
def copyOut (mem : ℕ → β) (a n : ℕ) : List β := (List.range n).map fun i => mem (a + i)

@[simp] theorem length_copyOut (mem : ℕ → β) (a n : ℕ) : (copyOut mem a n).length = n := by
  simp [copyOut]

/-- **Other addresses** keep their byte. -/
theorem copyIn_of_outside (h : k < a ∨ a + bytes.length ≤ k) : copyIn mem a bytes k = mem k := by
  unfold copyIn
  split
  case isTrue hle =>
    rw [List.getElem?_eq_none (by omega)]
    rfl
  case isFalse => rfl

theorem copyIn_of_inside (h : k < bytes.length) : copyIn mem a bytes (a + k) = bytes[k] := by
  unfold copyIn
  have hsub : a + k - a = k := by omega
  rw [if_pos (Nat.le_add_right a k), hsub, List.getElem?_eq_getElem h]
  rfl

/-- **Only these addresses** are read. -/
theorem copyOut_congr (h : ∀ x, a ≤ x → x < a + n → mem' x = mem x) :
    copyOut mem' a n = copyOut mem a n := by
  apply List.map_congr_left
  intro i hi
  have hlt := List.mem_range.mp hi
  exact h _ (Nat.le_add_right a i) (by omega)

/-- **A list can be read again.** -/
theorem copyOut_copyIn (mem : ℕ → β) (a : ℕ) (bytes : List β) :
    copyOut (copyIn mem a bytes) a bytes.length = bytes := by
  apply List.ext_getElem
  · rw [length_copyOut]
  · intro i h₁ h₂
    have hmap : (copyOut (copyIn mem a bytes) a bytes.length)[i] = copyIn mem a bytes (a + i) := by
      simp [copyOut]
    rw [hmap, copyIn_of_inside h₂]

end ByteMemory
