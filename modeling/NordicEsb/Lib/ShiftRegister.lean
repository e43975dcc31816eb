import Mathlib.Data.Bool.Basic
import Mathlib.Data.List.GetD
import Mathlib.Data.Nat.Notation

/-!
# Linear Shift Registers

A register of `w` bits that takes one bit after the other, as the registers of cyclic redundancy
checks do. Its step is linear over exclusive or, it loses no state, and it can be loaded with up to
`w` bits that then empty it.

- `ShiftRegister` holds these laws; `left` takes the most significant bit first, with a polynomial
  whose least significant bit is set, `right` the least significant bit first
- `feed` is a list of bits

**Main result** (`feed_burst_ne`): two lists that differ, but in no more than `w` bits in a row, leave
different states.
-/

/-- A linear shift register of `w` bits. -/
structure ShiftRegister (w : ℕ) where
  step : BitVec w → Bool → BitVec w
  step_xor : ∀ s t a b, step (s ^^^ t) (a ^^ b) = step s a ^^^ step t b
  /-- No state is lost. -/
  eq_zero_of_step : ∀ s, step s false = 0#w → s = 0#w
  /-- The state that some bits empty. -/
  load : List Bool → BitVec w
  load_nil : load [] = 0#w
  step_load : ∀ b l, l.length < w → step (load (b :: l)) b = load l
  eq_false_of_load : ∀ l, l.length ≤ w → load l = 0#w → ∀ b ∈ l, b = false

namespace ShiftRegister

variable {w : ℕ} (r : ShiftRegister w) {s t : BitVec w} {l m : List Bool}

/-- Take the bits of a list. -/
def feed (s : BitVec w) (l : List Bool) : BitVec w := l.foldl r.step s

@[simp] theorem feed_nil (s : BitVec w) : r.feed s [] = s := rfl

@[simp] theorem feed_cons (s : BitVec w) (b : Bool) (l : List Bool) :
    r.feed s (b :: l) = r.feed (r.step s b) l := rfl

theorem feed_append (s : BitVec w) (l m : List Bool) :
    r.feed s (l ++ m) = r.feed (r.feed s l) m := List.foldl_append

/-! ## §1 Linearity -/

/-- **Feeding is linear.** -/
theorem feed_xor (s t : BitVec w) (h : l.length = m.length) :
    r.feed (s ^^^ t) (List.zipWith xor l m) = r.feed s l ^^^ r.feed t m := by
  induction l generalizing m s t with
  | nil =>
    obtain rfl := List.length_eq_zero_iff.mp h.symm
    rfl
  | cons a l ih =>
    cases m with
    | nil => exact absurd h (by simp)
    | cons b m =>
      rw [List.zipWith_cons_cons, feed_cons, r.step_xor, feed_cons, feed_cons]
      apply ih
      simpa using h

theorem zipWith_xor_self (l : List Bool) :
    List.zipWith xor l l = List.replicate l.length false := by
  induction l with
  | nil => rfl
  | cons b l ih => rw [List.zipWith_cons_cons, ih, Bool.xor_self, List.length_cons, List.replicate_succ]

/-- The states after the same bits differ as the states before them do. -/
theorem feed_xor_feed (s t : BitVec w) (l : List Bool) :
    r.feed s l ^^^ r.feed t l = r.feed (s ^^^ t) (List.replicate l.length false) := by
  rw [← r.feed_xor s t rfl, zipWith_xor_self]

/-- **Zeros lose no state.** -/
theorem eq_zero_of_feed_zeros {n : ℕ} (h : r.feed s (List.replicate n false) = 0#w) : s = 0#w := by
  induction n generalizing s with
  | zero => exact h
  | succ n ih => exact r.eq_zero_of_step s (ih h)

theorem feed_injective (h : r.feed s l = r.feed t l) : s = t := by
  have hzero : r.feed (s ^^^ t) (List.replicate l.length false) = 0#w := by
    rw [← r.feed_xor_feed, h, BitVec.xor_self]
  exact BitVec.xor_eq_zero_iff.mp (r.eq_zero_of_feed_zeros hzero)

/-! ## §2 Bursts -/

/-- **The bits that a register is loaded with** empty it. -/
theorem feed_load (hl : l.length ≤ w) : r.feed (r.load l) l = 0#w := by
  induction l with
  | nil => exact r.load_nil
  | cons b l ih =>
    rw [List.length_cons] at hl
    rw [feed_cons, r.step_load b l hl]
    exact ih (Nat.le_of_succ_le hl)

/-- Bits fed into an empty register are zeros fed into one that is loaded with them. -/
theorem feed_zero (hl : l.length ≤ w) :
    r.feed 0#w l = r.feed (r.load l) (List.replicate l.length false) := by
  have hload := r.feed_xor_feed 0#w (r.load l) l
  rw [r.feed_load hl, BitVec.xor_zero, BitVec.zero_xor] at hload
  exact hload

/-- **A short list that is not zero** leaves an empty register not empty. -/
theorem eq_false_of_feed_zero (hl : l.length ≤ w) (h : r.feed 0#w l = 0#w) : ∀ b ∈ l, b = false := by
  rw [r.feed_zero hl] at h
  exact r.eq_false_of_load l hl (r.eq_zero_of_feed_zeros h)

theorem eq_of_zipWith_xor (h : l.length = m.length)
    (hzero : ∀ b ∈ List.zipWith xor l m, b = false) : l = m := by
  induction l generalizing m with
  | nil => exact (List.length_eq_zero_iff.mp h.symm).symm
  | cons a l ih =>
    cases m with
    | nil => exact absurd h (by simp)
    | cons b m =>
      rw [List.zipWith_cons_cons] at hzero
      obtain ⟨hab, hrest⟩ := List.forall_mem_cons.mp hzero
      rw [ih (by simpa using h) hrest, bne_eq_false_iff_eq.mp hab]

/-- **Every burst is seen**: lists that differ in no more than `w` bits in a row leave different
    states. -/
theorem feed_burst_ne {front back : List Bool} (s : BitVec w) (hlength : l.length = m.length)
    (hl : l.length ≤ w) (hne : l ≠ m) :
    r.feed s (front ++ l ++ back) ≠ r.feed s (front ++ m ++ back) := by
  intro heq
  rw [feed_append, feed_append, feed_append, feed_append] at heq
  have hmiddle := r.feed_injective heq
  have hzero : r.feed 0#w (List.zipWith xor l m) = 0#w := by
    have hxor := r.feed_xor (r.feed s front) (r.feed s front) hlength
    rwa [BitVec.xor_self, hmiddle, BitVec.xor_self] at hxor
  apply hne
  apply eq_of_zipWith_xor hlength
  apply r.eq_false_of_feed_zero _ hzero
  rw [List.length_zipWith, ← hlength, Nat.min_self]
  exact hl

end ShiftRegister

namespace ShiftRegister

variable {w : ℕ} {poly : BitVec w}

/-! ## §3 The least significant bit first -/

/-- The polynomial, if the bit is set. -/
def masked (poly : BitVec w) (b : Bool) : BitVec w := if b then poly else 0#w

theorem masked_xor (a b : Bool) : masked poly (a ^^ b) = masked poly a ^^^ masked poly b := by
  cases a <;> cases b <;> simp [masked]

/-- Shift to the right. -/
def stepRight (poly s : BitVec w) (b : Bool) : BitVec w :=
  (s >>> 1) ^^^ masked poly (s.getLsbD 0 ^^ b)

/-- Shift to the left. -/
def stepLeft (poly s : BitVec w) (b : Bool) : BitVec w :=
  (s <<< 1) ^^^ masked poly (s.getLsbD (w - 1) ^^ b)

/-- The bits of a list, the first one in the least significant place. -/
def loadRight (w : ℕ) (l : List Bool) : BitVec w := (BitVec.ofBoolListLE l).setWidth w

/-- The bits of a list, the first one in the most significant place. -/
def loadLeft (w : ℕ) (l : List Bool) : BitVec w := (loadRight w l).reverse

theorem xor_xor_xor_comm (a b c d : BitVec w) : (a ^^^ b) ^^^ (c ^^^ d) = (a ^^^ c) ^^^ (b ^^^ d) := by
  rw [BitVec.xor_assoc, BitVec.xor_assoc, ← BitVec.xor_assoc b, BitVec.xor_comm b c,
    BitVec.xor_assoc]

theorem bxor_bxor_bxor_comm (a b c d : Bool) : ((a ^^ b) ^^ (c ^^ d)) = ((a ^^ c) ^^ (b ^^ d)) := by
  cases a <;> cases b <;> cases c <;> cases d <;> rfl

theorem stepRight_xor (s t : BitVec w) (a b : Bool) :
    stepRight poly (s ^^^ t) (a ^^ b) = stepRight poly s a ^^^ stepRight poly t b := by
  unfold stepRight
  rw [BitVec.getLsbD_xor, bxor_bxor_bxor_comm, masked_xor, BitVec.ushiftRight_xor_distrib,
    xor_xor_xor_comm]

theorem stepLeft_xor (s t : BitVec w) (a b : Bool) :
    stepLeft poly (s ^^^ t) (a ^^ b) = stepLeft poly s a ^^^ stepLeft poly t b := by
  unfold stepLeft
  rw [BitVec.getLsbD_xor, bxor_bxor_bxor_comm, masked_xor, BitVec.shiftLeft_xor_distrib,
    xor_xor_xor_comm]

@[simp] theorem getLsbD_masked (b : Bool) (i : ℕ) :
    (masked poly b).getLsbD i = (b && poly.getLsbD i) := by
  cases b <;> simp [masked]

theorem getLsbD_loadRight {l : List Bool} {i : ℕ} (hi : i < w) :
    (loadRight w l).getLsbD i = l.getD i false := by
  simp [loadRight, hi]

theorem getLsbD_loadLeft {l : List Bool} {i : ℕ} (hi : i < w) :
    (loadLeft w l).getLsbD i = l.getD (w - 1 - i) false := by
  have hlt : w - 1 - i < w := by omega
  rw [loadLeft, BitVec.getLsbD_reverse, BitVec.getMsbD_eq_getLsbD, getLsbD_loadRight hlt]
  simp [hi]

theorem loadRight_nil : loadRight w [] = 0#w := by
  apply BitVec.eq_of_getLsbD_eq
  intro i hi
  rw [getLsbD_loadRight hi]
  simp

theorem loadLeft_nil : loadLeft w [] = 0#w := by
  apply BitVec.eq_of_getLsbD_eq
  intro i hi
  rw [getLsbD_loadLeft hi]
  simp

theorem getD_eq_false {l : List Bool} {i : ℕ} (h : l.length ≤ i) : l.getD i false = false :=
  List.getD_eq_default l false h

theorem stepRight_load (b : Bool) {l : List Bool} (hl : l.length < w) :
    stepRight poly (loadRight w (b :: l)) b = loadRight w l := by
  have hzero : (loadRight w (b :: l)).getLsbD 0 = b := getLsbD_loadRight (by omega)
  unfold stepRight
  rw [hzero, Bool.xor_self]
  apply BitVec.eq_of_getLsbD_eq
  intro i hi
  rw [BitVec.getLsbD_xor, getLsbD_masked, Bool.false_and, Bool.xor_false, BitVec.getLsbD_ushiftRight,
    getLsbD_loadRight hi]
  by_cases hnext : 1 + i < w
  · rw [getLsbD_loadRight hnext, Nat.add_comm, List.getD_cons_succ]
  · rw [BitVec.getLsbD_of_ge _ _ (by omega), getD_eq_false (by omega)]

theorem stepLeft_load (b : Bool) {l : List Bool} (hl : l.length < w) :
    stepLeft poly (loadLeft w (b :: l)) b = loadLeft w l := by
  have hzero : (loadLeft w (b :: l)).getLsbD (w - 1) = b := by
    rw [getLsbD_loadLeft (by omega), Nat.sub_self, List.getD_cons_zero]
  unfold stepLeft
  rw [hzero, Bool.xor_self]
  apply BitVec.eq_of_getLsbD_eq
  intro i hi
  rw [BitVec.getLsbD_xor, getLsbD_masked, Bool.false_and, Bool.xor_false, BitVec.getLsbD_shiftLeft,
    getLsbD_loadLeft hi]
  cases i with
  | zero =>
    rw [getD_eq_false (by omega)]
    simp
  | succ i =>
    have hplace : w - 1 - i = (w - 1 - (i + 1)) + 1 := by omega
    rw [Nat.add_sub_cancel, getLsbD_loadLeft (by omega), hplace, List.getD_cons_succ]
    simp [hi]

/-- A register that shifts to the right loses no state if the most significant bit of its polynomial
    is set. -/
theorem eq_zero_of_stepRight (hpoly : poly.getLsbD (w - 1) = true) {s : BitVec w}
    (h : stepRight poly s false = 0#w) : s = 0#w := by
  have hw : w - 1 < w := BitVec.lt_of_getLsbD hpoly
  have hbit : ∀ i, (stepRight poly s false).getLsbD i = false := by
    rw [h]
    simp
  unfold stepRight at hbit
  have hlow : s.getLsbD 0 = false := by
    have htop := hbit (w - 1)
    rw [BitVec.getLsbD_xor, getLsbD_masked, BitVec.getLsbD_ushiftRight,
      BitVec.getLsbD_of_ge _ _ (by omega), hpoly] at htop
    simpa using htop
  apply BitVec.eq_of_getLsbD_eq
  intro i hi
  cases i with
  | zero => simpa using hlow
  | succ i =>
    have hshift := hbit i
    rw [hlow, BitVec.getLsbD_xor, getLsbD_masked, BitVec.getLsbD_ushiftRight, Nat.add_comm] at hshift
    simpa using hshift

/-- A register that shifts to the left loses no state if the least significant bit of its polynomial
    is set. -/
theorem eq_zero_of_stepLeft (hpoly : poly.getLsbD 0 = true) {s : BitVec w}
    (h : stepLeft poly s false = 0#w) : s = 0#w := by
  have hbit : ∀ i, (stepLeft poly s false).getLsbD i = false := by
    rw [h]
    simp
  unfold stepLeft at hbit
  have htop : s.getLsbD (w - 1) = false := by
    have hlow := hbit 0
    rw [BitVec.getLsbD_xor, getLsbD_masked, BitVec.getLsbD_shiftLeft, hpoly] at hlow
    simpa using hlow
  apply BitVec.eq_of_getLsbD_eq
  intro i hi
  by_cases hlast : i = w - 1
  · rw [hlast, htop]
    simp
  · have hshift := hbit (i + 1)
    rw [htop, BitVec.getLsbD_xor, getLsbD_masked, BitVec.getLsbD_shiftLeft] at hshift
    have hin : i + 1 < w := by omega
    simpa [hin] using hshift

/-- **A register that shifts to the right.** -/
def right (poly : BitVec w) (hpoly : poly.getLsbD (w - 1) = true) : ShiftRegister w where
  step := stepRight poly
  step_xor := stepRight_xor
  eq_zero_of_step _ := eq_zero_of_stepRight hpoly
  load := loadRight w
  load_nil := loadRight_nil
  step_load b _ := stepRight_load b
  eq_false_of_load l hl h b hb := by
    obtain ⟨i, hi, rfl⟩ := List.getElem_of_mem hb
    have hbit := getLsbD_loadRight (w := w) (l := l) (i := i) (by omega)
    rw [h, List.getD_eq_getElem _ _ hi] at hbit
    simpa using hbit.symm

/-- **A register that shifts to the left.** -/
def left (poly : BitVec w) (hpoly : poly.getLsbD 0 = true) : ShiftRegister w where
  step := stepLeft poly
  step_xor := stepLeft_xor
  eq_zero_of_step _ := eq_zero_of_stepLeft hpoly
  load := loadLeft w
  load_nil := loadLeft_nil
  step_load b _ := stepLeft_load b
  eq_false_of_load l hl h b hb := by
    obtain ⟨i, hi, rfl⟩ := List.getElem_of_mem hb
    have hplace : w - 1 - (w - 1 - i) = i := by omega
    have hbit := getLsbD_loadLeft (w := w) (l := l) (i := w - 1 - i) (by omega)
    rw [h, hplace, List.getD_eq_getElem _ _ hi] at hbit
    simpa using hbit.symm

end ShiftRegister
