import Mathlib.Data.Nat.Notation
import Mathlib.Logic.Function.Basic

/-!
# Bitmaps

A bitmap keeps one bit for each index, in words of `n` bits: index `i` is bit `i % n` of word
`i / n`. The word operations are the usual ones with shifts and masks.

- `get_set` and `get_clear`: a write changes the bit of its index and no other
-/

/-- A bitmap in words of `n` bits. -/
abbrev Bitmap (n : ℕ) := ℕ → BitVec n

namespace Bitmap

variable {n : ℕ}

/-! ## §1 Words -/

/-- Bit `y` of a word, by a shift. -/
def wordIsSet (w : BitVec n) (y : ℕ) : Bool := (w >>> y) &&& 1#n != 0#n

/-- Set bit `y` of a word. -/
def wordSet (w : BitVec n) (y : ℕ) : BitVec n := w ||| (1#n <<< y)

/-- Clear bit `y` of a word. -/
def wordClear (w : BitVec n) (y : ℕ) : BitVec n := w &&& ~~~(1#n <<< y)

theorem getLsbD_one_shiftLeft {y z : ℕ} (hz : z < n) :
    (1#n <<< y).getLsbD z = decide (z = y) := by
  rw [BitVec.getLsbD_shiftLeft, BitVec.getLsbD_one]
  by_cases hlt : z < y
  · have hne : z ≠ y := by omega
    simp [hlt, hne]
  · have hn : 0 < n := by omega
    have hiff : z - y = 0 ↔ z = y := by omega
    simp [hlt, hz, hn, hiff]

theorem wordIsSet_eq (w : BitVec n) (y : ℕ) : wordIsSet w y = w.getLsbD y := by
  unfold wordIsSet
  cases hbit : w.getLsbD y with
  | false =>
    -- No bit is left behind the mask.
    have hzero : (w >>> y) &&& 1#n = 0#n := by
      apply BitVec.eq_of_getLsbD_eq
      intro i hi
      by_cases hi0 : i = 0
      · subst hi0
        simp [hbit]
      · simp [BitVec.getLsbD_one, hi0]
    rw [hzero]
    exact bne_self_eq_false _
  | true =>
    have hn : 0 < n := by
      rcases Nat.eq_zero_or_pos n with hn | hn
      · subst hn
        simp at hbit
      · exact hn
    have hne : (w >>> y) &&& 1#n ≠ 0#n := by
      intro hzero
      have hbit0 := congrArg (fun v => v.getLsbD 0) hzero
      simp [hbit, hn] at hbit0
    exact bne_iff_ne.mpr hne

theorem wordIsSet_wordSet {y z : ℕ} (w : BitVec n) (hz : z < n) :
    wordIsSet (wordSet w y) z = (wordIsSet w z || decide (z = y)) := by
  rw [wordIsSet_eq, wordIsSet_eq]
  unfold wordSet
  rw [BitVec.getLsbD_or, getLsbD_one_shiftLeft hz]

theorem wordIsSet_wordClear {y z : ℕ} (w : BitVec n) (hz : z < n) :
    wordIsSet (wordClear w y) z = (wordIsSet w z && !decide (z = y)) := by
  rw [wordIsSet_eq, wordIsSet_eq]
  unfold wordClear
  rw [BitVec.getLsbD_and, BitVec.getLsbD_not, getLsbD_one_shiftLeft hz]
  simp [hz]

/-! ## §2 Indices -/

/-- The bit of index `i`. -/
def get (b : Bitmap n) (i : ℕ) : Bool := wordIsSet (b (i / n)) (i % n)

/-- Set the bit of index `i`. -/
def set (b : Bitmap n) (i : ℕ) : Bitmap n :=
  Function.update b (i / n) (wordSet (b (i / n)) (i % n))

/-- Clear the bit of index `i`. -/
def clear (b : Bitmap n) (i : ℕ) : Bitmap n :=
  Function.update b (i / n) (wordClear (b (i / n)) (i % n))

/-- Two indices in one word differ in their bits. -/
theorem mod_eq_iff {i j : ℕ} (h : j / n = i / n) : j % n = i % n ↔ j = i := by
  constructor
  · intro hmod
    rw [← Nat.div_add_mod j n, ← Nat.div_add_mod i n, h, hmod]
  · rintro rfl
    rfl

/-- **A bit that is set**, and all the others. -/
@[simp] theorem get_set (hn : 0 < n) (b : Bitmap n) (i j : ℕ) :
    (b.set i).get j = (b.get j || decide (j = i)) := by
  unfold get set
  by_cases hword : j / n = i / n
  · rw [hword, Function.update_self, wordIsSet_wordSet _ (Nat.mod_lt j hn)]
    simp only [mod_eq_iff hword]
  · have hne : j ≠ i := by
      rintro rfl
      exact hword rfl
    rw [Function.update_of_ne hword]
    simp [hne]

/-- **A bit that is cleared**, and all the others. -/
@[simp] theorem get_clear (hn : 0 < n) (b : Bitmap n) (i j : ℕ) :
    (b.clear i).get j = (b.get j && !decide (j = i)) := by
  unfold get clear
  by_cases hword : j / n = i / n
  · rw [hword, Function.update_self, wordIsSet_wordClear _ (Nat.mod_lt j hn)]
    simp only [mod_eq_iff hword]
  · have hne : j ≠ i := by
      rintro rfl
      exact hword rfl
    rw [Function.update_of_ne hword]
    simp [hne]

end Bitmap
