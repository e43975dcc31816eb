import NordicEsb.Dfu.Continue
import NordicEsb.Fds.RecordCrc
import NordicEsb.Lib.ShiftRegister

/-!
# The CRCs as Shift Registers

`crc16_compute` works on whole bytes with a few shifts, `crc32_compute` shifts a byte that it has
combined with the register. Both are registers that take the message bit by bit, the first with the
most significant bit of every byte first, the second with the least significant one.

- `crc16Byte_eq`, `crc32Byte_eq`: one byte
- `crc16Compute_eq`, `crc16ComputeFrom_eq`, `crc32Compute_eq`: a message

**Main results**: `crc16_burst_ne` and `crc32_burst_ne`, that bytes which differ in no more than 16 or
32 bits in a row have different CRCs.
-/

namespace NordicEsb

open ShiftRegister

/-! ## §1 Bits -/

/-- The bits of a byte, the most significant one first. -/
def msbBitsOfByte (b : BitVec 8) : List Bool := (List.range 8).map fun i => b.getLsbD (7 - i)

/-- The bits of a byte, the least significant one first. -/
def lsbBitsOfByte (b : BitVec 8) : List Bool := (List.range 8).map fun i => b.getLsbD i

/-- The bits of some bytes, in the order of the CRC of 16 bits. -/
def msbBits (bytes : List (BitVec 8)) : List Bool := bytes.flatMap msbBitsOfByte

/-- The bits of some bytes, in the order of the CRC of 32 bits. -/
def lsbBits (bytes : List (BitVec 8)) : List Bool := bytes.flatMap lsbBitsOfByte

/-- **A burst**: the lists differ, but in no more than `n` bits in a row. -/
def Burst (n : ℕ) (l m : List Bool) : Prop := ∃ front x y back,
  l = front ++ x ++ back ∧ m = front ++ y ++ back ∧ x.length = y.length ∧ x.length ≤ n ∧ x ≠ y

@[simp] theorem length_msbBitsOfByte (b : BitVec 8) : (msbBitsOfByte b).length = 8 := by
  simp [msbBitsOfByte]

@[simp] theorem length_lsbBitsOfByte (b : BitVec 8) : (lsbBitsOfByte b).length = 8 := by
  simp [lsbBitsOfByte]

/-- What a register is loaded with for a byte. -/
theorem loadLeft_msbBits (b : BitVec 8) : loadLeft 16 (msbBitsOfByte b) = b.setWidth 16 <<< 8 := by
  apply BitVec.eq_of_getLsbD_eq
  intro i hi
  rw [getLsbD_loadLeft hi, BitVec.getLsbD_shiftLeft, BitVec.getLsbD_setWidth]
  by_cases hlow : i < 8
  · rw [getD_eq_false (by rw [length_msbBitsOfByte]; omega)]
    simp [hlow]
  · have hplace : 16 - 1 - i < (msbBitsOfByte b).length := by
      rw [length_msbBitsOfByte]
      omega
    have hindex : 7 - (16 - 1 - i) = i - 8 := by omega
    rw [List.getD_eq_getElem _ _ hplace]
    simp [msbBitsOfByte, hindex, hi, hlow]
    omega

theorem loadRight_lsbBits (b : BitVec 8) : loadRight 32 (lsbBitsOfByte b) = b.setWidth 32 := by
  apply BitVec.eq_of_getLsbD_eq
  intro i hi
  rw [getLsbD_loadRight hi, BitVec.getLsbD_setWidth]
  by_cases hlow : i < 8
  · rw [List.getD_eq_getElem _ _ (by rw [length_lsbBitsOfByte]; exact hlow)]
    simp [lsbBitsOfByte, hi]
  · rw [getD_eq_false (by rw [length_lsbBitsOfByte]; omega), BitVec.getLsbD_of_ge _ _ (by omega)]
    simp

/-- **A byte that is combined with the register** is shifted with it. -/
theorem feed_eq_feed_zeros {w : ℕ} (r : ShiftRegister w) (s : BitVec w) {l : List Bool}
    (hl : l.length ≤ w) :
    r.feed s l = r.feed (s ^^^ r.load l) (List.replicate l.length false) := by
  have hxor := r.feed_xor_feed s (r.load l) l
  rw [r.feed_load hl, BitVec.xor_zero] at hxor
  exact hxor

/-! ## §2 The CRC of 16 bits -/

/-- The register of `crc16_compute`. -/
def crc16Register : ShiftRegister 16 := ShiftRegister.left 0x1021#16 (by decide)

/-- `(uint8_t)(crc >> 8) | (crc << 8)` -/
theorem swap_xor (s t : BitVec 16) : ((s ^^^ t) >>> 8) ||| ((s ^^^ t) <<< 8) =
    ((s >>> 8) ||| (s <<< 8)) ^^^ ((t >>> 8) ||| (t <<< 8)) := by
  apply BitVec.eq_of_getLsbD_eq
  intro i hi
  simp only [BitVec.getLsbD_or, BitVec.getLsbD_xor, BitVec.getLsbD_ushiftRight,
    BitVec.getLsbD_shiftLeft]
  by_cases hlow : i < 8
  · simp [hlow]
  · rw [BitVec.getLsbD_of_ge s _ (by omega), BitVec.getLsbD_of_ge t _ (by omega)]
    simp [hlow, hi]

/-- A register combined with some of its own bits. -/
theorem xor_self_xor {f : BitVec 16 → BitVec 16} (hf : ∀ s t, f (s ^^^ t) = f s ^^^ f t)
    (s t : BitVec 16) : (s ^^^ t) ^^^ f (s ^^^ t) = (s ^^^ f s) ^^^ (t ^^^ f t) := by
  rw [hf, xor_xor_xor_comm]

theorem and_xor_and (s t m : BitVec 16) : (s ^^^ t) &&& m = (s &&& m) ^^^ (t &&& m) := by
  apply BitVec.eq_of_getLsbD_eq
  intro i _
  simp only [BitVec.getLsbD_and, BitVec.getLsbD_xor]
  cases s.getLsbD i <;> cases t.getLsbD i <;> simp

/-- **The body of the loop is linear.** -/
theorem crc16Byte_xor (s t : BitVec 16) (a b : HciByte) :
    crc16Byte (s ^^^ t) (a ^^^ b) = crc16Byte s a ^^^ crc16Byte t b := by
  unfold crc16Byte
  dsimp only
  rw [swap_xor, BitVec.setWidth_xor, xor_xor_xor_comm]
  generalize (s >>> 8 ||| s <<< 8) ^^^ a.setWidth 16 = s
  generalize (t >>> 8 ||| t <<< 8) ^^^ b.setWidth 16 = t
  rw [xor_self_xor (f := fun s => (s &&& 0xFF) >>> 4) fun s t => by
    rw [and_xor_and, BitVec.ushiftRight_xor_distrib]]
  generalize s ^^^ (s &&& 0xFF) >>> 4 = s
  generalize t ^^^ (t &&& 0xFF) >>> 4 = t
  rw [xor_self_xor (f := fun s => (s <<< 8) <<< 4) fun s t => by
    rw [BitVec.shiftLeft_xor_distrib, BitVec.shiftLeft_xor_distrib]]
  generalize s ^^^ (s <<< 8) <<< 4 = s
  generalize t ^^^ (t <<< 8) <<< 4 = t
  exact xor_self_xor (f := fun s => ((s &&& 0xFF) <<< 4) <<< 1) (fun s t => by
    rw [and_xor_and, BitVec.shiftLeft_xor_distrib, BitVec.shiftLeft_xor_distrib]) s t

/-- A state is its two bytes. -/
theorem eq_xor_bytes (s : BitVec 16) : s =
    (s.extractLsb' 0 8).setWidth 16 ^^^ ((s.extractLsb' 8 8).setWidth 16 <<< 8) := by
  apply BitVec.eq_of_getLsbD_eq
  intro i hi
  simp only [BitVec.getLsbD_xor, BitVec.getLsbD_setWidth, BitVec.getLsbD_extractLsb',
    BitVec.getLsbD_shiftLeft]
  by_cases hlow : i < 8
  · simp [hlow, hi]
  · have hplace : 8 + (i - 8) = i := by omega
    simp [hlow, hi, hplace, show i - 8 < 8 by omega, show i - 8 < 16 by omega]

/-- The two agree on a byte in either place. -/
theorem crc16Byte_low : ∀ x : BitVec 8, crc16Byte (x.setWidth 16) 0#8 =
    crc16Register.feed (x.setWidth 16) (List.replicate 8 false) := by
  decide +kernel

theorem crc16Byte_high : ∀ x : BitVec 8, crc16Byte (x.setWidth 16 <<< 8) 0#8 =
    crc16Register.feed (x.setWidth 16 <<< 8) (List.replicate 8 false) := by
  decide +kernel

/-- The byte can be combined with the register before the shifts. -/
theorem crc16Byte_zero (s : BitVec 16) (b : HciByte) :
    crc16Byte s b = crc16Byte (s ^^^ (b.setWidth 16 <<< 8)) 0#8 := by
  have hbyte : crc16Byte 0#16 b = crc16Byte (b.setWidth 16 <<< 8) 0#8 := by
    have hswap : (b.setWidth 16 <<< 8) >>> 8 ||| (b.setWidth 16 <<< 8) <<< 8 = b.setWidth 16 := by
      apply BitVec.eq_of_getLsbD_eq
      intro i hi
      simp only [BitVec.getLsbD_or, BitVec.getLsbD_ushiftRight, BitVec.getLsbD_shiftLeft,
        BitVec.getLsbD_setWidth]
      by_cases hlow : i < 8
      · simp [hlow, hi, show 8 + i < 16 by omega]
      · simp [hlow, hi, BitVec.getLsbD_of_ge b i (by omega), show ¬ 8 + i < 16 by omega]
        omega
    unfold crc16Byte
    dsimp only
    rw [hswap]
    simp
  have hsplit := crc16Byte_xor s 0#16 0#8 b
  rw [BitVec.xor_zero, BitVec.zero_xor] at hsplit
  rw [hsplit, hbyte, ← crc16Byte_xor, BitVec.xor_self]

/-- **One byte of `crc16_compute`** is its eight bits. -/
theorem crc16Byte_eq (s : BitVec 16) (b : HciByte) :
    crc16Byte s b = crc16Register.feed s (msbBitsOfByte b) := by
  have hlinear : ∀ s, crc16Byte s 0#8 = crc16Register.feed s (List.replicate 8 false) := by
    intro s
    have hfeed := crc16Register.feed_xor (l := List.replicate 8 false) (m := List.replicate 8 false)
      ((s.extractLsb' 0 8).setWidth 16) ((s.extractLsb' 8 8).setWidth 16 <<< 8) rfl
    have hcrc := crc16Byte_xor ((s.extractLsb' 0 8).setWidth 16)
      ((s.extractLsb' 8 8).setWidth 16 <<< 8) 0#8 0#8
    rw [BitVec.xor_self] at hcrc
    rw [zipWith_xor_self] at hfeed
    rw [eq_xor_bytes s, hcrc, crc16Byte_low, crc16Byte_high]
    exact hfeed.symm
  have hload : crc16Register.load (msbBitsOfByte b) = b.setWidth 16 <<< 8 := loadLeft_msbBits b
  rw [crc16Byte_zero, hlinear, feed_eq_feed_zeros _ s (by rw [length_msbBitsOfByte]; decide), hload,
    length_msbBitsOfByte]

theorem foldl_crc16Byte (s : BitVec 16) (data : List HciByte) :
    data.foldl crc16Byte s = crc16Register.feed s (msbBits data) := by
  induction data generalizing s with
  | nil => rfl
  | cons b data ih =>
    rw [List.foldl_cons, ih, crc16Byte_eq, ← ShiftRegister.feed_append]
    rfl

/-- **A burst of 16 bits** changes the CRC, whatever it starts from. -/
theorem crc16_burst_ne {data data' : List HciByte} (s : BitVec 16)
    (h : Burst 16 (msbBits data) (msbBits data')) :
    data.foldl crc16Byte s ≠ data'.foldl crc16Byte s := by
  obtain ⟨front, x, y, back, hdata, hdata', hlength, hle, hne⟩ := h
  rw [foldl_crc16Byte, foldl_crc16Byte, hdata, hdata']
  exact crc16Register.feed_burst_ne s hlength hle hne

/-! ## §3 The CRC of 32 bits -/

/-- The register of `crc32_compute`. -/
def crc32Register : ShiftRegister 32 := ShiftRegister.right 0xEDB88320#32 (by decide)

theorem crc32Bit_eq (crc : BitVec 32) : Dfu.crc32Bit crc = crc32Register.step crc false := by
  have hlow : crc &&& 1#32 = (BitVec.ofBool (crc.getLsbD 0)).setWidth 32 :=
    BitVec.and_one_eq_setWidth_ofBool_getLsbD
  show (crc >>> 1) ^^^ _ = (crc >>> 1) ^^^ masked 0xEDB88320#32 (crc.getLsbD 0 ^^ false)
  rw [hlow, Bool.xor_false]
  cases crc.getLsbD 0 <;> rfl

/-- **One byte of `crc32_compute`** is its eight bits. -/
theorem crc32Byte_eq (crc : BitVec 32) (b : BitVec 8) :
    Dfu.crc32Byte crc b = crc32Register.feed crc (lsbBitsOfByte b) := by
  have hload : crc32Register.load (lsbBitsOfByte b) = b.setWidth 32 := loadRight_lsbBits b
  have hzeros : ∀ n s, (List.range n).foldl (fun crc _ => Dfu.crc32Bit crc) s =
      crc32Register.feed s (List.replicate n false) := by
    intro n
    induction n with
    | zero => exact fun _ => rfl
    | succ n ih =>
      intro s
      rw [List.range_succ, List.foldl_append, ih, List.replicate_succ', ShiftRegister.feed_append]
      exact crc32Bit_eq _
  rw [Dfu.crc32Byte, hzeros, feed_eq_feed_zeros _ crc (by rw [length_lsbBitsOfByte]; decide), hload,
    length_lsbBitsOfByte]

theorem foldl_crc32Byte (crc : BitVec 32) (data : List (BitVec 8)) :
    data.foldl Dfu.crc32Byte crc = crc32Register.feed crc (lsbBits data) := by
  induction data generalizing crc with
  | nil => rfl
  | cons b data ih =>
    rw [List.foldl_cons, ih, crc32Byte_eq, ← ShiftRegister.feed_append]
    rfl

/-- The bytes of an image in flash. -/
def imageBytes (f : Flash 32) (pData size : ℕ) : List (BitVec 8) :=
  (List.range size).map fun i => Dfu.byteAt f (pData + i)

theorem crc32Compute_eq (f : Flash 32) (pData size : ℕ) :
    Dfu.crc32Compute f pData size =
      ~~~(crc32Register.feed 0xFFFFFFFF#32 (lsbBits (imageBytes f pData size))) := by
  rw [← foldl_crc32Byte, imageBytes, List.foldl_map]
  rfl

/-- **A burst of 32 bits** changes the CRC of an image. -/
theorem crc32_burst_ne {f f' : Flash 32} {pData pData' size : ℕ}
    (h : Burst 32 (lsbBits (imageBytes f pData size)) (lsbBits (imageBytes f' pData' size))) :
    Dfu.crc32Compute f pData size ≠ Dfu.crc32Compute f' pData' size := by
  obtain ⟨front, x, y, back, hdata, hdata', hlength, hle, hne⟩ := h
  rw [crc32Compute_eq, crc32Compute_eq, hdata, hdata']
  intro heq
  exact crc32Register.feed_burst_ne _ hlength hle hne (BitVec.not_inj.mp heq)

end NordicEsb
