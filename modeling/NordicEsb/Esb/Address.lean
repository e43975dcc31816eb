import NordicEsb.Esb.Radio
import Mathlib.Tactic.IntervalCases

/-!
# Radio Addresses

The base addresses and the prefixes of the pipes are bytes as the nRF24L has them. The radio of the
nRF51 sends every byte with its bits the other way round, so `update_radio_addresses` turns the bits
of each byte around before it fills the registers.

- `getLsbD_bytewiseBitSwap`, `getLsbD_rev` and `getLsbD_loadWord` say where each bit goes; all
  other results follow from them
- `pipeAddress` is what the radio has for a pipe: its base address and its prefix
- `configuredAddress` is what the module was given for it

**Main result** (`pipeAddress_eq_iff`): two pipes have the same radio address if and only if they
were given the same bytes.
-/

namespace NordicEsb

/-! ## §1 Bits -/

/-- `__RBIT`: reverse the bits of a word. -/
def rbit (x : UInt32) : UInt32 := ⟨x.toBitVec.reverse⟩

/-- `bytewise_bit_swap`, the variant compiled for the Cortex-M4 of the nRF52. -/
def bytewiseBitSwapM4 (inp : UInt32) : UInt32 := rev (rbit inp)

section Bits

variable {n i j : ℕ}

/-- Words with the same bits are equal. -/
theorem eq_of_bits {x y : UInt32}
    (h : ∀ i < 32, x.toBitVec.getLsbD i = y.toBitVec.getLsbD i) : x = y := by
  apply UInt32.toBitVec_inj.mp
  apply BitVec.eq_of_getLsbD_eq
  exact h

/-- Bytes with the same bits are equal. -/
theorem byte_eq_of_bits {x y : UInt8}
    (h : ∀ i < 8, x.toBitVec.getLsbD i = y.toBitVec.getLsbD i) : x = y := by
  apply UInt8.toBitVec_inj.mp
  apply BitVec.eq_of_getLsbD_eq
  exact h

/-- **The bits of each byte are turned around.** -/
theorem getLsbD_bytewiseBitSwap (x : UInt32) (hi : i < 32) :
    (bytewiseBitSwap x).toBitVec.getLsbD i = x.toBitVec.getLsbD (8 * (i / 8) + (7 - i % 8)) := by
  unfold bytewiseBitSwap
  interval_cases i <;> simp

/-- **The bytes of the word are turned around.** -/
theorem getLsbD_rev (x : UInt32) (hi : i < 32) :
    (rev x).toBitVec.getLsbD i = x.toBitVec.getLsbD (8 * (3 - i / 8) + i % 8) := by
  unfold rev
  interval_cases i <;> simp

theorem getLsbD_rbit (x : UInt32) (hi : i < 32) :
    (rbit x).toBitVec.getLsbD i = x.toBitVec.getLsbD (31 - i) := by
  show x.toBitVec.reverse.getLsbD i = _
  rw [BitVec.getLsbD_reverse, BitVec.getMsbD_eq_getLsbD]
  simp [hi]

/-- The bits of a word in memory are those of its bytes. -/
theorem getLsbD_loadWord (a : FixedArray n UInt8) (i : ℕ) (hj : j < 32) :
    (loadWord a i).toBitVec.getLsbD j = (a.get (i + j / 8)).toBitVec.getLsbD (j % 8) := by
  unfold loadWord
  interval_cases j <;> simp

/-- **The two variants are equal.** -/
theorem bytewiseBitSwap_eq_m4 (x : UInt32) : bytewiseBitSwap x = bytewiseBitSwapM4 x := by
  apply eq_of_bits
  intro i hi
  unfold bytewiseBitSwapM4
  rw [getLsbD_bytewiseBitSwap x hi, getLsbD_rev _ hi, getLsbD_rbit x (by omega)]
  congr 1
  omega

/-- **Twice turned around** is the word itself. -/
theorem bytewiseBitSwap_bytewiseBitSwap (x : UInt32) :
    bytewiseBitSwap (bytewiseBitSwap x) = x := by
  apply eq_of_bits
  intro i hi
  rw [getLsbD_bytewiseBitSwap _ hi, getLsbD_bytewiseBitSwap x (by omega)]
  congr 1
  omega

theorem bytewiseBitSwap_injective : Function.Injective bytewiseBitSwap :=
  Function.Involutive.injective bytewiseBitSwap_bytewiseBitSwap

theorem rev_injective : Function.Injective rev := by
  intro x y h
  apply eq_of_bits
  intro i hi
  have hbit : ∀ z : UInt32, z.toBitVec.getLsbD i =
      (rev z).toBitVec.getLsbD (8 * (3 - i / 8) + i % 8) := by
    intro z
    rw [getLsbD_rev z (by omega)]
    congr 1
    omega
  rw [hbit x, hbit y, h]

/-- A word in memory has the bytes that it was loaded from. -/
theorem get_of_loadWord_eq {m n i j k : ℕ} {a : FixedArray m UInt8} {b : FixedArray n UInt8}
    (h : loadWord a i = loadWord b j) (hk : k < 4) : a.get (i + k) = b.get (j + k) := by
  apply byte_eq_of_bits
  intro l hl
  have hbyte : (8 * k + l) / 8 = k := by omega
  have hbit : (8 * k + l) % 8 = l := by omega
  have ha := getLsbD_loadWord a i (by omega : 8 * k + l < 32)
  have hb := getLsbD_loadWord b j (by omega : 8 * k + l < 32)
  rw [hbyte, hbit] at ha hb
  rw [← ha, ← hb, h]

/-- **The conversion loses nothing.** -/
theorem addrConv_injective : Function.Injective addrConv := by
  intro a b h
  have hword : loadWord a 0 = loadWord b 0 := bytewiseBitSwap_injective (rev_injective h)
  funext k
  have hget := get_of_loadWord_eq hword k.isLt
  rw [Nat.zero_add] at hget
  unfold FixedArray.get at hget
  rwa [dif_pos k.isLt, dif_pos k.isLt] at hget

end Bits

/-! ## §2 Pipes -/

/-- `update_radio_addresses` with all bits of the mask. -/
def updateRadioAddresses (s : Esb) : Esb :=
  updateRadioPrefixes (updateRadioBase1 (updateRadioBase0 s))

/-- The radio address of a pipe: the base address, `BASE0` for pipe 0 and `BASE1` for the others,
    and its byte of `PREFIX0` or `PREFIX1`. -/
def NrfRadio.pipeAddress (radio : NrfRadio) (pipe : ℕ) : UInt32 × UInt8 :=
  (if pipe = 0 then radio.base0 else radio.base1,
    ((if pipe < 4 then radio.prefix0 else radio.prefix1) >>> (8 * (pipe % 4)).toUInt32).toUInt8)

/-- What the module was given for a pipe: the bytes of its base address and its prefix. -/
def NrfEsbAddress.configured (addr : NrfEsbAddress) (pipe : ℕ) : FixedArray 4 UInt8 × UInt8 :=
  (if pipe = 0 then addr.baseAddrP0 else addr.baseAddrP1, addr.pipePrefixes.get pipe)

/-- The bits of a byte turned around. -/
def bitSwapByte (x : UInt8) : UInt8 := ⟨x.toBitVec.reverse⟩

theorem bitSwapByte_injective : Function.Injective bitSwapByte := by
  intro x y h
  have hrev : x.toBitVec.reverse = y.toBitVec.reverse := congrArg UInt8.toBitVec h
  apply UInt8.toBitVec_inj.mp
  rw [← BitVec.reverse_reverse_eq (x := x.toBitVec), hrev, BitVec.reverse_reverse_eq]

/-- The bits of a byte of a word. -/
theorem getLsbD_shiftRight_toUInt8 (x : UInt32) {k l : ℕ} (hk : k < 4) (hl : l < 8) :
    ((x >>> (8 * k).toUInt32).toUInt8).toBitVec.getLsbD l = x.toBitVec.getLsbD (8 * k + l) := by
  interval_cases k <;> simp [hl]

/-- A byte of a prefix register is the prefix of its pipe with the bits turned around. -/
theorem prefixByte_eq (a : FixedArray 8 UInt8) (i : ℕ) {k : ℕ} (hk : k < 4) :
    (bytewiseBitSwap (loadWord a i) >>> (8 * k).toUInt32).toUInt8 = bitSwapByte (a.get (i + k)) := by
  apply byte_eq_of_bits
  intro l hl
  have hbyte : (8 * ((8 * k + l) / 8) + (7 - (8 * k + l) % 8)) / 8 = k := by omega
  have hbit : (8 * ((8 * k + l) / 8) + (7 - (8 * k + l) % 8)) % 8 = 7 - l := by omega
  rw [getLsbD_shiftRight_toUInt8 _ hk hl, getLsbD_bytewiseBitSwap _ (by omega),
    getLsbD_loadWord a i (by omega), hbyte, hbit]
  show _ = (a.get (i + k)).toBitVec.reverse.getLsbD l
  rw [BitVec.getLsbD_reverse, BitVec.getMsbD_eq_getLsbD]
  simp [hl]

/-- **The radio address of a pipe**, from what the module was given. -/
theorem pipeAddress_updateRadioAddresses (s : Esb) {pipe : ℕ} (hpipe : pipe < 8) :
    (updateRadioAddresses s).radio.pipeAddress pipe =
      (addrConv (s.esbAddr.configured pipe).1, bitSwapByte (s.esbAddr.configured pipe).2) := by
  have hbase : ((updateRadioAddresses s).radio.pipeAddress pipe).1 =
      addrConv (s.esbAddr.configured pipe).1 := by
    unfold NrfRadio.pipeAddress NrfEsbAddress.configured
    dsimp only
    split
    · rfl
    · rfl
  have hprefixByte : ((updateRadioAddresses s).radio.pipeAddress pipe).2 =
      bitSwapByte (s.esbAddr.configured pipe).2 := by
    by_cases hlow : pipe < 4
    · have hbyte := prefixByte_eq s.esbAddr.pipePrefixes 0 hlow
      rw [Nat.zero_add] at hbyte
      unfold NrfRadio.pipeAddress
      rw [if_pos hlow, Nat.mod_eq_of_lt hlow]
      exact hbyte
    · have hbyte := prefixByte_eq s.esbAddr.pipePrefixes 4 (k := pipe - 4) (by omega)
      have hmod : pipe % 4 = pipe - 4 := by omega
      rw [Nat.add_sub_cancel' (by omega)] at hbyte
      unfold NrfRadio.pipeAddress
      rw [if_neg hlow, hmod]
      exact hbyte
  exact Prod.ext hbase hprefixByte

/-- **Two pipes have the same radio address** if and only if they were given the same bytes; they
    may be of two units. -/
theorem pipeAddress_eq_iff (s t : Esb) {i j : ℕ} (hi : i < 8) (hj : j < 8) :
    (updateRadioAddresses s).radio.pipeAddress i = (updateRadioAddresses t).radio.pipeAddress j ↔
      s.esbAddr.configured i = t.esbAddr.configured j := by
  rw [pipeAddress_updateRadioAddresses s hi, pipeAddress_updateRadioAddresses t hj]
  constructor
  · intro h
    obtain ⟨hbase, hbyte⟩ := Prod.mk.inj h
    exact Prod.ext (addrConv_injective hbase) (bitSwapByte_injective hbyte)
  · intro h
    rw [h]

end NordicEsb
