import NordicEsb.App.Isolation
import NordicEsb.App.Box
import NordicEsb.Esb.Address

/-!
# The Pipe of a Device

A device in normal mode has the base address of its box on pipe 1, and its index as the prefix. The
box has the prefixes 1 to 6 on the pipes 1 to 6.

- `pipeAddress_enterNormalMode` is the address of the device
- `configured_setAddresses` are the addresses of the box

**Main result** (`addressEncoding`): what the module does to addresses loses nothing, so the device
has the address of one pipe of its box, which is the pipe with its index.
-/

namespace NordicEsb

variable {b : Box} {d : Device} {k : ℕ}

/-- The address of a device in normal mode. -/
theorem pipeAddress_enterNormalMode (d : Device) :
    d.enterNormalMode.esb.radio.pipeAddress 1 =
      (addrConv d.gDs.sysAddress32, bitSwapByte d.gDs.devIdx) := by
  obtain ⟨hbase, pipePrefixes, hidx, hregister⟩ := Device.addressed_enterNormalMode d
  have hbyte := prefixByte_eq pipePrefixes 0 (k := 1) (by decide)
  rw [Nat.zero_add, hidx, ← hregister] at hbyte
  exact Prod.ext hbase hbyte

/-- `main` of the box updates all registers. -/
theorem setAddresses_esb (hesb : b.esb = Esb.reset) :
    updateRadioAddresses (Box.setAddresses b).esb = (Box.setAddresses b).esb := by
  unfold Box.setAddresses Box.callEsb
  rw [hesb]
  rfl

/-- The addresses of the box: the last prefix is the one that `nrf_esb.c` begins with. -/
theorem configured_setAddresses (hesb : b.esb = Esb.reset) (hk : k < 8) :
    (Box.setAddresses b).esb.esbAddr.configured k =
      (if k = 0 then defaultPairingAddress32 else b.gBaseAddr1,
        [pipe0Prefix, 1, 2, 3, 4, 5, 6, 0xC8].getD k 0) := by
  have hbase : ((Box.setAddresses b).esb.esbAddr.configured k).1 =
      if k = 0 then defaultPairingAddress32 else b.gBaseAddr1 := by
    unfold Box.setAddresses Box.callEsb
    rw [hesb]
    rfl
  have hbytes : (Box.setAddresses b).esb.esbAddr.pipePrefixes =
      nrfEsbAddrDefault.pipePrefixes.copy Box.addrPrefix 7 := by
    unfold Box.setAddresses Box.callEsb
    rw [hesb]
    rfl
  refine Prod.ext hbase ?_
  show (Box.setAddresses b).esb.esbAddr.pipePrefixes.get k = _
  rw [hbytes]
  interval_cases k <;> rfl

/-- **The prefix of a device** is that of one pipe. -/
theorem getD_addrPrefix_eq_iff {devIdx : UInt8} (hidx : 1 ≤ devIdx ∧ devIdx ≤ 6) (hk : k < 8) :
    devIdx = [pipe0Prefix, 1, 2, 3, 4, 5, 6, 0xC8].getD k 0 ↔ k = devIdx.toNat := by
  obtain ⟨hone, hsix⟩ := hidx
  have hlow : 1 ≤ devIdx.toNat := UInt8.le_iff_toNat_le.mp hone
  have hhigh : devIdx.toNat ≤ 6 := UInt8.le_iff_toNat_le.mp hsix
  rw [← UInt8.toNat_inj]
  interval_cases k <;> simp [pipe0Prefix] <;> omega

/-- **The pipe of a device** in its box. -/
theorem pipeAddress_device_eq_iff (hesb : b.esb = Esb.reset)
    (hbase : b.gBaseAddr1 = d.gDs.sysAddress32) (hidx : 1 ≤ d.gDs.devIdx ∧ d.gDs.devIdx ≤ 6)
    (hk : k < 8) :
    d.enterNormalMode.esb.radio.pipeAddress 1 = (Box.setAddresses b).esb.radio.pipeAddress k ↔
      k = d.gDs.devIdx.toNat := by
  have hbox := pipeAddress_updateRadioAddresses (Box.setAddresses b).esb hk
  rw [setAddresses_esb hesb, configured_setAddresses hesb hk] at hbox
  rw [pipeAddress_enterNormalMode, hbox, ← getD_addrPrefix_eq_iff hidx hk]
  constructor
  · intro h
    exact bitSwapByte_injective (Prod.mk.inj h).2
  · intro h
    -- Pipe 0, which has another base address, has another prefix.
    have hpipe : k ≠ 0 := by
      have hk' := (getD_addrPrefix_eq_iff hidx hk).mp h
      have hone : 1 ≤ d.gDs.devIdx.toNat := UInt8.le_iff_toNat_le.mp hidx.1
      omega
    rw [if_neg hpipe, hbase, ← h]

/-- **What happens to addresses**: the two variants of `bytewise_bit_swap` are equal and undo
    themselves, `addr_conv` is injective, two pipes have the same radio address if and only if they
    were given the same bytes, and a device has the address of one pipe of its box, the one with its
    index. -/
theorem addressEncoding :
    (∀ x, bytewiseBitSwap x = bytewiseBitSwapM4 x ∧ bytewiseBitSwap (bytewiseBitSwap x) = x) ∧
    Function.Injective addrConv ∧
    (∀ (s t : Esb) (i j : ℕ), i < 8 → j < 8 →
      ((updateRadioAddresses s).radio.pipeAddress i = (updateRadioAddresses t).radio.pipeAddress j ↔
        s.esbAddr.configured i = t.esbAddr.configured j)) ∧
    ∀ (b : Box) (d : Device), b.esb = Esb.reset → b.gBaseAddr1 = d.gDs.sysAddress32 →
      1 ≤ d.gDs.devIdx ∧ d.gDs.devIdx ≤ 6 → ∀ k < 8,
        (d.enterNormalMode.esb.radio.pipeAddress 1 =
          (Box.setAddresses b).esb.radio.pipeAddress k ↔ k = d.gDs.devIdx.toNat) :=
  ⟨fun x => ⟨bytewiseBitSwap_eq_m4 x, bytewiseBitSwap_bytewiseBitSwap x⟩, addrConv_injective,
    fun s t _ _ hi hj => pipeAddress_eq_iff s t hi hj,
    fun _ _ hesb hbase hidx _ hk => pipeAddress_device_eq_iff hesb hbase hidx hk⟩

/-- The record of a device with the index 3. -/
def thirdDevice : DeviceData := ⟨dsSignature, .replicate _ 5, .replicate _ 7, 3⟩

/-- This device and its box: its address is that of pipe 3. -/
theorem addressEncoding_thirdDevice :
    { Device.reset thirdDevice with gDs := thirdDevice }.enterNormalMode.esb.radio.pipeAddress 1 =
      (Box.setAddresses { Box.reset ⟨dsSignature, .replicate _ 5, 3, 0⟩ with
        gBaseAddr1 := .replicate _ 7 }).esb.radio.pipeAddress 3 :=
  (addressEncoding.2.2.2 _ _ rfl rfl (by decide) 3 (by decide)).mpr rfl

end NordicEsb
