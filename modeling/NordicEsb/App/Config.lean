import NordicEsb.Esb.Api

/-!
# Shared Configuration of Box and Device

The constants of `app_config.h` for the second scheme (`USE_SCHEME_2`), the
pairing record `pair_info_t` with its layout in an ACK payload, and the ESB
configuration that both programs pass to `nrf_esb_init`.
-/

namespace NordicEsb

/-! ## §1 Constants -/

/-- `DS_SIGNATURE` -/
abbrev dsSignature : UInt32 := 0x12345678
/-- `MAXIMUM_CHANNEL_LIST_SIZE` -/
abbrev maximumChannelListSize : ℕ := 3
/-- `INTERVAL_TIMER_INTERVAL_10MS` -/
abbrev intervalTimerInterval10Ms : UInt32 := 40
/-- `PIPE_0_PREFIX` -/
abbrev pipe0Prefix : UInt8 := 0x88

/-- `ID_PAIR_REQ` -/
abbrev idPairReq : UInt8 := 0x1A
/-- `ID_PAIR_INFO_GET` -/
abbrev idPairInfoGet : UInt8 := 0x1B

/-- `DEV_TYPE_DISPLAY` -/
abbrev devTypeDisplay : UInt8 := 1
/-- `DEV_TYPE_CONTROLLER` -/
abbrev devTypeController : UInt8 := 2
/-- `MAXIMUM_DISPLAY_DEV` -/
abbrev maximumDisplayDev : UInt8 := 4
/-- `MAXIMUM_CONTROLLER_DEV` -/
abbrev maximumControllerDev : UInt8 := 2

/-- `BEACON_BYTE1` -/
abbrev beaconByte1 : UInt8 := 0xee
/-- `BEACON_BYTE2` -/
abbrev beaconByte2 : UInt8 := 0xdd
/-- `BEACON_BYTE3_NEW_DATA` -/
abbrev beaconByte3NewData : UInt8 := 0x01
/-- `BEACON_BYTE3_RESEND` -/
abbrev beaconByte3Resend : UInt8 := 0x02

/-- A channel list of either program. -/
abbrev ChannelList := FixedArray maximumChannelListSize UInt8

/-- `DEFAULT_PAIRING_CHANNEL_LIST` -/
def defaultPairingChannelList : ChannelList := .load (.replicate _ 0) [2, 48, 76]

/-- `DEFAULT_PAIRING_ADDRESS_32` -/
def defaultPairingAddress32 : FixedArray 4 UInt8 := .load (.replicate _ 0) [0x12, 0x34, 0x67, 0x98]

/-! ## §2 Device masks -/

/-- `(uint8_t)(0x01 << (n - k))`; a negative shift count leaves no bit on the Cortex-M0. -/
def shiftBit (n k : UInt8) : UInt8 :=
  if k ≤ n then (1 <<< (n.toNat - k.toNat)).toUInt8 else 0

/-- Bit `6 - p` of a mask of devices stands for device `p`. -/
def hasDevice (mask : UInt8) (p : ℕ) : Bool := mask.toBitVec.getLsbD (6 - p)

@[simp] theorem hasDevice_zero (p : ℕ) : hasDevice 0 p = false := by simp [hasDevice]

/-- The mask of one device. -/
theorem hasDevice_shiftBit {k : UInt8} {p : ℕ} (hk : 1 ≤ k.toNat ∧ k.toNat ≤ 6)
    (hp : 1 ≤ p ∧ p ≤ 6) : hasDevice (shiftBit 6 k) p = decide (k.toNat = p) := by
  have htable : ∀ i j : Fin 7, 1 ≤ i.val → 1 ≤ j.val →
      hasDevice (shiftBit 6 i.val.toUInt8) j.val = decide (i.val = j.val) := by decide
  have hrange := htable ⟨k.toNat, by omega⟩ ⟨p, by omega⟩ hk.1 hp.1
  have hround : k.toNat.toUInt8 = k := UInt8.ofNat_toNat
  rwa [hround] at hrange

/-- **Setting the bit of a device** adds that device to a mask. -/
theorem hasDevice_or_shiftBit {mask k : UInt8} {p : ℕ} (hk : 1 ≤ k.toNat ∧ k.toNat ≤ 6)
    (hp : 1 ≤ p ∧ p ≤ 6) :
    hasDevice (mask ||| shiftBit 6 k) p = (hasDevice mask p || decide (k.toNat = p)) := by
  rw [← hasDevice_shiftBit hk hp]
  unfold hasDevice
  rw [UInt8.toBitVec_or, BitVec.getLsbD_or]

/-- The devices of one mask that are missing in another. -/
theorem hasDevice_not_and (mask paired : UInt8) (p : ℕ) :
    hasDevice (~~~mask &&& paired) p = (!hasDevice mask p && hasDevice paired p) := by
  unfold hasDevice
  have hlt : 6 - p < 8 := by omega
  rw [UInt8.toBitVec_and, BitVec.getLsbD_and, UInt8.toBitVec_not, BitVec.getLsbD_not]
  simp [hlt]

/-! ## §3 The pairing record -/

/-- `pair_info_t` -/
structure PairInfo where
  systemAddress32 : FixedArray 4 UInt8
  chlist : ChannelList
  devIdx : UInt8
deriving DecidableEq

/-- `sizeof(pair_info_t)` -/
abbrev sizeofPairInfo : UInt8 := 8

/-- The bytes of a record in memory order. -/
def PairInfo.bytes (info : PairInfo) : List UInt8 :=
  info.systemAddress32.firstN 4 ++ info.chlist.firstN maximumChannelListSize ++ [info.devIdx]

theorem PairInfo.length_bytes (info : PairInfo) : info.bytes.length = sizeofPairInfo.toNat := by
  simp [PairInfo.bytes, sizeofPairInfo, maximumChannelListSize]

/-- `(pair_info_t *)data` -/
def PairInfo.ofData (data : PayloadData) : PairInfo where
  systemAddress32 := fun i => data.get i
  chlist := fun i => data.get (4 + i)
  devIdx := data.get 7

/-- **Reading back a stored record** yields it. -/
theorem PairInfo.ofData_bytes (info : PairInfo) (old : PayloadData) :
    PairInfo.ofData (old.load info.bytes) = info := by
  obtain ⟨addr, chlist, idx⟩ := info
  unfold PairInfo.ofData
  congr 1
  · funext i
    match i with
    | 0 | 1 | 2 | 3 => rfl
  · funext i
    match i with
    | 0 | 1 | 2 => rfl

/-- A record is determined by the bytes it is read from. -/
theorem PairInfo.ofData_eq {info : PairInfo} {data : PayloadData}
    (h : data.firstN sizeofPairInfo.toNat = info.bytes) : PairInfo.ofData data = info := by
  have hfits : info.bytes.length ≤ nrfEsbMaxPayloadLength := by
    rw [PairInfo.length_bytes]
    decide
  have hload := FixedArray.firstN_load (.replicate nrfEsbMaxPayloadLength 0) info.bytes hfits
  rw [PairInfo.length_bytes, ← h] at hload
  have hget : ∀ i < 8, data.get i =
      ((FixedArray.replicate nrfEsbMaxPayloadLength 0).load info.bytes).get i := by
    intro i hi
    rw [h] at hload
    exact FixedArray.get_eq_of_firstN_eq (h.trans hload.symm) hi
  rw [← PairInfo.ofData_bytes info (.replicate _ 0)]
  unfold PairInfo.ofData
  congr 1
  · funext i
    exact hget i (by omega)
  · funext i
    have hi : i.val < 3 := i.isLt
    exact hget (4 + i) (by omega)
  · exact hget 7 (by omega)

/-! ## §4 The ESB module -/

/-- The configuration `esb_init` builds. -/
def appEsbConfig (isPtx : Bool) : NrfEsbConfig :=
  { nrfEsbDefaultConfig with
    retransmitCount := 0
    protocol := .esbDpl
    bitrate := .bitrate2Mbps
    mode := if isPtx then .ptx else .prx
    eventHandler := true
    selectiveAutoAck := true }

end NordicEsb
