import Mathlib.Data.List.GetD
import Mathlib.Data.Nat.Notation
import Mathlib.Tactic.IntervalCases

/-!
# Packets of the HCI Transport

An application packet is its data between a header of four bytes and a CRC of two, an
acknowledgement is a header alone. Both carry three-bit numbers in the first byte: the number of
the packet, and the number that the sender expects next.

- `hciTxPacket`, `ackPacket`: the bytes that are sent
- `isRxPktValid`, `rxAckPktTypeHandle`: what the receiver checks

A packet that was sent is valid (`isRxPktValid_hciTxPacket`), and an acknowledgement whose bytes were
read at different moments counts only if they agree (`rxAckPktTypeHandle_torn`).
-/

namespace NordicEsb

/-- A byte. -/
abbrev HciByte := BitVec 8

/-- `PKT_HDR_SIZE` -/
abbrev pktHdrSize : ℕ := 4

/-- `PKT_CRC_SIZE` -/
abbrev pktCrcSize : ℕ := 2

/-- `PKT_TYPE_VENDOR_SPECIFIC` -/
abbrev pktTypeVendorSpecific : BitVec 32 := 14

/-- `PKT_TYPE_ACK` -/
abbrev pktTypeAck : BitVec 32 := 0

/-- `INVALID_PKT_TYPE` -/
abbrev invalidPktType : BitVec 32 := 0xFFFFFFFF

/-- `DATA_INTEGRITY_MASK` -/
abbrev dataIntegrityMask : HciByte := 0x40

/-- `RELIABLE_PKT_MASK` -/
abbrev reliablePktMask : HciByte := 0x80

/-! ## §1 Bytes -/

/-- The bytes that `uint16_encode` writes. -/
def uint16Encode (value : BitVec 16) : List HciByte :=
  [(value &&& 0x00FF).setWidth 8, ((value &&& 0xFF00) >>> 8).setWidth 8]

/-- `uint16_decode` of two bytes. -/
def uint16Decode (low high : HciByte) : BitVec 16 :=
  low.setWidth 16 ||| (high.setWidth 16 <<< 8)

/-- The loop body of `crc16_compute`. -/
def crc16Byte (crc : BitVec 16) (byte : HciByte) : BitVec 16 :=
  let crc := (crc >>> 8) ||| (crc <<< 8)
  let crc := crc ^^^ byte.setWidth 16
  let crc := crc ^^^ ((crc &&& 0xFF) >>> 4)
  let crc := crc ^^^ ((crc <<< 8) <<< 4)
  crc ^^^ (((crc &&& 0xFF) <<< 4) <<< 1)

/-- `crc16_compute` with no CRC to start from. -/
def crc16Compute (data : List HciByte) : BitVec 16 := data.foldl crc16Byte 0xFFFF

/-- `header_checksum_calculate` -/
def headerChecksumCalculate (b₀ b₁ b₂ : HciByte) : HciByte := ~~~(b₀ + b₁ + b₂) + 1

/-- `p_buffer[i]` -/
def byteAt (buffer : List HciByte) (i : ℕ) : HciByte := buffer.getD i 0

/-- A three-bit number in a byte. -/
def seqByte (n : Fin 8) : HciByte := BitVec.ofNat 8 n.val

/-- The three low bits of a byte. -/
def seqOfByte (b : HciByte) : Fin 8 := ⟨(b &&& 0x07).toNat % 8, Nat.mod_lt _ (by decide)⟩

/-! ## §2 Packets -/

/-- `tx_packet_byte_zero_construct` -/
def txPacketByteZeroConstruct (expected transmit : Fin 8) : HciByte :=
  dataIntegrityMask ||| reliablePktMask ||| (seqByte expected <<< 3) ||| seqByte transmit

/-- The header that `pkt_write_handle` writes in front of `length` bytes. -/
def txHeader (expected transmit : Fin 8) (length : ℕ) : List HciByte :=
  let b₀ := txPacketByteZeroConstruct expected transmit
  let fields := uint16Encode ((BitVec.ofNat 16 length <<< 4) ||| 14)
  [b₀, byteAt fields 0, byteAt fields 1,
    headerChecksumCalculate b₀ (byteAt fields 0) (byteAt fields 1)]

/-- **The packet that `pkt_write_handle` constructs.** -/
def hciTxPacket (expected transmit : Fin 8) (data : List HciByte) : List HciByte :=
  let body := txHeader expected transmit data.length ++ data
  body ++ uint16Encode (crc16Compute body)

/-- **The packet that `ack_transmit` constructs.** -/
def ackPacket (expected : Fin 8) : List HciByte :=
  [seqByte expected <<< 3, 0, 0, headerChecksumCalculate (seqByte expected <<< 3) 0 0]

/-- `packet_type_decode` -/
def packetTypeDecode (buffer : List HciByte) : BitVec 32 :=
  if pktHdrSize ≤ buffer.length then (byteAt buffer 1 &&& 0x0F).setWidth 32 else invalidPktType

/-- `packet_seq_nmbr_extract` -/
def packetSeqNmbrExtract (buffer : List HciByte) : Fin 8 := seqOfByte (byteAt buffer 0)

/-- The check of the header checksum. -/
def headerValid (buffer : List HciByte) : Bool :=
  byteAt buffer 0 + byteAt buffer 1 + byteAt buffer 2 + byteAt buffer 3 == 0

/-- `is_rx_pkt_valid` -/
def isRxPktValid (buffer : List HciByte) : Bool :=
  if buffer.length ≤ pktHdrSize then false
  else if byteAt buffer 0 &&& dataIntegrityMask = 0 then false
  else if byteAt buffer 0 &&& reliablePktMask = 0 then false
  else if byteAt buffer 1 &&& 0x0F ≠ 14 then false
  else if !headerValid buffer then false
  else
    let crcCalculated := crc16Compute (buffer.take (buffer.length - pktCrcSize))
    let crcReceived := uint16Decode (byteAt buffer (buffer.length - pktCrcSize))
      (byteAt buffer (buffer.length - pktCrcSize + 1))
    crcCalculated == crcReceived

/-- `ack_number` in `rx_ack_pkt_type_handle` -/
def ackNumber (buffer : List HciByte) : Fin 8 := seqOfByte (byteAt buffer 0 >>> 3)

/-- `rx_ack_pkt_type_handle`, with the result of `expected_ack_number_get`. -/
def rxAckPktTypeHandle (expectedAck : Fin 8) (buffer : List HciByte) : Bool :=
  if !headerValid buffer then false else ackNumber buffer == expectedAck

/-- The data of an application packet, where `hci_transport_rx_pkt_extract` finds it. -/
def rxPktData (buffer : List HciByte) : List HciByte :=
  (buffer.drop pktHdrSize).take (buffer.length - (pktHdrSize + pktCrcSize))

/-! ## §3 What arrives -/

theorem seqOfByte_txPacketByteZeroConstruct (e t : Fin 8) :
    seqOfByte (txPacketByteZeroConstruct e t) = t := by
  revert e t
  decide

theorem seqOfByte_ackByte (e : Fin 8) : seqOfByte ((seqByte e <<< 3) >>> 3) = e := by
  revert e
  decide

theorem txPacketByteZeroConstruct_masks (e t : Fin 8) :
    txPacketByteZeroConstruct e t &&& dataIntegrityMask ≠ 0 ∧
      txPacketByteZeroConstruct e t &&& reliablePktMask ≠ 0 := by
  revert e t
  decide

/-- The low four bits of the type and length fields. -/
theorem uint16Encode_type (v : BitVec 16) :
    byteAt (uint16Encode ((v <<< 4) ||| 14)) 0 &&& 0x0F = 14 := by
  have hlow : byteAt (uint16Encode ((v <<< 4) ||| 14)) 0 =
      (((v <<< 4) ||| 14) &&& 0x00FF).setWidth 8 := rfl
  rw [hlow]
  ext i hi
  simp only [BitVec.getElem_and, BitVec.getElem_setWidth, BitVec.getLsbD_and, BitVec.getLsbD_or,
    BitVec.getLsbD_shiftLeft]
  interval_cases i <;> simp

theorem headerChecksumCalculate_sum (b₀ b₁ b₂ : HciByte) :
    b₀ + b₁ + b₂ + headerChecksumCalculate b₀ b₁ b₂ = 0 := by
  have hneg : headerChecksumCalculate b₀ b₁ b₂ = -(b₀ + b₁ + b₂) :=
    (BitVec.neg_eq_not_add _).symm
  rw [hneg, BitVec.add_right_neg]
  rfl

theorem uint16Decode_encode (v : BitVec 16) :
    uint16Decode (byteAt (uint16Encode v) 0) (byteAt (uint16Encode v) 1) = v := by
  have hdecode : uint16Decode (byteAt (uint16Encode v) 0) (byteAt (uint16Encode v) 1) =
      ((v &&& 0x00FF).setWidth 8).setWidth 16 |||
        ((((v &&& 0xFF00) >>> 8).setWidth 8).setWidth 16 <<< 8) := rfl
  rw [hdecode]
  ext i hi
  simp only [BitVec.getElem_or, BitVec.getElem_setWidth, BitVec.getElem_shiftLeft,
    BitVec.getLsbD_setWidth, BitVec.getLsbD_and, BitVec.getLsbD_ushiftRight]
  interval_cases i <;> simp

variable {e t : Fin 8} {data : List HciByte}

theorem txHeader_length (e t : Fin 8) (n : ℕ) : (txHeader e t n).length = pktHdrSize := rfl

theorem txPacket_length (e t : Fin 8) (data : List HciByte) :
    (hciTxPacket e t data).length = pktHdrSize + data.length + pktCrcSize := by
  unfold hciTxPacket
  rw [List.length_append, List.length_append, txHeader_length]
  rfl

/-- The header of a packet is what stands in front of its data. -/
theorem byteAt_hciTxPacket {i : ℕ} (hi : i < pktHdrSize) :
    byteAt (hciTxPacket e t data) i = byteAt (txHeader e t data.length) i := by
  unfold byteAt hciTxPacket
  rw [List.append_assoc, List.getD_append _ _ _ _ hi]

theorem packetTypeDecode_hciTxPacket (e t : Fin 8) (data : List HciByte) :
    packetTypeDecode (hciTxPacket e t data) = pktTypeVendorSpecific := by
  have hlen : pktHdrSize ≤ (hciTxPacket e t data).length := by
    rw [txPacket_length]
    omega
  have htype : byteAt (hciTxPacket e t data) 1 &&& 0x0F = 14 := by
    rw [byteAt_hciTxPacket (by decide)]
    exact uint16Encode_type _
  unfold packetTypeDecode
  rw [if_pos hlen, htype]
  rfl

theorem packetSeqNmbrExtract_hciTxPacket (e t : Fin 8) (data : List HciByte) :
    packetSeqNmbrExtract (hciTxPacket e t data) = t := by
  unfold packetSeqNmbrExtract
  rw [byteAt_hciTxPacket (by decide)]
  exact seqOfByte_txPacketByteZeroConstruct e t

/-- **What was sent is valid.** -/
theorem isRxPktValid_hciTxPacket (e t : Fin 8) (data : List HciByte) :
    isRxPktValid (hciTxPacket e t data) = true := by
  have hlen := txPacket_length e t data
  have hbyte : ∀ i, i < pktHdrSize →
      byteAt (hciTxPacket e t data) i = byteAt (txHeader e t data.length) i :=
    fun i hi => byteAt_hciTxPacket hi
  have hbody : (txHeader e t data.length ++ data).length =
      (hciTxPacket e t data).length - pktCrcSize := by
    rw [List.length_append, txHeader_length, hlen, Nat.add_sub_cancel]
  -- the header
  have hzero : byteAt (txHeader e t data.length) 0 = txPacketByteZeroConstruct e t := rfl
  have hmasks := txPacketByteZeroConstruct_masks e t
  have htype : byteAt (txHeader e t data.length) 1 &&& 0x0F = 14 := uint16Encode_type _
  have hheader : headerValid (hciTxPacket e t data) = true := by
    unfold headerValid
    rw [hbyte 0 (by decide), hbyte 1 (by decide), hbyte 2 (by decide), hbyte 3 (by decide)]
    exact beq_iff_eq.mpr (headerChecksumCalculate_sum _ _ _)
  -- the CRC
  have htake : (hciTxPacket e t data).take ((hciTxPacket e t data).length - pktCrcSize) =
      txHeader e t data.length ++ data := by
    rw [← hbody]
    exact List.take_left
  have hcrc : ∀ i, byteAt (hciTxPacket e t data) ((hciTxPacket e t data).length - pktCrcSize + i) =
      byteAt (uint16Encode (crc16Compute (txHeader e t data.length ++ data))) i := by
    intro i
    rw [← hbody]
    unfold byteAt hciTxPacket
    dsimp only
    rw [List.getD_append_right _ _ _ _ (Nat.le_add_right _ _), Nat.add_sub_cancel_left]
  have hlong : ¬(hciTxPacket e t data).length ≤ pktHdrSize := by
    rw [hlen]
    unfold pktHdrSize pktCrcSize
    omega
  unfold isRxPktValid
  rw [if_neg hlong, hbyte 0 (by decide), hzero, if_neg hmasks.1, if_neg hmasks.2,
    hbyte 1 (by decide), if_neg (not_not_intro htype), hheader, htake, hcrc 1]
  have hcrc₀ := hcrc 0
  rw [Nat.add_zero] at hcrc₀
  rw [hcrc₀, uint16Decode_encode]
  simp

theorem rxPktData_hciTxPacket (e t : Fin 8) (data : List HciByte) :
    rxPktData (hciTxPacket e t data) = data := by
  unfold rxPktData
  rw [txPacket_length]
  unfold hciTxPacket
  dsimp only
  rw [List.append_assoc, List.drop_left' (txHeader_length _ _ _)]
  exact List.take_left' (by omega)

theorem packetTypeDecode_ack (e : Fin 8) (chk : HciByte) :
    packetTypeDecode [seqByte e <<< 3, 0, 0, chk] = pktTypeAck := by
  have hbyte : byteAt [seqByte e <<< 3, 0, 0, chk] 1 = 0 := rfl
  have hlong : pktHdrSize ≤ [seqByte e <<< 3, 0, 0, chk].length := Nat.le_refl 4
  unfold packetTypeDecode
  rw [if_pos hlong, hbyte]
  decide

/-- **An acknowledgement that changed while it was sent** is accepted only if it did not. -/
theorem rxAckPktTypeHandle_torn {e e' n : Fin 8}
    (h : rxAckPktTypeHandle n [seqByte e <<< 3, 0, 0,
      headerChecksumCalculate (seqByte e' <<< 3) 0 0] = true) : e = e' ∧ e = n := by
  revert e e' n
  decide

end NordicEsb
