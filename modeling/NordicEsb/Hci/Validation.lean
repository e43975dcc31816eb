import Mathlib.Data.List.Basic
import NordicEsb.Hci.Packet

/-!
# What the Validation of an HCI Packet Protects

`hci_transport_rx_pkt_extract` takes the length of a header and a CRC off the length of a received
packet, and relies on `is_rx_pkt_valid` that there are so many bytes.

- `payloadLengthField`: the length in the header, which the comment in `is_rx_pkt_valid` lists
  among its checks, and which is not checked.
- `Protected`: what the extraction relies on.

**Main result** (`protected_iff`): of the packets that are accepted, those are protected that
`pkt_write_handle` writes.
-/

namespace NordicEsb

/-! ## §1 Extraction -/

/-- The payload length field of a header: the upper 12 bits of its second and third byte. -/
def payloadLengthField (buffer : List HciByte) : ℕ :=
  (uint16Decode (byteAt buffer 1) (byteAt buffer 2) >>> 4).toNat

/-- `length -= (PKT_HDR_SIZE + PKT_CRC_SIZE)` -/
def rxPktLength (length : BitVec 32) : BitVec 32 := length - 6

/-- `hci_transport_rx_pkt_extract` of a packet: what `*pp_buffer` points to, and `*p_length`. -/
def rxPktExtract (buffer : List HciByte) : List HciByte × BitVec 16 :=
  (buffer.drop pktHdrSize, (rxPktLength (BitVec.ofNat 32 buffer.length)).setWidth 16)

/-- **What the extraction relies on**: there are a header and a CRC, the length field is right, the
    subtraction does not wrap, and the bytes between the header and the CRC are extracted. -/
structure Protected (buffer : List HciByte) : Prop where
  long : pktHdrSize + pktCrcSize ≤ buffer.length
  field : payloadLengthField buffer = buffer.length - (pktHdrSize + pktCrcSize)
  noWrap : (rxPktLength (BitVec.ofNat 32 buffer.length)).toNat =
    buffer.length - (pktHdrSize + pktCrcSize)
  length : (rxPktExtract buffer).2.toNat = buffer.length - (pktHdrSize + pktCrcSize)
  payload : (rxPktExtract buffer).1.take (rxPktExtract buffer).2.toNat = rxPktData buffer

/-! ## §2 Bytes -/

/-- A first byte with both bits is made of two numbers. -/
theorem byteZero_eq {b : HciByte} (hintegrity : b &&& dataIntegrityMask ≠ 0)
    (hreliable : b &&& reliablePktMask ≠ 0) :
    txPacketByteZeroConstruct (seqOfByte (b >>> 3)) (seqOfByte b) = b := by
  revert b
  decide

theorem uint16Encode_decode (low high : HciByte) :
    uint16Encode (uint16Decode low high) = [low, high] := by
  have hlow : ((uint16Decode low high) &&& 0x00FF).setWidth 8 = low := by
    unfold uint16Decode
    ext i hi
    simp only [BitVec.getElem_setWidth, BitVec.getLsbD_and, BitVec.getLsbD_or,
      BitVec.getLsbD_setWidth, BitVec.getLsbD_shiftLeft]
    interval_cases i <;> simp
  have hhigh : (((uint16Decode low high) &&& 0xFF00) >>> 8).setWidth 8 = high := by
    unfold uint16Decode
    ext i hi
    simp only [BitVec.getElem_setWidth, BitVec.getLsbD_ushiftRight, BitVec.getLsbD_and,
      BitVec.getLsbD_or, BitVec.getLsbD_setWidth, BitVec.getLsbD_shiftLeft]
    interval_cases i <;> simp
  unfold uint16Encode
  rw [hlow, hhigh]

/-- The type and length fields, from the type and the length. -/
theorem typeAndLength_eq {low high : HciByte} (htype : low &&& 0x0F = 14) :
    ((uint16Decode low high >>> 4) <<< 4) ||| 14 = uint16Decode low high := by
  have hbits : ∀ i < 4, low.getLsbD i = (14 : HciByte).getLsbD i := by
    intro i hi
    rw [← htype]
    simp only [BitVec.getLsbD_and]
    interval_cases i <;> simp
  unfold uint16Decode
  ext i hi
  simp only [BitVec.getElem_or, BitVec.getElem_shiftLeft, BitVec.getElem_setWidth]
  have h0 := hbits 0 (by decide)
  have h1 := hbits 1 (by decide)
  have h2 := hbits 2 (by decide)
  have h3 := hbits 3 (by decide)
  interval_cases i <;> simp_all

/-- A header checksum is determined by the other bytes. -/
theorem headerChecksum_eq {b₀ b₁ b₂ b₃ : HciByte} (h : b₀ + b₁ + b₂ + b₃ = 0) :
    headerChecksumCalculate b₀ b₁ b₂ = b₃ := by
  have hsum := headerChecksumCalculate_sum b₀ b₁ b₂
  exact (BitVec.add_right_inj _).mp (hsum.trans h.symm)

/-! ## §3 What is protected -/

variable {buffer : List HciByte}

/-- What `is_rx_pkt_valid` has checked. -/
structure Checked (buffer : List HciByte) : Prop where
  long : pktHdrSize < buffer.length
  integrity : byteAt buffer 0 &&& dataIntegrityMask ≠ 0
  reliable : byteAt buffer 0 &&& reliablePktMask ≠ 0
  type : byteAt buffer 1 &&& 0x0F = 14
  checksum : byteAt buffer 0 + byteAt buffer 1 + byteAt buffer 2 + byteAt buffer 3 = 0
  crc : crc16Compute (buffer.take (buffer.length - pktCrcSize)) =
    uint16Decode (byteAt buffer (buffer.length - pktCrcSize))
      (byteAt buffer (buffer.length - pktCrcSize + 1))

theorem checked_of_valid (h : isRxPktValid buffer = true) : Checked buffer := by
  unfold isRxPktValid at h
  split at h
  · cases h
  · next hlong =>
    split at h
    · cases h
    · next hintegrity =>
      split at h
      · cases h
      · next hreliable =>
        split at h
        · cases h
        · next htype =>
          split at h
          · cases h
          · next hheader =>
            have hchecksum : headerValid buffer = true := by simpa using hheader
            exact ⟨Nat.lt_of_not_le hlong, hintegrity, hreliable, not_not.mp htype,
              beq_iff_eq.mp hchecksum, beq_iff_eq.mp h⟩

/-- So many bytes are a header, data and a CRC. -/
theorem exists_parts (hlong : 6 ≤ buffer.length) :
    ∃ b₀ b₁ b₂ b₃ data c₀ c₁, buffer = [b₀, b₁, b₂, b₃] ++ data ++ [c₀, c₁] := by
  rcases buffer with _ | ⟨b₀, _ | ⟨b₁, _ | ⟨b₂, _ | ⟨b₃, rest⟩⟩⟩⟩
  · simp at hlong
  · simp at hlong
  · simp at hlong
  · simp at hlong
  · have hrest : 2 ≤ rest.length := by
      simp only [List.length_cons] at hlong
      omega
    have hcrc : (rest.drop (rest.length - 2)).length = 2 := by
      rw [List.length_drop]
      omega
    obtain ⟨c₀, c₁, hdrop⟩ := List.length_eq_two.mp hcrc
    refine ⟨b₀, b₁, b₂, b₃, rest.take (rest.length - 2), c₀, c₁, ?_⟩
    rw [List.append_assoc, ← hdrop, List.take_append_drop]
    rfl

variable {b₀ b₁ b₂ b₃ c₀ c₁ : HciByte} {data : List HciByte}

/-- What the checks of such a packet say. -/
theorem Checked.parts (h : Checked ([b₀, b₁, b₂, b₃] ++ data ++ [c₀, c₁])) :
    b₀ &&& dataIntegrityMask ≠ 0 ∧ b₀ &&& reliablePktMask ≠ 0 ∧ b₁ &&& 0x0F = 14 ∧
      b₀ + b₁ + b₂ + b₃ = 0 ∧ crc16Compute ([b₀, b₁, b₂, b₃] ++ data) = uint16Decode c₀ c₁ := by
  obtain ⟨-, hintegrity, hreliable, htype, hchecksum, hcrc⟩ := h
  obtain ⟨body, hbody⟩ : ∃ body, body = [b₀, b₁, b₂, b₃] ++ data := ⟨_, rfl⟩
  have hlength : (body ++ [c₀, c₁]).length - pktCrcSize = body.length := by
    rw [List.length_append]
    exact Nat.add_sub_cancel _ _
  have hfirst : byteAt (body ++ [c₀, c₁]) body.length = c₀ := by simp [byteAt]
  have hsecond : byteAt (body ++ [c₀, c₁]) (body.length + 1) = c₁ := by simp [byteAt]
  rw [← hbody, hlength, hfirst, hsecond, List.take_left] at hcrc
  rw [hbody] at hcrc
  exact ⟨hintegrity, hreliable, htype, hchecksum, hcrc⟩

theorem parts_sub : ([b₀, b₁, b₂, b₃] ++ data ++ [c₀, c₁]).length - (pktHdrSize + pktCrcSize) =
    data.length := by
  rw [List.length_append, List.length_append]
  show 4 + data.length + 2 - 6 = data.length
  omega

/-- **A checked packet with the right length field** is the packet that is written for its data. -/
theorem eq_hciTxPacket (h : Checked ([b₀, b₁, b₂, b₃] ++ data ++ [c₀, c₁]))
    (hfield : payloadLengthField ([b₀, b₁, b₂, b₃] ++ data ++ [c₀, c₁]) = data.length) :
    [b₀, b₁, b₂, b₃] ++ data ++ [c₀, c₁] =
      hciTxPacket (seqOfByte (b₀ >>> 3)) (seqOfByte b₀) data := by
  obtain ⟨hintegrity, hreliable, htype, hchecksum, hcrc⟩ := h.parts
  have hlength : BitVec.ofNat 16 data.length = uint16Decode b₁ b₂ >>> 4 := by
    rw [← hfield]
    apply BitVec.eq_of_toNat_eq
    rw [BitVec.toNat_ofNat]
    exact Nat.mod_eq_of_lt (BitVec.isLt _)
  have hfields : uint16Encode ((BitVec.ofNat 16 data.length <<< 4) ||| 14) = [b₁, b₂] := by
    rw [hlength, typeAndLength_eq htype, uint16Encode_decode]
  have hheader : txHeader (seqOfByte (b₀ >>> 3)) (seqOfByte b₀) data.length = [b₀, b₁, b₂, b₃] := by
    unfold txHeader
    dsimp only
    rw [hfields, byteZero_eq hintegrity hreliable]
    show [b₀, b₁, b₂, headerChecksumCalculate b₀ b₁ b₂] = _
    rw [headerChecksum_eq hchecksum]
  unfold hciTxPacket
  dsimp only
  rw [hheader, hcrc, uint16Encode_decode]

theorem payloadLengthField_lt (buffer : List HciByte) : payloadLengthField buffer < 4096 := by
  unfold payloadLengthField
  rw [BitVec.toNat_ushiftRight, Nat.shiftRight_eq_div_pow]
  have hlt := (uint16Decode (byteAt buffer 1) (byteAt buffer 2)).isLt
  omega

/-- The length field that is written. -/
theorem payloadLengthField_hciTxPacket (e t : Fin 8) (hdata : data.length ≤ 4095) :
    payloadLengthField (hciTxPacket e t data) = data.length := by
  have hfields : uint16Decode (byteAt (hciTxPacket e t data) 1) (byteAt (hciTxPacket e t data) 2) =
      (BitVec.ofNat 16 data.length <<< 4) ||| 14 := by
    rw [byteAt_hciTxPacket (by decide), byteAt_hciTxPacket (by decide)]
    exact uint16Decode_encode _
  have hshift : ((BitVec.ofNat 16 data.length <<< 4) ||| 14) >>> 4 =
      BitVec.ofNat 16 data.length := by
    have hhigh : ∀ i, 12 ≤ i → (BitVec.ofNat 16 data.length).getLsbD i = false := by
      intro i hi
      rw [BitVec.getLsbD_ofNat, Nat.testBit_lt_two_pow, Bool.and_false]
      exact lt_of_lt_of_le (by omega : data.length < 2 ^ 12) (Nat.pow_le_pow_right (by decide) hi)
    ext i hi
    have hi12 := hhigh i
    rw [BitVec.getLsbD_eq_getElem hi] at hi12
    generalize BitVec.ofNat 16 data.length = v at hi12
    interval_cases i <;> simp_all
  unfold payloadLengthField
  rw [hfields, hshift, BitVec.toNat_ofNat, Nat.mod_eq_of_lt (by omega)]

/-- **A packet that is written is protected.** -/
theorem protected_hciTxPacket (e t : Fin 8) (hdata : data.length ≤ 4095) :
    Protected (hciTxPacket e t data) := by
  have hlen : (hciTxPacket e t data).length = data.length + 6 := by
    rw [txPacket_length]
    show 4 + data.length + 2 = _
    omega
  have hsub : (hciTxPacket e t data).length - (pktHdrSize + pktCrcSize) = data.length := by
    rw [hlen]
    exact Nat.add_sub_cancel _ _
  have hwrap : (rxPktLength (BitVec.ofNat 32 (hciTxPacket e t data).length)).toNat = data.length := by
    rw [hlen]
    unfold rxPktLength
    rw [BitVec.toNat_sub, BitVec.toNat_ofNat]
    show (2 ^ 32 - 6 + (data.length + 6) % 2 ^ 32) % 2 ^ 32 = _
    omega
  have hextract : (rxPktExtract (hciTxPacket e t data)).2.toNat = data.length := by
    show ((rxPktLength (BitVec.ofNat 32 _)).setWidth 16).toNat = _
    rw [BitVec.toNat_setWidth, hwrap, Nat.mod_eq_of_lt (by omega)]
  refine ⟨?_, ?_, ?_, ?_, ?_⟩
  · rw [hlen]
    exact Nat.le_add_left _ _
  · rw [hsub]
    exact payloadLengthField_hciTxPacket e t hdata
  · rw [hsub]
    exact hwrap
  · rw [hsub]
    exact hextract
  · rw [hextract]
    unfold rxPktData
    rw [hsub]
    rfl

/-- **Of the packets that are accepted** those are protected that `pkt_write_handle` writes for a
    payload of up to 4095 bytes; and all of these are accepted. -/
theorem protected_iff (buffer : List HciByte) :
    (isRxPktValid buffer = true →
      (Protected buffer ↔ ∃ e t data, data.length ≤ 4095 ∧ buffer = hciTxPacket e t data)) ∧
      ∀ e t data, data.length ≤ 4095 → isRxPktValid (hciTxPacket e t data) = true := by
  refine ⟨fun hvalid => ⟨fun h => ?_, ?_⟩, fun e t data _ => isRxPktValid_hciTxPacket e t data⟩
  · have hchecked := checked_of_valid hvalid
    -- A packet that long has its header, its data and its two CRC bytes.
    obtain ⟨b₀, b₁, b₂, b₃, data, c₀, c₁, rfl⟩ := exists_parts h.long
    have hfield := h.field
    rw [parts_sub] at hfield
    have hlt := payloadLengthField_lt ([b₀, b₁, b₂, b₃] ++ data ++ [c₀, c₁])
    exact ⟨_, _, data, by omega, eq_hciTxPacket hchecked hfield⟩
  · rintro ⟨e, t, data, hdata, rfl⟩
    exact protected_hciTxPacket e t hdata

/-- A packet with one byte of payload. -/
theorem protected_one :
    isRxPktValid (hciTxPacket 1 2 [7]) = true ∧ Protected (hciTxPacket 1 2 [7]) := by
  obtain ⟨hprotected, haccepted⟩ := protected_iff (hciTxPacket 1 2 [7])
  have hvalid := haccepted 1 2 [7] (by decide)
  exact ⟨hvalid, (hprotected hvalid).mpr ⟨1, 2, [7], by decide, rfl⟩⟩

/-- **Five bytes that are accepted**: their first CRC byte is the header checksum, and the length
    that is extracted is -1. -/
theorem not_protected_short :
    isRxPktValid [0xC0, 0x0E, 0x68, 0xCA, 0x24] = true ∧
      (rxPktExtract [0xC0, 0x0E, 0x68, 0xCA, 0x24]).2 = 0xFFFF ∧
      ¬ Protected [0xC0, 0x0E, 0x68, 0xCA, 0x24] :=
  ⟨by decide, by decide, fun h => absurd h.long (by decide)⟩

end NordicEsb
