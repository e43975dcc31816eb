import NordicEsb.Lib.Machine
import Mathlib.Data.List.Basic
import Mathlib.Order.MinMax

/-!
# The SPI Master

`nrf_drv_spi.c` without EasyDMA moves one byte per interrupt. `TXD` and `RXD` have two stages each,
so the driver is always one byte ahead: two bytes are written before the first one is shifted.

- `SpiXferDesc` is a transfer, and `SpiXferDesc.sent` what it puts on the line
- `spiXferBegin`, `spiXferSecond`, `transferByte` and `irqHandlerSpi` are the driver
- `spiMachine` is the driver, the shift register and the application, in any order
- `Transferring` is the invariant while a transfer is under way

**Main result** (`transfers_of_reachable`): every transfer that is accepted is complete when its
event comes, and neither register is ever overrun.
-/

namespace NordicEsb.Spi

/-! ## §1 The driver -/

/-- What `nrf_drv_spi_xfer` returns. -/
inductive SpiRet where
  | success
  | errorBusy
  | errorNotSupported
deriving DecidableEq, Repr

/-- `nrf_drv_spi_xfer_desc_t`, with what is in the buffers. -/
structure SpiXferDesc where
  pTxBuffer : List (BitVec 8)
  txLength : BitVec 8
  pRxBuffer : List (BitVec 8)
  rxLength : BitVec 8
  tx_le : txLength.toNat ≤ pTxBuffer.length
  rx_le : rxLength.toNat ≤ pRxBuffer.length
deriving DecidableEq

/-- What the handler of `NRF_DRV_SPI_EVENT_DONE` finds, and what was on the lines. -/
structure SpiDone where
  desc : SpiXferDesc
  rxBuffer : List (BitVec 8)
  mosi : List (BitVec 8)
  miso : List (BitVec 8)
deriving DecidableEq

/-- The control block of the driver, and the SPI. -/
structure SpiMaster where
  /-- `evt.data.done` -/
  desc : SpiXferDesc
  /-- What is at `p_rx_buffer`. -/
  rxBuffer : List (BitVec 8)
  transferInProgress : Bool
  bytesTransferred : BitVec 8
  /-- The slave is selected. -/
  selected : Bool
  /-- The call is between its first and its second access to `TXD`. -/
  starting : Bool
  /-- The interrupt is enabled. -/
  inten : Bool
  /-- The event `READY`. -/
  ready : Bool
  /-- The stages of `TXD`, and those of `RXD`. -/
  txd : List (BitVec 8)
  rxd : List (BitVec 8)
  /-- What has been on the lines in this transfer. -/
  mosi : List (BitVec 8)
  miso : List (BitVec 8)
  /-- The transfers that `nrf_drv_spi_xfer` has accepted. -/
  accepted : List SpiXferDesc
  /-- The calls of the handler. -/
  done : List SpiDone

/-- `nrf_spi_txd_set` -/
def SpiMaster.setTxd (s : SpiMaster) (byte : BitVec 8) : SpiMaster := { s with txd := s.txd ++ [byte] }

/-- `nrf_spi_rxd_get`: the other stage moves up. -/
def SpiMaster.getRxd (s : SpiMaster) : BitVec 8 × SpiMaster :=
  (s.rxd.headD 0, { s with rxd := s.rxd.tail, ready := s.rxd.tail ≠ [] })

variable (orc : BitVec 8)

/-- `nrf_drv_spi_xfer` up to the first byte in `TXD`. -/
def spiXferBegin (s : SpiMaster) (desc : SpiXferDesc) (flags : BitVec 32) : SpiRet × SpiMaster :=
  if s.transferInProgress then (.errorBusy, s)
  else if flags ≠ 0 then
    (.errorNotSupported, { s with desc := desc, rxBuffer := desc.pRxBuffer, selected := true })
  else
    (.success, SpiMaster.setTxd
      { s with
        desc := desc, rxBuffer := desc.pRxBuffer, selected := true, transferInProgress := true
        bytesTransferred := 0, inten := false, ready := false, starting := true
        mosi := [], miso := [], accepted := s.accepted ++ [desc] }
      (if desc.txLength > 0 then desc.pTxBuffer.getD 0 0 else orc))

/-- The rest of `spi_xfer`. -/
def spiXferSecond (s : SpiMaster) : SpiMaster :=
  let s := { s with starting := false, inten := true }
  if s.desc.txLength > 1 then s.setTxd (s.desc.pTxBuffer.getD 1 0)
  else if s.desc.rxLength > 1 then s.setTxd orc
  else s

/-- `transfer_byte`: whether the transfer goes on. -/
def transferByte (s : SpiMaster) : Bool × SpiMaster :=
  let (rxData, s) := s.getRxd
  let s := if s.bytesTransferred < s.desc.rxLength then
    { s with rxBuffer := s.rxBuffer.set s.bytesTransferred.toNat rxData } else s
  let s := { s with bytesTransferred := s.bytesTransferred + 1 }
  let bytesUsed : BitVec 16 := s.bytesTransferred.setWidth 16 + 1
  if bytesUsed < s.desc.txLength.setWidth 16 then
    (true, s.setTxd (s.desc.pTxBuffer.getD bytesUsed.toNat 0))
  else if bytesUsed < s.desc.rxLength.setWidth 16 then (true, s.setTxd orc)
  else
    (s.bytesTransferred < s.desc.txLength ∨ s.bytesTransferred < s.desc.rxLength, s)

/-- `finish_transfer` -/
def finishTransfer (s : SpiMaster) : SpiMaster :=
  { s with
    selected := false, transferInProgress := false
    done := s.done ++ [⟨s.desc, s.rxBuffer, s.mosi, s.miso⟩] }

/-- `irq_handler_spi` -/
def irqHandlerSpi (s : SpiMaster) : SpiMaster :=
  let (more, s) := transferByte orc { s with ready := false }
  if more then s else finishTransfer s

/-! ## §2 The machine -/

/-- What can happen. -/
inductive SpiLabel where
  /-- The application, or the handler, calls `nrf_drv_spi_xfer`. -/
  | xfer (desc : SpiXferDesc) (flags : BitVec 32)
  | second
  /-- A byte is shifted out, and this one in. -/
  | shift (miso : BitVec 8)
  | irq
deriving DecidableEq

/-- The state after a label. -/
def SpiMaster.step (s : SpiMaster) : SpiLabel → SpiMaster
  | .xfer desc flags => (spiXferBegin orc s desc flags).2
  | .second => spiXferSecond orc s
  | .shift miso =>
    { s with
      txd := s.txd.tail, rxd := s.rxd ++ [miso], ready := true
      mosi := s.mosi ++ s.txd.head?.toList, miso := s.miso ++ [miso] }
  | .irq => irqHandlerSpi orc s

/-- When it can happen. -/
def SpiLabel.Enabled (s : SpiMaster) : SpiLabel → Prop
  | .xfer _ _ => s.starting = false
  | .second => s.starting = true
  | .shift _ => s.txd ≠ []
  | .irq => s.inten = true ∧ s.ready = true

instance (s : SpiMaster) : DecidablePred (SpiLabel.Enabled s)
  | .xfer _ _ => (inferInstance : Decidable (s.starting = false))
  | .second => (inferInstance : Decidable (s.starting = true))
  | .shift _ => (inferInstance : Decidable (s.txd ≠ []))
  | .irq => (inferInstance : Decidable (s.inten = true ∧ s.ready = true))

/-- `nrf_drv_spi_init` with a handler. -/
def nrfDrvSpiInit : SpiMaster where
  desc := ⟨[], 0, [], 0, Nat.le_refl 0, Nat.le_refl 0⟩
  rxBuffer := []
  transferInProgress := false
  bytesTransferred := 0
  selected := false
  starting := false
  inten := true
  ready := false
  txd := []
  rxd := []
  mosi := []
  miso := []
  accepted := []
  done := []

/-- **The driver, the shift register and the application.** -/
def spiMachine : Machine SpiMaster SpiLabel where
  start s := s = nrfDrvSpiInit
  enabled s label := label.Enabled s
  step := SpiMaster.step orc

instance (s : SpiMaster) (label : SpiLabel) : Decidable ((spiMachine orc).enabled s label) :=
  inferInstanceAs (Decidable (label.Enabled s))

/-! ## §3 What a transfer is -/

/-- How many bytes a transfer takes; there is always one. -/
def SpiXferDesc.size (desc : SpiXferDesc) : ℕ :=
  max 1 (max desc.txLength.toNat desc.rxLength.toNat)

/-- The byte at a place: behind the buffer there is the over-run character. -/
def SpiXferDesc.byteAt (desc : SpiXferDesc) (i : ℕ) : BitVec 8 :=
  if i < desc.txLength.toNat then desc.pTxBuffer.getD i 0 else orc

/-- The first bytes that a transfer sends. -/
def SpiXferDesc.sent (desc : SpiXferDesc) (k : ℕ) : List (BitVec 8) :=
  (List.range k).map (desc.byteAt orc)

/-- The receive buffer when these bytes have been received. -/
def SpiXferDesc.received (desc : SpiXferDesc) (miso : List (BitVec 8)) : List (BitVec 8) :=
  miso.take desc.rxLength.toNat ++ desc.pRxBuffer.drop (min miso.length desc.rxLength.toNat)

/-- **A transfer is complete**: its bytes have been on the line, and what came back is in the
    buffer, of which the rest is as it was. -/
structure SpiDone.Complete (d : SpiDone) : Prop where
  mosi : d.mosi = d.desc.sent orc d.desc.size
  miso : d.miso.length = d.desc.size
  rxBuffer : d.rxBuffer = d.desc.received d.miso

/-- **The master is right.** -/
structure Transfers (s : SpiMaster) : Prop where
  /-- One event for each transfer, in order; only the last one may be under way. -/
  events : s.accepted = s.done.map SpiDone.desc ++
    if s.transferInProgress then [s.desc] else []
  complete : ∀ d ∈ s.done, d.Complete orc
  /-- What has been on the line is the beginning of the transfer. -/
  sending : s.transferInProgress = true →
    s.mosi <+: s.desc.sent orc s.desc.size ∧ s.selected = true
  /-- A byte is never written to a full `TXD`, and never arrives at a full `RXD`. -/
  overrun : s.txd.length ≤ 2 ∧ s.rxd.length ≤ 2
  /-- A transfer never waits for an interrupt that does not come. -/
  alive : s.transferInProgress = true → s.starting = true ∨ s.txd ≠ [] ∨
    s.inten = true ∧ s.ready = true
  /-- Between transfers nothing is sent. -/
  quiet : s.transferInProgress = false → s.txd = [] ∧ s.ready = false

/-! ## §4 A transfer under way -/

section Transfer

variable {orc} {s : SpiMaster} {desc : SpiXferDesc}

/-- How many bytes have been written to `TXD`. -/
def SpiMaster.written (s : SpiMaster) : ℕ := s.mosi.length + s.txd.length

/-- **A transfer is under way.** -/
structure Transferring (orc : BitVec 8) (s : SpiMaster) : Prop where
  line : s.mosi ++ s.txd = s.desc.sent orc s.written
  begun : s.starting = true → s.written = 1 ∧ s.bytesTransferred = 0 ∧ s.inten = false
  /-- The driver is one byte ahead. -/
  ahead : s.starting = false →
    s.written = min s.desc.size (s.bytesTransferred.toNat + 2) ∧ s.inten = true
  shifted : s.miso.length = s.mosi.length
  read_le : s.bytesTransferred.toNat ≤ s.miso.length
  rxd : s.rxd = s.miso.drop s.bytesTransferred.toNat
  ready : s.ready = decide (s.rxd ≠ [])
  more : s.bytesTransferred.toNat < s.desc.size
  rxBuffer : s.rxBuffer = s.desc.received (s.miso.take s.bytesTransferred.toNat)
  selected : s.selected = true

/-- No transfer is under way. -/
structure Resting (s : SpiMaster) : Prop where
  starting : s.starting = false
  txd : s.txd = []
  rxd : s.rxd = []
  ready : s.ready = false

theorem SpiXferDesc.size_lt (desc : SpiXferDesc) : desc.size < 256 := by
  have htx := desc.txLength.isLt
  have hrx := desc.rxLength.isLt
  unfold SpiXferDesc.size
  exact Nat.max_lt.mpr ⟨by decide, Nat.max_lt.mpr ⟨htx, hrx⟩⟩

/-- One byte more. -/
theorem SpiXferDesc.sent_succ (desc : SpiXferDesc) (k : ℕ) :
    desc.sent orc (k + 1) = desc.sent orc k ++ [desc.byteAt orc k] := by
  unfold SpiXferDesc.sent
  rw [List.range_succ, List.map_append]
  rfl

theorem SpiXferDesc.sent_prefix (desc : SpiXferDesc) {k n : ℕ} (h : k ≤ n) :
    desc.sent orc k <+: desc.sent orc n := by
  induction n with
  | zero =>
    obtain rfl : k = 0 := Nat.le_zero.mp h
    exact List.prefix_refl _
  | succ n ih =>
    rcases Nat.lt_or_eq_of_le h with hlt | rfl
    · rw [desc.sent_succ]
      exact (ih (Nat.le_of_lt_succ hlt)).trans (List.prefix_append _ _)
    · exact List.prefix_refl _

/-- Before the first byte the buffer is as the application has left it. -/
theorem SpiXferDesc.received_nil (desc : SpiXferDesc) : desc.received [] = desc.pRxBuffer := by
  unfold SpiXferDesc.received
  rw [List.take_nil, List.length_nil, Nat.zero_min]
  rfl

/-- **A byte is stored** as long as the buffer is not full. -/
theorem SpiXferDesc.received_set (desc : SpiXferDesc) (miso : List (BitVec 8)) (x : BitVec 8)
    (hlt : miso.length < desc.rxLength.toNat) :
    (desc.received miso).set miso.length x = desc.received (miso ++ [x]) := by
  have hle := desc.rx_le
  have htake : miso.take desc.rxLength.toNat = miso := List.take_of_length_le hlt.le
  have hcons : desc.pRxBuffer.drop miso.length =
      desc.pRxBuffer[miso.length] :: desc.pRxBuffer.drop (miso.length + 1) :=
    List.drop_eq_getElem_cons (by omega)
  unfold SpiXferDesc.received
  rw [htake, List.length_append, List.length_singleton, min_eq_left hlt.le,
    min_eq_left (Nat.succ_le_of_lt hlt), List.take_of_length_le (by simp; omega), hcons,
    List.set_append_right _ _ le_rfl, Nat.sub_self, List.set_cons_zero, List.append_assoc]
  rfl

/-- Behind the buffer nothing is stored. -/
theorem SpiXferDesc.received_full {miso : List (BitVec 8)} (x : BitVec 8)
    (hle : desc.rxLength.toNat ≤ miso.length) :
    desc.received (miso ++ [x]) = desc.received miso := by
  unfold SpiXferDesc.received
  rw [List.take_append_of_le_length hle, List.length_append, min_eq_right hle,
    min_eq_right (by omega)]

/-- **`nrf_drv_spi_xfer` begins a transfer.** -/
theorem Resting.begin (h : Resting s) (desc : SpiXferDesc) :
    Transferring orc (SpiMaster.setTxd
      { s with
        desc := desc, rxBuffer := desc.pRxBuffer, selected := true, transferInProgress := true
        bytesTransferred := 0, inten := false, ready := false, starting := true
        mosi := [], miso := [], accepted := s.accepted ++ [desc] }
      (if desc.txLength > 0 then desc.pTxBuffer.getD 0 0 else orc)) := by
  have hpos : 0 < desc.size := by
    unfold SpiXferDesc.size
    omega
  have hfirst : (if desc.txLength > 0 then desc.pTxBuffer.getD 0 0 else orc) =
      desc.byteAt orc 0 := rfl
  constructor
  · show [] ++ (s.txd ++ [_]) = desc.sent orc (0 + (s.txd ++ [_]).length)
    rw [h.txd, hfirst]
    rfl
  · intro _
    refine ⟨?_, rfl, rfl⟩
    show 0 + (s.txd ++ [_]).length = 1
    rw [h.txd]
    rfl
  · intro hfalse
    cases hfalse
  · rfl
  · exact le_rfl
  · exact h.rxd
  · show false = decide (s.rxd ≠ [])
    rw [h.rxd]
    rfl
  · exact hpos
  · exact desc.received_nil.symm
  · rfl

/-- `starting` and the interrupt, in the rest of `spi_xfer`. -/
theorem Transferring.second (h : Transferring orc s) (hstarting : s.starting = true) :
    Transferring orc (spiXferSecond orc s) := by
  obtain ⟨hwritten, hzero, -⟩ := h.begun hstarting
  have hmore : ∀ t : SpiMaster, t = { s with starting := false, inten := true } →
      s.desc.size = 1 → Transferring orc t := by
    rintro t rfl hsize
    refine ⟨h.line, fun hfalse => (by cases hfalse), fun _ => ⟨?_, rfl⟩, h.shifted, h.read_le,
      h.rxd, h.ready, h.more, h.rxBuffer, h.selected⟩
    show s.written = min s.desc.size (s.bytesTransferred.toNat + 2)
    rw [hwritten, hsize, hzero]
    rfl
  -- Another byte is written, the one behind the first.
  have hbyte : ∀ (t : SpiMaster) (byte : BitVec 8),
      t = SpiMaster.setTxd { s with starting := false, inten := true } byte →
        byte = s.desc.byteAt orc 1 → 1 < s.desc.size → Transferring orc t := by
    rintro t byte rfl rfl hsize
    have hcount : (s.mosi.length + (s.txd ++ [s.desc.byteAt orc 1]).length) = s.written + 1 := by
      rw [List.length_append]
      rfl
    refine ⟨?_, fun hfalse => (by cases hfalse), fun _ => ⟨?_, rfl⟩, h.shifted, h.read_le,
      h.rxd, h.ready, h.more, h.rxBuffer, h.selected⟩
    · show s.mosi ++ (s.txd ++ [s.desc.byteAt orc 1]) =
        s.desc.sent orc (s.mosi.length + (s.txd ++ [s.desc.byteAt orc 1]).length)
      rw [hcount, SpiXferDesc.sent_succ, ← h.line, hwritten, List.append_assoc]
    · show s.mosi.length + (s.txd ++ [s.desc.byteAt orc 1]).length =
        min s.desc.size (s.bytesTransferred.toNat + 2)
      have htwo : (0 : BitVec 8).toNat + 2 = 2 := rfl
      rw [hcount, hwritten, hzero, htwo, min_eq_right (by omega)]
  unfold spiXferSecond
  dsimp only
  have hone : (1 : BitVec 8).toNat = 1 := rfl
  split_ifs with htx hrx
  · rw [gt_iff_lt, BitVec.lt_def, hone] at htx
    refine hbyte _ _ rfl ?_ ?_
    · unfold SpiXferDesc.byteAt
      rw [if_pos htx]
    · unfold SpiXferDesc.size
      omega
  · rw [gt_iff_lt, BitVec.lt_def, hone] at htx hrx
    refine hbyte _ _ rfl ?_ ?_
    · unfold SpiXferDesc.byteAt
      rw [if_neg htx]
    · unfold SpiXferDesc.size
      omega
  · rw [gt_iff_lt, BitVec.lt_def, hone] at htx hrx
    refine hmore _ rfl ?_
    unfold SpiXferDesc.size
    omega

/-- **A byte is shifted**, one out and one in. -/
theorem Transferring.shift (h : Transferring orc s) (htxd : s.txd ≠ []) (byte : BitVec 8) :
    Transferring orc (s.step orc (.shift byte)) := by
  obtain ⟨hline, hbegun, hahead, hshifted, hread, hrxd, -, hmore, hrx, hselected⟩ := h
  obtain ⟨out, rest, hcons⟩ := List.exists_cons_of_ne_nil htxd
  have hmosi : s.mosi ++ s.txd.head?.toList ++ s.txd.tail = s.mosi ++ s.txd := by
    rw [hcons, List.append_assoc]
    rfl
  have hcount : (s.step orc (.shift byte)).written = s.written := by
    show (s.mosi ++ s.txd.head?.toList).length + s.txd.tail.length = s.mosi.length + s.txd.length
    rw [← List.length_append, hmosi, List.length_append]
  refine ⟨?_, ?_, ?_, ?_, ?_, ?_, ?_, hmore, ?_, hselected⟩
  · rw [hcount]
    exact hmosi.trans hline
  · rw [hcount]
    exact hbegun
  · rw [hcount]
    exact hahead
  · show (s.miso ++ [byte]).length = (s.mosi ++ s.txd.head?.toList).length
    rw [hcons, List.length_append, List.length_append, hshifted]
    rfl
  · show s.bytesTransferred.toNat ≤ (s.miso ++ [byte]).length
    rw [List.length_append]
    omega
  · show s.rxd ++ [byte] = (s.miso ++ [byte]).drop s.bytesTransferred.toNat
    rw [List.drop_append_of_le_length hread, hrxd]
  · show true = decide (s.rxd ++ [byte] ≠ [])
    simp
  · show s.rxBuffer = s.desc.received ((s.miso ++ [byte]).take s.bytesTransferred.toNat)
    rw [List.take_append_of_le_length hread]
    exact hrx

/-- What `transfer_byte` has read: the byte is in the buffer, and one more has been transferred. -/
def SpiMaster.readByte (s : SpiMaster) (byte : BitVec 8) (rest : List (BitVec 8)) : SpiMaster :=
  { s with
    rxd := rest, ready := rest ≠ [], bytesTransferred := s.bytesTransferred + 1
    rxBuffer := if s.bytesTransferred < s.desc.rxLength then
      s.rxBuffer.set s.bytesTransferred.toNat byte else s.rxBuffer }

/-- **`transfer_byte`** writes the byte behind the two that are under way, if there is one. -/
theorem transferByte_eq {byte : BitVec 8} {rest : List (BitVec 8)} (hrxd : s.rxd = byte :: rest)
    (hmore : s.bytesTransferred.toNat < s.desc.size) :
    transferByte orc s =
      (if s.bytesTransferred.toNat + 2 < s.desc.size then
        (true, (s.readByte byte rest).setTxd (s.desc.byteAt orc (s.bytesTransferred.toNat + 2)))
      else (decide (s.bytesTransferred.toNat + 1 < s.desc.size), s.readByte byte rest)) := by
  have hsize := s.desc.size_lt
  have hnext : (s.bytesTransferred + 1).toNat = s.bytesTransferred.toNat + 1 := by bv_omega
  have hused : ((s.bytesTransferred + 1).setWidth 16 + 1 : BitVec 16).toNat =
      s.bytesTransferred.toNat + 2 := by
    have hwide : ((s.bytesTransferred + 1).setWidth 16).toNat = s.bytesTransferred.toNat + 1 := by
      rw [BitVec.toNat_setWidth_of_le (by decide), hnext]
    bv_omega
  have hwide : ∀ length : BitVec 8, (length.setWidth 16).toNat = length.toNat := fun length =>
    BitVec.toNat_setWidth_of_le (by decide)
  have hcode : transferByte orc s =
      (if ((s.bytesTransferred + 1).setWidth 16 + 1 : BitVec 16) < s.desc.txLength.setWidth 16 then
        (true, (s.readByte byte rest).setTxd
          (s.desc.pTxBuffer.getD ((s.bytesTransferred + 1).setWidth 16 + 1 : BitVec 16).toNat 0))
      else if ((s.bytesTransferred + 1).setWidth 16 + 1 : BitVec 16) <
          s.desc.rxLength.setWidth 16 then
        (true, (s.readByte byte rest).setTxd orc)
      else
        (decide (s.bytesTransferred + 1 < s.desc.txLength ∨
          s.bytesTransferred + 1 < s.desc.rxLength), s.readByte byte rest)) := by
    unfold transferByte SpiMaster.getRxd SpiMaster.readByte
    rw [hrxd]
    by_cases hrx : s.bytesTransferred < s.desc.rxLength
    · simp only [hrx, if_true, List.headD_cons, List.tail_cons]
      rfl
    · simp only [hrx, if_false, List.tail_cons]
      rfl
  rw [hcode]
  simp only [BitVec.lt_def, hused, hwide, hnext]
  unfold SpiXferDesc.byteAt SpiXferDesc.size
  by_cases htx : s.bytesTransferred.toNat + 2 < s.desc.txLength.toNat
  · rw [if_pos htx, if_pos (by omega), if_pos htx]
  · rw [if_neg htx]
    by_cases hrx : s.bytesTransferred.toNat + 2 < s.desc.rxLength.toNat
    · rw [if_pos hrx, if_pos (by omega), if_neg htx]
    · rw [if_neg hrx, if_neg (by omega)]
      congr 2
      rw [eq_iff_iff]
      omega

/-- The bytes that have been read. -/
theorem Transferring.readByte {byte : BitVec 8} {rest : List (BitVec 8)}
    (h : Transferring orc s) (hrxd : s.rxd = byte :: rest) :
    s.bytesTransferred.toNat < s.miso.length ∧
      (s.readByte byte rest).bytesTransferred.toNat = s.bytesTransferred.toNat + 1 ∧
      rest = s.miso.drop (s.bytesTransferred.toNat + 1) ∧
      (s.readByte byte rest).rxBuffer =
        s.desc.received (s.miso.take (s.bytesTransferred.toNat + 1)) := by
  have hsize := s.desc.size_lt
  have hmore := h.more
  have hdrop := h.rxd.symm.trans hrxd
  have hlt : s.bytesTransferred.toNat < s.miso.length := by
    by_contra hge
    rw [List.drop_of_length_le (Nat.le_of_not_lt hge)] at hdrop
    cases hdrop
  rw [List.drop_eq_getElem_cons hlt] at hdrop
  obtain ⟨hbyte, hrest⟩ := List.cons.inj hdrop
  refine ⟨hlt, ?_, hrest.symm, ?_⟩
  · show (s.bytesTransferred + 1).toNat = _
    bv_omega
  · have htake : s.miso.take (s.bytesTransferred.toNat + 1) =
        s.miso.take s.bytesTransferred.toNat ++ [byte] := by
      rw [List.take_succ_eq_append_getElem hlt, hbyte]
    have hlen : (s.miso.take s.bytesTransferred.toNat).length = s.bytesTransferred.toNat := by
      rw [List.length_take, min_eq_left hlt.le]
    show (if s.bytesTransferred < s.desc.rxLength then
      s.rxBuffer.set s.bytesTransferred.toNat byte else s.rxBuffer) = _
    rw [htake, h.rxBuffer]
    split_ifs with hrx
    · rw [BitVec.lt_def] at hrx
      have hset := s.desc.received_set (s.miso.take s.bytesTransferred.toNat) byte
        (by rw [hlen]; exact hrx)
      rwa [hlen] at hset
    · rw [BitVec.lt_def] at hrx
      exact (SpiXferDesc.received_full byte (by rw [hlen]; exact Nat.le_of_not_lt hrx)).symm

/-- A byte has been read back, and the transfer goes on; `txd` is what `TXD` holds then. -/
theorem Transferring.readOn (h : Transferring orc s) (hinten : s.inten = true)
    (hstarting : s.starting = false) {byte : BitVec 8} {rest : List (BitVec 8)}
    (hrxd : s.rxd = byte :: rest) (txd : List (BitVec 8))
    (hline : s.mosi ++ txd = s.desc.sent orc (s.mosi.length + txd.length))
    (hahead : s.mosi.length + txd.length = min s.desc.size (s.bytesTransferred.toNat + 3))
    (hmore : s.bytesTransferred.toNat + 1 < s.desc.size) :
    Transferring orc { s.readByte byte rest with txd := txd } := by
  obtain ⟨hlt, hnext, hrest, hrx⟩ := h.readByte hrxd
  refine ⟨hline, fun htrue => ?_, fun _ => ⟨?_, hinten⟩, h.shifted, ?_, ?_, rfl, ?_, ?_, h.selected⟩
  · exact absurd (hstarting.symm.trans htrue) (by decide)
  · show s.mosi.length + txd.length =
      min s.desc.size ((s.readByte byte rest).bytesTransferred.toNat + 2)
    rw [hnext]
    exact hahead
  · show (s.readByte byte rest).bytesTransferred.toNat ≤ s.miso.length
    rw [hnext]
    exact hlt
  · show rest = s.miso.drop (s.readByte byte rest).bytesTransferred.toNat
    rw [hnext]
    exact hrest
  · show (s.readByte byte rest).bytesTransferred.toNat < s.desc.size
    rw [hnext]
    exact hmore
  · show (s.readByte byte rest).rxBuffer =
      s.desc.received (s.miso.take (s.readByte byte rest).bytesTransferred.toNat)
    rw [hnext]
    exact hrx

/-- The last byte has been read back: nothing is left, and the transfer is complete. -/
theorem Transferring.readLast (h : Transferring orc s) (hstarting : s.starting = false)
    {byte : BitVec 8} {rest : List (BitVec 8)} (hrxd : s.rxd = byte :: rest)
    (hone : ¬ s.bytesTransferred.toNat + 1 < s.desc.size) :
    Resting (s.readByte byte rest) ∧
      SpiDone.Complete orc ⟨s.desc, (s.readByte byte rest).rxBuffer, s.mosi, s.miso⟩ := by
  obtain ⟨hlt, -, hrest, hrx⟩ := h.readByte hrxd
  obtain ⟨hwritten, -⟩ := h.ahead hstarting
  have hshifted := h.shifted
  have hmore := h.more
  have hsum : s.written = s.mosi.length + s.txd.length := rfl
  -- as many bytes have come back as the transfer has
  have hall : s.miso.length = s.desc.size := by omega
  have htxd : s.txd = [] := by
    rw [← List.length_eq_zero_iff]
    omega
  have hempty : rest = [] := by
    rw [hrest]
    exact List.drop_of_length_le (by omega)
  refine ⟨⟨hstarting, htxd, hempty, ?_⟩, ?_, hall, ?_⟩
  · show decide (rest ≠ []) = false
    rw [hempty]
    rfl
  · have hline := h.line
    rw [htxd, List.append_nil] at hline
    show s.mosi = s.desc.sent orc s.desc.size
    rw [hline]
    congr 1
    omega
  · show (s.readByte byte rest).rxBuffer = s.desc.received s.miso
    rw [hrx, List.take_of_length_le (by omega)]

/-- **The interrupt** goes on with the transfer, or it is complete. -/
theorem Transferring.irq (h : Transferring orc s) (hinten : s.inten = true)
    (hready : s.ready = true) :
    (∃ t, irqHandlerSpi orc s = t ∧ Transferring orc t ∧ t.desc = s.desc ∧ t.done = s.done ∧
      t.accepted = s.accepted ∧ t.transferInProgress = s.transferInProgress) ∨
    ∃ t, irqHandlerSpi orc s = finishTransfer t ∧ Resting t ∧ t.desc = s.desc ∧ t.done = s.done ∧
      t.accepted = s.accepted ∧ SpiDone.Complete orc ⟨t.desc, t.rxBuffer, t.mosi, t.miso⟩ := by
  -- The interrupt is enabled only when the first bytes have been written.
  have hstarting : s.starting = false := by
    cases hs : s.starting with
    | false => rfl
    | true =>
      rw [(h.begun hs).2.2] at hinten
      cases hinten
  obtain ⟨hwritten, -⟩ := h.ahead hstarting
  obtain ⟨byte, rest, hrxd⟩ : ∃ byte rest, s.rxd = byte :: rest := by
    have hne := h.ready.symm.trans hready
    rw [decide_eq_true_iff] at hne
    exact List.exists_cons_of_ne_nil hne
  have hmore := h.more
  have hsum : s.written = s.mosi.length + s.txd.length := rfl
  -- Clearing the event changes nothing that `transfer_byte` reads.
  have hcode : transferByte orc { s with ready := false } = transferByte orc s := by
    rw [transferByte_eq (s := { s with ready := false }) hrxd hmore, transferByte_eq hrxd hmore]
    rfl
  unfold irqHandlerSpi
  rw [hcode, transferByte_eq hrxd hmore]
  by_cases htwo : s.bytesTransferred.toNat + 2 < s.desc.size
  · -- the next byte is written
    rw [if_pos htwo]
    obtain ⟨next, hbyte⟩ : ∃ next, next = s.desc.byteAt orc (s.bytesTransferred.toNat + 2) :=
      ⟨_, rfl⟩
    rw [← hbyte]
    dsimp only
    rw [if_pos rfl]
    rw [min_eq_right htwo.le] at hwritten
    have hlength : s.mosi.length + (s.txd ++ [next]).length = s.written + 1 := by
      rw [List.length_append]
      rfl
    refine .inl ⟨_, rfl, h.readOn hinten hstarting hrxd (s.txd ++ [next]) ?_ ?_ (by omega), rfl,
      rfl, rfl, rfl⟩
    · rw [hlength, SpiXferDesc.sent_succ, ← h.line, hwritten, ← hbyte, List.append_assoc]
    · rw [hlength, hwritten, min_eq_right (by omega)]
  · rw [if_neg htwo]
    by_cases hone : s.bytesTransferred.toNat + 1 < s.desc.size
    · -- the last byte is still under way
      dsimp only
      rw [decide_eq_true hone, if_pos rfl]
      exact .inl ⟨_, rfl, h.readOn hinten hstarting hrxd s.txd h.line (by omega) hone, rfl, rfl,
        rfl, rfl⟩
    · dsimp only
      rw [decide_eq_false hone, if_neg Bool.false_ne_true]
      obtain ⟨hresting, hcomplete⟩ := h.readLast hstarting hrxd hone
      exact .inr ⟨_, rfl, hresting, rfl, rfl, rfl, hcomplete⟩

/-- No more is written than the transfer has. -/
theorem Transferring.written_le (h : Transferring orc s) : s.written ≤ s.desc.size := by
  have hmore := h.more
  cases hstarting : s.starting with
  | true =>
    have hwritten := (h.begun hstarting).1
    omega
  | false =>
    have hwritten := (h.ahead hstarting).1
    omega

/-- **The registers are never overrun**: at most two bytes have been written and not read back. -/
theorem Transferring.overrun (h : Transferring orc s) : s.txd.length ≤ 2 ∧ s.rxd.length ≤ 2 := by
  have hwritten : s.written ≤ s.bytesTransferred.toNat + 2 := by
    cases hstarting : s.starting with
    | true =>
      have hone := (h.begun hstarting).1
      omega
    | false =>
      have htwo := (h.ahead hstarting).1
      omega
  have hsum : s.written = s.mosi.length + s.txd.length := rfl
  have hread := h.read_le
  have hshifted := h.shifted
  refine ⟨by omega, ?_⟩
  rw [h.rxd, List.length_drop]
  omega

/-- **A byte is on its way**, out or in. -/
theorem Transferring.alive (h : Transferring orc s) :
    s.starting = true ∨ s.txd ≠ [] ∨ s.inten = true ∧ s.ready = true := by
  cases hstarting : s.starting with
  | true => exact .inl rfl
  | false =>
    obtain ⟨hwritten, hinten⟩ := h.ahead hstarting
    by_cases htxd : s.txd = []
    · refine .inr (.inr ⟨hinten, ?_⟩)
      have hsum : s.written = s.mosi.length + s.txd.length := rfl
      have hshifted := h.shifted
      have hmore := h.more
      rw [htxd, List.length_nil] at hsum
      have hlt : s.bytesTransferred.toNat < s.miso.length := by omega
      rw [h.ready, decide_eq_true_iff, h.rxd, List.drop_eq_getElem_cons hlt]
      exact List.cons_ne_nil _ _
    · exact .inr (.inl htxd)

end Transfer

/-! ## §5 Runs -/

section Runs

variable {orc} {s : SpiMaster}

/-- **What holds in every state.** -/
structure SpiInv (orc : BitVec 8) (s : SpiMaster) : Prop where
  transfer : s.transferInProgress = true → Transferring orc s
  rest : s.transferInProgress = false → Resting s
  events : s.accepted = s.done.map SpiDone.desc ++
    if s.transferInProgress then [s.desc] else []
  complete : ∀ d ∈ s.done, d.Complete orc

/-- The transfer goes on. -/
theorem SpiInv.proceed {t : SpiMaster} (h : SpiInv orc s) (hrunning : s.transferInProgress = true)
    (htransfer : Transferring orc t) (hdesc : t.desc = s.desc) (hdone : t.done = s.done)
    (haccepted : t.accepted = s.accepted) (hprogress : t.transferInProgress = s.transferInProgress) :
    SpiInv orc t := by
  rw [hrunning] at hprogress
  refine ⟨fun _ => htransfer, fun hfalse => ?_, ?_, ?_⟩
  · rw [hprogress] at hfalse
    cases hfalse
  · rw [haccepted, hdone, hdesc, hprogress, h.events, hrunning]
  · rw [hdone]
    exact h.complete

/-- Something is on its way, so a transfer is under way. -/
theorem SpiInv.running (h : SpiInv orc s) (hnot : ¬ Resting s) : s.transferInProgress = true := by
  by_contra hidle
  exact hnot (h.rest (by simpa using hidle))

/-- **Every step** keeps it. -/
theorem SpiInv.step {label : SpiLabel} (h : SpiInv orc s) (hen : label.Enabled s) :
    SpiInv orc (s.step orc label) := by
  cases label with
  | xfer desc flags =>
    show SpiInv orc (spiXferBegin orc s desc flags).2
    unfold spiXferBegin
    by_cases hrunning : s.transferInProgress = true
    · rw [if_pos hrunning]
      exact h
    · have hidle : s.transferInProgress = false := by simpa using hrunning
      -- no transfer is going on: the driver is at rest
      have hevents := h.events
      rw [hidle] at hevents
      rw [if_neg hrunning]
      by_cases hflags : flags ≠ 0
      · rw [if_pos hflags]
        obtain ⟨hstarting, htxd, hrxd, hready⟩ := h.rest hidle
        refine ⟨fun htrue => absurd htrue hrunning, fun _ => ⟨hstarting, htxd, hrxd, hready⟩, ?_,
          h.complete⟩
        rw [if_neg hrunning]
        exact hevents
      · rw [if_neg hflags]
        refine ⟨fun _ => (h.rest hidle).begin desc, fun hfalse => (by cases hfalse), ?_, h.complete⟩
        show s.accepted ++ [desc] = s.done.map SpiDone.desc ++ [desc]
        rw [hevents]
        exact congrArg (· ++ [desc]) (List.append_nil _)
  | second =>
    have hstarting : s.starting = true := hen
    have hrunning := h.running fun hrest => by
      rw [hrest.starting] at hstarting
      cases hstarting
    have hsame : ∀ t : SpiMaster, t = spiXferSecond orc s → t.desc = s.desc ∧ t.done = s.done ∧
        t.accepted = s.accepted ∧ t.transferInProgress = s.transferInProgress := by
      rintro t rfl
      unfold spiXferSecond
      dsimp only
      split_ifs <;> exact ⟨rfl, rfl, rfl, rfl⟩
    obtain ⟨hdesc, hdone, haccepted, hprogress⟩ := hsame _ rfl
    exact h.proceed hrunning ((h.transfer hrunning).second hstarting) hdesc hdone haccepted
      hprogress
  | shift miso =>
    -- The register has a byte, so a transfer is going on.
    have htxd : s.txd ≠ [] := hen
    have hrunning := h.running fun hrest => htxd hrest.txd
    exact h.proceed hrunning ((h.transfer hrunning).shift htxd miso) rfl rfl rfl rfl
  | irq =>
    obtain ⟨hinten, hready⟩ : s.inten = true ∧ s.ready = true := hen
    have hrunning := h.running fun hrest => by
      rw [hrest.ready] at hready
      cases hready
    show SpiInv orc (irqHandlerSpi orc s)
    -- The interrupt goes on with the transfer, or ends it with its event.
    rcases (h.transfer hrunning).irq hinten hready with
      ⟨t, hcode, htransfer, hdesc, hdone, haccepted, hprogress⟩ |
      ⟨t, hcode, hrest, hdesc, hdone, haccepted, hcomplete⟩
    · rw [hcode]
      exact h.proceed hrunning htransfer hdesc hdone haccepted hprogress
    · rw [hcode]
      have hevents := h.events
      rw [hrunning, if_pos rfl] at hevents
      refine ⟨fun hfalse => (by cases hfalse), fun _ => ⟨hrest.starting, hrest.txd, hrest.rxd,
        hrest.ready⟩, ?_, fun d hd => ?_⟩
      · show t.accepted = (t.done ++ [_]).map SpiDone.desc ++ []
        rw [haccepted, hevents, hdone, List.map_append, List.append_nil]
        exact congrArg (fun d => s.done.map SpiDone.desc ++ [d]) hdesc.symm
      · rcases List.mem_append.mp hd with hd | hd
        · exact h.complete d (hdone ▸ hd)
        · rw [List.mem_singleton.mp hd]
          exact hcomplete

/-- **Every accepted transfer is complete** when its event comes. -/
theorem transfers_of_reachable (h : (spiMachine orc).Reachable s) : Transfers orc s := by
  have hinv : SpiInv orc s := by
    refine h.invariant (I := SpiInv orc) ?_ fun s label hinv hen _ => hinv.step hen
    rintro s rfl
    exact ⟨fun hfalse => (by cases hfalse), fun _ => ⟨rfl, rfl, rfl, rfl⟩, rfl,
      fun d hd => absurd hd List.not_mem_nil⟩
  refine ⟨hinv.events, hinv.complete, fun hrunning => ?_, ?_, fun hrunning => ?_, fun hidle => ?_⟩
  · have htransfer := hinv.transfer hrunning
    have hprefix : s.desc.sent orc s.written <+: s.desc.sent orc s.desc.size :=
      s.desc.sent_prefix htransfer.written_le
    rw [← htransfer.line] at hprefix
    exact ⟨(List.prefix_append _ _).trans hprefix, htransfer.selected⟩
  · cases hprogress : s.transferInProgress with
    | true => exact (hinv.transfer hprogress).overrun
    | false =>
      obtain ⟨-, htxd, hrxd, -⟩ := hinv.rest hprogress
      rw [htxd, hrxd]
      exact ⟨Nat.zero_le _, Nat.zero_le _⟩
  · exact (hinv.transfer hrunning).alive
  · exact ⟨(hinv.rest hidle).txd, (hinv.rest hidle).ready⟩

end Runs

/-! ## §6 Two transfers -/

/-- Two bytes to send and three to receive, into a buffer of four. -/
def writeRead : SpiXferDesc := ⟨[1, 2], 2, [0, 0, 0, 9], 3, by decide, by decide⟩

/-- The first byte is shifted before the second one is written, a call in between is refused, and
    the transfer is complete with the third interrupt; the next one has begun. -/
theorem transfers_writeRead :
    Transfers 0xFF ((spiMachine 0xFF).run nrfDrvSpiInit
      [.xfer writeRead 0, .shift 5, .second, .xfer writeRead 0, .shift 6, .irq, .irq, .shift 7,
        .irq, .xfer writeRead 0]) :=
  transfers_of_reachable (.of_follows (.start rfl) (by decide +kernel))

end NordicEsb.Spi
