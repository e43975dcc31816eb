import NordicEsb.App.Box
import NordicEsb.App.Transfer

/-!
# The Box in its Setup Session

What the box does with a packet while it pairs devices: which acknowledgment it sends, and
what its event handler makes of the packet afterwards.

- `InSession`: between two packets the box listens, has read everything, and queues at most
  the record of one free slot.
- `InSession.answer`: an acknowledgment is empty or carries that record.
- `InSession.heard`: a packet keeps `InSession`, and `InSession.heard_infoGet`: a fresh
  `ID_PAIR_INFO_GET` takes the slot of the pending type.
-/

namespace NordicEsb

namespace Box

/-! ## §1 The event handler -/

/-- The collected events reach the handler of an initialised box. -/
theorem esbEvtIrq_eq {b : Box} {isPtx : Bool} (hinit : b.esb.esbInitialized = true)
    (hcfg : b.esb.configLocal = appEsbConfig isPtx) :
    b.esbEvtIrq = (b.esb.interruptFlags.events b.esb.lastTxAttempts).foldl nrfEsbEventHandler
      { b with esb := { b.esb with evtIrqPending := false, interruptFlags := .clear } } := by
  rw [esbEvtIrq, esbEvtIrqHandler_app hinit hcfg]

/-- Without an unread payload the handler does nothing. -/
theorem onRxReceived_of_empty {b : Box} (hrx : b.esb.rxFifo.count = 0) : b.onRxReceived = b := by
  unfold onRxReceived nrfEsbReadRxPayload
  cases b.esb.esbInitialized with
  | false => rfl
  | true =>
    simp only [Bool.not_true, Bool.false_eq_true, if_false, hrx, if_true]
    rfl

/-- **The oldest payload is read and the others are flushed.** -/
theorem onRxReceived_of_unread {b : Box} (hinit : b.esb.esbInitialized = true)
    (hrx : b.esb.rxFifo.count ≠ 0) :
    b.onRxReceived = onPayload
      { b with
        esb := { b.esb with rxFifo := b.esb.rxFifo.dropHead.clear, rxPipeInfo := default }
        rxPayload := copyRxPayload b.rxPayload b.esb.rxFifo.head } := by
  unfold onRxReceived nrfEsbReadRxPayload
  simp only [hinit, Bool.not_true, Bool.false_eq_true, if_false, hrx, if_true, Option.getD_some,
    callEsb, nrfEsbFlushRx]

/-! ## §2 Slots -/

/-- `g_ds` once the slot of the pending type `curType` is taken. -/
def takenData (ds : BoxData) (curType : UInt8) : BoxData :=
  if curType = devTypeDisplay ∧ ds.displaySlotIdx < maximumDisplayDev then
    { ds with displaySlotIdx := ds.displaySlotIdx + 1 }
  else if curType = devTypeController ∧ ds.controllerSlotIdx < maximumControllerDev then
    { ds with controllerSlotIdx := ds.controllerSlotIdx + 1 }
  else ds

theorem takeSlot_gDs (b : Box) : (takeSlot b).gDs = takenData b.gDs b.gCurPairingDevType := by
  unfold takeSlot takenData
  split
  · rfl
  · split <;> rfl

/-- A small counter does not wrap. -/
theorem toNat_add_one {n : UInt8} (h : n.toNat < 255) : (n + 1).toNat = n.toNat + 1 := by
  have hone : (1 : UInt8).toNat = 1 := rfl
  rw [UInt8.toNat_add, hone]
  omega

/-- The two counters after a slot was taken. -/
theorem takenData_cases (ds : BoxData) (curType : UInt8) :
    (curType = devTypeDisplay ∧ ds.displaySlotIdx.toNat < 4 ∧
        (takenData ds curType).displaySlotIdx.toNat = ds.displaySlotIdx.toNat + 1 ∧
        (takenData ds curType).controllerSlotIdx = ds.controllerSlotIdx) ∨
      (curType = devTypeController ∧ ds.controllerSlotIdx.toNat < 2 ∧
        (takenData ds curType).displaySlotIdx = ds.displaySlotIdx ∧
        (takenData ds curType).controllerSlotIdx.toNat = ds.controllerSlotIdx.toNat + 1) ∨
      takenData ds curType = ds := by
  unfold takenData
  split
  case isTrue h =>
    have hlt : ds.displaySlotIdx.toNat < 4 := UInt8.lt_iff_toNat_lt.mp h.2
    exact .inl ⟨h.1, hlt, toNat_add_one (by omega), rfl⟩
  case isFalse =>
    split
    case isTrue h =>
      have hlt : ds.controllerSlotIdx.toNat < 2 := UInt8.lt_iff_toNat_lt.mp h.2
      exact .inr (.inl ⟨h.1, hlt, rfl, toNat_add_one (by omega)⟩)
    case isFalse => exact .inr (.inr rfl)

/-- The counters stay within their tables. -/
structure SlotsValid (ds : BoxData) : Prop where
  display : ds.displaySlotIdx.toNat ≤ 4
  controller : ds.controllerSlotIdx.toNat ≤ 2

theorem SlotsValid.takenData {ds : BoxData} (h : SlotsValid ds) (curType : UInt8) :
    SlotsValid (Box.takenData ds curType) := by
  obtain ⟨hd, hc⟩ := h
  rcases takenData_cases ds curType with ⟨-, hlt, hd', hc'⟩ | ⟨-, hlt, hd', hc'⟩ | heq
  · exact ⟨by omega, by rwa [hc']⟩
  · exact ⟨by rwa [hd'], by omega⟩
  · rw [heq]
    exact ⟨hd, hc⟩

/-- The indices of the slots that are taken. -/
def spentIdx (ds : BoxData) : Set UInt8 :=
  {idx | 0 < idx.toNat ∧ idx.toNat ≤ ds.displaySlotIdx.toNat ∨
    4 < idx.toNat ∧ idx.toNat ≤ 4 + ds.controllerSlotIdx.toNat}

theorem spentIdx_takenData (ds : BoxData) (curType : UInt8) :
    spentIdx ds ⊆ spentIdx (takenData ds curType) := by
  intro idx hidx
  unfold spentIdx at hidx ⊢
  simp only [Set.mem_ofPred_eq] at hidx ⊢
  rcases takenData_cases ds curType with ⟨-, -, hd', hc'⟩ | ⟨-, -, hd', hc'⟩ | heq
  · rw [hd', hc']
    omega
  · rw [hd', hc']
    omega
  · rwa [heq]

/-- The next slot of type `devType` is free, and `idx` is its index. -/
inductive Offers (ds : BoxData) : UInt8 → UInt8 → Prop where
  | display {idx : UInt8} : ds.displaySlotIdx.toNat < 4 →
      idx.toNat = ds.displaySlotIdx.toNat + 1 → Offers ds devTypeDisplay idx
  | controller {idx : UInt8} : ds.controllerSlotIdx.toNat < 2 →
      idx.toNat = 4 + ds.controllerSlotIdx.toNat + 1 → Offers ds devTypeController idx

/-- **What `ID_PAIR_REQ` offers** is the next free slot of the type, or nothing. -/
theorem offer_cases (ds : BoxData) (devType : UInt8) :
    offer ds devType = (0, 0xff) ∨
      ∃ idx, offer ds devType = (devType, idx) ∧ idx ≠ 0xff ∧ Offers ds devType idx := by
  have hmax : (0xff : UInt8).toNat = 255 := rfl
  have hfour : (4 : UInt8).toNat = 4 := rfl
  unfold offer
  split
  case isTrue htype =>
    subst htype
    split
    case isTrue h =>
      have hlt : ds.displaySlotIdx.toNat < 4 := UInt8.lt_iff_toNat_lt.mp h
      have hadd : (ds.displaySlotIdx + 1).toNat = ds.displaySlotIdx.toNat + 1 :=
        toNat_add_one (by omega)
      refine .inr ⟨_, rfl, fun heq => ?_, .display hlt hadd⟩
      rw [heq] at hadd
      omega
    case isFalse => exact .inl rfl
  case isFalse =>
    split
    case isTrue htype =>
      subst htype
      split
      case isTrue h =>
        have hlt : ds.controllerSlotIdx.toNat < 2 := UInt8.lt_iff_toNat_lt.mp h
        have hbase : (maximumDisplayDev + ds.controllerSlotIdx).toNat =
            4 + ds.controllerSlotIdx.toNat := by
          rw [UInt8.toNat_add, hfour]
          omega
        have hadd : (maximumDisplayDev + ds.controllerSlotIdx + 1).toNat =
            4 + ds.controllerSlotIdx.toNat + 1 := by
          rw [toNat_add_one (by omega), hbase]
        refine .inr ⟨_, rfl, fun heq => ?_, .controller hlt hadd⟩
        rw [heq] at hadd
        omega
      case isFalse => exact .inl rfl
    case isFalse => exact .inl rfl

/-- **An index that is offered is not spent.** -/
theorem Offers.notMem_spentIdx {ds : BoxData} {devType idx : UInt8} (h : Offers ds devType idx)
    (hds : SlotsValid ds) : idx ∉ spentIdx ds := by
  have hd := hds.display
  intro hspent
  rcases hspent with ⟨h₁, h₂⟩ | ⟨h₁, h₂⟩
  · cases h <;> omega
  · cases h <;> omega

/-- **Taking the slot that is offered** spends its index. -/
theorem Offers.mem_spentIdx {ds : BoxData} {devType idx : UInt8} (h : Offers ds devType idx) :
    idx ∈ spentIdx (Box.takenData ds devType) := by
  unfold spentIdx
  simp only [Set.mem_ofPred_eq]
  cases h with
  | display hlt hidx =>
    have htaken : takenData ds devTypeDisplay =
        { ds with displaySlotIdx := ds.displaySlotIdx + 1 } :=
      if_pos ⟨rfl, UInt8.lt_iff_toNat_lt.mpr hlt⟩
    have hadd : (ds.displaySlotIdx + 1).toNat = ds.displaySlotIdx.toNat + 1 :=
      toNat_add_one (by omega)
    rw [htaken]
    left
    simp only [hadd]
    omega
  | controller hlt hidx =>
    have htaken : takenData ds devTypeController =
        { ds with controllerSlotIdx := ds.controllerSlotIdx + 1 } := by
      unfold takenData
      rw [if_neg (fun h => absurd h.1 (by decide)), if_pos ⟨rfl, UInt8.lt_iff_toNat_lt.mpr hlt⟩]
    have hadd : (ds.controllerSlotIdx + 1).toNat = ds.controllerSlotIdx.toNat + 1 :=
      toNat_add_one (by omega)
    rw [htaken]
    right
    simp only [hadd]
    omega

/-! ## §3 Between two packets -/

/-- The module of a box that listens, with everything read: its radio is in use, and only the
    first cell of its TX FIFO was ever written. -/
structure Listens (s : Esb) : Prop where
  initialized : s.esbInitialized = true
  config : s.configLocal = appEsbConfig false
  receives : Receives s
  busy : s.mainstate ≠ .idle
  rx : s.rxFifo.Represents []
  flags : s.interruptFlags = .clear
  cells : ∀ i, i ≠ 0 → (s.txFifo.slots.get i).length = 0

/-- `p` is the ACK payload that transports `info` to a device. -/
structure Carries (p : NrfEsbPayload) (info : PairInfo) : Prop where
  length : p.length = sizeofPairInfo
  pipe : p.pipe = 0
  bytes : p.data.firstN sizeofPairInfo.toNat = info.bytes

/-- The box holds the record `info` for the next free slot of type `devType`. -/
structure Holds (b : Box) (devType : UInt8) (info : PairInfo) : Prop where
  mode : b.gMode = .pairing
  offers : Offers b.gDs devType info.devIdx
  pending : b.gCurPairingDevType = devType ∨ b.gCurPairingDevType = 0
  exitPoint : b.esb.txFifo.exitPoint = 0
  entry : ∃ p, b.esb.txFifo.Represents [p] ∧ Carries p info

/-- **The box in its setup session**: it listens, and queues the record of one free slot or
    nothing. -/
structure InSession (b : Box) : Prop where
  esb : Listens b.esb
  slots : SlotsValid b.gDs
  queue : b.esb.txFifo.Represents [] ∨ ∃ devType info, Holds b devType info

/-- The ACK payload the box writes carries its record. -/
theorem carries_ofBytes (info : PairInfo) (pid : UInt8) :
    Carries { NrfEsbPayload.ofBytes 0 0 info.bytes with pid := pid } info where
  length := by
    simp only [NrfEsbPayload.ofBytes, PairInfo.length_bytes]
    rfl
  pipe := rfl
  bytes := by
    have hfits : info.bytes.length ≤ nrfEsbMaxPayloadLength := by
      rw [PairInfo.length_bytes]
      decide
    have hload := FixedArray.firstN_load (.replicate nrfEsbMaxPayloadLength 0) info.bytes hfits
    rwa [PairInfo.length_bytes] at hload

/-- The write of a listening box only queues: it changes the TX FIFO and a PID. -/
theorem Listens.write {s : Esb} (h : Listens s) (info : PairInfo) :
    (nrfEsbWritePayload (some (.ofBytes 0 0 info.bytes)) (nrfEsbFlushTx s).2).2 =
      enqueuePayload (.ofBytes 0 0 info.bytes) { s with txFifo := s.txFifo.clear } := by
  have hlen : (NrfEsbPayload.ofBytes 0 0 info.bytes).length = 8 :=
    (carries_ofBytes info 0).length
  have hcount : s.txFifo.clear.count = 0 := rfl
  have haccepted : writeAccepted { s with txFifo := s.txFifo.clear } (.ofBytes 0 0 info.bytes) =
      true := by
    simp [writeAccepted, payloadLengthValid, h.initialized, h.config, hlen, hcount, appEsbConfig,
      nrfEsbMaxPayloadLength]
  have hauto : autoStarts (enqueuePayload (.ofBytes 0 0 info.bytes)
      { s with txFifo := s.txFifo.clear }) = false := by
    have hcfg : (enqueuePayload (.ofBytes 0 0 info.bytes)
        { s with txFifo := s.txFifo.clear }).configLocal = appEsbConfig false := h.config
    simp [autoStarts, hcfg, appEsbConfig]
  rw [nrfEsbFlushTx_eq h.initialized, nrfEsbWritePayload_of_accepted haccepted, hauto]
  rfl

/-! ## §4 What the handler makes of a payload -/

/-- `ID_PAIR_REQ` without a free slot. -/
theorem onPairReq_of_none {b : Box} (h : offer b.gDs (b.rxPayload.data.get 1) = (0, 0xff)) :
    b.onPairReq = { b with gCurPairingDevType := 0 } := by
  unfold onPairReq
  rw [h]
  simp

/-- `ID_PAIR_REQ` with a free slot: its record replaces whatever was queued. -/
theorem onPairReq_of_offer {b : Box} (hesb : Listens b.esb) {devType idx : UInt8}
    (h : offer b.gDs (b.rxPayload.data.get 1) = (devType, idx)) (hidx : idx ≠ 0xff) :
    b.onPairReq =
      { b with
        gCurPairingDevType := devType
        esb := enqueuePayload (.ofBytes 0 0 (b.pairInfo idx).bytes)
          { b.esb with txFifo := b.esb.txFifo.clear } } := by
  have hwrite := hesb.write (b.pairInfo idx)
  unfold onPairReq
  rw [h]
  simp only [ne_eq, hidx, not_false_eq_true, if_true, callEsb]
  rw [← hwrite]
  rfl

theorem takeSlot_esb (b : Box) : (takeSlot b).esb = b.esb := by
  unfold takeSlot
  split
  · rfl
  · split <;> rfl

/-- **`ID_PAIR_INFO_GET`** empties the TX FIFO and takes the slot of the pending type. -/
theorem onPairInfoGet_spec {b : Box} (hinit : b.esb.esbInitialized = true) :
    b.onPairInfoGet.esb = { b.esb with txFifo := b.esb.txFifo.clear } ∧
      b.onPairInfoGet.gDs = takenData b.gDs b.gCurPairingDevType := by
  have hflush := nrfEsbFlushTx_eq hinit
  have hesb := takeSlot_esb (b.callEsb nrfEsbFlushTx)
  have hds := takeSlot_gDs (b.callEsb nrfEsbFlushTx)
  rw [callEsb, hflush] at hesb hds
  unfold onPairInfoGet
  rw [callEsb, hflush]
  dsimp only
  split <;> exact ⟨hesb, hds⟩

/-- A new TX FIFO, with its first cell written at most, keeps the box listening. -/
theorem Listens.with_txFifo {s : Esb} (h : Listens s) {fifo : TxFifo}
    {pids : FixedArray nrfEsbPipeCount UInt8}
    (hcells : ∀ i, i ≠ 0 → (fifo.slots.get i).length = 0) :
    Listens { s with txFifo := fifo, pids := pids } :=
  ⟨h.initialized, h.config, ⟨h.receives.mode, h.receives.protocol, h.receives.handler⟩, h.busy,
    h.rx, h.flags, hcells⟩

theorem InSession.onPairReq {b : Box} (h : InSession b) (hmode : b.gMode = .pairing) :
    InSession b.onPairReq := by
  rcases offer_cases b.gDs (b.rxPayload.data.get 1) with hnone | ⟨idx, hoffer, hidx, hoffers⟩
  · -- a record that is queued stays, but no type is pending any more
    rw [onPairReq_of_none hnone]
    refine ⟨h.esb, h.slots, h.queue.imp_right ?_⟩
    rintro ⟨devType, info, hholds⟩
    exact ⟨devType, info, hholds.mode, hholds.offers, .inr rfl, hholds.exitPoint, hholds.entry⟩
  · rw [onPairReq_of_offer h.esb hoffer hidx]
    have hcells : ∀ i, i ≠ 0 → ((b.esb.txFifo.clear.push
        { NrfEsbPayload.ofBytes 0 0 (b.pairInfo idx).bytes with
          pid := nextPid b.esb 0 }).slots.get i).length = 0 := by
      intro i hi
      have hother : (b.esb.txFifo.clear.push
          { NrfEsbPayload.ofBytes 0 0 (b.pairInfo idx).bytes with
            pid := nextPid b.esb 0 }).slots.get i = b.esb.txFifo.slots.get i :=
        FixedArray.get_set_ne _ _ hi
      rw [hother]
      exact h.esb.cells i hi
    have hempty : b.esb.txFifo.clear.count < nrfEsbTxFifoSize := Nat.zero_lt_succ 7
    have hfifo := (b.esb.txFifo.represents_clear (by decide)).push hempty
      { NrfEsbPayload.ofBytes 0 0 (b.pairInfo idx).bytes with pid := nextPid b.esb 0 }
    refine ⟨h.esb.with_txFifo hcells, h.slots,
      .inr ⟨b.rxPayload.data.get 1, b.pairInfo idx, ?_⟩⟩
    exact ⟨hmode, hoffers, .inl rfl, rfl, _, hfifo, carries_ofBytes _ _⟩

theorem InSession.onPairInfoGet {b : Box} (h : InSession b) : InSession b.onPairInfoGet := by
  obtain ⟨hesb, hds⟩ := onPairInfoGet_spec h.esb.initialized
  refine ⟨?_, ?_, .inl ?_⟩
  · rw [hesb]
    exact h.esb.with_txFifo h.esb.cells
  · rw [hds]
    exact h.slots.takenData _
  · rw [hesb]
    exact b.esb.txFifo.represents_clear (by decide)

/-- **No payload brings the box out of its session invariant.** -/
theorem InSession.onPayload {b : Box} (h : InSession b) : InSession b.onPayload := by
  unfold Box.onPayload
  split
  case isTrue hpairing =>
    split
    · exact h.onPairReq hpairing.1
    · split
      · exact h.onPairInfoGet
      · exact h
  case isFalse =>
    split
    case isTrue hnormal =>
      split
      · -- only the receive mask changes
        refine ⟨h.esb, h.slots, h.queue.imp_right ?_⟩
        rintro ⟨devType, info, hholds⟩
        exact absurd (hholds.mode.symm.trans hnormal) (by decide)
      · exact h
    case isFalse => exact h

/-- A payload leaves the counters alone, or takes the slot of the pending type. -/
theorem onPayload_gDs {b : Box} (hesb : Listens b.esb) :
    b.onPayload.gDs = b.gDs ∨ b.onPayload.gDs = takenData b.gDs b.gCurPairingDevType := by
  unfold Box.onPayload
  split
  · split
    · left
      rcases offer_cases b.gDs (b.rxPayload.data.get 1) with hnone | ⟨idx, hoffer, hidx, -⟩
      · rw [onPairReq_of_none hnone]
      · rw [onPairReq_of_offer hesb hoffer hidx]
    · split
      · exact .inr (onPairInfoGet_spec hesb.initialized).2
      · exact .inl rfl
  · left
    split
    · split <;> rfl
    · rfl

/-! ## §5 A packet and its acknowledgment -/

section

variable {b : Box} {pkt : AirPacket} {crc : UInt16}

/-- The module as the radio leaves it when `pkt` has come in. -/
abbrev latched (b : Box) (pkt : AirPacket) (crc : UInt16) : Esb :=
  (RadioEvent.received pkt crc).latch b.esb

/-- The acknowledgment of the packet carries the queued record. -/
def answersWithRecord (b : Box) (pkt : AirPacket) (crc : UInt16) : Bool :=
  acksDpl (latched b pkt crc) && ackPayloadMatches (latched b pkt crc) &&
    !ackPayloadDelivered (latched b pkt crc)

theorem radioIrq_esb (h : Listens b.esb) (hprx : b.esb.mainstate = .prx) :
    (b.radioIrq (.received pkt crc)).esb = onRadioDisabledRx (latched b pkt crc) :=
  radioIrqHandler_of_prx _ h.receives hprx

/-- A packet that matches the TX FIFO finds a record there. -/
theorem InSession.holds_of_matches (h : InSession b)
    (hm : ackPayloadMatches (latched b pkt crc) = true) : ∃ devType info, Holds b devType info := by
  rcases h.queue with hnil | hholds
  · have hcount : b.esb.txFifo.count = 0 := hnil.nil_iff.mpr rfl
    simp [ackPayloadMatches, hcount] at hm
  · exact hholds

/-- **The acknowledgment is empty or carries the record** that is queued. -/
theorem InSession.answer (h : InSession b) (hprx : b.esb.mainstate = .prx)
    (hsend : (b.radioIrq (.received pkt crc)).esb.mainstate = .prxSendAck) :
    if answersWithRecord b pkt crc then
      ∃ devType info, Holds b devType info ∧
        (b.radioIrq (.received pkt crc)).esb.txPayloadBuffer.byte0 = sizeofPairInfo ∧
        (b.radioIrq (.received pkt crc)).esb.txPayloadBuffer.data.firstN sizeofPairInfo.toNat =
          info.bytes
    else (b.radioIrq (.received pkt crc)).esb.txPayloadBuffer.byte0 = 0 := by
  rw [radioIrq_esb h.esb hprx] at hsend ⊢
  have hacks : acksDpl (latched b pkt crc) = true := by
    rw [onRadioDisabledRx_mainstate, latch_mainstate, hprx] at hsend
    have hdpl : (latched b pkt crc).configLocal.protocol = .esbDpl := by
      rw [latch_configLocal]
      exact h.esb.receives.protocol
    rw [acksDpl, hdpl]
    by_contra hno
    rw [if_neg (by simpa using hno)] at hsend
    cases hsend
  have hbuf := onRadioDisabledRx_ackBuffer hacks
  have hfifo := onRadioDisabledRx_txFifo (latched b pkt crc)
  unfold answersWithRecord
  rw [hacks, Bool.true_and] at hfifo ⊢
  cases hm : ackPayloadMatches (latched b pkt crc) with
  | false =>
    rw [hm, if_neg (by simp)] at hbuf
    simpa using hbuf
  | true =>
    obtain ⟨devType, info, hholds⟩ := h.holds_of_matches hm
    obtain ⟨p, hrep, hcarries⟩ := hholds.entry
    rw [hm, if_pos rfl] at hbuf
    cases hd : ackPayloadDelivered (latched b pkt crc) with
    | false =>
      rw [hd, if_neg (by simp), latch_txFifo] at hfifo
      rw [hfifo, hrep.head_cons] at hbuf
      obtain ⟨hbyte, hdata⟩ := hbuf
      rw [hcarries.length] at hbyte hdata
      exact ⟨devType, info, hholds, hbyte, hdata.trans hcarries.bytes⟩
    | true =>
      -- the record counts as delivered, and the cell behind it was never written
      rw [hd, if_pos rfl, latch_txFifo] at hfifo
      have hhead : (b.esb.txFifo.dropHead).head.length = 0 := by
        have hexit : b.esb.txFifo.dropHead.exitPoint = 1 := by
          rw [RingQueue.dropHead, hholds.exitPoint]
          rfl
        rw [RingQueue.head, hexit]
        exact h.esb.cells 1 (by decide)
      rw [hfifo] at hbuf
      exact hbuf.1.trans hhead

/-- The module once the packet is handled and its events are collected. -/
abbrev collected (b : Box) (pkt : AirPacket) (crc : UInt16) : Esb :=
  { onRadioDisabledRx (latched b pkt crc) with evtIrqPending := false, interruptFlags := .clear }

/-- It still listens, whatever becomes of the FIFOs afterwards. -/
theorem Listens.collected (h : Listens b.esb) (hprx : b.esb.mainstate = .prx) {tx : TxFifo}
    {rx : RxFifo} {pipes : FixedArray nrfEsbPipeCount PipeInfo} (hrx : rx.Represents [])
    (hcells : ∀ i, i ≠ 0 → (tx.slots.get i).length = 0) :
    Listens { Box.collected b pkt crc with txFifo := tx, rxFifo := rx, rxPipeInfo := pipes } := by
  have hframe := onRadioDisabledRx_frame (latched b pkt crc)
  have hlatch : Receives (latched b pkt crc) :=
    ⟨h.receives.mode, h.receives.protocol, h.receives.handler⟩
  obtain ⟨-, ⟨hhandler, -⟩ | ⟨-, hm⟩⟩ := hlatch.cases h.busy
  · have hreceives := onRadioDisabledRx_receives hlatch hhandler h.busy
    refine ⟨hframe.esbInitialized.trans h.initialized, hframe.configLocal.trans h.config,
      ⟨hreceives.mode, hreceives.protocol, hreceives.handler⟩, ?_, hrx, rfl, hcells⟩
    dsimp only
    rw [onRadioDisabledRx_mainstate, latch_mainstate, hprx]
    split <;> decide
  · rw [latch_mainstate, hprx] at hm
    cases hm

/-- A packet that is not too long is stored, unless it is taken for a retransmission. -/
theorem Listens.storesRx_eq (h : Listens b.esb) (crc : UInt16)
    (hlen : pkt.byte0.toNat ≤ nrfEsbMaxPayloadLength) :
    storesRx (latched b pkt crc) = !retransmitPayload (latched b pkt crc) := by
  have hcount : b.esb.rxFifo.count = 0 := h.rx.nil_iff.mpr rfl
  have hroom : b.esb.rxFifo.count < nrfEsbRxFifoSize := by
    rw [hcount]
    decide
  have hshort : ¬ pkt.byte0.toNat > nrfEsbMaxPayloadLength := by omega
  have hpush : rxPushAccepted (latched b pkt crc) = true := by
    rw [latched, latch_received]
    simp [rxPushAccepted, hcount, hshort]
  rw [storesRx, acceptsRx_received, decide_eq_true hroom, hpush, Bool.true_and, Bool.and_true]

/-- The session invariant sees the module, the slots and the pending type only. -/
theorem InSession.of_eq (h : InSession b) {b' : Box} (hs : Listens b'.esb)
    (hfifo : b'.esb.txFifo = b.esb.txFifo) (hds : b'.gDs = b.gDs) (hmode : b'.gMode = b.gMode)
    (hcur : b'.gCurPairingDevType = b.gCurPairingDevType) : InSession b' := by
  refine ⟨hs, hds ▸ h.slots, ?_⟩
  rcases h.queue with hnil | ⟨devType, info, hholds⟩
  · exact .inl (hfifo ▸ hnil)
  · obtain ⟨q, hrep, hcarries⟩ := hholds.entry
    exact .inr ⟨devType, info, hmode.trans hholds.mode, hds ▸ hholds.offers,
      hcur ▸ hholds.pending, (congrArg RingQueue.exitPoint hfifo).trans hholds.exitPoint, q,
      hfifo ▸ hrep, hcarries⟩

/-- TX success in setup mode: both FIFOs are flushed. -/
theorem onTxDone_of_pairing (hinit : b.esb.esbInitialized = true) (hmode : b.gMode = .pairing) :
    b.onTxDone = { b with esb := { b.esb with
      txFifo := b.esb.txFifo.clear, rxFifo := b.esb.rxFifo.clear, rxPipeInfo := default } } := by
  simp [onTxDone, callEsb, nrfEsbFlushRx, nrfEsbFlushTx, hinit, hmode]

/-- **A packet and its events**: the handler sees the packet if it was stored and no record
    was taken for delivered; the box of the session invariant stays one. -/
theorem InSession.heard_cases (h : InSession b) (hprx : b.esb.mainstate = .prx) (crc : UInt16)
    (hlen : pkt.byte0.toNat ≤ nrfEsbMaxPayloadLength) :
    ∃ b₁, InSession b₁ ∧ b₁.gDs = b.gDs ∧ b₁.gCurPairingDevType = b.gCurPairingDevType ∧
      b₁.gMode = b.gMode ∧
      (b₁.gDevsDataRecvMask = b.gDevsDataRecvMask ∧ b₁.gBeacon = b.gBeacon) ∧
      (if storesRx (latched b pkt crc) &&
          !(acksDpl (latched b pkt crc) && ackPayloadDelivered (latched b pkt crc)) then
        (b.radioIrq (.received pkt crc)).esbEvtIrq = b₁.onPayload ∧
          b₁.rxPayload = copyRxPayload b.rxPayload (receivedEntry (latched b pkt crc))
      else (b.radioIrq (.received pkt crc)).esbEvtIrq = b₁) := by
  have hframe := onRadioDisabledRx_frame (latched b pkt crc)
  have hinit := hframe.esbInitialized.trans h.esb.initialized
  have hirq : b.radioIrq (.received pkt crc) =
      { b with esb := onRadioDisabledRx (latched b pkt crc) } := by
    unfold radioIrq
    rw [radioIrqHandler_of_prx _ h.esb.receives hprx]
  have hclear : (latched b pkt crc).interruptFlags = .clear := h.esb.flags
  have hflags := onRadioDisabledRx_interruptFlags (latched b pkt crc)
  rw [hclear] at hflags
  have hevt := esbEvtIrq_eq (b := { b with esb := onRadioDisabledRx (latched b pkt crc) }) hinit
    (hframe.configLocal.trans h.esb.config)
  have htx := onRadioDisabledRx_txFifo (latched b pkt crc)
  have hrx := onRadioDisabledRx_rxFifo (latched b pkt crc)
  have hcells : ∀ i, i ≠ 0 → ((collected b pkt crc).txFifo.slots.get i).length = 0 := by
    intro i hi
    rw [show (collected b pkt crc).txFifo = (onRadioDisabledRx (latched b pkt crc)).txFifo from rfl,
      htx]
    split <;> exact h.esb.cells i hi
  rw [hirq, hevt]
  dsimp only
  rw [hflags]
  cases hst : storesRx (latched b pkt crc) with
  | false =>
    -- a retransmission: no event
    have hretransmit : retransmitPayload (latched b pkt crc) = true := by
      simpa [hst] using h.esb.storesRx_eq crc hlen
    have hdelivered : ackPayloadDelivered (latched b pkt crc) = false := by
      simp [ackPayloadDelivered, hretransmit]
    rw [hdelivered] at htx ⊢
    rw [Bool.and_false] at htx ⊢
    rw [hst, if_neg (by simp)] at hrx
    have hlistens : Listens (collected b pkt crc) := h.esb.collected hprx (hrx ▸ h.esb.rx) hcells
    exact ⟨{ b with esb := collected b pkt crc }, h.of_eq hlistens htx rfl rfl rfl, rfl, rfl, rfl,
      ⟨rfl, rfl⟩, rfl⟩
  | true =>
    rw [hst, if_pos rfl, latch_rxFifo] at hrx
    have hroom : b.esb.rxFifo.count < nrfEsbRxFifoSize := by
      rw [h.esb.rx.nil_iff.mpr rfl]
      decide
    have hunread : (onRadioDisabledRx (latched b pkt crc)).rxFifo.Represents
        [receivedEntry (latched b pkt crc)] := hrx ▸ h.esb.rx.push hroom _
    have hread : (onRadioDisabledRx (latched b pkt crc)).rxFifo.dropHead.clear.Represents [] :=
      RingQueue.represents_clear _ (by decide)
    cases hd : acksDpl (latched b pkt crc) && ackPayloadDelivered (latched b pkt crc) with
    | true =>
      -- TX success comes first, and its flush takes the packet away
      have hm : ackPayloadMatches (latched b pkt crc) = true := by
        simp only [ackPayloadDelivered, Bool.and_eq_true] at hd
        exact hd.2.1.1
      obtain ⟨devType, info, hholds⟩ := h.holds_of_matches hm
      have hdone := onTxDone_of_pairing (b := { b with esb := collected b pkt crc })
        hinit hholds.mode
      have hlistens : Listens { collected b pkt crc with
          txFifo := (collected b pkt crc).txFifo.clear
          rxFifo := (collected b pkt crc).rxFifo.clear
          rxPipeInfo := default } :=
        h.esb.collected hprx (RingQueue.represents_clear _ (by decide)) hcells
      have hempty : (collected b pkt crc).txFifo.clear.Represents [] :=
        RingQueue.represents_clear _ (by decide)
      refine ⟨{ b with esb := _ }, ⟨hlistens, h.slots, .inl hempty⟩, rfl, rfl, rfl, ⟨rfl, rfl⟩, ?_⟩
      simp only [Bool.true_and, Bool.not_true, Bool.false_eq_true, if_false]
      change onRxReceived (onTxDone _) = _
      rw [hdone]
      exact onRxReceived_of_empty rfl
    | false =>
      rw [hd, if_neg (by simp), latch_txFifo] at htx
      have hcount : (onRadioDisabledRx (latched b pkt crc)).rxFifo.count ≠ 0 := by
        have := hunread.pos_iff.mpr (by simp)
        omega
      have hlistens : Listens { collected b pkt crc with
          rxFifo := (collected b pkt crc).rxFifo.dropHead.clear
          rxPipeInfo := default } := h.esb.collected hprx hread hcells
      refine ⟨{ b with
          esb := { collected b pkt crc with
            rxFifo := (collected b pkt crc).rxFifo.dropHead.clear
            rxPipeInfo := default }
          rxPayload := copyRxPayload b.rxPayload (collected b pkt crc).rxFifo.head },
        h.of_eq hlistens htx rfl rfl rfl, rfl, rfl, rfl, ⟨rfl, rfl⟩, ?_⟩
      simp only [Bool.true_and, Bool.not_false, if_true]
      refine ⟨?_, congrArg (copyRxPayload b.rxPayload) hunread.head_cons⟩
      change onRxReceived _ = _
      rw [onRxReceived_of_unread hinit hcount]

/-- **A packet leaves the box in its session.** -/
theorem InSession.heard (h : InSession b) (hprx : b.esb.mainstate = .prx)
    (hlen : pkt.byte0.toNat ≤ nrfEsbMaxPayloadLength) :
    InSession (b.radioIrq (.received pkt crc)).esbEvtIrq := by
  obtain ⟨b₁, hb₁, -, -, -, -, hevt⟩ := h.heard_cases hprx crc hlen
  split at hevt
  · rw [hevt.1]
    exact hb₁.onPayload
  · rwa [hevt]

/-- It leaves the slots alone, or takes the one of the pending type. -/
theorem InSession.heard_gDs (h : InSession b) (hprx : b.esb.mainstate = .prx)
    (hlen : pkt.byte0.toNat ≤ nrfEsbMaxPayloadLength) :
    (b.radioIrq (.received pkt crc)).esbEvtIrq.gDs = b.gDs ∨
      (b.radioIrq (.received pkt crc)).esbEvtIrq.gDs = takenData b.gDs b.gCurPairingDevType := by
  obtain ⟨b₁, hb₁, hds, hcur, -, -, hevt⟩ := h.heard_cases hprx crc hlen
  split at hevt
  · rw [hevt.1, ← hds, ← hcur]
    exact onPayload_gDs hb₁.esb
  · rw [hevt]
    exact .inl hds

end

/-- The packet is an `ID_PAIR_INFO_GET` request. -/
def isInfoGet (pkt : AirPacket) : Bool := pkt.byte0 == 2 && pkt.data.head? == some idPairInfoGet

section

variable {b : Box} {pkt : AirPacket} {crc : UInt16}

/-- The first byte of a stored packet. -/
theorem receivedEntry_infoGet (crc : UInt16) (hdpl : b.esb.configLocal.protocol = .esbDpl)
    (hget : isInfoGet pkt = true) (dst : NrfEsbPayload) :
    (copyRxPayload dst (receivedEntry (latched b pkt crc))).length = 2 ∧
      (copyRxPayload dst (receivedEntry (latched b pkt crc))).data.get 0 = idPairInfoGet := by
  simp only [isInfoGet, Bool.and_eq_true, beq_iff_eq] at hget
  obtain ⟨hbyte, hhead⟩ := hget
  have hlength : rxPushLength (latched b pkt crc) = 2 := by
    rw [latched, latch_received]
    simp [rxPushLength, hdpl, hbyte]
  refine ⟨hlength, ?_⟩
  cases hdata : pkt.data with
  | nil =>
    rw [hdata] at hhead
    cases hhead
  | cons x rest =>
    rw [hdata, List.head?_cons, Option.some_inj] at hhead
    subst hhead
    have hload : (latched b pkt crc).rxPayloadBuffer.data.get 0 = idPairInfoGet := by
      rw [latched, latch_received, hdata]
      rfl
    simp only [copyRxPayload, receivedEntry, rxPushEntry, hlength]
    exact hload

/-- **A fresh `ID_PAIR_INFO_GET` that is answered with the record takes the slot** of the
    pending type. -/
theorem InSession.heard_infoGet (h : InSession b) (hprx : b.esb.mainstate = .prx)
    (hget : isInfoGet pkt = true) (hnew : retransmitPayload (latched b pkt crc) = false)
    (hrecord : answersWithRecord b pkt crc = true) :
    (b.radioIrq (.received pkt crc)).esbEvtIrq.gDs = takenData b.gDs b.gCurPairingDevType := by
  have hlen : pkt.byte0.toNat ≤ nrfEsbMaxPayloadLength := by
    simp only [isInfoGet, Bool.and_eq_true, beq_iff_eq] at hget
    rw [hget.1]
    decide
  simp only [answersWithRecord, Bool.and_eq_true, Bool.not_eq_true'] at hrecord
  obtain ⟨⟨-, hm⟩, hd⟩ := hrecord
  obtain ⟨devType, info, hholds⟩ := h.holds_of_matches hm
  obtain ⟨b₁, hb₁, hds, hcur, hmode, -, hevt⟩ := h.heard_cases hprx crc hlen
  rw [h.esb.storesRx_eq crc hlen, hnew, hd, Bool.and_false, if_pos (by simp)] at hevt
  obtain ⟨hevt, hpayload⟩ := hevt
  obtain ⟨htwo, hid⟩ := receivedEntry_infoGet crc h.esb.receives.protocol hget b.rxPayload
  rw [← hpayload] at htwo hid
  have hbranch : b₁.onPayload = b₁.onPairInfoGet := by
    unfold Box.onPayload
    rw [if_pos ⟨hmode.trans hholds.mode, htwo⟩, hid, if_neg (by decide), if_pos rfl]
  rw [hevt, hbranch, ← hds, ← hcur]
  exact (onPairInfoGet_spec hb₁.esb.initialized).2

end

/-! ## §6 The other steps -/

/-- The acknowledgment is out. -/
def finishAnswer (b : Box) : Box :=
  if b.esb.mainstate = .prxSendAck then b.radioIrq .silent else b

/-- The box listens again. -/
theorem InSession.finishAnswer {b : Box} (h : InSession b) :
    InSession b.finishAnswer ∧ b.finishAnswer.esb.mainstate = .prx ∧
      b.finishAnswer.gDs = b.gDs := by
  unfold Box.finishAnswer
  split
  case isTrue hsend =>
    have hirq : radioIrqHandler .silent b.esb =
        onRadioDisabledRxAck (RadioEvent.silent.latch b.esb) := by
      rcases radioIrqHandler_cases .silent h.esb.receives h.esb.busy with ⟨hh, -⟩ | ⟨-, heq⟩
      · obtain ⟨-, ⟨-, hm⟩ | ⟨hh', -⟩⟩ := h.esb.receives.cases h.esb.busy
        · rw [hsend] at hm
          cases hm
        · rw [latch_onRadioDisabled, hh'] at hh
          cases hh
      · exact heq
    have hinten := (h.esb.receives.cases h.esb.busy).1
    have hlistens : Listens (onRadioDisabledRxAck (RadioEvent.silent.latch b.esb)) :=
      ⟨h.esb.initialized, h.esb.config,
        ⟨h.esb.receives.mode, h.esb.receives.protocol, rfl, hinten⟩, nofun, h.esb.rx,
        h.esb.flags, h.esb.cells⟩
    rw [radioIrq, hirq]
    exact ⟨h.of_eq hlistens rfl rfl rfl rfl, rfl, rfl⟩
  case isFalse hsend =>
    obtain ⟨-, ⟨-, hm⟩ | ⟨-, hm⟩⟩ := h.esb.receives.cases h.esb.busy
    · exact ⟨h, hm, rfl⟩
    · exact absurd hm hsend

/-- **The interval timer hops to the next pairing channel.** -/
theorem InSession.tick {b : Box} (h : InSession b) (hprx : b.esb.mainstate = .prx)
    (hmode : b.gMode = .pairing) :
    InSession b.intervalTimerEventHandler ∧
      b.intervalTimerEventHandler.esb.mainstate = .prx ∧
      b.intervalTimerEventHandler.gDs = b.gDs := by
  have hstop : stopRxWaitIdle b.esb = { b.esb with
      onRadioDisabled := none
      mainstate := .idle
      radio := { b.esb.radio with
        disabledShort := .none, intensetDisabled := false, task := .disable } } := by
    simp [stopRxWaitIdle, nrfEsbIsIdle, nrfEsbStopRx, hprx]
  obtain ⟨addr, haddr⟩ := nrfEsbSetRfChannel_idle (s := stopRxWaitIdle b.esb) (by rw [hstop])
    (b.gaChlist.get (nextChIdx b.gCurChIdx).toNat)
  have hesb : b.intervalTimerEventHandler.esb =
      (nrfEsbStartRx { stopRxWaitIdle b.esb with esbAddr := addr }).2 := by
    unfold intervalTimerEventHandler
    simp only [hopChannel, checkEsb, hmode, callEsb, haddr]
  rw [hstop] at hesb
  have hrest : b.intervalTimerEventHandler.gDs = b.gDs ∧
      b.intervalTimerEventHandler.gMode = b.gMode ∧
      b.intervalTimerEventHandler.gCurPairingDevType = b.gCurPairingDevType := by
    unfold intervalTimerEventHandler
    simp only [hopChannel, checkEsb, hmode, callEsb, and_self]
  obtain ⟨hds, hmode', hcur⟩ := hrest
  refine ⟨h.of_eq ?_ ?_ hds hmode' hcur, ?_, hds⟩
  · rw [hesb]
    exact ⟨h.esb.initialized, h.esb.config, ⟨h.esb.receives.mode, h.esb.receives.protocol, rfl, rfl⟩,
      fun hidle => (by cases hidle), h.esb.rx, h.esb.flags, h.esb.cells⟩
  · rw [hesb]
    rfl
  · rw [hesb]
    rfl

/-! ## §7 Entering the session -/

/-- **`enter_setup_mode` starts a session**, whatever state the module is in, as long as only
    the first cell of its TX FIFO was ever written. -/
theorem inSession_enterSetupMode (picked : ChannelList) (b : Box)
    (hcells : ∀ i, i ≠ 0 → (b.esb.txFifo.slots.get i).length = 0) :
    InSession (enterSetupMode picked b) ∧ (enterSetupMode picked b).esb.mainstate = .prx := by
  obtain ⟨hidle, hblank, -, hfifo⟩ := nrfEsbInit_app false (nrfEsbDisable b.esb)
  obtain ⟨addr, haddr⟩ := nrfEsbSetRfChannel_idle hidle.mainstate
    (defaultPairingChannelList.get 0)
  have hesb : (enterSetupMode picked b).esb = (nrfEsbStartRx
      { (nrfEsbInit (some (appEsbConfig false)) (nrfEsbDisable b.esb)).2 with
        esbAddr := addr }).2 := by
    rw [← haddr]
    rfl
  have hlistens : Listens (enterSetupMode picked b).esb := by
    rw [hesb]
    refine ⟨hidle.initialized, hidle.config, ⟨?_, ?_, rfl, rfl⟩, nofun, hblank.rx, hblank.flags, ?_⟩
    · exact congrArg NrfEsbConfig.mode hidle.config
    · exact congrArg NrfEsbConfig.protocol hidle.config
    · intro i hi
      have hslots : (nrfEsbStartRx
          { (nrfEsbInit (some (appEsbConfig false)) (nrfEsbDisable b.esb)).2 with
            esbAddr := addr }).2.txFifo = (nrfEsbDisable b.esb).txFifo.clear := hfifo
      rw [hslots]
      exact hcells i hi
  refine ⟨⟨hlistens, ⟨?_, ?_⟩, .inl ?_⟩, ?_⟩
  · exact Nat.zero_le 4
  · exact Nat.zero_le 2
  · rw [hesb]
    exact hblank.tx
  · rw [hesb]
    rfl

/-- **A box that boots into its setup session.** -/
theorem inSession_main {chipId : FixedArray 4 UInt8} {flash : BoxData} {button : Bool}
    {picked : ChannelList} (h : (main chipId flash button picked).gMode = .pairing) :
    InSession (main chipId flash button picked) ∧
      (main chipId flash button picked).esb.mainstate = .prx := by
  have hcases : (∃ b : Box, b.esb.txFifo = Esb.reset.txFifo ∧
      main chipId flash button picked = enterSetupMode picked b) ∨
      (main chipId flash button picked).gMode = .normal := by
    unfold main
    dsimp only
    split
    · exact .inl ⟨_, rfl, rfl⟩
    · split
      · exact .inl ⟨_, rfl, rfl⟩
      · split
        · exact .inl ⟨_, rfl, rfl⟩
        · exact .inr rfl
  rcases hcases with ⟨b, hfifo, hmain⟩ | hnormal
  · rw [hmain]
    apply inSession_enterSetupMode
    intro i _
    rw [hfifo, show Esb.reset.txFifo.slots = default from rfl, FixedArray.get_default]
    rfl
  · rw [hnormal] at h
    cases h

end Box

end NordicEsb
