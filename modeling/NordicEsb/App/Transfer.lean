import NordicEsb.App.Config
import NordicEsb.Link.Packet

/-!
# How the Programs Use the Module

Both programs initialise their ESB module anew for each direction, flush the TX FIFO before
they write, and never ask for a retransmission. So there is one payload in a transaction, and
its single attempt ends in one of two ways.

- `Idle.write`: writing to a resting transmitter starts the transaction of that payload.
- `Transmits.sentBy`, `Transmits.missedBy`, `Transmits.ackedBy`: how it ends, for any event of
  the radio; `sent`, `missed` and `acked` are the undisturbed cases.
- `esbEvtIrqHandler_app`: the events that reach the program's handler.
-/

namespace NordicEsb

/-! ## §1 Initialised and at rest -/

/-- The module is initialised as transmitter or receiver, and rests. -/
structure Idle (isPtx : Bool) (s : Esb) : Prop where
  initialized : s.esbInitialized = true
  config : s.configLocal = appEsbConfig isPtx
  mainstate : s.mainstate = .idle

/-- Nothing is queued or collected: the state `nrf_esb_init` leaves. -/
structure Blank (s : Esb) : Prop where
  tx : s.txFifo.Represents []
  rx : s.rxFifo.Represents []
  flags : s.interruptFlags = .clear
  pipes : s.rxPipeInfo = default

/-- **`nrf_esb_init` leaves a resting module with nothing in it.** -/
theorem nrfEsbInit_app (isPtx : Bool) (s : Esb) :
    Idle isPtx (nrfEsbInit (some (appEsbConfig isPtx)) s).2 ∧
      Blank (nrfEsbInit (some (appEsbConfig isPtx)) s).2 ∧
      (nrfEsbInit (some (appEsbConfig isPtx)) s).1 = .success ∧
      (nrfEsbInit (some (appEsbConfig isPtx)) s).2.txFifo = s.txFifo.clear := by
  have htx := nrfEsbInit_txFifo (appEsbConfig isPtx) s
  have hrx : (nrfEsbInit (some (appEsbConfig isPtx)) s).2.rxFifo = s.rxFifo.clear := by
    unfold nrfEsbInit
    dsimp only
    split <;> rfl
  refine ⟨⟨rfl, nrfEsbInit_configLocal _ s, rfl⟩, ⟨?_, ?_, rfl, rfl⟩, rfl, htx⟩
  · rw [htx]
    exact s.txFifo.represents_clear (by decide)
  · rw [hrx]
    exact s.rxFifo.represents_clear (by decide)

/-- `nrf_esb_flush_tx` of an initialised module. -/
theorem nrfEsbFlushTx_eq {s : Esb} (hinit : s.esbInitialized = true) :
    nrfEsbFlushTx s = (.success, { s with txFifo := s.txFifo.clear }) := by
  unfold nrfEsbFlushTx
  rw [if_neg (by simp [hinit])]

/-- `nrf_esb_flush_rx` of an initialised module. -/
theorem nrfEsbFlushRx_eq {s : Esb} (hinit : s.esbInitialized = true) :
    nrfEsbFlushRx s = (.success, { s with rxFifo := s.rxFifo.clear, rxPipeInfo := default }) := by
  unfold nrfEsbFlushRx
  rw [if_neg (by simp [hinit])]

/-- A resting module takes a channel below 126, and keeps everything else. -/
theorem nrfEsbSetRfChannel_idle {s : Esb} (h : s.mainstate = .idle) (channel : UInt8) :
    ∃ addr, (nrfEsbSetRfChannel channel.toUInt32 s).2 = { s with esbAddr := addr } := by
  unfold nrfEsbSetRfChannel
  rw [if_neg (by simp [h])]
  split <;> exact ⟨_, rfl⟩

/-! ## §2 A transaction with one payload -/

/-- The module is in main state `m` of the transaction of its only payload `p`. -/
structure Transmits (s : Esb) (m : NrfEsbMainstate) (p : NrfEsbPayload) : Prop where
  initialized : s.esbInitialized = true
  config : s.configLocal = appEsbConfig true
  mainstate : s.mainstate = m
  handler : TxHandlerMatches s
  inten : s.radio.intensetDisabled = true
  fifo : s.txFifo.Represents [p]
  /-- There is no second attempt. -/
  attempts : m ≠ .ptxTx → s.retransmitsRemaining = 0
  air : airPacket s = packetOf (appEsbConfig true) p

/-- The main state in which a payload is sent. -/
def sendingState (p : NrfEsbPayload) : NrfEsbMainstate :=
  if wantsAck (appEsbConfig true) p then .ptxTxAck else .ptxTx

/-- `nrf_esb_flush_tx` and `nrf_esb_write_payload`. -/
def flushWrite (p : NrfEsbPayload) (s : Esb) : Esb :=
  (nrfEsbWritePayload (some p) (nrfEsbFlushTx s).2).2

/-- The checks of a write, for a transmitter of the programs. -/
theorem Idle.writeAccepted {s : Esb} (h : Idle true s) (htx : s.txFifo.Represents [])
    {p : NrfEsbPayload} (hlen : 0 < p.length.toNat ∧ p.length.toNat ≤ nrfEsbMaxPayloadLength) :
    NordicEsb.writeAccepted s p = true := by
  have hne : p.length ≠ 0 := by
    rintro hp
    rw [hp] at hlen
    exact absurd hlen.1 (by decide)
  have hcount : s.txFifo.count = 0 := htx.nil_iff.mpr rfl
  simp [NordicEsb.writeAccepted, payloadLengthValid, h.initialized, h.config, hcount, hne,
    hlen.2, appEsbConfig]

/-- **A payload written to a resting transmitter goes out at once.** -/
theorem Idle.write {s : Esb} (h : Idle true s) (htx : s.txFifo.Represents []) {p : NrfEsbPayload}
    (hlen : 0 < p.length.toNat ∧ p.length.toNat ≤ nrfEsbMaxPayloadLength) :
    Transmits (nrfEsbWritePayload (some p) s).2 (sendingState p)
        { p with pid := nextPid s p.pipe } ∧
      (nrfEsbWritePayload (some p) s).2.rxFifo = s.rxFifo ∧
      (nrfEsbWritePayload (some p) s).2.interruptFlags = s.interruptFlags := by
  have hauto : autoStarts (enqueuePayload p s) = true := by
    have hc : (enqueuePayload p s).configLocal = appEsbConfig true := h.config
    have hm : (enqueuePayload p s).mainstate = .idle := h.mainstate
    simp [autoStarts, hc, hm, appEsbConfig, nrfEsbDefaultConfig]
  rw [nrfEsbWritePayload_of_accepted (h.writeAccepted htx hlen), hauto, if_pos rfl]
  have hfifo : (enqueuePayload p s).txFifo.Represents [{ p with pid := nextPid s p.pipe }] :=
    htx.push (by rw [htx.count_eq]; decide) _
  have hhead := hfifo.head_cons
  have hcfg : (enqueuePayload p s).configLocal = appEsbConfig true := h.config
  have hwants : wantsAck (appEsbConfig true) { p with pid := nextPid s p.pipe } =
      wantsAck (appEsbConfig true) p := rfl
  refine ⟨⟨h.initialized, hcfg, ?_, startTxTransaction_txHandlerMatches _, rfl, hfifo, ?_, ?_⟩,
    rfl, rfl⟩
  · have hstate : (startTxTransaction (enqueuePayload p s)).mainstate =
        if wantsAck (enqueuePayload p s).configLocal (enqueuePayload p s).txFifo.head then
          .ptxTxAck else .ptxTx := rfl
    rw [hstate, hhead, hcfg, hwants]
    rfl
  · intro hm
    have hrem : (startTxTransaction (enqueuePayload p s)).retransmitsRemaining =
        if wantsAck (enqueuePayload p s).configLocal (enqueuePayload p s).txFifo.head then
          (enqueuePayload p s).configLocal.retransmitCount.toUInt32
        else (enqueuePayload p s).retransmitsRemaining := rfl
    have hack : wantsAck (appEsbConfig true) p = true := by
      by_contra hno
      exact hm (by simp [sendingState, hno])
    rw [hrem, hhead, hcfg, hwants, if_pos hack]
    rfl
  · rw [← hcfg]
    refine @airPacket_eq_packetOf _ _ s.txPayloadBuffer ?_ ?_ ?_
    · rw [startTxTransaction_configLocal, hcfg]
      rfl
    · rw [startTxTransaction_txaddress, hhead]
    · rw [startTxTransaction_txPayloadBuffer, startTxTransaction_configLocal, hhead]
      rfl

/-- **Flushing and writing** starts a transaction, whatever was queued. -/
theorem Idle.flushWrite {s : Esb} (h : Idle true s) {p : NrfEsbPayload}
    (hlen : 0 < p.length.toNat ∧ p.length.toNat ≤ nrfEsbMaxPayloadLength) :
    Transmits (NordicEsb.flushWrite p s) (sendingState p)
        { p with pid := nextPid s p.pipe } ∧
      (NordicEsb.flushWrite p s).rxFifo = s.rxFifo ∧
      (NordicEsb.flushWrite p s).interruptFlags = s.interruptFlags := by
  unfold NordicEsb.flushWrite
  rw [nrfEsbFlushTx_eq h.initialized]
  have hidle : Idle true { s with txFifo := s.txFifo.clear } :=
    ⟨h.initialized, h.config, h.mainstate⟩
  exact hidle.write (s.txFifo.represents_clear (by decide)) hlen

/-- Collecting the events leaves a transaction alone. -/
theorem Transmits.collect {s : Esb} {m : NrfEsbMainstate} {p : NrfEsbPayload}
    (h : Transmits s m p) :
    Transmits { s with evtIrqPending := false, interruptFlags := .clear } m p :=
  ⟨h.initialized, h.config, h.mainstate, h.handler, h.inten, h.fifo, h.attempts, h.air⟩

/-! ## §3 How the transaction ends -/

/-- The handler that runs when DISABLED fires. -/
theorem Transmits.radioIrqHandler {s : Esb} {m : NrfEsbMainstate} {p : NrfEsbPayload}
    (h : Transmits s m p) (ev : RadioEvent) :
    NordicEsb.radioIrqHandler ev s = callOnRadioDisabled (ev.latch s) := by
  rw [radioIrqHandler_eq, latch_intensetDisabled, h.inten, if_pos rfl]

/-- Removing the only payload leaves nothing. -/
theorem txFifoRemoveLast_represents {s : Esb} {p : NrfEsbPayload}
    (h : s.txFifo.Represents [p]) : (txFifoRemoveLast s).txFifo.Represents [] := by
  have hpos : 0 < s.txFifo.count := h.pos_iff.mpr (by simp)
  have hfifo : (txFifoRemoveLast s).txFifo = s.txFifo.dropHead := if_pos hpos
  rw [hfifo]
  exact h.dropHead hpos

section

variable {s : Esb} {p : NrfEsbPayload}

/-- **The packet is out** and the acknowledgment window opens, whatever the receive buffer holds. -/
theorem Transmits.sentBy (h : Transmits s .ptxTxAck p) (ev : RadioEvent) :
    Transmits (NordicEsb.radioIrqHandler ev s) .ptxRxAck p ∧
      (NordicEsb.radioIrqHandler ev s).rxFifo = s.rxFifo ∧
      (NordicEsb.radioIrqHandler ev s).interruptFlags = s.interruptFlags := by
  have hh : s.onRadioDisabled = some .tx := by simpa [TxHandlerMatches, h.mainstate] using h.handler
  have hirq : NordicEsb.radioIrqHandler ev s = onRadioDisabledTx (ev.latch s) := by
    rw [h.radioIrqHandler, callOnRadioDisabled, latch_onRadioDisabled, hh]
  have hair : airPacket (onRadioDisabledTx (ev.latch s)) = airPacket s := by
    unfold RadioEvent.latch
    split <;> rfl
  have hremaining : (ev.latch s).retransmitsRemaining = s.retransmitsRemaining := by
    obtain ⟨r, b, heq⟩ := latch_eq ev s
    rw [heq]
  rw [hirq]
  refine ⟨⟨?_, ?_, rfl, rfl, ?_, ?_, fun _ => ?_, hair.trans h.air⟩, ?_, ?_⟩
  · exact (latch_esbInitialized ev s).trans h.initialized
  · exact (latch_configLocal ev s).trans h.config
  · exact (latch_intensetDisabled ev s).trans h.inten
  · rw [onRadioDisabledTx_txFifo, latch_txFifo]
    exact h.fifo
  · exact hremaining.trans (h.attempts (by simp))
  · exact latch_rxFifo ev s
  · exact latch_interruptFlags ev s

theorem Transmits.sent (h : Transmits s .ptxTxAck p) :
    Transmits (NordicEsb.radioIrqHandler .silent s) .ptxRxAck p ∧
      (NordicEsb.radioIrqHandler .silent s).rxFifo = s.rxFifo ∧
      (NordicEsb.radioIrqHandler .silent s).interruptFlags = s.interruptFlags := h.sentBy .silent

/-- **A packet without acknowledgment** is done when it is out. -/
theorem Transmits.done (h : Transmits s .ptxTx p) :
    Idle true (NordicEsb.radioIrqHandler .silent s) ∧
      (NordicEsb.radioIrqHandler .silent s).txFifo.Represents [] ∧
      (NordicEsb.radioIrqHandler .silent s).rxFifo = s.rxFifo ∧
      (NordicEsb.radioIrqHandler .silent s).interruptFlags =
        { s.interruptFlags with txSuccess := true } := by
  have hh : s.onRadioDisabled = some .txNoack := by
    simpa [TxHandlerMatches, h.mainstate] using h.handler
  have hdrop : (txFifoRemoveLast (raiseTxSuccess (RadioEvent.silent.latch s))).txFifo.Represents
      [] := txFifoRemoveLast_represents h.fifo
  have hirq : NordicEsb.radioIrqHandler .silent s =
      finishTx (txFifoRemoveLast (raiseTxSuccess (RadioEvent.silent.latch s))) := by
    rw [h.radioIrqHandler, callOnRadioDisabled, latch_onRadioDisabled, hh]
    exact if_pos (hdrop.nil_iff.mpr rfl)
  rw [hirq]
  exact ⟨⟨h.initialized, h.config, rfl⟩, hdrop, rfl, rfl⟩

/-- An acknowledgment came in without a CRC error. -/
def acks (ev : RadioEvent) : Bool := ev.packet.isSome && ev.crcOk

theorem latch_acks (ev : RadioEvent) (s : Esb) :
    ((ev.latch s).radio.eventsEnd && (ev.latch s).radio.crcstatus) = acks ev := by
  unfold RadioEvent.latch acks
  cases ev.packet <;> rfl

/-- **No acknowledgment**: the payload stays queued, and the transaction has failed. -/
theorem Transmits.missedBy (h : Transmits s .ptxRxAck p) {ev : RadioEvent} (hno : acks ev = false) :
    Idle true (NordicEsb.radioIrqHandler ev s) ∧
      (NordicEsb.radioIrqHandler ev s).evtIrqPending = true ∧
      (NordicEsb.radioIrqHandler ev s).rxFifo = s.rxFifo ∧
      (NordicEsb.radioIrqHandler ev s).interruptFlags =
        { s.interruptFlags with txFailed := true } := by
  have hh : s.onRadioDisabled = some .txWaitForAck := by
    simpa [TxHandlerMatches, h.mainstate] using h.handler
  obtain ⟨t, ht⟩ : ∃ t, t = ev.latch s := ⟨_, rfl⟩
  have hrem : t.retransmitsRemaining = 0 := by
    obtain ⟨r, b, heq⟩ := latch_eq ev s
    rw [ht, heq]
    exact h.attempts (by simp)
  have hirq : ∃ s₁, NordicEsb.radioIrqHandler ev s = suspendTx s₁ ∧
      s₁.esbInitialized = t.esbInitialized ∧ s₁.configLocal = t.configLocal ∧
      s₁.rxFifo = t.rxFifo ∧ s₁.interruptFlags = t.interruptFlags := by
    rw [h.radioIrqHandler, callOnRadioDisabled, latch_onRadioDisabled, hh]
    simp only [onRadioDisabledTxWaitForAck]
    rw [latch_acks, hno, if_neg (by simp), ← ht]
    exact ⟨_, if_pos hrem, rfl, rfl, rfl, rfl⟩
  obtain ⟨s₁, hirq, hinit, hcfg, hrx, hflags⟩ := hirq
  rw [hirq]
  rw [ht, latch_esbInitialized] at hinit
  rw [ht, latch_configLocal] at hcfg
  rw [ht, latch_rxFifo] at hrx
  rw [ht, latch_interruptFlags] at hflags
  refine ⟨⟨hinit.trans h.initialized, hcfg.trans h.config, rfl⟩, rfl, hrx, ?_⟩
  rw [← hflags]
  rfl

theorem Transmits.missed (h : Transmits s .ptxRxAck p) :
    Idle true (NordicEsb.radioIrqHandler .silent s) ∧
      (NordicEsb.radioIrqHandler .silent s).rxFifo = s.rxFifo ∧
      (NordicEsb.radioIrqHandler .silent s).interruptFlags =
        { s.interruptFlags with txFailed := true } :=
  ⟨(h.missedBy rfl).1, (h.missedBy rfl).2.2⟩

/-- **An acknowledgment** removes the payload, and its own payload is received unless it is empty
    or too long. -/
theorem Transmits.ackedBy (h : Transmits s .ptxRxAck p) (hrx : s.rxFifo.Represents [])
    {ev : RadioEvent} {pkt : AirPacket} (hpkt : ev.packet = some pkt) (hcrc : ev.crcOk = true) :
    Idle true (NordicEsb.radioIrqHandler ev s) ∧
      (NordicEsb.radioIrqHandler ev s).evtIrqPending = true ∧
      (NordicEsb.radioIrqHandler ev s).txFifo.Represents [] ∧
      if pkt.byte0 = 0 ∨ nrfEsbMaxPayloadLength < pkt.byte0.toNat then
        (NordicEsb.radioIrqHandler ev s).rxFifo = s.rxFifo ∧
          (NordicEsb.radioIrqHandler ev s).interruptFlags =
            { s.interruptFlags with txSuccess := true }
      else
        (∃ e, (NordicEsb.radioIrqHandler ev s).rxFifo.Represents [e] ∧
          e.length = pkt.byte0 ∧ e.data.firstN pkt.byte0.toNat =
            (s.rxPayloadBuffer.data.load pkt.data).firstN pkt.byte0.toNat) ∧
          (NordicEsb.radioIrqHandler ev s).interruptFlags =
            { s.interruptFlags with txSuccess := true, rxDataReceived := true } := by
  have hh : s.onRadioDisabled = some .txWaitForAck := by
    simpa [TxHandlerMatches, h.mainstate] using h.handler
  obtain ⟨packet, crcOk, rxcrc, rssisample⟩ := ev
  obtain rfl : packet = some pkt := hpkt
  obtain rfl : crcOk = true := hcrc
  -- `s₁` is the state after the packet is taken from the queue.
  obtain ⟨s₁, hs₁⟩ : ∃ s₁, s₁ = txFifoRemoveLast (noteAck
      { RadioEvent.latch ⟨some pkt, true, rxcrc, rssisample⟩ s with
        ppi := { s.ppi with timerStart := false, rxTimeout := false, timerStop := false } }) :=
    ⟨_, rfl⟩
  have hdrop : s₁.txFifo.Represents [] := hs₁ ▸ txFifoRemoveLast_represents h.fifo
  have hrest : s₁.esbInitialized = s.esbInitialized ∧ s₁.configLocal = s.configLocal ∧
      s₁.rxFifo = s.rxFifo ∧ s₁.interruptFlags = { s.interruptFlags with txSuccess := true } ∧
      s₁.rxPayloadBuffer =
        { byte0 := pkt.byte0, byte1 := pkt.byte1, data := s.rxPayloadBuffer.data.load pkt.data } := by
    rw [hs₁]
    exact ⟨rfl, rfl, rfl, rfl, rfl⟩
  obtain ⟨hinit, hcfg, hfifo, hflags, hbuf⟩ := hrest
  have hirq : NordicEsb.radioIrqHandler ⟨some pkt, true, rxcrc, rssisample⟩ s =
      finishTx (if hasAckPayload s₁ then receiveAckPayload s₁ else s₁) := by
    have hcount : (if hasAckPayload s₁ then receiveAckPayload s₁ else s₁).txFifo.count = 0 := by
      split <;> exact hdrop.nil_iff.mpr rfl
    rw [h.radioIrqHandler, callOnRadioDisabled, latch_onRadioDisabled, hh, hs₁]
    exact if_pos (.inl (hs₁ ▸ hcount))
  -- The mode has dynamic lengths, so the length byte says whether there is a payload.
  have hhas : hasAckPayload s₁ = decide (0 < pkt.byte0) := by
    rw [hasAckPayload, hcfg, h.config, hbuf]
    rfl
  rw [hirq, hhas]
  by_cases hzero : pkt.byte0 = 0
  · have hnone : ¬ decide (0 < pkt.byte0) = true := by simp [hzero]
    rw [if_neg hnone, if_pos (Or.inl hzero)]
    exact ⟨⟨hinit.trans h.initialized, hcfg.trans h.config, rfl⟩, rfl, hdrop, hfifo, hflags⟩
  · have hpos : 0 < pkt.byte0 := by
      rw [UInt8.lt_iff_toNat_lt]
      have := mt UInt8.toNat_inj.mp hzero
      simp only [UInt8.toNat_ofNat] at this ⊢
      omega
    have hsome : decide (0 < pkt.byte0) = true := by simpa using hpos
    rw [if_pos hsome]
    -- The queue is empty, so only the length can be too large.
    have haccepted : rxPushAccepted s₁ = !decide (nrfEsbMaxPayloadLength < pkt.byte0.toNat) := by
      have hcount : s.rxFifo.count = 0 := hrx.nil_iff.mpr rfl
      simp [rxPushAccepted, hfifo, hbuf, hcount, hcfg, h.config, appEsbConfig]
    have hlength : rxPushLength s₁ = pkt.byte0 := by
      rw [rxPushLength, hcfg, h.config, hbuf]
      rfl
    have hpushed : (receiveAckPayload s₁).rxFifo =
        if rxPushAccepted s₁ then s₁.rxFifo.push (rxPushEntry
          s₁.radio.txaddress 0 s₁ (s₁.rxFifo.slots.get s₁.rxFifo.entryPoint))
        else s₁.rxFifo := rfl
    have hraised : (receiveAckPayload s₁).interruptFlags = { s₁.interruptFlags with
        rxDataReceived := s₁.interruptFlags.rxDataReceived || rxPushAccepted s₁ } := rfl
    refine ⟨⟨hinit.trans h.initialized, hcfg.trans h.config, rfl⟩, rfl, hdrop, ?_⟩
    by_cases hlong : nrfEsbMaxPayloadLength < pkt.byte0.toNat
    · -- the payload is refused
      rw [if_pos (.inr hlong)]
      have hrefused : rxPushAccepted s₁ = false := by simpa [hlong] using haccepted
      rw [hrefused, Bool.or_false] at hraised
      rw [hrefused, if_neg (by simp)] at hpushed
      exact ⟨hpushed.trans hfifo, hraised.trans hflags⟩
    · rw [if_neg (not_or.mpr ⟨hzero, hlong⟩)]
      have hstored : rxPushAccepted s₁ = true := by simpa [hlong] using haccepted
      rw [hstored, Bool.or_true, hflags] at hraised
      rw [hstored, if_pos rfl, hfifo] at hpushed
      refine ⟨⟨rxPushEntry s₁.radio.txaddress 0 s₁ (s.rxFifo.slots.get s.rxFifo.entryPoint),
        ?_, hlength, ?_⟩, hraised⟩
      · rw [show (finishTx (receiveAckPayload s₁)).rxFifo = (receiveAckPayload s₁).rxFifo from rfl,
          hpushed]
        exact hrx.push (by rw [hrx.count_eq]; decide) _
      · simp only [rxPushEntry, hlength, hbuf]
        exact FixedArray.firstN_copy _ _ _

theorem Transmits.acked (h : Transmits s .ptxRxAck p) (hrx : s.rxFifo.Represents [])
    (pkt : AirPacket) (crc : UInt16) (hlen : pkt.byte0.toNat ≤ nrfEsbMaxPayloadLength) :
    Idle true (NordicEsb.radioIrqHandler (.received pkt crc) s) ∧
      (NordicEsb.radioIrqHandler (.received pkt crc) s).txFifo.Represents [] ∧
      if pkt.byte0 = 0 then
        (NordicEsb.radioIrqHandler (.received pkt crc) s).rxFifo = s.rxFifo ∧
          (NordicEsb.radioIrqHandler (.received pkt crc) s).interruptFlags =
            { s.interruptFlags with txSuccess := true }
      else
        (∃ e, (NordicEsb.radioIrqHandler (.received pkt crc) s).rxFifo.Represents [e] ∧
          e.length = pkt.byte0 ∧ e.data.firstN pkt.byte0.toNat =
            (s.rxPayloadBuffer.data.load pkt.data).firstN pkt.byte0.toNat) ∧
          (NordicEsb.radioIrqHandler (.received pkt crc) s).interruptFlags =
            { s.interruptFlags with txSuccess := true, rxDataReceived := true } := by
  have hpkt : (RadioEvent.received pkt crc).packet = some pkt := rfl
  obtain ⟨hidle, -, htx, hack⟩ := h.ackedBy hrx hpkt rfl
  refine ⟨hidle, htx, ?_⟩
  have hor : (pkt.byte0 = 0 ∨ nrfEsbMaxPayloadLength < pkt.byte0.toNat) ↔ pkt.byte0 = 0 :=
    or_iff_left (not_lt.mpr hlen)
  rwa [if_congr hor rfl rfl] at hack

end

/-! ## §4 Events -/

/-- The programs have a handler: every collected event reaches it, once. -/
theorem esbEvtIrqHandler_app {s : Esb} {isPtx : Bool} (hinit : s.esbInitialized = true)
    (hcfg : s.configLocal = appEsbConfig isPtx) :
    esbEvtIrqHandler s = (s.interruptFlags.events s.lastTxAttempts,
      { s with evtIrqPending := false, interruptFlags := .clear }) := by
  have hhandler : s.configLocal.eventHandler = true := by rw [hcfg]; rfl
  simp [esbEvtIrqHandler, hinit, hhandler]

end NordicEsb
