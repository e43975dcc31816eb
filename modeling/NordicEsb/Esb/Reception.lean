import NordicEsb.Esb.Api

/-!
# What a Reception Does

`on_radio_disabled_rx` field by field: which packets it takes, when it stores one in the
RX FIFO, what it keeps per pipe, and which acknowledgment it prepares. The state
machines of the later modules cite these lemmas and do not unfold the handler.

- `onRadioDisabledRx_rxFifo`: a new packet is pushed, a retransmitted one is not.
- `onRadioDisabledRx_txFifo`: an ACK payload counts as delivered when a new packet
  comes in on a pipe whose last acknowledgment carried a payload.
- `onRadioDisabledRx_ackBuffer`: the acknowledgment is loaded from the exit point after
  that removal.
-/

namespace NordicEsb

/-! ## §1 The radio's part -/

theorem radioIrqHandler_eq (ev : RadioEvent) (s : Esb) :
    radioIrqHandler ev s =
      if (ev.latch s).radio.intensetDisabled then callOnRadioDisabled (ev.latch s)
      else ev.latch s := rfl

/-- The radio writes its own registers and the receive buffer, and nothing else. -/
theorem latch_eq (ev : RadioEvent) (s : Esb) :
    ∃ r b, ev.latch s = { s with radio := r, rxPayloadBuffer := b } := by
  unfold RadioEvent.latch
  split <;> exact ⟨_, _, rfl⟩

@[simp] theorem latch_txFifo (ev : RadioEvent) (s : Esb) : (ev.latch s).txFifo = s.txFifo := by
  obtain ⟨r, b, h⟩ := latch_eq ev s
  rw [h]

@[simp] theorem latch_mainstate (ev : RadioEvent) (s : Esb) :
    (ev.latch s).mainstate = s.mainstate := by
  obtain ⟨r, b, h⟩ := latch_eq ev s
  rw [h]

@[simp] theorem latch_onRadioDisabled (ev : RadioEvent) (s : Esb) :
    (ev.latch s).onRadioDisabled = s.onRadioDisabled := by
  obtain ⟨r, b, h⟩ := latch_eq ev s
  rw [h]

theorem latch_intensetDisabled (ev : RadioEvent) (s : Esb) :
    (ev.latch s).radio.intensetDisabled = s.radio.intensetDisabled := by
  unfold RadioEvent.latch
  split <;> rfl

theorem latch_txaddress (ev : RadioEvent) (s : Esb) :
    (ev.latch s).radio.txaddress = s.radio.txaddress := by
  unfold RadioEvent.latch
  split <;> rfl

@[simp] theorem latch_pids (ev : RadioEvent) (s : Esb) : (ev.latch s).pids = s.pids := by
  obtain ⟨r, b, h⟩ := latch_eq ev s
  rw [h]

@[simp] theorem latch_configLocal (ev : RadioEvent) (s : Esb) :
    (ev.latch s).configLocal = s.configLocal := by
  obtain ⟨r, b, h⟩ := latch_eq ev s
  rw [h]

@[simp] theorem latch_txPayloadBuffer (ev : RadioEvent) (s : Esb) :
    (ev.latch s).txPayloadBuffer = s.txPayloadBuffer := by
  obtain ⟨r, b, h⟩ := latch_eq ev s
  rw [h]

@[simp] theorem latch_rxFifo (ev : RadioEvent) (s : Esb) : (ev.latch s).rxFifo = s.rxFifo := by
  obtain ⟨r, b, h⟩ := latch_eq ev s
  rw [h]

@[simp] theorem latch_rxPipeInfo (ev : RadioEvent) (s : Esb) :
    (ev.latch s).rxPipeInfo = s.rxPipeInfo := by
  obtain ⟨r, b, h⟩ := latch_eq ev s
  rw [h]

@[simp] theorem latch_esbInitialized (ev : RadioEvent) (s : Esb) :
    (ev.latch s).esbInitialized = s.esbInitialized := by
  obtain ⟨r, b, h⟩ := latch_eq ev s
  rw [h]

@[simp] theorem latch_interruptFlags (ev : RadioEvent) (s : Esb) :
    (ev.latch s).interruptFlags = s.interruptFlags := by
  obtain ⟨r, b, h⟩ := latch_eq ev s
  rw [h]

/-! ## §2 Which packets are handled -/

/-- `on_radio_disabled_rx` does not return early on `s`. -/
def acceptsRx (s : Esb) : Bool :=
  s.radio.crcstatus && decide (s.rxFifo.count < nrfEsbRxFifoSize)

/-- Such a packet is acknowledged, and the acknowledgment has a dynamic length. -/
def acksDpl (s : Esb) : Bool :=
  acceptsRx s && ackRequested s && s.configLocal.protocol == .esbDpl

/-- The current handler is `on_radio_disabled_rx`, and it prepares an acknowledgment under
    DPL. -/
def preparesAckDpl (s : Esb) : Bool := s.onRadioDisabled == some .rx && acksDpl s

theorem onRadioDisabledRx_eq (s : Esb) :
    onRadioDisabledRx s =
      if acceptsRx s then
        if retransmitPayload s then acknowledge true (notePidAndCrc s)
        else pushReceived (acknowledge false (notePidAndCrc s))
      else clearEventsRestartRx s := by
  unfold onRadioDisabledRx acceptsRx
  cases s.radio.crcstatus with
  | false => rfl
  | true =>
    by_cases hr : s.rxFifo.count < nrfEsbRxFifoSize
    · simp only [Bool.not_true, Bool.true_and, hr, not_le.mpr hr, decide_true, if_true,
        if_false, Bool.false_eq_true]
    · simp only [Bool.not_true, Bool.true_and, hr, not_lt.mp hr, decide_false, if_true,
        if_false, Bool.false_eq_true]

/-! ## §3 The main state -/

theorem acknowledge_mainstate (retransmit : Bool) (s : Esb) :
    (acknowledge retransmit s).mainstate =
      if ackRequested s then .prxSendAck else s.mainstate := by
  unfold acknowledge prepareAck
  split
  · split <;> rfl
  · rfl

theorem acknowledge_onRadioDisabled (retransmit : Bool) (s : Esb) :
    (acknowledge retransmit s).onRadioDisabled =
      if ackRequested s then some .rxAck else s.onRadioDisabled := by
  unfold acknowledge prepareAck
  split
  · split <;> rfl
  · rfl

theorem onRadioDisabledRx_mainstate (s : Esb) :
    (onRadioDisabledRx s).mainstate =
      if acceptsRx s && ackRequested s then .prxSendAck else s.mainstate := by
  rw [onRadioDisabledRx_eq]
  cases acceptsRx s with
  | false => rfl
  | true => cases retransmitPayload s <;> exact acknowledge_mainstate _ _

theorem onRadioDisabledRx_onRadioDisabled (s : Esb) :
    (onRadioDisabledRx s).onRadioDisabled =
      if acceptsRx s && ackRequested s then some .rxAck else s.onRadioDisabled := by
  rw [onRadioDisabledRx_eq]
  cases acceptsRx s with
  | false => rfl
  | true => cases retransmitPayload s <;> exact acknowledge_onRadioDisabled _ _

/-! ## §4 What a reception never touches -/

/-- The state that stays as it is, whatever is received and acknowledged. -/
structure RxFrame (s s' : Esb) : Prop where
  configLocal : s'.configLocal = s.configLocal
  esbInitialized : s'.esbInitialized = s.esbInitialized
  esbAddr : s'.esbAddr = s.esbAddr
  pids : s'.pids = s.pids
  rxPayloadBuffer : s'.rxPayloadBuffer = s.rxPayloadBuffer
  intensetDisabled : s'.radio.intensetDisabled = s.radio.intensetDisabled
  rxmatch : s'.radio.rxmatch = s.radio.rxmatch
  rssisample : s'.radio.rssisample = s.radio.rssisample

namespace RxFrame

theorem trans {s s' s'' : Esb} (h : RxFrame s s') (h' : RxFrame s' s'') : RxFrame s s'' where
  configLocal := h'.configLocal.trans h.configLocal
  esbInitialized := h'.esbInitialized.trans h.esbInitialized
  esbAddr := h'.esbAddr.trans h.esbAddr
  pids := h'.pids.trans h.pids
  rxPayloadBuffer := h'.rxPayloadBuffer.trans h.rxPayloadBuffer
  intensetDisabled := h'.intensetDisabled.trans h.intensetDisabled
  rxmatch := h'.rxmatch.trans h.rxmatch
  rssisample := h'.rssisample.trans h.rssisample

end RxFrame

theorem acknowledge_frame (retransmit : Bool) (s : Esb) :
    RxFrame s (acknowledge retransmit s) := by
  cases s
  unfold acknowledge
  split
  · unfold prepareAck
    split
    · unfold prepareAckDpl
      split
      · split <;> exact ⟨rfl, rfl, rfl, rfl, rfl, rfl, rfl, rfl⟩
      · exact ⟨rfl, rfl, rfl, rfl, rfl, rfl, rfl, rfl⟩
    · exact ⟨rfl, rfl, rfl, rfl, rfl, rfl, rfl, rfl⟩
  · exact ⟨rfl, rfl, rfl, rfl, rfl, rfl, rfl, rfl⟩

theorem notePidAndCrc_frame (s : Esb) : RxFrame s (notePidAndCrc s) := by
  cases s
  exact ⟨rfl, rfl, rfl, rfl, rfl, rfl, rfl, rfl⟩

theorem pushReceived_frame (s : Esb) : RxFrame s (pushReceived s) := by
  cases s
  exact ⟨rfl, rfl, rfl, rfl, rfl, rfl, rfl, rfl⟩

theorem onRadioDisabledRx_frame (s : Esb) : RxFrame s (onRadioDisabledRx s) := by
  rw [onRadioDisabledRx_eq]
  have hack : ∀ b, RxFrame s (acknowledge b (notePidAndCrc s)) := fun b =>
    (notePidAndCrc_frame s).trans (acknowledge_frame b _)
  split
  · split
    · exact hack true
    · exact (hack false).trans (pushReceived_frame _)
  · cases s
    exact ⟨rfl, rfl, rfl, rfl, rfl, rfl, rfl, rfl⟩

/-! ## §5 The bookkeeping per pipe -/

theorem rxmatch_lt (s : Esb) : s.radio.rxmatch.val < nrfEsbPipeCount := by
  have := s.radio.rxmatch.isLt
  simp only [nrfEsbPipeCount]
  omega

theorem rxmatchByte_toNat (s : Esb) : (rxmatchByte s).toNat = s.radio.rxmatch.val := by
  unfold rxmatchByte
  have := s.radio.rxmatch.isLt
  simp [Nat.toUInt8]
  omega

/-- Noting PID and CRC leaves the pipe's `ack_payload` flag alone. -/
theorem matchedPipeInfo_notePidAndCrc (s : Esb) :
    matchedPipeInfo (notePidAndCrc s) =
      { matchedPipeInfo s with pid := receivedPid s, crc := s.radio.rxcrc } :=
  FixedArray.get_set_self _ _ (rxmatch_lt s)

/-- The `ack_payload` flag of the pipe once the packet is acknowledged. -/
def ackPayloadAfter (s : Esb) : Bool :=
  if ackRequested s && s.configLocal.protocol == .esbDpl then ackPayloadMatches s
  else (matchedPipeInfo s).ackPayload

theorem prepareAckDpl_rxPipeInfo (retransmit : Bool) (s : Esb) :
    (prepareAckDpl retransmit s).rxPipeInfo =
      s.rxPipeInfo.set s.radio.rxmatch.val
        { matchedPipeInfo s with ackPayload := ackPayloadMatches s } := by
  unfold prepareAckDpl
  by_cases hm : ackPayloadMatches s = true
  · simp only [hm, if_true]
    cases s
    split <;> rfl
  · rw [if_neg hm, Bool.eq_false_iff.mpr hm]
    cases s
    rfl

theorem acknowledge_rxPipeInfo (retransmit : Bool) (s : Esb) :
    (acknowledge retransmit s).rxPipeInfo =
      s.rxPipeInfo.set s.radio.rxmatch.val
        { matchedPipeInfo s with ackPayload := ackPayloadAfter s } := by
  have hkeep : s.rxPipeInfo.set s.radio.rxmatch.val (matchedPipeInfo s) = s.rxPipeInfo :=
    FixedArray.set_get _ _
  unfold acknowledge prepareAck ackPayloadAfter
  cases ackRequested s with
  | false => exact hkeep.symm
  | true =>
    cases s.configLocal.protocol with
    | esb => exact hkeep.symm
    | esbDpl => exact prepareAckDpl_rxPipeInfo _ _

/-- **The pipe of a handled packet remembers its PID and CRC**, and whether its
    acknowledgment carried a payload. -/
theorem onRadioDisabledRx_rxPipeInfo (s : Esb) :
    (onRadioDisabledRx s).rxPipeInfo =
      if acceptsRx s then
        s.rxPipeInfo.set s.radio.rxmatch.val
          { crc := s.radio.rxcrc, pid := receivedPid s, ackPayload := ackPayloadAfter s }
      else s.rxPipeInfo := by
  have hflag : ackPayloadAfter (notePidAndCrc s) = ackPayloadAfter s := by
    unfold ackPayloadAfter
    rw [matchedPipeInfo_notePidAndCrc]
    rfl
  have hack : ∀ b, (acknowledge b (notePidAndCrc s)).rxPipeInfo =
      s.rxPipeInfo.set s.radio.rxmatch.val
        { crc := s.radio.rxcrc, pid := receivedPid s, ackPayload := ackPayloadAfter s } := by
    intro b
    rw [acknowledge_rxPipeInfo, matchedPipeInfo_notePidAndCrc, hflag]
    exact FixedArray.set_set _ _ _ _
  rw [onRadioDisabledRx_eq]
  split
  · split
    · exact hack true
    · exact hack false
  · rfl

/-! ## §6 The TX FIFO and the acknowledgment -/

theorem prepareAckDpl_txFifo (retransmit : Bool) (s : Esb) :
    (prepareAckDpl retransmit s).txFifo =
      if ackPayloadMatches s && (matchedPipeInfo s).ackPayload && !retransmit then
        s.txFifo.dropHead
      else s.txFifo := by
  unfold prepareAckDpl
  by_cases hm : ackPayloadMatches s = true
  · by_cases hd : ((matchedPipeInfo s).ackPayload && !retransmit) = true
    · simp only [hm, hd, Bool.true_and, if_true]; rfl
    · simp only [hm, hd, Bool.true_and, if_true]; rfl
  · simp only [hm, Bool.false_and]; rfl

theorem acknowledge_txFifo (retransmit : Bool) (s : Esb) :
    (acknowledge retransmit s).txFifo =
      if ackRequested s && s.configLocal.protocol == .esbDpl then
        (prepareAckDpl retransmit s).txFifo
      else s.txFifo := by
  unfold acknowledge prepareAck
  cases ackRequested s <;> cases s.configLocal.protocol <;> rfl

theorem pushReceived_txFifo (s : Esb) : (pushReceived s).txFifo = s.txFifo := rfl

/-- The acknowledgment after a packet was noted: the one `retransmitPayload` selects. -/
theorem acknowledge_notePidAndCrc_txFifo (s : Esb) :
    (acknowledge (retransmitPayload s) (notePidAndCrc s)).txFifo =
      if ackRequested s && s.configLocal.protocol == .esbDpl && ackPayloadDelivered s then
        s.txFifo.dropHead
      else s.txFifo := by
  have hack : ackRequested (notePidAndCrc s) = ackRequested s := rfl
  have hcfg : (notePidAndCrc s).configLocal = s.configLocal := rfl
  have hmatch : ackPayloadMatches (notePidAndCrc s) = ackPayloadMatches s := rfl
  have hfifo : (notePidAndCrc s).txFifo = s.txFifo := rfl
  rw [acknowledge_txFifo, prepareAckDpl_txFifo, hack, hcfg, hmatch, hfifo,
    matchedPipeInfo_notePidAndCrc]
  simp only [ackPayloadDelivered]
  cases ackRequested s <;> cases s.configLocal.protocol == .esbDpl <;> simp

/-- **An ACK payload is removed when a new packet comes in on its pipe** while the pipe's
    flag is set. -/
theorem onRadioDisabledRx_txFifo (s : Esb) :
    (onRadioDisabledRx s).txFifo =
      if acksDpl s && ackPayloadDelivered s then s.txFifo.dropHead else s.txFifo := by
  rw [onRadioDisabledRx_eq]
  unfold acksDpl
  cases acceptsRx s with
  | false => rfl
  | true =>
    rw [Bool.true_and, ← acknowledge_notePidAndCrc_txFifo]
    cases retransmitPayload s <;> rfl

/-- The packet buffer holds the payload `p` as the payload of an acknowledgment. -/
def AckCarries (buf : PayloadBuffer) (p : NrfEsbPayload) : Prop :=
  buf.byte0 = p.length ∧ buf.data.firstN p.length.toNat = p.data.firstN p.length.toNat

theorem prepareAckDpl_carries {retransmit : Bool} {s : Esb} (hm : ackPayloadMatches s = true) :
    AckCarries (prepareAckDpl retransmit s).txPayloadBuffer
      (prepareAckDpl retransmit s).txFifo.head := by
  unfold prepareAckDpl
  rw [if_pos hm]
  cases s
  split <;> exact ⟨rfl, FixedArray.firstN_copy _ _ _⟩

theorem prepareAckDpl_empty {retransmit : Bool} {s : Esb} (hm : ackPayloadMatches s = false) :
    (prepareAckDpl retransmit s).txPayloadBuffer.byte0 = 0 := by
  unfold prepareAckDpl
  rw [if_neg (by simp [hm])]
  rfl

/-- **The acknowledgment is loaded from the exit point** of the TX FIFO after the removal if
    the head was for the packet's pipe before it, and is empty otherwise. -/
theorem onRadioDisabledRx_ackBuffer {s : Esb} (h : acksDpl s = true) :
    if ackPayloadMatches s then
      AckCarries (onRadioDisabledRx s).txPayloadBuffer (onRadioDisabledRx s).txFifo.head
    else (onRadioDisabledRx s).txPayloadBuffer.byte0 = 0 := by
  simp only [acksDpl, Bool.and_eq_true, beq_iff_eq] at h
  obtain ⟨⟨hacc, hack⟩, hdpl⟩ := h
  have hnote : ∀ b, acknowledge b (notePidAndCrc s) = sendAck (prepareAckDpl b (notePidAndCrc s)) := by
    intro b
    unfold acknowledge prepareAck
    rw [if_pos (show ackRequested (notePidAndCrc s) = true from hack),
      show (notePidAndCrc s).configLocal.protocol = .esbDpl from hdpl]
  have hmatch : ackPayloadMatches (notePidAndCrc s) = ackPayloadMatches s := rfl
  rw [onRadioDisabledRx_eq, if_pos hacc, hnote, hnote]
  cases hm : ackPayloadMatches s with
  | true =>
    rw [if_pos rfl]
    cases retransmitPayload s <;> exact prepareAckDpl_carries (hmatch.trans hm)
  | false =>
    rw [if_neg (by simp)]
    cases retransmitPayload s <;> exact prepareAckDpl_empty (hmatch.trans hm)

/-! ## §7 The RX FIFO and the events -/

theorem acknowledge_rxFifo (retransmit : Bool) (s : Esb) :
    (acknowledge retransmit s).rxFifo = s.rxFifo := by
  unfold acknowledge prepareAck prepareAckDpl
  cases s
  repeat' split
  all_goals rfl

/-- What a stored packet leaves in the cell at the entry point. -/
def receivedEntry (s : Esb) : NrfEsbPayload :=
  rxPushEntry (rxmatchByte s) (receivedPid s) s (s.rxFifo.slots.get s.rxFifo.entryPoint)

/-- The packet is handled, new and not too long. -/
def storesRx (s : Esb) : Bool := acceptsRx s && !retransmitPayload s && rxPushAccepted s

theorem rxPushAccepted_of_frame {s t : Esb} (hf : RxFrame s t) (hfifo : t.rxFifo = s.rxFifo) :
    rxPushAccepted t = rxPushAccepted s := by
  unfold rxPushAccepted
  rw [hfifo, hf.configLocal, hf.rxPayloadBuffer]

theorem pushReceived_rxFifo_of_frame {s t : Esb} (hf : RxFrame s t) (hfifo : t.rxFifo = s.rxFifo)
    (hpid : (matchedPipeInfo t).pid = receivedPid s) :
    (pushReceived t).rxFifo =
      if rxPushAccepted s then s.rxFifo.push (receivedEntry s) else s.rxFifo := by
  have hentry : rxPushEntry (rxmatchByte t) (matchedPipeInfo t).pid t
      (t.rxFifo.slots.get t.rxFifo.entryPoint) = receivedEntry s := by
    unfold receivedEntry rxPushEntry rxPushLength rxmatchByte
    rw [hfifo, hpid, hf.configLocal, hf.rxPayloadBuffer, hf.rxmatch, hf.rssisample]
  rw [← rxPushAccepted_of_frame hf hfifo, ← hentry, ← hfifo]
  rfl

/-- The packet as `on_radio_disabled_rx` goes on with it after noting and acknowledging it. -/
theorem acknowledge_notePidAndCrc_spec (retransmit : Bool) (s : Esb) :
    RxFrame s (acknowledge retransmit (notePidAndCrc s)) ∧
      (acknowledge retransmit (notePidAndCrc s)).rxFifo = s.rxFifo ∧
      (matchedPipeInfo (acknowledge retransmit (notePidAndCrc s))).pid = receivedPid s := by
  have hframe := (notePidAndCrc_frame s).trans (acknowledge_frame retransmit (notePidAndCrc s))
  refine ⟨hframe, acknowledge_rxFifo _ _, ?_⟩
  unfold matchedPipeInfo
  rw [acknowledge_rxPipeInfo, hframe.rxmatch, matchedPipeInfo_notePidAndCrc]
  exact congrArg PipeInfo.pid (FixedArray.get_set_self _ _ (rxmatch_lt s))

/-- **A packet is stored if it is handled, new and not too long.** -/
theorem onRadioDisabledRx_rxFifo (s : Esb) :
    (onRadioDisabledRx s).rxFifo =
      if storesRx s then s.rxFifo.push (receivedEntry s) else s.rxFifo := by
  obtain ⟨hframe, hfifo, hpid⟩ := acknowledge_notePidAndCrc_spec false s
  rw [onRadioDisabledRx_eq]
  unfold storesRx
  cases acceptsRx s with
  | false => rfl
  | true =>
    cases retransmitPayload s with
    | true => exact (acknowledge_notePidAndCrc_spec true s).2.1
    | false => exact pushReceived_rxFifo_of_frame hframe hfifo hpid

theorem prepareAckDpl_interruptFlags (retransmit : Bool) (s : Esb) :
    (prepareAckDpl retransmit s).interruptFlags =
      { s.interruptFlags with txSuccess := s.interruptFlags.txSuccess ||
          (ackPayloadMatches s && (matchedPipeInfo s).ackPayload && !retransmit) } := by
  unfold prepareAckDpl
  by_cases hm : ackPayloadMatches s = true
  · by_cases hd : ((matchedPipeInfo s).ackPayload && !retransmit) = true
    · rw [if_pos hm, if_pos hd, hm, Bool.true_and, hd, Bool.or_true]
      cases s
      rfl
    · rw [if_pos hm, if_neg hd, hm, Bool.true_and, Bool.eq_false_iff.mpr hd, Bool.or_false]
      cases s
      rfl
  · rw [if_neg hm, Bool.eq_false_iff.mpr hm, Bool.false_and, Bool.false_and, Bool.or_false]
    cases s
    rfl

theorem acknowledge_interruptFlags (s : Esb) :
    (acknowledge (retransmitPayload s) (notePidAndCrc s)).interruptFlags =
      { s.interruptFlags with txSuccess := s.interruptFlags.txSuccess ||
          (ackRequested s && s.configLocal.protocol == .esbDpl && ackPayloadDelivered s) } := by
  have hdpl := prepareAckDpl_interruptFlags (retransmitPayload s) (notePidAndCrc s)
  rw [matchedPipeInfo_notePidAndCrc] at hdpl
  unfold acknowledge prepareAck
  rw [show ackRequested (notePidAndCrc s) = ackRequested s from rfl,
    show (notePidAndCrc s).configLocal = s.configLocal from rfl]
  cases ackRequested s with
  | false => simp; rfl
  | true =>
    cases s.configLocal.protocol with
    | esb =>
      rw [show (NrfEsbProtocol.esb == .esbDpl) = false from rfl, Bool.and_false, Bool.false_and,
        Bool.or_false]
      rfl
    | esbDpl => exact hdpl

theorem pushReceived_interruptFlags (s : Esb) :
    (pushReceived s).interruptFlags =
      { s.interruptFlags with rxDataReceived :=
          s.interruptFlags.rxDataReceived || rxPushAccepted s } := rfl

/-- **The events of a reception**: data received for a stored packet, TX success for an ACK
    payload taken for delivered. -/
theorem onRadioDisabledRx_interruptFlags (s : Esb) :
    (onRadioDisabledRx s).interruptFlags =
      { s.interruptFlags with
        txSuccess := s.interruptFlags.txSuccess || (acksDpl s && ackPayloadDelivered s)
        rxDataReceived := s.interruptFlags.rxDataReceived || storesRx s } := by
  have hflags := acknowledge_interruptFlags s
  obtain ⟨hframe, hfifo, -⟩ := acknowledge_notePidAndCrc_spec (retransmitPayload s) s
  have hpush := rxPushAccepted_of_frame hframe hfifo
  rw [onRadioDisabledRx_eq]
  unfold storesRx acksDpl
  cases acceptsRx s with
  | false => simp; rfl
  | true =>
    cases hre : retransmitPayload s with
    | true =>
      rw [hre] at hflags
      simpa using hflags
    | false =>
      rw [hre] at hflags hpush
      have hpushed := pushReceived_interruptFlags (acknowledge false (notePidAndCrc s))
      rw [hflags, hpush] at hpushed
      exact hpushed

/-! ## §8 A receiver in use -/

/-- While the radio is in use, the handler is the one that belongs to the main state. -/
def RxHandlerMatches (s : Esb) : Prop :=
  match s.mainstate with
  | .idle => True
  | .prx => s.onRadioDisabled = some .rx ∧ s.radio.intensetDisabled = true
  | .prxSendAck => s.onRadioDisabled = some .rxAck ∧ s.radio.intensetDisabled = true
  | .ptxTx | .ptxTxAck | .ptxRxAck => False

/-- A module configured as a receiver under DPL. -/
structure Receives (s : Esb) : Prop where
  mode : s.configLocal.mode = .prx
  protocol : s.configLocal.protocol = .esbDpl
  handler : RxHandlerMatches s

theorem Receives.of_idle {s s' : Esb} (h : Receives s) (hidle : s'.mainstate = .idle)
    (hmode : s'.configLocal.mode = s.configLocal.mode)
    (hproto : s'.configLocal.protocol = s.configLocal.protocol) : Receives s' :=
  ⟨hmode.trans h.mode, hproto.trans h.protocol, by simp [RxHandlerMatches, hidle]⟩

/-- While the radio receives, it runs one of the two reception handlers. -/
theorem RxHandlerMatches.cases {s : Esb} (h : RxHandlerMatches s) (hbusy : s.mainstate ≠ .idle) :
    s.radio.intensetDisabled = true ∧
      (s.onRadioDisabled = some .rx ∧ s.mainstate = .prx ∨
        s.onRadioDisabled = some .rxAck ∧ s.mainstate = .prxSendAck) := by
  unfold RxHandlerMatches at h
  cases hs : s.mainstate with
  | idle => exact absurd hs hbusy
  | prx =>
    simp only [hs] at h
    exact ⟨h.2, .inl ⟨h.1, rfl⟩⟩
  | prxSendAck =>
    simp only [hs] at h
    exact ⟨h.2, .inr ⟨h.1, rfl⟩⟩
  | ptxTx | ptxTxAck | ptxRxAck => simp [hs] at h

/-- A receiver in use runs one of the two reception handlers. -/
theorem Receives.cases {s : Esb} (h : Receives s) (hbusy : s.mainstate ≠ .idle) :
    s.radio.intensetDisabled = true ∧
      (s.onRadioDisabled = some .rx ∧ s.mainstate = .prx ∨
        s.onRadioDisabled = some .rxAck ∧ s.mainstate = .prxSendAck) := h.handler.cases hbusy

/-- The radio interrupt while the radio receives: a packet is handled, or an acknowledgment has
    been sent. -/
theorem RxHandlerMatches.irq_cases {s : Esb} (ev : RadioEvent) (h : RxHandlerMatches s)
    (hbusy : s.mainstate ≠ .idle) :
    ((ev.latch s).onRadioDisabled = some .rx ∧
        radioIrqHandler ev s = onRadioDisabledRx (ev.latch s)) ∨
      ((ev.latch s).onRadioDisabled = some .rxAck ∧
        radioIrqHandler ev s = onRadioDisabledRxAck (ev.latch s)) := by
  obtain ⟨hi, hh⟩ := h.cases hbusy
  have hi' : (ev.latch s).radio.intensetDisabled = true := by rwa [latch_intensetDisabled]
  rw [radioIrqHandler_eq, if_pos hi', latch_onRadioDisabled]
  unfold callOnRadioDisabled
  rw [latch_onRadioDisabled]
  rcases hh with ⟨hh, -⟩ | ⟨hh, -⟩
  · left
    rw [hh]
    exact ⟨rfl, rfl⟩
  · right
    rw [hh]
    exact ⟨rfl, rfl⟩

theorem radioIrqHandler_cases {s : Esb} (ev : RadioEvent) (h : Receives s)
    (hbusy : s.mainstate ≠ .idle) :
    ((ev.latch s).onRadioDisabled = some .rx ∧
        radioIrqHandler ev s = onRadioDisabledRx (ev.latch s)) ∨
      ((ev.latch s).onRadioDisabled = some .rxAck ∧
        radioIrqHandler ev s = onRadioDisabledRxAck (ev.latch s)) := h.handler.irq_cases ev hbusy

/-- A receiver that listens runs `on_radio_disabled_rx`. -/
theorem radioIrqHandler_of_prx {s : Esb} (ev : RadioEvent) (h : Receives s)
    (hprx : s.mainstate = .prx) : radioIrqHandler ev s = onRadioDisabledRx (ev.latch s) := by
  have hbusy : s.mainstate ≠ .idle := by simp [hprx]
  rcases radioIrqHandler_cases ev h hbusy with ⟨-, heq⟩ | ⟨hh, -⟩
  · exact heq
  · obtain ⟨-, ⟨hrx, -⟩ | ⟨-, hm⟩⟩ := h.cases hbusy
    · rw [latch_onRadioDisabled, hrx] at hh
      cases hh
    · rw [hprx] at hm
      cases hm

theorem radioIrqHandler_of_preparesAckDpl {s : Esb} {ev : RadioEvent} (h : Receives s)
    (hbusy : s.mainstate ≠ .idle) (hack : preparesAckDpl (ev.latch s) = true) :
    radioIrqHandler ev s = onRadioDisabledRx (ev.latch s) := by
  simp only [preparesAckDpl, Bool.and_eq_true, beq_iff_eq] at hack
  rcases radioIrqHandler_cases ev h hbusy with ⟨_, heq⟩ | ⟨hh, _⟩
  · exact heq
  · rw [hh] at hack
    cases hack.1

theorem onRadioDisabledRx_rxHandlerMatches {s : Esb} (h : RxHandlerMatches s)
    (hh : s.onRadioDisabled = some .rx) (hbusy : s.mainstate ≠ .idle) :
    RxHandlerMatches (onRadioDisabledRx s) := by
  have hframe := onRadioDisabledRx_frame s
  obtain ⟨hi, hcases⟩ := h.cases hbusy
  unfold RxHandlerMatches
  rw [onRadioDisabledRx_mainstate, onRadioDisabledRx_onRadioDisabled, hframe.intensetDisabled, hi,
    hh]
  cases acceptsRx s && ackRequested s with
  | true => exact ⟨rfl, rfl⟩
  | false =>
    rcases hcases with ⟨-, hm⟩ | ⟨hh', -⟩
    · rw [hm]
      exact ⟨rfl, rfl⟩
    · rw [hh] at hh'
      cases hh'

theorem latch_rxHandlerMatches {s : Esb} (ev : RadioEvent) (h : RxHandlerMatches s) :
    RxHandlerMatches (ev.latch s) := by
  simpa [RxHandlerMatches, latch_intensetDisabled] using h

/-- The radio interrupt leaves the handler and the main state in agreement. -/
theorem radioIrqHandler_rxHandlerMatches {s : Esb} (ev : RadioEvent) (h : RxHandlerMatches s)
    (hbusy : s.mainstate ≠ .idle) : RxHandlerMatches (radioIrqHandler ev s) := by
  have hlatch := latch_rxHandlerMatches ev h
  have hbusy' : (ev.latch s).mainstate ≠ .idle := by simpa using hbusy
  rcases h.irq_cases ev hbusy with ⟨hh, heq⟩ | ⟨hh, heq⟩
  · rw [heq]
    exact onRadioDisabledRx_rxHandlerMatches hlatch hh hbusy'
  · rw [heq]
    exact ⟨rfl, (hlatch.cases hbusy').1⟩

theorem onRadioDisabledRx_receives {s : Esb} (h : Receives s) (hh : s.onRadioDisabled = some .rx)
    (hbusy : s.mainstate ≠ .idle) : Receives (onRadioDisabledRx s) := by
  have hframe := onRadioDisabledRx_frame s
  exact ⟨hframe.configLocal ▸ h.mode, hframe.configLocal ▸ h.protocol,
    onRadioDisabledRx_rxHandlerMatches h.handler hh hbusy⟩

/-- The radio interrupt leaves a receiver a receiver. -/
theorem radioIrqHandler_receives {s : Esb} (ev : RadioEvent) (h : Receives s)
    (hbusy : s.mainstate ≠ .idle) : Receives (radioIrqHandler ev s) := by
  have hlatch : Receives (ev.latch s) :=
    ⟨by simpa using h.mode, by simpa using h.protocol, latch_rxHandlerMatches ev h.handler⟩
  have hhandler := radioIrqHandler_rxHandlerMatches ev h.handler hbusy
  rcases radioIrqHandler_cases ev h hbusy with ⟨hh, heq⟩ | ⟨hh, heq⟩
  · rw [heq]
    exact onRadioDisabledRx_receives hlatch hh (by simpa using hbusy)
  · rw [heq] at hhandler ⊢
    exact ⟨hlatch.mode, hlatch.protocol, hhandler⟩

end NordicEsb
