import NordicEsb.Esb.Attempts

/-!
# What is on the Air

A module in any order of calls and interrupts. While a transaction is running, most calls are
refused. Those that are not may still change the TX FIFO, and `mp_current_payload` points into it:
a retransmission takes its length from there.

- `exec_busy` and `exec_idle` say what a call can do in a transaction and outside of one
- `Formatted` is the agreement of the packet format with the protocol, in every state of the module
- `FormatTrace` records what the first attempt of a transaction puts on the air

**Main result** (`sameOnAir_of_reachable`): a retransmission puts the same on the air, unless a
payload of another length was written over the current one.
-/

namespace NordicEsb

variable {s : Esb} {c : EsbCall}

/-! ## §1 Calls -/

/-- The steps of a transmitter: no second initialisation, no reception, and not the defective
    `nrf_esb_pop_tx`. The radio is disabled outside a transaction. -/
def PtxEnabled (s : Esb) : EsbCall → Prop
  | .init _ | .disable | .startRx | .popTx => False
  | .radioIrq _ => s.mainstate ≠ .idle
  | _ => True

instance (s : Esb) : DecidablePred (PtxEnabled s)
  | .init _ | .disable | .startRx | .popTx => (inferInstance : Decidable False)
  | .radioIrq _ => (inferInstance : Decidable (s.mainstate ≠ .idle))
  | .suspend | .writePayload _ | .readRxPayload _ | .startTx | .stopRx | .flushTx | .flushRx
  | .setAddressLength _ | .setBaseAddress0 _ | .setBaseAddress1 _ | .setPrefixes _ _
  | .updatePrefix _ _ | .enablePipes _ | .setRfChannel _ | .setTxPower _ | .evtIrq =>
    (inferInstance : Decidable True)

/-- A call that leaves the transaction alone: it reads a received payload, or events. -/
structure Reads (s s' : Esb) : Prop where
  eq : ∃ rxFifo rxPipeInfo flags evtIrqPending, s' = { s with
    rxFifo := rxFifo, rxPipeInfo := rxPipeInfo, interruptFlags := flags
    evtIrqPending := evtIrqPending }
  flags : s'.interruptFlags = s.interruptFlags ∨ s'.interruptFlags = .clear

theorem Reads.refl (s : Esb) : Reads s s := ⟨⟨_, _, _, _, rfl⟩, .inl rfl⟩

theorem nrfEsbReadRxPayload_cases (pPayload : Option NrfEsbPayload) (s : Esb) :
    (nrfEsbReadRxPayload pPayload s).2.2 = s ∨
      (nrfEsbReadRxPayload pPayload s).2.2 = { s with rxFifo := s.rxFifo.dropHead } := by
  unfold nrfEsbReadRxPayload
  by_cases hinit : (!s.esbInitialized) = true
  · rw [if_pos hinit]
    exact .inl rfl
  · rw [if_neg hinit]
    cases pPayload with
    | none => exact .inl rfl
    | some p =>
      dsimp only
      by_cases hcount : s.rxFifo.count = 0
      · rw [if_pos hcount]
        exact .inl rfl
      · rw [if_neg hcount]
        exact .inr rfl

theorem esbEvtIrqHandler_cases (s : Esb) :
    (esbEvtIrqHandler s).2 = { s with evtIrqPending := false } ∨
      (esbEvtIrqHandler s).2 = { s with evtIrqPending := false, interruptFlags := .clear } := by
  unfold esbEvtIrqHandler
  dsimp only
  split_ifs
  · exact .inl rfl
  · exact .inr rfl
  · exact .inr rfl

/-- **A call during a transaction** reads, or flushes the TX FIFO, or writes a payload to it. -/
theorem exec_busy (hm : TxHandlerMatches s) (hbusy : s.mainstate ≠ .idle) (hen : PtxEnabled s c)
    (hirq : ∀ ev, c ≠ .radioIrq ev) :
    Reads s (s.exec c) ∨ s.exec c = { s with txFifo := s.txFifo.clear } ∨
      ∃ p, c = .writePayload (some p) ∧ writeAccepted s p = true ∧
        s.exec c = enqueuePayload p s := by
  by_cases hok : (s.call c).1 = .success
  case neg =>
    rw [exec_of_rejected s c hok]
    exact .inl (.refl s)
  have hprx : s.mainstate ≠ .prx := by
    intro h
    unfold TxHandlerMatches at hm
    rw [h] at hm
    exact hm
  cases c with
  | init | disable | startRx | popTx => exact absurd hen id
  | radioIrq ev => exact absurd rfl (hirq ev)
  | writePayload pPayload =>
    obtain ⟨p, rfl, hacc⟩ := accepted_of_nrfEsbWritePayload hok
    refine .inr (.inr ⟨p, rfl, hacc, ?_⟩)
    have hauto : autoStarts (enqueuePayload p s) = false := by
      have hmain : (s.mainstate == .idle) = false := by simpa using hbusy
      show (_ && _ && (s.mainstate == .idle)) = false
      rw [hmain, Bool.and_false]
    show (nrfEsbWritePayload (some p) s).2 = _
    rw [nrfEsbWritePayload_of_accepted hacc, hauto]
    rfl
  | readRxPayload pPayload =>
    left
    show Reads s (nrfEsbReadRxPayload pPayload s).2.2
    rcases nrfEsbReadRxPayload_cases pPayload s with hsame | hread
    · rw [hsame]
      exact .refl s
    · rw [hread]
      exact ⟨⟨_, _, _, _, rfl⟩, .inl rfl⟩
  | flushTx =>
    unfold Esb.exec Esb.call nrfEsbFlushTx
    split_ifs with hinit
    · exact .inl (.refl s)
    · exact .inr (.inl rfl)
  | flushRx =>
    left
    unfold Esb.exec Esb.call nrfEsbFlushRx
    split_ifs with hinit
    · exact .refl s
    · exact ⟨⟨_, _, _, _, rfl⟩, .inl rfl⟩
  | evtIrq =>
    left
    show Reads s (esbEvtIrqHandler s).2
    rcases esbEvtIrqHandler_cases s with hkept | hclear
    · rw [hkept]
      exact ⟨⟨_, _, _, _, rfl⟩, .inl rfl⟩
    · rw [hclear]
      exact ⟨⟨_, _, _, _, rfl⟩, .inr rfl⟩
  | stopRx =>
    revert hok
    unfold Esb.call nrfEsbStopRx
    rw [if_neg hprx]
    exact fun h => nomatch h
  | startTx | suspend | setAddressLength | setBaseAddress0 | setBaseAddress1 | setPrefixes
  | updatePrefix | enablePipes | setRfChannel | setTxPower =>
    -- These want a resting module.
    revert hok
    simp [Esb.call, nrfEsbStartTx, nrfEsbSuspend, nrfEsbSetAddressLength, nrfEsbSetBaseAddress0,
      nrfEsbSetBaseAddress1, nrfEsbSetPrefixes, nrfEsbUpdatePrefix, nrfEsbEnablePipes,
      nrfEsbSetRfChannel, nrfEsbSetTxPower, hbusy]

/-- A call outside a transaction that starts none. -/
structure StaysIdle (s s' : Esb) : Prop where
  idle : s'.mainstate = .idle
  lastTxAttempts : s'.lastTxAttempts = s.lastTxAttempts
  flags : s'.interruptFlags = s.interruptFlags ∨ s'.interruptFlags = .clear

theorem StaysIdle.refl (h : s.mainstate = .idle) : StaysIdle s s := ⟨h, rfl, .inl rfl⟩

/-- **A call outside a transaction** starts one, or the module stays idle. -/
theorem exec_idle (hidle : s.mainstate = .idle) (hen : PtxEnabled s c) :
    (startsTx s c = true ∧ ∃ fifo pids,
      s.exec c = startTxTransaction { s with txFifo := fifo, pids := pids }) ∨
    (startsTx s c = false ∧ StaysIdle s (s.exec c)) := by
  by_cases hok : (s.call c).1 = .success
  case neg =>
    have hstarts : startsTx s c = false := by
      cases c with
      | writePayload | startTx => simp [startsTx, hok]
      | radioIrq ev => exact absurd rfl hok
      | _ => rfl
    rw [exec_of_rejected s c hok]
    exact .inr ⟨hstarts, .refl hidle⟩
  cases c with
  -- no calls of a transmitter that is enabled
  | init | disable | startRx | popTx => exact absurd hen id
  | radioIrq ev => exact absurd hidle hen
  -- an accepted packet starts a transaction in the automatic mode only
  | writePayload pPayload =>
    obtain ⟨p, rfl, hacc⟩ := accepted_of_nrfEsbWritePayload hok
    have hstarts : startsTx s (.writePayload (some p)) = autoStarts s := by simp [startsTx, hok]
    have hexec : s.exec (.writePayload (some p)) =
        if autoStarts s then startTxTransaction (enqueuePayload p s) else enqueuePayload p s := by
      show (nrfEsbWritePayload (some p) s).2 = _
      rw [nrfEsbWritePayload_of_accepted hacc]
      rfl
    rw [hstarts, hexec]
    cases hauto : autoStarts s with
    | true => exact .inl ⟨rfl, _, _, rfl⟩
    | false =>
      have hstays : StaysIdle s (enqueuePayload p s) := ⟨hidle, rfl, .inl rfl⟩
      exact .inr ⟨rfl, hstays⟩
  -- accepted: there is a packet to send
  | startTx =>
    left
    have hcount : ¬ s.txFifo.count = 0 := by
      intro hzero
      revert hok
      simp [Esb.call, nrfEsbStartTx, hidle, hzero]
    refine ⟨by simp [startsTx, hok], s.txFifo, s.pids, ?_⟩
    unfold Esb.exec Esb.call nrfEsbStartTx
    dsimp only
    rw [if_neg (fun h => h hidle), if_neg hcount]
  | readRxPayload pPayload =>
    refine .inr ⟨rfl, ?_⟩
    show StaysIdle s (nrfEsbReadRxPayload pPayload s).2.2
    rcases nrfEsbReadRxPayload_cases pPayload s with hsame | hread
    · rw [hsame]
      exact .refl hidle
    · rw [hread]
      exact ⟨hidle, rfl, .inl rfl⟩
  -- the interrupt flags are the only thing it clears
  | evtIrq =>
    refine .inr ⟨rfl, ?_⟩
    show StaysIdle s (esbEvtIrqHandler s).2
    rcases esbEvtIrqHandler_cases s with hkept | hclear
    · rw [hkept]
      exact ⟨hidle, rfl, .inl rfl⟩
    · rw [hclear]
      exact ⟨hidle, rfl, .inr rfl⟩
  | stopRx =>
    refine .inr ⟨rfl, ?_⟩
    unfold Esb.exec Esb.call nrfEsbStopRx
    rw [if_neg (by rw [hidle]; decide)]
    exact .refl hidle
  | setAddressLength length =>
    refine .inr ⟨rfl, ?_⟩
    show StaysIdle s (nrfEsbSetAddressLength length s).2
    unfold nrfEsbSetAddressLength
    rw [if_neg (fun h => h hidle)]
    by_cases hlength : ¬ (length > 2 ∧ length < 6)
    · rw [if_pos hlength]
      exact .refl hidle
    · rw [if_neg hlength]
      exact ⟨hidle, rfl, .inl rfl⟩
  | setTxPower txOutputPower =>
    refine .inr ⟨rfl, ?_⟩
    show StaysIdle s (nrfEsbSetTxPower txOutputPower s).2
    unfold nrfEsbSetTxPower
    rw [if_neg (fun h => h hidle)]
    by_cases hpower : s.configLocal.txOutputPower ≠ txOutputPower
    · rw [if_pos hpower]
      exact ⟨hidle, rfl, .inl rfl⟩
    · rw [if_neg hpower]
      exact .refl hidle
  | suspend | flushTx | flushRx | setBaseAddress0 | setBaseAddress1 | setPrefixes | updatePrefix
  | enablePipes | setRfChannel =>
    refine .inr ⟨rfl, ?_⟩
    unfold Esb.exec
    simp only [Esb.call, nrfEsbSuspend, nrfEsbFlushTx, nrfEsbFlushRx, nrfEsbSetBaseAddress0,
      nrfEsbSetBaseAddress1, nrfEsbSetPrefixes, nrfEsbUpdatePrefix, nrfEsbEnablePipes,
      nrfEsbSetRfChannel]
    repeat' split
    all_goals first
      | exact .refl hidle
      | exact ⟨hidle, rfl, .inl rfl⟩
      | exact ⟨rfl, rfl, .inl rfl⟩

/-- Only an interrupt starts a transaction while one is running. -/
theorem startsTx_busy (hbusy : s.mainstate ≠ .idle) (hirq : ∀ ev, c ≠ .radioIrq ev) :
    startsTx s c = false := by
  cases c with
  | radioIrq ev => exact absurd rfl (hirq ev)
  | writePayload pPayload =>
    have hmain : (s.mainstate == .idle) = false := by simpa using hbusy
    simp [startsTx, autoStarts, hmain]
  | startTx => simp [startsTx, Esb.call, nrfEsbStartTx, hbusy]
  | _ => rfl

/-- What is left of the module when an acknowledgment has been processed. -/
structure Acknowledged (s s' : Esb) : Prop where
  lastTxAttempts : s'.lastTxAttempts = (noteAck s).lastTxAttempts
  configLocal : s'.configLocal = s.configLocal
  radio : s'.radio = s.radio
  esbAddr : s'.esbAddr = s.esbAddr
  format : s'.updateRfPayloadFormat = s.updateRfPayloadFormat

theorem onAckReceived_cases (s : Esb) :
    ∃ s', Acknowledged s s' ∧ (onAckReceived s = finishTx s' ∨ onAckReceived s = startNextTx s') := by
  obtain ⟨s', hs'⟩ : ∃ s', s' = if hasAckPayload (txFifoRemoveLast (noteAck s)) then
    receiveAckPayload (txFifoRemoveLast (noteAck s)) else txFifoRemoveLast (noteAck s) := ⟨_, rfl⟩
  have hacknowledged : Acknowledged s s' := by
    rw [hs']
    split_ifs
    · exact ⟨rfl, rfl, rfl, rfl, rfl⟩
    · exact ⟨rfl, rfl, rfl, rfl, rfl⟩
  refine ⟨s', hacknowledged, ?_⟩
  unfold onAckReceived
  dsimp only
  rw [← hs']
  split_ifs
  · exact .inl rfl
  · exact .inr rfl

theorem onRadioDisabledTxNoack_cases (s : Esb) :
    onRadioDisabledTxNoack s = finishTx (txFifoRemoveLast (raiseTxSuccess s)) ∨
      onRadioDisabledTxNoack s = startNextTx (txFifoRemoveLast (raiseTxSuccess s)) := by
  unfold onRadioDisabledTxNoack
  dsimp only
  split_ifs
  · exact .inl rfl
  · exact .inr rfl

theorem startTxTransaction_busy (s : Esb) : (startTxTransaction s).mainstate ≠ .idle := by
  have hmain : (startTxTransaction s).mainstate =
      if wantsAck s.configLocal s.txFifo.head then .ptxTxAck else .ptxTx := rfl
  rw [hmain]
  split_ifs
  · decide
  · decide

/-- A completion after which the module does not rest has started the next transaction. -/
theorem startsTx_of_busy {ev : RadioEvent} (hintenset : s.radio.intensetDisabled = true)
    (hdone : completesTx (ev.latch s) = true)
    (hbusy : (callOnRadioDisabled (ev.latch s)).mainstate ≠ .idle) :
    startsTx s (.radioIrq ev) = true := by
  have hcontinues : continuesTx (ev.latch s) = true := by
    rcases completesTx_cases hdone with ⟨-, hidle⟩ | ⟨hcontinues, -⟩
    · exact absurd hidle hbusy
    · exact hcontinues
  unfold startsTx
  simp only [latch_intensetDisabled, hintenset, hdone, hcontinues, Bool.and_self]

theorem latch_lastTxAttempts (ev : RadioEvent) (s : Esb) :
    (ev.latch s).lastTxAttempts = s.lastTxAttempts := by
  obtain ⟨r, b, h⟩ := latch_eq ev s
  rw [h]

/-- The interrupt runs the handler. -/
theorem exec_radioIrq (ev : RadioEvent) (h : s.radio.intensetDisabled = true) :
    s.exec (.radioIrq ev) = callOnRadioDisabled (ev.latch s) := by
  show radioIrqHandler ev s = _
  rw [radioIrqHandler_eq, latch_intensetDisabled, h, if_pos rfl]


/-! ## §2 The packet format -/

/-- The format that the next packet will have. -/
structure Formatted (s : Esb) : Prop where
  protocol : s.updateRfPayloadFormat = some s.configLocal.protocol
  dpl : s.configLocal.protocol = .esbDpl →
    s.radio.pcnf = some (updateRfPayloadFormatEsbDpl s.esbAddr)

/-- Any call of `update_rf_payload_format` leaves the right format. -/
theorem formatted_of_pcnf {s : Esb} {n : UInt8} {old : Option Pcnf}
    (hprotocol : s.updateRfPayloadFormat = some s.configLocal.protocol)
    (hpcnf : s.radio.pcnf = pcnfAfter s.updateRfPayloadFormat s.esbAddr n old) : Formatted s := by
  refine ⟨hprotocol, fun hdpl => ?_⟩
  rw [hpcnf, hprotocol, hdpl]
  rfl

theorem formatted_latch (ev : RadioEvent) (h : Formatted s) : Formatted (ev.latch s) := by
  unfold RadioEvent.latch
  split
  · exact ⟨h.protocol, h.dpl⟩
  · exact ⟨h.protocol, h.dpl⟩

theorem formatted_callUpdateRfPayloadFormatIfEsb (n : UInt8) (h : Formatted s) :
    Formatted (callUpdateRfPayloadFormatIfEsb n s) := by
  refine ⟨h.protocol, fun hdpl => ?_⟩
  have hesb : ¬ s.configLocal.protocol = .esb := by
    intro hesb
    cases hesb.symm.trans hdpl
  show (if s.configLocal.protocol = .esb then _ else _) = _
  rw [if_neg hesb]
  exact h.dpl hdpl

theorem formatted_startTxTransaction (h : Formatted s) : Formatted (startTxTransaction s) := by
  have hformatted := formatted_callUpdateRfPayloadFormatIfEsb s.txFifo.head.length h
  exact ⟨h.protocol, hformatted.dpl⟩

theorem Acknowledged.formatted {s s' : Esb} (hack : Acknowledged s s') (h : Formatted s) :
    Formatted s' := by
  refine ⟨?_, fun hdpl => ?_⟩
  · rw [hack.format, hack.configLocal]
    exact h.protocol
  · rw [hack.configLocal] at hdpl
    rw [hack.radio, hack.esbAddr]
    exact h.dpl hdpl

theorem formatted_onAckReceived (h : Formatted s) : Formatted (onAckReceived s) := by
  obtain ⟨s', hack, hfinish | hnext⟩ := onAckReceived_cases s
  · rw [hfinish]
    have hformatted := hack.formatted h
    exact ⟨hformatted.protocol, hformatted.dpl⟩
  · have hformatted := hack.formatted h
    rw [hnext]
    exact formatted_startTxTransaction ⟨hformatted.protocol, hformatted.dpl⟩

theorem formatted_onAckMissed (h : Formatted s) : Formatted (onAckMissed s) := by
  unfold onAckMissed
  dsimp only
  split_ifs
  · exact ⟨h.protocol, h.dpl⟩
  · exact formatted_of_pcnf h.protocol rfl

theorem formatted_acknowledge (again : Bool) (h : Formatted s) : Formatted (acknowledge again s) := by
  unfold acknowledge
  split_ifs
  · unfold prepareAck
    cases hprotocol : s.configLocal.protocol with
    | esb => exact formatted_of_pcnf h.protocol rfl
    | esbDpl =>
      dsimp only
      unfold prepareAckDpl
      split_ifs
      · exact formatted_of_pcnf h.protocol rfl
      · exact formatted_of_pcnf h.protocol rfl
      · exact formatted_of_pcnf h.protocol rfl
  · exact formatted_of_pcnf h.protocol rfl

theorem formatted_onRadioDisabledRx (h : Formatted s) : Formatted (onRadioDisabledRx s) := by
  have hnoted : Formatted (notePidAndCrc s) := ⟨h.protocol, h.dpl⟩
  rw [onRadioDisabledRx_eq]
  split_ifs
  · exact formatted_acknowledge true hnoted
  · have hformatted := formatted_acknowledge false hnoted
    exact ⟨hformatted.protocol, hformatted.dpl⟩
  · exact formatted_of_pcnf h.protocol rfl

/-- **The handlers keep the format.** -/
theorem formatted_callOnRadioDisabled (h : Formatted s) : Formatted (callOnRadioDisabled s) := by
  unfold callOnRadioDisabled
  cases s.onRadioDisabled with
  | none => exact h
  | some handler =>
    cases handler with
    | txNoack =>
      rcases onRadioDisabledTxNoack_cases s with hfinish | hnext
      · show Formatted (onRadioDisabledTxNoack s)
        rw [hfinish]
        exact ⟨h.protocol, h.dpl⟩
      · show Formatted (onRadioDisabledTxNoack s)
        rw [hnext]
        exact formatted_startTxTransaction ⟨h.protocol, h.dpl⟩
    | tx =>
      have hformatted := formatted_callUpdateRfPayloadFormatIfEsb 0 h
      exact ⟨h.protocol, hformatted.dpl⟩
    | txWaitForAck =>
      show Formatted (onRadioDisabledTxWaitForAck s)
      unfold onRadioDisabledTxWaitForAck
      dsimp only
      split_ifs
      · exact formatted_onAckReceived ⟨h.protocol, h.dpl⟩
      · exact formatted_onAckMissed ⟨h.protocol, h.dpl⟩
    | rx => exact formatted_onRadioDisabledRx h
    | rxAck => exact formatted_of_pcnf h.protocol rfl

theorem formatted_initialised (cfg : NrfEsbConfig) (s : Esb) :
    Formatted (nrfEsbInit (some cfg) s).2 := formatted_of_pcnf rfl rfl

/-- **The format is right in every state.** -/
theorem formatted_exec (h : Formatted s) (c : EsbCall) : Formatted (s.exec c) := by
  by_cases hok : (s.call c).1 = .success
  case neg =>
    rw [exec_of_rejected s c hok]
    exact h
  cases c with
  | init pConfig =>
    cases pConfig with
    | none => exact h
    | some cfg => exact formatted_initialised cfg s
  | writePayload pPayload =>
    obtain ⟨p, rfl, hacc⟩ := accepted_of_nrfEsbWritePayload hok
    show Formatted (nrfEsbWritePayload (some p) s).2
    rw [nrfEsbWritePayload_of_accepted hacc]
    split_ifs
    · exact formatted_startTxTransaction ⟨h.protocol, h.dpl⟩
    · exact ⟨h.protocol, h.dpl⟩
  | readRxPayload pPayload =>
    show Formatted (nrfEsbReadRxPayload pPayload s).2.2
    rcases nrfEsbReadRxPayload_cases pPayload s with hsame | hread
    · rw [hsame]
      exact h
    · rw [hread]
      exact ⟨h.protocol, h.dpl⟩
  | evtIrq =>
    show Formatted (esbEvtIrqHandler s).2
    rcases esbEvtIrqHandler_cases s with hkept | hclear
    · rw [hkept]
      exact ⟨h.protocol, h.dpl⟩
    · rw [hclear]
      exact ⟨h.protocol, h.dpl⟩
  | startTx =>
    unfold Esb.exec Esb.call nrfEsbStartTx
    dsimp only
    split_ifs
    · exact h
    · exact h
    · exact formatted_startTxTransaction h
  | setAddressLength length =>
    -- The format is updated with the address length.
    unfold Esb.exec Esb.call nrfEsbSetAddressLength
    dsimp only
    split_ifs
    · exact h
    · exact formatted_of_pcnf h.protocol rfl
    · exact h
  | radioIrq ev =>
    show Formatted (radioIrqHandler ev s)
    rw [radioIrqHandler_eq]
    split_ifs
    · exact formatted_callOnRadioDisabled (formatted_latch ev h)
    · exact formatted_latch ev h
  | disable | suspend | startRx | stopRx | flushTx | popTx | flushRx | setBaseAddress0
  | setBaseAddress1 | setPrefixes | updatePrefix | enablePipes | setRfChannel | setTxPower =>
    unfold Esb.exec
    simp only [Esb.call, nrfEsbDisable, nrfEsbSuspend, nrfEsbStartRx, nrfEsbStopRx, nrfEsbFlushTx,
      nrfEsbPopTx, nrfEsbFlushRx, nrfEsbSetBaseAddress0, nrfEsbSetBaseAddress1, nrfEsbSetPrefixes,
      nrfEsbUpdatePrefix, nrfEsbEnablePipes, nrfEsbSetRfChannel, nrfEsbSetTxPower]
    repeat' split
    all_goals exact ⟨h.protocol, h.dpl⟩

/-! ## §3 Calls and the transaction -/

/-- A transaction is running. -/
def InTx (s : Esb) : Prop :=
  s.mainstate = .ptxTx ∨ s.mainstate = .ptxTxAck ∨ s.mainstate = .ptxRxAck

instance (s : Esb) : Decidable (InTx s) := by
  unfold InTx
  infer_instance

theorem InTx.ne_idle (h : InTx s) : s.mainstate ≠ .idle := by
  rintro hidle
  rcases h with h | h | h <;> cases hidle.symm.trans h

theorem not_inTx_of_rxHandlerMatches (h : RxHandlerMatches s) : ¬ InTx s := by
  intro htx
  unfold RxHandlerMatches at h
  rcases htx with htx | htx | htx
  · rw [htx] at h
    exact h
  · rw [htx] at h
    exact h
  · rw [htx] at h
    exact h

theorem rxHandlerMatches_of_idle (h : s.mainstate = .idle) : RxHandlerMatches s := by
  unfold RxHandlerMatches
  rw [h]
  trivial

theorem TxHandlerMatches.inTx (h : TxHandlerMatches s) (hbusy : s.mainstate ≠ .idle) : InTx s := by
  unfold TxHandlerMatches at h
  cases hs : s.mainstate with
  | idle => exact absurd hs hbusy
  | ptxTx => exact .inl hs
  | ptxTxAck => exact .inr (.inl hs)
  | ptxRxAck => exact .inr (.inr hs)
  | prx | prxSendAck =>
    rw [hs] at h
    exact h.elim

/-- **A call outside a transaction** starts one, or the module goes on resting or receiving. -/
theorem exec_outside (h : RxHandlerMatches s) (hirq : ∀ ev, c = .radioIrq ev → s.mainstate ≠ .idle) :
    (startsTx s c = true ∧ ∃ s', s.exec c = startTxTransaction s') ∨
      (startsTx s c = false ∧ RxHandlerMatches (s.exec c)) := by
  by_cases hok : (s.call c).1 = .success
  case neg =>
    have hstarts : startsTx s c = false := by
      cases c with
      | writePayload | startTx => simp [startsTx, hok]
      -- the interrupt of a module that receives: its handler completes no transmission
      | radioIrq ev => exact absurd rfl hok
      | _ => rfl
    rw [exec_of_rejected s c hok]
    exact .inr ⟨hstarts, h⟩
  cases c with
  | init pConfig =>
    refine .inr ⟨rfl, ?_⟩
    cases pConfig with
    | none => exact h
    | some cfg => exact rxHandlerMatches_of_idle rfl
  | disable => exact .inr ⟨rfl, rxHandlerMatches_of_idle rfl⟩
  -- an accepted packet starts a transaction in the automatic mode only
  | writePayload pPayload =>
    obtain ⟨p, rfl, hacc⟩ := accepted_of_nrfEsbWritePayload hok
    have hstarts : startsTx s (.writePayload (some p)) = autoStarts s := by simp [startsTx, hok]
    have hexec : s.exec (.writePayload (some p)) =
        if autoStarts s then startTxTransaction (enqueuePayload p s) else enqueuePayload p s := by
      show (nrfEsbWritePayload (some p) s).2 = _
      rw [nrfEsbWritePayload_of_accepted hacc]
      rfl
    rw [hstarts, hexec]
    cases hauto : autoStarts s with
    | true => exact .inl ⟨rfl, _, rfl⟩
    | false =>
      have hkept : RxHandlerMatches (enqueuePayload p s) := h
      exact .inr ⟨rfl, hkept⟩
  -- accepted: the module is idle and has a packet
  | startTx =>
    left
    refine ⟨by simp [startsTx, hok], s, ?_⟩
    have hidle : s.mainstate = .idle := by
      by_contra hbusy
      simp [Esb.call, nrfEsbStartTx, hbusy] at hok
    have hcount : ¬ s.txFifo.count = 0 := by
      intro hzero
      simp [Esb.call, nrfEsbStartTx, hidle, hzero] at hok
    unfold Esb.exec Esb.call nrfEsbStartTx
    dsimp only
    rw [if_neg (fun h => h hidle), if_neg hcount]
  | startRx =>
    refine .inr ⟨rfl, ?_⟩
    unfold Esb.exec Esb.call nrfEsbStartRx
    dsimp only
    split_ifs
    · exact h
    · exact ⟨rfl, rfl⟩
  | stopRx =>
    refine .inr ⟨rfl, ?_⟩
    unfold Esb.exec Esb.call nrfEsbStopRx
    dsimp only
    split_ifs
    · exact rxHandlerMatches_of_idle rfl
    · exact h
  | suspend =>
    refine .inr ⟨rfl, ?_⟩
    unfold Esb.exec Esb.call nrfEsbSuspend
    dsimp only
    split_ifs
    · exact h
    · exact rxHandlerMatches_of_idle rfl
  | readRxPayload pPayload =>
    refine .inr ⟨rfl, ?_⟩
    show RxHandlerMatches (nrfEsbReadRxPayload pPayload s).2.2
    rcases nrfEsbReadRxPayload_cases pPayload s with hsame | hread
    · rw [hsame]
      exact h
    · rw [hread]
      exact h
  | evtIrq =>
    refine .inr ⟨rfl, ?_⟩
    show RxHandlerMatches (esbEvtIrqHandler s).2
    rcases esbEvtIrqHandler_cases s with hkept | hclear
    · rw [hkept]
      exact h
    · rw [hclear]
      exact h
  | radioIrq ev =>
    right
    obtain ⟨-, hhandler⟩ := h.cases (hirq ev rfl)
    refine ⟨?_, radioIrqHandler_rxHandlerMatches ev h (hirq ev rfl)⟩
    have hdone : completesTx (ev.latch s) = false := by
      unfold completesTx
      rw [latch_onRadioDisabled]
      rcases hhandler with ⟨hrx, -⟩ | ⟨hack, -⟩
      · rw [hrx]
      · rw [hack]
    simp [startsTx, hdone]
  -- these leave the state and the handler of the radio as they are
  | flushTx | popTx | flushRx | setAddressLength | setBaseAddress0 | setBaseAddress1 | setPrefixes
  | updatePrefix | enablePipes | setRfChannel | setTxPower =>
    refine .inr ⟨rfl, ?_⟩
    unfold Esb.exec
    simp only [Esb.call, nrfEsbFlushTx, nrfEsbPopTx, nrfEsbFlushRx, nrfEsbSetAddressLength,
      nrfEsbSetBaseAddress0, nrfEsbSetBaseAddress1, nrfEsbSetPrefixes, nrfEsbUpdatePrefix,
      nrfEsbEnablePipes, nrfEsbSetRfChannel, nrfEsbSetTxPower]
    repeat' split
    all_goals exact h

/-- What the radio sends when it is enabled: the registers that say how, and the packet. -/
structure AirFormat where
  pcnf : Option Pcnf
  packetptr : PacketPtr
  packet : PayloadBuffer
  txaddress : UInt8
  frequency : UInt8
deriving DecidableEq

/-- What the module has set up. -/
def AirFormat.of (s : Esb) : AirFormat where
  pcnf := s.radio.pcnf
  packetptr := s.radio.packetptr
  packet := s.txPayloadBuffer
  txaddress := s.radio.txaddress
  frequency := s.radio.frequency

/-- What a call leaves of a transaction: everything but the cells of the TX FIFO, to which a
    payload may have been written. -/
structure KeepsTx (s s' : Esb) : Prop where
  mainstate : s'.mainstate = s.mainstate
  onRadioDisabled : s'.onRadioDisabled = s.onRadioDisabled
  protocol : s'.configLocal.protocol = s.configLocal.protocol
  esbAddr : s'.esbAddr = s.esbAddr
  format : s'.updateRfPayloadFormat = s.updateRfPayloadFormat
  air : AirFormat.of s' = .of s
  current : s'.currentPayload = s.currentPayload

theorem keepsTx_latch (ev : RadioEvent) (s : Esb) : KeepsTx s (ev.latch s) := by
  unfold RadioEvent.latch
  split
  · exact ⟨rfl, rfl, rfl, rfl, rfl, rfl, rfl⟩
  · exact ⟨rfl, rfl, rfl, rfl, rfl, rfl, rfl⟩

/-- **A call during a transaction** ends it, or keeps it and writes at most one cell. -/
theorem exec_inTx (hm : TxHandlerMatches s) (htx : InTx s) (hirq : ∀ ev, c ≠ .radioIrq ev) :
    (s.exec c).mainstate = .idle ∨ KeepsTx s (s.exec c) ∧
      ((s.exec c).txFifo.slots = s.txFifo.slots ∨
        ∃ p, c = .writePayload (some p) ∧ writeAccepted s p = true ∧
          (s.exec c).txFifo.slots =
            s.txFifo.slots.set s.txFifo.entryPoint { p with pid := nextPid s p.pipe }) := by
  have hbusy := htx.ne_idle
  have hsame : KeepsTx s s := ⟨rfl, rfl, rfl, rfl, rfl, rfl, rfl⟩
  by_cases hen : PtxEnabled s c
  · right
    rcases exec_busy hm hbusy hen hirq with ⟨⟨fifo, info, flags, pend, heq⟩, -⟩ | heq |
      ⟨p, hc, hacc, heq⟩
    · rw [heq]
      exact ⟨⟨rfl, rfl, rfl, rfl, rfl, rfl, rfl⟩, .inl rfl⟩
    · rw [heq]
      exact ⟨⟨rfl, rfl, rfl, rfl, rfl, rfl, rfl⟩, .inl rfl⟩
    · rw [heq]
      exact ⟨⟨rfl, rfl, rfl, rfl, rfl, rfl, rfl⟩, .inr ⟨p, hc, hacc, rfl⟩⟩
  · -- What a transmitter does not do may still be called.
    cases c with
    | init pConfig =>
      cases pConfig with
      | none => exact .inr ⟨hsame, .inl rfl⟩
      | some cfg => exact .inl rfl
    | disable => exact .inl rfl
    | startRx =>
      unfold Esb.exec Esb.call nrfEsbStartRx
      dsimp only
      rw [if_pos hbusy]
      exact .inr ⟨hsame, .inl rfl⟩
    | popTx =>
      right
      unfold Esb.exec Esb.call nrfEsbPopTx
      dsimp only
      split_ifs
      · exact ⟨hsame, .inl rfl⟩
      · exact ⟨hsame, .inl rfl⟩
      · exact ⟨⟨rfl, rfl, rfl, rfl, rfl, rfl, rfl⟩, .inl rfl⟩
    | radioIrq ev => exact absurd rfl (hirq ev)
    | _ => exact absurd trivial hen

/-! ## §4 What the attempts put on the air -/

/-- A module with what the first attempt of its last transaction was set up with. -/
structure FormatTrace where
  esb : Esb
  first : AirFormat

namespace FormatTrace

/-- One call. -/
def step (t : FormatTrace) (c : EsbCall) : FormatTrace where
  esb := t.esb.exec c
  first := if startsTx t.esb c then .of (t.esb.exec c) else t.first

/-- The calls and the interrupts. The radio is disabled while the module rests. -/
def Enabled (t : FormatTrace) : EsbCall → Prop
  | .radioIrq _ => t.esb.mainstate ≠ .idle
  | _ => True

instance (t : FormatTrace) : DecidablePred t.Enabled
  | .radioIrq _ => (inferInstance : Decidable (t.esb.mainstate ≠ .idle))
  | .init _ | .suspend | .disable | .writePayload _ | .readRxPayload _ | .startTx | .startRx
  | .stopRx | .flushTx | .popTx | .flushRx | .setAddressLength _ | .setBaseAddress0 _
  | .setBaseAddress1 _ | .setPrefixes _ _ | .updatePrefix _ _ | .enablePipes _ | .setRfChannel _
  | .setTxPower _ | .evtIrq =>
    (inferInstance : Decidable True)

/-- A freshly initialised module and its steps. -/
def machine : Machine FormatTrace EsbCall where
  start t := ∃ cfg s, t.esb = (nrfEsbInit (some cfg) s).2
  enabled := Enabled
  step := step

instance (t : FormatTrace) (c : EsbCall) : Decidable (machine.enabled t c) :=
  inferInstanceAs (Decidable (t.Enabled c))

/-- **Attempts are identical**: while a packet is on its way, or about to be, the radio is set up as
    it was for the first attempt. -/
def SameOnAir (t : FormatTrace) : Prop :=
  t.esb.mainstate = .ptxTx ∨ t.esb.mainstate = .ptxTxAck →
    AirFormat.of t.esb = t.first ∧ t.first.packetptr = .txBuffer

/-- **The condition**: under the fixed-length protocol, a payload that is written during a
    transaction to the cell of `mp_current_payload` has the length of the one that is there. -/
def KeepsLength (t : FormatTrace) : EsbCall → Prop
  | .writePayload (some p) =>
    InTx t.esb → t.esb.configLocal.protocol = .esb → writeAccepted t.esb p = true →
      t.esb.currentPayload = some t.esb.txFifo.entryPoint →
        p.length = (currentPayloadOf t.esb).length
  | _ => True

instance (t : FormatTrace) : DecidablePred t.KeepsLength
  | .writePayload (some p) =>
    (inferInstance : Decidable (InTx t.esb → t.esb.configLocal.protocol = .esb →
      writeAccepted t.esb p = true → t.esb.currentPayload = some t.esb.txFifo.entryPoint →
        p.length = (currentPayloadOf t.esb).length))
  | .writePayload none | .init _ | .suspend | .disable | .readRxPayload _ | .startTx | .startRx
  | .stopRx | .flushTx | .popTx | .flushRx | .setAddressLength _ | .setBaseAddress0 _
  | .setBaseAddress1 _ | .setPrefixes _ _ | .updatePrefix _ _ | .enablePipes _ | .setRfChannel _
  | .setTxPower _ | .evtIrq | .radioIrq _ =>
    (inferInstance : Decidable True)

/-- **The invariant**: the format of the next attempt is that of the first one. -/
structure FormatInv (t : FormatTrace) : Prop where
  handler : TxHandlerMatches t.esb ∨ RxHandlerMatches t.esb
  formatted : Formatted t.esb
  packet : InTx t.esb → t.first.packet = t.esb.txPayloadBuffer ∧
    t.first.txaddress = t.esb.radio.txaddress ∧ t.first.frequency = t.esb.radio.frequency ∧
    t.first.packetptr = .txBuffer
  format : InTx t.esb → t.first.pcnf = pcnfAfter t.esb.updateRfPayloadFormat t.esb.esbAddr
    (currentPayloadOf t.esb).length t.first.pcnf
  sending : t.esb.mainstate = .ptxTx ∨ t.esb.mainstate = .ptxTxAck →
    t.esb.radio.pcnf = t.first.pcnf ∧ t.esb.radio.packetptr = .txBuffer

theorem FormatInv.sameOnAir {t : FormatTrace} (h : FormatInv t) : SameOnAir t := by
  intro hsends
  have htx : InTx t.esb := by
    rcases hsends with hsends | hsends
    · exact .inl hsends
    · exact .inr (.inl hsends)
  obtain ⟨hpacket, haddress, hfrequency, hptr⟩ := h.packet htx
  obtain ⟨hpcnf, hpacketptr⟩ := h.sending hsends
  refine ⟨?_, hptr⟩
  obtain ⟨esb, first⟩ := t
  cases first
  dsimp only at hpacket haddress hfrequency hptr hpcnf hpacketptr
  unfold AirFormat.of
  rw [hpcnf, hpacketptr, ← hpacket, ← haddress, ← hfrequency, hptr]

/-- The module is not in a transaction. -/
theorem formatInv_outside {t : FormatTrace} (hrx : RxHandlerMatches t.esb)
    (hformatted : Formatted t.esb) : FormatInv t := by
  have hout := not_inTx_of_rxHandlerMatches hrx
  refine ⟨.inr hrx, hformatted, fun h => absurd h hout, fun h => absurd h hout, fun h => ?_⟩
  rcases h with h | h
  · exact absurd (.inl h) hout
  · exact absurd (.inr (.inl h)) hout

/-- **A transaction starts.** -/
theorem formatInv_start {t : FormatTrace} {s : Esb} (hesb : t.esb = startTxTransaction s)
    (hfirst : t.first = .of t.esb) (hformatted : Formatted t.esb) : FormatInv t := by
  have hptr : t.esb.radio.packetptr = .txBuffer := by
    rw [hesb]
    rfl
  refine ⟨.inl ?_, hformatted, fun _ => ?_, fun _ => ?_, fun _ => ?_⟩
  · rw [hesb]
    exact startTxTransaction_txHandlerMatches s
  · rw [hfirst]
    exact ⟨rfl, rfl, rfl, hptr⟩
  · rw [hfirst]
    show t.esb.radio.pcnf = _
    rw [hformatted.protocol]
    cases hprotocol : t.esb.configLocal.protocol with
    | esbDpl => exact hformatted.dpl hprotocol
    | esb =>
      -- The format was computed from the cell that `mp_current_payload` points to.
      have hprotocol' : s.configLocal.protocol = .esb := by
        rw [hesb] at hprotocol
        exact hprotocol
      have hformat : s.updateRfPayloadFormat = some .esb := by
        have hboth := hformatted.protocol
        rw [hprotocol, hesb] at hboth
        exact hboth
      rw [hesb]
      show (if s.configLocal.protocol = .esb then
        pcnfAfter s.updateRfPayloadFormat s.esbAddr s.txFifo.head.length s.radio.pcnf
        else s.radio.pcnf) = _
      rw [if_pos hprotocol', hformat]
      rfl
  · rw [hfirst]
    exact ⟨rfl, hptr⟩

/-- A call during a transaction that writes no cell but with the same length. -/
theorem formatInv_keeps {t : FormatTrace} {s' : Esb} (h : FormatInv t) (hk : KeepsTx t.esb s')
    (hformatted : Formatted s')
    (hlength : t.esb.configLocal.protocol = .esb →
      (currentPayloadOf s').length = (currentPayloadOf t.esb).length)
    (htx : InTx t.esb) (hm : TxHandlerMatches t.esb) : FormatInv ⟨s', t.first⟩ := by
  refine ⟨.inl ?_, hformatted, fun _ => ?_, fun _ => ?_, fun hsends => ?_⟩
  · unfold TxHandlerMatches
    rw [hk.mainstate, hk.onRadioDisabled]
    exact hm
  · obtain ⟨hpacket, haddress, hfrequency, hptr⟩ := h.packet htx
    exact ⟨hpacket.trans (congrArg AirFormat.packet hk.air).symm,
      haddress.trans (congrArg AirFormat.txaddress hk.air).symm,
      hfrequency.trans (congrArg AirFormat.frequency hk.air).symm, hptr⟩
  · have hformat := h.format htx
    dsimp only
    rw [hk.format, hk.esbAddr]
    rw [h.formatted.protocol] at hformat ⊢
    cases hprotocol : t.esb.configLocal.protocol with
    | esbDpl =>
      rw [hprotocol] at hformat
      exact hformat
    | esb =>
      rw [hprotocol] at hformat
      rw [hlength hprotocol]
      exact hformat
  · dsimp only at hsends ⊢
    rw [hk.mainstate] at hsends
    obtain ⟨hpcnf, hptr⟩ := h.sending hsends
    exact ⟨(congrArg AirFormat.pcnf hk.air).trans hpcnf,
      (congrArg AirFormat.packetptr hk.air).trans hptr⟩

/-- A write to a cell that is not the current one, or of the same length. -/
theorem length_currentPayloadOf_write {t : FormatTrace} {s' : Esb} {p : NrfEsbPayload}
    (hkeeps : t.KeepsLength (.writePayload (some p))) (htx : InTx t.esb)
    (hprotocol : t.esb.configLocal.protocol = .esb) (hacc : writeAccepted t.esb p = true)
    (hcurrent : s'.currentPayload = t.esb.currentPayload)
    (hslots : s'.txFifo.slots =
      t.esb.txFifo.slots.set t.esb.txFifo.entryPoint { p with pid := nextPid t.esb p.pipe }) :
    (currentPayloadOf s').length = (currentPayloadOf t.esb).length := by
  have hkept := hkeeps htx hprotocol hacc
  unfold currentPayloadOf at hkept ⊢
  rw [hcurrent, hslots]
  cases hcell : t.esb.currentPayload with
  | none => rfl
  | some i =>
    rw [hcell] at hkept
    dsimp only at hkept ⊢
    by_cases hi : i = t.esb.txFifo.entryPoint
    · subst hi
      by_cases hin : t.esb.txFifo.entryPoint < nrfEsbTxFifoSize
      · rw [FixedArray.get_set_self _ _ hin]
        exact hkept rfl
      · simp [FixedArray.get, hin]
    · rw [FixedArray.get_set_ne _ _ hi]

/-- The packet is out, and the window for the acknowledgment is open. -/
theorem formatInv_sent {t : FormatTrace} (h : FormatInv t) (htx : InTx t.esb) :
    FormatInv ⟨onRadioDisabledTx t.esb, t.first⟩ := by
  refine ⟨.inl rfl, ?_, fun _ => h.packet htx, fun _ => h.format htx, fun hsends => ?_⟩
  · have hformatted := formatted_callUpdateRfPayloadFormatIfEsb 0 h.formatted
    exact ⟨hformatted.protocol, hformatted.dpl⟩
  · rcases hsends with hsends | hsends
    · cases hsends
    · cases hsends

/-- **No acknowledgment came**: the format is computed once more. -/
theorem formatInv_missed {t : FormatTrace} (h : FormatInv t) (htx : InTx t.esb) :
    FormatInv ⟨onAckMissed t.esb, t.first⟩ := by
  have hformatted := formatted_onAckMissed h.formatted
  unfold onAckMissed at hformatted ⊢
  dsimp only at hformatted ⊢
  by_cases hzero : t.esb.retransmitsRemaining = 0
  · rw [if_pos hzero] at hformatted ⊢
    exact formatInv_outside (rxHandlerMatches_of_idle rfl) hformatted
  · rw [if_neg hzero] at hformatted ⊢
    refine ⟨.inl rfl, hformatted, fun _ => h.packet htx, fun _ => h.format htx, fun _ => ⟨?_, rfl⟩⟩
    have hformat := h.format htx
    have hpcnf : ∀ old old', pcnfAfter t.esb.updateRfPayloadFormat t.esb.esbAddr
        (currentPayloadOf t.esb).length old = pcnfAfter t.esb.updateRfPayloadFormat t.esb.esbAddr
        (currentPayloadOf t.esb).length old' := by
      intro old old'
      rw [h.formatted.protocol]
      cases t.esb.configLocal.protocol with
      | esb => rfl
      | esbDpl => rfl
    exact (hpcnf _ _).trans hformat.symm

/-- **A radio interrupt in a transaction.** -/
theorem formatInv_irq {t : FormatTrace} (h : FormatInv t) (ev : RadioEvent)
    (hm : TxHandlerMatches t.esb) (htx : InTx t.esb) : FormatInv (t.step (.radioIrq ev)) := by
  have hkeeps := keepsTx_latch ev t.esb
  have hlatch : FormatInv ⟨ev.latch t.esb, t.first⟩ := by
    refine formatInv_keeps h hkeeps (formatted_latch ev h.formatted) (fun _ => ?_) htx hm
    unfold currentPayloadOf
    rw [hkeeps.current, latch_txFifo]
  have htx' : InTx (ev.latch t.esb) := by
    unfold InTx
    rw [latch_mainstate]
    exact htx
  by_cases hintenset : t.esb.radio.intensetDisabled = true
  case neg =>
    -- The interrupt is not enabled.
    have hstep : t.step (.radioIrq ev) = ⟨ev.latch t.esb, t.first⟩ := by
      unfold step Esb.exec Esb.call
      simp [startsTx, radioIrqHandler_eq, latch_intensetDisabled, hintenset]
    rw [hstep]
    exact hlatch
  have hexec := exec_radioIrq ev hintenset
  have hformatted : Formatted (t.step (.radioIrq ev)).esb := formatted_exec h.formatted _
  cases hdone : completesTx (ev.latch t.esb) with
  | true =>
    rcases completesTx_cases hdone with ⟨-, hidle⟩ | ⟨hcontinues, s', hnext, -, -⟩
    · refine formatInv_outside (rxHandlerMatches_of_idle ?_) hformatted
      exact (congrArg Esb.mainstate hexec).trans hidle
    · refine formatInv_start (hexec.trans hnext) (if_pos (startsTx_of_busy hintenset hdone ?_))
        hformatted
      rw [hnext]
      exact startTxTransaction_busy s'
  | false =>
    have hstep : t.step (.radioIrq ev) = ⟨callOnRadioDisabled (ev.latch t.esb), t.first⟩ := by
      unfold step
      rw [hexec]
      simp [startsTx, hdone]
    rw [hstep]
    unfold TxHandlerMatches at hm
    unfold completesTx at hdone
    unfold callOnRadioDisabled
    rcases htx with hs | hs | hs
    · rw [hs] at hm
      rw [latch_onRadioDisabled, hm] at hdone
      cases hdone
    · rw [hs] at hm
      rw [latch_onRadioDisabled, hm]
      exact formatInv_sent hlatch htx'
    · rw [hs] at hm
      rw [latch_onRadioDisabled, hm] at hdone ⊢
      show FormatInv ⟨onRadioDisabledTxWaitForAck (ev.latch t.esb), t.first⟩
      unfold onRadioDisabledTxWaitForAck
      dsimp only at hdone ⊢
      rw [if_neg (by rw [hdone]; decide)]
      have hwaited : FormatInv ⟨{ ev.latch t.esb with ppi := { (ev.latch t.esb).ppi with
          timerStart := false, rxTimeout := false, timerStop := false } }, t.first⟩ :=
        ⟨hlatch.handler, ⟨hlatch.formatted.protocol, hlatch.formatted.dpl⟩, hlatch.packet,
          hlatch.format, hlatch.sending⟩
      exact formatInv_missed hwaited htx'

/-- **Step lemma.** -/
theorem formatInv_step {t : FormatTrace} {c : EsbCall} (h : FormatInv t) (hen : t.Enabled c)
    (hkeeps : t.KeepsLength c) : FormatInv (t.step c) := by
  have hformatted : Formatted (t.step c).esb := formatted_exec h.formatted c
  by_cases hrx : RxHandlerMatches t.esb
  · have hirq : ∀ ev, c = .radioIrq ev → t.esb.mainstate ≠ .idle := by
      rintro ev rfl
      exact hen
    rcases exec_outside hrx hirq with ⟨hstarts, s', hexec⟩ | ⟨-, hrest⟩
    · exact formatInv_start hexec (if_pos hstarts) hformatted
    · exact formatInv_outside hrest hformatted
  · have hm : TxHandlerMatches t.esb := h.handler.resolve_right hrx
    have hbusy : t.esb.mainstate ≠ .idle := fun hidle => hrx (rxHandlerMatches_of_idle hidle)
    have htx := hm.inTx hbusy
    by_cases hirq : ∃ ev, c = .radioIrq ev
    · obtain ⟨ev, rfl⟩ := hirq
      exact formatInv_irq h ev hm htx
    · push Not at hirq
      have hstep : t.step c = ⟨t.esb.exec c, t.first⟩ := by
        unfold step
        rw [startsTx_busy hbusy hirq]
        rfl
      rcases exec_inTx hm htx hirq with hidle | ⟨hk, hslots | ⟨p, rfl, hacc, hslots⟩⟩
      · exact formatInv_outside (rxHandlerMatches_of_idle hidle) hformatted
      · rw [hstep]
        refine formatInv_keeps h hk (formatted_exec h.formatted c) (fun _ => ?_) htx hm
        unfold currentPayloadOf
        rw [hk.current, hslots]
      · rw [hstep]
        refine formatInv_keeps h hk (formatted_exec h.formatted _) (fun hprotocol => ?_) htx hm
        exact length_currentPayloadOf_write hkeeps htx hprotocol hacc hk.current hslots

/-- **Retransmissions are identical** in every run in which no payload of another length is written
    over the current one. -/
theorem sameOnAir_of_reachable {t : FormatTrace} (h : machine.ReachableUnder KeepsLength t) :
    SameOnAir t := by
  have hinv : FormatInv t := h.invariant (I := FormatInv)
    (fun t ht => by
      obtain ⟨cfg, s, ht⟩ := ht
      refine formatInv_outside ?_ ?_
      · rw [ht]
        exact rxHandlerMatches_of_idle rfl
      · rw [ht]
        exact formatted_initialised cfg s)
    (fun t c hinv hen hkeeps => formatInv_step hinv hen hkeeps)
  exact hinv.sameOnAir

/-- A transmitter of payloads of fixed length, with one retransmission. -/
def fixedLengthStart : FormatTrace where
  esb := (nrfEsbInit (some { nrfEsbDefaultConfig with
    protocol := .esb, retransmitCount := 1, payloadLength := 32 }) .reset).2
  first := .of .reset

theorem fixedLengthStart_start : machine.start fixedLengthStart := ⟨_, _, rfl⟩

/-- A payload goes out for the second time, with another one in the queue. -/
theorem sameOnAir_secondAttempt :
    SameOnAir (machine.run fixedLengthStart
      [.writePayload (some (.ofBytes 0 0 [1])), .writePayload (some (.ofBytes 0 0 [2, 3])),
        .radioIrq .silent, .radioIrq .silent]) :=
  sameOnAir_of_reachable (.of_follows (.start fixedLengthStart_start) (by decide))

/-- **The FIFO is flushed during a transaction**: the next payload is written over the current one,
    and the retransmission has the length of the new one. -/
theorem not_sameOnAir_flushed : ¬ ∀ t, machine.Reachable t → SameOnAir t := by
  intro hall
  have hsame := hall (machine.run fixedLengthStart
    [.writePayload (some (.ofBytes 0 0 [1])), .flushTx,
      .writePayload (some (.ofBytes 0 0 [2, 3])), .radioIrq .silent, .radioIrq .silent])
    (.of_follows (.start fixedLengthStart_start) (by decide))
  have hformat := hsame (.inr (by decide))
  exact absurd (congrArg AirFormat.pcnf hformat.1) (by decide)

end FormatTrace

end NordicEsb
