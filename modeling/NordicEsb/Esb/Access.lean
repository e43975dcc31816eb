import NordicEsb.Esb.Pid

/-!
# Indexed Accesses

The module indexes two arrays with a pipe number, writes a pipe number to `TXADDRESS`, and
copies payload bytes between its packet buffers and the FIFO cells. `Esb.accesses` lists these
accesses of one call, in the order in which the code makes them.

The list says what the call changes: `m_pids` changes only where it is accessed
(`exec_pids_of_not_accessed`), and a new value of `TXADDRESS` is an access (`exec_txaddress`).
-/

namespace NordicEsb

/-! ## §1 Accesses -/

/-- An access that is in bounds or not. -/
inductive Access where
  /-- `m_pids[pipe]` -/
  | pids (pipe : ℕ)
  /-- `m_rx_pipe_info[pipe]` -/
  | rxPipeInfo (pipe : ℕ)
  /-- `NRF_RADIO->TXADDRESS = pipe` -/
  | txaddress (pipe : ℕ)
  /-- A `memcpy` of `length` bytes to or from the data of a FIFO cell. -/
  | copy (length : ℕ)
deriving DecidableEq, Repr

/-- The arrays have `NRF_ESB_PIPE_COUNT` cells, the radio has 8 logical addresses, and a cell
    has `NRF_ESB_MAX_PAYLOAD_LENGTH` data bytes. -/
def Access.InBounds : Access → Prop
  | .pids pipe | .rxPipeInfo pipe => pipe < nrfEsbPipeCount
  | .txaddress pipe => pipe ≤ 7
  | .copy length => length ≤ nrfEsbMaxPayloadLength

instance : DecidablePred Access.InBounds := fun a => by
  cases a <;> unfold Access.InBounds <;> infer_instance

/-- The accesses of `start_tx_transaction`. -/
def startTxAccesses (s : Esb) : List Access :=
  [.copy s.txFifo.head.length.toNat, .txaddress s.txFifo.head.pipe.toNat]

/-- The accesses of `rx_fifo_push_rfbuf`. -/
def rxPushAccesses (s : Esb) : List Access :=
  if rxPushAccepted s then [.copy (rxPushLength s).toNat] else []

/-- The accesses of `on_radio_disabled_tx_noack`. -/
def txNoackAccesses (s : Esb) : List Access :=
  let s := txFifoRemoveLast (raiseTxSuccess s)
  if s.txFifo.count = 0 then [] else startTxAccesses s

/-- The accesses of `on_radio_disabled_tx_wait_for_ack` when an acknowledgment came. -/
def ackReceivedAccesses (s : Esb) : List Access :=
  let s := txFifoRemoveLast (noteAck s)
  (if hasAckPayload s then rxPushAccesses s else []) ++
    if s.txFifo.count = 0 ∨ s.configLocal.txMode = .manual then [] else startTxAccesses s

/-- The accesses of `on_radio_disabled_tx_wait_for_ack`. -/
def txWaitForAckAccesses (s : Esb) : List Access :=
  if s.radio.eventsEnd && s.radio.crcstatus then ackReceivedAccesses s else []

/-- The accesses of the `if (ack)` branch of `on_radio_disabled_rx`. -/
def prepareAckAccesses (s : Esb) : List Access :=
  (if s.configLocal.protocol = .esbDpl ∧ ackPayloadMatches s = true then
      [.copy (if ackPayloadDelivered s then s.txFifo.dropHead else s.txFifo).head.length.toNat]
    else []) ++
    [.txaddress (rxmatchByte s).toNat]

/-- The accesses of `on_radio_disabled_rx`. -/
def rxAccesses (s : Esb) : List Access :=
  if acceptsRx s then
    .rxPipeInfo s.radio.rxmatch.val ::
      ((if ackRequested s then prepareAckAccesses s else []) ++
        if retransmitPayload s then [] else rxPushAccesses s)
  else []

/-- The accesses of the handler `on_radio_disabled` points to. -/
def handlerAccesses (s : Esb) : List Access :=
  match s.onRadioDisabled with
  | some .txNoack => txNoackAccesses s
  | some .txWaitForAck => txWaitForAckAccesses s
  | some .rx => rxAccesses s
  | none | some .tx | some .rxAck => []

/-- The accesses of a call. -/
def Esb.accesses (s : Esb) : EsbCall → List Access
  | .writePayload (some p) =>
    if writeAccepted s p then
      .pids p.pipe.toNat ::
        if autoStarts (enqueuePayload p s) then startTxAccesses (enqueuePayload p s) else []
    else []
  | .readRxPayload (some _) =>
    if s.esbInitialized ∧ s.rxFifo.count ≠ 0 then [.copy s.rxFifo.head.length.toNat] else []
  | .startTx => if (nrfEsbStartTx s).1 = .success then startTxAccesses s else []
  | .radioIrq ev =>
    if (ev.latch s).radio.intensetDisabled then handlerAccesses (ev.latch s) else []
  | _ => []

/-! ## §2 The accesses are those of the calls -/

/-- The calls that clear `m_pids`. -/
def clearsPids : EsbCall → Bool
  | .init (some _) | .disable => true
  | _ => false

/-- **`m_pids` changes where it is accessed**, unless it is cleared. -/
theorem exec_pids_of_not_accessed {s : Esb} {c : EsbCall} {i : ℕ} (hc : clearsPids c = false)
    (hacc : .pids i ∉ s.accesses c) : (s.exec c).pids.get i = s.pids.get i := by
  unfold Esb.exec
  cases c with
  | init pConfig =>
    cases pConfig with
    | none => rfl
    | some cfg => cases hc
  | disable => cases hc
  | radioIrq ev =>
    have hpids : (s.exec (.radioIrq ev)).pids = s.pids := (radioIrqHandler_frame ev s).1
    unfold Esb.exec at hpids
    rw [hpids]
  | writePayload pPayload =>
    by_cases hok : (nrfEsbWritePayload pPayload s).1 = .success
    · obtain ⟨p, rfl, hwrite⟩ := accepted_of_nrfEsbWritePayload hok
      have hne : i ≠ p.pipe.toNat := by
        rintro rfl
        exact hacc (by simp [Esb.accesses, hwrite])
      have hpids : (nrfEsbWritePayload (some p) s).2.pids =
          s.pids.set p.pipe.toNat (nextPid s p.pipe) := by
        rw [nrfEsbWritePayload_of_accepted hwrite]
        dsimp only
        split <;> rfl
      show (nrfEsbWritePayload (some p) s).2.pids.get i = _
      rw [hpids, FixedArray.get_set_ne _ _ hne]
    · have hsame : s.exec (.writePayload pPayload) = s := exec_of_rejected s _ hok
      unfold Esb.exec at hsame
      rw [hsame]
  | evtIrq =>
    simp only [Esb.call, esbEvtIrqHandler]
    repeat' split
    all_goals rfl
  | readRxPayload pPayload =>
    simp only [Esb.call, nrfEsbReadRxPayload]
    repeat' split
    all_goals simp_all
  | _ =>
    simp only [Esb.call, nrfEsbSuspend, nrfEsbStartTx, nrfEsbStartRx, nrfEsbStopRx, nrfEsbFlushTx,
      nrfEsbPopTx, nrfEsbFlushRx, nrfEsbSetAddressLength, nrfEsbSetBaseAddress0,
      nrfEsbSetBaseAddress1, nrfEsbSetPrefixes, nrfEsbUpdatePrefix, nrfEsbEnablePipes,
      nrfEsbSetRfChannel, nrfEsbSetTxPower]
    repeat' split
    all_goals rfl

theorem onAckReceived_txaddress (s : Esb) :
    (onAckReceived s).radio.txaddress = s.radio.txaddress ∨
      .txaddress (onAckReceived s).radio.txaddress.toNat ∈ ackReceivedAccesses s := by
  obtain ⟨t, ht⟩ : ∃ t, t = txFifoRemoveLast (noteAck s) := ⟨_, rfl⟩
  have hradio : t.radio = s.radio := by rw [ht]; rfl
  obtain ⟨u, hu⟩ : ∃ u, u = if hasAckPayload t then receiveAckPayload t else t := ⟨_, rfl⟩
  have hsame : u.radio = t.radio ∧ u.txFifo = t.txFifo ∧ u.configLocal = t.configLocal := by
    rw [hu]
    split <;> exact ⟨rfl, rfl, rfl⟩
  have hack : onAckReceived s =
      if u.txFifo.count = 0 ∨ u.configLocal.txMode = .manual then finishTx u else startNextTx u := by
    rw [hu, ht]
    rfl
  rw [hack, hsame.2.1, hsame.2.2]
  unfold ackReceivedAccesses
  dsimp only
  rw [← ht]
  split
  · left
    rw [← hradio, ← hsame.1]
    rfl
  · right
    have haddr : (startNextTx u).radio.txaddress = t.txFifo.head.pipe := by
      rw [← hsame.2.1]
      rfl
    rw [haddr]
    simp [startTxAccesses]

theorem acknowledge_txaddress (retransmit : Bool) (s : Esb) :
    (acknowledge retransmit s).radio.txaddress =
      if ackRequested s then rxmatchByte s else s.radio.txaddress := by
  unfold acknowledge prepareAck prepareAckDpl
  cases s
  repeat' split
  all_goals rfl

theorem onRadioDisabledRx_txaddress (s : Esb) :
    (onRadioDisabledRx s).radio.txaddress = s.radio.txaddress ∨
      .txaddress (onRadioDisabledRx s).radio.txaddress.toNat ∈ rxAccesses s := by
  have hack : ∀ b, (acknowledge b (notePidAndCrc s)).radio.txaddress =
      if ackRequested s then rxmatchByte s else s.radio.txaddress :=
    fun b => acknowledge_txaddress b (notePidAndCrc s)
  rw [onRadioDisabledRx_eq]
  unfold rxAccesses
  cases acceptsRx s with
  | false => exact .inl rfl
  | true =>
    have haddr : ∀ t : Esb, (t = acknowledge true (notePidAndCrc s) ∨
        t = pushReceived (acknowledge false (notePidAndCrc s))) →
        t.radio.txaddress = if ackRequested s then rxmatchByte s else s.radio.txaddress := by
      rintro t (rfl | rfl)
      · exact hack true
      · exact hack false
    rw [if_pos rfl, if_pos rfl, haddr _ (by split <;> simp)]
    cases ackRequested s with
    | false => exact .inl rfl
    | true => exact .inr (by simp [prepareAckAccesses])

/-- The handlers write `TXADDRESS` as an access says. -/
theorem callOnRadioDisabled_txaddress (s : Esb) :
    (callOnRadioDisabled s).radio.txaddress = s.radio.txaddress ∨
      .txaddress (callOnRadioDisabled s).radio.txaddress.toNat ∈ handlerAccesses s := by
  unfold callOnRadioDisabled handlerAccesses
  cases s.onRadioDisabled with
  | none => exact .inl rfl
  | some f =>
    cases f with
    | tx | rxAck => exact .inl rfl
    | txNoack =>
      dsimp only
      unfold onRadioDisabledTxNoack txNoackAccesses
      dsimp only
      split
      · exact .inl rfl
      · exact .inr (by simp [startTxAccesses, startNextTx, startTxTransaction])
    | txWaitForAck =>
      dsimp only
      unfold onRadioDisabledTxWaitForAck txWaitForAckAccesses
      dsimp only
      split
      · exact onAckReceived_txaddress _
      · left
        unfold onAckMissed
        dsimp only
        split <;> rfl
    | rx => exact onRadioDisabledRx_txaddress s

/-- **`TXADDRESS` changes as an access says.** -/
theorem exec_txaddress (s : Esb) (c : EsbCall) :
    (s.exec c).radio.txaddress = s.radio.txaddress ∨
      .txaddress (s.exec c).radio.txaddress.toNat ∈ s.accesses c := by
  by_cases hok : (s.call c).1 = .success
  · cases c with
    | radioIrq ev =>
      have haddr := callOnRadioDisabled_txaddress (ev.latch s)
      rw [latch_txaddress] at haddr
      have hexec : s.exec (.radioIrq ev) = radioIrqHandler ev s := rfl
      rw [hexec, radioIrqHandler_eq]
      unfold Esb.accesses
      dsimp only
      split
      · exact haddr
      · exact .inl (latch_txaddress ev s)
    | writePayload pPayload =>
      obtain ⟨p, rfl, hwrite⟩ := accepted_of_nrfEsbWritePayload hok
      have hexec : s.exec (.writePayload (some p)) = (nrfEsbWritePayload (some p) s).2 := rfl
      rw [hexec, nrfEsbWritePayload_of_accepted hwrite]
      unfold Esb.accesses
      dsimp only
      rw [if_pos hwrite]
      split
      · exact .inr (by simp [startTxAccesses, startTxTransaction_txaddress])
      · exact .inl rfl
    | startTx =>
      right
      have hstart : (nrfEsbStartTx s).1 = .success := hok
      have hexec : s.exec .startTx = startTxTransaction s := by
        show (nrfEsbStartTx s).2 = _
        unfold nrfEsbStartTx at hstart ⊢
        split
        case isTrue hbusy => simp [hbusy] at hstart
        case isFalse =>
          split
          case isTrue hempty => simp_all
          case isFalse => rfl
      unfold Esb.accesses
      dsimp only
      rw [if_pos hstart, hexec, startTxTransaction_txaddress]
      simp [startTxAccesses]
    | init pConfig =>
      left
      cases pConfig with
      | none => rfl
      | some cfg =>
        simp only [Esb.exec, Esb.call, nrfEsbInit]
        split <;> rfl
    | disable => exact .inl rfl
    | evtIrq =>
      left
      simp only [Esb.exec, Esb.call, esbEvtIrqHandler]
      repeat' split
      all_goals rfl
    | readRxPayload pPayload =>
      left
      simp only [Esb.exec, Esb.call, nrfEsbReadRxPayload]
      repeat' split
      all_goals simp_all
    | _ =>
      left
      simp only [Esb.exec, Esb.call, nrfEsbSuspend, nrfEsbStartRx, nrfEsbStopRx, nrfEsbFlushTx,
        nrfEsbPopTx, nrfEsbFlushRx, nrfEsbSetAddressLength, nrfEsbSetBaseAddress0,
        nrfEsbSetBaseAddress1, nrfEsbSetPrefixes, nrfEsbUpdatePrefix, nrfEsbEnablePipes,
        nrfEsbSetRfChannel, nrfEsbSetTxPower]
      repeat' split
      all_goals rfl
  · exact .inl (by rw [exec_of_rejected s c hok])

end NordicEsb
