import NordicEsb.Esb.Reception

/-!
# The RF Channel

`nrf_esb_set_rf_channel` only stores the channel; the register `FREQUENCY` is written when a
transmission or the receiver is started. A busy module refuses to store another channel.

- `exec_rfChannel`: no other call changes the stored channel.
- `OnChannel`: a module that is busy operates on the stored channel.

**Main result** (`OnChannel.exec`): every call keeps this, and so does the radio interrupt of a
module that is busy.
-/

namespace NordicEsb

/-! ## §1 The stored channel -/

variable {s : Esb} {c : EsbCall}

/-- Handling a radio event leaves the addresses and the channel alone. -/
theorem callOnRadioDisabled_esbAddr (s : Esb) : (callOnRadioDisabled s).esbAddr = s.esbAddr := by
  unfold callOnRadioDisabled
  cases s.onRadioDisabled with
  | none => rfl
  | some f =>
    cases f with
    | tx | rxAck => rfl
    | rx => exact (onRadioDisabledRx_frame s).esbAddr
    | txNoack =>
      dsimp only
      unfold onRadioDisabledTxNoack
      dsimp only
      split <;> rfl
    | txWaitForAck =>
      dsimp only
      unfold onRadioDisabledTxWaitForAck
      dsimp only
      split
      · unfold onAckReceived
        dsimp only
        split <;> split <;> rfl
      · unfold onAckMissed
        dsimp only
        split <;> rfl

theorem latch_esbAddr (ev : RadioEvent) (s : Esb) : (ev.latch s).esbAddr = s.esbAddr := by
  obtain ⟨r, b, hlatch⟩ := latch_eq ev s
  rw [hlatch]

theorem radioIrqHandler_esbAddr (ev : RadioEvent) (s : Esb) :
    (radioIrqHandler ev s).esbAddr = s.esbAddr := by
  rw [radioIrqHandler_eq]
  split
  · exact (callOnRadioDisabled_esbAddr _).trans (latch_esbAddr ev s)
  · exact latch_esbAddr ev s

/-- The call that stores a channel. -/
def setsRfChannel : EsbCall → Bool
  | .setRfChannel _ => true
  | _ => false

/-- **Only `nrf_esb_set_rf_channel` changes the stored channel.** -/
theorem exec_rfChannel (s : Esb) (hc : setsRfChannel c = false) :
    (s.exec c).esbAddr.rfChannel = s.esbAddr.rfChannel := by
  unfold Esb.exec
  cases c with
  | setRfChannel => cases hc
  | radioIrq ev => exact congrArg NrfEsbAddress.rfChannel (radioIrqHandler_esbAddr ev s)
  | init pConfig =>
    cases pConfig with
    | none => rfl
    | some cfg =>
      simp only [Esb.call, nrfEsbInit]
      split <;> rfl
  | disable => rfl
  | readRxPayload | evtIrq =>
    simp only [Esb.call, nrfEsbReadRxPayload, esbEvtIrqHandler]
    repeat' split
    all_goals simp_all
  | _ =>
    simp only [Esb.call, nrfEsbSuspend, nrfEsbWritePayload, nrfEsbStartTx, nrfEsbStartRx,
      nrfEsbStopRx, nrfEsbFlushTx, nrfEsbPopTx, nrfEsbFlushRx, nrfEsbSetAddressLength,
      nrfEsbSetBaseAddress0, nrfEsbSetBaseAddress1, nrfEsbSetPrefixes, nrfEsbUpdatePrefix,
      nrfEsbEnablePipes, nrfEsbSetTxPower]
    repeat' split
    all_goals rfl

/-- **A channel that is accepted is stored.** -/
theorem nrfEsbSetRfChannel_rfChannel {channel : UInt8}
    (hok : (nrfEsbSetRfChannel channel.toUInt32 s).1 = .success) :
    (nrfEsbSetRfChannel channel.toUInt32 s).2.esbAddr.rfChannel = channel := by
  unfold nrfEsbSetRfChannel at hok ⊢
  split at hok
  case isTrue => cases hok
  case isFalse hidle =>
    rw [if_neg hidle]
    split at hok
    case isTrue => cases hok
    case isFalse hvalid =>
      rw [if_neg hvalid]
      simp

/-! ## §2 The frequency -/

/-- **A busy module operates on the stored channel.** -/
def OnChannel (s : Esb) : Prop := s.mainstate ≠ .idle → s.radio.frequency = s.esbAddr.rfChannel

theorem onChannel_of_idle (h : s.mainstate = .idle) : OnChannel s := fun hbusy => absurd h hbusy

theorem acknowledge_frequency (retransmit : Bool) (s : Esb) :
    (acknowledge retransmit s).radio.frequency = s.radio.frequency := by
  unfold acknowledge prepareAck prepareAckDpl
  cases s
  repeat' split
  all_goals rfl

/-- The handlers keep the frequency, or start the next transmission on the stored channel. -/
theorem callOnRadioDisabled_frequency (s : Esb) :
    (callOnRadioDisabled s).radio.frequency = s.radio.frequency ∨
      (callOnRadioDisabled s).radio.frequency = s.esbAddr.rfChannel := by
  unfold callOnRadioDisabled
  cases s.onRadioDisabled with
  | none => exact .inl rfl
  | some f =>
    cases f with
    | tx | rxAck => exact .inl rfl
    | rx =>
      left
      dsimp only
      rw [onRadioDisabledRx_eq]
      split
      · split
        · exact acknowledge_frequency true (notePidAndCrc s)
        · exact acknowledge_frequency false (notePidAndCrc s)
      · rfl
    | txNoack =>
      dsimp only
      unfold onRadioDisabledTxNoack
      dsimp only
      split
      · exact .inl rfl
      · exact .inr rfl
    | txWaitForAck =>
      dsimp only
      unfold onRadioDisabledTxWaitForAck
      dsimp only
      split
      · unfold onAckReceived
        dsimp only
        -- whether the acknowledgment carries a payload, and whether a payload follows
        split
        · split
          · exact .inl rfl
          · exact .inr rfl
        · split
          · exact .inl rfl
          · exact .inr rfl
      · left
        unfold onAckMissed
        dsimp only
        split <;> rfl

/-- **The radio interrupt of a busy module.** -/
theorem OnChannel.radioIrqHandler (h : OnChannel s) (hbusy : s.mainstate ≠ .idle)
    (ev : RadioEvent) : OnChannel (radioIrqHandler ev s) := by
  intro _
  have hstored := radioIrqHandler_esbAddr ev s
  have hlatch : (ev.latch s).radio.frequency = s.radio.frequency := by
    unfold RadioEvent.latch
    split <;> rfl
  rw [hstored, radioIrqHandler_eq]
  split
  · rcases callOnRadioDisabled_frequency (ev.latch s) with hkept | hstarted
    · exact (hkept.trans hlatch).trans (h hbusy)
    · rw [hstarted, latch_esbAddr]
  · exact hlatch.trans (h hbusy)

/-- The calls that may start the radio. -/
theorem startTxTransaction_onChannel (s : Esb) : OnChannel (startTxTransaction s) := fun _ => rfl

theorem OnChannel.startRx (h : OnChannel s) : OnChannel (nrfEsbStartRx s).2 := by
  unfold nrfEsbStartRx
  split
  · exact h
  · exact fun _ => rfl

theorem OnChannel.writePayload (h : OnChannel s) (p : Option NrfEsbPayload) :
    OnChannel (nrfEsbWritePayload p s).2 := by
  unfold nrfEsbWritePayload
  dsimp only
  repeat' split
  all_goals first
    | exact h
    | exact startTxTransaction_onChannel _

/-- **A busy module refuses another channel.** -/
theorem OnChannel.setRfChannel (h : OnChannel s) (channel : UInt32) :
    OnChannel (nrfEsbSetRfChannel channel s).2 := by
  unfold nrfEsbSetRfChannel
  split
  · exact h
  case isFalse hidle =>
    rw [not_not] at hidle
    split
    · exact h
    · exact onChannel_of_idle hidle

/-- **Every call keeps a busy module on its channel.** -/
theorem OnChannel.exec (h : OnChannel s) (hc : ∀ ev, c = .radioIrq ev → s.mainstate ≠ .idle) :
    OnChannel (s.exec c) := by
  unfold Esb.exec
  cases c with
  | radioIrq ev => exact h.radioIrqHandler (hc ev rfl) ev
  | startRx => exact h.startRx
  | writePayload p => exact h.writePayload p
  | setRfChannel channel => exact h.setRfChannel channel
  | init pConfig =>
    cases pConfig with
    | none => exact h
    | some cfg => exact onChannel_of_idle rfl
  | disable => exact onChannel_of_idle rfl
  | suspend =>
    simp only [Esb.call, nrfEsbSuspend]
    split
    · exact h
    · exact onChannel_of_idle rfl
  | startTx =>
    simp only [Esb.call, nrfEsbStartTx]
    repeat' split
    all_goals first
      | exact h
      | exact startTxTransaction_onChannel _
  | stopRx =>
    simp only [Esb.call, nrfEsbStopRx]
    split
    · exact onChannel_of_idle rfl
    · exact h
  | readRxPayload | evtIrq =>
    simp only [Esb.call, nrfEsbReadRxPayload, esbEvtIrqHandler]
    repeat' split
    all_goals simp_all [OnChannel]
  | _ =>
    simp only [Esb.call, nrfEsbFlushTx, nrfEsbPopTx, nrfEsbFlushRx, nrfEsbSetAddressLength,
      nrfEsbSetBaseAddress0, nrfEsbSetBaseAddress1, nrfEsbSetPrefixes, nrfEsbUpdatePrefix,
      nrfEsbEnablePipes, nrfEsbSetTxPower]
    repeat' split
    all_goals exact h

end NordicEsb
