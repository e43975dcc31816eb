import NordicEsb.Esb.Transaction

/-!
# Main State and Handler

Nine functions point `on_radio_disabled` to a handler and set `m_nrf_esb_mainstate` by two
separate statements. Here the module runs from a reset with any calls and any radio events in
any order, initialisation, suspension and disabling included.

- `handlerOf`: the handler that belongs to a main state.
- `HandlerAgrees`: a module that is not idle runs the handler of its main state.
- `SettersFrozen`: a module that is not idle rejects every setter and stays as it is.

**Main result** (`agrees_of_reachable`): both hold in every reachable state.
-/

namespace NordicEsb

namespace Esb

/-! ## §1 Runs of the module -/

/-- The module from a reset on. -/
def machine : Machine Esb EsbCall where
  start s := s = Esb.reset
  enabled _ _ := True
  step := Esb.exec

/-- The handler that belongs to a main state; an idle module may keep any handler. -/
def handlerOf : NrfEsbMainstate → Option OnRadioDisabled
  | .idle => none
  | .ptxTx => some .txNoack
  | .ptxTxAck => some .tx
  | .ptxRxAck => some .txWaitForAck
  | .prx => some .rx
  | .prxSendAck => some .rxAck

/-- **A busy module runs the handler of its main state.** -/
def HandlerAgrees (s : Esb) : Prop :=
  s.mainstate ≠ .idle → s.onRadioDisabled = handlerOf s.mainstate

/-- The setters of the interface. -/
def isSetter : EsbCall → Bool
  | .setAddressLength _ | .setBaseAddress0 _ | .setBaseAddress1 _ | .setPrefixes _ _
  | .updatePrefix _ _ | .enablePipes _ | .setRfChannel _ | .setTxPower _ => true
  | _ => false

/-- **A busy module rejects every setter**: addresses, configuration and registers stay. -/
def SettersFrozen (s : Esb) : Prop :=
  s.mainstate ≠ .idle → ∀ c, isSetter c = true →
    (s.call c).1 = .errorBusy ∧ (s.exec c).esbAddr = s.esbAddr ∧
      (s.exec c).configLocal = s.configLocal ∧ (s.exec c).radio = s.radio

/-! ## §2 The agreement after each function -/

theorem handlerAgrees_of_idle {s : Esb} (h : s.mainstate = .idle) : HandlerAgrees s :=
  fun hbusy => absurd h hbusy

theorem handlerAgrees_of_eq {s s' : Esb} (h : HandlerAgrees s) (hmain : s'.mainstate = s.mainstate)
    (hhandler : s'.onRadioDisabled = s.onRadioDisabled) : HandlerAgrees s' := by
  unfold HandlerAgrees
  rw [hmain, hhandler]
  exact h

theorem startTxTransaction_agrees (s : Esb) : HandlerAgrees (startTxTransaction s) := by
  intro _
  have hmain : (startTxTransaction s).mainstate =
      if wantsAck s.configLocal s.txFifo.head then .ptxTxAck else .ptxTx := rfl
  have hhandler : (startTxTransaction s).onRadioDisabled =
      some (if wantsAck s.configLocal s.txFifo.head then .tx else .txNoack) := rfl
  rw [hmain, hhandler]
  cases wantsAck s.configLocal s.txFifo.head with
  | false => rfl
  | true => rfl

theorem onRadioDisabledTxNoack_agrees (s : Esb) : HandlerAgrees (onRadioDisabledTxNoack s) := by
  unfold onRadioDisabledTxNoack
  dsimp only
  split
  · exact handlerAgrees_of_idle rfl
  · exact startTxTransaction_agrees _

theorem onRadioDisabledTxWaitForAck_agrees (s : Esb) :
    HandlerAgrees (onRadioDisabledTxWaitForAck s) := by
  unfold onRadioDisabledTxWaitForAck
  dsimp only
  split
  · -- an acknowledgment came: the module rests or goes on with the next payload
    unfold onAckReceived
    dsimp only
    split
    · split
      · exact handlerAgrees_of_idle rfl
      · exact startTxTransaction_agrees _
    · split
      · exact handlerAgrees_of_idle rfl
      · exact startTxTransaction_agrees _
  · unfold onAckMissed
    dsimp only
    split
    · exact handlerAgrees_of_idle rfl
    · intro _
      rfl

theorem onRadioDisabledRx_agrees {s : Esb} (h : HandlerAgrees s) :
    HandlerAgrees (onRadioDisabledRx s) := by
  unfold HandlerAgrees
  rw [onRadioDisabledRx_mainstate, onRadioDisabledRx_onRadioDisabled]
  cases acceptsRx s && ackRequested s with
  | false => exact h
  | true => exact fun _ => rfl

/-- Every handler leaves its successor with the main state that belongs to it. -/
theorem callOnRadioDisabled_agrees {s : Esb} (h : HandlerAgrees s) :
    HandlerAgrees (callOnRadioDisabled s) := by
  unfold callOnRadioDisabled
  cases s.onRadioDisabled with
  | none => exact h
  | some f =>
    cases f with
    | txNoack => exact onRadioDisabledTxNoack_agrees s
    | tx => exact fun _ => rfl
    | txWaitForAck => exact onRadioDisabledTxWaitForAck_agrees s
    | rx => exact onRadioDisabledRx_agrees h
    | rxAck => exact fun _ => rfl

theorem radioIrqHandler_agrees (ev : RadioEvent) {s : Esb} (h : HandlerAgrees s) :
    HandlerAgrees (radioIrqHandler ev s) := by
  have hlatch : HandlerAgrees (ev.latch s) := handlerAgrees_of_eq h (by simp) (by simp)
  rw [radioIrqHandler_eq]
  split
  · exact callOnRadioDisabled_agrees hlatch
  · exact hlatch

/-- **Every call keeps the agreement.** -/
theorem exec_agrees {s : Esb} (h : HandlerAgrees s) (c : EsbCall) : HandlerAgrees (s.exec c) := by
  by_cases hok : (s.call c).1 = .success
  case neg => rwa [exec_of_rejected s c hok]
  cases c with
  | init pConfig =>
    cases pConfig with
    | none => exact h
    | some cfg => exact handlerAgrees_of_idle rfl
  | disable => exact handlerAgrees_of_idle rfl
  | writePayload pPayload =>
    obtain ⟨p, rfl, hwrite⟩ := accepted_of_nrfEsbWritePayload hok
    show HandlerAgrees (nrfEsbWritePayload (some p) s).2
    rw [nrfEsbWritePayload_of_accepted hwrite]
    dsimp only
    split
    · exact startTxTransaction_agrees _
    · exact handlerAgrees_of_eq h rfl rfl
  | startTx =>
    show HandlerAgrees (nrfEsbStartTx s).2
    unfold nrfEsbStartTx
    split
    · exact h
    · split
      · exact h
      · exact startTxTransaction_agrees s
  | startRx =>
    show HandlerAgrees (nrfEsbStartRx s).2
    unfold nrfEsbStartRx
    split
    · exact h
    · exact fun _ => rfl
  | stopRx =>
    show HandlerAgrees (nrfEsbStopRx s).2
    unfold nrfEsbStopRx
    split
    · exact handlerAgrees_of_idle rfl
    · exact h
  | radioIrq ev => exact radioIrqHandler_agrees ev h
  | evtIrq =>
    apply handlerAgrees_of_eq h
    all_goals
      simp only [Esb.exec, Esb.call, esbEvtIrqHandler]
      repeat' split
      all_goals rfl
  | readRxPayload pPayload =>
    apply handlerAgrees_of_eq h
    all_goals
      simp only [Esb.exec, Esb.call, nrfEsbReadRxPayload]
      repeat' split
      all_goals simp_all
  | suspend =>
    show HandlerAgrees (nrfEsbSuspend s).2
    unfold nrfEsbSuspend
    split
    · exact h
    · exact handlerAgrees_of_idle rfl
  | _ =>
    -- the queues and the setters: neither variable is written
    apply handlerAgrees_of_eq h
    all_goals
      simp only [Esb.exec, Esb.call, nrfEsbFlushTx, nrfEsbPopTx, nrfEsbFlushRx,
        nrfEsbSetAddressLength, nrfEsbSetBaseAddress0, nrfEsbSetBaseAddress1, nrfEsbSetPrefixes,
        nrfEsbUpdatePrefix, nrfEsbEnablePipes, nrfEsbSetRfChannel, nrfEsbSetTxPower]
      repeat' split
      all_goals rfl

/-! ## §3 Every reachable state -/

/-- A setter called while the module is busy returns at once. -/
theorem call_setter_of_busy {s : Esb} (hbusy : s.mainstate ≠ .idle) {c : EsbCall}
    (hc : isSetter c = true) : s.call c = (.errorBusy, s) := by
  cases c with
  | setAddressLength length => exact if_pos hbusy
  | setBaseAddress0 pAddr => exact if_pos hbusy
  | setBaseAddress1 pAddr => exact if_pos hbusy
  | setPrefixes pPrefixes numPipes => exact if_pos hbusy
  | updatePrefix pipe pfx => exact if_pos hbusy
  | enablePipes enableMask => exact if_pos hbusy
  | setRfChannel channel => exact if_pos hbusy
  | setTxPower txOutputPower => exact if_pos hbusy
  | _ => cases hc

theorem settersFrozen (s : Esb) : SettersFrozen s := by
  intro hbusy c hc
  have hcall := call_setter_of_busy hbusy hc
  have hexec : s.exec c = s := by
    unfold Esb.exec
    rw [hcall]
  rw [hcall, hexec]
  exact ⟨rfl, rfl, rfl, rfl⟩

theorem handlerAgrees_of_reachable {s : Esb} (h : machine.Reachable s) : HandlerAgrees s := by
  apply h.invariant
  · rintro s rfl
    exact handlerAgrees_of_idle rfl
  · intro s c hs _ _
    exact exec_agrees hs c

/-- **In every reachable state**, the handler is the one of the main state and the setters are
    frozen while the module is busy. -/
theorem agrees_of_reachable {s : Esb} (h : machine.Reachable s) :
    HandlerAgrees s ∧ SettersFrozen s :=
  ⟨handlerAgrees_of_reachable h, settersFrozen s⟩

/-- A module that waits for an acknowledgment. -/
theorem agrees_run_waiting :
    let s := machine.run Esb.reset [.init (some nrfEsbDefaultConfig),
      .writePayload (some (.ofBytes 0 0 [1])), .radioIrq .silent]
    s.mainstate = .ptxRxAck ∧ HandlerAgrees s ∧ SettersFrozen s :=
  ⟨by decide +kernel, agrees_of_reachable (.of_follows (.start rfl)
    ⟨trivial, trivial, trivial, trivial, trivial, trivial, trivial⟩)⟩

end Esb

end NordicEsb
