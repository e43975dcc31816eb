import NordicEsb.Esb.Agreement

/-!
# Null Pointers before Initialisation

`update_rf_payload_format` and the `p_payload` pointers of the two FIFOs are null after a reset
and are filled in by `nrf_esb_init`. Some functions of the interface test `m_esb_initialized`,
some test the main state only, and one of them starts the radio.

- `dereferencesFifo`: the calls that follow a `p_payload` pointer.
- `usesBeforeInit`: the two ways to reach a pointer that is still null.

**Main result** (`nullSafeAlong_iff`): from a reset on, a list of calls and radio events calls
and follows no null pointer exactly if none of its steps is of these two kinds.
-/

namespace NordicEsb

namespace Esb

/-! ## §1 Uses of the pointers -/

/-- The handler follows a `p_payload` pointer: to start the next payload, to store a packet, or
    to look at the payload for an acknowledgment. -/
def handlerDereferencesFifo (s : Esb) : Bool :=
  match s.onRadioDisabled with
  | none | some .tx | some .rxAck => false
  | some .txNoack => (txFifoRemoveLast s).txFifo.count != 0
  | some .txWaitForAck =>
    s.radio.eventsEnd && s.radio.crcstatus &&
      ((hasAckPayload s && rxPushAccepted s) ||
        ((txFifoRemoveLast s).txFifo.count != 0 && s.configLocal.txMode != .manual))
  | some .rx =>
    acceptsRx s &&
      ((ackRequested s && s.configLocal.protocol == .esbDpl && decide (0 < s.txFifo.count)) ||
        (!retransmitPayload s && rxPushAccepted s))

/-- The call follows a `p_payload` pointer. -/
def dereferencesFifo (s : Esb) : EsbCall → Bool
  | .writePayload (some p) => writeAccepted s p
  | .readRxPayload (some _) => s.esbInitialized && s.rxFifo.count != 0
  | .startTx => s.mainstate == .idle && s.txFifo.count != 0
  | .radioIrq ev => s.radio.intensetDisabled && handlerDereferencesFifo (ev.latch s)
  | _ => false

/-- A call goes through no null pointer. -/
def NullSafe (s : Esb) (c : EsbCall) : Prop :=
  (s.exec c).nullCall = false ∧ (dereferencesFifo s c = true → s.fifoPointersSet = true)

/-- No call of the list goes through a null pointer. -/
def NullSafeAlong : Esb → List EsbCall → Prop
  | _, [] => True
  | s, c :: calls => NullSafe s c ∧ NullSafeAlong (s.exec c) calls

/-- **Too early**: before the first `nrf_esb_init`, the address length is set, or a radio event
    reaches a module that was told to receive. -/
def usesBeforeInit (s : Esb) : EsbCall → Bool
  | .setAddressLength length =>
    !s.esbInitialized && s.mainstate == .idle && decide (length > 2 ∧ length < 6)
  | .radioIrq _ =>
    !s.esbInitialized && s.radio.intensetDisabled && s.onRadioDisabled == some .rx
  | _ => false

/-- No call of the list comes too early. -/
def InitialisedFirst : Esb → List EsbCall → Prop
  | _, [] => True
  | s, c :: calls => usesBeforeInit s c = false ∧ InitialisedFirst (s.exec c) calls

instance decidableNullSafeAlong : ∀ s calls, Decidable (NullSafeAlong s calls)
  | _, [] => .isTrue trivial
  | s, c :: calls =>
    have := decidableNullSafeAlong (s.exec c) calls
    inferInstanceAs (Decidable ((_ ∧ _) ∧ _))

/-! ## §2 An initialised module -/

/-- The pointers are set, and none was called while it was null. -/
structure Ready (s : Esb) : Prop where
  initialised : s.esbInitialized = true
  format : s.updateRfPayloadFormat.isSome = true
  pointers : s.fifoPointersSet = true
  clean : s.nullCall = false

theorem Ready.of_eq {s s' : Esb} (h : Ready s) (hinit : s'.esbInitialized = s.esbInitialized)
    (hformat : s'.updateRfPayloadFormat = s.updateRfPayloadFormat)
    (hpointers : s'.fifoPointersSet = s.fifoPointersSet) (hclean : s'.nullCall = s.nullCall) :
    Ready s' :=
  ⟨hinit.trans h.initialised, by rw [hformat]; exact h.format, hpointers.trans h.pointers,
    hclean.trans h.clean⟩

/-- A call of `update_rf_payload_format` goes through a pointer that is set. -/
theorem Ready.of_called {s s' : Esb} (h : Ready s) (hinit : s'.esbInitialized = s.esbInitialized)
    (hformat : s'.updateRfPayloadFormat = s.updateRfPayloadFormat)
    (hpointers : s'.fifoPointersSet = s.fifoPointersSet)
    (hclean : s'.nullCall = (s.nullCall || s.updateRfPayloadFormat.isNone)) : Ready s' := by
  apply h.of_eq hinit hformat hpointers
  have hnone : s.updateRfPayloadFormat.isNone = false := by
    simpa [Option.isNone_iff_eq_none, Option.isSome_iff_ne_none] using h.format
  rw [hclean, hnone, Bool.or_false]

theorem Ready.callFormatIfEsb {s : Esb} (h : Ready s) (n : UInt8) :
    Ready (callUpdateRfPayloadFormatIfEsb n s) := by
  refine ⟨h.initialised, h.format, h.pointers, ?_⟩
  have hnone : s.updateRfPayloadFormat.isNone = false := by
    simpa [Option.isNone_iff_eq_none, Option.isSome_iff_ne_none] using h.format
  show (s.nullCall || (s.configLocal.protocol == .esb && s.updateRfPayloadFormat.isNone)) = false
  rw [h.clean, hnone]
  simp

theorem Ready.startTxTransaction {s : Esb} (h : Ready s) : Ready (startTxTransaction s) := by
  have hcall := h.callFormatIfEsb s.txFifo.head.length
  exact ⟨hcall.initialised, hcall.format, hcall.pointers, hcall.clean⟩

theorem Ready.onAckReceived {s : Esb} (h : Ready s) : Ready (onAckReceived s) := by
  obtain ⟨t, ht⟩ : ∃ t, t = txFifoRemoveLast (noteAck s) := ⟨_, rfl⟩
  have hready : Ready t := by
    rw [ht]
    exact h.of_eq rfl rfl rfl rfl
  obtain ⟨u, hu⟩ : ∃ u, u = if hasAckPayload t then receiveAckPayload t else t := ⟨_, rfl⟩
  have hready' : Ready u := by
    rw [hu]
    split
    · exact hready.of_eq rfl rfl rfl rfl
    · exact hready
  unfold NordicEsb.onAckReceived
  dsimp only
  rw [← ht, ← hu]
  split
  · exact hready'.of_eq rfl rfl rfl rfl
  · exact (hready'.of_eq rfl rfl rfl rfl : Ready { u with evtIrqPending := true }).startTxTransaction

theorem Ready.loadAckPayload {s : Esb} (h : Ready s) : Ready (loadAckPayload s) := by
  have hflag : Ready (setAckPayload true s) := h.of_eq rfl rfl rfl rfl
  exact hflag.of_called rfl rfl rfl rfl

theorem Ready.loadEmptyAck {s : Esb} (h : Ready s) : Ready (loadEmptyAck s) := by
  have hflag : Ready (setAckPayload false s) := h.of_eq rfl rfl rfl rfl
  exact hflag.of_called rfl rfl rfl rfl

theorem Ready.prepareAckDpl {s : Esb} (h : Ready s) (retransmit : Bool) :
    Ready (prepareAckDpl retransmit s) := by
  have hecho : ∀ {t : Esb}, Ready t → Ready (echoByte1 t) := fun ht => ht.of_eq rfl rfl rfl rfl
  have hremove : Ready (removeAckPayload s) := h.of_eq rfl rfl rfl rfl
  unfold NordicEsb.prepareAckDpl
  split
  · split
    · exact hecho hremove.loadAckPayload
    · exact hecho h.loadAckPayload
  · exact hecho h.loadEmptyAck

theorem Ready.acknowledge {s : Esb} (h : Ready s) (retransmit : Bool) :
    Ready (acknowledge retransmit s) := by
  have hsend : ∀ {t : Esb}, Ready t → Ready (sendAck t) := fun ht => ht.of_eq rfl rfl rfl rfl
  have hesb : Ready (prepareAckEsb s) := h.of_called rfl rfl rfl rfl
  unfold NordicEsb.acknowledge
  split
  · unfold prepareAck
    cases s.configLocal.protocol with
    | esb => exact hsend hesb
    | esbDpl => exact hsend (h.prepareAckDpl retransmit)
  · exact h.of_called rfl rfl rfl rfl

theorem Ready.onRadioDisabledRx {s : Esb} (h : Ready s) : Ready (onRadioDisabledRx s) := by
  have hnoted : Ready (notePidAndCrc s) := h.of_eq rfl rfl rfl rfl
  rw [onRadioDisabledRx_eq]
  split
  · split
    · exact hnoted.acknowledge true
    · exact (hnoted.acknowledge false).of_eq rfl rfl rfl rfl
  · exact h.of_called rfl rfl rfl rfl

/-- **The handlers of an initialised module** call no null pointer. -/
theorem Ready.callOnRadioDisabled {s : Esb} (h : Ready s) : Ready (callOnRadioDisabled s) := by
  unfold NordicEsb.callOnRadioDisabled
  cases s.onRadioDisabled with
  | none => exact h
  | some handler =>
    cases handler with
    | txNoack =>
      dsimp only
      unfold onRadioDisabledTxNoack
      dsimp only
      have hnext : Ready { txFifoRemoveLast (raiseTxSuccess s) with evtIrqPending := true } :=
        h.of_eq rfl rfl rfl rfl
      split
      · exact h.of_eq rfl rfl rfl rfl
      · exact hnext.startTxTransaction
    | tx =>
      have hcall := h.callFormatIfEsb 0
      exact ⟨hcall.initialised, hcall.format, hcall.pointers, hcall.clean⟩
    | txWaitForAck =>
      dsimp only
      unfold onRadioDisabledTxWaitForAck
      dsimp only
      split
      · exact Ready.onAckReceived (h.of_eq rfl rfl rfl rfl)
      · unfold onAckMissed
        dsimp only
        split
        · exact h.of_eq rfl rfl rfl rfl
        · exact h.of_called rfl rfl rfl rfl
    | rx => exact h.onRadioDisabledRx
    | rxAck => exact h.of_called rfl rfl rfl rfl

theorem Ready.latch {s : Esb} (h : Ready s) (ev : RadioEvent) : Ready (ev.latch s) := by
  obtain ⟨r, b, heq⟩ := latch_eq ev s
  rw [heq]
  exact h.of_eq rfl rfl rfl rfl

/-- `nrf_esb_init` sets every pointer before it calls one. -/
theorem ready_init (cfg : NrfEsbConfig) {s : Esb} (hclean : s.nullCall = false) :
    Ready (nrfEsbInit (some cfg) s).2 := by
  refine ⟨rfl, rfl, rfl, ?_⟩
  unfold nrfEsbInit
  dsimp only
  split
  · show (s.nullCall || false) = false
    rw [hclean]
    rfl
  · show (s.nullCall || false) = false
    rw [hclean]
    rfl

/-- **Every call** leaves an initialised module ready. -/
theorem Ready.exec {s : Esb} (h : Ready s) (c : EsbCall) : Ready (s.exec c) := by
  by_cases hok : (s.call c).1 = .success
  case neg => rwa [exec_of_rejected s c hok]
  cases c with
  | init pConfig =>
    cases pConfig with
    | none => exact h
    | some cfg =>
      show Ready (nrfEsbInit (some cfg) s).2
      exact ready_init cfg h.clean
  | disable => exact h.of_eq rfl rfl rfl rfl
  | writePayload pPayload =>
    obtain ⟨p, rfl, hwrite⟩ := accepted_of_nrfEsbWritePayload hok
    have henqueue : Ready (enqueuePayload p s) := h.of_eq rfl rfl rfl rfl
    show Ready (nrfEsbWritePayload (some p) s).2
    rw [nrfEsbWritePayload_of_accepted hwrite]
    dsimp only
    split
    · exact henqueue.startTxTransaction
    · exact henqueue
  | startTx =>
    show Ready (nrfEsbStartTx s).2
    unfold nrfEsbStartTx
    split
    · exact h
    · split
      · exact h
      · exact h.startTxTransaction
  | setAddressLength length =>
    show Ready (nrfEsbSetAddressLength length s).2
    unfold nrfEsbSetAddressLength
    split
    · exact h
    · split
      · exact h
      · have hset : Ready { s with esbAddr := { s.esbAddr with addrLength := length } } :=
          h.of_eq rfl rfl rfl rfl
        exact hset.of_called rfl rfl rfl rfl
  | radioIrq ev =>
    show Ready (radioIrqHandler ev s)
    rw [radioIrqHandler_eq]
    split
    · exact (h.latch ev).callOnRadioDisabled
    · exact h.latch ev
  | evtIrq =>
    apply h.of_eq
    all_goals
      simp only [Esb.exec, Esb.call, esbEvtIrqHandler]
      repeat' split
      all_goals rfl
  | readRxPayload pPayload =>
    apply h.of_eq
    all_goals
      simp only [Esb.exec, Esb.call, nrfEsbReadRxPayload]
      repeat' split
      all_goals simp_all
  | _ =>
    apply h.of_eq
    all_goals
      simp only [Esb.exec, Esb.call, nrfEsbSuspend, nrfEsbStartRx, nrfEsbStopRx, nrfEsbFlushTx,
        nrfEsbPopTx, nrfEsbFlushRx, nrfEsbSetBaseAddress0, nrfEsbSetBaseAddress1, nrfEsbSetPrefixes,
        nrfEsbUpdatePrefix, nrfEsbEnablePipes, nrfEsbSetRfChannel, nrfEsbSetTxPower]
      repeat' split
      all_goals rfl

/-! ## §3 Before the first initialisation -/

/-- Nothing is queued and nothing was transmitted; the module may have been told to receive. -/
structure Untouched (s : Esb) : Prop where
  uninitialised : s.esbInitialized = false
  empty : s.txFifo.count = 0
  handler : s.onRadioDisabled = none ∨ s.onRadioDisabled = some .rx
  format : s.updateRfPayloadFormat = none
  clean : s.nullCall = false

theorem untouched_reset : Untouched Esb.reset := ⟨rfl, rfl, .inl rfl, rfl, rfl⟩

theorem Untouched.of_eq {s s' : Esb} (h : Untouched s)
    (hinit : s'.esbInitialized = s.esbInitialized) (hempty : s'.txFifo.count = s.txFifo.count)
    (hhandler : s'.onRadioDisabled = s.onRadioDisabled)
    (hformat : s'.updateRfPayloadFormat = s.updateRfPayloadFormat)
    (hclean : s'.nullCall = s.nullCall) : Untouched s' :=
  ⟨hinit.trans h.uninitialised, hempty.trans h.empty, by rw [hhandler]; exact h.handler,
    hformat.trans h.format, hclean.trans h.clean⟩

/-- Whatever is received, `on_radio_disabled_rx` calls `update_rf_payload_format`. -/
theorem onRadioDisabledRx_nullCall (s : Esb) :
    (onRadioDisabledRx s).nullCall = (s.nullCall || s.updateRfPayloadFormat.isNone) := by
  have hack : ∀ again, (acknowledge again (notePidAndCrc s)).nullCall =
      (s.nullCall || s.updateRfPayloadFormat.isNone) := by
    intro again
    unfold acknowledge
    split
    · unfold prepareAck
      cases (notePidAndCrc s).configLocal.protocol with
      | esb => rfl
      | esbDpl =>
        dsimp only
        unfold prepareAckDpl
        split
        · split
          · rfl
          · rfl
        · rfl
    · rfl
  rw [onRadioDisabledRx_eq]
  split
  · split
    · exact hack true
    · exact hack false
  · rfl

/-- A radio event that reaches a module told to receive calls the null pointer; any other is
    not handled. -/
theorem Untouched.radioIrq {s : Esb} (h : Untouched s) (ev : RadioEvent) :
    (usesBeforeInit s (.radioIrq ev) = true ∧ (s.exec (.radioIrq ev)).nullCall = true) ∨
      (usesBeforeInit s (.radioIrq ev) = false ∧ s.exec (.radioIrq ev) = ev.latch s ∧
        dereferencesFifo s (.radioIrq ev) = false) := by
  have hexec : s.exec (.radioIrq ev) = radioIrqHandler ev s := rfl
  rw [hexec, radioIrqHandler_eq, latch_intensetDisabled]
  unfold usesBeforeInit dereferencesFifo
  dsimp only
  rw [h.uninitialised]
  cases hi : s.radio.intensetDisabled with
  | false => exact .inr ⟨by simp, if_neg (by simp), by simp⟩
  | true =>
    rw [if_pos rfl]
    unfold callOnRadioDisabled handlerDereferencesFifo
    rw [latch_onRadioDisabled]
    rcases h.handler with hnone | hrx
    · rw [hnone]
      exact .inr ⟨rfl, rfl, rfl⟩
    · rw [hrx]
      refine .inl ⟨rfl, ?_⟩
      show (onRadioDisabledRx (ev.latch s)).nullCall = true
      obtain ⟨r, b, heq⟩ := latch_eq ev s
      rw [onRadioDisabledRx_nullCall, heq]
      show (s.nullCall || s.updateRfPayloadFormat.isNone) = true
      rw [h.format]
      simp

/-- **A call before the first initialisation** is safe exactly if it is not too early, and then
    the module is untouched or initialised. -/
theorem Untouched.step {s : Esb} (h : Untouched s) (c : EsbCall) :
    (NullSafe s c ↔ usesBeforeInit s c = false) ∧
      (usesBeforeInit s c = false → Untouched (s.exec c) ∨ Ready (s.exec c)) := by
  -- A call that needs no initialisation, touches no queue and keeps the module untouched.
  have hsafe : ∀ {c' : EsbCall}, usesBeforeInit s c' = false → dereferencesFifo s c' = false →
      Untouched (s.exec c') → (NullSafe s c' ↔ usesBeforeInit s c' = false) ∧
        (usesBeforeInit s c' = false → Untouched (s.exec c') ∨ Ready (s.exec c')) := by
    intro c' huse hderef hkeep
    refine ⟨⟨fun _ => huse, fun _ => ⟨hkeep.clean, fun hd => ?_⟩⟩, fun _ => .inl hkeep⟩
    rw [hderef] at hd
    cases hd
  cases c with
  | init pConfig =>
    cases pConfig with
    | none => exact hsafe rfl rfl h
    | some cfg =>
      have hready : Ready (s.exec (.init (some cfg))) := ready_init cfg h.clean
      exact ⟨⟨fun _ => rfl, fun _ => ⟨hready.clean, fun hd => (by cases hd)⟩⟩, fun _ => .inr hready⟩
  | disable =>
    exact hsafe rfl rfl ⟨h.uninitialised, rfl, h.handler, h.format, h.clean⟩
  -- the guard on `esb_initialized` rejects both
  | writePayload pPayload =>
    have hrejected : (s.call (.writePayload pPayload)).1 ≠ .success := by
      simp [Esb.call, nrfEsbWritePayload, h.uninitialised]
    have hderef : dereferencesFifo s (.writePayload pPayload) = false := by
      cases pPayload with
      | none => rfl
      | some p => simp [dereferencesFifo, writeAccepted, h.uninitialised]
    exact hsafe rfl hderef (by rwa [exec_of_rejected s _ hrejected])
  | readRxPayload pPayload =>
    have hrejected : (s.call (.readRxPayload pPayload)).1 ≠ .success := by
      simp [Esb.call, nrfEsbReadRxPayload, h.uninitialised]
    have hderef : dereferencesFifo s (.readRxPayload pPayload) = false := by
      cases pPayload with
      | none => rfl
      | some p => simp [dereferencesFifo, h.uninitialised]
    exact hsafe rfl hderef (by rwa [exec_of_rejected s _ hrejected])
  | startTx =>
    -- nothing can have been queued
    have hrejected : (s.call .startTx).1 ≠ .success := by
      simp only [Esb.call, nrfEsbStartTx, h.empty]
      split <;> simp
    exact hsafe rfl (by simp [dereferencesFifo, h.empty])
      (by rwa [exec_of_rejected s _ hrejected])
  -- no guard on `esb_initialized` here: the handler of the receiver is set
  | startRx =>
    refine hsafe rfl rfl ?_
    show Untouched (nrfEsbStartRx s).2
    unfold nrfEsbStartRx
    split
    · exact h
    · exact ⟨h.uninitialised, h.empty, .inr rfl, h.format, h.clean⟩
  | stopRx =>
    refine hsafe rfl rfl ?_
    show Untouched (nrfEsbStopRx s).2
    unfold nrfEsbStopRx
    split
    · exact ⟨h.uninitialised, h.empty, .inl rfl, h.format, h.clean⟩
    · exact h
  | setAddressLength length =>
    by_cases hidle : s.mainstate = .idle
    · by_cases hvalid : length > 2 ∧ length < 6
      · -- the address length is accepted, and the pointer behind it is null
        have huse : usesBeforeInit s (.setAddressLength length) = true := by
          simp [usesBeforeInit, h.uninitialised, hidle, hvalid]
        have hcall : (s.exec (.setAddressLength length)).nullCall = true := by
          show (nrfEsbSetAddressLength length s).2.nullCall = true
          unfold nrfEsbSetAddressLength
          rw [if_neg (by simpa using hidle), if_neg (by simpa using hvalid)]
          show (s.nullCall || s.updateRfPayloadFormat.isNone) = true
          rw [h.format]
          simp
        rw [huse]
        exact ⟨⟨fun hn => absurd hn.1 (by simp [hcall]), fun hf => (by cases hf)⟩,
          fun hf => (by cases hf)⟩
      · refine hsafe (by simp [usesBeforeInit, hvalid]) rfl ?_
        show Untouched (nrfEsbSetAddressLength length s).2
        unfold nrfEsbSetAddressLength
        rw [if_neg (by simpa using hidle), if_pos hvalid]
        exact h
    · refine hsafe (by simp [usesBeforeInit, hidle]) rfl ?_
      show Untouched (nrfEsbSetAddressLength length s).2
      unfold nrfEsbSetAddressLength
      rw [if_pos hidle]
      exact h
  -- an interrupt is unsafe where it calls a handler that is null
  | radioIrq ev =>
    rcases h.radioIrq ev with ⟨huse, hcall⟩ | ⟨huse, hexec, hderef⟩
    · rw [huse]
      exact ⟨⟨fun hn => absurd hn.1 (by simp [hcall]), fun hf => (by cases hf)⟩,
        fun hf => (by cases hf)⟩
    · refine hsafe huse hderef ?_
      obtain ⟨r, b, heq⟩ := latch_eq ev s
      rw [hexec, heq]
      exact h.of_eq rfl rfl rfl rfl rfl
  | evtIrq =>
    refine hsafe rfl rfl ?_
    apply h.of_eq
    all_goals
      simp only [Esb.exec, Esb.call, esbEvtIrqHandler]
      repeat' split
      all_goals rfl
  | flushTx | popTx | flushRx =>
    refine hsafe rfl rfl (h.of_eq ?_ ?_ ?_ ?_ ?_)
    all_goals
      simp [Esb.exec, Esb.call, nrfEsbFlushTx, nrfEsbPopTx, nrfEsbFlushRx, h.uninitialised]
  | _ =>
    refine hsafe rfl rfl (h.of_eq ?_ ?_ ?_ ?_ ?_)
    all_goals
      simp only [Esb.exec, Esb.call, nrfEsbSuspend, nrfEsbSetBaseAddress0, nrfEsbSetBaseAddress1,
        nrfEsbSetPrefixes, nrfEsbUpdatePrefix, nrfEsbEnablePipes, nrfEsbSetRfChannel,
        nrfEsbSetTxPower]
      repeat' split
      all_goals rfl

/-! ## §4 Every list of calls -/

/-- After the first initialisation no call is too early, and every call is safe. -/
theorem Ready.step {s : Esb} (h : Ready s) (c : EsbCall) :
    NullSafe s c ∧ usesBeforeInit s c = false := by
  refine ⟨⟨(h.exec c).clean, fun _ => h.pointers⟩, ?_⟩
  unfold usesBeforeInit
  split <;> simp [h.initialised]

theorem Ready.safeAlong {s : Esb} (h : Ready s) (calls : List EsbCall) :
    NullSafeAlong s calls ∧ InitialisedFirst s calls := by
  induction calls generalizing s with
  | nil => exact ⟨trivial, trivial⟩
  | cons c calls ih =>
    obtain ⟨hsafe, huse⟩ := h.step c
    obtain ⟨hrest, hfirst⟩ := ih (h.exec c)
    exact ⟨⟨hsafe, hrest⟩, huse, hfirst⟩

theorem Untouched.safeAlong_iff {s : Esb} (h : Untouched s) (calls : List EsbCall) :
    NullSafeAlong s calls ↔ InitialisedFirst s calls := by
  induction calls generalizing s with
  | nil => exact Iff.rfl
  | cons c calls ih =>
    obtain ⟨hsafe, hnext⟩ := h.step c
    constructor
    · rintro ⟨hc, hrest⟩
      have huse := hsafe.mp hc
      refine ⟨huse, ?_⟩
      rcases hnext huse with hkeep | hready
      · exact (ih hkeep).mp hrest
      · exact (hready.safeAlong calls).2
    · rintro ⟨huse, hfirst⟩
      refine ⟨hsafe.mpr huse, ?_⟩
      rcases hnext huse with hkeep | hready
      · exact (ih hkeep).mpr hfirst
      · exact (hready.safeAlong calls).1

/-- **No null pointer is used** along a list of calls and radio events from a reset on exactly
    if none of them comes too early. -/
theorem nullSafeAlong_iff (calls : List EsbCall) :
    NullSafeAlong Esb.reset calls ↔ InitialisedFirst Esb.reset calls :=
  untouched_reset.safeAlong_iff calls

/-- The address length is set before the module is initialised. -/
theorem not_nullSafeAlong_addressLength :
    ¬ NullSafeAlong Esb.reset [.setAddressLength 5, .init (some nrfEsbDefaultConfig)] := by
  decide +kernel

/-- A receiver that was started before it is initialised. -/
example : ¬ NullSafeAlong Esb.reset [.startRx, .radioIrq .silent] := by decide +kernel

end Esb

end NordicEsb
