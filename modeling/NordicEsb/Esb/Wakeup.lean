import NordicEsb.Esb.Pid

/-!
# No Payload Is Left Behind

In automatic mode `nrf_esb_write_payload` starts a transmission if the module rests, and the
radio interrupt starts the next one when a transmission ends. The two decide in separate steps:
the write first stores its payload and then tests the main state, and the interrupt may fire in
between.

- `WritePoint`: where `nrf_esb_write_payload` can be interrupted.
- `AutoTx`: a transmitter with a write in progress, and how its last transaction ended.
- `Awake`: the invariant. A resting module with payloads has given up on one, or a write is
  about to test the main state.

**Main result** (`notStranded_of_reachable`): when no call is in progress, a resting module with
payloads in the TX FIFO has given up its last transaction.
-/

namespace NordicEsb

/-! ## §1 How a transaction ends -/

/-- How a transaction ended: with `NRF_ESB_INT_TX_SUCCESS_MSK` or `NRF_ESB_INT_TX_FAILED_MSK`. -/
inductive TxEnd where
  | success
  | failed
deriving DecidableEq, Repr

/-- How the handler that runs on the latched state `s` ends the transaction, if it does. -/
def txEnd (s : Esb) : Option TxEnd :=
  if completesTx s then some .success
  else if s.onRadioDisabled = some .txWaitForAck ∧ s.retransmitsRemaining = 0 then some .failed
  else none

/-- The flag that says so. -/
def TxEnd.flag (f : InterruptFlags) : TxEnd → Bool
  | .success => f.txSuccess
  | .failed => f.txFailed

/-- **The end of a transaction is reported.** -/
theorem flag_of_txEnd {s : Esb} {e : TxEnd} (h : txEnd s = some e) :
    e.flag (callOnRadioDisabled s).interruptFlags = true := by
  unfold txEnd at h
  split at h
  case isTrue hcomp =>
    cases h
    unfold completesTx at hcomp
    unfold callOnRadioDisabled TxEnd.flag
    cases hh : s.onRadioDisabled with
    | none => simp [hh] at hcomp
    | some f =>
      cases f with
      | tx | rx | rxAck => simp [hh] at hcomp
      | txNoack =>
        dsimp only
        unfold onRadioDisabledTxNoack
        dsimp only
        split <;> rfl
      | txWaitForAck =>
        simp only [hh] at hcomp
        simp only [onRadioDisabledTxWaitForAck, hcomp, if_true]
        unfold onAckReceived
        dsimp only
        split <;> split <;> rfl
  case isFalse hcomp =>
    split at h
    case isTrue hgive =>
      cases h
      simp only [completesTx, hgive.1, Bool.not_eq_true] at hcomp
      unfold callOnRadioDisabled TxEnd.flag
      simp only [hgive.1, onRadioDisabledTxWaitForAck, hcomp, onAckMissed, hgive.2]
      rfl
    case isFalse => cases h

/-! ## §2 A transmitter in automatic mode -/

/-- The points of `nrf_esb_write_payload` between which the radio interrupt may fire. -/
inductive WritePoint where
  /-- The checks are passed; next comes `DISABLE_RF_IRQ`. -/
  | checked (p : NrfEsbPayload)
  /-- The payload is in the TX FIFO, after `ENABLE_RF_IRQ`; next comes the test of the main
      state. -/
  | enqueued
  /-- The test succeeded; next comes `start_tx_transaction`. -/
  | starting
deriving DecidableEq

/-- A call of the interface, a step of the write in progress, or an interrupt. -/
inductive AutoStep where
  | write (pPayload : Option NrfEsbPayload)
  | advance
  | flushTx
  | startTx
  | evtIrq
  | radioIrq (ev : RadioEvent)

/-- A transmitter, the write in progress, and how its last transaction ended. -/
structure AutoTx where
  esb : Esb
  writing : Option WritePoint
  lastEnd : Option TxEnd

namespace AutoTx

/-- Does `nrf_esb_write_payload` pass its checks? -/
def passes (s : Esb) (pPayload : Option NrfEsbPayload) : Option WritePoint :=
  match pPayload with
  | none => none
  | some p => if writeAccepted s p then some (.checked p) else none

/-- The next step of the write in progress. -/
def advance (t : AutoTx) : AutoTx :=
  match t.writing with
  | none => t
  | some (.checked p) => { t with esb := enqueuePayload p t.esb, writing := some .enqueued }
  | some .enqueued =>
    if autoStarts t.esb then { t with writing := some .starting } else { t with writing := none }
  | some .starting => { t with esb := startTxTransaction t.esb, writing := none }

/-- The radio interrupt. -/
def radioIrq (t : AutoTx) (ev : RadioEvent) : AutoTx :=
  { t with
    esb := radioIrqHandler ev t.esb
    lastEnd := if (ev.latch t.esb).radio.intensetDisabled then
        (txEnd (ev.latch t.esb)).or t.lastEnd
      else t.lastEnd }

/-- One step. -/
def step (t : AutoTx) : AutoStep → AutoTx
  | .write pPayload => { t with writing := passes t.esb pPayload }
  | .advance => t.advance
  | .flushTx => { t with esb := t.esb.exec .flushTx }
  | .startTx => { t with esb := t.esb.exec .startTx }
  | .evtIrq => { t with esb := t.esb.exec .evtIrq }
  | .radioIrq ev => t.radioIrq ev

/-- One call at a time; the radio is disabled while the module rests. -/
def Enabled (t : AutoTx) : AutoStep → Prop
  | .write _ | .flushTx | .startTx => t.writing = none
  | .advance => t.writing ≠ none
  | .evtIrq => True
  | .radioIrq _ => t.esb.mainstate ≠ .idle

instance (t : AutoTx) : DecidablePred t.Enabled := fun a => by
  cases a <;> unfold Enabled <;> infer_instance

/-- A transmitter in automatic mode and its steps. -/
def machine : Machine AutoTx AutoStep where
  start t := ∃ cfg s, cfg.mode = .ptx ∧ cfg.txMode = .auto ∧
    t = ⟨(nrfEsbInit (some cfg) s).2, none, none⟩
  enabled := Enabled
  step := step

instance (t : AutoTx) (a : AutoStep) : Decidable (machine.enabled t a) :=
  inferInstanceAs (Decidable (t.Enabled a))

/-- **Without an interrupt the steps of a write are `nrf_esb_write_payload`.** -/
theorem write_uninterrupted {t : AutoTx} (h : t.writing = none) (pPayload : Option NrfEsbPayload) :
    machine.run t [.write pPayload, .advance, .advance, .advance] =
      { t with esb := (nrfEsbWritePayload pPayload t.esb).2 } := by
  have hrejected : ∀ hpass : passes t.esb pPayload = none,
      machine.run t [.write pPayload, .advance, .advance, .advance] = t := by
    intro hpass
    have hwrite : t.step (.write pPayload) = t := by
      unfold step
      dsimp only
      rw [hpass, ← h]
    have hadvance : t.advance = t := by
      unfold advance
      rw [h]
    show (((t.step (.write pPayload)).advance).advance).advance = t
    rw [hwrite, hadvance, hadvance, hadvance]
  by_cases hok : (nrfEsbWritePayload pPayload t.esb).1 = .success
  · obtain ⟨p, rfl, hacc⟩ := accepted_of_nrfEsbWritePayload hok
    rw [nrfEsbWritePayload_of_accepted hacc]
    have hpass : passes t.esb (some p) = some (.checked p) := if_pos hacc
    obtain ⟨t₁, ht₁⟩ : ∃ t₁, t₁ = (t.step (.write (some p))).advance := ⟨_, rfl⟩
    have hfirst : t₁ = ⟨enqueuePayload p t.esb, some .enqueued, t.lastEnd⟩ := by
      rw [ht₁]
      unfold step advance
      dsimp only
      rw [hpass]
    show (((t.step (.write (some p))).advance).advance).advance = _
    rw [← ht₁, hfirst]
    unfold advance
    cases hst : autoStarts (enqueuePayload p t.esb) <;> simp [h]
  · have hsame : (nrfEsbWritePayload pPayload t.esb).2 = t.esb :=
      exec_of_rejected t.esb (.writePayload pPayload) hok
    rw [hsame]
    apply hrejected
    cases pPayload with
    | none => rfl
    | some p =>
      refine if_neg fun hacc => hok ?_
      rw [nrfEsbWritePayload_of_accepted hacc]

/-! ## §3 The invariant -/

/-- Payloads that no transmission takes care of. -/
def Stranded (t : AutoTx) : Prop :=
  t.writing = none ∧ t.esb.mainstate = .idle ∧ t.esb.txFifo.count ≠ 0

instance : DecidablePred Stranded := fun _ => inferInstanceAs (Decidable (_ ∧ _ ∧ _))

/-- **A resting module with payloads has given up on one**, or a write is about to start. -/
structure Awake (t : AutoTx) : Prop where
  handler : TxHandlerMatches t.esb
  mode : t.esb.configLocal.mode = .ptx
  auto : t.esb.configLocal.txMode = .auto
  resting : t.esb.mainstate = .idle → t.esb.txFifo.count ≠ 0 →
    t.lastEnd = some .failed ∨ t.writing = some .enqueued ∨ t.writing = some .starting
  starting : t.writing = some .starting → t.esb.mainstate = .idle

theorem awake_start {t : AutoTx} (h : machine.start t) : Awake t := by
  obtain ⟨cfg, s, hmode, hauto, rfl⟩ := h
  have hcfg : (nrfEsbInit (some cfg) s).2.configLocal = cfg := nrfEsbInit_configLocal cfg s
  have hfifo : (nrfEsbInit (some cfg) s).2.txFifo = s.txFifo.clear := nrfEsbInit_txFifo cfg s
  refine ⟨txHandlerMatches_of_idle rfl, ?_, ?_, fun _ hne => absurd ?_ hne, fun h => by cases h⟩
  · rw [hcfg]
    exact hmode
  · rw [hcfg]
    exact hauto
  · rw [hfifo]
    rfl

/-- A transmission has been started. -/
theorem Awake.of_startTx {t : AutoTx} (h : Awake t) {s : Esb} {w : Option WritePoint}
    {e : Option TxEnd} (hcfg : s.configLocal = t.esb.configLocal) (hw : w ≠ some .starting) :
    Awake ⟨startTxTransaction s, w, e⟩ := by
  have hbusy : (startTxTransaction s).mainstate ≠ .idle := by
    show (if wantsAck s.configLocal s.txFifo.head then _ else _) ≠ _
    split <;> simp
  refine ⟨startTxTransaction_txHandlerMatches s, ?_, ?_, fun hidle => absurd hidle hbusy,
    fun h => absurd h hw⟩
  · rw [startTxTransaction_configLocal, hcfg]
    exact h.mode
  · rw [startTxTransaction_configLocal, hcfg]
    exact h.auto

/-- **A step of the write.** Between its two halves the module may come to rest. -/
theorem Awake.advance {t : AutoTx} (h : Awake t) : Awake t.advance := by
  unfold AutoTx.advance
  cases hw : t.writing with
  | none => exact h
  | some point =>
    cases point with
    | checked p => exact ⟨h.handler, h.mode, h.auto, fun _ _ => .inr (.inl rfl), fun h => by cases h⟩
    | enqueued =>
      dsimp only
      cases hst : autoStarts t.esb with
      | true =>
        simp only [autoStarts, Bool.and_eq_true, beq_iff_eq] at hst
        exact ⟨h.handler, h.mode, h.auto, fun _ _ => .inr (.inr rfl), fun _ => hst.2⟩
      | false =>
        -- the mode allows a start, so the module is busy
        have hbusy : t.esb.mainstate ≠ .idle := by
          intro hidle
          simp [autoStarts, h.mode, h.auto, hidle] at hst
        exact ⟨h.handler, h.mode, h.auto, fun hidle => absurd hidle hbusy, fun h => by cases h⟩
    | starting => exact h.of_startTx rfl (by simp)

/-- Between the packets of a transaction only giving up lets the module rest. -/
theorem failed_of_idle {s : Esb} (hcomp : completesTx s = false) (hm : TxHandlerMatches s)
    (hbusy : s.mainstate ≠ .idle) (hidle : (callOnRadioDisabled s).mainstate = .idle) :
    txEnd s = some .failed := by
  unfold txEnd
  rw [if_neg (by simp [hcomp])]
  unfold completesTx at hcomp
  unfold TxHandlerMatches at hm
  unfold callOnRadioDisabled at hidle
  cases hs : s.mainstate with
  | idle => exact absurd hs hbusy
  | prx | prxSendAck => simp [hs] at hm
  | ptxTx =>
    simp only [hs] at hm
    simp [hm] at hcomp
  | ptxTxAck =>
    simp only [hs] at hm
    rw [hm] at hidle
    cases hidle
  | ptxRxAck =>
    simp only [hs] at hm
    simp only [hm] at hcomp
    simp only [hm, onRadioDisabledTxWaitForAck, hcomp, onAckMissed] at hidle
    by_cases hr : s.retransmitsRemaining = 0
    · rw [if_pos ⟨hm, hr⟩]
    · simp only [hr, if_false] at hidle
      cases hidle

/-- A completion rests with an empty FIFO. -/
theorem count_eq_zero_of_rests {s : Esb} (hi : s.radio.intensetDisabled = true)
    (hcomp : completesTx s = true) (hcont : continuesTx s = false)
    (hauto : s.configLocal.txMode = .auto) : (callOnRadioDisabled s).txFifo.count = 0 := by
  have heff : radioTxEffect s = .removeHead := by simp [radioTxEffect, hi, hcomp]
  rw [callOnRadioDisabled_txFifo s default hi, heff]
  have hcount : (txFifoRemoveLast s).txFifo.count = 0 := by
    by_contra hne
    simp [continuesTx, hauto, hne] at hcont
  exact hcount

/-- **The radio interrupt** rests only with an empty FIFO or after giving up. -/
theorem Awake.radioIrq {t : AutoTx} (h : Awake t) (hbusy : t.esb.mainstate ≠ .idle)
    (ev : RadioEvent) : Awake (t.radioIrq ev) := by
  obtain ⟨s, hs⟩ : ∃ s, s = ev.latch t.esb := ⟨_, rfl⟩
  have hcfg : s.configLocal = t.esb.configLocal := by rw [hs, latch_configLocal]
  have hhandler : TxHandlerMatches s := by
    rw [hs]
    simpa [TxHandlerMatches] using h.handler
  have hbusy' : s.mainstate ≠ .idle := by rwa [hs, latch_mainstate]
  -- a write about to start would have found the module resting
  have hw : t.writing ≠ some .starting := fun hw => hbusy (h.starting hw)
  unfold AutoTx.radioIrq
  rw [radioIrqHandler_eq, ← hs]
  cases hi : s.radio.intensetDisabled with
  | false =>
    exact ⟨hhandler, hcfg ▸ h.mode, hcfg ▸ h.auto, fun hidle => absurd hidle hbusy',
      fun h => absurd h hw⟩
  | true =>
    rw [if_pos rfl, if_pos rfl]
    cases hcomp : completesTx s with
    | true =>
      rcases completesTx_cases hcomp with ⟨hcont, hidle⟩ | ⟨-, s₁, hstart, -, hcfg₁⟩
      · have hempty := count_eq_zero_of_rests hi hcomp hcont (hcfg ▸ h.auto)
        have hcfg' : (callOnRadioDisabled s).configLocal = t.esb.configLocal :=
          (callOnRadioDisabled_frame s).2.trans hcfg
        exact ⟨txHandlerMatches_of_idle hidle, hcfg' ▸ h.mode, hcfg' ▸ h.auto,
          fun _ hne => absurd hempty hne, fun h => absurd h hw⟩
      · rw [hstart]
        exact h.of_startTx (hcfg₁.trans hcfg) hw
    | false =>
      obtain ⟨hhandler', -, -, -, hcfg'⟩ := not_completesTx_cases hcomp hhandler hbusy'
      rw [hcfg] at hcfg'
      refine ⟨hhandler', hcfg' ▸ h.mode, hcfg' ▸ h.auto, fun hidle _ => ?_, fun h => absurd h hw⟩
      left
      show (txEnd s).or t.lastEnd = some .failed
      rw [failed_of_idle hcomp hhandler hbusy' hidle]
      rfl

/-- **Every step keeps the invariant.** -/
theorem awake_step {t : AutoTx} {a : AutoStep} (h : Awake t) (hen : t.Enabled a) :
    Awake (t.step a) := by
  cases a with
  | advance => exact h.advance
  | radioIrq ev => exact h.radioIrq hen ev
  | write pPayload =>
    have hnone : t.writing = none := hen
    -- A call that begins has neither stored nor started anything.
    have hnew : passes t.esb pPayload ≠ some .starting ∧ passes t.esb pPayload ≠ some .enqueued := by
      unfold passes
      split
      · simp
      · split <;> simp
    refine ⟨h.handler, h.mode, h.auto, fun hidle hne => .inl ?_, fun hw => absurd hw hnew.1⟩
    rcases h.resting hidle hne with hfail | hw | hw
    · exact hfail
    · simp [hnone] at hw
    · simp [hnone] at hw
  -- an empty queue needs no transaction
  | flushTx =>
    have hesb : t.esb.exec .flushTx = t.esb ∨
        t.esb.exec .flushTx = { t.esb with txFifo := t.esb.txFifo.clear } := by
      simp only [Esb.exec, Esb.call, nrfEsbFlushTx]
      split
      · exact .inl rfl
      · exact .inr rfl
    unfold step
    dsimp only
    rcases hesb with hesb | hesb
    · rw [hesb]
      exact h
    · rw [hesb]
      exact ⟨h.handler, h.mode, h.auto, fun _ hne => absurd rfl hne, h.starting⟩
  -- refused, or a transaction is under way
  | startTx =>
    have hnone : t.writing = none := hen
    have hesb : t.esb.exec .startTx = t.esb ∨ t.esb.exec .startTx = startTxTransaction t.esb := by
      simp only [Esb.exec, Esb.call, nrfEsbStartTx]
      repeat' split
      · exact .inl rfl
      · exact .inl rfl
      · exact .inr rfl
    unfold step
    dsimp only
    rcases hesb with hesb | hesb
    · rw [hesb]
      exact h
    · rw [hesb]
      exact h.of_startTx rfl (by simp [hnone])
  | evtIrq =>
    have hesb : (t.esb.exec .evtIrq).mainstate = t.esb.mainstate ∧
        (t.esb.exec .evtIrq).onRadioDisabled = t.esb.onRadioDisabled ∧
        (t.esb.exec .evtIrq).configLocal = t.esb.configLocal ∧
        (t.esb.exec .evtIrq).txFifo = t.esb.txFifo := by
      simp only [Esb.exec, Esb.call, esbEvtIrqHandler]
      repeat' split
      all_goals exact ⟨rfl, rfl, rfl, rfl⟩
    obtain ⟨hmain, hhandler, hcfg, hfifo⟩ := hesb
    have hm : TxHandlerMatches (t.esb.exec .evtIrq) := by
      unfold TxHandlerMatches
      rw [hmain, hhandler]
      exact h.handler
    exact ⟨hm, hcfg ▸ h.mode, hcfg ▸ h.auto, fun hidle hne => h.resting (hmain ▸ hidle) (hfifo ▸ hne),
      fun hw => hmain.trans (h.starting hw)⟩

/-- **No stranded payload**: in every state reached, a resting module with payloads and no call
    in progress has given up its last transaction. -/
theorem notStranded_of_reachable {t : AutoTx} (h : machine.Reachable t) (hstr : Stranded t) :
    t.lastEnd = some .failed := by
  have hawake : Awake t :=
    h.invariant (fun _ hs => awake_start hs) fun _ _ hi hen _ => awake_step hi hen
  obtain ⟨hnone, hidle, hne⟩ := hstr
  rcases hawake.resting hidle hne with hfail | hw | hw
  · exact hfail
  · rw [hnone] at hw
    cases hw
  · rw [hnone] at hw
    cases hw

/-- A default transmitter before its first call. -/
def defaultStart : AutoTx := ⟨(nrfEsbInit (some nrfEsbDefaultConfig) .reset).2, none, none⟩

/-- A payload that nobody acknowledges. -/
def unacknowledgedRun : List AutoStep :=
  [.write (some (.ofBytes 0 0 [1])), .advance, .advance, .advance, .radioIrq .silent,
    .radioIrq .silent]

/-- It stays in the TX FIFO, and the transaction has been given up. -/
theorem notStranded_run_unacknowledged :
    Stranded (machine.run defaultStart unacknowledgedRun) ∧
      (machine.run defaultStart unacknowledgedRun).lastEnd = some .failed :=
  have hstr : Stranded (machine.run defaultStart unacknowledgedRun) := by decide
  ⟨hstr, notStranded_of_reachable
    (.of_follows (.start ⟨nrfEsbDefaultConfig, .reset, rfl, rfl, rfl⟩) (by decide)) hstr⟩

end AutoTx

end NordicEsb
