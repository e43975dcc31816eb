import NordicEsb.App.Response

/-!
# The Wait Loop of `hop_channel`

The interval timer interrupts with the highest priority. Its handler stops the receiver, and then
waits in `hop_channel` until the module is idle: a module that is busy stays so, since the radio
interrupt cannot come in. `nrf_esb_stop_rx` refuses to stop a receiver that sends an
acknowledgment.

A module that is initialised anew does not stop the radio. So the radio is watched as well here:
its interrupt comes when it is on, whatever the main state of the module.

- `HopEnters`: if the tick of this device hops, then the wait loop finds the module idle.
- `HopsSafely`: no acknowledgment is on the air when the timer hops, and the pairing record does
  not come with the acknowledgment of the pairing request.

**Main result** (`hops_of_reachable`): in a run with safe steps the loop has always ended, and in
normal mode it will end in the next tick exactly if that tick is safe.
-/

namespace NordicEsb

namespace Device

/-! ## §1 A device with its radio -/

/-- The radio at DISABLED: it is off, or the shortcut has turned it on again. -/
def radioDisabled (s : Esb) : Esb :=
  { s with radio := { s.radio with task :=
      match s.radio.disabledShort with
      | .none => .disable
      | .rxen => .rxen
      | .txen => .txen } }

/-- One interrupt. -/
def radioStep (d : Device) : DeviceStep → Device
  | .radioIrq ev => radioIrq ev { d with esb := radioDisabled d.esb }
  | .evtIrq => d.esbEvtIrq
  | .tick => d.intervalTimerEventHandler

/-- The radio reaches DISABLED when it was on. -/
def RadioEnabled (d : Device) : DeviceStep → Prop
  | .radioIrq _ => d.esb.radio.task ≠ .disable
  | .evtIrq => d.esb.evtIrqPending = true
  | .tick => d.intervalTimerRunning = true

instance (d : Device) : DecidablePred d.RadioEnabled
  | .radioIrq _ => (inferInstance : Decidable (d.esb.radio.task ≠ .disable))
  | .evtIrq => (inferInstance : Decidable (d.esb.evtIrqPending = true))
  | .tick => (inferInstance : Decidable (d.intervalTimerRunning = true))

/-- A device that `main` has started, in either mode. -/
def radioMachine : Machine Device DeviceStep where
  start d := ∃ flash button1 button2, d = main flash button1 button2
  enabled := RadioEnabled
  step := radioStep

instance (d : Device) (a : DeviceStep) : Decidable (radioMachine.enabled d a) :=
  inferInstanceAs (Decidable (d.RadioEnabled a))

/-! ## §2 The property -/

/-- The next tick hops. -/
def HopDue (d : Device) : Prop :=
  (d.gScanTimeout ≠ 0 ∨ d.gSyncTimeout ≠ 0 ∨ d.gForceHopChannel = true) ∧
    (countDown d.gScanTimeout = 0 ∨ d.gForceHopChannel = true)

instance : DecidablePred HopDue := fun _ => inferInstanceAs (Decidable (_ ∧ _))

/-- **The wait loop ends**: a tick that hops finds the module idle once `nrf_esb_stop_rx` is
    done. -/
def HopEnters (d : Device) : Prop := HopDue d → nrfEsbIsIdle (nrfEsbStopRx d.esb).2 = true

instance : DecidablePred HopEnters := fun _ => inferInstanceAs (Decidable (_ → _))

/-- The acknowledgment of the pairing request came with a payload of the size of a record: the
    handler sends the next request, and then stores this record and initialises the module. -/
def StoresInFlight (d : Device) : Prop :=
  d.gMode = .pairing ∧ d.gPairState = .sendReq ∧ d.esb.interruptFlags.txSuccess = true ∧
    d.esb.interruptFlags.rxDataReceived = true ∧ d.esb.rxFifo.head.length = sizeofPairInfo

instance : DecidablePred StoresInFlight := fun _ => inferInstanceAs (Decidable (_ ∧ _ ∧ _ ∧ _ ∧ _))

/-- The timer does not hop while an acknowledgment is sent. -/
def HopsSafely (d : Device) : DeviceStep → Prop
  | .radioIrq _ => True
  | .evtIrq => ¬ StoresInFlight d
  | .tick => ¬ (HopDue d ∧ d.esb.mainstate = .prxSendAck)

instance (d : Device) : DecidablePred d.HopsSafely
  | .radioIrq _ => (inferInstance : Decidable True)
  | .evtIrq => (inferInstance : Decidable (¬ StoresInFlight d))
  | .tick => (inferInstance : Decidable (¬ (HopDue d ∧ d.esb.mainstate = .prxSendAck)))

/-! ## §3 The radio of a module that rests -/

/-- **When the radio is on although the module rests**, then an acknowledgment was cut short by
    `nrf_esb_init`, or the interrupt has no handler. In an acknowledgment window no shortcut turns
    the radio on again. -/
structure Wired (s : Esb) : Prop where
  transmitter : s.mainstate = .idle → s.configLocal = appEsbConfig true → s.radio.task = .disable
  receiver : s.mainstate = .idle →
    s.radio.task = .disable ∨ s.onRadioDisabled = none ∨ s.onRadioDisabled = some .rxAck
  window : s.mainstate = .ptxRxAck → s.radio.disabledShort = .none

variable {s : Esb} {p : NrfEsbPayload} {d d' : Device} {q : List NrfEsbPayload}

/-- A module that receives, acknowledges or sends. -/
theorem wired_of_busy (hidle : s.mainstate ≠ .idle) (hwindow : s.mainstate ≠ .ptxRxAck) :
    Wired s :=
  ⟨fun h => absurd h hidle, fun h => absurd h hidle, fun h => absurd h hwindow⟩

theorem wired_of_polls (h : Box.Polls s q) : Wired s := by
  rcases h.mainstate with hprx | hack
  · exact wired_of_busy (by simp [hprx]) (by simp [hprx])
  · exact wired_of_busy (by simp [hack]) (by simp [hack])

theorem Wired.collect (h : Wired s) :
    Wired { s with evtIrqPending := false, interruptFlags := .clear } :=
  ⟨h.transmitter, h.receiver, h.window⟩

theorem nrfEsbInit_task (cfg : NrfEsbConfig) (s : Esb) :
    (nrfEsbInit (some cfg) s).2.radio.task = s.radio.task := by
  unfold nrfEsbInit
  dsimp only
  split <;> rfl

theorem nrfEsbInit_onRadioDisabled (cfg : NrfEsbConfig) (s : Esb) :
    (nrfEsbInit (some cfg) s).2.onRadioDisabled = s.onRadioDisabled := by
  unfold nrfEsbInit
  dsimp only
  split <;> rfl

theorem nrfEsbSetBaseAddress0_task (addr : Option (FixedArray 4 UInt8)) (s : Esb) :
    (nrfEsbSetBaseAddress0 addr s).2.radio.task = s.radio.task := by
  unfold nrfEsbSetBaseAddress0
  split
  · rfl
  · split <;> rfl

theorem nrfEsbSetBaseAddress1_task (addr : Option (FixedArray 4 UInt8)) (s : Esb) :
    (nrfEsbSetBaseAddress1 addr s).2.radio.task = s.radio.task := by
  unfold nrfEsbSetBaseAddress1
  split
  · rfl
  · split <;> rfl

theorem nrfEsbSetPrefixes_task (prefixes : Option (FixedArray 8 UInt8)) (n : UInt8) (s : Esb) :
    (nrfEsbSetPrefixes prefixes n s).2.radio.task = s.radio.task := by
  unfold nrfEsbSetPrefixes
  split
  · rfl
  · split
    · rfl
    · split <;> rfl

theorem nrfEsbUpdatePrefix_task (pipe pfx : UInt8) (s : Esb) :
    (nrfEsbUpdatePrefix pipe pfx s).2.radio.task = s.radio.task := by
  unfold nrfEsbUpdatePrefix
  split
  · rfl
  · split <;> rfl

/-- The radio stays on or off when the device enters normal mode. -/
theorem enterNormalMode_task (d : Device) :
    d.enterNormalMode.esb.radio.task = d.esb.radio.task := by
  have hesb : d.enterNormalMode.esb = (nrfEsbUpdatePrefix 1 d.gDs.devIdx (nrfEsbSetBaseAddress1
      (some d.gDs.sysAddress32) (nrfEsbInit (some (appEsbConfig false)) d.esb).2).2).2 := rfl
  rw [hesb, nrfEsbUpdatePrefix_task, nrfEsbSetBaseAddress1_task, nrfEsbInit_task]

/-- **A module at rest enters normal mode.** -/
theorem wired_enterNormalMode (hoff : d.esb.radio.task = .disable) :
    Wired d.enterNormalMode.esb := by
  have hmain := enterNormalMode_mainstate d
  have htask := (enterNormalMode_task d).trans hoff
  exact ⟨fun _ _ => htask, fun _ => .inl htask, fun h => absurd (hmain.symm.trans h) (by decide)⟩

/-- The packet is out: the shortcut is used up. -/
theorem sentBy_disabledShort (h : Transmits s .ptxTxAck p) (ev : RadioEvent) :
    (radioIrqHandler ev s).radio.disabledShort = .none := by
  have hh : s.onRadioDisabled = some .tx := by simpa [TxHandlerMatches, h.mainstate] using h.handler
  rw [h.radioIrqHandler, callOnRadioDisabled, latch_onRadioDisabled, hh]
  rfl

theorem latch_task (ev : RadioEvent) (s : Esb) : (ev.latch s).radio.task = s.radio.task := by
  unfold RadioEvent.latch
  split <;> rfl

/-- The start of a transmission is not the end of one. -/
theorem startNextTx_busy (s : Esb) : (startNextTx s).mainstate ≠ .idle := by
  have hstate : (startNextTx s).mainstate =
      if wantsAck s.configLocal s.txFifo.head then .ptxTxAck else .ptxTx := rfl
  rw [hstate]
  split <;> decide

theorem onAckReceived_task (hidle : (onAckReceived s).mainstate = .idle) :
    (onAckReceived s).radio.task = s.radio.task := by
  obtain ⟨s₁, hs₁⟩ : ∃ s₁, s₁ = txFifoRemoveLast (noteAck s) := ⟨_, rfl⟩
  obtain ⟨s₂, hs₂⟩ : ∃ s₂, s₂ = if hasAckPayload s₁ then receiveAckPayload s₁ else s₁ := ⟨_, rfl⟩
  have hradio : s₂.radio = s.radio := by
    rw [hs₂, hs₁]
    split <;> rfl
  have hack : onAckReceived s =
      if s₂.txFifo.count = 0 ∨ s₂.configLocal.txMode = .manual then finishTx s₂
      else startNextTx s₂ := by
    rw [hs₂, hs₁]
    rfl
  rw [hack] at hidle ⊢
  split at hidle
  case isTrue hdone =>
    rw [if_pos hdone]
    exact congrArg NrfRadio.task hradio
  case isFalse => exact absurd hidle (startNextTx_busy s₂)

theorem onAckMissed_task (hidle : (onAckMissed s).mainstate = .idle) :
    (onAckMissed s).radio.task = s.radio.task := by
  unfold onAckMissed at hidle ⊢
  dsimp only at hidle ⊢
  split at hidle
  case isTrue hlast =>
    rw [if_pos hlast]
    rfl
  case isFalse => cases hidle

/-- What ends in a resting module has not touched the radio. -/
theorem onRadioDisabledTxWaitForAck_task
    (hidle : (onRadioDisabledTxWaitForAck s).mainstate = .idle) :
    (onRadioDisabledTxWaitForAck s).radio.task = s.radio.task := by
  unfold onRadioDisabledTxWaitForAck at hidle ⊢
  dsimp only at hidle ⊢
  split at hidle
  case isTrue hack =>
    rw [if_pos hack]
    exact onAckReceived_task hidle
  case isFalse hno =>
    rw [if_neg hno]
    exact onAckMissed_task hidle

/-- **The window closes**: the radio is off. -/
theorem closedBy_task (h : Transmits s .ptxRxAck p) (ev : RadioEvent)
    (hidle : (radioIrqHandler ev s).mainstate = .idle) :
    (radioIrqHandler ev s).radio.task = s.radio.task := by
  have hh : s.onRadioDisabled = some .txWaitForAck := by
    simpa [TxHandlerMatches, h.mainstate] using h.handler
  have hirq : radioIrqHandler ev s = onRadioDisabledTxWaitForAck (ev.latch s) := by
    rw [h.radioIrqHandler, callOnRadioDisabled, latch_onRadioDisabled, hh]
  rw [hirq] at hidle ⊢
  rw [onRadioDisabledTxWaitForAck_task hidle, latch_task]

/-! ## §4 The radio interrupt -/

/-- A module whose radio is off. -/
theorem wired_of_off (hidle : s.mainstate = .idle) (hoff : s.radio.task = .disable) : Wired s :=
  ⟨fun _ _ => hoff, fun _ => .inl hoff, fun h => absurd (hidle.symm.trans h) (by decide)⟩

theorem transmits_radioDisabled {m : NrfEsbMainstate} (h : Transmits s m p) :
    Transmits (radioDisabled s) m p :=
  ⟨h.initialized, h.config, h.mainstate, h.handler, h.inten, h.fifo, h.attempts, h.air⟩

theorem polls_radioDisabled (h : Box.Polls s q) : Box.Polls (radioDisabled s) q :=
  ⟨h.initialized, h.config, ⟨h.receives.mode, h.receives.protocol, h.receives.handler⟩, h.busy,
    h.tx, h.rx, h.success, h.failed⟩

/-- The radio is off when the window has closed. -/
theorem radioDisabled_task (h : s.radio.disabledShort = .none) :
    (radioDisabled s).radio.task = .disable := by
  show (match s.radio.disabledShort with
    | .none => RadioTask.disable
    | .rxen => .rxen
    | .txen => .txen) = .disable
  rw [h]

/-- **The packet is out**, and the window is open. -/
theorem wired_sentBy (h : Transmits s .ptxTxAck p) (ev : RadioEvent) :
    Wired (radioIrqHandler ev (radioDisabled s)) := by
  have hsends := transmits_radioDisabled h
  have hmain := (hsends.sentBy ev).1.mainstate
  refine ⟨fun hidle => ?_, fun hidle => ?_, fun _ => sentBy_disabledShort hsends ev⟩
  · exact absurd (hmain.symm.trans hidle) (by decide)
  · exact absurd (hmain.symm.trans hidle) (by decide)

/-- **The window is closed**, and the radio is off. -/
theorem wired_closedBy (h : Transmits s .ptxRxAck p) (hw : Wired s) (ev : RadioEvent)
    (hidle : (radioIrqHandler ev (radioDisabled s)).mainstate = .idle) :
    Wired (radioIrqHandler ev (radioDisabled s)) := by
  apply wired_of_off hidle
  rw [closedBy_task (transmits_radioDisabled h) ev hidle]
  exact radioDisabled_task (hw.window h.mainstate)

/-- **An acknowledgment that was cut short** ends: the module receives, although the program has
    initialised it. -/
theorem rests_radioIrq (hidle : Idle false s) (hblank : Blank s)
    (hhandler : s.onRadioDisabled = none ∨ s.onRadioDisabled = some .rxAck) (ev : RadioEvent) :
    (Idle false (radioIrqHandler ev s) ∧ Blank (radioIrqHandler ev s) ∧
        (radioIrqHandler ev s).onRadioDisabled = s.onRadioDisabled) ∨
      Box.Polls (radioIrqHandler ev s) [] := by
  obtain ⟨r, b, hlatch⟩ := latch_eq ev s
  have hkept : Idle false (ev.latch s) ∧ Blank (ev.latch s) ∧
      (ev.latch s).onRadioDisabled = s.onRadioDisabled := by
    rw [hlatch]
    exact ⟨⟨hidle.initialized, hidle.config, hidle.mainstate⟩,
      ⟨hblank.tx, hblank.rx, hblank.flags, hblank.pipes⟩, rfl⟩
  obtain ⟨hidle', hblank', hkept⟩ := hkept
  obtain ⟨t, ht⟩ : ∃ t, t = ev.latch s := ⟨_, rfl⟩
  have hirq : radioIrqHandler ev s = if t.radio.intensetDisabled then callOnRadioDisabled t else t :=
    by rw [ht, radioIrqHandler_eq]
  rw [← ht] at hidle' hblank' hkept
  rw [hirq]
  cases hinten : t.radio.intensetDisabled with
  | false =>
    rw [if_neg (by simp)]
    exact .inl ⟨hidle', hblank', hkept⟩
  | true =>
    rw [if_pos rfl, callOnRadioDisabled]
    rcases hhandler with hnone | hack
    · rw [hkept.trans hnone, hnone]
      exact .inl ⟨hidle', hblank', hkept.trans hnone⟩
    · rw [hkept.trans hack]
      refine .inr ⟨hidle'.initialized, hidle'.config, ⟨?_, ?_, rfl, hinten⟩,
        fun hidle => (by cases hidle), hblank'.tx, hblank'.rx, ?_, ?_⟩
      · exact congrArg NrfEsbConfig.mode hidle'.config
      · exact congrArg NrfEsbConfig.protocol hidle'.config
      · exact congrArg InterruptFlags.txSuccess hblank'.flags
      · exact congrArg InterruptFlags.txFailed hblank'.flags

/-- **The radio interrupt in normal mode.** -/
theorem Cycle.radioStep (h : Cycle d q) (hw : Wired d.esb) (hon : d.esb.radio.task ≠ .disable)
    (ev : RadioEvent) :
    (∃ q', Cycle (d.radioStep (.radioIrq ev)) q') ∧ Wired (d.radioStep (.radioIrq ev)).esb := by
  have hesb : (d.radioStep (.radioIrq ev)).esb = radioIrqHandler ev (radioDisabled d.esb) := rfl
  cases h with
  | rests hidle hblank =>
    have hhandler := (hw.receiver hidle.mainstate).resolve_left hon
    have hidle' : Idle false (radioDisabled d.esb) :=
      ⟨hidle.initialized, hidle.config, hidle.mainstate⟩
    have hblank' : Blank (radioDisabled d.esb) :=
      ⟨hblank.tx, hblank.rx, hblank.flags, hblank.pipes⟩
    rw [hesb]
    rcases rests_radioIrq hidle' hblank' hhandler ev with ⟨hrests, hempty, hkept⟩ | hpolls
    · refine ⟨⟨[], .rests hrests hempty⟩, fun _ hcfg => ?_, fun _ => .inr ?_, fun hm => ?_⟩
      · rw [hrests.config] at hcfg
        exact absurd (congrArg NrfEsbConfig.mode hcfg) (by decide)
      · rw [hkept]
        exact hhandler
      · exact absurd (hrests.mainstate.symm.trans hm) (by decide)
    · exact ⟨⟨[], .listens hpolls⟩, wired_of_polls hpolls⟩
  | listens hpolls =>
    have hnext := (polls_radioDisabled hpolls).radioIrq ev
    exact ⟨⟨_, .listens hnext⟩, wired_of_polls hnext⟩
  | sends hsends =>
    have hsends' : SendsData { d with esb := radioDisabled d.esb } .ptxTxAck _ :=
      ⟨transmits_radioDisabled hsends.sends, hsends.pipe, hsends.length, hsends.noack, hsends.pid,
        hsends.rx, hsends.flags, hsends.timer⟩
    exact ⟨⟨[], .waits (hsends'.sentBy ev)⟩, wired_sentBy hsends.sends ev⟩
  | waits hwaits =>
    have hwaits' : SendsData { d with esb := radioDisabled d.esb } .ptxRxAck _ :=
      ⟨transmits_radioDisabled hwaits.sends, hwaits.pipe, hwaits.length, hwaits.noack, hwaits.pid,
        hwaits.rx, hwaits.flags, hwaits.timer⟩
    obtain ⟨q', hcycle, hidle, -⟩ := hwaits'.closedBy ev
    exact ⟨⟨q', hcycle⟩, wired_closedBy hwaits.sends hw ev hidle⟩
  | done hidle _ _ _ => exact absurd (hw.transmitter hidle.mainstate hidle.config) hon

/-! ## §5 Pairing mode -/

/-- **A device in pairing mode** sends a request, waits for its acknowledgment, has not handled the
    end of the request, or does nothing any more. -/
inductive Asking (d : Device) : Prop where
  | sends : Asks d .ptxTxAck → Asking d
  | waits : Asks d .ptxRxAck → Asking d
  | ended {q : List NrfEsbPayload} : Idle true d.esb → d.esb.rxFifo.Represents q → Done d q →
      Asking d
  | dead : Idle true d.esb → d.esb.rxFifo.Represents [] → d.esb.interruptFlags = .clear → Asking d

theorem Asks.radioDisabled {m : NrfEsbMainstate} (h : Asks d m) :
    Asks { d with esb := radioDisabled d.esb } m := by
  obtain ⟨p, hp⟩ := h.sends
  exact ⟨⟨p, transmits_radioDisabled hp⟩, h.rx, h.flags⟩

/-- **The radio interrupt in pairing mode.** -/
theorem Asking.radioStep (h : Asking d) (hw : Wired d.esb) (hon : d.esb.radio.task ≠ .disable)
    (ev : RadioEvent) :
    Asking (d.radioStep (.radioIrq ev)) ∧ Wired (d.radioStep (.radioIrq ev)).esb := by
  cases h with
  | sends hasks =>
    obtain ⟨p, hp⟩ := hasks.sends
    obtain ⟨hsent, hrx, hflags⟩ := (transmits_radioDisabled hp).sentBy ev
    have hrx' : (d.radioStep (.radioIrq ev)).esb.rxFifo = d.esb.rxFifo := hrx
    exact ⟨.waits ⟨⟨p, hsent⟩, hrx' ▸ hasks.rx, hflags.trans hasks.flags⟩, wired_sentBy hp ev⟩
  | waits hasks =>
    obtain ⟨p, hp⟩ := hasks.sends
    obtain ⟨hidle, q, hrx, hdone, -⟩ := hasks.radioDisabled.closedBy ev
    exact ⟨.ended hidle hrx hdone, wired_closedBy hp hw ev hidle.mainstate⟩
  | ended hidle _ _ => exact absurd (hw.transmitter hidle.mainstate hidle.config) hon
  | dead hidle _ _ => exact absurd (hw.transmitter hidle.mainstate hidle.config) hon

/-! ## §6 The event interrupt -/

theorem onPayload_hung (d : Device) : d.onPayload.hung = d.hung := by
  unfold onPayload
  split
  · split <;> rfl
  · split
    · split
      · unfold onBeacon
        dsimp only
        split
        · rename_i isResend _
          cases isResend <;> rfl
        · rfl
      · rfl
    · rfl

theorem onRxReceived_hung (d : Device) : d.onRxReceived.hung = d.hung := onPayload_hung _

/-- **A module at rest lets the loop end.** -/
theorem hopChannel_hung (hidle : d.esb.mainstate = .idle) : d.hopChannel.hung = d.hung := by
  have hwait : d.hopChannel.hung = (d.hung || !nrfEsbIsIdle d.esb) := rfl
  rw [hwait, nrfEsbIsIdle, hidle]
  exact Bool.or_false _

theorem listenForBeacon_hung (hidle : d.esb.mainstate = .idle) :
    d.listenForBeacon.hung = d.hung :=
  hopChannel_hung (d := { d with gScanTimeout := beaconScanShortTimeoutMs }) hidle

theorem onTxFailed_hung (hidle : Idle true d.esb) : d.onTxFailed.hung = d.hung := by
  have hflush : (d.callEsb nrfEsbFlushTx).esb.mainstate = .idle := by
    show (nrfEsbFlushTx d.esb).2.mainstate = .idle
    rw [nrfEsbFlushTx_eq hidle.initialized]
    exact hidle.mainstate
  cases hmode : d.gMode with
  | normal =>
    have hlisten : d.onTxFailed = (d.callEsb nrfEsbFlushTx).listenForBeacon := by
      unfold onTxFailed
      dsimp only
      rw [show (d.callEsb nrfEsbFlushTx).gMode = .normal from hmode]
    rw [hlisten]
    exact listenForBeacon_hung hflush
  | pairing =>
    have hhop : d.onTxFailed.hung = (d.callEsb nrfEsbFlushTx).hopChannel.hung := by
      unfold onTxFailed
      dsimp only
      rw [show (d.callEsb nrfEsbFlushTx).gMode = .pairing from hmode]
      dsimp only
      split <;> rfl
    rw [hhop]
    exact hopChannel_hung hflush

/-- **A beacon that asks for nothing**: the receiver is stopped, or goes on with its
    acknowledgment. -/
theorem wired_onPayload (hmode : d.gMode = .normal) (hstocked : Stocked d)
    (hpolls : Box.Polls d.esb q) : Wired d.onPayload.esb := by
  have hhandled := handled_onPayload hmode hstocked
  obtain ⟨d', hd'⟩ : ∃ d', d' = d.onPayload := ⟨_, rfl⟩
  rw [← hd'] at hhandled ⊢
  cases hhandled with
  | ignored _ => exact wired_of_polls hpolls
  | answered _ _ hanswers =>
    obtain ⟨p, hp⟩ := hanswers.sends
    exact wired_of_busy (by simp [hp.sends.mainstate]) (by simp [hp.sends.mainstate])
  | passed hbeacon hrequest _ _ _ _ hidle _ =>
    have hesb : d'.esb = (nrfEsbInit (some (appEsbConfig false)) (nrfEsbStopRx d.esb).2).2 := by
      rw [hd']
      unfold onPayload
      rw [if_neg (by simp [hmode]), if_pos hmode, if_pos hbeacon]
      unfold onBeacon
      dsimp only
      rw [hrequest]
      rfl
    have hhandler : d'.esb.onRadioDisabled = (nrfEsbStopRx d.esb).2.onRadioDisabled := by
      rw [hesb, nrfEsbInit_onRadioDisabled]
    refine ⟨fun _ hcfg => ?_, fun _ => .inr ?_, fun hm => ?_⟩
    · rw [hidle.config] at hcfg
      exact absurd (congrArg NrfEsbConfig.mode hcfg) (by decide)
    · rw [hhandler]
      unfold nrfEsbStopRx
      obtain ⟨-, ⟨-, hprx⟩ | ⟨hack, hsending⟩⟩ := hpolls.receives.cases hpolls.busy
      · rw [if_pos hprx]
        exact .inl rfl
      · rw [if_neg (by simp [hsending])]
        exact .inr hack
    · exact absurd (hidle.mainstate.symm.trans hm) (by decide)

/-- Reading a payload in normal mode. -/
theorem wired_onRxReceived (hmode : d.gMode = .normal) (hstocked : Stocked d)
    (hpolls : Box.Polls d.esb q) : Wired d.onRxReceived.esb := by
  obtain ⟨d₁, hreads, heq⟩ := onRxReceived_polls hpolls
  rw [heq]
  exact wired_onPayload (hreads.same.mode.trans hmode) (hreads.same.stocked hstocked) hreads.polls

/-- **The event interrupt in normal mode**: if it hops, then the module rests. -/
theorem Cycle.hopsEvtIrq (h : Cycle d q) (hmode : d.gMode = .normal) (hstocked : Stocked d)
    (hw : Wired d.esb) : d.esbEvtIrq.hung = d.hung ∧ Wired d.esbEvtIrq.esb := by
  have hmode₀ : d.cleared.gMode = .normal := hmode
  have hstocked₀ : Stocked d.cleared := ⟨hstocked.idx, hstocked.data⟩
  have htold := h.told hmode
  obtain ⟨d', hd'⟩ : ∃ d', d' = d.esbEvtIrq := ⟨_, rfl⟩
  rw [← hd'] at htold ⊢
  cases htold with
  | nothing _ => exact ⟨rfl, hw.collect⟩
  | received hpolls _ =>
    exact ⟨onRxReceived_hung _, wired_onRxReceived hmode₀ hstocked₀ hpolls.collect⟩
  | failed hidle _ _ =>
    have hidle₀ : Idle true d.cleared.esb := ⟨hidle.initialized, hidle.config, hidle.mainstate⟩
    exact ⟨onTxFailed_hung hidle₀, wired_of_polls (listensAgain_onTxFailed hmode₀).polls⟩
  | succeeded hidle _ _ =>
    exact ⟨listenForBeacon_hung (d := d.cleared) hidle.mainstate,
      wired_of_polls (listensAgain_listenForBeacon d.cleared).polls⟩
  | answered e hidle _ _ =>
    have hlistens := listensAgain_listenForBeacon d.cleared
    exact ⟨(onRxReceived_hung _).trans (listenForBeacon_hung (d := d.cleared) hidle.mainstate),
      wired_onRxReceived (hlistens.same.mode.trans hmode₀) (hlistens.same.stocked hstocked₀)
        hlistens.polls⟩

/-! ## §7 The invariant -/

/-- **What holds of a device in every state of a run with safe steps.** -/
structure Hops (d : Device) : Prop where
  hung : d.hung = false
  stocked : Stocked d
  wired : Wired d.esb
  normal : d.gMode = .normal → ∃ q, Cycle d q
  pairing : d.gMode = .pairing → Timeless d ∧ Asking d

/-- A device that has just sent a request. -/
theorem hops_of_requests (h : Requests d p) (ht : Timeless d) (hs : Stocked d)
    (hhung : d.hung = false) : Hops d where
  hung := hhung
  stocked := hs
  wired := wired_of_busy (by simp [h.sends.mainstate]) (by simp [h.sends.mainstate])
  normal := by
    intro hnormal
    rw [h.mode] at hnormal
    cases hnormal
  pairing := fun _ => ⟨ht, .sends ⟨⟨p, h.sends⟩, h.rx, h.flags⟩⟩

/-- A device in pairing mode that rests, with nothing to handle. -/
theorem hops_of_dead (hmode : d.gMode = .pairing) (ht : Timeless d) (hs : Stocked d)
    (hhung : d.hung = false) (hw : Wired d.esb) (hidle : Idle true d.esb)
    (hrx : d.esb.rxFifo.Represents []) (hflags : d.esb.interruptFlags = .clear) : Hops d where
  hung := hhung
  stocked := hs
  wired := hw
  normal := by
    intro hnormal
    rw [hmode] at hnormal
    cases hnormal
  pairing := fun _ => ⟨ht, .dead hidle hrx hflags⟩

/-- A device that enters normal mode with its radio off. -/
theorem hops_enterNormalMode (hs : Stocked d) (hhung : d.hung = false)
    (hoff : d.esb.radio.task = .disable) : Hops d.enterNormalMode where
  hung := hhung
  stocked := ⟨hs.idx, hs.data⟩
  wired := wired_enterNormalMode hoff
  normal := fun _ => ⟨[], .rests (enterNormalMode_rests d).1 (enterNormalMode_rests d).2⟩
  pairing := nofun

/-- The payload of an acknowledgment that is no record of the device. -/
theorem onRxReceived_ignored {e : NrfEsbPayload} (hmode : d.gMode = .pairing)
    (hinit : d.esb.esbInitialized = true) (hrx : d.esb.rxFifo.Represents [e])
    (hother : ¬ (d.gPairState = .waitForInfo ∧ e.length = sizeofPairInfo)) :
    d.onRxReceived = { d with
      esb := { d.esb with rxFifo := d.esb.rxFifo.dropHead }
      rxPayload := copyRxPayload d.rxPayload e } := by
  obtain ⟨d₁, hd₁⟩ : ∃ d₁ : Device, d₁ = { d with
      esb := { d.esb with rxFifo := d.esb.rxFifo.dropHead }
      rxPayload := copyRxPayload d.rxPayload e } := ⟨_, rfl⟩
  have hmode₁ : d₁.gMode = .pairing := hd₁ ▸ hmode
  have hstate₁ : d₁.gPairState = d.gPairState := hd₁ ▸ rfl
  have hlen₁ : d₁.rxPayload.length = e.length := hd₁ ▸ rfl
  rw [onRxReceived_one hinit hrx, ← hd₁]
  unfold onPayload
  by_cases hwait : d.gPairState = .waitForInfo
  · have hlen : ¬ d₁.rxPayload.length = sizeofPairInfo := by
      rw [hlen₁]
      exact fun h => hother ⟨hwait, h⟩
    rw [if_pos ⟨hmode₁, hstate₁.trans hwait⟩, if_neg hlen]
  · have hno : ¬ (d₁.gMode = .pairing ∧ d₁.gPairState = .waitForInfo) :=
      fun h => hwait (hstate₁.symm.trans h.2)
    rw [if_neg hno, if_neg (by simp [hmode₁])]

/-- The request for the record goes out, and the payload that came with the acknowledgment is
    read. -/
theorem hops_ackedReq {e : NrfEsbPayload} (hmode : d.gMode = .pairing) (ht : Timeless d)
    (hs : Stocked d) (hhung : d.hung = false) (hidle : Idle true d.esb)
    (hflags : d.esb.interruptFlags = .clear) (hrx : d.esb.rxFifo.Represents [e])
    (hlen : e.length ≠ sizeofPairInfo) :
    Hops (sendGetInfoReq { d with gPairState := .waitForInfo }).onRxReceived := by
  have hrequest : 0 < (request idPairInfoGet 0).length.toNat ∧
      (request idPairInfoGet 0).length.toNat ≤ nrfEsbMaxPayloadLength := by
    rw [show (request idPairInfoGet 0).length = 2 from rfl]
    decide
  obtain ⟨hsends, hrx', hflags'⟩ := hidle.flushWrite hrequest
  obtain ⟨d₁, hd₁⟩ : ∃ d₁ : Device, d₁ = { d with
      gPairState := .waitForInfo
      esb := flushWrite (request idPairInfoGet 0) d.esb } := ⟨_, rfl⟩
  have hsent : sendGetInfoReq { d with gPairState := .waitForInfo } = d₁ := hd₁ ▸ rfl
  have hmode₁ : d₁.gMode = .pairing := hd₁ ▸ hmode
  have hunread : d₁.esb.rxFifo.Represents [e] := by
    rw [hd₁]
    exact hrx' ▸ hrx
  obtain ⟨p, hsends₁, hlen₁⟩ : ∃ p, Transmits d₁.esb .ptxTxAck p ∧ p.length = 2 := by
    rw [hd₁]
    exact ⟨_, hsends, rfl⟩
  have hpos : 0 < d₁.esb.rxFifo.count := hunread.pos_iff.mpr (by simp)
  rw [hsent, onRxReceived_ignored hmode₁ hsends₁.initialized hunread (fun h => hlen h.2)]
  refine hops_of_requests ⟨hmode₁, ⟨hsends₁.initialized, hsends₁.config, hsends₁.mainstate,
    hsends₁.handler, hsends₁.inten, hsends₁.fifo, hsends₁.attempts, hsends₁.air⟩, hlen₁,
    hunread.dropHead hpos, ?_⟩ ?_ ?_ ?_
  all_goals rw [hd₁]
  · exact hflags'.trans hflags
  · exact ⟨ht.scan, ht.sync, ht.hop⟩
  · exact ⟨hs.idx, hs.data⟩
  · exact hhung

/-- **The event interrupt in pairing mode.** -/
theorem Hops.pairingEvtIrq (h : Hops d) (hmode : d.gMode = .pairing) (hsafe : ¬ StoresInFlight d) :
    Hops d.esbEvtIrq := by
  obtain ⟨ht, hasking⟩ := h.pairing hmode
  have ht₀ : Timeless d.cleared := ⟨ht.scan, ht.sync, ht.hop⟩
  have hs₀ : Stocked d.cleared := ⟨h.stocked.idx, h.stocked.data⟩
  -- Without a flag the interrupt only clears the flags, and the request stays as it was.
  have hkept : d.esbEvtIrq = d.cleared → Asking d.cleared → Hops d.esbEvtIrq := by
    intro hnone hnext
    rw [hnone]
    refine ⟨h.hung, hs₀, h.wired.collect, fun hnormal => ?_, fun _ => ⟨ht₀, hnext⟩⟩
    have hpairing : d.cleared.gMode = .pairing := hmode
    rw [hpairing] at hnormal
    cases hnormal
  -- The cases are how far the pairing request has come.
  cases hasking with
  | sends hasks =>
    obtain ⟨p, hp⟩ := hasks.sends
    exact hkept (esbEvtIrq_of_clear hp.initialized hp.config hasks.flags)
      (.sends ⟨⟨p, hp.collect⟩, hasks.rx, rfl⟩)
  | waits hasks =>
    obtain ⟨p, hp⟩ := hasks.sends
    exact hkept (esbEvtIrq_of_clear hp.initialized hp.config hasks.flags)
      (.waits ⟨⟨p, hp.collect⟩, hasks.rx, rfl⟩)
  | dead hidle hrx hflags =>
    exact hkept (esbEvtIrq_of_clear hidle.initialized hidle.config hflags)
      (.dead ⟨hidle.initialized, hidle.config, hidle.mainstate⟩ hrx rfl)
  | ended hidle hrx hdone =>
    have hevt := esbEvtIrq_eq hidle.initialized hidle.config
    have hidle₀ : Idle true d.cleared.esb := ⟨hidle.initialized, hidle.config, hidle.mainstate⟩
    have hoff := h.wired.transmitter hidle.mainstate hidle.config
    cases hdone with
    -- no acknowledgment: the request is repeated
    | failed hflags =>
      rw [hflags] at hevt
      have hone : d.esbEvtIrq = d.cleared.onTxFailed := hevt
      have hrests : Rests d.cleared := ⟨hmode, hidle₀, hrx, rfl⟩
      obtain ⟨⟨p, hp⟩, -⟩ := hrests.onTxFailed
      have hdata : Stocked d.cleared.onTxFailed := by
        unfold onTxFailed
        dsimp only
        rw [show (d.cleared.callEsb nrfEsbFlushTx).gMode = .pairing from hmode]
        dsimp only
        split <;> exact ⟨hs₀.idx, hs₀.data⟩
      rw [hone]
      exact hops_of_requests hp (onTxFailed_frame hrests.mode ht₀).1 hdata
        ((onTxFailed_hung hidle₀).trans h.hung)
    -- an acknowledgment without payload: the next request, or none
    | empty hflags =>
      rw [hflags] at hevt
      have hone : d.esbEvtIrq = d.cleared.onTxSuccess := hevt
      rw [hone]
      have hrests : Rests d.cleared := ⟨hmode, hidle₀, hrx, rfl⟩
      rcases hrests.onTxSuccess with ⟨-, hreq⟩ | ⟨-, hsame⟩
      · have hwaits : Rests { d.cleared with gPairState := .waitForInfo } :=
          ⟨hmode, hidle₀, hrx, rfl⟩
        obtain ⟨p, hp⟩ := hwaits.send idPairInfoGet 0
        rw [hreq, sendGetInfoReq_eq]
        exact hops_of_requests hp ⟨ht.scan, ht.sync, ht.hop⟩ ⟨hs₀.idx, hs₀.data⟩ h.hung
      · rw [hsame]
        exact hops_of_dead hmode ht₀ hs₀ h.hung h.wired.collect hidle₀ hrx rfl
    -- an acknowledgment with a payload: both callbacks run, in this order
    | answered e hflags =>
      rw [hflags] at hevt
      have htwo : d.esbEvtIrq = d.cleared.onTxSuccess.onRxReceived := hevt
      have hpos : 0 < d.esb.rxFifo.count := hrx.pos_iff.mpr (by simp)
      have hdropped : Hops { d.cleared with
          esb := { d.cleared.esb with rxFifo := d.cleared.esb.rxFifo.dropHead }
          rxPayload := copyRxPayload d.cleared.rxPayload e } :=
        hops_of_dead hmode ⟨ht.scan, ht.sync, ht.hop⟩ ⟨hs₀.idx, hs₀.data⟩ h.hung
          (wired_of_off hidle.mainstate hoff)
          ⟨hidle.initialized, hidle.config, hidle.mainstate⟩ (hrx.dropHead hpos) rfl
      rw [htwo]
      cases hstate : d.gPairState with
      | sendReq =>
        -- the acknowledgment of the pairing request: the next request is on its way
        have hlen : e.length ≠ sizeofPairInfo := by
          intro hsize
          refine hsafe ⟨hmode, hstate, ?_, ?_, ?_⟩
          · rw [hflags]
          · rw [hflags]
          · rw [hrx.head_cons]
            exact hsize
        rw [onTxSuccess_sendReq (d := d.cleared) hmode hstate]
        exact hops_ackedReq (d := d.cleared) hmode ht₀ hs₀ h.hung hidle₀ rfl hrx hlen
      | waitForInfo =>
        rw [onTxSuccess_waitForInfo (d := d.cleared) hmode hstate]
        by_cases hsize : e.length = sizeofPairInfo
        · -- the record is stored, and the device enters normal mode
          rw [onRxReceived_one (d := d.cleared) hidle₀.initialized hrx]
          obtain ⟨d₁, hd₁⟩ : ∃ d₁ : Device, d₁ = { d.cleared with
              esb := { d.cleared.esb with rxFifo := d.cleared.esb.rxFifo.dropHead }
              rxPayload := copyRxPayload d.cleared.rxPayload e } := ⟨_, rfl⟩
          have hmode₁ : d₁.gMode = .pairing := hd₁ ▸ hmode
          have hwait₁ : d₁.gPairState = .waitForInfo := hd₁ ▸ hstate
          have hlen₁ : d₁.rxPayload.length = sizeofPairInfo := hd₁ ▸ hsize
          rw [← hd₁, onPayload_of_waitForInfo hmode₁ hwait₁ hlen₁]
          refine hops_enterNormalMode ?_ ?_ ?_
          all_goals rw [hd₁]
          · exact ⟨hs₀.idx, hs₀.data⟩
          · exact h.hung
          · exact hoff
        · rw [onRxReceived_ignored (d := d.cleared) hmode hidle₀.initialized hrx
            (fun hno => hsize hno.2)]
          exact hdropped
      | none =>
        have hsame : d.cleared.onTxSuccess = d.cleared := by
          have hnone : d.cleared.gPairState = .none := hstate
          have hpairing : d.cleared.gMode = .pairing := hmode
          simp only [onTxSuccess, hpairing, hnone]
        have hother : ¬ (d.cleared.gPairState = .waitForInfo ∧ e.length = sizeofPairInfo) := by
          rintro ⟨hwait, -⟩
          rw [show d.cleared.gPairState = d.gPairState from rfl, hstate] at hwait
          cases hwait
        rw [hsame, onRxReceived_ignored (d := d.cleared) hmode hidle₀.initialized hrx hother]
        exact hdropped

/-! ## §8 The interval timer -/

/-- A tick that does not hop changes two counters at most. -/
theorem tick_of_not_hopDue (h : ¬ HopDue d) :
    d.intervalTimerEventHandler.hung = d.hung ∧ d.intervalTimerEventHandler.esb = d.esb := by
  unfold intervalTimerEventHandler
  split
  case isTrue hcounts =>
    dsimp only
    split
    case isTrue hdue => exact absurd ⟨hcounts, hdue⟩ h
    case isFalse => exact ⟨rfl, rfl⟩
  case isFalse => exact ⟨rfl, rfl⟩

/-- **A tick that hops** waits for the module once. -/
theorem tick_of_hopDue (h : HopDue d) :
    d.intervalTimerEventHandler.hung =
        (d.hung || !nrfEsbIsIdle (nrfEsbStopRx d.esb).2) ∧
      d.intervalTimerEventHandler.esb = (nrfEsbStartRx (nrfEsbSetRfChannel
        (d.gaChlist.get (nextChIdx d.gCurChIdx).toNat).toUInt32 (nrfEsbStopRx d.esb).2).2).2 := by
  unfold intervalTimerEventHandler
  rw [if_pos h.1]
  dsimp only
  rw [if_pos h.2]
  exact ⟨rfl, rfl⟩

/-- After a hop on which the module was idle the device listens. -/
theorem tick_prx (h : HopDue d) (hidle : nrfEsbIsIdle (nrfEsbStopRx d.esb).2 = true) :
    d.intervalTimerEventHandler.esb.mainstate = .prx := by
  have hmain : (nrfEsbStopRx d.esb).2.mainstate = .idle := by
    simpa [nrfEsbIsIdle] using hidle
  obtain ⟨addr, haddr⟩ := nrfEsbSetRfChannel_idle hmain
    (d.gaChlist.get (nextChIdx d.gCurChIdx).toNat)
  rw [(tick_of_hopDue h).2, haddr]
  unfold nrfEsbStartRx
  rw [if_neg (by simp [hmain])]

/-- **A device whose interval timer runs** rests, receives or acknowledges. -/
theorem Cycle.timed (h : Cycle d q) (htimer : d.intervalTimerRunning = true) :
    d.esb.mainstate = .idle ∨ d.esb.mainstate = .prx ∨ d.esb.mainstate = .prxSendAck := by
  cases h with
  | rests hidle _ => exact .inl hidle.mainstate
  | listens hpolls => exact .inr hpolls.mainstate
  | sends hsends => exact absurd (htimer.symm.trans hsends.timer) (by decide)
  | waits hwaits => exact absurd (htimer.symm.trans hwaits.timer) (by decide)
  | done _ _ _ hstopped => exact absurd (htimer.symm.trans hstopped) (by decide)

/-- **`nrf_esb_stop_rx` leaves the module idle** unless it sends an acknowledgment. -/
theorem stopRx_idle_iff
    (h : s.mainstate = .idle ∨ s.mainstate = .prx ∨ s.mainstate = .prxSendAck) :
    nrfEsbIsIdle (nrfEsbStopRx s).2 = true ↔ s.mainstate ≠ .prxSendAck := by
  unfold nrfEsbStopRx nrfEsbIsIdle
  rcases h with hidle | hprx | hack
  · rw [if_neg (by simp [hidle])]
    simp [hidle]
  · rw [if_pos hprx]
    simp [hprx]
  · rw [if_neg (by simp [hack])]
    simp [hack]

/-- **The wait loop of the next tick ends** exactly if the tick is safe. -/
theorem Cycle.hopEnters_iff (h : Cycle d q) (htimer : d.intervalTimerRunning = true) :
    HopEnters d ↔ d.HopsSafely .tick := by
  have hstop := stopRx_idle_iff (h.timed htimer)
  unfold HopEnters HopsSafely
  rw [hstop, not_and]

theorem stocked_tick (hs : Stocked d) : Stocked d.intervalTimerEventHandler := by
  unfold intervalTimerEventHandler
  split
  · dsimp only
    split <;> exact ⟨hs.idx, hs.data⟩
  · exact hs

/-- **The tick in normal mode.** -/
theorem Hops.normalTick (h : Hops d) (hmode : d.gMode = .normal)
    (htimer : d.intervalTimerRunning = true) (hsafe : d.HopsSafely .tick) :
    Hops d.intervalTimerEventHandler := by
  obtain ⟨q, hcycle⟩ := h.normal hmode
  have hnormal : d.intervalTimerEventHandler.gMode = .normal := step_normal hmode .tick
  have hnext := (hcycle.tick htimer).1
  have hhung : d.intervalTimerEventHandler.hung = false ∧
      Wired d.intervalTimerEventHandler.esb := by
    by_cases hdue : HopDue d
    · have hidle : nrfEsbIsIdle (nrfEsbStopRx d.esb).2 = true :=
        (hcycle.hopEnters_iff htimer).mpr hsafe hdue
      have hprx := tick_prx hdue hidle
      refine ⟨?_, wired_of_busy (by simp [hprx]) (by simp [hprx])⟩
      rw [(tick_of_hopDue hdue).1, h.hung, hidle]
      rfl
    · obtain ⟨hkept, hesb⟩ := tick_of_not_hopDue hdue
      rw [hesb]
      exact ⟨hkept.trans h.hung, h.wired⟩
  refine ⟨hhung.1, stocked_tick h.stocked, hhung.2, fun _ => ⟨q, hnext⟩, fun hpairing => ?_⟩
  rw [hnormal] at hpairing
  cases hpairing

/-! ## §9 Runs -/

/-- **One interrupt.** -/
theorem Hops.step (h : Hops d) {a : DeviceStep} (hen : d.RadioEnabled a)
    (hsafe : d.HopsSafely a) : Hops (d.radioStep a) := by
  cases hmode : d.gMode with
  | normal =>
    obtain ⟨q, hcycle⟩ := h.normal hmode
    have hpairing : ∀ d' : Device, d'.gMode = .normal →
        d'.gMode = .pairing → Timeless d' ∧ Asking d' := by
      intro d' hn hp
      rw [hn] at hp
      cases hp
    cases a with
    | radioIrq ev =>
      obtain ⟨hnext, hw⟩ := hcycle.radioStep h.wired hen ev
      exact ⟨h.hung, ⟨h.stocked.idx, h.stocked.data⟩, hw, fun _ => hnext, hpairing _ hmode⟩
    | evtIrq =>
      obtain ⟨hhung, hw⟩ := hcycle.hopsEvtIrq hmode h.stocked h.wired
      have hevents := hcycle.esbEvtIrq hmode h.stocked
      exact ⟨hhung.trans h.hung, hevents.stocked h.stocked, hw, fun _ => hevents.cycle,
        hpairing _ (step_normal hmode .evtIrq)⟩
    | tick => exact h.normalTick hmode hen hsafe
  | pairing =>
    obtain ⟨ht, hasking⟩ := h.pairing hmode
    cases a with
    | radioIrq ev =>
      obtain ⟨hnext, hw⟩ := hasking.radioStep h.wired hen ev
      refine ⟨h.hung, ⟨h.stocked.idx, h.stocked.data⟩, hw, fun hnormal => ?_,
        fun _ => ⟨⟨ht.scan, ht.sync, ht.hop⟩, hnext⟩⟩
      have hkept : (d.radioStep (.radioIrq ev)).gMode = .pairing := hmode
      rw [hkept] at hnormal
      cases hnormal
    | evtIrq => exact h.pairingEvtIrq hmode hsafe
    | tick =>
      have hnothing : d.intervalTimerEventHandler = d := by
        unfold intervalTimerEventHandler
        rw [if_neg (by simp [ht.scan, ht.sync, ht.hop])]
      show Hops d.intervalTimerEventHandler
      rw [hnothing]
      exact h

/-- The radio is off until the device sends or receives. -/
theorem boot_off (flash : DeviceData) (button2 : Bool) :
    (boot flash button2).esb.radio.task = .disable := by
  have haddr : ∀ d : Device, d.setAddresses.esb.radio.task = d.esb.radio.task := by
    intro d
    have hesb : d.setAddresses.esb = (nrfEsbSetPrefixes (some (addrPrefix d.gDs))
        (if d.gDs.devIdx = 0xff then 1 else 2) (nrfEsbSetBaseAddress1 (some d.gDs.sysAddress32)
          (nrfEsbSetBaseAddress0 (some defaultPairingAddress32) d.esb).2).2).2 := rfl
    rw [hesb, nrfEsbSetPrefixes_task, nrfEsbSetBaseAddress1_task, nrfEsbSetBaseAddress0_task]
  unfold boot
  dsimp only
  rw [haddr]
  split <;> rfl

theorem boot_stocked (flash : DeviceData) (button2 : Bool) : Stocked (boot flash button2) := by
  have hs := stocked_reset flash
  unfold boot
  dsimp only
  split <;> exact ⟨hs.idx, hs.data⟩

theorem boot_hung (flash : DeviceData) (button2 : Bool) : (boot flash button2).hung = false := by
  unfold boot
  dsimp only
  split <;> rfl

/-- **A device that `main` has started.** -/
theorem hops_main (flash : DeviceData) (button1 button2 : Bool) :
    Hops (main flash button1 button2) := by
  obtain ⟨b, hb⟩ : ∃ b, b = boot flash button2 := ⟨_, rfl⟩
  have hoff : b.esb.radio.task = .disable := hb ▸ boot_off flash button2
  have hstocked : Stocked b := hb ▸ boot_stocked flash button2
  have hhung : b.hung = false := hb ▸ boot_hung flash button2
  have ht : Timeless b := hb ▸ boot_timeless flash button2
  unfold main
  dsimp only
  rw [← hb]
  split
  · obtain ⟨p, hp⟩ := requests_doPairing b
    exact hops_of_requests (d := intervalTimerStart (doPairing b))
      ⟨hp.mode, hp.sends, hp.length, hp.rx, hp.flags⟩ ⟨ht.scan, ht.sync, ht.hop⟩
      ⟨hstocked.idx, hstocked.data⟩ hhung
  · -- `enter_normal_mode` has started the timer already
    exact hops_enterNormalMode hstocked hhung hoff

/-- **The hop loop ends**: in a run with safe steps it has always ended, and in normal mode it will
    end in the next tick exactly if that tick is safe. -/
theorem hops_of_reachable (h : radioMachine.ReachableUnder HopsSafely d) :
    d.hung = false ∧ (d.gMode = .normal → d.intervalTimerRunning = true →
      (HopEnters d ↔ d.HopsSafely .tick)) := by
  have hhops : Hops d := by
    apply h.invariant (I := Hops)
    · rintro _ ⟨flash, button1, button2, rfl⟩
      exact hops_main flash button1 button2
    · exact fun _ _ hd hen hsafe => hd.step hen hsafe
  refine ⟨hhops.hung, fun hmode htimer => ?_⟩
  obtain ⟨q, hcycle⟩ := hhops.normal hmode
  exact hcycle.hopEnters_iff htimer

/-- A device with its record in flash, in normal mode. -/
def pairedDevice : Device :=
  main ⟨dsSignature, .load (.replicate _ 0) [5, 40, 70], .replicate _ 7, 1⟩ false false

theorem pairedDevice_start : radioMachine.start pairedDevice := ⟨_, _, _, rfl⟩

/-- A packet that wants an acknowledgment. -/
def heardPacket : RadioEvent := .received ⟨0, 2, 0, [1, 2]⟩ 7

/-- The device hops to its first channel, scans it, and receives a packet just before it hops. -/
def acknowledgedRun : List DeviceStep :=
  .tick :: List.replicate 15 .tick ++ [.radioIrq heardPacket]

/-- The same with the acknowledgment sent before the tick. -/
def sentRun : List DeviceStep := acknowledgedRun ++ [.radioIrq .silent, .tick]

/-- A run in which the tick comes when the acknowledgment is out. -/
theorem hops_run_sent : radioMachine.ReachableUnder HopsSafely (radioMachine.run pairedDevice sentRun) ∧
    (radioMachine.run pairedDevice sentRun).hung = false :=
  have hreach : radioMachine.ReachableUnder HopsSafely (radioMachine.run pairedDevice sentRun) :=
    .of_follows (.start pairedDevice_start) (by decide +kernel)
  ⟨hreach, (hops_of_reachable hreach).1⟩

/-- **The timer hops while the device acknowledges a packet**: `hop_channel` waits for a module
    that is busy. -/
theorem not_hopEnters_acknowledged :
    radioMachine.Reachable (radioMachine.run pairedDevice acknowledgedRun) ∧
      (radioMachine.run pairedDevice acknowledgedRun).gMode = .normal ∧
      (radioMachine.run pairedDevice acknowledgedRun).intervalTimerRunning = true ∧
      ¬ HopEnters (radioMachine.run pairedDevice acknowledgedRun) ∧
      ((radioMachine.run pairedDevice acknowledgedRun).radioStep .tick).hung = true :=
  ⟨.of_follows (.start pairedDevice_start) (by decide +kernel), by decide +kernel,
    by decide +kernel, by decide +kernel, by decide +kernel⟩

/-- A device without a record hears the record in the acknowledgment of its pairing request. -/
def earlyRecordRun : List DeviceStep :=
  [.radioIrq .silent, .radioIrq (.received ⟨0, 8, 0, [5, 40, 70, 1, 2, 3, 4, 1]⟩ 7), .evtIrq,
    .radioIrq .silent]

/-- **A record that comes too early**: the device is in normal mode, and its module waits for the
    acknowledgment of a request for ever. -/
theorem not_hopEnters_earlyRecord :
    radioMachine.Reachable (radioMachine.run freshDevice earlyRecordRun) ∧
      (radioMachine.run freshDevice earlyRecordRun).gMode = .normal ∧
      (radioMachine.run freshDevice earlyRecordRun).intervalTimerRunning = true ∧
      ¬ HopEnters (radioMachine.run freshDevice earlyRecordRun) ∧
      (radioMachine.run freshDevice earlyRecordRun).esb.radio.task = .disable :=
  ⟨.of_follows (.start ⟨_, _, _, rfl⟩) (by decide +kernel), by decide +kernel,
    by decide +kernel, by decide +kernel, by decide +kernel⟩

end Device

end NordicEsb
