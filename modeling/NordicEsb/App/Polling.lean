import NordicEsb.App.Session

/-!
# The Box in Normal Mode

What the box does in an interval: the timer hops and sends a beacon, the end of the beacon
turns the module into a receiver, and packets come in until the next tick.

- `Phase s q`: where in its interval the module `s` is, and the payloads `q` it holds unread.
- `tick_normal`: the tick starts a beacon, from any state, and discards what is unread.
- `Phase.radioIrq` and `Phase.esbEvtIrq`: the two interrupts, one case for each phase.
-/

namespace NordicEsb

namespace Box

/-! ## §1 Phases of an interval -/

/-- A module that receives data, with the payloads `q` unread: nothing is queued to be sent. -/
structure Polls (s : Esb) (q : List NrfEsbPayload) : Prop where
  initialized : s.esbInitialized = true
  config : s.configLocal = appEsbConfig false
  receives : Receives s
  busy : s.mainstate ≠ .idle
  tx : s.txFifo.Represents []
  rx : s.rxFifo.Represents q
  success : s.interruptFlags.txSuccess = false
  failed : s.interruptFlags.txFailed = false

/-- Such a module waits for a packet, or acknowledges one. -/
theorem Polls.mainstate {s : Esb} {q : List NrfEsbPayload} (h : Polls s q) :
    s.mainstate = .prx ∨ s.mainstate = .prxSendAck := by
  obtain ⟨-, ⟨-, hprx⟩ | ⟨-, hack⟩⟩ := h.receives.cases h.busy
  · exact .inl hprx
  · exact .inr hack

/-- A beacon on air, which wants no acknowledgment. -/
structure BeaconOnAir (s : Esb) : Prop where
  transmits : ∃ p, Transmits s .ptxTx p ∧ p.noack = 1 ∧ p.pid.toNat < 4
  rx : s.rxFifo.Represents []
  flags : s.interruptFlags = .clear

/-- The phases of an interval. -/
inductive Phase : Esb → List NrfEsbPayload → Prop where
  /-- The first tick after start-up is yet to come. -/
  | asleep {s : Esb} : s.esbInitialized = false → s.mainstate = .idle →
      s.rxFifo.Represents [] → Phase s []
  /-- The beacon is on air. -/
  | sends {s : Esb} : BeaconOnAir s → Phase s []
  /-- The beacon is out, and the handler has not been told yet. -/
  | sent {s : Esb} : Idle true s → s.rxFifo.Represents [] →
      s.interruptFlags = { InterruptFlags.clear with txSuccess := true } → Phase s []
  /-- The box listens. -/
  | listens {s : Esb} {q : List NrfEsbPayload} : Polls s q → Phase s q

theorem Phase.rx {s : Esb} {q : List NrfEsbPayload} (h : Phase s q) : s.rxFifo.Represents q := by
  cases h with
  | asleep _ _ hrx | sent _ hrx _ => exact hrx
  | sends hbeacon => exact hbeacon.rx
  | listens hpolls => exact hpolls.rx

/-! ## §2 The interval timer -/

theorem stopRxWaitIdle_mainstate (s : Esb) : (stopRxWaitIdle s).mainstate = .idle := by
  unfold stopRxWaitIdle
  split
  case isTrue =>
    dsimp only
    split
    · -- the receiver could not be stopped: the module is initialised anew
      exact (nrfEsbInit_app false _).1.mainstate
    case isFalse hok =>
      unfold nrfEsbStopRx at hok ⊢
      split
      · rfl
      case isFalse hno =>
        rw [if_neg hno] at hok
        exact absurd (by simp) hok
  case isFalse hidle => simpa [nrfEsbIsIdle] using hidle

/-- The beacon of the next tick starts a new frame. -/
def startsFrame (b : Box) : Bool := nextChIdx b.gCurChIdx == 0

/-- What a tick keeps: everything but the module, the beacon's data, the channel and the mask
    of received devices. -/
structure TickFrame (b b' : Box) : Prop where
  mode : b'.gMode = b.gMode
  paired : b'.gDevsPairedMask = b.gDevsPairedMask
  length : b'.gBeacon.length = b.gBeacon.length
  recv : b'.gDevsDataRecvMask = if b.startsFrame then 0 else b.gDevsDataRecvMask
  /-- The beacon starts a frame, or asks for the devices that are paired and not recorded. -/
  beacon : if b.startsFrame then b'.gBeacon.data.get 2 = beaconByte3NewData
    else b'.gBeacon.data.get 2 = beaconByte3Resend ∧
      b'.gBeacon.data.get 3 = ~~~b.gDevsDataRecvMask &&& b.gDevsPairedMask

theorem fillBeacon_frame (b : Box) :
    (fillBeacon b).esb = b.esb ∧ (fillBeacon b).gMode = b.gMode ∧
      (fillBeacon b).gDevsPairedMask = b.gDevsPairedMask ∧
      (fillBeacon b).gBeacon.length = b.gBeacon.length := by
  unfold fillBeacon
  split <;> exact ⟨rfl, rfl, rfl, rfl⟩

/-- The two kinds of beacons, and the mask. -/
theorem fillBeacon_data (b : Box) :
    (fillBeacon b).gDevsDataRecvMask = (if b.gCurChIdx == 0 then 0 else b.gDevsDataRecvMask) ∧
      if b.gCurChIdx == 0 then (fillBeacon b).gBeacon.data.get 2 = beaconByte3NewData
      else (fillBeacon b).gBeacon.data.get 2 = beaconByte3Resend ∧
        (fillBeacon b).gBeacon.data.get 3 = ~~~b.gDevsDataRecvMask &&& b.gDevsPairedMask := by
  unfold fillBeacon
  by_cases hzero : b.gCurChIdx = 0
  · rw [if_pos hzero]
    simp only [hzero, beq_self_eq_true, if_true]
    exact ⟨trivial, rfl⟩
  · rw [if_neg hzero]
    simp only [beq_eq_false_iff_ne.mpr hzero, Bool.false_eq_true, if_false]
    exact ⟨trivial, rfl, rfl⟩

/-- `send_beacon` on a resting transmitter. -/
theorem sendBeacon_idle {b : Box} (hidle : Idle true b.esb) (hblank : Blank b.esb)
    (hlen : 0 < b.gBeacon.length.toNat ∧ b.gBeacon.length.toNat ≤ nrfEsbMaxPayloadLength) :
    BeaconOnAir (sendBeacon b).esb := by
  obtain ⟨hesb, -, -, hlength⟩ := fillBeacon_frame b
  obtain ⟨p, hp⟩ : ∃ p, p = { (fillBeacon b).gBeacon with noack := 1 } := ⟨_, rfl⟩
  have hsend : (sendBeacon b).esb = (nrfEsbWritePayload (some p) b.esb).2 := by
    rw [← hesb, hp]
    rfl
  have hplen : p.length = b.gBeacon.length := by rw [hp, ← hlength]
  have hstate : sendingState p = .ptxTx := by
    rw [hp]
    rfl
  obtain ⟨htransmits, hrx, hflags⟩ := hidle.write hblank.tx (hplen ▸ hlen)
  rw [hstate] at htransmits
  rw [hsend]
  refine ⟨⟨_, htransmits, ?_, ?_⟩, hrx ▸ hblank.rx, hflags.trans hblank.flags⟩
  · rw [hp]
  · exact Nat.mod_lt _ (by decide)

/-- **The interval timer sends a beacon**, whatever the module was doing, and what was unread
    is lost. -/
theorem tick_normal {b : Box} (hmode : b.gMode = .normal)
    (hlen : 0 < b.gBeacon.length.toNat ∧ b.gBeacon.length.toNat ≤ nrfEsbMaxPayloadLength) :
    TickFrame b b.intervalTimerEventHandler ∧ BeaconOnAir b.intervalTimerEventHandler.esb := by
  obtain ⟨b₁, hb₁⟩ : ∃ b₁, b₁ = (hopChannel b).callEsb (esbInit true) := ⟨_, rfl⟩
  have htick : b.intervalTimerEventHandler = sendBeacon b₁ := by
    unfold intervalTimerEventHandler
    dsimp only
    rw [show (hopChannel b).gMode = .normal from hmode, hb₁]
  obtain ⟨hidle, hblank, -, -⟩ := nrfEsbInit_app true (nrfEsbDisable (hopChannel b).esb)
  have hesb : b₁.esb = (nrfEsbInit (some (appEsbConfig true)) (nrfEsbDisable (hopChannel b).esb)).2 := by
    rw [hb₁]
    rfl
  rw [htick]
  refine ⟨?_, sendBeacon_idle (hesb ▸ hidle) (hesb ▸ hblank) (hb₁ ▸ hlen)⟩
  obtain ⟨-, hmode', hpaired, hlength⟩ := fillBeacon_frame b₁
  obtain ⟨hrecv, hbeacon⟩ := fillBeacon_data b₁
  have hchIdx : b₁.gCurChIdx = nextChIdx b.gCurChIdx := by
    rw [hb₁]
    rfl
  rw [hchIdx] at hrecv hbeacon
  refine ⟨hmode'.trans ?_, hpaired.trans ?_, hlength.trans ?_, hrecv.trans ?_, ?_⟩
  · rw [hb₁]
    rfl
  · rw [hb₁]
    rfl
  · rw [hb₁]
    rfl
  · rw [hb₁]
    rfl
  · rw [show b₁.gDevsDataRecvMask = b.gDevsDataRecvMask by rw [hb₁]; rfl,
      show b₁.gDevsPairedMask = b.gDevsPairedMask by rw [hb₁]; rfl] at hbeacon
    exact hbeacon

/-! ## §3 The radio -/

/-- **The radio interrupt while the beacon is on air**: the beacon is out. -/
theorem BeaconOnAir.radioIrq {s : Esb} (h : BeaconOnAir s) :
    Phase (radioIrqHandler .silent s) [] := by
  obtain ⟨p, htransmits, -⟩ := h.transmits
  obtain ⟨hidle, -, hrx, hflags⟩ := htransmits.done
  refine .sent hidle (hrx ▸ h.rx) ?_
  rw [hflags, h.flags]

/-- What a reception adds to the unread payloads. -/
def addedBy (ev : RadioEvent) (s : Esb) : List NrfEsbPayload :=
  if s.mainstate = .prx ∧ storesRx (ev.latch s) = true then [receivedEntry (ev.latch s)] else []

/-- A packet on air reaches a receiver whose TX FIFO is empty: no ACK payload is involved. -/
theorem ackPayloadMatches_of_empty {s : Esb} (htx : s.txFifo.Represents []) :
    ackPayloadMatches s = false := by
  have hcount : s.txFifo.count = 0 := htx.nil_iff.mpr rfl
  simp [ackPayloadMatches, hcount]

/-- **The radio interrupt of a box that listens**: a packet may be stored, or an acknowledgment
    is out. -/
theorem Polls.radioIrq {s : Esb} {q : List NrfEsbPayload} (h : Polls s q) (ev : RadioEvent) :
    Polls (radioIrqHandler ev s) (q ++ addedBy ev s) := by
  have hreceives := radioIrqHandler_receives ev h.receives h.busy
  obtain ⟨-, ⟨-, hprx⟩ | ⟨hhandler, hack⟩⟩ := h.receives.cases h.busy
  · rw [radioIrqHandler_of_prx ev h.receives hprx] at hreceives ⊢
    have hframe := onRadioDisabledRx_frame (ev.latch s)
    have hdelivered : ackPayloadDelivered (ev.latch s) = false := by
      rw [ackPayloadDelivered, ackPayloadMatches_of_empty (by simpa using h.tx)]
      rfl
    have htx := onRadioDisabledRx_txFifo (ev.latch s)
    have hflags := onRadioDisabledRx_interruptFlags (ev.latch s)
    rw [hdelivered, Bool.and_false] at htx hflags
    refine ⟨hframe.esbInitialized.trans (by simpa using h.initialized),
      hframe.configLocal.trans (by simpa using h.config), hreceives, ?_, ?_, ?_, ?_, ?_⟩
    · rw [onRadioDisabledRx_mainstate, latch_mainstate, hprx]
      split <;> decide
    · rw [htx]
      simpa using h.tx
    · rw [onRadioDisabledRx_rxFifo, latch_rxFifo, addedBy]
      cases hst : storesRx (ev.latch s) with
      | true =>
        -- a stored packet has found room
        have hroom : s.rxFifo.count < nrfEsbRxFifoSize := by
          simp only [storesRx, acceptsRx, latch_rxFifo, Bool.and_eq_true, decide_eq_true_eq] at hst
          exact hst.1.1.2
        rw [if_pos rfl, if_pos ⟨hprx, rfl⟩]
        exact h.rx.push hroom _
      | false =>
        rw [if_neg (by simp), if_neg (by simp), List.append_nil]
        exact h.rx
    · rw [hflags, latch_interruptFlags]
      exact (Bool.or_false _).trans h.success
    · rw [hflags, latch_interruptFlags]
      exact h.failed
  · have hadded : addedBy ev s = [] := if_neg (by simp [hack])
    rw [hadded, List.append_nil]
    rcases radioIrqHandler_cases ev h.receives h.busy with ⟨hh, -⟩ | ⟨-, heq⟩
    · rw [latch_onRadioDisabled, hhandler] at hh
      cases hh
    · rw [heq] at hreceives ⊢
      exact ⟨(latch_esbInitialized ev s).trans h.initialized,
        (latch_configLocal ev s).trans h.config, hreceives, fun hidle => (by cases hidle),
        latch_txFifo ev s ▸ h.tx,
        latch_rxFifo ev s ▸ h.rx, latch_interruptFlags ev s ▸ h.success,
        latch_interruptFlags ev s ▸ h.failed⟩

/-! ## §4 The event handler -/

/-- **Starting a resting receiver** whose TX FIFO is empty. -/
theorem polls_startRx {s : Esb} {q : List NrfEsbPayload} (hidle : Idle false s)
    (htx : s.txFifo.Represents []) (hrx : s.rxFifo.Represents q)
    (hsuccess : s.interruptFlags.txSuccess = false) (hfailed : s.interruptFlags.txFailed = false) :
    Polls (nrfEsbStartRx s).2 q ∧ (nrfEsbStartRx s).2.mainstate = .prx := by
  have hstart : (nrfEsbStartRx s).2 = { s with
      onRadioDisabled := some .rx
      mainstate := .prx
      radio := (nrfEsbStartRx s).2.radio } := by
    unfold nrfEsbStartRx
    rw [if_neg (by simp [hidle.mainstate])]
  have hinten : (nrfEsbStartRx s).2.radio.intensetDisabled = true := by
    unfold nrfEsbStartRx
    rw [if_neg (by simp [hidle.mainstate])]
  refine ⟨⟨?_, ?_, ⟨?_, ?_, ?_⟩, ?_, ?_, ?_, ?_, ?_⟩, ?_⟩
  all_goals rw [hstart]
  · exact hidle.initialized
  · exact hidle.config
  · exact congrArg NrfEsbConfig.mode hidle.config
  · exact congrArg NrfEsbConfig.protocol hidle.config
  · exact ⟨rfl, hinten⟩
  · nofun
  · exact htx
  · exact hrx
  · exact hsuccess
  · exact hfailed

/-- A module that is initialised as a receiver and started. -/
theorem polls_init (s : Esb) :
    Polls (nrfEsbStartRx (nrfEsbInit (some (appEsbConfig false)) s).2).2 [] ∧
      (nrfEsbStartRx (nrfEsbInit (some (appEsbConfig false)) s).2).2.mainstate = .prx := by
  obtain ⟨hidle, hblank, -, -⟩ := nrfEsbInit_app false s
  exact polls_startRx hidle hblank.tx hblank.rx (congrArg InterruptFlags.txSuccess hblank.flags)
    (congrArg InterruptFlags.txFailed hblank.flags)

/-- The handler at the end of a beacon: the module is initialised as a receiver and started. -/
theorem onTxDone_normal {b : Box} (hmode : b.gMode = .normal) :
    ∃ s, onTxDone b = { b with esb := s } ∧ Polls s [] ∧ s.mainstate = .prx := by
  obtain ⟨s₁, hs₁⟩ : ∃ s₁, s₁ = nrfEsbDisable (nrfEsbFlushTx (nrfEsbFlushRx b.esb).2).2 := ⟨_, rfl⟩
  have hdone : onTxDone b = { b with
      esb := (nrfEsbStartRx (nrfEsbInit (some (appEsbConfig false)) s₁).2).2 } := by
    unfold onTxDone
    dsimp only [callEsb]
    rw [if_pos hmode, hs₁]
    rfl
  exact ⟨_, hdone, polls_init s₁⟩

/-- The mask once the payload `p` is recorded: payloads of 32 bytes from the pipes of devices
    are. -/
def recordedMask (mask : UInt8) (p : NrfEsbPayload) : UInt8 :=
  if p.pipe ≠ 0 ∧ p.length = 32 then mask ||| shiftBit 6 p.pipe else mask

/-- **The handler reads the oldest payload** and flushes the others. -/
theorem onRxReceived_normal {b : Box} {e : NrfEsbPayload} {q : List NrfEsbPayload}
    (h : Polls b.esb (e :: q)) (hmode : b.gMode = .normal) :
    b.onRxReceived = { b with
      esb := { b.esb with rxFifo := b.esb.rxFifo.dropHead.clear, rxPipeInfo := default }
      rxPayload := copyRxPayload b.rxPayload e
      gDevsDataRecvMask := recordedMask b.gDevsDataRecvMask e } := by
  have hpos : 0 < b.esb.rxFifo.count := h.rx.pos_iff.mpr (by simp)
  rw [onRxReceived_of_unread h.initialized (by omega), h.rx.head_cons]
  unfold onPayload recordedMask
  dsimp only
  rw [if_neg (by simp [hmode]), if_pos hmode]
  -- the copy has the pipe and the length of the payload in the FIFO
  have hpipe : (copyRxPayload b.rxPayload e).pipe = e.pipe := rfl
  have hlength : (copyRxPayload b.rxPayload e).length = e.length := rfl
  rw [hpipe, hlength]
  split <;> rfl

/-- What a run of the event handler does to the box: it reads a payload or not. -/
structure EvtResult (b b' : Box) (q : List NrfEsbPayload) : Prop where
  frame : ∃ s p mask, b' = { b with esb := s, rxPayload := p, gDevsDataRecvMask := mask }
  ack : b'.esb.mainstate = .prx ∨ b'.esb.mainstate = b.esb.mainstate ∧
    b'.esb.txPayloadBuffer = b.esb.txPayloadBuffer
  cases : (b'.gDevsDataRecvMask = b.gDevsDataRecvMask ∧ Phase b'.esb q ∧
      (b.esb.interruptFlags.rxDataReceived = true → q = [])) ∨
    ∃ e rest, q = e :: rest ∧ b.esb.interruptFlags.rxDataReceived = true ∧
      b'.gDevsDataRecvMask = recordedMask b.gDevsDataRecvMask e ∧ Phase b'.esb []

/-- The module with its events collected. -/
theorem Polls.collect {s : Esb} {q : List NrfEsbPayload} (h : Polls s q) :
    Polls { s with evtIrqPending := false, interruptFlags := .clear } q :=
  ⟨h.initialized, h.config, ⟨h.receives.mode, h.receives.protocol, h.receives.handler⟩, h.busy,
    h.tx, h.rx, rfl, rfl⟩

/-- **The event interrupt**, phase by phase. -/
theorem Phase.esbEvtIrq {b : Box} {q : List NrfEsbPayload} (h : Phase b.esb q)
    (hmode : b.gMode = .normal) : EvtResult b b.esbEvtIrq q := by
  cases h with
  | asleep hinit hidle hrx =>
    -- the module is not initialised: no handler is called
    have hevt : b.esbEvtIrq = { b with esb := { b.esb with evtIrqPending := false } } := by
      unfold Box.esbEvtIrq esbEvtIrqHandler
      dsimp only
      rw [if_pos (by simp [hinit])]
      rfl
    rw [hevt]
    exact ⟨⟨_, b.rxPayload, b.gDevsDataRecvMask, rfl⟩, .inr ⟨rfl, rfl⟩,
      .inl ⟨rfl, .asleep hinit hidle hrx, fun _ => rfl⟩⟩
  | sends hbeacon =>
    obtain ⟨p, htransmits, hnoack, hpid⟩ := hbeacon.transmits
    have hevt := esbEvtIrq_eq htransmits.initialized htransmits.config
    rw [hbeacon.flags] at hevt
    rw [hevt]
    exact ⟨⟨_, b.rxPayload, b.gDevsDataRecvMask, rfl⟩, .inr ⟨rfl, rfl⟩,
      .inl ⟨rfl, .sends ⟨⟨p, htransmits.collect, hnoack, hpid⟩, hbeacon.rx, rfl⟩, fun _ => rfl⟩⟩
  | sent hidle hrx hflags =>
    have hevt := esbEvtIrq_eq hidle.initialized hidle.config
    rw [hflags] at hevt
    obtain ⟨s, hdone, hpolls, hprx⟩ := onTxDone_normal
      (b := { b with esb := { b.esb with evtIrqPending := false, interruptFlags := .clear } }) hmode
    have heq : b.esbEvtIrq = { b with esb := s } := hevt.trans hdone
    rw [heq]
    exact ⟨⟨_, b.rxPayload, b.gDevsDataRecvMask, rfl⟩, .inl hprx,
      .inl ⟨rfl, .listens hpolls, fun _ => rfl⟩⟩
  | listens hpolls =>
    have hevt := esbEvtIrq_eq hpolls.initialized hpolls.config
    have hcollect := hpolls.collect
    unfold InterruptFlags.events at hevt
    rw [hpolls.success, hpolls.failed] at hevt
    cases hflag : b.esb.interruptFlags.rxDataReceived with
    | false =>
      rw [hflag] at hevt
      rw [hevt]
      exact ⟨⟨_, b.rxPayload, b.gDevsDataRecvMask, rfl⟩, .inr ⟨rfl, rfl⟩,
        .inl ⟨rfl, .listens hcollect, fun h => absurd (hflag.symm.trans h) (by simp)⟩⟩
    | true =>
      rw [hflag] at hevt
      cases q with
      | nil =>
        have hread := onRxReceived_of_empty
          (b := { b with esb := { b.esb with evtIrqPending := false, interruptFlags := .clear } })
          (hcollect.rx.nil_iff.mpr rfl)
        rw [hevt.trans hread]
        exact ⟨⟨_, b.rxPayload, b.gDevsDataRecvMask, rfl⟩, .inr ⟨rfl, rfl⟩,
          .inl ⟨rfl, .listens hcollect, fun _ => rfl⟩⟩
      | cons e rest =>
        have hread := onRxReceived_normal
          (b := { b with esb := { b.esb with evtIrqPending := false, interruptFlags := .clear } })
          hcollect hmode
        rw [hevt.trans hread]
        refine ⟨⟨_, _, _, rfl⟩, .inr ⟨rfl, rfl⟩, .inr ⟨e, rest, rfl, hflag, rfl, .listens ?_⟩⟩
        have hempty : b.esb.rxFifo.dropHead.clear.Represents [] :=
          RingQueue.represents_clear _ (by decide)
        exact ⟨hpolls.initialized, hpolls.config,
          ⟨hpolls.receives.mode, hpolls.receives.protocol, hpolls.receives.handler⟩, hpolls.busy,
          hpolls.tx, hempty, rfl, rfl⟩

end Box

end NordicEsb
