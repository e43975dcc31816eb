import NordicEsb.App.Recording
import NordicEsb.App.Records
import NordicEsb.App.Response

/-!
# Freshness of Polled Data

A box and one of its devices in normal mode. The payloads that the device hands over as new data
are numbered; on a beacon that asks it to send again it repeats the one before, whether or not it
has missed the beacon that started the frame.

A packet is heard or lost when its transmission ends, and the two programs interleave freely.

**Main result** (`fresh_of_reachable`): a payload that the box records is the one handed over
last. So one that is recorded twice is recorded in two frames only if the device has answered
none of the beacons that started a frame in between.
-/

namespace NordicEsb

/-! ## §1 A box and a device -/

/-- What is seen of the data. -/
inductive DataEvent where
  /-- The device hands the payload with this number over as new data. -/
  | handedOver (number : ℕ)
  /-- The box records the payload with this number in this frame. -/
  | recorded (frame number : ℕ)
deriving DecidableEq, Repr

/-- A box and a device that is paired with it. -/
structure Polled where
  box : Box
  device : Device
  /-- History variable: how many beacons have started a frame. -/
  frame : ℕ
  /-- History variable: the numbers of the payloads in the RX FIFO of the box, the oldest first. -/
  unread : List ℕ
  /-- History variable: what was seen of the data, the latest first. -/
  log : List DataEvent

/-- The interrupts, and the ends of the transmissions: `heard` tells whether the other side has
    received the packet, with the CRC `crc`. -/
inductive PolledAction where
  | boxTick
  | boxEvt
  | deviceTick
  | deviceEvt
  | beaconOut (heard : Bool) (crc : UInt16)
  | dataOut (heard : Bool) (crc : UInt16)
  | ackOut (heard : Bool) (crc : UInt16)
  /-- A damaged packet, or none. -/
  | boxNoise (ev : RadioEvent)
  | deviceNoise (ev : RadioEvent)

namespace Polled

/-- The data packet of the device as it comes in at the box: on the pipe with the index of the
    device. -/
def dataPacket (d : Device) : AirPacket :=
  { airPacket d.esb with pipe := Fin.ofNat 8 d.gDs.devIdx.toNat }

/-- When a step may be taken. A packet is heard by a module that listens for it. -/
def Enabled (s : Polled) : PolledAction → Prop
  | .boxTick => s.box.intervalTimerRunning = true
  | .boxEvt => s.box.esb.evtIrqPending = true
  | .deviceTick => s.device.intervalTimerRunning = true
  | .deviceEvt => s.device.esb.evtIrqPending = true
  | .beaconOut heard _ =>
    s.box.esb.mainstate = .ptxTx ∧ (heard = true → s.device.esb.mainstate = .prx)
  | .dataOut heard _ =>
    s.device.esb.mainstate = .ptxTxAck ∧ (heard = true → s.box.esb.mainstate = .prx)
  | .ackOut heard _ =>
    s.box.esb.mainstate = .prxSendAck ∧ (heard = true → s.device.esb.mainstate = .ptxRxAck)
  | .boxNoise ev => s.box.esb.mainstate = .prx ∧ ev.crcOk = false
  | .deviceNoise ev =>
    (s.device.esb.mainstate = .prx ∨ s.device.esb.mainstate = .ptxRxAck ∨
      s.device.esb.mainstate = .prxSendAck) ∧ ev.crcOk = false

/-- The handler of the box reads a payload. -/
def reads (b : Box) : Bool := b.esb.interruptFlags.rxDataReceived && decide (0 < b.esb.rxFifo.count)

/-- One step. -/
def step (s : Polled) : PolledAction → Polled
  | .boxTick =>
    let b := s.box.intervalTimerEventHandler
    { s with
      box := b
      frame := if Recording.sentNewData b then s.frame + 1 else s.frame
      unread := if b.esb.rxFifo.count = 0 then [] else s.unread }
  | .boxEvt =>
    let b := s.box.esbEvtIrq
    { s with
      box := b
      unread := if b.esb.rxFifo.count = 0 then [] else s.unread
      log := (if reads s.box then s.unread.take 1 else []).map (.recorded s.frame) ++ s.log }
  | .deviceTick => { s with device := s.device.intervalTimerEventHandler }
  | .deviceEvt =>
    let d := s.device.esbEvtIrq
    { s with
      device := d
      log := if d.newDataCount = s.device.newDataCount then s.log
        else .handedOver d.newDataCount :: s.log }
  | .beaconOut heard crc =>
    { s with
      box := s.box.radioIrq .silent
      device := if heard then s.device.radioIrq (.received (airPacket s.box.esb) crc)
        else s.device }
  | .dataOut heard crc =>
    let ev := .received (dataPacket s.device) crc
    { s with
      device := s.device.radioIrq .silent
      box := if heard then s.box.radioIrq ev else s.box
      unread := if heard then
        s.unread ++ (Box.addedBy ev s.box.esb).map fun _ => s.device.sentNumber else s.unread }
  | .ackOut heard crc =>
    { s with
      box := s.box.radioIrq .silent
      device := if heard then s.device.radioIrq (.received (airPacket s.box.esb) crc)
        else s.device }
  | .boxNoise ev => { s with box := s.box.radioIrq ev }
  | .deviceNoise ev => { s with device := s.device.radioIrq ev }

/-- A device that enters normal mode, with the record of a slot, before it has sent data. -/
def DeviceEnters (d : Device) : Prop :=
  ∃ d₀ : Device, d = d₀.enterNormalMode ∧ d₀.Stocked ∧ IsSlot d₀.gDs.devIdx ∧
    d₀.newDataCount = 0 ∧ d₀.sentNumber = 0 ∧ d₀.payloadNumber = default

/-- The runs of a box and a device from the time when both are in normal mode, and the last
    acknowledgment of the session is out. -/
def machine : Machine Polled PolledAction where
  start s := Recording.EntersNormal s.box ∧ s.box.esb.mainstate ≠ .prxSendAck ∧
    DeviceEnters s.device ∧ s.frame = 0 ∧ s.unread = [] ∧ s.log = []
  enabled := Enabled
  step := step

instance (s : Polled) (a : PolledAction) : Decidable (machine.enabled s a) := by
  show Decidable (s.Enabled a)
  cases a <;> unfold Enabled <;> infer_instance

/-! ## §2 The device -/

/-- **The device**, with the payloads `p` that it holds unread. -/
structure DeviceSide (d : Device) (p : List NrfEsbPayload) : Prop where
  mode : d.gMode = .normal
  stocked : d.Stocked
  cycle : d.Cycle p
  /-- The handler is told of payloads that are there. -/
  told : d.esb.interruptFlags.rxDataReceived = true → p ≠ []
  /-- What was sent last is the payload handed over last, and so is what would be repeated. -/
  sent : d.sentNumber = d.newDataCount
  held : d.payloadNumber.get (Device.otherIdx d.gCurPayloadIdx).toNat = d.newDataCount

variable {d d' : Device} {p : List NrfEsbPayload}

/-- **A reception**: the flag is raised if the payload is stored. -/
theorem polls_told {s : Esb} (h : Box.Polls s p) (ev : RadioEvent)
    (ht : s.interruptFlags.rxDataReceived = true → p ≠ []) :
    (radioIrqHandler ev s).interruptFlags.rxDataReceived = true → p ++ Box.addedBy ev s ≠ [] := by
  intro hflag
  obtain ⟨-, ⟨-, hprx⟩ | ⟨hhandler, hack⟩⟩ := h.receives.cases h.busy
  · rw [radioIrqHandler_of_prx ev h.receives hprx, onRadioDisabledRx_interruptFlags,
      latch_interruptFlags] at hflag
    rcases (Bool.or_eq_true _ _).mp hflag with hold | hst
    · simp [ht hold]
    · simp [Box.addedBy, hprx, hst]
  · have hkept : (radioIrqHandler ev s).interruptFlags = s.interruptFlags := by
      rcases radioIrqHandler_cases ev h.receives h.busy with ⟨hh, -⟩ | ⟨-, heq⟩
      · rw [latch_onRadioDisabled, hhandler] at hh
        cases hh
      · rw [heq]
        exact latch_interruptFlags ev s
    rw [hkept] at hflag
    simp [ht hflag]

/-- A damaged packet is not stored. -/
theorem addedBy_of_noise {ev : RadioEvent} (hev : ev.crcOk = false) (s : Esb) :
    Box.addedBy ev s = [] := by
  unfold Box.addedBy
  rw [if_neg]
  rintro ⟨-, hst⟩
  simp only [storesRx, acceptsRx, Bool.and_eq_true] at hst
  have hcrc : (ev.latch s).radio.crcstatus = false := by
    unfold RadioEvent.latch
    split
    · rfl
    · exact hev
  rw [hcrc] at hst
  simp at hst

/-- Outside of reception the flag says what is there. -/
theorem told_of_cycle (h : d.Cycle p)
    (ht : Box.Polls d.esb p → d.esb.interruptFlags.rxDataReceived = true → p ≠ []) :
    d.esb.interruptFlags.rxDataReceived = true → p ≠ [] := by
  intro hflag
  have hclear : d.esb.interruptFlags = .clear → False := by
    intro hclear
    rw [hclear] at hflag
    cases hflag
  cases h with
  | rests _ hblank => exact (hclear hblank.flags).elim
  | listens hpolls => exact ht hpolls hflag
  | sends hsends => exact (hclear hsends.flags).elim
  | waits hwaits => exact (hclear hwaits.flags).elim
  | done _ _ hdone _ =>
    cases hdone with
    | failed hflags | empty hflags =>
      rw [hflags] at hflag
      cases hflag
    | answered => nofun

/-- A step that hands nothing over. -/
theorem DeviceSide.keep {p' : List NrfEsbPayload} (h : DeviceSide d p)
    (hsame : Device.SameData d d') (hcycle : d'.Cycle p')
    (htold : Box.Polls d'.esb p' → d'.esb.interruptFlags.rxDataReceived = true → p' ≠ []) :
    DeviceSide d' p' := by
  refine ⟨hsame.mode.trans h.mode, hsame.stocked h.stocked, hcycle, told_of_cycle hcycle htold,
    ?_, ?_⟩
  · rw [hsame.sent, hsame.count]
    exact h.sent
  · rw [hsame.numbers, hsame.idx, hsame.count]
    exact h.held

/-- **The interval timer.** -/
theorem DeviceSide.tick (h : DeviceSide d p) (htimer : d.intervalTimerRunning = true) :
    DeviceSide d.intervalTimerEventHandler p ∧ Device.SameData d d.intervalTimerEventHandler := by
  obtain ⟨hcycle, hframe⟩ := h.cycle.tick htimer
  have hflags : d.intervalTimerEventHandler.esb.interruptFlags = d.esb.interruptFlags := by
    have hcall : ∀ (s : Esb) (channel : UInt32),
        (nrfEsbStartRx (nrfEsbSetRfChannel channel (nrfEsbStopRx s).2).2).2.interruptFlags =
          s.interruptFlags := by
      intro s channel
      unfold nrfEsbStartRx nrfEsbSetRfChannel nrfEsbStopRx
      repeat' split
      all_goals rfl
    unfold Device.intervalTimerEventHandler
    split
    · dsimp only
      split
      · exact hcall d.esb _
      · rfl
    · rfl
  refine ⟨h.keep hframe.same hcycle fun _ hflag => h.told ?_, hframe.same⟩
  rwa [← hflags]

/-- The radio interrupt changes the module only. -/
theorem sameData_radioIrq (d : Device) (ev : RadioEvent) : Device.SameData d (d.radioIrq ev) :=
  ⟨rfl, rfl, rfl, rfl, rfl, rfl, rfl⟩

/-- **The data packet is out.** -/
theorem DeviceSide.dataOut (h : DeviceSide d p) (hmain : d.esb.mainstate = .ptxTxAck) :
    p = [] ∧ DeviceSide (d.radioIrq .silent) [] := by
  obtain ⟨hnone, x, hsends⟩ := h.cycle.sendsData (.inl rfl) hmain
  have hwaits := hsends.sentBy .silent
  refine ⟨hnone, h.keep (sameData_radioIrq d _) (.waits hwaits) fun hpolls => ?_⟩
  exact absurd (hwaits.sends.config.symm.trans hpolls.config) (by decide)

/-- **The acknowledgment window closes**; the acknowledgments of the box are empty. -/
theorem DeviceSide.windowCloses (h : DeviceSide d p) (hmain : d.esb.mainstate = .ptxRxAck)
    {ev : RadioEvent} (hev : acks ev = true → ∀ pkt ∈ ev.packet, pkt.byte0 = 0) :
    p = [] ∧ DeviceSide (d.radioIrq ev) [] := by
  obtain ⟨hnone, x, hwaits⟩ := h.cycle.sendsData (.inr rfl) hmain
  obtain ⟨q, hcycle, hrests, hempty⟩ := hwaits.closedBy ev
  obtain rfl := hempty hev
  exact ⟨hnone, h.keep (sameData_radioIrq d _) hcycle fun hpolls => absurd hrests hpolls.busy⟩

/-- **A beacon comes in**, or noise. -/
theorem DeviceSide.hears (h : DeviceSide d p)
    (hmain : d.esb.mainstate = .prx ∨ d.esb.mainstate = .prxSendAck) (ev : RadioEvent) :
    DeviceSide (d.radioIrq ev) (p ++ Box.addedBy ev d.esb) := by
  have hpolls := h.cycle.polls hmain
  exact h.keep (sameData_radioIrq d ev) (.listens (hpolls.radioIrq ev))
    fun _ => polls_told hpolls ev h.told

/-- **The event handler** may answer a beacon that is there. -/
structure Answered (d d' : Device) (p p' : List NrfEsbPayload) : Prop where
  side : DeviceSide d' p'
  ds : d'.gDs = d.gDs
  count : d'.newDataCount = d.newDataCount ∨ d'.newDataCount = d.newDataCount + 1
  /-- Without a beacon there is nothing to answer. -/
  quiet : p = [] → d'.newDataCount = d.newDataCount ∧ p' = []

/-- **A payload is handled** by a device that receives, with its flags collected. -/
theorem DeviceSide.handled {d₁ : Device} {q : List NrfEsbPayload} (h : DeviceSide d p)
    (hsame : Device.SameData d d₁) (hpolls : Box.Polls d₁.esb q)
    (hflags : d'.esb.interruptFlags = .clear) (hh : d₁.Handled d') :
    ∃ p', DeviceSide d' p' ∧ d'.gDs = d.gDs ∧
      (d'.newDataCount = d.newDataCount ∨ d'.newDataCount = d.newDataCount + 1) := by
  have hnone : ∀ {p' : List NrfEsbPayload}, d'.esb.interruptFlags.rxDataReceived = true → p' ≠ [] := by
    intro p' hflag
    rw [hflags] at hflag
    cases hflag
  have hstocked := hsame.stocked h.stocked
  cases hh with
  | ignored => exact ⟨q, h.keep hsame (.listens hpolls) fun _ => hnone, hsame.ds, .inl hsame.count⟩
  | passed _ _ hsame₁ _ _ _ hidle hblank =>
    have hall := hsame.trans hsame₁
    exact ⟨[], h.keep hall (.rests hidle hblank) fun _ => hnone, hall.ds, .inl hall.count⟩
  | @answered _ isRetransmit _ _ hanswers =>
    obtain ⟨x, hx⟩ := hanswers.sends
    have hds := hanswers.ds.trans hsame.ds
    have hcount := hanswers.count
    have hsent := hanswers.sent
    have hnumbers := hanswers.numbers
    have hidx := hanswers.idx
    rw [hsame.count] at hcount hsent hnumbers
    cases isRetransmit with
    | true =>
      refine ⟨[], ⟨hanswers.mode.trans (hsame.mode.trans h.mode), hanswers.stocked, .sends hx, hnone,
        ?_, ?_⟩, hds, .inl hcount⟩
      · rw [hsent, if_pos rfl, hcount, if_pos rfl, hsame.numbers, hsame.idx]
        exact h.held
      · rw [hnumbers, if_pos rfl, hidx, if_pos rfl, hcount, if_pos rfl, hsame.numbers, hsame.idx]
        exact h.held
    | false =>
      refine ⟨[], ⟨hanswers.mode.trans (hsame.mode.trans h.mode), hanswers.stocked, .sends hx, hnone,
        ?_, ?_⟩, hds, .inr hcount⟩
      · rw [hsent, hcount]
        rfl
      · rw [hnumbers, hidx, hcount]
        -- the payload that was handed over is the one that would be repeated
        have hother : Device.otherIdx (Device.otherIdx d₁.gCurPayloadIdx) = d₁.gCurPayloadIdx := by
          rcases hstocked.idx with hzero | hone
          · rw [hzero]
            decide
          · rw [hone]
            decide
        simp only [Bool.false_eq_true, if_false, hother]
        exact FixedArray.get_set_self _ _ hstocked.idx_lt

/-- **The event handler.** -/
theorem DeviceSide.esbEvtIrq (h : DeviceSide d p) : ∃ p', Answered d d.esbEvtIrq p p' := by
  have hevents := h.cycle.esbEvtIrq h.mode h.stocked
  have hflags := hevents.flags
  obtain ⟨d', hd'⟩ : ∃ d', d' = d.esbEvtIrq := ⟨_, rfl⟩
  rw [← hd'] at hevents hflags ⊢
  have hnone : ∀ {p' : List NrfEsbPayload}, d'.esb.interruptFlags.rxDataReceived = true → p' ≠ [] := by
    intro p' hflag
    rw [hflags] at hflag
    cases hflag
  cases hevents with
  | none hsame _ _ _ hcycle =>
    exact ⟨p, h.keep hsame hcycle fun _ => hnone, hsame.ds, .inl hsame.count,
      fun hp => ⟨hsame.count, hp⟩⟩
  | read hflag hreads hh =>
    have hsame : Device.SameData d d.cleared := ⟨rfl, rfl, rfl, rfl, rfl, rfl, rfl⟩
    obtain ⟨p', hside, hds, hcount⟩ := h.handled (hsame.trans hreads.same) hreads.polls hflags hh
    exact ⟨p', hside, hds, hcount, fun hp => absurd hp (h.told hflag)⟩
  | ended _ hp hlistens =>
    exact ⟨[], h.keep hlistens.same (.listens hlistens.polls) fun _ => hnone, hlistens.same.ds,
      .inl hlistens.same.count, fun _ => ⟨hlistens.same.count, rfl⟩⟩
  | endedRead _ hp hlistens hreads hh =>
    obtain ⟨p', hside, hds, hcount⟩ :=
      h.handled (hlistens.same.trans hreads.same) hreads.polls hflags hh
    exact ⟨p', hside, hds, hcount, fun hempty => absurd (hempty.symm.trans hp) nofun⟩

/-! ## §3 The box -/

/-- **The box**, with the payloads `q` of the device with index `idx` that it holds unread. -/
structure BoxSide (b : Box) (idx : UInt8) (q : List NrfEsbPayload) : Prop where
  mode : b.gMode = .normal
  beacon : b.gBeacon.length = 10
  phase : Box.Phase b.esb q
  data : ∀ e ∈ q, e.pipe = idx ∧ e.length = 32
  /-- Its acknowledgments are empty. -/
  ack : b.esb.mainstate = .prxSendAck → b.esb.txPayloadBuffer.byte0 = 0

variable {b : Box} {idx : UInt8} {q : List NrfEsbPayload}

theorem BoxSide.count (h : BoxSide b idx q) : b.esb.rxFifo.count = q.length := h.phase.rx.count_eq

/-- **The interval timer** discards what is unread, and may start a frame. -/
theorem BoxSide.tick (h : BoxSide b idx q) :
    BoxSide b.intervalTimerEventHandler idx [] ∧
      if Recording.sentNewData b.intervalTimerEventHandler then
        b.intervalTimerEventHandler.gDevsDataRecvMask = 0
      else b.intervalTimerEventHandler.gDevsDataRecvMask = b.gDevsDataRecvMask := by
  obtain ⟨hframe, hbeacon⟩ := Box.tick_normal h.mode (by rw [h.beacon]; decide)
  obtain ⟨x, htransmits, -⟩ := hbeacon.transmits
  refine ⟨⟨hframe.mode.trans h.mode, hframe.length.trans h.beacon, .sends hbeacon, nofun, ?_⟩, ?_⟩
  · rw [htransmits.mainstate]
    nofun
  · have hkind := hframe.beacon
    have hmask := hframe.recv
    unfold Recording.sentNewData
    cases hstarts : b.startsFrame with
    | true =>
      rw [hstarts, if_pos rfl] at hkind hmask
      rw [hkind]
      exact hmask
    | false =>
      rw [hstarts, if_neg (by decide)] at hkind hmask
      rw [hkind.1]
      exact hmask

/-- A box that sends is sending a beacon. -/
theorem BoxSide.onAir (h : BoxSide b idx q) (hmain : b.esb.mainstate = .ptxTx) :
    q = [] ∧ Box.BeaconOnAir b.esb := by
  cases h.phase with
  | sends hbeacon => exact ⟨rfl, hbeacon⟩
  | asleep _ hidle => exact absurd (hidle.symm.trans hmain) nofun
  | sent hidle => exact absurd (hidle.mainstate.symm.trans hmain) nofun
  | listens hpolls =>
    rcases hpolls.mainstate with hprx | hack
    · exact absurd (hprx.symm.trans hmain) nofun
    · exact absurd (hack.symm.trans hmain) nofun

/-- **The beacon is out.** -/
theorem BoxSide.beaconOut (h : BoxSide b idx q) (hmain : b.esb.mainstate = .ptxTx) :
    q = [] ∧ BoxSide (b.radioIrq .silent) idx [] := by
  obtain ⟨hnone, hair⟩ := h.onAir hmain
  obtain ⟨x, htransmits, -⟩ := hair.transmits
  obtain ⟨hidle, -⟩ := htransmits.done
  refine ⟨hnone, h.mode, h.beacon, hair.radioIrq, nofun, fun hack => ?_⟩
  exact absurd (hidle.mainstate.symm.trans hack) nofun

/-- The box listens if its module receives. -/
theorem BoxSide.polls (h : BoxSide b idx q)
    (hmain : b.esb.mainstate = .prx ∨ b.esb.mainstate = .prxSendAck) : Box.Polls b.esb q := by
  cases h.phase with
  | listens hpolls => exact hpolls
  | asleep _ hidle =>
    rw [hidle] at hmain
    rcases hmain with hmain | hmain <;> cases hmain
  | sent hidle =>
    rw [hidle.mainstate] at hmain
    rcases hmain with hmain | hmain <;> cases hmain
  | sends hbeacon =>
    obtain ⟨x, htransmits, -⟩ := hbeacon.transmits
    rw [htransmits.mainstate] at hmain
    rcases hmain with hmain | hmain <;> cases hmain

/-- An acknowledgment without a queued payload is empty. -/
theorem ack_of_polls (h : Box.Polls b.esb q) (ev : RadioEvent)
    (hack : (radioIrqHandler ev b.esb).mainstate = .prxSendAck) :
    (radioIrqHandler ev b.esb).txPayloadBuffer.byte0 = 0 := by
  obtain ⟨-, ⟨-, hprx⟩ | ⟨hhandler, -⟩⟩ := h.receives.cases h.busy
  · rw [radioIrqHandler_of_prx ev h.receives hprx] at hack ⊢
    rw [onRadioDisabledRx_mainstate, latch_mainstate, hprx] at hack
    split at hack
    case isFalse => cases hack
    case isTrue hacks =>
      have hdpl : acksDpl (ev.latch b.esb) = true := by
        have hproto : (ev.latch b.esb).configLocal.protocol = .esbDpl := by
          simpa using h.receives.protocol
        simp only [acksDpl, hacks, hproto, Bool.true_and, beq_self_eq_true]
      have hbuffer := onRadioDisabledRx_ackBuffer hdpl
      rwa [Box.ackPayloadMatches_of_empty (by simpa using h.tx), if_neg (by decide)] at hbuffer
  · rcases radioIrqHandler_cases ev h.receives h.busy with ⟨hh, -⟩ | ⟨-, heq⟩
    · rw [latch_onRadioDisabled, hhandler] at hh
      cases hh
    · rw [heq] at hack
      cases hack

/-- **The radio of a box that listens.** -/
theorem BoxSide.radioIrq (h : BoxSide b idx q)
    (hmain : b.esb.mainstate = .prx ∨ b.esb.mainstate = .prxSendAck) {ev : RadioEvent}
    (hadded : ∀ e ∈ Box.addedBy ev b.esb, e.pipe = idx ∧ e.length = 32) :
    BoxSide (b.radioIrq ev) idx (q ++ Box.addedBy ev b.esb) := by
  have hpolls := h.polls hmain
  refine ⟨h.mode, h.beacon, .listens (hpolls.radioIrq ev), ?_, ack_of_polls hpolls ev⟩
  intro e he
  rcases List.mem_append.mp he with hold | hnew
  · exact h.data e hold
  · exact hadded e hnew

/-- Noise, or the end of an acknowledgment. -/
theorem BoxSide.radioIrq_of_noise (h : BoxSide b idx q)
    (hmain : b.esb.mainstate = .prx ∨ b.esb.mainstate = .prxSendAck) {ev : RadioEvent}
    (hev : ev.crcOk = false) : BoxSide (b.radioIrq ev) idx q := by
  have hnone := addedBy_of_noise hev b.esb
  have hadded : ∀ e ∈ Box.addedBy ev b.esb, e.pipe = idx ∧ e.length = 32 := by
    rw [hnone]
    nofun
  have hside := h.radioIrq hmain hadded
  rwa [hnone, List.append_nil] at hside

/-- **The packet of the device** is stored with its index and 32 bytes. -/
theorem addedBy_dataPacket {x : NrfEsbPayload} (hsends : d.SendsData .ptxTxAck x)
    (hslot : IsSlot d.gDs.devIdx) (hpolls : Box.Polls b.esb q) (crc : UInt16) :
    ∀ e ∈ Box.addedBy (.received (dataPacket d) crc) b.esb,
      e.pipe = d.gDs.devIdx ∧ e.length = 32 := by
  intro e he
  obtain ⟨-, heq⟩ := Recording.mem_addedBy.mp he
  have hpacket : dataPacket d =
      packetOf (appEsbConfig true) { x with pipe := d.gDs.devIdx } := by
    unfold dataPacket
    rw [hsends.sends.air]
    rfl
  have hlen : ({ x with pipe := d.gDs.devIdx } : NrfEsbPayload).length.toNat ≤
      nrfEsbMaxPayloadLength := by
    show x.length.toNat ≤ _
    rw [hsends.length]
    decide
  have hpipe : ({ x with pipe := d.gDs.devIdx } : NrfEsbPayload).pipe.toNat < 8 := by
    have := hslot.2
    show d.gDs.devIdx.toNat < 8
    omega
  have hcontent : (receivedEntry ((RadioEvent.received (packetOf (appEsbConfig true)
      { x with pipe := d.gDs.devIdx }) crc).latch b.esb)).content =
        ({ x with pipe := d.gDs.devIdx } : NrfEsbPayload).content :=
    content_receivedEntry hpolls.receives.protocol hpipe hlen
  rw [← hpacket, ← heq] at hcontent
  have hlength : e.length = x.length := congrArg Prod.fst hcontent
  have hp : e.pipe = d.gDs.devIdx := congrArg (fun c => c.2.1) hcontent
  exact ⟨hp, hlength.trans hsends.length⟩

/-- What the event handler of the box does: it reads and records the oldest payload, or nothing. -/
structure BoxOutcome (b b' : Box) (idx : UInt8) (q q' : List NrfEsbPayload) : Prop where
  side : BoxSide b' idx q'
  cases : reads b = false ∧ q' = q ∧ b'.gDevsDataRecvMask = b.gDevsDataRecvMask ∨
    reads b = true ∧ q ≠ [] ∧ q' = [] ∧
      b'.gDevsDataRecvMask = b.gDevsDataRecvMask ||| shiftBit 6 idx

/-- **The event handler.** -/
theorem BoxSide.esbEvtIrq (h : BoxSide b idx q) (hslot : IsSlot idx) :
    ∃ q', BoxOutcome b b.esbEvtIrq idx q q' := by
  obtain ⟨hframe, hack, hcases⟩ := h.phase.esbEvtIrq h.mode
  obtain ⟨s, x, mask, hb⟩ := hframe
  have hcount := h.count
  have hside : ∀ {q' : List NrfEsbPayload}, Box.Phase b.esbEvtIrq.esb q' →
      (∀ e ∈ q', e.pipe = idx ∧ e.length = 32) → BoxSide b.esbEvtIrq idx q' := by
    intro q' hphase hdata
    refine ⟨?_, ?_, hphase, hdata, fun hmain => ?_⟩
    · rw [hb]
      exact h.mode
    · rw [hb]
      exact h.beacon
    · rcases hack with hprx | ⟨hsame, hbuffer⟩
      · exact absurd (hprx.symm.trans hmain) nofun
      · rw [hbuffer]
        exact h.ack (hsame.symm.trans hmain)
  rcases hcases with ⟨hmask, hphase, hnone⟩ | ⟨e, rest, rfl, hflag, hmask, hphase⟩
  · refine ⟨q, hside hphase h.data, .inl ⟨?_, rfl, hmask⟩⟩
    unfold reads
    cases hflag : b.esb.interruptFlags.rxDataReceived with
    | false => rfl
    | true =>
      rw [hcount, hnone hflag]
      rfl
  · refine ⟨[], hside hphase nofun, .inr ⟨?_, nofun, rfl, ?_⟩⟩
    · unfold reads
      rw [hflag, hcount]
      rfl
    · obtain ⟨hpipe, hlen⟩ := h.data e List.mem_cons_self
      have hne : e.pipe ≠ 0 := by
        rw [hpipe]
        rintro rfl
        exact absurd hslot.1 (by decide)
      rw [hmask, Box.recordedMask, if_pos ⟨hne, hlen⟩, hpipe]

/-! ## §4 The log -/

/-- How many payloads were handed over. -/
def handedCount (log : List DataEvent) : ℕ :=
  log.countP fun e => match e with
    | .handedOver _ => true
    | .recorded _ _ => false

/-- **The log of a run**: a payload is recorded under the number of the one handed over last. -/
structure Faithful (log : List DataEvent) : Prop where
  recorded : ∀ l₁ f n l₂, log = l₁ ++ .recorded f n :: l₂ → n = handedCount l₂

theorem faithful_nil : Faithful [] where
  recorded l₁ f n l₂ h := by simp at h

theorem Faithful.handedOver {log : List DataEvent} (h : Faithful log) (n : ℕ) :
    Faithful (.handedOver n :: log) where
  recorded l₁ f m l₂ heq := by
    cases l₁ with
    | nil => simp at heq
    | cons e l₁ =>
      obtain ⟨-, htail⟩ := List.cons.inj heq
      exact h.recorded l₁ f m l₂ htail

theorem Faithful.cons_recorded {log : List DataEvent} (h : Faithful log) (f : ℕ) :
    Faithful (.recorded f (handedCount log) :: log) where
  recorded l₁ f' n l₂ heq := by
    cases l₁ with
    | nil =>
      obtain ⟨hhead, htail⟩ := List.cons.inj heq
      obtain ⟨-, rfl⟩ := DataEvent.recorded.inj hhead
      rw [htail]
    | cons e l₁ =>
      obtain ⟨-, htail⟩ := List.cons.inj heq
      exact h.recorded l₁ f' n l₂ htail

/-- **A payload that is recorded twice**: nothing is handed over in between. -/
theorem Faithful.twice {log : List DataEvent} (h : Faithful log) {l₁ l₂ l₃ : List DataEvent}
    {f g n : ℕ} (hlog : log = l₁ ++ .recorded g n :: (l₂ ++ .recorded f n :: l₃)) (m : ℕ) :
    .handedOver m ∉ l₂ := by
  intro hmem
  have hlast := h.recorded l₁ g n _ hlog
  have hfirst := h.recorded (l₁ ++ .recorded g n :: l₂) f n l₃ (by simp [hlog])
  have hpos : 0 < handedCount l₂ := List.countP_pos_iff.mpr ⟨_, hmem, rfl⟩
  have hsplit : handedCount (l₂ ++ .recorded f n :: l₃) = handedCount l₂ + handedCount l₃ := by
    simp [handedCount]
  omega

/-! ## §5 The invariant -/

/-- **The invariant**, with the payloads that the two hold unread. -/
structure Inv (s : Polled) (q p : List NrfEsbPayload) : Prop where
  slot : IsSlot s.device.gDs.devIdx
  box : BoxSide s.box s.device.gDs.devIdx q
  device : DeviceSide s.device p
  unread : s.unread.length = q.length
  /-- The payloads on their way are the one handed over last. -/
  fresh : ∀ n ∈ s.unread, n = s.device.newDataCount
  /-- While there are any, the device has no beacon to answer. -/
  quiet : q ≠ [] → p = []
  handed : s.device.newDataCount = handedCount s.log
  faithful : Faithful s.log
  frames : ∀ f n, .recorded f n ∈ s.log → f ≤ s.frame
  bit : hasDevice s.box.gDevsDataRecvMask s.device.gDs.devIdx.toNat = true ↔
    ∃ n, .recorded s.frame n ∈ s.log

theorem inv_start {s : Polled} (h : machine.start s) : Inv s [] [] := by
  obtain ⟨hbox, hmain, ⟨d₀, hd, hstocked, hslot, hcount, hsent, hnumbers⟩, hframe, hunread, hlog⟩ := h
  obtain ⟨hidle, hblank⟩ := Device.enterNormalMode_rests d₀
  have hside : DeviceSide s.device [] := by
    rw [hd]
    refine ⟨rfl, ⟨hstocked.idx, hstocked.data⟩, .rests hidle hblank, ?_, ?_, ?_⟩
    · rw [hblank.flags]
      nofun
    · exact hsent.trans hcount.symm
    · show d₀.payloadNumber.get _ = d₀.newDataCount
      rw [hnumbers, hcount]
      exact FixedArray.get_default _
  have hzero : s.device.newDataCount = 0 := by
    rw [hd]
    exact hcount
  have hidx : s.device.gDs.devIdx = d₀.gDs.devIdx := by
    rw [hd]
    rfl
  refine ⟨hidx ▸ hslot, ⟨hbox.mode, hbox.beacon, hbox.phase, nofun, fun hack => absurd hack hmain⟩,
    hside, ?_, ?_, nofun, ?_, ?_, ?_, ?_⟩
  · rw [hunread]
    rfl
  · rw [hunread]
    nofun
  · rw [hzero, hlog]
    rfl
  · rw [hlog]
    exact faithful_nil
  · rw [hlog]
    nofun
  · rw [hbox.recv, hasDevice_zero, hlog]
    simp

variable {s : Polled} {p q : List NrfEsbPayload}

/-- A step of the device that the log does not show. -/
theorem Inv.deviceStep {d' : Device} {p' : List NrfEsbPayload} (h : Inv s q p)
    (hside : DeviceSide d' p') (hsame : Device.SameData s.device d') (hquiet : q ≠ [] → p' = []) :
    Inv { s with device := d' } q p' := by
  have hds : d'.gDs.devIdx = s.device.gDs.devIdx := by rw [hsame.ds]
  exact ⟨hds ▸ h.slot, hds ▸ h.box, hside, h.unread, hsame.count ▸ h.fresh, hquiet,
    hsame.count ▸ h.handed, h.faithful, h.frames, hds ▸ h.bit⟩

/-- A step of the box that leaves mask and FIFO alone. -/
theorem Inv.boxStep {b' : Box} (h : Inv s q p) (hside : BoxSide b' s.device.gDs.devIdx q)
    (hmask : b'.gDevsDataRecvMask = s.box.gDevsDataRecvMask) : Inv { s with box := b' } q p :=
  ⟨h.slot, hside, h.device, h.unread, h.fresh, h.quiet, h.handed, h.faithful, h.frames,
    hmask ▸ h.bit⟩

/-- **The tick of the box.** -/
theorem Inv.boxTick (h : Inv s q p) : Inv (s.step .boxTick) [] p := by
  obtain ⟨hside, hmask⟩ := h.box.tick
  have hempty : s.box.intervalTimerEventHandler.esb.rxFifo.count = 0 := hside.count
  have hunread : (s.step .boxTick).unread = [] := by
    simp only [step, hempty, if_true]
  refine ⟨h.slot, hside, h.device, by rw [hunread]; rfl, by rw [hunread]; nofun, fun hq => absurd rfl hq,
    h.handed, h.faithful, ?_, ?_⟩
  · intro f n hmem
    have hle := h.frames f n hmem
    simp only [step]
    split <;> omega
  · simp only [step]
    split at hmask
    case isTrue hnew =>
      -- nothing is recorded in the new frame yet
      rw [hmask, hasDevice_zero, if_pos hnew]
      refine ⟨nofun, ?_⟩
      rintro ⟨n, hmem⟩
      have hle := h.frames _ n hmem
      omega
    case isFalse hold =>
      rw [hmask, if_neg hold]
      exact h.bit

/-- **The event handler of the box** records the payload handed over last. -/
theorem Inv.boxEvt (h : Inv s q p) : ∃ q', Inv (s.step .boxEvt) q' p := by
  obtain ⟨q', hside, hcases⟩ := h.box.esbEvtIrq h.slot
  have hcount : s.box.esbEvtIrq.esb.rxFifo.count = q'.length := hside.count
  rcases hcases with ⟨hno, rfl, hmask⟩ | ⟨hreads, hq, rfl, hmask⟩
  · have hunread : (s.step .boxEvt).unread = s.unread := by
      simp only [step, hcount]
      split
      case isTrue hzero => exact (List.eq_nil_of_length_eq_zero (h.unread.trans hzero)).symm
      case isFalse => rfl
    have hlog : (s.step .boxEvt).log = s.log := by
      simp [step, hno]
    refine ⟨q', h.slot, hside, h.device, ?_, ?_, h.quiet, ?_, ?_, ?_, ?_⟩
    · rw [hunread]
      exact h.unread
    · rw [hunread]
      exact h.fresh
    · rw [hlog]
      exact h.handed
    · rw [hlog]
      exact h.faithful
    · rw [hlog]
      exact h.frames
    · rw [hlog]
      show hasDevice s.box.esbEvtIrq.gDevsDataRecvMask _ = true ↔ _
      rw [hmask]
      exact h.bit
  · have hunread : (s.step .boxEvt).unread = [] := by
      simp only [step, hcount, List.length_nil, if_true]
    -- the oldest number is that of the payload handed over last
    obtain ⟨n, rest, hnumbers⟩ : ∃ n rest, s.unread = n :: rest := by
      apply List.exists_cons_of_ne_nil
      rintro hnil
      have hlen := h.unread
      rw [hnil] at hlen
      exact hq (List.eq_nil_of_length_eq_zero hlen.symm)
    have hn : n = handedCount s.log := (h.fresh n (by simp [hnumbers])).trans h.handed
    have hlog : (s.step .boxEvt).log = .recorded s.frame (handedCount s.log) :: s.log := by
      simp [step, hreads, hnumbers, hn]
    refine ⟨[], h.slot, hside, h.device, by rw [hunread]; rfl, by rw [hunread]; nofun,
      fun hne => absurd rfl hne, ?_, ?_, ?_, ?_⟩
    · rw [hlog]
      exact h.handed
    · rw [hlog]
      exact h.faithful.cons_recorded s.frame
    · rw [hlog]
      intro f m hmem
      rcases List.mem_cons.mp hmem with heq | hold
      · obtain ⟨rfl, -⟩ := DataEvent.recorded.inj heq
        exact le_rfl
      · exact h.frames f m hold
    · rw [hlog]
      show hasDevice s.box.esbEvtIrq.gDevsDataRecvMask s.device.gDs.devIdx.toNat = true ↔
        ∃ n, DataEvent.recorded s.frame n ∈ _ :: s.log
      rw [hmask, hasDevice_or_shiftBit h.slot h.slot]
      simp only [decide_true, Bool.or_true, true_iff]
      exact ⟨_, List.mem_cons_self⟩

/-- **The event handler of the device** hands a payload over only while the box holds none. -/
theorem Inv.deviceEvt (h : Inv s q p) : ∃ p', Inv (s.step .deviceEvt) q p' := by
  obtain ⟨p', hside, hds, hcount, hquiet⟩ := h.device.esbEvtIrq
  have hidx : s.device.esbEvtIrq.gDs.devIdx = s.device.gDs.devIdx := by rw [hds]
  have hquiet' : q ≠ [] → p' = [] := fun hq => (hquiet (h.quiet hq)).2
  by_cases hsame : s.device.esbEvtIrq.newDataCount = s.device.newDataCount
  · have hlog : (s.step .deviceEvt).log = s.log := by
      simp only [step, hsame, if_true]
    refine ⟨p', hidx ▸ h.slot, hidx ▸ h.box, hside, h.unread, ?_, hquiet', ?_, ?_, ?_, ?_⟩
    · exact hsame ▸ h.fresh
    · rw [hlog]
      exact hsame.trans h.handed
    · rw [hlog]
      exact h.faithful
    · rw [hlog]
      exact h.frames
    · rw [hlog]
      exact hidx ▸ h.bit
  · have hlog : (s.step .deviceEvt).log =
        .handedOver s.device.esbEvtIrq.newDataCount :: s.log := by
      simp only [step, hsame, if_false]
    -- while the box holds a payload, the device has no beacon to answer
    have hempty : q = [] := by
      by_contra hq
      exact hsame (hquiet (h.quiet hq)).1
    have hunread : s.unread = [] := List.eq_nil_of_length_eq_zero (by rw [h.unread, hempty]; rfl)
    refine ⟨p', hidx ▸ h.slot, hidx ▸ h.box, hside, h.unread, ?_, hquiet', ?_, ?_, ?_, ?_⟩
    · show ∀ n ∈ s.unread, _
      rw [hunread]
      nofun
    · rw [hlog]
      have hcounted : handedCount (.handedOver s.device.esbEvtIrq.newDataCount :: s.log) =
          s.device.newDataCount + 1 := by simp [handedCount, h.handed]
      rw [hcounted]
      exact hcount.resolve_left hsame
    · rw [hlog]
      exact h.faithful.handedOver _
    · rw [hlog]
      intro f n hmem
      exact h.frames f n ((List.mem_cons.mp hmem).resolve_left nofun)
    · rw [hlog]
      have hkept : ∀ n, .recorded s.frame n ∈ .handedOver s.device.esbEvtIrq.newDataCount :: s.log ↔
          .recorded s.frame n ∈ s.log := by simp
      show hasDevice _ s.device.esbEvtIrq.gDs.devIdx.toNat = true ↔ _
      rw [hidx]
      refine h.bit.trans (exists_congr fun n => (hkept n).symm)

/-- **The beacon is out**: the box has just discarded what was unread. -/
theorem Inv.beaconOut (h : Inv s q p) {heard : Bool} {crc : UInt16}
    (hen : s.Enabled (.beaconOut heard crc)) :
    ∃ p', Inv (s.step (.beaconOut heard crc)) [] p' := by
  obtain ⟨rfl, hside⟩ := h.box.beaconOut hen.1
  have hbox := h.boxStep hside rfl
  cases heard with
  | false => exact ⟨p, hbox⟩
  | true =>
    exact ⟨_, hbox.deviceStep (h.device.hears (.inl (hen.2 rfl)) _) (sameData_radioIrq _ _)
      fun hq => absurd rfl hq⟩

/-- **The data packet is out**: the device has nothing unread. -/
theorem Inv.dataOut (h : Inv s q p) {heard : Bool} {crc : UInt16}
    (hen : s.Enabled (.dataOut heard crc)) :
    ∃ q', Inv (s.step (.dataOut heard crc)) q' [] := by
  obtain ⟨rfl, hside⟩ := h.device.dataOut hen.1
  obtain ⟨-, x, hsends⟩ := h.device.cycle.sendsData (.inl rfl) hen.1
  have hdevice := h.deviceStep hside (sameData_radioIrq _ _) fun _ => rfl
  cases heard with
  | false => exact ⟨q, hdevice⟩
  | true =>
    have hprx := hen.2 rfl
    have hadded := addedBy_dataPacket hsends h.slot (h.box.polls (.inl hprx)) crc
    refine ⟨q ++ Box.addedBy (.received (dataPacket s.device) crc) s.box.esb, h.slot,
      h.box.radioIrq (.inl hprx) hadded, hside, ?_, ?_, fun _ => rfl, h.handed, h.faithful,
      h.frames, h.bit⟩
    · simp [step, h.unread]
    · intro n hn
      simp only [step, if_true, List.mem_append, List.mem_map] at hn
      rcases hn with hold | ⟨e, -, rfl⟩
      · exact h.fresh n hold
      · exact h.device.sent

/-- The acknowledgment is out. -/
theorem Inv.ackOut (h : Inv s q p) {heard : Bool} {crc : UInt16}
    (hen : s.Enabled (.ackOut heard crc)) : ∃ p', Inv (s.step (.ackOut heard crc)) q p' := by
  have hside : BoxSide (s.box.radioIrq .silent) s.device.gDs.devIdx q :=
    h.box.radioIrq_of_noise (.inr hen.1) rfl
  have hbox := h.boxStep hside rfl
  cases heard with
  | false => exact ⟨p, hbox⟩
  | true =>
    have hempty : ∀ pkt ∈ (RadioEvent.received (airPacket s.box.esb) crc).packet,
        pkt.byte0 = 0 := by
      intro pkt hpkt
      obtain rfl := Option.some.inj hpkt
      exact h.box.ack hen.1
    obtain ⟨-, hdevice⟩ := h.device.windowCloses (hen.2 rfl) fun _ => hempty
    exact ⟨[], hbox.deviceStep hdevice (sameData_radioIrq _ _) fun _ => rfl⟩

/-- Noise at the box. -/
theorem Inv.boxNoise (h : Inv s q p) {ev : RadioEvent} (hen : s.Enabled (.boxNoise ev)) :
    Inv (s.step (.boxNoise ev)) q p :=
  h.boxStep (h.box.radioIrq_of_noise (.inl hen.1) hen.2) rfl

/-- Noise at the device. -/
theorem Inv.deviceNoise (h : Inv s q p) {ev : RadioEvent} (hen : s.Enabled (.deviceNoise ev)) :
    ∃ p', Inv (s.step (.deviceNoise ev)) q p' := by
  obtain ⟨hmain, hcrc⟩ := hen
  have hlistens : (s.device.esb.mainstate = .prx ∨ s.device.esb.mainstate = .prxSendAck) →
      ∃ p', Inv (s.step (.deviceNoise ev)) q p' := by
    intro hprx
    have hside := h.device.hears hprx ev
    rw [addedBy_of_noise hcrc, List.append_nil] at hside
    exact ⟨p, h.deviceStep hside (sameData_radioIrq _ _) h.quiet⟩
  rcases hmain with hprx | hwaits | hack
  · exact hlistens (.inl hprx)
  · have hno : acks ev = true → ∀ pkt ∈ ev.packet, pkt.byte0 = 0 := by
      unfold acks
      rw [hcrc, Bool.and_false]
      nofun
    obtain ⟨-, hside⟩ := h.device.windowCloses hwaits hno
    exact ⟨[], h.deviceStep hside (sameData_radioIrq _ _) fun _ => rfl⟩
  · exact hlistens (.inr hack)

/-- **Every step keeps the invariant.** -/
theorem inv_step {a : PolledAction} (h : Inv s q p) (hen : s.Enabled a) :
    ∃ q' p', Inv (s.step a) q' p' := by
  cases a with
  | boxTick => exact ⟨_, _, h.boxTick⟩
  | boxEvt =>
    obtain ⟨q', hq⟩ := h.boxEvt
    exact ⟨q', p, hq⟩
  | deviceTick =>
    obtain ⟨hside, hsame⟩ := h.device.tick hen
    exact ⟨q, p, h.deviceStep hside hsame h.quiet⟩
  | deviceEvt => exact ⟨q, h.deviceEvt⟩
  | beaconOut heard crc => exact ⟨[], h.beaconOut hen⟩
  | dataOut heard crc =>
    obtain ⟨q', hq⟩ := h.dataOut hen
    exact ⟨q', [], hq⟩
  | ackOut heard crc => exact ⟨q, h.ackOut hen⟩
  | boxNoise ev => exact ⟨q, p, h.boxNoise hen⟩
  | deviceNoise ev => exact ⟨q, h.deviceNoise hen⟩

/-! ## §6 Freshness -/

/-- **Freshness**: a payload that the box records is the one handed over last, so that nothing is
    handed over between two recordings of one payload; and the bit of the device is set if and
    only if a payload was recorded in this frame. -/
theorem fresh_of_reachable (h : machine.Reachable s) :
    (∀ l₁ l₂ f n, s.log = l₁ ++ .recorded f n :: l₂ → n = handedCount l₂) ∧
      (∀ l₁ l₂ l₃ f g n, s.log = l₁ ++ .recorded g n :: (l₂ ++ .recorded f n :: l₃) →
        ∀ m, .handedOver m ∉ l₂) ∧
      (hasDevice s.box.gDevsDataRecvMask s.device.gDs.devIdx.toNat = true ↔
        ∃ n, .recorded s.frame n ∈ s.log) := by
  have hinv : ∃ q p, Inv s q p := by
    apply h.invariant (I := fun s => ∃ q p, Inv s q p)
    · exact fun _ hs => ⟨[], [], inv_start hs⟩
    · rintro _ _ ⟨q, p, hs⟩ hen -
      exact inv_step hs hen
  obtain ⟨q, p, hinv⟩ := hinv
  exact ⟨fun l₁ l₂ f n hlog => hinv.faithful.recorded l₁ f n l₂ hlog,
    fun l₁ l₂ l₃ f g n hlog => hinv.faithful.twice hlog, hinv.bit⟩

/-- The flash record of the first display of `Recording.pairedBox`. -/
def pairedFlash : DeviceData := ⟨dsSignature, .load (.replicate _ 0) [5, 40, 70], .replicate _ 7, 1⟩

/-- The two after power-up. -/
def poweredUp : Polled where
  box := Recording.pairedBox
  device := (Device.boot pairedFlash false).enterNormalMode
  frame := 0
  unread := []
  log := []

theorem poweredUp_start : machine.start poweredUp := by
  have hmode : Recording.pairedBox.gMode = .normal := rfl
  have hstocked : (Device.boot pairedFlash false).Stocked := by
    obtain ⟨hidx, hdata⟩ := Device.stocked_reset pairedFlash
    exact ⟨hidx, hdata⟩
  refine ⟨Recording.entersNormal_main hmode, nofun, ?_, rfl, rfl, rfl⟩
  exact ⟨_, rfl, hstocked, ⟨by decide, by decide⟩, rfl, rfl, rfl⟩

theorem reachable_poweredUp : machine.Reachable poweredUp := .start poweredUp_start

/-- The box sends a beacon that the device answers, and records the answer. -/
def answeredRun : List PolledAction :=
  [.boxTick, .beaconOut true 0x11, .boxEvt, .deviceEvt, .dataOut true 0x1234, .ackOut true 0x22,
    .boxEvt, .deviceEvt]

/-- The beacon that starts the next frame is lost, and the one after it is answered. -/
def missedRun : List PolledAction :=
  [.boxTick, .boxTick, .boxTick, .beaconOut false 0, .boxEvt] ++ answeredRun

/-- The first payload is recorded. -/
theorem fresh_run_answered :
    hasDevice (machine.run poweredUp (.deviceTick :: answeredRun)).box.gDevsDataRecvMask 1 =
        true ↔
      ∃ n, .recorded 1 n ∈ (machine.run poweredUp (.deviceTick :: answeredRun)).log := by
  have hreach : machine.Reachable (machine.run poweredUp (.deviceTick :: answeredRun)) :=
    .of_follows reachable_poweredUp (by decide +kernel)
  exact (fresh_of_reachable hreach).2.2

/-- **The first payload is recorded in two frames**: the device has missed the beacon that started
    the second one, and is asked to send again. -/
theorem not_fresh_missed :
    machine.Reachable (machine.run poweredUp (.deviceTick :: (answeredRun ++ missedRun))) ∧
      (machine.run poweredUp (.deviceTick :: (answeredRun ++ missedRun))).log =
        [.recorded 2 1, .recorded 1 1, .handedOver 1] :=
  ⟨.of_follows reachable_poweredUp (by decide +kernel), by decide +kernel⟩

end Polled

end NordicEsb
