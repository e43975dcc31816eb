import NordicEsb.App.Alive
import NordicEsb.App.Polling

/-!
# A Device in Normal Mode

A device listens, answers a beacon that asks for data with one packet, hops when the packet is
done, and listens again. Its interval timer, which runs while it does not send, hops when no
beacon comes. Nothing is assumed about the packets that come in.

- `Cycle d q`: where in this cycle the device is, and the payloads `q` it holds unread.
- `Handled d d'`: what the handler makes of the payload that it has read: nothing, a hop, or an
  answer.
- `Cycle.radioIrq`, `Cycle.tick` and `Cycle.esbEvtIrq`: the three interrupts.
-/

namespace NordicEsb

namespace Device

/-! ## §1 Phases -/

/-- The two data payloads, and the index of the next one. -/
structure Stocked (d : Device) : Prop where
  idx : d.gCurPayloadIdx = 0 ∨ d.gCurPayloadIdx = 1
  data : ∀ i < 2, (d.txDataPayload.get i).pipe = 1 ∧ (d.txDataPayload.get i).length = 32

/-- The data packet `p` is on its way, and the interval timer is stopped. -/
structure SendsData (d : Device) (m : NrfEsbMainstate) (p : NrfEsbPayload) : Prop where
  sends : Transmits d.esb m p
  pipe : p.pipe = 1
  length : p.length = 32
  noack : p.noack = 0
  pid : p.pid.toNat < 4
  rx : d.esb.rxFifo.Represents []
  flags : d.esb.interruptFlags = .clear
  timer : d.intervalTimerRunning = false

/-- The data packet is done: no acknowledgment came, or one without or with a payload. -/
inductive Done (d : Device) : List NrfEsbPayload → Prop where
  | failed : d.esb.interruptFlags = { InterruptFlags.clear with txFailed := true } → Done d []
  | empty : d.esb.interruptFlags = { InterruptFlags.clear with txSuccess := true } → Done d []
  | answered (e : NrfEsbPayload) : d.esb.interruptFlags =
      { InterruptFlags.clear with txSuccess := true, rxDataReceived := true } → Done d [e]

/-- **The cycle of a device**, with the payloads it holds unread. -/
inductive Cycle (d : Device) : List NrfEsbPayload → Prop where
  /-- The next tick hops and starts to listen. -/
  | rests : Idle false d.esb → Blank d.esb → Cycle d []
  | listens {q : List NrfEsbPayload} : Box.Polls d.esb q → Cycle d q
  | sends {p : NrfEsbPayload} : SendsData d .ptxTxAck p → Cycle d []
  | waits {p : NrfEsbPayload} : SendsData d .ptxRxAck p → Cycle d []
  /-- The handler has not been told yet. -/
  | done {q : List NrfEsbPayload} : Idle true d.esb → d.esb.rxFifo.Represents q → Done d q →
      d.intervalTimerRunning = false → Cycle d q

/-- What the interrupts leave alone unless a beacon is answered. -/
structure SameData (d d' : Device) : Prop where
  mode : d'.gMode = d.gMode
  ds : d'.gDs = d.gDs
  payloads : d'.txDataPayload = d.txDataPayload
  idx : d'.gCurPayloadIdx = d.gCurPayloadIdx
  count : d'.newDataCount = d.newDataCount
  numbers : d'.payloadNumber = d.payloadNumber
  sent : d'.sentNumber = d.sentNumber

variable {d d' : Device} {q : List NrfEsbPayload}

theorem SameData.stocked (h : SameData d d') (hs : Stocked d) : Stocked d' :=
  ⟨h.idx ▸ hs.idx, h.payloads ▸ hs.data⟩

theorem SameData.trans {d'' : Device} (h : SameData d d') (h' : SameData d' d'') : SameData d d'' :=
  ⟨h'.mode.trans h.mode, h'.ds.trans h.ds, h'.payloads.trans h.payloads, h'.idx.trans h.idx,
    h'.count.trans h.count, h'.numbers.trans h.numbers, h'.sent.trans h.sent⟩

/-- The phases in which the device transmits data or waits for the acknowledgment. -/
theorem Cycle.sendsData (h : Cycle d q) {m : NrfEsbMainstate} (hm : m = .ptxTxAck ∨ m = .ptxRxAck)
    (hmain : d.esb.mainstate = m) : q = [] ∧ ∃ p, SendsData d m p := by
  cases h with
  | sends hsends =>
    rw [hsends.sends.mainstate] at hmain
    exact ⟨rfl, _, hmain ▸ hsends⟩
  | waits hwaits =>
    rw [hwaits.sends.mainstate] at hmain
    exact ⟨rfl, _, hmain ▸ hwaits⟩
  | rests hidle | done hidle =>
    rw [hidle.mainstate] at hmain
    rcases hm with rfl | rfl <;> cases hmain
  | listens hpolls =>
    rcases hpolls.mainstate with hprx | hack
    · rw [hprx] at hmain
      rcases hm with rfl | rfl <;> cases hmain
    · rw [hack] at hmain
      rcases hm with rfl | rfl <;> cases hmain

/-- The phase in which it receives. -/
theorem Cycle.polls (h : Cycle d q)
    (hmain : d.esb.mainstate = .prx ∨ d.esb.mainstate = .prxSendAck) : Box.Polls d.esb q := by
  cases h with
  | listens hpolls => exact hpolls
  | rests hidle | done hidle =>
    rw [hidle.mainstate] at hmain
    rcases hmain with hmain | hmain <;> cases hmain
  | sends hsends | waits hsends =>
    rw [hsends.sends.mainstate] at hmain
    rcases hmain with hmain | hmain <;> cases hmain

/-! ## §2 The radio -/

/-- **The data packet is out.** -/
theorem SendsData.sentBy {p : NrfEsbPayload} (h : SendsData d .ptxTxAck p) (ev : RadioEvent) :
    SendsData (d.radioIrq ev) .ptxRxAck p := by
  obtain ⟨hsent, hrx, hflags⟩ := h.sends.sentBy ev
  have hrx' : (d.radioIrq ev).esb.rxFifo = d.esb.rxFifo := hrx
  exact ⟨hsent, h.pipe, h.length, h.noack, h.pid, hrx' ▸ h.rx, hflags.trans h.flags, h.timer⟩

/-- The window of a request or of a data packet closes, and the handler has not been told yet. -/
theorem Asks.closedBy (h : Asks d .ptxRxAck) (ev : RadioEvent) :
    Idle true (d.radioIrq ev).esb ∧ ∃ q, (d.radioIrq ev).esb.rxFifo.Represents q ∧
      Done (d.radioIrq ev) q ∧ ((acks ev = true → ∀ pkt ∈ ev.packet, pkt.byte0 = 0) → q = []) := by
  obtain ⟨p, hp⟩ := h.sends
  cases hack : acks ev with
  | false =>
    obtain ⟨hidle, -, hrx, hflags⟩ := hp.missedBy hack
    have hrx' : (d.radioIrq ev).esb.rxFifo = d.esb.rxFifo := hrx
    refine ⟨hidle, [], hrx' ▸ h.rx, .failed ?_, fun _ => rfl⟩
    rw [← h.flags]
    exact hflags
  | true =>
    obtain ⟨hpkt, hcrc⟩ := (Bool.and_eq_true _ _).mp hack
    obtain ⟨pkt, hpkt⟩ := Option.isSome_iff_exists.mp hpkt
    obtain ⟨hidle, -, -, hpayload⟩ := hp.ackedBy h.rx hpkt hcrc
    rw [h.flags] at hpayload
    split at hpayload
    case isTrue =>
      have hrx' : (d.radioIrq ev).esb.rxFifo = d.esb.rxFifo := hpayload.1
      exact ⟨hidle, [], hrx' ▸ h.rx, .empty hpayload.2, fun _ => rfl⟩
    case isFalse hsome =>
      obtain ⟨⟨e, hrx, -, -⟩, hflags⟩ := hpayload
      refine ⟨hidle, [e], hrx, .answered e hflags, fun hempty => ?_⟩
      exact absurd (.inl (hempty rfl pkt hpkt)) hsome

/-- **The acknowledgment window closes.** -/
theorem SendsData.closedBy {p : NrfEsbPayload} (h : SendsData d .ptxRxAck p) (ev : RadioEvent) :
    ∃ q, Cycle (d.radioIrq ev) q ∧ (d.radioIrq ev).esb.mainstate = .idle ∧
      ((acks ev = true → ∀ pkt ∈ ev.packet, pkt.byte0 = 0) → q = []) := by
  have hasks : Asks d .ptxRxAck := ⟨⟨p, h.sends⟩, h.rx, h.flags⟩
  obtain ⟨hidle, q, hrx, hdone, hempty⟩ := hasks.closedBy ev
  exact ⟨q, .done hidle hrx hdone h.timer, hidle.mainstate, hempty⟩

/-- **The radio interrupt** takes the device from one phase to the next. -/
theorem Cycle.radioIrq (h : Cycle d q) (hbusy : d.esb.mainstate ≠ .idle) (ev : RadioEvent) :
    ∃ q', Cycle (d.radioIrq ev) q' := by
  cases h with
  | rests hidle _ => exact absurd hidle.mainstate hbusy
  | listens hpolls => exact ⟨_, .listens (hpolls.radioIrq ev)⟩
  | sends hsends => exact ⟨_, .waits (hsends.sentBy ev)⟩
  | waits hwaits =>
    obtain ⟨q', hq', -⟩ := hwaits.closedBy ev
    exact ⟨q', hq'⟩
  | done hidle _ _ _ => exact absurd hidle.mainstate hbusy

/-! ## §3 The interval timer -/

/-- What a hop of the timer leaves alone. -/
structure TickFrame (d d' : Device) : Prop where
  same : SameData d d'
  read : d'.rxPayload = d.rxPayload
  sync : d'.gSyncTimeout = countDown d.gSyncTimeout

/-- **The tick** of a device that does not send: it may hop, and listens. -/
theorem Cycle.tick (h : Cycle d q) (htimer : d.intervalTimerRunning = true) :
    Cycle d.intervalTimerEventHandler q ∧ TickFrame d d.intervalTimerEventHandler := by
  have hzero : ¬ (d.gScanTimeout ≠ 0 ∨ d.gSyncTimeout ≠ 0 ∨ d.gForceHopChannel) →
      d.gSyncTimeout = countDown d.gSyncTimeout := by
    intro hno
    rw [not_or, not_or, not_not, not_not] at hno
    rw [hno.2.1]
    rfl
  obtain ⟨d₁, hd₁⟩ : ∃ d₁ : Device, d₁ = { d with
      gForceHopChannel := false
      gSyncTimeout := countDown d.gSyncTimeout
      gScanTimeout := if countDown d.gSyncTimeout = 0 then beaconScanLongTimeoutMs
        else beaconScanShortTimeoutMs } := ⟨_, rfl⟩
  have hframe : TickFrame d ((hopChannel (d₁.callEsb nrfEsbStopRx)).callEsb nrfEsbStartRx) := by
    rw [hd₁]
    exact ⟨⟨rfl, rfl, rfl, rfl, rfl, rfl, rfl⟩, rfl, rfl⟩
  have hesb : d₁.esb = d.esb := by rw [hd₁]
  -- a module at rest takes the channel and starts to listen
  have hstart : ∀ q, Idle false (nrfEsbStopRx d₁.esb).2 →
      (nrfEsbStopRx d₁.esb).2.txFifo.Represents [] → (nrfEsbStopRx d₁.esb).2.rxFifo.Represents q →
      (nrfEsbStopRx d₁.esb).2.interruptFlags.txSuccess = false →
      (nrfEsbStopRx d₁.esb).2.interruptFlags.txFailed = false →
      Cycle ((hopChannel (d₁.callEsb nrfEsbStopRx)).callEsb nrfEsbStartRx) q := by
    intro q hidle htx hrx hsuccess hfailed
    obtain ⟨addr, haddr⟩ := nrfEsbSetRfChannel_idle hidle.mainstate
      (d₁.gaChlist.get (nextChIdx d₁.gCurChIdx).toNat)
    have hhop : (hopChannel (d₁.callEsb nrfEsbStopRx)).esb =
        { (nrfEsbStopRx d₁.esb).2 with esbAddr := addr } := by
      rw [← haddr]
      rfl
    obtain ⟨hpolls, -⟩ := Box.polls_startRx (s := (hopChannel (d₁.callEsb nrfEsbStopRx)).esb)
      (q := q) (by rw [hhop]; exact ⟨hidle.initialized, hidle.config, hidle.mainstate⟩)
      (by rw [hhop]; exact htx) (by rw [hhop]; exact hrx) (by rw [hhop]; exact hsuccess)
      (by rw [hhop]; exact hfailed)
    exact .listens hpolls
  have hhop : Cycle ((hopChannel (d₁.callEsb nrfEsbStopRx)).callEsb nrfEsbStartRx) q := by
    cases h with
    | rests hidle hblank =>
      -- the receiver is not running: there is nothing to stop
      have hstop : (nrfEsbStopRx d₁.esb).2 = d.esb := by
        unfold nrfEsbStopRx
        rw [hesb, if_neg (by simp [hidle.mainstate])]
      refine hstart [] ?_ ?_ ?_ ?_ ?_
      all_goals rw [hstop]
      · exact hidle
      · exact hblank.tx
      · exact hblank.rx
      · exact congrArg InterruptFlags.txSuccess hblank.flags
      · exact congrArg InterruptFlags.txFailed hblank.flags
    | listens hpolls =>
      by_cases hprx : d.esb.mainstate = .prx
      · have hstop : (nrfEsbStopRx d₁.esb).2 = { d.esb with
            onRadioDisabled := none
            mainstate := .idle
            radio := { d.esb.radio with
              disabledShort := .none, intensetDisabled := false, task := .disable } } := by
          unfold nrfEsbStopRx
          rw [hesb, if_pos hprx]
        refine hstart q ?_ ?_ ?_ ?_ ?_
        all_goals rw [hstop]
        · exact ⟨hpolls.initialized, hpolls.config, rfl⟩
        · exact hpolls.tx
        · exact hpolls.rx
        · exact hpolls.success
        · exact hpolls.failed
      · -- an acknowledgment is on air: the calls are refused, and the module goes on
        have hstop : (nrfEsbStopRx d₁.esb).2 = d.esb := by
          unfold nrfEsbStopRx
          rw [hesb, if_neg hprx]
        have hchannel : ∀ c, (nrfEsbSetRfChannel c d.esb).2 = d.esb := by
          intro c
          unfold nrfEsbSetRfChannel
          rw [if_pos hpolls.busy]
        have hrefused : (nrfEsbStartRx d.esb).2 = d.esb := by
          unfold nrfEsbStartRx
          rw [if_pos hpolls.busy]
        have hsame : ((hopChannel (d₁.callEsb nrfEsbStopRx)).callEsb nrfEsbStartRx).esb = d.esb := by
          show (nrfEsbStartRx (nrfEsbSetRfChannel _ (nrfEsbStopRx d₁.esb).2).2).2 = d.esb
          rw [hstop, hchannel, hrefused]
        exact .listens (hsame ▸ hpolls)
    | sends hsends => exact absurd (htimer.symm.trans hsends.timer) (by decide)
    | waits hwaits => exact absurd (htimer.symm.trans hwaits.timer) (by decide)
    | done _ _ _ hstopped => exact absurd (htimer.symm.trans hstopped) (by decide)
  unfold intervalTimerEventHandler
  split
  case isTrue =>
    dsimp only
    split
    case isTrue => exact hd₁ ▸ ⟨hhop, hframe⟩
    case isFalse =>
      refine ⟨?_, ⟨⟨rfl, rfl, rfl, rfl, rfl, rfl, rfl⟩, rfl, rfl⟩⟩
      cases h with
      | rests hidle hblank => exact .rests hidle hblank
      | listens hpolls => exact .listens hpolls
      | sends hsends => exact absurd (htimer.symm.trans hsends.timer) (by decide)
      | waits hwaits => exact absurd (htimer.symm.trans hwaits.timer) (by decide)
      | done _ _ _ hstopped => exact absurd (htimer.symm.trans hstopped) (by decide)
  case isFalse hno => exact ⟨h, ⟨⟨rfl, rfl, rfl, rfl, rfl, rfl, rfl⟩, rfl, hzero hno⟩⟩

/-! ## §4 What the handler makes of a payload -/

/-- **A beacon is answered**, with new data or with the payload before once more. -/
structure Answers (isRetransmit : Bool) (d d' : Device) : Prop where
  mode : d'.gMode = d.gMode
  ds : d'.gDs = d.gDs
  read : d'.rxPayload = d.rxPayload
  chIdx : d'.gCurChIdx = d.gCurChIdx
  sync : d'.gSyncTimeout = beaconScanLongTimeoutMs
  stocked : Stocked d'
  idx : d'.gCurPayloadIdx =
    if isRetransmit then d.gCurPayloadIdx else otherIdx d.gCurPayloadIdx
  count : d'.newDataCount = if isRetransmit then d.newDataCount else d.newDataCount + 1
  numbers : d'.payloadNumber = if isRetransmit then d.payloadNumber
    else d.payloadNumber.set d.gCurPayloadIdx.toNat (d.newDataCount + 1)
  sent : d'.sentNumber = if isRetransmit then d.payloadNumber.get (otherIdx d.gCurPayloadIdx).toNat
    else d.newDataCount + 1
  sends : ∃ p, SendsData d' .ptxTxAck p

/-- **The three things that may become of a payload** that was read. -/
inductive Handled (d : Device) : Device → Prop where
  /-- It is no beacon. -/
  | ignored : isBeaconPacket d.rxPayload = false → Handled d d
  /-- It is a beacon that asks for nothing: the next tick hops. -/
  | passed {d' : Device} : isBeaconPacket d.rxPayload = true →
      beaconRequest d.gDs.devIdx d.rxPayload = none → SameData d d' →
      d'.rxPayload = d.rxPayload → d'.gCurChIdx = d.gCurChIdx →
      d'.gSyncTimeout = beaconScanLongTimeoutMs → Idle false d'.esb → Blank d'.esb → Handled d d'
  /-- It is a beacon that asks for data. -/
  | answered {d' : Device} {isRetransmit : Bool} : isBeaconPacket d.rxPayload = true →
      beaconRequest d.gDs.devIdx d.rxPayload = some isRetransmit → Answers isRetransmit d d' →
      Handled d d'

theorem otherIdx_lt (idx : UInt8) : (otherIdx idx).toNat < 2 := by
  unfold otherIdx
  split <;> decide

theorem otherIdx_cases (idx : UInt8) : otherIdx idx = 0 ∨ otherIdx idx = 1 := by
  unfold otherIdx
  split
  · exact .inr rfl
  · exact .inl rfl

theorem Stocked.idx_lt (h : Stocked d) : d.gCurPayloadIdx.toNat < 2 := by
  rcases h.idx with hidx | hidx
  · rw [hidx]
    decide
  · rw [hidx]
    decide

/-- **`send_device_data`** on a module that was just initialised. -/
theorem sendDeviceData_spec (hidle : Idle true d.esb) (hblank : Blank d.esb) (hstocked : Stocked d)
    (htimer : d.intervalTimerRunning = false) (isRetransmit : Bool)
    (hsync : d.gSyncTimeout = beaconScanLongTimeoutMs) :
    Answers isRetransmit d (sendDeviceData isRetransmit d) := by
  -- The payload sent: the current one, or for a repetition the one before.
  obtain ⟨idx, hidx⟩ : ∃ idx, idx =
      if isRetransmit then otherIdx d.gCurPayloadIdx else d.gCurPayloadIdx := ⟨_, rfl⟩
  obtain ⟨p, hp⟩ : ∃ p : NrfEsbPayload, p = { d.txDataPayload.get idx.toNat with noack := 0 } :=
    ⟨_, rfl⟩
  have hlt : idx.toNat < 2 := by
    rw [hidx]
    split
    · exact otherIdx_lt _
    · exact hstocked.idx_lt
  obtain ⟨hpipe, hlength⟩ := hstocked.data idx.toNat hlt
  have hlen : 0 < p.length.toNat ∧ p.length.toNat ≤ nrfEsbMaxPayloadLength := by
    rw [hp]
    simp only [hlength]
    decide
  have hnoack : p.noack = 0 := by rw [hp]
  -- With `noack` cleared the module waits for an acknowledgment.
  have hstate : sendingState p = .ptxTxAck := by
    simp [sendingState, wantsAck, hnoack, appEsbConfig]
  obtain ⟨hsends, hrx, hflags⟩ := hidle.flushWrite hlen
  rw [hstate] at hsends
  have hdata : ∀ i < 2, ((d.txDataPayload.set idx.toNat p).get i).pipe = 1 ∧
      ((d.txDataPayload.set idx.toNat p).get i).length = 32 := by
    intro i hi
    rw [FixedArray.get_set _ _ _ _ hlt]
    split
    · rw [hp]
      exact ⟨hpipe, hlength⟩
    · exact hstocked.data i hi
  have hesb : (sendDeviceData isRetransmit d).esb = flushWrite p d.esb := by
    rw [hp, hidx]
    cases isRetransmit <;> rfl
  have hout : SendsData (sendDeviceData isRetransmit d) .ptxTxAck
      { p with pid := nextPid d.esb p.pipe } := by
    refine ⟨hesb ▸ hsends, ?_, ?_, hnoack, ?_, ?_, ?_, ?_⟩
    · rw [hp]
      exact hpipe
    · rw [hp]
      exact hlength
    · exact Nat.mod_lt _ (by decide)
    · rw [hesb, hrx]
      exact hblank.rx
    · rw [hesb]
      exact hflags.trans hblank.flags
    · cases isRetransmit <;> exact htimer
  have hstocked' : Stocked (sendDeviceData isRetransmit d) := by
    rw [hp, hidx] at hdata
    cases isRetransmit with
    | true => exact ⟨hstocked.idx, hdata⟩
    | false => exact ⟨otherIdx_cases _, hdata⟩
  cases isRetransmit with
  | true => exact ⟨rfl, rfl, rfl, rfl, hsync, hstocked', rfl, rfl, rfl, rfl, _, hout⟩
  | false => exact ⟨rfl, rfl, rfl, rfl, hsync, hstocked', rfl, rfl, rfl, rfl, _, hout⟩

/-- **What becomes of the payload that was read**, in normal mode. -/
theorem handled_onPayload (hmode : d.gMode = .normal) (hstocked : Stocked d) :
    Handled d d.onPayload := by
  have hnormal : d.onPayload = if isBeaconPacket d.rxPayload then d.onBeacon else d := by
    unfold onPayload
    rw [if_neg (by simp [hmode]), if_pos hmode]
  rw [hnormal]
  cases hbeacon : isBeaconPacket d.rxPayload with
  | false => exact .ignored hbeacon
  | true =>
    rw [if_pos rfl]
    obtain ⟨d₁, hd₁⟩ : ∃ d₁, d₁ =
        (intervalTimerStop { d with gSyncTimeout := beaconScanLongTimeoutMs }).callEsb nrfEsbStopRx :=
      ⟨_, rfl⟩
    cases hrequest : beaconRequest d.gDs.devIdx d.rxPayload with
    | none =>
      obtain ⟨hidle, hblank, -, -⟩ := nrfEsbInit_app false d₁.esb
      have hpass : d.onBeacon = intervalTimerStart { d₁.callEsb (esbInit false) with
          gScanTimeout := beaconScanShortTimeoutMs, gForceHopChannel := true } := by
        unfold onBeacon
        dsimp only
        rw [hrequest, hd₁]
      rw [hpass]
      refine .passed hbeacon hrequest ?_ ?_ ?_ ?_ hidle hblank
      · rw [hd₁]
        exact ⟨rfl, rfl, rfl, rfl, rfl, rfl, rfl⟩
      all_goals
        rw [hd₁]
        rfl
    | some isResend =>
      obtain ⟨hidle, hblank, -, -⟩ := nrfEsbInit_app true d₁.esb
      have hanswer : d.onBeacon = sendDeviceData isResend (d₁.callEsb (esbInit true)) := by
        unfold onBeacon
        dsimp only
        rw [hrequest, hd₁]
      have hstocked₁ : Stocked (d₁.callEsb (esbInit true)) := by
        rw [hd₁]
        exact ⟨hstocked.idx, hstocked.data⟩
      have hspec := sendDeviceData_spec (d := d₁.callEsb (esbInit true)) hidle hblank hstocked₁
        (by rw [hd₁]; rfl) isResend (by rw [hd₁]; rfl)
      rw [hanswer]
      refine .answered hbeacon hrequest ?_
      obtain ⟨hmode', hds, hread, hch, hsync, hst, hidx, hcount, hnum, hsent, hsends⟩ := hspec
      rw [hd₁] at *
      exact ⟨hmode', hds, hread, hch, hsync, hst, hidx, hcount, hnum, hsent, hsends⟩

/-! ## §5 The event handler -/

/-- **After a data packet** the device hops and listens. -/
structure ListensAgain (d d' : Device) : Prop where
  same : SameData d d'
  read : d'.rxPayload = d.rxPayload
  sync : d'.gSyncTimeout = d.gSyncTimeout
  polls : Box.Polls d'.esb []
  prx : d'.esb.mainstate = .prx
  flags : d'.esb.interruptFlags = .clear

theorem listensAgain_listenForBeacon (d : Device) : ListensAgain d d.listenForBeacon := by
  obtain ⟨hpolls, hprx⟩ := Box.polls_init
    (hopChannel { d with gScanTimeout := beaconScanShortTimeoutMs }).esb
  have hflags : d.listenForBeacon.esb.interruptFlags = .clear := by
    obtain ⟨s, hs⟩ : ∃ s, s =
        (nrfEsbInit (some (appEsbConfig false)) (hopChannel { d with
          gScanTimeout := beaconScanShortTimeoutMs }).esb).2 := ⟨_, rfl⟩
    have hstart : d.listenForBeacon.esb = (nrfEsbStartRx s).2 := by
      rw [hs]
      rfl
    have hkept : (nrfEsbStartRx s).2.interruptFlags = s.interruptFlags := by
      unfold nrfEsbStartRx
      split <;> rfl
    rw [hstart, hkept, hs]
    exact (nrfEsbInit_app false _).2.1.flags
  exact ⟨⟨rfl, rfl, rfl, rfl, rfl, rfl, rfl⟩, rfl, rfl, hpolls, hprx, hflags⟩

theorem onTxSuccess_normal (hmode : d.gMode = .normal) : d.onTxSuccess = d.listenForBeacon := by
  unfold onTxSuccess
  rw [hmode]

theorem listensAgain_onTxFailed (hmode : d.gMode = .normal) : ListensAgain d d.onTxFailed := by
  have hfailed : d.onTxFailed = (d.callEsb nrfEsbFlushTx).listenForBeacon := by
    unfold onTxFailed
    dsimp only
    rw [show (d.callEsb nrfEsbFlushTx).gMode = .normal from hmode]
  rw [hfailed]
  obtain ⟨hsame, hread, hsync, hpolls, hprx, hflags⟩ :=
    listensAgain_listenForBeacon (d.callEsb nrfEsbFlushTx)
  exact ⟨⟨hsame.mode, hsame.ds, hsame.payloads, hsame.idx, hsame.count, hsame.numbers, hsame.sent⟩,
    hread, hsync, hpolls, hprx, hflags⟩

/-- The device after the read of `RX_RECEIVED`: the oldest payload, or the one read before. -/
structure Reads (d d' : Device) (q : List NrfEsbPayload) : Prop where
  same : SameData d d'
  sync : d'.gSyncTimeout = d.gSyncTimeout
  chIdx : d'.gCurChIdx = d.gCurChIdx
  read : d'.rxPayload = (q.head?.map (copyRxPayload d.rxPayload)).getD d.rxPayload
  polls : Box.Polls d'.esb q.tail
  main : d'.esb.mainstate = d.esb.mainstate
  flags : d'.esb.interruptFlags = d.esb.interruptFlags

/-- **`RX_RECEIVED`**: whether a payload could be read is not checked. -/
theorem onRxReceived_polls (h : Box.Polls d.esb q) :
    ∃ d₁, Reads d d₁ q ∧ d.onRxReceived = d₁.onPayload := by
  cases q with
  | nil =>
    have hcount : d.esb.rxFifo.count = 0 := h.rx.nil_iff.mpr rfl
    have hread : nrfEsbReadRxPayload (some d.rxPayload) d.esb =
        (.errorNotFound, some d.rxPayload, d.esb) := by
      simp [nrfEsbReadRxPayload, h.initialized, hcount]
    refine ⟨d, ⟨⟨rfl, rfl, rfl, rfl, rfl, rfl, rfl⟩, rfl, rfl, rfl, h, rfl, rfl⟩, ?_⟩
    unfold onRxReceived
    rw [hread]
    rfl
  | cons e rest =>
    have hpos : 0 < d.esb.rxFifo.count := h.rx.pos_iff.mpr (by simp)
    have hcount : d.esb.rxFifo.count ≠ 0 := by omega
    have hread : nrfEsbReadRxPayload (some d.rxPayload) d.esb = (.success,
        some (copyRxPayload d.rxPayload e), { d.esb with rxFifo := d.esb.rxFifo.dropHead }) := by
      simp [nrfEsbReadRxPayload, h.initialized, hcount, h.rx.head_cons]
    refine ⟨{ d with
      esb := { d.esb with rxFifo := d.esb.rxFifo.dropHead }
      rxPayload := copyRxPayload d.rxPayload e },
      ⟨⟨rfl, rfl, rfl, rfl, rfl, rfl, rfl⟩, rfl, rfl, rfl, ?_, rfl, rfl⟩, ?_⟩
    · exact ⟨h.initialized, h.config,
        ⟨h.receives.mode, h.receives.protocol, h.receives.handler⟩, h.busy, h.tx,
        h.rx.dropHead hpos, h.success, h.failed⟩
    · unfold onRxReceived
      rw [hread]
      rfl

/-- **What the handler is told**, and what it does, in normal mode. -/
inductive Told (d : Device) (q : List NrfEsbPayload) : Device → Prop where
  | nothing : d.esb.interruptFlags = .clear → Told d q d.cleared
  | received : Box.Polls d.esb q →
      d.esb.interruptFlags = { InterruptFlags.clear with rxDataReceived := true } →
      Told d q d.cleared.onRxReceived
  | failed : Idle true d.esb → q = [] →
      d.esb.interruptFlags = { InterruptFlags.clear with txFailed := true } →
      Told d q d.cleared.onTxFailed
  | succeeded : Idle true d.esb → q = [] →
      d.esb.interruptFlags = { InterruptFlags.clear with txSuccess := true } →
      Told d q d.cleared.listenForBeacon
  | answered (e : NrfEsbPayload) : Idle true d.esb → q = [e] → d.esb.interruptFlags =
        { InterruptFlags.clear with txSuccess := true, rxDataReceived := true } →
      Told d q d.cleared.listenForBeacon.onRxReceived

/-- Without an event nothing happens. -/
theorem esbEvtIrq_of_clear {isPtx : Bool} (hinit : d.esb.esbInitialized = true)
    (hcfg : d.esb.configLocal = appEsbConfig isPtx) (hflags : d.esb.interruptFlags = .clear) :
    d.esbEvtIrq = d.cleared := by
  rw [esbEvtIrq_eq hinit hcfg, hflags]
  rfl

/-- **The event interrupt**, phase by phase. -/
theorem Cycle.told (h : Cycle d q) (hmode : d.gMode = .normal) : Told d q d.esbEvtIrq := by
  cases h with
  | rests hidle hblank =>
    rw [esbEvtIrq_of_clear hidle.initialized hidle.config hblank.flags]
    exact .nothing hblank.flags
  | sends hsends | waits hsends =>
    rw [esbEvtIrq_of_clear hsends.sends.initialized hsends.sends.config hsends.flags]
    exact .nothing hsends.flags
  | listens hpolls =>
    have hflags : d.esb.interruptFlags = { InterruptFlags.clear with
        rxDataReceived := d.esb.interruptFlags.rxDataReceived } := by
      have hsuccess := hpolls.success
      have hfailed := hpolls.failed
      cases hf : d.esb.interruptFlags with
      | mk txSuccess txFailed rxDataReceived =>
        rw [hf] at hsuccess hfailed
        obtain rfl : txSuccess = false := hsuccess
        obtain rfl : txFailed = false := hfailed
        rfl
    cases hflag : d.esb.interruptFlags.rxDataReceived with
    | false =>
      rw [hflag] at hflags
      rw [esbEvtIrq_of_clear hpolls.initialized hpolls.config hflags]
      exact .nothing hflags
    | true =>
      rw [hflag] at hflags
      have hone : d.esbEvtIrq = d.cleared.onRxReceived := by
        rw [esbEvtIrq_eq hpolls.initialized hpolls.config, hflags]
        rfl
      rw [hone]
      exact .received hpolls hflags
  | done hidle _ hdone _ =>
    have hevt := esbEvtIrq_eq hidle.initialized hidle.config
    have hsuccess : d.cleared.onTxSuccess = d.cleared.listenForBeacon :=
      onTxSuccess_normal (d := d.cleared) hmode
    cases hdone with
    | failed hflags =>
      rw [hflags] at hevt
      have hone : d.esbEvtIrq = d.cleared.onTxFailed := hevt
      rw [hone]
      exact .failed hidle rfl hflags
    | empty hflags =>
      rw [hflags] at hevt
      have hone : d.esbEvtIrq = d.cleared.onTxSuccess := hevt
      rw [hone, hsuccess]
      exact .succeeded hidle rfl hflags
    | answered e hflags =>
      rw [hflags] at hevt
      have htwo : d.esbEvtIrq = d.cleared.onTxSuccess.onRxReceived := hevt
      rw [htwo, hsuccess]
      exact .answered e hidle rfl hflags

/-- Collecting no events leaves the device where it is. -/
theorem Cycle.cleared (h : Cycle d q) (hflags : d.esb.interruptFlags = .clear) :
    Cycle d.cleared q := by
  cases h with
  | rests hidle hblank =>
    exact .rests ⟨hidle.initialized, hidle.config, hidle.mainstate⟩
      ⟨hblank.tx, hblank.rx, rfl, hblank.pipes⟩
  | listens hpolls => exact .listens hpolls.collect
  | sends hsends =>
    exact .sends ⟨hsends.sends.collect, hsends.pipe, hsends.length, hsends.noack, hsends.pid,
      hsends.rx, rfl, hsends.timer⟩
  | waits hwaits =>
    exact .waits ⟨hwaits.sends.collect, hwaits.pipe, hwaits.length, hwaits.noack, hwaits.pid,
      hwaits.rx, rfl, hwaits.timer⟩
  | done _ _ hdone _ =>
    cases hdone with
    | failed hraised | empty hraised | answered _ hraised =>
      rw [hflags] at hraised
      cases hraised

/-- **A run of the event handler**: no event, a payload read, or the end of a data packet, after
    which a payload may be handled too. -/
inductive Events (d : Device) (q : List NrfEsbPayload) : Device → Prop where
  | none {d' : Device} : SameData d d' → d'.rxPayload = d.rxPayload →
      d'.gSyncTimeout = d.gSyncTimeout → d'.gCurChIdx = d.gCurChIdx → Cycle d' q →
      d'.esb.mainstate = d.esb.mainstate → d'.esb.interruptFlags = .clear → Events d q d'
  | read {d₁ d' : Device} : d.esb.interruptFlags.rxDataReceived = true → Reads d.cleared d₁ q →
      Handled d₁ d' → Events d q d'
  | ended {d' : Device} : Done d [] → q = [] → ListensAgain d d' → Events d q d'
  | endedRead {d₁ d₂ d' : Device} {e : NrfEsbPayload} : Done d [e] → q = [e] →
      ListensAgain d d₁ → Reads d₁ d₂ [] → Handled d₂ d' → Events d q d'

/-- **The event interrupt**, by what the handler is told. -/
theorem Cycle.esbEvtIrq (h : Cycle d q) (hmode : d.gMode = .normal) (hstocked : Stocked d) :
    Events d q d.esbEvtIrq := by
  have hsame : SameData d d.cleared := ⟨rfl, rfl, rfl, rfl, rfl, rfl, rfl⟩
  have htold := h.told hmode
  obtain ⟨d', hd'⟩ : ∃ d', d' = d.esbEvtIrq := ⟨_, rfl⟩
  rw [← hd'] at htold ⊢
  cases htold with
  | nothing hflags => exact .none hsame rfl rfl rfl (h.cleared hflags) rfl rfl
  | received hpolls hflags =>
    obtain ⟨d₁, hreads, hrx⟩ := onRxReceived_polls (d := d.cleared) hpolls.collect
    rw [hrx]
    refine .read (by rw [hflags]) hreads ?_
    have hs := hreads.same
    exact handled_onPayload (hs.mode.trans hmode) (hs.stocked (hsame.stocked hstocked))
  | failed _ hq hflags =>
    obtain ⟨hs, hread, hsync, hpolls, hprx, hclear⟩ := listensAgain_onTxFailed (d := d.cleared) hmode
    exact .ended (.failed hflags) hq ⟨hsame.trans hs, hread, hsync, hpolls, hprx, hclear⟩
  | succeeded _ hq hflags =>
    obtain ⟨hs, hread, hsync, hpolls, hprx, hclear⟩ := listensAgain_listenForBeacon d.cleared
    exact .ended (.empty hflags) hq ⟨hsame.trans hs, hread, hsync, hpolls, hprx, hclear⟩
  | answered e _ hq hflags =>
    obtain ⟨hs, hread, hsync, hpolls, hprx, hclear⟩ := listensAgain_listenForBeacon d.cleared
    obtain ⟨d₂, hreads, hrx₂⟩ := onRxReceived_polls (d := d.cleared.listenForBeacon) hpolls
    rw [hrx₂]
    refine .endedRead (.answered e hflags) hq ⟨hsame.trans hs, hread, hsync, hpolls, hprx, hclear⟩
      hreads ?_
    have hall := (hsame.trans hs).trans hreads.same
    exact handled_onPayload (hall.mode.trans hmode) (hall.stocked hstocked)

/-- A handled payload leaves the device in its cycle. -/
theorem Handled.cycle (h : Handled d d') (hpolls : Box.Polls d.esb q) :
    ∃ q', Cycle d' q' := by
  cases h with
  | ignored => exact ⟨q, .listens hpolls⟩
  | passed _ _ _ _ _ _ hidle hblank => exact ⟨[], .rests hidle hblank⟩
  | answered _ _ hanswers =>
    obtain ⟨p, hp⟩ := hanswers.sends
    exact ⟨[], .sends hp⟩

theorem Handled.mode (h : Handled d d') : d'.gMode = d.gMode := by
  cases h with
  | ignored => rfl
  | passed _ _ hsame => exact hsame.mode
  | answered _ _ hanswers => exact hanswers.mode

theorem Handled.stocked (h : Handled d d') (hs : Stocked d) : Stocked d' := by
  cases h with
  | ignored => exact hs
  | passed _ _ hsame => exact hsame.stocked hs
  | answered _ _ hanswers => exact hanswers.stocked

/-- **The handler leaves the device in its cycle.** -/
theorem Events.cycle (h : Events d q d') : ∃ q', Cycle d' q' := by
  cases h with
  | none _ _ _ _ hcycle => exact ⟨q, hcycle⟩
  | read _ hreads hhandled => exact hhandled.cycle hreads.polls
  | ended _ _ hlistens => exact ⟨[], .listens hlistens.polls⟩
  | endedRead _ _ _ hreads hhandled => exact hhandled.cycle hreads.polls

theorem Events.stocked (h : Events d q d') (hs : Stocked d) : Stocked d' := by
  cases h with
  | none hsame => exact hsame.stocked hs
  | read _ hreads hhandled =>
    have hcleared : Stocked d.cleared := ⟨hs.idx, hs.data⟩
    exact hhandled.stocked (hreads.same.stocked hcleared)
  | ended _ _ hlistens => exact hlistens.same.stocked hs
  | endedRead _ _ hlistens hreads hhandled =>
    exact hhandled.stocked ((hlistens.same.trans hreads.same).stocked hs)

/-- **The handler leaves nothing to be told.** -/
theorem Events.flags (h : Events d q d') : d'.esb.interruptFlags = .clear := by
  have hhandled : ∀ {d₁ : Device}, Handled d₁ d' → d₁.esb.interruptFlags = .clear →
      d'.esb.interruptFlags = .clear := by
    intro d₁ hhandled hclear
    cases hhandled with
    | ignored => exact hclear
    | passed _ _ _ _ _ _ _ hblank => exact hblank.flags
    | answered _ _ hanswers =>
      obtain ⟨p, hp⟩ := hanswers.sends
      exact hp.flags
  cases h with
  | none _ _ _ _ _ _ hclear => exact hclear
  | read _ hreads hh => exact hhandled hh hreads.flags
  | ended _ _ hlistens => exact hlistens.flags
  | endedRead _ _ hlistens hreads hh => exact hhandled hh (hreads.flags.trans hlistens.flags)

/-! ## §6 Entering normal mode -/

theorem stocked_reset (flash : DeviceData) : Stocked (Device.reset flash) where
  idx := .inl rfl
  data := by
    intro i hi
    have htable : ∀ j : Fin 2, (initialTxDataPayload.get j).pipe = 1 ∧
        (initialTxDataPayload.get j).length = 32 := by decide
    exact htable ⟨i, hi⟩

/-- **`enter_normal_mode`** leaves a device at rest, whatever it did before. -/
theorem enterNormalMode_rests (d : Device) :
    Idle false d.enterNormalMode.esb ∧ Blank d.enterNormalMode.esb := by
  obtain ⟨hidle, hblank, -, -⟩ := nrfEsbInit_app false d.esb
  obtain ⟨s, hs⟩ : ∃ s, s = (nrfEsbInit (some (appEsbConfig false)) d.esb).2 := ⟨_, rfl⟩
  have hesb : ∃ addr radio, d.enterNormalMode.esb = { s with esbAddr := addr, radio := radio } := by
    have hbase : (nrfEsbSetBaseAddress1 (some d.gDs.sysAddress32) s).2 =
        updateRadioBase1 { s with esbAddr := { s.esbAddr with baseAddrP1 := d.gDs.sysAddress32 } } := by
      unfold nrfEsbSetBaseAddress1
      rw [if_neg (by simp [hs, hidle.mainstate])]
    have hpfx : d.enterNormalMode.esb = (nrfEsbUpdatePrefix 1 d.gDs.devIdx
        (nrfEsbSetBaseAddress1 (some d.gDs.sysAddress32) s).2).2 := by
      rw [hs]
      rfl
    rw [hpfx, hbase]
    unfold nrfEsbUpdatePrefix
    split
    · exact ⟨_, _, rfl⟩
    · split <;> exact ⟨_, _, rfl⟩
  obtain ⟨addr, radio, hesb⟩ := hesb
  rw [← hs] at hidle hblank
  constructor
  · rw [hesb]
    exact ⟨hidle.initialized, hidle.config, hidle.mainstate⟩
  · rw [hesb]
    exact ⟨hblank.tx, hblank.rx, hblank.flags, hblank.pipes⟩

end Device

end NordicEsb
