import NordicEsb.App.Freshness
import NordicEsb.App.HopLoop
import NordicEsb.Esb.Channel

/-!
# Channel Lockstep

A box and one of its devices in normal mode, on the channels of their common list. The box hops
before each beacon. The device hops once for each beacon that it accepts: at the end of the data
packet with which it answers, or in the next tick of its interval timer.

- `Tuning`: the part of a program that `hop_channel` works on, and `Moves`, what its handlers do
  with it.
- `Lockstep`: the two programs, with the channel index of every beacon that the device has not
  read, and the rounds of the device from the beacon it accepts to the channel it listens on next.
- `HopsRead`: the interval timer of the device does not hop while a beacon is unread.

**Main result** (`lockstep_of_reachable`): in a run with such ticks every round has one hop and
ends on the index of the next beacon.
-/

namespace NordicEsb

/-! ## §1 Hops -/

/-- What `hop_channel` works on: the module, the channel list, the index into it, and whether a
    channel was refused. -/
structure Tuning where
  esb : Esb
  chlist : ChannelList
  idx : UInt8
  reset : Bool

namespace Tuning

/-- A call of the module. -/
def call (t : Tuning) (c : EsbCall) : Tuning := { t with esb := t.esb.exec c }

/-- `hop_channel`, when the module is idle. -/
def hop (t : Tuning) : Tuning :=
  let idx := Device.nextChIdx t.idx
  let (err, esb) := nrfEsbSetRfChannel (t.chlist.get idx.toNat).toUInt32 t.esb
  { t with esb := esb, idx := idx, reset := t.reset || err != .success }

/-- The calls that neither store a channel nor are the radio interrupt. -/
def plain : EsbCall → Bool
  | .setRfChannel _ | .radioIrq _ => false
  | _ => true

end Tuning

/-- **A handler** with `k` hops: its calls of the module one by one. -/
inductive Moves : ℕ → Tuning → Tuning → Prop where
  | refl (t : Tuning) : Moves 0 t t
  | call {k : ℕ} {t t' : Tuning} (h : Moves k t t') (c : EsbCall) (hc : Tuning.plain c = true) :
      Moves k t (t'.call c)
  | hop {k : ℕ} {t t' : Tuning} (h : Moves k t t') : Moves (k + 1) t t'.hop

/-- **The module is on the channel of the index**, unless this channel was refused. -/
structure Tuned (t : Tuning) : Prop where
  onChannel : OnChannel t.esb
  stored : t.reset = false → t.idx.toNat < maximumChannelListSize →
    t.esb.esbAddr.rfChannel = t.chlist.get t.idx.toNat

variable {t t' t'' : Tuning} {k l : ℕ}

theorem Moves.trans (h : Moves k t t') (h' : Moves l t' t'') : Moves (k + l) t t'' := by
  induction h' with
  | refl => exact h
  | call _ c hc ih => exact (ih h).call c hc
  | hop _ ih => exact (ih h).hop

theorem Moves.chlist (h : Moves k t t') : t'.chlist = t.chlist := by
  induction h with
  | refl => rfl
  | call _ _ _ ih => exact ih
  | hop _ ih => exact ih

/-- **Every hop moves the index once.** -/
theorem Moves.idx (h : Moves k t t') : t'.idx = Device.nextChIdx^[k] t.idx := by
  induction h with
  | refl => rfl
  | call _ _ _ ih => exact ih
  | hop _ ih =>
    rw [Function.iterate_succ_apply', ← ih]
    rfl

theorem Tuned.call (h : Tuned t) {c : EsbCall} (hc : Tuning.plain c = true) : Tuned (t.call c) := by
  constructor
  · apply h.onChannel.exec
    rintro ev rfl
    cases hc
  · intro hreset hidx
    have hsets : setsRfChannel c = false := by
      cases c <;> first | rfl | cases hc
    show (t.esb.exec c).esbAddr.rfChannel = _
    rw [exec_rfChannel t.esb hsets]
    exact h.stored hreset hidx

/-- After a hop the module is on the new channel, or the program resets. -/
theorem tuned_hop (h : OnChannel t.esb) : Tuned t.hop := by
  constructor
  · exact h.setRfChannel _
  · intro hreset _
    obtain ⟨-, hok⟩ := (Bool.or_eq_false_iff).mp hreset
    exact nrfEsbSetRfChannel_rfChannel (bne_eq_false_iff_eq.mp hok)

/-- **Every handler keeps the module on its channel.** -/
theorem Moves.tuned (h : Moves k t t') (ht : Tuned t) : Tuned t' := by
  induction h with
  | refl => exact ht
  | call _ _ hc ih => exact (ih ht).call hc
  | hop _ ih => exact tuned_hop (ih ht).onChannel

/-- The radio interrupt of a busy module. -/
theorem Tuned.radioIrq (h : Tuned t) (hbusy : t.esb.mainstate ≠ .idle) (ev : RadioEvent) :
    Tuned { t with esb := radioIrqHandler ev t.esb } := by
  constructor
  · exact h.onChannel.radioIrqHandler hbusy ev
  · intro hreset hidx
    rw [show (radioIrqHandler ev t.esb).esbAddr = t.esb.esbAddr from radioIrqHandler_esbAddr ev t.esb]
    exact h.stored hreset hidx

theorem nextChIdx_lt (idx : UInt8) : (Device.nextChIdx idx).toNat < maximumChannelListSize := by
  unfold Device.nextChIdx
  split
  · decide
  · omega

/-- The next index, as a number. -/
theorem nextChIdx_toNat {idx : UInt8} (h : idx.toNat < maximumChannelListSize) :
    (Device.nextChIdx idx).toNat = (idx.toNat + 1) % maximumChannelListSize := by
  have htable : ∀ i : Fin maximumChannelListSize,
      (Device.nextChIdx (UInt8.ofNat i.val)).toNat = (i.val + 1) % maximumChannelListSize := by
    decide
  have hidx : UInt8.ofNat idx.toNat = idx := by simp
  have hrow := htable ⟨idx.toNat, h⟩
  rwa [hidx] at hrow

/-! ## §2 The handlers -/

namespace Device

/-- What `hop_channel` of the device works on. -/
def tuning (d : Device) : Tuning := ⟨d.esb, d.gaChlist, d.gCurChIdx, d.systemReset⟩

/-- How often an event calls `hop_channel` in normal mode. -/
def hopsOn (event : NrfEsbEvt) : ℕ :=
  match event.evtId with
  | .txSuccess | .txFailed => 1
  | .rxReceived => 0

/-- How often the event interrupt of this device calls `hop_channel` in normal mode. -/
def evtHops (d : Device) : ℕ :=
  ((d.esb.interruptFlags.events d.esb.lastTxAttempts).map hopsOn).sum

/-- How often its interval timer does. -/
def tickHops (d : Device) : ℕ := if HopDue d then 1 else 0

variable {d : Device}

theorem moves_listenForBeacon (d : Device) : Moves 1 d.tuning d.listenForBeacon.tuning :=
  ((Moves.refl d.tuning).hop.call (.init (some (appEsbConfig false))) rfl).call .startRx rfl

theorem moves_sendDeviceData (isRetransmit : Bool) (d : Device) :
    Moves 0 d.tuning (sendDeviceData isRetransmit d).tuning := by
  obtain ⟨idx, hidx⟩ : ∃ idx, idx =
      if isRetransmit then otherIdx d.gCurPayloadIdx else d.gCurPayloadIdx := ⟨_, rfl⟩
  obtain ⟨p, hp⟩ : ∃ p : NrfEsbPayload, p = { d.txDataPayload.get idx.toNat with noack := 0 } :=
    ⟨_, rfl⟩
  have hsend : (sendDeviceData isRetransmit d).tuning =
      (d.tuning.call .flushTx).call (.writePayload (some p)) := by
    rw [hp, hidx]
    cases isRetransmit <;> rfl
  rw [hsend]
  exact ((Moves.refl d.tuning).call .flushTx rfl).call (.writePayload (some p)) rfl

theorem moves_onBeacon (d : Device) : Moves 0 d.tuning d.onBeacon.tuning := by
  obtain ⟨d₁, hd₁⟩ : ∃ d₁, d₁ =
      (intervalTimerStop { d with gSyncTimeout := beaconScanLongTimeoutMs }).callEsb nrfEsbStopRx :=
    ⟨_, rfl⟩
  have hstop : Moves 0 d.tuning d₁.tuning := by
    rw [hd₁]
    exact (Moves.refl d.tuning).call .stopRx rfl
  have hinit : ∀ isPtx, Moves 0 d.tuning (d₁.callEsb (esbInit isPtx)).tuning := fun isPtx =>
    hstop.call (.init (some (appEsbConfig isPtx))) rfl
  unfold onBeacon
  dsimp only
  rw [← hd₁]
  split
  · exact (hinit true).trans (moves_sendDeviceData _ _)
  · exact hinit false

/-- Reading a payload, and handling it. -/
theorem moves_onRxReceived (hmode : d.gMode = .normal) : Moves 0 d.tuning d.onRxReceived.tuning := by
  obtain ⟨d₁, hd₁⟩ : ∃ d₁ : Device, d₁ = { d with
      esb := (nrfEsbReadRxPayload (some d.rxPayload) d.esb).2.2
      rxPayload := (nrfEsbReadRxPayload (some d.rxPayload) d.esb).2.1.getD d.rxPayload } :=
    ⟨_, rfl⟩
  have hread : Moves 0 d.tuning d₁.tuning := by
    rw [hd₁]
    exact (Moves.refl d.tuning).call (.readRxPayload (some d.rxPayload)) rfl
  have hmode₁ : d₁.gMode = .normal := hd₁ ▸ hmode
  have hrx : d.onRxReceived = d₁.onPayload := by
    rw [hd₁]
    rfl
  rw [hrx]
  unfold onPayload
  rw [if_neg (by simp [hmode₁]), if_pos hmode₁]
  split
  · exact hread.trans (moves_onBeacon d₁)
  · exact hread

/-- **An event in normal mode.** -/
theorem moves_nrfEsbEventHandler (hmode : d.gMode = .normal) (event : NrfEsbEvt) :
    Moves (hopsOn event) d.tuning (d.nrfEsbEventHandler event).tuning := by
  obtain ⟨evtId, attempts⟩ := event
  cases evtId with
  | txSuccess =>
    show Moves 1 d.tuning d.onTxSuccess.tuning
    rw [onTxSuccess_normal hmode]
    exact moves_listenForBeacon d
  | txFailed =>
    have hflush : Moves 0 d.tuning (d.callEsb nrfEsbFlushTx).tuning :=
      (Moves.refl d.tuning).call .flushTx rfl
    have hlisten : d.onTxFailed = (d.callEsb nrfEsbFlushTx).listenForBeacon := by
      unfold onTxFailed
      dsimp only
      rw [show (d.callEsb nrfEsbFlushTx).gMode = .normal from hmode]
    show Moves 1 d.tuning d.onTxFailed.tuning
    rw [hlisten]
    exact hflush.trans (moves_listenForBeacon _)
  | rxReceived => exact moves_onRxReceived hmode

/-- **The event interrupt** hops as often as transmissions have ended. -/
theorem moves_esbEvtIrq {isPtx : Bool} (hmode : d.gMode = .normal)
    (hinit : d.esb.esbInitialized = true) (hcfg : d.esb.configLocal = appEsbConfig isPtx) :
    Moves d.evtHops d.tuning d.esbEvtIrq.tuning := by
  have hrun : ∀ (events : List NrfEsbEvt) (d : Device), d.gMode = .normal →
      Moves (events.map hopsOn).sum d.tuning (events.foldl nrfEsbEventHandler d).tuning := by
    intro events
    induction events with
    | nil => exact fun d _ => .refl d.tuning
    | cons event events ih =>
      intro d hd
      have hfirst := moves_nrfEsbEventHandler hd event
      rw [List.map_cons, List.sum_cons]
      exact hfirst.trans (ih _ (nrfEsbEventHandler_normal hd event))
  have hcollect : Moves 0 d.tuning d.cleared.tuning := by
    have hevt : d.cleared.tuning = d.tuning.call .evtIrq := by
      show (⟨_, d.gaChlist, d.gCurChIdx, d.systemReset⟩ : Tuning) =
        ⟨(esbEvtIrqHandler d.esb).2, d.gaChlist, d.gCurChIdx, d.systemReset⟩
      rw [esbEvtIrqHandler_app hinit hcfg]
      rfl
    rw [hevt]
    exact (Moves.refl d.tuning).call .evtIrq rfl
  have hall := hcollect.trans (hrun (d.esb.interruptFlags.events d.esb.lastTxAttempts) d.cleared hmode)
  rw [esbEvtIrq_eq hinit hcfg]
  rwa [Nat.zero_add] at hall

/-- **The tick** hops once if a hop is due. -/
theorem moves_tick (d : Device) :
    Moves d.tickHops d.tuning d.intervalTimerEventHandler.tuning := by
  unfold tickHops intervalTimerEventHandler
  by_cases hcounts : d.gScanTimeout ≠ 0 ∨ d.gSyncTimeout ≠ 0 ∨ d.gForceHopChannel = true
  · rw [if_pos hcounts]
    dsimp only
    by_cases hnow : countDown d.gScanTimeout = 0 ∨ d.gForceHopChannel = true
    · rw [if_pos (show HopDue d from ⟨hcounts, hnow⟩), if_pos hnow]
      exact ((Moves.refl d.tuning).call .stopRx rfl).hop.call .startRx rfl
    · rw [if_neg (fun h : HopDue d => hnow h.2), if_neg hnow]
      exact .refl d.tuning
  · rw [if_neg (fun h : HopDue d => hcounts h.1), if_neg hcounts]
    exact .refl d.tuning

end Device

namespace Box

/-- What `hop_channel` of the box works on. -/
def tuning (b : Box) : Tuning := ⟨b.esb, b.gaChlist, b.gCurChIdx, b.systemReset⟩

/-- **The tick of the box**: it hops, and sends a beacon on the new channel. -/
theorem tuned_tick {b : Box} (hmode : b.gMode = .normal) :
    Tuned b.intervalTimerEventHandler.tuning ∧
      b.intervalTimerEventHandler.gaChlist = b.gaChlist ∧
      b.intervalTimerEventHandler.gCurChIdx = Device.nextChIdx b.gCurChIdx := by
  obtain ⟨b₁, hb₁⟩ : ∃ b₁ : Box, b₁ = { b with esb := stopRxWaitIdle b.esb } := ⟨_, rfl⟩
  have hidle : b₁.esb.mainstate = .idle := hb₁ ▸ stopRxWaitIdle_mainstate b.esb
  have hhop : (hopChannel b).tuning = b₁.tuning.hop := by
    rw [hb₁]
    rfl
  obtain ⟨b₂, hb₂⟩ : ∃ b₂, b₂ = (hopChannel b).callEsb (esbInit true) := ⟨_, rfl⟩
  have htick : b.intervalTimerEventHandler = sendBeacon b₂ := by
    unfold intervalTimerEventHandler
    dsimp only
    rw [show (hopChannel b).gMode = .normal from hmode, hb₂]
  obtain ⟨p, hp⟩ : ∃ p, p = { (fillBeacon b₂).gBeacon with noack := 1 } := ⟨_, rfl⟩
  have hsend : (sendBeacon b₂).tuning = b₂.tuning.call (.writePayload (some p)) := by
    rw [hp]
    unfold sendBeacon fillBeacon
    split <;> rfl
  have hinit : b₂.tuning = (((hopChannel b).tuning.call .disable).call
      (.init (some (appEsbConfig true)))) := by
    rw [hb₂]
    rfl
  rw [htick]
  have hmoves : Moves 0 (hopChannel b).tuning (sendBeacon b₂).tuning := by
    rw [hsend, hinit]
    exact (((Moves.refl _).call .disable rfl).call _ rfl).call _ rfl
  have hchlist : (sendBeacon b₂).gaChlist = (hopChannel b).gaChlist := hmoves.chlist
  have hidx : (sendBeacon b₂).gCurChIdx = (hopChannel b).gCurChIdx := hmoves.idx
  exact ⟨hmoves.tuned (hhop ▸ tuned_hop (onChannel_of_idle hidle)), hchlist, hidx⟩

end Box

/-! ## §3 Rounds -/

/-- A round of the device: the channel index of the box when it sent the beacon that the device
    has accepted, the hops of the device until it listens again, and the index it listens on. -/
structure Round where
  beacon : UInt8
  hops : ℕ
  listensOn : UInt8
deriving DecidableEq, Repr

/-- **One hop, and then the index of the next beacon.** -/
structure InStep (r : Round) : Prop where
  hops : r.hops = 1
  beacon : r.beacon.toNat < maximumChannelListSize
  listensOn : r.listensOn.toNat = (r.beacon.toNat + 1) % maximumChannelListSize

instance (r : Round) : Decidable (InStep r) :=
  decidable_of_iff (r.hops = 1 ∧ r.beacon.toNat < maximumChannelListSize ∧
      r.listensOn.toNat = (r.beacon.toNat + 1) % maximumChannelListSize)
    ⟨fun h => ⟨h.1, h.2.1, h.2.2⟩, fun h => ⟨h.hops, h.beacon, h.listensOn⟩⟩

/-- A box and a device, and what became of the beacons. -/
structure Lockstep where
  polled : Polled
  /-- History variable: for each payload in the RX FIFO of the device, the channel index of the
      box when it sent it, the oldest first. -/
  heardOn : List UInt8
  /-- History variable: the same for the payload that the device has read last. -/
  lastRead : UInt8
  /-- History variable: the same for the beacon that the device has accepted since it began to
      listen. -/
  accepted : Option UInt8
  /-- History variable: the rounds that are over, the latest first. -/
  rounds : List Round

namespace Lockstep

/-- A beacon is heard on the frequency on which it is sent. -/
def OnFrequency (s : Lockstep) : PolledAction → Prop
  | .beaconOut heard _ =>
    heard = true → s.polled.device.esb.radio.frequency = s.polled.box.esb.radio.frequency
  | _ => True

instance (s : Lockstep) : DecidablePred s.OnFrequency
  | .beaconOut heard _ =>
    (inferInstance : Decidable (heard = true →
      s.polled.device.esb.radio.frequency = s.polled.box.esb.radio.frequency))
  | .boxTick | .boxEvt | .deviceTick | .deviceEvt | .dataOut _ _ | .ackOut _ _ | .boxNoise _
  | .deviceNoise _ =>
    (inferInstance : Decidable True)

/-- A program that has reset does not go on. -/
def Enabled (s : Lockstep) (a : PolledAction) : Prop :=
  s.polled.Enabled a ∧ s.OnFrequency a ∧ s.polled.box.systemReset = false ∧
    s.polled.device.systemReset = false

/-- The rounds after a handler of the device with so many hops; each of them ends with
    `nrf_esb_start_rx`. -/
def hopped (hops : ℕ) (s : Lockstep) : Lockstep :=
  if hops = 0 then s
  else
    { s with
      accepted := none
      rounds := s.accepted.toList.map (⟨·, hops, s.polled.device.gCurChIdx⟩) ++ s.rounds }

/-- The device has accepted a beacon. A round that is still open ends without a hop. -/
def accept (beacon : UInt8) (s : Lockstep) : Lockstep :=
  { s with
    accepted := some beacon
    rounds := s.accepted.toList.map (⟨·, 0, s.polled.device.gCurChIdx⟩) ++ s.rounds }

/-- The event handler of the device reads a payload that is a beacon. -/
def accepts (d : Device) : Bool :=
  d.esb.interruptFlags.rxDataReceived && Device.isBeaconPacket d.esbEvtIrq.rxPayload

/-- The entries of the payloads that are unread after the event handler has run, `count` of
    them. -/
def leftOver (s : Lockstep) (read : Bool) (count : ℕ) : List UInt8 :=
  if count = 0 then [] else if read then s.heardOn.tail else s.heardOn

/-- One step. -/
def step (s : Lockstep) (a : PolledAction) : Lockstep :=
  let d := s.polled.device
  let s' := { s with polled := s.polled.step a }
  match a with
  | .deviceTick => hopped d.tickHops s'
  | .deviceEvt =>
    let read := d.esb.interruptFlags.rxDataReceived
    let beacon := if read then s.heardOn.headD s.lastRead else s.lastRead
    let s' := hopped d.evtHops { s' with
      lastRead := beacon
      heardOn := s.leftOver read s'.polled.device.esb.rxFifo.count }
    if accepts d then accept beacon s' else s'
  | .beaconOut heard crc =>
    { s' with heardOn :=
        if heard then s.heardOn ++ (Box.addedBy (.received (airPacket s.polled.box.esb) crc)
          d.esb).map fun _ => s.polled.box.gCurChIdx
        else s.heardOn }
  | _ => s'

/-- The entries of a channel list are pairwise distinct. -/
def Distinct (chlist : ChannelList) : Prop :=
  ∀ i < maximumChannelListSize, ∀ j < maximumChannelListSize,
    chlist.get i = chlist.get j → i = j

instance (chlist : ChannelList) : Decidable (Distinct chlist) :=
  inferInstanceAs (Decidable (∀ i < _, ∀ j < _, _))

/-- The runs of a box and a device that have entered normal mode with the same list of distinct
    channels. -/
def machine : Machine Lockstep PolledAction where
  start s := Polled.machine.start s.polled ∧ Distinct s.polled.device.gaChlist ∧
    s.polled.box.gaChlist = s.polled.device.gaChlist ∧ s.polled.box.esb.mainstate ≠ .ptxTx ∧
    s.heardOn = [] ∧ s.accepted = none ∧ s.rounds = []
  enabled := Enabled
  step := step

instance (s : Lockstep) (a : PolledAction) : Decidable (machine.enabled s a) := by
  have : Decidable (s.polled.Enabled a) := inferInstanceAs (Decidable (Polled.machine.enabled _ a))
  exact inferInstanceAs (Decidable (_ ∧ _ ∧ _ ∧ _))

/-- **The interval timer of the device does not hop while a beacon is unread.** -/
def HopsRead (s : Lockstep) : PolledAction → Prop
  | .deviceTick => Device.HopDue s.polled.device → s.polled.device.esb.rxFifo.count = 0
  | _ => True

instance (s : Lockstep) : DecidablePred s.HopsRead
  | .deviceTick =>
    (inferInstance : Decidable (Device.HopDue s.polled.device →
      s.polled.device.esb.rxFifo.count = 0))
  | .boxTick | .boxEvt | .beaconOut _ _ | .deviceEvt | .dataOut _ _ | .ackOut _ _ | .boxNoise _
  | .deviceNoise _ =>
    (inferInstance : Decidable True)

/-! ## §4 The invariant -/

/-- **The device**: it listens on the channel of its index, acknowledges nothing, and has unread
    payloads only while it listens. -/
structure Listener (d : Device) : Prop where
  tuned : Tuned d.tuning
  idx : d.esb.mainstate = .prx → d.gCurChIdx.toNat < maximumChannelListSize
  noAck : d.esb.mainstate ≠ .prxSendAck
  unread : d.esb.rxFifo.count ≠ 0 → d.esb.mainstate = .prx

/-- The box sends its beacon on the channel of its index. -/
def OnAir (b : Box) : Prop :=
  b.esb.mainstate = .ptxTx → b.gCurChIdx.toNat < maximumChannelListSize ∧
    (b.systemReset = false → b.esb.radio.frequency = b.gaChlist.get b.gCurChIdx.toNat)

/-- **The invariant**: unread beacons are from the channel on which the device listens, and an
    open round is on the channel of its beacon. -/
structure Sync (s : Lockstep) : Prop where
  base : ∃ q p, s.polled.Inv q p
  device : Listener s.polled.device
  distinct : Distinct s.polled.device.gaChlist
  shared : s.polled.box.gaChlist = s.polled.device.gaChlist
  air : OnAir s.polled.box
  heard : s.heardOn.length = s.polled.device.esb.rxFifo.count
  here : ∀ j ∈ s.heardOn, j = s.polled.device.gCurChIdx
  accepted : ∀ j, s.accepted = some j → j.toNat < maximumChannelListSize ∧
    s.polled.device.gCurChIdx = j ∧ s.polled.device.esb.mainstate ≠ .prx
  rounds : ∀ r ∈ s.rounds, InStep r

variable {s : Lockstep} {t : Polled} {d : Device} {b : Box} {q : List NrfEsbPayload}

theorem cycle_rx (h : d.Cycle q) : d.esb.rxFifo.Represents q := by
  cases h with
  | rests _ hblank => exact hblank.rx
  | listens hpolls => exact hpolls.rx
  | sends hsends | waits hsends => exact hsends.rx
  | done _ hrx _ _ => exact hrx

theorem cycle_module (h : d.Cycle q) :
    d.esb.esbInitialized = true ∧ ∃ isPtx, d.esb.configLocal = appEsbConfig isPtx := by
  cases h with
  | rests hidle _ => exact ⟨hidle.initialized, _, hidle.config⟩
  | listens hpolls => exact ⟨hpolls.initialized, _, hpolls.config⟩
  | sends hsends | waits hsends => exact ⟨hsends.sends.initialized, _, hsends.sends.config⟩
  | done hidle _ _ _ => exact ⟨hidle.initialized, _, hidle.config⟩

/-! ## §5 The box -/

/-- A step of the box. -/
theorem Sync.box (h : Sync s) (hdevice : t.device = s.polled.device) (hbase : ∃ q p, t.Inv q p)
    (hshared : t.box.gaChlist = s.polled.box.gaChlist) (hair : OnAir t.box) :
    Sync { s with polled := t } := by
  refine ⟨hbase, ?_, ?_, ?_, hair, ?_, ?_, ?_, h.rounds⟩
  all_goals
    show _
    simp only [hdevice]
  · exact h.device
  · exact h.distinct
  · exact hshared.trans h.shared
  · exact h.heard
  · exact h.here
  · exact h.accepted

theorem onAir_of_polls (h : Box.Polls b.esb q) : OnAir b := by
  intro hmain
  rcases h.mainstate with hprx | hack
  · exact absurd (hprx.symm.trans hmain) nofun
  · exact absurd (hack.symm.trans hmain) nofun

/-- **The tick of the box.** -/
theorem onAir_tick (hmode : b.gMode = .normal) : OnAir b.intervalTimerEventHandler := by
  obtain ⟨htuned, -, hidx⟩ := Box.tuned_tick hmode
  intro hmain
  have hlt : b.intervalTimerEventHandler.gCurChIdx.toNat < maximumChannelListSize := by
    rw [hidx]
    exact nextChIdx_lt _
  refine ⟨hlt, fun hreset => ?_⟩
  have hbusy : b.intervalTimerEventHandler.esb.mainstate ≠ .idle := by
    rw [hmain]
    nofun
  exact (htuned.onChannel hbusy).trans (htuned.stored hreset hlt)

/-- **The event handler of the box** leaves a beacon on the air alone. -/
theorem onAir_evtIrq {idx : UInt8} (h : Polled.BoxSide b idx q) (hair : OnAir b) :
    OnAir b.esbEvtIrq ∧ b.esbEvtIrq.gaChlist = b.gaChlist := by
  obtain ⟨⟨s, x, mask, hb⟩, hack, -⟩ := h.phase.esbEvtIrq h.mode
  have hchlist : b.esbEvtIrq.gaChlist = b.gaChlist := by rw [hb]
  have hidx : b.esbEvtIrq.gCurChIdx = b.gCurChIdx := by rw [hb]
  have hreset : b.esbEvtIrq.systemReset = b.systemReset := by rw [hb]
  refine ⟨fun hmain => ?_, hchlist⟩
  rcases hack with hprx | ⟨hsame, -⟩
  · exact absurd (hprx.symm.trans hmain) nofun
  · have hsends := hsame.symm.trans hmain
    obtain ⟨-, hbeacon⟩ := h.onAir hsends
    obtain ⟨p, htransmits, -⟩ := hbeacon.transmits
    have hradio : b.esbEvtIrq.esb.radio = b.esb.radio := by
      rw [Box.esbEvtIrq_eq htransmits.initialized htransmits.config, hbeacon.flags]
      rfl
    rw [hchlist, hidx, hreset, hradio]
    exact hair hsends

/-! ## §6 The radio of the device -/

/-- A step of the radio of the device: it goes on listening, or it does not listen and has nothing
    unread. -/
theorem Sync.radio (h : Sync s) {ev : RadioEvent} {heardOn : List UInt8}
    (hbusy : s.polled.device.esb.mainstate ≠ .idle)
    (hdevice : t.device = s.polled.device.radioIrq ev) (hbase : ∃ q p, t.Inv q p)
    (hshared : t.box.gaChlist = s.polled.box.gaChlist) (hair : OnAir t.box)
    (hmain : t.device.esb.mainstate = .prx ∧ s.polled.device.esb.mainstate = .prx ∨
      t.device.esb.mainstate ≠ .prx ∧ t.device.esb.mainstate ≠ .prxSendAck ∧
        t.device.esb.rxFifo.count = 0)
    (hheard : heardOn.length = t.device.esb.rxFifo.count)
    (hhere : ∀ j ∈ heardOn, j = s.polled.device.gCurChIdx) :
    Sync { s with polled := t, heardOn := heardOn } := by
  have hidx : t.device.gCurChIdx = s.polled.device.gCurChIdx := by rw [hdevice]; rfl
  have hchlist : t.device.gaChlist = s.polled.device.gaChlist := by rw [hdevice]; rfl
  have htuned : Tuned t.device.tuning := by
    rw [hdevice]
    exact h.device.tuned.radioIrq hbusy ev
  refine ⟨hbase, ⟨htuned, ?_, ?_, ?_⟩, ?_, ?_, hair, hheard, ?_, ?_, h.rounds⟩
  · intro hprx
    show t.device.gCurChIdx.toNat < _
    rw [hidx]
    rcases hmain with ⟨-, hwas⟩ | ⟨hno, -⟩
    · exact h.device.idx hwas
    · exact absurd hprx hno
  · show t.device.esb.mainstate ≠ _
    rcases hmain with ⟨hprx, -⟩ | ⟨-, hno, -⟩
    · rw [hprx]
      nofun
    · exact hno
  · intro hcount
    rcases hmain with ⟨hprx, -⟩ | ⟨-, -, hnone⟩
    · exact hprx
    · exact absurd hnone hcount
  · show Distinct t.device.gaChlist
    rw [hchlist]
    exact h.distinct
  · show t.box.gaChlist = t.device.gaChlist
    rw [hchlist]
    exact hshared.trans h.shared
  · intro j hj
    show j = t.device.gCurChIdx
    rw [hidx]
    exact hhere j hj
  · intro j hj
    obtain ⟨hlt, heq, hno⟩ := h.accepted j hj
    refine ⟨hlt, hidx.trans heq, ?_⟩
    rcases hmain with ⟨-, hwas⟩ | ⟨hnot, -⟩
    · exact absurd hwas hno
    · exact hnot

/-- A device that receives a packet for which no acknowledgment is asked goes on listening. -/
theorem prx_of_unacknowledged {s : Esb} (h : Box.Polls s q) (hprx : s.mainstate = .prx)
    {ev : RadioEvent} (hno : (acceptsRx (ev.latch s) && ackRequested (ev.latch s)) = false) :
    (radioIrqHandler ev s).mainstate = .prx := by
  rw [radioIrqHandler_of_prx ev h.receives hprx, onRadioDisabledRx_mainstate, hno, latch_mainstate]
  exact hprx

theorem prx_of_noise {s : Esb} (h : Box.Polls s q) (hprx : s.mainstate = .prx) {ev : RadioEvent}
    (hcrc : ev.crcOk = false) : (radioIrqHandler ev s).mainstate = .prx := by
  apply prx_of_unacknowledged h hprx
  have hstatus : (ev.latch s).radio.crcstatus = false := by
    unfold RadioEvent.latch
    split
    · rfl
    · exact hcrc
  simp [acceptsRx, hstatus]

/-- **Beacons are not acknowledged.** -/
theorem prx_of_beacon {s : Esb} (h : Box.Polls s q) (hprx : s.mainstate = .prx)
    (hair : Box.BeaconOnAir b.esb) (crc : UInt16) :
    (radioIrqHandler (.received (airPacket b.esb) crc) s).mainstate = .prx := by
  apply prx_of_unacknowledged h hprx
  obtain ⟨p, htransmits, hnoack, hpid⟩ := hair.transmits
  have hwants : wantsAck (appEsbConfig true) p = false := by
    simp [wantsAck, appEsbConfig, hnoack]
  have hbit : (airPacket b.esb).byte1 &&& 0x01 = 1 := by
    rw [htransmits.air]
    show (p.pid <<< 1 ||| (if wantsAck (appEsbConfig true) p then 0x00 else 0x01)) &&& 0x01 = 1
    rw [hwants, if_neg (by decide)]
    exact (pid_shift hpid (.inr rfl)).2
  have hcfg : ((RadioEvent.received (airPacket b.esb) crc).latch s).configLocal.selectiveAutoAck =
      true := by
    rw [latch_configLocal, h.config]
    rfl
  have hno : ackRequested ((RadioEvent.received (airPacket b.esb) crc).latch s) = false := by
    have hbyte : ((RadioEvent.received (airPacket b.esb) crc).latch s).rxPayloadBuffer.byte1 =
        (airPacket b.esb).byte1 := rfl
    unfold ackRequested
    rw [hcfg, hbyte, hbit]
    decide
  rw [hno, Bool.and_false]

/-- The end of a transmission, or of the window after it: nothing is unread, before and after. -/
theorem Sync.unheard (h : Sync s) (hno : s.polled.device.esb.mainstate ≠ .prx)
    (hcount : t.device.esb.rxFifo.count = 0) :
    s.heardOn.length = t.device.esb.rxFifo.count ∧
      ∀ j ∈ s.heardOn, j = s.polled.device.gCurChIdx := by
  have hnone : s.polled.device.esb.rxFifo.count = 0 := by
    by_contra hne
    exact hno (h.device.unread hne)
  exact ⟨by rw [h.heard, hnone, hcount], h.here⟩

theorem Sync.dataOut (h : Sync s) {heard : Bool} {crc : UInt16}
    (hen : s.polled.Enabled (.dataOut heard crc)) : Sync (s.step (.dataOut heard crc)) := by
  obtain ⟨q, p, hinv⟩ := h.base
  obtain ⟨t, ht⟩ : ∃ t, t = s.polled.step (.dataOut heard crc) := ⟨_, rfl⟩
  have hdevice : t.device = s.polled.device.radioIrq .silent := ht ▸ rfl
  obtain ⟨-, hside⟩ := hinv.device.dataOut hen.1
  obtain ⟨-, x, hsends⟩ := hinv.device.cycle.sendsData (.inl rfl) hen.1
  have hmain : t.device.esb.mainstate = .ptxRxAck := hdevice ▸ (hsends.sentBy .silent).sends.mainstate
  have hcount : t.device.esb.rxFifo.count = 0 := hdevice ▸ (cycle_rx hside.cycle).count_eq
  have hbusy := hen.1
  obtain ⟨hheard, hhere⟩ := h.unheard (t := t) (by rw [hbusy]; nofun) hcount
  have hbox : t.box.gaChlist = s.polled.box.gaChlist ∧ OnAir t.box := by
    rw [ht]
    cases heard with
    | false => exact ⟨rfl, h.air⟩
    | true => exact ⟨rfl, onAir_of_polls ((hinv.box.polls (.inl (hen.2 rfl))).radioIrq _)⟩
  have hbase : ∃ q p, t.Inv q p := ht ▸ Polled.inv_step hinv hen
  have hnext := h.radio (by rw [hbusy]; nofun) hdevice hbase hbox.1 hbox.2
    (.inr ⟨by rw [hmain]; nofun, by rw [hmain]; nofun, hcount⟩) hheard hhere
  rw [ht] at hnext
  exact hnext

/-- **The window of the device closes.** -/
theorem Sync.windowCloses (h : Sync s) {ev : RadioEvent} (hbase : ∃ q p, t.Inv q p)
    (hwaits : s.polled.device.esb.mainstate = .ptxRxAck)
    (hempty : acks ev = true → ∀ pkt ∈ ev.packet, pkt.byte0 = 0)
    (hdevice : t.device = s.polled.device.radioIrq ev)
    (hshared : t.box.gaChlist = s.polled.box.gaChlist) (hair : OnAir t.box) :
    Sync { s with polled := t } := by
  obtain ⟨q, p, hinv⟩ := h.base
  obtain ⟨-, hside⟩ := hinv.device.windowCloses hwaits hempty
  obtain ⟨-, x, hsends⟩ := hinv.device.cycle.sendsData (.inr rfl) hwaits
  obtain ⟨-, -, hidle, -⟩ := hsends.closedBy ev
  have hmain : t.device.esb.mainstate = .idle := hdevice ▸ hidle
  have hcount : t.device.esb.rxFifo.count = 0 := hdevice ▸ (cycle_rx hside.cycle).count_eq
  obtain ⟨hheard, hhere⟩ := h.unheard (t := t) (by rw [hwaits]; nofun) hcount
  exact h.radio (by rw [hwaits]; nofun) hdevice hbase hshared hair
    (.inr ⟨by rw [hmain]; nofun, by rw [hmain]; nofun, hcount⟩) hheard hhere

theorem Sync.ackOut (h : Sync s) {heard : Bool} {crc : UInt16}
    (hen : s.polled.Enabled (.ackOut heard crc)) : Sync (s.step (.ackOut heard crc)) := by
  obtain ⟨q, p, hinv⟩ := h.base
  have hair : OnAir (s.polled.box.radioIrq .silent) :=
    onAir_of_polls ((hinv.box.polls (.inr hen.1)).radioIrq .silent)
  have hbase := Polled.inv_step hinv hen
  cases heard with
  | false => exact h.box rfl hbase rfl hair
  | true =>
    refine h.windowCloses hbase (hen.2 rfl) (fun _ pkt hpkt => ?_) rfl rfl hair
    obtain rfl := Option.some.inj hpkt
    exact hinv.box.ack hen.1

/-- Noise at a device that listens. -/
theorem Sync.deviceNoise (h : Sync s) {ev : RadioEvent}
    (hen : s.polled.Enabled (.deviceNoise ev)) : Sync (s.step (.deviceNoise ev)) := by
  obtain ⟨q, p, hinv⟩ := h.base
  have hbase := Polled.inv_step hinv hen
  obtain ⟨hmain, hcrc⟩ := hen
  rcases hmain with hprx | hwaits | hack
  · have hpolls := hinv.device.cycle.polls (.inl hprx)
    have hside := hinv.device.hears (.inl hprx) ev
    rw [Polled.addedBy_of_noise hcrc, List.append_nil] at hside
    have hcount : (s.polled.device.radioIrq ev).esb.rxFifo.count =
        s.polled.device.esb.rxFifo.count :=
      (cycle_rx hside.cycle).count_eq.trans (cycle_rx hinv.device.cycle).count_eq.symm
    exact h.radio (by rw [hprx]; nofun) rfl hbase rfl h.air
      (.inl ⟨prx_of_noise hpolls hprx hcrc, hprx⟩) (h.heard.trans hcount.symm) h.here
  · refine h.windowCloses hbase hwaits (fun hacks => ?_) rfl rfl h.air
    unfold acks at hacks
    rw [hcrc, Bool.and_false] at hacks
    cases hacks
  · exact absurd hack h.device.noAck

/-- **A beacon is heard** on the channel of the device only. -/
theorem Sync.beaconOut (h : Sync s) {heard : Bool} {crc : UInt16}
    (hen : s.Enabled (.beaconOut heard crc)) : Sync (s.step (.beaconOut heard crc)) := by
  obtain ⟨q, p, hinv⟩ := h.base
  obtain ⟨hpolled, hfreq, hbreset, hdreset⟩ := hen
  have hbase := Polled.inv_step hinv hpolled
  obtain ⟨-, hbeacon⟩ := hinv.box.onAir hpolled.1
  have hair : OnAir (s.polled.box.radioIrq .silent) := by
    obtain ⟨x, htransmits, -⟩ := hbeacon.transmits
    obtain ⟨hidle, -⟩ := htransmits.done
    intro hmain
    exact absurd (hidle.mainstate.symm.trans hmain) nofun
  cases heard with
  | false => exact h.box rfl hbase rfl hair
  | true =>
    have hprx := hpolled.2 rfl
    have hpolls := hinv.device.cycle.polls (.inl hprx)
    obtain ⟨ev, hev⟩ : ∃ ev, ev = RadioEvent.received (airPacket s.polled.box.esb) crc := ⟨_, rfl⟩
    have hside := hinv.device.hears (.inl hprx) ev
    have hcount : (s.polled.device.radioIrq ev).esb.rxFifo.count =
        s.polled.device.esb.rxFifo.count + (Box.addedBy ev s.polled.device.esb).length := by
      rw [(cycle_rx hside.cycle).count_eq, (cycle_rx hinv.device.cycle).count_eq, List.length_append]
    -- the frequencies agree, and the entries of the list are distinct
    have hidx : s.polled.box.gCurChIdx = s.polled.device.gCurChIdx := by
      obtain ⟨hlt, hsent⟩ := h.air hpolled.1
      have hdlt := h.device.idx hprx
      have hbusy : s.polled.device.esb.mainstate ≠ .idle := by
        rw [hprx]
        nofun
      have hlistens := (h.device.tuned.onChannel hbusy).trans (h.device.tuned.stored hdreset hdlt)
      have hsame : s.polled.device.gaChlist.get s.polled.device.gCurChIdx.toNat =
          s.polled.device.gaChlist.get s.polled.box.gCurChIdx.toNat := by
        rw [← h.shared, ← hsent hbreset, h.shared]
        exact hlistens.symm.trans (hfreq rfl)
      exact (UInt8.toNat_inj.mp (h.distinct _ hdlt _ hlt hsame)).symm
    have hstep : s.step (.beaconOut true crc) = { s with
        polled := s.polled.step (.beaconOut true crc)
        heardOn := s.heardOn ++ (Box.addedBy ev s.polled.device.esb).map
          fun _ => s.polled.box.gCurChIdx } := by
      rw [hev]
      rfl
    rw [hstep]
    refine h.radio (by rw [hprx]; nofun) rfl hbase rfl hair
      (.inl ⟨prx_of_beacon hpolls hprx hbeacon crc, hprx⟩) ?_ ?_
    · rw [List.length_append, List.length_map, h.heard, hev]
      rw [hev] at hcount
      exact hcount.symm
    · intro j hj
      rcases List.mem_append.mp hj with hold | hnew
      · exact h.here j hold
      · obtain ⟨-, -, rfl⟩ := List.mem_map.mp hnew
        exact hidx

/-! ## §7 The handlers of the device -/

/-- A round that is over after one hop. -/
theorem Sync.closes (h : Sync s) {idx : UInt8}
    (hidx : idx = Device.nextChIdx s.polled.device.gCurChIdx) :
    ∀ r ∈ s.accepted.toList.map (Round.mk · 1 idx) ++ s.rounds, InStep r := by
  intro r hr
  rcases List.mem_append.mp hr with hnew | hold
  · obtain ⟨j, hj, rfl⟩ := List.mem_map.mp hnew
    obtain ⟨hlt, heq, -⟩ := h.accepted j (Option.mem_toList.mp hj)
    refine ⟨rfl, hlt, ?_⟩
    rw [hidx, heq]
    exact nextChIdx_toNat hlt
  · exact h.rounds r hold

/-- **The tick of the device.** -/
theorem Sync.deviceTick (h : Sync s) (hen : s.polled.Enabled .deviceTick)
    (hsafe : s.HopsRead .deviceTick) : Sync (s.step .deviceTick) := by
  obtain ⟨q, p, hinv⟩ := h.base
  have hbase := Polled.inv_step hinv hen
  obtain ⟨d, hd⟩ : ∃ d, d = s.polled.device := ⟨_, rfl⟩
  have hcycle : d.Cycle p := hd ▸ hinv.device.cycle
  have htimer : d.intervalTimerRunning = true := hd ▸ hen
  have hmoves := Device.moves_tick d
  have htuned : Tuned d.intervalTimerEventHandler.tuning := hmoves.tuned (hd ▸ h.device.tuned)
  have hchlist : d.intervalTimerEventHandler.gaChlist = d.gaChlist := hmoves.chlist
  have hidx : d.intervalTimerEventHandler.gCurChIdx = Device.nextChIdx^[d.tickHops] d.gCurChIdx :=
    hmoves.idx
  -- The tick reads nothing from the queue.
  have hcount : d.intervalTimerEventHandler.esb.rxFifo.count = d.esb.rxFifo.count :=
    (cycle_rx (hcycle.tick htimer).1).count_eq.trans (cycle_rx hcycle).count_eq.symm
  have hdistinct : Distinct d.intervalTimerEventHandler.gaChlist := by
    rw [hchlist, hd]
    exact h.distinct
  have hshared : s.polled.box.gaChlist = d.intervalTimerEventHandler.gaChlist := by
    rw [hchlist, hd]
    exact h.shared
  have hheard : s.heardOn.length = d.intervalTimerEventHandler.esb.rxFifo.count := by
    rw [hcount, hd]
    exact h.heard
  by_cases hdue : Device.HopDue d
  · -- a hop, with nothing unread: the device listens on the next channel
    have hhops : d.tickHops = 1 := if_pos hdue
    rw [hhops] at hidx
    -- Nothing unread: otherwise the tick would not have been allowed.
    have hnone : s.heardOn = [] := by
      apply List.eq_nil_of_length_eq_zero
      rw [h.heard]
      exact hsafe (hd ▸ hdue)
    have hprx : d.intervalTimerEventHandler.esb.mainstate = .prx := by
      apply Device.tick_prx hdue
      apply (Device.stopRx_idle_iff (hcycle.timed htimer)).mpr
      rw [hd]
      exact h.device.noAck
    have hstep : s.step .deviceTick = { s with
        polled := s.polled.step .deviceTick
        accepted := none
        rounds := s.accepted.toList.map (Round.mk · 1 d.intervalTimerEventHandler.gCurChIdx) ++
          s.rounds } := by
      show hopped s.polled.device.tickHops _ = _
      rw [← hd, hhops, hd]
      rfl
    rw [hstep]
    subst hd
    refine ⟨hbase, ⟨htuned, fun _ => ?_, ?_, fun _ => hprx⟩, hdistinct, hshared, h.air, hheard, ?_,
      nofun, h.closes hidx⟩
    · show (s.polled.device.intervalTimerEventHandler.gCurChIdx).toNat < _
      rw [hidx]
      exact nextChIdx_lt _
    · show s.polled.device.intervalTimerEventHandler.esb.mainstate ≠ _
      rw [hprx]
      nofun
    · rw [hnone]
      nofun
  · have hhops : d.tickHops = 0 := if_neg hdue
    rw [hhops] at hidx
    -- No hop: the channel and the module stay as they were.
    have hidx' : d.intervalTimerEventHandler.gCurChIdx = d.gCurChIdx := hidx
    obtain ⟨-, hesb⟩ := Device.tick_of_not_hopDue hdue
    have hstep : s.step .deviceTick = { s with polled := s.polled.step .deviceTick } := by
      show hopped s.polled.device.tickHops _ = _
      rw [← hd, hhops]
      rfl
    rw [hstep]
    subst hd
    refine ⟨hbase, ⟨htuned, ?_, ?_, ?_⟩, hdistinct, hshared, h.air, hheard, ?_, ?_, h.rounds⟩
    · show s.polled.device.intervalTimerEventHandler.esb.mainstate = _ →
        (s.polled.device.intervalTimerEventHandler.gCurChIdx).toNat < _
      rw [hesb, hidx']
      exact h.device.idx
    · show s.polled.device.intervalTimerEventHandler.esb.mainstate ≠ _
      rw [hesb]
      exact h.device.noAck
    · show s.polled.device.intervalTimerEventHandler.esb.rxFifo.count ≠ 0 →
        s.polled.device.intervalTimerEventHandler.esb.mainstate = _
      rw [hesb]
      exact h.device.unread
    · intro j hj
      show j = s.polled.device.intervalTimerEventHandler.gCurChIdx
      rw [hidx']
      exact h.here j hj
    · intro j hj
      show j.toNat < _ ∧ s.polled.device.intervalTimerEventHandler.gCurChIdx = j ∧
        s.polled.device.intervalTimerEventHandler.esb.mainstate ≠ _
      rw [hidx', hesb]
      exact h.accepted j hj

/-- **What a run of the event handler comes to**, from `d` to `d'`. -/
inductive EvtKind (d d' : Device) : Prop where
  | nothing : d.esb.interruptFlags = .clear → d'.esb.mainstate = d.esb.mainstate →
      d'.esb.rxFifo.count = d.esb.rxFifo.count → EvtKind d d'
  /-- A payload was read that is no beacon. -/
  | ignored : d.esb.interruptFlags = { InterruptFlags.clear with rxDataReceived := true } →
      Device.isBeaconPacket d'.rxPayload = false → d'.esb.mainstate = d.esb.mainstate →
      d.esb.rxFifo.count = d'.esb.rxFifo.count + 1 → EvtKind d d'
  /-- A beacon was read. -/
  | accepted : d.esb.interruptFlags = { InterruptFlags.clear with rxDataReceived := true } →
      Device.isBeaconPacket d'.rxPayload = true → d.esb.rxFifo.count ≠ 0 →
      d'.esb.mainstate ≠ .prx → d'.esb.mainstate ≠ .prxSendAck → d'.esb.rxFifo.count = 0 →
      EvtKind d d'
  /-- A data packet is done. -/
  | ended : d.esb.interruptFlags.rxDataReceived = false → d.evtHops = 1 →
      d'.esb.mainstate = .prx → d'.esb.rxFifo.count = 0 → EvtKind d d'

theorem evtKind_evtIrq {p : List NrfEsbPayload} (h : Polled.DeviceSide d p)
    (hunread : d.esb.rxFifo.count ≠ 0 → d.esb.mainstate = .prx) : EvtKind d d.esbEvtIrq := by
  have htold := h.cycle.told h.mode
  have hcount := (cycle_rx h.cycle).count_eq
  obtain ⟨d', hd'⟩ : ∃ d', d' = d.esbEvtIrq := ⟨_, rfl⟩
  rw [← hd'] at htold ⊢
  cases htold with
  | nothing hflags => exact .nothing hflags rfl rfl
  | failed hidle _ hflags =>
    have hlistens := Device.listensAgain_onTxFailed (d := d.cleared) h.mode
    refine .ended (by rw [hflags]; rfl) ?_ hlistens.prx hlistens.polls.rx.count_eq
    unfold Device.evtHops
    rw [hflags]
    rfl
  | succeeded hidle _ hflags =>
    have hlistens := Device.listensAgain_listenForBeacon d.cleared
    refine .ended (by rw [hflags]; rfl) ?_ hlistens.prx hlistens.polls.rx.count_eq
    unfold Device.evtHops
    rw [hflags]
    rfl
  | answered e hidle hp _ =>
    -- the acknowledgments of the box carry no payload
    have hprx := hunread (by rw [hcount, hp]; exact Nat.one_ne_zero)
    exact absurd (hidle.mainstate.symm.trans hprx) nofun
  | received hpolls hflags =>
    have hsome : p ≠ [] := h.told (by rw [hflags])
    have hpos : d.esb.rxFifo.count ≠ 0 := by
      rw [hcount]
      exact fun hzero => hsome (List.eq_nil_of_length_eq_zero hzero)
    obtain ⟨d₁, hreads, hrx⟩ := Device.onRxReceived_polls (d := d.cleared) hpolls.collect
    have hmode₁ : d₁.gMode = .normal := hreads.same.mode.trans h.mode
    have hstocked₁ : d₁.Stocked := hreads.same.stocked ⟨h.stocked.idx, h.stocked.data⟩
    have hhandled := Device.handled_onPayload hmode₁ hstocked₁
    rw [hrx]
    obtain ⟨d₂, hd₂⟩ : ∃ d₂, d₂ = d₁.onPayload := ⟨_, rfl⟩
    rw [← hd₂] at hhandled ⊢
    cases hhandled with
    | ignored hno =>
      refine .ignored hflags hno hreads.main ?_
      rw [hcount, hreads.polls.rx.count_eq, List.length_tail]
      have := List.length_pos_of_ne_nil hsome
      omega
    | passed hbeacon _ _ hread _ _ hidle hblank =>
      refine .accepted hflags (by rw [hread]; exact hbeacon) hpos ?_ ?_ hblank.rx.count_eq
      · rw [hidle.mainstate]
        nofun
      · rw [hidle.mainstate]
        nofun
    | answered hbeacon _ hanswers =>
      obtain ⟨x, hx⟩ := hanswers.sends
      refine .accepted hflags (by rw [hanswers.read]; exact hbeacon) hpos ?_ ?_ hx.rx.count_eq
      · rw [hx.sends.mainstate]
        nofun
      · rw [hx.sends.mainstate]
        nofun

/-- A run of the event handler, with what it does to the rounds. -/
theorem step_deviceEvt (s : Lockstep) :
    s.step .deviceEvt =
      (let read := s.polled.device.esb.interruptFlags.rxDataReceived
       let beacon := if read then s.heardOn.headD s.lastRead else s.lastRead
       let s' := hopped s.polled.device.evtHops { s with
         polled := s.polled.step .deviceEvt
         lastRead := beacon
         heardOn := s.leftOver read s.polled.device.esbEvtIrq.esb.rxFifo.count }
       if accepts s.polled.device then accept beacon s' else s') := rfl

/-- Nothing is left over of an empty FIFO. -/
theorem leftOver_of_empty (s : Lockstep) (read : Bool) {count : ℕ} (h : count = 0) :
    s.leftOver read count = [] := if_pos h

theorem mem_leftOver {read : Bool} {count : ℕ} {j : UInt8} (h : j ∈ s.leftOver read count) :
    j ∈ s.heardOn := by
  unfold leftOver at h
  split at h
  · cases h
  · split at h
    · exact List.mem_of_mem_tail h
    · exact h

theorem length_leftOver {count : ℕ} (h : s.heardOn.length = count) :
    (s.leftOver false count).length = count := by
  unfold leftOver
  split
  · next hzero => exact hzero.symm
  · exact h

/-- The oldest payload was read. -/
theorem length_leftOver_read {count : ℕ} (h : s.heardOn.length = count + 1) :
    (s.leftOver true count).length = count := by
  unfold leftOver
  split
  · next hzero => exact hzero.symm
  · show s.heardOn.tail.length = count
    rw [List.length_tail, h]
    rfl

/-- **The event handler of the device.** -/
theorem Sync.deviceEvt (h : Sync s) (hen : s.polled.Enabled .deviceEvt) :
    Sync (s.step .deviceEvt) := by
  obtain ⟨q, p, hinv⟩ := h.base
  have hbase := Polled.inv_step hinv hen
  obtain ⟨hinit, isPtx, hcfg⟩ := cycle_module hinv.device.cycle
  have hmoves := Device.moves_esbEvtIrq hinv.device.mode hinit hcfg
  have hkind := evtKind_evtIrq hinv.device h.device.unread
  have hafter : (s.polled.step .deviceEvt).device = s.polled.device.esbEvtIrq := rfl
  have hbox : (s.polled.step .deviceEvt).box = s.polled.box := rfl
  rw [step_deviceEvt]
  obtain ⟨t, ht⟩ : ∃ t, t = s.polled.step .deviceEvt := ⟨_, rfl⟩
  obtain ⟨d, hd⟩ : ∃ d, d = s.polled.device := ⟨_, rfl⟩
  obtain ⟨d', hd'⟩ : ∃ d', d' = d.esbEvtIrq := ⟨_, rfl⟩
  rw [← ht] at hbase hafter hbox ⊢
  rw [← hd] at hmoves hkind hafter ⊢
  rw [← hd'] at hmoves hkind hafter ⊢
  have hlistener := h.device
  have hhere := h.here
  have haccepted := h.accepted
  have hheard := h.heard
  rw [← hd] at hlistener hhere haccepted hheard
  have htuned : Tuned d'.tuning := hmoves.tuned hlistener.tuned
  have hchlist : d'.gaChlist = d.gaChlist := hmoves.chlist
  have hidx : d'.gCurChIdx = Device.nextChIdx^[d.evtHops] d.gCurChIdx := hmoves.idx
  have hdistinct : Distinct t.device.gaChlist := by
    rw [hafter, hchlist, hd]
    exact h.distinct
  have hshared : t.box.gaChlist = t.device.gaChlist := by
    rw [hafter, hbox, hchlist, hd]
    exact h.shared
  have hair : OnAir t.box := hbox ▸ h.air
  cases hkind with
  | nothing hflags hmain hcount =>
    have hread : d.esb.interruptFlags.rxDataReceived = false := by rw [hflags]; rfl
    have hhops : d.evtHops = 0 := by
      unfold Device.evtHops
      rw [hflags]
      rfl
    have hsame : d'.gCurChIdx = d.gCurChIdx := by rw [hidx, hhops]; rfl
    rw [accepts, hread, hhops]
    refine ⟨hbase, ?_, hdistinct, hshared, hair, ?_, ?_, ?_, h.rounds⟩
    · show Listener t.device
      rw [hafter]
      refine ⟨htuned, ?_, ?_, ?_⟩
      · rw [hmain, hsame]
        exact hlistener.idx
      · rw [hmain]
        exact hlistener.noAck
      · rw [hmain, hcount]
        exact hlistener.unread
    · show (s.leftOver false _).length = t.device.esb.rxFifo.count
      rw [hafter]
      exact length_leftOver (hheard.trans hcount.symm)
    · show ∀ j ∈ s.leftOver false _, j = t.device.gCurChIdx
      rw [hafter, hsame]
      exact fun j hj => hhere j (mem_leftOver hj)
    · show ∀ j, s.accepted = some j → _ ∧ t.device.gCurChIdx = j ∧ t.device.esb.mainstate ≠ _
      rw [hafter, hsame, hmain]
      exact haccepted
  | ignored hflags hno hmain hcount =>
    have hread : d.esb.interruptFlags.rxDataReceived = true := by rw [hflags]
    have hhops : d.evtHops = 0 := by
      unfold Device.evtHops
      rw [hflags]
      rfl
    have hsame : d'.gCurChIdx = d.gCurChIdx := by rw [hidx, hhops]; rfl
    have hprx := hlistener.unread (by rw [hcount]; exact Nat.succ_ne_zero _)
    rw [accepts, hread, hhops, ← hd', hno]
    refine ⟨hbase, ?_, hdistinct, hshared, hair, ?_, ?_, ?_, h.rounds⟩
    · show Listener t.device
      rw [hafter]
      refine ⟨htuned, ?_, ?_, ?_⟩
      · rw [hmain, hsame]
        exact hlistener.idx
      · rw [hmain]
        exact hlistener.noAck
      · rw [hmain]
        exact fun _ => hprx
    · show (s.leftOver true _).length = t.device.esb.rxFifo.count
      rw [hafter]
      exact length_leftOver_read (hheard.trans hcount)
    · show ∀ j ∈ s.leftOver true _, j = t.device.gCurChIdx
      rw [hafter, hsame]
      exact fun j hj => hhere j (mem_leftOver hj)
    · show ∀ j, s.accepted = some j → _ ∧ t.device.gCurChIdx = j ∧ t.device.esb.mainstate ≠ _
      rw [hafter, hsame, hmain]
      exact haccepted
  | accepted hflags hbeacon hcount hprx hack hempty =>
    have hread : d.esb.interruptFlags.rxDataReceived = true := by rw [hflags]
    have hhops : d.evtHops = 0 := by
      unfold Device.evtHops
      rw [hflags]
      rfl
    have hsame : d'.gCurChIdx = d.gCurChIdx := by rw [hidx, hhops]; rfl
    have hwas := hlistener.unread hcount
    -- the device listens, so no round is open; the beacon is of the channel it listens on
    have hnone : s.accepted = none := by
      apply Option.eq_none_iff_forall_ne_some.mpr
      intro j hj
      exact (haccepted j hj).2.2 hwas
    obtain ⟨j, rest, hcons⟩ := List.exists_cons_of_ne_nil
      (List.length_pos_iff.mp (by omega : 0 < s.heardOn.length))
    have hj : j = d.gCurChIdx := hhere j (hcons ▸ List.mem_cons_self)
    rw [accepts, hread, hhops, ← hd', hbeacon]
    refine ⟨hbase, ?_, hdistinct, hshared, hair, ?_, ?_, ?_, ?_⟩
    · show Listener t.device
      rw [hafter]
      exact ⟨htuned, fun hlistens => absurd hlistens hprx, hack, fun hne => absurd hempty hne⟩
    · show (s.leftOver true _).length = t.device.esb.rxFifo.count
      rw [hafter, hempty, s.leftOver_of_empty true rfl]
      rfl
    · show ∀ j ∈ s.leftOver true _, j = t.device.gCurChIdx
      rw [hempty, s.leftOver_of_empty true rfl]
      nofun
    · show ∀ i, some (s.heardOn.headD s.lastRead) = some i →
        _ ∧ t.device.gCurChIdx = i ∧ t.device.esb.mainstate ≠ _
      rw [hafter, hsame, hcons]
      rintro i hi
      obtain rfl : j = i := Option.some.inj hi
      exact ⟨hj ▸ hlistener.idx hwas, hj.symm, hprx⟩
    · show ∀ r ∈ s.accepted.toList.map _ ++ s.rounds, InStep r
      rw [hnone]
      exact h.rounds
  | ended hread hone hprx hempty =>
    have hnext : d'.gCurChIdx = Device.nextChIdx d.gCurChIdx := by rw [hidx, hone]; rfl
    rw [accepts, hread, hone]
    refine ⟨hbase, ?_, hdistinct, hshared, hair, ?_, ?_, nofun, ?_⟩
    · show Listener t.device
      rw [hafter]
      refine ⟨htuned, fun _ => ?_, ?_, fun _ => hprx⟩
      · rw [hnext]
        exact nextChIdx_lt _
      · rw [hprx]
        nofun
    · show (s.leftOver false _).length = t.device.esb.rxFifo.count
      rw [hafter, hempty, s.leftOver_of_empty false rfl]
      rfl
    · show ∀ j ∈ s.leftOver false _, j = t.device.gCurChIdx
      rw [hempty, s.leftOver_of_empty false rfl]
      nofun
    · show ∀ r ∈ s.accepted.toList.map (Round.mk · 1 t.device.gCurChIdx) ++ s.rounds, InStep r
      rw [hafter]
      exact h.closes (hd ▸ hnext)

/-! ## §8 Lockstep -/

/-- **The tick of the box** hops. -/
theorem Sync.boxTick (h : Sync s) (hen : s.polled.Enabled .boxTick) : Sync (s.step .boxTick) := by
  obtain ⟨q, p, hinv⟩ := h.base
  have hmode := hinv.box.mode
  obtain ⟨-, hchlist, -⟩ := Box.tuned_tick hmode
  exact h.box (t := s.polled.step .boxTick) rfl (Polled.inv_step hinv hen) hchlist (onAir_tick hmode)

/-- The event handler of the box. -/
theorem Sync.boxEvt (h : Sync s) (hen : s.polled.Enabled .boxEvt) : Sync (s.step .boxEvt) := by
  obtain ⟨q, p, hinv⟩ := h.base
  obtain ⟨hair, hchlist⟩ := onAir_evtIrq hinv.box h.air
  exact h.box (t := s.polled.step .boxEvt) rfl (Polled.inv_step hinv hen) hchlist hair

/-- Noise at a box that listens. -/
theorem Sync.boxNoise (h : Sync s) {ev : RadioEvent} (hen : s.polled.Enabled (.boxNoise ev)) :
    Sync (s.step (.boxNoise ev)) := by
  obtain ⟨q, p, hinv⟩ := h.base
  exact h.box (t := s.polled.step (.boxNoise ev)) rfl (Polled.inv_step hinv hen) rfl
    (onAir_of_polls ((hinv.box.polls (.inl hen.1)).radioIrq ev))

/-- **Every step keeps the invariant.** -/
theorem sync_step {a : PolledAction} (h : Sync s) (hen : s.Enabled a) (hsafe : s.HopsRead a) :
    Sync (s.step a) := by
  cases a with
  | boxTick => exact h.boxTick hen.1
  | boxEvt => exact h.boxEvt hen.1
  | deviceTick => exact h.deviceTick hen.1 hsafe
  | deviceEvt => exact h.deviceEvt hen.1
  | beaconOut heard crc => exact h.beaconOut hen
  | dataOut heard crc => exact h.dataOut hen.1
  | ackOut heard crc => exact h.ackOut hen.1
  | boxNoise ev => exact h.boxNoise hen.1
  | deviceNoise ev => exact h.deviceNoise hen.1

theorem sync_start (h : machine.start s) : Sync s := by
  obtain ⟨hpolled, hdistinct, hshared, hbox, hheard, haccepted, hrounds⟩ := h
  have hinv := Polled.inv_start hpolled
  obtain ⟨-, -, ⟨d₀, hd, -, -, -, -, -⟩, -, -, -⟩ := hpolled
  obtain ⟨hidle, hcount, hidx⟩ : s.polled.device.esb.mainstate = .idle ∧
      s.polled.device.esb.rxFifo.count = 0 ∧
      s.polled.device.gCurChIdx.toNat = maximumChannelListSize := by
    obtain ⟨hidle, hblank⟩ := Device.enterNormalMode_rests d₀
    rw [hd]
    exact ⟨hidle.mainstate, hblank.rx.count_eq, rfl⟩
  have hlistener : Listener s.polled.device := by
    refine ⟨⟨onChannel_of_idle hidle, fun _ hlt => ?_⟩, fun hprx => ?_, ?_, fun hne => ?_⟩
    · -- the index of a device that has not hopped is past the end of the list
      exact absurd hlt (Nat.not_lt.mpr hidx.ge)
    · exact absurd (hidle.symm.trans hprx) nofun
    · rw [hidle]
      nofun
    · exact absurd hcount hne
  refine ⟨⟨_, _, hinv⟩, hlistener, hdistinct, hshared, fun hmain => absurd hmain hbox, ?_, ?_, ?_, ?_⟩
  · rw [hheard, hcount]
    rfl
  · rw [hheard]
    nofun
  · rw [haccepted]
    nofun
  · rw [hrounds]
    nofun

theorem sync_of_reachable (h : machine.ReachableUnder HopsRead s) : Sync s := by
  apply h.invariant
  · exact fun _ => sync_start
  · exact fun _ _ hs hen hsafe => sync_step hs hen hsafe

/-- **Lockstep**: if the timer of the device never hops while a beacon is unread, every round of
    the device has one hop, from the index of the beacon that it has accepted to the one after it;
    while it listens it is on the channel of its index; and the box sends its next beacon on the
    index after its own. -/
theorem lockstep_of_reachable (h : machine.ReachableUnder HopsRead s) :
    (∀ r ∈ s.rounds, InStep r) ∧
      (s.polled.device.esb.mainstate = .prx → s.polled.device.systemReset = false →
        s.polled.device.esb.radio.frequency =
          s.polled.device.gaChlist.get s.polled.device.gCurChIdx.toNat) ∧
      (s.polled.box.esb.mainstate = .ptxTx →
        s.polled.box.intervalTimerEventHandler.gCurChIdx.toNat =
          (s.polled.box.gCurChIdx.toNat + 1) % maximumChannelListSize) := by
  have hsync := sync_of_reachable h
  obtain ⟨q, p, hinv⟩ := hsync.base
  refine ⟨hsync.rounds, fun hprx hreset => ?_, fun hsends => ?_⟩
  · have hlt := hsync.device.idx hprx
    have hbusy : s.polled.device.esb.mainstate ≠ .idle := by
      rw [hprx]
      nofun
    exact (hsync.device.tuned.onChannel hbusy).trans (hsync.device.tuned.stored hreset hlt)
  · obtain ⟨hlt, -⟩ := hsync.air hsends
    rw [(Box.tuned_tick hinv.box.mode).2.2]
    exact nextChIdx_toNat hlt

/-! ## §9 Runs -/

/-- A box and a device with the same channel list after power-up. -/
def poweredUp : Lockstep where
  polled := Polled.poweredUp
  heardOn := []
  lastRead := 0
  accepted := none
  rounds := []

theorem poweredUp_start : machine.start poweredUp := by
  exact ⟨Polled.poweredUp_start, by decide, by decide, by decide, rfl, rfl, rfl⟩

/-- The device hops to its first channel, answers one beacon, and has nothing to answer on the
    next. -/
def steadyRun : List PolledAction :=
  .deviceTick :: Polled.answeredRun ++ [.boxTick, .beaconOut true 0x33, .deviceEvt, .deviceTick]

/-- The device scans its first channel; its timer hops after a beacon was received and before the
    event handler runs. -/
def tornRun : List PolledAction :=
  .deviceTick :: List.replicate 15 .deviceTick ++
    [.boxTick, .beaconOut true 0x11, .deviceTick, .deviceEvt, .dataOut false 0,
      .deviceNoise .silent, .deviceEvt]

/-- The two rounds of such a run. -/
theorem lockstep_run_steady :
    (machine.run poweredUp steadyRun).rounds = [⟨1, 1, 2⟩, ⟨0, 1, 1⟩] ∧
      ∀ r ∈ (machine.run poweredUp steadyRun).rounds, InStep r := by
  have hreach : machine.ReachableUnder HopsRead (machine.run poweredUp steadyRun) :=
    .of_follows (.start poweredUp_start) (by decide +kernel)
  exact ⟨by decide +kernel, (lockstep_of_reachable hreach).1⟩

/-- **The beacon of index 0 is answered on index 1**, and the device listens on index 2 next. -/
theorem not_inStep_torn :
    machine.Reachable (machine.run poweredUp tornRun) ∧
      (machine.run poweredUp tornRun).rounds = [⟨0, 1, 2⟩] ∧ ¬ InStep ⟨0, 1, 2⟩ :=
  ⟨.of_follows (.start poweredUp_start) (by decide +kernel), by decide +kernel, by decide⟩

end Lockstep

end NordicEsb
