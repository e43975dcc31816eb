import NordicEsb.App.Persistence
import NordicEsb.App.Response

/-!
# Isolation Between Systems

Boxes of different systems send their beacons to one and the same default pairing address, and a
beacon names no box: its bytes are the two marks, the kind of the beacon and a mask, and its PID
is always 1. A device in normal mode checks the marks only.

- `airPacket_tick`: a beacon is determined by its kind and its mask.
- `hearAll_eq`: a device cannot tell whose beacons it hears.
- `Responds`: besides counting down and hopping, what a device does is an answer to a beacon that
  it has heard, of whatever box.

**Main result** (`isolation_of_reachable`): all of this, in every run of a device.
-/

namespace NordicEsb

/-! ## §1 Beacons -/

namespace Box

/-- The runs of a box that `main` has started. -/
def machine (chipId : FixedArray 4 UInt8) : Machine Box BoxStep where
  start b := ∃ flash button picked, b = Box.main chipId flash button picked
  enabled := Interrupts
  step := Box.step

/-- `g_beacon` with the kind and the mask that `send_beacon` fills in. -/
def beaconOf (kind mask : UInt8) : NrfEsbPayload :=
  { initialBeacon with data := (initialBeacon.data.set 2 kind).set 3 mask }

/-- **`g_beacon` holds a beacon**, apart from its `noack` field. -/
def BeaconShape (b : Box) : Prop :=
  ∃ kind mask noack, b.gBeacon = { beaconOf kind mask with noack := noack }

variable {b : Box}

theorem takeSlot_gBaseAddr1 (b : Box) : (takeSlot b).gBaseAddr1 = b.gBaseAddr1 := by
  unfold takeSlot
  split
  · rfl
  · split <;> rfl

/-- The handler leaves beacon and address alone. -/
theorem nrfEsbEventHandler_gBeacon (b : Box) (event : NrfEsbEvt) :
    (b.nrfEsbEventHandler event).gBeacon = b.gBeacon ∧
      (b.nrfEsbEventHandler event).gBaseAddr1 = b.gBaseAddr1 := by
  have hdone : b.onTxDone.gBeacon = b.gBeacon ∧ b.onTxDone.gBaseAddr1 = b.gBaseAddr1 := by
    unfold onTxDone
    dsimp only
    split <;> exact ⟨rfl, rfl⟩
  have hreq : ∀ b : Box, b.onPairReq.gBeacon = b.gBeacon ∧
      b.onPairReq.gBaseAddr1 = b.gBaseAddr1 := by
    intro b
    unfold onPairReq
    dsimp only
    split <;> exact ⟨rfl, rfl⟩
  have hget : ∀ b : Box, b.onPairInfoGet.gBeacon = b.gBeacon ∧
      b.onPairInfoGet.gBaseAddr1 = b.gBaseAddr1 := by
    intro b
    have hbeacon := (takeSlot_frame (b.callEsb nrfEsbFlushTx)).2.2.1
    have haddr := takeSlot_gBaseAddr1 (b.callEsb nrfEsbFlushTx)
    unfold onPairInfoGet
    dsimp only
    split <;> exact ⟨hbeacon, haddr⟩
  have hpayload : ∀ b : Box, b.onPayload.gBeacon = b.gBeacon ∧
      b.onPayload.gBaseAddr1 = b.gBaseAddr1 := by
    intro b
    unfold onPayload
    split
    · split
      · exact hreq b
      · split
        · exact hget b
        · exact ⟨rfl, rfl⟩
    · split
      · split <;> exact ⟨rfl, rfl⟩
      · exact ⟨rfl, rfl⟩
  unfold nrfEsbEventHandler
  split
  · exact hdone
  · exact hdone
  · unfold onRxReceived
    dsimp only
    split
    · exact hpayload _
    · exact ⟨rfl, rfl⟩

theorem esbEvtIrq_gBeacon (b : Box) :
    b.esbEvtIrq.gBeacon = b.gBeacon ∧ b.esbEvtIrq.gBaseAddr1 = b.gBaseAddr1 := by
  have hrun : ∀ (events : List NrfEsbEvt) (b : Box),
      (events.foldl nrfEsbEventHandler b).gBeacon = b.gBeacon ∧
        (events.foldl nrfEsbEventHandler b).gBaseAddr1 = b.gBaseAddr1 := by
    intro events
    induction events with
    | nil => exact fun _ => ⟨rfl, rfl⟩
    | cons event events ih =>
      intro b
      obtain ⟨hbeacon, haddr⟩ := nrfEsbEventHandler_gBeacon b event
      obtain ⟨hbeacon', haddr'⟩ := ih (b.nrfEsbEventHandler event)
      exact ⟨hbeacon'.trans hbeacon, haddr'.trans haddr⟩
  exact hrun _ _

/-- Bytes 2 and 3 are overwritten. -/
theorem data_beaconOf (kind mask kind' mask' : UInt8) :
    (beaconOf kind mask).data.set 2 kind' = (beaconOf kind' mask).data ∧
      ((beaconOf kind mask).data.set 2 kind').set 3 mask' = (beaconOf kind' mask').data := by
  constructor
  · funext i
    simp only [beaconOf, FixedArray.set]
    grind
  · funext i
    simp only [beaconOf, FixedArray.set]
    grind

/-- `send_beacon` fills in kind and mask. -/
theorem beaconShape_fillBeacon (h : BeaconShape b) : BeaconShape (fillBeacon b) := by
  obtain ⟨kind, mask, noack, hbeacon⟩ := h
  have hdata : b.gBeacon.data = (beaconOf kind mask).data := by rw [hbeacon]
  unfold fillBeacon
  split
  · refine ⟨beaconByte3NewData, mask, noack, ?_⟩
    dsimp only
    rw [hdata, (data_beaconOf kind mask _ mask).1, hbeacon]
    rfl
  · refine ⟨beaconByte3Resend, ~~~b.gDevsDataRecvMask &&& b.gDevsPairedMask, noack, ?_⟩
    dsimp only
    rw [hdata, (data_beaconOf kind mask _ _).2, hbeacon]
    rfl

/-- The beacon that `send_beacon` hands over. -/
theorem beaconShape_sendBeacon (h : BeaconShape b) :
    ∃ kind mask, (sendBeacon b).gBeacon = { beaconOf kind mask with noack := 1 } ∧
      (sendBeacon b).esb =
        (nrfEsbWritePayload (some { beaconOf kind mask with noack := 1 }) b.esb).2 := by
  obtain ⟨kind, mask, noack, hbeacon⟩ := beaconShape_fillBeacon h
  have hgiven : (sendBeacon b).gBeacon = { (fillBeacon b).gBeacon with noack := 1 } := rfl
  have hesb : (sendBeacon b).esb =
      (nrfEsbWritePayload (some (sendBeacon b).gBeacon) (fillBeacon b).esb).2 := rfl
  rw [hbeacon] at hgiven
  refine ⟨kind, mask, hgiven, ?_⟩
  rw [hesb, hgiven, (fillBeacon_frame b).1]

theorem sendBeacon_gBaseAddr1 (b : Box) : (sendBeacon b).gBaseAddr1 = b.gBaseAddr1 := by
  have hfill : (fillBeacon b).gBaseAddr1 = b.gBaseAddr1 := by
    unfold fillBeacon
    split <;> rfl
  exact hfill

/-- The tick changes kind and mask only. -/
theorem tick_gBeacon (h : BeaconShape b) :
    BeaconShape b.intervalTimerEventHandler ∧
      b.intervalTimerEventHandler.gBaseAddr1 = b.gBaseAddr1 := by
  unfold intervalTimerEventHandler
  dsimp only
  split
  · obtain ⟨kind, mask, hgiven, -⟩ :=
      beaconShape_sendBeacon (b := (hopChannel b).callEsb (esbInit true)) h
    exact ⟨⟨kind, mask, 1, hgiven⟩, sendBeacon_gBaseAddr1 _⟩
  · exact ⟨h, rfl⟩
  · exact ⟨h, rfl⟩

/-- **Every box has the beacon of its kind**, and its own address. -/
theorem beaconShape_of_reachable {chipId : FixedArray 4 UInt8} (h : (machine chipId).Reachable b) :
    BeaconShape b ∧ b.gBaseAddr1 = chipId := by
  refine h.invariant (I := fun b => BeaconShape b ∧ b.gBaseAddr1 = chipId) ?_ ?_
  · rintro _ ⟨flash, button, picked, rfl⟩
    have hmain : (Box.main chipId flash button picked).gBeacon = initialBeacon ∧
        (Box.main chipId flash button picked).gBaseAddr1 = chipId := by
      unfold Box.main
      dsimp only
      split
      · exact ⟨rfl, rfl⟩
      · split
        · exact ⟨rfl, rfl⟩
        · split <;> exact ⟨rfl, rfl⟩
    have hdata : (initialBeacon.data.set 2 0xee).set 3 0xdd = initialBeacon.data := by decide
    refine ⟨⟨0xee, 0xdd, 0, hmain.1.trans ?_⟩, hmain.2⟩
    unfold beaconOf
    rw [hdata]
    rfl
  · rintro s a ⟨hshape, haddr⟩ - -
    cases a with
    | radioIrq ev => exact ⟨hshape, haddr⟩
    | evtIrq =>
      obtain ⟨hbeacon, haddr'⟩ := esbEvtIrq_gBeacon s
      exact ⟨by unfold BeaconShape; exact hbeacon ▸ hshape, haddr'.trans haddr⟩
    | tick =>
      obtain ⟨hshape', haddr'⟩ := tick_gBeacon hshape
      exact ⟨hshape', haddr'.trans haddr⟩

/-- The packet of a beacon: the module was just initialised, so its PID is 1. -/
def beaconPacket (kind mask : UInt8) : AirPacket where
  pipe := 0
  byte0 := 10
  byte1 := 3
  data := [beaconByte1, beaconByte2, kind, mask, 0xee, 0xdd, 0xee, 0xdd, 0xee, 0xdd]

theorem packetOf_beaconOf (kind mask : UInt8) :
    packetOf (appEsbConfig true) { beaconOf kind mask with noack := 1, pid := 1 } =
      beaconPacket kind mask := by
  have hbytes : (beaconOf kind mask).data.firstN 10 =
      [beaconByte1, beaconByte2, kind, mask, 0xee, 0xdd, 0xee, 0xdd, 0xee, 0xdd] := rfl
  have hheader : (1 : UInt8) <<< 1 ||| 1 = 3 := by decide
  have hack : wantsAck (appEsbConfig true) { beaconOf kind mask with noack := 1, pid := 1 } =
      false := rfl
  unfold packetOf beaconPacket
  rw [hack, if_neg (by decide)]
  exact congrArg₂ (AirPacket.mk 0 10) hheader hbytes

/-- **The beacon that a box sends** is determined by its kind and its mask. -/
theorem airPacket_tick (hmode : b.gMode = .normal) (hshape : BeaconShape b) :
    airPacket b.intervalTimerEventHandler.esb =
      beaconPacket (b.intervalTimerEventHandler.gBeacon.data.get 2)
        (b.intervalTimerEventHandler.gBeacon.data.get 3) := by
  obtain ⟨b₁, hb₁⟩ : ∃ b₁, b₁ = (hopChannel b).callEsb (esbInit true) := ⟨_, rfl⟩
  have htick : b.intervalTimerEventHandler = sendBeacon b₁ := by
    unfold intervalTimerEventHandler
    dsimp only
    rw [show (hopChannel b).gMode = .normal from hmode, hb₁]
  obtain ⟨hidle, hblank, -, -⟩ := nrfEsbInit_app true (nrfEsbDisable (hopChannel b).esb)
  have hesb : b₁.esb =
      (nrfEsbInit (some (appEsbConfig true)) (nrfEsbDisable (hopChannel b).esb)).2 := by
    rw [hb₁]
    rfl
  obtain ⟨kind, mask, hgiven, hwrite⟩ := beaconShape_sendBeacon (b := b₁) (hb₁ ▸ hshape)
  obtain ⟨htransmits, -, -⟩ := hidle.write hblank.tx (p := { beaconOf kind mask with noack := 1 })
    (by decide : 0 < (10 : UInt8).toNat ∧ (10 : UInt8).toNat ≤ 32)
  rw [hesb] at hwrite
  rw [htick, hwrite, htransmits.air, hgiven]
  -- the PIDs were cleared
  have hpid : nextPid (nrfEsbInit (some (appEsbConfig true)) (nrfEsbDisable (hopChannel b).esb)).2
      0 = 1 := by
    unfold nextPid
    rw [show (nrfEsbInit (some (appEsbConfig true)) (nrfEsbDisable (hopChannel b).esb)).2.pids =
      default from rfl]
    decide
  rw [show ({ beaconOf kind mask with noack := 1 } : NrfEsbPayload).pipe = 0 from rfl, hpid]
  exact packetOf_beaconOf kind mask

end Box
/-! ## §2 The address of pipe 1 -/

/-- The registers with the address of pipe 1: `BASE1`, and `PREFIX0`, which holds its prefix. -/
def pipe1Address (s : Esb) : UInt32 × UInt32 := (s.radio.base1, s.radio.prefix0)

/-- The calls that set neither. -/
def keepsPipe1Address : EsbCall → Bool
  | .setBaseAddress1 _ | .setPrefixes _ _ | .updatePrefix _ _ => false
  | _ => true

theorem acknowledge_pipe1Address (retransmit : Bool) (s : Esb) :
    pipe1Address (acknowledge retransmit s) = pipe1Address s := by
  unfold acknowledge prepareAck prepareAckDpl
  cases s
  repeat' split
  all_goals rfl

theorem callOnRadioDisabled_pipe1Address (s : Esb) :
    pipe1Address (callOnRadioDisabled s) = pipe1Address s := by
  unfold callOnRadioDisabled
  cases s.onRadioDisabled with
  | none => rfl
  | some f =>
    cases f with
    | tx | rxAck => rfl
    | txNoack =>
      dsimp only
      unfold onRadioDisabledTxNoack
      dsimp only
      split <;> rfl
    | txWaitForAck =>
      dsimp only
      unfold onRadioDisabledTxWaitForAck
      dsimp only
      split
      · unfold onAckReceived
        dsimp only
        split <;> split <;> rfl
      · unfold onAckMissed
        dsimp only
        split <;> rfl
    | rx =>
      dsimp only
      rw [onRadioDisabledRx_eq]
      split
      · split
        · exact acknowledge_pipe1Address true (notePidAndCrc s)
        · exact acknowledge_pipe1Address false (notePidAndCrc s)
      · rfl

/-- **Only the setters of addresses change the address of pipe 1.** -/
theorem exec_pipe1Address (s : Esb) {c : EsbCall} (hc : keepsPipe1Address c = true) :
    pipe1Address (s.exec c) = pipe1Address s := by
  unfold Esb.exec
  cases c with
  | setBaseAddress1 | setPrefixes | updatePrefix => cases hc
  | radioIrq ev =>
    have hlatch : pipe1Address (ev.latch s) = pipe1Address s := by
      unfold RadioEvent.latch
      split <;> rfl
    show pipe1Address (radioIrqHandler ev s) = _
    rw [radioIrqHandler_eq]
    split
    · exact (callOnRadioDisabled_pipe1Address _).trans hlatch
    · exact hlatch
  | init pConfig =>
    cases pConfig with
    | none => rfl
    | some cfg =>
      simp only [Esb.call, nrfEsbInit]
      split <;> rfl
  | disable => rfl
  | readRxPayload | evtIrq =>
    simp only [Esb.call, nrfEsbReadRxPayload, esbEvtIrqHandler]
    repeat' split
    all_goals simp_all [pipe1Address]
  | _ =>
    simp only [Esb.call, nrfEsbSuspend, nrfEsbWritePayload, nrfEsbStartTx, nrfEsbStartRx,
      nrfEsbStopRx, nrfEsbFlushTx, nrfEsbPopTx, nrfEsbFlushRx, nrfEsbSetAddressLength,
      nrfEsbSetBaseAddress0, nrfEsbEnablePipes, nrfEsbSetRfChannel, nrfEsbSetTxPower]
    repeat' split
    all_goals rfl

namespace Device

/-! ## §3 Two runs -/

/-- What happens to a device: an interrupt, or a beacon on its channel, the one that the next tick
    of a box sends. -/
inductive Hearing where
  | own (a : DeviceStep)
  | beacon (b : Box)

/-- The device after one such thing; a beacon is heard while the device listens. The CRC depends
    on the packet. -/
def hear (crcOf : AirPacket → UInt16) (d : Device) : Hearing → Device
  | .own a => if d.Enabled a then d.step a else d
  | .beacon b =>
    let pkt := airPacket b.intervalTimerEventHandler.esb
    if d.esb.mainstate = .prx then d.radioIrq (.received pkt (crcOf pkt)) else d

/-- The device after all of them. -/
def hearAll (crcOf : AirPacket → UInt16) (d : Device) (es : List Hearing) : Device :=
  es.foldl (hear crcOf) d

/-- **The same, but for the boxes**: beacons of the same kind and mask, of any two boxes in normal
    mode. -/
inductive Alike : Hearing → Hearing → Prop where
  | own (a : DeviceStep) : Alike (.own a) (.own a)
  | beacon {chipId chipId' : FixedArray 4 UInt8} {b b' : Box} :
      (Box.machine chipId).Reachable b → (Box.machine chipId').Reachable b' →
      b.gMode = .normal → b'.gMode = .normal →
      b.intervalTimerEventHandler.gBeacon.data.get 2 =
        b'.intervalTimerEventHandler.gBeacon.data.get 2 →
      b.intervalTimerEventHandler.gBeacon.data.get 3 =
        b'.intervalTimerEventHandler.gBeacon.data.get 3 →
      Alike (.beacon b) (.beacon b')

variable {crcOf : AirPacket → UInt16} {d d' : Device}

/-- **One beacon is like the other.** -/
theorem hear_eq {e e' : Hearing} (h : Alike e e') : hear crcOf d e = hear crcOf d e' := by
  cases h with
  | own a => rfl
  | beacon hb hb' hmode hmode' hkind hmask =>
    have hpacket := Box.airPacket_tick hmode (Box.beaconShape_of_reachable hb).1
    have hpacket' := Box.airPacket_tick hmode' (Box.beaconShape_of_reachable hb').1
    unfold hear
    dsimp only
    rw [hpacket, hpacket', hkind, hmask]

/-- **A device cannot tell whose beacons it hears.** -/
theorem hearAll_eq {es es' : List Hearing} (h : List.Forall₂ Alike es es') :
    hearAll crcOf d es = hearAll crcOf d es' := by
  induction h generalizing d with
  | nil => rfl
  | cons hfirst _ ih =>
    show hearAll crcOf (hear crcOf d _) _ = hearAll crcOf (hear crcOf d _) _
    rw [hear_eq hfirst]
    exact ih

/-! ## §4 Leaving pairing mode -/

/-- The data payloads and the index are left alone. -/
structure SameStock (d d' : Device) : Prop where
  payloads : d'.txDataPayload = d.txDataPayload
  idx : d'.gCurPayloadIdx = d.gCurPayloadIdx

/-- **A device in pairing mode** stays in it, or has just entered normal mode. -/
inductive Pairs (d : Device) : Device → Prop where
  | stays {d' : Device} : d'.gMode = .pairing → SameStock d d' → Pairs d d'
  | enters {d₀ : Device} : SameStock d d₀ → Pairs d d₀.enterNormalMode

theorem SameStock.stocked (h : SameStock d d') (hs : Stocked d) : Stocked d' :=
  ⟨h.idx ▸ hs.idx, h.payloads ▸ hs.data⟩

theorem SameStock.trans {d'' : Device} (h : SameStock d d') (h' : SameStock d' d'') :
    SameStock d d'' :=
  ⟨h'.payloads.trans h.payloads, h'.idx.trans h.idx⟩

theorem Pairs.after {d'' : Device} (h : SameStock d d') (hp : Pairs d' d'') : Pairs d d'' := by
  cases hp with
  | stays hmode hs => exact .stays hmode (h.trans hs)
  | enters hs => exact .enters (h.trans hs)

/-- The end of a request. -/
theorem onTxSuccess_pairing (hmode : d.gMode = .pairing) :
    d.onTxSuccess.gMode = .pairing ∧ SameStock d d.onTxSuccess := by
  unfold onTxSuccess
  split
  · split <;> exact ⟨hmode, rfl, rfl⟩
  case h_2 hnormal => exact absurd (hmode.symm.trans hnormal) (by decide)

theorem onTxFailed_pairing (hmode : d.gMode = .pairing) :
    d.onTxFailed.gMode = .pairing ∧ SameStock d d.onTxFailed := by
  unfold onTxFailed
  dsimp only
  split
  · split <;> exact ⟨hmode, rfl, rfl⟩
  case h_2 hnormal => exact absurd (hmode.symm.trans hnormal) (by decide)

/-- A record may have come. -/
theorem onRxReceived_pairing (hmode : d.gMode = .pairing) : Pairs d d.onRxReceived := by
  obtain ⟨d₁, hd₁⟩ : ∃ d₁ : Device, d₁ = { d with
      esb := (nrfEsbReadRxPayload (some d.rxPayload) d.esb).2.2
      rxPayload := (nrfEsbReadRxPayload (some d.rxPayload) d.esb).2.1.getD d.rxPayload } := ⟨_, rfl⟩
  have hmode₁ : d₁.gMode = .pairing := hd₁ ▸ hmode
  have hstock₁ : SameStock d d₁ := hd₁ ▸ ⟨rfl, rfl⟩
  have hrx : d.onRxReceived = d₁.onPayload := by
    rw [hd₁]
    rfl
  rw [hrx]
  unfold onPayload
  split
  · split
    · exact .enters ⟨hstock₁.payloads, hstock₁.idx⟩
    · exact .stays hmode₁ hstock₁
  · rw [if_neg (by simp [hmode₁])]
    exact .stays hmode₁ hstock₁

/-- **The event handler in pairing mode**: the payload is read last. -/
theorem esbEvtIrq_pairing (hmode : d.gMode = .pairing) : Pairs d d.esbEvtIrq := by
  obtain ⟨d₁, hd₁⟩ : ∃ d₁ : Device, d₁ = { d with esb := (esbEvtIrqHandler d.esb).2 } := ⟨_, rfl⟩
  have hmode₁ : d₁.gMode = .pairing := hd₁ ▸ hmode
  have hstock₁ : SameStock d d₁ := hd₁ ▸ ⟨rfl, rfl⟩
  have hevt : d.esbEvtIrq = (esbEvtIrqHandler d.esb).1.foldl nrfEsbEventHandler d₁ := by
    rw [hd₁]
    rfl
  have hevents : (esbEvtIrqHandler d.esb).1 = [] ∨
      (esbEvtIrqHandler d.esb).1 = d.esb.interruptFlags.events d.esb.lastTxAttempts := by
    unfold esbEvtIrqHandler
    dsimp only
    split
    · exact .inl rfl
    · split
      · exact .inr rfl
      · exact .inl rfl
  rw [hevt]
  rcases hevents with hnone | hsome
  · rw [hnone]
    exact .stays hmode₁ hstock₁
  · rw [hsome]
    obtain ⟨success, failed, received⟩ := d.esb.interruptFlags
    obtain ⟨d₂, hd₂⟩ : ∃ d₂, d₂ = if success then d₁.onTxSuccess else d₁ := ⟨_, rfl⟩
    obtain ⟨d₃, hd₃⟩ : ∃ d₃, d₃ = if failed then d₂.onTxFailed else d₂ := ⟨_, rfl⟩
    have hrun : (InterruptFlags.events ⟨success, failed, received⟩ d.esb.lastTxAttempts).foldl
        nrfEsbEventHandler d₁ = if received then d₃.onRxReceived else d₃ := by
      rw [hd₃, hd₂]
      cases success <;> cases failed <;> cases received <;> rfl
    have h₂ : d₂.gMode = .pairing ∧ SameStock d d₂ := by
      rw [hd₂]
      split
      · obtain ⟨hm, hs⟩ := onTxSuccess_pairing hmode₁
        exact ⟨hm, hstock₁.trans hs⟩
      · exact ⟨hmode₁, hstock₁⟩
    have h₃ : d₃.gMode = .pairing ∧ SameStock d d₃ := by
      rw [hd₃]
      split
      · obtain ⟨hm, hs⟩ := onTxFailed_pairing h₂.1
        exact ⟨hm, h₂.2.trans hs⟩
      · exact h₂
    rw [hrun]
    split
    · exact .after h₃.2 (onRxReceived_pairing h₃.1)
    · exact .stays h₃.1 h₃.2

/-- The interval timer sends nothing. -/
theorem tick_stock (d : Device) : SameStock d d.intervalTimerEventHandler ∧
    d.intervalTimerEventHandler.gMode = d.gMode := by
  unfold intervalTimerEventHandler
  split
  · dsimp only
    split <;> exact ⟨⟨rfl, rfl⟩, rfl⟩
  · exact ⟨⟨rfl, rfl⟩, rfl⟩

/-! ## §5 The address of the data -/

/-- **Pipe 1 has the address of the record**: its base address is `sys_address_32`, and its prefix
    `dev_idx`. -/
structure Addressed (d : Device) : Prop where
  base : d.esb.radio.base1 = addrConv d.gDs.sysAddress32
  idx : ∃ pipePrefixes : FixedArray 8 UInt8, pipePrefixes.get 1 = d.gDs.devIdx ∧
    d.esb.radio.prefix0 = bytewiseBitSwap (loadWord pipePrefixes 0)

/-- The address of pipe 1 and the record are left alone. -/
structure KeepsAddress (d d' : Device) : Prop where
  mode : d'.gMode = d.gMode
  address : pipe1Address d'.esb = pipe1Address d.esb
  ds : d'.gDs = d.gDs

theorem KeepsAddress.addressed (h : KeepsAddress d d') (ha : Addressed d) : Addressed d' := by
  have hbase : d'.esb.radio.base1 = d.esb.radio.base1 := congrArg Prod.fst h.address
  have hpfx : d'.esb.radio.prefix0 = d.esb.radio.prefix0 := congrArg Prod.snd h.address
  constructor
  · rw [hbase, h.ds]
    exact ha.base
  · rw [hpfx, h.ds]
    exact ha.idx

theorem KeepsAddress.trans {d'' : Device} (h : KeepsAddress d d') (h' : KeepsAddress d' d'') :
    KeepsAddress d d'' :=
  ⟨h'.mode.trans h.mode, h'.address.trans h.address, h'.ds.trans h.ds⟩

/-- A call of the module that is none of the setters. -/
theorem keepsAddress_call {c : EsbCall} (hc : keepsPipe1Address c = true)
    (hmode : d'.gMode = d.gMode) (hesb : d'.esb = d.esb.exec c) (hds : d'.gDs = d.gDs) :
    KeepsAddress d d' :=
  ⟨hmode, hesb ▸ exec_pipe1Address d.esb hc, hds⟩

theorem keepsAddress_listenForBeacon (d : Device) : KeepsAddress d d.listenForBeacon := by
  have hhop : KeepsAddress d (hopChannel { d with gScanTimeout := beaconScanShortTimeoutMs }) :=
    keepsAddress_call (c := .setRfChannel (d.gaChlist.get (nextChIdx d.gCurChIdx).toNat).toUInt32)
      rfl rfl rfl rfl
  have hinit : KeepsAddress d ((hopChannel { d with
      gScanTimeout := beaconScanShortTimeoutMs }).callEsb (esbInit false)) :=
    hhop.trans (keepsAddress_call (c := .init (some (appEsbConfig false))) rfl rfl rfl rfl)
  exact hinit.trans (keepsAddress_call (c := .startRx) rfl rfl rfl rfl)

theorem keepsAddress_sendDeviceData (isRetransmit : Bool) (d : Device) :
    KeepsAddress d (sendDeviceData isRetransmit d) := by
  obtain ⟨idx, hidx⟩ : ∃ idx, idx =
      if isRetransmit then otherIdx d.gCurPayloadIdx else d.gCurPayloadIdx := ⟨_, rfl⟩
  obtain ⟨p, hp⟩ : ∃ p : NrfEsbPayload, p = { d.txDataPayload.get idx.toNat with noack := 0 } :=
    ⟨_, rfl⟩
  have hflush : KeepsAddress d (d.callEsb nrfEsbFlushTx) :=
    keepsAddress_call (c := .flushTx) rfl rfl rfl rfl
  refine hflush.trans (keepsAddress_call (c := .writePayload (some p)) rfl ?_ ?_ ?_)
  · cases isRetransmit <;> rfl
  · rw [hp, hidx]
    cases isRetransmit <;> rfl
  · cases isRetransmit <;> rfl

theorem keepsAddress_onBeacon (d : Device) : KeepsAddress d d.onBeacon := by
  obtain ⟨d₁, hd₁⟩ : ∃ d₁, d₁ =
      (intervalTimerStop { d with gSyncTimeout := beaconScanLongTimeoutMs }).callEsb nrfEsbStopRx :=
    ⟨_, rfl⟩
  have hstop : KeepsAddress d d₁ :=
    hd₁ ▸ keepsAddress_call (c := .stopRx) rfl rfl rfl rfl
  have hinit : ∀ isPtx, KeepsAddress d (d₁.callEsb (esbInit isPtx)) := fun isPtx =>
    hstop.trans (keepsAddress_call (c := .init (some (appEsbConfig isPtx))) rfl rfl rfl rfl)
  unfold onBeacon
  dsimp only
  rw [← hd₁]
  split
  · exact (hinit true).trans (keepsAddress_sendDeviceData _ _)
  · obtain ⟨hmode, haddr, hds⟩ := hinit false
    exact ⟨hmode, haddr, hds⟩

/-- **An event in normal mode.** -/
theorem keepsAddress_nrfEsbEventHandler (hmode : d.gMode = .normal) (event : NrfEsbEvt) :
    KeepsAddress d (d.nrfEsbEventHandler event) := by
  unfold nrfEsbEventHandler
  split
  · rw [onTxSuccess_normal hmode]
    exact keepsAddress_listenForBeacon d
  · have hflush : KeepsAddress d (d.callEsb nrfEsbFlushTx) :=
      keepsAddress_call (c := .flushTx) rfl rfl rfl rfl
    unfold onTxFailed
    dsimp only
    rw [show (d.callEsb nrfEsbFlushTx).gMode = .normal from hmode]
    exact hflush.trans (keepsAddress_listenForBeacon _)
  · obtain ⟨d₁, hd₁⟩ : ∃ d₁ : Device, d₁ = { d with
        esb := (nrfEsbReadRxPayload (some d.rxPayload) d.esb).2.2
        rxPayload := (nrfEsbReadRxPayload (some d.rxPayload) d.esb).2.1.getD d.rxPayload } :=
      ⟨_, rfl⟩
    have hread : KeepsAddress d d₁ :=
      hd₁ ▸ keepsAddress_call (c := .readRxPayload (some d.rxPayload)) rfl rfl rfl rfl
    have hrx : d.onRxReceived = d₁.onPayload := by
      rw [hd₁]
      rfl
    have hmode₁ : d₁.gMode = .normal := hread.mode.trans hmode
    rw [hrx]
    unfold onPayload
    rw [if_neg (by simp [hmode₁]), if_pos hmode₁]
    split
    · exact hread.trans (keepsAddress_onBeacon d₁)
    · exact hread

theorem keepsAddress_esbEvtIrq (hmode : d.gMode = .normal) : KeepsAddress d d.esbEvtIrq := by
  have hrun : ∀ (events : List NrfEsbEvt) (d : Device), d.gMode = .normal →
      KeepsAddress d (events.foldl nrfEsbEventHandler d) := by
    intro events
    induction events with
    | nil => exact fun _ _ => ⟨rfl, rfl, rfl⟩
    | cons event events ih =>
      intro d hd
      have hfirst := keepsAddress_nrfEsbEventHandler hd event
      exact hfirst.trans (ih _ (hfirst.mode.trans hd))
  have hcollect : KeepsAddress d { d with esb := (esbEvtIrqHandler d.esb).2 } :=
    keepsAddress_call (c := .evtIrq) rfl rfl rfl rfl
  exact hcollect.trans (hrun _ _ (hcollect.mode.trans hmode))

theorem keepsAddress_tick (d : Device) : KeepsAddress d d.intervalTimerEventHandler := by
  unfold intervalTimerEventHandler
  split
  · dsimp only
    split
    · obtain ⟨d₁, hd₁⟩ : ∃ d₁ : Device, d₁ = { d with
          gForceHopChannel := false
          gSyncTimeout := countDown d.gSyncTimeout
          gScanTimeout := if countDown d.gSyncTimeout = 0 then beaconScanLongTimeoutMs
            else beaconScanShortTimeoutMs } := ⟨_, rfl⟩
      have hstop : KeepsAddress d (d₁.callEsb nrfEsbStopRx) :=
        hd₁ ▸ keepsAddress_call (c := .stopRx) rfl rfl rfl rfl
      have hhop : KeepsAddress d (hopChannel (d₁.callEsb nrfEsbStopRx)) :=
        hstop.trans (keepsAddress_call (c := .setRfChannel
          (d₁.gaChlist.get (nextChIdx d₁.gCurChIdx).toNat).toUInt32) rfl rfl rfl rfl)
      have hstart : KeepsAddress d
          ((hopChannel (d₁.callEsb nrfEsbStopRx)).callEsb nrfEsbStartRx) :=
        hhop.trans (keepsAddress_call (c := .startRx) rfl rfl rfl rfl)
      exact hd₁ ▸ hstart
    · exact ⟨rfl, rfl, rfl⟩
  · exact ⟨rfl, rfl, rfl⟩

/-- **`enter_normal_mode`** sets the address of the record. -/
theorem addressed_enterNormalMode (d : Device) : Addressed d.enterNormalMode := by
  obtain ⟨s, hs⟩ : ∃ s, s = (nrfEsbInit (some (appEsbConfig false)) d.esb).2 := ⟨_, rfl⟩
  have hidle : s.mainstate = .idle := hs ▸ rfl
  have hbase : (nrfEsbSetBaseAddress1 (some d.gDs.sysAddress32) s).2 =
      updateRadioBase1 { s with esbAddr := { s.esbAddr with baseAddrP1 := d.gDs.sysAddress32 } } := by
    unfold nrfEsbSetBaseAddress1
    rw [if_neg (by simp [hidle])]
  obtain ⟨t, ht⟩ : ∃ t, t = (nrfEsbSetBaseAddress1 (some d.gDs.sysAddress32) s).2 := ⟨_, rfl⟩
  have hpfx : (nrfEsbUpdatePrefix 1 d.gDs.devIdx t).2 = updateRadioPrefixes { t with
      esbAddr := { t.esbAddr with pipePrefixes := t.esbAddr.pipePrefixes.set 1 d.gDs.devIdx } } := by
    unfold nrfEsbUpdatePrefix
    have hrest : t.mainstate = .idle := by
      rw [ht, hbase]
      exact hidle
    rw [if_neg (by simp [hrest]), if_neg (by decide)]
    rfl
  have hesb : d.enterNormalMode.esb = (nrfEsbUpdatePrefix 1 d.gDs.devIdx t).2 := by
    rw [ht, hs]
    rfl
  constructor
  · rw [hesb, hpfx, ht, hbase]
    rfl
  · refine ⟨t.esbAddr.pipePrefixes.set 1 d.gDs.devIdx, FixedArray.get_set_self _ _ (by decide), ?_⟩
    rw [hesb, hpfx]
    rfl

/-! ## §6 The invariant of a device -/

/-- A device, and the packets it has received without a CRC error. -/
structure Listener where
  device : Device
  /-- History variable. -/
  heard : List AirPacket

/-- Ten bytes are those of a packet. -/
def HeardBytes (heard : List AirPacket) (bytes : List UInt8) : Prop :=
  bytes.length = 10 → ∃ pkt ∈ heard, pkt.data = bytes

/-- What a device sends has another size. -/
theorem utters_heardBytes (heard : List AirPacket) : Utters (HeardBytes heard) := by
  have hother : ∀ p : NrfEsbPayload, p.length ≠ 10 → HeardBytes heard p.message := by
    intro p hp hlen
    rw [length_message] at hlen
    have hten : p.length.toNat = 10 := by
      simp only [nrfEsbMaxPayloadLength] at hlen
      omega
    exact absurd (UInt8.toNat_inj.mp hten) hp
  refine ⟨?_, fun x y => hother _ ?_, fun i => hother _ ?_⟩
  · exact fun hlen => absurd hlen (by decide)
  · show (2 : UInt8) ≠ 10
    decide
  · have htable : ∀ j : Fin 2, (initialTxDataPayload.get j).length ≠ 10 := by decide
    by_cases hi : i < 2
    · exact htable ⟨i, hi⟩
    · unfold FixedArray.get
      rw [dif_neg hi]
      decide

/-- More may have been heard. -/
theorem Sound.heardMore {heard more : List AirPacket} (h : Sound (HeardBytes heard) d) :
    Sound (HeardBytes (more ++ heard)) d := by
  have hmono : ∀ bytes, HeardBytes heard bytes → HeardBytes (more ++ heard) bytes := by
    intro bytes hbytes hlen
    obtain ⟨pkt, hpkt, hdata⟩ := hbytes hlen
    exact ⟨pkt, List.mem_append_right more hpkt, hdata⟩
  exact ⟨utters_heardBytes _, ⟨⟨h.esb.protocol, hmono _ h.esb.sent, fun i => hmono _ (h.esb.tx i),
    fun i => hmono _ (h.esb.rx i)⟩, h.esb.dpl⟩, hmono _ h.read, fun i => hmono _ (h.data i)⟩

/-- A device in normal mode is in its cycle, and pipe 1 has the address of its record. -/
structure Settled (d : Device) : Prop where
  cycle : ∃ q, Cycle d q
  addressed : Addressed d

/-- `enter_normal_mode` -/
theorem settled_enterNormalMode (d : Device) : Settled d.enterNormalMode := by
  obtain ⟨hidle, hblank⟩ := enterNormalMode_rests d
  exact ⟨⟨[], .rests hidle hblank⟩, addressed_enterNormalMode d⟩

/-- What leaves pairing mode is settled. -/
theorem Pairs.settled (h : Pairs d d') (hs : Stocked d) :
    Stocked d' ∧ (d'.gMode = .normal → Settled d') := by
  cases h with
  | stays hmode hstock =>
    exact ⟨hstock.stocked hs, fun hnormal => absurd (hmode.symm.trans hnormal) (by decide)⟩
  | @enters d₀ hstock =>
    obtain ⟨hidx, hdata⟩ := hstock.stocked hs
    exact ⟨⟨hidx, hdata⟩, fun _ => settled_enterNormalMode d₀⟩

namespace Listener

/-- The packet that an event brings in. -/
def hears (ev : RadioEvent) : List AirPacket := if ev.crcOk then ev.packet.toList else []

/-- One interrupt. -/
def step (l : Listener) : DeviceStep → Listener
  | .radioIrq ev => ⟨l.device.radioIrq ev, hears ev ++ l.heard⟩
  | .evtIrq => ⟨l.device.esbEvtIrq, l.heard⟩
  | .tick => ⟨l.device.intervalTimerEventHandler, l.heard⟩

/-- A packet that comes in has as many bytes as it claims. -/
def Enabled (l : Listener) : DeviceStep → Prop
  | .radioIrq ev => l.device.Enabled (.radioIrq ev) ∧
      ∀ pkt ∈ ev.packet, pkt.data.length = pkt.byte0.toNat
  | a => l.device.Enabled a

/-- The runs of a device from power-up, whatever comes in. -/
def machine : Machine Listener DeviceStep where
  start l := (∃ flash button1 button2, l.device = Device.main flash button1 button2) ∧ l.heard = []
  enabled := Enabled
  step := step

instance (l : Listener) : DecidablePred (machine.enabled l)
  | .radioIrq ev =>
    (inferInstance : Decidable (l.device.Enabled (.radioIrq ev) ∧
      ∀ pkt ∈ ev.packet, pkt.data.length = pkt.byte0.toNat))
  | .evtIrq => (inferInstance : Decidable (l.device.Enabled .evtIrq))
  | .tick => (inferInstance : Decidable (l.device.Enabled .tick))

/-- **The invariant.** -/
structure Inv (l : Listener) : Prop where
  sound : l.device.Sound (HeardBytes l.heard)
  stocked : Stocked l.device
  settled : l.device.gMode = .normal → Settled l.device

variable {l : Listener}

/-- The mode that `main` chooses. -/
theorem stocked_main (flash : DeviceData) (button1 button2 : Bool) :
    Stocked (Device.main flash button1 button2) ∧
      ((Device.main flash button1 button2).gMode = .normal →
        Settled (Device.main flash button1 button2)) := by
  have hboot : SameStock (Device.reset flash) (boot flash button2) := by
    unfold boot
    dsimp only
    split <;> exact ⟨rfl, rfl⟩
  have hmode : ∀ b : Device, Stocked b → ∀ d, d = intervalTimerStart
      (if b.gDs.devIdx = 0xff ∨ button1 then b.doPairing else b.enterNormalMode) →
      Stocked d ∧ (d.gMode = .normal → Settled d) := by
    rintro b ⟨hidx, hdata⟩ d rfl
    split
    · exact ⟨⟨hidx, hdata⟩, fun hmode => absurd hmode nofun⟩
    · obtain ⟨hidle, hblank⟩ := enterNormalMode_rests b
      obtain ⟨hbase, hpfx⟩ := addressed_enterNormalMode b
      exact ⟨⟨hidx, hdata⟩, fun _ => ⟨⟨[], .rests hidle hblank⟩, hbase, hpfx⟩⟩
  exact hmode (boot flash button2) (hboot.stocked (stocked_reset flash)) _ rfl

theorem inv_start (h : machine.start l) : Inv l := by
  obtain ⟨⟨flash, button1, button2, hmain⟩, -⟩ := h
  obtain ⟨hstocked, hsettled⟩ := stocked_main flash button1 button2
  rw [← hmain] at hstocked hsettled
  refine ⟨?_, hstocked, hsettled⟩
  rw [hmain]
  exact sound_main (utters_heardBytes _) flash button1 button2

/-- **Every step keeps the invariant.** -/
theorem inv_step {a : DeviceStep} (h : Inv l) (hen : l.Enabled a) : Inv (l.step a) := by
  cases a with
  | radioIrq ev =>
    refine ⟨?_, ⟨h.stocked.idx, h.stocked.data⟩, fun hmode => ?_⟩
    · refine (h.sound.heardMore.radioIrq fun pkt hpkt hcrc hlen => ?_).sound
      refine ⟨hen.2 pkt hpkt, fun _ => ⟨pkt, ?_, rfl⟩⟩
      simp [hears, hcrc, hpkt]
    · obtain ⟨⟨q, hq⟩, haddr⟩ := h.settled hmode
      have hkeeps : KeepsAddress l.device (l.device.radioIrq ev) :=
        keepsAddress_call (c := .radioIrq ev) rfl rfl rfl rfl
      exact ⟨hq.radioIrq hen.1 ev, hkeeps.addressed haddr⟩
  | evtIrq =>
    have hsound : Sound (HeardBytes l.heard) l.device.esbEvtIrq := h.sound.esbEvtIrq.sound
    cases hmode : l.device.gMode with
    | normal =>
      obtain ⟨⟨q, hq⟩, haddr⟩ := h.settled hmode
      have hevents := hq.esbEvtIrq hmode h.stocked
      exact ⟨hsound, hevents.stocked h.stocked, fun _ => ⟨hevents.cycle,
        (keepsAddress_esbEvtIrq hmode).addressed haddr⟩⟩
    | pairing =>
      obtain ⟨hstocked, hsettled⟩ := (esbEvtIrq_pairing hmode).settled h.stocked
      exact ⟨hsound, hstocked, hsettled⟩
  | tick =>
    obtain ⟨hstock, hmode⟩ := tick_stock l.device
    refine ⟨h.sound.tick.sound, hstock.stocked h.stocked, fun hnormal => ?_⟩
    obtain ⟨⟨q, hq⟩, haddr⟩ := h.settled (hmode.symm.trans hnormal)
    exact ⟨⟨q, (hq.tick hen).1⟩, (keepsAddress_tick l.device).addressed haddr⟩

/-! ## §7 Responses -/

/-- The beacon has been heard. -/
def Heard (l : Listener) (beacon : NrfEsbPayload) : Prop :=
  isBeaconPacket beacon = true ∧ ∃ pkt ∈ l.heard, pkt.data = beacon.message

/-- **What a step may change**: the answer to a beacon that was heard apart, a device counts down
    and hops with its timer, and hops after a packet of its own. -/
structure Responds (l : Listener) (a : DeviceStep) : Prop where
  sync : (l.step a).device.gSyncTimeout = l.device.gSyncTimeout ∨
    a = .tick ∧ (l.step a).device.gSyncTimeout = countDown l.device.gSyncTimeout ∨
    a = .evtIrq ∧ l.Heard (l.step a).device.rxPayload
  idx : (l.step a).device.gCurPayloadIdx = l.device.gCurPayloadIdx ∨
    a = .evtIrq ∧ l.Heard (l.step a).device.rxPayload ∧
      beaconRequest l.device.gDs.devIdx (l.step a).device.rxPayload = some false
  sends : (l.step a).device.esb.mainstate = .ptxTxAck → l.device.esb.mainstate = .ptxTxAck ∨
    a = .evtIrq ∧ l.Heard (l.step a).device.rxPayload ∧
      (beaconRequest l.device.gDs.devIdx (l.step a).device.rxPayload).isSome
  hop : (l.step a).device.gCurChIdx = l.device.gCurChIdx ∨ a = .tick ∨
    a = .evtIrq ∧ ∃ q, Done l.device q

/-- A receiver sends no data. -/
theorem polls_mainstate {s : Esb} {q : List NrfEsbPayload} (h : Box.Polls s q) :
    s.mainstate ≠ .ptxTxAck := by
  intro hmain
  rcases h.mainstate with hprx | hack
  · exact absurd (hprx.symm.trans hmain) nofun
  · exact absurd (hack.symm.trans hmain) nofun

/-- No radio interrupt starts a data packet. -/
theorem radioIrq_mainstate {q : List NrfEsbPayload} (h : Cycle d q)
    (hbusy : d.esb.mainstate ≠ .idle) (ev : RadioEvent) :
    (d.radioIrq ev).esb.mainstate ≠ .ptxTxAck := by
  cases h with
  | rests hidle | done hidle => exact absurd hidle.mainstate hbusy
  | sends hsends =>
    exact fun hmain => absurd ((hsends.sentBy ev).sends.mainstate.symm.trans hmain) nofun
  | listens hpolls => exact polls_mainstate (hpolls.radioIrq ev)
  | waits hwaits =>
    obtain ⟨-, -, hrests, -⟩ := hwaits.closedBy ev
    exact fun hmain => absurd (hrests.symm.trans hmain) nofun

/-- No tick does. -/
theorem tick_mainstate {q : List NrfEsbPayload} (h : Cycle d q)
    (htimer : d.intervalTimerRunning = true) :
    d.intervalTimerEventHandler.esb.mainstate ≠ .ptxTxAck := by
  intro hmain
  obtain ⟨-, p, hsends⟩ := (h.tick htimer).1.sendsData (.inl rfl) hmain
  have hrunning : d.intervalTimerEventHandler.intervalTimerRunning = d.intervalTimerRunning := by
    unfold intervalTimerEventHandler
    split
    · dsimp only
      split <;> rfl
    · rfl
  have hstopped := hsends.timer
  rw [hrunning, htimer] at hstopped
  cases hstopped

/-- **What the handler has read** was heard, if it is a beacon. -/
theorem heard_of_sound (h : d.Sound (HeardBytes l.heard))
    (hbeacon : isBeaconPacket d.rxPayload = true) : l.Heard d.rxPayload := by
  refine ⟨hbeacon, h.read ?_⟩
  simp only [isBeaconPacket, Bool.and_eq_true, beq_iff_eq] at hbeacon
  rw [length_message, hbeacon.1.1.2]
  decide

/-- **A handled payload**, in a device that has the record and the sync time-out of before, and
    does not send. -/
theorem responds_handled {d₁ : Device} (hd' : (l.step .evtIrq).device = d')
    (hsound : d'.Sound (HeardBytes l.heard)) (hds : d₁.gDs = l.device.gDs)
    (hidx : d₁.gCurPayloadIdx = l.device.gCurPayloadIdx)
    (hsync : d₁.gSyncTimeout = l.device.gSyncTimeout) (hmain : d₁.esb.mainstate ≠ .ptxTxAck)
    (hhop : d₁.gCurChIdx = l.device.gCurChIdx ∨ ∃ q, Done l.device q) (h : Handled d₁ d') :
    Responds l .evtIrq := by
  have hhop' : d'.gCurChIdx = d₁.gCurChIdx →
      d'.gCurChIdx = l.device.gCurChIdx ∨ DeviceStep.evtIrq = .tick ∨
        DeviceStep.evtIrq = .evtIrq ∧ ∃ q, Done l.device q := by
    intro hsame
    rcases hhop with hkept | hdone
    · exact .inl (hsame.trans hkept)
    · exact .inr (.inr ⟨rfl, hdone⟩)
  cases h with
  | ignored _ =>
    constructor
    all_goals rw [hd']
    · exact .inl hsync
    · exact .inl hidx
    · exact fun hsends => absurd hsends hmain
    · exact hhop' rfl
  | passed hbeacon hrequest hsame hread hch hlong hidle =>
    have hheard := heard_of_sound hsound (hread ▸ hbeacon)
    constructor
    all_goals rw [hd']
    · exact .inr (.inr ⟨rfl, hheard⟩)
    · exact .inl (hsame.idx.trans hidx)
    · exact fun hsends => absurd (hidle.mainstate.symm.trans hsends) nofun
    · exact hhop' hch
  | @answered _ isRetransmit hbeacon hrequest hanswers =>
    have hheard := heard_of_sound hsound (hanswers.read ▸ hbeacon)
    rw [hds, ← hanswers.read] at hrequest
    constructor
    all_goals rw [hd']
    · exact .inr (.inr ⟨rfl, hheard⟩)
    · cases isRetransmit with
      | true => exact .inl (hanswers.idx.trans hidx)
      | false => exact .inr ⟨rfl, hheard, hrequest⟩
    · exact fun _ => .inr ⟨rfl, hheard, by rw [hrequest]; rfl⟩
    · exact hhop' hanswers.chIdx

/-- **Every step of a device in normal mode responds to what was heard.** -/
theorem responds {a : DeviceStep} (h : Inv l) (hmode : l.device.gMode = .normal)
    (hen : l.Enabled a) : Responds l a := by
  obtain ⟨⟨q, hq⟩, -⟩ := h.settled hmode
  cases a with
  | radioIrq ev =>
    exact ⟨.inl rfl, .inl rfl, fun hsends => absurd hsends (radioIrq_mainstate hq hen.1 ev),
      .inl rfl⟩
  | tick =>
    obtain ⟨-, hframe⟩ := hq.tick hen
    exact ⟨.inr (.inl ⟨rfl, hframe.sync⟩), .inl hframe.same.idx,
      fun hsends => absurd hsends (tick_mainstate hq hen), .inr (.inl rfl)⟩
  | evtIrq =>
    have hsound : Sound (HeardBytes l.heard) l.device.esbEvtIrq := h.sound.esbEvtIrq.sound
    obtain ⟨d', hd'⟩ : ∃ d', l.device.esbEvtIrq = d' := ⟨_, rfl⟩
    have hstep : (l.step .evtIrq).device = d' := hd'
    have hevents := hq.esbEvtIrq hmode h.stocked
    rw [hd'] at hevents hsound
    cases hevents with
    | none hsame hread hsync hch hcycle hmain =>
      constructor
      all_goals rw [hstep]
      · exact .inl hsync
      · exact .inl hsame.idx
      · exact fun hsends => .inl (hmain.symm.trans hsends)
      · exact .inl hch
    | read hflag hreads hhandled =>
      refine responds_handled hstep hsound hreads.same.ds hreads.same.idx hreads.sync
        (polls_mainstate hreads.polls) (.inl hreads.chIdx) hhandled
    | ended hdone hempty hlistens =>
      constructor
      all_goals rw [hstep]
      · exact .inl hlistens.sync
      · exact .inl hlistens.same.idx
      · exact fun hsends => absurd hsends (polls_mainstate hlistens.polls)
      · exact .inr (.inr ⟨rfl, _, hdone⟩)
    | endedRead hdone hone hlistens hreads hhandled =>
      have hsame := hlistens.same.trans hreads.same
      exact responds_handled hstep hsound hsame.ds hsame.idx (hreads.sync.trans hlistens.sync)
        (polls_mainstate hreads.polls) (.inr ⟨_, hdone⟩) hhandled

end Listener

/-! ## §8 Isolation -/

/-- **What a device tells apart**: in normal mode it transmits data, restarts its time-out and
    steps its payload index in response to beacons that it has heard, of whatever boxes, and two
    runs are the same that differ in the boxes of these beacons only. Its data goes to pipe 1,
    with the address of its record. -/
theorem isolation_of_reachable {l : Listener} (h : Listener.machine.Reachable l)
    (hmode : l.device.gMode = .normal) :
    (∀ a, l.Enabled a → Listener.Responds l a) ∧
      (∀ (crcOf : AirPacket → UInt16) (es es' : List Hearing), List.Forall₂ Alike es es' →
        hearAll crcOf l.device es = hearAll crcOf l.device es') ∧
      Addressed l.device ∧
      (l.device.esb.mainstate = .ptxTxAck → ∃ p, SendsData l.device .ptxTxAck p) := by
  have hinv : Listener.Inv l := by
    apply h.invariant (I := Listener.Inv)
    · exact fun _ hs => Listener.inv_start hs
    · exact fun _ _ hs hen _ => Listener.inv_step hs hen
  obtain ⟨⟨q, hq⟩, haddr⟩ := hinv.settled hmode
  exact ⟨fun a hen => Listener.responds hinv hmode hen, fun crcOf es es' hes => hearAll_eq hes,
    haddr, fun hmain => (hq.sendsData (.inl rfl) hmain).2⟩

/-- The addresses of two systems. -/
def addressA : FixedArray 4 UInt8 := .replicate _ 7
def addressB : FixedArray 4 UInt8 := .replicate _ 9

/-- A box in normal mode. -/
def boxAt (chipId : FixedArray 4 UInt8) : Box :=
  Box.main chipId ⟨dsSignature, .load (.replicate _ 0) [5, 40, 70], 4, 2⟩ false (.replicate _ 0)

/-- A device that is paired with the box of the first system. -/
def pairedWithA : Listener :=
  ⟨Device.main ⟨dsSignature, .load (.replicate _ 0) [5, 40, 70], addressA, 1⟩ false false, []⟩

/-- The device listens, and hears the first beacon of a box. -/
def beaconRun (chipId : FixedArray 4 UInt8) : List Hearing :=
  [.own .tick, .beacon (boxAt chipId), .own .evtIrq]

/-- Is it a beacon of the box with this address? -/
def Hearing.isFrom (chipId : FixedArray 4 UInt8) : Hearing → Bool
  | .own _ => false
  | .beacon b => b.gBaseAddr1 == chipId

/-- The run without the beacons of the second system. -/
def quietRun : List Hearing := (beaconRun addressB).filter fun e => !e.isFrom addressB

/-- The first beacon of either box has the same effect, and pipe 1 has the address of the first
    system. -/
theorem isolation_pairedWithA :
    hearAll (fun _ => 0) pairedWithA.device (beaconRun addressA) =
        hearAll (fun _ => 0) pairedWithA.device (beaconRun addressB) ∧
      Addressed pairedWithA.device := by
  have hreach : Listener.machine.Reachable pairedWithA := .start ⟨⟨_, _, _, rfl⟩, rfl⟩
  obtain ⟨-, hsame, haddr, -⟩ := isolation_of_reachable hreach (by decide)
  refine ⟨hsame _ _ _ (.cons (.own _) (.cons ?_ (.cons (.own _) .nil))), haddr⟩
  exact .beacon (.start ⟨_, _, _, rfl⟩) (.start ⟨_, _, _, rfl⟩) (by decide) (by decide)
    (by decide +kernel) (by decide +kernel)

/-- **A foreign beacon makes a difference**: the device restarts its time-out, steps its payload
    index and transmits. -/
theorem not_isolated_foreignBeacon :
    addressA ≠ addressB ∧ pairedWithA.device.gDs.sysAddress32 = addressA ∧
      (Box.machine addressB).Reachable (boxAt addressB) ∧ (boxAt addressB).gMode = .normal ∧
      (hearAll (fun _ => 0) pairedWithA.device (beaconRun addressB)).gSyncTimeout ≠
        (hearAll (fun _ => 0) pairedWithA.device quietRun).gSyncTimeout ∧
      (hearAll (fun _ => 0) pairedWithA.device (beaconRun addressB)).gCurPayloadIdx ≠
        (hearAll (fun _ => 0) pairedWithA.device quietRun).gCurPayloadIdx ∧
      (hearAll (fun _ => 0) pairedWithA.device (beaconRun addressB)).esb.mainstate = .ptxTxAck ∧
      (hearAll (fun _ => 0) pairedWithA.device quietRun).esb.mainstate = .prx :=
  ⟨by decide, by decide, .start ⟨_, _, _, rfl⟩, by decide, by decide +kernel, by decide +kernel,
    by decide +kernel, by decide +kernel⟩

end Device

end NordicEsb
