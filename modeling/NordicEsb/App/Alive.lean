import NordicEsb.App.Requests
import NordicEsb.Lib.Machine

/-!
# A Pairing Device that Stays Alive

In pairing mode a device acts only in its event handler, and only a transmission makes the next
event. It starts one after every failed attempt and after the acknowledgment of its pairing
request, but not after an acknowledgment of its second request.

- `Alive`: a device in pairing mode is transmitting, or an event is pending.
- `Answered`: the second request is acknowledged with a payload of the size of `pair_info_t`.

**Main result** (`alive_of_reachable`): in a run whose steps are all `Answered`, the device is
alive in every state. A single step that is not ends in a dead state (`dead_of_unanswered`).
-/

namespace NordicEsb

namespace Device

/-! ## §1 Runs of a device -/

/-- What a device can do by itself: its interrupts. -/
inductive DeviceStep where
  | radioIrq (ev : RadioEvent)
  | evtIrq
  | tick

/-- One interrupt. -/
def step (d : Device) : DeviceStep → Device
  | .radioIrq ev => d.radioIrq ev
  | .evtIrq => d.esbEvtIrq
  | .tick => d.intervalTimerEventHandler

/-- The radio is disabled while the module rests, and the event interrupt has to be pending. -/
def Enabled (d : Device) : DeviceStep → Prop
  | .radioIrq _ => d.esb.mainstate ≠ .idle
  | .evtIrq => d.esb.evtIrqPending = true
  | .tick => d.intervalTimerRunning = true

instance (d : Device) : DecidablePred d.Enabled := fun a => by
  cases a <;> unfold Enabled <;> infer_instance

/-- A device that `main` has started in pairing mode. -/
def machine : Machine Device DeviceStep where
  start d := ∃ flash button1 button2, d = main flash button1 button2 ∧ d.gMode = .pairing
  enabled := Enabled
  step := step

instance (d : Device) (a : DeviceStep) : Decidable (machine.enabled d a) :=
  inferInstanceAs (Decidable (d.Enabled a))

/-- **A device in pairing mode will act again**: it transmits, or an event is pending. -/
def Alive (d : Device) : Prop :=
  d.gMode = .pairing → d.esb.mainstate ≠ .idle ∨ d.esb.evtIrqPending = true

instance : DecidablePred Alive := fun _ => inferInstanceAs (Decidable (_ → _))

/-- An acknowledgment of the request for the pairing record carries a payload of its size. -/
def Answered (d : Device) : DeviceStep → Prop
  | .radioIrq ev =>
    d.gMode = .pairing → d.gPairState = .waitForInfo → d.esb.mainstate = .ptxRxAck →
      acks ev = true → (ev.packet.map AirPacket.byte0) = some sizeofPairInfo
  | _ => True

instance (d : Device) : DecidablePred d.Answered := fun a => by
  cases a <;> unfold Answered <;> infer_instance

/-! ## §2 The invariant -/

/-- Nothing is left to the interval timer. -/
structure Timeless (d : Device) : Prop where
  scan : d.gScanTimeout = 0
  sync : d.gSyncTimeout = 0
  hop : d.gForceHopChannel = false

/-- The device sends the request `p` (`m = PTX_TX_ACK`) or waits for its acknowledgment
    (`m = PTX_RX_ACK`). -/
structure Asks (d : Device) (m : NrfEsbMainstate) : Prop where
  sends : ∃ p, Transmits d.esb m p
  rx : d.esb.rxFifo.Represents []
  flags : d.esb.interruptFlags = .clear

/-- The attempt is over, and the handler has not run yet: the request failed, or was acknowledged
    without or with a payload. -/
inductive Over (d : Device) : Prop where
  | failed : d.esb.rxFifo.Represents [] →
      d.esb.interruptFlags = { InterruptFlags.clear with txFailed := true } → Over d
  | empty : d.gPairState = .sendReq → d.esb.rxFifo.Represents [] →
      d.esb.interruptFlags = { InterruptFlags.clear with txSuccess := true } → Over d
  | answered (e : NrfEsbPayload) : (d.gPairState = .waitForInfo → e.length = sizeofPairInfo) →
      d.esb.rxFifo.Represents [e] →
      d.esb.interruptFlags =
        { InterruptFlags.clear with txSuccess := true, rxDataReceived := true } → Over d

/-- **The phases of a pairing device.** -/
inductive Phase (d : Device) : Prop where
  | sends : Asks d .ptxTxAck → Phase d
  | listens : Asks d .ptxRxAck → Phase d
  | ended : Idle true d.esb → d.esb.evtIrqPending = true → Over d → Phase d

/-- The invariant of a device from `do_pairing` on. -/
def Tries (d : Device) : Prop :=
  d.gMode = .pairing →
    Timeless d ∧ (d.gPairState = .sendReq ∨ d.gPairState = .waitForInfo) ∧ Phase d

theorem Tries.alive {d : Device} (h : Tries d) : Alive d := by
  intro hmode
  obtain ⟨-, -, hphase⟩ := h hmode
  cases hphase with
  | sends hasks =>
    obtain ⟨p, hp⟩ := hasks.sends
    exact .inl (by rw [hp.mainstate]; decide)
  | listens hasks =>
    obtain ⟨p, hp⟩ := hasks.sends
    exact .inl (by rw [hp.mainstate]; decide)
  | ended _ hpending _ => exact .inr hpending

/-! ## §3 Normal mode is not left -/

theorem onPayload_normal {d : Device} (h : d.gMode = .normal) : d.onPayload.gMode = .normal := by
  unfold onPayload
  rw [if_neg (by simp [h]), if_pos h]
  split
  · unfold onBeacon
    dsimp only
    split
    · rename_i isResend _
      cases isResend <;> exact h
    · exact h
  · exact h

theorem nrfEsbEventHandler_normal {d : Device} (h : d.gMode = .normal) (event : NrfEsbEvt) :
    (d.nrfEsbEventHandler event).gMode = .normal := by
  unfold nrfEsbEventHandler
  split
  · unfold onTxSuccess
    rw [h]
    exact h
  · have hflush : (d.callEsb nrfEsbFlushTx).gMode = .normal := h
    unfold onTxFailed
    dsimp only
    rw [hflush]
    exact hflush
  · exact onPayload_normal h

/-- **A device in normal mode stays there.** -/
theorem step_normal {d : Device} (h : d.gMode = .normal) (a : DeviceStep) :
    (d.step a).gMode = .normal := by
  cases a with
  | radioIrq ev => exact h
  | evtIrq =>
    show (List.foldl nrfEsbEventHandler { d with esb := (esbEvtIrqHandler d.esb).2 }
      (esbEvtIrqHandler d.esb).1).gMode = .normal
    generalize (esbEvtIrqHandler d.esb).1 = events
    have hfold : ∀ d' : Device, d'.gMode = .normal →
        (List.foldl nrfEsbEventHandler d' events).gMode = .normal := by
      induction events with
      | nil => exact fun d' hd' => hd'
      | cons event events ih => exact fun d' hd' => ih _ (nrfEsbEventHandler_normal hd' event)
    exact hfold _ h
  | tick =>
    show d.intervalTimerEventHandler.gMode = .normal
    unfold intervalTimerEventHandler
    split
    · dsimp only
      split <;> exact h
    · exact h

/-! ## §4 The phases -/

/-- Between requests the handler of the interval timer has nothing to do. -/
theorem boot_timeless (flash : DeviceData) (button2 : Bool) : Timeless (boot flash button2) := by
  unfold boot
  dsimp only
  split <;> exact ⟨rfl, rfl, rfl⟩

/-- A pairing device starts with a request. -/
theorem tries_main (flash : DeviceData) (button1 button2 : Bool) :
    Tries (main flash button1 button2) := by
  intro hmode
  obtain ⟨⟨p, hp⟩, -⟩ := requests_main hmode
  refine ⟨?_, ?_, .sends ⟨⟨p, hp.sends⟩, hp.rx, hp.flags⟩⟩
  all_goals
    unfold main at hmode ⊢
    dsimp only at hmode ⊢
    by_cases hpair : (boot flash button2).gDs.devIdx = 0xff ∨ button1
    · rw [if_pos hpair]
      have htime := boot_timeless flash button2
      first
      | exact ⟨htime.scan, htime.sync, htime.hop⟩
      | exact .inl rfl
    · rw [if_neg hpair] at hmode
      cases hmode

/-- **The radio interrupt** takes the device from one phase to the next. -/
theorem Phase.radioIrq {d : Device} (h : Phase d) (hmode : d.gMode = .pairing)
    (hbusy : d.esb.mainstate ≠ .idle) {ev : RadioEvent} (hans : d.Answered (.radioIrq ev))
    (hstate : d.gPairState = .sendReq ∨ d.gPairState = .waitForInfo) : Phase (d.radioIrq ev) := by
  cases h with
  | sends hasks =>
    obtain ⟨p, hp⟩ := hasks.sends
    obtain ⟨hsent, hrx, hflags⟩ := hp.sentBy ev
    have hrx' : (d.radioIrq ev).esb.rxFifo = d.esb.rxFifo := hrx
    exact .listens ⟨⟨p, hsent⟩, hrx' ▸ hasks.rx, hflags.trans hasks.flags⟩
  | listens hasks =>
    obtain ⟨p, hp⟩ := hasks.sends
    cases hack : acks ev with
    | false =>
      obtain ⟨hidle, hpending, hrx, hflags⟩ := hp.missedBy hack
      have hrx' : (d.radioIrq ev).esb.rxFifo = d.esb.rxFifo := hrx
      refine .ended hidle hpending (.failed (hrx' ▸ hasks.rx) ?_)
      rw [← hasks.flags]
      exact hflags
    | true =>
      obtain ⟨hpkt, hcrc⟩ := (Bool.and_eq_true _ _).mp hack
      obtain ⟨pkt, hpkt⟩ := Option.isSome_iff_exists.mp hpkt
      obtain ⟨hidle, hpending, -, hpayload⟩ := hp.ackedBy hasks.rx hpkt hcrc
      rw [hasks.flags] at hpayload
      have hsize : d.gPairState = .waitForInfo → pkt.byte0 = sizeofPairInfo := by
        intro hwait
        have hsome := hans hmode hwait hp.mainstate hack
        rw [hpkt] at hsome
        exact Option.some.inj hsome
      refine .ended hidle hpending ?_
      split at hpayload
      case isTrue hnone =>
        -- the record would have been received
        have hreq : d.gPairState = .sendReq := by
          refine hstate.resolve_right fun hwait => ?_
          rw [hsize hwait] at hnone
          exact absurd hnone (by decide)
        have hrx' : (d.radioIrq ev).esb.rxFifo = d.esb.rxFifo := hpayload.1
        exact .empty hreq (hrx' ▸ hasks.rx) hpayload.2
      case isFalse =>
        obtain ⟨⟨e, hrx, hlen, -⟩, hflags⟩ := hpayload
        exact .answered e (fun hwait => hlen.trans (hsize hwait)) hrx hflags
  | ended hidle _ _ => exact absurd hidle.mainstate hbusy

/-- The device as its handler finds it. -/
def cleared (d : Device) : Device :=
  { d with esb := { d.esb with evtIrqPending := false, interruptFlags := .clear } }

/-- After a failure the device keeps its state. -/
theorem onTxFailed_frame {d : Device} (h : d.gMode = .pairing) (ht : Timeless d) :
    Timeless d.onTxFailed ∧ d.onTxFailed.gPairState = d.gPairState := by
  have hflush : (d.callEsb nrfEsbFlushTx).gMode = .pairing := h
  unfold onTxFailed
  dsimp only
  rw [hflush]
  dsimp only
  split <;> exact ⟨⟨ht.scan, ht.sync, ht.hop⟩, rfl⟩

/-- A device that sends a request is in the first phase. -/
theorem tries_of_requests {d : Device} {p : NrfEsbPayload} (h : Requests d p) (ht : Timeless d)
    (hstate : d.gPairState = .sendReq ∨ d.gPairState = .waitForInfo) : Tries d :=
  fun _ => ⟨ht, hstate, .sends ⟨⟨p, h.sends⟩, h.rx, h.flags⟩⟩

/-- After a success the device asks for its record, once. -/
theorem onTxSuccess_sendReq {d : Device} (hmode : d.gMode = .pairing)
    (hreq : d.gPairState = .sendReq) :
    d.onTxSuccess = sendGetInfoReq { d with gPairState := .waitForInfo } := by
  simp only [onTxSuccess, hmode, hreq]

theorem onTxSuccess_waitForInfo {d : Device} (hmode : d.gMode = .pairing)
    (hwait : d.gPairState = .waitForInfo) : d.onTxSuccess = d := by
  simp only [onTxSuccess, hmode, hwait]

/-- Reading the only received payload. -/
theorem onRxReceived_one {d : Device} {e : NrfEsbPayload} (hinit : d.esb.esbInitialized = true)
    (hrx : d.esb.rxFifo.Represents [e]) :
    d.onRxReceived = onPayload { d with
      esb := { d.esb with rxFifo := d.esb.rxFifo.dropHead }
      rxPayload := copyRxPayload d.rxPayload e } := by
  have hcount : d.esb.rxFifo.count ≠ 0 := by
    have := hrx.pos_iff.mpr (by simp)
    omega
  unfold onRxReceived nrfEsbReadRxPayload
  simp only [hinit, Bool.not_true, Bool.false_eq_true, if_false, hcount, Option.getD_some,
    hrx.head_cons]

/-- **The payload of an acknowledgment** is the record, and ends the pairing mode, or is ignored
    while the next request goes out. -/
theorem tries_onRxReceived {d : Device} {e : NrfEsbPayload} (hmode : d.gMode = .pairing)
    (hwait : d.gPairState = .waitForInfo) (ht : Timeless d)
    (hinit : d.esb.esbInitialized = true) (hflags : d.esb.interruptFlags = .clear)
    (hrx : d.esb.rxFifo.Represents [e])
    (hsends : e.length = sizeofPairInfo ∨ ∃ p, Transmits d.esb .ptxTxAck p) :
    Tries d.onRxReceived := by
  obtain ⟨d₁, hd₁⟩ : ∃ d₁ : Device, d₁ = { d with
      esb := { d.esb with rxFifo := d.esb.rxFifo.dropHead }
      rxPayload := copyRxPayload d.rxPayload e } := ⟨_, rfl⟩
  have hmode₁ : d₁.gMode = .pairing := hd₁ ▸ hmode
  have hwait₁ : d₁.gPairState = .waitForInfo := hd₁ ▸ hwait
  have hlen₁ : d₁.rxPayload.length = e.length := hd₁ ▸ rfl
  rw [onRxReceived_one hinit hrx, ← hd₁]
  by_cases hlen : e.length = sizeofPairInfo
  · rw [onPayload_of_waitForInfo hmode₁ hwait₁ (hlen₁.trans hlen)]
    intro hpair
    cases hpair
  · obtain ⟨p, hp⟩ := hsends.resolve_left hlen
    have hignored : d₁.onPayload = d₁ := by
      unfold onPayload
      rw [if_pos ⟨hmode₁, hwait₁⟩, if_neg (hlen₁ ▸ hlen)]
    have hpos : 0 < d.esb.rxFifo.count := hrx.pos_iff.mpr (by simp)
    rw [hignored, hd₁]
    exact fun _ => ⟨⟨ht.scan, ht.sync, ht.hop⟩, .inr hwait, .sends ⟨⟨p, hp.initialized, hp.config,
      hp.mainstate, hp.handler, hp.inten, hp.fifo, hp.attempts, hp.air⟩, hrx.dropHead hpos, hflags⟩⟩

/-- **The event handler** sends the next request, or leaves the pairing mode. -/
theorem Tries.esbEvtIrq {d : Device} (h : Tries d) (hmode : d.gMode = .pairing) :
    Tries d.esbEvtIrq := by
  obtain ⟨htime, hstate, hphase⟩ := h hmode
  have htime₀ : Timeless d.cleared := ⟨htime.scan, htime.sync, htime.hop⟩
  cases hphase with
  -- on its way, or waiting for the acknowledgment: there is no event yet
  | sends hasks =>
    obtain ⟨p, hp⟩ := hasks.sends
    have hnone : d.esbEvtIrq = d.cleared := by
      rw [esbEvtIrq_eq hp.initialized hp.config, hasks.flags]
      rfl
    rw [hnone]
    exact fun _ => ⟨htime₀, hstate, .sends ⟨⟨p, hp.collect⟩, hasks.rx, rfl⟩⟩
  | listens hasks =>
    obtain ⟨p, hp⟩ := hasks.sends
    have hnone : d.esbEvtIrq = d.cleared := by
      rw [esbEvtIrq_eq hp.initialized hp.config, hasks.flags]
      rfl
    rw [hnone]
    exact fun _ => ⟨htime₀, hstate, .listens ⟨⟨p, hp.collect⟩, hasks.rx, rfl⟩⟩
  | ended hidle _ hover =>
    have hidle₀ : Idle true d.cleared.esb := ⟨hidle.initialized, hidle.config, hidle.mainstate⟩
    have hevents := esbEvtIrq_eq hidle.initialized hidle.config
    cases hover with
    -- no acknowledgment: the request is sent again
    | failed hrx hflags =>
      have hrests : Rests d.cleared := ⟨hmode, hidle₀, hrx, rfl⟩
      have hfailed : d.esbEvtIrq = d.cleared.onTxFailed := by
        rw [hevents, hflags]
        rfl
      obtain ⟨⟨p, hp⟩, -⟩ := hrests.onTxFailed
      obtain ⟨ht, hkept⟩ := onTxFailed_frame hrests.mode htime₀
      rw [hfailed]
      exact tries_of_requests hp ht (by rw [hkept]; exact hstate)
    -- an acknowledgment without payload: the next request
    | empty hreq hrx hflags =>
      have hrests : Rests { d.cleared with gPairState := .waitForInfo } :=
        ⟨hmode, hidle₀, hrx, rfl⟩
      have hsuccess : d.esbEvtIrq =
          sendGetInfoReq { d.cleared with gPairState := .waitForInfo } := by
        rw [hevents, hflags]
        exact onTxSuccess_sendReq (d := d.cleared) hmode hreq
      obtain ⟨p, hp⟩ := hrests.send idPairInfoGet 0
      rw [hsuccess, sendGetInfoReq_eq]
      exact tries_of_requests hp ⟨htime.scan, htime.sync, htime.hop⟩ (.inr rfl)
    | answered e hsize hrx hflags =>
      have hboth : d.esbEvtIrq = d.cleared.onTxSuccess.onRxReceived := by
        rw [hevents, hflags]
        rfl
      rw [hboth]
      rcases hstate with hreq | hwait
      · -- the acknowledgment of the pairing request: the next request is under way
        rw [onTxSuccess_sendReq (d := d.cleared) hmode hreq, sendGetInfoReq_eq]
        have hlen : 0 < (request idPairInfoGet 0).length.toNat ∧
            (request idPairInfoGet 0).length.toNat ≤ nrfEsbMaxPayloadLength := by
          rw [show (request idPairInfoGet 0).length = 2 from rfl]
          decide
        obtain ⟨hsends, hrx', hflags'⟩ := hidle₀.flushWrite hlen
        exact tries_onRxReceived hmode rfl ⟨htime.scan, htime.sync, htime.hop⟩ hsends.initialized
          (hflags'.trans rfl) (hrx' ▸ hrx) (.inr ⟨_, hsends⟩)
      · rw [onTxSuccess_waitForInfo (d := d.cleared) hmode hwait]
        exact tries_onRxReceived hmode hwait htime₀ hidle₀.initialized rfl hrx (.inl (hsize hwait))

/-- **Every step keeps the invariant.** -/
theorem tries_step {d : Device} {a : DeviceStep} (h : Tries d) (hen : d.Enabled a)
    (hans : d.Answered a) : Tries (d.step a) := by
  cases hmode : d.gMode with
  | normal =>
    intro hpair
    rw [step_normal hmode] at hpair
    cases hpair
  | pairing =>
    obtain ⟨htime, hstate, hphase⟩ := h hmode
    cases a with
    | radioIrq ev =>
      exact fun _ => ⟨⟨htime.scan, htime.sync, htime.hop⟩, hstate,
        hphase.radioIrq hmode hen hans hstate⟩
    | evtIrq => exact h.esbEvtIrq hmode
    | tick =>
      have hnothing : d.intervalTimerEventHandler = d := by
        unfold intervalTimerEventHandler
        rw [if_neg (by simp [htime.scan, htime.sync, htime.hop])]
      show Tries d.intervalTimerEventHandler
      rw [hnothing]
      exact h

/-- **No dead pairing state**: in a run in which every record that is asked for comes, a device in
    pairing mode transmits or has an event pending. -/
theorem alive_of_reachable {d : Device} (h : machine.ReachableUnder Answered d) : Alive d := by
  have htries : Tries d := by
    refine h.invariant ?_ fun _ _ hi hen hans => tries_step hi hen hans
    rintro _ ⟨flash, button1, button2, rfl, -⟩
    exact tries_main flash button1 button2
  exact htries.alive

/-! ## §5 The dead state -/

/-- **An acknowledgment without the record** leaves the device dead: its module rests, and no event
    is pending. -/
theorem dead_of_unanswered {d : Device} (h : Tries d) {ev : RadioEvent}
    (hans : ¬ d.Answered (.radioIrq ev)) : ¬ Alive (d.radioIrq ev).esbEvtIrq := by
  unfold Answered at hans
  push Not at hans
  obtain ⟨hmode, hwait, hmain, hack, hsize⟩ := hans
  obtain ⟨hpkt, hcrc⟩ := (Bool.and_eq_true _ _).mp hack
  obtain ⟨pkt, hpkt⟩ := Option.isSome_iff_exists.mp hpkt
  have hlen : pkt.byte0 ≠ sizeofPairInfo := by
    rw [hpkt] at hsize
    exact fun heq => hsize (congrArg some heq)
  obtain ⟨-, -, hphase⟩ := h hmode
  cases hphase with
  -- these two do not wait for an acknowledgment
  | sends hasks =>
    obtain ⟨p, hp⟩ := hasks.sends
    rw [hp.mainstate] at hmain
    cases hmain
  | ended hidle _ _ =>
    rw [hidle.mainstate] at hmain
    cases hmain
  | listens hasks =>
    obtain ⟨p, hp⟩ := hasks.sends
    obtain ⟨hidle, -, -, hpayload⟩ := hp.ackedBy hasks.rx hpkt hcrc
    rw [hasks.flags] at hpayload
    obtain ⟨d₁, hd₁⟩ : ∃ d₁, d₁ = d.radioIrq ev := ⟨_, rfl⟩
    have hesb : radioIrqHandler ev d.esb = d₁.esb := by
      rw [hd₁]
      rfl
    rw [hesb] at hidle hpayload
    have hevents : d₁.esbEvtIrq = _ := esbEvtIrq_eq hidle.initialized hidle.config
    have hmode₁ : d₁.cleared.gMode = .pairing := hd₁ ▸ hmode
    have hwait₁ : d₁.cleared.gPairState = .waitForInfo := hd₁ ▸ hwait
    -- Nothing is on its way and no event is pending.
    have hdead : ∀ d' : Device, d'.gMode = .pairing → d'.esb.mainstate = d₁.esb.mainstate →
        d'.esb.evtIrqPending = false → ¬ Alive d' := by
      intro d' hm hrest hnone halive
      rcases halive hm with hbusy | hpending
      · exact hbusy (hrest.trans hidle.mainstate)
      · rw [hnone] at hpending
        cases hpending
    rw [← hd₁]
    split at hpayload
    case isTrue =>
      have hsuccess : d₁.esbEvtIrq = d₁.cleared := by
        rw [hevents, hpayload.2]
        exact onTxSuccess_waitForInfo hmode₁ hwait₁
      rw [hsuccess]
      exact hdead _ hmode₁ rfl rfl
    case isFalse =>
      obtain ⟨⟨e, hrx, helen, -⟩, hflags⟩ := hpayload
      have hignored : d₁.esbEvtIrq = { d₁.cleared with
          esb := { d₁.cleared.esb with rxFifo := d₁.esb.rxFifo.dropHead }
          rxPayload := copyRxPayload d₁.rxPayload e } := by
        rw [hevents, hflags]
        show d₁.cleared.onTxSuccess.onRxReceived = _
        rw [onTxSuccess_waitForInfo hmode₁ hwait₁,
          onRxReceived_one (d := d₁.cleared) hidle.initialized hrx]
        have hother : (copyRxPayload d₁.cleared.rxPayload e).length ≠ sizeofPairInfo :=
          fun heq => hlen (helen.symm.trans heq)
        unfold onPayload
        rw [if_pos ⟨hmode₁, hwait₁⟩, if_neg hother]
        rfl
      rw [hignored]
      exact hdead _ hmode₁ rfl rfl

/-- A device with erased flash that `main` has started. -/
def freshDevice : Device :=
  main ⟨0xffffffff, .replicate _ 0xff, .replicate _ 0xff, 0xff⟩ false false

theorem freshDevice_start : machine.start freshDevice := ⟨_, _, _, rfl, rfl⟩

/-- One attempt without an acknowledgment. -/
def missedRun : List DeviceStep := [.radioIrq .silent, .radioIrq .silent, .evtIrq]

/-- An empty acknowledgment. -/
def emptyAck : RadioEvent := .received ⟨0, 0, 0, []⟩ 0

/-- Both requests are acknowledged without a payload. -/
def unansweredRun : List DeviceStep :=
  [.radioIrq .silent, .radioIrq emptyAck, .evtIrq, .radioIrq .silent, .radioIrq emptyAck, .evtIrq]

/-- After a missed attempt the device is alive. -/
theorem alive_run_missed : machine.ReachableUnder Answered (machine.run freshDevice missedRun) ∧
    Alive (machine.run freshDevice missedRun) :=
  have hreach : machine.ReachableUnder Answered (machine.run freshDevice missedRun) :=
    .of_follows (.start freshDevice_start) (by decide)
  ⟨hreach, alive_of_reachable hreach⟩

/-- After two empty acknowledgments it is dead. -/
theorem not_alive_run_unanswered :
    machine.Reachable (machine.run freshDevice unansweredRun) ∧
      ¬ Alive (machine.run freshDevice unansweredRun) :=
  ⟨.of_follows (.start freshDevice_start) (by decide), by decide⟩

end Device

end NordicEsb
