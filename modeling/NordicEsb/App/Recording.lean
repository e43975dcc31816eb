import NordicEsb.App.Polling
import NordicEsb.Lib.Machine

/-!
# Data Recording

The box in normal mode hears the packets of its paired devices, its event handler sets their
bits in `g_devs_data_recv_mask`, and every beacon either starts a new frame or asks for the
devices whose bits are missing. Radio, event handler and timer interleave freely.

The handler reads one payload and flushes the others, and a tick discards what is unread. So
a device that was heard and acknowledged may still be asked to send again.

- `recorded_of_reachable`: the bits are those of the devices heard in this frame, in every run
  in which no packet of a new device is discarded unread.
-/

namespace NordicEsb

/-! ## §1 Runs of the box -/

/-- The box, with what it has heard since the last beacon that asked for new data. -/
structure Recording where
  box : Box
  /-- History variable: the pipes of packets of 32 bytes that were accepted and acknowledged. -/
  heard : List ℕ
  /-- History variable: the pipes of packets of 32 bytes that were acknowledged. -/
  acked : List ℕ

/-- The interrupts of the box. -/
inductive RecordingAction where
  | radioIrq (ev : RadioEvent)
  | evtIrq
  | tick
deriving DecidableEq

namespace Recording

/-- The packet comes from a paired device, and wants an acknowledgment. -/
def FromPaired (b : Box) (pkt : AirPacket) : Prop :=
  (1 ≤ pkt.pipe.val ∧ pkt.pipe.val ≤ 6) ∧ hasDevice b.gDevsPairedMask pkt.pipe.val = true ∧
    pkt.byte1 &&& 0x01 = 0

instance (b : Box) (pkt : AirPacket) : Decidable (FromPaired b pkt) :=
  inferInstanceAs (Decidable (_ ∧ _))

/-- The radio fires while it is in use, and receives while the box listens. -/
def RadioEnabled (b : Box) (ev : RadioEvent) : Prop :=
  match ev.packet with
  | none => b.esb.mainstate ≠ .idle
  | some pkt => b.esb.mainstate = .prx ∧ (ev.crcOk = true → FromPaired b pkt)

/-- What may happen next. -/
def Enabled (r : Recording) : RecordingAction → Prop
  | .radioIrq ev => r.box.systemReset = false ∧ RadioEnabled r.box ev
  | .evtIrq => r.box.systemReset = false ∧ r.box.esb.evtIrqPending = true
  | .tick => r.box.systemReset = false ∧ r.box.intervalTimerRunning = true

instance (b : Box) (ev : RadioEvent) : Decidable (RadioEnabled b ev) := by
  unfold RadioEnabled
  split <;> infer_instance

instance (r : Recording) (a : RecordingAction) : Decidable (Enabled r a) := by
  cases a <;> unfold Enabled <;> infer_instance

/-- The pipe of the packet that comes in with `ev`, if it is accepted and acknowledged and has
    32 bytes. -/
def heardWith (b : Box) (ev : RadioEvent) : List ℕ :=
  if b.esb.mainstate = .prx ∧ storesRx (ev.latch b.esb) = true ∧
      ackRequested (ev.latch b.esb) = true ∧ rxPushLength (ev.latch b.esb) = 32 then
    [(rxmatchByte (ev.latch b.esb)).toNat]
  else []

/-- The same for a packet that is acknowledged, even if it is taken for a retransmission. -/
def ackedWith (b : Box) (ev : RadioEvent) : List ℕ :=
  if b.esb.mainstate = .prx ∧ acceptsRx (ev.latch b.esb) = true ∧
      ackRequested (ev.latch b.esb) = true ∧ rxPushLength (ev.latch b.esb) = 32 then
    [(rxmatchByte (ev.latch b.esb)).toNat]
  else []

/-- The last beacon started a frame. -/
def sentNewData (b : Box) : Bool := b.gBeacon.data.get 2 == beaconByte3NewData

/-- One step of the box. -/
def step (r : Recording) : RecordingAction → Recording
  | .radioIrq ev =>
    { box := r.box.radioIrq ev
      heard := heardWith r.box ev ++ r.heard
      acked := ackedWith r.box ev ++ r.acked }
  | .evtIrq => { r with box := r.box.esbEvtIrq }
  | .tick =>
    { box := r.box.intervalTimerEventHandler
      -- a beacon that asks for new data starts the next frame
      heard := if sentNewData r.box.intervalTimerEventHandler then [] else r.heard
      acked := if sentNewData r.box.intervalTimerEventHandler then [] else r.acked }

/-- A box that has entered normal mode: nothing is recorded, nothing is unread. -/
structure EntersNormal (b : Box) : Prop where
  mode : b.gMode = .normal
  recv : b.gDevsDataRecvMask = 0
  beacon : b.gBeacon.length = 10
  phase : Box.Phase b.esb []

/-- The runs of a box in normal mode. -/
def machine : Machine Recording RecordingAction where
  start r := EntersNormal r.box ∧ r.heard = [] ∧ r.acked = []
  enabled := Enabled
  step := step

instance (r : Recording) (a : RecordingAction) : Decidable (machine.enabled r a) :=
  inferInstanceAs (Decidable (Enabled r a))

/-- **The bits of the mask** are those of the paired devices heard in this frame. -/
def Recorded (r : Recording) : Prop :=
  ∀ p, 1 ≤ p → p ≤ 6 → (hasDevice r.box.gDevsDataRecvMask p = true ↔
    hasDevice r.box.gDevsPairedMask p = true ∧ p ∈ r.heard)

/-- The last beacon asks device `p` to send again. -/
def AsksAgain (b : Box) (p : ℕ) : Prop :=
  b.gBeacon.data.get 2 = beaconByte3Resend ∧ hasDevice (b.gBeacon.data.get 3) p = true

/-! ## §2 What must not be discarded -/

/-- A payload of 32 bytes whose device has no bit in the mask. -/
def IsNew (mask : UInt8) (e : NrfEsbPayload) : Prop :=
  e.length = 32 ∧ hasDevice mask e.pipe.toNat = false

instance (mask : UInt8) (e : NrfEsbPayload) : Decidable (IsNew mask e) :=
  inferInstanceAs (Decidable (_ ∧ _))

/-- **No packet of a new device is discarded**: the handler runs before a second new device is
    heard, a tick comes when nothing new is unread, and a packet taken for a retransmission
    repeats one that was heard. -/
def NothingLost (r : Recording) : RecordingAction → Prop
  | .radioIrq ev => ∀ p ∈ ackedWith r.box ev, p ∈ heardWith r.box ev ∨ p ∈ r.heard
  | .evtIrq => r.box.esb.interruptFlags.rxDataReceived = true →
      ∀ e ∈ r.box.esb.rxFifo.toList.tail, IsNew r.box.gDevsDataRecvMask e →
        r.box.esb.rxFifo.head.length = 32 ∧ r.box.esb.rxFifo.head.pipe = e.pipe
  | .tick => ∀ e ∈ r.box.esb.rxFifo.toList, ¬ IsNew r.box.gDevsDataRecvMask e

instance (r : Recording) (a : RecordingAction) : Decidable (NothingLost r a) := by
  cases a <;> unfold NothingLost <;> infer_instance

/-! ## §3 The invariant -/

/-- Unread payloads come from paired devices; the bits and the unread payloads together are
    what was heard. -/
structure Inv (r : Recording) (q : List NrfEsbPayload) : Prop where
  mode : r.box.gMode = .normal
  beacon : r.box.gBeacon.length = 10
  phase : Box.Phase r.box.esb q
  unread : ∀ e ∈ q, (1 ≤ e.pipe.toNat ∧ e.pipe.toNat ≤ 6) ∧
    hasDevice r.box.gDevsPairedMask e.pipe.toNat = true
  paired : ∀ p, 1 ≤ p → p ≤ 6 → hasDevice r.box.gDevsDataRecvMask p = true →
    hasDevice r.box.gDevsPairedMask p = true
  heard : ∀ p, 1 ≤ p → p ≤ 6 → (p ∈ r.heard ↔ hasDevice r.box.gDevsDataRecvMask p = true ∨
    ∃ e ∈ q, e.length = 32 ∧ e.pipe.toNat = p)
  range : ∀ p ∈ r.heard, 1 ≤ p ∧ p ≤ 6
  acked : ∀ p ∈ r.acked, p ∈ r.heard

theorem inv_start {r : Recording} (h : machine.start r) : Inv r [] := by
  obtain ⟨hnormal, hheard, hacked⟩ := h
  refine ⟨hnormal.mode, hnormal.beacon, hnormal.phase, nofun, ?_, ?_, ?_, ?_⟩
  · intro p _ _ hbit
    rw [hnormal.recv, hasDevice_zero] at hbit
    cases hbit
  · intro p _ _
    rw [hheard, hnormal.recv]
    simp
  · rw [hheard]
    nofun
  · rw [hacked]
    nofun

/-- A packet that is accepted comes from a paired device. -/
theorem fromPaired_of_accepts {b : Box} {ev : RadioEvent} (hen : RadioEnabled b ev)
    (hacc : acceptsRx (ev.latch b.esb) = true) :
    (1 ≤ (rxmatchByte (ev.latch b.esb)).toNat ∧ (rxmatchByte (ev.latch b.esb)).toNat ≤ 6) ∧
      hasDevice b.gDevsPairedMask (rxmatchByte (ev.latch b.esb)).toNat = true ∧
      ackRequested (ev.latch b.esb) = true := by
  rw [rxmatchByte_toNat]
  simp only [acceptsRx, Bool.and_eq_true] at hacc
  obtain ⟨hcrc, -⟩ := hacc
  unfold RadioEnabled at hen
  unfold RadioEvent.latch at hcrc ⊢
  cases hpkt : ev.packet with
  | none =>
    rw [hpkt] at hcrc
    cases hcrc
  | some pkt =>
    rw [hpkt] at hen hcrc
    obtain ⟨hpipe, hpaired, hack⟩ := hen.2 hcrc
    refine ⟨hpipe, hpaired, ?_⟩
    simp only [ackRequested, hack, beq_self_eq_true, Bool.or_true]

/-- The radio fires while it is in use. -/
theorem RadioEnabled.busy {b : Box} {ev : RadioEvent} (h : RadioEnabled b ev) :
    b.esb.mainstate ≠ .idle := by
  unfold RadioEnabled at h
  cases hpkt : ev.packet with
  | none => rwa [hpkt] at h
  | some pkt =>
    rw [hpkt] at h
    rw [h.1]
    decide

/-- Only a box that listens receives anything. -/
theorem RadioEnabled.silent {b : Box} {ev : RadioEvent} (h : RadioEnabled b ev)
    (hprx : b.esb.mainstate ≠ .prx) :
    radioIrqHandler ev b.esb = radioIrqHandler .silent b.esb := by
  unfold RadioEnabled at h
  cases hpkt : ev.packet with
  | none =>
    have hlatch : ev.latch b.esb = RadioEvent.silent.latch b.esb := by
      unfold RadioEvent.latch
      rw [hpkt]
      rfl
    rw [radioIrqHandler_eq, radioIrqHandler_eq, hlatch]
  | some pkt =>
    rw [hpkt] at h
    exact absurd h.1 hprx

/-- What is added to the unread payloads is the packet that came in. -/
theorem mem_addedBy {ev : RadioEvent} {s : Esb} {e : NrfEsbPayload} :
    e ∈ Box.addedBy ev s ↔
      (s.mainstate = .prx ∧ storesRx (ev.latch s) = true) ∧ e = receivedEntry (ev.latch s) := by
  unfold Box.addedBy
  split
  case isTrue hst => simp [hst]
  case isFalse hst => simp only [hst, false_and, List.not_mem_nil]

/-- **What is heard** is what is added with 32 bytes. -/
theorem mem_heardWith {b : Box} {ev : RadioEvent} (hen : RadioEnabled b ev) (p : ℕ) :
    p ∈ heardWith b ev ↔
      ∃ e ∈ Box.addedBy ev b.esb, e.length = 32 ∧ e.pipe.toNat = p := by
  simp only [mem_addedBy]
  unfold heardWith
  split
  case isTrue hst =>
    rw [List.mem_singleton]
    constructor
    · rintro rfl
      exact ⟨_, ⟨⟨hst.1, hst.2.1⟩, rfl⟩, hst.2.2.2, rfl⟩
    · rintro ⟨e, ⟨-, rfl⟩, -, hpipe⟩
      exact hpipe.symm
  case isFalse hst =>
    refine ⟨nofun, ?_⟩
    rintro ⟨e, ⟨⟨hprx, hstores⟩, rfl⟩, hlen, -⟩
    -- the packet of a paired device wants an acknowledgment
    have hacc : acceptsRx (ev.latch b.esb) = true := by
      simp only [storesRx, Bool.and_eq_true] at hstores
      exact hstores.1.1
    exact absurd ⟨hprx, hstores, (fromPaired_of_accepts hen hacc).2.2, hlen⟩ hst

/-- **The radio** adds to the unread payloads what it adds to the devices heard. -/
theorem inv_radioIrq {r : Recording} {q : List NrfEsbPayload} {ev : RadioEvent} (h : Inv r q)
    (hen : RadioEnabled r.box ev) (hC : NothingLost r (.radioIrq ev)) :
    Inv (r.step (.radioIrq ev)) (q ++ Box.addedBy ev r.box.esb) := by
  -- What is added comes from a paired device.
  have hnew : ∀ e ∈ Box.addedBy ev r.box.esb, (1 ≤ e.pipe.toNat ∧ e.pipe.toNat ≤ 6) ∧
      hasDevice r.box.gDevsPairedMask e.pipe.toNat = true := by
    intro e he
    obtain ⟨⟨-, hstores⟩, rfl⟩ := mem_addedBy.mp he
    simp only [storesRx, Bool.and_eq_true] at hstores
    obtain ⟨hrange, hpaired, -⟩ := fromPaired_of_accepts hen hstores.1.1
    exact ⟨hrange, hpaired⟩
  refine ⟨h.mode, h.beacon, ?_, ?_, h.paired, ?_, ?_, ?_⟩
  · have hphase := h.phase
    cases hphase with
    | asleep _ hidle _ => exact absurd hidle hen.busy
    | sent hidle _ _ => exact absurd hidle.mainstate hen.busy
    -- while the beacon is on the air nothing is received
    | sends hbeacon =>
      obtain ⟨p, htransmits, -⟩ := hbeacon.transmits
      have hprx : r.box.esb.mainstate ≠ .prx := by
        rw [htransmits.mainstate]
        decide
      have hadded : Box.addedBy ev r.box.esb = [] := if_neg fun hst => hprx hst.1
      have hsilent := hen.silent hprx
      rw [hadded]
      change Box.Phase (radioIrqHandler ev r.box.esb) []
      rw [hsilent]
      exact hbeacon.radioIrq
    | listens hpolls => exact .listens (hpolls.radioIrq ev)
  · intro e he
    rcases List.mem_append.mp he with he | he
    · exact h.unread e he
    · exact hnew e he
  · intro p h1 h6
    have hold := h.heard p h1 h6
    have hadd := mem_heardWith hen p
    simp only [step, List.mem_append, hadd, hold]
    constructor
    · rintro (⟨e, he, h32⟩ | hbit | ⟨e, he, h32⟩)
      · exact .inr ⟨e, .inr he, h32⟩
      · exact .inl hbit
      · exact .inr ⟨e, .inl he, h32⟩
    · rintro (hbit | ⟨e, he | he, h32⟩)
      · exact .inr (.inl hbit)
      · exact .inr (.inr ⟨e, he, h32⟩)
      · exact .inl ⟨e, he, h32⟩
  · intro p hp
    rcases List.mem_append.mp hp with hp | hp
    · obtain ⟨e, he, -, rfl⟩ := (mem_heardWith hen p).mp hp
      exact (hnew e he).1
    · exact h.range p hp
  · intro p hp
    rcases List.mem_append.mp hp with hp | hp
    · exact List.mem_append.mpr (hC p hp)
    · exact List.mem_append_right _ (h.acked p hp)

/-- **The event handler** records the oldest unread payload, which covers the others. -/
theorem inv_evtIrq {r : Recording} {q : List NrfEsbPayload} (h : Inv r q)
    (hC : NothingLost r .evtIrq) : ∃ q', Inv (r.step .evtIrq) q' := by
  obtain ⟨⟨s, p, mask, hbox⟩, -, hcases⟩ := h.phase.esbEvtIrq h.mode
  have hstep : r.step .evtIrq = { r with box := r.box.esbEvtIrq } := rfl
  have hmode : r.box.esbEvtIrq.gMode = .normal := by rw [hbox]; exact h.mode
  have hbeacon : r.box.esbEvtIrq.gBeacon.length = 10 := by rw [hbox]; exact h.beacon
  have hpaired : r.box.esbEvtIrq.gDevsPairedMask = r.box.gDevsPairedMask := by rw [hbox]
  rw [hstep]
  rcases hcases with ⟨hmask, hphase, -⟩ | ⟨e, rest, rfl, hflag, hmask, hphase⟩
  · refine ⟨q, hmode, hbeacon, hphase, ?_, ?_, ?_, h.range, h.acked⟩
    · rw [hpaired]
      exact h.unread
    · rw [hpaired, hmask]
      exact h.paired
    · rw [hmask]
      exact h.heard
  · obtain ⟨hrange, hdevice⟩ := h.unread e (by simp)
    have hpipe : e.pipe ≠ 0 := by
      intro hzero
      rw [hzero] at hrange
      exact absurd hrange.1 (by decide)
    -- the bits once `e` is recorded
    have hbits : ∀ p, 1 ≤ p → p ≤ 6 → (hasDevice r.box.esbEvtIrq.gDevsDataRecvMask p = true ↔
        hasDevice r.box.gDevsDataRecvMask p = true ∨ e.length = 32 ∧ e.pipe.toNat = p) := by
      intro p h1 h6
      rw [hmask]
      unfold Box.recordedMask
      by_cases hlen : e.length = 32
      · rw [if_pos ⟨hpipe, hlen⟩, hasDevice_or_shiftBit hrange ⟨h1, h6⟩]
        simp [hlen]
      · rw [if_neg fun hboth => hlen hboth.2]
        simp [hlen]
    refine ⟨[], hmode, hbeacon, hphase, nofun, ?_, ?_, h.range, h.acked⟩
    · intro p h1 h6 hbit
      rw [hpaired]
      rcases (hbits p h1 h6).mp hbit with hold | ⟨-, rfl⟩
      · exact h.paired p h1 h6 hold
      · exact hdevice
    · intro p h1 h6
      rw [h.heard p h1 h6, hbits p h1 h6]
      constructor
      · rintro (hbit | ⟨e', he', hlen, hpipe'⟩)
        · exact .inl (.inl hbit)
        · left
          rcases List.mem_cons.mp he' with rfl | hrest
          · exact .inr ⟨hlen, hpipe'⟩
          · -- a payload behind the oldest: its device has a bit, or is the one of the oldest
            by_cases hbit : hasDevice r.box.gDevsDataRecvMask e'.pipe.toNat = true
            · exact .inl (hpipe' ▸ hbit)
            · have htail : e' ∈ r.box.esb.rxFifo.toList.tail := by
                rw [h.phase.rx.toList_eq]
                exact hrest
              have hcover := hC hflag e' htail ⟨hlen, by simpa using hbit⟩
              rw [h.phase.rx.head_cons] at hcover
              exact .inr ⟨hcover.1, by rw [hcover.2, hpipe']⟩
      · rintro ((hbit | hrec) | ⟨e', he', -⟩)
        · exact .inl hbit
        · exact .inr ⟨e, by simp, hrec⟩
        · cases he'

/-- Without a new payload unread, the bits are those of the devices heard. -/
theorem Inv.recorded {r : Recording} {q : List NrfEsbPayload} (h : Inv r q)
    (hC : NothingLost r .tick) : Recorded r := by
  intro p h1 h6
  rw [h.heard p h1 h6]
  constructor
  · intro hbit
    exact ⟨h.paired p h1 h6 hbit, .inl hbit⟩
  · rintro ⟨-, hbit | ⟨e, he, hlen, rfl⟩⟩
    · exact hbit
    · by_contra hno
      refine hC e ?_ ⟨hlen, by simpa using hno⟩
      rw [h.phase.rx.toList_eq]
      exact he

/-- The timer, as the history variables see it. -/
theorem tick_spec {r : Recording} {q : List NrfEsbPayload} (h : Inv r q) :
    Box.TickFrame r.box r.box.intervalTimerEventHandler ∧
      Box.BeaconOnAir r.box.intervalTimerEventHandler.esb ∧
      sentNewData r.box.intervalTimerEventHandler = r.box.startsFrame := by
  have hlen : 0 < r.box.gBeacon.length.toNat ∧
      r.box.gBeacon.length.toNat ≤ nrfEsbMaxPayloadLength := by
    rw [h.beacon]
    decide
  obtain ⟨hframe, hair⟩ := Box.tick_normal h.mode hlen
  refine ⟨hframe, hair, ?_⟩
  have hbeacon := hframe.beacon
  unfold sentNewData
  cases hstarts : r.box.startsFrame with
  | true =>
    rw [hstarts, if_pos rfl] at hbeacon
    rw [hbeacon]
    rfl
  | false =>
    rw [hstarts, if_neg (by simp)] at hbeacon
    rw [hbeacon.1]
    decide

/-- **A tick** starts a frame with nothing heard, or keeps what is heard and recorded. -/
theorem inv_tick {r : Recording} {q : List NrfEsbPayload} (h : Inv r q)
    (hC : NothingLost r .tick) : Inv (r.step .tick) [] := by
  obtain ⟨hframe, hair, hnew⟩ := tick_spec h
  have hrecorded := h.recorded hC
  have hrecv := hframe.recv
  refine ⟨hframe.mode.trans h.mode, hframe.length.trans h.beacon, .sends hair, nofun, ?_, ?_, ?_, ?_⟩
  · intro p h1 h6
    simp only [step]
    rw [hrecv, hframe.paired]
    split
    · simp
    · exact h.paired p h1 h6
  · intro p h1 h6
    simp only [step]
    rw [hrecv, hnew]
    cases r.box.startsFrame with
    | true => simp
    | false =>
      have hbits := hrecorded p h1 h6
      simp only [Bool.false_eq_true, if_false, List.not_mem_nil, false_and, exists_false, or_false]
      rw [hbits]
      refine ⟨fun hp => ⟨?_, hp⟩, fun hp => hp.2⟩
      rcases (h.heard p h1 h6).mp hp with hbit | ⟨e, he, -, rfl⟩
      · exact h.paired p h1 h6 hbit
      · exact (h.unread e he).2
  · intro p hp
    simp only [step] at hp
    split at hp
    · cases hp
    · exact h.range p hp
  · intro p hp
    simp only [step] at hp ⊢
    rw [hnew] at hp ⊢
    split at hp
    · cases hp
    case isFalse hno =>
      rw [if_neg hno]
      exact h.acked p hp

/-- **Every step that loses nothing keeps the invariant.** -/
theorem inv_step {r : Recording} {q : List NrfEsbPayload} {a : RecordingAction} (h : Inv r q)
    (hen : Enabled r a) (hC : NothingLost r a) : ∃ q', Inv (r.step a) q' := by
  cases a with
  | radioIrq ev => exact ⟨_, inv_radioIrq h hen.2 hC⟩
  | evtIrq => exact inv_evtIrq h hC
  | tick => exact ⟨[], inv_tick h hC⟩

/-! ## §4 Every beacon -/

/-- **Data recording**: in every run in which no packet of a new device is discarded, a tick
    finds the bits of exactly the paired devices that were heard in this frame, and its beacon
    asks no device again that was acknowledged. -/
theorem recorded_of_reachable {r : Recording} (h : machine.ReachableUnder NothingLost r)
    (hC : NothingLost r .tick) :
    Recorded r ∧ ∀ p ∈ r.acked, ¬ AsksAgain (r.step .tick).box p := by
  have hinv : ∃ q, Inv r q := by
    apply h.invariant (I := fun r => ∃ q, Inv r q)
    · intro r hr
      exact ⟨[], inv_start hr⟩
    · rintro r a ⟨q, hq⟩ hen hstep
      exact inv_step hq hen hstep
  obtain ⟨q, hq⟩ := hinv
  have hrecorded := hq.recorded hC
  refine ⟨hrecorded, ?_⟩
  rintro p hp ⟨hresend, hasked⟩
  obtain ⟨h1, h6⟩ := hq.range p (hq.acked p hp)
  have hbeacon := (tick_spec hq).1.beacon
  split at hbeacon
  · -- a beacon that starts a frame asks for nobody
    exact absurd (hbeacon.symm.trans hresend) (by decide)
  · have hbit : hasDevice r.box.gDevsDataRecvMask p = true := by
      rw [hrecorded p h1 h6]
      refine ⟨?_, hq.acked p hp⟩
      rcases (hq.heard p h1 h6).mp (hq.acked p hp) with hbit | ⟨e, he, -, rfl⟩
      · exact hq.paired p h1 h6 hbit
      · exact (hq.unread e he).2
    simp only [step] at hasked
    rw [hbeacon.2, hasDevice_not_and, hbit] at hasked
    cases hasked

/-! ## §5 Entering normal mode -/

/-- **A box that boots into normal mode.** -/
theorem entersNormal_main {chipId : FixedArray 4 UInt8} {flash : BoxData} {button : Bool}
    {picked : ChannelList} (h : (Box.main chipId flash button picked).gMode = .normal) :
    EntersNormal (Box.main chipId flash button picked) := by
  have hsetup : ∀ b, (Box.enterSetupMode picked b).gMode ≠ .normal := fun b => nofun
  unfold Box.main at h ⊢
  dsimp only at h ⊢
  split at h
  · exact absurd h (hsetup _)
  case isFalse hsig =>
    split at h
    · exact absurd h (hsetup _)
    case isFalse hslots =>
      split at h
      · exact absurd h (hsetup _)
      case isFalse hbutton =>
        rw [if_neg hsig, if_neg hslots, if_neg hbutton]
        have hempty : Esb.reset.rxFifo.clear.Represents [] :=
          RingQueue.represents_clear _ (by decide)
        exact ⟨rfl, rfl, rfl, .asleep rfl rfl hempty⟩

/-- What pairing does not touch. -/
theorem onPayload_frame {b : Box} (hmode : b.gMode = .pairing) :
    b.onPayload.gDevsDataRecvMask = b.gDevsDataRecvMask ∧ b.onPayload.gBeacon = b.gBeacon := by
  have hreq : b.onPairReq.gDevsDataRecvMask = b.gDevsDataRecvMask ∧
      b.onPairReq.gBeacon = b.gBeacon := by
    unfold Box.onPairReq
    dsimp only
    split <;> exact ⟨rfl, rfl⟩
  have hslot : ∀ b : Box, b.takeSlot.gDevsDataRecvMask = b.gDevsDataRecvMask ∧
      b.takeSlot.gBeacon = b.gBeacon := by
    intro b
    unfold Box.takeSlot
    split
    · exact ⟨rfl, rfl⟩
    · split <;> exact ⟨rfl, rfl⟩
  have hget : b.onPairInfoGet.gDevsDataRecvMask = b.gDevsDataRecvMask ∧
      b.onPairInfoGet.gBeacon = b.gBeacon := by
    have htaken := hslot (b.callEsb nrfEsbFlushTx)
    unfold Box.onPairInfoGet
    dsimp only
    split <;> exact htaken
  unfold Box.onPayload
  split
  · split
    · exact hreq
    · split
      · exact hget
      · exact ⟨rfl, rfl⟩
  · rw [if_neg (by simp [hmode])]
    exact ⟨rfl, rfl⟩

/-- **A box that completes its setup session** enters normal mode too. -/
theorem entersNormal_heard {b : Box} {pkt : AirPacket} {crc : UInt16} (h : b.InSession)
    (hprx : b.esb.mainstate = .prx) (hpairing : b.gMode = .pairing)
    (hrecv : b.gDevsDataRecvMask = 0) (hbeacon : b.gBeacon.length = 10)
    (hlen : pkt.byte0.toNat ≤ nrfEsbMaxPayloadLength)
    (hnormal : (b.radioIrq (.received pkt crc)).esbEvtIrq.gMode = .normal) :
    EntersNormal (b.radioIrq (.received pkt crc)).esbEvtIrq := by
  have hsession : (b.radioIrq (.received pkt crc)).esbEvtIrq.InSession := h.heard hprx hlen
  obtain ⟨b₁, -, -, -, hmode, ⟨hmask, hbeacon₁⟩, hevt⟩ := h.heard_cases hprx crc hlen
  have hframe : (b.radioIrq (.received pkt crc)).esbEvtIrq.gDevsDataRecvMask = 0 ∧
      (b.radioIrq (.received pkt crc)).esbEvtIrq.gBeacon.length = 10 := by
    split at hevt
    · obtain ⟨hm, hb⟩ := onPayload_frame (hmode.trans hpairing)
      rw [hevt.1, hm, hb, hmask, hbeacon₁]
      exact ⟨hrecv, hbeacon⟩
    · rw [hevt, hmask, hbeacon₁]
      exact ⟨hrecv, hbeacon⟩
  have htx : (b.radioIrq (.received pkt crc)).esbEvtIrq.esb.txFifo.Represents [] := by
    rcases hsession.queue with hnil | ⟨devType, info, hholds⟩
    · exact hnil
    · -- a record is held in setup mode only
      exact absurd (hnormal.symm.trans hholds.mode) (by simp)
  have hesb := hsession.esb
  exact ⟨hnormal, hframe.1, hframe.2, .listens ⟨hesb.initialized, hesb.config, hesb.receives,
    hesb.busy, htx, hesb.rx, by rw [hesb.flags]; rfl, by rw [hesb.flags]; rfl⟩⟩

/-! ## §6 Two devices answer -/

section Example

/-- A box that is paired with the displays 1 and 2. -/
def pairedBox : Box :=
  Box.main (.replicate _ 7) ⟨dsSignature, .load (.replicate _ 0) [5, 40, 70], 2, 0⟩ false default

/-- The data packet of display `p`. -/
def dataFrom (p : Fin 8) : RadioEvent := .received ⟨p, 32, 0x02, List.replicate 32 0⟩ 0x1234

/-- A beacon, told to the handler when it is out. -/
def beaconRun : List RecordingAction := [.tick, .radioIrq .silent, .evtIrq]

/-- Display `p` is heard, and its acknowledgment is out. -/
def heardRun (p : Fin 8) : List RecordingAction := [.radioIrq (dataFrom p), .radioIrq .silent]

theorem start_pairedBox : machine.start ⟨pairedBox, [], []⟩ := by
  have hmode : pairedBox.gMode = .normal := rfl
  exact ⟨entersNormal_main hmode, rfl, rfl⟩

/-- The handler runs after each of the two packets. -/
theorem recorded_one_by_one :
    Recorded (machine.run ⟨pairedBox, [], []⟩
      (beaconRun ++ heardRun 1 ++ [.evtIrq] ++ heardRun 2 ++ [.evtIrq])) :=
  (recorded_of_reachable (.of_follows (.start start_pairedBox) (by decide +kernel))
    (by decide +kernel)).1

/-- **A device that was heard may be without its bit at the next beacon**: the handler runs once
    for two packets. -/
theorem not_recorded :
    ¬ ∀ r, machine.Reachable r → Enabled r .tick → Recorded r := by
  intro h
  have hreach : machine.Reachable (machine.run ⟨pairedBox, [], []⟩
      (beaconRun ++ heardRun 1 ++ heardRun 2 ++ [.evtIrq])) :=
    .of_follows (.start start_pairedBox) (by decide +kernel)
  have hbit := (h _ hreach (by decide +kernel) 2 (by decide) (by decide)).mpr
    ⟨by decide +kernel, by decide +kernel⟩
  exact absurd hbit (by decide +kernel)

end Example

end Recording

end NordicEsb
