import NordicEsb.App.Requests
import NordicEsb.App.Session
import NordicEsb.Lib.Machine
import NordicEsb.Lib.Tickets
import Mathlib.Data.Fintype.Basic

/-!
# Pairing

One box in its setup session and any number of devices that want to be paired. In an
exchange some devices send their request at one moment: the box hears one of them or none,
and each of the senders receives the acknowledgment or misses it. Every event handler runs to
completion before the next exchange. The box hops between two exchanges.

The box queues the record of a slot on `ID_PAIR_REQ` and takes the slot on
`ID_PAIR_INFO_GET`. A device, however, takes a record from whichever acknowledgment brings
one, and any packet on pipe 0 brings what is queued.

- `uniqueIdx_of_reachable`: no two devices hold the same index, in every run in which records
  are handed over to `ID_PAIR_INFO_GET` requests only, which take a slot.
- `typeSafe_of_reachable`: indices fit the types of their devices, and the slots that are
  taken too, if that slot is moreover the one of the device's own type.
-/

namespace NordicEsb

/-! ## §1 A session -/

/-- One box and the devices `ι`. -/
structure Pairing (ι : Type*) where
  box : Box
  devices : ι → Device

/-- What is on air in one exchange. -/
structure Exchange (ι : Type*) where
  /-- The devices that send. -/
  sends : ι → Bool
  /-- The one the box hears, if any. -/
  heard : Option ι
  /-- The devices that the acknowledgment reaches. -/
  acked : ι → Bool

/-- The steps of a setup session. -/
inductive PairingAction (ι : Type*) where
  | exchange (e : Exchange ι)
  | boxTick

namespace Pairing

variable {ι : Type*} (crcOf : AirPacket → UInt16)

/-- The packet device `i` sends. -/
def packetOn (p : Pairing ι) (i : ι) : AirPacket := airPacket (p.devices i).esb

/-- The box when its radio has received the packet of device `i`. -/
def boxHeard (p : Pairing ι) (i : ι) : Box :=
  p.box.radioIrq (.received (p.packetOn i) (crcOf (p.packetOn i)))

/-- Box and device `i` use the same channel. -/
def sameChannel (p : Pairing ι) (i : ι) : Bool :=
  p.box.esb.radio.frequency == (p.devices i).esb.radio.frequency

/-- How the acknowledgment window of device `j` closes. -/
def windowEvent (p : Pairing ι) (e : Exchange ι) (j : ι) : RadioEvent :=
  match e.heard with
  | none => .silent
  | some i =>
    -- the box acknowledges what it has heard, and every sender on its channel may receive that
    if e.acked j && p.sameChannel j && (p.boxHeard crcOf i).esb.mainstate == .prxSendAck then
      .received (airPacket (p.boxHeard crcOf i).esb)
        (crcOf (airPacket (p.boxHeard crcOf i).esb))
    else .silent

/-- A device sends when its module does, the box hears what is sent on its channel while it
    listens, and it hops while it is in setup mode. -/
def Enabled (p : Pairing ι) : PairingAction ι → Prop
  | .exchange e =>
    (∀ j, e.sends j = true → (p.devices j).esb.mainstate = .ptxTxAck) ∧
      ∀ i, e.heard = some i →
        e.sends i = true ∧ p.sameChannel i = true ∧ p.box.esb.mainstate = .prx
  | .boxTick => p.box.gMode = .pairing

/-- One step of the session. -/
def step (p : Pairing ι) : PairingAction ι → Pairing ι
  | .exchange e =>
    { box := match e.heard with
        | none => p.box
        | some i => (p.boxHeard crcOf i).esbEvtIrq.finishAnswer
      devices := fun j =>
        if e.sends j then (p.devices j).attempt (p.windowEvent crcOf e j) else p.devices j }
  | .boxTick => { p with box := p.box.intervalTimerEventHandler }

/-- A box that has entered its setup session, and devices that have entered pairing mode. -/
structure Fresh (p : Pairing ι) : Prop where
  box : ∃ chipId flash button picked, p.box = Box.main chipId flash button picked
  setup : p.box.gMode = .pairing
  devices : ∀ i, ∃ flash button1 button2, p.devices i = Device.main flash button1 button2
  pairing : ∀ i, (p.devices i).gMode = .pairing

/-- The setup sessions. -/
def machine : Machine (Pairing ι) (PairingAction ι) where
  start := Fresh
  enabled := Enabled
  step := step crcOf

instance [Fintype ι] [DecidableEq ι] (p : Pairing ι) (a : PairingAction ι) :
    Decidable ((machine crcOf).enabled p a) :=
  match a with
  | .exchange _ => inferInstanceAs (Decidable (_ ∧ _))
  | .boxTick => inferInstanceAs (Decidable (p.box.gMode = .pairing))

/-! ## §2 Records that are handed over -/

/-- Device `j` receives the queued record in this exchange. -/
def handsOver (p : Pairing ι) (e : Exchange ι) (j : ι) : Bool :=
  match e.heard with
  | none => false
  | some i => e.sends j && e.acked j && p.sameChannel j &&
      p.box.answersWithRecord (p.packetOn i) (crcOf (p.packetOn i))

/-- The packet of device `j` is an `ID_PAIR_INFO_GET` that is not taken for a retransmission. -/
def getsInfo (p : Pairing ι) (j : ι) : Bool :=
  Box.isInfoGet (p.packetOn j) &&
    !retransmitPayload (p.box.latched (p.packetOn j) (crcOf (p.packetOn j)))

/-- **A record is handed over to a fresh `ID_PAIR_INFO_GET` only**, and while a type is
    pending. -/
def TakesSlot (p : Pairing ι) : PairingAction ι → Prop
  | .exchange e => ∀ j, p.handsOver crcOf e j = true →
      e.heard = some j ∧ p.getsInfo crcOf j = true ∧ p.box.gCurPairingDevType ≠ 0
  | .boxTick => True

/-- **The pending type is moreover the one of the device.** -/
def TakesOwnSlot (p : Pairing ι) : PairingAction ι → Prop
  | .exchange e => ∀ j, p.handsOver crcOf e j = true →
      e.heard = some j ∧ p.getsInfo crcOf j = true ∧
        p.box.gCurPairingDevType = (p.devices j).gDevType
  | .boxTick => True

instance [Fintype ι] [DecidableEq ι] (p : Pairing ι) (a : PairingAction ι) :
    Decidable (TakesSlot crcOf p a) :=
  match a with
  | .exchange e => inferInstanceAs (Decidable (∀ j, p.handsOver crcOf e j = true → _ ∧ _ ∧ _))
  | .boxTick => .isTrue trivial

instance [Fintype ι] [DecidableEq ι] (p : Pairing ι) (a : PairingAction ι) :
    Decidable (TakesOwnSlot crcOf p a) :=
  match a with
  | .exchange e => inferInstanceAs (Decidable (∀ j, p.handsOver crcOf e j = true → _ ∧ _ ∧ _))
  | .boxTick => .isTrue trivial

/-- Device `i` has stored a record: that is how it leaves pairing mode. -/
def Stored (p : Pairing ι) (i : ι) : Prop := (p.devices i).gMode = .normal

/-- **No two devices that have stored a record hold the same index.** -/
def UniqueIdx (p : Pairing ι) : Prop :=
  ∀ i j, p.Stored i → p.Stored j → (p.devices i).gDs.devIdx = (p.devices j).gDs.devIdx → i = j

/-! ## §3 What every step does -/

/-- What every step keeps: a box in session that listens, and devices that send requests. -/
structure Base (p : Pairing ι) : Prop where
  box : p.box.InSession
  listens : p.box.esb.mainstate = .prx
  sending : ∀ i, (p.devices i).Sending
  types : ∀ i, (p.devices i).gDevType = devTypeDisplay ∨ (p.devices i).gDevType = devTypeController

theorem base_fresh {p : Pairing ι} (h : Fresh p) : Base p := by
  obtain ⟨chipId, flash, button, picked, hbox⟩ := h.box
  have hsession := Box.inSession_main (hbox ▸ h.setup)
  rw [← hbox] at hsession
  have hdevices : ∀ i, (∃ q, (p.devices i).Requests q) ∧
      ((p.devices i).gDevType = devTypeDisplay ∨ (p.devices i).gDevType = devTypeController) := by
    intro i
    obtain ⟨dflash, button1, button2, hdev⟩ := h.devices i
    have hmain := Device.requests_main (hdev ▸ h.pairing i)
    rwa [← hdev] at hmain
  exact ⟨hsession.1, hsession.2, fun i _ => (hdevices i).1, fun i => (hdevices i).2⟩

/-- Every packet of a session is a request of two bytes. -/
theorem Base.packetOn_byte0 {p : Pairing ι} (h : Base p) {i : ι}
    (hen : (p.devices i).esb.mainstate = .ptxTxAck) :
    (p.packetOn i).byte0.toNat ≤ nrfEsbMaxPayloadLength := by
  obtain ⟨q, hq⟩ := h.sending i hen
  have hbyte : (p.packetOn i).byte0 = 2 := by
    unfold packetOn
    rw [hq.sends.air]
    exact hq.length
  rw [hbyte]
  decide

/-- What became of device `j` in a step from `p` to `p'`: it stays in its mode, or it leaves
    pairing mode with the record the box holds. -/
def Kept (p p' : Pairing ι) (j : ι) : Prop :=
  (p'.devices j).gMode = (p.devices j).gMode ∧
    ((p.devices j).gMode = .normal → (p'.devices j).gDs.devIdx = (p.devices j).gDs.devIdx)

/-- Device `j` stores the record that the box holds. -/
def Stores (p p' : Pairing ι) (j : ι) : Prop :=
  (p.devices j).gMode = .pairing ∧ (p'.devices j).gMode = .normal ∧
    ∃ devType info, p.box.Holds devType info ∧ (p'.devices j).gDs.devIdx = info.devIdx

/-- **What an exchange does to a device that sends**: it stays in pairing mode, or stores the
    record the box holds. -/
theorem Base.attempt {p : Pairing ι} (h : Base p) {e : Exchange ι} {j : ι}
    (hen : Enabled p (.exchange e)) (hsends : e.sends j = true) :
    let d := (p.devices j).attempt (p.windowEvent crcOf e j)
    d.Sending ∧ d.gDevType = (p.devices j).gDevType ∧ (p.devices j).gMode = .pairing ∧
      (d.gMode = .pairing ∨
        p.handsOver crcOf e j = true ∧ d.gMode = .normal ∧
          ∃ devType info, p.box.Holds devType info ∧ d.gDs.devIdx = info.devIdx) := by
  obtain ⟨q, hq⟩ := h.sending j (hen.1 j hsends)
  have hmissed : ((p.devices j).attempt .silent).Sending ∧
      ((p.devices j).attempt .silent).gDevType = (p.devices j).gDevType ∧
      ((p.devices j).attempt .silent).gMode = .pairing := by
    obtain ⟨⟨q', hq'⟩, htype⟩ := hq.attempt_missed
    exact ⟨fun _ => ⟨q', hq'⟩, htype, hq'.mode⟩
  dsimp only
  unfold windowEvent handsOver
  cases hheard : e.heard with
  | none => exact ⟨hmissed.1, hmissed.2.1, hq.mode, .inl hmissed.2.2⟩
  | some i =>
    dsimp only
    obtain ⟨-, -, hprx⟩ := hen.2 i hheard
    split
    case isFalse => exact ⟨hmissed.1, hmissed.2.1, hq.mode, .inl hmissed.2.2⟩
    case isTrue hack =>
      simp only [Bool.and_eq_true, beq_iff_eq] at hack
      obtain ⟨⟨hacked, hchannel⟩, hsend⟩ := hack
      have hanswer := h.box.answer hprx hsend
      change if _ then ∃ devType info, p.box.Holds devType info ∧
        (airPacket (p.boxHeard crcOf i).esb).byte0 = _ ∧ _ else
        (airPacket (p.boxHeard crcOf i).esb).byte0 = 0 at hanswer
      by_cases hrecord : p.box.answersWithRecord (p.packetOn i) (crcOf (p.packetOn i)) = true
      · -- the acknowledgment brings the record
        rw [if_pos hrecord] at hanswer
        obtain ⟨devType, info, hholds, hbyte, hdata⟩ := hanswer
        have hpkt : (airPacket (p.boxHeard crcOf i).esb).data = info.bytes := by
          rw [← hdata]
          unfold airPacket at hbyte ⊢
          dsimp only at hbyte ⊢
          rw [hbyte]
          rfl
        obtain ⟨hsending, htype, hmode⟩ := hq.attempt_record
          (crcOf (airPacket (p.boxHeard crcOf i).esb)) hbyte hpkt
        refine ⟨hsending, htype, hq.mode, hmode.imp_right fun ⟨hnormal, hidx⟩ => ?_⟩
        rw [hsends, hacked, hchannel, hrecord]
        exact ⟨rfl, hnormal, devType, info, hholds, hidx⟩
      · rw [if_neg hrecord] at hanswer
        obtain ⟨hsending, hmode, htype⟩ := hq.attempt_empty
          (crcOf (airPacket (p.boxHeard crcOf i).esb)) hanswer
        exact ⟨hsending, htype, hq.mode, .inl hmode⟩

/-- **What an exchange does to any device.** -/
theorem Base.device {p : Pairing ι} (h : Base p) {e : Exchange ι}
    (hen : Enabled p (.exchange e)) (j : ι) :
    let p' := p.step crcOf (.exchange e)
    (p'.devices j).Sending ∧ (p'.devices j).gDevType = (p.devices j).gDevType ∧
      (Kept p p' j ∨ p.handsOver crcOf e j = true ∧ Stores p p' j) := by
  dsimp only
  simp only [step, Kept, Stores]
  split
  case isTrue hsends =>
    obtain ⟨hsending, htype, hmode, hcases⟩ := h.attempt crcOf hen hsends
    refine ⟨hsending, htype, ?_⟩
    rcases hcases with hpairing | ⟨hover, hstored⟩
    · exact .inl ⟨hpairing.trans hmode.symm, fun hnormal => by rw [hmode] at hnormal; cases hnormal⟩
    · exact .inr ⟨hover, hmode, hstored⟩
  case isFalse => exact ⟨h.sending j, rfl, .inl ⟨rfl, fun _ => rfl⟩⟩

/-- **What a packet does to the box.** -/
theorem Base.hear {p : Pairing ι} (h : Base p) {i : ι}
    (hen : (p.devices i).esb.mainstate = .ptxTxAck) :
    let b := (p.boxHeard crcOf i).esbEvtIrq.finishAnswer
    b.InSession ∧ b.esb.mainstate = .prx ∧
      (b.gDs = p.box.gDs ∨ b.gDs = Box.takenData p.box.gDs p.box.gCurPairingDevType) := by
  have hlen := h.packetOn_byte0 hen
  obtain ⟨hsession, hprx, hds⟩ := (h.box.heard h.listens hlen).finishAnswer
  exact ⟨hsession, hprx, hds ▸ h.box.heard_gDs h.listens hlen⟩

/-- The box after a step is the one before, or one that heard a sender, or hopped. -/
theorem Base.boxStep {p : Pairing ι} (h : Base p) {a : PairingAction ι} (hen : Enabled p a) :
    let b := (p.step crcOf a).box
    b.InSession ∧ b.esb.mainstate = .prx ∧
      (b.gDs = p.box.gDs ∨ b.gDs = Box.takenData p.box.gDs p.box.gCurPairingDevType) := by
  cases a with
  | exchange e =>
    simp only [step]
    cases hheard : e.heard with
    | none => exact ⟨h.box, h.listens, .inl rfl⟩
    | some i => exact h.hear crcOf (hen.1 i (hen.2 i hheard).1)
  | boxTick =>
    obtain ⟨hsession, hprx, hds⟩ := h.box.tick h.listens hen
    exact ⟨hsession, hprx, .inl hds⟩

/-- What a step makes of any device. -/
theorem Base.deviceStep {p : Pairing ι} (h : Base p) {a : PairingAction ι} (hen : Enabled p a)
    (j : ι) :
    let p' := p.step crcOf a
    (p'.devices j).Sending ∧ (p'.devices j).gDevType = (p.devices j).gDevType ∧
      (Kept p p' j ∨ Stores p p' j ∧ ∃ e, a = .exchange e ∧ p.handsOver crcOf e j = true) := by
  cases a with
  | exchange e =>
    obtain ⟨hsending, htype, hcases⟩ := h.device crcOf hen j
    exact ⟨hsending, htype, hcases.imp_right fun ⟨hover, hstores⟩ => ⟨hstores, e, rfl, hover⟩⟩
  | boxTick => exact ⟨h.sending j, rfl, .inl ⟨rfl, fun _ => rfl⟩⟩

variable {crcOf}

/-- **Every step keeps `Base`.** -/
theorem base_step {p : Pairing ι} {a : PairingAction ι} (h : Base p) (hen : Enabled p a) :
    Base (p.step crcOf a) := by
  obtain ⟨hsession, hprx, -⟩ := h.boxStep crcOf hen
  refine ⟨hsession, hprx, fun j => ?_, fun j => ?_⟩
  · exact (h.deviceStep crcOf hen j).1
  · rw [(h.deviceStep crcOf hen j).2.1]
    exact h.types j

/-! ## §4 A record and its slot -/

/-- **Storing a record under `TakesSlot`**: the record is the one of the free slot of the
    pending type, the box takes that slot, and no other device stores in this step. -/
theorem Base.stores_slot {p : Pairing ι} (h : Base p) {a : PairingAction ι} (hen : Enabled p a)
    (hC : TakesSlot crcOf p a) {j : ι} (hstores : ¬ Kept p (p.step crcOf a) j) :
    Box.Offers p.box.gDs p.box.gCurPairingDevType ((p.step crcOf a).devices j).gDs.devIdx ∧
      (p.step crcOf a).box.gDs = Box.takenData p.box.gDs p.box.gCurPairingDevType ∧
      (p.devices j).gMode = .pairing ∧ ((p.step crcOf a).devices j).gMode = .normal ∧
      ∀ k, k ≠ j → Kept p (p.step crcOf a) k := by
  obtain ⟨-, -, hkept | ⟨⟨hmode, hnormal, devType, info, hholds, hidx⟩, e, rfl, hover⟩⟩ :=
    h.deviceStep crcOf hen j
  · exact absurd hkept hstores
  obtain ⟨hheard, hgets, hcur⟩ := hC j hover
  simp only [getsInfo, Bool.and_eq_true, Bool.not_eq_true'] at hgets
  have hanswers : p.box.answersWithRecord (p.packetOn j) (crcOf (p.packetOn j)) = true := by
    simp only [handsOver, hheard, Bool.and_eq_true] at hover
    exact hover.2
  have htype : p.box.gCurPairingDevType = devType := by
    rcases hholds.pending with heq | hzero
    · exact heq
    · exact absurd hzero hcur
  refine ⟨hidx ▸ htype ▸ hholds.offers, ?_, hmode, hnormal, fun k hk => ?_⟩
  · -- the request takes the slot, and the end of the acknowledgment changes no slot
    have htaken := h.box.heard_infoGet h.listens hgets.1 hgets.2 hanswers
    have hheardBox : (p.boxHeard crcOf j).esbEvtIrq.InSession :=
      h.box.heard h.listens (h.packetOn_byte0 (hen.1 j (hen.2 j hheard).1))
    simp only [step, hheard]
    exact hheardBox.finishAnswer.2.2.trans htaken
  · -- another device that stores would be the one that the box heard
    obtain ⟨-, -, hkept | ⟨-, e', he', hover'⟩⟩ := h.deviceStep crcOf hen k
    · exact hkept
    · obtain rfl : e = e' := by
        cases he'
        rfl
      have hheard' := (hC k hover').1
      rw [hheard, Option.some_inj] at hheard'
      exact absurd hheard'.symm hk

/-! ## §5 Unique indices -/

/-- The index device `i` holds from this session. -/
def held (p : Pairing ι) (i : ι) : Option UInt8 :=
  if (p.devices i).gMode = .normal then some (p.devices i).gDs.devIdx else none

theorem held_of_kept {p p' : Pairing ι} {i : ι} (h : Kept p p' i) : p'.held i = p.held i := by
  unfold held
  rw [h.1]
  by_cases hnormal : (p.devices i).gMode = .normal
  · rw [if_pos hnormal, if_pos hnormal, h.2 hnormal]
  · rw [if_neg hnormal, if_neg hnormal]

/-- **Every step that meets `TakesSlot` keeps the indices unique.** -/
theorem unique_step {p : Pairing ι} {a : PairingAction ι} (h : Base p)
    (hunique : Tickets.Unique (Box.spentIdx p.box.gDs) p.held) (hen : Enabled p a)
    (hC : TakesSlot crcOf p a) :
    Tickets.Unique (Box.spentIdx (p.step crcOf a).box.gDs) (p.step crcOf a).held := by
  classical
  by_cases hstores : ∃ j, ¬ Kept p (p.step crcOf a) j
  · obtain ⟨j, hj⟩ := hstores
    obtain ⟨hoffers, htaken, -, hnormal, hothers⟩ := h.stores_slot hen hC hj
    have hheld : (p.step crcOf a).held =
        Function.update p.held j (some ((p.step crcOf a).devices j).gDs.devIdx) := by
      funext k
      by_cases hk : k = j
      · subst hk
        rw [Function.update_self]
        exact if_pos hnormal
      · rw [Function.update_of_ne hk]
        exact held_of_kept (hothers k hk)
    rw [hheld, htaken]
    exact hunique.grant (hoffers.notMem_spentIdx h.box.slots) (Box.spentIdx_takenData _ _)
      hoffers.mem_spentIdx j
  · have hheld : (p.step crcOf a).held = p.held := by
      funext k
      apply held_of_kept
      exact not_not.mp (not_exists.mp hstores k)
    rw [hheld]
    -- the box may take slots that nobody stores
    apply hunique.mono
    rcases (h.boxStep crcOf hen).2.2 with hds | hds
    · rw [hds]
    · rw [hds]
      exact Box.spentIdx_takenData _ _

theorem held_fresh {p : Pairing ι} (h : Fresh p) (i : ι) : p.held i = none := by
  unfold held
  rw [h.pairing i]
  rfl

/-- Unique tickets are unique indices. -/
theorem uniqueIdx_of_tickets {p : Pairing ι} {spent : Set UInt8}
    (h : Tickets.Unique spent p.held) : UniqueIdx p := by
  intro i j hi hj heq
  apply h.injective i j (p.devices i).gDs.devIdx
  · exact if_pos hi
  · rw [heq]
    exact if_pos hj

/-- **Pairing uniqueness**: if every record is handed over to a fresh `ID_PAIR_INFO_GET` of the
    device that stores it, while a type is pending, then no two devices that have stored a
    record hold the same index. -/
theorem uniqueIdx_of_reachable {p : Pairing ι}
    (h : (machine crcOf).ReachableUnder (TakesSlot crcOf) p) : UniqueIdx p := by
  have hinv : Base p ∧ Tickets.Unique (Box.spentIdx p.box.gDs) p.held := by
    apply h.invariant (I := fun p => Base p ∧ Tickets.Unique (Box.spentIdx p.box.gDs) p.held)
    · intro p hp
      exact ⟨base_fresh hp, .of_none (held_fresh hp)⟩
    · rintro p a ⟨hbase, hunique⟩ hen hC
      exact ⟨base_step hbase hen, unique_step hbase hunique hen hC⟩
  exact uniqueIdx_of_tickets hinv.2

/-! ## §6 Indices and types -/

/-- The range of the indices of a type. -/
def inRange (devType devIdx : UInt8) : Prop :=
  (devType = devTypeDisplay ∧ 1 ≤ devIdx ∧ devIdx ≤ maximumDisplayDev) ∨
    (devType = devTypeController ∧ maximumDisplayDev + 1 ≤ devIdx ∧
      devIdx ≤ maximumDisplayDev + maximumControllerDev)

/-- The slot counter of a type. -/
def slotIdx (ds : BoxData) (devType : UInt8) : ℕ :=
  if devType = devTypeDisplay then ds.displaySlotIdx.toNat else ds.controllerSlotIdx.toNat

/-- An index that is offered is in the range of its type. -/
theorem inRange_of_offers {ds : BoxData} {devType idx : UInt8} (h : Box.Offers ds devType idx) :
    inRange devType idx := by
  have hone : (1 : UInt8).toNat = 1 := rfl
  have hfour : maximumDisplayDev.toNat = 4 := rfl
  have hfive : (maximumDisplayDev + 1).toNat = 5 := rfl
  have hsix : (maximumDisplayDev + maximumControllerDev).toNat = 6 := rfl
  cases h with
  | display hlt hidx =>
    refine .inl ⟨rfl, ?_, ?_⟩
    · rw [UInt8.le_iff_toNat_le]
      omega
    · rw [UInt8.le_iff_toNat_le]
      omega
  | controller hlt hidx =>
    refine .inr ⟨rfl, ?_, ?_⟩
    · rw [UInt8.le_iff_toNat_le]
      omega
    · rw [UInt8.le_iff_toNat_le]
      omega

/-- Taking the slot that is offered counts one slot more of its type. -/
theorem slotIdx_takenData {ds : BoxData} {devType idx : UInt8} (h : Box.Offers ds devType idx)
    (hds : Box.SlotsValid ds) :
    slotIdx (Box.takenData ds devType) devType = slotIdx ds devType + 1 := by
  unfold slotIdx
  rcases Box.takenData_cases ds devType with ⟨rfl, -, hd, -⟩ | ⟨rfl, -, -, hc⟩ | heq
  · rw [if_pos rfl, if_pos rfl, hd]
  · rw [if_neg (by decide), if_neg (by decide), hc]
  · -- impossible: a free slot would stay free when it is taken
    exact absurd (heq ▸ h.mem_spentIdx) (h.notMem_spentIdx hds)

/-- **Devices hold indices of their own type's range.** -/
def TypeSafe (p : Pairing ι) : Prop :=
  ∀ i, p.Stored i → inRange (p.devices i).gDevType (p.devices i).gDs.devIdx

/-- **A device that stores a record has its slot counted by the box**, in the same step. -/
def CountsSlot (p p' : Pairing ι) : Prop :=
  ∀ i, ¬ p.Stored i → p'.Stored i →
    slotIdx p'.box.gDs (p.devices i).gDevType = slotIdx p.box.gDs (p.devices i).gDevType + 1

/-- A device's own slot is a slot. -/
theorem takesSlot_of_own {p : Pairing ι} {a : PairingAction ι} (h : Base p)
    (hC : TakesOwnSlot crcOf p a) : TakesSlot crcOf p a := by
  cases a with
  | exchange e =>
    intro j hover
    obtain ⟨hheard, hgets, hcur⟩ := hC j hover
    refine ⟨hheard, hgets, ?_⟩
    rw [hcur]
    rcases h.types j with htype | htype
    · rw [htype]
      decide
    · rw [htype]
      decide
  | boxTick => trivial

/-- The pending type is the one of the device that stores. -/
theorem own_type {p : Pairing ι} {a : PairingAction ι} (h : Base p) (hen : Enabled p a)
    (hC : TakesOwnSlot crcOf p a) {j : ι} (hstores : ¬ Kept p (p.step crcOf a) j) :
    p.box.gCurPairingDevType = (p.devices j).gDevType := by
  obtain ⟨-, -, hkept | ⟨-, e, rfl, hover⟩⟩ := h.deviceStep crcOf hen j
  · exact absurd hkept hstores
  · exact (hC j hover).2.2

/-- **Every step that meets `TakesOwnSlot` keeps the indices in their ranges.** -/
theorem typeSafe_step {p : Pairing ι} {a : PairingAction ι} (h : Base p) (hsafe : TypeSafe p)
    (hen : Enabled p a) (hC : TakesOwnSlot crcOf p a) : TypeSafe (p.step crcOf a) := by
  intro j hj
  rw [(h.deviceStep crcOf hen j).2.1]
  by_cases hkept : Kept p (p.step crcOf a) j
  · have hstored : p.Stored j := hkept.1.symm.trans hj
    rw [hkept.2 hstored]
    exact hsafe j hstored
  · rw [← own_type h hen hC hkept]
    exact inRange_of_offers (h.stores_slot hen (takesSlot_of_own h hC) hkept).1

/-- **Every step that meets `TakesOwnSlot` counts the slots that are stored.** -/
theorem countsSlot_step {p : Pairing ι} {a : PairingAction ι} (h : Base p) (hen : Enabled p a)
    (hC : TakesOwnSlot crcOf p a) : CountsSlot p (p.step crcOf a) := by
  intro j hnot hj
  have hstores : ¬ Kept p (p.step crcOf a) j := by
    intro hkept
    exact hnot (hkept.1.symm.trans hj)
  obtain ⟨hoffers, htaken, -⟩ := h.stores_slot hen (takesSlot_of_own h hC) hstores
  rw [htaken, ← own_type h hen hC hstores]
  exact slotIdx_takenData hoffers h.box.slots

/-- **Pairing type range**: if every record is handed over to a fresh `ID_PAIR_INFO_GET` of the
    device that stores it, while the type of that device is pending, then every device holds an
    index of its own type's range, and storing it counts a slot of that type. -/
theorem typeSafe_of_reachable {p : Pairing ι}
    (h : (machine crcOf).ReachableUnder (TakesOwnSlot crcOf) p) :
    TypeSafe p ∧ ∀ a, Enabled p a → TakesOwnSlot crcOf p a → CountsSlot p (p.step crcOf a) := by
  have hinv : Base p ∧ TypeSafe p := by
    apply h.invariant (I := fun p => Base p ∧ TypeSafe p)
    · intro p hp
      refine ⟨base_fresh hp, fun i hi => ?_⟩
      -- nobody has stored a record yet
      exact absurd ((hp.pairing i).symm.trans hi) nofun
    · rintro p a ⟨hbase, hsafe⟩ hen hC
      exact ⟨base_step hbase hen, typeSafe_step hbase hsafe hen hC⟩
  exact ⟨hinv.2, fun a hen hC => countsSlot_step hinv.1 hen hC⟩

/-! ## §7 Two devices -/

section Example

/-- An erased flash page. -/
def erasedBox : BoxData := ⟨0xffffffff, .replicate _ 0xff, 0xff, 0xff⟩

/-- An erased flash page. -/
def erasedDevice : DeviceData := ⟨0xffffffff, .replicate _ 0xff, .replicate _ 0xff, 0xff⟩

/-- A box and two devices that were never paired, with their second buttons. -/
def unpaired (button2 : Fin 2 → Bool) : Pairing (Fin 2) where
  box := Box.main (.replicate _ 7) erasedBox false (.load (.replicate _ 0) [5, 40, 70])
  devices i := Device.main erasedDevice false (button2 i)

/-- Some CRC. -/
def exampleCrc (pkt : AirPacket) : UInt16 := pkt.byte1.toUInt16 + 1

/-- Device `i` alone sends, the box hears it, and it receives the acknowledgment. -/
def acknowledged (i : Fin 2) : PairingAction (Fin 2) :=
  .exchange ⟨(· = i), some i, (· = i)⟩

theorem fresh_unpaired (button2 : Fin 2 → Bool) : Fresh (unpaired button2) where
  box := ⟨.replicate _ 7, erasedBox, false, .load (.replicate _ 0) [5, 40, 70], rfl⟩
  setup := rfl
  devices i := ⟨erasedDevice, false, button2 i, rfl⟩
  pairing _ := rfl

/-- One device after the other: two displays request a record and get it. -/
theorem uniqueIdx_one_by_one :
    UniqueIdx ((machine exampleCrc).run (unpaired fun _ => false)
      [acknowledged 0, acknowledged 0, acknowledged 1, acknowledged 1]) :=
  uniqueIdx_of_reachable (.of_follows (.start (fresh_unpaired _)) (by decide +kernel))

/-- **Two displays may hold the same index**: the record queued for the first one is handed
    over to the request of the second one, and then to the first one too. -/
theorem not_uniqueIdx :
    ¬ ∀ p, (machine (ι := Fin 2) exampleCrc).Reachable p → UniqueIdx p := by
  intro h
  have hreach : (machine exampleCrc).Reachable ((machine exampleCrc).run
      (unpaired fun _ => false) [acknowledged 0, acknowledged 1, acknowledged 0]) :=
    .of_follows (.start (fresh_unpaired _)) (by decide +kernel)
  have hsame := h _ hreach 0 1 (by unfold Stored; decide +kernel) (by unfold Stored; decide +kernel)
    (by decide +kernel)
  exact absurd hsame (by decide)

/-- A display and a controller, one after the other. -/
theorem typeSafe_one_by_one :
    TypeSafe ((machine exampleCrc).run (unpaired (· = 1))
      [acknowledged 0, acknowledged 0, acknowledged 1, acknowledged 1]) :=
  (typeSafe_of_reachable (.of_follows (.start (fresh_unpaired _)) (by decide +kernel))).1

/-- **A controller may hold the index of a display**: the record queued for a display is handed
    over to its request. -/
theorem not_typeSafe : ¬ ∀ p, (machine (ι := Fin 2) exampleCrc).Reachable p → TypeSafe p := by
  intro h
  have hreach : (machine exampleCrc).Reachable ((machine exampleCrc).run
      (unpaired (· = 1)) [acknowledged 0, acknowledged 1]) :=
    .of_follows (.start (fresh_unpaired _)) (by decide +kernel)
  have hrange := h _ hreach 1 (by unfold Stored; decide +kernel)
  exact absurd hrange (by unfold inRange; decide +kernel)

end Example

end Pairing

end NordicEsb
