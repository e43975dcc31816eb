import NordicEsb.App.Records

/-!
# Pairing Survives Power Cycles

A box and any number of devices, each with its interrupts, and power cycles of any of them between
two interrupts. Packets travel in any way: whatever was once on the air may come in at any time at
anybody's radio, on any pipe, or be lost.

A power cycle inside a handler leaves the same flash as one before or after it, since no handler
runs `ds_update` twice; one inside `ds_update` is a matter of the record in flash.

**Main result** (`covered_of_reachable`): a device that has written a record to its flash is
covered by the box, because the box is in its setup session or its own flash holds a full record,
and a power cycle leads to setup or to a mask with the bit of the device.
-/

namespace NordicEsb

/-! ## §1 The interrupts of the box -/

namespace Box

/-- What the box can do by itself: its interrupts. -/
inductive BoxStep where
  | radioIrq (ev : RadioEvent)
  | evtIrq
  | tick

/-- One interrupt. -/
def step (b : Box) : BoxStep → Box
  | .radioIrq ev => b.radioIrq ev
  | .evtIrq => b.esbEvtIrq
  | .tick => b.intervalTimerEventHandler

/-- The radio is disabled while the module rests, and the event interrupt has to be pending. -/
def Interrupts (b : Box) : BoxStep → Prop
  | .radioIrq _ => b.esb.mainstate ≠ .idle
  | .evtIrq => b.esb.evtIrqPending = true
  | .tick => b.intervalTimerRunning = true

instance (b : Box) : DecidablePred b.Interrupts := fun a => by
  cases a <;> unfold Interrupts <;> infer_instance

end Box

/-- The module is transmitting: the packet in its buffer is on air. -/
def transmitting (s : Esb) : Bool :=
  s.mainstate == .ptxTx || s.mainstate == .ptxTxAck || s.mainstate == .prxSendAck

/-! ## §2 A box and its devices -/

/-- One box, the devices `ι`, and what they have sent. -/
structure Site (ι : Type*) where
  box : Box
  devices : ι → Device
  /-- History variable: the packets that were on air. -/
  air : List AirPacket
  /-- History variable: the devices that have written a record to their flash, with the index in
      it. -/
  written : List (ι × UInt8)

/-- The steps of a site: interrupts, transmissions and power cycles. -/
inductive SiteAction (ι : Type*) where
  | box (a : Box.BoxStep)
  | boxSends
  | boxPower (button : Bool) (picked : ChannelList)
  | device (i : ι) (a : Device.DeviceStep)
  | deviceSends (i : ι)
  | devicePower (i : ι) (button1 button2 : Bool)

namespace Site

variable {ι : Type*} (chipId : FixedArray 4 UInt8)

/-- A packet that comes in without a CRC error was on air; the pipe is the receiver's matter. -/
def OnAir (s : Site ι) (ev : RadioEvent) : Prop :=
  ∀ pkt ∈ ev.packet, ev.crcOk = true → ∃ sent ∈ s.air, pkt = { sent with pipe := pkt.pipe }

instance (s : Site ι) (ev : RadioEvent) : Decidable (s.OnAir ev) :=
  inferInstanceAs (Decidable (∀ pkt ∈ ev.packet, _))

/-- When a step may be taken. -/
def Enabled (s : Site ι) : SiteAction ι → Prop
  | .box (.radioIrq ev) => s.box.Interrupts (.radioIrq ev) ∧ s.OnAir ev
  | .box a => s.box.Interrupts a
  | .boxSends => transmitting s.box.esb = true
  | .device i (.radioIrq ev) => (s.devices i).Enabled (.radioIrq ev) ∧ s.OnAir ev
  | .device i a => (s.devices i).Enabled a
  | .deviceSends i => transmitting (s.devices i).esb = true
  | .boxPower _ _ | .devicePower _ _ _ => True

/-- The device has stored a record in this step: that is how it leaves pairing mode. -/
def storesIn (d d' : Device) : Bool := d.gMode == .pairing && d'.gMode == .normal

/-- One step. -/
def step [DecidableEq ι] (s : Site ι) : SiteAction ι → Site ι
  | .box a => { s with box := s.box.step a }
  | .boxSends => { s with air := airPacket s.box.esb :: s.air }
  | .boxPower button picked => { s with box := Box.main chipId s.box.flash button picked }
  | .device i a =>
    let d := (s.devices i).step a
    { s with
      devices := Function.update s.devices i d
      written := if storesIn (s.devices i) d then (i, d.flash.devIdx) :: s.written else s.written }
  | .deviceSends i => { s with air := airPacket (s.devices i).esb :: s.air }
  | .devicePower i button1 button2 =>
    { s with
      devices := Function.update s.devices i (Device.main (s.devices i).flash button1 button2) }

/-- Everybody has just been switched on. The flash page of the box holds no record or a full
    one, those of the devices hold anything. -/
structure Fresh (s : Site ι) : Prop where
  box : ∃ flash button picked, (flash.signature = dsSignature → flash.Full) ∧
    s.box = Box.main chipId flash button picked
  devices : ∀ i, ∃ flash button1 button2, s.devices i = Device.main flash button1 button2
  air : s.air = []
  written : s.written = []

/-- The runs of a site. -/
def machine [DecidableEq ι] : Machine (Site ι) (SiteAction ι) where
  start := Fresh chipId
  enabled := Enabled
  step := step chipId

instance [DecidableEq ι] (s : Site ι) (a : SiteAction ι) :
    Decidable ((machine chipId).enabled s a) :=
  match a with
  | .box (.radioIrq ev) =>
    (inferInstance : Decidable (s.box.Interrupts (.radioIrq ev) ∧ s.OnAir ev))
  | .box .evtIrq => (inferInstance : Decidable (s.box.Interrupts .evtIrq))
  | .box .tick => (inferInstance : Decidable (s.box.Interrupts .tick))
  | .boxSends => (inferInstance : Decidable (transmitting s.box.esb = true))
  | .device i (.radioIrq ev) =>
    (inferInstance : Decidable ((s.devices i).Enabled (.radioIrq ev) ∧ s.OnAir ev))
  | .device i .evtIrq => (inferInstance : Decidable ((s.devices i).Enabled .evtIrq))
  | .device i .tick => (inferInstance : Decidable ((s.devices i).Enabled .tick))
  | .deviceSends i => (inferInstance : Decidable (transmitting (s.devices i).esb = true))
  | .boxPower _ _ | .devicePower _ _ _ => (inferInstance : Decidable True)

/-! ## §3 Every step -/

/-- All that is on its way are records of slots, if they have the size of one, and so are those
    that were written. -/
structure Inv (s : Site ι) : Prop where
  box : s.box.Valid
  devices : ∀ i, (s.devices i).Sound SlotRecord
  air : ∀ pkt ∈ s.air, pkt.Carries SlotRecord
  written : ∀ x ∈ s.written, IsSlot x.2

variable {chipId}

theorem inv_fresh {s : Site ι} (h : Fresh chipId s) : Inv s where
  box := by
    obtain ⟨flash, button, picked, hflash, hbox⟩ := h.box
    rw [hbox]
    exact Box.valid_main chipId button picked hflash
  devices i := by
    obtain ⟨flash, button1, button2, hdevice⟩ := h.devices i
    rw [hdevice]
    exact Device.sound_main Device.utters_slotRecord flash button1 button2
  air := by
    rw [h.air]
    exact fun _ hpkt => absurd hpkt List.not_mem_nil
  written := by
    rw [h.written]
    exact fun _ hx => absurd hx List.not_mem_nil

/-- What comes in carries records of slots. -/
theorem Inv.received {s : Site ι} (h : Inv s) {ev : RadioEvent} (hair : s.OnAir ev) :
    ∀ pkt, ev.packet = some pkt → ev.crcOk = true → pkt.Carries SlotRecord := by
  intro pkt hpkt hcrc
  obtain ⟨sent, hsent, heq⟩ := hair pkt hpkt hcrc
  rw [heq]
  exact h.air sent hsent

/-- **The box**, whatever it does. -/
theorem Inv.boxStep {s : Site ι} (h : Inv s) {a : Box.BoxStep} (hen : s.Enabled (.box a)) :
    (s.box.step a).Valid := by
  cases a with
  | radioIrq ev => exact h.box.radioIrq (h.received hen.2)
  | evtIrq => exact h.box.esbEvtIrq
  | tick => exact h.box.tick

/-- **A device**, whatever it does. -/
theorem Inv.deviceStep {s : Site ι} (h : Inv s) {i : ι} {a : Device.DeviceStep}
    (hen : s.Enabled (.device i a)) : Device.Outcome SlotRecord (s.devices i) ((s.devices i).step a) := by
  cases a with
  | radioIrq ev => exact ((h.devices i).radioIrq (h.received hen.2)).outcome
  | evtIrq => exact (h.devices i).esbEvtIrq
  | tick => exact (h.devices i).tick.outcome

/-- A device is replaced by a sound one. -/
theorem sound_update [DecidableEq ι] {devices : ι → Device} (h : ∀ i, (devices i).Sound SlotRecord) {i : ι}
    {d : Device} (hd : d.Sound SlotRecord) (j : ι) :
    (Function.update devices i d j).Sound SlotRecord := by
  by_cases hj : j = i
  · subst hj
    rwa [Function.update_self]
  · rw [Function.update_of_ne hj]
    exact h j

/-- A packet of a module that conveys records goes on air. -/
theorem carries_cons {air : List AirPacket} (h : ∀ pkt ∈ air, pkt.Carries SlotRecord) {s : Esb}
    (hs : Conveys SlotRecord s) : ∀ pkt ∈ airPacket s :: air, pkt.Carries SlotRecord := by
  intro pkt hpkt
  rcases List.mem_cons.mp hpkt with rfl | hold
  · exact hs.airPacket
  · exact h pkt hold

/-- **Every step keeps the invariant.** -/
theorem inv_step [DecidableEq ι] {s : Site ι} {a : SiteAction ι} (h : Inv s)
    (hen : s.Enabled a) : Inv (s.step chipId a) := by
  cases a with
  | box a => exact ⟨h.boxStep hen, h.devices, h.air, h.written⟩
  | boxSends => exact ⟨h.box, h.devices, carries_cons h.air h.box.esb, h.written⟩
  | boxPower button picked =>
    exact ⟨Box.valid_main chipId button picked h.box.settled.flash, h.devices, h.air, h.written⟩
  | device i a =>
    have houtcome := h.deviceStep hen
    refine ⟨h.box, sound_update h.devices houtcome.sound, h.air, ?_⟩
    show ∀ x ∈ if storesIn _ _ then _ else s.written, IsSlot x.2
    split
    case isTrue hstores =>
      simp only [storesIn, Bool.and_eq_true, beq_iff_eq] at hstores
      intro x hx
      rcases List.mem_cons.mp hx with rfl | hold
      · rcases houtcome.flash with ⟨hmode, -⟩ | ⟨-, -, hslot⟩
        · -- impossible: the device has left pairing mode
          rw [hstores.1, hstores.2] at hmode
          cases hmode
        · exact hslot.isSlot
      · exact h.written x hold
    case isFalse => exact h.written
  | deviceSends i => exact ⟨h.box, h.devices, carries_cons h.air (h.devices i).esb.toConveys, h.written⟩
  | devicePower i button1 button2 =>
    exact ⟨h.box, sound_update h.devices (Device.sound_main Device.utters_slotRecord _ _ _), h.air, h.written⟩

/-- **The history of writes is complete**: a device writes its flash in no other step. -/
theorem flash_step [DecidableEq ι] {s : Site ι} {a : SiteAction ι} (h : Inv s)
    (hen : s.Enabled a) (i : ι) :
    ((s.step chipId a).devices i).flash = (s.devices i).flash ∨
      (s.step chipId a).written =
        (i, ((s.step chipId a).devices i).flash.devIdx) :: s.written := by
  cases a with
  | box | boxSends | boxPower | deviceSends => exact .inl rfl
  | device j a =>
    by_cases hj : i = j
    · subst hj
      rcases (h.deviceStep hen).flash with ⟨-, hflash⟩ | ⟨hpairing, hnormal, -⟩
      · left
        simp only [step, Function.update_self]
        exact hflash
      · right
        have hstores : storesIn (s.devices i) ((s.devices i).step a) = true := by
          simp [storesIn, hpairing, hnormal]
        simp only [step, Function.update_self, hstores, if_true]
    · left
      simp only [step, Function.update_of_ne hj]
  | devicePower j button1 button2 =>
    left
    by_cases hj : i = j
    · subst hj
      simp only [step, Function.update_self]
      exact Device.main_flash _ _ _
    · simp only [step, Function.update_of_ne hj]

/-! ## §4 Persistence -/

/-- **The box covers the slot `idx`**: by its own flash, or because its session is still running;
    and after a power cycle it is in setup mode again, or its mask has the bit of the slot. -/
def Covers (chipId : FixedArray 4 UInt8) (b : Box) (idx : UInt8) : Prop :=
  (hasDevice (Box.pairedMaskOf b.flash) idx.toNat = true ∨ b.gMode = .pairing) ∧
    ∀ button picked,
      (Box.main chipId b.flash button picked).gMode = .pairing ∨
        hasDevice (Box.main chipId b.flash button picked).gDevsPairedMask idx.toNat = true

/-- **Pairing persistence**: every device that has ever written a record to its flash holds the
    index of a slot that the box covers. -/
theorem covered_of_reachable [DecidableEq ι] {s : Site ι} (h : (machine chipId).Reachable s) :
    ∀ i idx, (i, idx) ∈ s.written → IsSlot idx ∧ Covers chipId s.box idx := by
  have hinv : Inv s := by
    apply h.invariant (I := Inv)
    · exact fun _ hs => inv_fresh hs
    · exact fun _ _ hs hen _ => inv_step hs hen
  intro i idx hwritten
  have hslot : IsSlot idx := hinv.written _ hwritten
  refine ⟨hslot, ?_, fun button picked => ?_⟩
  · rcases hinv.box.settled.session with hfull | hpairing
    · exact .inl (Box.hasDevice_pairedMaskOf hfull hslot)
    · exact .inr hpairing
  · rcases Box.main_modes chipId s.box.flash button picked with hsetup | ⟨hnormal, hmask⟩
    · exact .inl hsetup
    · -- the normal mode needs a signature, and the record with it is full
      have hsig := ((Box.main_gMode chipId s.box.flash button picked).1.mp hnormal).1
      rw [hmask]
      exact .inr (Box.hasDevice_pairedMaskOf (hinv.box.settled.flash hsig) hslot)

/-- A box and a display that were never paired. -/
def unpaired : Site (Fin 1) where
  box := Box.main (.replicate _ 7) (fullRecord.torn 0) false (.load (.replicate _ 0) [5, 40, 70])
  devices _ := Device.main ⟨0xffffffff, .replicate _ 0xff, .replicate _ 0xff, 0xff⟩ false false
  air := []
  written := []

/-- The packet `pkt` of the device reaches the box, and the acknowledgment `ack` the device. -/
def exchangeRun (pkt ack : AirPacket) : List (SiteAction (Fin 1)) :=
  [.deviceSends 0, .device 0 (.radioIrq .silent), .box (.radioIrq (.received pkt 0x1234)),
    .boxSends, .device 0 (.radioIrq (.received ack 0x4321)), .box (.radioIrq .silent), .box .evtIrq,
    .device 0 .evtIrq]

/-- The display requests a record and gets it. -/
def pairingRun : List (SiteAction (Fin 1)) :=
  exchangeRun ⟨0, 2, 2, [idPairReq, devTypeDisplay]⟩ ⟨0, 0, 2, []⟩ ++
    exchangeRun ⟨0, 2, 4, [idPairInfoGet, 0]⟩ ⟨0, 8, 4, [7, 7, 7, 7, 5, 40, 70, 1]⟩

/-- The display has stored its record, and the box has five free slots. -/
theorem covered_run_pairing :
    IsSlot 1 ∧ Covers (.replicate _ 7)
      ((machine (.replicate _ 7)).run unpaired pairingRun).box 1 := by
  have hstart : Fresh (.replicate _ 7) unpaired :=
    ⟨⟨fullRecord.torn 0, false, .load (.replicate _ 0) [5, 40, 70],
      fun hsig => absurd hsig fullRecord.torn_zero_signature, rfl⟩,
      fun _ => ⟨_, false, false, rfl⟩, rfl, rfl⟩
  exact covered_of_reachable (.of_follows (.start hstart) (by decide +kernel)) 0 1
    (by decide +kernel)

end Site

end NordicEsb
