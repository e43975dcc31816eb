import NordicEsb.App.Records

/-!
# The Record a Device Trusts

`main` of a device reads twelve bytes of flash. It replaces a signature that is not its own in RAM
before it tests the signature, so that the test always succeeds, and it compares `dev_idx` with
`0xff` only. The box calls `enter_setup_mode` at the same place.

The index is used much later: a device that answers a beacon waits for
`APP_PACKET_DELAY_US * (dev_idx - 1)` microseconds first.

- `OwnRecord`: the page holds a record of the program, with an index in range.
- `TrustsOwn`: the device enters normal mode with such a record only, and its delay is never
  negative.

**Main result** (`trustsOwn_iff`): this holds exactly if the index on the page is erased, or the
pairing button is pressed, or the record is the device's own.
-/

namespace NordicEsb

namespace Device

/-! ## §1 The property -/

/-- `APP_PACKET_DELAY_US` -/
abbrev appPacketDelayUs : ℤ := 350

/-- `(APP_PACKET_DELAY_US) * (g_ds.dev_idx-1)`, before it becomes a `uint32_t`. -/
def packetDelay (d : Device) : ℤ := appPacketDelayUs * ((d.gDs.devIdx.toNat : ℤ) - 1)

/-- The page holds a record of this program for one of the slots. -/
structure OwnRecord (page : DsPage) : Prop where
  signature : (DeviceData.ofPage page).signature = dsSignature
  lower : 1 ≤ (DeviceData.ofPage page).devIdx.toNat
  upper : (DeviceData.ofPage page).devIdx.toNat ≤ (maximumDisplayDev + maximumControllerDev).toNat

/-- A record that comes in while the device pairs is the one of a slot. -/
def HearsSlots (d : Device) : DeviceStep → Prop
  | .radioIrq ev => d.gMode = .pairing →
      ∀ pkt, ev.packet = some pkt → ev.crcOk = true → pkt.Carries SlotRecord
  | .evtIrq | .tick => True

/-- The runs of a device on a given page. -/
def bootMachine (page : DsPage) (button1 button2 : Bool) : Machine Device DeviceStep where
  start d := d = main (DeviceData.ofPage page) button1 button2
  enabled := Enabled
  step := step

/-- **The device trusts its own records only**: it enters normal mode with a record of its own and
    starts pairing with anything else, and the delay never underflows in normal mode. -/
structure TrustsOwn (page : DsPage) (button1 button2 : Bool) : Prop where
  normal : (main (DeviceData.ofPage page) button1 button2).gMode = .normal → OwnRecord page
  pairing : ¬ OwnRecord page → (main (DeviceData.ofPage page) button1 button2).gMode = .pairing
  delay : ∀ d, (bootMachine page button1 button2).ReachableUnder HearsSlots d →
    d.gMode = .normal → 0 ≤ d.packetDelay

/-! ## §2 The index in RAM is the one in flash -/

/-- The record of the device is the same in RAM and in flash. -/
def SameRecord (d d' : Device) : Prop := d'.gDs = d.gDs ∧ d'.flash = d.flash

variable {d d' d'' : Device}

theorem SameRecord.trans (h : SameRecord d d') (h' : SameRecord d' d'') : SameRecord d d'' :=
  ⟨h'.1.trans h.1, h'.2.trans h.2⟩

theorem sameRecord_sendDeviceData (isRetransmit : Bool) (d : Device) :
    SameRecord d (sendDeviceData isRetransmit d) := by
  cases isRetransmit <;> exact ⟨rfl, rfl⟩

theorem sameRecord_onTxSuccess (d : Device) : SameRecord d d.onTxSuccess := by
  unfold onTxSuccess
  split
  · split <;> exact ⟨rfl, rfl⟩
  · exact ⟨rfl, rfl⟩

theorem sameRecord_onTxFailed (d : Device) : SameRecord d d.onTxFailed := by
  unfold onTxFailed
  dsimp only
  split
  · split <;> exact ⟨rfl, rfl⟩
  · exact ⟨rfl, rfl⟩

theorem sameRecord_onBeacon (d : Device) : SameRecord d d.onBeacon := by
  unfold onBeacon
  dsimp only
  split
  · exact sameRecord_sendDeviceData _ _
  · exact ⟨rfl, rfl⟩

/-- **What is stored in RAM is stored in flash.** -/
def IdxStored (d : Device) : Prop := d.gDs.devIdx = d.flash.devIdx

theorem SameRecord.idxStored (h : SameRecord d d') (hd : IdxStored d) : IdxStored d' := by
  unfold IdxStored
  rw [h.1, h.2]
  exact hd

theorem idxStored_onPayload (h : IdxStored d) : IdxStored d.onPayload := by
  unfold onPayload
  split
  · split
    · -- `ds_update` writes the record in RAM
      exact rfl
    · exact h
  · split
    · split
      · exact (sameRecord_onBeacon d).idxStored h
      · exact h
    · exact h

theorem idxStored_nrfEsbEventHandler (h : IdxStored d) (event : NrfEsbEvt) :
    IdxStored (d.nrfEsbEventHandler event) := by
  unfold nrfEsbEventHandler
  split
  · exact (sameRecord_onTxSuccess d).idxStored h
  · exact (sameRecord_onTxFailed d).idxStored h
  · exact idxStored_onPayload h

/-- Every interrupt keeps the two indices equal. -/
theorem idxStored_step (h : IdxStored d) (a : DeviceStep) : IdxStored (d.step a) := by
  cases a with
  | radioIrq ev => exact h
  | evtIrq =>
    have hrun : ∀ (events : List NrfEsbEvt) (d : Device), IdxStored d →
        IdxStored (events.foldl nrfEsbEventHandler d) := by
      intro events
      induction events with
      | nil => exact fun _ hd => hd
      | cons event events ih => exact fun _ hd => ih _ (idxStored_nrfEsbEventHandler hd event)
    exact hrun _ _ h
  | tick =>
    show IdxStored d.intervalTimerEventHandler
    unfold intervalTimerEventHandler
    split
    · dsimp only
      split <;> exact h
    · exact h

theorem idxStored_main (flash : DeviceData) (button1 button2 : Bool) :
    IdxStored (main flash button1 button2) := by
  unfold IdxStored
  rw [main_gDs, main_flash]
  exact (boot_gDs flash button2).2.2

/-! ## §3 Runs -/

/-- Nothing is stored in normal mode. -/
theorem sameRecord_nrfEsbEventHandler (hmode : d.gMode = .normal) (event : NrfEsbEvt) :
    SameRecord d (d.nrfEsbEventHandler event) := by
  have hpayload : ∀ d : Device, d.gMode = .normal → SameRecord d d.onPayload := by
    intro d hnormal
    unfold onPayload
    rw [if_neg (by simp [hnormal]), if_pos hnormal]
    split
    · exact sameRecord_onBeacon d
    · exact ⟨rfl, rfl⟩
  unfold nrfEsbEventHandler
  split
  · exact sameRecord_onTxSuccess d
  · exact sameRecord_onTxFailed d
  · exact hpayload _ hmode

theorem sameRecord_step (hmode : d.gMode = .normal) (a : DeviceStep) : SameRecord d (d.step a) := by
  cases a with
  | radioIrq ev => exact ⟨rfl, rfl⟩
  | evtIrq =>
    have hrun : ∀ (events : List NrfEsbEvt) (d : Device), d.gMode = .normal →
        SameRecord d (events.foldl nrfEsbEventHandler d) := by
      intro events
      induction events with
      | nil => exact fun _ _ => ⟨rfl, rfl⟩
      | cons event events ih =>
        intro d hd
        exact (sameRecord_nrfEsbEventHandler hd event).trans
          (ih _ (nrfEsbEventHandler_normal hd event))
    exact hrun _ _ hmode
  | tick =>
    show SameRecord d d.intervalTimerEventHandler
    unfold intervalTimerEventHandler
    split
    · dsimp only
      split <;> exact ⟨rfl, rfl⟩
    · exact ⟨rfl, rfl⟩

/-- **The invariant of a run**: a pairing device conveys records of slots only, and a device in
    normal mode has the index of a slot. -/
structure Indexed (d : Device) : Prop where
  stored : IdxStored d
  pairing : d.gMode = .pairing → Sound SlotRecord d
  normal : d.gMode = .normal → IsSlot d.flash.devIdx

/-- **One interrupt.** -/
theorem Indexed.step (h : Indexed d) {a : DeviceStep} (hhears : HearsSlots d a) :
    Indexed (d.step a) := by
  cases hmode : d.gMode with
  | normal =>
    have hnormal : (d.step a).gMode = .normal := step_normal hmode a
    refine ⟨idxStored_step h.stored a, ?_, fun _ => ?_⟩
    · intro hpairing
      rw [hnormal] at hpairing
      cases hpairing
    · rw [(sameRecord_step hmode a).2]
      exact h.normal hmode
  | pairing =>
    have hsound := h.pairing hmode
    have houtcome : Outcome SlotRecord d (d.step a) := by
      cases a with
      | radioIrq ev => exact (hsound.radioIrq (hhears hmode)).outcome
      | evtIrq => exact hsound.esbEvtIrq
      | tick => exact hsound.tick.outcome
    refine ⟨idxStored_step h.stored a, fun _ => houtcome.sound, fun hnormal => ?_⟩
    rcases houtcome.flash with ⟨hsame, -⟩ | ⟨-, -, hstored⟩
    · rw [hnormal, hmode] at hsame
      cases hsame
    · exact hstored.isSlot

/-- The delay of a slot. -/
theorem Indexed.packetDelay_nonneg (h : Indexed d) (hmode : d.gMode = .normal) :
    0 ≤ d.packetDelay := by
  have hslot := h.normal hmode
  rw [← h.stored] at hslot
  have hpos := hslot.1
  show 0 ≤ (350 : ℤ) * ((d.gDs.devIdx.toNat : ℤ) - 1)
  omega

/-! ## §4 `main` -/

/-- `main` chooses the mode by the index and the button alone. -/
theorem main_normal_iff (flash : DeviceData) (button1 button2 : Bool) :
    (main flash button1 button2).gMode = .normal ↔ flash.devIdx ≠ 0xff ∧ button1 = false := by
  have hidx := (boot_gDs flash button2).2.2
  have hmode : (main flash button1 button2).gMode =
      if flash.devIdx = 0xff ∨ button1 = true then .pairing else .normal := by
    unfold main
    dsimp only
    rw [hidx]
    split <;> rfl
  rw [hmode]
  by_cases hpair : flash.devIdx = 0xff ∨ button1 = true
  · rw [if_pos hpair]
    constructor
    · exact fun h => nomatch h
    · rintro ⟨hne, hbutton⟩
      rcases hpair with herased | hpressed
      · exact absurd herased hne
      · rw [hbutton] at hpressed
        cases hpressed
  · rw [if_neg hpair]
    rw [not_or, Bool.not_eq_true] at hpair
    exact ⟨fun _ => hpair, fun _ => rfl⟩

theorem main_pairing_iff (flash : DeviceData) (button1 button2 : Bool) :
    (main flash button1 button2).gMode = .pairing ↔ flash.devIdx = 0xff ∨ button1 = true := by
  have hnormal := main_normal_iff flash button1 button2
  cases hmode : (main flash button1 button2).gMode with
  | normal =>
    rw [hmode] at hnormal
    obtain ⟨hne, hbutton⟩ := hnormal.mp rfl
    constructor
    · exact fun h => nomatch h
    · rintro (herased | hpressed)
      · exact absurd herased hne
      · rw [hbutton] at hpressed
        cases hpressed
  | pairing =>
    refine iff_of_true rfl ?_
    by_contra hnone
    rw [not_or, Bool.not_eq_true] at hnone
    have := hnormal.mpr hnone
    rw [hmode] at this
    cases this

/-- **A device trusts its own records only** exactly if the index is erased, the pairing button is
    pressed, or the record is its own. -/
theorem trustsOwn_iff (page : DsPage) (button1 button2 : Bool) :
    TrustsOwn page button1 button2 ↔
      (DeviceData.ofPage page).devIdx = 0xff ∨ button1 = true ∨ OwnRecord page := by
  constructor
  · intro h
    by_contra hnone
    rw [not_or, not_or] at hnone
    obtain ⟨herased, hbutton, hown⟩ := hnone
    rcases (main_pairing_iff _ button1 button2).mp (h.pairing hown) with hpair | hpair
    · exact herased hpair
    · exact hbutton hpair
  · intro h
    -- In normal mode the device was not erased and no button was held, so the record is its own.
    have hnormal : (main (DeviceData.ofPage page) button1 button2).gMode = .normal →
        OwnRecord page := by
      intro hmode
      obtain ⟨hne, hbutton⟩ := (main_normal_iff _ button1 button2).mp hmode
      rcases h with herased | hpressed | hown
      · exact absurd herased hne
      · rw [hbutton] at hpressed
        cases hpressed
      · exact hown
    refine ⟨hnormal, fun hforeign => ?_, fun d hreach hmode => ?_⟩
    · by_contra hother
      have hmode : (main (DeviceData.ofPage page) button1 button2).gMode = .normal := by
        cases hm : (main (DeviceData.ofPage page) button1 button2).gMode with
        | normal => rfl
        | pairing => exact absurd hm hother
      exact hforeign (hnormal hmode)
    -- The index stays that of the record in every run that starts from it.
    · have hindexed : Indexed d := by
        apply hreach.invariant (I := Indexed)
        · rintro _ rfl
          refine ⟨idxStored_main _ _ _, fun _ => sound_main utters_slotRecord _ _ _, fun hm => ?_⟩
          rw [main_flash]
          exact ⟨(hnormal hm).lower, (hnormal hm).upper⟩
        · exact fun _ _ hd _ hhears => hd.step hhears
      exact hindexed.packetDelay_nonneg hmode

/-- A page that holds a record of the first scheme, with an index of 0. -/
def foreignPage : DsPage :=
  DeviceData.page ⟨0x87654321, .load (.replicate _ 0) [2, 48, 76], .replicate _ 7, 0⟩

/-- **A foreign record**: the device enters normal mode, and its delay is negative. -/
theorem not_trustsOwn_foreign :
    (DeviceData.ofPage foreignPage).signature ≠ dsSignature ∧
      (main (DeviceData.ofPage foreignPage) false false).gMode = .normal ∧
      (main (DeviceData.ofPage foreignPage) false false).packetDelay = -350 ∧
      ¬ TrustsOwn foreignPage false false := by
  have hsig : (DeviceData.ofPage foreignPage).signature ≠ dsSignature := by
    unfold foreignPage
    rw [DeviceData.ofPage_page]
    decide
  have hmode : (main (DeviceData.ofPage foreignPage) false false).gMode = .normal := by
    unfold foreignPage
    rw [DeviceData.ofPage_page, main_normal_iff]
    exact ⟨by decide, rfl⟩
  have hdelay : (main (DeviceData.ofPage foreignPage) false false).packetDelay = -350 := by
    unfold packetDelay
    rw [idxStored_main, main_flash]
    unfold foreignPage
    rw [DeviceData.ofPage_page]
    decide
  exact ⟨hsig, hmode, hdelay, fun h => hsig (h.normal hmode).signature⟩

end Device

end NordicEsb
