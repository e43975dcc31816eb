import NordicEsb.App.Box
import NordicEsb.App.Device

/-!
# The Record in Flash

`ds_update` erases a page and writes the record of a program word by word; the first word is the
signature. Power may be lost before the erase, or after it and any number of words. An erased
byte reads `0xff`.

The next run reads the page with `ds_get`. A device that finds `dev_idx` erased pairs again, and
`dev_idx` is in its last word. A box looks at the signature and at counters that are not both
zero.

**Main result** (`crashSafe_iff`): a device never runs in normal mode with a torn record. A box
does exactly if power was lost after the first word and before the last, the torn record is not
a complete one after all, and the button is not pressed.
-/

namespace NordicEsb

/-! ## §1 The page -/

/-- The bytes of the page that a record takes up: three words for both programs. -/
abbrev DsPage := FixedArray 12 UInt8

/-- The page after `NRF_NVMC->ERASEPAGE`. -/
def erasedPage : DsPage := .replicate 12 0xff

/-- `*addr = *p` for the word number `i` -/
def storeWord (record : DsPage) (i : ℕ) (page : DsPage) : DsPage :=
  fun j => if j.val / 4 = i then record j else page j

/-- The loop of `ds_update` after `n` words. -/
def storeWords (record : DsPage) : ℕ → DsPage → DsPage
  | 0, page => page
  | n + 1, page => storeWord record n (storeWords record n page)

/-- Where power is lost. -/
inductive PowerLoss where
  | beforeErase
  | afterWords (n : ℕ)
deriving DecidableEq, Repr

/-- `ds_update` on a page that holds `old`, up to the point at which power is lost. -/
def dsUpdate (record old : DsPage) : PowerLoss → DsPage
  | .beforeErase => old
  | .afterWords n => storeWords record n erasedPage

/-- **The words are written in order.** -/
theorem storeWords_apply (record page : DsPage) (n : ℕ) (j : Fin 12) :
    storeWords record n page j = if j.val < 4 * n then record j else page j := by
  induction n with
  | zero => simp [storeWords]
  | succ n ih =>
    unfold storeWords storeWord
    rw [ih]
    by_cases hword : j.val / 4 = n
    · rw [if_pos hword, if_pos (by omega)]
    · rw [if_neg hword]
      by_cases hlt : j.val < 4 * n
      · rw [if_pos hlt, if_pos (by omega)]
      · rw [if_neg hlt, if_neg (by omega)]

/-- After three words the page holds the record. -/
theorem storeWords_complete (record page : DsPage) {n : ℕ} (hn : 3 ≤ n) :
    storeWords record n page = record := by
  funext j
  rw [storeWords_apply, if_pos (by omega)]

/-- The bytes of a word, lowest first. -/
def wordBytes (w : UInt32) : List UInt8 :=
  [w.toUInt8, (w >>> 8).toUInt8, (w >>> 16).toUInt8, (w >>> 24).toUInt8]

/-- The word at the beginning of the page. -/
def firstWord (page : DsPage) : UInt32 :=
  .ofNat ((page.get 0).toNat + 256 * (page.get 1).toNat + 65536 * (page.get 2).toNat +
    16777216 * (page.get 3).toNat)

/-- Reading back the word. -/
theorem firstWord_load (w : UInt32) (page : DsPage) (l : List UInt8) :
    firstWord (page.load (wordBytes w ++ l)) = w := by
  have hlt : w.toNat < 4294967296 := w.toNat_lt
  have hsum : w.toUInt8.toNat + 256 * (w >>> 8).toUInt8.toNat +
      65536 * (w >>> 16).toUInt8.toNat + 16777216 * (w >>> 24).toUInt8.toNat = w.toNat := by
    simp only [UInt32.toNat_toUInt8, UInt32.toNat_shiftRight, Nat.shiftRight_eq_div_pow]
    show w.toNat % 256 + 256 * (w.toNat / 256 % 256) + 65536 * (w.toNat / 65536 % 256) +
      16777216 * (w.toNat / 16777216 % 256) = w.toNat
    omega
  show UInt32.ofNat (w.toUInt8.toNat + 256 * (w >>> 8).toUInt8.toNat +
    65536 * (w >>> 16).toUInt8.toNat + 16777216 * (w >>> 24).toUInt8.toNat) = w
  rw [hsum, UInt32.ofNat_toNat]

/-! ## §2 The records -/

/-- `ds_update` of the box: the record in memory order; the third word is padded. -/
def BoxData.page (ds : BoxData) : DsPage :=
  .load (.replicate 12 0)
    (wordBytes ds.signature ++
      (ds.chlist.firstN maximumChannelListSize ++ [ds.displaySlotIdx, ds.controllerSlotIdx]))

/-- `ds_get` of the box. -/
def BoxData.ofPage (page : DsPage) : BoxData where
  signature := firstWord page
  chlist := fun i => page.get (4 + i)
  displaySlotIdx := page.get 7
  controllerSlotIdx := page.get 8

/-- `ds_update` of a device: the record in memory order. -/
def DeviceData.page (ds : DeviceData) : DsPage :=
  .load (.replicate 12 0)
    (wordBytes ds.signature ++
      (ds.chlist.firstN maximumChannelListSize ++ (ds.sysAddress32.firstN 4 ++ [ds.devIdx])))

/-- `ds_get` of a device. -/
def DeviceData.ofPage (page : DsPage) : DeviceData where
  signature := firstWord page
  chlist := fun i => page.get (4 + i)
  sysAddress32 := fun i => page.get (7 + i)
  devIdx := page.get 11

/-- **A complete record is read back.** -/
theorem BoxData.ofPage_page (ds : BoxData) : BoxData.ofPage ds.page = ds := by
  obtain ⟨signature, chlist, display, controller⟩ := ds
  unfold BoxData.ofPage
  congr 1
  · exact firstWord_load _ _ _
  · funext i
    match i with
    | 0 | 1 | 2 => rfl

theorem DeviceData.ofPage_page (ds : DeviceData) : DeviceData.ofPage ds.page = ds := by
  obtain ⟨signature, chlist, address, idx⟩ := ds
  unfold DeviceData.ofPage
  congr 1
  · exact firstWord_load _ _ _
  · funext i
    match i with
    | 0 | 1 | 2 => rfl
  · funext i
    match i with
    | 0 | 1 | 2 | 3 => rfl

/-- What a box reads after `n` words of `ds`. -/
def BoxData.torn (ds : BoxData) (n : ℕ) : BoxData :=
  match n with
  | 0 => ⟨0xffffffff, .replicate _ 0xff, 0xff, 0xff⟩
  | 1 => { ds with chlist := .replicate _ 0xff, displaySlotIdx := 0xff, controllerSlotIdx := 0xff }
  | 2 => { ds with controllerSlotIdx := 0xff }
  | _ => ds

theorem firstWord_erasedPage : firstWord erasedPage = 0xffffffff := by
  have hget : ∀ i < 12, erasedPage.get i = 0xff := by decide
  unfold firstWord
  rw [hget 0 (by omega), hget 1 (by omega), hget 2 (by omega), hget 3 (by omega)]
  decide

theorem BoxData.ofPage_storeWords (ds : BoxData) (n : ℕ) :
    BoxData.ofPage (storeWords ds.page n erasedPage) = ds.torn n := by
  match n with
  | 0 =>
    unfold ofPage torn storeWords
    rw [firstWord_erasedPage]
    congr 1
    funext i
    match i with
    | 0 | 1 | 2 => rfl
  | 1 =>
    have hpage := ofPage_page ds
    have hword : firstWord (storeWords ds.page 1 erasedPage) = firstWord ds.page := rfl
    unfold ofPage torn
    congr 1
    · rw [hword]
      exact congrArg signature hpage
    · funext i
      match i with
      | 0 | 1 | 2 => rfl
  | 2 =>
    have hpage := ofPage_page ds
    have hword : firstWord (storeWords ds.page 2 erasedPage) = firstWord ds.page := rfl
    unfold ofPage torn
    congr 1
    · rw [hword]
      exact congrArg signature hpage
    · funext i
      match i with
      | 0 | 1 | 2 => rfl
  | n + 3 =>
    rw [storeWords_complete _ _ (by omega), BoxData.ofPage_page]
    rfl

/-- Before the last word a device finds its index erased. -/
theorem DeviceData.ofPage_storeWords (ds : DeviceData) {n : ℕ} (hn : n < 3) :
    (DeviceData.ofPage (storeWords ds.page n erasedPage)).devIdx = 0xff := by
  have hlast : storeWords ds.page n erasedPage 11 = erasedPage 11 := by
    rw [storeWords_apply, if_neg (by show ¬ 11 < 4 * n; omega)]
  exact hlast

/-! ## §3 The next run of a device -/

/-- A device runs in normal mode only with the fields of one complete record: those of `new`, or
    those of the record `old` that the page held before. -/
def Device.FromOne (old : Option DeviceData) (new : DeviceData) (d : Device) : Prop :=
  d.gMode = .normal → ∃ ds, (ds = new ∨ old = some ds) ∧
    d.gDs.chlist = ds.chlist ∧ d.gDs.sysAddress32 = ds.sysAddress32 ∧ d.gDs.devIdx = ds.devIdx

/-- The page before `ds_update`: a complete record, or an erased page. -/
def DeviceData.oldPage : Option DeviceData → DsPage
  | none => erasedPage
  | some ds => ds.page

theorem Device.boot_gDs (flash : DeviceData) (button2 : Bool) :
    (Device.boot flash button2).gDs.chlist = flash.chlist ∧
      (Device.boot flash button2).gDs.sysAddress32 = flash.sysAddress32 ∧
      (Device.boot flash button2).gDs.devIdx = flash.devIdx := by
  unfold Device.boot
  dsimp only
  split <;> exact ⟨rfl, rfl, rfl⟩

/-- `main` keeps the fields that it has read. -/
theorem Device.main_gDs (flash : DeviceData) (button1 button2 : Bool) :
    (Device.main flash button1 button2).gDs = (Device.boot flash button2).gDs := by
  unfold Device.main
  dsimp only
  split <;> rfl

/-- An erased index leads to pairing. -/
theorem Device.main_gMode {flash : DeviceData} (h : flash.devIdx = 0xff) (button1 button2 : Bool) :
    (Device.main flash button1 button2).gMode = .pairing := by
  have hboot : (Device.boot flash button2).gDs.devIdx = 0xff :=
    (Device.boot_gDs flash button2).2.2.trans h
  unfold Device.main
  dsimp only
  rw [if_pos (.inl hboot)]
  rfl

/-- **A device never runs with a torn record.** -/
theorem Device.fromOne_main (old : Option DeviceData) (new : DeviceData) (loss : PowerLoss)
    (button1 button2 : Bool) :
    Device.FromOne old new
      (Device.main (.ofPage (dsUpdate new.page (DeviceData.oldPage old) loss)) button1 button2) := by
  intro hnormal
  obtain ⟨flash, hflash⟩ : ∃ flash, flash = DeviceData.ofPage
      (dsUpdate new.page (DeviceData.oldPage old) loss) := ⟨_, rfl⟩
  rw [← hflash] at hnormal ⊢
  have hfields := Device.boot_gDs flash button2
  rw [← Device.main_gDs flash button1 button2] at hfields
  -- an erased index contradicts the normal mode
  have hidx : flash.devIdx ≠ 0xff := by
    intro herased
    rw [Device.main_gMode herased] at hnormal
    cases hnormal
  cases loss with
  | beforeErase =>
    cases old with
    | none => exact absurd (hflash ▸ rfl) hidx
    | some ds =>
      have hread : flash = ds := hflash.trans (DeviceData.ofPage_page ds)
      rw [hread] at hfields ⊢
      exact ⟨ds, .inr rfl, hfields⟩
  | afterWords n =>
    by_cases hn : n < 3
    · exact absurd (hflash ▸ DeviceData.ofPage_storeWords new hn) hidx
    · have hread : flash = new := by
        rw [hflash]
        show DeviceData.ofPage (storeWords new.page n erasedPage) = new
        rw [storeWords_complete _ _ (by omega), DeviceData.ofPage_page]
      rw [hread] at hfields ⊢
      exact ⟨new, .inl rfl, hfields⟩

/-! ## §4 The next run of the box -/

/-- The box runs in normal mode only with one complete record. -/
def Box.FromOne (old : Option BoxData) (new : BoxData) (b : Box) : Prop :=
  b.gMode = .normal → b.gDs = new ∨ old = some b.gDs

/-- The page before `ds_update`: a complete record, or an erased page. -/
def BoxData.oldPage : Option BoxData → DsPage
  | none => erasedPage
  | some ds => ds.page

/-- **When `main` chooses the normal mode**, and with which record. -/
theorem Box.main_gMode (chipId : FixedArray 4 UInt8) (flash : BoxData) (button : Bool)
    (picked : ChannelList) :
    ((Box.main chipId flash button picked).gMode = .normal ↔
        flash.signature = dsSignature ∧
          ¬ (flash.controllerSlotIdx = 0 ∧ flash.displaySlotIdx = 0) ∧ button = false) ∧
      ((Box.main chipId flash button picked).gMode = .normal →
        (Box.main chipId flash button picked).gDs = flash) := by
  have hsetup : ∀ b : Box, (Box.enterSetupMode picked b).gMode ≠ .normal := by
    intro b h
    cases h
  unfold Box.main
  dsimp only
  split
  case isTrue hsig =>
    refine ⟨⟨fun h => absurd h (hsetup _), fun h => absurd h.1 hsig⟩, fun h => absurd h (hsetup _)⟩
  case isFalse hsig =>
    have hvalid : flash.signature = dsSignature := not_not.mp hsig
    split
    case isTrue hzero =>
      exact ⟨⟨fun h => absurd h (hsetup _), fun h => absurd hzero h.2.1⟩,
        fun h => absurd h (hsetup _)⟩
    case isFalse hzero =>
      cases button with
      | true =>
        exact ⟨⟨fun h => absurd h (hsetup _), fun h => by cases h.2.2⟩, fun h => absurd h (hsetup _)⟩
      | false => exact ⟨⟨fun _ => ⟨hvalid, hzero, rfl⟩, fun _ => rfl⟩, fun _ => rfl⟩

/-- What keeps the box from a torn record: power was lost before the page was erased, before the
    signature was written, or so late that the page holds a complete record after all. -/
def BoxData.Whole (old : Option BoxData) (new : BoxData) : PowerLoss → Prop
  | .beforeErase => True
  | .afterWords n => n = 0 ∨ new.torn n = new ∨ old = some (new.torn n)

/-- A torn record does not look like one of an empty box. -/
theorem BoxData.torn_counters {ds : BoxData} {n : ℕ} (hne : ds.torn n ≠ ds) :
    ¬ ((ds.torn n).controllerSlotIdx = 0 ∧ (ds.torn n).displaySlotIdx = 0) := by
  match n with
  | 0 | 1 | 2 =>
    rintro ⟨hzero, -⟩
    cases hzero
  | n + 3 => exact absurd rfl hne

/-- Without its signature no record is valid. -/
theorem BoxData.torn_zero_signature (ds : BoxData) : (ds.torn 0).signature ≠ dsSignature := by
  show (0xffffffff : UInt32) ≠ dsSignature
  decide

theorem BoxData.torn_signature (ds : BoxData) {n : ℕ} (hn : n ≠ 0) :
    (ds.torn n).signature = ds.signature := by
  match n with
  | 0 => exact absurd rfl hn
  | 1 | 2 | n + 3 => rfl

/-- **When a box runs with one complete record only.** -/
theorem Box.fromOne_main_iff (chipId : FixedArray 4 UInt8) (picked : ChannelList)
    (old : Option BoxData) (new : BoxData) (loss : PowerLoss) (button : Bool) :
    Box.FromOne old new
        (Box.main chipId (.ofPage (dsUpdate new.page (BoxData.oldPage old) loss)) button picked) ↔
      button = true ∨ new.signature ≠ dsSignature ∨ BoxData.Whole old new loss := by
  obtain ⟨flash, hflash⟩ : ∃ flash, flash = BoxData.ofPage
      (dsUpdate new.page (BoxData.oldPage old) loss) := ⟨_, rfl⟩
  rw [← hflash]
  obtain ⟨hmode, hread⟩ := Box.main_gMode chipId flash button picked
  -- in normal mode the record is the one on the page
  have hfrom : Box.FromOne old new (Box.main chipId flash button picked) ↔
      (flash.signature = dsSignature ∧
          ¬ (flash.controllerSlotIdx = 0 ∧ flash.displaySlotIdx = 0) ∧ button = false →
        flash = new ∨ old = some flash) := by
    unfold Box.FromOne
    rw [← hmode]
    constructor
    · intro h hnormal
      rw [← hread hnormal]
      exact h hnormal
    · intro h hnormal
      rw [hread hnormal]
      exact h hnormal
  rw [hfrom]
  cases loss with
  | beforeErase =>
    simp only [BoxData.Whole, or_true, iff_true]
    rintro ⟨hsig, -, -⟩
    cases old with
    | none =>
      have herased : flash.signature = 0xffffffff := by
        rw [hflash]
        exact firstWord_erasedPage
      rw [herased] at hsig
      exact absurd hsig (by decide)
    | some ds =>
      have hds : flash = ds := hflash.trans (BoxData.ofPage_page ds)
      exact .inr (congrArg some hds.symm)
  | afterWords n =>
    have htorn : flash = new.torn n := hflash.trans (BoxData.ofPage_storeWords new n)
    rw [htorn]
    constructor
    · intro h
      by_contra hcond
      simp only [BoxData.Whole, not_or, ne_eq, not_not, Bool.not_eq_true] at hcond
      obtain ⟨hbutton, hsig, hzero, hnew, hold⟩ := hcond
      have hcomplete := h ⟨(BoxData.torn_signature new hzero).trans hsig,
        BoxData.torn_counters hnew, hbutton⟩
      exact hcomplete.elim hnew hold
    · rintro hcond ⟨hsig, -, hbutton⟩
      rcases hcond with hpressed | hinvalid | hzero | hnew | hold
      · rw [hbutton] at hpressed
        cases hpressed
      · by_cases hn : n = 0
        · subst hn
          exact absurd hsig new.torn_zero_signature
        · rw [BoxData.torn_signature new hn] at hsig
          exact absurd hsig hinvalid
      · subst hzero
        exact absurd hsig new.torn_zero_signature
      · exact .inl hnew
      · exact .inr hold

/-- The ranges of the fields of a record. -/
structure BoxData.InRange (ds : BoxData) : Prop where
  chlist : ∀ i, ds.chlist i ≤ 125
  display : ds.displaySlotIdx ≤ maximumDisplayDev
  controller : ds.controllerSlotIdx ≤ maximumControllerDev

/-- With records in range, the words that are missing show. -/
theorem BoxData.whole_iff {old : Option BoxData} {new : BoxData} {n : ℕ}
    (hold : ∀ ds, old = some ds → ds.InRange) (hnew : new.InRange) :
    BoxData.Whole old new (.afterWords n) ↔ n = 0 ∨ 3 ≤ n := by
  have htorn : n = 1 ∨ n = 2 → ¬ (new.torn n).InRange := by
    intro hmid h
    have herased : (new.torn n).controllerSlotIdx = 0xff := by
      rcases hmid with rfl | rfl <;> rfl
    have hle := h.controller
    rw [herased] at hle
    exact absurd hle (by decide)
  constructor
  · intro h
    by_contra hcond
    have hmid : n = 1 ∨ n = 2 := by omega
    rcases h with hzero | heq | heq
    · omega
    · exact htorn hmid (by rwa [heq])
    · exact htorn hmid (hold _ heq)
  · rintro (hzero | hn)
    · exact .inl hzero
    · right
      left
      match n, hn with
      | n + 3, _ => rfl

/-! ## §5 Crash safety -/

/-- **Crash safety of the flash record**: always for a device, and for a box unless power was
    lost between the signature and the last word. -/
theorem crashSafe_iff (loss : PowerLoss)
    (oldDevice : Option DeviceData) (newDevice : DeviceData) (button1 button2 : Bool)
    (chipId : FixedArray 4 UInt8) (picked : ChannelList) (oldBox : Option BoxData)
    (newBox : BoxData) (button : Bool) :
    Device.FromOne oldDevice newDevice
        (Device.main (.ofPage (dsUpdate newDevice.page (DeviceData.oldPage oldDevice) loss))
          button1 button2) ∧
      (Box.FromOne oldBox newBox
          (Box.main chipId (.ofPage (dsUpdate newBox.page (BoxData.oldPage oldBox) loss)) button
            picked) ↔
        button = true ∨ newBox.signature ≠ dsSignature ∨ BoxData.Whole oldBox newBox loss) :=
  ⟨Device.fromOne_main oldDevice newDevice loss button1 button2,
    Box.fromOne_main_iff chipId picked oldBox newBox loss button⟩

/-- The record of a box whose six slots are taken. -/
def fullRecord : BoxData := ⟨dsSignature, defaultPairingChannelList, 4, 2⟩

/-- Two words of three: the box runs with 255 controllers. -/
theorem not_fromOne_fullRecord :
    ¬ Box.FromOne none fullRecord
      (Box.main defaultPairingAddress32
        (.ofPage (dsUpdate fullRecord.page (BoxData.oldPage none) (.afterWords 2))) false
        defaultPairingChannelList) := by
  rw [Box.fromOne_main_iff, BoxData.Whole]
  decide

end NordicEsb
