import NordicEsb.Dfu.Continue
import NordicEsb.Fds.Layout

/-!
# Placement of a New Image

`nrf_dfu_find_cache` looks for a place for a new image in the DFU region, which goes from the first
application page to the bootloader, with bytes for application data at its end. Behind a valid
application the image goes to bank 1, as long as it fits there; otherwise it replaces the
application.

What is left behind the application is an unsigned difference. If the pages of the application
reach into the application data, the difference is negative for a reader and huge for the code: bank
1 is chosen, behind the end of the region.

- `DfuRegion` is the region, `nrfDfuFindCache` the function
- `toNat_alignToPage` says that the page rounding does not wrap for an image that fits
- `Placed` is what is asked of a placement

**Main result** (`placed_iff`): the placement is right if and only if a valid application does not
reach into the application data, or the new image is too large for any bank.
-/

namespace NordicEsb.DfuCache

/-! ## §1 The function -/

/-- `CODE_PAGE_SIZE` -/
def codePageSize (family : NrfFamily) : BitVec 32 := BitVec.ofNat 32 (4 * family.phyPageSize)

/-- `align_to_page` -/
def alignToPage (val pageSize : BitVec 32) : BitVec 32 :=
  (val + pageSize - 1) &&& ~~~(pageSize - 1)

/-- The DFU region. -/
structure DfuRegion where
  family : NrfFamily
  /-- `MAIN_APPLICATION_START_ADDR` and `CODE_REGION_1_START`: the end of the SoftDevice. -/
  mainApplicationStartAddr : BitVec 32
  /-- The value at `NRF_UICR_BOOTLOADER_START_ADDRESS`. -/
  bootloaderStart : BitVec 32
  /-- `DFU_APP_DATA_RESERVED` -/
  appDataReserved : BitVec 32
  /-- The SoftDevice ends at a page boundary. -/
  start_aligned : (codePageSize family).toNat ∣ mainApplicationStartAddr.toNat
  /-- The MBR is in the first page. -/
  start_pos : 0 < mainApplicationStartAddr.toNat
  start_le : mainApplicationStartAddr.toNat ≤ bootloaderStart.toNat

/-- `CODE_PAGE_SIZE` of this device. -/
def DfuRegion.pageSize (r : DfuRegion) : BitVec 32 := codePageSize r.family

/-- `DFU_REGION_TOTAL_SIZE` -/
def DfuRegion.totalSize (r : DfuRegion) : BitVec 32 :=
  r.bootloaderStart - r.mainApplicationStartAddr

/-- `nrf_dfu_bank_t` -/
structure NrfDfuBank where
  imageSize : BitVec 32
  imageCrc : BitVec 32
  bankCode : BitVec 32
deriving DecidableEq, Repr

/-- `NRF_DFU_BANK_VALID_APP` -/
def bankValidApp : BitVec 32 := 0x01

/-- `NRF_DFU_BANK_LAYOUT_DUAL` -/
def bankLayoutDual : BitVec 32 := 0x00

/-- `NRF_DFU_BANK_LAYOUT_SINGLE` -/
def bankLayoutSingle : BitVec 32 := 0x01

/-- `NRF_DFU_CURRENT_BANK_0` -/
def currentBank0 : BitVec 32 := 0x00

/-- `NRF_DFU_CURRENT_BANK_1` -/
def currentBank1 : BitVec 32 := 0x01

/-- What `nrf_dfu_find_cache` reads and writes of `s_dfu_settings`. -/
structure NrfDfuSettings where
  bankLayout : BitVec 32
  bankCurrent : BitVec 32
  bank0 : NrfDfuBank
  bank1 : NrfDfuBank
deriving DecidableEq, Repr

/-- The bank is cleared with `memset`, and the size of the new image is stored. -/
def cleared (sizeReq : BitVec 32) : NrfDfuBank := ⟨sizeReq, 0, 0⟩

/-- What `nrf_dfu_find_cache` returns. -/
inductive Ret where
  | success
  | errorNoMem
deriving DecidableEq, Repr

/-- The return value, the value at `p_address`, and the settings. -/
structure Found where
  ret : Ret
  pAddress : BitVec 32
  settings : NrfDfuSettings

/-- `nrf_dfu_find_cache` -/
def nrfDfuFindCache (r : DfuRegion) (sizeReq : BitVec 32) (dualBankOnly : Bool)
    (pAddress : BitVec 32) (s : NrfDfuSettings) : Found :=
  let freeSize := r.totalSize - r.appDataReserved
  if freeSize < sizeReq then ⟨.errorNoMem, pAddress, s⟩
  else
    let pAddress := r.mainApplicationStartAddr
    if s.bank0.bankCode = bankValidApp then
      let freeSize := freeSize - alignToPage s.bank0.imageSize r.pageSize
      if sizeReq > freeSize then
        if dualBankOnly then ⟨.errorNoMem, pAddress, s⟩
        else
          -- The old application is cleared.
          ⟨.success, pAddress, { s with
            bankLayout := bankLayoutSingle
            bankCurrent := currentBank0
            bank0 := cleared sizeReq }⟩
      else
        ⟨.success, pAddress + alignToPage s.bank0.imageSize r.pageSize, { s with
          bankLayout := bankLayoutDual
          bankCurrent := currentBank1
          bank1 := cleared sizeReq }⟩
    else
      ⟨.success, pAddress, { s with
        bankLayout := bankLayoutDual
        bankCurrent := currentBank0
        bank0 := cleared sizeReq }⟩

/-! ## §2 What is asked of a placement -/

section Placement

variable (r : DfuRegion)

/-- The number of bytes in the pages of an image. -/
def DfuRegion.pagesOf (size : BitVec 32) : ℕ := Dfu.alignToPage size.toNat r.pageSize.toNat

/-- The image fits in the region. -/
def DfuRegion.Fits (s : NrfDfuSettings) : Prop :=
  r.mainApplicationStartAddr.toNat + s.bank0.imageSize.toNat ≤ r.bootloaderStart.toNat

/-- **The placement is right.** -/
structure Placed (sizeReq : BitVec 32) (dualBankOnly : Bool) (s : NrfDfuSettings)
    (found : Found) : Prop where
  aligned : found.ret = .success → r.pageSize.toNat ∣ found.pAddress.toNat
  inside : found.ret = .success →
    r.mainApplicationStartAddr.toNat ≤ found.pAddress.toNat ∧
    found.pAddress.toNat + sizeReq.toNat + r.appDataReserved.toNat ≤ r.bootloaderStart.toNat
  /-- no byte of the range is in the pages of a valid application that stays -/
  disjoint : found.ret = .success → s.bank0.bankCode = bankValidApp →
    found.settings.bankLayout ≠ bankLayoutSingle →
    ∀ addr, found.pAddress.toNat ≤ addr → addr < found.pAddress.toNat + sizeReq.toNat →
      ¬ (r.mainApplicationStartAddr.toNat ≤ addr ∧
        addr < r.mainApplicationStartAddr.toNat + r.pagesOf s.bank0.imageSize)
  single : found.ret = .success → found.settings.bankLayout = bankLayoutSingle →
    dualBankOnly = false
  /-- the bank that is cleared is the one at the address, and the other one stays -/
  clears : found.ret = .success →
    found.settings.bankCurrent = currentBank0 ∧
      found.pAddress = r.mainApplicationStartAddr ∧
      found.settings.bank0 = cleared sizeReq ∧ found.settings.bank1 = s.bank1 ∨
    found.settings.bankCurrent = currentBank1 ∧
      found.pAddress.toNat = r.mainApplicationStartAddr.toNat + r.pagesOf s.bank0.imageSize ∧
      found.settings.bank1 = cleared sizeReq ∧ found.settings.bank0 = s.bank0
  /-- the size without the application data -/
  noWrap : r.totalSize.toNat = r.bootloaderStart.toNat - r.mainApplicationStartAddr.toNat ∧
    r.appDataReserved.toNat ≤ r.totalSize.toNat
  /-- the size without the application -/
  noWrapBank0 : sizeReq ≤ r.totalSize - r.appDataReserved → s.bank0.bankCode = bankValidApp →
    alignToPage s.bank0.imageSize r.pageSize ≤ r.totalSize - r.appDataReserved
  unchanged : found.ret = .errorNoMem → found.settings = s

/-- **The condition**: the application data are in the region, and no valid application reaches
    into them, or the new image is too large for any bank. -/
def Roomy (sizeReq : BitVec 32) (s : NrfDfuSettings) : Prop :=
  r.appDataReserved ≤ r.totalSize ∧
    (s.bank0.bankCode ≠ bankValidApp ∨ r.totalSize - r.appDataReserved < sizeReq ∨
      alignToPage s.bank0.imageSize r.pageSize ≤ r.totalSize - r.appDataReserved)

end Placement

/-! ## §3 Pages -/

/-- **Clearing the low bits** rounds down. -/
theorem toNat_and_not_mask (x m : BitVec 32) {k : ℕ} (hm : m.toNat = 2 ^ k - 1) :
    (x &&& ~~~m).toNat = x.toNat / 2 ^ k * 2 ^ k := by
  have hdisjoint : (x &&& ~~~m) &&& (x &&& m) = 0 := by
    ext i
    simp only [BitVec.getElem_and, BitVec.getElem_not]
    cases m[i] <;> simp
  have hjoin : (x &&& ~~~m) ||| (x &&& m) = x := by
    ext i
    simp only [BitVec.getElem_and, BitVec.getElem_or, BitVec.getElem_not]
    cases m[i] <;> simp
  have hsum := BitVec.add_eq_or_of_and_eq_zero _ _ hdisjoint
  rw [hjoin] at hsum
  have hlow : (x &&& m).toNat = x.toNat % 2 ^ k := by
    rw [BitVec.toNat_and, hm, Nat.and_two_pow_sub_one_eq_mod]
  have hle : (x &&& ~~~m).toNat ≤ x.toNat := by
    rw [BitVec.toNat_and]
    exact Nat.and_le_left
  have hdiv := Nat.div_add_mod' x.toNat (2 ^ k)
  bv_omega

theorem codePageSize_eq (family : NrfFamily) :
    ∃ k, (codePageSize family).toNat = 2 ^ k ∧ 10 ≤ k ∧ k ≤ 12 := by
  cases family with
  | nrf51 => exact ⟨10, rfl, le_rfl, by decide⟩
  | nrf52 => exact ⟨12, rfl, by decide, le_rfl⟩

section Pages

variable (r : DfuRegion) {s : NrfDfuSettings}

theorem DfuRegion.pageSize_le_start :
    r.pageSize.toNat ≤ r.mainApplicationStartAddr.toNat :=
  Nat.le_of_dvd r.start_pos r.start_aligned

theorem DfuRegion.pageSize_pos : 0 < r.pageSize.toNat := by
  obtain ⟨k, hk, -, -⟩ := codePageSize_eq r.family
  unfold DfuRegion.pageSize
  rw [hk]
  exact Nat.two_pow_pos k

theorem DfuRegion.toNat_totalSize :
    r.totalSize.toNat = r.bootloaderStart.toNat - r.mainApplicationStartAddr.toNat := by
  have hle := r.start_le
  unfold DfuRegion.totalSize
  bv_omega

/-- **The page rounding** does not wrap for an image that fits in the region. -/
theorem DfuRegion.toNat_alignToPage (hfits : r.Fits s) :
    (alignToPage s.bank0.imageSize r.pageSize).toNat = r.pagesOf s.bank0.imageSize := by
  obtain ⟨k, hk, -, -⟩ := codePageSize_eq r.family
  have hstart := r.pageSize_le_start
  have hpos := r.pageSize_pos
  have hboot := r.bootloaderStart.isLt
  unfold DfuRegion.Fits at hfits
  have hmask : (r.pageSize - 1).toNat = 2 ^ k - 1 := by
    have hpage : r.pageSize.toNat = 2 ^ k := hk
    rw [← hpage]
    bv_omega
  have hsum : (s.bank0.imageSize + r.pageSize - 1).toNat =
      s.bank0.imageSize.toNat + r.pageSize.toNat - 1 := by
    bv_omega
  unfold alignToPage DfuRegion.pagesOf Dfu.alignToPage
  rw [toNat_and_not_mask _ _ hmask, hsum]
  unfold DfuRegion.pageSize
  rw [hk]

theorem DfuRegion.dvd_pagesOf (size : BitVec 32) : r.pageSize.toNat ∣ r.pagesOf size := by
  unfold DfuRegion.pagesOf Dfu.alignToPage
  exact Nat.dvd_mul_left _ _

end Pages

/-! ## §4 The cases of the function -/

variable {r : DfuRegion} {sizeReq pAddress : BitVec 32} {dualBankOnly : Bool}
  {s : NrfDfuSettings}

/-- The size behind a valid application, as the code computes it. -/
def DfuRegion.behind (r : DfuRegion) (s : NrfDfuSettings) : BitVec 32 :=
  r.totalSize - r.appDataReserved - alignToPage s.bank0.imageSize r.pageSize

/-- The new image is too large. -/
theorem nrfDfuFindCache_large (hsize : r.totalSize - r.appDataReserved < sizeReq) :
    nrfDfuFindCache r sizeReq dualBankOnly pAddress s = ⟨.errorNoMem, pAddress, s⟩ := by
  unfold nrfDfuFindCache
  dsimp only
  rw [if_pos hsize]

/-- There is no application. -/
theorem nrfDfuFindCache_empty (hsize : ¬ r.totalSize - r.appDataReserved < sizeReq)
    (hvalid : s.bank0.bankCode ≠ bankValidApp) :
    nrfDfuFindCache r sizeReq dualBankOnly pAddress s =
      ⟨.success, r.mainApplicationStartAddr,
        ⟨bankLayoutDual, currentBank0, cleared sizeReq, s.bank1⟩⟩ := by
  unfold nrfDfuFindCache
  dsimp only
  rw [if_neg hsize, if_neg hvalid]

/-- **Bank 1**: the image goes behind the application. -/
theorem nrfDfuFindCache_behind (hsize : ¬ r.totalSize - r.appDataReserved < sizeReq)
    (hvalid : s.bank0.bankCode = bankValidApp) (hroom : ¬ sizeReq > r.behind s) :
    nrfDfuFindCache r sizeReq dualBankOnly pAddress s =
      ⟨.success, r.mainApplicationStartAddr + alignToPage s.bank0.imageSize r.pageSize,
        ⟨bankLayoutDual, currentBank1, s.bank0, cleared sizeReq⟩⟩ := by
  unfold nrfDfuFindCache
  dsimp only
  rw [if_neg hsize, if_pos hvalid]
  exact if_neg hroom

/-- There is no room behind the application: it is replaced, unless two banks are required. -/
theorem nrfDfuFindCache_replace (hsize : ¬ r.totalSize - r.appDataReserved < sizeReq)
    (hvalid : s.bank0.bankCode = bankValidApp) (hroom : sizeReq > r.behind s) :
    nrfDfuFindCache r sizeReq dualBankOnly pAddress s =
      if dualBankOnly then ⟨.errorNoMem, r.mainApplicationStartAddr, s⟩
      else ⟨.success, r.mainApplicationStartAddr,
        ⟨bankLayoutSingle, currentBank0, cleared sizeReq, s.bank1⟩⟩ := by
  unfold nrfDfuFindCache
  dsimp only
  rw [if_neg hsize, if_pos hvalid]
  exact if_pos hroom

/-! ## §5 The placement -/

/-- The pages of the application and the new image fit in front of the application data. -/
theorem pages_add_le (hfits : r.Fits s) (hdata : r.appDataReserved ≤ r.totalSize)
    (hroomy : alignToPage s.bank0.imageSize r.pageSize ≤ r.totalSize - r.appDataReserved)
    (hroom : ¬ sizeReq > r.behind s) :
    r.mainApplicationStartAddr.toNat + r.pagesOf s.bank0.imageSize + sizeReq.toNat +
      r.appDataReserved.toNat ≤ r.bootloaderStart.toNat := by
  have hpages := r.toNat_alignToPage hfits
  have htotal := r.toNat_totalSize
  have hle := r.start_le
  unfold DfuRegion.behind at hroom
  obtain ⟨pages, hp⟩ : ∃ pages, pages = alignToPage s.bank0.imageSize r.pageSize := ⟨_, rfl⟩
  rw [← hp] at hroomy hroom hpages
  bv_omega

/-- **Behind the region**: if the difference wraps, bank 1 is chosen, and the image is not in front
    of the application data. -/
theorem outside_of_wrap (hdata : r.appDataReserved ≤ r.totalSize)
    (hsize : ¬ r.totalSize - r.appDataReserved < sizeReq)
    (hvalid : s.bank0.bankCode = bankValidApp)
    (hwrap : ¬ alignToPage s.bank0.imageSize r.pageSize ≤ r.totalSize - r.appDataReserved) :
    (nrfDfuFindCache r sizeReq dualBankOnly pAddress s).ret = .success ∧
    ¬ (r.mainApplicationStartAddr.toNat ≤
        (nrfDfuFindCache r sizeReq dualBankOnly pAddress s).pAddress.toNat ∧
      (nrfDfuFindCache r sizeReq dualBankOnly pAddress s).pAddress.toNat + sizeReq.toNat +
        r.appDataReserved.toNat ≤ r.bootloaderStart.toNat) := by
  have htotal := r.toNat_totalSize
  have hle := r.start_le
  have hroom : ¬ sizeReq > r.behind s := by
    unfold DfuRegion.behind
    obtain ⟨pages, hp⟩ : ∃ pages, pages = alignToPage s.bank0.imageSize r.pageSize := ⟨_, rfl⟩
    rw [← hp] at hwrap ⊢
    bv_omega
  rw [nrfDfuFindCache_behind hsize hvalid hroom]
  refine ⟨rfl, ?_⟩
  dsimp only
  obtain ⟨pages, hp⟩ : ∃ pages, pages = alignToPage s.bank0.imageSize r.pageSize := ⟨_, rfl⟩
  rw [← hp] at hwrap ⊢
  bv_omega

section Roomy

variable (hfits : r.Fits s) (h : Roomy r sizeReq s)
include h

theorem Roomy.noWrapBank0 (hsize : sizeReq ≤ r.totalSize - r.appDataReserved)
    (hvalid : s.bank0.bankCode = bankValidApp) :
    alignToPage s.bank0.imageSize r.pageSize ≤ r.totalSize - r.appDataReserved := by
  rcases h.2 with hnot | hlarge | hroomy
  · exact absurd hvalid hnot
  · exact absurd hsize (BitVec.not_le.mpr hlarge)
  · exact hroomy

/-- Nothing is placed. -/
theorem Roomy.placed_noMem (address : BitVec 32) :
    Placed r sizeReq dualBankOnly s ⟨.errorNoMem, address, s⟩ where
  aligned hret := nomatch hret
  inside hret := nomatch hret
  disjoint hret := nomatch hret
  single hret := nomatch hret
  clears hret := nomatch hret
  noWrap := ⟨r.toNat_totalSize, h.1⟩
  noWrapBank0 := h.noWrapBank0
  unchanged _ := rfl

/-- **Bank 0**: no application is there, or it is replaced. -/
theorem Roomy.placed_bank0 {layout : BitVec 32}
    (hsize : ¬ r.totalSize - r.appDataReserved < sizeReq)
    (hlayout : s.bank0.bankCode = bankValidApp → layout = bankLayoutSingle)
    (hsingle : layout = bankLayoutSingle → dualBankOnly = false) :
    Placed r sizeReq dualBankOnly s ⟨.success, r.mainApplicationStartAddr,
      ⟨layout, currentBank0, cleared sizeReq, s.bank1⟩⟩ where
  aligned _ := r.start_aligned
  inside _ := by
    have hdata := h.1
    have htotal := r.toNat_totalSize
    have hle := r.start_le
    refine ⟨le_rfl, ?_⟩
    dsimp only
    bv_omega
  disjoint _ hvalid hdual := absurd (hlayout hvalid) hdual
  single _ := hsingle
  clears _ := .inl ⟨rfl, rfl, rfl, rfl⟩
  noWrap := ⟨r.toNat_totalSize, h.1⟩
  noWrapBank0 := h.noWrapBank0
  unchanged hret := nomatch hret

include hfits

/-- **Bank 1**: the image begins at the page behind the application. -/
theorem Roomy.placed_bank1 (hsize : ¬ r.totalSize - r.appDataReserved < sizeReq)
    (hvalid : s.bank0.bankCode = bankValidApp) (hroom : ¬ sizeReq > r.behind s) :
    Placed r sizeReq dualBankOnly s
      ⟨.success, r.mainApplicationStartAddr + alignToPage s.bank0.imageSize r.pageSize,
        ⟨bankLayoutDual, currentBank1, s.bank0, cleared sizeReq⟩⟩ := by
  have hroomy := h.noWrapBank0 (BitVec.not_lt.mp hsize) hvalid
  have hend := pages_add_le hfits h.1 hroomy hroom
  have hboot := r.bootloaderStart.isLt
  have haddress :
      (r.mainApplicationStartAddr + alignToPage s.bank0.imageSize r.pageSize).toNat =
        r.mainApplicationStartAddr.toNat + r.pagesOf s.bank0.imageSize := by
    rw [BitVec.toNat_add, r.toNat_alignToPage hfits]
    exact Nat.mod_eq_of_lt (by omega)
  constructor
  · intro _
    dsimp only
    rw [haddress]
    exact Nat.dvd_add r.start_aligned (r.dvd_pagesOf _)
  · intro _
    dsimp only
    rw [haddress]
    omega
  · intro _ _ _ addr hge _ hin
    dsimp only at hge
    rw [haddress] at hge
    omega
  · intro _ hlayout
    dsimp only at hlayout
    exact absurd hlayout (by decide)
  · intro _
    exact .inr ⟨rfl, haddress, rfl, rfl⟩
  · exact ⟨r.toNat_totalSize, h.1⟩
  · exact h.noWrapBank0
  · intro hret
    exact nomatch hret

/-- **A region with room** gets the image into the right place. -/
theorem Roomy.placed :
    Placed r sizeReq dualBankOnly s (nrfDfuFindCache r sizeReq dualBankOnly pAddress s) := by
  by_cases hsize : r.totalSize - r.appDataReserved < sizeReq
  · rw [nrfDfuFindCache_large hsize]
    exact h.placed_noMem _
  · by_cases hvalid : s.bank0.bankCode = bankValidApp
    · by_cases hroom : sizeReq > r.behind s
      · rw [nrfDfuFindCache_replace hsize hvalid hroom]
        cases dualBankOnly with
        | true => exact h.placed_noMem _
        | false => exact h.placed_bank0 hsize (fun _ => rfl) (fun _ => rfl)
      · rw [nrfDfuFindCache_behind hsize hvalid hroom]
        exact h.placed_bank1 hfits hsize hvalid hroom
    · rw [nrfDfuFindCache_empty hsize hvalid]
      apply h.placed_bank0 hsize
      · intro hvalid'
        exact absurd hvalid' hvalid
      · intro hlayout
        exact absurd hlayout (by decide)

end Roomy

/-- **The placement is right if and only if there is room**: for every image that fits in the
    region. -/
theorem placed_iff (r : DfuRegion) (sizeReq : BitVec 32) (dualBankOnly : Bool)
    (pAddress : BitVec 32) (s : NrfDfuSettings) (hfits : r.Fits s) :
    Placed r sizeReq dualBankOnly s (nrfDfuFindCache r sizeReq dualBankOnly pAddress s) ↔
      Roomy r sizeReq s := by
  constructor
  · intro h
    refine ⟨h.noWrap.2, ?_⟩
    by_contra hnot
    simp only [not_or, ne_eq, not_not] at hnot
    obtain ⟨hvalid, hsize, hwrap⟩ := hnot
    -- The difference wraps, so bank 1 is chosen, and the image does not fit in front of the data.
    obtain ⟨hret, hout⟩ := outside_of_wrap h.noWrap.2 hsize hvalid hwrap
    exact hout (h.inside hret)
  · intro h
    exact h.placed hfits

/-- An nRF52 with its bootloader at 0x78000. -/
def nrf52Region : DfuRegion where
  family := .nrf52
  mainApplicationStartAddr := 0x1F000
  bootloaderStart := 0x78000
  appDataReserved := 0x3000
  start_aligned := by decide
  start_pos := by decide
  start_le := by decide

/-- A valid application of this size. -/
def appOfSize (size : BitVec 32) : NrfDfuSettings :=
  ⟨bankLayoutDual, currentBank0, ⟨size, 0, bankValidApp⟩, ⟨0, 0, 0⟩⟩

/-- An application of 64 KB and a new image of 32 KB. -/
theorem placed_nrf52 :
    Placed nrf52Region 0x8000 true (appOfSize 0x10000)
        (nrfDfuFindCache nrf52Region 0x8000 true 0 (appOfSize 0x10000)) ↔
      Roomy nrf52Region 0x8000 (appOfSize 0x10000) :=
  placed_iff nrf52Region 0x8000 true 0 (appOfSize 0x10000) (by unfold DfuRegion.Fits; decide)

/-- **An application that reaches into the application data**: the new image is put into the
    bootloader. -/
theorem not_placed_overData :
    ¬ ∀ (r : DfuRegion) (sizeReq : BitVec 32) (dualBankOnly : Bool) (pAddress : BitVec 32)
      (s : NrfDfuSettings), r.Fits s →
      Placed r sizeReq dualBankOnly s (nrfDfuFindCache r sizeReq dualBankOnly pAddress s) := by
  intro hall
  have hfits : nrf52Region.Fits (appOfSize 0x59000) := by
    unfold DfuRegion.Fits
    decide
  have hinside := (hall nrf52Region 0x1000 true 0 (appOfSize 0x59000) hfits).inside (by decide)
  exact absurd hinside.2 (by decide)

end NordicEsb.DfuCache
