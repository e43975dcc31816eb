import NordicEsb.Fds.Boot
import NordicEsb.Fds.Collection

/-!
# Recovery

Power that is lost during a collection leaves the flash in one of three arrangements
(`FlashLayout`): a page tagged swap and data pages, a swap page with copies and the erased page
they come from, or an erased page and data pages. The operations of `fds_init` take each to the
next and end with an empty swap page, unless `pages_init` has not noted the erased page as the
candidate for a new swap page (`PromotesErased`).

**Main results**: `GcInv.layout`, `initExecute_begin` and `initExecute_done`.
-/

namespace NordicEsb

variable {cfg : FdsConfig} {f : Flash 32} {live : ℕ → List FdsRecord} {s s' : Fds cfg}

/-! ## §1 Arrangements of the pages -/

/-- The valid records on all pages but the one at `a`. -/
def recordsBut (cfg : FdsConfig) (f : Flash 32) (a : ℕ) : List FdsRecord :=
  (cfg.pageAddrs.erase a).flatMap (pageRecords cfg f)

/-- **What power loss leaves of the records `kept`.** -/
inductive FlashLayout (cfg : FdsConfig) (f : Flash 32) (kept : List FdsRecord) : Prop where
  /-- A page is tagged swap, and the others have the records. -/
  | tagged (w : ℕ) (rs : List FdsRecord) (hw : w < cfg.virtualPages)
      (swap : SwapTagged cfg f (cfg.pageAddr w) rs)
      (data : ∀ p < cfg.virtualPages, p ≠ w → ∃ rs, DataPage cfg f (cfg.pageAddr p) rs)
      (records : (recordsBut cfg f (cfg.pageAddr w)).Perm kept)
  /-- A page is erased, and the copies of its records are on the page tagged swap. -/
  | copied (e w : ℕ) (rs : List FdsRecord) (he : e < cfg.virtualPages) (hw : w < cfg.virtualPages)
      (hne : e ≠ w) (erased : ErasedPage cfg f (cfg.pageAddr e))
      (swap : SwapPage cfg f (cfg.pageAddr w) rs) (valid : rs.filter FdsRecord.isValid = rs)
      (data : ∀ p < cfg.virtualPages, p ≠ w → p ≠ e → ∃ rs, DataPage cfg f (cfg.pageAddr p) rs)
      (records : (recordsBut cfg f (cfg.pageAddr e)).Perm kept)
  /-- A page is erased, and the others have the records. -/
  | untagged (e : ℕ) (he : e < cfg.virtualPages) (erased : ErasedPage cfg f (cfg.pageAddr e))
      (data : ∀ p < cfg.virtualPages, p ≠ e → ∃ rs, DataPage cfg f (cfg.pageAddr p) rs)
      (records : (recordsBut cfg f (cfg.pageAddr e)).Perm kept)

/-- The records of the pages of the table. -/
def tableRecords (cfg : FdsConfig) (live : ℕ → List FdsRecord) : List FdsRecord :=
  (List.range cfg.maxPages).flatMap live

theorem Covers.slots_perm (h : Covers s) :
    (slotAddrs s).Perm (cfg.pageAddrs.erase s.swapPage.pAddr) := by
  have := h.erase s.swapPage.pAddr
  simpa using this

/-- The records that a walk finds on the pages of the table. -/
theorem flatMap_slotAddrs (hrecords : ∀ j < cfg.maxPages,
    pageRecords cfg f (s.pages.get j).pAddr = live j) :
    (slotAddrs s).flatMap (pageRecords cfg f) = tableRecords cfg live := by
  unfold slotAddrs tableRecords
  rw [List.flatMap_map]
  apply List.flatMap_congr
  intro j hj
  exact hrecords j (List.mem_range.mp hj)

theorem Covers.records (h : Covers s) (hrecords : ∀ j < cfg.maxPages,
    pageRecords cfg f (s.pages.get j).pAddr = live j) :
    (recordsBut cfg f s.swapPage.pAddr).Perm (tableRecords cfg live) := by
  rw [← flatMap_slotAddrs hrecords]
  exact (h.slots_perm.flatMap_right _).symm

/-- A page that is not the swap page is in the table. -/
theorem Covers.slot_of_ne (h : Covers s) {a : ℕ} (ha : a ∈ cfg.pageAddrs)
    (hne : a ≠ s.swapPage.pAddr) : ∃ j < cfg.maxPages, a = (s.pages.get j).pAddr := by
  have hmem := h.symm.subset ha
  rcases List.mem_cons.mp hmem with heq | hslot
  · exact absurd heq hne
  · exact mem_slotAddrs.mp hslot

theorem pageAddr_mem {p : ℕ} (hp : p < cfg.virtualPages) : cfg.pageAddr p ∈ cfg.pageAddrs :=
  mem_pageAddrs.mpr ⟨p, hp, rfl⟩

/-- A page without records can be left out. -/
theorem recordsBut_perm {a : ℕ} (ha : a ∈ cfg.pageAddrs) (hnone : pageRecords cfg f a = []) :
    (recordsBut cfg f a).Perm (cfg.pageAddrs.flatMap (pageRecords cfg f)) := by
  have hperm := (List.perm_cons_erase ha).flatMap_right (pageRecords cfg f)
  rw [List.flatMap_cons, hnone, List.nil_append] at hperm
  exact hperm.symm

/-- All pages of the table are data pages. -/
theorem Covers.layout_tagged (h : Covers s) {rs : List FdsRecord}
    (hold : ∀ j < cfg.maxPages, PageHolds cfg f (s.pages.get j).pAddr (live j))
    (hswap : SwapTagged cfg f s.swapPage.pAddr rs) :
    FlashLayout cfg f (tableRecords cfg live) := by
  obtain ⟨w, hw, hwaddr⟩ := mem_pageAddrs.mp h.swap_mem
  have hrecords := h.records fun j hj => (hold j hj).walk (h.slot_mem hj)
  rw [hwaddr] at hswap hrecords
  refine .tagged w rs hw hswap (fun p hp hne => ?_) hrecords
  obtain ⟨j, hj, hjaddr⟩ := h.slot_of_ne (pageAddr_mem hp)
    (by rw [hwaddr]; exact fun heq => hne (pageAddr_inj heq))
  obtain ⟨rs', hpage, -⟩ := hold j hj
  exact ⟨rs', hjaddr ▸ hpage⟩

theorem Covers.layout_untagged (h : Covers s)
    (hold : ∀ j < cfg.maxPages, PageHolds cfg f (s.pages.get j).pAddr (live j))
    (herased : ErasedPage cfg f s.swapPage.pAddr) :
    FlashLayout cfg f (tableRecords cfg live) := by
  obtain ⟨e, he, headdr⟩ := mem_pageAddrs.mp h.swap_mem
  have hrecords := h.records fun j hj => (hold j hj).walk (h.slot_mem hj)
  rw [headdr] at herased hrecords
  refine .untagged e he herased (fun p hp hne => ?_) hrecords
  obtain ⟨j, hj, hjaddr⟩ := h.slot_of_ne (pageAddr_mem hp)
    (by rw [headdr]; exact fun heq => hne (pageAddr_inj heq))
  obtain ⟨rs', hpage, -⟩ := hold j hj
  exact ⟨rs', hjaddr ▸ hpage⟩

/-- All pages of the table but one are data pages, and that one is still tagged swap. -/
theorem Covers.layout_copied (h : Covers s) {i : ℕ} (hi : i < cfg.maxPages)
    (hold : ∀ j < cfg.maxPages, j ≠ i → PageHolds cfg f (s.pages.get j).pAddr (live j))
    (hcopied : SwapPage cfg f (s.pages.get i).pAddr (live i))
    (hvalid : (live i).filter FdsRecord.isValid = live i)
    (herased : ErasedPage cfg f s.swapPage.pAddr) :
    FlashLayout cfg f (tableRecords cfg live) := by
  obtain ⟨e, he, headdr⟩ := mem_pageAddrs.mp h.swap_mem
  obtain ⟨w, hw, hwaddr⟩ := mem_pageAddrs.mp (h.slot_mem hi)
  have hne : e ≠ w := by
    rintro rfl
    exact h.slot_ne_swap hi (hwaddr.trans headdr.symm)
  have hwalk : ∀ j < cfg.maxPages, pageRecords cfg f (s.pages.get j).pAddr = live j := by
    intro j hj
    by_cases hji : j = i
    · subst hji
      rw [hcopied.tagged.walk (h.slot_mem hj), hvalid]
    · exact (hold j hj hji).walk (h.slot_mem hj)
  have hrecords := h.records hwalk
  rw [headdr] at herased hrecords
  refine .copied e w (live i) he hw hne herased (hwaddr ▸ hcopied) hvalid (fun p hp hpw hpe => ?_)
    hrecords
  obtain ⟨j, hj, hjaddr⟩ := h.slot_of_ne (pageAddr_mem hp)
    (by rw [headdr]; exact fun heq => hpe (pageAddr_inj heq))
  have hji : j ≠ i := by
    rintro rfl
    exact hpw (pageAddr_inj (hjaddr.trans hwaddr))
  obtain ⟨rs', hpage, -⟩ := hold j hj hji
  exact ⟨rs', hjaddr ▸ hpage⟩

/-- **Power is lost during a collection**, between two operations or after `k` words of the copy
    of a record. -/
theorem GcInv.layout (h : GcInv live s) (k : ℕ) (hk : k = 0 ∨ s.gc.state = .copyRecord) :
    FlashLayout cfg (flashCut s k) (tableRecords cfg live) := by
  have hcovers := h.collector.table.covers
  unfold flashCut
  cases h.phase with
  | idle state pending hold copies src =>
    rw [pending]
    exact hcovers.layout_tagged hold copies.page.tagged
  | copying pre r post state pending hold cut valid src =>
    rw [pending]
    have hfits := cut.fits valid
    have hoffset := cut.copies.offset
    have hdest : s.swapPage.pAddr + s.swapPage.writeOffset.toNat
        = s.swapPage.pAddr + 2 + recordsSize (pre.filter FdsRecord.isValid) := by omega
    have hend : s.swapPage.pAddr + s.swapPage.writeOffset.toNat + (r.words.take k).length
        ≤ s.swapPage.pAddr + cfg.pageSize := by
      simp only [List.length_take, r.length_words]
      omega
    obtain ⟨rs, hswap⟩ := cut.copies.page.cut hfits k
    rw [← hdest] at hswap
    exact hcovers.layout_tagged (hold.store hcovers (Nat.le_add_right _ _) hend) hswap
  | erasing state cur pending hold copies =>
    rw [pending]
    exact hcovers.layout_tagged hold copies.page.tagged
  | promoting state cur pending hold copied valid erased offset =>
    have hzero : k = 0 := by simpa [state] using hk
    rw [pending, hzero]
    simpa using hcovers.layout_copied cur hold copied valid erased
  | tagging state pending hold erased offset src =>
    have hzero : k = 0 := by simpa [state] using hk
    rw [pending, hzero]
    simpa using hcovers.layout_untagged hold erased
  | discarding vs state pending hold tagged offset =>
    rw [pending]
    exact hcovers.layout_tagged hold tagged

/-! ## §2 The operations of the initialisation -/

/-- **An initialised module** with these records and an empty swap page. -/
structure Mounted (live : ℕ → List FdsRecord) (s : Fds cfg) : Prop where
  collector : Collector s
  hold : HoldAll live s
  copies : Copies s []
  state : s.gc.state = .begin
  src : s.gc.pRecordSrc = 0
  pending : s.pending = none
  initialized : s.initialized = true

/-- **What the initialisation waits for**, and what is on the pages meanwhile. -/
inductive InitPhase (live : ℕ → List FdsRecord) (step : FdsInitStep) (s : Fds cfg) : Prop where
  | erasing (rs : List FdsRecord) (hstep : step = .tagSwap)
      (pending : s.pending = some (.erase s.swapPage.pAddr cfg.pageSize))
      (hold : HoldAll live s) (tagged : SwapTagged cfg s.flash s.swapPage.pAddr rs)
      (offset : s.swapPage.writeOffset.toNat = 2)
  | promoting (i : ℕ) (hi : i < cfg.maxPages) (hstep : step = .tagSwap)
      (pending : s.pending = some (.store (s.pages.get i).pAddr [fdsPageTagMagic, fdsPageTagData]))
      (hold : HoldBut live s i) (copied : SwapPage cfg s.flash (s.pages.get i).pAddr (live i))
      (valid : (live i).filter FdsRecord.isValid = live i)
      (erased : ErasedPage cfg s.flash s.swapPage.pAddr)
      (offset : s.swapPage.writeOffset.toNat = 2)
  | taggingSwap (hstep : step = .tagData)
      (pending : s.pending = some (.store s.swapPage.pAddr [fdsPageTagMagic, fdsPageTagSwap]))
      (hold : HoldAll live s) (erased : ErasedPage cfg s.flash s.swapPage.pAddr)
      (offset : s.swapPage.writeOffset.toNat = 2)
  | taggingData (i : ℕ) (hi : i < cfg.maxPages) (hstep : step = .tagData)
      (pending : s.pending = some (.store (s.pages.get i).pAddr [fdsPageTagMagic, fdsPageTagData]))
      (hold : HoldBut live s i) (empty : live i = [])
      (erased : ErasedPage cfg s.flash (s.pages.get i).pAddr) (copies : Copies s [])

/-- **The invariant of the initialisation.** -/
structure InitInv (live : ℕ → List FdsRecord) (step : FdsInitStep) (s : Fds cfg) : Prop where
  collector : Collector s
  state : s.gc.state = .begin
  src : s.gc.pRecordSrc = 0
  phase : InitPhase live step s

/-- What the initialisation returns: either it waits for an operation, or it is done. -/
def InitOutcome (live : ℕ → List FdsRecord) (out : FdsRet × FdsInitStep × Fds cfg) : Prop :=
  (out.1 = fdsOpCompleted ∧ Mounted live out.2.2) ∨
    (out.1 = fdsOpExecuting ∧ InitInv live out.2.1 out.2.2)

/-- The erased page is tagged swap. -/
theorem initTagSwap_outcome (h : Collector s) (hstate : s.gc.state = .begin)
    (hsrc : s.gc.pRecordSrc = 0) (hold : HoldAll live s)
    (herased : ErasedPage cfg s.flash s.swapPage.pAddr)
    (hoffset : s.swapPage.writeOffset.toNat = 2) :
    InitOutcome live (initExecute fsSuccess .tagSwap s) := by
  have hsize := cfg.two_le_pageSize
  unfold initExecute
  rw [if_neg (by decide)]
  simp only [pageTagWriteSwap]
  rw [fsStore_page h.table.covers.swap_mem h.full le_rfl (by simp) (by simpa using hsize)]
  exact .inr ⟨rfl, h.congr rfl rfl rfl rfl, hstate, hsrc, .taggingSwap rfl rfl hold herased hoffset⟩

/-- Nothing is left to be tagged. -/
theorem initTagData_outcome (h : Collector s) (hstate : s.gc.state = .begin)
    (hsrc : s.gc.pRecordSrc = 0) (hold : HoldAll live s) (hcopies : Copies s [])
    (hpending : s.pending = none) : InitOutcome live (initExecute fsSuccess .tagData s) := by
  have hnone : (List.range cfg.maxPages).find? (fun i => (s.pages.get i).pageType == .erased)
      = none := by
    rw [List.find?_eq_none]
    intro i hi
    rw [h.table.data i (List.mem_range.mp hi)]
    decide
  unfold initExecute
  rw [if_neg (by decide)]
  simp only [initTagData, hnone]
  exact .inl ⟨rfl, h.congr rfl rfl rfl rfl, hold, ⟨hcopies.page, hcopies.offset⟩, hstate, hsrc,
    hpending, rfl⟩

/-- **The initialisation goes on**, whatever it waits for. -/
theorem initExecute_done {step : FdsInitStep} (h : InitInv live step s) :
    InitOutcome live (initExecute fsSuccess step (flashDone s)) := by
  have hcovers := h.collector.table.covers
  have hsize := cfg.two_le_pageSize
  unfold flashDone
  cases h.phase with
  | erasing rs hstep pending hold tagged offset =>
    subst hstep
    rw [pending]
    exact initTagSwap_outcome (h.collector.flash _ _) h.state h.src (hold.eraseSwap hcovers)
      (Flash.erasedOn_erase _ _ _) offset
  | promoting i hi hstep pending hold copied valid erased offset =>
    subst hstep
    rw [pending]
    have hmem := hcovers.slot_mem hi
    have htag : (s.pages.get i).pAddr + [fdsPageTagMagic, fdsPageTagData].length
        ≤ (s.pages.get i).pAddr + cfg.pageSize := by simpa using hsize
    have hbut := hold.store hcovers hmem (fun j hj hji => hcovers.slot_ne_slot hi hj hji) le_rfl htag
    refine initTagSwap_outcome (h.collector.flash _ _) h.state h.src (fun j hj => ?_) ?_ offset
    · by_cases hji : j = i
      · subst hji
        exact ⟨_, copied.promote, valid⟩
      · exact hbut j hj hji
    · exact (agreeOn_store_page hmem hcovers.swap_mem (hcovers.slot_ne_swap hi).symm le_rfl
        htag).erasedOn erased
  | taggingSwap hstep pending hold erased offset =>
    subst hstep
    rw [pending]
    have htag : s.swapPage.pAddr + [fdsPageTagMagic, fdsPageTagSwap].length
        ≤ s.swapPage.pAddr + cfg.pageSize := by simpa using hsize
    exact initTagData_outcome (h.collector.flash _ _) h.state h.src (hold.store hcovers le_rfl htag)
      ⟨erased.tagSwap, by simpa using offset⟩ rfl
  | taggingData i hi hstep pending hold empty erased copies =>
    subst hstep
    rw [pending]
    have hmem := hcovers.slot_mem hi
    have htag : (s.pages.get i).pAddr + [fdsPageTagMagic, fdsPageTagData].length
        ≤ (s.pages.get i).pAddr + cfg.pageSize := by simpa using hsize
    have hbut := hold.store hcovers hmem (fun j hj hji => hcovers.slot_ne_slot hi hj hji) le_rfl htag
    refine initTagData_outcome (h.collector.flash _ _) h.state h.src (fun j hj => ?_) ⟨?_, ?_⟩ rfl
    · by_cases hji : j = i
      · subst hji
        rw [empty]
        exact erased.tagData
      · exact hbut j hj hji
    · exact copies.page.congr (agreeOn_store_page hmem hcovers.swap_mem
        (hcovers.slot_ne_swap hi).symm le_rfl htag)
    · exact copies.offset

/-- The arrangement on the flash while the initialisation waits. -/
theorem InitInv.layout {step : FdsInitStep} (h : InitInv live step s) :
    FlashLayout cfg s.flash (tableRecords cfg live) := by
  have hcovers := h.collector.table.covers
  cases h.phase with
  | erasing rs hstep pending hold tagged offset => exact hcovers.layout_tagged hold tagged
  | promoting i hi hstep pending hold copied valid erased offset =>
    exact hcovers.layout_copied hi hold copied valid erased
  | taggingSwap hstep pending hold erased offset => exact hcovers.layout_untagged hold erased
  | taggingData i hi hstep pending hold empty erased copies =>
    obtain ⟨e, he, headdr⟩ := mem_pageAddrs.mp (hcovers.slot_mem hi)
    obtain ⟨w, hw, hwaddr⟩ := mem_pageAddrs.mp hcovers.swap_mem
    have hne : e ≠ w := by
      rintro rfl
      exact hcovers.slot_ne_swap hi (headdr.trans hwaddr.symm)
    have hwalk : ∀ j < cfg.maxPages,
        pageRecords cfg s.flash (s.pages.get j).pAddr = live j := by
      intro j hj
      by_cases hji : j = i
      · rw [hji, empty]
        exact erased.walk (hcovers.slot_mem hi)
      · exact (hold j hj hji).walk (hcovers.slot_mem hj)
    have hswapWalk := copies.page.tagged.walk hcovers.swap_mem
    -- Neither the erased page nor the swap page has records.
    have hrecords := (recordsBut_perm (hcovers.slot_mem hi) (erased.walk (hcovers.slot_mem hi))).trans
      ((recordsBut_perm hcovers.swap_mem hswapWalk).symm.trans (hcovers.records hwalk))
    have hpage := copies.page
    rw [headdr] at erased hrecords
    rw [hwaddr] at hpage
    refine .copied e w [] he hw hne erased hpage rfl (fun p hp hpw hpe => ?_) hrecords
    obtain ⟨j, hj, hjaddr⟩ := hcovers.slot_of_ne (pageAddr_mem hp)
      (by rw [hwaddr]; exact fun heq => hpw (pageAddr_inj heq))
    have hji : j ≠ i := by
      rintro rfl
      exact hpe (pageAddr_inj (hjaddr.trans headdr))
    obtain ⟨rs', hdata, -⟩ := hold j hj hji
    exact ⟨rs', hjaddr ▸ hdata⟩

end NordicEsb
