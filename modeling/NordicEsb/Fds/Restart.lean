import NordicEsb.Fds.Recovery

/-!
# Restart

What `fds_init` does after a reset on each of the arrangements that power loss leaves. If the copies
of a page are on the swap page and the page itself is erased, the swap page is promoted in place of
the page that `m_gc.cur_page` names: that is the erased one if it lies behind the swap page, and
page 0 otherwise.

**Main result** (`restart_outcome`).
-/

namespace NordicEsb

variable {cfg : FdsConfig} {f : Flash 32} {live : ℕ → List FdsRecord} {s s' : Fds cfg}
  {st : PagesInit cfg} {l : List (FdsPageType × ℕ)} {rs kept : List FdsRecord} {e w : ℕ}

/-! ## §1 The addresses in the table -/

/-- The addresses of all pages, cut at page `p`. -/
theorem pageAddrs_eq {p : ℕ} (hp : p < cfg.virtualPages) :
    cfg.pageAddrs = (dataSlots cfg 0 p).map Prod.snd ++
      cfg.pageAddr p :: (dataSlots cfg (p + 1) (cfg.virtualPages - (p + 1))).map Prod.snd := by
  have hsplit : cfg.virtualPages = p + (cfg.virtualPages - (p + 1) + 1) := by omega
  have hrange : List.range cfg.virtualPages = List.range' 0 p ++
      p :: List.range' (p + 1) (cfg.virtualPages - (p + 1)) := by
    rw [List.range_eq_range']
    conv_lhs => rw [hsplit]
    rw [← List.range'_append_1, Nat.zero_add, List.range'_succ]
  simp only [FdsConfig.pageAddrs, dataSlots, hrange, List.map_append, List.map_cons, List.map_map,
    Function.comp_def]

/-- The addresses of the pages from `i` to `q`, cut at page `p`. -/
theorem map_dataSlots_eq (cfg : FdsConfig) {i p q : ℕ} (hip : i ≤ p) (hpq : p < q) :
    (dataSlots cfg i (q - i)).map Prod.snd = (dataSlots cfg i (p - i)).map Prod.snd ++
      cfg.pageAddr p :: (dataSlots cfg (p + 1) (q - (p + 1))).map Prod.snd := by
  have hsplit : q - i = (p - i) + (q - (p + 1) + 1) := by omega
  have hindex : i + (p - i) = p := by omega
  simp only [dataSlots, List.map_map, Function.comp_def]
  rw [hsplit, ← List.range'_append_1, hindex, List.range'_succ, List.map_append, List.map_cons]

theorem slotAddrs_eq (h : Slots st l) (hlen : l.length = cfg.maxPages) :
    slotAddrs st.fds = l.map Prod.snd := by
  apply List.ext_getElem
  · simp [slotAddrs, hlen]
  · intro j h₁ h₂
    simp only [slotAddrs, List.getElem_map, List.getElem_range]
    exact (h.slot j (by simpa using h₂)).2

theorem length_dataSlotsBut {p : ℕ} (hp : p < cfg.virtualPages) :
    (dataSlotsBut cfg p).length = cfg.maxPages := by
  simp only [dataSlotsBut, List.length_append, length_dataSlots, FdsConfig.maxPages]
  omega

/-- The table without page `p`, and page `p` as the swap page. -/
theorem perm_dataSlotsBut {p : ℕ} (hp : p < cfg.virtualPages) :
    (cfg.pageAddr p :: (dataSlotsBut cfg p).map Prod.snd).Perm cfg.pageAddrs := by
  rw [pageAddrs_eq hp, dataSlotsBut, List.map_append]
  exact List.perm_middle.symm

theorem mem_dataSlots_type {i n : ℕ} {x : FdsPageType × ℕ} (hx : x ∈ dataSlots cfg i n) :
    x.1 = .data := by
  simp only [dataSlots, List.mem_map] at hx
  obtain ⟨p, -, rfl⟩ := hx
  rfl

/-- What is left of a reset when `pages_init` is done. -/
structure Restarted (f : Flash 32) (s : Fds cfg) : Prop where
  flash : s.flash = f
  full : s.fsFull = false
  pending : s.pending = none
  state : s.gc.state = .begin
  src : s.gc.pRecordSrc = 0
  resume : s.gc.resume = false

/-- The module when `fds_init` calls `pages_init`. -/
abbrev resetInit (cfg : FdsConfig) (f : Flash 32) : Fds cfg :=
  { Fds.reset cfg f with initializing := true }

theorem restarted_pagesInit (cfg : FdsConfig) (f : Flash 32) :
    Restarted f (pagesInit (resetInit cfg f)).fds := by
  have hsame := pagesInitLoop_same cfg.virtualPages 0
    (⟨resetInit cfg f, 0, false, ⟨false, false, false, false⟩⟩ : PagesInit cfg)
  exact ⟨hsame.flash, hsame.full, hsame.pending, hsame.state, hsame.src, hsame.resume⟩

theorem DataPage.holds {a : ℕ} (h : DataPage cfg f a rs) (ha : a ∈ cfg.pageAddrs) :
    PageHolds cfg f a (pageRecords cfg f a) :=
  ⟨rs, h, (pageRecords_eq (pos_of_mem_pageAddrs ha) h.records).symm⟩

/-! ## §2 No page is both erased and copied -/

/-- The table if one page is not a data page. -/
theorem Built.table {p cur : ℕ} {swapSet : Bool} {found : PagesFound}
    (h : Built f st (dataSlotsBut cfg p) (cfg.pageAddr p) cur swapSet found)
    (hp : p < cfg.virtualPages) : Table st.fds := by
  have hlen := length_dataSlotsBut hp
  constructor
  · intro i hi
    obtain ⟨htype, -⟩ := h.slots.slot i (by rwa [hlen])
    rw [htype]
    have hmem := List.getElem_mem (l := dataSlotsBut cfg p) (n := i) (by rwa [hlen])
    simp only [dataSlotsBut, List.mem_append] at hmem
    rcases hmem with hx | hx
    · exact mem_dataSlots_type hx
    · exact mem_dataSlots_type hx
  · unfold Covers
    rw [slotAddrs_eq h.slots hlen, h.swapAddr]
    exact perm_dataSlotsBut hp

/-- All pages of the table are data pages. -/
theorem holdAll_of_data {s : Fds cfg} {p : ℕ} (h : Covers s) (hp : s.swapPage.pAddr = cfg.pageAddr p)
    (hdata : ∀ q < cfg.virtualPages, q ≠ p → ∃ rs, DataPage cfg s.flash (cfg.pageAddr q) rs) :
    HoldAll (fun j => pageRecords cfg s.flash (s.pages.get j).pAddr) s := by
  intro j hj
  obtain ⟨q, hq, haddr⟩ := mem_pageAddrs.mp (h.slot_mem hj)
  have hne : q ≠ p := by
    rintro rfl
    exact h.slot_ne_swap hj (haddr.trans hp.symm)
  obtain ⟨rs, hpage⟩ := hdata q hq hne
  rw [← haddr] at hpage
  exact hpage.holds (h.slot_mem hj)

theorem PagesFound.withSwap_nil (found : PagesFound) :
    found.withSwap [] = { found with swapEmpty := true } := rfl

theorem PagesFound.withSwap_of_ne (found : PagesFound) (h : rs ≠ []) :
    found.withSwap rs = { found with swapDirty := true } := if_neg h

/-- What a restart leads to: the module is initialised, or an operation is under way. -/
def RestartOutcome (kept : List FdsRecord) (out : FdsRet × Option FdsInitStep × Fds cfg) : Prop :=
  ∃ live : ℕ → List FdsRecord, (tableRecords cfg live).Perm kept ∧
    match out.2.1 with
    | some step => InitOutcome live (initExecute fsSuccess step out.2.2)
    | none => Mounted live out.2.2

theorem fdsInit_installed
    (h : (pagesInit (resetInit cfg f)).found.initOpts = .alreadyInstalled) :
    fdsInit (Fds.reset cfg f) = (fdsSuccess, none,
      { (pagesInit (resetInit cfg f)).fds with initialized := true, initializing := false }) := by
  have hreset : ¬ ((Fds.reset cfg f).initialized = true ∨ (Fds.reset cfg f).initializing = true) := by
    simp [Fds.reset]
  unfold fdsInit
  rw [if_neg hreset]
  simp only [h]

theorem fdsInit_step {step : FdsInitStep}
    (h : (pagesInit (resetInit cfg f)).found.initOpts.step = some step) :
    fdsInit (Fds.reset cfg f) = (fdsSuccess, some step, (pagesInit (resetInit cfg f)).fds) := by
  have hreset : ¬ ((Fds.reset cfg f).initialized = true ∨ (Fds.reset cfg f).initializing = true) := by
    simp [Fds.reset]
  unfold fdsInit
  rw [if_neg hreset]
  dsimp only
  split
  case h_1 hopts =>
    rw [hopts] at h
    cases h
  case h_2 hopts =>
    rw [hopts] at h
    cases h
  case h_3 => rw [h]

/-- **A page tagged swap**: it is erased unless it is empty. -/
theorem restart_tagged (hw : w < cfg.virtualPages) (hswap : SwapTagged cfg f (cfg.pageAddr w) rs)
    (hdata : ∀ p < cfg.virtualPages, p ≠ w → ∃ rs, DataPage cfg f (cfg.pageAddr p) rs)
    (hrecords : (recordsBut cfg f (cfg.pageAddr w)).Perm kept) :
    RestartOutcome kept (fdsInit (Fds.reset cfg f)) := by
  obtain ⟨st, hst⟩ : ∃ st, st = pagesInit (resetInit cfg f) := ⟨_, rfl⟩
  have hbuilt : Built f st (dataSlotsBut cfg w) (cfg.pageAddr w) 0 false
      (PagesFound.withSwap ⟨false, true, false, false⟩ rs) := by
    rw [hst]
    exact pagesInit_swap (s := resetInit cfg f) rfl rfl hw hswap hdata
  have hrest : Restarted f st.fds := by
    rw [hst]
    exact restarted_pagesInit cfg f
  have htable := hbuilt.table hw
  have hcollector : Collector st.fds := ⟨htable, hrest.full, hrest.resume⟩
  have hold := holdAll_of_data htable.covers hbuilt.swapAddr (by rwa [hrest.flash])
  have hkept : (tableRecords cfg fun j =>
      pageRecords cfg st.fds.flash (st.fds.pages.get j).pAddr).Perm kept := by
    have hperm := htable.covers.records (f := st.fds.flash) fun j hj => rfl
    rw [hbuilt.swapAddr, hrest.flash] at hperm
    rw [hrest.flash]
    exact hperm.symm.trans hrecords
  have hswap' := hswap
  rw [← hbuilt.swapAddr, ← hrest.flash] at hswap'
  refine ⟨_, hkept, ?_⟩
  by_cases hrs : rs = []
  · -- The swap page is empty: nothing is to be done.
    subst hrs
    have hopts : (pagesInit (resetInit cfg f)).found.initOpts = .alreadyInstalled := by
      rw [← hst, hbuilt.found, PagesFound.withSwap_nil]
      rfl
    have hoffset := hbuilt.offset (pos_of_mem_pageAddrs (pageAddr_mem hw)).ne' rfl
    rw [fdsInit_installed hopts, ← hst]
    exact ⟨hcollector.congr rfl rfl rfl rfl, hold, ⟨hswap'.swapPage_of_nil, by simp [hoffset]⟩,
      hrest.state, hrest.src, hrest.pending, rfl⟩
  · have hopts : (pagesInit (resetInit cfg f)).found.initOpts.step = some .eraseSwap := by
      rw [← hst, hbuilt.found, PagesFound.withSwap_of_ne _ hrs]
      rfl
    rw [fdsInit_step hopts, ← hst]
    dsimp only
    unfold initExecute
    rw [if_neg (by decide)]
    dsimp only
    rw [fsErase_page htable.covers.swap_mem hrest.full]
    exact .inr ⟨rfl, hcollector.congr rfl rfl rfl rfl, hrest.state, hrest.src,
      .erasing rs rfl rfl hold hswap' rfl⟩

/-- **An erased page**: it is tagged swap. -/
theorem restart_untagged (he : e < cfg.virtualPages) (herased : ErasedPage cfg f (cfg.pageAddr e))
    (hdata : ∀ p < cfg.virtualPages, p ≠ e → ∃ rs, DataPage cfg f (cfg.pageAddr p) rs)
    (hrecords : (recordsBut cfg f (cfg.pageAddr e)).Perm kept) :
    RestartOutcome kept (fdsInit (Fds.reset cfg f)) := by
  obtain ⟨st, hst⟩ : ∃ st, st = pagesInit (resetInit cfg f) := ⟨_, rfl⟩
  have hbuilt : Built f st (dataSlotsBut cfg e) (cfg.pageAddr e) 0 true
      ⟨true, true, false, false⟩ := by
    rw [hst]
    exact pagesInit_erased (s := resetInit cfg f) rfl rfl he herased hdata
  have hrest : Restarted f st.fds := by
    rw [hst]
    exact restarted_pagesInit cfg f
  have htable := hbuilt.table he
  have hold := holdAll_of_data htable.covers hbuilt.swapAddr (by rwa [hrest.flash])
  have hkept : (tableRecords cfg fun j =>
      pageRecords cfg st.fds.flash (st.fds.pages.get j).pAddr).Perm kept := by
    have hperm := htable.covers.records (f := st.fds.flash) fun j hj => rfl
    rw [hbuilt.swapAddr, hrest.flash] at hperm
    rw [hrest.flash]
    exact hperm.symm.trans hrecords
  have hoffset := hbuilt.offset (pos_of_mem_pageAddrs (pageAddr_mem he)).ne' rfl
  have hopts : (pagesInit (resetInit cfg f)).found.initOpts.step = some .tagSwap := by
    rw [← hst, hbuilt.found]
    rfl
  refine ⟨_, hkept, ?_⟩
  rw [fdsInit_step hopts, ← hst]
  refine initTagSwap_outcome ⟨htable, hrest.full, hrest.resume⟩ hrest.state hrest.src hold ?_
    (by simp [hoffset])
  rwa [hbuilt.swapAddr, hrest.flash]

/-! ## §3 An erased page and its copies -/

/-- What `pages_init` finds: entry `i` is the erased page `e`, page `w` is tagged swap. -/
structure FoundBoth (st : PagesInit cfg) (e w i cur : ℕ) (rs : List FdsRecord) : Prop where
  index : i < cfg.maxPages
  slot : (st.fds.pages.get i).pAddr = cfg.pageAddr e
  erased : (st.fds.pages.get i).pageType = .erased
  data : ∀ j < cfg.maxPages, j ≠ i → (st.fds.pages.get j).pageType = .data
  covers : Covers st.fds
  swapAddr : st.fds.swapPage.pAddr = cfg.pageAddr w
  offset : rs = [] → st.fds.swapPage.writeOffset = 2
  curPage : st.fds.gc.curPage = cur
  step : st.found.initOpts.step = some (if rs = [] then .tagData else .promoteSwap)

theorem Built.both {before behind : List (FdsPageType × ℕ)} {cur : ℕ} {swapSet data : Bool}
    (h : Built f st (before ++ (.erased, cfg.pageAddr e) :: behind) (cfg.pageAddr w) cur swapSet
      (PagesFound.withSwap ⟨true, data, false, false⟩ rs))
    (hw : w < cfg.virtualPages) (hbefore : ∀ x ∈ before, x.1 = .data)
    (hbehind : ∀ x ∈ behind, x.1 = .data)
    (hperm : (cfg.pageAddr w :: (before ++ (.erased, cfg.pageAddr e) :: behind).map Prod.snd).Perm
      cfg.pageAddrs) : FoundBoth st e w before.length cur rs := by
  have hlen : (before ++ (FdsPageType.erased, cfg.pageAddr e) :: behind).length = cfg.maxPages := by
    have htotal := hperm.length_eq
    simp only [List.length_cons, List.length_map, FdsConfig.pageAddrs, List.length_range] at htotal
    unfold FdsConfig.maxPages
    omega
  have hindex : before.length < (before ++ (FdsPageType.erased, cfg.pageAddr e) :: behind).length := by
    simp
  obtain ⟨htype, haddr⟩ := h.slots.slot _ hindex
  simp only [List.getElem_append_right le_rfl, Nat.sub_self,
    List.getElem_cons_zero] at htype haddr
  constructor
  · rwa [← hlen]
  · exact haddr
  · exact htype
  · intro j hj hji
    rw [← hlen] at hj
    obtain ⟨htypej, -⟩ := h.slots.slot j hj
    rw [htypej]
    by_cases hlt : j < before.length
    · rw [List.getElem_append_left hlt]
      exact hbefore _ (List.getElem_mem _)
    · rw [List.getElem_append_right (by omega)]
      obtain ⟨k, hk⟩ : ∃ k, j - before.length = k + 1 := ⟨j - before.length - 1, by omega⟩
      simp only [hk, List.getElem_cons_succ]
      exact hbehind _ (List.getElem_mem _)
  · unfold Covers
    rw [slotAddrs_eq h.slots hlen, h.swapAddr]
    exact hperm
  · exact h.swapAddr
  · rintro rfl
    exact h.offset (pos_of_mem_pageAddrs (pageAddr_mem hw)).ne' rfl
  · exact h.curPage
  · rw [h.found]
    split
    case isTrue hrs =>
      subst hrs
      cases data <;> rfl
    case isFalse hrs =>
      rw [PagesFound.withSwap_of_ne _ hrs]
      cases data <;> rfl

/-- The erased page behind the swap page is noted. -/
theorem foundBoth_swapFirst (hwe : w < e) (he : e < cfg.virtualPages)
    (hswap : SwapTagged cfg f (cfg.pageAddr w) rs) (herased : ErasedPage cfg f (cfg.pageAddr e))
    (hdata : ∀ p < cfg.virtualPages, p ≠ w → p ≠ e → ∃ rs, DataPage cfg f (cfg.pageAddr p) rs) :
    FoundBoth (pagesInit (resetInit cfg f)) e w (e - 1) (e - 1) rs := by
  obtain ⟨data, hbuilt⟩ :=
    pagesInit_swapFirst (s := resetInit cfg f) rfl rfl hwe he hswap herased hdata
  have hboth := hbuilt.both (hwe.trans he)
    (by
      intro x hx
      rcases List.mem_append.mp hx with hx | hx
      · exact mem_dataSlots_type hx
      · exact mem_dataSlots_type hx)
    (fun x hx => mem_dataSlots_type hx)
    (by
      have hperm := perm_dataSlotsBut (hwe.trans he)
      rw [dataSlotsBut, List.map_append, map_dataSlots_eq cfg hwe he] at hperm
      simpa using hperm)
  have hlength : (dataSlots cfg 0 w ++ dataSlots cfg (w + 1) (e - (w + 1))).length = e - 1 := by
    simp only [List.length_append, length_dataSlots]
    omega
  rwa [hlength] at hboth

/-- The erased page before the swap page is in the table, but page 0 of the table stays noted. -/
theorem foundBoth_erasedFirst (hew : e < w) (hw : w < cfg.virtualPages)
    (hswap : SwapTagged cfg f (cfg.pageAddr w) rs) (herased : ErasedPage cfg f (cfg.pageAddr e))
    (hdata : ∀ p < cfg.virtualPages, p ≠ w → p ≠ e → ∃ rs, DataPage cfg f (cfg.pageAddr p) rs) :
    FoundBoth (pagesInit (resetInit cfg f)) e w (w - 1) 0 rs := by
  obtain ⟨data, hbuilt⟩ :=
    pagesInit_erasedFirst (s := resetInit cfg f) rfl rfl hew hw hswap herased hdata
  have hboth := hbuilt.both hw
    (by
      intro x hx
      rcases List.mem_append.mp hx with hx | hx
      · exact mem_dataSlots_type hx
      · exact mem_dataSlots_type hx)
    (fun x hx => mem_dataSlots_type hx)
    (by
      have hperm := perm_dataSlotsBut hw
      have hsplit := map_dataSlots_eq cfg (Nat.zero_le e) hew
      simp only [Nat.sub_zero] at hsplit
      rw [dataSlotsBut, List.map_append, hsplit] at hperm
      refine List.Perm.trans (List.Perm.cons _ ?_) hperm
      -- The erased page comes behind the pages up to the swap page.
      simp only [List.map_append, List.map_cons, List.append_assoc, List.cons_append]
      refine List.Perm.append_left _ ?_
      exact List.perm_middle)
  have hlength : (dataSlots cfg 0 e ++ dataSlots cfg (e + 1) (w - (e + 1))).length = w - 1 := by
    simp only [List.length_append, length_dataSlots]
    omega
  rwa [hlength] at hboth

theorem initReturn_success (step : FdsInitStep) (s : Fds cfg) :
    initReturn step (fsSuccess, s) = (fdsOpExecuting, step, s) := rfl

/-- The table with the erased page as entry `i`, after a reset. -/
structure BothTable (f : Flash 32) (t : Fds cfg) (e w i : ℕ) : Prop where
  rest : Restarted f t
  index : i < cfg.maxPages
  slot : (t.pages.get i).pAddr = cfg.pageAddr e
  erased : (t.pages.get i).pageType = .erased
  types : ∀ j < cfg.maxPages, j ≠ i → (t.pages.get j).pageType = .data
  data : ∀ j < cfg.maxPages, j ≠ i → ∃ rs, DataPage cfg f (t.pages.get j).pAddr rs
  covers : Covers t
  swapAddr : t.swapPage.pAddr = cfg.pageAddr w

theorem FoundBoth.table {i cur : ℕ} (h : FoundBoth (pagesInit (resetInit cfg f)) e w i cur rs)
    (hdata : ∀ p < cfg.virtualPages, p ≠ w → p ≠ e → ∃ rs, DataPage cfg f (cfg.pageAddr p) rs) :
    BothTable f (pagesInit (resetInit cfg f)).fds e w i where
  rest := restarted_pagesInit cfg f
  index := h.index
  slot := h.slot
  erased := h.erased
  types := h.data
  data := by
    intro j hj hji
    obtain ⟨p, hp, haddr⟩ := mem_pageAddrs.mp (h.covers.slot_mem hj)
    rw [haddr]
    refine hdata p hp ?_ ?_
    · rintro rfl
      exact h.covers.slot_ne_swap hj (haddr.trans h.swapAddr.symm)
    · rintro rfl
      exact h.covers.slot_ne_slot h.index hj hji (haddr.trans h.slot.symm)
  covers := h.covers
  swapAddr := h.swapAddr

section Both

variable {t : Fds cfg} {i : ℕ}

/-- The first erased page of the table is the only one. -/
theorem BothTable.find (h : BothTable f t e w i) :
    (List.range cfg.maxPages).find? (fun j => (t.pages.get j).pageType == .erased) = some i := by
  cases hfound : (List.range cfg.maxPages).find?
      (fun j => (t.pages.get j).pageType == .erased) with
  | none =>
    rw [List.find?_eq_none] at hfound
    exact absurd h.erased (by simpa using hfound i (List.mem_range.mpr h.index))
  | some j =>
    have hj := List.mem_range.mp (List.mem_of_find?_eq_some hfound)
    have hjtype := List.find?_some hfound
    by_contra hne
    rw [h.types j hj fun heq => hne (by rw [heq])] at hjtype
    exact absurd hjtype (by decide)

/-- The entry of the erased page is replaced by a data page. -/
theorem BothTable.types_set (h : BothTable f t e w i) {page : FdsPage} (hpage : page.pageType = .data)
    (j : ℕ) (hj : j < cfg.maxPages) : ((t.pages.set i page).get j).pageType = .data := by
  rw [FixedArray.get_set _ _ _ _ h.index]
  split
  · exact hpage
  · exact h.types j hj ‹_›

/-- **Without copies** the erased page becomes a data page. -/
theorem BothTable.tagData (h : BothTable f t e w i) (hoffset : t.swapPage.writeOffset = 2)
    (he : e < cfg.virtualPages) (hw : w < cfg.virtualPages)
    (herased : ErasedPage cfg f (cfg.pageAddr e)) (hswap : SwapPage cfg f (cfg.pageAddr w) [])
    (hrecords : (recordsBut cfg f (cfg.pageAddr e)).Perm kept) :
    ∃ live, (tableRecords cfg live).Perm kept ∧
      InitOutcome live (initExecute fsSuccess .tagData t) := by
  have hsize := cfg.two_le_pageSize
  have hcovers := h.covers
  have hwalkErased : pageRecords cfg f (cfg.pageAddr e) = [] := herased.walk (pageAddr_mem he)
  have hwalkSwap : pageRecords cfg f (cfg.pageAddr w) = [] :=
    hswap.tagged.walk (pageAddr_mem hw)
  have hkept : (tableRecords cfg fun j => pageRecords cfg f (t.pages.get j).pAddr).Perm kept := by
    have hperm := hcovers.records (f := f) fun j hj => rfl
    rw [h.swapAddr] at hperm
    exact hperm.symm.trans ((recordsBut_perm (pageAddr_mem hw) hwalkSwap).trans
      ((recordsBut_perm (pageAddr_mem he) hwalkErased).symm.trans hrecords))
  obtain ⟨page, hpage⟩ : ∃ page, page = { t.pages.get i with pageType := .data } := ⟨_, rfl⟩
  obtain ⟨u, hu⟩ : ∃ u : Fds cfg, u = { t with
      pending := some (.store (t.pages.get i).pAddr [fdsPageTagMagic, fdsPageTagData])
      pages := t.pages.set i page } := ⟨_, rfl⟩
  have hexec : initExecute fsSuccess .tagData t = (fdsOpExecuting, .tagData, u) := by
    unfold initExecute
    rw [if_neg (by decide)]
    simp only [initTagData, h.find, pageTagWriteData]
    rw [fsStore_page (hcovers.slot_mem h.index) h.rest.full le_rfl (by simp)
      (by simpa using hsize), initReturn_success, hu, hpage]
  have htypes : ∀ j < cfg.maxPages, (u.pages.get j).pageType = .data := by
    rw [hu]
    exact h.types_set (by rw [hpage])
  have haddr : ∀ j, (u.pages.get j).pAddr = (t.pages.get j).pAddr := by
    intro j
    rw [hu, FixedArray.get_set _ _ _ _ h.index, hpage]
    split
    · rename_i heq
      rw [heq]
    · rfl
  have hflash : u.flash = f := by rw [hu]; exact h.rest.flash
  have hswapPage : u.swapPage = t.swapPage := by rw [hu]
  have hcovered : Covers u := by
    unfold Covers slotAddrs at hcovers ⊢
    simp only [haddr, hswapPage]
    exact hcovers
  have hrest : u.fsFull = false ∧ u.gc.resume = false ∧ u.gc.state = .begin ∧
      u.gc.pRecordSrc = 0 := by
    rw [hu]
    exact ⟨h.rest.full, h.rest.resume, h.rest.state, h.rest.src⟩
  obtain ⟨hfull, hresume, hstate, hsrc⟩ := hrest
  refine ⟨_, hkept, ?_⟩
  rw [hexec]
  refine .inr ⟨rfl, ⟨⟨htypes, hcovered⟩, hfull, hresume⟩, hstate, hsrc,
    .taggingData i h.index rfl ?_ ?_ ?_ ?_ ⟨?_, ?_⟩⟩
  · rw [haddr, hu]
  · intro j hj hji
    rw [haddr, hflash]
    obtain ⟨rs, hdata⟩ := h.data j hj hji
    exact hdata.holds (hcovers.slot_mem hj)
  · rw [h.slot]
    exact hwalkErased
  · rw [haddr, hflash, h.slot]
    exact herased
  · rw [hflash, hswapPage, h.swapAddr]
    exact hswap
  · rw [hswapPage, hoffset]
    rfl

/-- **With copies** the swap page takes the place of the erased page, if that one is noted. -/
theorem BothTable.promote (h : BothTable f t e w i) (hcur : t.gc.curPage = i)
    (hw : w < cfg.virtualPages) (herased : ErasedPage cfg f (cfg.pageAddr e))
    (hswap : SwapPage cfg f (cfg.pageAddr w) rs) (hvalid : rs.filter FdsRecord.isValid = rs)
    (hrecords : (recordsBut cfg f (cfg.pageAddr e)).Perm kept) :
    ∃ live, (tableRecords cfg live).Perm kept ∧
      InitOutcome live (initExecute fsSuccess .promoteSwap t) := by
  have hsize := cfg.two_le_pageSize
  have hcovers := h.covers
  obtain ⟨page, hpage⟩ : ∃ page, page = { t.pages.get i with
      pAddr := t.swapPage.pAddr
      writeOffset := t.swapPage.writeOffset
      pageType := .data } := ⟨_, rfl⟩
  -- The swap page and the slot of the table change their addresses.
  obtain ⟨u, hu⟩ : ∃ u : Fds cfg, u = { t with
      pending := some (.store t.swapPage.pAddr [fdsPageTagMagic, fdsPageTagData])
      swapPage := ⟨(t.pages.get i).pAddr, 2⟩
      pages := t.pages.set i page } := ⟨_, rfl⟩
  have hexec : initExecute fsSuccess .promoteSwap t = (fdsOpExecuting, .tagSwap, u) := by
    unfold initExecute
    rw [if_neg (by decide)]
    simp only [initPromoteSwap, pageTagWriteData]
    rw [fsStore_page hcovers.swap_mem h.rest.full le_rfl (by simp) (by simpa using hsize)]
    simp only [hcur]
    rw [initReturn_success, hu, hpage]
  have hpageAddr : page.pAddr = cfg.pageAddr w := by
    rw [hpage]
    exact h.swapAddr
  have htypes : ∀ j < cfg.maxPages, (u.pages.get j).pageType = .data := by
    rw [hu]
    exact h.types_set (by rw [hpage])
  have hentry : u.pages.get i = page := by
    rw [hu]
    exact FixedArray.get_set_self _ _ h.index
  have hother : ∀ j, j ≠ i → u.pages.get j = t.pages.get j := by
    intro j hj
    rw [hu]
    exact FixedArray.get_set_ne _ _ hj
  have hflash : u.flash = f := by rw [hu]; exact h.rest.flash
  have hswapPage : u.swapPage = ⟨cfg.pageAddr e, 2⟩ := by rw [hu, ← h.slot]
  have hcovered : Covers u :=
    hcovers.exchange h.index (by rw [hswapPage, h.slot]) (by rw [hu])
      (by rw [hpageAddr, h.swapAddr])
  have hrest : u.fsFull = false ∧ u.gc.resume = false ∧ u.gc.state = .begin ∧
      u.gc.pRecordSrc = 0 := by
    rw [hu]
    exact ⟨h.rest.full, h.rest.resume, h.rest.state, h.rest.src⟩
  obtain ⟨hfull, hresume, hstate, hsrc⟩ := hrest
  have hwalk : pageRecords cfg f (u.pages.get i).pAddr = rs := by
    rw [hentry, hpageAddr, hswap.tagged.walk (pageAddr_mem hw), hvalid]
  -- The records on the pages of the table are those that were off the swap page.
  have hkept : (tableRecords cfg fun j => pageRecords cfg f (u.pages.get j).pAddr).Perm kept := by
    have hperm := hcovered.records (f := f) fun j hj => rfl
    rw [hswapPage] at hperm
    exact hperm.symm.trans hrecords
  refine ⟨_, hkept, ?_⟩
  rw [hexec]
  refine .inr ⟨rfl, ⟨⟨htypes, hcovered⟩, hfull, hresume⟩, hstate, hsrc,
    .promoting i h.index rfl ?_ ?_ ?_ ?_ ?_ ?_⟩
  · rw [hentry, hpageAddr, ← h.swapAddr, hu]
  · intro j hj hji
    have hmem := hcovers.slot_mem hj
    obtain ⟨rs', hdata⟩ := h.data j hj hji
    dsimp only
    rw [hother j hji, hflash]
    exact hdata.holds hmem
  · rw [hwalk, hentry, hpageAddr, hflash]
    exact hswap
  · rw [hwalk, hvalid]
  · rw [hswapPage, hflash]
    exact herased
  · rw [hswapPage]
    rfl

end Both

/-- **An erased page and its copies.** -/
theorem restart_copied (he : e < cfg.virtualPages) (hw : w < cfg.virtualPages) (hne : e ≠ w)
    (herased : ErasedPage cfg f (cfg.pageAddr e)) (hswap : SwapPage cfg f (cfg.pageAddr w) rs)
    (hvalid : rs.filter FdsRecord.isValid = rs)
    (hdata : ∀ p < cfg.virtualPages, p ≠ w → p ≠ e → ∃ rs, DataPage cfg f (cfg.pageAddr p) rs)
    (hrecords : (recordsBut cfg f (cfg.pageAddr e)).Perm kept)
    (hnoted : e < w → rs = [] ∨ w = 1) : RestartOutcome kept (fdsInit (Fds.reset cfg f)) := by
  have hboth : ∃ i cur, FoundBoth (pagesInit (resetInit cfg f)) e w i cur rs ∧
      (rs ≠ [] → cur = i) := by
    rcases Nat.lt_or_gt_of_ne hne with hlt | hlt
    · refine ⟨_, _, foundBoth_erasedFirst hlt hw hswap.tagged herased hdata, fun hrs => ?_⟩
      rcases hnoted hlt with hnil | hone
      · exact absurd hnil hrs
      · omega
    · exact ⟨_, _, foundBoth_swapFirst hlt he hswap.tagged herased hdata, fun _ => rfl⟩
  obtain ⟨i, cur, hfound, hcur⟩ := hboth
  have htable := hfound.table hdata
  have hstep := hfound.step
  by_cases hrs : rs = []
  · subst hrs
    obtain ⟨live, hkept, houtcome⟩ :=
      htable.tagData (hfound.offset rfl) he hw herased hswap hrecords
    refine ⟨live, hkept, ?_⟩
    rw [fdsInit_step hstep]
    exact houtcome
  · obtain ⟨live, hkept, houtcome⟩ :=
      htable.promote (hfound.curPage.trans (hcur hrs)) hw herased hswap hvalid hrecords
    refine ⟨live, hkept, ?_⟩
    rw [if_neg hrs] at hstep
    rw [fdsInit_step hstep]
    exact houtcome

end NordicEsb
