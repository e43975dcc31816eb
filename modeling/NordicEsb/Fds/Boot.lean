import NordicEsb.Fds.Init
import Mathlib.Data.List.Range

/-!
# What Initialisation Finds

`pages_init` on a flash with at most one page tagged swap and at most one erased page, the others
being data pages. The table that it builds is the list of the data pages in the order of their
addresses (`dataSlots`), with the erased page among them if there is a swap page too.

**Main results**: one theorem for each arrangement of the pages: `pagesInit_single` (one page is
not a data page), `pagesInit_swapFirst` and `pagesInit_erasedFirst`.
-/

namespace NordicEsb

variable {cfg : FdsConfig} {f : Flash 32} {a : ℕ} {rs : List FdsRecord} {st : PagesInit cfg}
  {l : List (FdsPageType × ℕ)}

/-! ## §1 Reading the tags -/

theorem DataPage.identify (h : DataPage cfg f a rs) : pageIdentify f a = .data := by
  unfold pageIdentify
  rw [if_neg (by simp [h.magic]), h.tag]
  decide

theorem SwapTagged.identify (h : SwapTagged cfg f a rs) : pageIdentify f a = .swap := by
  unfold pageIdentify
  rw [if_neg (by simp [h.magic]), if_pos h.tag]

theorem ErasedPage.identify (h : ErasedPage cfg f a) : pageIdentify f a = .undefined := by
  have hsize := cfg.two_le_pageSize
  have hmagic : fdsErasedWord ≠ fdsPageTagMagic := by decide
  unfold pageIdentify
  rw [if_pos (by rwa [h a le_rfl (by omega)])]

theorem ErasedPage.isErased (h : ErasedPage cfg f a) : pageIsErased cfg f a = true := by
  unfold pageIsErased
  rw [List.all_eq_true]
  intro i hi
  rw [beq_iff_eq]
  exact h.apply (List.mem_range.mp hi)

/-- **A scan takes the swap page for an empty one exactly if it is.** -/
theorem SwapTagged.scan_eq_two_iff (h : SwapTagged cfg f a rs) (latestRecId : BitVec 32) :
    (pageScan cfg f a latestRecId).wordsWritten = 2 ↔ rs = [] := by
  rw [pageScan_wordsWritten h.records]
  constructor
  · intro heq
    have hlt := cfg.pageSize_lt
    have hfits := h.fits
    have htwo : (2 : BitVec 16).toNat = 2 := rfl
    have hnat := congrArg BitVec.toNat heq
    simp only [BitVec.toNat_add, BitVec.toNat_ofNat, htwo] at hnat
    have hzero : recordsSize rs = 0 := by omega
    cases rs with
    | nil => rfl
    | cons r rs =>
      have hthree := r.three_le_size
      rw [recordsSize_cons] at hzero
      omega
  · rintro rfl
    simp

/-! ## §2 The table that is built -/

/-- The entries of `m_pages` so far: types and addresses. -/
structure Slots (st : PagesInit cfg) (l : List (FdsPageType × ℕ)) : Prop where
  page : st.page = l.length
  slot : ∀ j (hj : j < l.length),
    (st.fds.pages.get j).pageType = l[j].1 ∧ (st.fds.pages.get j).pAddr = l[j].2

/-- The data pages `i`, …, `i + n - 1`. -/
def dataSlots (cfg : FdsConfig) (i n : ℕ) : List (FdsPageType × ℕ) :=
  (List.range' i n).map fun p => (.data, cfg.pageAddr p)

@[simp] theorem length_dataSlots (i n : ℕ) : (dataSlots cfg i n).length = n := by
  simp [dataSlots]

/-- What `pages_init` leaves alone. -/
structure SameButTable (s s' : Fds cfg) : Prop where
  flash : s'.flash = s.flash
  full : s'.fsFull = s.fsFull
  pending : s'.pending = s.pending
  state : s'.gc.state = s.gc.state
  src : s'.gc.pRecordSrc = s.gc.pRecordSrc
  resume : s'.gc.resume = s.gc.resume

theorem SameButTable.refl (s : Fds cfg) : SameButTable s s := ⟨rfl, rfl, rfl, rfl, rfl, rfl⟩

theorem SameButTable.trans {s s' s'' : Fds cfg} (h : SameButTable s s') (h' : SameButTable s' s'') :
    SameButTable s s'' :=
  ⟨h'.flash.trans h.flash, h'.full.trans h.full, h'.pending.trans h.pending,
    h'.state.trans h.state, h'.src.trans h.src, h'.resume.trans h.resume⟩

theorem pagesInitStep_same (i : ℕ) (st : PagesInit cfg) :
    SameButTable st.fds (pagesInitStep i st).fds := by
  unfold pagesInitStep
  split
  · unfold pagesInitUndefined
    split
    · dsimp only
      split
      · exact ⟨rfl, rfl, rfl, rfl, rfl, rfl⟩
      · exact ⟨rfl, rfl, rfl, rfl, rfl, rfl⟩
    · exact ⟨rfl, rfl, rfl, rfl, rfl, rfl⟩
  · exact ⟨rfl, rfl, rfl, rfl, rfl, rfl⟩
  · unfold pagesInitSwap
    split
    · exact ⟨rfl, rfl, rfl, rfl, rfl, rfl⟩
    · exact ⟨rfl, rfl, rfl, rfl, rfl, rfl⟩
  · exact .refl _

theorem pagesInitLoop_same (n i : ℕ) (st : PagesInit cfg) :
    SameButTable st.fds (pagesInitLoop n i st).fds := by
  induction n generalizing i st with
  | zero => exact .refl _
  | succ n ih => exact (pagesInitStep_same i st).trans (ih (i + 1) _)

theorem pagesInitLoop_add (m n i : ℕ) (st : PagesInit cfg) :
    pagesInitLoop (m + n) i st = pagesInitLoop n (i + m) (pagesInitLoop m i st) := by
  induction m generalizing i st with
  | zero => simp [pagesInitLoop]
  | succ m ih =>
    have hcomm : m + 1 + n = m + n + 1 := by omega
    rw [hcomm]
    have hnext := ih (i + 1) (pagesInitStep i st)
    have hindex : i + 1 + m = i + (m + 1) := by omega
    rw [hindex] at hnext
    exact hnext

theorem Slots.push (h : Slots st l) (hlen : l.length < cfg.maxPages) (page : FdsPage) :
    Slots (st.push page) (l ++ [(page.pageType, page.pAddr)]) := by
  constructor
  · simp [PagesInit.push, h.page]
  · intro j hj
    have hget : (st.push page).fds.pages.get j = if j = l.length then page
        else st.fds.pages.get j := by
      unfold PagesInit.push
      rw [← h.page]
      exact FixedArray.get_set _ _ _ _ (h.page ▸ hlen)
    rw [hget]
    by_cases hjl : j = l.length
    · subst hjl
      simp
    · have hlt : j < l.length := by
        simp only [List.length_append, List.length_cons, List.length_nil] at hj
        omega
      rw [if_neg hjl, List.getElem_append_left hlt]
      exact h.slot j hlt

/-- Only these fields matter for the entries. -/
theorem Slots.congr {st' : PagesInit cfg} (h : Slots st l) (hpage : st'.page = st.page)
    (hpages : st'.fds.pages = st.fds.pages) : Slots st' l :=
  ⟨hpage.trans h.page, fun j hj => by rw [hpages]; exact h.slot j hj⟩

/-- What a run over data pages does. -/
structure DataRun (st st' : PagesInit cfg) (l : List (FdsPageType × ℕ)) (data : Bool) : Prop where
  slots : Slots st' l
  swapPage : st'.fds.swapPage = st.fds.swapPage
  curPage : st'.fds.gc.curPage = st.fds.gc.curPage
  swapSet : st'.swapSetButNotFound = st.swapSetButNotFound
  found : st'.found = { st.found with data := st.found.data || data }

/-- **A run over `n` data pages** appends them to the table. -/
theorem pagesInitLoop_data {n i : ℕ} (h : Slots st l)
    (hdata : ∀ p, i ≤ p → p < i + n → pageIdentify st.fds.flash (cfg.pageAddr p) = .data)
    (hlen : l.length + n ≤ cfg.maxPages) :
    DataRun st (pagesInitLoop n i st) (l ++ dataSlots cfg i n) (decide (0 < n)) := by
  induction n generalizing i st l with
  | zero => exact ⟨by simpa [dataSlots, pagesInitLoop] using h, rfl, rfl, rfl, by simp [pagesInitLoop]⟩
  | succ n ih =>
    have hstep : pagesInitStep i st = pagesInitData (cfg.pageAddr i) st := by
      unfold pagesInitStep
      rw [hdata i le_rfl (by omega)]
    have hslots : Slots (pagesInitStep i st) (l ++ [(.data, cfg.pageAddr i)]) := by
      rw [hstep]
      refine Slots.push ?_ (by omega) _
      exact h.congr rfl rfl
    have hrest : ∀ p, i + 1 ≤ p → p < i + 1 + n →
        pageIdentify (pagesInitStep i st).fds.flash (cfg.pageAddr p) = .data := by
      intro p h₁ h₂
      rw [(pagesInitStep_same i st).flash]
      exact hdata p (by omega) (by omega)
    have hfits : (l ++ [(FdsPageType.data, cfg.pageAddr i)]).length + n ≤ cfg.maxPages := by
      simp only [List.length_append, List.length_cons, List.length_nil]
      omega
    have hrun := ih hslots hrest hfits
    have hcons : l ++ dataSlots cfg i (n + 1)
        = l ++ [(.data, cfg.pageAddr i)] ++ dataSlots cfg (i + 1) n := by
      simp [dataSlots, List.range'_succ]
    unfold pagesInitLoop
    rw [hcons]
    refine ⟨hrun.slots, ?_, ?_, ?_, ?_⟩
    · rw [hrun.swapPage, hstep]
      rfl
    · rw [hrun.curPage, hstep]
      rfl
    · rw [hrun.swapSet, hstep]
      rfl
    · rw [hrun.found, hstep]
      simp [pagesInitData, PagesInit.push]

/-! ## §3 The other pages -/

/-- What the loop has built from the flash `f`. -/
structure Built (f : Flash 32) (st : PagesInit cfg) (l : List (FdsPageType × ℕ)) (swap cur : ℕ)
    (swapSet : Bool) (found : PagesFound) : Prop where
  flash : st.fds.flash = f
  slots : Slots st l
  swapAddr : st.fds.swapPage.pAddr = swap
  /-- An empty swap page is written behind its tag. -/
  offset : swap ≠ 0 → found.swapDirty = false → st.fds.swapPage.writeOffset = 2
  curPage : st.fds.gc.curPage = cur
  swapSet : st.swapSetButNotFound = swapSet
  found : st.found = found

variable {swap cur i n : ℕ} {swapSet : Bool} {found : PagesFound}

theorem Built.data (h : Built f st l swap cur swapSet found)
    (hdata : ∀ p, i ≤ p → p < i + n → ∃ rs, DataPage cfg f (cfg.pageAddr p) rs)
    (hlen : l.length + n ≤ cfg.maxPages) :
    Built f (pagesInitLoop n i st) (l ++ dataSlots cfg i n) swap cur swapSet
      { found with data := found.data || decide (0 < n) } := by
  have hidentify : ∀ p, i ≤ p → p < i + n →
      pageIdentify st.fds.flash (cfg.pageAddr p) = .data := by
    intro p h₁ h₂
    obtain ⟨rs, hpage⟩ := hdata p h₁ h₂
    rw [h.flash]
    exact hpage.identify
  have hrun := pagesInitLoop_data h.slots hidentify hlen
  exact ⟨(pagesInitLoop_same n i st).flash.trans h.flash, hrun.slots,
    by rw [hrun.swapPage, h.swapAddr], by rw [hrun.swapPage]; exact h.offset,
    by rw [hrun.curPage, h.curPage],
    hrun.swapSet.trans h.swapSet, by rw [hrun.found, h.found]⟩

/-- The bits after a page tagged swap, with these records. -/
def PagesFound.withSwap (found : PagesFound) (rs : List FdsRecord) : PagesFound :=
  if rs = [] then { found with swapEmpty := true } else { found with swapDirty := true }

theorem PagesFound.withSwap_clean (found : PagesFound)
    (h : (found.withSwap rs).swapDirty = false) : rs = [] := by
  unfold withSwap at h
  split at h
  · assumption
  · simp at h

/-- A page tagged swap, with no erased page before it. -/
theorem Built.taggedSwap (h : Built f st l swap cur false found)
    (hpage : SwapTagged cfg f (cfg.pageAddr i) rs) :
    Built f (pagesInitStep i st) l (cfg.pageAddr i) cur false (found.withSwap rs) := by
  have hstep : pagesInitStep i st = pagesInitSwap (cfg.pageAddr i) st := by
    unfold pagesInitStep
    rw [h.flash, hpage.identify]
  rw [hstep]
  unfold pagesInitSwap
  rw [h.swapSet]
  refine ⟨h.flash, h.slots.congr rfl rfl, rfl, ?_, h.curPage, h.swapSet, ?_⟩
  · intro _ hclean
    simp only [h.flash]
    exact (hpage.scan_eq_two_iff _).mpr (found.withSwap_clean hclean)
  · simp only [h.flash, hpage.scan_eq_two_iff, PagesFound.withSwap]
    split
    · simp [h.found]
    · simp [h.found]

/-- A page tagged swap, behind the erased page: that one goes into the table. -/
theorem Built.taggedSwapBehind (h : Built f st l swap cur true found) (hlen : l.length < cfg.maxPages)
    (hpage : SwapTagged cfg f (cfg.pageAddr i) rs) :
    Built f (pagesInitStep i st) (l ++ [(.erased, swap)]) (cfg.pageAddr i) cur true
      (found.withSwap rs) := by
  have hstep : pagesInitStep i st = pagesInitSwap (cfg.pageAddr i) st := by
    unfold pagesInitStep
    rw [h.flash, hpage.identify]
  rw [hstep]
  unfold pagesInitSwap
  rw [h.swapSet]
  have hpush := h.slots.push hlen (st.erasedPage st.fds.swapPage.pAddr)
  have hentry : (st.erasedPage st.fds.swapPage.pAddr).pAddr = swap := h.swapAddr
  rw [hentry] at hpush
  refine ⟨h.flash, hpush.congr rfl rfl, rfl, ?_, h.curPage, h.swapSet, ?_⟩
  · intro _ hclean
    simp only [h.flash]
    exact (hpage.scan_eq_two_iff _).mpr (found.withSwap_clean hclean)
  · simp only [h.flash, hpage.scan_eq_two_iff, PagesFound.withSwap]
    split
    · simp [PagesInit.push, h.found]
    · simp [PagesInit.push, h.found]

/-- An erased page, with no page tagged swap before it. -/
theorem Built.erasedPage (h : Built f st l 0 cur false found)
    (hpage : ErasedPage cfg f (cfg.pageAddr i)) :
    Built f (pagesInitStep i st) l (cfg.pageAddr i) cur true { found with erased := true } := by
  have hstep : pagesInitStep i st = pagesInitUndefined (cfg.pageAddr i) st := by
    unfold pagesInitStep
    rw [h.flash, hpage.identify]
  rw [hstep]
  unfold pagesInitUndefined
  rw [h.flash, if_pos hpage.isErased]
  simp only [h.swapAddr, ne_eq, not_true_eq_false, if_false]
  exact ⟨h.flash, h.slots.congr rfl rfl, rfl, fun _ _ => rfl, h.curPage, rfl, by simp [h.found]⟩

/-- An erased page behind the page tagged swap: it is noted as a candidate. -/
theorem Built.erasedPageBehind (h : Built f st l swap cur false found) (hswap : swap ≠ 0)
    (hlen : l.length < cfg.maxPages) (hpage : ErasedPage cfg f (cfg.pageAddr i)) :
    Built f (pagesInitStep i st) (l ++ [(.erased, cfg.pageAddr i)]) swap l.length false
      { found with erased := true } := by
  have hstep : pagesInitStep i st = pagesInitUndefined (cfg.pageAddr i) st := by
    unfold pagesInitStep
    rw [h.flash, hpage.identify]
  rw [hstep]
  unfold pagesInitUndefined
  rw [h.flash, if_pos hpage.isErased]
  simp only [h.swapAddr, ne_eq, hswap, not_false_eq_true, if_true]
  refine ⟨h.flash, ?_, h.swapAddr, h.offset, h.slots.page, h.swapSet,
    by simp [PagesInit.push, h.found]⟩
  refine Slots.push ?_ hlen (st.erasedPage (cfg.pageAddr i))
  exact h.slots.congr rfl rfl

/-! ## §4 The arrangements -/

/-- A module that has been reset. -/
theorem built_start {s : Fds cfg} (hswap : s.swapPage.pAddr = 0) (hcur : s.gc.curPage = 0) :
    Built s.flash ⟨s, 0, false, ⟨false, false, false, false⟩⟩ [] 0 0 false
      ⟨false, false, false, false⟩ :=
  ⟨rfl, ⟨rfl, fun j hj => by simp at hj⟩, hswap, fun h => absurd rfl h, hcur, rfl, rfl⟩

/-- The loop, split at page `p`. -/
theorem pagesInitLoop_split {m p q : ℕ} (hmp : m ≤ p) (hpq : p < q) (st : PagesInit cfg) :
    pagesInitLoop (q - m) m st
      = pagesInitLoop (q - (p + 1)) (p + 1) (pagesInitStep p (pagesInitLoop (p - m) m st)) := by
  have hsplit : q - m = (p - m) + (q - (p + 1) + 1) := by omega
  have hindex : m + (p - m) = p := by omega
  rw [hsplit, pagesInitLoop_add, hindex]
  rfl

section Arrangements

variable {s : Fds cfg} {e w : ℕ}

/-- The data pages without page `p`. -/
def dataSlotsBut (cfg : FdsConfig) (p : ℕ) : List (FdsPageType × ℕ) :=
  dataSlots cfg 0 p ++ dataSlots cfg (p + 1) (cfg.virtualPages - (p + 1))

theorem Built.of_eq {st' : PagesInit cfg} {l' : List (FdsPageType × ℕ)} {found' : PagesFound}
    {cur' : ℕ} (h : Built f st l swap cur swapSet found) (hst : st = st') (hl : l = l')
    (hcur : cur = cur') (hfound : found = found') : Built f st' l' swap cur' swapSet found' := by
  subst hst hl hcur hfound
  exact h

/-- **One page is tagged swap**, the others are data pages. -/
theorem pagesInit_swap (hswap : s.swapPage.pAddr = 0) (hcur : s.gc.curPage = 0)
    (hw : w < cfg.virtualPages) (hpage : SwapTagged cfg s.flash (cfg.pageAddr w) rs)
    (hdata : ∀ p < cfg.virtualPages, p ≠ w → ∃ rs, DataPage cfg s.flash (cfg.pageAddr p) rs) :
    Built s.flash (pagesInit s) (dataSlotsBut cfg w) (cfg.pageAddr w) 0 false
      (PagesFound.withSwap ⟨false, true, false, false⟩ rs) := by
  have htwo := cfg.two_le_virtualPages
  have hmax : cfg.maxPages = cfg.virtualPages - 1 := rfl
  have hfirst : Built s.flash (pagesInitLoop (w - 0) 0 _) ([] ++ dataSlots cfg 0 (w - 0)) 0 0
      false _ :=
    (built_start hswap hcur).data (fun p _ hp => hdata p (by omega) (by omega))
      (by simp only [List.length_nil]; omega)
  have hlast := (hfirst.taggedSwap hpage).data (i := w + 1) (n := cfg.virtualPages - (w + 1))
    (fun p h₁ h₂ => hdata p (by omega) (by omega))
    (by simp only [List.nil_append, length_dataSlots]; omega)
  have hany : (decide (0 < w) || decide (0 < cfg.virtualPages - (w + 1))) = true := by
    rw [← Bool.decide_or, decide_eq_true_eq]
    omega
  refine hlast.of_eq (pagesInitLoop_split (Nat.zero_le w) hw _).symm rfl rfl ?_
  simp only [PagesFound.withSwap, Nat.sub_zero, Bool.false_or]
  split
  · simp only [hany]
  · simp only [hany]

/-- **One page is erased**, the others are data pages. -/
theorem pagesInit_erased (hswap : s.swapPage.pAddr = 0) (hcur : s.gc.curPage = 0)
    (he : e < cfg.virtualPages) (hpage : ErasedPage cfg s.flash (cfg.pageAddr e))
    (hdata : ∀ p < cfg.virtualPages, p ≠ e → ∃ rs, DataPage cfg s.flash (cfg.pageAddr p) rs) :
    Built s.flash (pagesInit s) (dataSlotsBut cfg e) (cfg.pageAddr e) 0 true
      ⟨true, true, false, false⟩ := by
  have htwo := cfg.two_le_virtualPages
  have hmax : cfg.maxPages = cfg.virtualPages - 1 := rfl
  have hfirst : Built s.flash (pagesInitLoop (e - 0) 0 _) ([] ++ dataSlots cfg 0 (e - 0)) 0 0
      false _ :=
    (built_start hswap hcur).data (fun p _ hp => hdata p (by omega) (by omega))
      (by simp only [List.length_nil]; omega)
  have hlast := (hfirst.erasedPage hpage).data (i := e + 1) (n := cfg.virtualPages - (e + 1))
    (fun p h₁ h₂ => hdata p (by omega) (by omega))
    (by simp only [List.nil_append, length_dataSlots]; omega)
  have hany : (decide (0 < e) || decide (0 < cfg.virtualPages - (e + 1))) = true := by
    rw [← Bool.decide_or, decide_eq_true_eq]
    omega
  refine hlast.of_eq (pagesInitLoop_split (Nat.zero_le e) he _).symm rfl rfl ?_
  simp only [Nat.sub_zero, Bool.false_or, hany]

/-- **A page is tagged swap and one behind it is erased**: the table notes the erased one. -/
theorem pagesInit_swapFirst (hswap : s.swapPage.pAddr = 0) (hcur : s.gc.curPage = 0)
    (hwe : w < e) (he : e < cfg.virtualPages)
    (hpage : SwapTagged cfg s.flash (cfg.pageAddr w) rs)
    (herased : ErasedPage cfg s.flash (cfg.pageAddr e))
    (hdata : ∀ p < cfg.virtualPages, p ≠ w → p ≠ e →
      ∃ rs, DataPage cfg s.flash (cfg.pageAddr p) rs) :
    ∃ data, Built s.flash (pagesInit s)
      (dataSlots cfg 0 w ++ dataSlots cfg (w + 1) (e - (w + 1)) ++
        (.erased, cfg.pageAddr e) :: dataSlots cfg (e + 1) (cfg.virtualPages - (e + 1)))
      (cfg.pageAddr w) (e - 1) false (PagesFound.withSwap ⟨true, data, false, false⟩ rs) := by
  have htwo := cfg.two_le_virtualPages
  have hmax : cfg.maxPages = cfg.virtualPages - 1 := rfl
  have hpos := cfg.startAddr_pos
  have hne : cfg.pageAddr w ≠ 0 := by
    unfold FdsConfig.pageAddr
    omega
  have hfirst : Built s.flash (pagesInitLoop (w - 0) 0 _) ([] ++ dataSlots cfg 0 (w - 0)) 0 0
      false _ :=
    (built_start hswap hcur).data (fun p _ hp => hdata p (by omega) (by omega) (by omega))
      (by simp only [List.length_nil]; omega)
  have hsecond := (hfirst.taggedSwap hpage).data (i := w + 1) (n := e - (w + 1))
    (fun p h₁ h₂ => hdata p (by omega) (by omega) (by omega))
    (by simp only [List.nil_append, length_dataSlots]; omega)
  have hlast := (hsecond.erasedPageBehind hne
    (by simp only [List.nil_append, List.length_append, length_dataSlots]; omega) herased).data
    (i := e + 1) (n := cfg.virtualPages - (e + 1))
    (fun p h₁ h₂ => hdata p (by omega) (by omega) (by omega))
    (by
      simp only [List.nil_append, List.length_append, length_dataSlots, List.length_cons,
        List.length_nil]
      omega)
  have hloop := pagesInitLoop_split (Nat.zero_le w) (hwe.trans he)
    (⟨s, 0, false, ⟨false, false, false, false⟩⟩ : PagesInit cfg)
  rw [pagesInitLoop_split hwe he] at hloop
  refine ⟨decide (0 < w) || decide (0 < e - (w + 1)) ||
    decide (0 < cfg.virtualPages - (e + 1)), hlast.of_eq hloop.symm ?_ ?_ ?_⟩
  · simp
  · simp only [List.nil_append, List.length_append, length_dataSlots]
    omega
  · simp only [PagesFound.withSwap, Nat.sub_zero, Bool.false_or]
    split
    · rfl
    · rfl

/-- **A page is erased and one behind it is tagged swap**: the table has the erased one, but does
    not note it as the candidate. -/
theorem pagesInit_erasedFirst (hswap : s.swapPage.pAddr = 0) (hcur : s.gc.curPage = 0)
    (hew : e < w) (hw : w < cfg.virtualPages)
    (hpage : SwapTagged cfg s.flash (cfg.pageAddr w) rs)
    (herased : ErasedPage cfg s.flash (cfg.pageAddr e))
    (hdata : ∀ p < cfg.virtualPages, p ≠ w → p ≠ e →
      ∃ rs, DataPage cfg s.flash (cfg.pageAddr p) rs) :
    ∃ data, Built s.flash (pagesInit s)
      (dataSlots cfg 0 e ++ dataSlots cfg (e + 1) (w - (e + 1)) ++
        (.erased, cfg.pageAddr e) :: dataSlots cfg (w + 1) (cfg.virtualPages - (w + 1)))
      (cfg.pageAddr w) 0 true (PagesFound.withSwap ⟨true, data, false, false⟩ rs) := by
  have htwo := cfg.two_le_virtualPages
  have hmax : cfg.maxPages = cfg.virtualPages - 1 := rfl
  have hfirst : Built s.flash (pagesInitLoop (e - 0) 0 _) ([] ++ dataSlots cfg 0 (e - 0)) 0 0
      false _ :=
    (built_start hswap hcur).data (fun p _ hp => hdata p (by omega) (by omega) (by omega))
      (by simp only [List.length_nil]; omega)
  have hsecond := (hfirst.erasedPage herased).data (i := e + 1) (n := w - (e + 1))
    (fun p h₁ h₂ => hdata p (by omega) (by omega) (by omega))
    (by simp only [List.nil_append, length_dataSlots]; omega)
  have hlast := (hsecond.taggedSwapBehind
    (by simp only [List.nil_append, List.length_append, length_dataSlots]; omega) hpage).data
    (i := w + 1) (n := cfg.virtualPages - (w + 1))
    (fun p h₁ h₂ => hdata p (by omega) (by omega) (by omega))
    (by
      simp only [List.nil_append, List.length_append, length_dataSlots, List.length_cons,
        List.length_nil]
      omega)
  have hloop := pagesInitLoop_split (Nat.zero_le e) (hew.trans hw)
    (⟨s, 0, false, ⟨false, false, false, false⟩⟩ : PagesInit cfg)
  rw [pagesInitLoop_split hew hw] at hloop
  refine ⟨decide (0 < e) || decide (0 < w - (e + 1)) ||
    decide (0 < cfg.virtualPages - (w + 1)), hlast.of_eq hloop.symm ?_ rfl ?_⟩
  · simp
  · simp only [PagesFound.withSwap, Nat.sub_zero, Bool.false_or]
    split
    · rfl
    · rfl

end Arrangements

end NordicEsb
