import NordicEsb.Fds.Gc
import NordicEsb.Fds.Table

/-!
# What a Collection Keeps

`live i` are the valid records of page `i` of the table when the collection begins. They stay the
records of that page: while they are copied the page has them too, and once it is erased they are
on the swap page, which takes its place.

- `GcPhase` says, for each operation that the collector waits for, what is on which page
- `gcRecordFindNext_outcome` is the loop over the records of a page, `gcNextPage_outcome` the loop
  over the pages

**Main results**: `gcExecute_begin` and `gcExecute_done`.
-/

namespace NordicEsb

variable {cfg : FdsConfig} {live : ℕ → List FdsRecord} {s s' : Fds cfg}

/-! ## §1 The phases of a collection -/

/-- Every page of the table but `i` holds its records. -/
def HoldBut (live : ℕ → List FdsRecord) (s : Fds cfg) (i : ℕ) : Prop :=
  ∀ j < cfg.maxPages, j ≠ i → PageHolds cfg s.flash (s.pages.get j).pAddr (live j)

/-- Every page of the table holds its records. -/
def HoldAll (live : ℕ → List FdsRecord) (s : Fds cfg) : Prop :=
  ∀ j < cfg.maxPages, PageHolds cfg s.flash (s.pages.get j).pAddr (live j)

/-- The swap page holds these copies, and the next one goes behind them. -/
structure Copies (s : Fds cfg) (vs : List FdsRecord) : Prop where
  page : SwapPage cfg s.flash s.swapPage.pAddr vs
  offset : s.swapPage.writeOffset.toNat = 2 + recordsSize vs

/-- The records of the page that is collected, cut at the record that is copied next. -/
structure Cut (live : ℕ → List FdsRecord) (s : Fds cfg) (pre post : List FdsRecord) : Prop where
  cur : s.gc.curPage < cfg.maxPages
  page : DataPage cfg s.flash (s.pages.get s.gc.curPage).pAddr (pre ++ post)
  valid : (pre ++ post).filter FdsRecord.isValid = live s.gc.curPage
  copies : Copies s (pre.filter FdsRecord.isValid)

/-- **What the collector waits for**, and what is on the pages meanwhile. -/
inductive GcPhase (live : ℕ → List FdsRecord) (s : Fds cfg) : Prop where
  | idle (state : s.gc.state = .begin) (pending : s.pending = none) (hold : HoldAll live s)
      (copies : Copies s []) (src : s.gc.pRecordSrc = 0)
  | copying (pre : List FdsRecord) (r : FdsRecord) (post : List FdsRecord)
      (state : s.gc.state = .copyRecord)
      (pending : s.pending =
        some (.store (s.swapPage.pAddr + s.swapPage.writeOffset.toNat) r.words))
      (hold : HoldAll live s) (cut : Cut live s pre (r :: post)) (valid : r.isValid = true)
      (src : s.gc.pRecordSrc = (s.pages.get s.gc.curPage).pAddr + 2 + recordsSize pre)
  | erasing (state : s.gc.state = .erasePage) (cur : s.gc.curPage < cfg.maxPages)
      (pending : s.pending = some (.erase (s.pages.get s.gc.curPage).pAddr cfg.pageSize))
      (hold : HoldAll live s) (copies : Copies s (live s.gc.curPage))
  | promoting (state : s.gc.state = .promoteSwap) (cur : s.gc.curPage < cfg.maxPages)
      (pending : s.pending = some (.store (s.pages.get s.gc.curPage).pAddr
        [fdsPageTagMagic, fdsPageTagData]))
      (hold : HoldBut live s s.gc.curPage)
      (copied : SwapPage cfg s.flash (s.pages.get s.gc.curPage).pAddr (live s.gc.curPage))
      (valid : (live s.gc.curPage).filter FdsRecord.isValid = live s.gc.curPage)
      (erased : ErasedPage cfg s.flash s.swapPage.pAddr)
      (offset : s.swapPage.writeOffset.toNat = 2)
  | tagging (state : s.gc.state = .tagNewSwap)
      (pending : s.pending = some (.store s.swapPage.pAddr [fdsPageTagMagic, fdsPageTagSwap]))
      (hold : HoldAll live s) (erased : ErasedPage cfg s.flash s.swapPage.pAddr)
      (offset : s.swapPage.writeOffset.toNat = 2) (src : s.gc.pRecordSrc = 0)
  | discarding (vs : List FdsRecord) (state : s.gc.state = .discardSwap)
      (pending : s.pending = some (.erase s.swapPage.pAddr cfg.pageSize))
      (hold : HoldAll live s) (tagged : SwapTagged cfg s.flash s.swapPage.pAddr vs)
      (offset : s.swapPage.writeOffset.toNat = 2)

/-- What every function of the collector leaves alone. -/
structure Collector (s : Fds cfg) : Prop where
  table : Table s
  full : s.fsFull = false
  resume : s.gc.resume = false

/-- **The invariant of a collection.** -/
structure GcInv (live : ℕ → List FdsRecord) (s : Fds cfg) : Prop where
  collector : Collector s
  phase : GcPhase live s

/-- What the collector returns: either it waits for an operation, or it is done. -/
def GcOutcome (live : ℕ → List FdsRecord) (out : FdsRet × Fds cfg) : Prop :=
  GcInv live out.2 ∧
    ((out.1 = fdsOpCompleted ∧ out.2.pending = none) ∨
      (out.1 = fdsOpExecuting ∧ out.2.pending.isSome = true))

/-- The table is about the addresses and types of the pages. -/
theorem Collector.congr (h : Collector s) (hpages : s'.pages = s.pages)
    (hswap : s'.swapPage.pAddr = s.swapPage.pAddr) (hfull : s'.fsFull = s.fsFull)
    (hresume : s'.gc.resume = s.gc.resume) : Collector s' where
  table := by
    obtain ⟨hdata, hcovers⟩ := h.table
    constructor
    · rw [hpages]
      exact hdata
    · unfold Covers slotAddrs at hcovers ⊢
      rw [hpages, hswap]
      exact hcovers
  full := hfull.trans h.full
  resume := hresume.trans h.resume

/-- The records of a page fit on the swap page. -/
theorem Cut.fits {pre post : List FdsRecord} {r : FdsRecord} (h : Cut live s pre (r :: post))
    (hr : r.isValid = true) :
    2 + recordsSize (pre.filter FdsRecord.isValid) + r.size ≤ cfg.pageSize := by
  have hright := h.page.records.right
  have hle := (hright.1.2.2.2 hr).1
  have hfilter := recordsSize_filter_le pre
  omega

/-! ## §2 The loop over the records -/

theorem gcSwapErase_outcome {vs : List FdsRecord} (h : Collector s) (hold : HoldAll live s)
    (hswap : SwapTagged cfg s.flash s.swapPage.pAddr vs) : GcOutcome live (gcSwapErase s) := by
  unfold gcSwapErase
  rw [fsErase_page h.table.covers.swap_mem]
  · refine ⟨⟨h.congr rfl rfl rfl rfl, ?_⟩, .inr ⟨rfl, rfl⟩⟩
    exact .discarding vs rfl rfl hold hswap rfl
  · exact h.full

/-- Once all valid records are copied, the page is erased, unless a record on it is open. -/
theorem gcPageErase_outcome (h : Collector s) (hold : HoldAll live s)
    (hcur : s.gc.curPage < cfg.maxPages) (hcopies : Copies s (live s.gc.curPage)) :
    GcOutcome live (gcPageErase s) := by
  unfold gcPageErase
  split
  case isTrue =>
    rw [fsErase_page (h.table.covers.slot_mem hcur) h.full]
    refine ⟨⟨h.congr rfl rfl rfl rfl, ?_⟩, .inr ⟨rfl, rfl⟩⟩
    exact .erasing rfl hcur rfl hold ⟨hcopies.page, hcopies.offset⟩
  case isFalse => exact gcSwapErase_outcome h hold hcopies.page.tagged

/-- The next valid record is copied behind the others. -/
theorem gcRecordCopy_outcome {pre post : List FdsRecord} {r : FdsRecord} (h : Collector s)
    (hold : HoldAll live s) (hcut : Cut live s pre (r :: post)) (hr : r.isValid = true)
    (hsrc : s.gc.pRecordSrc = (s.pages.get s.gc.curPage).pAddr + 2 + recordsSize pre) :
    GcOutcome live (gcRecordCopy s) := by
  have hright := hcut.page.records.right
  obtain ⟨⟨-, -, hheader, hvalid⟩, -⟩ := hright
  obtain ⟨hle, hat⟩ := hvalid hr
  have hfits := hcut.fits hr
  have hthree := r.three_le_size
  have hlt := cfg.pageSize_lt
  have hlen : (gcRecordLen s).toNat = r.size := by
    have hthree : (3 : BitVec 16).toNat = 3 := rfl
    have hsize : r.size = 3 + r.header.lengthWords.toNat := rfl
    unfold gcRecordLen
    rw [hsrc, hheader, BitVec.toNat_add, hthree]
    omega
  have hread : s.flash.read s.gc.pRecordSrc (gcRecordLen s).toNat = r.words := by
    rw [hlen, hsrc]
    exact read_eq_words_iff.mpr hat
  unfold gcRecordCopy
  rw [hread]
  rw [fsStore_page h.table.covers.swap_mem]
  · refine ⟨⟨h.congr rfl rfl rfl rfl, ?_⟩, .inr ⟨rfl, rfl⟩⟩
    exact .copying pre r post rfl rfl hold
      ⟨hcut.cur, hcut.page, hcut.valid, ⟨hcut.copies.page, hcut.copies.offset⟩⟩ hr hsrc
  · exact h.full
  · exact Nat.le_add_right _ _
  · rw [r.length_words]
    omega
  · rw [r.length_words, hcut.copies.offset]
    omega

/-- **The loop over the records of a page**: the records before the cut are copied. -/
theorem gcRecordFindNext_outcome {pre post : List FdsRecord} (h : Collector s)
    (hold : HoldAll live s) (hcut : Cut live s pre post)
    (hnext : recordNext s.flash (s.pages.get s.gc.curPage).pAddr s.gc.pRecordSrc
      = (s.pages.get s.gc.curPage).pAddr + 2 + recordsSize pre) :
    GcOutcome live (gcRecordFindNext s) := by
  have hright := hcut.page.records.right
  have hlen := hcut.page.records.length_le
  rw [← hnext] at hright
  unfold gcRecordFindNext
  rcases recordsValid_cases post with hnone | ⟨skip, r, post, rfl, hskip, hr⟩
  · -- All valid records are copied.
    rw [recordFindNext_none hright hnone]
    refine gcPageErase_outcome h hold hcut.cur ?_
    have hrest : post.filter FdsRecord.isValid = [] :=
      List.filter_eq_nil_iff.mpr fun r hr => by simp [hnone r hr]
    have hvalid := hcut.valid
    rw [List.filter_append, hrest, List.append_nil] at hvalid
    rw [← hvalid]
    exact hcut.copies
  · rw [List.length_append] at hlen
    rw [recordFindNext_some hright hskip hr (by omega), hnext]
    have hskipped : skip.filter FdsRecord.isValid = [] :=
      List.filter_eq_nil_iff.mpr fun r hr => by simp [hskip r hr]
    have hpre : (pre ++ skip).filter FdsRecord.isValid = pre.filter FdsRecord.isValid := by
      rw [List.filter_append, hskipped, List.append_nil]
    have hcopies : Copies s ((pre ++ skip).filter FdsRecord.isValid) := by
      rw [hpre]
      exact hcut.copies
    -- The records that are skipped are before the new cut.
    have hcut' : Cut live s (pre ++ skip) (r :: post) :=
      ⟨hcut.cur, by simpa using hcut.page, by simpa using hcut.valid, hcopies⟩
    refine gcRecordCopy_outcome (h.congr rfl rfl rfl rfl) hold
      ⟨hcut'.cur, hcut'.page, hcut'.valid, ⟨hcopies.page, hcopies.offset⟩⟩ hr ?_
    simp only [recordsSize_append]
    omega

/-! ## §3 The loop over the pages -/

theorem gcPageNextLoop_eq (n i : ℕ) (s : Fds cfg) :
    (∃ d, (gcPageNextLoop n i s).2 = { s with gc := { s.gc with doGcPage := d } }) ∧
      ∀ j, (gcPageNextLoop n i s).1 = some j → j < i + n := by
  induction n generalizing i s with
  | zero => exact ⟨⟨_, rfl⟩, by simp [gcPageNextLoop]⟩
  | succ n ih =>
    unfold gcPageNextLoop
    split
    case isTrue =>
      obtain ⟨⟨d, hd⟩, hlt⟩ :=
        ih (i + 1) { s with gc := { s.gc with doGcPage := s.gc.doGcPage.set i false } }
      dsimp only
      split
      case isTrue =>
        refine ⟨⟨_, rfl⟩, ?_⟩
        intro j hj
        obtain rfl := Option.some.inj hj
        omega
      case isFalse =>
        refine ⟨⟨d, hd⟩, fun j hj => ?_⟩
        have := hlt j hj
        omega
    case isFalse =>
      obtain ⟨hd, hlt⟩ := ih (i + 1) s
      refine ⟨hd, fun j hj => ?_⟩
      have := hlt j hj
      omega

/-- **The loop over the pages.** -/
theorem gcNextPage_outcome (h : Collector s) (hold : HoldAll live s) (hcopies : Copies s [])
    (hsrc : s.gc.pRecordSrc = 0) (hpending : s.pending = none) :
    GcOutcome live (gcNextPage s) := by
  obtain ⟨⟨d, hd⟩, hlt⟩ := gcPageNextLoop_eq cfg.maxPages 0 s
  unfold gcNextPage gcPageNext
  cases hnext : gcPageNextLoop cfg.maxPages 0 s with
  | mk next t =>
    rw [hnext] at hd hlt
    simp only at hd hlt
    subst hd
    cases next with
    | none =>
      refine ⟨⟨h.congr rfl rfl rfl rfl, ?_⟩, .inl ⟨rfl, hpending⟩⟩
      exact .idle rfl hpending hold ⟨hcopies.page, hcopies.offset⟩ rfl
    | some i =>
      have hi : i < cfg.maxPages := by simpa using hlt i rfl
      obtain ⟨rs, hpage, hvalid⟩ := hold i hi
      have hcut : Cut live { s with gc := { s.gc with doGcPage := d, curPage := i } } [] rs :=
        ⟨hi, hpage, hvalid, ⟨hcopies.page, hcopies.offset⟩⟩
      refine gcRecordFindNext_outcome (h.congr rfl rfl rfl rfl) hold hcut ?_
      simp [recordNext, hsrc]

/-- **A collection begins.** -/
theorem gcExecute_begin (h : GcInv live s) (hstate : s.gc.state = .begin) :
    GcOutcome live (gcExecute fsSuccess s) := by
  have henter : gcEnter s = { s with gc :=
      { s.gc with
        runCount := s.gc.runCount + 1
        curPage := 0
        resume := false
        doGcPage := fun i => (s.pages.get i).pageType == .data
        state := .nextPage } } := by
    unfold gcEnter gcStateAdvance gcInit
    rw [h.collector.resume, hstate]
    rfl
  unfold gcExecute
  rw [if_neg (by decide), henter]
  cases h.phase with
  | idle state pending hold copies src =>
    exact gcNextPage_outcome (h.collector.congr rfl rfl rfl h.collector.resume.symm) hold
      ⟨copies.page, copies.offset⟩ src pending
  | copying pre r post state => simp [hstate] at state
  | erasing state => simp [hstate] at state
  | promoting state => simp [hstate] at state
  | tagging state => simp [hstate] at state
  | discarding vs state => simp [hstate] at state

/-! ## §4 An operation is complete -/

theorem Collector.flash (h : Collector s) (f : Flash 32) (op : Option FsOp) :
    Collector { s with flash := f, pending := op } :=
  h.congr rfl rfl rfl rfl

/-- What is written to another page leaves the pages of the table as they are. -/
theorem HoldBut.store {i : ℕ} {a dest : ℕ} {ws : List (BitVec 32)} (hold : HoldBut live s i)
    (h : Covers s) (ha : a ∈ cfg.pageAddrs)
    (hne : ∀ j < cfg.maxPages, j ≠ i → (s.pages.get j).pAddr ≠ a) (hle : a ≤ dest)
    (hend : dest + ws.length ≤ a + cfg.pageSize) :
    HoldBut live { s with flash := s.flash.store dest ws, pending := none } i := by
  intro j hj hji
  exact (hold j hj hji).congr
    (agreeOn_store_page ha (h.slot_mem hj) (hne j hj hji) hle hend)

theorem HoldAll.store {dest : ℕ} {ws : List (BitVec 32)} (hold : HoldAll live s)
    (h : Covers s) (hle : s.swapPage.pAddr ≤ dest)
    (hend : dest + ws.length ≤ s.swapPage.pAddr + cfg.pageSize) :
    HoldAll live { s with flash := s.flash.store dest ws, pending := none } := by
  intro j hj
  exact (hold j hj).congr
    (agreeOn_store_page h.swap_mem (h.slot_mem hj) (h.slot_ne_swap hj) hle hend)

theorem HoldAll.eraseSwap (hold : HoldAll live s) (h : Covers s) :
    HoldAll live
      { s with flash := s.flash.erase s.swapPage.pAddr cfg.pageSize, pending := none } := by
  intro j hj
  exact (hold j hj).congr (agreeOn_erase_page h.swap_mem (h.slot_mem hj) (h.slot_ne_swap hj))

/-- The state that `gc_execute` enters when it does not resume. -/
theorem gcExecute_advance (hresume : s.gc.resume = false) :
    gcExecute fsSuccess s =
      match (gcStateAdvance s).gc.state with
      | .nextPage => gcNextPage (gcStateAdvance s)
      | .findNextRecord => gcRecordFindNext (gcStateAdvance s)
      | .copyRecord => gcRecordCopy (gcStateAdvance s)
      | .erasePage => gcPageErase (gcStateAdvance s)
      | .promoteSwap => gcSwapPromote (gcStateAdvance s)
      | .tagNewSwap => gcTagNewSwap (gcStateAdvance s)
      | .begin | .discardSwap => (fdsErrInternal, gcStateAdvance s) := by
  unfold gcExecute gcEnter
  rw [if_neg (by decide), hresume]
  rfl

theorem gcTagNewSwap_outcome (h : Collector s) (hold : HoldAll live s)
    (herased : ErasedPage cfg s.flash s.swapPage.pAddr)
    (hoffset : s.swapPage.writeOffset.toNat = 2) : GcOutcome live (gcTagNewSwap s) := by
  have hsize := cfg.two_le_pageSize
  unfold gcTagNewSwap pageTagWriteSwap
  rw [fsStore_page h.table.covers.swap_mem]
  · refine ⟨⟨h.congr rfl rfl rfl rfl, ?_⟩, .inr ⟨rfl, rfl⟩⟩
    exact .tagging rfl rfl hold herased hoffset rfl
  · exact h.full
  · exact le_rfl
  · simp
  · simpa using hsize

/-- A record is copied. -/
theorem gcExecute_copied {pre post : List FdsRecord} {r : FdsRecord} (h : Collector s)
    (state : s.gc.state = .copyRecord)
    (hpending : s.pending =
      some (.store (s.swapPage.pAddr + s.swapPage.writeOffset.toNat) r.words))
    (hold : HoldAll live s) (hcut : Cut live s pre (r :: post)) (hr : r.isValid = true)
    (hsrc : s.gc.pRecordSrc = (s.pages.get s.gc.curPage).pAddr + 2 + recordsSize pre) :
    GcOutcome live (gcExecute fsSuccess (flashDone s)) := by
  obtain ⟨f, hf⟩ : ∃ f, f = s.flash.store (s.swapPage.pAddr + s.swapPage.writeOffset.toNat)
    r.words := ⟨_, rfl⟩
  have hdone : flashDone s = { s with flash := f, pending := none } := by
    unfold flashDone
    rw [hpending, hf]
    rfl
  have hcovers := h.table.covers
  have hfits := hcut.fits hr
  have hlt := cfg.pageSize_lt
  have hoffset := hcut.copies.offset
  have hdest : s.swapPage.pAddr + s.swapPage.writeOffset.toNat
      = s.swapPage.pAddr + 2 + recordsSize (pre.filter FdsRecord.isValid) := by omega
  have hend : s.swapPage.pAddr + s.swapPage.writeOffset.toNat + r.words.length
      ≤ s.swapPage.pAddr + cfg.pageSize := by
    rw [r.length_words]
    omega
  -- The page that is collected is as before.
  have hsame : s.flash.AgreeOn f (s.pages.get s.gc.curPage).pAddr
      ((s.pages.get s.gc.curPage).pAddr + cfg.pageSize) := by
    rw [hf]
    exact agreeOn_store_page hcovers.swap_mem (hcovers.slot_mem hcut.cur)
      (hcovers.slot_ne_swap hcut.cur) (Nat.le_add_right _ _) hend
  have hpage : DataPage cfg f (s.pages.get s.gc.curPage).pAddr (pre ++ r :: post) :=
    hcut.page.congr hsame
  have hvalid : (pre ++ [r]).filter FdsRecord.isValid = pre.filter FdsRecord.isValid ++ [r] := by
    rw [List.filter_append, List.filter_cons_of_pos hr, List.filter_nil]
  have hswap : SwapPage cfg f s.swapPage.pAddr ((pre ++ [r]).filter FdsRecord.isValid) := by
    rw [hvalid, hf, hdest]
    exact hcut.copies.page.copy hfits
  have hheader : fdsHeaderAt f s.gc.pRecordSrc = r.header := by
    rw [hsrc]
    exact hpage.records.right.1.2.2.1
  have hlen : (gcRecordLen { s with flash := f, pending := none }).toNat = r.size := by
    have hthree : (3 : BitVec 16).toNat = 3 := rfl
    have hsize : r.size = 3 + r.header.lengthWords.toNat := rfl
    unfold gcRecordLen
    rw [hheader, BitVec.toNat_add, hthree]
    omega
  have hall : HoldAll live { s with flash := f, pending := none } := by
    rw [hf]
    exact hold.store hcovers (Nat.le_add_right _ _) hend
  have hpos : s.gc.pRecordSrc ≠ 0 := by
    have := pos_of_mem_pageAddrs (hcovers.slot_mem hcut.cur)
    omega
  obtain ⟨len, hlength⟩ : ∃ len, len = gcRecordLen { s with flash := f, pending := none } :=
    ⟨_, rfl⟩
  obtain ⟨t, ht⟩ : ∃ t : Fds cfg, t = { s with
      flash := f
      pending := none
      swapPage := ⟨s.swapPage.pAddr, s.swapPage.writeOffset + len⟩
      gc := { s.gc with state := .findNextRecord } } := ⟨_, rfl⟩
  have hadvance : gcStateAdvance { s with flash := f, pending := none } = t := by
    unfold gcStateAdvance gcUpdateSwapOffset
    rw [ht, hlength]
    simp only [state]
  have hnext : Cut live t (pre ++ [r]) post := by
    rw [ht]
    refine ⟨hcut.cur, by simpa using hpage, by simpa using hcut.valid, hswap, ?_⟩
    rw [← hlength] at hlen
    simp only [BitVec.toNat_add, hlen, hvalid, recordsSize_append, recordsSize_cons,
      recordsSize_nil]
    omega
  have hcollector : Collector t := by
    rw [ht]
    exact h.congr rfl rfl rfl rfl
  have hholds : HoldAll live t := by
    rw [ht]
    exact hall
  rw [hdone, gcExecute_advance (h.flash f none).resume, hadvance]
  have hstate : t.gc.state = .findNextRecord := by rw [ht]
  rw [hstate]
  refine gcRecordFindNext_outcome hcollector hholds hnext ?_
  have hbehind : recordNext f (s.pages.get s.gc.curPage).pAddr s.gc.pRecordSrc
      = s.gc.pRecordSrc + r.size := by
    unfold recordNext
    rw [if_pos hpos, hheader]
    rfl
  rw [ht, hbehind, hsrc]
  simp only [recordsSize_append, recordsSize_cons, recordsSize_nil]
  omega

/-- The page is erased: the swap page takes its place. -/
theorem gcExecute_erased (h : Collector s) (state : s.gc.state = .erasePage)
    (hcur : s.gc.curPage < cfg.maxPages)
    (hpending : s.pending = some (.erase (s.pages.get s.gc.curPage).pAddr cfg.pageSize))
    (hold : HoldAll live s) (hcopies : Copies s (live s.gc.curPage)) :
    GcOutcome live (gcExecute fsSuccess (flashDone s)) := by
  have hcovers := h.table.covers
  have hmem := hcovers.slot_mem hcur
  have hsize := cfg.two_le_pageSize
  obtain ⟨f, hf⟩ : ∃ f, f = s.flash.erase (s.pages.get s.gc.curPage).pAddr cfg.pageSize :=
    ⟨_, rfl⟩
  have hdone : flashDone s = { s with flash := f, pending := none } := by
    unfold flashDone
    rw [hpending, hf]
    rfl
  obtain ⟨page, hpage⟩ : ∃ page, page = { s.pages.get s.gc.curPage with
      pAddr := s.swapPage.pAddr, writeOffset := s.swapPage.writeOffset } := ⟨_, rfl⟩
  obtain ⟨t, ht⟩ : ∃ t : Fds cfg, t = { s with
      flash := f
      pending := none
      swapPage := ⟨(s.pages.get s.gc.curPage).pAddr, 2⟩
      pages := s.pages.set s.gc.curPage page
      gc := { s.gc with state := .promoteSwap } } := ⟨_, rfl⟩
  have hadvance : gcStateAdvance { s with flash := f, pending := none } = t := by
    unfold gcStateAdvance gcSwapPages
    rw [ht, hpage]
    simp only [state]
  have hcurrent : t.pages.get t.gc.curPage = page := by
    rw [ht]
    exact FixedArray.get_set_self _ _ hcur
  have hother : ∀ j, j ≠ s.gc.curPage → t.pages.get j = s.pages.get j := by
    intro j hj
    rw [ht]
    exact FixedArray.get_set_ne _ _ hj
  have htype : page.pageType = .data := by
    rw [hpage]
    exact h.table.data _ hcur
  have haddr : page.pAddr = s.swapPage.pAddr := by rw [hpage]
  have hcollector : Collector t := by
    refine ⟨⟨?_, ?_⟩, by rw [ht]; exact h.full, by rw [ht]; exact h.resume⟩
    · intro j hj
      by_cases hjc : j = s.gc.curPage
      · rw [hjc, ← htype, ← hcurrent, ht]
      · rw [hother j hjc]
        exact h.table.data j hj
    · exact hcovers.exchange hcur (by rw [ht]) (by rw [ht]) haddr
  have hflash : t.flash = f := by rw [ht]
  have hcurPage : t.gc.curPage = s.gc.curPage := by rw [ht]
  have hswap : t.swapPage = ⟨(s.pages.get s.gc.curPage).pAddr, 2⟩ := by rw [ht]
  have hstate : t.gc.state = .promoteSwap := by rw [ht]
  -- The other pages are as before, and so is the page with the copies.
  have hbut : HoldBut live t s.gc.curPage := by
    intro j hj hjc
    rw [hother j hjc, hflash, hf]
    exact (hold j hj).congr (agreeOn_erase_page hmem (hcovers.slot_mem hj)
      (hcovers.slot_ne_slot hcur hj hjc))
  have hcopied : SwapPage cfg t.flash page.pAddr (live s.gc.curPage) := by
    rw [hflash, haddr, hf]
    exact hcopies.page.congr (agreeOn_erase_page hmem hcovers.swap_mem
      (hcovers.slot_ne_swap hcur).symm)
  have hvalid : (live s.gc.curPage).filter FdsRecord.isValid = live s.gc.curPage := by
    obtain ⟨rs, -, hrs⟩ := hold _ hcur
    rw [← hrs, List.filter_filter]
    simp
  have herased : ErasedPage cfg t.flash t.swapPage.pAddr := by
    rw [hflash, hswap, hf]
    exact Flash.erasedOn_erase _ _ _
  rw [hdone, gcExecute_advance (h.flash f none).resume, hadvance, hstate]
  unfold gcSwapPromote pageTagWriteData
  rw [hcurrent, fsStore_page (haddr ▸ hcovers.swap_mem)]
  · refine ⟨⟨hcollector.congr rfl rfl rfl rfl, ?_⟩, .inr ⟨rfl, rfl⟩⟩
    refine .promoting rfl (hcurPage ▸ hcur) ?_ (hcurPage ▸ hbut) ?_ (hcurPage ▸ hvalid) herased ?_
    · rw [← hcurrent]
    · rw [hcurrent, hcurPage]
      exact hcopied
    · rw [hswap]
      rfl
  · exact hcollector.full
  · exact le_rfl
  · simp
  · simpa using hsize

/-- The swap page is a data page now. -/
theorem gcExecute_promoted (h : Collector s) (state : s.gc.state = .promoteSwap)
    (hcur : s.gc.curPage < cfg.maxPages)
    (hpending : s.pending = some (.store (s.pages.get s.gc.curPage).pAddr
      [fdsPageTagMagic, fdsPageTagData]))
    (hold : HoldBut live s s.gc.curPage)
    (hcopied : SwapPage cfg s.flash (s.pages.get s.gc.curPage).pAddr (live s.gc.curPage))
    (hvalid : (live s.gc.curPage).filter FdsRecord.isValid = live s.gc.curPage)
    (herased : ErasedPage cfg s.flash s.swapPage.pAddr)
    (hoffset : s.swapPage.writeOffset.toNat = 2) :
    GcOutcome live (gcExecute fsSuccess (flashDone s)) := by
  have hcovers := h.table.covers
  have hmem := hcovers.slot_mem hcur
  have hsize := cfg.two_le_pageSize
  have htag : (s.pages.get s.gc.curPage).pAddr + [fdsPageTagMagic, fdsPageTagData].length
      ≤ (s.pages.get s.gc.curPage).pAddr + cfg.pageSize := by simpa using hsize
  have hbut := hold.store hcovers hmem (fun j hj hjc => hcovers.slot_ne_slot hcur hj hjc) le_rfl htag
  obtain ⟨f, hf⟩ : ∃ f, f = s.flash.store (s.pages.get s.gc.curPage).pAddr
    [fdsPageTagMagic, fdsPageTagData] := ⟨_, rfl⟩
  have hdone : flashDone s = { s with flash := f, pending := none } := by
    unfold flashDone
    rw [hpending, hf]
    rfl
  have hall : HoldAll live { s with flash := f, pending := none } := by
    intro j hj
    by_cases hjc : j = s.gc.curPage
    · rw [hjc, hf]
      exact ⟨_, hcopied.promote, hvalid⟩
    · rw [hf]
      exact hbut j hj hjc
  have hswap : ErasedPage cfg f s.swapPage.pAddr := by
    rw [hf]
    exact (agreeOn_store_page hmem hcovers.swap_mem (hcovers.slot_ne_swap hcur).symm le_rfl
      htag).erasedOn herased
  rw [hdone, gcExecute_advance (h.flash f none).resume]
  unfold gcStateAdvance
  simp only [state]
  exact gcTagNewSwap_outcome (h.congr rfl rfl rfl rfl) hall hswap hoffset

/-- The erased page is the swap page now. -/
theorem gcExecute_tagged (h : Collector s) (state : s.gc.state = .tagNewSwap)
    (hpending : s.pending = some (.store s.swapPage.pAddr [fdsPageTagMagic, fdsPageTagSwap]))
    (hold : HoldAll live s) (herased : ErasedPage cfg s.flash s.swapPage.pAddr)
    (hoffset : s.swapPage.writeOffset.toNat = 2) (hsrc : s.gc.pRecordSrc = 0) :
    GcOutcome live (gcExecute fsSuccess (flashDone s)) := by
  have hcovers := h.table.covers
  have hsize := cfg.two_le_pageSize
  have htag : s.swapPage.pAddr + [fdsPageTagMagic, fdsPageTagSwap].length
      ≤ s.swapPage.pAddr + cfg.pageSize := by simpa using hsize
  have hall := hold.store hcovers le_rfl htag
  have hswap := herased.tagSwap
  obtain ⟨f, hf⟩ : ∃ f, f = s.flash.store s.swapPage.pAddr [fdsPageTagMagic, fdsPageTagSwap] :=
    ⟨_, rfl⟩
  have hdone : flashDone s = { s with flash := f, pending := none } := by
    unfold flashDone
    rw [hpending, hf]
    rfl
  rw [← hf] at hall hswap
  rw [hdone, gcExecute_advance (h.flash f none).resume]
  unfold gcStateAdvance
  simp only [state]
  exact gcNextPage_outcome (h.congr rfl rfl rfl rfl) hall ⟨hswap, by simpa using hoffset⟩ hsrc rfl

/-- The copies are discarded. -/
theorem gcExecute_discarded (h : Collector s) (state : s.gc.state = .discardSwap)
    (hpending : s.pending = some (.erase s.swapPage.pAddr cfg.pageSize))
    (hold : HoldAll live s) (hoffset : s.swapPage.writeOffset.toNat = 2) :
    GcOutcome live (gcExecute fsSuccess (flashDone s)) := by
  have hall := hold.eraseSwap h.table.covers
  have hswap : ErasedPage cfg (s.flash.erase s.swapPage.pAddr cfg.pageSize) s.swapPage.pAddr :=
    Flash.erasedOn_erase _ _ _
  obtain ⟨f, hf⟩ : ∃ f, f = s.flash.erase s.swapPage.pAddr cfg.pageSize := ⟨_, rfl⟩
  have hdone : flashDone s = { s with flash := f, pending := none } := by
    unfold flashDone
    rw [hpending, hf]
    rfl
  rw [← hf] at hall hswap
  rw [hdone, gcExecute_advance (h.flash f none).resume]
  unfold gcStateAdvance
  simp only [state]
  exact gcTagNewSwap_outcome (h.congr rfl rfl rfl rfl) hall hswap hoffset

/-- **A collection goes on**, whatever it waits for. -/
theorem gcExecute_done (h : GcInv live s) (hpending : s.pending ≠ none) :
    GcOutcome live (gcExecute fsSuccess (flashDone s)) := by
  cases h.phase with
  | idle state pending => exact absurd pending hpending
  | copying pre r post state pending hold cut valid src =>
    exact gcExecute_copied h.collector state pending hold cut valid src
  | erasing state cur pending hold copies =>
    exact gcExecute_erased h.collector state cur pending hold copies
  | promoting state cur pending hold copied valid erased offset =>
    exact gcExecute_promoted h.collector state cur pending hold copied valid erased offset
  | tagging state pending hold erased offset src =>
    exact gcExecute_tagged h.collector state pending hold erased offset src
  | discarding vs state pending hold tagged offset =>
    exact gcExecute_discarded h.collector state pending hold offset

end NordicEsb
