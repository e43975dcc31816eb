import NordicEsb.Fds.Iteration

/-!
# Statistics

`fds_stat` counts the records on all pages and adds up the words that are in use. All its sums have
16 bits.

- `fdsStat` is `fds_stat`, with a loop over the valid records of a page and `dirty_records_stat`
- `Reports` is the property: the numbers are those of the records that stand and of the space that
  is owed, and `largest_contig` is the bound for `fds_reserve`

**Main result** (`reports_of_reachable`): it holds in every run that keeps the accounts.
-/

namespace NordicEsb

variable {cfg : FdsConfig} {sz : FdsQueueSizes}

/-! ## §1 Counting -/

/-- `fds_stat_t` -/
structure FdsStat where
  openRecords : BitVec 16
  validRecords : BitVec 16
  dirtyRecords : BitVec 16
  wordsReserved : BitVec 16
  wordsUsed : BitVec 16
  largestContig : BitVec 16
  freeableWords : BitVec 16
deriving DecidableEq, Repr

/-- The loop of `fds_stat` over the valid records of the page at `a`, at most `fuel`. -/
def validRecordsLoop (cfg : FdsConfig) (f : Flash 32) (a : ℕ) : ℕ → ℕ → FdsStat → FdsStat
  | 0, _, stat => stat
  | fuel + 1, p, stat =>
    match recordFindNext cfg f a p with
    | some q =>
      validRecordsLoop cfg f a fuel q { stat with validRecords := stat.validRecords + 1 }
    | none => stat

/-- The loop of `dirty_records_stat`. -/
def dirtyRecordsLoop (f : Flash 32) (pEnd : ℕ) : ℕ → ℕ → FdsStat → FdsStat
  | 0, _, stat => stat
  | fuel + 1, pRec, stat =>
    if pRec < pEnd ∧ f pRec ≠ fdsErasedWord then
      dirtyRecordsLoop f pEnd fuel (pRec + (fdsHeaderAt f pRec).size)
        (if (fdsHeaderAt f pRec).isValid then stat
        else
          { stat with
            dirtyRecords := stat.dirtyRecords + 1
            freeableWords := stat.freeableWords + (3 + (fdsHeaderAt f pRec).lengthWords) })
    else stat

/-- `dirty_records_stat` -/
def dirtyRecordsStat (s : Fds cfg) (page : ℕ) (stat : FdsStat) : FdsStat :=
  dirtyRecordsLoop s.flash ((s.pages.get page).pAddr + cfg.pageSize) cfg.pageSize
    ((s.pages.get page).pAddr + 2) stat

/-- `words_used` of a page. -/
def pageWordsUsed (s : Fds cfg) (i : ℕ) : BitVec 16 :=
  (s.pages.get i).writeOffset + (s.pages.get i).wordsReserved

/-- `contig_words` of a page. -/
def pageContigWords (s : Fds cfg) (i : ℕ) : BitVec 16 :=
  BitVec.ofNat 16 cfg.pageSize - pageWordsUsed s i

/-- One round of the loop of `fds_stat`. -/
def fdsStatPage (s : Fds cfg) (stat : FdsStat) (i : ℕ) : FdsStat :=
  dirtyRecordsStat s i
    (validRecordsLoop cfg s.flash (s.pages.get i).pAddr cfg.pageSize 0
      { stat with
        openRecords := stat.openRecords + (s.pages.get i).recordsOpen
        wordsReserved := stat.wordsReserved + (s.pages.get i).wordsReserved
        wordsUsed := stat.wordsUsed + pageWordsUsed s i
        largestContig :=
          if stat.largestContig < pageContigWords s i then pageContigWords s i
          else stat.largestContig })

/-- `fds_stat` of a module that is initialised. -/
def fdsStat (s : Fds cfg) : FdsStat :=
  (List.range cfg.maxPages).foldl (fdsStatPage s) ⟨0, 0, 0, 0, 0, 0, 0⟩

/-! ## §2 The property -/

/-- The headers of a page that are not valid: the record is deleted, or not written yet. -/
def pageDirty (s : Fds cfg) (i : ℕ) : List (ℕ × FdsHeader) :=
  (pageChain s i).filter fun h => !h.2.isValid

/-- The words of the records that are not valid on a page. -/
def pageFreeable (s : Fds cfg) (i : ℕ) : ℕ := ((pageDirty s i).map fun h => h.2.size).sum

/-- The sum over all pages. -/
def pagesSum (cfg : FdsConfig) (g : ℕ → ℕ) : ℕ := ((List.range cfg.maxPages).map g).sum

/-- **The statistics are right**, up to the width of the sums. -/
structure Reports (l : FdsLedger cfg sz) : Prop where
  /-- The records that stand, which an iteration returns. -/
  valid : (fdsStat l.sys.module.fds).validRecords =
    BitVec.ofNat 16 (standing l.sys.module.fds).length
  dirty : (fdsStat l.sys.module.fds).dirtyRecords =
    BitVec.ofNat 16 (pagesSum cfg fun i => (pageDirty l.sys.module.fds i).length)
  freeable : (fdsStat l.sys.module.fds).freeableWords =
    BitVec.ofNat 16 (pagesSum cfg (pageFreeable l.sys.module.fds))
  /-- What the reservations and the operations in the queue have reserved. -/
  reserved : (fdsStat l.sys.module.fds).wordsReserved =
    BitVec.ofNat 16 (pagesSum cfg (owed l.tokens l.sys.unfinished))
  used : (fdsStat l.sys.module.fds).wordsUsed =
    BitVec.ofNat 16 (pagesSum cfg fun i => (l.sys.module.fds.pages.get i).writeOffset.toNat +
      owed l.tokens l.sys.unfinished i)
  /-- **The largest record**: there is space for it if and only if it is smaller than
      `largest_contig`, its header included. -/
  contig : ∀ lengthWords : BitVec 16,
    (∀ i < cfg.maxPages, SumFits l.sys.module.fds lengthWords.toNat i) →
      ((fdsReserve lengthWords l.sys).1 = fdsSuccess ↔
        lengthWords.toNat + 3 < (fdsStat l.sys.module.fds).largestContig.toNat)

/-! ## §3 A page -/

section Page

variable {s : Fds cfg} {tok : FdsFindToken} {stat : FdsStat} {i : ℕ}

theorem ofNat_add_one (x : BitVec 16) (n : ℕ) :
    x + 1 + BitVec.ofNat 16 n = x + BitVec.ofNat 16 (n + 1) := by
  rw [Nat.add_comm n 1, BitVec.ofNat_add, BitVec.add_assoc]
  rfl

/-- The loop counts the valid records behind the token. -/
theorem validRecordsLoop_eq {fuel : ℕ} (htok : TokenOn s tok)
    (hfuel : (chainBehind s tok).length ≤ fuel) :
    validRecordsLoop cfg s.flash (s.pages.get tok.page).pAddr fuel tok.pAddr stat =
      { stat with
        validRecords := stat.validRecords +
          BitVec.ofNat 16 ((chainBehind s tok).filter fun h => h.2.isValid).length } := by
  induction fuel generalizing tok stat with
  | zero =>
    rw [List.length_eq_zero_iff.mp (Nat.le_zero.mp hfuel)]
    show stat = { stat with validRecords := stat.validRecords + 0#16 }
    rw [BitVec.add_zero]
  | succ fuel ih =>
    unfold validRecordsLoop
    rw [recordFindNext_eq htok.le]
    cases hfind : (chainBehind s tok).find? fun h => h.2.isValid with
    | none =>
      have hnone : (chainBehind s tok).filter (fun h => h.2.isValid) = [] :=
        List.filter_eq_nil_iff.mpr (List.find?_eq_none.mp hfind)
      rw [hnone]
      unfold chainBehind at hfind
      rw [hfind]
      show stat = { stat with validRecords := stat.validRecords + 0#16 }
      rw [BitVec.add_zero]
    | some x =>
      obtain ⟨-, hon, htail, hshorter⟩ := htok.found hfind
      unfold chainBehind at hfind
      rw [hfind, htail, List.length_cons, ← ofNat_add_one]
      exact ih hon (by omega)

/-- The loop adds up the headers that are not valid. -/
theorem dirtyRecordsLoop_eq (f : Flash 32) (pEnd fuel pRec : ℕ) (stat : FdsStat) :
    dirtyRecordsLoop f pEnd fuel pRec stat =
      { stat with
        dirtyRecords := stat.dirtyRecords + BitVec.ofNat 16
          ((headersFrom f pEnd fuel pRec).filter fun h => !h.2.isValid).length
        freeableWords := stat.freeableWords + BitVec.ofNat 16
          (((headersFrom f pEnd fuel pRec).filter fun h => !h.2.isValid).map fun h =>
            h.2.size).sum } := by
  induction fuel generalizing pRec stat with
  | zero =>
    show stat = { stat with
      dirtyRecords := stat.dirtyRecords + 0#16, freeableWords := stat.freeableWords + 0#16 }
    rw [BitVec.add_zero, BitVec.add_zero]
  | succ fuel ih =>
    unfold dirtyRecordsLoop headersFrom
    by_cases hmore : pRec < pEnd ∧ f pRec ≠ fdsErasedWord
    · rw [if_pos hmore, if_pos hmore, ih]
      by_cases hvalid : (fdsHeaderAt f pRec).isValid = true
      · rw [if_pos hvalid, List.filter_cons_of_neg (by simpa using hvalid)]
      · have hsize : ∀ n, stat.freeableWords + BitVec.ofNat 16 ((fdsHeaderAt f pRec).size + n) =
            stat.freeableWords + (3 + (fdsHeaderAt f pRec).lengthWords) + BitVec.ofNat 16 n := by
          intro n
          unfold FdsHeader.size
          rw [BitVec.ofNat_add, BitVec.ofNat_add, BitVec.ofNat_toNat, BitVec.setWidth_eq,
            ← BitVec.add_assoc]
          rfl
        rw [if_neg hvalid, List.filter_cons_of_pos (by simpa using hvalid), List.length_cons,
          ← ofNat_add_one, List.map_cons, List.sum_cons, hsize]
    · rw [if_neg hmore, if_neg hmore]
      show stat = { stat with
        dirtyRecords := stat.dirtyRecords + 0#16, freeableWords := stat.freeableWords + 0#16 }
      rw [BitVec.add_zero, BitVec.add_zero]

/-- **One page.** -/
theorem fdsStatPage_eq (hi : i < cfg.maxPages) :
    fdsStatPage s stat i =
      { openRecords := stat.openRecords + (s.pages.get i).recordsOpen
        validRecords := stat.validRecords + BitVec.ofNat 16 (pageLive s i).length
        dirtyRecords := stat.dirtyRecords + BitVec.ofNat 16 (pageDirty s i).length
        wordsReserved := stat.wordsReserved + (s.pages.get i).wordsReserved
        wordsUsed := stat.wordsUsed + pageWordsUsed s i
        largestContig :=
          if stat.largestContig < pageContigWords s i then pageContigWords s i
          else stat.largestContig
        freeableWords := stat.freeableWords + BitVec.ofNat 16 (pageFreeable s i) } := by
  have htok := tokenOn_zero s hi
  have hfuel : (chainBehind s ⟨0, i⟩).length ≤ cfg.pageSize := by
    have hle : (chainBehind s ⟨0, i⟩).length ≤ (s.pages.get i).pAddr + cfg.pageSize -
        recordNext s.flash (s.pages.get i).pAddr 0 := length_headersOn_le
    have hstart := htok.le
    dsimp only at hstart
    exact hle.trans (by omega)
  have hchain : headersFrom s.flash ((s.pages.get i).pAddr + cfg.pageSize) cfg.pageSize
      ((s.pages.get i).pAddr + 2) = pageChain s i := headersFrom_fuel (by omega) le_rfl
  have hvalid : ∀ stat, validRecordsLoop cfg s.flash (s.pages.get i).pAddr cfg.pageSize 0 stat =
      { stat with validRecords := stat.validRecords + BitVec.ofNat 16 (pageLive s i).length } :=
    fun stat => validRecordsLoop_eq htok hfuel
  unfold fdsStatPage dirtyRecordsStat
  rw [dirtyRecordsLoop_eq, hchain, hvalid]
  rfl

end Page

/-! ## §4 All pages -/

section Pages

variable {s : Fds cfg} {i c : ℕ}

theorem foldl_fdsStatPage {field : FdsStat → BitVec 16} {g : ℕ → ℕ} {pages : List ℕ}
    (hpage : ∀ stat, ∀ i ∈ pages,
      field (fdsStatPage s stat i) = field stat + BitVec.ofNat 16 (g i)) (stat : FdsStat) :
    field (pages.foldl (fdsStatPage s) stat) =
      field stat + BitVec.ofNat 16 (pages.map g).sum := by
  induction pages generalizing stat with
  | nil => exact (BitVec.add_zero _).symm
  | cons i pages ih =>
    rw [List.foldl_cons, ih fun stat j hj => hpage stat j (List.mem_cons_of_mem _ hj),
      hpage stat i List.mem_cons_self, List.map_cons, List.sum_cons, BitVec.ofNat_add,
      BitVec.add_assoc]

/-- **A sum over the pages**: one lemma for the five of them. -/
theorem fdsStat_sum (field : FdsStat → BitVec 16) {g : ℕ → ℕ}
    (hzero : field ⟨0, 0, 0, 0, 0, 0, 0⟩ = 0)
    (hpage : ∀ stat, ∀ i < cfg.maxPages,
      field (fdsStatPage s stat i) = field stat + BitVec.ofNat 16 (g i)) :
    field (fdsStat s) = BitVec.ofNat 16 (pagesSum cfg g) := by
  unfold fdsStat pagesSum
  rw [foldl_fdsStatPage fun stat i hi => hpage stat i (List.mem_range.mp hi), hzero]
  exact BitVec.zero_add _

/-- **The largest one** of the pages. -/
theorem lt_largestContig {pages : List ℕ} (hpages : ∀ i ∈ pages, i < cfg.maxPages)
    (stat : FdsStat) :
    c < (pages.foldl (fdsStatPage s) stat).largestContig.toNat ↔
      c < stat.largestContig.toNat ∨ ∃ i ∈ pages, c < (pageContigWords s i).toNat := by
  induction pages generalizing stat with
  | nil => simp
  | cons i pages ih =>
    have hmax : c < (fdsStatPage s stat i).largestContig.toNat ↔
        c < stat.largestContig.toNat ∨ c < (pageContigWords s i).toNat := by
      rw [fdsStatPage_eq (hpages i List.mem_cons_self)]
      dsimp only
      split_ifs with hless
      · rw [BitVec.lt_def] at hless
        omega
      · rw [BitVec.lt_def] at hless
        omega
    rw [List.foldl_cons, ih (fun j hj => hpages j (List.mem_cons_of_mem _ hj)), hmax,
      List.exists_mem_cons_iff, or_assoc]

theorem length_standing (s : Fds cfg) :
    (standing s).length = pagesSum cfg fun i => (pageLive s i).length := by
  unfold standing pagesSum
  rw [List.length_flatMap]
  congr 1
  apply List.map_congr_left
  intro i _
  exact List.length_map _

/-- **The space on a page**, when the sum of `page_has_space` does not wrap. -/
theorem pageHasSpace_iff {lengthWords : BitVec 16} (hfits : SumFits s lengthWords.toNat i)
    (hbound : (s.pages.get i).writeOffset.toNat + (s.pages.get i).wordsReserved.toNat ≤
      cfg.pageSize) :
    pageHasSpace s i (lengthWords + 3) = true ↔
      lengthWords.toNat + 3 < (pageContigWords s i).toNat := by
  have hsmall := cfg.pageSize_lt
  unfold SumFits at hfits
  have hthree : (lengthWords + 3).toNat = lengthWords.toNat + 3 := by bv_omega
  have hsum : (lengthWords + 3 + (s.pages.get i).writeOffset +
      (s.pages.get i).wordsReserved).toNat = lengthWords.toNat + 3 +
        (s.pages.get i).writeOffset.toNat + (s.pages.get i).wordsReserved.toNat := by
    rw [BitVec.toNat_add, BitVec.toNat_add, hthree]
    omega
  have hcontig : (pageContigWords s i).toNat = cfg.pageSize -
      ((s.pages.get i).writeOffset.toNat + (s.pages.get i).wordsReserved.toNat) := by
    unfold pageContigWords pageWordsUsed
    rw [BitVec.toNat_sub, BitVec.toNat_add, BitVec.toNat_ofNat]
    omega
  unfold pageHasSpace
  rw [decide_eq_true_iff, hsum, hcontig]
  omega

/-- **When `fds_reserve` succeeds.** -/
theorem fdsReserve_success_iff (sys : FdsSystem cfg sz) (lengthWords : BitVec 16) :
    (fdsReserve lengthWords sys).1 = fdsSuccess ↔
      (lengthWords + 3).toNat < cfg.pageSize - 2 ∧
        ∃ i < cfg.maxPages, (sys.module.fds.pages.get i).pageType = .data ∧
          pageHasSpace sys.module.fds i (lengthWords + 3) = true := by
  unfold fdsReserve writeSpaceReserve
  dsimp only
  by_cases hlarge : cfg.pageSize - 2 ≤ (lengthWords + 3).toNat
  · have hne : fdsErrRecordTooLarge ≠ fdsSuccess := by decide
    rw [if_pos hlarge]
    dsimp only
    rw [if_neg hne]
    exact ⟨fun hret => absurd hret hne, fun hroom => absurd hroom.1 (Nat.not_lt.mpr hlarge)⟩
  · rw [if_neg hlarge]
    cases hspace : spacePage sys.module.fds (lengthWords + 3) with
    | none =>
      have hne : fdsErrNoSpaceInFlash ≠ fdsSuccess := by decide
      dsimp only
      rw [if_neg hne]
      refine ⟨fun hret => absurd hret hne, fun ⟨_, i, hi, htype, hroom⟩ => ?_⟩
      have hnone := List.find?_eq_none.mp hspace i (List.mem_range.mpr hi)
      exact absurd (decide_eq_true ⟨htype, hroom⟩) hnone
    | some page =>
      have hmem := List.mem_of_find?_eq_some hspace
      have hfound := List.find?_some hspace
      have hpage := of_decide_eq_true hfound
      exact ⟨fun _ => ⟨Nat.lt_of_not_le hlarge, page, List.mem_range.mp hmem, hpage⟩, fun _ => rfl⟩

end Pages

/-! ## §5 Runs -/

section Runs

variable {l : FdsLedger cfg sz} {i : ℕ}

/-- **Records are written behind the tag** of a page. -/
theorem StandInv.two_le_writeOffset (h : StandInv l) (hi : i < cfg.maxPages) :
    2 ≤ (l.sys.module.fds.pages.get i).writeOffset.toNat := by
  have hends : Ends l.sys.module.fds i (l.sys.module.fds.writeAddr i) →
      2 ≤ (l.sys.module.fds.pages.get i).writeOffset.toNat := by
    intro hends
    have hle := hends.le
    unfold Fds.writeAddr at hle
    omega
  by_cases hstage : l.sys.stage = .executing
  · -- the operation that is executed is a write
    obtain ⟨op, ops, hops⟩ : ∃ op ops, l.sys.ops = op :: ops := by
      apply List.exists_cons_of_ne_nil
      intro hnil
      rw [h.ledger.idle.mpr hnil] at hstage
      cases hstage
    obtain ⟨css, hall, -⟩ := h.ledger.accounts.chunks
    unfold FdsSystem.unfinished at hall
    rw [if_neg (by rw [hstage]; decide), hops] at hall
    obtain ⟨cs, css, ⟨w, rfl, -⟩, -, -⟩ := List.forall₂_cons_left_iff.mp hall
    obtain ⟨hway, -⟩ := h.runs w ops hstage hops
    by_cases hpage : i = w.page
    · have htag := hway.tag
      unfold Fds.writeAddr at htag
      subst hpage
      omega
    · exact hends (hway.others i hi hpage)
  · exact hends (h.ends hstage i hi)

/-- **The statistics are right** in every run that keeps the accounts. -/
theorem reports_of_reachable (h : (standingMachine cfg sz).ReachableUnder AccountKept l) :
    Reports l := by
  have hinv := standInv_of_reachable h
  have haccounts := hinv.ledger.accounts
  have hreserved : ∀ i < cfg.maxPages, (l.sys.module.fds.pages.get i).wordsReserved =
      BitVec.ofNat 16 (owed l.tokens l.sys.unfinished i) := by
    intro i hi
    rw [← haccounts.reserved i hi, BitVec.ofNat_toNat, BitVec.setWidth_eq]
  refine ⟨?_, ?_, ?_, ?_, ?_, fun lengthWords hfits => ?_⟩
  · rw [length_standing]
    exact fdsStat_sum FdsStat.validRecords rfl fun stat i hi => by rw [fdsStatPage_eq hi]
  · exact fdsStat_sum FdsStat.dirtyRecords rfl fun stat i hi => by rw [fdsStatPage_eq hi]
  · exact fdsStat_sum FdsStat.freeableWords rfl fun stat i hi => by rw [fdsStatPage_eq hi]
  · exact fdsStat_sum FdsStat.wordsReserved rfl fun stat i hi => by
      rw [fdsStatPage_eq hi, hreserved i hi]
  · refine fdsStat_sum FdsStat.wordsUsed rfl fun stat i hi => ?_
    rw [fdsStatPage_eq hi, BitVec.ofNat_add, ← hreserved i hi, BitVec.ofNat_toNat,
      BitVec.setWidth_eq]
    rfl
  · rw [fdsReserve_success_iff]
    unfold fdsStat
    rw [lt_largestContig fun i hi => List.mem_range.mp hi]
    constructor
    · rintro ⟨-, i, hi, -, hspace⟩
      exact .inr ⟨i, List.mem_range.mpr hi,
        (pageHasSpace_iff (hfits i hi) (haccounts.bound i hi)).mp hspace⟩
    · rintro (hzero | ⟨i, hi, hless⟩)
      · exact absurd hzero (Nat.not_lt_zero _)
      · have hi := List.mem_range.mp hi
        have hbound := haccounts.bound i hi
        have hspace := (pageHasSpace_iff (hfits i hi) hbound).mpr hless
        -- the tag of the page is in use, so the record is not too large either
        have htwo := hinv.two_le_writeOffset hi
        refine ⟨?_, i, hi, haccounts.table.data i hi, hspace⟩
        have hsum := hfits i hi
        unfold SumFits at hsum
        unfold pageHasSpace at hspace
        rw [decide_eq_true_iff] at hspace
        bv_omega

end Runs

/-! ## §6 Two records and a reservation -/

/-- A reservation, a write that is complete, and an update of the first record that times out. -/
theorem reports_twoFiles :
    Reports ((standingMachine threePages smallQueues).run twoFilesLedger
      [.reserve 2, .write oneChunk, .flashDone, .flashDone, .flashDone, .flashDone, .advance,
        .update 1 oneChunk, .flashDone, .flashDone, .flashTimeout 0, .advance]) :=
  reports_of_reachable
    (.of_follows (.start ⟨twoFilesLedger_ready, by decide +kernel⟩) (by decide +kernel))

end NordicEsb
