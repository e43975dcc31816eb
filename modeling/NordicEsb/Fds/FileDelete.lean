import NordicEsb.Fds.Frame

/-!
# Deleting a File

A file deletion searches a record of the file, flags it dirty, waits for fstorage and goes on
behind it. The token that says how far it is is a static variable: it is zeroed when nothing is
found any more, but not when the operation fails.

- `restFrom` are the valid headers behind a token; what is before it has been dealt with
- `FileDeleting` is the invariant while fstorage executes a flag of a file deletion
- nothing is assumed of the flash but that the pages do not overlap, so a search is compared by
  headers and addresses

**Main result** (`fileDeleted_of_reachable`): in every run in which each file deletion begins with
a zero token, a file deletion that succeeds has flagged the valid records of its file, and no
other.
-/

namespace NordicEsb

variable {cfg : FdsConfig} {sz : FdsQueueSizes} {s s' : Fds cfg} {tok tok' : FdsFindToken}
  {fileId : BitVec 16}

/-! ## §1 What a token leaves -/

/-- The chain of headers behind the token on its page. -/
def chainBehind (s : Fds cfg) (tok : FdsFindToken) : List (ℕ × FdsHeader) :=
  headersOn s.flash ((s.pages.get tok.page).pAddr + cfg.pageSize)
    (recordNext s.flash (s.pages.get tok.page).pAddr tok.pAddr)

/-- **The valid headers behind the token**, on its page and the `n` pages behind it. -/
def restFrom (s : Fds cfg) (n : ℕ) (tok : FdsFindToken) : List (ℕ × FdsHeader) :=
  (chainBehind s tok).filter (fun h => h.2.isValid) ++ pagesFrom s n (tok.page + 1)

/-- The token is at the begin of a page or at a header of its chain. -/
structure TokenOn (s : Fds cfg) (tok : FdsFindToken) : Prop where
  page : tok.page < cfg.maxPages
  le : (s.pages.get tok.page).pAddr + 2 ≤
    recordNext s.flash (s.pages.get tok.page).pAddr tok.pAddr
  chain : ∃ pre, headersOn s.flash ((s.pages.get tok.page).pAddr + cfg.pageSize)
    ((s.pages.get tok.page).pAddr + 2) = pre ++ chainBehind s tok

/-- The token is at this valid header. -/
structure TokenAt (s : Fds cfg) (tok : FdsFindToken) (h : FdsHeader) : Prop where
  page : tok.page < cfg.maxPages
  valid : h.isValid = true
  chain : ∃ pre, headersOn s.flash ((s.pages.get tok.page).pAddr + cfg.pageSize)
    ((s.pages.get tok.page).pAddr + 2) = pre ++ (tok.pAddr, h) :: chainBehind s tok

theorem tokenOn_zero (s : Fds cfg) {i : ℕ} (hi : i < cfg.maxPages) : TokenOn s ⟨0, i⟩ :=
  ⟨hi, le_rfl, [], rfl⟩

theorem restFrom_zero (s : Fds cfg) (n i : ℕ) : restFrom s n ⟨0, i⟩ = pagesFrom s (n + 1) i := rfl

/-- Behind a header of a page the chain goes on. -/
theorem chainBehind_of_split {i : ℕ} {pre post : List (ℕ × FdsHeader)} {x : ℕ × FdsHeader}
    (h : headersOn s.flash ((s.pages.get i).pAddr + cfg.pageSize) ((s.pages.get i).pAddr + 2) =
      pre ++ x :: post) :
    recordNext s.flash (s.pages.get i).pAddr x.1 = x.1 + x.2.size ∧
      post = chainBehind s ⟨x.1, i⟩ := by
  obtain ⟨hle, hlt, hheader⟩ := mem_headersOn (h ▸ List.mem_append_right pre List.mem_cons_self)
  have hnext : recordNext s.flash (s.pages.get i).pAddr x.1 = x.1 + x.2.size := by
    unfold recordNext
    rw [if_pos (by omega), ← hheader]
  refine ⟨hnext, ?_⟩
  show post = headersOn s.flash _ (recordNext s.flash (s.pages.get i).pAddr x.1)
  rw [hnext]
  exact (headersOn_split h).1

/-- A token at a header of a chain. -/
theorem tokenOn_of_split {pre post : List (ℕ × FdsHeader)} {h : FdsHeader}
    (hpage : tok.page < cfg.maxPages)
    (hchain : headersOn s.flash ((s.pages.get tok.page).pAddr + cfg.pageSize)
      ((s.pages.get tok.page).pAddr + 2) = pre ++ (tok.pAddr, h) :: post) :
    TokenOn s tok := by
  obtain ⟨hnext, hpost⟩ := chainBehind_of_split hchain
  have hmem := mem_headersOn (hchain ▸ List.mem_append_right pre List.mem_cons_self)
  refine ⟨hpage, ?_, pre ++ [(tok.pAddr, h)], ?_⟩
  · rw [hnext]
    dsimp only at hmem ⊢
    omega
  · rw [hchain, hpost, List.append_assoc]
    rfl

theorem TokenAt.on {h : FdsHeader} (hat : TokenAt s tok h) : TokenOn s tok := by
  obtain ⟨pre, hchain⟩ := hat.chain
  exact tokenOn_of_split hat.page hchain

/-! ## §2 Searching a file -/

/-- The loop over the records of a page. -/
theorem recordFileLoop_eq {fuel : ℕ} (htok : TokenOn s tok)
    (hfuel : (chainBehind s tok).length ≤ fuel) :
    recordFileLoop cfg s.flash (s.pages.get tok.page).pAddr fileId fuel tok.pAddr =
      (((chainBehind s tok).filter fun h => h.2.isValid).find? fun h =>
        h.2.fileId = fileId).map Prod.fst := by
  induction fuel generalizing tok with
  | zero =>
    rw [List.length_eq_zero_iff.mp (Nat.le_zero.mp hfuel)]
    rfl
  | succ fuel ih =>
    unfold recordFileLoop
    rw [recordFindNext_eq htok.le]
    cases hfind : (chainBehind s tok).find? fun h => h.2.isValid with
    | none =>
      have hnone : (chainBehind s tok).filter (fun h => h.2.isValid) = [] :=
        List.filter_eq_nil_iff.mpr (List.find?_eq_none.mp hfind)
      rw [hnone]
      unfold chainBehind at hfind
      rw [hfind]
      rfl
    -- the next valid record: it is of the file, or the loop goes on behind it
    | some x =>
      obtain ⟨hvalid, pre, post, heq, -⟩ := List.find?_eq_some_iff_append.mp hfind
      obtain ⟨pre₀, hchain⟩ := htok.chain
      rw [heq, ← List.append_assoc] at hchain
      obtain ⟨-, hpost⟩ := chainBehind_of_split hchain
      have hat : TokenAt s ⟨x.1, tok.page⟩ x.2 :=
        ⟨htok.page, hvalid, pre₀ ++ pre, hpost ▸ hchain⟩
      have hfilter := headersOn_filter_find hfind
      have hrest : chainBehind s ⟨x.1, tok.page⟩ =
          headersOn s.flash ((s.pages.get tok.page).pAddr + cfg.pageSize) (x.1 + x.2.size) :=
        congrArg _ (chainBehind_of_split hchain).1
      have hlen : (chainBehind s ⟨x.1, tok.page⟩).length ≤ fuel := by
        rw [← hpost]
        have hlen := congrArg List.length heq
        rw [List.length_append, List.length_cons] at hlen
        omega
      have hheader : x.2 = fdsHeaderAt s.flash x.1 :=
        (mem_headersOn (hchain ▸ List.mem_append_right _ List.mem_cons_self)).2.2
      have hsome : (headersOn s.flash ((s.pages.get tok.page).pAddr + cfg.pageSize)
          (recordNext s.flash (s.pages.get tok.page).pAddr tok.pAddr)).find?
          (fun h => h.2.isValid) = some x := hfind
      have htail : (chainBehind s tok).filter (fun h => h.2.isValid) =
          x :: (chainBehind s ⟨x.1, tok.page⟩).filter fun h => h.2.isValid := by
        rw [hrest]
        exact hfilter
      rw [hsome, htail]
      dsimp only [Option.map_some]
      rw [← hheader]
      by_cases hfile : x.2.fileId = fileId
      · rw [if_neg (not_not_intro hfile), List.find?_cons_of_pos (by simpa using hfile)]
        rfl
      · rw [if_pos hfile, List.find?_cons_of_neg (by simpa using hfile)]
        exact ih hat.on hlen

/-- A chain is not longer than its page. -/
theorem length_headersOn_le {f : Flash 32} {pEnd b : ℕ} : (headersOn f pEnd b).length ≤ pEnd - b := by
  induction b using headersOn_induction f pEnd with
  | hnil b h =>
    rw [headersOn_nil h]
    exact Nat.zero_le _
  | hcons b hlt hne ih =>
    have hsize := (fdsHeaderAt f b).three_le_size
    rw [headersOn_cons hlt hne, List.length_cons]
    omega

theorem TokenOn.length_le (h : TokenOn s tok) : (chainBehind s tok).length ≤ cfg.pageSize := by
  have hle := h.le
  have hlen : (chainBehind s tok).length ≤ _ := length_headersOn_le
  omega

/-- **What a search of a file finds** behind the token. -/
inductive FileFound (s : Fds cfg) (fileId : BitVec 16) (n : ℕ) (tok : FdsFindToken) :
    Option FdsFindToken → Prop
  | nothing (hnone : ∀ h ∈ restFrom s n tok, h.2.fileId ≠ fileId) : FileFound s fileId n tok none
  | found (tok' : FdsFindToken) (n' : ℕ) (h : FdsHeader) (skip : List (ℕ × FdsHeader))
      (hpages : tok'.page + n' = tok.page + n) (hat : TokenAt s tok' h)
      (hfile : h.fileId = fileId) (hskip : ∀ h ∈ skip, h.2.fileId ≠ fileId)
      (hrest : restFrom s n tok = skip ++ (tok'.pAddr, h) :: restFrom s n' tok') :
      FileFound s fileId n tok (some tok')

/-- The search goes on with the next page. -/
theorem FileFound.next {n : ℕ} {out : Option FdsFindToken}
    (h : FileFound s fileId n ⟨0, tok.page + 1⟩ out)
    (hnone : ∀ h ∈ (chainBehind s tok).filter (fun h => h.2.isValid), h.2.fileId ≠ fileId) :
    FileFound s fileId (n + 1) tok out := by
  have hrest : restFrom s (n + 1) tok =
      (chainBehind s tok).filter (fun h => h.2.isValid) ++ restFrom s n ⟨0, tok.page + 1⟩ := rfl
  cases h with
  | nothing hlater =>
    refine .nothing fun h hh => ?_
    rw [hrest] at hh
    rcases List.mem_append.mp hh with hh | hh
    · exact hnone h hh
    · exact hlater h hh
  | found tok' n' h skip hpages hat hfile hskip hlater =>
    refine .found tok' n' h
      ((chainBehind s tok).filter (fun h => h.2.isValid) ++ skip) ?_ hat hfile ?_ ?_
    · dsimp only at hpages
      omega
    · intro h hh
      rcases List.mem_append.mp hh with hh | hh
      · exact hnone h hh
      · exact hskip h hh
    · rw [hrest, hlater, List.append_assoc]

/-- A search on the page of the token. -/
theorem FileFound.page {n : ℕ} {x : ℕ × FdsHeader} (htok : TokenOn s tok)
    (hfind : ((chainBehind s tok).filter fun h => h.2.isValid).find?
      (fun h => h.2.fileId = fileId) = some x) :
    FileFound s fileId n tok (some { tok with pAddr := x.1 }) := by
  rw [List.find?_filter] at hfind
  obtain ⟨hx, pre, post, heq, hpre⟩ := List.find?_eq_some_iff_append.mp hfind
  have hx : x.2.isValid = true ∧ x.2.fileId = fileId := by simpa using hx
  obtain ⟨pre₀, hchain⟩ := htok.chain
  rw [heq, ← List.append_assoc] at hchain
  obtain ⟨-, hpost⟩ := chainBehind_of_split hchain
  refine .found ⟨x.1, tok.page⟩ n x.2 (pre.filter fun h => h.2.isValid) rfl
    ⟨htok.page, hx.1, pre₀ ++ pre, hpost ▸ hchain⟩ hx.2 (fun h hh => ?_) ?_
  · obtain ⟨hmem, hvalid⟩ := List.mem_filter.mp hh
    have hnot := hpre h hmem
    rw [hvalid] at hnot
    simpa using hnot
  · have hcons : (x :: post).filter (fun h => h.2.isValid) =
        x :: post.filter fun h => h.2.isValid := List.filter_cons_of_pos hx.1
    unfold restFrom
    rw [heq, List.filter_append, hcons, ← hpost, List.append_assoc]
    rfl

/-- The loop over the pages. -/
theorem recordFindPages_found (htable : Table s) {n : ℕ} (htok : TokenOn s tok)
    (hn : tok.page + n + 1 = cfg.maxPages) :
    FileFound s fileId n tok (recordFindPages s fileId (n + 1) tok) := by
  induction n generalizing tok with
  | zero =>
    unfold recordFindPages
    rw [if_neg (not_not_intro (htable.data _ htok.page)), recordFileLoop_eq htok htok.length_le]
    cases hfind : ((chainBehind s tok).filter fun h => h.2.isValid).find?
        (fun h => h.2.fileId = fileId) with
    | none =>
      refine .nothing fun h hh => ?_
      have hmem : h ∈ (chainBehind s tok).filter fun h => h.2.isValid := by
        simpa [restFrom, pagesFrom] using hh
      simpa using List.find?_eq_none.mp hfind h hmem
    | some x => exact .page htok hfind
  | succ n ih =>
    unfold recordFindPages
    rw [if_neg (not_not_intro (htable.data _ htok.page)), recordFileLoop_eq htok htok.length_le]
    cases hfind : ((chainBehind s tok).filter fun h => h.2.isValid).find?
        (fun h => h.2.fileId = fileId) with
    | none =>
      refine FileFound.next (ih (tokenOn_zero s (by omega)) (by dsimp only; omega)) fun h hh => ?_
      simpa using List.find?_eq_none.mp hfind h hh
    | some x => exact .page htok hfind

theorem recordFind_found (fileId : BitVec 16) (htable : Table s) {n : ℕ} (htok : TokenOn s tok)
    (hn : tok.page + n + 1 = cfg.maxPages) :
    FileFound s fileId n tok (recordFind s fileId tok) := by
  have hfuel : cfg.maxPages - tok.page = n + 1 := by omega
  unfold recordFind
  rw [hfuel]
  exact recordFindPages_found htable htok hn

/-! ## §3 Flagging the record of a token -/

/-- The flash with the record of the token flagged dirty. -/
structure Flagged (s s' : Fds cfg) (tok : FdsFindToken) : Prop where
  flash : s'.flash = s.flash.store tok.pAddr [fdsTlDirty]
  pages : s'.pages = s.pages

/-- Pages without the record. -/
theorem Flagged.pagesFrom_eq (hflag : Flagged s s' tok) (htable : Table s) {h : FdsHeader}
    (hat : TokenAt s tok h) {n i : ℕ} (hbound : i + n ≤ cfg.maxPages)
    (hother : i + n ≤ tok.page ∨ tok.page < i) : pagesFrom s' n i = pagesFrom s n i := by
  obtain ⟨pre, hchain⟩ := hat.chain
  obtain ⟨hle, hlt, -⟩ := mem_headersOn (hchain ▸ List.mem_append_right pre List.mem_cons_self)
  have hcovers := htable.covers
  rw [NordicEsb.pagesFrom_eq, NordicEsb.pagesFrom_eq, List.flatMap_def, List.flatMap_def]
  congr 1
  refine List.map_congr_left fun j hj => ?_
  obtain ⟨hj₁, hj₂⟩ := List.mem_range'_1.mp hj
  rw [hflag.flash, hflag.pages]
  exact pageHeaders_flag_ne (hcovers.slot_mem hat.page) (hcovers.slot_mem (by omega))
    (hcovers.slot_ne_slot hat.page (by omega) (by omega)) hle hlt

/-- **The flagged record disappears**, and no other; what is behind the token stays. -/
theorem Flagged.liveHeaders (hflag : Flagged s s' tok) (htable : Table s) (htable' : Table s')
    {h : FdsHeader} (hat : TokenAt s tok h) {n : ℕ} (hn : tok.page + n + 1 = cfg.maxPages) :
    TokenOn s' tok ∧ restFrom s' n tok = restFrom s n tok ∧
      ∃ before, NordicEsb.liveHeaders s = before ++ (tok.pAddr, h) :: restFrom s n tok ∧
        NordicEsb.liveHeaders s' = before ++ restFrom s n tok := by
  obtain ⟨pre, hchain⟩ := hat.chain
  have hchain' := headersOn_flag hchain
  rw [← hflag.flash, ← hflag.pages] at hchain'
  obtain ⟨-, hbehind⟩ := chainBehind_of_split hchain'
  have hleft := hflag.pagesFrom_eq htable hat (n := tok.page) (i := 0) (by omega) (.inl (by omega))
  have hright := hflag.pagesFrom_eq htable hat (n := n) (i := tok.page + 1) (by omega)
    (.inr (by omega))
  have hpages : cfg.maxPages = tok.page + (n + 1) := by omega
  have hbehind : chainBehind s tok = chainBehind s' tok := hbehind
  have hrest : restFrom s' n tok = restFrom s n tok := by
    unfold restFrom
    rw [hright, hbehind]
  refine ⟨tokenOn_of_split hat.page hchain', hrest,
    pagesFrom s tok.page 0 ++ pre.filter (fun h => h.2.isValid), ?_, ?_⟩
  · have hcons : ((tok.pAddr, h) :: chainBehind s tok).filter (fun h => h.2.isValid) =
        (tok.pAddr, h) :: (chainBehind s tok).filter fun h => h.2.isValid :=
      List.filter_cons_of_pos hat.valid
    rw [htable.liveHeaders_eq, hpages, pagesFrom_add, pagesFrom, Nat.zero_add, pageHeaders, hchain,
      List.filter_append, hcons]
    unfold restFrom
    simp only [List.append_assoc, List.cons_append]
  · have hcons : ((tok.pAddr, h.flagged) :: chainBehind s tok).filter (fun h => h.2.isValid) =
        (chainBehind s tok).filter fun h => h.2.isValid :=
      List.filter_cons_of_neg (by simp [h.flagged_isValid])
    rw [htable'.liveHeaders_eq, hpages, pagesFrom_add, pagesFrom, Nat.zero_add, pageHeaders,
      hchain', List.filter_append, hcons, hleft, hright]
    unfold restFrom
    simp only [List.append_assoc]

/-! ## §4 A file deletion -/

/-- The valid headers of the other files. -/
def withoutFile (fileId : BitVec 16) (l : List (ℕ × FdsHeader)) : List (ℕ × FdsHeader) :=
  l.filter fun h => h.2.fileId ≠ fileId

theorem withoutFile_eq_self {l : List (ℕ × FdsHeader)} (h : ∀ x ∈ l, x.2.fileId ≠ fileId) :
    withoutFile fileId l = l :=
  List.filter_eq_self.mpr fun x hx => by simpa using h x hx

/-- A file deletion that goes on with the records behind the token. -/
structure DeletedTo (s : Fds cfg) (tok : FdsFindToken) (began : List (ℕ × FdsHeader))
    (fileId : BitVec 16) (n : ℕ) : Prop where
  pages : tok.page + n + 1 = cfg.maxPages
  on : TokenOn s tok
  headers : ∃ done, began = done ++ restFrom s n tok ∧
    liveHeaders s = withoutFile fileId done ++ restFrom s n tok

/-- **A file deletion whose flag fstorage executes.** -/
structure FileDeleting (s : Fds cfg) (tok : FdsFindToken) (began : List (ℕ × FdsHeader))
    (fileId : BitVec 16) : Prop where
  pending : s.pending = some (.store tok.pAddr [fdsTlDirty])
  headers : ∃ n h done, tok.page + n + 1 = cfg.maxPages ∧ TokenAt s tok h ∧ h.fileId = fileId ∧
    began = done ++ (tok.pAddr, h) :: restFrom s n tok ∧
    liveHeaders s = withoutFile fileId done ++ (tok.pAddr, h) :: restFrom s n tok

theorem DeletedTo.zero (htable : Table s) :
    DeletedTo s ⟨0, 0⟩ (liveHeaders s) fileId (cfg.maxPages - 1) := by
  have hpos := cfg.maxPages_pos
  have hall : restFrom s (cfg.maxPages - 1) ⟨0, 0⟩ = liveHeaders s := by
    rw [restFrom_zero, htable.liveHeaders_eq]
    congr 1
    omega
  refine ⟨by dsimp only; omega, tokenOn_zero s hpos, [], ?_, ?_⟩
  · rw [hall]
    rfl
  · rw [hall]
    rfl

/-- The flag is written. -/
theorem FileDeleting.done {began : List (ℕ × FdsHeader)} (h : FileDeleting s tok began fileId)
    (htable : Table s) : ∃ n, DeletedTo (flashDone s) tok began fileId n := by
  obtain ⟨n, header, done, hn, hat, hfile, hbegan, hnow⟩ := h.headers
  have hdone : flashDone s =
      { s with flash := s.flash.store tok.pAddr [fdsTlDirty], pending := none } := by
    unfold flashDone
    rw [h.pending]
    rfl
  have hflag : Flagged s (flashDone s) tok := by
    rw [hdone]
    exact ⟨rfl, rfl⟩
  have htable' : Table (flashDone s) := by
    rw [hdone]
    exact ⟨htable.data, htable.covers⟩
  obtain ⟨hon, hrest, before, hbefore, hafter⟩ := hflag.liveHeaders htable htable' hat hn
  refine ⟨n, hn, hon, done ++ [(tok.pAddr, header)], ?_, ?_⟩
  · rw [hrest, hbegan, List.append_assoc]
    rfl
  · have hsame : before = withoutFile fileId done :=
      List.append_cancel_right (hbefore.symm.trans hnow)
    have hdropped : withoutFile fileId (done ++ [(tok.pAddr, header)]) =
        withoutFile fileId done := by
      unfold withoutFile
      rw [List.filter_append, List.filter_cons_of_neg (by simp [hfile]), List.filter_nil,
        List.append_nil]
    rw [hafter, hrest, hsame, hdropped]

theorem Framed.chainBehind_eq (h : Framed s s') : chainBehind s' tok = chainBehind s tok := by
  unfold chainBehind
  rw [h.flash, h.pAddr]

theorem Framed.restFrom_eq (h : Framed s s') {n : ℕ} : restFrom s' n tok = restFrom s n tok := by
  unfold restFrom
  rw [h.chainBehind_eq, pagesFrom_eq, pagesFrom_eq, h.flash]
  congr 2
  funext j
  rw [h.pAddr]

theorem Framed.tokenAt (h : Framed s s') {header : FdsHeader} (hat : TokenAt s tok header) :
    TokenAt s' tok header := by
  refine ⟨hat.page, hat.valid, ?_⟩
  rw [h.chainBehind_eq, h.flash, h.pAddr]
  exact hat.chain

/-- A deletion waits for its flag, whatever is called meanwhile. -/
theorem FileDeleting.framed {began : List (ℕ × FdsHeader)} (h : FileDeleting s tok began fileId)
    (hframe : Framed s s') (hpending : s'.pending = s.pending) :
    FileDeleting s' tok began fileId := by
  obtain ⟨n, header, done, hn, hat, hfile, hbegan, hnow⟩ := h.headers
  refine ⟨hpending.trans h.pending, n, header, done, hn, hframe.tokenAt hat, hfile, ?_, ?_⟩
  · rw [hframe.restFrom_eq]
    exact hbegan
  · rw [hframe.restFrom_eq, hframe.liveHeaders_eq]
    exact hnow

/-- **One step of a file deletion**: it is complete, or it flags the next record of the file. -/
theorem fileFindAndDelete_outcome {m : FdsModule cfg sz} {op : FdsDeleteOp} {n : ℕ}
    {began : List (ℕ × FdsHeader)} (htable : Table m.fds)
    (h : DeletedTo m.fds m.tok began op.fileId n) :
    ((fileFindAndDelete m op).1 = fdsErrNotFound ∧
      liveHeaders (fileFindAndDelete m op).2.fds = withoutFile op.fileId began) ∨
    ((fileFindAndDelete m op).1 = fdsOpExecuting ∧
      FileDeleting (fileFindAndDelete m op).2.fds (fileFindAndDelete m op).2.tok began op.fileId) ∨
    (fileFindAndDelete m op).1 = fdsErrBusy := by
  obtain ⟨done, hbegan, hnow⟩ := h.headers
  have hfound := recordFind_found op.fileId htable h.on h.pages
  unfold fileFindAndDelete
  cases hfind : recordFind m.fds op.fileId m.tok with
  | none =>
    rw [hfind] at hfound
    cases hfound with
    | nothing hnone =>
      refine .inl ⟨rfl, ?_⟩
      have hrest := withoutFile_eq_self hnone
      rw [hbegan, hnow]
      unfold withoutFile at hrest ⊢
      rw [List.filter_append, hrest]
  | some tok' =>
    rw [hfind] at hfound
    cases hfound with
    | found _ n' header skip hpages hat hfile hskip hrest =>
      refine .inr ?_
      unfold recordHeaderFlagDirty FdsModule.store
      rcases fsStore_cases m.fds tok'.pAddr [fdsTlDirty] with hstore | ⟨ret, hret, hstore⟩
      · left
        dsimp only
        rw [hstore]
        have hframe : Framed m.fds (Fds.setCanGc
            { m.fds with pending := some (.store tok'.pAddr [fdsTlDirty]) } tok'.page) := by
          refine Framed.trans ?_ (setCanGc_framed _ _)
          exact .of_eq rfl rfl rfl rfl
        have hskipped := withoutFile_eq_self hskip
        refine ⟨rfl, rfl, n', header, done ++ skip, ?_, hframe.tokenAt hat, hfile, ?_, ?_⟩
        · exact hpages ▸ h.pages
        · rw [hframe.restFrom_eq, hbegan, hrest, List.append_assoc]
        · unfold withoutFile at hskipped ⊢
          rw [hframe.restFrom_eq, hframe.liveHeaders_eq, hnow, hrest, List.filter_append, hskipped,
            List.append_assoc]
          rfl
      · right
        dsimp only
        rw [hstore]
        exact if_neg hret

/-! ## §5 Runs -/

/-- The step begins to execute a file deletion. -/
def FdsSystem.beginsFileDelete (s : FdsSystem cfg sz) : FdsLabel → Bool
  | .fileDelete fileId => fileId ≠ 0xFFFF ∧ s.stage = .idle
  | .advance =>
    match s.ops.tail with
    | .delete op :: _ => op.file
    | _ => false
  | _ => false

/-- A file deletion that begins finds the token zeroed. -/
def ZeroToken (s : FdsSystem cfg sz) (l : FdsLabel) : Prop :=
  s.beginsFileDelete l = true → s.module.tok = ⟨0, 0⟩

/-- A deletion of this file. -/
def FdsOp.DeletesFile (fileId : BitVec 16) : FdsOp → Prop
  | .delete op => op.file = true ∧ op.fileId = fileId
  | _ => False

/-- A deletion that has succeeded has flagged the records of its file, and no other. -/
def FdsEvt.FileDeleted (e : FdsEvt) : Prop :=
  ∀ fileId, e.op.DeletesFile fileId → e.result = fdsSuccess → e.after = withoutFile fileId e.before

/-- A file deletion has one step only. -/
def FdsOp.OneStep : FdsOp → Prop
  | .delete op => op.file = true → op.step = .fileFlagDirty
  | _ => True

/-- What holds between operations. -/
structure Settled (s : FdsSystem cfg sz) : Prop where
  placed : Placed s.module.fds
  ops : ∀ op ∈ s.ops, op.OneStep
  events : ∀ e ∈ s.events, e.FileDeleted

/-- **The invariant of a run.** -/
structure FileInv (s : FdsSystem cfg sz) : Prop where
  settled : Settled s
  idle : s.stage = .idle ↔ s.ops = []
  deleting : s.stage = .executing → ∀ op ops fileId, s.ops = op :: ops → op.DeletesFile fileId →
    FileDeleting s.module.fds s.module.tok s.began fileId

/-- What an operation that deletes no file keeps. -/
theorem executeOp_placed (op : FdsOp) {m : FdsModule cfg sz} (prevRet : FdsRet)
    (h : Placed m.fds) : Placed (executeOp prevRet op m).2.2.fds := by
  cases op with
  | write op => exact h.framed (writeExecute_framed op m prevRet).fds
  | gc => exact gcExecute_placed h prevRet
  | delete op =>
    show Placed (deleteExecute m prevRet op).2.2.fds
    unfold deleteExecute
    split
    · exact h
    · cases op.step with
      | recordFlagDirty => exact h.framed (recordFindAndDelete_framed m op).fds
      | fileFlagDirty => exact h.framed (fileFindAndDelete_framed m op)
      | done => exact h

/-- An operation that deletes a file is as before, and no other becomes one. -/
theorem deleteExecute_op {op : FdsDeleteOp} {m : FdsModule cfg sz} (prevRet : FdsRet)
    (h : op.file = true → op.step = .fileFlagDirty) :
    (deleteExecute m prevRet op).2.1.file = op.file ∧
      (op.file = true → (deleteExecute m prevRet op).2.1 = op) := by
  unfold deleteExecute
  split
  · exact ⟨rfl, fun _ => rfl⟩
  · cases hstep : op.step with
    | recordFlagDirty =>
      refine ⟨?_, fun hfile => ?_⟩
      · unfold recordFindAndDelete
        cases recordFindByDesc m.fds ⟨op.recordToDelete, 0, 0, false⟩ <;> rfl
      · rw [h hfile] at hstep
        cases hstep
    | fileFlagDirty => exact ⟨rfl, fun _ => rfl⟩
    | done => exact ⟨rfl, fun _ => rfl⟩

/-- **What a file deletion returns.** -/
theorem deleteExecute_file {op : FdsDeleteOp} {m : FdsModule cfg sz} {prevRet : FdsRet}
    {began : List (ℕ × FdsHeader)} (hstep : op.step = .fileFlagDirty) (htable : Table m.fds)
    (h : prevRet ≠ fsSuccess ∨ ∃ n, DeletedTo m.fds m.tok began op.fileId n) :
    ((deleteExecute m prevRet op).1 = fdsOpCompleted →
      liveHeaders (deleteExecute m prevRet op).2.2.fds = withoutFile op.fileId began) ∧
    ((deleteExecute m prevRet op).1 = fdsOpExecuting →
      FileDeleting (deleteExecute m prevRet op).2.2.fds (deleteExecute m prevRet op).2.2.tok began
        op.fileId) := by
  unfold deleteExecute
  split_ifs with hret
  · -- The flag has timed out.
    exact ⟨fun h => (by cases h), fun h => (by cases h)⟩
  · obtain ⟨n, hn⟩ := h.resolve_left hret
    rw [hstep]
    dsimp only
    rcases fileFindAndDelete_outcome htable hn with ⟨hnone, hlive⟩ | ⟨hflag, hdeleting⟩ | hbusy
    · rw [if_pos hnone]
      exact ⟨fun _ => hlive, fun h => (by cases h)⟩
    · rw [hflag]
      exact ⟨fun h => (by cases h), fun _ => hdeleting⟩
    · rw [hbusy]
      exact ⟨fun h => (by cases h), fun h => (by cases h)⟩

theorem executeOp_delete (prevRet : FdsRet) (op : FdsDeleteOp) (m : FdsModule cfg sz) :
    executeOp prevRet (.delete op) m = ((deleteExecute m prevRet op).1,
      .delete (deleteExecute m prevRet op).2.1, (deleteExecute m prevRet op).2.2) := rfl

theorem executeOp_oneStep {op : FdsOp} {m : FdsModule cfg sz} (prevRet : FdsRet)
    (h : op.OneStep) : (executeOp prevRet op m).2.1.OneStep := by
  cases op with
  | write op => trivial
  | gc => trivial
  | delete op =>
    obtain ⟨hsame, heq⟩ := deleteExecute_op (m := m) prevRet h
    rw [executeOp_delete]
    intro hfile
    rw [heq (hsame ▸ hfile)]
    exact h (hsame ▸ hfile)

/-- What an operation returns if it deletes a file. -/
theorem executeOp_file {op : FdsOp} {m : FdsModule cfg sz} {prevRet : FdsRet} (fileId : BitVec 16)
    {began : List (ℕ × FdsHeader)} (h : op.OneStep) (htable : Table m.fds)
    (hdeleted : op.DeletesFile fileId → prevRet ≠ fsSuccess ∨
      ∃ n, DeletedTo m.fds m.tok began fileId n)
    (hop : (executeOp prevRet op m).2.1.DeletesFile fileId) :
    ((executeOp prevRet op m).1 = fdsOpCompleted →
      liveHeaders (executeOp prevRet op m).2.2.fds = withoutFile fileId began) ∧
    ((executeOp prevRet op m).1 = fdsOpExecuting →
      FileDeleting (executeOp prevRet op m).2.2.fds (executeOp prevRet op m).2.2.tok began
        fileId) := by
  cases op with
  | write op => exact absurd hop id
  | gc => exact absurd hop id
  | delete op =>
    obtain ⟨hsame, heq⟩ := deleteExecute_op (m := m) prevRet h
    rw [executeOp_delete] at hop ⊢
    have hfile : op.file = true := hsame ▸ hop.1
    have hid : op.fileId = fileId := heq hfile ▸ hop.2
    subst hid
    exact deleteExecute_file (h hfile) htable (hdeleted ⟨hfile, rfl⟩)

section Queue

variable {s t : FdsSystem cfg sz}

/-- **A step of the operation at the head of the queue.** -/
theorem queueProcess_fileInv {result : FdsRet} {op : FdsOp} {ops : List FdsOp} (h : Settled s)
    (hops : s.ops = op :: ops)
    (hdeleted : ∀ fileId, op.DeletesFile fileId → result ≠ fsSuccess ∨
      ∃ n, DeletedTo s.module.fds s.module.tok s.began fileId n) :
    FileInv (queueProcess result s) := by
  have hplaced := executeOp_placed op result h.placed
  have hstep := h.ops op (hops ▸ List.mem_cons_self)
  have hstep' := executeOp_oneStep (m := s.module) result hstep
  have hfile := fun fileId => executeOp_file fileId hstep h.placed.table
    (hdeleted fileId)
  have hothers : ∀ op' ∈ (executeOp result op s.module).2.1 :: ops, op'.OneStep := by
    intro op' hmem
    rcases List.mem_cons.mp hmem with rfl | hmem
    · exact hstep'
    · exact h.ops op' (hops ▸ List.mem_cons_of_mem _ hmem)
  unfold queueProcess
  rw [hops]
  dsimp only
  split_ifs with hexec hdone
  · refine ⟨⟨hplaced, hothers, h.events⟩, by simp, fun _ op' ops' fileId hcons hop => ?_⟩
    obtain ⟨rfl, -⟩ := List.cons.inj hcons
    exact (hfile fileId hop).2 hexec
  · refine ⟨⟨hplaced, hothers, fun e he => ?_⟩, by simp, fun h => (by cases h)⟩
    rcases List.mem_append.mp he with he | he
    · exact h.events e he
    · rw [List.mem_singleton.mp he]
      exact fun fileId hop _ => (hfile fileId hop).1 hdone
  · refine ⟨⟨?_, hothers, fun e he => ?_⟩, by simp, fun h => (by cases h)⟩
    · dsimp only
      unfold chunkQueueSkip
      split
      · exact hplaced
      · exact hplaced
    · rcases List.mem_append.mp he with he | he
      · exact h.events e he
      · rw [List.mem_singleton.mp he]
        exact fun _ _ hsuccess => absurd hsuccess hexec

/-- An operation begins. -/
theorem queueBegin_fileInv {op : FdsOp} {ops : List FdsOp} (h : Settled s)
    (hops : s.ops = op :: ops)
    (htok : ∀ fileId, op.DeletesFile fileId → s.module.tok = ⟨0, 0⟩) :
    FileInv (queueBegin s) := by
  unfold queueBegin
  refine queueProcess_fileInv (s := { s with began := liveHeaders s.module.fds })
    ⟨h.placed, h.ops, h.events⟩ hops fun fileId hop => .inr ⟨cfg.maxPages - 1, ?_⟩
  dsimp only
  rw [htok fileId hop]
  exact .zero h.placed.table

/-- The pending operation changes the flash only. -/
theorem flashDone_placed {s : Fds cfg} (h : Placed s) : Placed (flashDone s) := by
  unfold flashDone
  cases s.pending with
  | none => exact h
  | some op => exact h.congr rfl rfl h.curPage

/-- **fstorage reports the end of its operation.** -/
theorem queueProcess_reported {result : FdsRet} {fds : Fds cfg} (h : FileInv s)
    (hstage : s.stage = .executing) (hplaced : Placed fds)
    (hdone : result ≠ fsSuccess ∨ fds = flashDone s.module.fds) :
    FileInv (queueProcess result (s.setFds fds)) := by
  have hsettled : Settled (s.setFds fds) := ⟨hplaced, h.settled.ops, h.settled.events⟩
  cases hops : s.ops with
  | nil =>
    rw [h.idle.mpr hops] at hstage
    cases hstage
  | cons op ops =>
    refine queueProcess_fileInv hsettled hops fun fileId hop => ?_
    rcases hdone with hfail | hdone
    · exact .inl hfail
    · refine .inr ?_
      have hdeleting := h.deleting hstage op ops fileId hops hop
      show ∃ n, DeletedTo fds s.module.tok s.began fileId n
      rw [hdone]
      exact hdeleting.done h.settled.placed.table

/-- A call leaves an operation alone that is executed. -/
theorem Quiet.settled (hquiet : Quiet s t) (h : Settled s) (hops : ∀ op ∈ t.ops, op.OneStep) :
    Settled t :=
  ⟨h.placed.framed hquiet.fds, hops, hquiet.events ▸ h.events⟩

/-- **A call.** -/
theorem called_fileInv {l : FdsLabel} (h : FileInv s) (hcalled : Called s l t)
    (hzero : ZeroToken s l) : FileInv t := by
  cases hcalled with
  | refused t hquiet hops =>
    refine ⟨hquiet.settled h.settled (hops ▸ h.settled.ops), ?_, ?_⟩
    · rw [hquiet.stage, hops]
      exact h.idle
    · rw [hquiet.stage, hops, hquiet.tok, hquiet.began]
      intro hstage op ops fileId hcons hop
      exact (h.deleting hstage op ops fileId hcons hop).framed hquiet.fds hquiet.pending
  | queued op t hquiet hops hissued =>
    have honestep : op.OneStep := by
      cases op with
      | delete op => exact fun hfile => (hissued hfile).2.2
      | write op => trivial
      | gc => trivial
    have hsettled : Settled t := by
      refine hquiet.settled h.settled fun op' hmem => ?_
      rw [hops] at hmem
      rcases List.mem_append.mp hmem with hmem | hmem
      · exact h.settled.ops op' hmem
      · rw [List.mem_singleton.mp hmem]
        exact honestep
    unfold queueStart
    split_ifs with hstage
    · -- The queue is empty, so the operation begins.
      have hidle : s.stage = .idle := hquiet.stage ▸ hstage
      rw [h.idle.mp hidle, List.nil_append] at hops
      refine queueBegin_fileInv hsettled hops fun fileId hop => ?_
      rw [hquiet.tok]
      refine hzero ?_
      cases op with
      | write op => exact absurd hop id
      | gc => exact absurd hop id
      | delete op =>
        obtain ⟨rfl, hid, -⟩ := hissued hop.1
        unfold FdsSystem.beginsFileDelete
        exact decide_eq_true ⟨hid, hidle⟩
    · refine ⟨hsettled, by simp [hstage, hops], ?_⟩
      rw [hquiet.stage, hops, hquiet.tok, hquiet.began]
      intro hexec op' ops' fileId hcons hop
      cases hs : s.ops with
      | nil =>
        rw [h.idle.mpr hs] at hexec
        cases hexec
      | cons head tail =>
        rw [hs, List.cons_append, List.cons.injEq] at hcons
        obtain ⟨rfl, -⟩ := hcons
        exact (h.deleting hexec _ _ fileId hs hop).framed hquiet.fds hquiet.pending

/-- **Every step.** -/
theorem step_fileInv {l : FdsLabel} (h : FileInv s) (hen : l.Enabled s) (hzero : ZeroToken s l) :
    FileInv (s.step l) := by
  by_cases hl : l.IsCall
  · exact called_fileInv h (step_called hl) hzero
  · cases l with
    | advance =>
      show FileInv (queueAdvance s)
      unfold queueAdvance
      unfold ZeroToken FdsSystem.beginsFileDelete at hzero
      cases htail : s.ops.tail with
      | nil =>
        exact ⟨⟨h.settled.placed, fun op hop => absurd hop List.not_mem_nil, h.settled.events⟩,
          by simp, fun h => (by cases h)⟩
      | cons op ops =>
        have hops : ∀ op' ∈ op :: ops, op'.OneStep := fun op' hop =>
          h.settled.ops op' (List.mem_of_mem_tail (htail ▸ hop))
        refine queueBegin_fileInv (s := { s with ops := op :: ops })
          ⟨h.settled.placed, hops, h.settled.events⟩ rfl fun fileId hop => hzero ?_
        rw [htail]
        cases op with
        | write op => exact absurd hop id
        | gc => exact absurd hop id
        | delete op => exact hop.1
    | flashDone =>
      show FileInv (queueProcess fsSuccess (s.setFds (flashDone s.module.fds)))
      exact queueProcess_reported h hen (flashDone_placed h.settled.placed) (.inr rfl)
    | flashTimeout words =>
      have hplaced := h.settled.placed
      have hfail : fsErrOperationTimeout ≠ fsSuccess := by decide
      have hcut : Placed
          { s.module.fds with flash := flashCut s.module.fds words, pending := none } :=
        hplaced.congr rfl rfl hplaced.curPage
      exact queueProcess_reported h hen hcut (.inl hfail)
    | _ => exact absurd trivial hl

theorem FdsSystem.Ready.fileInv (h : s.Ready) : FileInv s where
  settled := by
    refine ⟨⟨h.table, h.curPage⟩, fun op hop => ?_, fun e he => ?_⟩
    · rw [h.ops] at hop
      exact absurd hop List.not_mem_nil
    · rw [h.events] at he
      exact absurd he List.not_mem_nil
  idle := ⟨fun _ => h.ops, fun _ => h.stage⟩
  deleting hstage := by
    rw [h.stage] at hstage
    cases hstage

/-- **File deletion is complete** as long as each one begins with a zero token. -/
theorem fileDeleted_of_reachable (h : (fdsMachine cfg sz).ReachableUnder ZeroToken s) :
    ∀ e ∈ s.events, e.FileDeleted :=
  (h.invariant (I := FileInv) (fun _ hstart => hstart.fileInv)
    fun _ _ hinv hen hzero => step_fileInv hinv hen hzero).settled.events

end Queue

/-! ## §6 A deletion that times out -/

/-- A record of this file with one word of data. -/
def fileRecord (fileId : BitVec 16) (recordId word : BitVec 32) : FdsRecord where
  header := ⟨tlWord 1 1, icWord fileId, recordId⟩
  data := [word]
  length_data := by simp [FdsHeader.lengthWords, tlWord]

/-- A record of the file 2 and a record of the file 1 behind it. -/
def twoFiles : Flash 32 :=
  ((Flash.blank.store (threePages.pageAddr 0)
    (fdsPageTagMagic :: fdsPageTagData :: (fileRecord 2 1 7).words ++ (fileRecord 1 2 8).words)).store
    (threePages.pageAddr 1) [fdsPageTagMagic, fdsPageTagData]).store
    (threePages.pageAddr 2) [fdsPageTagMagic, fdsPageTagSwap]

/-- The module on these pages. -/
def twoFilesMounted : Fds threePages := (fdsInit (Fds.reset threePages twoFiles)).2.2

theorem twoFilesMounted_ready : FdsReady twoFilesMounted := by
  have hswap : SwapTagged threePages twoFiles (threePages.pageAddr 2) [] := by
    constructor <;> decide +kernel
  refine fdsReady_fdsInit (w := 2) (by decide) hswap (fun p hp hne => ?_) (by decide +kernel)
  have hcases : p = 0 ∨ p = 1 := by
    have : p < 3 := hp
    omega
  rcases hcases with rfl | rfl
  · refine ⟨[fileRecord 2 1 7, fileRecord 1 2 8], ?_⟩
    constructor <;> decide +kernel
  · refine ⟨[], ?_⟩
    constructor <;> decide +kernel

/-- Queues of four operations and eight chunks. -/
def smallQueues : FdsQueueSizes where
  opQueueSize := 4
  chunkQueueSize := 8
  opQueueSize_pos := by decide
  chunkQueueSize_pos := by decide
  chunkQueueSize_lt := by decide

/-- The module with these queues. -/
def twoFilesSystem : FdsSystem threePages smallQueues := .mount smallQueues twoFilesMounted

theorem twoFilesSystem_ready : twoFilesSystem.Ready :=
  twoFilesMounted_ready.mount (by decide +kernel)

instance (s : FdsSystem cfg sz) (l : FdsLabel) : Decidable (ZeroToken s l) :=
  inferInstanceAs (Decidable (_ → _))

/-- A deletion of the file 2. -/
theorem fileDeleted_twoFiles :
    List.Forall FdsEvt.FileDeleted ((fdsMachine threePages smallQueues).run twoFilesSystem
      [.fileDelete 2, .flashDone]).events :=
  List.forall_iff_forall_mem.mpr
    (fileDeleted_of_reachable (.of_follows (.start twoFilesSystem_ready) (by decide +kernel)))

/-- **A deletion times out**: the next one begins behind the record that it had reached. -/
theorem not_fileDeleted_afterTimeout :
    ¬ ∀ (cfg : FdsConfig) (sz : FdsQueueSizes) (s : FdsSystem cfg sz),
      (fdsMachine cfg sz).Reachable s → ∀ e ∈ s.events, e.FileDeleted := by
  intro hall
  obtain ⟨s, hs⟩ : ∃ s, s = (fdsMachine threePages smallQueues).run twoFilesSystem
      [.fileDelete 1, .flashTimeout 1, .advance, .fileDelete 2] := ⟨_, rfl⟩
  have hrun := hall threePages smallQueues s
    (hs ▸ .of_follows (.start twoFilesSystem_ready) (by decide +kernel))
  have hlast : s.events.getLast? = some ⟨.delete ⟨true, .fileFlagDirty, 2, 0, 0⟩, fdsSuccess,
      [(threePages.pageAddr 0 + 2, (fileRecord 2 1 7).header)],
      [(threePages.pageAddr 0 + 2, (fileRecord 2 1 7).header)]⟩ := by
    rw [hs]
    decide +kernel
  have hdeleted := hrun _ (List.mem_of_getLast? hlast) 2 ⟨rfl, rfl⟩ rfl
  exact absurd hdeleted (by decide)

end NordicEsb
