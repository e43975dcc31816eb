import NordicEsb.Fds.Module
import NordicEsb.Fds.PowerLoss

/-!
# What Operations Leave Alone

Operations change the flash through fstorage only, so none of them changes a word itself, and the
pages of the table stay where they are unless a collection exchanges one with the swap page.

- `Framed` is the frame of every function but those of the collector: the flash and the addresses
- `Placed` is what the collector keeps of it: the table points at every page once
- `Quiet` is the frame of a call of the application before it starts the queue
-/

namespace NordicEsb

variable {cfg : FdsConfig} {sz : FdsQueueSizes} {s s' t : Fds cfg}

/-! ## §1 The frame of a function -/

/-- The flash is as before, and every page where it was. -/
structure Framed (s s' : Fds cfg) : Prop where
  flash : s'.flash = s.flash
  swapPage : s'.swapPage = s.swapPage
  pAddr : ∀ i, (s'.pages.get i).pAddr = (s.pages.get i).pAddr
  pageType : ∀ i, (s'.pages.get i).pageType = (s.pages.get i).pageType
  curPage : s'.gc.curPage = s.gc.curPage

theorem Framed.refl (s : Fds cfg) : Framed s s := ⟨rfl, rfl, fun _ => rfl, fun _ => rfl, rfl⟩

theorem Framed.trans (h : Framed s s') (h' : Framed s' t) : Framed s t where
  flash := h'.flash.trans h.flash
  swapPage := h'.swapPage.trans h.swapPage
  pAddr i := (h'.pAddr i).trans (h.pAddr i)
  pageType i := (h'.pageType i).trans (h.pageType i)
  curPage := h'.curPage.trans h.curPage

/-- What stands in the other variables does not matter. -/
theorem Framed.of_eq (hflash : s'.flash = s.flash) (hswap : s'.swapPage = s.swapPage)
    (hpages : s'.pages = s.pages) (hgc : s'.gc.curPage = s.gc.curPage) : Framed s s' :=
  ⟨hflash, hswap, fun _ => by rw [hpages], fun _ => by rw [hpages], hgc⟩

theorem Framed.liveHeaders_eq (h : Framed s s') : liveHeaders s' = liveHeaders s := by
  unfold liveHeaders
  rw [h.flash]
  congr 1
  funext i
  rw [h.pAddr, h.pageType]

theorem Framed.slotAddrs_eq (h : Framed s s') : slotAddrs s' = slotAddrs s :=
  List.map_congr_left fun i _ => h.pAddr i

theorem Framed.table (h : Framed s s') (htable : Table s) : Table s' where
  data i hi := (h.pageType i).trans (htable.data i hi)
  covers := by
    have hcovers := htable.covers
    unfold Covers at hcovers ⊢
    rwa [h.slotAddrs_eq, h.swapPage]

/-- fstorage accepts a store, or nothing happens. -/
theorem fsStore_cases (s : Fds cfg) (dest : ℕ) (src : List (BitVec 32)) :
    fsStore s dest src = (fsSuccess, { s with pending := some (.store dest src) }) ∨
      ∃ ret, ret ≠ fsSuccess ∧ fsStore s dest src = (ret, s) := by
  unfold fsStore
  split_ifs
  · exact .inr ⟨_, by decide, rfl⟩
  · exact .inr ⟨_, by decide, rfl⟩
  · exact .inr ⟨_, by decide, rfl⟩
  · exact .inl rfl

theorem fsErase_cases (s : Fds cfg) (pageAddr : ℕ) :
    fsErase s pageAddr = (fsSuccess, { s with pending := some (.erase pageAddr cfg.pageSize) }) ∨
      ∃ ret, ret ≠ fsSuccess ∧ fsErase s pageAddr = (ret, s) := by
  unfold fsErase
  split_ifs
  · exact .inr ⟨_, by decide, rfl⟩
  · exact .inr ⟨_, by decide, rfl⟩
  · exact .inl rfl

theorem fsStore_framed (s : Fds cfg) (dest : ℕ) (src : List (BitVec 32)) :
    Framed s (fsStore s dest src).2 := by
  rcases fsStore_cases s dest src with h | ⟨ret, -, h⟩
  · rw [h]
    exact .of_eq rfl rfl rfl rfl
  · rw [h]
    exact .refl s

theorem fsErase_framed (s : Fds cfg) (pageAddr : ℕ) : Framed s (fsErase s pageAddr).2 := by
  rcases fsErase_cases s pageAddr with h | ⟨ret, -, h⟩
  · rw [h]
    exact .of_eq rfl rfl rfl rfl
  · rw [h]
    exact .refl s

/-- Another page at the same place. -/
theorem modifyPage_framed (s : Fds cfg) (page : ℕ) (f : FdsPage → FdsPage)
    (haddr : ∀ p, (f p).pAddr = p.pAddr) (htype : ∀ p, (f p).pageType = p.pageType) :
    Framed s (s.modifyPage page f) := by
  have hget : ∀ i, (s.pages.set page (f (s.pages.get page))).get i = s.pages.get i ∨
      (s.pages.set page (f (s.pages.get page))).get i = f (s.pages.get i) := by
    intro i
    by_cases hip : i = page
    · subst hip
      by_cases hi : i < cfg.maxPages
      · exact .inr (FixedArray.get_set_self _ _ hi)
      · -- There is no such page.
        exact .inl (by simp [FixedArray.get, hi])
    · exact .inl (FixedArray.get_set_ne _ _ hip)
  refine ⟨rfl, rfl, fun i => ?_, fun i => ?_, rfl⟩
  · rcases hget i with h | h
    · exact congrArg _ h
    · exact (congrArg _ h).trans (haddr _)
  · rcases hget i with h | h
    · exact congrArg _ h
    · exact (congrArg _ h).trans (htype _)

theorem pageOffsetsUpdate_framed (s : Fds cfg) (page : ℕ) (lengthWords : BitVec 16) :
    Framed s (pageOffsetsUpdate s page lengthWords) :=
  modifyPage_framed s page _ (fun _ => rfl) fun _ => rfl

theorem setCanGc_framed (s : Fds cfg) (page : ℕ) : Framed s (s.setCanGc page) :=
  modifyPage_framed s page _ (fun _ => rfl) fun _ => rfl

theorem writeSpaceFree_framed (s : Fds cfg) (lengthWords : BitVec 16) (page : ℕ) :
    Framed s (writeSpaceFree s lengthWords page) :=
  modifyPage_framed s page _ (fun _ => rfl) fun _ => rfl

/-- Space is reserved on a page with room, or nothing happens. -/
theorem writeSpaceReserve_cases (s : Fds cfg) (lengthWords : BitVec 16) :
    (∃ page, spacePage s (lengthWords + 3) = some page ∧
      (lengthWords + 3).toNat < cfg.pageSize - 2 ∧
      writeSpaceReserve s lengthWords = (fdsSuccess, page,
        s.modifyPage page fun p =>
          { p with wordsReserved := p.wordsReserved + (lengthWords + 3) })) ∨
      ∃ ret, ret ≠ fdsSuccess ∧ writeSpaceReserve s lengthWords = (ret, 0, s) := by
  unfold writeSpaceReserve
  dsimp only
  split_ifs with hlarge
  · exact .inr ⟨_, by decide, rfl⟩
  · cases hpage : spacePage s (lengthWords + 3) with
    | none => exact .inr ⟨_, by decide, rfl⟩
    | some page => exact .inl ⟨page, rfl, by omega, rfl⟩

/-! ## §2 The operations on records -/

/-- A function of the module with a frame, that leaves the token alone. -/
structure FramedOp (m m' : FdsModule cfg sz) : Prop where
  fds : Framed m.fds m'.fds
  tok : m'.tok = m.tok

theorem FramedOp.refl (m : FdsModule cfg sz) : FramedOp m m := ⟨.refl _, rfl⟩

theorem FramedOp.trans {m n k : FdsModule cfg sz} (h : FramedOp m n) (h' : FramedOp n k) :
    FramedOp m k :=
  ⟨h.fds.trans h'.fds, h'.tok.trans h.tok⟩

variable (op : FdsWriteOp) (m : FdsModule cfg sz) (addr : ℕ)

theorem store_framed (dest : ℕ) (src : List (BitVec 32)) : FramedOp m (m.store dest src).2 :=
  ⟨fsStore_framed m.fds dest src, rfl⟩

/-- Every step of a write hands a store to fstorage, if anything. -/
theorem writeStep_framed : FramedOp m (writeStep op m addr).2.2 := by
  unfold writeStep
  cases op.step with
  | findRecord => exact store_framed m _ _
  | headerBegin => exact store_framed m _ _
  | recordId => exact store_framed m _ _
  | chunks =>
    unfold recordWriteChunk
    obtain ⟨chunk, queue⟩ := m.chunkQueue.getAndAdvance
    dsimp only
    refine FramedOp.trans (n := { m with chunkQueue := queue }) ⟨.refl _, rfl⟩ ?_
    exact store_framed _ _ _
  | headerFinalize => exact store_framed m _ _
  | flagDirty => exact store_framed m _ _
  | done => exact .refl m

theorem offsetsUpdate_framed : FramedOp m (offsetsUpdate op m) :=
  ⟨pageOffsetsUpdate_framed _ _ _, rfl⟩

theorem writeAdvance_framed : FramedOp m (writeAdvance op m).2.2 := by
  unfold writeAdvance
  dsimp only
  have hstep := writeStep_framed op m
    ((m.fds.pages.get op.page).pAddr + (m.fds.pages.get op.page).writeOffset.toNat)
  split
  · exact hstep.trans (offsetsUpdate_framed _ _)
  · exact hstep

theorem writeExecute_framed (prevRet : FdsRet) : FramedOp m (writeExecute op m prevRet).2.2 := by
  unfold writeExecute
  split
  · exact offsetsUpdate_framed op m
  · split
    · dsimp only
      cases recordFindByDesc m.fds
          { m.desc with pRecord := 0, recordId := op.recordToDelete } with
      | none => exact ⟨.refl _, rfl⟩
      | some found =>
        exact FramedOp.trans (n := { m with desc := found.2 }) ⟨.refl _, rfl⟩
          (writeAdvance_framed op { m with desc := found.2 })
    · exact writeAdvance_framed op m

theorem recordFindAndDelete_framed (op : FdsDeleteOp) :
    FramedOp m (recordFindAndDelete m op).2.2 := by
  unfold recordFindAndDelete
  cases recordFindByDesc m.fds ⟨op.recordToDelete, 0, 0, false⟩ with
  | none => exact .refl m
  | some found =>
    exact (store_framed m found.2.pRecord [fdsTlDirty]).trans ⟨setCanGc_framed _ _, rfl⟩

/-- The deletion of a file changes the token, and nothing else beside fstorage. -/
theorem fileFindAndDelete_framed (op : FdsDeleteOp) :
    Framed m.fds (fileFindAndDelete m op).2.fds := by
  unfold fileFindAndDelete
  cases recordFind m.fds op.fileId m.tok with
  | none => exact .refl _
  | some tok =>
    exact (fsStore_framed m.fds tok.pAddr [fdsTlDirty]).trans (setCanGc_framed _ _)

/-! ## §3 The collector -/

/-- The table points at every page once, and the page that is collected is one of it. -/
structure Placed (s : Fds cfg) : Prop where
  table : Table s
  curPage : s.gc.curPage < cfg.maxPages

theorem FdsConfig.maxPages_pos (cfg : FdsConfig) : 0 < cfg.maxPages := by
  have htwo := cfg.two_le_virtualPages
  unfold FdsConfig.maxPages
  omega

theorem Placed.framed (h : Placed s) (hframe : Framed s s') : Placed s' :=
  ⟨hframe.table h.table, hframe.curPage ▸ h.curPage⟩

/-- Only where the pages are matters. -/
theorem Placed.congr (h : Placed s) (hpages : s'.pages = s.pages)
    (hswap : s'.swapPage.pAddr = s.swapPage.pAddr) (hcur : s'.gc.curPage < cfg.maxPages) :
    Placed s' := by
  refine ⟨⟨fun i hi => hpages ▸ h.table.data i hi, ?_⟩, hcur⟩
  have hcovers := h.table.covers
  unfold Covers slotAddrs at hcovers ⊢
  rwa [hpages, hswap]

theorem gcSwapErase_placed (h : Placed s) : Placed (gcSwapErase s).2 := by
  unfold gcSwapErase
  refine Placed.framed ?_ (fsErase_framed _ _)
  exact h.congr rfl rfl h.curPage

theorem gcPageErase_placed (h : Placed s) : Placed (gcPageErase s).2 := by
  unfold gcPageErase
  split
  · have herase := h.framed (fsErase_framed s (s.pages.get s.gc.curPage).pAddr)
    exact herase.congr rfl rfl herase.curPage
  · exact gcSwapErase_placed h

theorem gcRecordCopy_placed (h : Placed s) : Placed (gcRecordCopy s).2 := by
  unfold gcRecordCopy
  refine Placed.framed ?_ (fsStore_framed _ _ _)
  exact h.congr rfl rfl h.curPage

theorem gcRecordFindNext_placed (h : Placed s) : Placed (gcRecordFindNext s).2 := by
  unfold gcRecordFindNext
  cases recordFindNext cfg s.flash (s.pages.get s.gc.curPage).pAddr s.gc.pRecordSrc with
  | none => exact gcPageErase_placed h
  | some p => exact gcRecordCopy_placed (h.congr rfl rfl h.curPage)

theorem gcSwapPromote_placed (h : Placed s) : Placed (gcSwapPromote s).2 := by
  unfold gcSwapPromote pageTagWriteData
  refine Placed.framed ?_ (fsStore_framed _ _ _)
  exact h.congr rfl rfl h.curPage

theorem gcTagNewSwap_placed (h : Placed s) : Placed (gcTagNewSwap s).2 := by
  unfold gcTagNewSwap pageTagWriteSwap
  refine Placed.framed ?_ (fsStore_framed _ _ _)
  exact h.congr rfl rfl h.curPage

theorem gcNextPage_placed (h : Placed s) : Placed (gcNextPage s).2 := by
  obtain ⟨⟨d, hd⟩, hlt⟩ := gcPageNextLoop_eq cfg.maxPages 0 s
  unfold gcNextPage gcPageNext
  cases hnext : gcPageNextLoop cfg.maxPages 0 s with
  | mk next t =>
    rw [hnext] at hd hlt
    dsimp only at hd hlt
    subst hd
    cases next with
    | none => exact h.congr rfl rfl cfg.maxPages_pos
    | some i =>
      have hi : i < cfg.maxPages := by
        have hi := hlt i rfl
        omega
      exact gcRecordFindNext_placed (h.congr rfl rfl hi)

/-- **The exchange** of a page with the swap page. -/
theorem gcSwapPages_placed (h : Placed s) : Placed (gcSwapPages s) := by
  unfold gcSwapPages
  refine ⟨⟨fun i hi => ?_, ?_⟩, h.curPage⟩
  · dsimp only
    rw [FixedArray.get_set _ _ _ _ h.curPage]
    split
    · exact h.table.data _ h.curPage
    · exact h.table.data i hi
  · exact h.table.covers.exchange h.curPage rfl rfl rfl

theorem gcStateAdvance_placed (h : Placed s) : Placed (gcStateAdvance s) := by
  unfold gcStateAdvance
  cases s.gc.state with
  | begin => exact h.congr rfl rfl cfg.maxPages_pos
  | nextPage => exact h
  | findNextRecord => exact h
  | copyRecord => exact h.congr rfl rfl h.curPage
  | erasePage =>
    have hswap := gcSwapPages_placed h
    exact hswap.congr rfl rfl hswap.curPage
  | discardSwap => exact h.congr rfl rfl h.curPage
  | promoteSwap => exact h.congr rfl rfl h.curPage
  | tagNewSwap => exact h.congr rfl rfl h.curPage

theorem gcEnter_placed (h : Placed s) : Placed (gcEnter s) := by
  unfold gcEnter
  split
  · exact h.congr rfl rfl h.curPage
  · exact gcStateAdvance_placed h

/-- **The collector keeps every page**, whatever its state is. -/
theorem gcExecute_placed (h : Placed s) (prevRet : FdsRet) : Placed (gcExecute prevRet s).2 := by
  unfold gcExecute
  split
  · exact h
  · have henter := gcEnter_placed h
    dsimp only
    cases (gcEnter s).gc.state with
    | begin => exact henter
    | nextPage => exact gcNextPage_placed henter
    | findNextRecord => exact gcRecordFindNext_placed henter
    | copyRecord => exact gcRecordCopy_placed henter
    | erasePage => exact gcPageErase_placed henter
    | discardSwap => exact henter
    | promoteSwap => exact gcSwapPromote_placed henter
    | tagNewSwap => exact gcTagNewSwap_placed henter

/-! ## §4 Calls of the application -/

/-- What a call leaves alone before it starts the queue. -/
structure Quiet (s t : FdsSystem cfg sz) : Prop where
  fds : Framed s.module.fds t.module.fds
  pending : t.module.fds.pending = s.module.fds.pending
  tok : t.module.tok = s.module.tok
  stage : t.stage = s.stage
  began : t.began = s.began
  events : t.events = s.events

section Calls

variable {s t u : FdsSystem cfg sz}

theorem Quiet.refl (s : FdsSystem cfg sz) : Quiet s s := ⟨.refl _, rfl, rfl, rfl, rfl, rfl⟩

theorem Quiet.trans (h : Quiet s t) (h' : Quiet t u) : Quiet s u where
  fds := h.fds.trans h'.fds
  pending := h'.pending.trans h.pending
  tok := h'.tok.trans h.tok
  stage := h'.stage.trans h.stage
  began := h'.began.trans h.began
  events := h'.events.trans h.events

theorem setFds_quiet {fds : Fds cfg} (hframe : Framed s.module.fds fds)
    (hpending : fds.pending = s.module.fds.pending) : Quiet s (s.setFds fds) :=
  ⟨hframe, hpending, rfl, rfl, rfl, rfl⟩

/-- Another count on a page. -/
theorem modifyPage_quiet (s : FdsSystem cfg sz) (page : ℕ) (f : FdsPage → FdsPage)
    (haddr : ∀ p, (f p).pAddr = p.pAddr) (htype : ∀ p, (f p).pageType = p.pageType) :
    Quiet s (s.setFds (s.module.fds.modifyPage page f)) :=
  setFds_quiet (modifyPage_framed _ page f haddr htype) rfl

theorem reserve_quiet (s : FdsSystem cfg sz) (page : ℕ) (total : BitVec 16) :
    Quiet s (s.setFds (s.module.fds.modifyPage page fun p =>
      { p with wordsReserved := p.wordsReserved + total })) :=
  modifyPage_quiet s page (fun p => { p with wordsReserved := p.wordsReserved + total })
    (fun _ => rfl) fun _ => rfl

/-- An operation that this call puts into the queue. -/
def FdsOp.IssuedBy (l : FdsLabel) : FdsOp → Prop
  | .delete op => op.file = true → l = .fileDelete op.fileId ∧ op.fileId ≠ 0xFFFF ∧
      op.step = .fileFlagDirty
  | _ => True

/-- **What a call does**: it puts at most one operation into the queue, and starts it then. -/
inductive Called (s : FdsSystem cfg sz) (l : FdsLabel) : FdsSystem cfg sz → Prop
  | refused (t : FdsSystem cfg sz) (quiet : Quiet s t) (ops : t.ops = s.ops) : Called s l t
  | queued (op : FdsOp) (t : FdsSystem cfg sz) (quiet : Quiet s t) (ops : t.ops = s.ops ++ [op])
      (issued : op.IssuedBy l) : Called s l (queueStart t)

/-- A label is a call, unless it belongs to the queue. -/
def FdsLabel.IsCall : FdsLabel → Prop
  | .advance | .flashDone | .flashTimeout _ => False
  | _ => True

theorem opEnqueue_quiet {op : FdsOp} {chunks : List FdsChunk} (h : opEnqueue op chunks s = some t) :
    Quiet s t ∧ t.ops = s.ops ++ [op] := by
  unfold opEnqueue at h
  split at h
  · obtain rfl := Option.some.inj h
    exact ⟨⟨.refl _, rfl, rfl, rfl, rfl, rfl⟩, rfl⟩
  · cases h

theorem enqueueStart_called {op : FdsOp} {l : FdsLabel} (hop : op.IssuedBy l) :
    Called s l (enqueueStart op s).2 := by
  unfold enqueueStart
  cases henqueue : opEnqueue op [] s with
  | none => exact .refused s (.refl s) rfl
  | some t =>
    obtain ⟨hquiet, hops⟩ := opEnqueue_quiet henqueue
    exact .queued op t hquiet hops hop

theorem writeEnqueueAt_called {l : FdsLabel} (record : FdsNewRecord)
    (update : Option (BitVec 32)) (page : ℕ) (lengthWords : BitVec 16) (hquiet : Quiet s t)
    (hops : t.ops = s.ops) : Called s l (writeEnqueueAt record update page lengthWords t).2 := by
  obtain ⟨u, hu⟩ : ∃ u, u = t.setFds
    { t.module.fds with latestRecId := t.module.fds.latestRecId + 1 } := ⟨_, rfl⟩
  have hid : Quiet t u := by
    rw [hu]
    exact setFds_quiet (.of_eq rfl rfl rfl rfl) rfl
  have hopsId : u.ops = t.ops := by
    rw [hu]
    rfl
  obtain ⟨op, hop⟩ : ∃ op, op = newWriteOp record update page lengthWords
    u.module.fds.latestRecId := ⟨_, rfl⟩
  unfold writeEnqueueAt
  dsimp only
  rw [← hu, ← hop]
  cases henqueue : opEnqueue (.write op) record.chunks u with
  | none =>
    refine .refused _ ((hquiet.trans hid).trans ?_) (hopsId.trans hops)
    exact modifyPage_quiet u page _ (fun _ => rfl) fun _ => rfl
  | some v =>
    obtain ⟨hqueued, hopsQueued⟩ := opEnqueue_quiet henqueue
    refine .queued (.write op) v ((hquiet.trans hid).trans hqueued) ?_ trivial
    rw [hopsQueued, hopsId, hops]

theorem writeEnqueue_called {l : FdsLabel} (record : FdsNewRecord) (update : Option (BitVec 32))
    (tok : Option FdsReserveToken) : Called s l (writeEnqueue record update tok s).2 := by
  unfold writeEnqueue
  split
  · exact .refused s (.refl s) rfl
  · cases tok with
    | some tok => exact writeEnqueueAt_called record update _ _ (.refl s) rfl
    | none =>
      dsimp only
      rcases writeSpaceReserve_cases s.module.fds (chunksLength record.chunks) with
        ⟨page, -, -, hreserve⟩ | ⟨ret, hret, hreserve⟩
      · rw [hreserve]
        refine writeEnqueueAt_called record update page _ ?_ rfl
        exact reserve_quiet s page _
      · rw [hreserve]
        dsimp only
        rw [if_pos hret]
        exact .refused s (.refl s) rfl

/-- **Every call is one of these.** -/
theorem step_called {l : FdsLabel} (hl : l.IsCall) : Called s l (s.step l) := by
  cases l with
  | reserve lengthWords =>
    show Called s _ (fdsReserve lengthWords s).2.2
    unfold fdsReserve
    rcases writeSpaceReserve_cases s.module.fds lengthWords with
      ⟨page, -, -, hreserve⟩ | ⟨ret, hret, hreserve⟩
    · rw [hreserve]
      exact .refused _ (reserve_quiet s page _) rfl
    · rw [hreserve]
      dsimp only
      rw [if_neg hret]
      exact .refused s (.refl s) rfl
  | reserveCancel tok =>
    show Called s _ (fdsReserveCancel tok s).2.2
    unfold fdsReserveCancel
    split_ifs
    · exact .refused s (.refl s) rfl
    · refine .refused _ ?_ rfl
      exact modifyPage_quiet s tok.page _ (fun _ => rfl) fun _ => rfl
    · exact .refused s (.refl s) rfl
  -- the calls that queue an operation
  | write record => exact writeEnqueue_called record none none
  | writeReserved record tok => exact writeEnqueue_called record none (some tok)
  | update recordId record => exact writeEnqueue_called record (some recordId) none
  | delete recordId => exact enqueueStart_called fun h => (by cases h)
  | fileDelete fileId =>
    show Called s _ (fdsFileDelete fileId s).2
    unfold fdsFileDelete
    split_ifs with hid
    · exact .refused s (.refl s) rfl
    · exact enqueueStart_called fun _ => ⟨rfl, hid, rfl⟩
  | gc =>
    show Called s _ (fdsGcCall s).2
    unfold fdsGcCall
    cases henqueue : opEnqueue .gc [] s with
    | none => exact .refused s (.refl s) rfl
    | some t =>
      obtain ⟨hquiet, hops⟩ := opEnqueue_quiet henqueue
      dsimp only
      split
      · refine .queued .gc _ (hquiet.trans ?_) hops trivial
        exact setFds_quiet (.of_eq rfl rfl rfl rfl) rfl
      · exact .queued .gc t hquiet hops trivial
  | «open» desc =>
    show Called s _ (fdsRecordOpen desc s).2.2
    unfold fdsRecordOpen
    cases recordFindByDesc s.module.fds desc with
    | none => exact .refused s (.refl s) rfl
    | some found =>
      refine .refused _ ?_ rfl
      exact modifyPage_quiet s found.1 _ (fun _ => rfl) fun _ => rfl
  | close desc =>
    show Called s _ (fdsRecordClose desc s).2.2
    unfold fdsRecordClose
    cases recordFindByDesc s.module.fds desc with
    | none => exact .refused s (.refl s) rfl
    | some found =>
      dsimp only
      split_ifs
      · refine .refused _ ?_ rfl
        exact modifyPage_quiet s found.1 _ (fun _ => rfl) fun _ => rfl
      · exact .refused s (.refl s) rfl
  -- the queue of the flash module fills or empties; no operation is queued
  | fsQueue full =>
    refine .refused _ ?_ rfl
    exact setFds_quiet (.of_eq rfl rfl rfl rfl) rfl
  | advance => exact absurd hl id
  | flashDone => exact absurd hl id
  | flashTimeout words => exact absurd hl id

/-! ## §5 Runs from a reset -/

/-- An initialised module is ready for calls. -/
theorem FdsReady.mount {fds : Fds cfg} (h : FdsReady fds) (hcur : fds.gc.curPage < cfg.maxPages) :
    (FdsSystem.mount sz fds).Ready := by
  obtain ⟨live, hmounted⟩ := h
  exact ⟨hmounted.collector.table, hmounted.state, hcur, hmounted.src, hmounted.collector.resume,
    hmounted.pending, ⟨rfl, rfl⟩, rfl, rfl, rfl, rfl⟩

end Calls

end NordicEsb
