import NordicEsb.Fds.Table

/-!
# Initialisation

`fds_init` reads the pages in the order of their addresses (`pagesInit`), decides from the tags it
has found what is left to do, and does it step by step (`initExecute`).

A page that is erased is taken for the swap page as long as no page is tagged swap; when such a
page comes later, the erased page is put into `m_pages` after all.
-/

namespace NordicEsb

variable {cfg : FdsConfig}

/-! ## §1 Reading the pages -/

/-- The bits that `pages_init` returns. -/
structure PagesFound where
  /-- `PAGE_ERASED` -/
  erased : Bool
  /-- `PAGE_DATA` -/
  data : Bool
  /-- `SWAP_EMPTY` -/
  swapEmpty : Bool
  /-- `SWAP_DIRTY` -/
  swapDirty : Bool
deriving DecidableEq, Repr

/-- The local variables of `pages_init`. -/
structure PagesInit (cfg : FdsConfig) where
  fds : Fds cfg
  /-- The index of the page that is initialised next. -/
  page : ℕ
  swapSetButNotFound : Bool
  found : PagesFound

/-- `m_pages[page++] = …` -/
def PagesInit.push (st : PagesInit cfg) (page : FdsPage) : PagesInit cfg :=
  { st with
    fds := { st.fds with pages := st.fds.pages.set st.page page }
    page := st.page + 1 }

/-- The page that is initialised next, as an erased one. -/
def PagesInit.erasedPage (st : PagesInit cfg) (a : ℕ) : FdsPage :=
  { st.fds.pages.get st.page with pageType := .erased, pAddr := a, writeOffset := 2 }

/-- `case FDS_PAGE_UNDEFINED` -/
def pagesInitUndefined (a : ℕ) (st : PagesInit cfg) : PagesInit cfg :=
  if pageIsErased cfg st.fds.flash a then
    let st := { st with found := { st.found with erased := true } }
    if st.fds.swapPage.pAddr ≠ 0 then
      -- A candidate for a new swap page.
      PagesInit.push
        { st with fds := { st.fds with gc := { st.fds.gc with curPage := st.page } } }
        (st.erasedPage a)
    else
      { st with
        fds := { st.fds with swapPage := ⟨a, 2⟩ }
        swapSetButNotFound := true }
  else st.push { st.fds.pages.get st.page with pageType := .undefined }

/-- `case FDS_PAGE_DATA` -/
def pagesInitData (a : ℕ) (st : PagesInit cfg) : PagesInit cfg :=
  let scan := pageScan cfg st.fds.flash a st.fds.latestRecId
  PagesInit.push
    { st with
      fds := { st.fds with latestRecId := scan.latestRecId }
      found := { st.found with data := true } }
    { st.fds.pages.get st.page with
      pageType := .data, pAddr := a, writeOffset := scan.wordsWritten, canGc := scan.canGc }

/-- `case FDS_PAGE_SWAP` -/
def pagesInitSwap (a : ℕ) (st : PagesInit cfg) : PagesInit cfg :=
  let scan := pageScan cfg st.fds.flash a st.fds.latestRecId
  let st :=
    if st.swapSetButNotFound then st.push (st.erasedPage st.fds.swapPage.pAddr) else st
  { st with
    fds := { st.fds with
      swapPage := ⟨a, scan.wordsWritten⟩
      latestRecId := scan.latestRecId }
    found :=
      if scan.wordsWritten = 2 then { st.found with swapEmpty := true }
      else { st.found with swapDirty := true } }

/-- One round of the loop of `pages_init`. -/
def pagesInitStep (i : ℕ) (st : PagesInit cfg) : PagesInit cfg :=
  match pageIdentify st.fds.flash (cfg.pageAddr i) with
  | .undefined => pagesInitUndefined (cfg.pageAddr i) st
  | .data => pagesInitData (cfg.pageAddr i) st
  | .swap => pagesInitSwap (cfg.pageAddr i) st
  | .erased => st

/-- `n` rounds from page `i` on. -/
def pagesInitLoop : ℕ → ℕ → PagesInit cfg → PagesInit cfg
  | 0, _, st => st
  | n + 1, i, st => pagesInitLoop n (i + 1) (pagesInitStep i st)

/-- `pages_init` -/
def pagesInit (s : Fds cfg) : PagesInit cfg :=
  pagesInitLoop cfg.virtualPages 0 ⟨s, 0, false, ⟨false, false, false, false⟩⟩

/-! ## §2 The steps -/

/-- `fds_init_step_t` -/
inductive FdsInitStep where
  | tagSwap
  | tagData
  | eraseSwap
  | promoteSwap
deriving DecidableEq, Repr

/-- `fds_init_opts_t`; `other` stands for the combinations of bits that have no name. -/
inductive FdsInitOpts where
  | noPages
  | freshInstall
  | tagSwap
  | tagData
  | tagDataInst
  | promoteSwap
  | promoteSwapInst
  | discardSwap
  | alreadyInstalled
  | other
deriving DecidableEq, Repr

/-- `(fds_init_opts_t)ret` -/
def PagesFound.initOpts : PagesFound → FdsInitOpts
  | ⟨false, false, false, false⟩ => .noPages
  | ⟨true, false, false, false⟩ => .freshInstall
  | ⟨true, true, false, false⟩ => .tagSwap
  | ⟨true, false, true, false⟩ => .tagData
  | ⟨true, true, true, false⟩ => .tagDataInst
  | ⟨true, false, false, true⟩ => .promoteSwap
  | ⟨true, true, false, true⟩ => .promoteSwapInst
  | ⟨false, true, false, true⟩ => .discardSwap
  | ⟨false, true, true, false⟩ => .alreadyInstalled
  | _ => .other

/-- The step that the operation starts with; `other` leaves it undetermined. -/
def FdsInitOpts.step : FdsInitOpts → Option FdsInitStep
  | .freshInstall | .tagSwap => some .tagSwap
  | .promoteSwap | .promoteSwapInst => some .promoteSwap
  | .discardSwap => some .eraseSwap
  | .tagData | .tagDataInst => some .tagData
  | .noPages | .alreadyInstalled | .other => none

/-- The end of `init_execute`: the queue of fstorage may have been full. -/
def initReturn (step : FdsInitStep) (out : FdsRet × Fds cfg) : FdsRet × FdsInitStep × Fds cfg :=
  if out.1 ≠ fdsSuccess then (fdsErrBusy, step, { out.2 with initializing := false })
  else (fdsOpExecuting, step, out.2)

/-- `case FDS_OP_INIT_TAG_DATA` -/
def initTagData (s : Fds cfg) : FdsRet × FdsInitStep × Fds cfg :=
  match (List.range cfg.maxPages).find? fun i => (s.pages.get i).pageType == .erased with
  | some i =>
    let (ret, s) := pageTagWriteData s (s.pages.get i).pAddr
    initReturn .tagData
      (ret, { s with pages := s.pages.set i { s.pages.get i with pageType := .data } })
  | none => (fdsOpCompleted, .tagData, { s with initialized := true, initializing := false })

/-- `case FDS_OP_INIT_PROMOTE_SWAP` -/
def initPromoteSwap (s : Fds cfg) : FdsRet × FdsInitStep × Fds cfg :=
  let (ret, s) := pageTagWriteData s s.swapPage.pAddr
  let page := s.pages.get s.gc.curPage
  initReturn .tagSwap
    (ret, { s with
      swapPage := ⟨page.pAddr, 2⟩
      pages := s.pages.set s.gc.curPage
        { page with
          pAddr := s.swapPage.pAddr, writeOffset := s.swapPage.writeOffset, pageType := .data } })

/-- `init_execute` -/
def initExecute (prevRet : FdsRet) (step : FdsInitStep) (s : Fds cfg) :
    FdsRet × FdsInitStep × Fds cfg :=
  if prevRet ≠ fsSuccess then (fdsErrOperationTimeout, step, { s with initializing := false })
  else
    match step with
    | .tagSwap => initReturn .tagData (pageTagWriteSwap s)
    | .tagData => initTagData s
    | .eraseSwap =>
      let (ret, s) := fsErase s s.swapPage.pAddr
      initReturn .tagSwap (ret, { s with swapPage := { s.swapPage with writeOffset := 2 } })
    | .promoteSwap => initPromoteSwap s

/-- `fds_init`, up to the operation that it queues. -/
def fdsInit (s : Fds cfg) : FdsRet × Option FdsInitStep × Fds cfg :=
  if s.initialized ∨ s.initializing then (fdsSuccess, none, s)
  else
    let st := pagesInit { s with initializing := true }
    match st.found.initOpts with
    | .noPages => (fdsErrNoPages, none, st.fds)
    | .alreadyInstalled =>
      (fdsSuccess, none, { st.fds with initialized := true, initializing := false })
    | opts => (fdsSuccess, opts.step, st.fds)

end NordicEsb
