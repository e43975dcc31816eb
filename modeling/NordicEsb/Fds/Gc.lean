import NordicEsb.Fds.State

/-!
# Garbage Collection

`fds_gc` copies the valid records of a page to the swap page, erases the page, tags the swap page
as a data page and the erased page as the new swap page, and goes on with the next page. Every
step hands one operation to fstorage and waits for its completion.
-/

namespace NordicEsb

variable {cfg : FdsConfig}

/-! ## §1 The steps -/

/-- `gc_init` -/
def gcInit (s : Fds cfg) : Fds cfg :=
  { s with gc := { s.gc with
      runCount := s.gc.runCount + 1
      curPage := 0
      resume := false
      doGcPage := fun i => (s.pages.get i).pageType == .data } }

/-- The loop of `gc_page_next` from page `i` on, `n` pages. -/
def gcPageNextLoop : ℕ → ℕ → Fds cfg → Option ℕ × Fds cfg
  | 0, _, s => (none, s)
  | n + 1, i, s =>
    if s.gc.doGcPage.get i then
      -- A page is not attempted again.
      let s' := { s with gc := { s.gc with doGcPage := s.gc.doGcPage.set i false } }
      if (s.pages.get i).recordsOpen = 0 ∧ (s.pages.get i).canGc = true then (some i, s')
      else gcPageNextLoop n (i + 1) s'
    else gcPageNextLoop n (i + 1) s

/-- `gc_page_next` -/
def gcPageNext (s : Fds cfg) : Option ℕ × Fds cfg := gcPageNextLoop cfg.maxPages 0 s

/-- `gc_swap_erase` -/
def gcSwapErase (s : Fds cfg) : FdsRet × Fds cfg :=
  fsErase { s with
      gc := { s.gc with state := .discardSwap }
      swapPage := { s.swapPage with writeOffset := 2 } }
    s.swapPage.pAddr

/-- `gc_page_erase` -/
def gcPageErase (s : Fds cfg) : FdsRet × Fds cfg :=
  if (s.pages.get s.gc.curPage).recordsOpen = 0 then
    let (ret, s) := fsErase s (s.pages.get s.gc.curPage).pAddr
    (ret, { s with gc := { s.gc with state := .erasePage } })
  else gcSwapErase s

/-- `record_len`, in 16 bits. -/
def gcRecordLen (s : Fds cfg) : BitVec 16 := 3 + (fdsHeaderAt s.flash s.gc.pRecordSrc).lengthWords

/-- `gc_record_copy` -/
def gcRecordCopy (s : Fds cfg) : FdsRet × Fds cfg :=
  fsStore { s with gc := { s.gc with state := .copyRecord } }
    (s.swapPage.pAddr + s.swapPage.writeOffset.toNat)
    (s.flash.read s.gc.pRecordSrc (gcRecordLen s).toNat)

/-- `gc_record_find_next` -/
def gcRecordFindNext (s : Fds cfg) : FdsRet × Fds cfg :=
  match recordFindNext cfg s.flash (s.pages.get s.gc.curPage).pAddr s.gc.pRecordSrc with
  | some p => gcRecordCopy { s with gc := { s.gc with pRecordSrc := p } }
  | none => gcPageErase s

/-- `gc_swap_promote` -/
def gcSwapPromote (s : Fds cfg) : FdsRet × Fds cfg :=
  pageTagWriteData { s with gc := { s.gc with state := .promoteSwap } }
    (s.pages.get s.gc.curPage).pAddr

/-- `gc_tag_new_swap` -/
def gcTagNewSwap (s : Fds cfg) : FdsRet × Fds cfg :=
  pageTagWriteSwap { s with gc := { s.gc with state := .tagNewSwap, pRecordSrc := 0 } }

/-- `gc_next_page` -/
def gcNextPage (s : Fds cfg) : FdsRet × Fds cfg :=
  match gcPageNext s with
  | (some i, s) => gcRecordFindNext { s with gc := { s.gc with curPage := i } }
  | (none, s) =>
    (fdsOpCompleted, { s with gc := { s.gc with state := .begin, curPage := 0, pRecordSrc := 0 } })

/-- `gc_update_swap_offset` -/
def gcUpdateSwapOffset (s : Fds cfg) : Fds cfg :=
  { s with swapPage := { s.swapPage with
      writeOffset := s.swapPage.writeOffset + gcRecordLen s } }

/-- `gc_swap_pages` -/
def gcSwapPages (s : Fds cfg) : Fds cfg :=
  let page := s.pages.get s.gc.curPage
  { s with
    swapPage := ⟨page.pAddr, 2⟩
    pages := s.pages.set s.gc.curPage
      { page with pAddr := s.swapPage.pAddr, writeOffset := s.swapPage.writeOffset } }

/-- `gc_state_advance` -/
def gcStateAdvance (s : Fds cfg) : Fds cfg :=
  match s.gc.state with
  | .begin =>
    let s := gcInit s
    { s with gc := { s.gc with state := .nextPage } }
  | .copyRecord =>
    let s := gcUpdateSwapOffset s
    { s with gc := { s.gc with state := .findNextRecord } }
  | .erasePage =>
    let s := gcSwapPages s
    { s with gc := { s.gc with state := .promoteSwap } }
  | .discardSwap | .promoteSwap => { s with gc := { s.gc with state := .tagNewSwap } }
  | .tagNewSwap => { s with gc := { s.gc with state := .nextPage } }
  | .nextPage | .findNextRecord => s

/-- The state that `gc_execute` enters: a resumed collection repeats its last step. -/
def gcEnter (s : Fds cfg) : Fds cfg :=
  if s.gc.resume then { s with gc := { s.gc with resume := false } } else gcStateAdvance s

/-- `gc_execute` -/
def gcExecute (prevRet : FdsRet) (s : Fds cfg) : FdsRet × Fds cfg :=
  if prevRet ≠ fsSuccess then (fdsErrOperationTimeout, s)
  else
    let s := gcEnter s
    match s.gc.state with
    | .nextPage => gcNextPage s
    | .findNextRecord => gcRecordFindNext s
    | .copyRecord => gcRecordCopy s
    | .erasePage => gcPageErase s
    | .promoteSwap => gcSwapPromote s
    | .tagNewSwap => gcTagNewSwap s
    | .begin | .discardSwap => (fdsErrInternal, s)

end NordicEsb
