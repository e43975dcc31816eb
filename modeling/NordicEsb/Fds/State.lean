import NordicEsb.Fds.Layout
import NordicEsb.Lib.FixedArray

/-!
# State of the Flash Data Storage

The static variables of the module beside the flash memory, and the operation that fstorage is
executing. The module hands one operation at a time to fstorage, so `pending` is all of the queue
of fstorage that it uses; that the queue is full is an input of the environment.

Return codes keep their numbers: the garbage collector passes those of fstorage on as its own.
`NULL` is the address 0.
-/

namespace NordicEsb

/-- `ret_code_t` and `fs_ret_t` -/
abbrev FdsRet := ℕ

def fsSuccess : FdsRet := 0
def fsErrInvalidArg : FdsRet := 4
def fsErrInvalidAddr : FdsRet := 5
def fsErrQueueFull : FdsRet := 7

def fdsSuccess : FdsRet := 0
def fdsErrOperationTimeout : FdsRet := 1
def fdsErrNotInitialized : FdsRet := 2
def fdsErrNoPages : FdsRet := 11
def fdsErrBusy : FdsRet := 14
def fdsErrInternal : FdsRet := 15

/-- `FDS_OP_EXECUTING` -/
def fdsOpExecuting : FdsRet := fsSuccess

/-- `FDS_OP_COMPLETED` -/
def fdsOpCompleted : FdsRet := 0x1D1D

/-- `fds_page_t` -/
structure FdsPage where
  pageType : FdsPageType
  pAddr : ℕ
  writeOffset : BitVec 16
  wordsReserved : BitVec 16
  recordsOpen : BitVec 16
  canGc : Bool
deriving DecidableEq, Repr

/-- Static variables are zero. -/
instance : Inhabited FdsPage := ⟨⟨.data, 0, 0, 0, 0, false⟩⟩

/-- `fds_swap_page_t` -/
structure FdsSwapPage where
  pAddr : ℕ
  writeOffset : BitVec 16
deriving DecidableEq, Repr

/-- `fds_gc_state_t` -/
inductive FdsGcState where
  | begin
  | nextPage
  | findNextRecord
  | copyRecord
  | erasePage
  | discardSwap
  | promoteSwap
  | tagNewSwap
deriving DecidableEq, Repr

/-- `fds_gc_data_t` -/
structure FdsGcData (cfg : FdsConfig) where
  state : FdsGcState
  curPage : ℕ
  pRecordSrc : ℕ
  runCount : BitVec 16
  doGcPage : FixedArray cfg.maxPages Bool
  resume : Bool

/-- An operation of fstorage. -/
inductive FsOp where
  | store (dest : ℕ) (src : List (BitVec 32))
  | erase (pageAddr numWords : ℕ)
deriving DecidableEq, Repr

/-- The state of the module. -/
structure Fds (cfg : FdsConfig) where
  flash : Flash 32
  /-- `m_pages` -/
  pages : FixedArray cfg.maxPages FdsPage
  /-- `m_swap_page` -/
  swapPage : FdsSwapPage
  /-- `m_gc` -/
  gc : FdsGcData cfg
  /-- `m_latest_rec_id` -/
  latestRecId : BitVec 32
  /-- `FDS_FLAG_INITIALIZING` -/
  initializing : Bool
  /-- `FDS_FLAG_INITIALIZED` -/
  initialized : Bool
  /-- The queue of fstorage is full. -/
  fsFull : Bool
  /-- The operation that fstorage executes. -/
  pending : Option FsOp

variable {cfg : FdsConfig}

/-- `fs_config.p_end_addr` -/
def FdsConfig.endAddr (cfg : FdsConfig) : ℕ := cfg.startAddr + cfg.virtualPages * cfg.pageSize

/-- The module after a reset, on the flash it finds. -/
def Fds.reset (cfg : FdsConfig) (flash : Flash 32) : Fds cfg where
  flash := flash
  pages := default
  swapPage := ⟨0, 0⟩
  gc := ⟨.begin, 0, 0, 0, .replicate _ false, false⟩
  latestRecId := 0
  initializing := false
  initialized := false
  fsFull := false
  pending := none

/-- `fs_store` -/
def fsStore (s : Fds cfg) (dest : ℕ) (src : List (BitVec 32)) : FdsRet × Fds cfg :=
  if dest < cfg.startAddr ∨ cfg.endAddr < dest + src.length then (fsErrInvalidAddr, s)
  else if src.length = 0 then (fsErrInvalidArg, s)
  else if s.fsFull then (fsErrQueueFull, s)
  else (fsSuccess, { s with pending := some (.store dest src) })

/-- `fs_erase` of the physical pages of a virtual page. -/
def fsErase (s : Fds cfg) (pageAddr : ℕ) : FdsRet × Fds cfg :=
  if pageAddr < cfg.startAddr ∨ cfg.endAddr < pageAddr + cfg.pageSize then (fsErrInvalidAddr, s)
  else if s.fsFull then (fsErrQueueFull, s)
  else (fsSuccess, { s with pending := some (.erase pageAddr cfg.pageSize) })

/-- What the operation does to the flash when it is complete. -/
def FsOp.exec : FsOp → Flash 32 → Flash 32
  | .store dest src, f => f.store dest src
  | .erase pageAddr numWords, f => f.erase pageAddr numWords

/-- The pending operation is complete. -/
def flashDone (s : Fds cfg) : Fds cfg :=
  match s.pending with
  | some op => { s with flash := op.exec s.flash, pending := none }
  | none => s

/-- What the flash holds when power is lost after the first `k` words of the pending operation;
    a page that is being erased keeps its words. -/
def flashCut (s : Fds cfg) (k : ℕ) : Flash 32 :=
  match s.pending with
  | some (.store dest src) => s.flash.store dest (src.take k)
  | _ => s.flash

/-- `page_tag_write_swap` -/
def pageTagWriteSwap (s : Fds cfg) : FdsRet × Fds cfg :=
  fsStore s s.swapPage.pAddr [fdsPageTagMagic, fdsPageTagSwap]

/-- `page_tag_write_data` -/
def pageTagWriteData (s : Fds cfg) (pageAddr : ℕ) : FdsRet × Fds cfg :=
  fsStore s pageAddr [fdsPageTagMagic, fdsPageTagData]

/-- The records that an application finds, page after page. -/
def liveRecords (s : Fds cfg) : List FdsRecord :=
  (List.range cfg.maxPages).flatMap fun i =>
    if (s.pages.get i).pageType = .data then pageRecords cfg s.flash (s.pages.get i).pAddr else []

end NordicEsb
