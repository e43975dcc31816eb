import NordicEsb.Fds.Ops
import NordicEsb.Lib.Machine

/-!
# The Module and its Queue

The application calls the module, fstorage reports the end of its operation, and `queue_process`
executes one step of the operation at the head of the queue. When an operation has ended, its event
is sent before the queue advances, so the application may call the module in between.

- `FdsSystem` is the module with its queue and the events it has sent
- `FdsLabel` are the calls, and what fstorage does: an operation completes, or times out with any
  part of its words written; its queue is full or not
- `fdsMachine` starts from any initialised module with empty queues
-/

namespace NordicEsb

variable {cfg : FdsConfig} {sz : FdsQueueSizes}

/-! ## §1 The queue -/

/-- What `queue_process` is doing. -/
inductive FdsStage where
  /-- `FDS_FLAG_PROCESSING` is not set. -/
  | idle
  /-- fstorage executes an operation. -/
  | executing
  /-- The event is sent, the queue has not advanced yet. -/
  | reporting
deriving DecidableEq, Repr

/-- `fds_evt_t`, with the operation as it has ended, and the valid headers when it began and when
    it ended. -/
structure FdsEvt where
  op : FdsOp
  result : FdsRet
  before : List (ℕ × FdsHeader)
  after : List (ℕ × FdsHeader)
deriving DecidableEq

/-- The module, its queue and its events. -/
structure FdsSystem (cfg : FdsConfig) (sz : FdsQueueSizes) where
  module : FdsModule cfg sz
  /-- `m_op_queue`, the operation that is executed first. -/
  ops : List FdsOp
  stage : FdsStage
  /-- The valid headers when the operation that is executed began. -/
  began : List (ℕ × FdsHeader)
  events : List FdsEvt

/-- What `queue_process` calls. -/
def executeOp (prevRet : FdsRet) (op : FdsOp) (m : FdsModule cfg sz) :
    FdsRet × FdsOp × FdsModule cfg sz :=
  match op with
  | .write op =>
    match writeExecute op m prevRet with
    | (ret, op, m) => (ret, .write op, m)
  | .delete op =>
    match deleteExecute m prevRet op with
    | (ret, op, m) => (ret, .delete op, m)
  | .gc =>
    match gcExecute prevRet m.fds with
    | (ret, s) => (ret, .gc, { m with fds := s })

/-- `chunk_queue_skip` -/
def chunkQueueSkip (op : FdsOp) (m : FdsModule cfg sz) : FdsModule cfg sz :=
  match op with
  | .write op => { m with chunkQueue := m.chunkQueue.skip op.chunkCount.toNat }
  | _ => m

/-- `queue_process`, up to the event. -/
def queueProcess (result : FdsRet) (s : FdsSystem cfg sz) : FdsSystem cfg sz :=
  match s.ops with
  | [] => s
  | op :: ops =>
    match executeOp result op s.module with
    | (ret, op, m) =>
      if ret = fdsOpExecuting then { s with module := m, ops := op :: ops, stage := .executing }
      else
        { s with
          module := if ret = fdsOpCompleted then m else chunkQueueSkip op m
          ops := op :: ops
          stage := .reporting
          events := s.events ++
            [⟨op, if ret = fdsOpCompleted then fdsSuccess else ret, s.began, liveHeaders m.fds⟩] }

/-- The operation at the head of the queue begins. -/
def queueBegin (s : FdsSystem cfg sz) : FdsSystem cfg sz :=
  queueProcess fsSuccess { s with began := liveHeaders s.module.fds }

/-- `queue_start` -/
def queueStart (s : FdsSystem cfg sz) : FdsSystem cfg sz :=
  if s.stage = .idle then queueBegin s else s

/-- `queue_process` behind the event: `queue_advance`, and the next operation. -/
def queueAdvance (s : FdsSystem cfg sz) : FdsSystem cfg sz :=
  match s.ops.tail with
  | [] => { s with ops := [], stage := .idle }
  | op :: ops => queueBegin { s with ops := op :: ops }

/-- `op_enqueue` -/
def opEnqueue (op : FdsOp) (chunks : List FdsChunk) (s : FdsSystem cfg sz) :
    Option (FdsSystem cfg sz) :=
  if s.ops.length ≤ sz.opQueueSize - 1 ∧ s.module.chunkQueue.hasRoom chunks.length then
    some { s with
      module := { s.module with
        chunkQueue :=
          if chunks.length ≠ 0 then s.module.chunkQueue.enqueue chunks else s.module.chunkQueue }
      ops := s.ops ++ [op] }
  else none

/-! ## §2 Calls -/

/-- Another state of the page table. -/
def FdsSystem.setFds (s : FdsSystem cfg sz) (fds : Fds cfg) : FdsSystem cfg sz :=
  { s with module := { s.module with fds := fds } }

/-- `fds_reserve` -/
def fdsReserve (lengthWords : BitVec 16) (s : FdsSystem cfg sz) :
    FdsRet × Option FdsReserveToken × FdsSystem cfg sz :=
  match writeSpaceReserve s.module.fds lengthWords with
  | (ret, page, fds) =>
    if ret = fdsSuccess then (ret, some ⟨page, lengthWords⟩, s.setFds fds) else (ret, none, s)

/-- `fds_reserve_cancel`: the token is cleaned. -/
def fdsReserveCancel (tok : FdsReserveToken) (s : FdsSystem cfg sz) :
    FdsRet × FdsReserveToken × FdsSystem cfg sz :=
  if cfg.maxPages < tok.page then (fdsErrInvalidArg, tok, s)
  else if 3 + tok.lengthWords.toNat ≤ (s.module.fds.pages.get tok.page).wordsReserved.toNat then
    (fdsSuccess, ⟨0, 0⟩, s.setFds (writeSpaceFree s.module.fds tok.lengthWords tok.page))
  else (fdsErrInvalidArg, tok, s)

/-- The sum of the lengths of the chunks, in 16 bits. -/
def chunksLength (chunks : List FdsChunk) : BitVec 16 :=
  chunks.foldl (fun sum c => sum + c.lengthWords) 0

/-- The operation that `write_enqueue` initialises. -/
def newWriteOp (record : FdsNewRecord) (update : Option (BitVec 32)) (page : ℕ)
    (lengthWords : BitVec 16) (recordId : BitVec 32) : FdsWriteOp where
  update := update.isSome
  header := ⟨tlWord record.key lengthWords, icWord record.fileId, recordId⟩
  step := if update.isSome then .findRecord else .headerBegin
  page := page
  chunkOffset := 3
  chunkCount := BitVec.ofNat 8 record.chunks.length
  recordToDelete := update.getD 0

/-- `write_enqueue` once there is space for the record; `update` is the record ID in `p_desc`. -/
def writeEnqueueAt (record : FdsNewRecord) (update : Option (BitVec 32)) (page : ℕ)
    (lengthWords : BitVec 16) (s : FdsSystem cfg sz) : FdsRet × FdsSystem cfg sz :=
  -- `record_id_new`
  let s := s.setFds { s.module.fds with latestRecId := s.module.fds.latestRecId + 1 }
  let op := newWriteOp record update page lengthWords s.module.fds.latestRecId
  match opEnqueue (.write op) record.chunks s with
  | none => (fdsErrNoSpaceInQueues, s.setFds (writeSpaceFree s.module.fds lengthWords page))
  | some s => (fdsSuccess, queueStart s)

/-- `write_enqueue` -/
def writeEnqueue (record : FdsNewRecord) (update : Option (BitVec 32))
    (tok : Option FdsReserveToken) (s : FdsSystem cfg sz) : FdsRet × FdsSystem cfg sz :=
  if record.fileId = 0xFFFF ∨ record.key = 0 then (fdsErrInvalidArg, s)
  else
    match tok with
    | some tok => writeEnqueueAt record update tok.page tok.lengthWords s
    | none =>
      match writeSpaceReserve s.module.fds (chunksLength record.chunks) with
      | (ret, page, fds) =>
        if ret ≠ fdsSuccess then (ret, s)
        else writeEnqueueAt record update page (chunksLength record.chunks) (s.setFds fds)

/-- `fds_record_write` -/
def fdsRecordWrite (record : FdsNewRecord) (s : FdsSystem cfg sz) : FdsRet × FdsSystem cfg sz :=
  writeEnqueue record none none s

/-- `fds_record_write_reserved` -/
def fdsRecordWriteReserved (record : FdsNewRecord) (tok : FdsReserveToken)
    (s : FdsSystem cfg sz) : FdsRet × FdsSystem cfg sz :=
  writeEnqueue record none (some tok) s

/-- `fds_record_update` of the record with this ID. -/
def fdsRecordUpdate (recordId : BitVec 32) (record : FdsNewRecord) (s : FdsSystem cfg sz) :
    FdsRet × FdsSystem cfg sz :=
  writeEnqueue record (some recordId) none s

/-- An operation without chunks. -/
def enqueueStart (op : FdsOp) (s : FdsSystem cfg sz) : FdsRet × FdsSystem cfg sz :=
  match opEnqueue op [] s with
  | some s => (fdsSuccess, queueStart s)
  | none => (fdsErrNoSpaceInQueues, s)

/-- `fds_record_delete` of the record with this ID. -/
def fdsRecordDelete (recordId : BitVec 32) (s : FdsSystem cfg sz) : FdsRet × FdsSystem cfg sz :=
  enqueueStart (.delete ⟨false, .recordFlagDirty, 0, 0, recordId⟩) s

/-- `fds_file_delete` -/
def fdsFileDelete (fileId : BitVec 16) (s : FdsSystem cfg sz) : FdsRet × FdsSystem cfg sz :=
  if fileId = 0xFFFF then (fdsErrInvalidArg, s)
  else enqueueStart (.delete ⟨true, .fileFlagDirty, fileId, 0, 0⟩) s

/-- `fds_gc`: a collection that has stopped is resumed. -/
def fdsGcCall (s : FdsSystem cfg sz) : FdsRet × FdsSystem cfg sz :=
  match opEnqueue .gc [] s with
  | some s =>
    let fds := s.module.fds
    (fdsSuccess, queueStart
      (if fds.gc.state ≠ .begin then s.setFds { fds with gc := { fds.gc with resume := true } }
      else s))
  | none => (fdsErrNoSpaceInQueues, s)

/-- `fds_record_open`: the descriptor is changed. -/
def fdsRecordOpen (desc : FdsRecordDesc) (s : FdsSystem cfg sz) :
    FdsRet × FdsRecordDesc × FdsSystem cfg sz :=
  match recordFindByDesc s.module.fds desc with
  | some (page, desc) =>
    (fdsSuccess, { desc with recordIsOpen := true },
      s.setFds (s.module.fds.modifyPage page fun p => { p with recordsOpen := p.recordsOpen + 1 }))
  | none => (fdsErrNotFound, desc, s)

/-- `fds_record_close`: the descriptor is changed. -/
def fdsRecordClose (desc : FdsRecordDesc) (s : FdsSystem cfg sz) :
    FdsRet × FdsRecordDesc × FdsSystem cfg sz :=
  match recordFindByDesc s.module.fds desc with
  | some (page, desc) =>
    if 0 < (s.module.fds.pages.get page).recordsOpen.toNat ∧ desc.recordIsOpen then
      (fdsSuccess, { desc with recordIsOpen := false },
        s.setFds (s.module.fds.modifyPage page fun p =>
          { p with recordsOpen := p.recordsOpen - 1 }))
    else (fdsErrNoOpenRecords, desc, s)
  | none => (fdsErrNotFound, desc, s)

/-! ## §3 The machine -/

/-- What can happen. -/
inductive FdsLabel where
  | reserve (lengthWords : BitVec 16)
  | reserveCancel (tok : FdsReserveToken)
  | write (record : FdsNewRecord)
  | writeReserved (record : FdsNewRecord) (tok : FdsReserveToken)
  | update (recordId : BitVec 32) (record : FdsNewRecord)
  | delete (recordId : BitVec 32)
  | fileDelete (fileId : BitVec 16)
  | gc
  | open (desc : FdsRecordDesc)
  | close (desc : FdsRecordDesc)
  /-- The event has been sent, the queue advances. -/
  | advance
  /-- The operation of fstorage is complete. -/
  | flashDone
  /-- The operation of fstorage has timed out, with these words written. -/
  | flashTimeout (words : ℕ)
  /-- The queue of fstorage becomes full, or not. -/
  | fsQueue (full : Bool)
deriving DecidableEq

/-- When it can happen. -/
def FdsLabel.Enabled (s : FdsSystem cfg sz) : FdsLabel → Prop
  | .advance => s.stage = .reporting
  | .flashDone | .flashTimeout _ => s.stage = .executing
  | _ => True

instance (s : FdsSystem cfg sz) (l : FdsLabel) : Decidable (l.Enabled s) := by
  cases l <;> unfold FdsLabel.Enabled <;> infer_instance

/-- The state after it. -/
def FdsSystem.step (s : FdsSystem cfg sz) : FdsLabel → FdsSystem cfg sz
  | .reserve lengthWords => (fdsReserve lengthWords s).2.2
  | .reserveCancel tok => (fdsReserveCancel tok s).2.2
  | .write record => (fdsRecordWrite record s).2
  | .writeReserved record tok => (fdsRecordWriteReserved record tok s).2
  | .update recordId record => (fdsRecordUpdate recordId record s).2
  | .delete recordId => (fdsRecordDelete recordId s).2
  | .fileDelete fileId => (fdsFileDelete fileId s).2
  | .gc => (fdsGcCall s).2
  | .open desc => (fdsRecordOpen desc s).2.2
  | .close desc => (fdsRecordClose desc s).2.2
  | .advance => queueAdvance s
  | .flashDone => queueProcess fsSuccess (s.setFds (flashDone s.module.fds))
  | .flashTimeout words =>
    queueProcess fsErrOperationTimeout
      (s.setFds { s.module.fds with flash := flashCut s.module.fds words, pending := none })
  | .fsQueue full => s.setFds { s.module.fds with fsFull := full }

/-- An initialised module with empty queues. -/
structure FdsSystem.Ready (s : FdsSystem cfg sz) : Prop where
  table : Table s.module.fds
  gc : s.module.fds.gc.state = .begin
  curPage : s.module.fds.gc.curPage < cfg.maxPages
  src : s.module.fds.gc.pRecordSrc = 0
  resume : s.module.fds.gc.resume = false
  pending : s.module.fds.pending = none
  chunks : s.module.chunkQueue.rp = 0 ∧ s.module.chunkQueue.count = 0
  tok : s.module.tok = ⟨0, 0⟩
  ops : s.ops = []
  stage : s.stage = .idle
  events : s.events = []

/-- The static variables of the queues are zero after a reset. -/
def FdsSystem.mount (sz : FdsQueueSizes) (fds : Fds cfg) : FdsSystem cfg sz :=
  ⟨⟨fds, ⟨default, 0, 0⟩, ⟨0, 0, 0, false⟩, ⟨0, 0⟩⟩, [], .idle, [], []⟩

/-- **The module in use**, from any flash. -/
def fdsMachine (cfg : FdsConfig) (sz : FdsQueueSizes) : Machine (FdsSystem cfg sz) FdsLabel where
  start := FdsSystem.Ready
  enabled s l := l.Enabled s
  step := FdsSystem.step

instance (s : FdsSystem cfg sz) (l : FdsLabel) : Decidable ((fdsMachine cfg sz).enabled s l) :=
  inferInstanceAs (Decidable (l.Enabled s))

end NordicEsb
