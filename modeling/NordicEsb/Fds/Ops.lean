import NordicEsb.Fds.Gc
import NordicEsb.Fds.Headers

/-!
# Operations on Records

Writing, updating and deleting records: the operations that wait in the queue, the queue of the
chunks that they write, and the steps in which `queue_process` executes them. Each step hands at
most one operation to fstorage.

- `writeExecute` has six steps: the record to update is searched, then the first word of the
  header, the record ID, the chunks and the last word of the header are written, and the old
  record is flagged dirty
- `deleteExecute` flags one record, or the records of a file one after the other
- `recordFindByDesc`, `recordFind`: how records are searched
- the space on a page is reserved in 16 bits (`writeSpaceReserve`, `pageOffsetsUpdate`)
-/

namespace NordicEsb

/-! ## §1 Data -/

/-- The sizes of the queues. -/
structure FdsQueueSizes where
  /-- `FDS_OP_QUEUE_SIZE` -/
  opQueueSize : ℕ
  /-- `FDS_CHUNK_QUEUE_SIZE` -/
  chunkQueueSize : ℕ
  opQueueSize_pos : 0 < opQueueSize
  chunkQueueSize_pos : 0 < chunkQueueSize
  chunkQueueSize_lt : chunkQueueSize < 2 ^ 32

def fdsErrInvalidArg : FdsRet := 4
def fdsErrNullArg : FdsRet := 5
def fdsErrNoOpenRecords : FdsRet := 6
def fdsErrNoSpaceInFlash : FdsRet := 7
def fdsErrNoSpaceInQueues : FdsRet := 8
def fdsErrRecordTooLarge : FdsRet := 9
def fdsErrNotFound : FdsRet := 10
def fsErrOperationTimeout : FdsRet := 8

/-- `fds_record_chunk_t`, with the words that `p_data` points to. -/
structure FdsChunk where
  data : List (BitVec 32)
  /-- `length_words` is a `uint16_t`. -/
  length_lt : data.length < 2 ^ 16
deriving DecidableEq

/-- Static variables are zero. -/
instance : Inhabited FdsChunk := ⟨⟨[], by decide⟩⟩

/-- `length_words` -/
def FdsChunk.lengthWords (c : FdsChunk) : BitVec 16 := BitVec.ofNat 16 c.data.length

/-- `fds_record_t` -/
structure FdsNewRecord where
  fileId : BitVec 16
  key : BitVec 16
  chunks : List FdsChunk
  /-- `num_chunks` is a `uint16_t`. -/
  numChunks_lt : chunks.length < 2 ^ 16
deriving DecidableEq

/-- `fds_record_desc_t` -/
structure FdsRecordDesc where
  recordId : BitVec 32
  /-- `NULL` is the address 0. -/
  pRecord : ℕ
  gcRunCount : BitVec 16
  recordIsOpen : Bool
deriving DecidableEq, Repr

/-- `fds_find_token_t` -/
structure FdsFindToken where
  pAddr : ℕ
  page : ℕ
deriving DecidableEq, Repr

/-- `fds_reserve_token_t` -/
structure FdsReserveToken where
  page : ℕ
  lengthWords : BitVec 16
deriving DecidableEq, Repr

/-- `fds_write_step_t` -/
inductive FdsWriteStep where
  | headerBegin
  | headerFinalize
  | recordId
  | chunks
  | findRecord
  | flagDirty
  | done
deriving DecidableEq, Repr

/-- `fds_delete_step_t` -/
inductive FdsDeleteStep where
  | recordFlagDirty
  | fileFlagDirty
  | done
deriving DecidableEq, Repr

/-- An operation with the code `FDS_OP_WRITE` or `FDS_OP_UPDATE`. -/
structure FdsWriteOp where
  /-- `FDS_OP_UPDATE` -/
  update : Bool
  header : FdsHeader
  step : FdsWriteStep
  page : ℕ
  chunkOffset : BitVec 16
  chunkCount : BitVec 8
  recordToDelete : BitVec 32
deriving DecidableEq, Repr

/-- An operation with the code `FDS_OP_DEL_RECORD` or `FDS_OP_DEL_FILE`. -/
structure FdsDeleteOp where
  /-- `FDS_OP_DEL_FILE` -/
  file : Bool
  step : FdsDeleteStep
  fileId : BitVec 16
  recordKey : BitVec 16
  recordToDelete : BitVec 32
deriving DecidableEq, Repr

/-- `fds_op_t`, once the module is initialised. -/
inductive FdsOp where
  | write (op : FdsWriteOp)
  | delete (op : FdsDeleteOp)
  | gc
deriving DecidableEq, Repr

/-- `fds_chunk_queue_t` -/
structure FdsChunkQueue (n : ℕ) where
  chunk : FixedArray n FdsChunk
  rp : ℕ
  count : ℕ

/-- The module with its queues. -/
structure FdsModule (cfg : FdsConfig) (sz : FdsQueueSizes) where
  fds : Fds cfg
  /-- `m_chunk_queue` -/
  chunkQueue : FdsChunkQueue sz.chunkQueueSize
  /-- `desc` in `write_execute`. -/
  desc : FdsRecordDesc
  /-- `tok` in `file_find_and_delete`. -/
  tok : FdsFindToken

variable {cfg : FdsConfig} {sz : FdsQueueSizes}

/-- `fs_store` -/
def FdsModule.store (m : FdsModule cfg sz) (dest : ℕ) (src : List (BitVec 32)) :
    FdsRet × FdsModule cfg sz :=
  let (ret, s) := fsStore m.fds dest src
  (ret, { m with fds := s })

/-- `(ret == FS_SUCCESS) ? FDS_SUCCESS : FDS_ERR_BUSY` -/
def fdsRetOf (ret : FdsRet) : FdsRet := if ret = fsSuccess then fdsSuccess else fdsErrBusy

/-- The second word of a header, from the file ID and a CRC of 0. -/
def icWord (fileId : BitVec 16) : BitVec 32 := (0 : BitVec 16) ++ fileId

/-! ## §2 Searching records -/

/-- `address_is_valid` -/
def addressIsValid (cfg : FdsConfig) (p : ℕ) : Bool :=
  p ≠ 0 ∧ cfg.startAddr ≤ p ∧ p ≤ cfg.endAddr

/-- `page_from_record` -/
def pageFromRecord (s : Fds cfg) (p : ℕ) : Option ℕ :=
  (List.range cfg.maxPages).find? fun i =>
    (s.pages.get i).pAddr < p ∧ p < (s.pages.get i).pAddr + cfg.pageSize

/-- The loop of `record_find_by_desc` over the records of the page at `a`, at most `fuel`. -/
def recordIdLoop (cfg : FdsConfig) (f : Flash 32) (a : ℕ) (id : BitVec 32) : ℕ → ℕ → Option ℕ
  | 0, _ => none
  | fuel + 1, p =>
    match recordFindNext cfg f a p with
    | some q => if (fdsHeaderAt f q).recordId = id then some q else recordIdLoop cfg f a id fuel q
    | none => none

/-- The loop of `record_find_by_desc` over the pages from page `i` on, `n` pages. -/
def recordIdPages (s : Fds cfg) (id : BitVec 32) : ℕ → ℕ → Option (ℕ × ℕ)
  | 0, _ => none
  | n + 1, i =>
    match recordIdLoop cfg s.flash (s.pages.get i).pAddr id cfg.pageSize 0 with
    | some p => some (i, p)
    | none => recordIdPages s id n (i + 1)

/-- `record_find_by_desc`: the page of the record, and the descriptor with its address. -/
def recordFindByDesc (s : Fds cfg) (desc : FdsRecordDesc) : Option (ℕ × FdsRecordDesc) :=
  if addressIsValid cfg desc.pRecord ∧ desc.gcRunCount = s.gc.runCount ∧
      desc.recordId = (fdsHeaderAt s.flash desc.pRecord).recordId then
    -- The record has not moved.
    (pageFromRecord s desc.pRecord).map fun page => (page, desc)
  else
    (recordIdPages s desc.recordId cfg.maxPages 0).map fun (page, p) =>
      (page, { desc with pRecord := p, gcRunCount := s.gc.runCount })

/-- The loop of `record_find` over the records of the page at `a`, at most `fuel`. -/
def recordFileLoop (cfg : FdsConfig) (f : Flash 32) (a : ℕ) (fileId : BitVec 16) :
    ℕ → ℕ → Option ℕ
  | 0, _ => none
  | fuel + 1, p =>
    match recordFindNext cfg f a p with
    | some q =>
      if (fdsHeaderAt f q).fileId ≠ fileId then recordFileLoop cfg f a fileId fuel q else some q
    | none => none

/-- The loop of `record_find` over the pages, `n` of them; the token says where it begins. -/
def recordFindPages (s : Fds cfg) (fileId : BitVec 16) : ℕ → FdsFindToken → Option FdsFindToken
  | 0, _ => none
  | n + 1, tok =>
    if (s.pages.get tok.page).pageType ≠ .data then
      recordFindPages s fileId n { tok with page := tok.page + 1 }
    else
      match recordFileLoop cfg s.flash (s.pages.get tok.page).pAddr fileId cfg.pageSize
          tok.pAddr with
      | some q => some { tok with pAddr := q }
      | none => recordFindPages s fileId n ⟨0, tok.page + 1⟩

/-- `record_find` of the next record of a file: the token then points to the record. -/
def recordFind (s : Fds cfg) (fileId : BitVec 16) (tok : FdsFindToken) : Option FdsFindToken :=
  recordFindPages s fileId (cfg.maxPages - tok.page) tok

/-! ## §3 Space on a page -/

/-- Another page in `m_pages`. -/
def Fds.modifyPage (s : Fds cfg) (page : ℕ) (f : FdsPage → FdsPage) : Fds cfg :=
  { s with pages := s.pages.set page (f (s.pages.get page)) }

/-- `page_has_space`, in 16 bits. -/
def pageHasSpace (s : Fds cfg) (page : ℕ) (lengthWords : BitVec 16) : Bool :=
  (lengthWords + (s.pages.get page).writeOffset + (s.pages.get page).wordsReserved).toNat <
    cfg.pageSize

/-- `page_offsets_update` -/
def pageOffsetsUpdate (s : Fds cfg) (page : ℕ) (lengthWords : BitVec 16) : Fds cfg :=
  s.modifyPage page fun p =>
    { p with
      writeOffset := p.writeOffset + (3 + lengthWords)
      wordsReserved := p.wordsReserved - (3 + lengthWords) }

/-- The page that `write_space_reserve` chooses. -/
def spacePage (s : Fds cfg) (total : BitVec 16) : Option ℕ :=
  (List.range cfg.maxPages).find? fun i =>
    (s.pages.get i).pageType = .data ∧ pageHasSpace s i total

/-- `write_space_reserve` -/
def writeSpaceReserve (s : Fds cfg) (lengthWords : BitVec 16) : FdsRet × ℕ × Fds cfg :=
  let total := lengthWords + 3
  if cfg.pageSize - 2 ≤ total.toNat then (fdsErrRecordTooLarge, 0, s)
  else
    match spacePage s total with
    | some page =>
      (fdsSuccess, page,
        s.modifyPage page fun p => { p with wordsReserved := p.wordsReserved + total })
    | none => (fdsErrNoSpaceInFlash, 0, s)

/-- `write_space_free` -/
def writeSpaceFree (s : Fds cfg) (lengthWords : BitVec 16) (page : ℕ) : Fds cfg :=
  s.modifyPage page fun p => { p with wordsReserved := p.wordsReserved - (lengthWords + 3) }

/-! ## §4 The queue of chunks -/

section Chunks

variable {n : ℕ}

/-- `chunk_queue_get_and_advance`: of an empty queue, nothing. -/
def FdsChunkQueue.getAndAdvance (q : FdsChunkQueue n) : FdsChunk × FdsChunkQueue n :=
  if q.count ≠ 0 then
    (q.chunk.get q.rp, { q with rp := (q.rp + 1) % n, count := q.count - 1 })
  else (default, q)

/-- `chunk_queue_skip` -/
def FdsChunkQueue.skip (q : FdsChunkQueue n) (chunkCount : ℕ) : FdsChunkQueue n :=
  { q with rp := q.rp + chunkCount, count := q.count - chunkCount }

/-- The loop of `op_enqueue` from the cell `i` on. -/
def enqueueChunks : List FdsChunk → ℕ → FixedArray n FdsChunk → FixedArray n FdsChunk
  | [], _, a => a
  | c :: cs, i, a => enqueueChunks cs ((i + 1) % n) (a.set i c)

/-- `m_chunk_queue.count <= FDS_CHUNK_QUEUE_SIZE - num_chunks`, in 32 bits. -/
def FdsChunkQueue.hasRoom (q : FdsChunkQueue n) (numChunks : ℕ) : Bool :=
  q.count ≤ (n + 2 ^ 32 - numChunks) % 2 ^ 32

/-- The chunks of an operation behind the others. -/
def FdsChunkQueue.enqueue (q : FdsChunkQueue n) (chunks : List FdsChunk) : FdsChunkQueue n :=
  { q with
    chunk := enqueueChunks chunks ((q.count + q.rp) % n) q.chunk
    count := q.count + chunks.length }

end Chunks

/-! ## §5 Writing -/

variable (op : FdsWriteOp) (m : FdsModule cfg sz)

/-- `record_header_write_begin` -/
def recordHeaderWriteBegin (addr : ℕ) : FdsRet × FdsWriteOp × FdsModule cfg sz :=
  let (ret, m) := m.store addr [op.header.tl]
  (fdsRetOf ret, { op with step := .recordId }, m)

/-- `record_header_write_id` -/
def recordHeaderWriteId (addr : ℕ) : FdsRet × FdsWriteOp × FdsModule cfg sz :=
  let (ret, m) := m.store (addr + 2) [op.header.recordId]
  (fdsRetOf ret,
    { op with step := if op.chunkCount ≠ 0 then .chunks else .headerFinalize }, m)

/-- `record_header_write_finalize` -/
def recordHeaderWriteFinalize (addr : ℕ) : FdsRet × FdsWriteOp × FdsModule cfg sz :=
  let (ret, m) := m.store (addr + 1) [op.header.ic]
  (fdsRetOf ret, { op with step := if op.update then .flagDirty else .done }, m)

/-- `record_header_flag_dirty` -/
def recordHeaderFlagDirty (addr : ℕ) : FdsRet × FdsModule cfg sz :=
  let (ret, m) := m.store addr [fdsTlDirty]
  (fdsRetOf ret, m)

/-- `record_write_chunk` -/
def recordWriteChunk (addr : ℕ) : FdsRet × FdsWriteOp × FdsModule cfg sz :=
  let (chunk, queue) := m.chunkQueue.getAndAdvance
  let (ret, m) := { m with chunkQueue := queue }.store (addr + op.chunkOffset.toNat) chunk.data
  let op :=
    { op with
      chunkOffset := op.chunkOffset + chunk.lengthWords
      chunkCount := op.chunkCount - 1 }
  (fdsRetOf ret, if op.chunkCount = 0 then { op with step := .headerFinalize } else op, m)

/-- The steps of `write_execute` behind `FDS_OP_WRITE_FIND_RECORD`. -/
def writeStep (addr : ℕ) : FdsRet × FdsWriteOp × FdsModule cfg sz :=
  match op.step with
  | .findRecord | .headerBegin => recordHeaderWriteBegin op m addr
  | .recordId => recordHeaderWriteId op m addr
  | .chunks => recordWriteChunk op m addr
  | .headerFinalize => recordHeaderWriteFinalize op m addr
  | .flagDirty =>
    let (ret, m) := recordHeaderFlagDirty m m.desc.pRecord
    (ret, { op with step := .done }, m)
  | .done => (fdsOpCompleted, op, m)

/-- `page_offsets_update` of the operation. -/
def offsetsUpdate : FdsModule cfg sz :=
  { m with fds := pageOffsetsUpdate m.fds op.page op.header.lengthWords }

/-- A step of `write_execute`: an operation that has failed or is complete gives up its space. -/
def writeAdvance : FdsRet × FdsWriteOp × FdsModule cfg sz :=
  let page := m.fds.pages.get op.page
  match writeStep op m (page.pAddr + page.writeOffset.toNat) with
  | (ret, op, m) => if ret ≠ fdsOpExecuting then (ret, op, offsetsUpdate op m) else (ret, op, m)

/-- `write_execute` -/
def writeExecute (prevRet : FdsRet) : FdsRet × FdsWriteOp × FdsModule cfg sz :=
  if prevRet ≠ fsSuccess then (fdsErrOperationTimeout, op, offsetsUpdate op m)
  else if op.step = .findRecord then
    let desc := { m.desc with pRecord := 0, recordId := op.recordToDelete }
    match recordFindByDesc m.fds desc with
    | none => (fdsErrNotFound, op, { m with desc := desc })
    | some (_, desc) => writeAdvance op { m with desc := desc }
  else writeAdvance op m

/-! ## §6 Deleting -/

/-- `m_pages[page].can_gc = true` -/
def Fds.setCanGc (s : Fds cfg) (page : ℕ) : Fds cfg := s.modifyPage page fun p => { p with canGc := true }

/-- `record_find_and_delete` -/
def recordFindAndDelete (op : FdsDeleteOp) : FdsRet × FdsDeleteOp × FdsModule cfg sz :=
  match recordFindByDesc m.fds ⟨op.recordToDelete, 0, 0, false⟩ with
  | some (page, desc) =>
    let header := fdsHeaderAt m.fds.flash desc.pRecord
    let (ret, m) := recordHeaderFlagDirty m desc.pRecord
    (ret, { op with fileId := header.fileId, recordKey := header.recordKey },
      { m with fds := m.fds.setCanGc page })
  | none => (fdsErrNotFound, op, m)

/-- `file_find_and_delete` -/
def fileFindAndDelete (op : FdsDeleteOp) : FdsRet × FdsModule cfg sz :=
  match recordFind m.fds op.fileId m.tok with
  | some tok =>
    let (ret, m) := recordHeaderFlagDirty { m with tok := tok } tok.pAddr
    (ret, { m with fds := m.fds.setCanGc tok.page })
  | none => (fdsErrNotFound, { m with tok := ⟨0, 0⟩ })

/-- `delete_execute` -/
def deleteExecute (prevRet : FdsRet) (op : FdsDeleteOp) :
    FdsRet × FdsDeleteOp × FdsModule cfg sz :=
  if prevRet ≠ fsSuccess then (fdsErrOperationTimeout, op, m)
  else
    match op.step with
    | .recordFlagDirty =>
      match recordFindAndDelete m op with
      | (ret, op, m) => (ret, { op with step := .done }, m)
    | .fileFlagDirty =>
      match fileFindAndDelete m op with
      | (ret, m) => (if ret = fdsErrNotFound then fdsOpCompleted else ret, op, m)
    | .done => (fdsOpCompleted, op, m)

end NordicEsb
