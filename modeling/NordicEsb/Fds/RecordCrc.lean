import NordicEsb.Fds.ChunkQueue
import NordicEsb.Hci.Packet

/-!
# The Build with a CRC

With `FDS_CRC_ENABLED` every record carries a CRC of its header and its data. `write_enqueue` works
it out from the chunks of the record, one after the other. `crc_verify_success` works it out from
the flash, over as many words as the header says: at the end of a write, if
`fds_verify_crc_on_writes` has asked for it, and whenever a record is opened.

- `recordCrc` is the first one, `crcVerifySuccess` the second one
- the functions of this build are those of the other one with the CRC, under its name with `Crc`
- `CrcLedger` is the module of this build, with the chunks that were accepted

**Main result** (`crcVerifySuccess_of_stored`): the two agree on a header and data that are in flash.
-/

namespace NordicEsb

variable {cfg : FdsConfig} {sz : FdsQueueSizes}

/-! ## §1 The CRC of a record -/

/-- `crc16_compute`, from a CRC to go on with, or from `NULL`. -/
def crc16ComputeFrom (pCrc : Option (BitVec 16)) (data : List HciByte) : BitVec 16 :=
  data.foldl crc16Byte (pCrc.getD 0xFFFF)

/-- **The CRC of two pieces** is that of one behind the other. -/
theorem crc16ComputeFrom_append (pCrc : Option (BitVec 16)) (xs ys : List HciByte) :
    crc16ComputeFrom (some (crc16ComputeFrom pCrc xs)) ys = crc16ComputeFrom pCrc (xs ++ ys) := by
  simp [crc16ComputeFrom, List.foldl_append]

/-- The bytes of a word in memory. -/
def bytesOfWord (w : BitVec 32) : List HciByte :=
  [w.extractLsb' 0 8, w.extractLsb' 8 8, w.extractLsb' 16 8, w.extractLsb' 24 8]

/-- The bytes of an array of words. -/
def bytesOfWords (ws : List (BitVec 32)) : List HciByte := ws.flatMap bytesOfWord

@[simp] theorem bytesOfWords_nil : bytesOfWords [] = [] := rfl

@[simp] theorem bytesOfWords_cons (w : BitVec 32) (ws : List (BitVec 32)) :
    bytesOfWords (w :: ws) = bytesOfWord w ++ bytesOfWords ws := rfl

@[simp] theorem bytesOfWords_append (ws vs : List (BitVec 32)) :
    bytesOfWords (ws ++ vs) = bytesOfWords ws ++ bytesOfWords vs := List.flatMap_append

/-- `ic.crc16` -/
def FdsHeader.crc16 (header : FdsHeader) : BitVec 16 := header.ic.extractLsb' 16 16

/-- The first six bytes of a header: the record key, the length and the file ID. -/
def FdsHeader.firstBytes (header : FdsHeader) : List HciByte :=
  (bytesOfWords [header.tl, header.ic]).take 6

/-- The CRC that `write_enqueue` computes. -/
def recordCrc (header : FdsHeader) (chunks : List FdsChunk) : BitVec 16 :=
  let crc := crc16ComputeFrom none header.firstBytes
  let crc := crc16ComputeFrom (some crc) (bytesOfWord header.recordId)
  chunks.foldl (fun crc c => crc16ComputeFrom (some crc) (bytesOfWords c.data)) crc

/-- `crc_verify_success` of the record at `pData`. -/
def crcVerifySuccess (f : Flash 32) (crc lenWords : BitVec 16) (pData : ℕ) : Bool :=
  let computedCrc := crc16ComputeFrom none ((bytesOfWords (f.read pData 2)).take 6)
  -- The CRC itself is left out.
  let computedCrc := crc16ComputeFrom (some computedCrc)
    (bytesOfWords (f.read (pData + 2) (1 + lenWords.toNat)))
  computedCrc == crc

/-- The words of a list of chunks. -/
def chunkWords (cs : List FdsChunk) : List (BitVec 32) := cs.flatMap FdsChunk.data

@[simp] theorem chunkWords_nil : chunkWords [] = [] := rfl

@[simp] theorem chunkWords_append (cs cs' : List FdsChunk) :
    chunkWords (cs ++ cs') = chunkWords cs ++ chunkWords cs' := List.flatMap_append

@[simp] theorem length_chunkWords (cs : List FdsChunk) :
    (chunkWords cs).length = chunksSize cs := by
  unfold chunkWords chunksSize
  rw [List.length_flatMap]

/-- **The chunks one by one** have the CRC of all their words. -/
theorem recordCrc_eq (header : FdsHeader) (cs : List FdsChunk) :
    recordCrc header cs = crc16ComputeFrom none
      (header.firstBytes ++ bytesOfWords (header.recordId :: chunkWords cs)) := by
  have hchunks : ∀ (cs : List FdsChunk) (bytes : List HciByte),
      cs.foldl (fun crc c => crc16ComputeFrom (some crc) (bytesOfWords c.data))
        (crc16ComputeFrom none bytes) = crc16ComputeFrom none (bytes ++ bytesOfWords (chunkWords cs)) := by
    intro cs
    induction cs with
    | nil => simp
    | cons c cs ih =>
      intro bytes
      rw [List.foldl_cons, crc16ComputeFrom_append, ih]
      simp [chunkWords]
  unfold recordCrc
  dsimp only
  rw [crc16ComputeFrom_append, hchunks]
  simp

/-- **What is in flash is accepted**: the header, and data of the length that it says. -/
theorem crcVerifySuccess_of_stored {f : Flash 32} {a : ℕ} {header : FdsHeader}
    {cs : List FdsChunk} (hheader : fdsHeaderAt f a = header)
    (hdata : f.read (a + 3) header.lengthWords.toNat = chunkWords cs)
    (hcrc : header.crc16 = recordCrc header cs) :
    crcVerifySuccess f header.crc16 header.lengthWords a = true := by
  have htl : f a = header.tl := congrArg FdsHeader.tl hheader
  have hic : f (a + 1) = header.ic := congrArg FdsHeader.ic hheader
  have hid : f (a + 2) = header.recordId := congrArg FdsHeader.recordId hheader
  have hfirst : f.read a 2 = [header.tl, header.ic] := by
    rw [Flash.read_succ, Flash.read_succ, Flash.read_zero, htl, hic]
  have hrest : f.read (a + 2) (1 + header.lengthWords.toNat) =
      header.recordId :: chunkWords cs := by
    rw [Nat.add_comm 1, Flash.read_succ, hid]
    exact congrArg _ hdata
  unfold crcVerifySuccess
  dsimp only
  rw [hfirst, hrest, crc16ComputeFrom_append, hcrc, recordCrc_eq]
  exact beq_self_eq_true _

/-! ## §2 Writing -/

def fdsErrCrcCheckFailed : FdsRet := 13

/-- The second word of a header, from the file ID and the CRC. -/
def icWordCrc (fileId crc : BitVec 16) : BitVec 32 := crc ++ fileId

section Header

variable (fileId crc crc' : BitVec 16) (tl recordId : BitVec 32)

@[simp] theorem FdsHeader.crc16_icWordCrc :
    (⟨tl, icWordCrc fileId crc, recordId⟩ : FdsHeader).crc16 = crc :=
  BitVec.extractLsb'_append_eq_left

@[simp] theorem FdsHeader.fileId_icWordCrc :
    (⟨tl, icWordCrc fileId crc, recordId⟩ : FdsHeader).fileId = fileId :=
  BitVec.extractLsb'_append_eq_right

/-- The CRC is behind the first six bytes. -/
theorem FdsHeader.firstBytes_icWordCrc :
    (⟨tl, icWordCrc fileId crc, recordId⟩ : FdsHeader).firstBytes =
      (⟨tl, icWordCrc fileId crc', recordId⟩ : FdsHeader).firstBytes := by
  have hlow : ∀ c start, start + 8 ≤ 16 →
      (icWordCrc fileId c).extractLsb' start 8 = fileId.extractLsb' start 8 :=
    fun c start h => BitVec.extractLsb'_append_eq_of_add_le h
  unfold FdsHeader.firstBytes
  simp [bytesOfWord, hlow]

/-- **The CRC does not depend on what the header has in its place.** -/
theorem recordCrc_icWordCrc (cs : List FdsChunk) :
    recordCrc ⟨tl, icWordCrc fileId crc, recordId⟩ cs =
      recordCrc ⟨tl, icWordCrc fileId crc', recordId⟩ cs := by
  unfold recordCrc
  rw [FdsHeader.firstBytes_icWordCrc fileId crc crc']

end Header

/-- The operation that `write_enqueue` initialises: the CRC is that of the header before it is set,
    and of the chunks. -/
def newWriteOpCrc (record : FdsNewRecord) (update : Option (BitVec 32)) (page : ℕ)
    (lengthWords : BitVec 16) (recordId : BitVec 32) : FdsWriteOp :=
  let op := newWriteOp record update page lengthWords recordId
  let crc := recordCrc op.header record.chunks
  { op with header := { op.header with ic := icWordCrc record.fileId crc } }

/-- `write_execute`: the CRC is verified at `FDS_OP_WRITE_DONE`. -/
def writeExecuteCrc (verifyCrc : Bool) (op : FdsWriteOp) (m : FdsModule cfg sz) (prevRet : FdsRet) :
    FdsRet × FdsWriteOp × FdsModule cfg sz :=
  match writeExecute op m prevRet with
  | (ret, op', m') =>
    if prevRet = fsSuccess ∧ op.step = .done ∧ verifyCrc = true ∧
        crcVerifySuccess m.fds.flash op.header.crc16 op.header.lengthWords
          (m.fds.writeAddr op.page) = false then
      (fdsErrCrcCheckFailed, op', m')
    else (ret, op', m')

/-- What `queue_process` calls. -/
def executeOpCrc (verifyCrc : Bool) (prevRet : FdsRet) (op : FdsOp) (m : FdsModule cfg sz) :
    FdsRet × FdsOp × FdsModule cfg sz :=
  match op with
  | .write op =>
    match writeExecuteCrc verifyCrc op m prevRet with
    | (ret, op, m) => (ret, .write op, m)
  | op => executeOp prevRet op m

/-- `queue_process`, up to the event. -/
def queueProcessCrc (verifyCrc : Bool) (result : FdsRet) (s : FdsSystem cfg sz) :
    FdsSystem cfg sz :=
  match s.ops with
  | [] => s
  | op :: ops =>
    match executeOpCrc verifyCrc result op s.module with
    | (ret, op, m) =>
      if ret = fdsOpExecuting then { s with module := m, ops := op :: ops, stage := .executing }
      else
        { s with
          module := if ret = fdsOpCompleted then m else chunkQueueSkip op m
          ops := op :: ops
          stage := .reporting
          events := s.events ++
            [⟨op, if ret = fdsOpCompleted then fdsSuccess else ret, s.began, liveHeaders m.fds⟩] }

/-- The operation at the head of the queue begins. -/
def queueBeginCrc (verifyCrc : Bool) (s : FdsSystem cfg sz) : FdsSystem cfg sz :=
  queueProcessCrc verifyCrc fsSuccess { s with began := liveHeaders s.module.fds }

/-- `queue_start` -/
def queueStartCrc (verifyCrc : Bool) (s : FdsSystem cfg sz) : FdsSystem cfg sz :=
  if s.stage = .idle then queueBeginCrc verifyCrc s else s

/-- `queue_process` behind the event. -/
def queueAdvanceCrc (verifyCrc : Bool) (s : FdsSystem cfg sz) : FdsSystem cfg sz :=
  match s.ops.tail with
  | [] => { s with ops := [], stage := .idle }
  | op :: ops => queueBeginCrc verifyCrc { s with ops := op :: ops }

/-- `write_enqueue` once there is space for the record. -/
def writeEnqueueAtCrc (verifyCrc : Bool) (record : FdsNewRecord) (update : Option (BitVec 32))
    (page : ℕ) (lengthWords : BitVec 16) (s : FdsSystem cfg sz) : FdsRet × FdsSystem cfg sz :=
  let s := s.setFds { s.module.fds with latestRecId := s.module.fds.latestRecId + 1 }
  let op := newWriteOpCrc record update page lengthWords s.module.fds.latestRecId
  match opEnqueue (.write op) record.chunks s with
  | none => (fdsErrNoSpaceInQueues, s.setFds (writeSpaceFree s.module.fds lengthWords page))
  | some s => (fdsSuccess, queueStartCrc verifyCrc s)

/-- `write_enqueue` -/
def writeEnqueueCrc (verifyCrc : Bool) (record : FdsNewRecord) (update : Option (BitVec 32))
    (tok : Option FdsReserveToken) (s : FdsSystem cfg sz) : FdsRet × FdsSystem cfg sz :=
  if record.fileId = 0xFFFF ∨ record.key = 0 then (fdsErrInvalidArg, s)
  else
    match tok with
    | some tok => writeEnqueueAtCrc verifyCrc record update tok.page tok.lengthWords s
    | none =>
      match writeSpaceReserve s.module.fds (chunksLength record.chunks) with
      | (ret, page, fds) =>
        if ret ≠ fdsSuccess then (ret, s)
        else writeEnqueueAtCrc verifyCrc record update page (chunksLength record.chunks)
          (s.setFds fds)

/-- An operation without chunks. -/
def enqueueStartCrc (verifyCrc : Bool) (op : FdsOp) (s : FdsSystem cfg sz) :
    FdsRet × FdsSystem cfg sz :=
  match opEnqueue op [] s with
  | some s => (fdsSuccess, queueStartCrc verifyCrc s)
  | none => (fdsErrNoSpaceInQueues, s)

/-- `fds_file_delete` -/
def fdsFileDeleteCrc (verifyCrc : Bool) (fileId : BitVec 16) (s : FdsSystem cfg sz) :
    FdsRet × FdsSystem cfg sz :=
  if fileId = 0xFFFF then (fdsErrInvalidArg, s)
  else enqueueStartCrc verifyCrc (.delete ⟨true, .fileFlagDirty, fileId, 0, 0⟩) s

/-- `fds_gc` -/
def fdsGcCallCrc (verifyCrc : Bool) (s : FdsSystem cfg sz) : FdsRet × FdsSystem cfg sz :=
  match opEnqueue .gc [] s with
  | some s =>
    let fds := s.module.fds
    (fdsSuccess, queueStartCrc verifyCrc
      (if fds.gc.state ≠ .begin then s.setFds { fds with gc := { fds.gc with resume := true } }
      else s))
  | none => (fdsErrNoSpaceInQueues, s)

/-- `fds_record_open`: the record is verified. -/
def fdsRecordOpenCrc (desc : FdsRecordDesc) (s : FdsSystem cfg sz) :
    FdsRet × FdsRecordDesc × FdsSystem cfg sz :=
  match recordFindByDesc s.module.fds desc with
  | some (page, desc) =>
    let header := fdsHeaderAt s.module.fds.flash desc.pRecord
    if crcVerifySuccess s.module.fds.flash header.crc16 header.lengthWords desc.pRecord = false then
      (fdsErrCrcCheckFailed, desc, s)
    else
      (fdsSuccess, { desc with recordIsOpen := true },
        s.setFds (s.module.fds.modifyPage page fun p =>
          { p with recordsOpen := p.recordsOpen + 1 }))
  | none => (fdsErrNotFound, desc, s)

/-! ## §3 The machine -/

/-- What can happen in this build. -/
inductive FdsCrcLabel where
  | fds (label : FdsLabel)
  /-- `fds_verify_crc_on_writes` -/
  | verifyCrcOnWrites (enable : Bool)
deriving DecidableEq

/-- The module of this build, with the chunks that each operation was accepted with. -/
structure CrcLedger (cfg : FdsConfig) (sz : FdsQueueSizes) where
  ledger : ChunkLedger cfg sz
  /-- `FDS_FLAG_VERIFY_CRC` -/
  verifyCrc : Bool

/-- The state after a label that both builds have. -/
def ChunkLedger.stepCrc (verifyCrc : Bool) (l : ChunkLedger cfg sz) :
    FdsLabel → ChunkLedger cfg sz
  | .write record => l.call record.chunks (writeEnqueueCrc verifyCrc record none none l.sys)
  | .writeReserved record tok =>
    l.call record.chunks (writeEnqueueCrc verifyCrc record none (some tok) l.sys)
  | .update recordId record =>
    l.call record.chunks (writeEnqueueCrc verifyCrc record (some recordId) none l.sys)
  | .delete recordId =>
    l.call [] (enqueueStartCrc verifyCrc (.delete ⟨false, .recordFlagDirty, 0, 0, recordId⟩) l.sys)
  | .fileDelete fileId => l.call [] (fdsFileDeleteCrc verifyCrc fileId l.sys)
  | .gc => l.call [] (fdsGcCallCrc verifyCrc l.sys)
  | .open desc => ⟨(fdsRecordOpenCrc desc l.sys).2.2, l.accepted⟩
  | .advance => ⟨queueAdvanceCrc verifyCrc l.sys, l.accepted.tail⟩
  | .flashDone =>
    ⟨queueProcessCrc verifyCrc fsSuccess (l.sys.setFds (flashDone l.sys.module.fds)), l.accepted⟩
  | .flashTimeout words =>
    ⟨queueProcessCrc verifyCrc fsErrOperationTimeout (l.sys.setFds { l.sys.module.fds with
      flash := flashCut l.sys.module.fds words, pending := none }), l.accepted⟩
  | label => ⟨l.sys.step label, l.accepted⟩

/-- The state after a label. -/
def CrcLedger.step (l : CrcLedger cfg sz) : FdsCrcLabel → CrcLedger cfg sz
  | .fds label => { l with ledger := l.ledger.stepCrc l.verifyCrc label }
  | .verifyCrcOnWrites enable => { l with verifyCrc := enable }

/-- When it can happen. -/
def FdsCrcLabel.Enabled (l : CrcLedger cfg sz) : FdsCrcLabel → Prop
  | .fds label => label.Enabled l.ledger.sys
  | .verifyCrcOnWrites _ => True

instance (l : CrcLedger cfg sz) (label : FdsCrcLabel) : Decidable (label.Enabled l) := by
  cases label <;> unfold FdsCrcLabel.Enabled <;> infer_instance

/-- **The module in use**, in the build with a CRC. -/
def crcMachine (cfg : FdsConfig) (sz : FdsQueueSizes) :
    Machine (CrcLedger cfg sz) FdsCrcLabel where
  start l := l.ledger.sys.Ready ∧ l.ledger.accepted = []
  enabled l label := label.Enabled l
  step := CrcLedger.step

instance (l : CrcLedger cfg sz) (label : FdsCrcLabel) :
    Decidable ((crcMachine cfg sz).enabled l label) :=
  inferInstanceAs (Decidable (label.Enabled l))

end NordicEsb
