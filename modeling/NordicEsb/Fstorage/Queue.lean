import NordicEsb.Lib.FixedArray
import NordicEsb.Lib.Machine
import NordicEsb.Lib.RingSegment

/-!
# The Queue of fstorage

Operations on the flash wait in a ring of `FS_QUEUE_SIZE` elements. The head of the queue is handed
to the SoftDevice, a store in chunks and an erasure page by page; a system event reports the end
of each flash operation, but not whose operation it was.

- a callback runs with `FS_FLAG_PROCESSING` set, so that `queue_start` does nothing in it; the
  calls that the application makes there are the `calls` of an event
- the SoftDevice executes one flash operation at a time, and reports its end by one event
- `tag`, `accepted`, `callbacks` and `written` record the run and are not in the source
-/

namespace NordicEsb.Fstorage

/-! ## §1 Operations -/

/-- The configuration of the module. -/
structure Settings where
  /-- `FS_QUEUE_SIZE` -/
  queueSize : ℕ
  queueSize_pos : 0 < queueSize
  /-- `FS_OP_MAX_RETRIES`; `m_retry_count` is a `uint8_t`. -/
  opMaxRetries : ℕ
  opMaxRetries_lt : opMaxRetries < 255
  /-- `FS_MAX_WRITE_SIZE_WORDS` -/
  maxWriteSizeWords : ℕ
  maxWriteSizeWords_pos : 0 < maxWriteSizeWords
  /-- `FS_PAGE_SIZE`, in bytes. -/
  pageSize : ℕ

/-- `fs_config_t`: the flash space of an application, in bytes. -/
structure FsConfig where
  startAddr : ℕ
  endAddr : ℕ
deriving DecidableEq, Repr, Inhabited

/-- `fs_ret_t` -/
inductive FsRet where
  | success
  | errNotInitialized
  | errInvalidCfg
  | errNullArg
  | errInvalidArg
  | errInvalidAddr
  | errUnalignedAddr
  | errQueueFull
  | errOperationTimeout
  | errInternal
deriving DecidableEq, Repr

/-- The operation code of `fs_op_t` and the union behind it. -/
inductive OpBody where
  | none
  | store (dest src lengthWords offset : ℕ)
  | erase (page : BitVec 16) (pagesErased pagesToErase : ℕ)
deriving DecidableEq, Repr, Inhabited

/-- `fs_op_t`; `tag` counts the operations that have been accepted. -/
structure Op where
  config : FsConfig
  context : ℕ
  body : OpBody
  tag : ℕ
deriving DecidableEq, Repr, Inhabited

namespace Op

/-- The words to be written, or the pages to be erased. -/
def total (op : Op) : ℕ :=
  match op.body with
  | .none => 0
  | .store _ _ lengthWords _ => lengthWords
  | .erase _ _ pagesToErase => pagesToErase

/-- Those that are done. -/
def progress (op : Op) : ℕ :=
  match op.body with
  | .none => 0
  | .store _ _ _ offset => offset
  | .erase _ pagesErased _ => pagesErased

/-- The operation as it was requested. -/
def request (op : Op) : Op :=
  match op.body with
  | .none => op
  | .store dest src lengthWords _ => { op with body := .store dest src lengthWords 0 }
  | .erase page pagesErased pagesToErase =>
    { op with body := .erase (page - BitVec.ofNat 16 pagesErased) 0 pagesToErase }

end Op

/-! ## §2 The module and the SoftDevice -/

/-- The flash operation that the SoftDevice executes. -/
inductive SdOp where
  /-- The words or pages `first, …, first + count - 1` of the operation `tag`. -/
  | ours (tag first count : ℕ)
  /-- An operation of another module. -/
  | other
deriving DecidableEq, Repr

/-- What a flash call of the SoftDevice returns. -/
inductive SdRet where
  | success
  | errorBusy
  /-- Any other error. -/
  | error
deriving DecidableEq, Repr

/-- System events. -/
inductive SysEvt where
  | flashOperationSuccess
  | flashOperationError
  | unrelated
deriving DecidableEq, Repr

variable {cfg : Settings}

/-- The state of the module, of the SoftDevice, and what has happened. -/
structure Fs (cfg : Settings) where
  /-- `FS_FLAG_INITIALIZED` -/
  initialized : Bool
  /-- `FS_FLAG_PROCESSING` -/
  processing : Bool
  /-- `FS_FLAG_FLASH_REQ_PENDING` -/
  flashReqPending : Bool
  /-- `m_queue.op` -/
  op : FixedArray cfg.queueSize Op
  rp : ℕ
  count : ℕ
  retryCount : ℕ
  outstanding : Option SdOp
  accepted : List Op
  callbacks : List (Op × FsRet)
  /-- The words and pages that flash operations have written or erased, by operation. -/
  written : List (ℕ × ℕ)

/-- Static variables are zero. -/
def Fs.reset (cfg : Settings) : Fs cfg where
  initialized := false
  processing := false
  flashReqPending := false
  op := default
  rp := 0
  count := 0
  retryCount := 0
  outstanding := none
  accepted := []
  callbacks := []
  written := []

/-- The operations in the queue, oldest first. -/
def Fs.queue (s : Fs cfg) : List Op := (ringSegment cfg.queueSize s.rp s.count).map s.op.get

/-- `&m_queue.op[m_queue.rp]` -/
def Fs.head (s : Fs cfg) : Op := s.op.get s.rp

/-- A flash call for `op`: the SoftDevice returns `ret`, or is busy. -/
def sdFlash (ret : SdRet) (op : SdOp) (s : Fs cfg) : SdRet × Fs cfg :=
  match ret with
  | .error => (.error, s)
  | .errorBusy => (.errorBusy, s)
  | .success =>
    if s.outstanding = none then (.success, { s with outstanding := some op })
    else (.errorBusy, s)

/-- The flash operation ends, and the SoftDevice reports it. -/
def sdReport (evt : SysEvt) (s : Fs cfg) : Fs cfg :=
  match evt, s.outstanding with
  | .unrelated, _ => s
  | .flashOperationSuccess, some (.ours tag first count) =>
    { s with
      outstanding := none
      written := s.written ++ (List.range count).map fun i => (tag, first + i) }
  | _, _ => { s with outstanding := none }

/-! ## §3 Requests -/

/-- A call of `fs_store` or `fs_erase`; `none` stands for a configuration that `check_config`
    rejects, and `NULL` is the address 0. -/
inductive FsCall where
  | store (config : Option FsConfig) (dest src lengthWords context : ℕ)
  | erase (config : Option FsConfig) (pageAddr numPages context : ℕ)
deriving DecidableEq, Repr

/-- The checks of `fs_store` and `fs_erase`, and the operation that is queued. -/
def fsCheck (cfg : Settings) (initialized : Bool) : FsCall → Except FsRet Op
  | .store config dest src lengthWords context =>
    if initialized = false then .error .errNotInitialized
    else
      match config with
      | none => .error .errInvalidCfg
      | some config =>
        if src = 0 ∨ dest = 0 then .error .errNullArg
        else if src % 4 ≠ 0 ∨ dest % 4 ≠ 0 then .error .errUnalignedAddr
        else if config.startAddr > dest ∨ config.endAddr < dest + 4 * lengthWords then
          .error .errInvalidAddr
        else if lengthWords = 0 then .error .errInvalidArg
        else .ok ⟨config, context, .store dest src lengthWords 0, 0⟩
  | .erase config pageAddr numPages context =>
    if initialized = false then .error .errNotInitialized
    else
      match config with
      | none => .error .errInvalidCfg
      | some config =>
        if pageAddr = 0 then .error .errNullArg
        else if pageAddr % cfg.pageSize ≠ 0 then .error .errUnalignedAddr
        else if pageAddr < config.startAddr ∨ pageAddr + cfg.pageSize * numPages > config.endAddr
          then .error .errInvalidAddr
        else if numPages = 0 then .error .errInvalidArg
        else .ok ⟨config, context, .erase (BitVec.ofNat 16 (pageAddr / cfg.pageSize)) 0 numPages, 0⟩

/-- `queue_get_next_free`: the index of the element, if there is one. -/
def queueGetNextFree (s : Fs cfg) : Option (ℕ × Fs cfg) :=
  if s.count = cfg.queueSize then none
  else
    let idx :=
      if s.rp + s.count < cfg.queueSize then s.rp + s.count else s.rp + s.count - cfg.queueSize
    some (idx, { s with count := s.count + 1, op := s.op.set idx default })

/-- `fs_store` and `fs_erase` up to `queue_start`. -/
def fsEnqueue (call : FsCall) (s : Fs cfg) : FsRet × Fs cfg :=
  match fsCheck cfg s.initialized call with
  | .error err => (err, s)
  | .ok op =>
    match queueGetNextFree s with
    | none => (.errQueueFull, s)
    | some (idx, s) =>
      let op := { op with tag := s.accepted.length }
      (.success, { s with op := s.op.set idx op, accepted := s.accepted ++ [op] })

/-- `send_event`: the callback, and the calls that the application makes in it. -/
def sendEvent (op : Op) (result : FsRet) (calls : List FsCall) (s : Fs cfg) : Fs cfg :=
  calls.foldl (fun s call => (fsEnqueue call s).2)
    { s with callbacks := s.callbacks ++ [(op, result)] }

/-! ## §4 Execution -/

/-- `chunk_len` -/
def chunkLen (cfg : Settings) (lengthWords offset : ℕ) : ℕ :=
  if lengthWords - offset < cfg.maxWriteSizeWords then lengthWords - offset
  else cfg.maxWriteSizeWords

/-- `store_execute` and `erase_execute`; an operation of another kind is an error. -/
def execute (ret : SdRet) (op : Op) (s : Fs cfg) : SdRet × Fs cfg :=
  match op.body with
  | .none => (.error, s)
  | .store _ _ lengthWords offset =>
    sdFlash ret (.ours op.tag offset (chunkLen cfg lengthWords offset)) s
  | .erase _ pagesErased _ => sdFlash ret (.ours op.tag pagesErased 1) s

/-- `queue_advance` -/
def queueAdvance (s : Fs cfg) : Fs cfg :=
  { s with
    count := s.count - 1
    processing := if s.count - 1 = 0 then false else s.processing
    rp := if s.rp + 1 = cfg.queueSize then 0 else s.rp + 1 }

/-- `queue_process` -/
def queueProcess (ret : SdRet) (calls : List FsCall) (s : Fs cfg) : Fs cfg :=
  if s.count > 0 then
    match execute ret s.head s with
    | (.errorBusy, s) =>
      -- There is a pending flash operation which was not initiated by this module.
      { s with processing := false, flashReqPending := true }
    | (.error, s) => sendEvent s.head .errInternal calls s
    | (.success, s) => s
  else s

/-- `queue_start` -/
def queueStart (ret : SdRet) (calls : List FsCall) (s : Fs cfg) : Fs cfg :=
  if s.processing = false ∧ s.flashReqPending = false then
    queueProcess ret calls { s with processing := true }
  else s

/-- `fs_store` and `fs_erase` -/
def fsCall (call : FsCall) (ret : SdRet) (calls : List FsCall) (s : Fs cfg) : FsRet × Fs cfg :=
  match fsEnqueue call s with
  | (.success, s) => (.success, queueStart ret calls s)
  | out => out

/-- `on_operation_success` -/
def onOperationSuccess (calls : List FsCall) (s : Fs cfg) : Fs cfg :=
  let s := { s with retryCount := 0 }
  let op := s.head
  match op.body with
  | .none => s
  | .store dest src lengthWords offset =>
    let offset := offset + chunkLen cfg lengthWords offset
    let op := { op with body := .store dest src lengthWords offset }
    let s := { s with op := s.op.set s.rp op }
    if offset = lengthWords then queueAdvance (sendEvent op .success calls s) else s
  | .erase page pagesErased pagesToErase =>
    let op := { op with body := .erase (page + 1) (pagesErased + 1) pagesToErase }
    let s := { s with op := s.op.set s.rp op }
    if pagesErased + 1 = pagesToErase then queueAdvance (sendEvent op .success calls s) else s

/-- `on_operation_failure` -/
def onOperationFailure (calls : List FsCall) (s : Fs cfg) : Fs cfg :=
  let s := { s with retryCount := (s.retryCount + 1) % 256 }
  if s.retryCount > cfg.opMaxRetries then
    let s := { s with retryCount := 0 }
    queueAdvance (sendEvent s.head .errOperationTimeout calls s)
  else s

/-- The result of a flash operation that the module has initiated. -/
def onOperation (evt : SysEvt) (calls : List FsCall) (s : Fs cfg) : Fs cfg :=
  match evt with
  | .flashOperationSuccess => onOperationSuccess calls s
  | .flashOperationError => onOperationFailure calls s
  | .unrelated => s

/-- `fs_sys_event_handler` -/
def fsSysEventHandler (evt : SysEvt) (calls : List FsCall) (ret : SdRet) (calls' : List FsCall)
    (s : Fs cfg) : Fs cfg :=
  queueProcess ret calls'
    (if s.processing then onOperation evt calls s
    else if s.flashReqPending then
      { s with flashReqPending := false, processing := decide (s.count > 0) || s.processing }
    else s)

/-! ## §5 Runs -/

/-- What happens to the module: a flash call in the step returns `ret`, and `calls` and `calls'`
    are made in the callbacks of the step. -/
inductive FsEvent where
  /-- `fs_init` -/
  | init
  | call (call : FsCall) (ret : SdRet) (calls : List FsCall)
  | sysEvt (evt : SysEvt) (calls : List FsCall) (ret : SdRet) (calls' : List FsCall)
  /-- Another module hands an operation to the SoftDevice. -/
  | otherModule

namespace Fs

/-- A flash event reports the end of a flash operation. -/
def Enabled (s : Fs cfg) : FsEvent → Prop
  | .sysEvt evt _ _ _ => evt ≠ .unrelated → s.outstanding ≠ none
  | .otherModule => s.outstanding = none
  | _ => True

/-- What an event does. -/
def step (s : Fs cfg) : FsEvent → Fs cfg
  | .init => { s with initialized := true }
  | .call call ret calls => (fsCall call ret calls s).2
  | .sysEvt evt calls ret calls' => fsSysEventHandler evt calls ret calls' (sdReport evt s)
  | .otherModule => { s with outstanding := some .other }

/-- The module from its reset on. -/
def machine (cfg : Settings) : Machine (Fs cfg) FsEvent where
  start s := s = reset cfg
  enabled := Enabled
  step := step

/-- No flash call returns an error other than `NRF_ERROR_BUSY`. -/
def NoError (_ : Fs cfg) : FsEvent → Prop
  | .call _ ret _ => ret ≠ .error
  | .sysEvt _ _ ret _ => ret ≠ .error
  | _ => True

instance (s : Fs cfg) (evt : FsEvent) : Decidable ((machine cfg).enabled s evt) := by
  show Decidable (s.Enabled evt)
  cases evt <;> unfold Enabled <;> infer_instance

instance (s : Fs cfg) (evt : FsEvent) : Decidable (s.NoError evt) := by
  cases evt <;> unfold NoError <;> infer_instance

end Fs

end NordicEsb.Fstorage
