import NordicEsb.Lib.WordMemory

/-!
# The Front End of the Logger

`nrf_log_frontend.c` with deferred logs: the circular buffer of entries, the calls that write to it,
and `nrf_log_frontend_dequeue`. The indices are 32 bit numbers that are never reset. A call takes a
copy of the write index, allocates in a critical region, and then stores at the copy, so that the
stores are given here as a function of the copy.
-/

namespace NordicEsb.Log

open WordMemory

/-! ## §1 Data -/

/-- What the build sets: the size of the buffer as a power of two (its bytes have 32 bit addresses),
    whether entries have a time stamp, and the address of `m_overflow_info`, which is in flash. -/
structure LogConfig where
  bits : ℕ
  usesTimestamp : Bool
  mOverflowInfo : ℕ
  bits_lt : bits < 30
  mOverflowInfo_lt : mOverflowInfo < 2 ^ 22

/-- `NRF_LOG_DEFERRED_BUFSIZE` -/
def LogConfig.size (cfg : LogConfig) : ℕ := 2 ^ cfg.bits

/-- `HEADER_SIZE` -/
def LogConfig.headerSize (cfg : LogConfig) : ℕ := if cfg.usesTimestamp then 2 else 1

/-- `log_data_t`, with the buffer as bytes. -/
structure LogData where
  wrIdx : ℕ
  rdIdx : ℕ
  buffer : ℕ → ℕ

variable (cfg : LogConfig)

/-- `m_log_data.wr_idx - m_log_data.rd_idx` -/
def LogData.used (s : LogData) : ℕ := (s.wrIdx + 2 ^ 32 - s.rdIdx) % 2 ^ 32

/-- The words that are not in use: `(m_log_data.mask + 1) - (m_log_data.wr_idx - m_log_data.rd_idx)` -/
def LogData.available (s : LogData) : ℕ := (cfg.size + 2 ^ 32 - s.used) % 2 ^ 32

/-- Move the write index. -/
def LogData.advance (s : LogData) (n : ℕ) : LogData :=
  { s with wrIdx := (s.wrIdx + n) % 2 ^ 32 }

/-- Carry out stores. -/
def LogData.write (s : LogData) (ws : List Write) : LogData :=
  { s with buffer := applyAll s.buffer ws }

/-- `CEIL_DIV` -/
def ceilDiv (a b : ℕ) : ℕ := (a + b - 1) / b

/-! ## §2 Headers -/

/-- `HEADER_TYPE_STD`, `HEADER_TYPE_HEXDUMP` and `HEADER_TYPE_PUSHED` -/
def headerTypeStd : ℕ := 1
def headerTypeHexdump : ℕ := 2
def headerTypePushed : ℕ := 0

/-- `NRF_LOG_LEVEL_INTERNAL` -/
def nrfLogLevelInternal : ℕ := 5

/-- `(SEVERITY) & NRF_LOG_LEVEL_MASK` -/
def levelOf (severity : ℕ) : ℕ := severity % 8

/-- `(SEVERITY) & NRF_LOG_RAW`, where `NRF_LOG_RAW` is `1 << 4`, in a field of one bit. -/
def rawField (severity : ℕ) : ℕ := severity / 16 % 2 * 16 % 2

/-- `STD_HEADER_DEF` -/
def stdHeader (pStr severity nargs : ℕ) : ℕ :=
  headerTypeStd + 2 ^ 2 * rawField severity + 2 ^ 3 * levelOf severity + 2 ^ 6 * (nargs % 2 ^ 4) +
    2 ^ 10 * (pStr % 2 ^ 22)

/-- `HEXDUMP_HEADER_DEF`, with an offset. -/
def hexdumpHeader (severity offset length : ℕ) : ℕ :=
  headerTypeHexdump + 2 ^ 2 * rawField severity + 2 ^ 3 * levelOf severity +
    2 ^ 6 * (offset % 2 ^ 10) + 2 ^ 22 * (length % 2 ^ 10)

/-- `PUSHED_HEADER_DEF` -/
def pushedHeader (offset length : ℕ) : ℕ :=
  headerTypePushed + 2 ^ 6 * (offset % 2 ^ 10) + 2 ^ 22 * (length % 2 ^ 10)

/-- `generic.type`, `generic.raw` and the fields `severity`, `nargs`, `addr`, `offset` and `len` of a
    header. -/
def headerType (header : ℕ) : ℕ := header % 2 ^ 2
def headerRaw (header : ℕ) : ℕ := header / 2 ^ 2 % 2
def headerSeverity (header : ℕ) : ℕ := header / 2 ^ 3 % 2 ^ 3
def headerNargs (header : ℕ) : ℕ := header / 2 ^ 6 % 2 ^ 4
def headerAddr (header : ℕ) : ℕ := header / 2 ^ 10 % 2 ^ 22
def headerOffset (header : ℕ) : ℕ := header / 2 ^ 6 % 2 ^ 10
def headerLen (header : ℕ) : ℕ := header / 2 ^ 22 % 2 ^ 10

/-- `header.hexdump.offset = offset` -/
def setHeaderOffset (header offset : ℕ) : ℕ :=
  header - 2 ^ 6 * headerOffset header + 2 ^ 6 * (offset % 2 ^ 10)

/-! ## §3 Allocation -/

/-- `m_log_data.buffer[wr_idx++ & mask] = v`, for one word after the other. -/
def storeWords (wrIdx : ℕ) (words : List ℕ) : List Write := ringWords cfg.size wrIdx words

/-- A header, and the time stamp if there is one. -/
def headerWords (header timestamp : ℕ) : List ℕ :=
  header :: if cfg.usesTimestamp then [timestamp] else []

/-- The overflow entry. -/
def overflowWrites (wrIdx timestamp : ℕ) : List Write :=
  storeWords cfg wrIdx (headerWords cfg (stdHeader cfg.mOverflowInfo nrfLogLevelInternal 0) timestamp)

/-- `buf_prealloc`: whether there is room, and an overflow entry if there is none. -/
def bufPrealloc (nargs timestamp : ℕ) (s : LogData) : Bool × LogData :=
  let nargs := nargs + cfg.headerSize
  if nargs + cfg.headerSize > s.available cfg then
    (false,
      if s.available cfg ≥ cfg.headerSize then
        (s.write (overflowWrites cfg s.wrIdx timestamp)).advance cfg.headerSize
      else s)
  else (true, s.advance nargs)

/-- The part of `cont_buf_prealloc` that allocates: the word where the string goes and the offset. -/
def contBufTake (len32 : ℕ) (s : LogData) : Option (ℕ × ℕ) × LogData :=
  let availableWords := cfg.size - s.wrIdx % cfg.size
  if len32 ≤ availableWords then (some ((s.wrIdx + 1) % cfg.size, 0), s.advance len32)
  else if len32 < s.rdIdx % cfg.size then
    (some (0, availableWords - 1), s.advance (len32 + availableWords - 1))
  else (none, s)

/-- `cont_buf_prealloc` -/
def contBufPrealloc (len32 : ℕ) (s : LogData) : Option (ℕ × ℕ) × LogData :=
  let r := contBufTake cfg (len32 + 1) s
  (if r.2.available cfg < cfg.headerSize then none else r.1, r.2)

/-! ## §4 Calls -/

/-- The length of a string in the buffer, in words. -/
def stringWords (pStr : List ℕ) : ℕ := ceilDiv (pStr.length + 1) 4

/-- What `nrf_log_push` stores: the header, and the string with its end. -/
def pushWrites (wrIdx : ℕ) (pStr : List ℕ) (pDstStr offset : ℕ) : List Write :=
  .word (wrIdx % cfg.size) (pushedHeader offset (stringWords pStr)) ::
    bytesWrites (4 * pDstStr) (pStr ++ [0])

/-- `nrf_log_push`: the word where the string is, and nothing is stored if there is none. -/
def nrfLogPush (pStr : List ℕ) (s : LogData) : Option ℕ × LogData :=
  let wrIdx := s.wrIdx
  let r := contBufPrealloc cfg (stringWords pStr) s
  (r.1.map Prod.fst, r.2.write (r.1.elim [] fun p => pushWrites cfg wrIdx pStr p.1 p.2))

/-- What a standard call stores. -/
def stdWrites (wrIdx severity pStr : ℕ) (args : List ℕ) (timestamp : ℕ) : List Write :=
  storeWords cfg wrIdx (headerWords cfg (stdHeader pStr severity args.length) timestamp ++ args)

/-- The standard calls, which differ in the number of their arguments. -/
def frontendStd (severity pStr : ℕ) (args : List ℕ) (timestamp : ℕ) (s : LogData) : LogData :=
  let wrIdx := s.wrIdx
  let r := bufPrealloc cfg args.length timestamp s
  r.2.write (if r.1 then stdWrites cfg wrIdx severity pStr args timestamp else [])

/-- `nrf_log_frontend_std_0` -/
def nrfLogFrontendStd0 (severity pStr : ℕ) := frontendStd cfg severity pStr []

/-- `nrf_log_frontend_std_1` -/
def nrfLogFrontendStd1 (severity pStr val0 : ℕ) := frontendStd cfg severity pStr [val0]

/-- `nrf_log_frontend_std_2` -/
def nrfLogFrontendStd2 (severity pStr val0 val1 : ℕ) := frontendStd cfg severity pStr [val0, val1]

/-- `nrf_log_frontend_std_3` -/
def nrfLogFrontendStd3 (severity pStr val0 val1 val2 : ℕ) :=
  frontendStd cfg severity pStr [val0, val1, val2]

/-- `nrf_log_frontend_std_4` -/
def nrfLogFrontendStd4 (severity pStr val0 val1 val2 val3 : ℕ) :=
  frontendStd cfg severity pStr [val0, val1, val2, val3]

/-- `nrf_log_frontend_std_5` -/
def nrfLogFrontendStd5 (severity pStr val0 val1 val2 val3 val4 : ℕ) :=
  frontendStd cfg severity pStr [val0, val1, val2, val3, val4]

/-- `nrf_log_frontend_std_6` -/
def nrfLogFrontendStd6 (severity pStr val0 val1 val2 val3 val4 val5 : ℕ) :=
  frontendStd cfg severity pStr [val0, val1, val2, val3, val4, val5]

/-- `sizeof(uint32_t) * (m_log_data.mask + 1 - (idx & mask))` -/
def space0 (idx : ℕ) : ℕ := 4 * (cfg.size - idx % cfg.size)

/-- The two copies of a hex dump. -/
def dataWrites (wrIdx : ℕ) (pData : List ℕ) : List Write :=
  if pData.length ≤ space0 cfg wrIdx then bytesWrites (4 * (wrIdx % cfg.size)) pData
  else
    bytesWrites (4 * (wrIdx % cfg.size)) (pData.take (space0 cfg wrIdx)) ++
      bytesWrites 0 (pData.drop (space0 cfg wrIdx))

/-- What `nrf_log_frontend_hexdump` stores. -/
def hexdumpWrites (wrIdx severity pStr : ℕ) (pData : List ℕ) (timestamp : ℕ) : List Write :=
  storeWords cfg wrIdx (headerWords cfg (hexdumpHeader severity 0 pData.length) timestamp ++ [pStr]) ++
    dataWrites cfg (wrIdx + cfg.headerSize + 1) pData

/-- `nrf_log_frontend_hexdump` -/
def nrfLogFrontendHexdump (severity pStr : ℕ) (pData : List ℕ) (timestamp : ℕ) (s : LogData) :
    LogData :=
  let wrIdx := s.wrIdx
  let r := bufPrealloc cfg (ceilDiv pData.length 4 + 1) timestamp s
  r.2.write (if r.1 then hexdumpWrites cfg wrIdx severity pStr pData timestamp else [])

/-! ## §5 Dequeuing -/

/-- What is passed to a handler. -/
inductive Passed where
  | std (severity : ℕ) (timestamp : Option ℕ) (pStr : ℕ) (args : List ℕ)
  | hexdump (severity : ℕ) (timestamp : Option ℕ) (pStr offset : ℕ) (buf0 buf1 : List ℕ)
deriving DecidableEq, Repr

/-- What the handlers answer: whether the entry was processed, and how far the hex dump was. -/
structure Answer where
  stdDone : Bool
  hexOffset : ℕ
deriving DecidableEq, Repr

/-- `buffer_is_empty` -/
def LogData.bufferIsEmpty (s : LogData) : Bool := s.rdIdx == s.wrIdx

/-- `buffer[idx & mask]` -/
def LogData.wordAt (s : LogData) (idx : ℕ) : ℕ := word s.buffer (idx % cfg.size)

/-- The loop that skips pushed strings, from the header at `idx` on: the headers that it has read,
    the last of them first. The index is a 32 bit number, so that a loop of more than `2 ^ 32` rounds
    never ends. -/
def skipPushed (s : LogData) : ℕ → List ℕ → ℕ → Option (List ℕ)
  | 0, _, _ => none
  | fuel + 1, read, idx =>
    let header := s.wordAt cfg idx
    if headerType header = headerTypePushed then
      skipPushed s fuel (idx :: read) ((idx + 1 + headerLen header + headerOffset header) % 2 ^ 32)
    else some (idx :: read)

/-- The headers that a dequeue reads, the last of them first. -/
def LogData.headersRead (s : LogData) : Option (List ℕ) := skipPushed cfg s (2 ^ 32 + 1) [] s.rdIdx

/-- The pointers that the hex dump handler gets, with lengths of 8 bits where there are two. -/
def hexdumpParts (s : LogData) (idx length : ℕ) : List ℕ × List ℕ :=
  if length > space0 cfg idx then
    (readBytes s.buffer (4 * (idx % cfg.size)) (space0 cfg idx % 2 ^ 8),
      readBytes s.buffer 0 ((length - space0 cfg idx) % 2 ^ 8))
  else (readBytes s.buffer (4 * (idx % cfg.size)) length, [])

/-- The entry with its header at `idx`: what is passed, and the buffer after the answer. -/
def dequeueEntry (answer : Answer) (s : LogData) (headerRdIdx : ℕ) : Passed × LogData :=
  let header := s.wordAt cfg headerRdIdx
  let timestamp := if cfg.usesTimestamp then some (s.wordAt cfg (headerRdIdx + 1)) else none
  let timestamp := if headerRaw header = 1 then none else timestamp
  let rdIdx := headerRdIdx + cfg.headerSize
  if headerType header = headerTypeHexdump then
    let pStr := s.wordAt cfg rdIdx
    let length := headerLen header
    let parts := hexdumpParts cfg s (rdIdx + 1) length
    (.hexdump (headerSeverity header) timestamp pStr (headerOffset header) parts.1 parts.2,
      if answer.hexOffset = length then
        { s with rdIdx := (rdIdx + 1 + ceilDiv length 4) % 2 ^ 32 }
      else
        s.write [.word (headerRdIdx % cfg.size) (setHeaderOffset header answer.hexOffset)])
  else
    let nargs := headerNargs header
    let args := (List.range nargs).map fun i => s.wordAt cfg (rdIdx + i)
    (.std (headerSeverity header) timestamp (headerAddr header) args,
      if answer.stdDone then { s with rdIdx := (rdIdx + nargs) % 2 ^ 32 } else s)

/-- `nrf_log_frontend_dequeue`: nothing if its loop does not end; else what was passed, if anything,
    and the buffer. -/
def nrfLogFrontendDequeue (answer : Answer) (s : LogData) : Option (Option Passed × LogData) :=
  if s.bufferIsEmpty then some (none, s)
  else
    (s.headersRead cfg).map fun read =>
      let r := dequeueEntry cfg answer s (read.headD 0)
      (some r.1, r.2)

end NordicEsb.Log
