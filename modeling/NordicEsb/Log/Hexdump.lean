import NordicEsb.Lib.Machine
import NordicEsb.Log.Reserve

/-!
# The Round Trip of a Hex Dump

A hex dump is stored as a header with its length in 10 bits, a time stamp if there is one, the address
of its string, and the bytes, which may go round the buffer. It is passed to the handler as often as
the handler needs, which answers how far it is; the header keeps the answer.

- `Stored`: the entry is in the buffer, with an offset.
- `hexMachine`: the runs from the call on. Between two dequeues there may be anything that leaves the
  words of the entry alone.
- `RoundTrip`: what each dequeue passes is the data, and the entry is released with the full length.

**Main result** (`dumpRoundTrip_iff`): this is so if and only if the length has 10 bits and, where the data
goes round the buffer, both parts have a length of 8 bits.
-/

namespace NordicEsb.Log

open WordMemory

/-! ## §1 The entry -/

/-- The arguments of `nrf_log_frontend_hexdump`, its time stamp, and where the header is. -/
structure HexEntry where
  wrIdx : ℕ
  severity : ℕ
  pStr : ℕ
  pData : List ℕ
  timestamp : ℕ

/-- The call. -/
def HexEntry.call (e : HexEntry) : LogCall := .hexdump e.severity e.pStr e.pData e.timestamp

variable (cfg : LogConfig) (e : HexEntry)

/-- The index of the first word of the data. -/
def HexEntry.dataIdx : ℕ := e.wrIdx + cfg.headerSize + 1

/-- The words that are reserved. -/
def HexEntry.words : ℕ := ceilDiv e.pData.length 4 + 1 + cfg.headerSize

/-- **The entry is in the buffer**, and its header has an offset. -/
structure Stored (offset : ℕ) (b : ℕ → ℕ) : Prop where
  header : word b (e.wrIdx % cfg.size) = hexdumpHeader e.severity offset e.pData.length
  timestamp : cfg.usesTimestamp = true → word b ((e.wrIdx + 1) % cfg.size) = e.timestamp
  string : word b ((e.wrIdx + cfg.headerSize) % cfg.size) = e.pStr
  data : ∀ k (hk : k < e.pData.length),
    b ((4 * e.dataIdx cfg + k) % (4 * cfg.size)) = e.pData[k]

/-- The buffer is the same in the words of the entry. -/
def SameWords (b b' : ℕ → ℕ) : Prop :=
  ∀ a, a / 4 ∈ ringSegment cfg.size e.wrIdx (e.words cfg) → b' a = b a

/-- The header of the entry is the one that `nrf_log_frontend_dequeue` comes to. -/
def Next (s : LogData) : Prop :=
  s.bufferIsEmpty = false ∧ ∃ skipped, s.headersRead cfg = some (e.wrIdx :: skipped)

/-! ## §2 The runs -/

/-- The log, with what the handler has answered last. -/
structure HexState where
  log : LogData
  offset : ℕ
  /-- It has answered the full length. -/
  finished : Bool

/-- What happens. -/
inductive HexEvent where
  /-- The entry is passed to the handler. -/
  | dequeue (answer : Answer)
  /-- Anything else, after which the log is this one. -/
  | other (log : LogData)

/-- The runs from the call on, until the handler has answered the full length. Its answers do not go
    back. -/
def hexMachine (s : LogData) : Machine HexState HexEvent where
  start h := h = ⟨s.call cfg e.call, 0, false⟩
  enabled h ev := h.finished = false ∧ match ev with
    | .dequeue answer =>
      Next cfg e h.log ∧ h.offset ≤ answer.hexOffset ∧ answer.hexOffset ≤ e.pData.length
    | .other log => SameWords cfg e h.log.buffer log.buffer
  step h
    | .dequeue answer =>
      { log := (nrfLogFrontendDequeue cfg answer h.log).elim h.log Prod.snd
        offset := answer.hexOffset
        finished := answer.hexOffset == e.pData.length }
    | .other log => { h with log := log }

/-- **The round trip**: what is passed is the data, with the last answer, and the entry is released if
    and only if the handler answers the full length. -/
def RoundTrip (h : HexState) : Prop :=
  h.finished = false → Next cfg e h.log → ∀ answer, ∃ buf0 buf1 log,
    nrfLogFrontendDequeue cfg answer h.log =
      some (some (.hexdump (levelOf e.severity)
        (if cfg.usesTimestamp then some e.timestamp else none) e.pStr h.offset buf0 buf1), log) ∧
    buf0 ++ buf1 = e.pData ∧
    log.rdIdx = if answer.hexOffset = e.pData.length then
        (e.wrIdx + e.words cfg) % 2 ^ 32
      else h.log.rdIdx

/-- **The lengths have room**: 10 bits for all of the data, 8 bits for each of two parts. -/
def HexFits : Prop :=
  e.pData.length < 2 ^ 10 ∧ (e.pData.length ≤ space0 cfg (e.dataIdx cfg) ∨
    space0 cfg (e.dataIdx cfg) < 2 ^ 8 ∧ e.pData.length - space0 cfg (e.dataIdx cfg) < 2 ^ 8)

instance : Decidable (HexFits cfg e) := inferInstanceAs (Decidable (_ ∧ _))

/-! ## §3 The header -/

variable {cfg e} {severity offset offset' length : ℕ} {b b' : ℕ → ℕ} {s : LogData} {h : HexState}

theorem rawField_eq (severity : ℕ) : rawField severity = 0 := by
  unfold rawField
  omega

theorem levelOf_lt (severity : ℕ) : levelOf severity < 8 := Nat.mod_lt _ (by decide)

theorem hexdumpHeader_eq (severity offset length : ℕ) : hexdumpHeader severity offset length =
    2 + 2 ^ 3 * levelOf severity + 2 ^ 6 * (offset % 2 ^ 10) + 2 ^ 22 * (length % 2 ^ 10) := by
  rw [hexdumpHeader, rawField_eq]
  rfl

theorem hexdumpHeader_lt (severity offset length : ℕ) :
    hexdumpHeader severity offset length < 2 ^ 32 := by
  have hlevel := levelOf_lt severity
  rw [hexdumpHeader_eq]
  omega

@[simp] theorem headerType_hexdumpHeader :
    headerType (hexdumpHeader severity offset length) = headerTypeHexdump := by
  rw [hexdumpHeader_eq]
  unfold headerType headerTypeHexdump
  omega

@[simp] theorem headerRaw_hexdumpHeader :
    headerRaw (hexdumpHeader severity offset length) = 0 := by
  rw [hexdumpHeader_eq]
  unfold headerRaw
  omega

@[simp] theorem headerSeverity_hexdumpHeader :
    headerSeverity (hexdumpHeader severity offset length) = levelOf severity := by
  have hlevel := levelOf_lt severity
  rw [hexdumpHeader_eq]
  unfold headerSeverity
  omega

@[simp] theorem headerOffset_hexdumpHeader :
    headerOffset (hexdumpHeader severity offset length) = offset % 2 ^ 10 := by
  have hlevel := levelOf_lt severity
  rw [hexdumpHeader_eq]
  unfold headerOffset
  omega

@[simp] theorem headerLen_hexdumpHeader :
    headerLen (hexdumpHeader severity offset length) = length % 2 ^ 10 := by
  have hlevel := levelOf_lt severity
  rw [hexdumpHeader_eq]
  unfold headerLen
  omega

/-- **The offset of a header** can be changed. -/
@[simp] theorem setHeaderOffset_hexdumpHeader :
    setHeaderOffset (hexdumpHeader severity offset length) offset' =
      hexdumpHeader severity offset' length := by
  unfold setHeaderOffset
  rw [headerOffset_hexdumpHeader, hexdumpHeader_eq, hexdumpHeader_eq]
  omega

/-! ## §4 The entry is stored -/

theorem mem_words {k : ℕ} (hk : k < e.words cfg) :
    (e.wrIdx + k) % cfg.size ∈ ringSegment cfg.size e.wrIdx (e.words cfg) :=
  mem_ringSegment.mpr ⟨k, hk, rfl⟩

theorem words_eq (cfg : LogConfig) (e : HexEntry) :
    e.words cfg = cfg.headerSize + 1 + ceilDiv e.pData.length 4 := by
  unfold HexEntry.words
  omega

/-- A byte of the data is in the words of the entry. -/
theorem data_mem_words {k : ℕ} (hk : k < e.pData.length) :
    (4 * e.dataIdx cfg + k) % (4 * cfg.size) / 4 ∈
      ringSegment cfg.size e.wrIdx (e.words cfg) := by
  have hlt := div_lt_ceilDiv hk
  have hword : (4 * e.dataIdx cfg + k) % (4 * cfg.size) / 4 =
      (e.wrIdx + (cfg.headerSize + 1 + k / 4)) % cfg.size := by
    rw [Nat.mod_mul_right_div_self, Nat.mul_add_div (by decide)]
    unfold HexEntry.dataIdx
    rw [Nat.add_assoc, Nat.add_assoc, Nat.add_assoc]
  rw [hword]
  apply mem_words
  rw [words_eq]
  omega

theorem SameWords.word_eq (h : SameWords cfg e b b') {k : ℕ} (hk : k < e.words cfg) :
    word b' ((e.wrIdx + k) % cfg.size) = word b ((e.wrIdx + k) % cfg.size) := by
  apply word_congr
  intro a ha
  exact h a (ha ▸ mem_words hk)

/-- **Changes elsewhere** do not matter. -/
theorem Stored.congr (h : Stored cfg e offset b) (hsame : SameWords cfg e b b') :
    Stored cfg e offset b' := by
  have hpos := headerSize_pos cfg
  have hwords := words_eq cfg e
  refine ⟨?_, ?_, ?_, ?_⟩
  · have hword := hsame.word_eq (k := 0) (by omega)
    rw [Nat.add_zero] at hword
    rw [hword]
    exact h.header
  · intro hts
    rw [hsame.word_eq (by omega)]
    exact h.timestamp hts
  · rw [hsame.word_eq (by omega)]
    exact h.string
  · intro k hk
    rw [hsame _ (data_mem_words hk)]
    exact h.data k hk

/-- **The offset is changed** in place. -/
theorem Stored.setOffset (h : Stored cfg e offset b) (hfits : e.words cfg ≤ cfg.size) :
    Stored cfg e offset'
      ((Write.word (e.wrIdx % cfg.size)
        (hexdumpHeader e.severity offset' e.pData.length)).apply b) := by
  have hpos := headerSize_pos cfg
  have hwords := words_eq cfg e
  -- the other words are less than a turn away from the header
  have hne : ∀ k, 0 < k → k < e.words cfg → e.wrIdx % cfg.size ≠ (e.wrIdx + k) % cfg.size :=
    fun k hk hlt => ring_ne (j := 0) hk (by omega)
  have hword : ∀ k, 0 < k → k < e.words cfg → ∀ x : Write, x.index = e.wrIdx % cfg.size →
      word (x.apply b) ((e.wrIdx + k) % cfg.size) = word b ((e.wrIdx + k) % cfg.size) := by
    intro k hk hlt x hx
    apply word_congr
    intro a ha
    apply apply_of_index_ne
    rw [hx, ha]
    exact hne k hk hlt
  refine ⟨word_apply_self (hexdumpHeader_lt ..), ?_, ?_, ?_⟩
  · intro hts
    rw [hword 1 (by omega) (by omega) _ rfl]
    exact h.timestamp hts
  · rw [hword _ hpos (by omega) _ rfl]
    exact h.string
  · intro k hk
    have hlt := div_lt_ceilDiv hk
    rw [apply_of_index_ne]
    · exact h.data k hk
    · show e.wrIdx % cfg.size ≠ (4 * e.dataIdx cfg + k) % (4 * cfg.size) / 4
      rw [Nat.mod_mul_right_div_self, Nat.mul_add_div (by decide)]
      unfold HexEntry.dataIdx
      rw [Nat.add_assoc, Nat.add_assoc]
      exact hne _ (by omega) (by omega)

/-- **What the call stores** is the entry. -/
theorem stored_hexdumpWrites (hrange : e.call.InRange) (hfits : e.words cfg ≤ cfg.size) :
    Stored cfg e 0 (applyAll b
      (hexdumpWrites cfg e.wrIdx e.severity e.pStr e.pData e.timestamp)) := by
  obtain ⟨-, hpStr, -, -, hts⟩ := hrange
  have hceil := ceilDiv_four e.pData.length
  have hwords := words_eq cfg e
  have hpos := headerSize_pos cfg
  obtain ⟨header, hheader⟩ : ∃ header, header = hexdumpHeader e.severity 0 e.pData.length :=
    ⟨_, rfl⟩
  obtain ⟨head, hhead⟩ : ∃ head, head = headerWords cfg header e.timestamp ++ [e.pStr] := ⟨_, rfl⟩
  have hlength : head.length = cfg.headerSize + 1 := by
    rw [hhead, List.length_append, length_headerWords, List.length_singleton]
  have hbound : ∀ v ∈ head, v < 2 ^ 32 := by
    intro v hv
    rw [hhead, headerWords] at hv
    have hlt : header < 2 ^ 32 := hheader ▸ hexdumpHeader_lt ..
    rcases List.mem_append.mp hv with hv | hv
    · rcases List.mem_cons.mp hv with rfl | hv
      · exact hlt
      · split at hv
        · rw [List.mem_singleton.mp hv]
          exact hts
        · cases hv
    · rw [List.mem_singleton.mp hv]
      exact hpStr
  have hwrites : hexdumpWrites cfg e.wrIdx e.severity e.pStr e.pData e.timestamp =
      ringWords cfg.size e.wrIdx head ++
        ringBytes (4 * cfg.size) (4 * e.dataIdx cfg) e.pData := by
    rw [hexdumpWrites, dataWrites_eq (by omega), ← hheader, ← hhead]
    rfl
  rw [hwrites, applyAll_append]
  -- the data is in other words than the head
  have hword : ∀ k (hk : k < head.length),
      word (applyAll (applyAll b (ringWords cfg.size e.wrIdx head))
        (ringBytes (4 * cfg.size) (4 * e.dataIdx cfg) e.pData)) ((e.wrIdx + k) % cfg.size) =
          head[k] := by
    intro k hk
    rw [word_applyAll]
    · exact word_ringWords (by omega) hbound hk
    · intro x hx
      obtain ⟨j, hj, hindex⟩ := mem_ringSegment.mp (index_ringBytes_word hx)
      rw [← hindex]
      unfold HexEntry.dataIdx
      rw [Nat.add_assoc, Nat.add_assoc]
      exact (ring_ne (by omega) (by omega)).symm
  refine ⟨?_, ?_, ?_, ?_⟩
  · have hfirst := hword 0 (by omega)
    rw [Nat.add_zero] at hfirst
    rw [hfirst, ← hheader]
    simp [hhead, headerWords]
  · intro husesTimestamp
    rw [hword 1 (by omega)]
    simp [hhead, headerWords, husesTimestamp]
  · rw [hword cfg.headerSize (by omega)]
    subst hhead
    rw [List.getElem_append_right (by rw [length_headerWords])]
    simp
  · intro k hk
    exact applyAll_ringBytes (by omega) hk

/-- A call is accepted if there is room for an overflow entry after it. -/
theorem accepted_of_room (hs : Sound cfg s)
    (hroom : s.used + e.words cfg + cfg.headerSize ≤ cfg.size) :
    (e.call.prealloc cfg s).1.isSome = true := by
  have havailable := hs.available
  have hle := hs.used_le
  unfold HexEntry.words at hroom
  have hpre : e.call.prealloc cfg s =
      grant (bufPrealloc cfg (ceilDiv e.pData.length 4 + 1) e.timestamp s) := rfl
  rw [hpre, bufPrealloc, if_neg (by omega)]
  rfl

/-- **An accepted call**: its words are reserved, and they fit into the buffer. -/
theorem prealloc_of_accepted (hs : Sound cfg s)
    (haccepted : (e.call.prealloc cfg s).1.isSome = true) :
    s.used + e.words cfg ≤ cfg.size ∧
      e.call.prealloc cfg s = (some (0, 0), s.advance (e.words cfg)) := by
  have hle := hs.used_le
  have havailable := hs.available
  have hpre : e.call.prealloc cfg s =
      grant (bufPrealloc cfg (ceilDiv e.pData.length 4 + 1) e.timestamp s) := rfl
  rw [hpre] at haccepted ⊢
  unfold HexEntry.words
  by_cases hfull :
      ceilDiv e.pData.length 4 + 1 + cfg.headerSize + cfg.headerSize > s.available cfg
  · rw [bufPrealloc, if_pos hfull] at haccepted
    cases haccepted
  · refine ⟨by omega, ?_⟩
    rw [bufPrealloc, if_neg hfull]
    rfl

/-- **The log after the call.** -/
theorem stored_call (hs : Sound cfg s) (hwrIdx : e.wrIdx = s.wrIdx) (hrange : e.call.InRange)
    (haccepted : (e.call.prealloc cfg s).1.isSome = true) :
    Stored cfg e 0 (s.call cfg e.call).buffer ∧
      (s.call cfg e.call).wrIdx = (e.wrIdx + e.words cfg) % 2 ^ 32 := by
  obtain ⟨hfits, hpre⟩ := prealloc_of_accepted hs haccepted
  rw [call_eq cfg s hrange, hpre, ← hwrIdx]
  exact ⟨stored_hexdumpWrites hrange (by omega), by rw [hwrIdx]; rfl⟩

/-! ## §5 A dequeue -/

/-- **What a dequeue passes** and what it leaves. -/
theorem Stored.dequeue (h : Stored cfg e offset s.buffer) (hnext : Next cfg e s) (answer : Answer) :
    nrfLogFrontendDequeue cfg answer s =
      some (some (.hexdump (levelOf e.severity)
        (if cfg.usesTimestamp then some e.timestamp else none) e.pStr (offset % 2 ^ 10)
        (hexdumpParts cfg s (e.dataIdx cfg) (e.pData.length % 2 ^ 10)).1
        (hexdumpParts cfg s (e.dataIdx cfg) (e.pData.length % 2 ^ 10)).2),
        if answer.hexOffset = e.pData.length % 2 ^ 10 then
          { s with rdIdx := (e.dataIdx cfg + ceilDiv (e.pData.length % 2 ^ 10) 4) % 2 ^ 32 }
        else s.write [.word (e.wrIdx % cfg.size)
          (hexdumpHeader e.severity answer.hexOffset e.pData.length)]) := by
  obtain ⟨hempty, skipped, hread⟩ := hnext
  have hheader : s.wordAt cfg e.wrIdx = hexdumpHeader e.severity offset e.pData.length := h.header
  have hstring : s.wordAt cfg (e.wrIdx + cfg.headerSize) = e.pStr := h.string
  have htimestamp : (if cfg.usesTimestamp then some (s.wordAt cfg (e.wrIdx + 1)) else none) =
      if cfg.usesTimestamp then some e.timestamp else none := by
    split
    · next hts => exact congrArg some (h.timestamp hts)
    · rfl
  have hdequeue : nrfLogFrontendDequeue cfg answer s =
      some (some (dequeueEntry cfg answer s e.wrIdx).1, (dequeueEntry cfg answer s e.wrIdx).2) := by
    unfold nrfLogFrontendDequeue
    simp [hempty, hread]
  rw [hdequeue]
  unfold dequeueEntry
  simp only [hheader, hstring, htimestamp, headerType_hexdumpHeader, headerRaw_hexdumpHeader,
    headerSeverity_hexdumpHeader, headerOffset_hexdumpHeader, headerLen_hexdumpHeader,
    setHeaderOffset_hexdumpHeader, if_true]
  rfl

/-- How many bytes are passed. -/
theorem length_hexdumpParts (s : LogData) (idx length : ℕ) :
    ((hexdumpParts cfg s idx length).1 ++ (hexdumpParts cfg s idx length).2).length =
      if length > space0 cfg idx then
        space0 cfg idx % 2 ^ 8 + (length - space0 cfg idx) % 2 ^ 8
      else length := by
  unfold hexdumpParts
  split
  · simp
  · simp

/-- **The parts are the data**, if the lengths have room. -/
theorem Stored.parts (h : Stored cfg e offset s.buffer) (hfits : HexFits cfg e)
    (hlength : e.pData.length ≤ 4 * cfg.size) :
    (hexdumpParts cfg s (e.dataIdx cfg) e.pData.length).1 ++
      (hexdumpParts cfg s (e.dataIdx cfg) e.pData.length).2 = e.pData := by
  obtain ⟨idx, hidx⟩ : ∃ idx, idx = e.dataIdx cfg := ⟨_, rfl⟩
  have hdata := h.data
  have hparts := hfits.2
  rw [← hidx] at hdata hparts ⊢
  have hmod : idx % cfg.size < cfg.size := Nat.mod_lt _ (size_pos cfg)
  have haddr := four_mul_mod cfg idx
  have hspace : space0 cfg idx = 4 * (cfg.size - idx % cfg.size) := rfl
  -- the data up to the end of the buffer, and from its beginning on
  have hfirst : ∀ k, k < space0 cfg idx →
      (4 * idx + k) % (4 * cfg.size) = 4 * (idx % cfg.size) + k := by
    intro k hk
    rw [Nat.add_mod, haddr, Nat.mod_eq_of_lt (by omega : k < 4 * cfg.size),
      Nat.mod_eq_of_lt (by omega)]
  have hsecond : ∀ k, space0 cfg idx ≤ k → k < 4 * cfg.size →
      (4 * idx + k) % (4 * cfg.size) = k - space0 cfg idx := by
    intro k hk hlt
    rw [Nat.add_mod, haddr, Nat.mod_eq_of_lt hlt, Nat.mod_eq_sub_mod (by omega),
      Nat.mod_eq_of_lt (by omega)]
    omega
  unfold hexdumpParts
  by_cases hwraps : e.pData.length > space0 cfg idx
  · obtain ⟨hlen0, hlen1⟩ := hparts.resolve_left (Nat.not_le_of_gt hwraps)
    rw [if_pos hwraps, Nat.mod_eq_of_lt hlen0, Nat.mod_eq_of_lt hlen1]
    apply List.ext_getElem
    · simp
      omega
    · intro k hk hk'
      rw [List.getElem_append]
      split
      · next hlt =>
        rw [length_readBytes] at hlt
        rw [getElem_readBytes, ← hfirst k hlt]
        exact hdata k hk'
      · next hge =>
        rw [length_readBytes] at hge
        rw [getElem_readBytes, length_readBytes, Nat.zero_add, ← hsecond k (by omega) (by omega)]
        exact hdata k hk'
  · rw [if_neg hwraps, List.append_nil]
    apply List.ext_getElem
    · exact length_readBytes
    · intro k hk hk'
      rw [getElem_readBytes, ← hfirst k (by omega)]
      exact hdata k hk'

/-! ## §6 The runs -/

/-- **A call** that fits is such an event, while the entry is in use. -/
theorem sameWords_call (hs : Sound cfg s)
    (hlive : ∀ i ∈ ringSegment cfg.size e.wrIdx (e.words cfg), i ∈ s.live cfg) {c : LogCall}
    (hrange : c.InRange) (hfits : c.Fits cfg s) :
    SameWords cfg e s.buffer (s.call cfg c).buffer := by
  intro a ha
  exact hs.call_keeps hrange hfits (hlive _ ha)

/-- **The invariant.** -/
structure HexInv (cfg : LogConfig) (e : HexEntry) (h : HexState) : Prop where
  stored : h.finished = false → Stored cfg e h.offset h.log.buffer
  offset_le : h.offset ≤ e.pData.length

/-- **One event.** -/
theorem HexInv.step {ev : HexEvent} (hinv : HexInv cfg e h) (hfits : HexFits cfg e)
    (hwords : e.words cfg ≤ cfg.size) (hen : (hexMachine cfg e s).enabled h ev) :
    HexInv cfg e ((hexMachine cfg e s).step h ev) := by
  obtain ⟨hunfinished, hen⟩ := hen
  have hstored := hinv.stored hunfinished
  cases ev with
  | dequeue answer =>
    obtain ⟨hnext, -, hle⟩ := hen
    refine ⟨?_, hle⟩
    intro hmore
    have hne : answer.hexOffset ≠ e.pData.length := by
      rintro heq
      rw [show ((hexMachine cfg e s).step h (.dequeue answer)).finished =
        (answer.hexOffset == e.pData.length) from rfl, heq] at hmore
      simp at hmore
    show Stored cfg e answer.hexOffset
      ((nrfLogFrontendDequeue cfg answer h.log).elim h.log Prod.snd).buffer
    rw [hstored.dequeue hnext, Nat.mod_eq_of_lt hfits.1, Option.elim_some, if_neg hne]
    exact hstored.setOffset hwords
  | other log =>
    refine ⟨?_, hinv.offset_le⟩
    intro _
    exact hstored.congr hen

/-- The property in a state. -/
theorem HexInv.roundTrip (hinv : HexInv cfg e h) (hfits : HexFits cfg e)
    (hwords : e.words cfg ≤ cfg.size) : RoundTrip cfg e h := by
  intro hunfinished hnext answer
  have hstored := hinv.stored hunfinished
  have hlt := hfits.1
  have hceil := ceilDiv_four e.pData.length
  have hwordsEq := words_eq cfg e
  have hle := hinv.offset_le
  have hdequeue := hstored.dequeue hnext answer
  rw [Nat.mod_eq_of_lt hlt, Nat.mod_eq_of_lt (hle.trans_lt hlt)] at hdequeue
  refine ⟨_, _, _, hdequeue, hstored.parts hfits (by omega), ?_⟩
  have hend : e.dataIdx cfg + ceilDiv e.pData.length 4 = e.wrIdx + e.words cfg := by
    rw [hwordsEq]
    unfold HexEntry.dataIdx
    omega
  rw [← hend]
  split
  · rfl
  · rfl

/-- **What is passed is not the data** where a length has no room. -/
theorem Stored.not_roundTrip (h : Stored cfg e offset s.buffer) (hnext : Next cfg e s)
    (hno : ¬ HexFits cfg e) (finished : Bool) (hunfinished : finished = false) :
    ¬ RoundTrip cfg e ⟨s, offset, finished⟩ := by
  intro hround
  obtain ⟨buf0, buf1, log, hdequeue, hdata, -⟩ := hround hunfinished hnext ⟨false, 0⟩
  rw [h.dequeue hnext] at hdequeue
  simp only [Option.some.injEq, Prod.mk.injEq, Passed.hexdump.injEq] at hdequeue
  obtain ⟨⟨-, -, -, -, hbuf0, hbuf1⟩, -⟩ := hdequeue
  have hlength : ((hexdumpParts cfg s (e.dataIdx cfg) (e.pData.length % 2 ^ 10)).1 ++
      (hexdumpParts cfg s (e.dataIdx cfg) (e.pData.length % 2 ^ 10)).2).length = _ :=
    length_hexdumpParts s (e.dataIdx cfg) (e.pData.length % 2 ^ 10)
  rw [hbuf0, hbuf1, hdata] at hlength
  apply hno
  unfold HexFits
  split at hlength
  · omega
  · omega

/-- The loop ends at a header of another type. -/
theorem skipPushed_of_ne (s : LogData) (fuel : ℕ) (read : List ℕ) {idx : ℕ}
    (htype : headerType (s.wordAt cfg idx) ≠ headerTypePushed) :
    skipPushed cfg s (fuel + 1) read idx = some (idx :: read) := by
  rw [skipPushed, if_neg htype]

/-- The first entry is the next one. -/
theorem Stored.next (h : Stored cfg e offset s.buffer) (hrdIdx : s.rdIdx = e.wrIdx)
    (hne : s.rdIdx ≠ s.wrIdx) : Next cfg e s := by
  refine ⟨beq_eq_false_iff_ne.mpr hne, [], ?_⟩
  have hheader : s.wordAt cfg e.wrIdx = hexdumpHeader e.severity offset e.pData.length := h.header
  have htype : headerType (s.wordAt cfg e.wrIdx) ≠ headerTypePushed := by
    rw [hheader, headerType_hexdumpHeader]
    decide
  rw [LogData.headersRead, hrdIdx]
  exact skipPushed_of_ne s (2 ^ 32) [] htype

/-- The state in which the entry is the next one. -/
theorem reachable_next (hs : Sound cfg s) (hwrIdx : e.wrIdx = s.wrIdx) (hrange : e.call.InRange)
    (haccepted : (e.call.prealloc cfg s).1.isSome = true) :
    ∃ log, (hexMachine cfg e s).Reachable ⟨log, 0, false⟩ ∧ Stored cfg e 0 log.buffer ∧
      Next cfg e log := by
  obtain ⟨hfits, -⟩ := prealloc_of_accepted hs haccepted
  obtain ⟨hstored, hend⟩ := stored_call hs hwrIdx hrange haccepted
  have hsize := size_lt cfg
  have hpos := headerSize_pos cfg
  have hwords := words_eq cfg e
  have hlt : e.wrIdx < 2 ^ 32 := hwrIdx ▸ hs.wrIdx_lt
  obtain ⟨t, ht⟩ : ∃ t, t = s.call cfg e.call := ⟨_, rfl⟩
  rw [← ht] at hstored hend
  have hstart : (hexMachine cfg e s).Reachable ⟨t, 0, false⟩ := by
    rw [ht]
    exact .start rfl
  refine ⟨{ t with rdIdx := e.wrIdx }, ?_, hstored, ?_⟩
  · exact hstart.step (a := .other { t with rdIdx := e.wrIdx }) ⟨rfl, fun _ _ => rfl⟩ trivial
  · apply Stored.next (s := { t with rdIdx := e.wrIdx }) hstored rfl
    show e.wrIdx ≠ t.wrIdx
    omega

/-- **The round trip of a hex dump**: in every run from an accepted call on, the segments that are
    passed are the data and the entry is released with the full length, if and only if the lengths
    have room. -/
theorem dumpRoundTrip_iff (hs : Sound cfg s) (hwrIdx : e.wrIdx = s.wrIdx) (hrange : e.call.InRange)
    (haccepted : (e.call.prealloc cfg s).1.isSome = true) :
    (∀ h, (hexMachine cfg e s).Reachable h → RoundTrip cfg e h) ↔ HexFits cfg e := by
  obtain ⟨hfits, -⟩ := prealloc_of_accepted hs haccepted
  have hwords : e.words cfg ≤ cfg.size := by omega
  constructor
  · intro hall
    -- If a length has no room in its field, the run that ends with the next dequeue shows it.
    by_contra hno
    obtain ⟨log, hreachable, hstored, hnext⟩ := reachable_next hs hwrIdx hrange haccepted
    exact hstored.not_roundTrip hnext hno false rfl (hall _ hreachable)
  · intro hroom h hreachable
    have hinv : HexInv cfg e h := by
      apply hreachable.invariant
      · rintro _ rfl
        exact ⟨fun _ => (stored_call hs hwrIdx hrange haccepted).1, Nat.zero_le _⟩
      · exact fun _ _ hinv hen _ => hinv.step hroom hwords hen
    exact hinv.roundTrip hroom hwords

theorem wrIdx_setRdIdx (s : LogData) (idx : ℕ) : { s with rdIdx := idx }.wrIdx = s.wrIdx := rfl

/-- 512 words, and a hex dump into an empty log. -/
def exampleConfig : LogConfig := ⟨9, false, 0, by decide, by decide⟩

def exampleDump (length : ℕ) : HexEntry := ⟨0, 4, 0, List.replicate length 7, 0⟩

theorem inRange_exampleDump {length : ℕ} (h : length < 2 ^ 16) :
    (exampleDump length).call.InRange := by
  have hzero : ∀ n, 0 < 2 ^ n := fun n => Nat.two_pow_pos n
  refine ⟨show 4 < 2 ^ 8 by decide, hzero _, ?_, ?_, hzero _⟩
  · rw [exampleDump, List.length_replicate]
    exact h
  · intro v hv
    rw [List.eq_of_mem_replicate hv]
    decide

theorem roundTrip_example : RoundTrip exampleConfig (exampleDump 100)
    ⟨LogData.call exampleConfig ⟨0, 0, fun _ => 0⟩ (exampleDump 100).call, 0, false⟩ :=
  (dumpRoundTrip_iff ⟨by decide, by decide, by decide⟩ rfl (inRange_exampleDump (by decide))
    (by decide)).mpr (by decide) _ (.start rfl)

/-- **1024 bytes** are accepted. The first dequeue passes no data, and the answer that no byte is
    processed releases the entry up to its data, which the next dequeue takes for a header. -/
theorem not_roundTrip_1024 : ∃ log log',
    (hexMachine exampleConfig (exampleDump 1024) ⟨0, 0, fun _ => 0⟩).Reachable ⟨log, 0, false⟩ ∧
    (log.rdIdx = 0 ∧ log.wrIdx = 258) ∧
    nrfLogFrontendDequeue exampleConfig ⟨false, 0⟩ log =
      some (some (.hexdump 4 none 0 0 [] []), log') ∧
    (log'.rdIdx = 2 ∧ log'.wrIdx = 258) ∧
    ¬ RoundTrip exampleConfig (exampleDump 1024) ⟨log, 0, false⟩ := by
  obtain ⟨s, hs⟩ : ∃ s : LogData, s = ⟨0, 0, fun _ => 0⟩ := ⟨_, rfl⟩
  obtain ⟨e, he⟩ : ∃ e, e = exampleDump 1024 := ⟨_, rfl⟩
  have hsound : Sound exampleConfig s := by
    subst hs
    exact ⟨by decide, by decide, by decide⟩
  have hwrIdx : e.wrIdx = s.wrIdx := by
    subst hs he
    rfl
  have hlength : e.pData.length = 1024 := by
    rw [he, exampleDump, List.length_replicate]
  have hrange : e.call.InRange := he ▸ inRange_exampleDump (by decide)
  have hwords : e.words exampleConfig = 258 := by
    rw [HexEntry.words, hlength]
    decide
  have haccepted : (e.call.prealloc exampleConfig s).1.isSome = true := by
    apply accepted_of_room hsound
    rw [hwords, hs]
    decide
  have hno : ¬ HexFits exampleConfig e := fun h => absurd h.1 (by rw [hlength]; decide)
  obtain ⟨hstored, hend⟩ := stored_call hsound hwrIdx hrange haccepted
  have hrdIdx : (s.call exampleConfig e.call).rdIdx = 0 := by
    rw [call_eq exampleConfig s hrange, (prealloc_of_accepted hsound haccepted).2, hs]
    rfl
  have hstart : (hexMachine exampleConfig e s).Reachable ⟨s.call exampleConfig e.call, 0, false⟩ :=
    .start rfl
  generalize s.call exampleConfig e.call = log at *
  have hwrIdx' : log.wrIdx = 258 := by
    rw [hend, hwords, hwrIdx, hs]
    rfl
  have hnext : Next exampleConfig e log :=
    hstored.next (by rw [hrdIdx, hwrIdx, hs]) (by omega)
  have hdequeue := hstored.dequeue hnext ⟨false, 0⟩
  have hzero : e.pData.length % 2 ^ 10 = 0 := by
    rw [hlength]
    rfl
  have hparts : hexdumpParts exampleConfig log (e.dataIdx exampleConfig) 0 = ([], []) :=
    if_neg (Nat.not_lt_zero _)
  rw [hzero, Nat.zero_mod, hparts, if_pos rfl] at hdequeue
  have hidx : (e.dataIdx exampleConfig + ceilDiv 0 4) % 2 ^ 32 = 2 := by
    rw [HexEntry.dataIdx, hwrIdx, hs]
    decide
  rw [hidx] at hdequeue
  have hmoved : { log with rdIdx := 2 }.wrIdx = 258 := Eq.trans (wrIdx_setRdIdx log 2) hwrIdx'
  rw [← hs, ← he]
  refine ⟨log, { log with rdIdx := 2 }, hstart, ⟨hrdIdx, hwrIdx'⟩, ?_, ⟨rfl, hmoved⟩,
    hstored.not_roundTrip hnext hno false rfl⟩
  rw [hdequeue, he]
  rfl

end NordicEsb.Log
