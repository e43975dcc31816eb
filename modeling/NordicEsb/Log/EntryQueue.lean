import NordicEsb.Log.Hexdump

/-!
# The Buffer of the Logger as a Queue of Entries

The entries of three kinds that calls have put into the buffer follow one another from the read index
on. A dequeue skips the pushed strings in front of the first other entry and passes that one.

- `LogEntry`: an entry, with the words that it takes, and `LogEntry.At`, that it is in the buffer.
- `LaidOut`: a list of entries is in the buffer, one behind the other.
- `LogCall.Orderly`: what a call must meet. A string that is pushed fits into the free words with room
  for an overflow entry behind it, and lengths have room in their fields.
- `Waiting`: the entries that wait take up the words in use.

**Main results**: `Waiting.call`, that an orderly call adds its entries behind the others, and
`Waiting.dequeue`, that a dequeue passes the first entry that is not a string.
-/

namespace NordicEsb.Log

open WordMemory

/-! ## §1 Entries -/

/-- An entry of the buffer. A pushed string is at the word `pDst`, a hex dump has an offset. -/
inductive LogEntry where
  | pushed (pStr : List ℕ) (pDst offset : ℕ)
  | std (severity pStr : ℕ) (args : List ℕ) (timestamp : ℕ)
  | hexdump (severity pStr : ℕ) (pData : List ℕ) (timestamp offset : ℕ)
deriving DecidableEq, Repr

/-- The entry is skipped by a dequeue. -/
def LogEntry.isPushed : LogEntry → Bool
  | .pushed .. => true
  | _ => false

/-- What handlers get of an entry in the end. -/
inductive Content where
  | std (severity : ℕ) (timestamp : Option ℕ) (pStr : ℕ) (args : List ℕ)
  | hexdump (severity : ℕ) (timestamp : Option ℕ) (pStr : ℕ) (pData : List ℕ)
deriving DecidableEq, Repr

/-- The content of what is passed. -/
def Passed.content : Passed → Content
  | .std severity timestamp pStr args => .std severity timestamp pStr args
  | .hexdump severity timestamp pStr _ buf0 buf1 => .hexdump severity timestamp pStr (buf0 ++ buf1)

variable (cfg : LogConfig)

/-- The content of an entry: the address of a standard string has 22 bits. -/
def LogEntry.content : LogEntry → Option Content
  | .pushed .. => none
  | .std severity pStr args timestamp =>
    some (.std (levelOf severity) (if cfg.usesTimestamp then some timestamp else none)
      (pStr % 2 ^ 22) args)
  | .hexdump severity pStr pData timestamp _ =>
    some (.hexdump (levelOf severity) (if cfg.usesTimestamp then some timestamp else none) pStr pData)

/-- The words of an entry. -/
def LogEntry.words : LogEntry → ℕ
  | .pushed pStr _ offset => 1 + offset + stringWords pStr
  | .std _ _ args _ => cfg.headerSize + args.length
  | .hexdump _ _ pData _ _ => ceilDiv pData.length 4 + 1 + cfg.headerSize

/-- The words of several entries. -/
def totalWords (q : List LogEntry) : ℕ := (q.map (LogEntry.words cfg)).sum

/-- **The entry is in the buffer** from word `idx` on, and its lengths have room in their fields. -/
def LogEntry.At (idx : ℕ) (b : ℕ → ℕ) : LogEntry → Prop
  | .pushed pStr pDst offset =>
    word b (idx % cfg.size) = pushedHeader offset (stringWords pStr) ∧
    (∀ k (hk : k < (pStr ++ [0]).length), b (4 * pDst + k) = (pStr ++ [0])[k]) ∧
    (idx + 1 + offset) % cfg.size = pDst ∧ pDst + stringWords pStr ≤ cfg.size ∧
    offset < 2 ^ 10 ∧ stringWords pStr < 2 ^ 10
  | .std severity pStr args timestamp =>
    (∀ k (hk : k < (headerWords cfg (stdHeader pStr severity args.length) timestamp ++ args).length),
      word b ((idx + k) % cfg.size) =
        (headerWords cfg (stdHeader pStr severity args.length) timestamp ++ args)[k]) ∧
    args.length ≤ 6
  | .hexdump severity pStr pData timestamp offset =>
    Stored cfg ⟨idx, severity, pStr, pData, timestamp⟩ offset b ∧
      HexFits cfg ⟨idx, severity, pStr, pData, timestamp⟩

/-- **The entries are in the buffer**, one behind the other. -/
def LaidOut (b : ℕ → ℕ) : ℕ → List LogEntry → Prop
  | _, [] => True
  | idx, e :: q => e.At cfg idx b ∧ LaidOut b ((idx + e.words cfg) % 2 ^ 32) q

/-! ## §2 Headers -/

section Headers

variable {pStr severity nargs offset length : ℕ}

theorem stdHeader_eq (pStr severity nargs : ℕ) : stdHeader pStr severity nargs =
    1 + 2 ^ 3 * levelOf severity + 2 ^ 6 * (nargs % 2 ^ 4) + 2 ^ 10 * (pStr % 2 ^ 22) := by
  rw [stdHeader, rawField_eq]
  rfl

theorem stdHeader_lt (pStr severity nargs : ℕ) : stdHeader pStr severity nargs < 2 ^ 32 := by
  have hlevel := levelOf_lt severity
  rw [stdHeader_eq]
  omega

@[simp] theorem headerType_stdHeader :
    headerType (stdHeader pStr severity nargs) = headerTypeStd := by
  rw [stdHeader_eq]
  unfold headerType headerTypeStd
  omega

@[simp] theorem headerRaw_stdHeader : headerRaw (stdHeader pStr severity nargs) = 0 := by
  rw [stdHeader_eq]
  unfold headerRaw
  omega

@[simp] theorem headerSeverity_stdHeader :
    headerSeverity (stdHeader pStr severity nargs) = levelOf severity := by
  have hlevel := levelOf_lt severity
  rw [stdHeader_eq]
  unfold headerSeverity
  omega

@[simp] theorem headerNargs_stdHeader :
    headerNargs (stdHeader pStr severity nargs) = nargs % 2 ^ 4 := by
  have hlevel := levelOf_lt severity
  rw [stdHeader_eq]
  unfold headerNargs
  omega

@[simp] theorem headerAddr_stdHeader :
    headerAddr (stdHeader pStr severity nargs) = pStr % 2 ^ 22 := by
  have hlevel := levelOf_lt severity
  rw [stdHeader_eq]
  unfold headerAddr
  omega

theorem pushedHeader_eq (offset length : ℕ) :
    pushedHeader offset length = 2 ^ 6 * (offset % 2 ^ 10) + 2 ^ 22 * (length % 2 ^ 10) := by
  unfold pushedHeader headerTypePushed
  omega

theorem pushedHeader_lt (offset length : ℕ) : pushedHeader offset length < 2 ^ 32 := by
  rw [pushedHeader_eq]
  omega

@[simp] theorem headerType_pushedHeader :
    headerType (pushedHeader offset length) = headerTypePushed := by
  rw [pushedHeader_eq]
  unfold headerType headerTypePushed
  omega

@[simp] theorem headerOffset_pushedHeader :
    headerOffset (pushedHeader offset length) = offset % 2 ^ 10 := by
  rw [pushedHeader_eq]
  unfold headerOffset
  omega

@[simp] theorem headerLen_pushedHeader :
    headerLen (pushedHeader offset length) = length % 2 ^ 10 := by
  rw [pushedHeader_eq]
  unfold headerLen
  omega

end Headers

/-! ## §3 Entries in the buffer -/

variable {cfg} {b b' : ℕ → ℕ} {idx : ℕ} {e : LogEntry} {q ps : List LogEntry} {s : LogData}

@[simp] theorem words_pushed (pStr : List ℕ) (pDst offset : ℕ) :
    (LogEntry.pushed pStr pDst offset).words cfg = 1 + offset + stringWords pStr := rfl

@[simp] theorem words_std (severity pStr : ℕ) (args : List ℕ) (timestamp : ℕ) :
    (LogEntry.std severity pStr args timestamp).words cfg = cfg.headerSize + args.length := rfl

@[simp] theorem words_hexdump (severity pStr : ℕ) (pData : List ℕ) (timestamp offset : ℕ) :
    (LogEntry.hexdump severity pStr pData timestamp offset).words cfg =
      ceilDiv pData.length 4 + 1 + cfg.headerSize := rfl

theorem words_pos (cfg : LogConfig) (e : LogEntry) : 1 ≤ e.words cfg := by
  have hpos := headerSize_pos cfg
  cases e with
  | pushed pStr pDst offset =>
    rw [words_pushed]
    omega
  | std severity pStr args timestamp => exact hpos.trans_le (Nat.le_add_right _ _)
  | hexdump severity pStr pData timestamp offset => exact hpos.trans_le (Nat.le_add_left _ _)

@[simp] theorem totalWords_nil : totalWords cfg [] = 0 := rfl

@[simp] theorem totalWords_cons (e : LogEntry) (q : List LogEntry) :
    totalWords cfg (e :: q) = e.words cfg + totalWords cfg q := by
  simp [totalWords]

@[simp] theorem totalWords_append (q ps : List LogEntry) :
    totalWords cfg (q ++ ps) = totalWords cfg q + totalWords cfg ps := by
  simp [totalWords]

theorem length_le_totalWords (cfg : LogConfig) (q : List LogEntry) :
    q.length ≤ totalWords cfg q := by
  induction q with
  | nil => exact Nat.zero_le _
  | cons e q ih =>
    have hpos := words_pos cfg e
    rw [totalWords_cons, List.length_cons]
    omega

/-- The cells of the ring from an index of 32 bits on. -/
theorem ringSegment_index (cfg : LogConfig) (idx n : ℕ) :
    ringSegment cfg.size (idx % 2 ^ 32) n = ringSegment cfg.size idx n := by
  rw [← ringSegment_mod, Nat.mod_mod_of_dvd _ (size_dvd cfg), ringSegment_mod]

/-- **An entry depends on its words only.** -/
theorem LogEntry.At.congr (h : e.At cfg idx b)
    (hsame : ∀ a, a / 4 ∈ ringSegment cfg.size idx (e.words cfg) → b' a = b a) :
    e.At cfg idx b' := by
  have hmem : ∀ k < e.words cfg, (idx + k) % cfg.size ∈ ringSegment cfg.size idx (e.words cfg) :=
    fun k hk => mem_ringSegment.mpr ⟨k, hk, rfl⟩
  have hword : ∀ k < e.words cfg,
      word b' ((idx + k) % cfg.size) = word b ((idx + k) % cfg.size) := by
    intro k hk
    apply word_congr
    intro a ha
    exact hsame a (ha ▸ hmem k hk)
  cases e with
  | pushed pStr pDst offset =>
    obtain ⟨hheader, hstring, hpDst, hend, hlengths⟩ := h
    refine ⟨?_, fun k hk => ?_, hpDst, hend, hlengths⟩
    · have hfirst := hword 0 (words_pos cfg _)
      rw [Nat.add_zero] at hfirst
      rw [hfirst]
      exact hheader
    · have hlength : (pStr ++ [0]).length = pStr.length + 1 := by simp
      have hlt : k / 4 < stringWords pStr := div_lt_ceilDiv (hlength ▸ hk)
      -- the string does not go round the buffer
      have hplace : (idx + (1 + offset + k / 4)) % cfg.size = (4 * pDst + k) / 4 := by
        have hsum : idx + (1 + offset + k / 4) = idx + 1 + offset + k / 4 := by omega
        have hdiv : (4 * pDst + k) / 4 = pDst + k / 4 := by omega
        rw [hsum, ← Nat.mod_add_mod, hpDst, Nat.mod_eq_of_lt (by omega), hdiv]
      have hin := hmem (1 + offset + k / 4) (by rw [words_pushed]; omega)
      rw [hplace] at hin
      rw [hsame _ hin]
      exact hstring k hk
  | std severity pStr args timestamp =>
    refine ⟨fun k hk => ?_, h.2⟩
    rw [hword k]
    · exact h.1 k hk
    · rw [List.length_append, length_headerWords] at hk
      exact hk
  | hexdump severity pStr pData timestamp offset =>
    refine ⟨h.1.congr ?_, h.2⟩
    intro a ha
    exact hsame a ha

/-- **The entries depend on their words only.** -/
theorem LaidOut.congr (h : LaidOut cfg b idx q)
    (hsame : ∀ a, a / 4 ∈ ringSegment cfg.size idx (totalWords cfg q) → b' a = b a) :
    LaidOut cfg b' idx q := by
  induction q generalizing idx with
  | nil => exact trivial
  | cons e q ih =>
    rw [totalWords_cons, ringSegment_add] at hsame
    refine ⟨h.1.congr fun a ha => hsame a (List.mem_append_left _ ha), ih h.2 fun a ha => ?_⟩
    rw [ringSegment_index] at ha
    exact hsame a (List.mem_append_right _ ha)

theorem add_mod_mod (idx m n : ℕ) : ((idx + m) % 2 ^ 32 + n) % 2 ^ 32 = (idx + (m + n)) % 2 ^ 32 := by
  omega

/-- **Entries behind entries.** -/
theorem laidOut_append (hidx : idx < 2 ^ 32) : LaidOut cfg b idx (ps ++ q) ↔
    LaidOut cfg b idx ps ∧ LaidOut cfg b ((idx + totalWords cfg ps) % 2 ^ 32) q := by
  induction ps generalizing idx with
  | nil =>
    rw [List.nil_append, totalWords_nil, Nat.add_zero, Nat.mod_eq_of_lt hidx]
    exact (and_iff_right trivial).symm
  | cons e ps ih =>
    show _ ∧ LaidOut cfg b _ (ps ++ q) ↔ (_ ∧ _) ∧ _
    rw [ih (Nat.mod_lt _ (by decide)), add_mod_mod, totalWords_cons, and_assoc]

theorem LaidOut.mem (h : LaidOut cfg b idx q) (he : e ∈ q) : ∃ i, e.At cfg i b := by
  induction q generalizing idx with
  | nil => exact absurd he List.not_mem_nil
  | cons e' q ih =>
    rcases List.mem_cons.mp he with rfl | he
    · exact ⟨idx, h.1⟩
    · exact ih h.2 he

/-! ## §4 Calls -/

variable (cfg) in
/-- The overflow entry. -/
def overflowEntry (timestamp : ℕ) : LogEntry := .std nrfLogLevelInternal cfg.mOverflowInfo [] timestamp

variable (cfg) in
/-- What `buf_prealloc` makes of an entry: it leaves room for an overflow entry behind it. -/
def bounded (s : LogData) (e : LogEntry) (timestamp : ℕ) : List LogEntry :=
  if s.used + e.words cfg + cfg.headerSize ≤ cfg.size then [e]
  else if s.used + cfg.headerSize ≤ cfg.size then [overflowEntry cfg timestamp]
  else []

/-- The entry of a string, by the answer of `cont_buf_prealloc`. -/
def pushedEntries (pStr : List ℕ) : Option (ℕ × ℕ) → List LogEntry
  | some (pDst, offset) => [.pushed pStr pDst offset]
  | none => []

variable (cfg) in
/-- **The entries that a call is accepted with.** -/
def LogCall.accepted (s : LogData) : LogCall → List LogEntry
  | .push pStr => pushedEntries pStr (contBufPrealloc cfg (stringWords pStr) s).1
  | .std severity pStr args timestamp =>
    bounded cfg s (.std severity pStr args timestamp) timestamp
  | .hexdump severity pStr pData timestamp =>
    bounded cfg s (.hexdump severity pStr pData timestamp 0) timestamp

variable (cfg) in
/-- **A call is orderly**: a string fits into the free words, with room for an overflow entry behind
    it, or it is refused; its length, and those of a hex dump, have room in their fields. -/
def LogCall.Orderly (s : LogData) : LogCall → Prop
  | .push pStr => contWords cfg (stringWords pStr + 1) s = 0 ∨
    s.used + contWords cfg (stringWords pStr + 1) s + cfg.headerSize ≤ cfg.size ∧
      stringWords pStr < 2 ^ 10
  | .std .. => True
  | .hexdump severity pStr pData timestamp =>
    (LogCall.prealloc cfg s (.hexdump severity pStr pData timestamp)).1.isSome = true →
      HexFits cfg ⟨s.wrIdx, severity, pStr, pData, timestamp⟩

/-- **What a call does to the buffer.** -/
inductive Enters (cfg : LogConfig) (s : LogData) : List LogEntry → LogData → Prop
  | entry (e : LogEntry) (ws : List Write) : s.used + e.words cfg ≤ cfg.size →
      (∀ x ∈ ws, x.index ∈ ringSegment cfg.size s.wrIdx (e.words cfg)) →
      e.At cfg s.wrIdx (applyAll s.buffer ws) →
      Enters cfg s [e] ((s.advance (e.words cfg)).write ws)
  | refused : Enters cfg s [] s

/-- **A standard entry is stored.** -/
theorem at_stdWrites {severity pStr timestamp : ℕ} {args : List ℕ} (hlength : args.length ≤ 6)
    (hargs : ∀ v ∈ args, v < 2 ^ 32) (hts : timestamp < 2 ^ 32)
    (hfits : cfg.headerSize + args.length ≤ cfg.size) :
    (LogEntry.std severity pStr args timestamp).At cfg idx
      (applyAll b (stdWrites cfg idx severity pStr args timestamp)) := by
  refine ⟨fun k hk => ?_, hlength⟩
  apply word_ringWords
  · rw [List.length_append, length_headerWords]
    exact hfits
  · intro v hv
    rcases List.mem_append.mp hv with hv | hv
    · unfold headerWords at hv
      rcases List.mem_cons.mp hv with rfl | hv
      · exact stdHeader_lt ..
      · split at hv
        · rw [List.mem_singleton.mp hv]
          exact hts
        · exact absurd hv List.not_mem_nil
    · exact hargs v hv

theorem overflowWrites_eq (cfg : LogConfig) (idx timestamp : ℕ) : overflowWrites cfg idx timestamp =
    stdWrites cfg idx nrfLogLevelInternal cfg.mOverflowInfo [] timestamp := by
  simp [overflowWrites, stdWrites]

/-- **A string is stored.** -/
theorem at_pushWrites {pStr : List ℕ} {pDst offset : ℕ}
    (hpDst : (idx + 1 + offset) % cfg.size = pDst) (hend : pDst + stringWords pStr ≤ cfg.size)
    (hlength : stringWords pStr < 2 ^ 10) (hoffset : offset < 2 ^ 10)
    (hfits : 1 + offset + stringWords pStr ≤ cfg.size) :
    (LogEntry.pushed pStr pDst offset).At cfg idx
      (applyAll b (pushWrites cfg idx pStr pDst offset)) := by
  refine ⟨?_, fun k hk => applyAll_bytesWrites hk, hpDst, hend, hoffset, hlength⟩
  show word (applyAll ((Write.word _ _).apply b) (bytesWrites _ _)) _ = _
  rw [word_applyAll]
  · exact word_apply_self (pushedHeader_lt ..)
  · -- the bytes are less than a turn behind the header
    intro x hx
    rw [bytesWrites_eq_ringBytes (c := 4 * (idx + 1 + offset)) (n := 4 * cfg.size)
      (by rw [four_mul_mod, hpDst])] at hx
    · obtain ⟨k, hk, hindex⟩ := mem_ringSegment.mp (index_ringBytes_word hx)
      rw [List.length_append, List.length_singleton] at hk
      rw [← hindex, Nat.add_assoc, Nat.add_assoc]
      have hk' : k < stringWords pStr := hk
      exact (ring_ne (j := 0) (by omega) (by omega)).symm
    · have hceil := ceilDiv_four (pStr.length + 1)
      have hwords : stringWords pStr = ceilDiv (pStr.length + 1) 4 := rfl
      rw [List.length_append, List.length_singleton]
      omega

/-- **`buf_prealloc`**, for an entry that is stored where it is called. -/
theorem enters_grant (h : Sound cfg s) {c : LogCall} {nargs timestamp : ℕ}
    (hwords : nargs + cfg.headerSize = e.words cfg) (hts : timestamp < 2 ^ 32)
    (hwrites : s.used + e.words cfg + cfg.headerSize ≤ cfg.size →
      (∀ x ∈ c.writes cfg s.wrIdx (0, 0), x.index ∈ ringSegment cfg.size s.wrIdx (e.words cfg)) ∧
      e.At cfg s.wrIdx (applyAll s.buffer (c.writes cfg s.wrIdx (0, 0)))) :
    Enters cfg s (bounded cfg s e timestamp)
      ((grant (bufPrealloc cfg nargs timestamp s)).2.write
        (c.stores cfg s.wrIdx (grant (bufPrealloc cfg nargs timestamp s)).1)) := by
  have hle := h.used_le
  have havailable := h.available
  rw [write_grant]
  by_cases hroom : s.used + e.words cfg + cfg.headerSize ≤ cfg.size
  · obtain ⟨hindex, hat⟩ := hwrites hroom
    have hpre : bufPrealloc cfg nargs timestamp s = (true, s.advance (e.words cfg)) := by
      rw [bufPrealloc, if_neg (by omega), hwords]
    have hbounded : bounded cfg s e timestamp = [e] := if_pos hroom
    rw [hpre, hbounded]
    exact .entry e _ (by omega) hindex hat
  · by_cases hoverflow : s.used + cfg.headerSize ≤ cfg.size
    · have hpre : bufPrealloc cfg nargs timestamp s =
          (false, (s.write (overflowWrites cfg s.wrIdx timestamp)).advance cfg.headerSize) := by
        rw [bufPrealloc, if_pos (by omega), if_pos (by omega)]
      have hbounded : bounded cfg s e timestamp = [overflowEntry cfg timestamp] :=
        (if_neg hroom).trans (if_pos hoverflow)
      rw [hpre, hbounded, overflowWrites_eq]
      refine .entry (overflowEntry cfg timestamp) _ hoverflow (fun x hx => ?_) ?_
      · rw [← overflowWrites_eq] at hx
        exact index_overflowWrites hx
      · apply at_stdWrites (by decide) _ hts
        · exact (Nat.le_add_left _ _).trans hoverflow
        · exact fun v hv => absurd hv List.not_mem_nil
    · have hpre : bufPrealloc cfg nargs timestamp s = (false, s) := by
        rw [bufPrealloc, if_pos (by omega), if_neg (by omega)]
      have hbounded : bounded cfg s e timestamp = [] :=
        (if_neg hroom).trans (if_neg hoverflow)
      rw [hpre, hbounded]
      exact .refused

/-- **An orderly call** enters the entries that it is accepted with. -/
theorem enters_call (h : Sound cfg s) {c : LogCall} (hrange : c.InRange)
    (horderly : c.Orderly cfg s) : Enters cfg s (c.accepted cfg s) (s.call cfg c) := by
  have hle := h.used_le
  rw [call_eq cfg s hrange]
  cases c with
  | push pStr =>
    have hpos := stringWords_pos pStr
    have htakes : Takes cfg (stringWords pStr + 1) s (contBufTake cfg (stringWords pStr + 1) s) :=
      contBufTake_takes s (by omega)
    obtain ⟨r, hr⟩ : ∃ r, r = contBufPrealloc cfg (stringWords pStr) s := ⟨_, rfl⟩
    show Enters cfg s (pushedEntries pStr (contBufPrealloc cfg (stringWords pStr) s).1)
      ((contBufPrealloc cfg (stringWords pStr) s).2.write
        (LogCall.stores cfg s.wrIdx (contBufPrealloc cfg (stringWords pStr) s).1 (.push pStr)))
    rw [← hr]
    unfold contBufPrealloc at hr
    generalize contBufTake cfg (stringWords pStr + 1) s = t at htakes hr
    cases htakes with
    | took pDst offset hpDst hend hoffset hwords =>
      -- The string may be put at the start of the ring: `offset` counts the words left out.
      have hcond : contWords cfg (stringWords pStr + 1) s = 0 ∨
          s.used + contWords cfg (stringWords pStr + 1) s + cfg.headerSize ≤ cfg.size ∧
            stringWords pStr < 2 ^ 10 := horderly
      obtain ⟨hroom, hlength⟩ := hcond.resolve_left (by omega)
      rw [hwords] at hroom
      have hfits : s.used + (stringWords pStr + 1 + offset) ≤ cfg.size := by omega
      have hlong : ¬ (s.advance (stringWords pStr + 1 + offset)).available cfg < cfg.headerSize := by
        rw [(h.advance hfits).available, h.used_advance hfits]
        omega
      dsimp only at hr
      rw [if_neg hlong] at hr
      subst hr
      have hentry : (LogEntry.pushed pStr pDst offset).words cfg = stringWords pStr + 1 + offset := by
        rw [words_pushed]
        omega
      show Enters cfg s [.pushed pStr pDst offset] ((s.advance (stringWords pStr + 1 + offset)).write
        (pushWrites cfg s.wrIdx pStr pDst offset))
      rw [← hentry] at hfits ⊢
      refine .entry _ _ hfits (fun x hx => ?_) ?_
      · rw [hentry]
        exact index_pushWrites hpDst (by omega) hx
      · exact at_pushWrites hpDst (by omega) hlength (by omega) (by omega)
    -- no room: nothing enters
    | full =>
      dsimp only at hr
      rw [ite_self] at hr
      subst hr
      show Enters cfg s [] (s.write (LogCall.stores cfg s.wrIdx none (.push pStr)))
      rw [stores_none, write_nil]
      exact .refused
  | std severity pStr args timestamp =>
    obtain ⟨-, -, hlength, hargs, hts⟩ := hrange
    apply enters_grant h (Nat.add_comm _ _) hts
    intro hroom
    rw [words_std] at hroom ⊢
    refine ⟨fun x hx => ?_, at_stdWrites hlength hargs hts (by omega)⟩
    rw [Nat.add_comm]
    exact index_stdWrites hx
  | hexdump severity pStr pData timestamp =>
    apply enters_grant h rfl hrange.2.2.2.2
    intro hroom
    rw [words_hexdump] at hroom ⊢
    have hceil := ceilDiv_four pData.length
    refine ⟨fun x hx => index_hexdumpWrites (by omega) hx, stored_hexdumpWrites hrange ?_, ?_⟩
    · show ceilDiv pData.length 4 + 1 + cfg.headerSize ≤ cfg.size
      omega
    · apply horderly
      exact accepted_of_room (e := ⟨s.wrIdx, severity, pStr, pData, timestamp⟩) h hroom

/-! ## §5 Dequeues -/

theorem word_std {severity pStr timestamp : ℕ} {args : List ℕ}
    (h : (LogEntry.std severity pStr args timestamp).At cfg idx s.buffer) :
    s.wordAt cfg idx = stdHeader pStr severity args.length := by
  have hpos := headerSize_pos cfg
  have hfirst := h.1 0 (by rw [List.length_append, length_headerWords]; omega)
  rw [Nat.add_zero] at hfirst
  simpa [headerWords, LogData.wordAt] using hfirst

/-- The header of an entry that is not a string. -/
theorem LogEntry.At.type_ne (h : e.At cfg idx s.buffer) (he : e.isPushed = false) :
    headerType (s.wordAt cfg idx) ≠ headerTypePushed := by
  cases e with
  | pushed pStr pDst offset => exact absurd he (by simp [LogEntry.isPushed])
  | std severity pStr args timestamp =>
    rw [word_std h, headerType_stdHeader]
    decide
  | hexdump severity pStr pData timestamp offset =>
    have hheader : s.wordAt cfg idx = hexdumpHeader severity offset pData.length := h.1.header
    rw [hheader, headerType_hexdumpHeader]
    decide

/-- **Pushed strings are skipped.** -/
theorem skipPushed_laidOut {fuel : ℕ} {read : List ℕ}
    (h : LaidOut cfg s.buffer idx (ps ++ e :: q)) (hps : ∀ p ∈ ps, p.isPushed = true)
    (he : e.isPushed = false) (hfuel : ps.length ≤ fuel) (hidx : idx < 2 ^ 32) :
    ∃ skipped, skipPushed cfg s (fuel + 1) read idx =
      some ((idx + totalWords cfg ps) % 2 ^ 32 :: skipped) := by
  induction ps generalizing idx read fuel with
  | nil =>
    refine ⟨read, ?_⟩
    have hzero : (idx + totalWords cfg []) % 2 ^ 32 = idx := Nat.mod_eq_of_lt hidx
    rw [hzero]
    exact skipPushed_of_ne s fuel read (h.1.type_ne he)
  | cons p ps ih =>
    cases p with
    | std => exact absurd (hps _ List.mem_cons_self) (by simp [LogEntry.isPushed])
    | hexdump => exact absurd (hps _ List.mem_cons_self) (by simp [LogEntry.isPushed])
    | pushed pStr pDst offset =>
      obtain ⟨⟨hheader, -, -, -, hoffset, hlength⟩, hrest⟩ := h
      have hword : s.wordAt cfg idx = pushedHeader offset (stringWords pStr) := hheader
      rw [List.length_cons] at hfuel
      obtain ⟨fuel, rfl⟩ : ∃ n, fuel = n + 1 := ⟨fuel - 1, by omega⟩
      have hle : ps.length ≤ fuel := by omega
      obtain ⟨skipped, hskip⟩ : ∃ skipped, skipPushed cfg s (fuel + 1) (idx :: read)
          ((idx + (LogEntry.pushed pStr pDst offset).words cfg) % 2 ^ 32) = _ :=
        ih hrest (fun p hp => hps p (List.mem_cons_of_mem _ hp)) hle (Nat.mod_lt _ (by decide))
      refine ⟨skipped, ?_⟩
      have hnext : idx + 1 + stringWords pStr + offset =
          idx + (LogEntry.pushed pStr pDst offset).words cfg := by
        rw [words_pushed]
        omega
      rw [skipPushed, hword, if_pos headerType_pushedHeader, headerLen_pushedHeader,
        headerOffset_pushedHeader, Nat.mod_eq_of_lt hoffset, Nat.mod_eq_of_lt hlength, hnext,
        hskip, add_mod_mod, totalWords_cons]

/-- **A standard entry is passed.** -/
theorem dequeue_std {severity pStr timestamp : ℕ} {args skipped : List ℕ}
    (h : (LogEntry.std severity pStr args timestamp).At cfg idx s.buffer)
    (hempty : s.bufferIsEmpty = false) (hread : s.headersRead cfg = some (idx :: skipped))
    (answer : Answer) :
    nrfLogFrontendDequeue cfg answer s =
      some (some (.std (levelOf severity) (if cfg.usesTimestamp then some timestamp else none)
        (pStr % 2 ^ 22) args),
        if answer.stdDone then
          { s with rdIdx := (idx + cfg.headerSize + args.length) % 2 ^ 32 }
        else s) := by
  have hheader := word_std h
  obtain ⟨hwords, hlength⟩ := h
  have hstamp : (if cfg.usesTimestamp then some (s.wordAt cfg (idx + 1)) else none) =
      if cfg.usesTimestamp then some timestamp else none := by
    split
    · next hts =>
      have hsecond := hwords 1 (by
        rw [List.length_append, length_headerWords]
        unfold LogConfig.headerSize
        rw [if_pos hts]
        omega)
      simpa [headerWords, hts, LogData.wordAt] using hsecond
    · rfl
  have hargs : ((List.range args.length).map fun i => s.wordAt cfg (idx + cfg.headerSize + i)) =
      args := by
    apply List.ext_getElem
    · simp
    · intro i hi hi'
      have hword := hwords (cfg.headerSize + i) (by
        rw [List.length_append, length_headerWords]
        omega)
      rw [List.getElem_append_right (by rw [length_headerWords]; omega)] at hword
      simpa [LogData.wordAt, Nat.add_assoc] using hword
  have hdequeue : nrfLogFrontendDequeue cfg answer s =
      some (some (dequeueEntry cfg answer s idx).1, (dequeueEntry cfg answer s idx).2) := by
    unfold nrfLogFrontendDequeue
    simp [hempty, hread]
  rw [hdequeue]
  unfold dequeueEntry
  have htype : headerTypeStd ≠ headerTypeHexdump := by decide
  simp only [hheader, hstamp, headerType_stdHeader, headerRaw_stdHeader, headerSeverity_stdHeader,
    headerNargs_stdHeader, headerAddr_stdHeader, if_neg htype, Nat.mod_eq_of_lt
    (show args.length < 2 ^ 4 by omega), hargs]
  rfl

/-- Move the read index. -/
def LogData.release (s : LogData) (n : ℕ) : LogData := { s with rdIdx := (s.rdIdx + n) % 2 ^ 32 }

theorem Sound.release (h : Sound cfg s) {n : ℕ} (hn : n ≤ s.used) :
    Sound cfg (s.release n) ∧ (s.release n).used = s.used - n := by
  have hwr := h.wrIdx_lt
  have hrd := h.rdIdx_lt
  have hle := h.used_le
  have hlt := size_lt cfg
  have hused : (s.release n).used = (s.wrIdx + 2 ^ 32 - (s.rdIdx + n) % 2 ^ 32) % 2 ^ 32 := rfl
  have heq : (s.release n).used = s.used - n := by
    rw [hused]
    unfold LogData.used at hn ⊢
    omega
  refine ⟨⟨hwr, Nat.mod_lt _ (by decide), ?_⟩, heq⟩
  rw [heq]
  omega

/-- **The entries that wait** take up the words in use. -/
structure Waiting (cfg : LogConfig) (s : LogData) (q : List LogEntry) : Prop where
  sound : Sound cfg s
  laidOut : LaidOut cfg s.buffer s.rdIdx q
  used : totalWords cfg q = s.used

/-- The answer is that the entry is processed. -/
def Passed.finished (answer : Answer) : Passed → Bool
  | .std .. => answer.stdDone
  | .hexdump _ _ _ _ buf0 buf1 => answer.hexOffset == (buf0 ++ buf1).length

theorem finished_hexdump (answer : Answer) (severity : ℕ) (timestamp : Option ℕ) (pStr offset : ℕ)
    (buf0 buf1 : List ℕ) :
    (Passed.hexdump severity timestamp pStr offset buf0 buf1).finished answer =
      (answer.hexOffset == (buf0 ++ buf1).length) := rfl

/-- A hex dump keeps the answer. -/
def LogEntry.answered (answer : Answer) : LogEntry → LogEntry
  | .hexdump severity pStr pData timestamp _ =>
    .hexdump severity pStr pData timestamp answer.hexOffset
  | e => e

/-- **A call keeps the entries that wait** and adds its own. -/
theorem Waiting.call (h : Waiting cfg s q) {c : LogCall} (hrange : c.InRange)
    (horderly : c.Orderly cfg s) :
    Waiting cfg (s.call cfg c) (q ++ c.accepted cfg s) := by
  obtain ⟨hsound, hlaid, hused⟩ := h
  have henters := enters_call hsound hrange horderly
  generalize c.accepted cfg s = es at henters
  generalize s.call cfg c = t at henters
  cases henters with
  | entry e ws hfits hindex hat =>
    refine ⟨(hsound.advance hfits).write ws, ?_, ?_⟩
    · show LaidOut cfg (applyAll s.buffer ws) s.rdIdx (q ++ [e])
      rw [laidOut_append hsound.rdIdx_lt]
      refine ⟨hlaid.congr fun a ha => ?_, ?_, trivial⟩
      · apply applyAll_of_untouched
        intro x hx heq
        rw [hused] at ha
        exact hsound.free hfits ha (heq ▸ hindex x hx)
      · rw [hused, ← hsound.wrIdx_eq]
        exact hat
    · rw [used_write, hsound.used_advance hfits, totalWords_append, totalWords_cons, hused]
      rfl
  | refused =>
    rw [List.append_nil]
    exact ⟨hsound, hlaid, hused⟩

/-- The entry in front is released. -/
theorem Waiting.release (h : Waiting cfg s (ps ++ e :: q)) :
    Waiting cfg (s.release (totalWords cfg ps + e.words cfg)) q := by
  obtain ⟨hsound, hlaid, hused⟩ := h
  rw [totalWords_append, totalWords_cons] at hused
  obtain ⟨hsound', hused'⟩ := hsound.release (n := totalWords cfg ps + e.words cfg) (by omega)
  refine ⟨hsound', ?_, by omega⟩
  have hrest := ((laidOut_append hsound.rdIdx_lt).mp hlaid).2.2
  rw [add_mod_mod] at hrest
  exact hrest

/-- The offset of a hex dump is changed. -/
theorem Waiting.setOffset {severity pStr timestamp offset offset' : ℕ} {pData : List ℕ}
    (h : Waiting cfg s (ps ++ .hexdump severity pStr pData timestamp offset :: q)) :
    Waiting cfg (s.write [.word ((s.rdIdx + totalWords cfg ps) % 2 ^ 32 % cfg.size)
        (hexdumpHeader severity offset' pData.length)])
      (ps ++ .hexdump severity pStr pData timestamp offset' :: q) := by
  obtain ⟨hsound, hlaid, hused⟩ := h
  obtain ⟨idx, hidx⟩ : ∃ idx, idx = (s.rdIdx + totalWords cfg ps) % 2 ^ 32 := ⟨_, rfl⟩
  obtain ⟨hps, ⟨hstored, hfits⟩, hq⟩ := (laidOut_append hsound.rdIdx_lt).mp hlaid
  rw [← hidx] at hstored hfits hq ⊢
  rw [totalWords_append, totalWords_cons, words_hexdump] at hused
  have hle := hsound.used_le
  have hpos := headerSize_pos cfg
  have hplace : idx % cfg.size = (s.rdIdx + totalWords cfg ps) % cfg.size := by
    rw [hidx, Nat.mod_mod_of_dvd _ (size_dvd cfg)]
  refine ⟨hsound.write _, (laidOut_append hsound.rdIdx_lt).mpr ⟨hps.congr fun a ha => ?_, ?_⟩, ?_⟩
  · show (Write.word _ _).apply s.buffer a = s.buffer a
    apply apply_of_index_ne
    obtain ⟨k, hk, hindex⟩ := mem_ringSegment.mp ha
    rw [← hindex]
    show idx % cfg.size ≠ _
    rw [hplace]
    exact (ring_ne hk (by omega)).symm
  · rw [← hidx]
    refine ⟨⟨hstored.setOffset ?_, hfits⟩, hq.congr fun a ha => ?_⟩
    · show ceilDiv pData.length 4 + 1 + cfg.headerSize ≤ cfg.size
      omega
    · show (Write.word _ _).apply s.buffer a = s.buffer a
      apply apply_of_index_ne
      rw [ringSegment_index, words_hexdump] at ha
      obtain ⟨k, hk, hindex⟩ := mem_ringSegment.mp ha
      rw [← hindex, Nat.add_assoc]
      exact ring_ne (j := 0) (by omega) (by omega)
  · rw [used_write, ← hused, totalWords_append, totalWords_cons, words_hexdump]

/-- **A dequeue passes the first entry that is not a string**, and the others wait on. -/
theorem Waiting.dequeue (h : Waiting cfg s (ps ++ e :: q)) (hps : ∀ p ∈ ps, p.isPushed = true)
    (he : e.isPushed = false) (answer : Answer) :
    ∃ p t, nrfLogFrontendDequeue cfg answer s = some (some p, t) ∧
      e.content cfg = some p.content ∧
      Waiting cfg t (if p.finished answer then q else ps ++ e.answered answer :: q) := by
  obtain ⟨hsound, hlaid, hused⟩ := h
  have hle := hsound.used_le
  have hlt := size_lt cfg
  have hcount := length_le_totalWords cfg ps
  have hwords := words_pos cfg e
  rw [totalWords_append, totalWords_cons] at hused
  obtain ⟨idx, hidx⟩ : ∃ idx, idx = (s.rdIdx + totalWords cfg ps) % 2 ^ 32 := ⟨_, rfl⟩
  have hfuel : ps.length ≤ 2 ^ 32 := by omega
  -- The headers of pushed strings are skipped up to the first other entry.
  obtain ⟨skipped, hskip⟩ : ∃ skipped, skipPushed cfg s (2 ^ 32 + 1) [] s.rdIdx = _ :=
    skipPushed_laidOut hlaid hps he hfuel hsound.rdIdx_lt
  have hread : s.headersRead cfg = some (idx :: skipped) := by
    rw [hidx]
    exact hskip
  have hempty : s.bufferIsEmpty = false := by
    apply beq_eq_false_iff_ne.mpr
    intro heq
    have hzero : s.used = 0 := by
      unfold LogData.used
      rw [heq]
      omega
    omega
  have hat := ((laidOut_append hsound.rdIdx_lt).mp hlaid).2.1
  rw [← hidx] at hat
  have hwaiting : Waiting cfg s (ps ++ e :: q) := ⟨hsound, hlaid, by
    rw [totalWords_append, totalWords_cons]
    exact hused⟩
  -- Once read, the entry is released together with the strings in front of it.
  have hrelease : ∀ n, n = e.words cfg →
      Waiting cfg { s with rdIdx := (idx + n) % 2 ^ 32 } q := by
    rintro n rfl
    rw [hidx, add_mod_mod]
    exact hwaiting.release
  cases e with
  | pushed => exact absurd he (by simp [LogEntry.isPushed])
  | std severity pStr args timestamp =>
    refine ⟨_, _, dequeue_std hat hempty hread answer, rfl, ?_⟩
    show Waiting cfg _ (if answer.stdDone then _ else _)
    split
    · rw [Nat.add_assoc]
      exact hrelease _ rfl
    · exact hwaiting
  | hexdump severity pStr pData timestamp offset =>
    obtain ⟨hstored, hfits⟩ := hat
    rw [words_hexdump] at hused
    have hceil := ceilDiv_four pData.length
    have hlength : pData.length % 2 ^ 10 = pData.length := Nat.mod_eq_of_lt hfits.1
    have hparts := hstored.parts hfits (by
      show pData.length ≤ 4 * cfg.size
      omega)
    have hdequeue := hstored.dequeue ⟨hempty, skipped, hread⟩ answer
    dsimp only at hparts hdequeue
    rw [hlength] at hdequeue
    refine ⟨_, _, hdequeue, ?_, ?_⟩
    · show some _ = some (Content.hexdump _ _ _ _)
      rw [hparts]
    · rw [finished_hexdump, hparts]
      -- A dump is finished with its last byte, else its offset moves on.
      by_cases hdone : answer.hexOffset = pData.length
      · rw [if_pos hdone, if_pos (beq_iff_eq.mpr hdone), HexEntry.dataIdx, Nat.add_assoc,
          Nat.add_assoc]
        apply hrelease
        rw [words_hexdump]
        omega
      · rw [if_neg hdone, if_neg (by simpa using hdone), hidx]
        exact hwaiting.setOffset

end NordicEsb.Log
