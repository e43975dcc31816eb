import NordicEsb.Log.Frontend

/-!
# What a Log Call Reserves

The calls that write to the log, each in the parts that it has in the source: it copies the write
index, allocates in a critical region, and stores at the copy.

- `LogCall`: the calls, their allocation and their stores, and `call_eq`, that they make up the call.
- `Sound`: the words in use fit into the buffer.
- `Prealloc`: what an allocation comes to.

**Main results**: `prealloc_cases`, and `index_writes`, that the stores of a call go to the words
that it has reserved if the copy is the write index at the allocation.
-/

namespace NordicEsb.Log

open WordMemory

variable (cfg : LogConfig)

/-! ## §1 Calls -/

/-- A call, with the time stamp that it gets. -/
inductive LogCall where
  | push (pStr : List ℕ)
  | std (severity pStr : ℕ) (args : List ℕ) (timestamp : ℕ)
  | hexdump (severity pStr : ℕ) (pData : List ℕ) (timestamp : ℕ)
deriving DecidableEq, Repr

/-- Run a call. There are no standard calls with more than six arguments. -/
def LogData.call (s : LogData) : LogCall → LogData
  | .push pStr => (nrfLogPush cfg pStr s).2
  | .std severity pStr args timestamp =>
    match args with
    | [] => nrfLogFrontendStd0 cfg severity pStr timestamp s
    | [v0] => nrfLogFrontendStd1 cfg severity pStr v0 timestamp s
    | [v0, v1] => nrfLogFrontendStd2 cfg severity pStr v0 v1 timestamp s
    | [v0, v1, v2] => nrfLogFrontendStd3 cfg severity pStr v0 v1 v2 timestamp s
    | [v0, v1, v2, v3] => nrfLogFrontendStd4 cfg severity pStr v0 v1 v2 v3 timestamp s
    | [v0, v1, v2, v3, v4] => nrfLogFrontendStd5 cfg severity pStr v0 v1 v2 v3 v4 timestamp s
    | [v0, v1, v2, v3, v4, v5] =>
      nrfLogFrontendStd6 cfg severity pStr v0 v1 v2 v3 v4 v5 timestamp s
    | _ => s
  | .hexdump severity pStr pData timestamp =>
    nrfLogFrontendHexdump cfg severity pStr pData timestamp s

/-- There are at most six arguments, and all numbers are in range. -/
def LogCall.InRange : LogCall → Prop
  | .push pStr => (∀ v ∈ pStr, v < 2 ^ 8) ∧ pStr.length < 2 ^ 31
  | .std severity pStr args timestamp => severity < 2 ^ 8 ∧ pStr < 2 ^ 32 ∧ args.length ≤ 6 ∧
    (∀ v ∈ args, v < 2 ^ 32) ∧ timestamp < 2 ^ 32
  | .hexdump severity pStr pData timestamp => severity < 2 ^ 8 ∧ pStr < 2 ^ 32 ∧
    pData.length < 2 ^ 16 ∧ (∀ v ∈ pData, v < 2 ^ 8) ∧ timestamp < 2 ^ 32

instance (c : LogCall) : Decidable c.InRange := by
  unfold LogCall.InRange
  split <;> infer_instance

/-- The answer of `buf_prealloc` in the form of that of `cont_buf_prealloc`. -/
def grant (r : Bool × LogData) : Option (ℕ × ℕ) × LogData :=
  (if r.1 then some (0, 0) else none, r.2)

/-- The allocation of a call: where a string goes and the offset, for the other calls both are 0. -/
def LogCall.prealloc (s : LogData) : LogCall → Option (ℕ × ℕ) × LogData
  | .push pStr => contBufPrealloc cfg (stringWords pStr) s
  | .std _ _ args timestamp => grant (bufPrealloc cfg args.length timestamp s)
  | .hexdump _ _ pData timestamp => grant (bufPrealloc cfg (ceilDiv pData.length 4 + 1) timestamp s)

/-- What a call stores after its allocation, by the write index that it has copied. -/
def LogCall.writes (wrIdx : ℕ) (r : ℕ × ℕ) : LogCall → List Write
  | .push pStr => pushWrites cfg wrIdx pStr r.1 r.2
  | .std severity pStr args timestamp => stdWrites cfg wrIdx severity pStr args timestamp
  | .hexdump severity pStr pData timestamp =>
    hexdumpWrites cfg wrIdx severity pStr pData timestamp

/-- The standard calls are one function. -/
theorem call_std (s : LogData) {severity pStr timestamp : ℕ} {args : List ℕ}
    (hargs : args.length ≤ 6) : s.call cfg (.std severity pStr args timestamp) =
      frontendStd cfg severity pStr args timestamp s := by
  rcases args with _ | ⟨v0, _ | ⟨v1, _ | ⟨v2, _ | ⟨v3, _ | ⟨v4, _ | ⟨v5, _ | ⟨v6, args⟩⟩⟩⟩⟩⟩⟩
  · rfl
  · rfl
  · rfl
  · rfl
  · rfl
  · rfl
  · rfl
  · simp only [List.length_cons] at hargs
    omega

/-- The stores after an allocation, if it has succeeded. -/
def LogCall.stores (wrIdx : ℕ) (r : Option (ℕ × ℕ)) (c : LogCall) : List Write :=
  r.elim [] fun p => c.writes cfg wrIdx p

@[simp] theorem stores_none (wrIdx : ℕ) (c : LogCall) : c.stores cfg wrIdx none = [] := rfl

@[simp] theorem stores_some (wrIdx : ℕ) (r : ℕ × ℕ) (c : LogCall) :
    c.stores cfg wrIdx (some r) = c.writes cfg wrIdx r := rfl

@[simp] theorem write_nil (s : LogData) : s.write [] = s := rfl

/-- What a call comes to that stores if `buf_prealloc` has answered so. -/
theorem write_grant (wrIdx : ℕ) (c : LogCall) (r : Bool × LogData) :
    (grant r).2.write (c.stores cfg wrIdx (grant r).1) =
      r.2.write (if r.1 then c.writes cfg wrIdx (0, 0) else []) := by
  obtain ⟨ok, t⟩ := r
  cases ok
  · rfl
  · rfl

/-- **A call** is a copy of the write index, the allocation and the stores. -/
theorem call_eq (s : LogData) {c : LogCall} (hc : c.InRange) :
    s.call cfg c = (c.prealloc cfg s).2.write (c.stores cfg s.wrIdx (c.prealloc cfg s).1) := by
  cases c with
  | push pStr => rfl
  | std severity pStr args timestamp =>
    rw [call_std cfg s hc.2.2.1]
    exact (write_grant cfg s.wrIdx (.std severity pStr args timestamp) _).symm
  | hexdump severity pStr pData timestamp =>
    exact (write_grant cfg s.wrIdx (.hexdump severity pStr pData timestamp) _).symm

/-! ## §2 Room -/

theorem size_pos : 0 < cfg.size := Nat.two_pow_pos _

theorem size_dvd : cfg.size ∣ 2 ^ 32 := Nat.pow_dvd_pow 2 (cfg.bits_lt.le.trans (by decide))

theorem size_lt : cfg.size < 2 ^ 30 := Nat.pow_lt_pow_right (by decide) cfg.bits_lt

theorem headerSize_pos : 0 < cfg.headerSize := by
  unfold LogConfig.headerSize
  split <;> decide

/-- **The words in use fit into the buffer.** -/
structure Sound (s : LogData) : Prop where
  wrIdx_lt : s.wrIdx < 2 ^ 32
  rdIdx_lt : s.rdIdx < 2 ^ 32
  used_le : s.used ≤ cfg.size

/-- The words in use, the oldest first. -/
def LogData.live (s : LogData) : List ℕ := ringSegment cfg.size s.rdIdx s.used

variable {cfg} {s : LogData} {n : ℕ}

@[simp] theorem used_write (s : LogData) (ws : List Write) : (s.write ws).used = s.used := rfl

@[simp] theorem live_write (s : LogData) (ws : List Write) : (s.write ws).live cfg = s.live cfg := rfl

theorem Sound.write (h : Sound cfg s) (ws : List Write) : Sound cfg (s.write ws) :=
  ⟨h.wrIdx_lt, h.rdIdx_lt, h.used_le⟩

theorem Sound.available (h : Sound cfg s) : s.available cfg = cfg.size - s.used := by
  have hle := h.used_le
  have hlt := size_lt cfg
  unfold LogData.available
  omega

theorem Sound.used_advance (h : Sound cfg s) (hfits : s.used + n ≤ cfg.size) :
    (s.advance n).used = s.used + n := by
  have hwr := h.wrIdx_lt
  have hrd := h.rdIdx_lt
  have hlt := size_lt cfg
  have hadvance : (s.advance n).used = ((s.wrIdx + n) % 2 ^ 32 + 2 ^ 32 - s.rdIdx) % 2 ^ 32 := rfl
  rw [hadvance]
  unfold LogData.used at hfits ⊢
  omega

theorem Sound.advance (h : Sound cfg s) (hfits : s.used + n ≤ cfg.size) :
    Sound cfg (s.advance n) := by
  refine ⟨Nat.mod_lt _ (by decide), h.rdIdx_lt, ?_⟩
  rw [h.used_advance hfits]
  exact hfits

/-- The write index is at the end of the words in use. -/
theorem Sound.wrIdx_eq (h : Sound cfg s) : s.wrIdx = (s.rdIdx + s.used) % 2 ^ 32 := by
  have hwr := h.wrIdx_lt
  have hrd := h.rdIdx_lt
  unfold LogData.used
  omega

theorem Sound.segment (h : Sound cfg s) :
    ringSegment cfg.size s.wrIdx n = ringSegment cfg.size (s.rdIdx + s.used) n := by
  rw [← ringSegment_mod, h.wrIdx_eq, Nat.mod_mod_of_dvd _ (size_dvd cfg), ringSegment_mod]

theorem Sound.live_advance (h : Sound cfg s) (hfits : s.used + n ≤ cfg.size) :
    (s.advance n).live cfg = s.live cfg ++ ringSegment cfg.size s.wrIdx n := by
  have hlive : (s.advance n).live cfg = ringSegment cfg.size s.rdIdx (s.advance n).used := rfl
  rw [hlive, h.used_advance hfits, ringSegment_add, h.segment]
  rfl

theorem Sound.nodup_live (h : Sound cfg s) : (s.live cfg).Nodup := nodup_ringSegment h.used_le

/-- **What is reserved was free.** -/
theorem Sound.free (h : Sound cfg s) (hfits : s.used + n ≤ cfg.size) :
    List.Disjoint (s.live cfg) (ringSegment cfg.size s.wrIdx n) := by
  have hnodup := (h.advance hfits).nodup_live
  rw [h.live_advance hfits] at hnodup
  exact List.disjoint_of_nodup_append hnodup

/-! ## §3 Where the stores go -/

@[simp] theorem length_headerWords (header timestamp : ℕ) :
    (headerWords cfg header timestamp).length = cfg.headerSize := by
  unfold headerWords LogConfig.headerSize
  split <;> rfl

theorem ceilDiv_four (k : ℕ) : k ≤ 4 * ceilDiv k 4 ∧ 4 * ceilDiv k 4 < k + 4 := by
  unfold ceilDiv
  omega

/-- A byte of data is in one of the words for the data. -/
theorem div_lt_ceilDiv {k l : ℕ} (h : k < l) : k / 4 < ceilDiv l 4 := by
  have hceil := ceilDiv_four l
  omega

variable {wrIdx idx : ℕ}

theorem index_stdWrites {severity pStr timestamp : ℕ} {args : List ℕ} {x : Write}
    (hx : x ∈ stdWrites cfg wrIdx severity pStr args timestamp) :
    x.index ∈ ringSegment cfg.size wrIdx (args.length + cfg.headerSize) := by
  have hindex := index_ringWords hx
  rwa [List.length_append, length_headerWords, Nat.add_comm] at hindex

theorem index_overflowWrites {timestamp : ℕ} {x : Write}
    (hx : x ∈ overflowWrites cfg wrIdx timestamp) :
    x.index ∈ ringSegment cfg.size wrIdx cfg.headerSize := by
  have hindex := index_ringWords hx
  rwa [length_headerWords] at hindex

/-- The address of a word of the ring. -/
theorem four_mul_mod (cfg : LogConfig) (idx : ℕ) :
    4 * idx % (4 * cfg.size) = 4 * (idx % cfg.size) := Nat.mul_mod_mul_left 4 idx cfg.size

/-- **The two copies of a hex dump** go round the ring. -/
theorem dataWrites_eq {pData : List ℕ} (hl : pData.length ≤ 4 * cfg.size) :
    dataWrites cfg idx pData = ringBytes (4 * cfg.size) (4 * idx) pData := by
  have hmod : idx % cfg.size < cfg.size := Nat.mod_lt _ (size_pos cfg)
  have haddr := four_mul_mod cfg idx
  have hspace : space0 cfg idx = 4 * (cfg.size - idx % cfg.size) := rfl
  unfold dataWrites
  split
  · next hfits =>
    apply bytesWrites_eq_ringBytes haddr
    omega
  · next hwraps =>
    have hlength : (pData.take (space0 cfg idx)).length = space0 cfg idx := by
      rw [List.length_take]
      omega
    have hfirst : bytesWrites (4 * (idx % cfg.size)) (pData.take (space0 cfg idx)) =
        ringBytes (4 * cfg.size) (4 * idx) (pData.take (space0 cfg idx)) := by
      apply bytesWrites_eq_ringBytes haddr
      omega
    -- the second copy starts at the end of the buffer, which is its beginning
    have hsecond : bytesWrites 0 (pData.drop (space0 cfg idx)) =
        ringBytes (4 * cfg.size) (4 * idx + space0 cfg idx) (pData.drop (space0 cfg idx)) := by
      apply bytesWrites_eq_ringBytes
      · have hend : 4 * idx + space0 cfg idx = 4 * cfg.size * (idx / cfg.size + 1) := by
          have hdiv := Nat.div_add_mod idx cfg.size
          rw [hspace, Nat.mul_add, Nat.mul_one, Nat.mul_assoc]
          omega
        rw [hend]
        exact Nat.mul_mod_right _ _
      · rw [List.length_drop]
        omega
    have hsplit : ringBytes (4 * cfg.size) (4 * idx) pData =
        ringBytes (4 * cfg.size) (4 * idx) (pData.take (space0 cfg idx)) ++
          ringBytes (4 * cfg.size) (4 * idx + space0 cfg idx) (pData.drop (space0 cfg idx)) := by
      conv_lhs => rw [← List.take_append_drop (space0 cfg idx) pData]
      rw [ringBytes_append, hlength]
    rw [hfirst, hsecond, hsplit]

/-- Bytes from a word on are in the words that they need. -/
theorem index_ringBytes_word {l : List ℕ} {x : Write}
    (hx : x ∈ ringBytes (4 * cfg.size) (4 * idx) l) :
    x.index ∈ ringSegment cfg.size idx (ceilDiv l.length 4) := by
  obtain ⟨k, hk, hindex⟩ := index_ringBytes hx
  rw [mem_ringSegment]
  refine ⟨k / 4, div_lt_ceilDiv hk, ?_⟩
  rw [hindex, Nat.mul_add_div (by decide)]

theorem index_hexdumpWrites {severity pStr timestamp : ℕ} {pData : List ℕ} {x : Write}
    (hl : pData.length ≤ 4 * cfg.size)
    (hx : x ∈ hexdumpWrites cfg wrIdx severity pStr pData timestamp) :
    x.index ∈ ringSegment cfg.size wrIdx (ceilDiv pData.length 4 + 1 + cfg.headerSize) := by
  have hwords : ceilDiv pData.length 4 + 1 + cfg.headerSize =
      cfg.headerSize + 1 + ceilDiv pData.length 4 := by omega
  rw [hwords, ringSegment_add, List.mem_append]
  unfold hexdumpWrites at hx
  rw [dataWrites_eq hl] at hx
  rcases List.mem_append.mp hx with hhead | hdata
  · have hindex := index_ringWords hhead
    rw [List.length_append, length_headerWords] at hindex
    exact .inl hindex
  · exact .inr (index_ringBytes_word hdata)

/-! ## §4 Allocation -/

variable (cfg) in
/-- The words that `cont_buf_prealloc` takes: the string and its header, after the words up to the
    end of the buffer if it does not fit there. -/
def contWords (len32 : ℕ) (s : LogData) : ℕ :=
  let availableWords := cfg.size - s.wrIdx % cfg.size
  if len32 ≤ availableWords then len32
  else if len32 < s.rdIdx % cfg.size then len32 + availableWords - 1
  else 0

/-- What the allocation for a string comes to. -/
inductive Takes (cfg : LogConfig) (len32 : ℕ) (s : LogData) : Option (ℕ × ℕ) × LogData → Prop
  /-- A string at `pDst`, after the header and `offset` words that are skipped. -/
  | took (pDst offset : ℕ) : (s.wrIdx + 1 + offset) % cfg.size = pDst →
      pDst + (len32 - 1) ≤ cfg.size → offset = 0 ∨ offset + 1 < len32 →
      contWords cfg len32 s = len32 + offset →
      Takes cfg len32 s (some (pDst, offset), s.advance (len32 + offset))
  | full : contWords cfg len32 s = 0 → Takes cfg len32 s (none, s)

/-- A string has at least one word, so that it does not start at the end of the buffer. -/
theorem contBufTake_takes (s : LogData) {len32 : ℕ} (hlen : 2 ≤ len32) :
    Takes cfg len32 s (contBufTake cfg len32 s) := by
  have hmod : s.wrIdx % cfg.size < cfg.size := Nat.mod_lt _ (size_pos cfg)
  have hrd : s.rdIdx % cfg.size < cfg.size := Nat.mod_lt _ (size_pos cfg)
  by_cases hfits : len32 ≤ cfg.size - s.wrIdx % cfg.size
  · have htake : contBufTake cfg len32 s = (some ((s.wrIdx + 1) % cfg.size, 0), s.advance len32) :=
      if_pos hfits
    have hpDst : (s.wrIdx + 1) % cfg.size = s.wrIdx % cfg.size + 1 := by
      rw [← Nat.mod_add_mod, Nat.mod_eq_of_lt (by omega)]
    rw [htake]
    exact .took _ 0 rfl (by omega) (.inl rfl) (if_pos hfits)
  · by_cases hwraps : len32 < s.rdIdx % cfg.size
    · obtain ⟨offset, hoffset⟩ : ∃ offset, offset = cfg.size - s.wrIdx % cfg.size - 1 := ⟨_, rfl⟩
      have hadd : len32 + (cfg.size - s.wrIdx % cfg.size) - 1 = len32 + offset := by omega
      have htake : contBufTake cfg len32 s = (some (0, offset), s.advance (len32 + offset)) := by
        rw [← hadd, hoffset]
        exact (if_neg hfits).trans (if_pos hwraps)
      have hwords : contWords cfg len32 s = len32 + offset := by
        rw [← hadd]
        exact (if_neg hfits).trans (if_pos hwraps)
      have hstart : (s.wrIdx + 1 + offset) % cfg.size = 0 := by
        have hend : s.wrIdx + 1 + offset = cfg.size * (s.wrIdx / cfg.size + 1) := by
          have hdiv := Nat.div_add_mod s.wrIdx cfg.size
          rw [Nat.mul_add, Nat.mul_one]
          omega
        rw [hend]
        exact Nat.mul_mod_right _ _
      rw [htake]
      exact .took 0 offset hstart (by omega) (.inr (by omega)) hwords
    · have htake : contBufTake cfg len32 s = (none, s) := (if_neg hfits).trans (if_neg hwraps)
      rw [htake]
      exact .full ((if_neg hfits).trans (if_neg hwraps))

theorem stringWords_pos (pStr : List ℕ) : 1 ≤ stringWords pStr := by
  unfold stringWords ceilDiv
  omega

/-- **A string** that is pushed is in the words after the header and the skipped ones. -/
theorem pushWrites_eq {pStr : List ℕ} {pDst offset : ℕ}
    (hpDst : (wrIdx + 1 + offset) % cfg.size = pDst)
    (hfits : pDst + stringWords pStr ≤ cfg.size) :
    pushWrites cfg wrIdx pStr pDst offset =
      .word (wrIdx % cfg.size) (pushedHeader offset (stringWords pStr)) ::
        ringBytes (4 * cfg.size) (4 * (wrIdx + 1 + offset)) (pStr ++ [0]) := by
  have hceil := ceilDiv_four (pStr.length + 1)
  have hwords : stringWords pStr = ceilDiv (pStr.length + 1) 4 := rfl
  have hbytes : bytesWrites (4 * pDst) (pStr ++ [0]) =
      ringBytes (4 * cfg.size) (4 * (wrIdx + 1 + offset)) (pStr ++ [0]) := by
    apply bytesWrites_eq_ringBytes
    · rw [four_mul_mod, hpDst]
    · rw [List.length_append, List.length_singleton]
      omega
  unfold pushWrites
  rw [hbytes]

theorem index_pushWrites {pStr : List ℕ} {pDst offset : ℕ} {x : Write}
    (hpDst : (wrIdx + 1 + offset) % cfg.size = pDst)
    (hfits : pDst + stringWords pStr ≤ cfg.size)
    (hx : x ∈ pushWrites cfg wrIdx pStr pDst offset) :
    x.index ∈ ringSegment cfg.size wrIdx (stringWords pStr + 1 + offset) := by
  rw [pushWrites_eq hpDst hfits] at hx
  have hwords : stringWords pStr + 1 + offset = 1 + (offset + stringWords pStr) := by omega
  rw [hwords, ringSegment_add, ringSegment_add, List.mem_append, List.mem_append]
  rcases List.mem_cons.mp hx with rfl | hstring
  · exact .inl (mem_ringSegment.mpr ⟨0, Nat.one_pos, rfl⟩)
  · have hindex := index_ringBytes_word hstring
    rw [List.length_append, List.length_singleton] at hindex
    exact .inr (.inr hindex)

variable (cfg) in
/-- **There is room for a string**: the words that it takes are free. The other calls ask for room
    themselves. -/
def LogCall.Fits (s : LogData) : LogCall → Prop
  | .push pStr => s.used + contWords cfg (stringWords pStr + 1) s ≤ cfg.size
  | _ => True

instance (s : LogData) (c : LogCall) : Decidable (c.Fits cfg s) := by
  cases c <;> unfold LogCall.Fits <;> infer_instance

/-- **What an allocation comes to**, for a call that fits. -/
inductive Prealloc (cfg : LogConfig) (s : LogData) (c : LogCall) :
    Option (ℕ × ℕ) × LogData → Prop
  | reserved (r : ℕ × ℕ) (n : ℕ) : s.used + n ≤ cfg.size →
      (∀ x ∈ c.writes cfg s.wrIdx r, x.index ∈ ringSegment cfg.size s.wrIdx n) →
      Prealloc cfg s c (some r, s.advance n)
  | overflow (timestamp : ℕ) : s.used + cfg.headerSize ≤ cfg.size →
      Prealloc cfg s c
        (none, (s.write (overflowWrites cfg s.wrIdx timestamp)).advance cfg.headerSize)
  /-- Words are reserved for a string, but there is no room for an overflow entry after it. -/
  | lost (n : ℕ) : s.used + n ≤ cfg.size → Prealloc cfg s c (none, s.advance n)
  | refused : Prealloc cfg s c (none, s)

/-- `buf_prealloc` -/
theorem grant_prealloc (h : Sound cfg s) {c : LogCall} {nargs timestamp : ℕ}
    (hwrites : s.used + (nargs + cfg.headerSize) ≤ cfg.size → ∀ x ∈ c.writes cfg s.wrIdx (0, 0),
      x.index ∈ ringSegment cfg.size s.wrIdx (nargs + cfg.headerSize)) :
    Prealloc cfg s c (grant (bufPrealloc cfg nargs timestamp s)) := by
  have hle := h.used_le
  have havailable := h.available
  by_cases hfull : nargs + cfg.headerSize + cfg.headerSize > s.available cfg
  · by_cases hroom : s.available cfg ≥ cfg.headerSize
    · have hpre : bufPrealloc cfg nargs timestamp s =
          (false, (s.write (overflowWrites cfg s.wrIdx timestamp)).advance cfg.headerSize) := by
        rw [bufPrealloc, if_pos hfull, if_pos hroom]
      rw [hpre]
      exact .overflow timestamp (by omega)
    · have hpre : bufPrealloc cfg nargs timestamp s = (false, s) := by
        rw [bufPrealloc, if_pos hfull, if_neg hroom]
      rw [hpre]
      exact .refused
  · have hpre : bufPrealloc cfg nargs timestamp s = (true, s.advance (nargs + cfg.headerSize)) := by
      rw [bufPrealloc, if_neg hfull]
    have hfits : s.used + (nargs + cfg.headerSize) ≤ cfg.size := by omega
    rw [hpre]
    exact .reserved _ _ hfits (hwrites hfits)

/-- **Every allocation.** -/
theorem prealloc_cases (h : Sound cfg s) {c : LogCall} (hfits : c.Fits cfg s) :
    Prealloc cfg s c (c.prealloc cfg s) := by
  cases c with
  | push pStr =>
    have hpos := stringWords_pos pStr
    have htakes : Takes cfg (stringWords pStr + 1) s (contBufTake cfg (stringWords pStr + 1) s) :=
      contBufTake_takes s (by omega)
    show Prealloc cfg s _ (contBufPrealloc cfg (stringWords pStr) s)
    unfold contBufPrealloc
    generalize contBufTake cfg (stringWords pStr + 1) s = r at htakes
    cases htakes with
    | took pDst offset hpDst hend _ hwords =>
      have hroom : s.used + (stringWords pStr + 1 + offset) ≤ cfg.size := hwords ▸ hfits
      have hstring : pDst + stringWords pStr ≤ cfg.size := by omega
      dsimp only
      split
      · exact .lost _ hroom
      · refine .reserved _ _ hroom ?_
        intro x hx
        exact index_pushWrites hpDst hstring hx
    | full =>
      dsimp only
      rw [ite_self]
      exact .refused
  | std severity pStr args timestamp =>
    apply grant_prealloc h
    exact fun _ x hx => index_stdWrites hx
  | hexdump severity pStr pData timestamp =>
    apply grant_prealloc h
    intro hroom x hx
    have hceil := ceilDiv_four pData.length
    have hwords : pData.length ≤ 4 * cfg.size := by omega
    exact index_hexdumpWrites hwords hx

/-- **A call keeps the words in use.** -/
theorem Sound.call_keeps (h : Sound cfg s) {c : LogCall} (hrange : c.InRange)
    (hfits : c.Fits cfg s) {a : ℕ} (ha : a / 4 ∈ s.live cfg) :
    (s.call cfg c).buffer a = s.buffer a := by
  -- what goes to words that were free is not seen
  have hfree : ∀ {n : ℕ} {ws : List Write}, s.used + n ≤ cfg.size →
      (∀ x ∈ ws, x.index ∈ ringSegment cfg.size s.wrIdx n) →
      applyAll s.buffer ws a = s.buffer a := by
    intro n ws hroom hws
    apply applyAll_of_untouched
    intro x hx hindex
    exact h.free hroom ha (hindex ▸ hws x hx)
  have hpre := prealloc_cases h hfits
  rw [call_eq cfg s hrange]
  generalize c.prealloc cfg s = r at hpre
  cases hpre with
  | reserved r n hroom hws => exact hfree hroom hws
  | overflow timestamp hroom => exact hfree hroom fun x hx => index_overflowWrites hx
  | lost => rfl
  | refused => rfl

end NordicEsb.Log
