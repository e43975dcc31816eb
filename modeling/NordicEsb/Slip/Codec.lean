import NordicEsb.Lib.FixedArray
import Mathlib.Data.List.Flatten

/-!
# SLIP Codec

`slip_encode` writes a packet into a buffer: END becomes END ESC_END, ESC becomes ESC ESC_ESC, and
two END bytes are the end of the packet. `slip_decoding_add_char` takes these bytes one by one. It
treats ESC as it treats END: the state behind both is `SLIP_END_RECEIVED`, and no byte leads to
`SLIP_ESC_RECEIVED`.

- `slipBytes` are the bytes of a packet, `slipEncode_eq` says that the encoder writes them
- `feed_slipBytes` is the decoder on a packet without ESC, `feed_slipEsc` the decoder at an ESC

**Main result** (`roundTrip_iff`): a packet is decoded if and only if there is no ESC in it.
-/

namespace NordicEsb.SlipCodec

/-! ## §1 The encoder -/

/-- `SLIP_END` -/
abbrev slipEnd : BitVec 8 := 0xC0

/-- `SLIP_ESC` -/
abbrev slipEsc : BitVec 8 := 0xDB

/-- `SLIP_ESC_END` -/
abbrev slipEscEnd : BitVec 8 := 0xDC

/-- `SLIP_ESC_ESC` -/
abbrev slipEscEsc : BitVec 8 := 0xDD

/-- `p_output` and `output_index`. -/
structure Output (m : ℕ) where
  pOutput : FixedArray m (BitVec 8)
  outputIndex : BitVec 32

variable {m n : ℕ}

/-- `p_output[output_index++] = c` -/
def Output.put (out : Output m) (c : BitVec 8) : Output m :=
  ⟨out.pOutput.set out.outputIndex.toNat c, out.outputIndex + 1⟩

/-- The loop of `slip_encode`. -/
def slipEncodeLoop (outputBufferLength : BitVec 32) : List (BitVec 8) → Output m → Output m
  | [], out => out
  | c :: input, out =>
    if out.outputIndex < outputBufferLength then
      slipEncodeLoop outputBufferLength input
        (if c = slipEnd then (out.put slipEnd).put slipEscEnd
        else if c = slipEsc then (out.put slipEsc).put slipEscEsc
        else out.put c)
    else out

/-- `slip_encode` -/
def slipEncode (pOutput : FixedArray m (BitVec 8)) (pInput : List (BitVec 8))
    (outputBufferLength : BitVec 32) : BitVec 32 × FixedArray m (BitVec 8) :=
  -- The second end byte clarifies that the packet has ended.
  let out := ((slipEncodeLoop outputBufferLength pInput ⟨pOutput, 0⟩).put slipEnd).put slipEnd
  (out.outputIndex, out.pOutput)

/-- The bytes that `slip_encode` has written. -/
def encoded (pOutput : FixedArray m (BitVec 8)) (pInput : List (BitVec 8))
    (outputBufferLength : BitVec 32) : List (BitVec 8) :=
  (slipEncode pOutput pInput outputBufferLength).2.firstN
    (slipEncode pOutput pInput outputBufferLength).1.toNat

/-! ## §2 The decoder -/

/-- `slip_state_t` -/
inductive SlipState where
  | decoding
  | endReceived
  | escReceived
  | clearingInvalidPacket
deriving DecidableEq, Repr

/-- What `slip_decoding_add_char` returns. -/
inductive SlipRet where
  | success
  | errorBusy
  | errorInvalidData
deriving DecidableEq, Repr

/-- `buffer_t` -/
structure Buffer (n : ℕ) where
  pBuffer : FixedArray n (BitVec 8)
  currentIndex : BitVec 32
  currentLength : BitVec 32

/-- `p_buf->p_buffer[p_buf->current_index++] = c; p_buf->current_length++;` -/
def Buffer.put (buf : Buffer n) (c : BitVec 8) : Buffer n :=
  ⟨buf.pBuffer.set buf.currentIndex.toNat c, buf.currentIndex + 1, buf.currentLength + 1⟩

/-- `slip_decoding_add_char` -/
def slipDecodingAddChar (c : BitVec 8) (buf : Buffer n) (currentState : SlipState) :
    SlipRet × Buffer n × SlipState :=
  match currentState with
  | .decoding =>
    if c = slipEnd then (.errorBusy, buf, .endReceived)
    else if c = slipEsc then (.errorBusy, buf, .endReceived)
    else (.errorBusy, buf.put c, .decoding)
  | .escReceived =>
    if c = slipEscEsc then (.errorBusy, buf.put slipEsc, .decoding)
    else (.errorInvalidData, buf, .clearingInvalidPacket)
  | .endReceived =>
    if c = slipEscEnd then (.errorBusy, buf.put slipEnd, .decoding)
    else (.success, buf, .decoding)
  | .clearingInvalidPacket =>
    if c = slipEnd then
      (.errorBusy, { buf with currentIndex := 0, currentLength := 0 }, .decoding)
    else (.errorBusy, buf, .clearingInvalidPacket)

/-- The bytes are decoded one by one. -/
def feed : List (BitVec 8) → Buffer n → SlipState → List SlipRet × Buffer n × SlipState
  | [], buf, state => ([], buf, state)
  | c :: cs, buf, state =>
    match slipDecodingAddChar c buf state with
    | (ret, buf, state) =>
      match feed cs buf state with
      | (rets, buf, state) => (ret :: rets, buf, state)

/-- An empty buffer. -/
structure Buffer.Empty (buf : Buffer n) : Prop where
  index : buf.currentIndex = 0
  length : buf.currentLength = 0

/-- The buffer holds these bytes, and nothing else. -/
structure Buffer.Holds (buf : Buffer n) (l : List (BitVec 8)) : Prop where
  bytes : buf.pBuffer.firstN l.length = l
  index : buf.currentIndex.toNat = l.length
  length : buf.currentLength.toNat = l.length

/-- **The packet is decoded** from these bytes: the last byte completes it, and no other one; and
    the next packet can be decoded. -/
structure RoundTrip (packet bytes : List (BitVec 8)) (buf : Buffer n) : Prop where
  success : ∀ i < bytes.length,
    (feed bytes buf .decoding).1[i]? = some .success ↔ i + 1 = bytes.length
  valid : .errorInvalidData ∉ (feed bytes buf .decoding).1
  packet : (feed bytes buf .decoding).2.1.Holds packet
  ready : (feed bytes buf .decoding).2.2 = .decoding

/-! ## §3 What the encoder writes -/

/-- A byte of a packet. -/
def escape (c : BitVec 8) : List (BitVec 8) :=
  if c = slipEnd then [slipEnd, slipEscEnd]
  else if c = slipEsc then [slipEsc, slipEscEsc]
  else [c]

/-- **The bytes of a packet.** -/
def slipBytes (packet : List (BitVec 8)) : List (BitVec 8) :=
  packet.flatMap escape ++ [slipEnd, slipEnd]

theorem escape_slipEnd : escape slipEnd = [slipEnd, slipEscEnd] := rfl

theorem escape_slipEsc : escape slipEsc = [slipEsc, slipEscEsc] := rfl

theorem escape_of_ne {c : BitVec 8} (hend : c ≠ slipEnd) (hesc : c ≠ slipEsc) : escape c = [c] := by
  unfold escape
  rw [if_neg hend, if_neg hesc]

theorem length_escape_le (c : BitVec 8) : (escape c).length ≤ 2 := by
  unfold escape
  split_ifs <;> simp

theorem length_escape_pos (c : BitVec 8) : 0 < (escape c).length := by
  unfold escape
  split_ifs <;> simp

theorem length_slipBytes (packet : List (BitVec 8)) :
    (slipBytes packet).length = (packet.flatMap escape).length + 2 := by
  simp [slipBytes]

theorem length_slipBytes_cons (c : BitVec 8) (packet : List (BitVec 8)) :
    (slipBytes (c :: packet)).length = (escape c).length + (slipBytes packet).length := by
  simp only [length_slipBytes, List.flatMap_cons, List.length_append]
  omega

theorem two_le_length_slipBytes (packet : List (BitVec 8)) : 2 ≤ (slipBytes packet).length := by
  rw [length_slipBytes]
  omega

/-- A packet needs no more than twice its length, and the two end bytes. -/
theorem length_slipBytes_le (packet : List (BitVec 8)) :
    (slipBytes packet).length ≤ 2 * packet.length + 2 := by
  induction packet with
  | nil => simp [slipBytes]
  | cons c packet ih =>
    have hlen := length_escape_le c
    rw [length_slipBytes_cons, List.length_cons]
    omega

/-- One more cell. -/
theorem firstN_set_succ {α : Type*} (a : FixedArray n α) {k : ℕ} (x : α) (hk : k < n) :
    (a.set k x).firstN (k + 1) = a.firstN k ++ [x] := by
  apply List.ext_getElem
  · simp only [FixedArray.length_firstN, List.length_append, List.length_singleton]
    omega
  · intro i h₁ h₂
    simp only [FixedArray.length_firstN, lt_min_iff] at h₁
    rcases Nat.lt_succ_iff_lt_or_eq.mp h₁.1 with hi | hi
    · rw [List.getElem_append_left (by simp only [FixedArray.length_firstN]; omega)]
      simp [FixedArray.firstN, FixedArray.set, hi.ne]
    · subst hi
      simp [FixedArray.firstN, FixedArray.set]

/-- The output holds these bytes. -/
structure Output.Holds (out : Output m) (l : List (BitVec 8)) : Prop where
  bytes : out.pOutput.firstN l.length = l
  index : out.outputIndex.toNat = l.length

theorem Output.Holds.put {out : Output m} {l : List (BitVec 8)} (h : out.Holds l)
    (c : BitVec 8) (hm : l.length < m) (hlt : l.length + 1 < 2 ^ 32) :
    (out.put c).Holds (l ++ [c]) := by
  have hone : (1 : BitVec 32).toNat = 1 := rfl
  constructor
  · unfold Output.put
    rw [h.index, List.length_append, List.length_singleton, firstN_set_succ _ _ hm, h.bytes]
  · unfold Output.put
    rw [BitVec.toNat_add, h.index, hone, List.length_append, List.length_singleton]
    exact Nat.mod_eq_of_lt hlt

/-- **The loop** writes byte after byte, if all of them and the two end bytes fit. -/
theorem slipEncodeLoop_holds {outputBufferLength : BitVec 32}
    (hm : outputBufferLength.toNat ≤ m) (input : List (BitVec 8)) {out : Output m}
    {l : List (BitVec 8)} (h : out.Holds l)
    (hfits : l.length + (slipBytes input).length ≤ outputBufferLength.toNat) :
    (slipEncodeLoop outputBufferLength input out).Holds (l ++ input.flatMap escape) := by
  have hlt := outputBufferLength.isLt
  induction input generalizing out l with
  | nil => simpa [slipEncodeLoop] using h
  | cons c input ih =>
    rw [length_slipBytes_cons] at hfits
    have hpos := length_escape_pos c
    have hends := two_le_length_slipBytes input
    have hroom : out.outputIndex < outputBufferLength := by
      rw [BitVec.lt_def, h.index]
      omega
    have hstep : ∀ {out' : Output m}, out'.Holds (l ++ escape c) →
        (slipEncodeLoop outputBufferLength input out').Holds
          (l ++ (c :: input).flatMap escape) := by
      intro out' hout
      rw [List.flatMap_cons, ← List.append_assoc]
      apply ih hout
      rw [List.length_append]
      omega
    unfold slipEncodeLoop
    rw [if_pos hroom]
    split_ifs with hend hesc
    · apply hstep
      rw [hend, escape_slipEnd, List.length_cons, List.length_singleton] at hfits
      have hput := (h.put slipEnd (by omega) (by omega)).put slipEscEnd
        (by simp; omega) (by simp; omega)
      rw [List.append_assoc] at hput
      rw [hend, escape_slipEnd]
      exact hput
    · apply hstep
      rw [hesc, escape_slipEsc, List.length_cons, List.length_singleton] at hfits
      have hput := (h.put slipEsc (by omega) (by omega)).put slipEscEsc
        (by simp; omega) (by simp; omega)
      rw [List.append_assoc] at hput
      rw [hesc, escape_slipEsc]
      exact hput
    · apply hstep
      rw [escape_of_ne hend hesc]
      exact h.put c (by omega) (by omega)

/-- **The encoder writes the bytes of the packet**, if there is room for them. -/
theorem slipEncode_eq (pOutput : FixedArray m (BitVec 8)) (packet : List (BitVec 8))
    (outputBufferLength : BitVec 32) (hm : outputBufferLength.toNat ≤ m)
    (hfits : (slipBytes packet).length ≤ outputBufferLength.toNat) :
    encoded pOutput packet outputBufferLength = slipBytes packet := by
  have hlt := outputBufferLength.isLt
  have hempty : Output.Holds ⟨pOutput, 0⟩ [] := ⟨by simp [FixedArray.firstN], rfl⟩
  have hloop := slipEncodeLoop_holds hm packet hempty (by simpa using hfits)
  rw [List.nil_append] at hloop
  rw [length_slipBytes] at hfits
  have hout := (hloop.put slipEnd (by omega) (by omega)).put slipEnd
    (by simp only [List.length_append, List.length_singleton]; omega)
    (by simp only [List.length_append, List.length_singleton]; omega)
  rw [List.append_assoc, List.singleton_append] at hout
  unfold encoded slipEncode
  dsimp only
  rw [hout.index]
  exact hout.bytes

/-! ## §4 What the decoder reads -/

theorem Buffer.Empty.holds {buf : Buffer n} (h : buf.Empty) : buf.Holds [] :=
  ⟨by simp [FixedArray.firstN], by rw [h.index]; rfl, by rw [h.length]; rfl⟩

theorem Buffer.Holds.put {buf : Buffer n} {l : List (BitVec 8)} (h : buf.Holds l) (c : BitVec 8)
    (hn : l.length < n) (hlt : l.length + 1 < 2 ^ 32) : (buf.put c).Holds (l ++ [c]) := by
  have hone : (1 : BitVec 32).toNat = 1 := rfl
  constructor
  · unfold Buffer.put
    rw [h.index, List.length_append, List.length_singleton, firstN_set_succ _ _ hn, h.bytes]
  · unfold Buffer.put
    rw [BitVec.toNat_add, h.index, hone, List.length_append, List.length_singleton]
    exact Nat.mod_eq_of_lt hlt
  · unfold Buffer.put
    rw [BitVec.toNat_add, h.length, hone, List.length_append, List.length_singleton]
    exact Nat.mod_eq_of_lt hlt

theorem feed_append (cs cs' : List (BitVec 8)) (buf : Buffer n) (state : SlipState) :
    feed (cs ++ cs') buf state =
      ((feed cs buf state).1 ++ (feed cs' (feed cs buf state).2.1 (feed cs buf state).2.2).1,
        (feed cs' (feed cs buf state).2.1 (feed cs buf state).2.2).2) := by
  induction cs generalizing buf state with
  | nil => rfl
  | cons c cs ih =>
    simp only [List.cons_append, feed, ih]

/-- **A byte other than ESC** is put into the buffer. -/
theorem feed_escape {c : BitVec 8} (hc : c ≠ slipEsc) (buf : Buffer n) :
    feed (escape c) buf .decoding =
      (List.replicate (escape c).length .errorBusy, buf.put c, .decoding) := by
  by_cases hend : c = slipEnd
  · rw [hend]
    rfl
  · have hadd : slipDecodingAddChar c buf .decoding = (.errorBusy, buf.put c, .decoding) := by
      unfold slipDecodingAddChar
      dsimp only
      rw [if_neg hend, if_neg hc]
    rw [escape_of_ne hend hc]
    unfold feed
    rw [hadd]
    rfl

/-- **A packet without ESC** is put into the buffer. -/
theorem feed_flatMap_escape {packet l : List (BitVec 8)} (hesc : slipEsc ∉ packet) {buf : Buffer n}
    (h : buf.Holds l) (hn : l.length + packet.length ≤ n)
    (hlt : l.length + packet.length < 2 ^ 32) :
    ∃ buf' : Buffer n, buf'.Holds (l ++ packet) ∧
      feed (packet.flatMap escape) buf .decoding =
        (List.replicate (packet.flatMap escape).length .errorBusy, buf', .decoding) := by
  induction packet generalizing l buf with
  | nil => exact ⟨buf, by simpa using h, rfl⟩
  | cons c packet ih =>
    simp only [List.mem_cons, not_or] at hesc
    simp only [List.length_cons] at hn hlt
    have hput := h.put c (by omega) (by omega)
    obtain ⟨buf', hholds, hfeed⟩ := ih hesc.2 hput
      (by simp only [List.length_append, List.length_singleton]; omega)
      (by simp only [List.length_append, List.length_singleton]; omega)
    refine ⟨buf', by simpa using hholds, ?_⟩
    rw [List.flatMap_cons, feed_append, feed_escape (Ne.symm hesc.1)]
    dsimp only
    rw [hfeed, List.length_append, List.replicate_add]

/-- The two end bytes complete a packet. -/
theorem feed_end (buf : Buffer n) :
    feed [slipEnd, slipEnd] buf .decoding = ([.errorBusy, .success], buf, .decoding) := rfl

/-- **At an ESC** the packet is complete for the decoder. -/
theorem feed_slipEsc (buf : Buffer n) :
    feed (escape slipEsc) buf .decoding = ([.errorBusy, .success], buf, .decoding) := rfl

/-- A packet without ESC is decoded. -/
theorem roundTrip_slipBytes {packet : List (BitVec 8)} (hesc : slipEsc ∉ packet) {buf : Buffer n}
    (h : buf.Empty) (hn : packet.length ≤ n) (hlt : packet.length < 2 ^ 32) :
    RoundTrip packet (slipBytes packet) buf := by
  obtain ⟨buf', hholds, hfeed⟩ := feed_flatMap_escape hesc h.holds (by simpa using hn)
    (by simpa using hlt)
  have hbytes : feed (slipBytes packet) buf .decoding =
      (List.replicate (packet.flatMap escape).length .errorBusy ++ [.errorBusy, .success], buf',
        .decoding) := by
    unfold slipBytes
    rw [feed_append, hfeed]
    rfl
  have hlen := length_slipBytes packet
  constructor
  · intro i hi
    rw [hbytes, hlen]
    rw [hlen] at hi
    rcases Nat.lt_or_ge i (packet.flatMap escape).length with hlt | hge
    · rw [List.getElem?_append_left (by simpa using hlt)]
      simp only [List.getElem?_replicate, hlt, if_true]
      constructor
      · intro hbusy
        cases hbusy
      · intro heq
        omega
    · rw [List.getElem?_append_right (by simpa using hge), List.length_replicate]
      -- Only the second end byte is left that completes the packet.
      obtain ⟨k, rfl⟩ : ∃ k, i = (packet.flatMap escape).length + k :=
        ⟨i - (packet.flatMap escape).length, by omega⟩
      rw [Nat.add_sub_cancel_left]
      match k with
      | 0 => simp
      | 1 => simp
      | k + 2 => omega
  · rw [hbytes]
    simp
  · rw [hbytes]
    simpa using hholds
  · rw [hbytes]

/-- **A packet is decoded if and only if there is no ESC in it.** -/
theorem roundTrip_iff {m n : ℕ} (packet : List (BitVec 8)) (pOutput : FixedArray m (BitVec 8))
    (outputBufferLength : BitVec 32) (hm : outputBufferLength.toNat ≤ m)
    (hfits : 2 * packet.length + 2 ≤ outputBufferLength.toNat) (buf : Buffer n)
    (hempty : buf.Empty) (hn : packet.length ≤ n) :
    RoundTrip packet (encoded pOutput packet outputBufferLength) buf ↔ slipEsc ∉ packet := by
  have hlt := outputBufferLength.isLt
  rw [slipEncode_eq pOutput packet outputBufferLength hm
    ((length_slipBytes_le packet).trans hfits)]
  constructor
  · intro h hmem
    obtain ⟨pre, post, rfl, hpre⟩ := List.eq_append_cons_of_mem hmem
    simp only [List.length_append, List.length_cons] at hn hfits
    obtain ⟨buf', -, hfeed⟩ := feed_flatMap_escape hpre hempty.holds
      (by simp only [List.length_nil]; omega) (by simp only [List.length_nil]; omega)
    obtain ⟨rest, hrest⟩ : ∃ rest, rest = post.flatMap escape ++ [slipEnd, slipEnd] := ⟨_, rfl⟩
    have hbytes : slipBytes (pre ++ slipEsc :: post) =
        pre.flatMap escape ++ (escape slipEsc ++ rest) := by
      simp [slipBytes, hrest]
    have hlen : 2 ≤ rest.length := by simp [hrest]
    have hlong : (slipBytes (pre ++ slipEsc :: post)).length =
        (pre.flatMap escape).length + (2 + rest.length) := by
      rw [hbytes, List.length_append, List.length_append]
      rfl
    -- The second byte of the ESC completes the packet.
    have hearly : (feed (slipBytes (pre ++ slipEsc :: post)) buf .decoding).1[
        (pre.flatMap escape).length + 1]? = some .success := by
      rw [hbytes, feed_append, hfeed]
      dsimp only
      rw [feed_append, feed_slipEsc, List.getElem?_append_right (by simp)]
      simp
    have hlast := (h.success _ (by omega)).mp hearly
    omega
  · intro hesc
    exact roundTrip_slipBytes hesc hempty hn (by omega)

/-- A packet with an END, and room for it. -/
theorem roundTrip_end :
    RoundTrip [1, slipEnd, 2]
        (encoded (FixedArray.replicate 8 0) [1, slipEnd, 2] 8)
        (⟨FixedArray.replicate 3 0, 0, 0⟩ : Buffer 3) ↔
      slipEsc ∉ [1, slipEnd, 2] :=
  roundTrip_iff [1, slipEnd, 2] (FixedArray.replicate 8 0) 8 (by decide) (by decide)
    ⟨FixedArray.replicate 3 0, 0, 0⟩ ⟨rfl, rfl⟩ (by decide)

/-- **The packet ESC** is decoded as two empty packets. -/
theorem not_roundTrip_esc :
    ¬ ∀ (m n : ℕ) (packet : List (BitVec 8)) (pOutput : FixedArray m (BitVec 8))
      (outputBufferLength : BitVec 32), outputBufferLength.toNat ≤ m →
      2 * packet.length + 2 ≤ outputBufferLength.toNat → ∀ buf : Buffer n, buf.Empty →
      packet.length ≤ n → RoundTrip packet (encoded pOutput packet outputBufferLength) buf := by
  intro hall
  have htrip := hall 4 1 [slipEsc] (FixedArray.replicate 4 0) 4 (by decide) (by decide)
    ⟨FixedArray.replicate 1 0, 0, 0⟩ ⟨rfl, rfl⟩ (by decide)
  have hearly := (htrip.success 1 (by decide)).mp (by decide)
  exact absurd hearly (by decide)

end NordicEsb.SlipCodec
