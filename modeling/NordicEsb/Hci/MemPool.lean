import NordicEsb.Lib.FixedArray
import NordicEsb.Lib.Machine
import NordicEsb.Lib.RingSegment
import Mathlib.Data.Nat.Bitwise

/-!
# The Memory Pool of the HCI Library

The receive buffers of the pool form a ring: a buffer is produced for writing, extracted for
reading, and consumed, in any order; a bit of `free_index` says that a buffer is not free yet.

A buffer is named by its index in `m_rx_buffer_elem_queue`; a pointer to anything else is a number
from the size of the queue on.

**Main result** (`owned_of_reachable`): the pool never hands out a buffer that is still in use,
unless the oldest extracted buffer is consumed after the one behind it and before a later one. The
loop that frees consumed buffers looks at the same bit in every round.
-/

namespace NordicEsb

/-! ## §1 The pool -/

/-- The error codes that the pool returns. -/
inductive HciRet where
  | success
  | errorNoMem
  | errorDataSize
  | errorNull
  | errorInvalidAddr
  | errorInvalidState
deriving DecidableEq, Repr

/-- The configuration of the pool. -/
structure HciMemPoolConfig where
  logQueueSize : ℕ
  /-- A bit for every buffer fits into `free_index`. -/
  logQueueSize_le : logQueueSize ≤ 5
  /-- `HCI_RX_BUF_SIZE` -/
  rxBufSize : BitVec 32

/-- `HCI_RX_BUF_QUEUE_SIZE`, a power of two. -/
def HciMemPoolConfig.queueSize (cfg : HciMemPoolConfig) : ℕ := 2 ^ cfg.logQueueSize

/-- `rx_buffer_queue_t`; the contents of the buffers belong to the users of the pool. -/
structure RxBufferQueue (cfg : HciMemPoolConfig) where
  /-- `p_buffer[i].length` -/
  length : FixedArray cfg.queueSize (BitVec 32)
  freeWindowCount : BitVec 32
  freeAvailableCount : BitVec 32
  readAvailableCount : BitVec 32
  writeIndex : BitVec 32
  readIndex : BitVec 32
  freeIndex : BitVec 32

variable {cfg : HciMemPoolConfig}

/-- `i & (HCI_RX_BUF_QUEUE_SIZE - 1u)` -/
def HciMemPoolConfig.wrap (cfg : HciMemPoolConfig) (i : BitVec 32) : BitVec 32 :=
  i &&& (BitVec.ofNat 32 cfg.queueSize - 1)

/-- `hci_mem_pool_open` -/
def hciMemPoolOpen (q : RxBufferQueue cfg) : RxBufferQueue cfg :=
  { q with
    freeWindowCount := BitVec.ofNat 32 cfg.queueSize
    freeAvailableCount := 0
    readAvailableCount := 0
    writeIndex := 0
    readIndex := 0
    freeIndex := 0 }

/-- `hci_mem_pool_rx_produce`; `ppNull` says that `pp_buffer` is `NULL`. -/
def hciMemPoolRxProduce (length : BitVec 32) (ppNull : Bool) (q : RxBufferQueue cfg) :
    HciRet × Option ℕ × RxBufferQueue cfg :=
  if ppNull then (.errorNull, none, q)
  else if q.freeWindowCount ≠ 0 then
    if length ≤ cfg.rxBufSize then
      (.success, some q.writeIndex.toNat,
        { q with
          freeWindowCount := q.freeWindowCount - 1
          readAvailableCount := q.readAvailableCount + 1
          freeIndex := q.freeIndex ||| (1#32 <<< q.writeIndex)
          writeIndex := cfg.wrap (q.writeIndex + 1) })
    else (.errorDataSize, none, q)
  else (.errorNoMem, none, q)

/-- The first loop of `hci_mem_pool_rx_consume`: the buffer `p` among those from `i` up to the
    read index, at most `fuel`, and the index it ends at. -/
def consumeSearch (q : RxBufferQueue cfg) (p : ℕ) : ℕ → BitVec 32 → Bool × BitVec 32
  | 0, i => (false, i)
  | fuel + 1, i =>
    if i.toNat = p then (true, i)
    else if cfg.wrap (i + 1) ≠ q.readIndex then consumeSearch q p fuel (cfg.wrap (i + 1))
    else (false, cfg.wrap (i + 1))

/-- The second loop of `hci_mem_pool_rx_consume`, at most `fuel` rounds. -/
def consumeFree (consumeIndex : BitVec 32) : ℕ → BitVec 32 → RxBufferQueue cfg → RxBufferQueue cfg
  | 0, _, q => q
  | fuel + 1, startIndex, q =>
    if q.freeIndex &&& (1#32 <<< startIndex) = 0 ∧ q.freeAvailableCount ≠ 0 then
      consumeFree consumeIndex fuel (cfg.wrap (consumeIndex + 1))
        { q with
          freeAvailableCount := q.freeAvailableCount - 1
          freeWindowCount := q.freeWindowCount + 1 }
    else q

/-- Where `hci_mem_pool_rx_consume` starts: the oldest buffer that is not free yet. -/
def RxBufferQueue.startIndex (q : RxBufferQueue cfg) : BitVec 32 :=
  cfg.wrap (q.readIndex - q.freeAvailableCount)

/-- `hci_mem_pool_rx_consume` -/
def hciMemPoolRxConsume (p : ℕ) (q : RxBufferQueue cfg) : HciRet × RxBufferQueue cfg :=
  if q.freeAvailableCount ≠ 0 then
    let (found, consumeIndex) := consumeSearch q p cfg.queueSize q.startIndex
    let (ret, q') : HciRet × RxBufferQueue cfg :=
      if found then
        (.success, { q with freeIndex := q.freeIndex ^^^ (1#32 <<< consumeIndex) })
      else (.errorInvalidAddr, q)
    (ret, consumeFree consumeIndex q.freeAvailableCount.toNat q.startIndex q')
  else (.errorNoMem, q)

/-- `hci_mem_pool_rx_data_size_set` -/
def hciMemPoolRxDataSizeSet (length : BitVec 32) (q : RxBufferQueue cfg) : RxBufferQueue cfg :=
  { q with length := q.length.set (cfg.wrap (q.writeIndex - 1)).toNat length }

/-- `hci_mem_pool_rx_extract`; `ppNull` says that `pp_buffer` or `p_length` is `NULL`. -/
def hciMemPoolRxExtract (ppNull : Bool) (q : RxBufferQueue cfg) :
    HciRet × Option (ℕ × BitVec 32) × RxBufferQueue cfg :=
  if ppNull then (.errorNull, none, q)
  else if q.readAvailableCount ≠ 0 then
    (.success, some (q.readIndex.toNat, q.length.get q.readIndex.toNat),
      { q with
        readAvailableCount := q.readAvailableCount - 1
        freeAvailableCount := q.freeAvailableCount + 1
        readIndex := cfg.wrap (q.readIndex + 1) })
  else (.errorNoMem, none, q)

/-! ## §2 The users of the pool -/

/-- The pool, and who has which buffer. -/
structure PoolRun (cfg : HciMemPoolConfig) where
  queue : RxBufferQueue cfg
  /-- The buffers that have been produced and not yet extracted, oldest first. -/
  unread : List ℕ
  /-- The buffers that have been extracted and not yet consumed, oldest first. -/
  extracted : List ℕ
  /-- The buffers that have been consumed and not produced again. -/
  consumed : List ℕ

inductive PoolCall where
  | rxProduce (length : BitVec 32) (ppNull : Bool)
  | rxDataSizeSet (length : BitVec 32)
  | rxExtract (ppNull : Bool)
  | rxConsume (p : ℕ)

namespace PoolRun

/-- An extracted buffer is consumed once. -/
def Enabled (st : PoolRun cfg) : PoolCall → Prop
  | .rxConsume p => p ∉ st.consumed
  | _ => True

instance (st : PoolRun cfg) (call : PoolCall) : Decidable (st.Enabled call) := by
  cases call <;> unfold Enabled <;> infer_instance

/-- What a call does. -/
def step (st : PoolRun cfg) : PoolCall → PoolRun cfg
  | .rxProduce length ppNull =>
    match hciMemPoolRxProduce length ppNull st.queue with
    | (_, some b, q) =>
      ⟨q, st.unread ++ [b], st.extracted, st.consumed.filter (· ≠ b)⟩
    | (_, none, q) => { st with queue := q }
  | .rxDataSizeSet length => { st with queue := hciMemPoolRxDataSizeSet length st.queue }
  | .rxExtract ppNull =>
    match hciMemPoolRxExtract ppNull st.queue with
    | (_, some (b, _), q) => ⟨q, st.unread.erase b, st.extracted ++ [b], st.consumed⟩
    | (_, none, q) => { st with queue := q }
  | .rxConsume p =>
    { st with
      queue := (hciMemPoolRxConsume p st.queue).2
      extracted := st.extracted.erase p
      consumed := if p ∈ st.extracted then p :: st.consumed else st.consumed }

/-- The calls after `hci_mem_pool_open`. -/
def machine (cfg : HciMemPoolConfig) : Machine (PoolRun cfg) PoolCall where
  start st := ∃ q, st = ⟨hciMemPoolOpen q, [], [], []⟩
  enabled := Enabled
  step := step

instance (st : PoolRun cfg) (call : PoolCall) : Decidable ((machine cfg).enabled st call) :=
  inferInstanceAs (Decidable (st.Enabled call))

end PoolRun

/-! ## §3 Who owns which buffer -/

/-- **The pool keeps its promises** in a state. -/
structure Owned (st : PoolRun cfg) : Prop where
  counts : st.queue.freeWindowCount.toNat + st.queue.freeAvailableCount.toNat
    + st.queue.readAvailableCount.toNat = cfg.queueSize
  /-- A buffer that is produced next is not in use. -/
  produce : ∀ length ppNull b, (hciMemPoolRxProduce length ppNull st.queue).2.1 = some b →
    b ∉ st.unread ∧ b ∉ st.extracted
  /-- A buffer that is extracted next is the oldest unread one. -/
  extract : ∀ ppNull out, (hciMemPoolRxExtract ppNull st.queue).2.1 = some out →
    st.unread.head? = some out.1
  /-- With nothing extracted, all but the unread buffers are free. -/
  free : st.extracted = [] → st.queue.freeWindowCount.toNat = cfg.queueSize - st.unread.length

/-- **Where consumption is orderly**: when the oldest extracted buffer is consumed after the one
    behind it, it is the last one. -/
def PoolRun.Orderly (st : PoolRun cfg) : PoolCall → Prop
  | .rxConsume p => p = st.queue.startIndex.toNat →
    st.queue.freeIndex.getLsbD (cfg.wrap (st.queue.startIndex + 1)).toNat = true ∨
      st.extracted = [p]
  | _ => True

instance (st : PoolRun cfg) (call : PoolCall) : Decidable (st.Orderly call) := by
  cases call <;> unfold PoolRun.Orderly <;> infer_instance

/-- **The ring**: from the buffer `s` on come the extracted buffers and those consumed out of
    order, then the unread ones, then the free ones. -/
structure PoolRing (s : ℕ) (st : PoolRun cfg) : Prop where
  readIndex : st.queue.readIndex.toNat = (s + st.queue.freeAvailableCount.toNat) % cfg.queueSize
  writeIndex : st.queue.writeIndex.toNat
    = (s + st.queue.freeAvailableCount.toNat + st.queue.readAvailableCount.toNat) % cfg.queueSize
  counts : st.queue.freeWindowCount.toNat + st.queue.freeAvailableCount.toNat
    + st.queue.readAvailableCount.toNat = cfg.queueSize
  unread : st.unread = ringSegment cfg.queueSize (s + st.queue.freeAvailableCount.toNat)
    st.queue.readAvailableCount.toNat
  extracted : st.extracted
    = (ringSegment cfg.queueSize s st.queue.freeAvailableCount.toNat).filter
        (st.queue.freeIndex.getLsbD ·)
  marked : ∀ b ∈ st.unread, st.queue.freeIndex.getLsbD b = true
  /-- A buffer in use has not been consumed. -/
  fresh : ∀ b ∈ st.unread ++ st.extracted, b ∉ st.consumed
  spent : ∀ b ∈ ringSegment cfg.queueSize s st.queue.freeAvailableCount.toNat,
    b ∉ st.extracted → b ∈ st.consumed

/-- **The invariant**: besides, the oldest buffer that is not free is in use. -/
structure PoolInv (s : ℕ) (st : PoolRun cfg) : Prop where
  ring : PoolRing s st
  oldest : st.queue.freeAvailableCount ≠ 0 → st.queue.freeIndex.getLsbD (s % cfg.queueSize) = true

variable {s : ℕ} {st : PoolRun cfg} {q : RxBufferQueue cfg}

/-! ### Words -/

theorem queueSize_pos (cfg : HciMemPoolConfig) : 0 < cfg.queueSize := Nat.two_pow_pos _

theorem queueSize_le (cfg : HciMemPoolConfig) : cfg.queueSize ≤ 32 :=
  (Nat.pow_le_pow_right (by decide) cfg.logQueueSize_le : 2 ^ cfg.logQueueSize ≤ 2 ^ 5)

theorem toNat_queueSize (cfg : HciMemPoolConfig) :
    (BitVec.ofNat 32 cfg.queueSize).toNat = cfg.queueSize := by
  have := queueSize_le cfg
  rw [BitVec.toNat_ofNat, Nat.mod_eq_of_lt (by omega)]

/-- The mask takes the index around the ring. -/
@[simp] theorem toNat_wrap (i : BitVec 32) : (cfg.wrap i).toNat = i.toNat % cfg.queueSize := by
  have hpos := queueSize_pos cfg
  have hmask : (BitVec.ofNat 32 cfg.queueSize - 1).toNat = 2 ^ cfg.logQueueSize - 1 := by
    have hsize := toNat_queueSize cfg
    have hle := queueSize_le cfg
    have hone : (1 : BitVec 32) ≤ BitVec.ofNat 32 cfg.queueSize := by
      rw [BitVec.le_def, hsize]
      exact hpos
    rw [BitVec.toNat_sub_of_le hone, hsize]
    rfl
  unfold HciMemPoolConfig.wrap
  rw [BitVec.toNat_and, hmask, Nat.and_two_pow_sub_one_eq_mod]
  rfl

/-- The sizes of rings divide the range of a word. -/
theorem queueSize_dvd (cfg : HciMemPoolConfig) : cfg.queueSize ∣ 2 ^ 32 :=
  Nat.pow_dvd_pow 2 (by have := cfg.logQueueSize_le; omega)

theorem toNat_wrap_succ (i : BitVec 32) :
    (cfg.wrap (i + 1)).toNat = (i.toNat + 1) % cfg.queueSize := by
  rw [toNat_wrap, BitVec.toNat_add]
  exact Nat.mod_mod_of_dvd _ (queueSize_dvd cfg)

theorem toNat_succ {x : BitVec 32} (h : x.toNat < 32) : (x + 1).toNat = x.toNat + 1 := by
  bv_omega

theorem toNat_pred {x : BitVec 32} (h : x ≠ 0) : (x - 1).toNat = x.toNat - 1 := by
  bv_omega

theorem toNat_pos_of_ne {x : BitVec 32} (h : x ≠ 0) : 0 < x.toNat := by
  bv_omega

/-! ### The bits of `free_index` -/

theorem getLsbD_bit {i : BitVec 32} (hi : i.toNat < 32) (b : ℕ) :
    (1#32 <<< i).getLsbD b = decide (b = i.toNat) := by
  rw [BitVec.shiftLeft_eq', ← BitVec.twoPow_eq, BitVec.getLsbD_twoPow]
  simp [hi, eq_comm]

theorem and_bit_eq_zero_iff {i : BitVec 32} (x : BitVec 32) (hi : i.toNat < 32) :
    x &&& (1#32 <<< i) = 0 ↔ x.getLsbD i.toNat = false := by
  rw [BitVec.shiftLeft_eq', ← BitVec.twoPow_eq, BitVec.and_twoPow]
  split
  case isTrue h =>
    rw [h]
    refine ⟨fun hzero => ?_, fun hfalse => by simp at hfalse⟩
    have hbit : (BitVec.twoPow 32 i.toNat).getLsbD i.toNat = true := by
      rw [BitVec.getLsbD_twoPow]
      simp [hi]
    rw [hzero] at hbit
    simp at hbit
  case isFalse h => simpa using h

/-- Producing sets the bit of the buffer. -/
theorem getLsbD_mark {i : BitVec 32} (x : BitVec 32) (hi : i.toNat < 32) (b : ℕ) :
    (x ||| (1#32 <<< i)).getLsbD b = (x.getLsbD b || decide (b = i.toNat)) := by
  rw [BitVec.getLsbD_or, getLsbD_bit hi]

/-- Consuming clears the bit of the buffer. -/
theorem getLsbD_unmark {i : BitVec 32} (x : BitVec 32) (hi : i.toNat < 32)
    (hx : x.getLsbD i.toNat = true) (b : ℕ) :
    (x ^^^ (1#32 <<< i)).getLsbD b = (x.getLsbD b && decide (b ≠ i.toNat)) := by
  rw [BitVec.getLsbD_xor, getLsbD_bit hi]
  by_cases hb : b = i.toNat
  · subst hb
    simp [hx]
  · simp [hb]

/-! ### The loops of `hci_mem_pool_rx_consume` -/

/-- The first loop finds the buffer if it is there. -/
theorem consumeSearch_cases (fuel : ℕ) {p n : ℕ} {i : BitVec 32} (hi : i.toNat = s % cfg.queueSize)
    (hread : q.readIndex.toNat = (s + n) % cfg.queueSize) (hpos : 0 < n) (hn : n ≤ cfg.queueSize)
    (hfuel : n ≤ fuel) :
    (p ∈ ringSegment cfg.queueSize s n ∧
      ∃ j : BitVec 32, j.toNat = p ∧ consumeSearch q p fuel i = (true, j)) ∨
    (p ∉ ringSegment cfg.queueSize s n ∧ consumeSearch q p fuel i = (false, q.readIndex)) := by
  induction fuel generalizing i s n with
  | zero => omega
  | succ fuel ih =>
    obtain ⟨n, rfl⟩ : ∃ m, n = m + 1 := ⟨n - 1, by omega⟩
    have hnext : (cfg.wrap (i + 1)).toNat = (s + 1) % cfg.queueSize := by
      rw [toNat_wrap_succ, hi, Nat.mod_add_mod]
    unfold consumeSearch
    rw [ringSegment_succ, List.mem_cons]
    by_cases hip : i.toNat = p
    · rw [if_pos hip]
      exact .inl ⟨.inl (by rw [← hip, hi]), i, hip, rfl⟩
    · rw [if_neg hip]
      have hne : p ≠ s % cfg.queueSize := fun h => hip (by rw [hi, h])
      by_cases hlast : n = 0
      · -- the read index is next
        subst hlast
        have heq : cfg.wrap (i + 1) = q.readIndex := by
          apply BitVec.eq_of_toNat_eq
          rw [hnext, hread]
        rw [if_neg (fun h => h heq), heq]
        exact .inr ⟨by simp [hne], rfl⟩
      · have hcell : (s + 1) % cfg.queueSize ≠ (s + (n + 1)) % cfg.queueSize := by
          intro h
          have hmod : 1 % cfg.queueSize = (n + 1) % cfg.queueSize :=
            Nat.ModEq.add_left_cancel' s h
          have hsize : 1 < cfg.queueSize := by omega
          rw [Nat.mod_eq_of_lt hsize] at hmod
          rcases Nat.lt_or_ge (n + 1) cfg.queueSize with hlt | hge
          · rw [Nat.mod_eq_of_lt hlt] at hmod
            omega
          · have hfull : n + 1 = cfg.queueSize := by omega
            rw [hfull, Nat.mod_self] at hmod
            omega
        have hneq : cfg.wrap (i + 1) ≠ q.readIndex := by
          intro h
          exact hcell (by rw [← hnext, h, hread])
        rw [if_pos hneq]
        have hrest := ih (s := s + 1) (n := n) hnext
          (by rw [hread]; congr 1; omega) (by omega) (by omega) (by omega)
        rcases hrest with ⟨hmem, j, hj, heq⟩ | ⟨hmem, heq⟩
        · exact .inl ⟨.inr hmem, j, hj, heq⟩
        · exact .inr ⟨fun h => h.elim hne hmem, heq⟩

/-- The second loop stops at a buffer that is in use. -/
theorem consumeFree_stop {c i : BitVec 32} (fuel : ℕ) (hi : i.toNat < 32)
    (hbit : q.freeIndex.getLsbD i.toNat = true) : consumeFree c fuel i q = q := by
  cases fuel with
  | zero => rfl
  | succ fuel =>
    unfold consumeFree
    have hset : ¬ (q.freeIndex &&& (1#32 <<< i) = 0) := by
      rw [and_bit_eq_zero_iff _ hi, hbit]
      simp
    rw [if_neg fun h => hset h.1]

/-- The second loop stops when nothing is left. -/
theorem consumeFree_empty {c i : BitVec 32} (fuel : ℕ) (hempty : q.freeAvailableCount = 0) :
    consumeFree c fuel i q = q := by
  cases fuel with
  | zero => rfl
  | succ fuel =>
    unfold consumeFree
    rw [if_neg (by simp [hempty])]

/-- What the pool is when `k` more buffers are free. -/
def RxBufferQueue.freed (q : RxBufferQueue cfg) (k : ℕ) : RxBufferQueue cfg :=
  { q with
    freeAvailableCount := q.freeAvailableCount - BitVec.ofNat 32 k
    freeWindowCount := q.freeWindowCount + BitVec.ofNat 32 k }

/-- One round of the second loop. -/
theorem consumeFree_succ {c i : BitVec 32} (fuel : ℕ) (hi : i.toNat < 32)
    (hbit : q.freeIndex.getLsbD i.toNat = false) (hne : q.freeAvailableCount ≠ 0) :
    consumeFree c (fuel + 1) i q = consumeFree c fuel (cfg.wrap (c + 1)) (q.freed 1) := by
  conv_lhs => unfold consumeFree
  rw [if_pos ⟨(and_bit_eq_zero_iff _ hi).mpr hbit, hne⟩]
  rfl

/-- **The second loop does not move on**: behind a consumed buffer it frees everything. -/
theorem consumeFree_all {c : BitVec 32} (fuel : ℕ) (hi : (cfg.wrap (c + 1)).toNat < 32)
    (hbit : q.freeIndex.getLsbD (cfg.wrap (c + 1)).toNat = false)
    (hfuel : fuel = q.freeAvailableCount.toNat) :
    consumeFree c fuel (cfg.wrap (c + 1)) q = q.freed fuel := by
  induction fuel generalizing q with
  | zero =>
    unfold consumeFree RxBufferQueue.freed
    simp
  | succ fuel ih =>
    have hne : q.freeAvailableCount ≠ 0 := by
      intro h
      rw [h] at hfuel
      simp at hfuel
    rw [consumeFree_succ fuel hi hbit hne, ih (q := q.freed 1) hbit]
    · unfold RxBufferQueue.freed
      simp only [RxBufferQueue.mk.injEq, true_and, and_true]
      have hsplit : BitVec.ofNat 32 (fuel + 1) = 1#32 + BitVec.ofNat 32 fuel := by
        rw [BitVec.add_comm, BitVec.ofNat_add]
      rw [hsplit]
      constructor
      · bv_omega
      · bv_omega
    · show fuel = (q.freeAvailableCount - 1).toNat
      rw [toNat_pred hne]
      omega

/-! ## §4 The steps -/

/-- The buffers in use are different from one another, and from the next free one. -/
theorem PoolRing.nodup (h : PoolRing s st) :
    (ringSegment cfg.queueSize s st.queue.freeAvailableCount.toNat ++ st.unread).Nodup := by
  rw [h.unread, ← ringSegment_add]
  exact nodup_ringSegment (by have := h.counts; omega)

theorem PoolRing.writeIndex_unused (h : PoolRing s st) (hfree : st.queue.freeWindowCount ≠ 0) :
    st.queue.writeIndex.toNat ∉
      ringSegment cfg.queueSize s st.queue.freeAvailableCount.toNat ++ st.unread := by
  have hcounts := h.counts
  have hpos := toNat_pos_of_ne hfree
  have hnodup := nodup_ringSegment (n := cfg.queueSize) (s := s)
    (k := st.queue.freeAvailableCount.toNat + st.queue.readAvailableCount.toNat + 1) (by omega)
  rw [ringSegment_concat, List.nodup_append, ringSegment_add] at hnodup
  rw [h.unread, h.writeIndex]
  intro hmem
  exact hnodup.2.2 _ hmem _ (List.mem_singleton.mpr rfl) (by rw [Nat.add_assoc])

theorem PoolRing.mem_extracted (h : PoolRing s st) {b : ℕ} (hb : b ∈ st.extracted) :
    b ∈ ringSegment cfg.queueSize s st.queue.freeAvailableCount.toNat ∧
      st.queue.freeIndex.getLsbD b = true := by
  rw [h.extracted] at hb
  exact List.mem_filter.mp hb

theorem PoolRing.unused_extracted (h : PoolRing s st) {b : ℕ}
    (hb : b ∉ ringSegment cfg.queueSize s st.queue.freeAvailableCount.toNat ++ st.unread) :
    b ∉ st.unread ∧ b ∉ st.extracted := by
  rw [List.mem_append, not_or] at hb
  exact ⟨hb.2, fun hmem => hb.1 (h.mem_extracted hmem).1⟩

/-- The pool with its next buffer produced. -/
theorem PoolInv.produced (h : PoolInv s st) (hfree : st.queue.freeWindowCount ≠ 0) :
    PoolInv s
      { queue := { st.queue with
          freeWindowCount := st.queue.freeWindowCount - 1
          readAvailableCount := st.queue.readAvailableCount + 1
          freeIndex := st.queue.freeIndex ||| (1#32 <<< st.queue.writeIndex)
          writeIndex := cfg.wrap (st.queue.writeIndex + 1) }
        unread := st.unread ++ [st.queue.writeIndex.toNat]
        extracted := st.extracted
        consumed := st.consumed.filter (· ≠ st.queue.writeIndex.toNat) } := by
  have hring := h.ring
  have hcounts := hring.counts
  have hsize := queueSize_le cfg
  have hunused := hring.writeIndex_unused hfree
  have hold := hring.unused_extracted hunused
  have hwrite : st.queue.writeIndex.toNat < 32 := by
    rw [hring.writeIndex]
    exact (Nat.mod_lt _ (queueSize_pos cfg)).trans_le hsize
  have hsucc : (st.queue.readAvailableCount + 1).toNat = st.queue.readAvailableCount.toNat + 1 := by
    have := toNat_pos_of_ne hfree
    exact toNat_succ (by omega)
  -- Its bit is set; the other bits stay.
  have hbits := getLsbD_mark st.queue.freeIndex hwrite
  -- The buffer that is written is none of those in use.
  have hseg : ∀ b ∈ ringSegment cfg.queueSize s st.queue.freeAvailableCount.toNat,
      b ≠ st.queue.writeIndex.toNat := by
    rintro b hb rfl
    exact hunused (List.mem_append_left _ hb)
  refine ⟨⟨hring.readIndex, ?_, ?_, ?_, ?_, ?_, ?_, ?_⟩, ?_⟩
  · dsimp only
    rw [toNat_wrap_succ, hring.writeIndex, Nat.mod_add_mod, hsucc, Nat.add_assoc]
  · dsimp only
    have := toNat_pos_of_ne hfree
    rw [toNat_pred hfree, hsucc]
    omega
  · dsimp only
    rw [hsucc, ringSegment_concat, ← hring.unread, hring.writeIndex]
  · dsimp only
    rw [hring.extracted]
    apply List.filter_congr
    intro b hb
    rw [hbits, decide_eq_false (hseg b hb), Bool.or_false]
  · intro b hb
    dsimp only at hb ⊢
    rw [hbits]
    rcases List.mem_append.mp hb with hb | hb
    · rw [hring.marked b hb, Bool.true_or]
    · simp [List.mem_singleton.mp hb]
  · intro b hb hmem
    obtain ⟨hmem, hne⟩ := List.mem_filter.mp hmem
    have hne : b ≠ st.queue.writeIndex.toNat := by simpa using hne
    refine hring.fresh b ?_ hmem
    simpa [hne] using hb
  · intro b hb hnot
    have hne := hseg b hb
    exact List.mem_filter.mpr ⟨hring.spent b hb hnot, by simpa using hne⟩
  · intro hne
    dsimp only
    rw [hbits, h.oldest hne, Bool.true_or]

/-- The pool with its oldest unread buffer extracted. -/
theorem PoolInv.extract (h : PoolInv s st) (hread : st.queue.readAvailableCount ≠ 0) :
    PoolInv s
      { queue := { st.queue with
          readAvailableCount := st.queue.readAvailableCount - 1
          freeAvailableCount := st.queue.freeAvailableCount + 1
          readIndex := cfg.wrap (st.queue.readIndex + 1) }
        unread := st.unread.erase st.queue.readIndex.toNat
        extracted := st.extracted ++ [st.queue.readIndex.toNat]
        consumed := st.consumed } ∧
    st.unread.head? = some st.queue.readIndex.toNat := by
  have hring := h.ring
  have hcounts := hring.counts
  have hsize := queueSize_le cfg
  have hpos := toNat_pos_of_ne hread
  -- There is a buffer to read, and the read index is at the oldest of them.
  obtain ⟨m, hm⟩ : ∃ m, st.queue.readAvailableCount.toNat = m + 1 :=
    ⟨st.queue.readAvailableCount.toNat - 1, by omega⟩
  have hsucc : (st.queue.freeAvailableCount + 1).toNat = st.queue.freeAvailableCount.toNat + 1 :=
    toNat_succ (by omega)
  have hpred : (st.queue.readAvailableCount - 1).toNat = m := by
    rw [toNat_pred hread]
    omega
  have hunread : st.unread = st.queue.readIndex.toNat ::
      ringSegment cfg.queueSize (s + (st.queue.freeAvailableCount.toNat + 1)) m := by
    rw [hring.unread, hm, ringSegment_succ, hring.readIndex, Nat.add_assoc]
  have hmem : st.queue.readIndex.toNat ∈ st.unread := by
    rw [hunread]
    exact List.mem_cons_self
  refine ⟨⟨⟨?_, ?_, ?_, ?_, ?_, ?_, ?_, ?_⟩, ?_⟩, by rw [hunread]; rfl⟩
  · dsimp only
    rw [toNat_wrap_succ, hring.readIndex, Nat.mod_add_mod, hsucc, Nat.add_assoc]
  · dsimp only
    rw [hring.writeIndex, hsucc, hpred, hm]
    congr 1
    omega
  · dsimp only
    rw [hsucc, hpred]
    omega
  · dsimp only
    rw [hsucc, hpred, hunread, List.erase_cons_head]
  · dsimp only
    rw [hsucc, ringSegment_concat, List.filter_append, ← hring.extracted, ← hring.readIndex]
    simp [hring.marked _ hmem]
  · intro b hb
    exact hring.marked b (List.mem_of_mem_erase hb)
  · intro b hb
    refine hring.fresh b ?_
    simp only [List.mem_append, List.mem_singleton] at hb ⊢
    rcases hb with hb | hb | rfl
    · exact .inl (List.mem_of_mem_erase hb)
    · exact .inr hb
    · exact .inl hmem
  -- An extracted buffer is not spent.
  · intro b hb hnot
    dsimp only at hb hnot
    rw [hsucc, ringSegment_concat, List.mem_append, ← hring.readIndex] at hb
    rw [List.mem_append, not_or] at hnot
    exact hring.spent b (hb.resolve_right hnot.2) hnot.1
  · intro _
    dsimp only
    -- If nothing was extracted, the oldest buffer in use is the one extracted now.
    by_cases hzero : st.queue.freeAvailableCount = 0
    · have hs : s % cfg.queueSize = st.queue.readIndex.toNat := by
        rw [hring.readIndex, hzero]
        rfl
      rw [hs]
      exact hring.marked _ hmem
    · exact h.oldest hzero

/-- The pool with a consumed buffer marked. -/
theorem PoolRing.consumed (h : PoolRing s st) {c : BitVec 32} (hc : c.toNat ∈ st.extracted) :
    PoolRing s
      { queue := { st.queue with freeIndex := st.queue.freeIndex ^^^ (1#32 <<< c) }
        unread := st.unread
        extracted := st.extracted.erase c.toNat
        consumed := c.toNat :: st.consumed } := by
  obtain ⟨hseg, hbit⟩ := h.mem_extracted hc
  have hlt : c.toNat < 32 :=
    (lt_of_mem_ringSegment (queueSize_pos cfg) hseg).trans_le (queueSize_le cfg)
  have hbits := getLsbD_unmark st.queue.freeIndex hlt hbit
  have hnodup := h.nodup
  have hdisj : ∀ b ∈ st.unread, b ≠ c.toNat := by
    rintro b hb rfl
    exact (List.nodup_append.mp hnodup).2.2 _ hseg _ hb rfl
  have hextracted : st.extracted.Nodup := by
    rw [h.extracted]
    exact (List.nodup_append.mp hnodup).1.filter _
  refine ⟨h.readIndex, h.writeIndex, h.counts, h.unread, ?_, ?_, ?_, ?_⟩
  · dsimp only
    rw [hextracted.erase_eq_filter, h.extracted, List.filter_filter]
    apply List.filter_congr
    intro b _
    rw [hbits, Bool.and_comm, Bool.eq_iff_iff]
    simp
  · intro b hb
    dsimp only
    rw [hbits, h.marked b hb]
    simp [hdisj b hb]
  · intro b hb hmem
    dsimp only at hb hmem
    rw [List.mem_append, hextracted.mem_erase_iff] at hb
    have hne : b ≠ c.toNat := hb.elim (hdisj b) And.left
    refine h.fresh b ?_ ((List.mem_cons.mp hmem).resolve_left hne)
    exact List.mem_append.mpr (hb.imp_right And.right)
  · intro b hb hnot
    dsimp only at hb hnot ⊢
    rw [hextracted.mem_erase_iff] at hnot
    by_cases hne : b = c.toNat
    · rw [hne]
      exact List.mem_cons_self
    · exact List.mem_cons_of_mem _ (h.spent b hb fun hmem => hnot ⟨hne, hmem⟩)

/-- The pool with its `k` oldest buffers freed. -/
theorem PoolRing.freed (h : PoolRing s st) {k : ℕ} (hk : k ≤ st.queue.freeAvailableCount.toNat)
    (hclear : ∀ b ∈ ringSegment cfg.queueSize s k, st.queue.freeIndex.getLsbD b = false) :
    PoolRing (s + k) { st with queue := st.queue.freed k } := by
  have hcounts := h.counts
  have hsize := queueSize_le cfg
  have hofNat : (BitVec.ofNat 32 k).toNat = k := by
    rw [BitVec.toNat_ofNat, Nat.mod_eq_of_lt (by omega)]
  have havail : (st.queue.freed k).freeAvailableCount.toNat
      = st.queue.freeAvailableCount.toNat - k := by
    show (st.queue.freeAvailableCount - BitVec.ofNat 32 k).toNat = _
    rw [BitVec.toNat_sub_of_le (by rw [BitVec.le_def, hofNat]; exact hk), hofNat]
  have hwindow : (st.queue.freed k).freeWindowCount.toNat
      = st.queue.freeWindowCount.toNat + k := by
    show (st.queue.freeWindowCount + BitVec.ofNat 32 k).toNat = _
    rw [BitVec.toNat_add, hofNat, Nat.mod_eq_of_lt (by omega)]
  have hsplit : s + k + (st.queue.freeAvailableCount.toNat - k)
      = s + st.queue.freeAvailableCount.toNat := by omega
  have hseg : ringSegment cfg.queueSize s st.queue.freeAvailableCount.toNat
      = ringSegment cfg.queueSize s k
        ++ ringSegment cfg.queueSize (s + k) (st.queue.freeAvailableCount.toNat - k) := by
    rw [← ringSegment_add]
    congr 1
    omega
  refine ⟨?_, ?_, ?_, ?_, ?_, h.marked, h.fresh, ?_⟩
  · dsimp only
    rw [havail, hsplit]
    exact h.readIndex
  · dsimp only
    rw [havail, hsplit]
    exact h.writeIndex
  · dsimp only
    rw [havail, hwindow]
    show _ + _ + st.queue.readAvailableCount.toNat = _
    omega
  · dsimp only
    rw [havail, hsplit]
    exact h.unread
  · dsimp only
    rw [havail, h.extracted, hseg, List.filter_append]
    have hnone : (ringSegment cfg.queueSize s k).filter (st.queue.freeIndex.getLsbD ·) = [] := by
      rw [List.filter_eq_nil_iff]
      intro b hb
      simp [hclear b hb]
    rw [hnone, List.nil_append]
    rfl
  · intro b hb hnot
    dsimp only at hb
    rw [havail] at hb
    refine h.spent b ?_ hnot
    rw [hseg]
    exact List.mem_append_right _ hb

/-- The collection of consumed buffers starts at the buffer `s`. -/
theorem PoolRing.startIndex (h : PoolRing s st) :
    st.queue.startIndex.toNat = s % cfg.queueSize := by
  have hsub : (st.queue.readIndex - st.queue.freeAvailableCount).toNat
      + st.queue.freeAvailableCount.toNat ≡ st.queue.readIndex.toNat [MOD 2 ^ 32] := by
    have hadd := congrArg BitVec.toNat
      (BitVec.sub_add_cancel st.queue.readIndex st.queue.freeAvailableCount)
    rw [BitVec.toNat_add] at hadd
    unfold Nat.ModEq
    rw [hadd, Nat.mod_eq_of_lt st.queue.readIndex.isLt]
  have hmod := hsub.of_dvd (queueSize_dvd cfg)
  rw [h.readIndex] at hmod
  unfold RxBufferQueue.startIndex
  rw [toNat_wrap]
  exact Nat.ModEq.add_right_cancel' _ (hmod.trans (Nat.mod_modEq _ _))

/-- A pool whose consumed buffers are freed. -/
theorem PoolRing.consumeFree (h : PoolRing s st) (hpos : st.queue.freeAvailableCount ≠ 0)
    {c : BitVec 32} (hc : c.toNat = s % cfg.queueSize)
    (hclear : st.queue.freeIndex.getLsbD (s % cfg.queueSize) = false)
    (horderly : st.queue.freeIndex.getLsbD ((s + 1) % cfg.queueSize) = true ∨ st.extracted = []) :
    ∃ s', PoolInv s' { st with
      queue := consumeFree c st.queue.freeAvailableCount.toNat st.queue.startIndex st.queue } := by
  have hsize := queueSize_le cfg
  have hlt : ∀ i, i % cfg.queueSize < 32 :=
    fun i => (Nat.mod_lt i (queueSize_pos cfg)).trans_le hsize
  have hnext : (cfg.wrap (c + 1)).toNat = (s + 1) % cfg.queueSize := by
    rw [toNat_wrap_succ, hc, Nat.mod_add_mod]
  obtain ⟨n, hn⟩ : ∃ n, st.queue.freeAvailableCount.toNat = n + 1 :=
    ⟨st.queue.freeAvailableCount.toNat - 1, by have := toNat_pos_of_ne hpos; omega⟩
  have havail : (st.queue.freed 1).freeAvailableCount.toNat = n := by
    show (st.queue.freeAvailableCount - 1).toNat = n
    rw [toNat_pred hpos]
    omega
  rw [hn, consumeFree_succ n (by rw [h.startIndex]; exact hlt s)
    (by rw [h.startIndex]; exact hclear) hpos]
  have hfirst : PoolRing (s + 1) { st with queue := st.queue.freed 1 } := by
    refine h.freed (by omega) fun b hb => ?_
    rw [ringSegment_one, List.mem_singleton] at hb
    rw [hb]
    exact hclear
  by_cases hbit : st.queue.freeIndex.getLsbD ((s + 1) % cfg.queueSize) = true
  · -- The next buffer is in use.
    refine ⟨s + 1, ?_⟩
    rw [consumeFree_stop (q := st.queue.freed 1) n (by rw [hnext]; exact hlt (s + 1))
      (by rw [hnext]; exact hbit)]
    exact ⟨hfirst, fun _ => hbit⟩
  · -- The next buffer is not in use, so none is.
    have hnone := horderly.resolve_left hbit
    refine ⟨s + 1 + n, ?_⟩
    rw [consumeFree_all (q := st.queue.freed 1) n (by rw [hnext]; exact hlt (s + 1))
      (by rw [hnext]; exact Bool.eq_false_of_not_eq_true hbit) havail.symm]
    refine ⟨hfirst.freed (by rw [havail]) fun b hb => ?_, fun hne => ?_⟩
    · have hempty := hfirst.extracted
      dsimp only at hempty
      rw [hnone, havail, eq_comm, List.filter_eq_nil_iff] at hempty
      simpa using hempty b hb
    · refine absurd ?_ hne
      apply BitVec.eq_of_toNat_eq
      show ((st.queue.freed 1).freeAvailableCount - BitVec.ofNat 32 n).toNat = 0
      have hofNat : (BitVec.ofNat 32 n).toNat = n := by
        rw [BitVec.toNat_ofNat, Nat.mod_eq_of_lt (by have := h.counts; omega)]
      rw [BitVec.toNat_sub_of_le (by rw [BitVec.le_def, hofNat, havail]), hofNat, havail]
      omega

/-- **Consumption**, when it is orderly. -/
theorem PoolInv.consume (h : PoolInv s st) {p : ℕ} (hen : p ∉ st.consumed)
    (horderly : st.Orderly (.rxConsume p)) : ∃ s', PoolInv s' (st.step (.rxConsume p)) := by
  have hring := h.ring
  have hsize := queueSize_le cfg
  have hlt : ∀ i, i % cfg.queueSize < 32 :=
    fun i => (Nat.mod_lt i (queueSize_pos cfg)).trans_le hsize
  unfold PoolRun.step hciMemPoolRxConsume
  dsimp only
  by_cases hzero : st.queue.freeAvailableCount = 0
  · -- Nothing is extracted.
    have hnone : st.extracted = [] := by
      rw [hring.extracted, hzero]
      rfl
    rw [if_neg (fun hne => hne hzero), hnone, if_neg List.not_mem_nil]
    refine ⟨s, ?_⟩
    rw [List.erase_nil, ← hnone]
    exact h
  have holdest := h.oldest hzero
  rw [if_pos hzero]
  -- The search compares the pointer with the buffers between the start and the read index.
  rcases consumeSearch_cases cfg.queueSize (p := p) hring.startIndex hring.readIndex
      (toNat_pos_of_ne hzero) (by have := hring.counts; omega)
      (by have := hring.counts; omega) with ⟨hmem, c, rfl, hsearch⟩ | ⟨hmem, hsearch⟩
  · have hextracted : c.toNat ∈ st.extracted := by
      by_contra hnot
      exact hen (hring.spent _ hmem hnot)
    have hbit := (hring.mem_extracted hextracted).2
    have hclt : c.toNat < 32 :=
      (lt_of_mem_ringSegment (queueSize_pos cfg) hmem).trans_le hsize
    have hbits := getLsbD_unmark st.queue.freeIndex hclt hbit
    have hmarked := hring.consumed hextracted
    rw [hsearch, if_pos hextracted]
    -- Only the consumption of the oldest buffer frees any.
    by_cases hfirst : c.toNat = s % cfg.queueSize
    · -- The oldest buffer is consumed.
      refine hmarked.consumeFree hzero hfirst ?_ ?_
      · dsimp only
        rw [hbits, hfirst]
        simp
      · rcases horderly (by rw [hring.startIndex, hfirst]) with hnext | hlast
        · rw [toNat_wrap_succ, hring.startIndex, Nat.mod_add_mod] at hnext
          dsimp only
          rw [hbits, hnext, hfirst]
          by_cases hsame : (s + 1) % cfg.queueSize = s % cfg.queueSize
          · -- The pool has one buffer only.
            refine .inr ?_
            have hone : cfg.queueSize = 1 := by
              have hmod : (s + 1) % cfg.queueSize = (s + 0) % cfg.queueSize := by simpa using hsame
              have hcancel : 1 % cfg.queueSize = 0 % cfg.queueSize :=
                Nat.ModEq.add_left_cancel' s hmod
              rw [Nat.zero_mod] at hcancel
              have hdvd := Nat.dvd_of_mod_eq_zero hcancel
              exact Nat.dvd_one.mp hdvd
            have hlen : st.queue.freeAvailableCount.toNat = 1 := by
              have := hring.counts
              have := toNat_pos_of_ne hzero
              omega
            have hall : st.extracted = [s % cfg.queueSize] := by
              rw [hring.extracted, hlen, ringSegment_one]
              simp [holdest]
            rw [hall]
            simp
          · exact .inl (by simp [hsame])
        · refine .inr ?_
          dsimp only
          rw [hlast]
          simp
    · -- The oldest buffer stays in use.
      refine ⟨s, ?_⟩
      have hset : (st.queue.freeIndex ^^^ (1#32 <<< c)).getLsbD (s % cfg.queueSize) = true := by
        rw [hbits, holdest]
        simp [Ne.symm hfirst]
      dsimp only
      rw [if_pos rfl, consumeFree_stop _ (by rw [hring.startIndex]; exact hlt s)
        (by rw [hring.startIndex]; exact hset)]
      exact ⟨hmarked, fun _ => hset⟩
  · -- The pointer is not that of an extracted buffer.
    have hnot : p ∉ st.extracted := fun hp => hmem (hring.mem_extracted hp).1
    rw [hsearch, if_neg hnot]
    refine ⟨s, ?_⟩
    dsimp only
    rw [if_neg (by simp), consumeFree_stop _ (by rw [hring.startIndex]; exact hlt s)
      (by rw [hring.startIndex]; exact holdest), List.erase_of_not_mem hnot]
    exact h

/-- **Step lemma.** -/
theorem poolInv_step (h : PoolInv s st) (call : PoolCall) (hen : st.Enabled call)
    (horderly : st.Orderly call) : ∃ s', PoolInv s' (st.step call) := by
  cases call with
  | rxProduce length ppNull =>
    refine ⟨s, ?_⟩
    unfold PoolRun.step hciMemPoolRxProduce
    dsimp only
    by_cases hnull : ppNull = true
    · rw [if_pos hnull]
      exact h
    rw [if_neg hnull]
    by_cases hfree : st.queue.freeWindowCount ≠ 0
    · rw [if_pos hfree]
      by_cases hlen : length ≤ cfg.rxBufSize
      · rw [if_pos hlen]
        exact h.produced hfree
      · rw [if_neg hlen]
        exact h
    · rw [if_neg hfree]
      exact h
  | rxDataSizeSet length =>
    obtain ⟨⟨read, write, counts, unread, extracted, marked, fresh, spent⟩, oldest⟩ := h
    exact ⟨s, ⟨read, write, counts, unread, extracted, marked, fresh, spent⟩, oldest⟩
  | rxExtract ppNull =>
    refine ⟨s, ?_⟩
    unfold PoolRun.step hciMemPoolRxExtract
    dsimp only
    by_cases hnull : ppNull = true
    · rw [if_pos hnull]
      exact h
    rw [if_neg hnull]
    by_cases hread : st.queue.readAvailableCount ≠ 0
    · rw [if_pos hread]
      exact (h.extract hread).1
    · rw [if_neg hread]
      exact h
  | rxConsume p => exact h.consume hen horderly

theorem poolInv_open (q : RxBufferQueue cfg) : PoolInv 0 ⟨hciMemPoolOpen q, [], [], []⟩ := by
  refine ⟨⟨?_, ?_, ?_, rfl, rfl, by simp, by simp, ?_⟩, fun hne => absurd rfl hne⟩
  · simp [hciMemPoolOpen]
  · simp [hciMemPoolOpen]
  · show (BitVec.ofNat 32 cfg.queueSize).toNat + 0 + 0 = cfg.queueSize
    rw [toNat_queueSize, Nat.add_zero]
  · intro b hb
    simp [hciMemPoolOpen] at hb

/-- **What the invariant says.** -/
theorem PoolInv.owned (h : PoolInv s st) : Owned st := by
  have hring := h.ring
  refine ⟨hring.counts, fun length ppNull b hb => ?_, fun ppNull out hout => ?_, fun hnone => ?_⟩
  · unfold hciMemPoolRxProduce at hb
    split at hb
    case isTrue => cases hb
    split at hb
    case isFalse => cases hb
    rename_i hfree
    split at hb
    case isFalse => cases hb
    obtain rfl : st.queue.writeIndex.toNat = b := by simpa using hb
    exact hring.unused_extracted (hring.writeIndex_unused hfree)
  · unfold hciMemPoolRxExtract at hout
    split at hout
    case isTrue => cases hout
    split at hout
    case isFalse => cases hout
    rename_i hread
    obtain rfl : (st.queue.readIndex.toNat, st.queue.length.get st.queue.readIndex.toNat) = out := by
      simpa using hout
    exact (h.extract hread).2
  · have hcounts := hring.counts
    have hlen : st.unread.length = st.queue.readAvailableCount.toNat := by
      rw [hring.unread, length_ringSegment]
    have hzero : st.queue.freeAvailableCount.toNat = 0 := by
      by_contra hne
      have hempty := hring.extracted
      rw [hnone, eq_comm, List.filter_eq_nil_iff] at hempty
      refine hempty (s % cfg.queueSize) ?_ (h.oldest fun heq => hne (by rw [heq]; rfl))
      exact mem_ringSegment.mpr ⟨0, by omega, rfl⟩
    omega

/-! ## §5 Every run -/

/-- **The pool keeps its promises** in every run in which consumption is orderly. -/
theorem owned_of_reachable (cfg : HciMemPoolConfig) (st : PoolRun cfg)
    (h : (PoolRun.machine cfg).ReachableUnder PoolRun.Orderly st) : Owned st := by
  have hinv : ∃ s, PoolInv s st :=
    h.invariant (I := fun st => ∃ s, PoolInv s st)
      (fun st hst => by
        obtain ⟨q, rfl⟩ := hst
        exact ⟨0, poolInv_open q⟩)
      (fun st call hst hen horderly => by
        obtain ⟨s, hs⟩ := hst
        exact poolInv_step hs call hen horderly)
  obtain ⟨s, hs⟩ := hinv
  exact hs.owned

/-- Four buffers of 64 bytes. -/
def fourBuffers : HciMemPoolConfig := ⟨2, by decide, 64⟩

/-- A pool that has just been opened. -/
def fourOpened : PoolRun fourBuffers :=
  ⟨hciMemPoolOpen ⟨default, 0, 0, 0, 0, 0, 0⟩, [], [], []⟩

/-- Three buffers are produced and extracted. -/
def threeExtracted : List PoolCall :=
  [.rxProduce 64 false, .rxProduce 64 false, .rxProduce 64 false,
    .rxExtract false, .rxExtract false, .rxExtract false]

theorem owned_threeExtracted :
    Owned ((PoolRun.machine fourBuffers).run fourOpened
      (threeExtracted ++ [.rxConsume 2, .rxConsume 0, .rxConsume 1])) :=
  owned_of_reachable fourBuffers _ (.of_follows (.start ⟨_, rfl⟩) (by decide))

/-- **The second buffer is consumed before the first**, and the third is free with them. -/
theorem not_owned_outOfOrder :
    ¬ ∀ (cfg : HciMemPoolConfig) (st : PoolRun cfg),
      (PoolRun.machine cfg).Reachable st → Owned st := by
  intro hall
  have howned := hall fourBuffers
    ((PoolRun.machine fourBuffers).run fourOpened
      (threeExtracted ++ [.rxConsume 1, .rxConsume 0, .rxProduce 64 false, .rxProduce 64 false,
        .rxProduce 64 false]))
    (.of_follows (.start ⟨_, rfl⟩) (by decide))
  exact (howned.produce 64 false 2 (by decide)).2 (by decide)

end NordicEsb
