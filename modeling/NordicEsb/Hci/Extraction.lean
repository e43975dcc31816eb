import NordicEsb.Hci.MemPool
import NordicEsb.Hci.Validation

/-!
# Extraction of Accepted Packets

The SLIP layer decodes a packet into a buffer of the memory pool. A packet that the transport
accepts stays there, and the next buffer of the pool is registered, or the small buffer for
acknowledgements when the pool has none. The application extracts the packets and consumes their
buffers.

- `HciReceiver` is the receiving side of the transport with the pool and the buffer that the SLIP
  layer writes to; the packets that have been accepted and extracted are noted
- `HciRxLabel` are the events: a decoded byte, the end of a packet, an overflow, and the calls of
  the application; buffers are consumed in the order in which they were extracted
- `Extractable` is the property: the n-th extraction is the n-th accepted packet, and there is one
  whenever a packet is waiting
- `ExtractsLast` says when a step keeps it: nothing is extracted while two packets are waiting,
  since `m_is_slip_decode_ready` is a boolean, and an accepted packet has a header and a CRC

**Main result** (`extractable_of_reachable`): in every run whose steps all extract the last waiting
packet, accepted packets are extracted one after the other.
-/

namespace NordicEsb

variable {cfg : HciMemPoolConfig}

/-! ## §1 The receiving side -/

/-- `ACK_BUF_SIZE` -/
abbrev ackBufSize : ℕ := 5

/-- What `mp_rx_buffer` of the SLIP layer points to. -/
inductive RxBufferRef where
  | null
  /-- `m_rx_ack_buffer` -/
  | ack
  /-- A buffer of the pool. -/
  | pool (b : ℕ)
deriving DecidableEq, Repr

/-- The receiving side of the transport, the pool and the SLIP layer. -/
structure HciReceiver (cfg : HciMemPoolConfig) where
  pool : PoolRun cfg
  /-- The bytes of the buffers. -/
  memory : RxBufferRef → ℕ → HciByte
  /-- `mp_slip_used_rx_buffer` -/
  slipUsedRxBuffer : Option ℕ
  /-- `mp_rx_buffer` -/
  rxBuffer : RxBufferRef
  /-- `m_rx_buffer_length` -/
  rxBufferLength : ℕ
  /-- `m_rx_received_count` -/
  rxReceivedCount : ℕ
  /-- `m_packet_expected_seq_number` -/
  packetExpectedSeqNumber : Fin 8
  /-- `m_is_slip_decode_ready` -/
  isSlipDecodeReady : Bool
  /-- The packets that have been accepted. -/
  accepted : List (List HciByte)
  /-- What the application has found: the bytes, and `*p_length`. -/
  extracted : List (List HciByte × BitVec 16)

namespace HciReceiver

variable (st : HciReceiver cfg)

/-- The first bytes of a buffer. -/
def bytes (ref : RxBufferRef) (length : ℕ) : List HciByte :=
  (List.range length).map (st.memory ref)

/-- `hci_slip_rx_buffer_register` -/
def slipRxBufferRegister (buffer : RxBufferRef) (length : ℕ) : HciReceiver cfg :=
  { st with rxBuffer := buffer, rxBufferLength := length, rxReceivedCount := 0 }

/-- A pointer to a buffer of the pool. -/
def ofPool : Option ℕ → RxBufferRef
  | some b => .pool b
  | none => .null

/-- The buffer in use is registered again. -/
def registerUsed : HciReceiver cfg :=
  st.slipRxBufferRegister (ofPool st.slipUsedRxBuffer) cfg.rxBufSize.toNat

/-- The next buffer of the pool is registered, or else the buffer for acknowledgements. -/
def produceAndRegister : HciReceiver cfg :=
  match hciMemPoolRxProduce cfg.rxBufSize false st.pool.queue with
  | (ret, b, _) =>
    let st := { st with
      pool := st.pool.step (.rxProduce cfg.rxBufSize false)
      slipUsedRxBuffer := b }
    if ret = .success then st.slipRxBufferRegister (ofPool b) cfg.rxBufSize.toNat
    else st.slipRxBufferRegister .ack ackBufSize

/-- `rx_vendor_specific_pkt_type_handle`; the acknowledgement is left out. -/
def rxVendorSpecificPktTypeHandle (buffer : List HciByte) : HciReceiver cfg :=
  if isRxPktValid buffer then
    if st.packetExpectedSeqNumber = packetSeqNmbrExtract buffer then
      produceAndRegister
        { st with
          packetExpectedSeqNumber := st.packetExpectedSeqNumber + 1
          isSlipDecodeReady := true
          pool := st.pool.step (.rxDataSizeSet (BitVec.ofNat 32 buffer.length))
          accepted := st.accepted ++ [buffer] }
    else st.registerUsed
  else st.registerUsed

/-- `slip_event_handle` of `HCI_SLIP_RX_RDY`; an acknowledgement changes the sending side only. -/
def slipRxRdyHandle (buffer : List HciByte) : HciReceiver cfg :=
  if packetTypeDecode buffer = pktTypeVendorSpecific then
    st.rxVendorSpecificPktTypeHandle buffer
  else if st.slipUsedRxBuffer ≠ none then st.registerUsed
  else st.produceAndRegister

/-- `slip_event_handle` of `HCI_SLIP_RX_OVERFLOW`. -/
def slipRxOverflowHandle : HciReceiver cfg := st.slipRxBufferRegister .ack ackBufSize

/-- `mp_rx_buffer[m_rx_received_count++] = byte` -/
def storeByte (byte : HciByte) : HciReceiver cfg :=
  { st with
    memory := fun ref i =>
      if ref = st.rxBuffer ∧ i = st.rxReceivedCount then byte else st.memory ref i
    rxReceivedCount := st.rxReceivedCount + 1 }

/-- `handle_slip_end` -/
def handleSlipEnd : HciReceiver cfg :=
  slipRxRdyHandle { st with rxReceivedCount := 0, rxBuffer := .null }
    (st.bytes st.rxBuffer st.rxReceivedCount)

/-- `hci_transport_rx_pkt_extract`: the buffer, `PKT_HDR_SIZE` bytes before `*pp_buffer`, and
    `*p_length`. -/
def hciTransportRxPktExtract (ppNull : Bool) :
    HciRet × Option (ℕ × BitVec 16) × HciReceiver cfg :=
  if ppNull then (.errorNull, none, st)
  else if st.isSlipDecodeReady then
    match hciMemPoolRxExtract false st.pool.queue with
    | (ret, out, _) =>
      (ret, out.map fun p => (p.1, (rxPktLength p.2).setWidth 16),
        { st with isSlipDecodeReady := false, pool := st.pool.step (.rxExtract false) })
  else (.errorNoMem, none, st)

/-- What the application reads after an extraction. -/
def payload (b : ℕ) (length : BitVec 16) : List HciByte :=
  (List.range length.toNat).map fun i => st.memory (.pool b) (pktHdrSize + i)

/-- The application extracts a packet and notes what it has found. -/
def extract (ppNull : Bool) : HciReceiver cfg :=
  match st.hciTransportRxPktExtract ppNull with
  | (_, some (b, length), st) =>
    { st with extracted := st.extracted ++ [(st.payload b length, length)] }
  | (_, none, st) => st

/-- `hci_transport_rx_pkt_consume` of what was extracted from this buffer. -/
def hciTransportRxPktConsume (b : ℕ) : HciReceiver cfg :=
  { st with pool := st.pool.step (.rxConsume b) }

/-- The packets that have been accepted and not extracted. -/
def waiting : List (List HciByte) := st.accepted.drop st.extracted.length

end HciReceiver

/-- `hci_transport_open` -/
def hciReceiverOpen (q : RxBufferQueue cfg) (memory : RxBufferRef → ℕ → HciByte) :
    HciReceiver cfg :=
  HciReceiver.produceAndRegister
    { pool := ⟨hciMemPoolOpen q, [], [], []⟩
      memory := memory
      slipUsedRxBuffer := none
      rxBuffer := .null
      rxBufferLength := 0
      rxReceivedCount := 0
      packetExpectedSeqNumber := 1
      isSlipDecodeReady := false
      accepted := []
      extracted := [] }

/-! ## §2 The machine -/

/-- What can happen. -/
inductive HciRxLabel where
  /-- The SLIP layer stores a decoded byte. -/
  | byte (byte : HciByte)
  /-- It has received an end byte behind a packet. -/
  | slipEnd
  /-- It has received a byte without room for it. -/
  | overflow
  | extract (ppNull : Bool)
  | consume (b : ℕ)
deriving DecidableEq

namespace HciReceiver

/-- When it can happen: the SLIP layer looks for room before every byte, end bytes included, and
    buffers are consumed in order. -/
def Enabled (st : HciReceiver cfg) : HciRxLabel → Prop
  | .byte _ => st.rxBuffer ≠ .null ∧ st.rxReceivedCount < st.rxBufferLength
  | .slipEnd =>
    st.rxBuffer ≠ .null ∧ st.rxReceivedCount < st.rxBufferLength ∧ 0 < st.rxReceivedCount
  | .overflow => st.rxBuffer = .null ∨ st.rxBufferLength ≤ st.rxReceivedCount
  | .extract _ => True
  | .consume b => st.pool.extracted.head? = some b

instance (st : HciReceiver cfg) (label : HciRxLabel) : Decidable (st.Enabled label) := by
  cases label <;> unfold Enabled <;> infer_instance

/-- The state after it. -/
def step (st : HciReceiver cfg) : HciRxLabel → HciReceiver cfg
  | .byte byte => st.storeByte byte
  | .slipEnd => st.handleSlipEnd
  | .overflow => st.slipRxOverflowHandle
  | .extract ppNull => st.extract ppNull
  | .consume b => st.hciTransportRxPktConsume b

/-- **The receiving side in use**, from a pool with any contents. -/
def machine (cfg : HciMemPoolConfig) : Machine (HciReceiver cfg) HciRxLabel where
  start st := ∃ q memory, st = hciReceiverOpen q memory
  enabled := Enabled
  step := step

instance (st : HciReceiver cfg) (label : HciRxLabel) :
    Decidable ((machine cfg).enabled st label) :=
  inferInstanceAs (Decidable (st.Enabled label))

end HciReceiver

/-- **Every accepted packet can be extracted.** -/
structure Extractable (st : HciReceiver cfg) : Prop where
  /-- The n-th extraction is the n-th accepted packet. -/
  found : ∀ (n : ℕ) bytes length, st.extracted[n]? = some (bytes, length) →
    ∃ packet, st.accepted[n]? = some packet ∧ bytes = rxPktData packet ∧
      (length.toNat : ℤ) = packet.length - (pktHdrSize + pktCrcSize)
  count : st.extracted.length ≤ st.accepted.length
  /-- There is one whenever a packet is waiting. -/
  ready : st.extracted.length < st.accepted.length →
    (st.hciTransportRxPktExtract false).1 = .success

/-- The packet that ends now is accepted. -/
def HciReceiver.Accepts (st : HciReceiver cfg) (buffer : List HciByte) : Prop :=
  packetTypeDecode buffer = pktTypeVendorSpecific ∧ isRxPktValid buffer = true ∧
    st.packetExpectedSeqNumber = packetSeqNmbrExtract buffer

instance (st : HciReceiver cfg) (buffer : List HciByte) : Decidable (st.Accepts buffer) :=
  inferInstanceAs (Decidable (_ ∧ _ ∧ _))

/-- **The last waiting packet is extracted**, and an accepted packet has a length that the
    application can be told. -/
def ExtractsLast (st : HciReceiver cfg) : HciRxLabel → Prop
  | .extract ppNull => ppNull = false → st.waiting.length ≤ 1
  | .slipEnd => st.Accepts (st.bytes st.rxBuffer st.rxReceivedCount) →
    pktHdrSize + pktCrcSize ≤ st.rxReceivedCount ∧
      st.rxReceivedCount < pktHdrSize + pktCrcSize + 2 ^ 16
  | _ => True

instance (st : HciReceiver cfg) (label : HciRxLabel) : Decidable (ExtractsLast st label) := by
  cases label <;> unfold ExtractsLast <;> infer_instance

/-! ## §3 The pool when buffers are consumed in order -/

/-- **The pool without gaps**: every buffer that has been extracted and not freed is in use. -/
structure PoolWhole (s : ℕ) (pool : PoolRun cfg) : Prop where
  ring : PoolRing s pool
  whole : ∀ b ∈ ringSegment cfg.queueSize s pool.queue.freeAvailableCount.toNat,
    pool.queue.freeIndex.getLsbD b = true

section Pool

variable {s b : ℕ} {pool : PoolRun cfg} {rest : List ℕ}

theorem PoolWhole.inv (h : PoolWhole s pool) : PoolInv s pool := by
  refine ⟨h.ring, fun hne => h.whole _ ?_⟩
  have hpos := toNat_pos_of_ne hne
  exact mem_ringSegment.mpr ⟨0, hpos, rfl⟩

/-- What has been extracted is all that is not free. -/
theorem PoolWhole.extracted_eq (h : PoolWhole s pool) :
    pool.extracted = ringSegment cfg.queueSize s pool.queue.freeAvailableCount.toNat := by
  rw [h.ring.extracted]
  exact List.filter_eq_self.mpr h.whole

/-- **A buffer is produced**, unless there is none. -/
theorem PoolWhole.produce (h : PoolWhole s pool) :
    (∃ b, hciMemPoolRxProduce cfg.rxBufSize false pool.queue =
        (.success, some b, (pool.step (.rxProduce cfg.rxBufSize false)).queue) ∧
      PoolWhole s (pool.step (.rxProduce cfg.rxBufSize false)) ∧
      (pool.step (.rxProduce cfg.rxBufSize false)).unread = pool.unread ++ [b] ∧
      (pool.step (.rxProduce cfg.rxBufSize false)).queue.length = pool.queue.length) ∨
    (hciMemPoolRxProduce cfg.rxBufSize false pool.queue = (.errorNoMem, none, pool.queue) ∧
      pool.step (.rxProduce cfg.rxBufSize false) = pool) := by
  unfold PoolRun.step
  dsimp only
  by_cases hfree : pool.queue.freeWindowCount ≠ 0
  · have hcode : hciMemPoolRxProduce cfg.rxBufSize false pool.queue =
        (.success, some pool.queue.writeIndex.toNat,
          { pool.queue with
            freeWindowCount := pool.queue.freeWindowCount - 1
            readAvailableCount := pool.queue.readAvailableCount + 1
            freeIndex := pool.queue.freeIndex ||| (1#32 <<< pool.queue.writeIndex)
            writeIndex := cfg.wrap (pool.queue.writeIndex + 1) }) := by
      unfold hciMemPoolRxProduce
      rw [if_neg Bool.false_ne_true, if_pos hfree, if_pos (BitVec.le_refl _)]
    have hproduced := h.inv.produced hfree
    refine .inl ⟨pool.queue.writeIndex.toNat, ?_⟩
    rw [hcode]
    refine ⟨rfl, ⟨hproduced.ring, fun b hb => ?_⟩, rfl, rfl⟩
    have hwrite : pool.queue.writeIndex.toNat < 32 := by
      rw [h.ring.writeIndex]
      exact (Nat.mod_lt _ (queueSize_pos cfg)).trans_le (queueSize_le cfg)
    dsimp only
    rw [getLsbD_mark _ hwrite, h.whole b hb, Bool.true_or]
  · have hcode : hciMemPoolRxProduce cfg.rxBufSize false pool.queue =
        (.errorNoMem, none, pool.queue) := by
      unfold hciMemPoolRxProduce
      rw [if_neg Bool.false_ne_true, if_neg hfree]
    refine .inr ⟨hcode, ?_⟩
    rw [hcode]

/-- **The oldest unread buffer is extracted.** -/
theorem PoolWhole.extract (h : PoolWhole s pool) (hunread : pool.unread = b :: rest) :
    hciMemPoolRxExtract false pool.queue =
        (.success, some (b, pool.queue.length.get b), (pool.step (.rxExtract false)).queue) ∧
      PoolWhole s (pool.step (.rxExtract false)) ∧
      (pool.step (.rxExtract false)).unread = rest ∧
      (pool.step (.rxExtract false)).queue.length = pool.queue.length := by
  have hread : pool.queue.readAvailableCount ≠ 0 := by
    intro hzero
    have hnone := h.ring.unread
    rw [hunread, hzero] at hnone
    cases hnone
  obtain ⟨hextract, hhead⟩ := h.inv.extract hread
  obtain rfl : b = pool.queue.readIndex.toNat := by
    rw [hunread] at hhead
    exact Option.some.inj hhead
  have hcode : hciMemPoolRxExtract false pool.queue =
      (.success, some (pool.queue.readIndex.toNat,
          pool.queue.length.get pool.queue.readIndex.toNat),
        { pool.queue with
          readAvailableCount := pool.queue.readAvailableCount - 1
          freeAvailableCount := pool.queue.freeAvailableCount + 1
          readIndex := cfg.wrap (pool.queue.readIndex + 1) }) := by
    unfold hciMemPoolRxExtract
    rw [if_neg Bool.false_ne_true, if_pos hread]
  unfold PoolRun.step
  dsimp only
  rw [hcode]
  refine ⟨rfl, ⟨hextract.ring, fun c hc => ?_⟩, ?_, rfl⟩
  · -- The extracted buffers and this one.
    have hcounts := h.ring.counts
    have hpos := toNat_pos_of_ne hread
    have hsize := queueSize_le cfg
    dsimp only at hc ⊢
    rw [toNat_succ (by omega), ringSegment_concat, List.mem_append, ← h.ring.readIndex] at hc
    rcases hc with hc | hc
    · exact h.whole c hc
    · rw [List.mem_singleton.mp hc]
      refine h.ring.marked _ ?_
      rw [hunread]
      exact List.mem_cons_self
  · dsimp only
    rw [hunread]
    exact List.erase_cons_head pool.queue.readIndex.toNat rest

/-- **The oldest extracted buffer is consumed**, and is free then. -/
theorem PoolWhole.consume (h : PoolWhole s pool) (hhead : pool.extracted.head? = some b) :
    PoolWhole (s + 1) (pool.step (.rxConsume b)) ∧
      (pool.step (.rxConsume b)).unread = pool.unread ∧
      (pool.step (.rxConsume b)).queue.length = pool.queue.length := by
  have hsize := queueSize_le cfg
  have hcounts := h.ring.counts
  have hextracted := h.extracted_eq
  have hne : pool.queue.freeAvailableCount ≠ 0 := by
    intro hzero
    rw [hextracted, hzero] at hhead
    cases hhead
  obtain ⟨n, hn⟩ : ∃ n, pool.queue.freeAvailableCount.toNat = n + 1 :=
    ⟨pool.queue.freeAvailableCount.toNat - 1, by have := toNat_pos_of_ne hne; omega⟩
  rw [hn, ringSegment_succ] at hextracted
  have hb : b = s % cfg.queueSize := by
    rw [hextracted] at hhead
    exact (Option.some.inj hhead).symm
  have hstart := h.ring.startIndex
  have hmem : pool.queue.startIndex.toNat ∈ pool.extracted := by
    rw [hextracted, hstart]
    exact List.mem_cons_self
  have hlt : ∀ i, i % cfg.queueSize < 32 :=
    fun i => (Nat.mod_lt i (queueSize_pos cfg)).trans_le hsize
  have hbit := (h.ring.mem_extracted hmem).2
  have hbits := getLsbD_unmark pool.queue.freeIndex (hstart ▸ hlt s) hbit
  -- The first loop finds the buffer at once.
  have hsearch : consumeSearch pool.queue b cfg.queueSize pool.queue.startIndex =
      (true, pool.queue.startIndex) := by
    obtain ⟨k, hk⟩ := Nat.exists_eq_succ_of_ne_zero (queueSize_pos cfg).ne'
    rw [hk]
    unfold consumeSearch
    rw [if_pos (hstart.trans hb.symm)]
  obtain ⟨q, hq⟩ : ∃ q : RxBufferQueue cfg, q = { pool.queue with
      freeIndex := pool.queue.freeIndex ^^^ (1#32 <<< pool.queue.startIndex) } := ⟨_, rfl⟩
  have hindex : q.freeIndex = pool.queue.freeIndex ^^^ (1#32 <<< pool.queue.startIndex) := by
    rw [hq]
  have havail : q.freeAvailableCount = pool.queue.freeAvailableCount := by
    rw [hq]
  have hleft : (q.freed 1).freeAvailableCount.toNat = n := by
    show (q.freeAvailableCount - 1).toNat = n
    rw [havail, toNat_pred hne]
    omega
  have hnext : ∀ c ∈ ringSegment cfg.queueSize (s + 1) n,
      q.freeIndex.getLsbD c = true := by
    intro c hc
    have hnodup := nodup_ringSegment (n := cfg.queueSize) (s := s) (k := n + 1) (by omega)
    rw [ringSegment_succ, List.nodup_cons] at hnodup
    have hcs : c ≠ pool.queue.startIndex.toNat := by
      rintro rfl
      exact hnodup.1 (hstart ▸ hc)
    rw [hindex, hbits, h.whole c (by rw [hn, ringSegment_succ]; exact List.mem_cons_of_mem _ hc)]
    simp [hcs]
  -- The second one frees it and stops.
  have hfree : consumeFree pool.queue.startIndex pool.queue.freeAvailableCount.toNat
      pool.queue.startIndex q = q.freed 1 := by
    rw [hn, consumeFree_succ n (by rw [hstart]; exact hlt s) (by rw [hindex, hbits]; simp)
      (by rw [havail]; exact hne)]
    cases n with
    | zero =>
      refine consumeFree_empty _ ?_
      exact BitVec.eq_of_toNat_eq hleft
    | succ n =>
      have hwrap : (cfg.wrap (pool.queue.startIndex + 1)).toNat = (s + 1) % cfg.queueSize := by
        rw [toNat_wrap_succ, hstart, Nat.mod_add_mod]
      refine consumeFree_stop (q := q.freed 1) _ (by rw [hwrap]; exact hlt _) ?_
      rw [hwrap]
      refine hnext _ ?_
      rw [ringSegment_succ]
      exact List.mem_cons_self
  have hcode : pool.step (.rxConsume b) =
      ⟨q.freed 1, pool.unread, pool.extracted.erase b, b :: pool.consumed⟩ := by
    have hpool : b ∈ pool.extracted := by
      rw [hextracted, hb]
      exact List.mem_cons_self
    unfold PoolRun.step hciMemPoolRxConsume
    dsimp only
    rw [if_pos hne, hsearch, if_pos hpool]
    dsimp only
    rw [if_pos rfl, ← hq, hfree]
  have hmarked := h.ring.consumed hmem
  rw [← hq, hstart, ← hb] at hmarked
  have hfreed := hmarked.freed (k := 1)
    (by show 1 ≤ q.freeAvailableCount.toNat; rw [havail, hn]; omega) (fun c hc => by
      rw [ringSegment_one, List.mem_singleton] at hc
      show q.freeIndex.getLsbD c = false
      rw [hindex, hbits, hc, hstart]
      simp)
  rw [hcode]
  refine ⟨⟨hfreed, fun c hc => ?_⟩, rfl, ?_⟩
  · have hc : c ∈ ringSegment cfg.queueSize (s + 1) (q.freed 1).freeAvailableCount.toNat := hc
    rw [hleft] at hc
    exact hnext c hc
  · show q.length = _
    rw [hq]

/-- **The length of a packet is set** for the buffer that was produced last. -/
theorem PoolWhole.dataSizeSet (h : PoolWhole s pool) {bs : List ℕ}
    (hunread : pool.unread = bs ++ [b]) (length : BitVec 32) :
    PoolWhole s (pool.step (.rxDataSizeSet length)) ∧
      (pool.step (.rxDataSizeSet length)).queue.length = pool.queue.length.set b length ∧
      (pool.step (.rxDataSizeSet length)).unread = pool.unread := by
  obtain ⟨⟨read, write, counts, unread, extracted, marked, fresh, spent⟩, whole⟩ := h
  refine ⟨⟨⟨read, write, counts, unread, extracted, marked, fresh, spent⟩, whole⟩, ?_, rfl⟩
  obtain ⟨k, hk⟩ : ∃ k, pool.queue.readAvailableCount.toNat = k + 1 := by
    refine Nat.exists_eq_succ_of_ne_zero fun hzero => ?_
    rw [hunread, hzero] at unread
    simp at unread
  have hlast : b = (s + pool.queue.freeAvailableCount.toNat + k) % cfg.queueSize := by
    rw [hunread, hk, ringSegment_concat] at unread
    exact List.head_eq_of_cons_eq (List.append_inj' unread rfl).2
  -- The write index is one further.
  have hindex : (cfg.wrap (pool.queue.writeIndex - 1)).toNat = b := by
    have hadd := congrArg BitVec.toNat (BitVec.sub_add_cancel pool.queue.writeIndex 1)
    have hone : (1 : BitVec 32).toNat = 1 := rfl
    rw [BitVec.toNat_add, hone] at hadd
    have hword : (pool.queue.writeIndex - 1).toNat + 1 ≡ pool.queue.writeIndex.toNat
        [MOD 2 ^ 32] := by
      unfold Nat.ModEq
      rw [hadd, Nat.mod_eq_of_lt pool.queue.writeIndex.isLt]
    have hmod := hword.of_dvd (queueSize_dvd cfg)
    rw [write, hk] at hmod
    rw [toNat_wrap, hlast]
    exact Nat.ModEq.add_right_cancel' 1 (hmod.trans (Nat.mod_modEq _ _))
  show pool.queue.length.set (cfg.wrap (pool.queue.writeIndex - 1)).toNat length = _
  rw [hindex]

/-- A pool that has just been opened. -/
theorem poolWhole_open (q : RxBufferQueue cfg) : PoolWhole 0 ⟨hciMemPoolOpen q, [], [], []⟩ :=
  ⟨(poolInv_open q).ring, fun b hb => by simp [hciMemPoolOpen] at hb⟩

end Pool

/-! ## §4 The invariant -/

/-- A buffer holds an accepted packet. -/
structure HoldsPacket (memory : RxBufferRef → ℕ → HciByte)
    (length : FixedArray cfg.queueSize (BitVec 32)) (b : ℕ) (packet : List HciByte) : Prop where
  bytes : (List.range packet.length).map (memory (.pool b)) = packet
  size : length.get b = BitVec.ofNat 32 packet.length
  long : pktHdrSize + pktCrcSize ≤ packet.length
  short : packet.length < pktHdrSize + pktCrcSize + 2 ^ 16

/-- **The invariant**: the unread buffers of the pool are those of the waiting packets, and the one
    that the SLIP layer uses. -/
structure ReceiverInv (s : ℕ) (st : HciReceiver cfg) : Prop where
  pool : PoolWhole s st.pool
  buffers : ∃ bs, st.pool.unread = bs ++ st.slipUsedRxBuffer.toList ∧
    List.Forall₂ (HoldsPacket st.memory st.pool.queue.length) bs st.waiting
  slip : st.rxBuffer = .null ∨ st.rxBuffer = .ack ∧ st.rxBufferLength = ackBufSize ∨
    ∃ b, st.slipUsedRxBuffer = some b ∧ st.rxBuffer = .pool b
  count : st.extracted.length ≤ st.accepted.length
  ready : st.isSlipDecodeReady = true ↔ st.waiting ≠ []
  found : ∀ (n : ℕ) bytes length, st.extracted[n]? = some (bytes, length) →
    ∃ packet, st.accepted[n]? = some packet ∧ bytes = rxPktData packet ∧
      (length.toNat : ℤ) = packet.length - (pktHdrSize + pktCrcSize)

section Steps

variable {s : ℕ} {st : HciReceiver cfg} {buffer : List HciByte}

/-- The unread buffers are different from one another. -/
theorem PoolWhole.nodup_unread {pool : PoolRun cfg} (h : PoolWhole s pool) : pool.unread.Nodup :=
  (List.nodup_append.mp h.ring.nodup).2.1

/-- The unread buffers are buffers of the pool. -/
theorem PoolWhole.unread_lt {pool : PoolRun cfg} (h : PoolWhole s pool) {b : ℕ}
    (hb : b ∈ pool.unread) : b < cfg.queueSize := by
  rw [h.ring.unread] at hb
  exact lt_of_mem_ringSegment (queueSize_pos cfg) hb

/-- The buffer in use, or none, is registered. -/
theorem ReceiverInv.registerUsed (h : ReceiverInv s st) : ReceiverInv s st.registerUsed := by
  refine ⟨h.pool, h.buffers, ?_, h.count, h.ready, h.found⟩
  show HciReceiver.ofPool st.slipUsedRxBuffer = .null ∨
    HciReceiver.ofPool st.slipUsedRxBuffer = .ack ∧ _ ∨
    ∃ b, st.slipUsedRxBuffer = some b ∧ HciReceiver.ofPool st.slipUsedRxBuffer = .pool b
  cases st.slipUsedRxBuffer with
  | none => exact .inl rfl
  | some b => exact .inr (.inr ⟨b, rfl, rfl⟩)

/-- **The next buffer is registered**, when every unread buffer is that of a waiting packet. -/
theorem ReceiverInv.produceAndRegister {bs : List ℕ} (hpool : PoolWhole s st.pool)
    (hunread : st.pool.unread = bs)
    (hbuffers : List.Forall₂ (HoldsPacket st.memory st.pool.queue.length) bs st.waiting)
    (hcount : st.extracted.length ≤ st.accepted.length)
    (hready : st.isSlipDecodeReady = true ↔ st.waiting ≠ [])
    (hfound : ∀ (n : ℕ) bytes length, st.extracted[n]? = some (bytes, length) →
      ∃ packet, st.accepted[n]? = some packet ∧ bytes = rxPktData packet ∧
        (length.toNat : ℤ) = packet.length - (pktHdrSize + pktCrcSize)) :
    ReceiverInv s st.produceAndRegister := by
  unfold HciReceiver.produceAndRegister
  rcases hpool.produce with ⟨b, hproduce, hpool', hunread', hlength⟩ | ⟨hproduce, hsame⟩
  · rw [hproduce]
    refine ⟨hpool', ⟨bs, ?_, ?_⟩, .inr (.inr ⟨b, rfl, rfl⟩), hcount, hready, hfound⟩
    · show (st.pool.step _).unread = bs ++ [b]
      rw [hunread', hunread]
    · show List.Forall₂ (HoldsPacket st.memory (st.pool.step _).queue.length) bs st.waiting
      rw [hlength]
      exact hbuffers
  · -- The pool has no buffer left.
    rw [hproduce]
    dsimp only
    rw [hsame]
    refine ⟨hpool, ⟨bs, ?_, hbuffers⟩, .inr (.inl ⟨rfl, rfl⟩), hcount, hready, hfound⟩
    show st.pool.unread = bs ++ []
    rw [hunread, List.append_nil]

/-- Nothing is decoded while the event is handled. -/
theorem ReceiverInv.taken (h : ReceiverInv s st) :
    ReceiverInv s { st with rxReceivedCount := 0, rxBuffer := .null } :=
  ⟨h.pool, h.buffers, .inl rfl, h.count, h.ready, h.found⟩

/-- Only the bytes and the size of the other buffers matter. -/
theorem forall₂_holdsPacket {memory memory' : RxBufferRef → ℕ → HciByte}
    {length length' : FixedArray cfg.queueSize (BitVec 32)} {b : ℕ} {bs : List ℕ}
    {packets : List (List HciByte)} (h : List.Forall₂ (HoldsPacket memory length) bs packets)
    (hb : b ∉ bs) (hmemory : ∀ c ≠ b, memory' (.pool c) = memory (.pool c))
    (hlength : ∀ c ≠ b, length'.get c = length.get c) :
    List.Forall₂ (HoldsPacket memory' length') bs packets := by
  have hne : ∀ c ∈ bs, c ≠ b := fun c hc heq => hb (heq ▸ hc)
  refine List.Forall₂.imp ?_ ((List.forall₂_and_left bs packets).mpr ⟨hne, h⟩)
  rintro c packet ⟨hcb, hpacket⟩
  refine ⟨?_, ?_, hpacket.long, hpacket.short⟩
  · rw [hmemory c hcb]
    exact hpacket.bytes
  · rw [hlength c hcb]
    exact hpacket.size

/-- **A packet is accepted**, from the buffer that the SLIP layer has used. -/
theorem ReceiverInv.accept {b : ℕ} (h : ReceiverInv s st) (hused : st.slipUsedRxBuffer = some b)
    (hbytes : st.bytes (.pool b) buffer.length = buffer)
    (hlong : pktHdrSize + pktCrcSize ≤ buffer.length)
    (hshort : buffer.length < pktHdrSize + pktCrcSize + 2 ^ 16) :
    ReceiverInv s (HciReceiver.produceAndRegister
      { st with
        packetExpectedSeqNumber := st.packetExpectedSeqNumber + 1
        isSlipDecodeReady := true
        pool := st.pool.step (.rxDataSizeSet (BitVec.ofNat 32 buffer.length))
        accepted := st.accepted ++ [buffer] }) := by
  obtain ⟨bs, hunread, hbuffers⟩ := h.buffers
  have hcount := h.count
  rw [hused] at hunread
  have hunread : st.pool.unread = bs ++ [b] := hunread
  obtain ⟨hpool, hlength, hsame⟩ := h.pool.dataSizeSet hunread (BitVec.ofNat 32 buffer.length)
  have hnodup := h.pool.nodup_unread
  rw [hunread] at hnodup
  have hwaiting : (st.accepted ++ [buffer]).drop st.extracted.length = st.waiting ++ [buffer] :=
    List.drop_append_of_le_length hcount
  refine ReceiverInv.produceAndRegister hpool (hsame.trans hunread) ?_ ?_ ?_
    fun n bytes length hn => ?_
  · show List.Forall₂ (HoldsPacket st.memory (st.pool.step _).queue.length) (bs ++ [b])
      ((st.accepted ++ [buffer]).drop st.extracted.length)
    rw [hwaiting, hlength]
    refine List.rel_append ?_ (.cons ⟨hbytes, ?_, hlong, hshort⟩ .nil)
    · -- The size of this packet is not that of another one.
      have hnew : b ∉ bs := fun hb =>
        (List.nodup_append.mp hnodup).2.2 b hb b (List.mem_singleton.mpr rfl) rfl
      exact forall₂_holdsPacket hbuffers hnew (fun _ _ => rfl)
        fun c hc => FixedArray.get_set_ne _ _ hc
    · exact FixedArray.get_set_self _ _ (h.pool.unread_lt (by rw [hunread]; simp))
  · show st.extracted.length ≤ (st.accepted ++ [buffer]).length
    rw [List.length_append]
    omega
  · show true = true ↔ (st.accepted ++ [buffer]).drop st.extracted.length ≠ []
    rw [hwaiting]
    simp
  · obtain ⟨packet, hpacket, hrest⟩ := h.found n bytes length hn
    refine ⟨packet, ?_, hrest⟩
    show (st.accepted ++ [buffer])[n]? = some packet
    rw [List.getElem?_append_left (List.getElem?_eq_some_iff.mp hpacket).1]
    exact hpacket

/-- **A packet ends.** -/
theorem ReceiverInv.slipEnd (h : ReceiverInv s st)
    (hen : st.Enabled .slipEnd) (hlast : ExtractsLast st .slipEnd) :
    ReceiverInv s st.handleSlipEnd := by
  obtain ⟨hnull, hroom, -⟩ := hen
  obtain ⟨packet, hpacket⟩ : ∃ packet, packet = st.bytes st.rxBuffer st.rxReceivedCount :=
    ⟨_, rfl⟩
  have hlen : packet.length = st.rxReceivedCount := by
    rw [hpacket]
    simp [HciReceiver.bytes]
  have hinv := h.taken
  unfold HciReceiver.handleSlipEnd HciReceiver.slipRxRdyHandle
  rw [← hpacket]
  split_ifs with htype hused
  · unfold HciReceiver.rxVendorSpecificPktTypeHandle
    split_ifs with hvalid hseq
    · obtain ⟨hlong, hshort⟩ := hlast (hpacket ▸ ⟨htype, hvalid, hseq⟩)
      rw [← hlen] at hlong hshort
      -- The buffer for acknowledgements is too small for this packet.
      rcases h.slip with hslip | ⟨-, hack⟩ | ⟨b, hused, hslip⟩
      · exact absurd hslip hnull
      · rw [hack, ← hlen] at hroom
        have hsizes : pktHdrSize = 4 ∧ pktCrcSize = 2 ∧ ackBufSize = 5 := by decide
        exact absurd hlong (by omega)
      · refine hinv.accept (b := b) hused ?_ hlong hshort
        rw [hlen]
        show st.bytes (.pool b) _ = packet
        rw [hpacket, hslip]
    · exact hinv.registerUsed
    · exact hinv.registerUsed
  · exact hinv.registerUsed
  · have hnone : st.slipUsedRxBuffer = none := not_not.mp hused
    obtain ⟨bs, hunread, hbuffers⟩ := hinv.buffers
    have hunread : st.pool.unread = bs := by
      have hunread : st.pool.unread = bs ++ st.slipUsedRxBuffer.toList := hunread
      rw [hnone, Option.toList_none, List.append_nil] at hunread
      exact hunread
    exact ReceiverInv.produceAndRegister hinv.pool hunread hbuffers hinv.count hinv.ready
      hinv.found

/-- A byte is written to the buffer in use only. -/
theorem ReceiverInv.storeByte (h : ReceiverInv s st) (hnull : st.rxBuffer ≠ .null)
    (byte : HciByte) : ReceiverInv s (st.storeByte byte) := by
  refine ⟨h.pool, ?_, h.slip, h.count, h.ready, h.found⟩
  obtain ⟨bs, hunread, hbuffers⟩ := h.buffers
  refine ⟨bs, hunread, ?_⟩
  rcases h.slip with hslip | ⟨hslip, -⟩ | ⟨b, hused, hslip⟩
  · exact absurd hslip hnull
  · refine List.Forall₂.imp (fun c packet hpacket => ⟨?_, hpacket.size, hpacket.long,
      hpacket.short⟩) hbuffers
    have hsame : (st.storeByte byte).memory (.pool c) = st.memory (.pool c) := by
      funext i
      exact if_neg fun hc => by rw [hslip] at hc; exact RxBufferRef.noConfusion hc.1
    rw [hsame]
    exact hpacket.bytes
  · have hnodup := h.pool.nodup_unread
    rw [hunread, hused] at hnodup
    have hnew : b ∉ bs := fun hb =>
      (List.nodup_append.mp hnodup).2.2 b hb b (List.mem_singleton.mpr rfl) rfl
    refine forall₂_holdsPacket hbuffers hnew (fun c hc => ?_) fun _ _ => rfl
    funext i
    refine if_neg fun heq => hc ?_
    rw [hslip] at heq
    exact RxBufferRef.pool.inj heq.1

/-- What the application finds in a buffer. -/
theorem payload_eq {b : ℕ} {packet : List HciByte} {length : BitVec 16}
    (h : HoldsPacket st.memory st.pool.queue.length b packet)
    (hlength : length = (rxPktLength (st.pool.queue.length.get b)).setWidth 16) :
    st.payload b length = rxPktData packet ∧
      (length.toNat : ℤ) = packet.length - (pktHdrSize + pktCrcSize) := by
  have hlong := h.long
  have hshort := h.short
  have hnat : length.toNat = packet.length - (pktHdrSize + pktCrcSize) := by
    have hsix : (6 : BitVec 32).toNat = 6 := rfl
    have hsizes : pktHdrSize = 4 ∧ pktCrcSize = 2 := by decide
    rw [hlength, h.size]
    unfold rxPktLength
    rw [BitVec.toNat_setWidth, BitVec.toNat_sub, BitVec.toNat_ofNat, hsix]
    omega
  refine ⟨?_, by omega⟩
  unfold HciReceiver.payload rxPktData
  rw [hnat]
  conv_rhs => rw [← h.bytes]
  apply List.ext_getElem
  · simp
    omega
  · intro i hi _
    simp

/-- **A packet is extracted**: the only one that waits. -/
theorem ReceiverInv.extract (h : ReceiverInv s st) (ppNull : Bool)
    (hlast : ppNull = false → st.waiting.length ≤ 1) : ReceiverInv s (st.extract ppNull) := by
  unfold HciReceiver.extract HciReceiver.hciTransportRxPktExtract
  split_ifs with hnull hready
  · exact h
  · have hwaits := h.ready.mp hready
    -- The one packet that waits is the one extracted.
    have hone := hlast (by simpa using hnull)
    obtain ⟨packet, rest, hwaiting⟩ := List.exists_cons_of_ne_nil hwaits
    have hrest : rest = [] := by
      rw [hwaiting, List.length_cons] at hone
      exact List.length_eq_zero_iff.mp (by omega)
    subst hrest
    obtain ⟨bs, hunread, hbuffers⟩ := h.buffers
    rw [hwaiting] at hbuffers
    cases hbuffers with
    | cons hpacket hnone =>
    rename_i b bs
    cases hnone
    obtain ⟨hcode, hpool, hunread', hlength⟩ := h.pool.extract hunread
    obtain ⟨hdata, hsize⟩ := payload_eq hpacket rfl
    have hnext : st.accepted.drop (st.extracted.length + 1) = [] := by
      have hdrop : st.accepted.drop st.extracted.length = [packet] := hwaiting
      rw [← List.drop_drop, hdrop]
      rfl
    have hhead : st.accepted[st.extracted.length]? = some packet := by
      have hdrop : st.accepted.drop st.extracted.length = [packet] := hwaiting
      have hzero := congrArg (·[0]?) hdrop
      simpa using hzero
    have hcount : st.extracted.length < st.accepted.length :=
      (List.getElem?_eq_some_iff.mp hhead).1
    rw [hcode]
    refine ⟨hpool, ⟨[], ?_, ?_⟩, h.slip, ?_, ?_, fun n bytes length hn => ?_⟩
    · exact hunread'
    · show List.Forall₂ _ [] (st.accepted.drop (st.extracted ++ [_]).length)
      rw [List.length_append, List.length_singleton, hnext]
      exact .nil
    · show (st.extracted ++ [_]).length ≤ st.accepted.length
      rw [List.length_append, List.length_singleton]
      omega
    · show false = true ↔ st.accepted.drop (st.extracted ++ [_]).length ≠ []
      rw [List.length_append, List.length_singleton, hnext]
      simp
    · -- The packet that is found now, or one of those before.
      have hn : (st.extracted ++ [(st.payload b
          ((rxPktLength (st.pool.queue.length.get b)).setWidth 16),
          (rxPktLength (st.pool.queue.length.get b)).setWidth 16)])[n]? =
          some (bytes, length) := hn
      rcases Nat.lt_or_ge n st.extracted.length with hlt | hge
      · rw [List.getElem?_append_left hlt] at hn
        exact h.found n bytes length hn
      · have hlen := (List.getElem?_eq_some_iff.mp hn).1
        rw [List.length_append, List.length_singleton] at hlen
        obtain rfl : n = st.extracted.length := by omega
        rw [List.getElem?_append_right le_rfl, Nat.sub_self] at hn
        obtain ⟨rfl, rfl⟩ := Prod.mk.inj (Option.some.inj hn)
        exact ⟨packet, hhead, hdata, hsize⟩
  · exact h

/-- **Every step.** -/
theorem receiverInv_step {label : HciRxLabel} (h : ReceiverInv s st) (hen : st.Enabled label)
    (hlast : ExtractsLast st label) : ∃ s', ReceiverInv s' (st.step label) := by
  cases label with
  | byte byte => exact ⟨s, h.storeByte hen.1 byte⟩
  | slipEnd => exact ⟨s, h.slipEnd hen hlast⟩
  | overflow => exact ⟨s, h.pool, h.buffers, .inr (.inl ⟨rfl, rfl⟩), h.count, h.ready, h.found⟩
  | extract ppNull => exact ⟨s, h.extract ppNull hlast⟩
  | consume b =>
    obtain ⟨hpool, hunread, hlength⟩ := h.pool.consume hen
    obtain ⟨bs, hbs, hbuffers⟩ := h.buffers
    refine ⟨s + 1, hpool, ⟨bs, ?_, ?_⟩, h.slip, h.count, h.ready, h.found⟩
    · exact hunread.trans hbs
    · show List.Forall₂ (HoldsPacket st.memory (st.pool.step (.rxConsume b)).queue.length) bs _
      rw [hlength]
      exact hbuffers

theorem receiverInv_open (q : RxBufferQueue cfg) (memory : RxBufferRef → ℕ → HciByte) :
    ReceiverInv 0 (hciReceiverOpen q memory) :=
  ReceiverInv.produceAndRegister (poolWhole_open q) (show _ = ([] : List ℕ) from rfl) .nil le_rfl
    (iff_of_false Bool.false_ne_true (not_not_intro rfl)) fun n bytes length hn => by
      simp at hn

/-- **What the invariant says.** -/
theorem ReceiverInv.extractable (h : ReceiverInv s st) : Extractable st := by
  refine ⟨h.found, h.count, fun hlt => ?_⟩
  have hwaits : st.waiting ≠ [] := by
    unfold HciReceiver.waiting
    rw [Ne, List.drop_eq_nil_iff]
    omega
  have hready := h.ready.mpr hwaits
  obtain ⟨bs, hunread, hbuffers⟩ := h.buffers
  obtain ⟨packet, rest, hwaiting⟩ := List.exists_cons_of_ne_nil hwaits
  rw [hwaiting] at hbuffers
  cases hbuffers with
  | cons hpacket hrest =>
    obtain ⟨hcode, -⟩ := h.pool.extract hunread
    unfold HciReceiver.hciTransportRxPktExtract
    rw [if_neg Bool.false_ne_true, if_pos hready, hcode]

/-! ## §5 Every run -/

/-- **Accepted packets are extracted one after the other** in every run whose steps all extract the
    last waiting packet. -/
theorem extractable_of_reachable
    (h : (HciReceiver.machine cfg).ReachableUnder ExtractsLast st) : Extractable st := by
  have hinv : ∃ s, ReceiverInv s st := by
    refine h.invariant (I := fun st => ∃ s, ReceiverInv s st) (fun st hst => ?_)
      fun st label hst hen hlast => ?_
    · obtain ⟨q, memory, rfl⟩ := hst
      exact ⟨0, receiverInv_open q memory⟩
    · obtain ⟨s, hs⟩ := hst
      exact receiverInv_step hs hen hlast
  obtain ⟨s, hs⟩ := hinv
  exact hs.extractable

end Steps

/-- The transport with four buffers, just opened. -/
def fourReceiver : HciReceiver fourBuffers :=
  hciReceiverOpen ⟨default, 0, 0, 0, 0, 0, 0⟩ fun _ _ => 0

/-- The events of a packet that is received. -/
def receivePacket (transmit : Fin 8) (data : List HciByte) : List HciRxLabel :=
  (hciTxPacket 0 transmit data).map .byte ++ [.slipEnd]

/-- Two packets, each extracted when it is accepted, and the buffers consumed. -/
theorem extractable_oneByOne :
    Extractable ((HciReceiver.machine fourBuffers).run fourReceiver
      (receivePacket 1 [7, 8] ++ [.extract false] ++ receivePacket 2 [9] ++
        [.extract false, .consume 0, .consume 1])) :=
  extractable_of_reachable (.of_follows (.start ⟨_, _, rfl⟩) (by decide +kernel))

/-- **Two packets are accepted before the first extraction**: the second one is not found. -/
theorem not_extractable_twoAccepted :
    ¬ ∀ (cfg : HciMemPoolConfig) (st : HciReceiver cfg),
      (HciReceiver.machine cfg).Reachable st → Extractable st := by
  intro hall
  have hextractable := hall fourBuffers
    ((HciReceiver.machine fourBuffers).run fourReceiver
      (receivePacket 1 [7, 8] ++ receivePacket 2 [9] ++ [.extract false]))
    (.of_follows (.start ⟨_, _, rfl⟩) (by decide +kernel))
  exact absurd (hextractable.ready (by decide +kernel)) (by decide +kernel)

end NordicEsb
