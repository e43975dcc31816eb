import NordicEsb.Fds.Accounting

/-!
# The Queue of Chunks

The chunks of all the operations that wait stand one behind the other in one ring. A write that is
executed takes one chunk with each step; one that fails skips all that it has left, and adds their
number to the index without wrapping around.

- `ChunkLedger` is the module with the chunks that each operation in the queue was accepted with
- `FdsOp.unwritten` are the chunks that are left of an operation
- `ChunksInOrder` is the property: the ring is the queue of the chunks that are not written, and
  what fstorage executes for a write is the chunk that it took last
- `ChunksFitIn` says when a step keeps it: an accepted record has no more chunks than the ring and
  `chunk_count` can hold, and a write that fails leaves an index inside the ring
- `Rejects` is the other half: what does not fit changes neither queue

**Main result** (`chunksInOrder_of_reachable`): in every run whose steps all fit, the queue of
chunks is a FIFO in every state, and every step rejects what does not fit.
-/

namespace NordicEsb

variable {cfg : FdsConfig} {sz : FdsQueueSizes}

/-! ## §1 What is not written -/

/-- The chunks that a write has taken from the queue, of those it was accepted with. -/
def FdsWriteOp.taken (w : FdsWriteOp) (cs : List FdsChunk) : List FdsChunk :=
  cs.take (cs.length - w.chunkCount.toNat)

/-- The chunks that are left of an operation, of those it was accepted with. -/
def FdsOp.unwritten : FdsOp → List FdsChunk → List FdsChunk
  | .write w, cs => cs.drop (cs.length - w.chunkCount.toNat)
  | _, _ => []

/-- The module, with the chunks that each operation of `m_op_queue` was accepted with. -/
structure ChunkLedger (cfg : FdsConfig) (sz : FdsQueueSizes) where
  sys : FdsSystem cfg sz
  accepted : List (List FdsChunk)

/-- The chunks that are left of these operations. -/
def unwrittenOf (ops : List FdsOp) (css : List (List FdsChunk)) : List FdsChunk :=
  (ops.zip css).flatMap fun p => p.1.unwritten p.2

/-- `p_write_addr` of a record on a page. -/
def Fds.writeAddr (s : Fds cfg) (page : ℕ) : ℕ :=
  (s.pages.get page).pAddr + (s.pages.get page).writeOffset.toNat

namespace ChunkLedger

variable (l : ChunkLedger cfg sz)

/-- A call that hands over these chunks: they are noted if it is accepted. -/
def call (chunks : List FdsChunk) (out : FdsRet × FdsSystem cfg sz) : ChunkLedger cfg sz :=
  ⟨out.2, if out.1 = fdsSuccess then l.accepted ++ [chunks] else l.accepted⟩

/-- The state after a label. -/
def step : FdsLabel → ChunkLedger cfg sz
  | .write record => l.call record.chunks (fdsRecordWrite record l.sys)
  | .writeReserved record tok => l.call record.chunks (fdsRecordWriteReserved record tok l.sys)
  | .update recordId record => l.call record.chunks (fdsRecordUpdate recordId record l.sys)
  | .delete recordId => l.call [] (fdsRecordDelete recordId l.sys)
  | .fileDelete fileId => l.call [] (fdsFileDelete fileId l.sys)
  | .gc => l.call [] (fdsGcCall l.sys)
  | .advance => ⟨queueAdvance l.sys, l.accepted.tail⟩
  | label => ⟨l.sys.step label, l.accepted⟩

/-- The notes change nothing. -/
theorem step_sys (label : FdsLabel) : (l.step label).sys = l.sys.step label := by
  cases label <;> rfl

/-- The operations that have not ended: the event of the first one may have been sent. -/
def unwritten : List FdsChunk :=
  if l.sys.stage = .reporting then unwrittenOf l.sys.ops.tail l.accepted.tail
  else unwrittenOf l.sys.ops l.accepted

end ChunkLedger

/-- **The module in use**, with its notes. -/
def chunkMachine (cfg : FdsConfig) (sz : FdsQueueSizes) :
    Machine (ChunkLedger cfg sz) FdsLabel where
  start l := l.sys.Ready ∧ l.accepted = []
  enabled l label := label.Enabled l.sys
  step := ChunkLedger.step

instance (l : ChunkLedger cfg sz) (label : FdsLabel) :
    Decidable ((chunkMachine cfg sz).enabled l label) :=
  inferInstanceAs (Decidable (label.Enabled l.sys))

/-- **The queue of chunks is a FIFO.** -/
structure ChunksInOrder (l : ChunkLedger cfg sz) : Prop where
  /-- `m_chunk_queue.rp` -/
  rp_lt : l.sys.module.chunkQueue.rp < sz.chunkQueueSize
  count_le : l.sys.module.chunkQueue.count ≤ sz.chunkQueueSize
  count_eq : l.sys.module.chunkQueue.count = l.unwritten.length
  /-- The ring holds what is not written, in the order in which it was accepted. -/
  holds : l.sys.module.chunkQueue.Holds l.unwritten
  /-- Every operation has its note. -/
  noted : l.accepted.length = l.sys.ops.length
  /-- A write that has just taken a chunk stores it, behind its chunks before. -/
  stores : ∀ w ops cs css, l.sys.stage = .executing → l.sys.ops = .write w :: ops →
    l.accepted = cs :: css → w.step = .chunks ∨ w.step = .headerFinalize →
    ∀ done c, w.taken cs = done ++ [c] → l.sys.module.fds.pending =
      some (.store (l.sys.module.fds.writeAddr w.page +
        (BitVec.ofNat 16 (3 + chunksSize done)).toNat) c.data)
  /-- A write that reports success has taken all its chunks. -/
  complete : ∀ w ops e, l.sys.stage = .reporting → l.sys.ops = .write w :: ops →
    l.sys.events.getLast? = some e → e.result = fdsSuccess → w.chunkCount = 0

/-! ## §2 What fits -/

/-- fstorage does not take a store of this length. -/
def StoreRefused (s : Fds cfg) (dest length : ℕ) : Prop :=
  dest < cfg.startAddr ∨ cfg.endAddr < dest + length ∨ length = 0 ∨ s.fsFull = true

instance (s : Fds cfg) (dest length : ℕ) : Decidable (StoreRefused s dest length) :=
  inferInstanceAs (Decidable (_ ∨ _ ∨ _ ∨ _))

/-- No record has this ID. -/
def NoRecord (s : Fds cfg) (id : BitVec 32) : Prop := recordIdPages s id cfg.maxPages 0 = none

instance (s : Fds cfg) (id : BitVec 32) : Decidable (NoRecord s id) :=
  inferInstanceAs (Decidable (_ = none))

/-- The step of a write that has chunks left fails. -/
def StepRefused (m : FdsModule cfg sz) (w : FdsWriteOp) : Prop :=
  match w.step with
  | .findRecord =>
    NoRecord m.fds w.recordToDelete ∨ StoreRefused m.fds (m.fds.writeAddr w.page) 1
  | .headerBegin => StoreRefused m.fds (m.fds.writeAddr w.page) 1
  | .recordId => StoreRefused m.fds (m.fds.writeAddr w.page + 2) 1
  | .chunks =>
    StoreRefused m.fds (m.fds.writeAddr w.page + w.chunkOffset.toNat)
      (m.chunkQueue.chunk.get m.chunkQueue.rp).data.length
  | .headerFinalize | .flagDirty | .done => False

instance (m : FdsModule cfg sz) (w : FdsWriteOp) : Decidable (StepRefused m w) := by
  unfold StepRefused
  split <;> infer_instance

/-- **A write that fails skips its chunks inside the ring**: those that are left when its next step
    is refused, or when the last one has timed out. -/
def SkipsInside (m : FdsModule cfg sz) (w : FdsWriteOp) (timeout : Bool) : Prop :=
  if timeout then m.chunkQueue.rp + w.chunkCount.toNat < sz.chunkQueueSize
  else StepRefused m w →
    -- The chunk that is refused has been taken from the ring.
    if w.step = .chunks then
      (m.chunkQueue.rp + 1) % sz.chunkQueueSize + (w.chunkCount.toNat - 1) < sz.chunkQueueSize
    else m.chunkQueue.rp + w.chunkCount.toNat < sz.chunkQueueSize

instance (m : FdsModule cfg sz) (w : FdsWriteOp) (timeout : Bool) :
    Decidable (SkipsInside m w timeout) := by
  unfold SkipsInside
  infer_instance

/-- The operation that is executed, if it is a write. -/
def HeadSkipsInside (s : FdsSystem cfg sz) (ops : List FdsOp) (timeout : Bool) : Prop :=
  match ops with
  | .write w :: _ => SkipsInside s.module w timeout
  | _ => True

instance (s : FdsSystem cfg sz) (ops : List FdsOp) (timeout : Bool) :
    Decidable (HeadSkipsInside s ops timeout) :=
  match ops with
  | .write w :: _ => (inferInstance : Decidable (SkipsInside s.module w timeout))
  | [] | .delete _ :: _ | .gc :: _ => (inferInstance : Decidable True)

/-- A write that begins at once, and fails at once: the record to update is missing, or fstorage
    does not take its first word. -/
def BeginRefused (s : FdsSystem cfg sz) (update : Option (BitVec 32)) (page : ℕ) : Prop :=
  s.stage = .idle ∧ ((∃ id, update = some id ∧ NoRecord s.module.fds id) ∨
    StoreRefused s.module.fds (s.module.fds.writeAddr page) 1)

instance (s : FdsSystem cfg sz) (update : Option (BitVec 32)) (page : ℕ) :
    Decidable (BeginRefused s update page) :=
  -- There are too many record IDs to try them all.
  have : Decidable (∃ id, update = some id ∧ NoRecord s.module.fds id) :=
    Option.decidableExistsMem (p := NoRecord s.module.fds) update
  inferInstanceAs (Decidable (_ ∧ (_ ∨ _)))

/-- A write on this page that `op_enqueue` accepts. -/
def AcceptFits (s : FdsSystem cfg sz) (record : FdsNewRecord) (update : Option (BitVec 32))
    (page : ℕ) : Prop :=
  QueuesHaveRoom s record.chunks.length → ChunksFit sz record ∧
    (BeginRefused s update page →
      s.module.chunkQueue.rp + record.chunks.length < sz.chunkQueueSize)

instance (s : FdsSystem cfg sz) (record : FdsNewRecord) (update : Option (BitVec 32)) (page : ℕ) :
    Decidable (AcceptFits s record update page) :=
  inferInstanceAs (Decidable (_ → _ ∧ (_ → _)))

/-- A write that reserves its space. -/
def WriteFits (s : FdsSystem cfg sz) (record : FdsNewRecord) (update : Option (BitVec 32)) :
    Prop :=
  record.Valid → ∀ page < cfg.maxPages,
    ReservesOn s.module.fds (chunksSize record.chunks) page → AcceptFits s record update page

instance (s : FdsSystem cfg sz) (record : FdsNewRecord) (update : Option (BitVec 32)) :
    Decidable (WriteFits s record update) :=
  inferInstanceAs (Decidable (_ → ∀ page < cfg.maxPages, _ → _))

/-- **What a step takes and skips fits in the ring.** -/
def ChunksFitIn (l : ChunkLedger cfg sz) : FdsLabel → Prop
  | .write record => WriteFits l.sys record none
  | .update recordId record => WriteFits l.sys record (some recordId)
  | .writeReserved record tok => record.Valid → AcceptFits l.sys record none tok.page
  | .advance => HeadSkipsInside l.sys l.sys.ops.tail false
  | .flashDone => HeadSkipsInside (l.sys.setFds (flashDone l.sys.module.fds)) l.sys.ops false
  | .flashTimeout _ => HeadSkipsInside l.sys l.sys.ops true
  | _ => True

instance (l : ChunkLedger cfg sz) : DecidablePred (ChunksFitIn l)
  | .write record => (inferInstance : Decidable (WriteFits l.sys record none))
  | .update recordId record => (inferInstance : Decidable (WriteFits l.sys record (some recordId)))
  | .writeReserved record tok =>
    (inferInstance : Decidable (record.Valid → AcceptFits l.sys record none tok.page))
  | .advance => (inferInstance : Decidable (HeadSkipsInside l.sys l.sys.ops.tail false))
  | .flashDone =>
    (inferInstance : Decidable
      (HeadSkipsInside (l.sys.setFds (flashDone l.sys.module.fds)) l.sys.ops false))
  | .flashTimeout _ => (inferInstance : Decidable (HeadSkipsInside l.sys l.sys.ops true))
  | .reserve _ | .reserveCancel _ | .delete _ | .fileDelete _ | .gc | .open _ | .close _
  | .fsQueue _ =>
    (inferInstance : Decidable True)

/-- The chunks that a call hands over. -/
def FdsLabel.chunks : FdsLabel → Option (List FdsChunk)
  | .write record | .writeReserved record _ | .update _ record => some record.chunks
  | .delete _ | .fileDelete _ | .gc => some []
  | _ => none

/-- **What does not fit is rejected**, and changes neither queue. -/
def Rejects (l : ChunkLedger cfg sz) (label : FdsLabel) : Prop :=
  ∀ chunks, label.chunks = some chunks →
    ¬ (l.sys.ops.length < sz.opQueueSize ∧
      l.sys.module.chunkQueue.count + chunks.length ≤ sz.chunkQueueSize) →
    (l.step label).accepted = l.accepted ∧ (l.step label).sys.ops = l.sys.ops ∧
      (l.step label).sys.module.chunkQueue = l.sys.module.chunkQueue

/-! ## §3 One step of a write -/

/-- **What the counters of a write say** of the chunks that it was accepted with. -/
structure FdsWriteOp.Takes (w : FdsWriteOp) (cs : List FdsChunk) : Prop where
  le : w.chunkCount.toNat ≤ cs.length
  offset : w.chunkOffset = BitVec.ofNat 16 (3 + chunksSize (w.taken cs))
  fresh : w.step = .findRecord ∨ w.step = .headerBegin ∨ w.step = .recordId → w.taken cs = []
  begun : w.step = .chunks → w.chunkCount ≠ 0
  written : w.step = .headerFinalize ∨ w.step = .flagDirty ∨ w.step = .done → w.chunkCount = 0

/-- An operation other than a write has no chunks. -/
def FdsOp.Takes : FdsOp → List FdsChunk → Prop
  | .write w, cs => w.Takes cs
  | _, cs => cs = []

/-- The chunk that a write has just taken is the one that fstorage executes. -/
def StoresTaken (s : Fds cfg) (w : FdsWriteOp) (cs : List FdsChunk) : Prop :=
  w.step = .chunks ∨ w.step = .headerFinalize →
    ∀ done c, w.taken cs = done ++ [c] → s.pending =
      some (.store (s.writeAddr w.page + (BitVec.ofNat 16 (3 + chunksSize done)).toNat) c.data)

/-- What a step does to the chunks: `rest` are those of the operations behind it. -/
structure TakeOutcome (cs rest : List FdsChunk) (out : FdsRet × FdsWriteOp × FdsModule cfg sz) :
    Prop where
  takes : out.2.1.Takes cs
  holds : out.2.2.chunkQueue.Holds ((FdsOp.write out.2.1).unwritten cs ++ rest)
  stores : out.1 = fdsOpExecuting → StoresTaken out.2.2.fds out.2.1 cs
  inside : out.1 ≠ fdsOpExecuting →
    out.2.2.chunkQueue.rp + out.2.1.chunkCount.toNat < sz.chunkQueueSize
  complete : out.1 = fdsOpCompleted → out.2.1.chunkCount = 0

section Step

variable {w w' : FdsWriteOp} {m : FdsModule cfg sz} {cs rest : List FdsChunk} {dest : ℕ}
  {src : List (BitVec 32)}

theorem chunksSize_append (cs cs' : List FdsChunk) :
    chunksSize (cs ++ cs') = chunksSize cs + chunksSize cs' := by
  simp [chunksSize]

/-- What is taken and what is left. -/
theorem FdsWriteOp.taken_append_unwritten (w : FdsWriteOp) (cs : List FdsChunk) :
    w.taken cs ++ (FdsOp.write w).unwritten cs = cs := List.take_append_drop _ _

/-- fstorage takes a store, or refuses it. -/
theorem fsStore_refused (s : Fds cfg) (dest : ℕ) (src : List (BitVec 32)) :
    fsStore s dest src = (fsSuccess, { s with pending := some (.store dest src) }) ∨
      StoreRefused s dest src.length ∧ ∃ ret, ret ≠ fsSuccess ∧ fsStore s dest src = (ret, s) := by
  unfold fsStore StoreRefused
  split_ifs with haddr hlen hfull
  · refine .inr ⟨?_, _, by decide, rfl⟩
    rcases haddr with h | h
    · exact .inl h
    · exact .inr (.inl h)
  · exact .inr ⟨.inr (.inr (.inl hlen)), _, by decide, rfl⟩
  · exact .inr ⟨.inr (.inr (.inr hfull)), _, by decide, rfl⟩
  · exact .inl rfl

/-- Another step with the same counters. -/
theorem FdsWriteOp.Takes.next (hw : w.Takes cs) {step : FdsWriteStep}
    (hfresh : step = .findRecord ∨ step = .headerBegin ∨ step = .recordId → w.taken cs = [])
    (hbegun : step = .chunks → w.chunkCount ≠ 0)
    (hwritten : step = .headerFinalize ∨ step = .flagDirty ∨ step = .done → w.chunkCount = 0) :
    ({ w with step := step } : FdsWriteOp).Takes cs :=
  ⟨hw.le, hw.offset, hfresh, hbegun, hwritten⟩

/-- **A step that takes no chunk.** -/
theorem wordStep_takeOutcome {step : FdsWriteStep} (hw : ({ w with step := step } : FdsWriteOp).Takes cs)
    (hqueue : m.chunkQueue.Holds ((FdsOp.write w).unwritten cs ++ rest))
    (hstores : step = .chunks ∨ step = .headerFinalize → w.taken cs = [])
    (hinside : StoreRefused m.fds dest src.length →
      m.chunkQueue.rp + w.chunkCount.toNat < sz.chunkQueueSize) :
    TakeOutcome cs rest
      (fdsRetOf (m.store dest src).1, { w with step := step }, (m.store dest src).2) := by
  unfold FdsModule.store
  rcases fsStore_refused m.fds dest src with hstore | ⟨hrefused, ret, hret, hstore⟩
  · rw [hstore]
    refine ⟨hw, hqueue, fun _ hstep done c htaken => ?_, fun h => absurd rfl h, fun h => (by cases h)⟩
    have hnil : done ++ [c] = [] := htaken.symm.trans (hstores hstep)
    simp at hnil
  · have hbusy : fdsRetOf ret = fdsErrBusy := if_neg hret
    rw [hstore]
    dsimp only
    rw [hbusy]
    exact ⟨hw, hqueue, fun h => (by cases h), fun _ => hinside hrefused, fun h => (by cases h)⟩

/-- The next chunk of a write, and what it looks like afterwards. -/
theorem FdsWriteOp.Takes.afterChunk (hw : w.Takes cs) (hstep : w.step = .chunks) :
    ∃ c, (FdsOp.write w).unwritten cs = c :: (FdsOp.write (w.afterChunk c)).unwritten cs ∧
      (w.afterChunk c).taken cs = w.taken cs ++ [c] ∧ (w.afterChunk c).Takes cs ∧
      (w.afterChunk c).chunkCount.toNat = w.chunkCount.toNat - 1 := by
  have hpos : 0 < w.chunkCount.toNat := by
    have hne := hw.begun hstep
    rw [Nat.pos_iff_ne_zero]
    exact fun h => hne (BitVec.toNat_inj.mp h)
  have hle := hw.le
  have hlt : cs.length - w.chunkCount.toNat < cs.length := by omega
  refine ⟨cs[cs.length - w.chunkCount.toNat], ?_⟩
  generalize hc : cs[cs.length - w.chunkCount.toNat] = c
  have hone : (1 : BitVec 8).toNat = 1 := rfl
  have hcount : (w.afterChunk c).chunkCount.toNat = w.chunkCount.toNat - 1 := by
    show (w.chunkCount - 1).toNat = w.chunkCount.toNat - 1
    rw [BitVec.toNat_sub, hone]
    have hsmall := w.chunkCount.isLt
    omega
  have hnext : cs.length - (w.afterChunk c).chunkCount.toNat =
      cs.length - w.chunkCount.toNat + 1 := by omega
  have htaken : (w.afterChunk c).taken cs = w.taken cs ++ [c] := by
    unfold FdsWriteOp.taken
    rw [hnext, List.take_add_one, List.getElem?_eq_getElem hlt, hc]
    rfl
  refine ⟨?_, htaken, ⟨by omega, ?_, fun h => ?_, fun h => ?_, fun h => ?_⟩, hcount⟩
  · show cs.drop _ = c :: cs.drop _
    rw [hnext, List.drop_eq_getElem_cons hlt, hc]
  · rw [htaken, chunksSize_append]
    show w.chunkOffset + c.lengthWords = _
    rw [hw.offset]
    unfold FdsChunk.lengthWords
    rw [← BitVec.ofNat_add, chunksSize_cons, chunksSize_nil, Nat.add_zero, Nat.add_assoc]
  · -- A write that has taken a chunk is at neither of the first steps.
    unfold FdsWriteOp.afterChunk at h
    dsimp only at h
    split at h <;> simp at h
  · unfold FdsWriteOp.afterChunk at h ⊢
    intro hzero
    rw [if_pos hzero] at h
    cases h
  · unfold FdsWriteOp.afterChunk at h ⊢
    by_contra hne
    rw [if_neg hne] at h
    simp at h

/-- **A chunk is taken**: the next one of this write. -/
theorem recordWriteChunk_takeOutcome (hw : w.Takes cs) (hstep : w.step = .chunks)
    (hqueue : m.chunkQueue.Holds ((FdsOp.write w).unwritten cs ++ rest))
    (hinside : SkipsInside m w false) :
    TakeOutcome cs rest (recordWriteChunk w m (m.fds.writeAddr w.page)) := by
  obtain ⟨c, hunwritten, htaken, hnext, hcount⟩ := hw.afterChunk hstep
  rw [hunwritten, List.cons_append] at hqueue
  obtain ⟨hchunk, hqueue'⟩ := FdsChunkQueue.Holds.getAndAdvance hqueue
  have hget : m.chunkQueue.getAndAdvance =
      (m.chunkQueue.chunk.get m.chunkQueue.rp, ⟨m.chunkQueue.chunk,
        (m.chunkQueue.rp + 1) % sz.chunkQueueSize, m.chunkQueue.count - 1⟩) := by
    have hpos := FdsChunkQueue.Holds.count_eq hqueue
    exact if_pos (by rw [hpos]; exact Nat.succ_ne_zero _)
  have hcode : recordWriteChunk w m (m.fds.writeAddr w.page) =
      (fdsRetOf (fsStore m.fds (m.fds.writeAddr w.page + w.chunkOffset.toNat) c.data).1,
        w.afterChunk c,
        { m with
          chunkQueue := m.chunkQueue.getAndAdvance.2
          fds := (fsStore m.fds (m.fds.writeAddr w.page + w.chunkOffset.toNat) c.data).2 }) := by
    rw [← hchunk]
    unfold recordWriteChunk FdsWriteOp.afterChunk FdsModule.store
    dsimp only
    split <;> simp [*]
  rw [hcode]
  rcases fsStore_refused m.fds (m.fds.writeAddr w.page + w.chunkOffset.toNat) c.data with
    hstore | ⟨hrefused, ret, hret, hstore⟩
  · rw [hstore]
    refine ⟨hnext, hqueue', fun _ _ done d hdone => ?_, fun h => absurd rfl h, fun h => (by cases h)⟩
    -- The chunk that is taken last is this one.
    rw [htaken] at hdone
    obtain ⟨rfl, hd⟩ := List.append_inj' hdone rfl
    obtain rfl := List.head_eq_of_cons_eq hd
    rw [← hw.offset]
    rfl
  · have hbusy : fdsRetOf ret = fdsErrBusy := if_neg hret
    rw [hstore]
    dsimp only
    rw [hbusy]
    refine ⟨hnext, hqueue', fun h => (by cases h), fun _ => ?_, fun h => (by cases h)⟩
    have hroom := hinside
    unfold SkipsInside at hroom
    rw [if_neg Bool.false_ne_true, if_pos hstep] at hroom
    show m.chunkQueue.getAndAdvance.2.rp + (w.afterChunk c).chunkCount.toNat < _
    rw [hcount, hget]
    refine hroom ?_
    have hfirst : m.chunkQueue.chunk.get m.chunkQueue.rp = c := by
      rw [hget] at hchunk
      exact hchunk
    unfold StepRefused
    rw [hstep, hfirst]
    exact hrefused

/-- **Every step of a write.** -/
theorem writeStep_takeOutcome (hw : w.Takes cs)
    (hqueue : m.chunkQueue.Holds ((FdsOp.write w).unwritten cs ++ rest))
    (hinside : SkipsInside m w false) :
    TakeOutcome cs rest (writeStep w m (m.fds.writeAddr w.page)) := by
  have hrp := FdsChunkQueue.Holds.rp_lt hqueue
  have hroom : w.step ≠ .chunks → StepRefused m w →
      m.chunkQueue.rp + w.chunkCount.toNat < sz.chunkQueueSize := by
    intro hstep hrefused
    have hinside := hinside
    unfold SkipsInside at hinside
    rw [if_neg Bool.false_ne_true, if_neg hstep] at hinside
    exact hinside hrefused
  have hnone : w.chunkCount = 0 →
      m.chunkQueue.rp + w.chunkCount.toNat < sz.chunkQueueSize := by
    intro hzero
    rw [hzero]
    exact hrp
  -- The first word of the header.
  have hbegin : w.step = .findRecord ∨ w.step = .headerBegin →
      TakeOutcome cs rest (recordHeaderWriteBegin w m (m.fds.writeAddr w.page)) := by
    intro hstep
    have hfresh := hw.fresh (hstep.imp_right .inl)
    refine wordStep_takeOutcome (hw.next (fun _ => hfresh) (by simp) (by simp)) hqueue (by simp)
      fun hrefused => hroom ?_ ?_
    · rcases hstep with h | h <;> simp [h]
    · unfold StepRefused
      rcases hstep with h | h
      · rw [h]
        exact .inr hrefused
      · rw [h]
        exact hrefused
  unfold writeStep
  cases hstep : w.step with
  | findRecord => exact hbegin (.inl hstep)
  | headerBegin => exact hbegin (.inr hstep)
  | recordId =>
    have hfresh := hw.fresh (.inr (.inr hstep))
    refine wordStep_takeOutcome (hw.next (fun _ => hfresh) ?_ ?_) hqueue (fun _ => hfresh)
      fun hrefused => hroom (by simp [hstep]) ?_
    · split <;> simp_all
    · split <;> simp_all
    · unfold StepRefused
      rw [hstep]
      exact hrefused
  | chunks => exact recordWriteChunk_takeOutcome hw hstep hqueue hinside
  | headerFinalize =>
    have hzero := hw.written (.inl hstep)
    refine wordStep_takeOutcome (hw.next ?_ ?_ fun _ => hzero) hqueue ?_ fun _ => hnone hzero
    · split <;> simp
    · split <;> simp
    · split <;> simp
  | flagDirty =>
    have hzero := hw.written (.inr (.inl hstep))
    exact wordStep_takeOutcome (hw.next (by simp) (by simp) fun _ => hzero) hqueue (by simp)
      fun _ => hnone hzero
  | done =>
    have hzero := hw.written (.inr (.inr hstep))
    exact ⟨hw, hqueue, fun h => (by cases h), fun _ => hnone hzero, fun _ => hzero⟩

/-- What is stored is the same on another table with the same addresses. -/
theorem TakeOutcome.congr {out out' : FdsRet × FdsWriteOp × FdsModule cfg sz}
    (h : TakeOutcome cs rest out) (hret : out'.1 = out.1) (hop : out'.2.1 = out.2.1)
    (hqueue : out'.2.2.chunkQueue = out.2.2.chunkQueue)
    (hfds : out.1 = fdsOpExecuting → out'.2.2.fds = out.2.2.fds) : TakeOutcome cs rest out' := by
  refine ⟨hop ▸ h.takes, hop ▸ hqueue ▸ h.holds, fun hexec => ?_, fun hexec => ?_, fun hdone => ?_⟩
  · have hstores := h.stores (hret ▸ hexec)
    rw [hop, hfds (hret ▸ hexec)]
    exact hstores
  · rw [hop, hqueue]
    exact h.inside (hret ▸ hexec)
  · rw [hop]
    exact h.complete (hret ▸ hdone)

/-- **A write is executed.** -/
theorem writeExecute_takeOutcome {prevRet : FdsRet} {timeout : Bool} (hw : w.Takes cs)
    (hqueue : m.chunkQueue.Holds ((FdsOp.write w).unwritten cs ++ rest))
    (hprev : prevRet = fsSuccess ↔ timeout = false) (hinside : SkipsInside m w timeout) :
    TakeOutcome cs rest (writeExecute w m prevRet) := by
  -- An operation that ends moves its words to another counter, which is no matter here.
  have hadvance : ∀ desc : FdsRecordDesc, timeout = false →
      TakeOutcome cs rest (writeAdvance w { m with desc := desc }) := by
    intro desc htimeout
    have hstep : TakeOutcome cs rest
        (writeStep w { m with desc := desc } (m.fds.writeAddr w.page)) :=
      writeStep_takeOutcome hw hqueue (htimeout ▸ hinside)
    unfold writeAdvance
    dsimp only
    split
    · refine hstep.congr rfl rfl rfl fun hexec => ?_
      exact absurd hexec ‹_›
    · exact hstep
  unfold writeExecute
  split_ifs with hret hfind
  · have htimeout : timeout = true := by
      cases timeout with
      | false => exact absurd (hprev.mpr rfl) hret
      | true => rfl
    rw [htimeout] at hinside
    exact ⟨hw, hqueue, fun h => (by cases h), fun _ => hinside, fun h => (by cases h)⟩
  · have htimeout := hprev.mp (not_not.mp hret)
    dsimp only
    have hsearch : recordFindByDesc m.fds
        { m.desc with pRecord := 0, recordId := w.recordToDelete } =
        (recordIdPages m.fds w.recordToDelete cfg.maxPages 0).map fun p =>
          (p.1, { m.desc with
            pRecord := p.2, recordId := w.recordToDelete, gcRunCount := m.fds.gc.runCount }) := by
      unfold recordFindByDesc addressIsValid
      simp
    rw [hsearch]
    cases hrecord : recordIdPages m.fds w.recordToDelete cfg.maxPages 0 with
    | none =>
      have hroom := hinside
      unfold SkipsInside StepRefused at hroom
      rw [htimeout, if_neg Bool.false_ne_true, hfind] at hroom
      exact ⟨hw, hqueue, fun h => (by cases h), fun _ => hroom (.inl hrecord),
        fun h => (by cases h)⟩
    | some found => exact hadvance _ htimeout
  · exact hadvance m.desc (hprev.mp (not_not.mp hret))

end Step

/-! ## §4 The queue of operations -/

/-- What holds in every state: every operation has its note, and the ring holds what is left. -/
structure ChunkInv (l : ChunkLedger cfg sz) : Prop where
  takes : List.Forall₂ FdsOp.Takes l.sys.ops l.accepted
  holds : l.sys.module.chunkQueue.Holds l.unwritten
  idle : l.sys.stage = .idle ↔ l.sys.ops = []
  stores : ∀ w ops cs css, l.sys.stage = .executing → l.sys.ops = .write w :: ops →
    l.accepted = cs :: css → StoresTaken l.sys.module.fds w cs
  complete : ∀ w ops e, l.sys.stage = .reporting → l.sys.ops = .write w :: ops →
    l.sys.events.getLast? = some e → e.result = fdsSuccess → w.chunkCount = 0

section Queue

variable {l : ChunkLedger cfg sz} {s t u : FdsSystem cfg sz} {op : FdsOp} {ops : List FdsOp}
  {w : FdsWriteOp} {cs chunks : List FdsChunk} {css : List (List FdsChunk)} {label : FdsLabel}

@[simp] theorem unwrittenOf_cons (op : FdsOp) (ops : List FdsOp) (cs : List FdsChunk)
    (css : List (List FdsChunk)) :
    unwrittenOf (op :: ops) (cs :: css) = op.unwritten cs ++ unwrittenOf ops css := rfl

/-- An operation behind the others. -/
theorem unwrittenOf_concat (h : List.Forall₂ FdsOp.Takes ops css) (op : FdsOp)
    (cs : List FdsChunk) :
    unwrittenOf (ops ++ [op]) (css ++ [cs]) = unwrittenOf ops css ++ op.unwritten cs := by
  unfold unwrittenOf
  rw [List.zip_append h.length_eq, List.flatMap_append]
  simp

theorem recordFindAndDelete_chunkQueue (m : FdsModule cfg sz) (op : FdsDeleteOp) :
    (recordFindAndDelete m op).2.2.chunkQueue = m.chunkQueue := by
  unfold recordFindAndDelete
  cases recordFindByDesc m.fds ⟨op.recordToDelete, 0, 0, false⟩ <;> rfl

theorem fileFindAndDelete_chunkQueue (m : FdsModule cfg sz) (op : FdsDeleteOp) :
    (fileFindAndDelete m op).2.chunkQueue = m.chunkQueue := by
  unfold fileFindAndDelete
  cases recordFind m.fds op.fileId m.tok <;> rfl

/-- A deletion takes no chunk. -/
theorem deleteExecute_chunkQueue (m : FdsModule cfg sz) (prevRet : FdsRet) (op : FdsDeleteOp) :
    (deleteExecute m prevRet op).2.2.chunkQueue = m.chunkQueue := by
  unfold deleteExecute
  split
  · rfl
  · cases op.step with
    | recordFlagDirty => exact recordFindAndDelete_chunkQueue m op
    | fileFlagDirty => exact fileFindAndDelete_chunkQueue m op
    | done => rfl

/-- What an operation other than a write does to the chunks. -/
theorem executeOp_chunkQueue (result : FdsRet) (m : FdsModule cfg sz)
    (hop : ∀ w, op ≠ .write w) :
    (executeOp result op m).2.2.chunkQueue = m.chunkQueue ∧
      ∀ w, (executeOp result op m).2.1 ≠ .write w := by
  cases op with
  | write w => exact absurd rfl (hop w)
  | delete op =>
    refine ⟨deleteExecute_chunkQueue m result op, fun w h => ?_⟩
    exact FdsOp.noConfusion h
  | gc => exact ⟨rfl, fun w h => FdsOp.noConfusion h⟩

/-- An operation other than a write has nothing left. -/
theorem FdsOp.unwritten_of_ne (hop : ∀ w, op ≠ .write w) (cs : List FdsChunk) :
    op.unwritten cs = [] := by
  cases op with
  | write w => exact absurd rfl (hop w)
  | delete op => rfl
  | gc => rfl

theorem FdsOp.takes_of_ne (hop : ∀ w, op ≠ .write w) : op.Takes cs ↔ cs = [] := by
  cases op with
  | write w => exact absurd rfl (hop w)
  | delete op => exact Iff.rfl
  | gc => exact Iff.rfl

/-- **One step of the operation at the head of the queue.** -/
theorem queueProcess_chunkInv {result : FdsRet} {timeout : Bool} (hops : s.ops = op :: ops)
    (htakes : List.Forall₂ FdsOp.Takes (op :: ops) (cs :: css))
    (hholds : s.module.chunkQueue.Holds (unwrittenOf (op :: ops) (cs :: css)))
    (hprev : result = fsSuccess ↔ timeout = false)
    (hinside : HeadSkipsInside s (op :: ops) timeout) :
    ChunkInv ⟨queueProcess result s, cs :: css⟩ := by
  obtain ⟨htake, hrest⟩ := List.forall₂_cons.mp htakes
  rw [unwrittenOf_cons] at hholds
  unfold queueProcess
  rw [hops]
  by_cases hwrite : ∃ w, op = .write w
  · -- A write: its step says what it has taken.
    obtain ⟨w, rfl⟩ := hwrite
    have hout := writeExecute_takeOutcome (m := s.module) htake hholds hprev hinside
    obtain ⟨out, heq⟩ : ∃ out, out = writeExecute w s.module result := ⟨_, rfl⟩
    have hexecute : executeOp result (.write w) s.module = (out.1, .write out.2.1, out.2.2) := by
      rw [heq]
      rfl
    rw [← heq] at hout
    dsimp only
    rw [hexecute]
    dsimp only
    have hall : List.Forall₂ FdsOp.Takes (.write out.2.1 :: ops) (cs :: css) :=
      .cons hout.takes hrest
    -- It goes on, is complete, or has failed.
    split_ifs with hexec hdone
    · refine ⟨hall, hout.holds, by simp, fun w' ops' cs' css' _ hcons hnoted => ?_,
        fun _ _ _ h => (by cases h)⟩
      obtain ⟨hw', -⟩ := List.cons.inj hcons
      obtain ⟨rfl, -⟩ := List.cons.inj hnoted
      obtain rfl := FdsOp.write.inj hw'
      exact hout.stores hexec
    · -- A write that is complete has nothing left.
      refine ⟨hall, ?_, by simp, fun _ _ _ _ h => (by cases h), fun w' ops' e _ hcons _ _ => ?_⟩
      · have hnone : (FdsOp.write out.2.1).unwritten cs = [] := by
          show cs.drop (cs.length - out.2.1.chunkCount.toNat) = []
          rw [hout.complete hdone]
          exact List.drop_length
        have hqueue := hout.holds
        rw [hnone, List.nil_append] at hqueue
        exact hqueue
      · obtain ⟨hw', -⟩ := List.cons.inj hcons
        obtain rfl := FdsOp.write.inj hw'
        exact hout.complete hdone
    · -- What is left of a write that has failed is skipped.
      refine ⟨hall, ?_, by simp, fun _ _ _ _ h => (by cases h),
        fun w' ops' e _ hcons hlast hresult => ?_⟩
      · have hlen : ((FdsOp.write out.2.1).unwritten cs).length = out.2.1.chunkCount.toNat := by
          have hle := hout.takes.le
          show (cs.drop _).length = _
          rw [List.length_drop]
          omega
        have hroom := hout.inside hexec
        rw [← hlen] at hroom
        have hqueue := hout.holds.skip hroom
        rw [hlen] at hqueue
        exact hqueue
      · rw [List.getLast?_concat] at hlast
        obtain rfl := Option.some.inj hlast
        exact absurd hresult hexec
  · -- Another operation has no chunks.
    have hne : ∀ w, op ≠ .write w := fun w h => hwrite ⟨w, h⟩
    obtain ⟨hqueue, hkind⟩ := executeOp_chunkQueue result s.module hne
    obtain ⟨out, heq⟩ : ∃ out, out = executeOp result op s.module := ⟨_, rfl⟩
    rw [← heq] at hqueue hkind
    obtain rfl := (FdsOp.takes_of_ne hne).mp htake
    rw [FdsOp.unwritten_of_ne hne, List.nil_append, ← hqueue] at hholds
    dsimp only
    rw [← heq]
    have hall : List.Forall₂ FdsOp.Takes (out.2.1 :: ops) ([] :: css) :=
      .cons ((FdsOp.takes_of_ne hkind).mpr rfl) hrest
    -- Only a write has chunks to skip.
    have hskip : chunkQueueSkip out.2.1 out.2.2 = out.2.2 := by
      unfold chunkQueueSkip
      split
      · exact absurd ‹_› (hkind _)
      · rfl
    have hnotWrite : ∀ w ops', out.2.1 :: ops ≠ FdsOp.write w :: ops' := fun w ops' h =>
      hkind w (List.head_eq_of_cons_eq h)
    split_ifs with hexec hdone
    · refine ⟨hall, ?_, by simp, fun w ops' _ _ _ h => absurd h (hnotWrite w ops'),
        fun _ _ _ h => (by cases h)⟩
      show FdsChunkQueue.Holds _ (unwrittenOf (out.2.1 :: ops) ([] :: css))
      rw [unwrittenOf_cons, FdsOp.unwritten_of_ne hkind, List.nil_append]
      exact hholds
    · exact ⟨hall, hholds, by simp, fun _ _ _ _ h => (by cases h),
        fun w ops' _ _ h => absurd h (hnotWrite w ops')⟩
    · rw [hskip]
      exact ⟨hall, hholds, by simp, fun _ _ _ _ h => (by cases h),
        fun w ops' _ _ h => absurd h (hnotWrite w ops')⟩

/-! ## §5 Calls -/

/-- What a call leaves alone before it starts the queue. -/
structure CallFrame (s t : FdsSystem cfg sz) : Prop where
  quiet : Quiet s t
  writeAddr : ∀ i, t.module.fds.writeAddr i = s.module.fds.writeAddr i

theorem CallFrame.refl (s : FdsSystem cfg sz) : CallFrame s s := ⟨.refl s, fun _ => rfl⟩

theorem CallFrame.trans (h : CallFrame s t) (h' : CallFrame t u) : CallFrame s u :=
  ⟨h.quiet.trans h'.quiet, fun i => (h'.writeAddr i).trans (h.writeAddr i)⟩

/-- Another count on a page. -/
theorem modifyPage_callFrame (s : FdsSystem cfg sz) (page : ℕ) (f : FdsPage → FdsPage)
    (haddr : ∀ p, (f p).pAddr = p.pAddr) (htype : ∀ p, (f p).pageType = p.pageType)
    (hoffset : ∀ p, (f p).writeOffset = p.writeOffset) :
    CallFrame s (s.setFds (s.module.fds.modifyPage page f)) := by
  refine ⟨modifyPage_quiet s page f haddr htype, fun i => ?_⟩
  show ((s.module.fds.modifyPage page f).pages.get i).pAddr +
    ((s.module.fds.modifyPage page f).pages.get i).writeOffset.toNat = _
  by_cases hpage : page < cfg.maxPages
  · rw [Fds.get_modifyPage _ hpage]
    split_ifs with hip
    · subst hip
      rw [haddr, hoffset]
      rfl
    · rfl
  · -- There is no such page.
    have hget : ((s.module.fds.modifyPage page f).pages.get i) = s.module.fds.pages.get i := by
      unfold Fds.modifyPage
      by_cases hip : i = page
      · subst hip
        simp [FixedArray.get, hpage]
      · exact FixedArray.get_set_ne _ _ hip
    rw [hget]
    rfl

theorem reserve_callFrame (s : FdsSystem cfg sz) (page : ℕ) (total : BitVec 16) :
    CallFrame s (s.setFds (s.module.fds.modifyPage page fun p =>
      { p with wordsReserved := p.wordsReserved + total })) :=
  modifyPage_callFrame s page (fun p => { p with wordsReserved := p.wordsReserved + total })
    (fun _ => rfl) (fun _ => rfl) fun _ => rfl

/-- **What a call does to the chunks.** -/
inductive ChunkCall (l : ChunkLedger cfg sz) (label : FdsLabel) : ChunkLedger cfg sz → Prop
  | refused (t : FdsSystem cfg sz) (frame : CallFrame l.sys t) (ops : t.ops = l.sys.ops)
      (queue : t.module.chunkQueue = l.sys.module.chunkQueue) : ChunkCall l label ⟨t, l.accepted⟩
  | queued (op : FdsOp) (chunks : List FdsChunk) (t : FdsSystem cfg sz)
      (frame : CallFrame l.sys t) (ops : t.ops = l.sys.ops ++ [op])
      (hands : label.chunks = some chunks)
      (fits : l.sys.ops.length < sz.opQueueSize ∧
        l.sys.module.chunkQueue.count + chunks.length ≤ sz.chunkQueueSize)
      (queue : ∀ cs, l.sys.module.chunkQueue.Holds cs →
        t.module.chunkQueue.Holds (cs ++ op.unwritten chunks))
      (takes : op.Takes chunks)
      (inside : l.sys.stage = .idle → HeadSkipsInside t [op] false) :
      ChunkCall l label ⟨queueStart t, l.accepted ++ [chunks]⟩

/-- A call that is not accepted changes neither queue. -/
theorem ChunkCall.rejects (h : ChunkCall l label (l.step label)) : Rejects l label := by
  generalize hnext : l.step label = next at h
  intro chunks hchunks hfull
  rw [hnext]
  cases h with
  | refused t frame ops queue => exact ⟨rfl, ops, queue⟩
  | queued op chunks' t frame ops hands fits queue takes inside =>
    obtain rfl := Option.some.inj (hchunks.symm.trans hands)
    exact absurd fits hfull

/-- What is put behind the others does not change the first one. -/
theorem head_of_concat {α : Type*} {x y : α} {xs ys : List α} (hne : xs ≠ [])
    (h : xs ++ [y] = x :: ys) : ∃ zs, xs = x :: zs := by
  obtain ⟨z, zs, rfl⟩ := List.exists_cons_of_ne_nil hne
  rw [List.cons_append, List.cons.injEq] at h
  exact ⟨zs, by rw [h.1]⟩

/-- **A call keeps the queue of chunks.** -/
theorem ChunkCall.chunkInv {next : ChunkLedger cfg sz} (h : ChunkCall l label next)
    (hinv : ChunkInv l) : ChunkInv next := by
  cases h with
  -- the operations and the queue are those of before
  | refused t frame ops queue =>
    have hstage := frame.quiet.stage
    refine ⟨ops ▸ hinv.takes, ?_, ?_, fun w ops' cs css hexec hcons hnoted => ?_,
      fun w ops' e hreport hcons hlast => ?_⟩
    · have hsame : (⟨t, l.accepted⟩ : ChunkLedger cfg sz).unwritten = l.unwritten := by
        unfold ChunkLedger.unwritten
        rw [hstage, ops]
      rw [hsame]
      exact queue ▸ hinv.holds
    · show t.stage = .idle ↔ t.ops = []
      rw [hstage, ops]
      exact hinv.idle
    · have hstores := hinv.stores w ops' cs css (hstage ▸ hexec) (ops ▸ hcons) hnoted
      unfold StoresTaken at hstores ⊢
      rw [frame.quiet.pending, frame.writeAddr]
      exact hstores
    · exact hinv.complete w ops' e (hstage ▸ hreport) (ops ▸ hcons) (frame.quiet.events ▸ hlast)
  | queued op chunks t frame ops hands fits queue takes inside =>
    have hstage := frame.quiet.stage
    have hholds := queue _ hinv.holds
    have hlen := hinv.takes.length_eq
    have htakes : List.Forall₂ FdsOp.Takes (l.sys.ops ++ [op]) (l.accepted ++ [chunks]) :=
      List.rel_append hinv.takes (.cons takes .nil)
    unfold queueStart
    split_ifs with hidle
    · -- There is no other operation.
      have hidle : l.sys.stage = .idle := hstage ▸ hidle
      have hnone := hinv.idle.mp hidle
      have hnoted : l.accepted = [] := List.length_eq_zero_iff.mp (by rw [← hlen, hnone]; rfl)
      have hnothing : l.unwritten = [] := by
        unfold ChunkLedger.unwritten
        rw [hnone, hnoted]
        split <;> rfl
      rw [hnone, List.nil_append] at ops
      rw [hnone, hnoted] at htakes
      rw [hnothing] at hholds
      rw [hnoted]
      refine queueProcess_chunkInv (s := { t with began := liveHeaders t.module.fds }) ops htakes
        ?_ (Iff.intro (fun _ => rfl) fun _ => rfl) (inside hidle)
      rw [unwrittenOf_cons]
      show t.module.chunkQueue.Holds _
      simpa [unwrittenOf] using hholds
    -- There is one, so the new operation waits behind it.
    · have hbusy : l.sys.ops ≠ [] := fun hempty =>
        hidle (hstage.trans (hinv.idle.mpr hempty))
      obtain ⟨head, tail, hops⟩ := List.exists_cons_of_ne_nil hbusy
      have hnoted' : l.accepted ≠ [] := fun hnil => hbusy
        (List.length_eq_zero_iff.mp (by rw [hlen, hnil]; rfl))
      obtain ⟨first, notes, hnotes⟩ := List.exists_cons_of_ne_nil hnoted'
      refine ⟨?_, ?_, ?_, fun w ops' cs css hexec hcons hnoted => ?_,
        fun w ops' e hreport hcons hlast => ?_⟩
      · show List.Forall₂ _ t.ops _
        rw [ops]
        exact htakes
      · have hsame : (⟨t, l.accepted ++ [chunks]⟩ : ChunkLedger cfg sz).unwritten =
            l.unwritten ++ op.unwritten chunks := by
          have hpairs := hinv.takes
          unfold ChunkLedger.unwritten
          rw [hstage, ops]
          dsimp only
          rw [hops, hnotes] at hpairs ⊢
          split
          · exact unwrittenOf_concat (List.forall₂_cons.mp hpairs).2 op chunks
          · exact unwrittenOf_concat hpairs op chunks
        rw [hsame]
        exact hholds
      · show t.stage = .idle ↔ t.ops = []
        rw [ops]
        exact ⟨fun h => absurd h hidle, fun h => by simp at h⟩
      · -- The operation at the head is the one of before.
        obtain ⟨tail', hhead⟩ := head_of_concat hbusy (ops.symm.trans hcons)
        obtain ⟨notes', hfirst⟩ := head_of_concat hnoted' hnoted
        have hstores := hinv.stores w tail' cs notes' (hstage ▸ hexec) hhead hfirst
        unfold StoresTaken at hstores ⊢
        show _ → ∀ done c, _ → t.module.fds.pending = some (.store (t.module.fds.writeAddr _ + _) _)
        rw [frame.quiet.pending, frame.writeAddr]
        exact hstores
      · obtain ⟨tail', hhead⟩ := head_of_concat hbusy (ops.symm.trans hcons)
        exact hinv.complete w tail' e (hstage ▸ hreport) hhead (frame.quiet.events ▸ hlast)

/-- A call that is accepted. -/
theorem ChunkLedger.call_success (chunks : List FdsChunk) (t : FdsSystem cfg sz) :
    l.call chunks (fdsSuccess, t) = ⟨t, l.accepted ++ [chunks]⟩ := rfl

/-- A call that is not. -/
theorem ChunkLedger.call_refused {ret : FdsRet} (hret : ret ≠ fdsSuccess)
    (chunks : List FdsChunk) (t : FdsSystem cfg sz) :
    l.call chunks (ret, t) = ⟨t, l.accepted⟩ := by
  unfold ChunkLedger.call
  rw [if_neg hret]

/-- A new write has taken nothing yet. -/
theorem newWriteOp_takes {record : FdsNewRecord} {update : Option (BitVec 32)} {page : ℕ}
    {lengthWords : BitVec 16} {recordId : BitVec 32} (hfit : record.chunks.length < 2 ^ 8) :
    (newWriteOp record update page lengthWords recordId).chunkCount.toNat =
        record.chunks.length ∧
      (newWriteOp record update page lengthWords recordId).Takes record.chunks := by
  have hcount : (newWriteOp record update page lengthWords recordId).chunkCount.toNat =
      record.chunks.length := by
    unfold newWriteOp
    rw [BitVec.toNat_ofNat]
    omega
  have htaken : (newWriteOp record update page lengthWords recordId).taken record.chunks = [] := by
    unfold FdsWriteOp.taken
    rw [hcount, Nat.sub_self]
    exact List.take_zero
  refine ⟨hcount, hcount.le, ?_, fun _ => htaken, fun h => ?_, fun h => ?_⟩
  · rw [htaken]
    rfl
  · unfold newWriteOp at h
    cases update <;> simp at h
  · unfold newWriteOp at h
    cases update <;> simp at h

/-- The tests of `op_enqueue`, for a record whose chunks fit at all. -/
theorem QueuesHaveRoom.fits {numChunks : ℕ} (hroom : QueuesHaveRoom s numChunks)
    (hle : numChunks ≤ sz.chunkQueueSize) :
    s.ops.length < sz.opQueueSize ∧
      s.module.chunkQueue.count + numChunks ≤ sz.chunkQueueSize := by
  have hpos := sz.opQueueSize_pos
  have hlen := hroom.1
  exact ⟨by omega, FdsChunkQueue.hasRoom_le sz.chunkQueueSize_lt hle hroom.2⟩

/-- **`op_enqueue` of a write**, whatever its header is. -/
theorem opEnqueue_chunkCall {record : FdsNewRecord} {update : Option (BitVec 32)} {page : ℕ}
    {w : FdsWriteOp} (lengthWords : BitVec 16) (hlabel : label.chunks = some record.chunks)
    (hframe : CallFrame l.sys u) (hops : u.ops = l.sys.ops)
    (hqueue : u.module.chunkQueue = l.sys.module.chunkQueue)
    (hfull : u.module.fds.fsFull = l.sys.module.fds.fsFull)
    (htakes : record.chunks.length < 2 ^ 8 →
      w.chunkCount.toNat = record.chunks.length ∧ w.Takes record.chunks)
    (hstep : w.step = if update.isSome then .findRecord else .headerBegin) (hpage : w.page = page)
    (hdelete : w.recordToDelete = update.getD 0) (hfits : AcceptFits l.sys record update page) :
    ChunkCall l label (l.call record.chunks (match opEnqueue (.write w) record.chunks u with
      | none => (fdsErrNoSpaceInQueues, u.setFds (writeSpaceFree u.module.fds lengthWords page))
      | some s => (fdsSuccess, queueStart s))) := by
  have hroomIff : QueuesHaveRoom u record.chunks.length ↔
      QueuesHaveRoom l.sys record.chunks.length := by
    unfold QueuesHaveRoom
    rw [hops, hqueue]
  by_cases hroom : QueuesHaveRoom l.sys record.chunks.length
  · obtain ⟨⟨hle, hsmall⟩, hbegin⟩ := hfits hroom
    obtain ⟨hcount, htakes⟩ := htakes hsmall
    -- A new write has taken none of its chunks.
    have hall : (FdsOp.write w).unwritten record.chunks = record.chunks := by
      show record.chunks.drop _ = record.chunks
      rw [hcount, Nat.sub_self]
      exact List.drop_zero
    rw [opEnqueue_eq (hroomIff.mpr hroom)]
    obtain ⟨t, ht⟩ : ∃ t : FdsSystem cfg sz, t = { u with
        module := { u.module with chunkQueue := u.module.chunkQueue.enqueue record.chunks }
        ops := u.ops ++ [.write w] } := ⟨_, rfl⟩
    have hqueued : CallFrame u t := by
      rw [ht]
      exact ⟨⟨.refl _, rfl, rfl, rfl, rfl, rfl⟩, fun _ => rfl⟩
    have htqueue : t.module.chunkQueue = l.sys.module.chunkQueue.enqueue record.chunks := by
      rw [ht, ← hqueue]
    have htfull : t.module.fds.fsFull = l.sys.module.fds.fsFull := by
      rw [ht, ← hfull]
    have htframe := hframe.trans hqueued
    rw [← ht]
    dsimp only
    rw [ChunkLedger.call_success]
    refine .queued (.write w) record.chunks t htframe ?_ hlabel (hroom.fits hle)
      (fun cs hholds => ?_) htakes fun hidle => ?_
    · rw [ht, ← hops]
    · rw [htqueue, hall]
      exact hholds.enqueue (FdsChunkQueue.hasRoom_le sz.chunkQueueSize_lt hle hroom.2)
    · -- A write that begins at once.
      show SkipsInside t.module w false
      unfold SkipsInside
      rw [if_neg Bool.false_ne_true]
      intro hrefused
      have hbegun : w.step ≠ .chunks := by
        rw [hstep]
        split <;> decide
      rw [if_neg hbegun, hcount, htqueue]
      have hstore : StoreRefused t.module.fds (t.module.fds.writeAddr w.page) 1 →
          StoreRefused l.sys.module.fds (l.sys.module.fds.writeAddr page) 1 := by
        intro h
        unfold StoreRefused at h ⊢
        rwa [htframe.writeAddr, htfull, hpage] at h
      refine hbegin ⟨hidle, ?_⟩
      unfold StepRefused at hrefused
      rw [hstep] at hrefused
      cases hupdate : update with
      | none =>
        rw [hupdate] at hrefused
        exact .inr (hstore hrefused)
      | some id =>
        rw [hupdate] at hrefused hdelete
        refine hrefused.imp (fun hmissing => ⟨id, rfl, ?_⟩) hstore
        unfold NoRecord at hmissing ⊢
        rwa [htframe.quiet.fds.recordIdPages_eq, hdelete] at hmissing
  -- No room: the reservation is given back.
  · rw [opEnqueue_none fun h => hroom (hroomIff.mp h)]
    dsimp only
    rw [ChunkLedger.call_refused (by decide)]
    refine .refused _ (hframe.trans ?_) hops hqueue
    exact modifyPage_callFrame u page _ (fun _ => rfl) (fun _ => rfl) fun _ => rfl

/-- **A write whose space is reserved.** -/
theorem writeEnqueueAt_chunkCall {record : FdsNewRecord} {update : Option (BitVec 32)} {page : ℕ}
    {lengthWords : BitVec 16} (hlabel : label.chunks = some record.chunks)
    (hframe : CallFrame l.sys u) (hops : u.ops = l.sys.ops)
    (hqueue : u.module.chunkQueue = l.sys.module.chunkQueue)
    (hfull : u.module.fds.fsFull = l.sys.module.fds.fsFull)
    (hfits : AcceptFits l.sys record update page) :
    ChunkCall l label (l.call record.chunks (writeEnqueueAt record update page lengthWords u)) := by
  have hid : CallFrame u (u.setFds { u.module.fds with
      latestRecId := u.module.fds.latestRecId + 1 }) :=
    ⟨setFds_quiet (.of_eq rfl rfl rfl rfl) rfl, fun _ => rfl⟩
  exact opEnqueue_chunkCall _ hlabel (hframe.trans hid) hops hqueue hfull newWriteOp_takes rfl rfl rfl
    hfits

/-- `fds_record_write` and `fds_record_update` -/
theorem writeEnqueue_chunkCall {record : FdsNewRecord} {update : Option (BitVec 32)}
    (hlabel : label.chunks = some record.chunks) (hfits : WriteFits l.sys record update) :
    ChunkCall l label (l.call record.chunks (writeEnqueue record update none l.sys)) := by
  unfold writeEnqueue
  split_ifs with hinvalid
  · rw [ChunkLedger.call_refused (by decide)]
    exact .refused _ (.refl _) rfl rfl
  · have hvalid : record.Valid := not_or.mp hinvalid
    dsimp only
    rcases writeSpaceReserve_cases l.sys.module.fds (chunksLength record.chunks) with
      ⟨page, hspace, hsize, hreserve⟩ | ⟨ret, hret, hreserve⟩
    · have hpage : page < cfg.maxPages := List.mem_range.mp (List.mem_of_find?_eq_some hspace)
      have hon : ReservesOn l.sys.module.fds (chunksSize record.chunks) page := by
        rw [chunksLength_eq] at hspace hsize
        exact ⟨hspace, hsize⟩
      rw [hreserve]
      refine writeEnqueueAt_chunkCall hlabel ?_ rfl rfl rfl (hfits hvalid page hpage hon)
      exact reserve_callFrame l.sys page _
    · rw [hreserve]
      dsimp only
      rw [if_pos hret, ChunkLedger.call_refused hret]
      exact .refused _ (.refl _) rfl rfl

/-- `fds_record_write_reserved` -/
theorem writeReserved_chunkCall {record : FdsNewRecord} {tok : FdsReserveToken}
    (hlabel : label.chunks = some record.chunks)
    (hfits : record.Valid → AcceptFits l.sys record none tok.page) :
    ChunkCall l label (l.call record.chunks (writeEnqueue record none (some tok) l.sys)) := by
  unfold writeEnqueue
  split_ifs with hinvalid
  · rw [ChunkLedger.call_refused (by decide)]
    exact .refused _ (.refl _) rfl rfl
  · exact writeEnqueueAt_chunkCall hlabel (.refl _) rfl rfl rfl (hfits (not_or.mp hinvalid))

/-- An operation without chunks is put into the queue. -/
theorem queued_chunkCall (hlabel : label.chunks = some []) (hop : ∀ w, op ≠ .write w)
    (hroom : QueuesHaveRoom l.sys 0) (hframe : CallFrame l.sys t)
    (hops : t.ops = l.sys.ops ++ [op])
    (hqueue : t.module.chunkQueue = l.sys.module.chunkQueue) :
    ChunkCall l label ⟨queueStart t, l.accepted ++ [[]]⟩ := by
  refine .queued op [] t hframe hops hlabel (hroom.fits (Nat.zero_le _)) (fun cs hholds => ?_)
    ((FdsOp.takes_of_ne hop).mpr rfl) fun _ => ?_
  · rw [FdsOp.unwritten_of_ne hop, List.append_nil, hqueue]
    exact hholds
  · unfold HeadSkipsInside
    split
    · exact absurd (List.head_eq_of_cons_eq ‹_›) (hop _)
    · trivial

/-- `op_enqueue` of an operation without chunks. -/
theorem opEnqueue_nil_cases (op : FdsOp) (s : FdsSystem cfg sz) :
    (QueuesHaveRoom s 0 ∧ opEnqueue op [] s = some { s with ops := s.ops ++ [op] }) ∨
      opEnqueue op [] s = none := by
  by_cases hroom : QueuesHaveRoom s 0
  · exact .inl ⟨hroom, if_pos hroom⟩
  · exact .inr (if_neg hroom)

theorem enqueueStart_chunkCall (hlabel : label.chunks = some []) (hop : ∀ w, op ≠ .write w) :
    ChunkCall l label (l.call [] (enqueueStart op l.sys)) := by
  unfold enqueueStart
  rcases opEnqueue_nil_cases op l.sys with ⟨hroom, henqueue⟩ | henqueue
  · rw [henqueue]
    dsimp only
    rw [ChunkLedger.call_success]
    exact queued_chunkCall hlabel hop hroom ⟨⟨.refl _, rfl, rfl, rfl, rfl, rfl⟩, fun _ => rfl⟩ rfl
      rfl
  · rw [henqueue]
    dsimp only
    rw [ChunkLedger.call_refused (by decide)]
    exact .refused _ (.refl _) rfl rfl

/-- **Every call.** -/
theorem step_chunkCall (hcall : label.IsCall) (hfits : ChunksFitIn l label) :
    ChunkCall l label (l.step label) := by
  cases label with
  | reserve lengthWords =>
    show ChunkCall l _ ⟨(fdsReserve lengthWords l.sys).2.2, l.accepted⟩
    unfold fdsReserve
    rcases writeSpaceReserve_cases l.sys.module.fds lengthWords with
      ⟨page, -, -, hreserve⟩ | ⟨ret, hret, hreserve⟩
    · rw [hreserve]
      refine .refused _ ?_ rfl rfl
      exact reserve_callFrame l.sys page _
    · rw [hreserve]
      dsimp only
      rw [if_neg hret]
      exact .refused _ (.refl _) rfl rfl
  | reserveCancel tok =>
    show ChunkCall l _ ⟨(fdsReserveCancel tok l.sys).2.2, l.accepted⟩
    unfold fdsReserveCancel
    split_ifs
    · exact .refused _ (.refl _) rfl rfl
    · refine .refused _ ?_ rfl rfl
      exact modifyPage_callFrame l.sys tok.page _ (fun _ => rfl) (fun _ => rfl) fun _ => rfl
    · exact .refused _ (.refl _) rfl rfl
  | write record => exact writeEnqueue_chunkCall rfl hfits
  | writeReserved record tok => exact writeReserved_chunkCall rfl hfits
  | update recordId record => exact writeEnqueue_chunkCall rfl hfits
  -- operations without chunks
  | delete recordId => exact enqueueStart_chunkCall rfl fun w h => FdsOp.noConfusion h
  | fileDelete fileId =>
    show ChunkCall l _ (l.call [] (fdsFileDelete fileId l.sys))
    unfold fdsFileDelete
    split_ifs
    · rw [ChunkLedger.call_refused (by decide)]
      exact .refused _ (.refl _) rfl rfl
    · exact enqueueStart_chunkCall rfl fun w h => FdsOp.noConfusion h
  | gc =>
    show ChunkCall l _ (l.call [] (fdsGcCall l.sys))
    unfold fdsGcCall
    rcases opEnqueue_nil_cases .gc l.sys with ⟨hroom, henqueue⟩ | henqueue
    · rw [henqueue]
      dsimp only
      rw [ChunkLedger.call_success]
      have hgc : ∀ w, FdsOp.gc ≠ .write w := fun w h => FdsOp.noConfusion h
      refine queued_chunkCall rfl hgc hroom ?_ ?_ ?_
      · refine ⟨?_, fun i => ?_⟩
        · split <;> exact ⟨.of_eq rfl rfl rfl rfl, rfl, rfl, rfl, rfl, rfl⟩
        · split <;> rfl
      · split <;> rfl
      · split <;> rfl
    · rw [henqueue]
      dsimp only
      rw [ChunkLedger.call_refused (by decide)]
      exact .refused _ (.refl _) rfl rfl
  | «open» desc =>
    show ChunkCall l _ ⟨(fdsRecordOpen desc l.sys).2.2, l.accepted⟩
    unfold fdsRecordOpen
    cases recordFindByDesc l.sys.module.fds desc with
    | none => exact .refused _ (.refl _) rfl rfl
    | some found =>
      refine .refused _ ?_ rfl rfl
      exact modifyPage_callFrame l.sys found.1 _ (fun _ => rfl) (fun _ => rfl) fun _ => rfl
  | close desc =>
    show ChunkCall l _ ⟨(fdsRecordClose desc l.sys).2.2, l.accepted⟩
    unfold fdsRecordClose
    cases recordFindByDesc l.sys.module.fds desc with
    | none => exact .refused _ (.refl _) rfl rfl
    | some found =>
      dsimp only
      split_ifs
      · refine .refused _ ?_ rfl rfl
        exact modifyPage_callFrame l.sys found.1 _ (fun _ => rfl) (fun _ => rfl) fun _ => rfl
      · exact .refused _ (.refl _) rfl rfl
  | fsQueue full =>
    refine .refused _ ⟨?_, fun _ => rfl⟩ rfl rfl
    exact setFds_quiet (.of_eq rfl rfl rfl rfl) rfl
  -- the remaining labels are steps of the flash, not calls
  | advance => exact absurd hcall id
  | flashDone => exact absurd hcall id
  | flashTimeout words => exact absurd hcall id

/-! ## §6 Runs -/

/-- The queue advances. -/
theorem queueAdvance_chunkInv (hinv : ChunkInv l) (hstage : l.sys.stage = .reporting)
    (hinside : HeadSkipsInside l.sys l.sys.ops.tail false) :
    ChunkInv ⟨queueAdvance l.sys, l.accepted.tail⟩ := by
  have hholds := hinv.holds
  have hunwritten : l.unwritten = unwrittenOf l.sys.ops.tail l.accepted.tail := if_pos hstage
  rw [hunwritten] at hholds
  have htakes : List.Forall₂ FdsOp.Takes l.sys.ops.tail l.accepted.tail := by
    have hall := hinv.takes
    revert hall
    cases l.sys.ops <;> cases l.accepted <;> intro hall
    · exact .nil
    · cases hall
    · cases hall
    · exact (List.forall₂_cons.mp hall).2
  unfold queueAdvance
  generalize l.accepted.tail = notes at hholds htakes ⊢
  cases htail : l.sys.ops.tail with
  | nil =>
    rw [htail] at hholds htakes
    cases htakes
    exact ⟨.nil, hholds, by simp, fun _ _ _ _ h => (by cases h), fun _ _ _ h => (by cases h)⟩
  | cons op ops =>
    rw [htail] at hholds htakes hinside
    cases htakes with
    | cons htake hrest =>
      exact queueProcess_chunkInv
        (s := { l.sys with ops := op :: ops, began := liveHeaders l.sys.module.fds })
        rfl (.cons htake hrest) hholds (Iff.intro (fun _ => rfl) fun _ => rfl) hinside

/-- **fstorage reports the end of its operation**: the next step of the same write. -/
theorem queueProcess_flash {result : FdsRet} {timeout : Bool} {fds : Fds cfg}
    (hinv : ChunkInv l) (hstage : l.sys.stage = .executing)
    (hprev : result = fsSuccess ↔ timeout = false)
    (hinside : HeadSkipsInside (l.sys.setFds fds) l.sys.ops timeout) :
    ChunkInv ⟨queueProcess result (l.sys.setFds fds), l.accepted⟩ := by
  have hholds := hinv.holds
  have htakes := hinv.takes
  have hunwritten : l.unwritten = unwrittenOf l.sys.ops l.accepted :=
    if_neg (by rw [hstage]; decide)
  rw [hunwritten] at hholds
  cases hops : l.sys.ops with
  | nil =>
    rw [hinv.idle.mpr hops] at hstage
    cases hstage
  | cons op ops =>
    rw [hops] at hholds htakes hinside
    generalize l.accepted = notes at hholds htakes ⊢
    cases htakes with
    | cons htake hrest =>
      exact queueProcess_chunkInv (s := l.sys.setFds fds) hops (.cons htake hrest) hholds hprev
        hinside

/-- **Every step.** -/
theorem step_chunkInv (hinv : ChunkInv l) (hen : label.Enabled l.sys)
    (hfits : ChunksFitIn l label) : ChunkInv (l.step label) ∧ Rejects l label := by
  by_cases hcall : label.IsCall
  · have hcalled := step_chunkCall hcall hfits
    exact ⟨hcalled.chunkInv hinv, hcalled.rejects⟩
  · -- What belongs to the queue hands over nothing.
    have hnone : label.chunks = none := by
      cases label <;> first | rfl | exact absurd trivial hcall
    refine ⟨?_, fun chunks hchunks => ?_⟩
    · cases label with
      | advance => exact queueAdvance_chunkInv hinv hen hfits
      | flashDone =>
        exact queueProcess_flash hinv hen (Iff.intro (fun _ => rfl) fun _ => rfl) hfits
      | flashTimeout words =>
        obtain ⟨fds, hfds⟩ : ∃ fds : Fds cfg, fds = { l.sys.module.fds with
            flash := flashCut l.sys.module.fds words, pending := none } := ⟨_, rfl⟩
        have htimeout : fsErrOperationTimeout = fsSuccess ↔ true = false := by decide
        have hinside : HeadSkipsInside (l.sys.setFds fds) l.sys.ops true := by
          rw [hfds]
          exact hfits
        have hnext := queueProcess_flash hinv hen htimeout hinside
        rw [hfds] at hnext
        exact hnext
      | _ => exact absurd trivial hcall
    · rw [hnone] at hchunks
      cases hchunks

theorem chunkMachine_start (hready : l.sys.Ready) (hnone : l.accepted = []) : ChunkInv l := by
  have hunwritten : l.unwritten = [] := by
    unfold ChunkLedger.unwritten
    rw [hready.ops, hnone]
    split <;> rfl
  refine ⟨?_, ?_, ⟨fun _ => hready.ops, fun _ => hready.stage⟩, fun w ops cs css hstage => ?_,
    fun w ops e hstage => ?_⟩
  · rw [hready.ops, hnone]
    exact .nil
  · rw [hunwritten]
    exact FdsChunkQueue.holds_nil sz.chunkQueueSize_pos
      (hready.chunks.1 ▸ sz.chunkQueueSize_pos) hready.chunks.2
  · rw [hready.stage] at hstage
    cases hstage
  · rw [hready.stage] at hstage
    cases hstage

theorem ChunkInv.inOrder (h : ChunkInv l) : ChunksInOrder l where
  rp_lt := h.holds.rp_lt
  count_le := h.holds.count_eq ▸ RingQueue.Represents.length_le h.holds
  count_eq := h.holds.count_eq
  holds := h.holds
  noted := h.takes.length_eq.symm
  stores := h.stores
  complete := h.complete

/-- **The queue of chunks is a FIFO** in every run whose steps all fit, and what does not fit is
    rejected. -/
theorem chunksInOrder_of_reachable (h : (chunkMachine cfg sz).ReachableUnder ChunksFitIn l) :
    ChunksInOrder l ∧
      ∀ label : FdsLabel, label.Enabled l.sys → ChunksFitIn l label → Rejects l label := by
  have hinv : ChunkInv l := h.invariant (I := ChunkInv)
    (fun _ hstart => chunkMachine_start hstart.1 hstart.2)
    fun _ _ hinv hen hfits => (step_chunkInv hinv hen hfits).1
  exact ⟨hinv.inOrder, fun label hen hfits => (step_chunkInv hinv hen hfits).2⟩

end Queue

/-! ## §7 A skip behind the end of the ring -/

/-- A record with as many chunks, of one word each. -/
def manyChunks (n : ℕ) (h : n < 2 ^ 16) : FdsNewRecord :=
  ⟨1, 1, .replicate n ⟨[7], Nat.one_lt_two_pow (by decide)⟩, (List.length_replicate).trans_lt h⟩

/-- The module with two records on its first page, before the first call. -/
def twoFilesChunks : ChunkLedger threePages smallQueues := ⟨twoFilesSystem, []⟩

/-- A write with three chunks times out behind its first chunk, and another one that has waited
    for it stores its chunk. -/
def chunksSkipped : ChunkLedger threePages smallQueues :=
  (chunkMachine threePages smallQueues).run twoFilesChunks
    [.write (manyChunks 3 (by decide)), .write oneChunk, .flashDone, .flashDone, .flashTimeout 1,
      .advance, .flashDone, .flashDone]

theorem chunksInOrder_chunksSkipped : ChunksInOrder chunksSkipped ∧
    ∀ label : FdsLabel, label.Enabled chunksSkipped.sys → ChunksFitIn chunksSkipped label →
      Rejects chunksSkipped label :=
  chunksInOrder_of_reachable
    (.of_follows (.start ⟨twoFilesSystem_ready, rfl⟩) (by decide +kernel))

/-- **The update of a record that does not exist**, with as many chunks as the ring has: its chunks
    are skipped, and the index is behind the ring. -/
theorem not_chunksInOrder_updateMissing :
    ¬ ∀ (cfg : FdsConfig) (sz : FdsQueueSizes) (l : ChunkLedger cfg sz),
      (chunkMachine cfg sz).Reachable l → ChunksInOrder l := by
  intro hall
  have horder := hall threePages smallQueues
    ((chunkMachine threePages smallQueues).run twoFilesChunks
      [.update 99 (manyChunks 8 (by decide))])
    (.of_follows (.start ⟨twoFilesSystem_ready, rfl⟩) (by decide +kernel))
  exact absurd horder.rp_lt (by decide +kernel)

end NordicEsb
