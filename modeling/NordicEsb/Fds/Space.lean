import NordicEsb.Fds.Frame
import NordicEsb.Lib.RingQueue

/-!
# Executing a Write

A write owns the chunks that it has put into the queue of chunks and the words that have been
reserved for it on its page. Each of its steps takes at most one chunk, and the step that ends it,
completed or not, moves its words from `words_reserved` to `write_offset`.

- `FdsChunkQueue.Holds` is the queue of chunks as a list, by the ring buffer of the library
- `WriteChunks` ties the counters of a write to the chunks that are left of it
- `InPage` is a store that stays on its page

**Main result** (`writeExecute_outcome`): what one step of a write does to the queue of chunks and
to its page.
-/

namespace NordicEsb

variable {cfg : FdsConfig} {sz : FdsQueueSizes} {n : ℕ} {q : FdsChunkQueue n}
  {c : FdsChunk} {cs cs' : List FdsChunk}

/-! ## §1 The queue of chunks -/

/-- The queue of chunks as a ring buffer. -/
def FdsChunkQueue.ring (q : FdsChunkQueue n) : RingQueue n FdsChunk :=
  ⟨q.chunk, (q.rp + q.count) % n, q.rp, q.count⟩

/-- The queue holds these chunks. -/
def FdsChunkQueue.Holds (q : FdsChunkQueue n) (cs : List FdsChunk) : Prop := q.ring.Represents cs

theorem FdsChunkQueue.holds_nil (hn : 0 < n) (hrp : q.rp < n) (hcount : q.count = 0) :
    q.Holds [] where
  entry_lt := Nat.mod_lt _ hn
  exit_lt := hrp
  count_eq := hcount
  length_le := Nat.zero_le n
  entry_eq := rfl
  slot_eq i hi := absurd hi (Nat.not_lt_zero i)

theorem FdsChunkQueue.Holds.count_eq (h : q.Holds cs) : q.count = cs.length :=
  RingQueue.Represents.count_eq h

theorem FdsChunkQueue.Holds.rp_lt (h : q.Holds cs) : q.rp < n := RingQueue.Represents.exit_lt h

/-- The oldest chunk is taken. -/
theorem FdsChunkQueue.Holds.getAndAdvance (h : q.Holds (c :: cs)) :
    q.getAndAdvance.1 = c ∧ q.getAndAdvance.2.Holds cs := by
  have hcount : q.count ≠ 0 := by
    rw [h.count_eq]
    exact Nat.succ_ne_zero _
  have hget : q.getAndAdvance = (q.chunk.get q.rp, ⟨q.chunk, (q.rp + 1) % n, q.count - 1⟩) :=
    if_pos hcount
  have hring : (⟨q.chunk, (q.rp + 1) % n, q.count - 1⟩ : FdsChunkQueue n).ring =
      q.ring.dropHead := by
    unfold ring RingQueue.dropHead
    have hback : q.rp + 1 + (q.count - 1) = q.rp + q.count := by omega
    dsimp only
    rw [Nat.mod_add_mod, hback, RingQueue.advance_eq_mod h.rp_lt]
  rw [hget]
  refine ⟨RingQueue.Represents.head_cons h, ?_⟩
  unfold Holds
  rw [hring]
  exact RingQueue.Represents.dropHead h (Nat.pos_of_ne_zero hcount)

/-- Chunks are put behind the others. -/
theorem FdsChunkQueue.Holds.enqueue {chunks : List FdsChunk} (h : q.Holds cs)
    (hroom : q.count + chunks.length ≤ n) : (q.enqueue chunks).Holds (cs ++ chunks) := by
  -- Each round of the loop pushes one chunk onto the ring.
  have hloop : ∀ (chunks : List FdsChunk) (r : RingQueue n FdsChunk) (cs : List FdsChunk),
      r.Represents cs → r.count + chunks.length ≤ n →
      (⟨enqueueChunks chunks r.entryPoint r.slots,
        (r.exitPoint + (r.count + chunks.length)) % n, r.exitPoint,
        r.count + chunks.length⟩ : RingQueue n FdsChunk).Represents (cs ++ chunks) := by
    intro chunks
    induction chunks with
    | nil =>
      intro r cs hr _
      rw [List.append_nil, List.length_nil, Nat.add_zero, ← hr.entry_eq]
      exact hr
    | cons c chunks ih =>
      intro r cs hr hle
      rw [List.length_cons] at hle
      have hpush := hr.push (by omega) c
      have hnext := ih (r.push c) (cs ++ [c]) hpush (by
        simp only [RingQueue.push]
        omega)
      rw [List.append_assoc, List.singleton_append] at hnext
      have hlen : r.count + (c :: chunks).length = (r.push c).count + chunks.length := by
        simp only [RingQueue.push, List.length_cons]
        omega
      have hentry : (r.push c).entryPoint = (r.entryPoint + 1) % n :=
        RingQueue.advance_eq_mod hr.entry_lt
      rw [hentry] at hnext
      rw [hlen]
      exact hnext
  have hring := hloop chunks q.ring cs h hroom
  unfold FdsChunkQueue.enqueue Holds ring
  rw [Nat.add_comm q.count q.rp]
  exact hring

/-- Chunks are skipped, as long as the index stays in the array. -/
theorem FdsChunkQueue.Holds.skip (h : q.Holds (cs ++ cs')) (hrp : q.rp + cs.length < n) :
    (q.skip cs.length).Holds cs' := by
  have hcount := h.count_eq
  have hle := RingQueue.Represents.length_le h
  rw [List.length_append] at hcount hle
  refine ⟨Nat.mod_lt _ (by omega), hrp, ?_, by omega, rfl, fun i hi => ?_⟩
  · show q.count - cs.length = cs'.length
    omega
  · show q.chunk.get ((q.rp + cs.length + i) % n) = cs'[i]
    have hslot := RingQueue.Represents.slot_eq h (cs.length + i) (by
      rw [List.length_append]
      omega)
    rw [List.getElem_append_right (Nat.le_add_right _ _)] at hslot
    simp only [Nat.add_sub_cancel_left] at hslot
    rw [Nat.add_assoc]
    exact hslot

/-- The test of `op_enqueue` is what it looks like for an operation whose chunks fit at all. -/
theorem FdsChunkQueue.hasRoom_le {numChunks : ℕ} (hn : n < 2 ^ 32) (hle : numChunks ≤ n)
    (hroom : q.hasRoom numChunks = true) : q.count + numChunks ≤ n := by
  have hroom : q.count ≤ (n + 2 ^ 32 - numChunks) % 2 ^ 32 := of_decide_eq_true hroom
  have hsub : (n + 2 ^ 32 - numChunks) % 2 ^ 32 = n - numChunks := by omega
  omega

/-! ## §2 The counters of a write -/

/-- The words of these chunks. -/
def chunksSize (cs : List FdsChunk) : ℕ := (cs.map fun c => c.data.length).sum

@[simp] theorem chunksSize_nil : chunksSize [] = 0 := rfl

@[simp] theorem chunksSize_cons (c : FdsChunk) (cs : List FdsChunk) :
    chunksSize (c :: cs) = c.data.length + chunksSize cs := rfl

theorem FdsChunk.toNat_lengthWords (c : FdsChunk) : c.lengthWords.toNat = c.data.length := by
  have hlt := c.length_lt
  unfold lengthWords
  rw [BitVec.toNat_ofNat]
  omega

/-- The sum in 16 bits is the sum of the words, as long as that has 16 bits. -/
theorem chunksLength_eq (cs : List FdsChunk) :
    chunksLength cs = BitVec.ofNat 16 (chunksSize cs) := by
  have hfold : ∀ (cs : List FdsChunk) (k : ℕ),
      cs.foldl (fun sum c => sum + c.lengthWords) (BitVec.ofNat 16 k) =
        BitVec.ofNat 16 (k + chunksSize cs) := by
    intro cs
    induction cs with
    | nil => exact fun k => rfl
    | cons c cs ih =>
      intro k
      rw [List.foldl_cons, FdsChunk.lengthWords, ← BitVec.ofNat_add, ih, chunksSize_cons,
        Nat.add_assoc]
  have hzero := hfold cs 0
  rwa [Nat.zero_add] at hzero

@[simp] theorem FdsHeader.lengthWords_tlWord (key length : BitVec 16) (ic id : BitVec 32) :
    (⟨tlWord key length, ic, id⟩ : FdsHeader).lengthWords = length := by
  unfold FdsHeader.lengthWords tlWord
  ext i hi
  simp only [BitVec.getElem_extractLsb', BitVec.getLsbD_append]
  interval_cases i <;> simp [BitVec.getLsbD_eq_getElem]

/-- **What the counters of a write say**: these chunks are left. -/
structure WriteChunks (w : FdsWriteOp) (cs : List FdsChunk) : Prop where
  count : w.chunkCount.toNat = cs.length
  offset : w.chunkOffset.toNat + chunksSize cs = 3 + w.header.lengthWords.toNat
  begun : w.step = .chunks → cs ≠ []
  written : w.step = .headerFinalize ∨ w.step = .flagDirty ∨ w.step = .done → cs = []
  flag : w.step = .flagDirty → w.update = true

/-- A store of this operation that stays on the page. -/
def InPage (s : Fds cfg) (page : ℕ) : Prop :=
  ∃ dest src, s.pending = some (.store dest src) ∧ (s.pages.get page).pAddr ≤ dest ∧
    dest + src.length ≤ (s.pages.get page).pAddr + cfg.pageSize

/-- What fstorage executes for this write is its own store, not the flag of the record that it
    replaces. -/
def FdsWriteOp.StoresRecord (w : FdsWriteOp) : Prop := w.update = true → w.step ≠ .done

/-! ## §3 One step -/

/-- What a step does to the write, its page and the queue of chunks; `rest` are the chunks of the
    operations behind it. -/
structure StepOutcome (w : FdsWriteOp) (m : FdsModule cfg sz) (rest : List FdsChunk)
    (out : FdsRet × FdsWriteOp × FdsModule cfg sz) : Prop where
  page : out.2.1.page = w.page
  header : out.2.1.header = w.header
  pages : out.2.2.fds.pages = m.fds.pages
  running : out.1 = fdsOpExecuting → out.2.1.step ≠ .findRecord ∧
    (out.2.1.StoresRecord → InPage out.2.2.fds w.page)
  chunks : ∃ cs, WriteChunks out.2.1 cs ∧ out.2.2.chunkQueue.Holds (cs ++ rest) ∧
    (out.1 ≠ fdsOpExecuting → out.2.2.chunkQueue.rp + cs.length < sz.chunkQueueSize) ∧
    (out.1 = fdsOpCompleted → cs = [])

section Step

variable {w w' : FdsWriteOp} {m : FdsModule cfg sz} {rest : List FdsChunk} {addr k : ℕ}

/-- fstorage refuses a store on a page if its queue is full or there is nothing to store. -/
theorem fsStore_page_cases {s : Fds cfg} {a dest : ℕ} (src : List (BitVec 32))
    (ha : a ∈ cfg.pageAddrs) (hle : a ≤ dest) (hend : dest + src.length ≤ a + cfg.pageSize) :
    fsStore s dest src = (fsSuccess, { s with pending := some (.store dest src) }) ∨
      (∃ ret, ret ≠ fsSuccess ∧ fsStore s dest src = (ret, s)) ∧
        (s.fsFull = true ∨ src = []) := by
  by_cases hfull : s.fsFull = true
  · exact (fsStore_cases s dest src).imp_right fun h => ⟨h, .inl hfull⟩
  · cases src with
    | nil => exact (fsStore_cases s dest []).imp_right fun h => ⟨h, .inr rfl⟩
    | cons word src =>
      have hpos : 0 < (word :: src).length := Nat.succ_pos _
      exact .inl (fsStore_page ha (by simpa using hfull) hle hpos hend)

/-- A step that stores one word of the header. -/
theorem headerStep_outcome {word : BitVec 32} (htable : Table m.fds) (hpage : w.page < cfg.maxPages)
    (hqueue : m.chunkQueue.Holds (cs ++ rest)) (hw : WriteChunks w' cs)
    (hsame : w'.page = w.page ∧ w'.header = w.header) (hstep : w'.step ≠ .findRecord)
    (hle : (m.fds.pages.get w.page).pAddr ≤ addr)
    (hend : addr + 1 ≤ (m.fds.pages.get w.page).pAddr + cfg.pageSize)
    (hskip : m.fds.fsFull = true → m.chunkQueue.rp + cs.length < sz.chunkQueueSize) :
    StepOutcome w m rest
      (fdsRetOf (m.store addr [word]).1, w', (m.store addr [word]).2) := by
  have hmem := htable.covers.slot_mem hpage
  unfold FdsModule.store
  rcases fsStore_page_cases (s := m.fds) [word] hmem hle hend with
    hstore | ⟨⟨ret, hret, hstore⟩, hfull⟩
  · rw [hstore]
    refine ⟨hsame.1, hsame.2, rfl, fun _ => ⟨hstep, fun _ => ⟨addr, [word], rfl, hle, hend⟩⟩, cs,
      hw, hqueue, fun h => absurd rfl h, fun h => (by cases h)⟩
  · rw [hstore]
    have hbusy : fdsRetOf ret = fdsErrBusy := if_neg hret
    dsimp only
    rw [hbusy]
    refine ⟨hsame.1, hsame.2, rfl, fun h => (by cases h), cs, hw, hqueue, fun _ => hskip ?_,
      fun h => (by cases h)⟩
    exact hfull.resolve_right (List.cons_ne_nil _ _)

/-- The counters behind a chunk. -/
def FdsWriteOp.afterChunk (w : FdsWriteOp) (c : FdsChunk) : FdsWriteOp :=
  { w with
    chunkOffset := w.chunkOffset + c.lengthWords
    chunkCount := w.chunkCount - 1
    step := if w.chunkCount - 1 = 0 then .headerFinalize else .chunks }

theorem WriteChunks.afterChunk (hw : WriteChunks w (c :: cs))
    (hlen : 3 + w.header.lengthWords.toNat < 2 ^ 16) : WriteChunks (w.afterChunk c) cs := by
  have hcount := hw.count
  have hoffset := hw.offset
  have hlt := w.chunkCount.isLt
  rw [List.length_cons] at hcount
  rw [chunksSize_cons] at hoffset
  have hone : (1 : BitVec 8).toNat = 1 := rfl
  have hleft : (w.chunkCount - 1).toNat = cs.length := by
    rw [BitVec.toNat_sub, hone]
    omega
  have hzero : w.chunkCount - 1 = 0 ↔ cs = [] := by
    rw [← BitVec.toNat_inj, hleft]
    exact List.length_eq_zero_iff
  refine ⟨hleft, ?_, fun h => ?_, fun h => ?_, fun h => ?_⟩
  · show (w.chunkOffset + c.lengthWords).toNat + chunksSize cs = 3 + w.header.lengthWords.toNat
    rw [BitVec.toNat_add, c.toNat_lengthWords]
    omega
  · intro hnil
    unfold FdsWriteOp.afterChunk at h
    rw [if_pos (hzero.mpr hnil)] at h
    cases h
  · refine hzero.mp (by_contra fun hne => ?_)
    unfold FdsWriteOp.afterChunk at h
    rw [if_neg hne] at h
    simp at h
  · unfold FdsWriteOp.afterChunk at h
    split at h <;> cases h

/-- **A chunk is written**, behind the chunks before it. -/
theorem recordWriteChunk_outcome {page : FdsPage} (htable : Table m.fds)
    (hpage : w.page < cfg.maxPages) (hget : m.fds.pages.get w.page = page)
    (hqueue : m.chunkQueue.Holds (cs ++ rest)) (hw : WriteChunks w cs) (hstep : w.step = .chunks)
    (hfits : page.writeOffset.toNat + 3 + w.header.lengthWords.toNat ≤ cfg.pageSize)
    (hskip : m.fds.fsFull = true ∨ m.chunkQueue.getAndAdvance.1.data = [] →
      m.chunkQueue.rp + cs.length < sz.chunkQueueSize) :
    StepOutcome w m rest
      (recordWriteChunk w m (page.pAddr + page.writeOffset.toNat)) := by
  cases cs with
  -- impossible: the step is only entered with a chunk left
  | nil => exact absurd rfl (hw.begun hstep)
  | cons c cs =>
    obtain ⟨hchunk, hqueue'⟩ := FdsChunkQueue.Holds.getAndAdvance hqueue
    have hoffset := hw.offset
    have hlt := cfg.pageSize_lt
    have hnext := hw.afterChunk (by omega)
    rw [chunksSize_cons] at hoffset
    -- The chunk leaves the queue whether the flash takes it or not.
    have hcode : recordWriteChunk w m (page.pAddr + page.writeOffset.toNat) =
        (fdsRetOf (fsStore m.fds (page.pAddr + page.writeOffset.toNat + w.chunkOffset.toNat)
          c.data).1, w.afterChunk c,
          { m with
            chunkQueue := m.chunkQueue.getAndAdvance.2
            fds := (fsStore m.fds (page.pAddr + page.writeOffset.toNat + w.chunkOffset.toNat)
              c.data).2 }) := by
      rw [← hchunk]
      unfold recordWriteChunk FdsWriteOp.afterChunk FdsModule.store
      dsimp only
      split <;> simp [*]
    have hmem := htable.covers.slot_mem hpage
    rw [hget] at hmem
    have hle : page.pAddr ≤ page.pAddr + page.writeOffset.toNat + w.chunkOffset.toNat := by omega
    have hend : page.pAddr + page.writeOffset.toNat + w.chunkOffset.toNat + c.data.length ≤
        page.pAddr + cfg.pageSize := by omega
    rw [hcode]
    rcases fsStore_page_cases (s := m.fds) _ hmem hle hend with
      hstore | ⟨⟨ret, hret, hstore⟩, hfull⟩
    · rw [hstore]
      have hnotFind : (w.afterChunk c).step ≠ .findRecord := by
        unfold FdsWriteOp.afterChunk
        split <;> simp
      exact ⟨rfl, rfl, rfl, fun _ => ⟨hnotFind, fun _ => ⟨_, _, rfl, hget ▸ hle, hget ▸ hend⟩⟩, cs,
        hnext, hqueue', fun h => absurd rfl h, fun h => (by cases h)⟩
    · rw [hstore]
      have hbusy : fdsRetOf ret = fdsErrBusy := if_neg hret
      dsimp only
      rw [hbusy]
      refine ⟨rfl, rfl, rfl, fun h => (by cases h), cs, hnext, hqueue', fun _ => ?_,
        fun h => (by cases h)⟩
      -- Refused: the chunks behind this one must not wrap around.
      have hroom := hskip (hchunk ▸ hfull)
      have hadvance : m.chunkQueue.getAndAdvance.2.rp =
          (m.chunkQueue.rp + 1) % sz.chunkQueueSize := by
        have hcount := FdsChunkQueue.Holds.count_eq hqueue
        unfold FdsChunkQueue.getAndAdvance
        rw [if_pos (by rw [hcount]; exact Nat.succ_ne_zero _)]
      rw [List.length_cons] at hroom
      rw [hadvance, Nat.mod_eq_of_lt (by omega)]
      omega

/-- Another step with the same counters. -/
theorem WriteChunks.next (hw : WriteChunks w cs) {step : FdsWriteStep}
    (hbegun : step = .chunks → cs ≠ [])
    (hwritten : step = .headerFinalize ∨ step = .flagDirty ∨ step = .done → cs = [])
    (hflag : step = .flagDirty → w.update = true) : WriteChunks { w with step := step } cs :=
  ⟨hw.count, hw.offset, hbegun, hwritten, hflag⟩

/-- What makes a step of a write fail. -/
def StepMayFail (m : FdsModule cfg sz) (w : FdsWriteOp) : Prop :=
  m.fds.fsFull = true ∨ (w.step = .chunks ∧ m.chunkQueue.getAndAdvance.1.data = [])

/-- **Every step of a write.** -/
theorem writeStep_outcome {page : FdsPage} (htable : Table m.fds)
    (hpage : w.page < cfg.maxPages) (hget : m.fds.pages.get w.page = page)
    (hqueue : m.chunkQueue.Holds (cs ++ rest)) (hw : WriteChunks w cs)
    (hfits : page.writeOffset.toNat + 3 + w.header.lengthWords.toNat ≤ cfg.pageSize)
    (hskip : StepMayFail m w → m.chunkQueue.rp + cs.length < sz.chunkQueueSize) :
    StepOutcome w m rest (writeStep w m (page.pAddr + page.writeOffset.toNat)) := by
  have hrp := FdsChunkQueue.Holds.rp_lt hqueue
  have hempty : w.chunkCount ≠ 0 ↔ cs ≠ [] := by
    refine not_congr ?_
    have hcount := hw.count
    rw [← BitVec.toNat_inj, hcount]
    exact List.length_eq_zero_iff
  -- A word of the header.
  have hheader : ∀ (k : ℕ) (word : BitVec 32) (step : FdsWriteStep), k < 3 →
      step ≠ .findRecord → (step = .chunks → cs ≠ []) →
      (step = .headerFinalize ∨ step = .flagDirty ∨ step = .done → cs = []) →
      (step = .flagDirty → w.update = true) →
      StepOutcome w m rest
        (fdsRetOf (m.store (page.pAddr + page.writeOffset.toNat + k) [word]).1,
          { w with step := step },
          (m.store (page.pAddr + page.writeOffset.toNat + k) [word]).2) := by
    intro k word step hk hfind hbegun hwritten hflag
    exact headerStep_outcome htable hpage hqueue (hw.next hbegun hwritten hflag) ⟨rfl, rfl⟩ hfind
      (by rw [hget]; omega) (by rw [hget]; omega) fun hfull => hskip (.inl hfull)
  unfold writeStep
  cases hstep : w.step with
  | findRecord => exact hheader 0 _ .recordId (by decide) (by simp) (by simp) (by simp) (by simp)
  | headerBegin => exact hheader 0 _ .recordId (by decide) (by simp) (by simp) (by simp) (by simp)
  | recordId =>
    refine hheader 2 _ _ (by decide) ?_ ?_ ?_ ?_
    · split <;> simp
    · split <;> simp_all
    · split <;> simp_all
    · split <;> simp
  | chunks =>
    refine recordWriteChunk_outcome htable hpage hget hqueue hw hstep hfits fun h => hskip ?_
    exact h.imp_right fun hnil => ⟨hstep, hnil⟩
  | headerFinalize =>
    have hnil := hw.written (.inl hstep)
    refine hheader 1 _ _ (by decide) ?_ ?_ (fun _ => hnil) ?_
    · split <;> simp
    · split <;> simp
    · split <;> simp_all
  | flagDirty =>
    have hnil := hw.written (.inr (.inl hstep))
    have hupdate := hw.flag hstep
    subst hnil
    have hdone : WriteChunks { w with step := .done } [] := hw.next (by simp) (by simp) (by simp)
    dsimp only
    unfold recordHeaderFlagDirty FdsModule.store
    rcases fsStore_cases m.fds m.desc.pRecord [fdsTlDirty] with hstore | ⟨ret, hret, hstore⟩
    · rw [hstore]
      exact ⟨rfl, rfl, rfl, fun _ => ⟨by simp, fun hrecord => absurd rfl (hrecord hupdate)⟩, [],
        hdone, hqueue, fun h => absurd rfl h, fun _ => rfl⟩
    · rw [hstore]
      have hbusy : fdsRetOf ret = fdsErrBusy := if_neg hret
      dsimp only
      rw [hbusy]
      exact ⟨rfl, rfl, rfl, fun h => (by cases h), [], hdone, hqueue, fun _ => hrp, fun _ => rfl⟩
  | done =>
    have hnil := hw.written (.inr (.inr hstep))
    subst hnil
    exact ⟨rfl, rfl, rfl, fun h => (by cases h), [], hw, hqueue, fun _ => hrp, fun _ => rfl⟩

/-! ## §4 The whole operation -/

/-- What a write leaves behind: `ended` moves its words from one counter to the other. -/
structure WriteOutcome (w : FdsWriteOp) (m : FdsModule cfg sz) (rest : List FdsChunk)
    (out : FdsRet × FdsWriteOp × FdsModule cfg sz) : Prop where
  page : out.2.1.page = w.page
  header : out.2.1.header = w.header
  running : out.1 = fdsOpExecuting → out.2.2.fds.pages = m.fds.pages ∧
    out.2.1.step ≠ .findRecord ∧ (out.2.1.StoresRecord → InPage out.2.2.fds w.page)
  ended : out.1 ≠ fdsOpExecuting →
    out.2.2.fds.pages = (pageOffsetsUpdate m.fds w.page w.header.lengthWords).pages
  chunks : ∃ cs, WriteChunks out.2.1 cs ∧ out.2.2.chunkQueue.Holds (cs ++ rest) ∧
    (out.1 ≠ fdsOpExecuting → out.2.2.chunkQueue.rp + cs.length < sz.chunkQueueSize) ∧
    (out.1 = fdsOpCompleted → cs = [])

theorem StepOutcome.writeOutcome {out : FdsRet × FdsWriteOp × FdsModule cfg sz}
    (h : StepOutcome w m rest out) :
    WriteOutcome w m rest
      (if out.1 ≠ fdsOpExecuting then (out.1, out.2.1, offsetsUpdate out.2.1 out.2.2) else out) := by
  split_ifs with hret
  · refine ⟨h.page, h.header, fun hexec => absurd hexec hret, fun _ => ?_, h.chunks⟩
    show (pageOffsetsUpdate out.2.2.fds out.2.1.page out.2.1.header.lengthWords).pages = _
    unfold pageOffsetsUpdate Fds.modifyPage
    rw [h.page, h.header, h.pages]
  · exact ⟨h.page, h.header, fun hexec => ⟨h.pages, h.running hexec⟩, fun hne => absurd hne hret,
      h.chunks⟩

/-- **A write is executed**; the record that an update replaces is there. -/
theorem writeExecute_outcome (prevRet : FdsRet) (htable : Table m.fds)
    (hpage : w.page < cfg.maxPages) (hqueue : m.chunkQueue.Holds (cs ++ rest))
    (hw : WriteChunks w cs)
    (hfits : (m.fds.pages.get w.page).writeOffset.toNat + 3 + w.header.lengthWords.toNat ≤
      cfg.pageSize)
    (hfound : prevRet = fsSuccess → w.step = .findRecord →
      (recordIdPages m.fds w.recordToDelete cfg.maxPages 0).isSome = true)
    (hskip : prevRet ≠ fsSuccess ∨ StepMayFail m w →
      m.chunkQueue.rp + cs.length < sz.chunkQueueSize) :
    WriteOutcome w m rest (writeExecute w m prevRet) := by
  -- The descriptor plays no part in the accounts.
  have hadvance : ∀ desc : FdsRecordDesc,
      WriteOutcome w m rest (writeAdvance w { m with desc := desc }) := by
    intro desc
    have hstep := writeStep_outcome (m := { m with desc := desc }) htable hpage rfl hqueue hw hfits
      fun h => hskip (.inr h)
    have houtcome := hstep.writeOutcome
    exact ⟨houtcome.page, houtcome.header, houtcome.running, houtcome.ended, houtcome.chunks⟩
  unfold writeExecute
  split_ifs with hret hfind
  · exact ⟨rfl, rfl, fun h => (by cases h), fun _ => rfl, cs, hw, hqueue, fun _ => hskip (.inl hret),
      fun h => (by cases h)⟩
  · have hsome := hfound (not_not.mp hret) hfind
    obtain ⟨⟨page, p⟩, hrecord⟩ := Option.isSome_iff_exists.mp hsome
    have hdesc : recordFindByDesc m.fds
        { m.desc with pRecord := 0, recordId := w.recordToDelete } = some (page,
          { m.desc with
            pRecord := p, recordId := w.recordToDelete, gcRunCount := m.fds.gc.runCount }) := by
      unfold recordFindByDesc addressIsValid
      simp [hrecord]
    dsimp only
    rw [hdesc]
    exact hadvance _
  · exact hadvance m.desc

end Step

end NordicEsb
