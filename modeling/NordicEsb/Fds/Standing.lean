import NordicEsb.Fds.UnderWay

/-!
# Records That Stand

Whatever happens to a write, the records that are in flash stay, with their data; an update flags
one record, the one it replaces.

- `standingMachine` is the module from pages that are erased behind their last record
- `WriteLeaves` is what a step of `write_execute` leaves: the write is under way, or the records of
  every page end where it is written next
- `StandInv` is the invariant, with the accounts

**Main result** (`undisturbed_of_reachable`): no word is programmed twice for a record, and every
step keeps every record but the one that the executed update replaces.
-/

namespace NordicEsb

variable {cfg : FdsConfig} {sz : FdsQueueSizes}

/-! ## §1 The property -/

/-- The update at the head of the queue, if it is one that is executed, replaces the record with
    this ID. -/
def FdsSystem.Replaces (s : FdsSystem cfg sz) (id : BitVec 32) : Prop :=
  s.stage = .executing ∧
    ∃ w ops, s.ops = .write w :: ops ∧ w.update = true ∧ w.recordToDelete = id

/-- **Writing to pages whose records end** where they are written next. -/
def standingMachine (cfg : FdsConfig) (sz : FdsQueueSizes) :
    Machine (FdsLedger cfg sz) FdsLabel where
  start l := l.Ready ∧ ∀ i < cfg.maxPages, Ends l.sys.module.fds i (l.sys.module.fds.writeAddr i)
  enabled l label := l.Enabled label
  step := FdsLedger.step

instance (l : FdsLedger cfg sz) (label : FdsLabel) :
    Decidable ((standingMachine cfg sz).enabled l label) :=
  inferInstanceAs (Decidable (l.Enabled label))

/-- **The records stand.** -/
structure Undisturbed (l : FdsLedger cfg sz) : Prop where
  /-- The words that fstorage programs for a record are erased. -/
  blank : ∀ w ops dest src, l.sys.stage = .executing → l.sys.ops = .write w :: ops →
    w.StoresRecord → l.sys.module.fds.pending = some (.store dest src) →
      l.sys.module.fds.flash.ErasedOn dest (dest + src.length)
  /-- A step keeps every record, unless fstorage executes the update that replaces it. -/
  stands : ∀ label, l.Enabled label → AccountKept l label → ∀ i < cfg.maxPages, ∀ p r,
    Stands l.sys.module.fds i p r →
      Stands (l.step label).sys.module.fds i p r ∨ l.sys.Replaces r.header.recordId

/-! ## §2 One step of a write -/

section Step

variable {m : FdsModule cfg sz} {s t : Fds cfg} {w w' : FdsWriteOp} {cs rest : List FdsChunk}
  {p : ℕ}

/-- The next step of the same write. -/
theorem UnderWay.next (h : UnderWay s p w) (hflash : t.flash = s.flash) (hpages : t.pages = s.pages)
    (hpage : w'.page = w.page) (hheader : w'.header = w.header) (hupdate : w'.update = w.update)
    (hdelete : w'.recordToDelete = w.recordToDelete)
    (hblank : ∀ x, w'.Unwritten (s.writeAddr w.page) x → w.Unwritten (s.writeAddr w.page) x)
    (hoffset : 3 ≤ w'.chunkOffset.toNat) (hdone : w.step ≠ .done) : UnderWay t p w' := by
  have hsame : UnderWay t p w := h.congr hflash (fun i => by rw [hpages]) (writeAddr_congr hpages)
  have hwrite := writeAddr_congr hpages w.page
  obtain ⟨hroom, hothers, htag, hown, hstop, herased, hold, -, htarget⟩ := hsame
  refine ⟨?_, ?_, ?_, ?_, ?_, ?_, fun x hx => ?_, hoffset, fun hu _ => ?_⟩
  · unfold Room at hroom ⊢
    rwa [hpage, hheader]
  · rwa [hpage]
  · rwa [hpage]
  · rwa [hpage, hheader]
  · rwa [hpage, hheader]
  · rwa [hpage, hheader]
  · rw [hpage, hwrite] at hx
    have hx := hblank x hx
    rw [← hwrite] at hx
    exact hold x hx
  · have htarget := htarget (hupdate ▸ hu) hdone
    unfold Target at htarget ⊢
    rwa [hpage, hdelete]

/-- **What a step leaves**: the write, and what fstorage has been asked to program for it. -/
def StepLeaves (out : FdsRet × FdsWriteOp × FdsModule cfg sz) : Prop :=
  UnderWay out.2.2.fds out.2.2.desc.pRecord out.2.1 ∧
    WriteStores out.2.2.fds out.2.2.desc.pRecord out.2.1

/-- The record ID is programmed. -/
theorem UnderWay.writeId (h : UnderWay m.fds m.desc.pRecord w) (hstep : w.step = .recordId)
    (hexec : (recordHeaderWriteId w m (m.fds.writeAddr w.page)).1 = fdsOpExecuting) :
    StepLeaves (recordHeaderWriteId w m (m.fds.writeAddr w.page)) := by
  have hthree := w.header.three_le_size
  have hoffset := h.offset
  have hstore := store_executing hexec
  have hblank : ∀ x, x = m.fds.writeAddr w.page + 1 ∨ x = m.fds.writeAddr w.page + 2 ∨
      m.fds.writeAddr w.page + w.chunkOffset.toNat ≤ x ∧
        x < m.fds.writeAddr w.page + w.header.size → m.fds.flash x = fdsErasedWord := by
    intro x hx
    apply h.blank
    unfold FdsWriteOp.Unwritten
    rwa [hstep]
  unfold StepLeaves
  dsimp only [recordHeaderWriteId]
  rw [hstore]
  have hunwritten : ∀ x, FdsWriteOp.Unwritten { w with
      step := if w.chunkCount ≠ 0 then .chunks else .headerFinalize }
        (m.fds.writeAddr w.page) x → x = m.fds.writeAddr w.page + 1 ∨
          m.fds.writeAddr w.page + w.chunkOffset.toNat ≤ x ∧
            x < m.fds.writeAddr w.page + w.header.size := by
    intro x hx
    unfold FdsWriteOp.Unwritten at hx
    split_ifs at hx
    · exact hx
    · exact .inl hx
  refine ⟨h.next rfl rfl rfl rfl rfl rfl (fun x hx => ?_) hoffset (by rw [hstep]; decide),
    .words (m.fds.writeAddr w.page + 2) [w.header.recordId] rfl ?_ ?_ ?_ ?_ ?_ fun x hx => ?_⟩
  · unfold FdsWriteOp.Unwritten
    rw [hstep]
    exact (hunwritten x hx).imp_right .inr
  · dsimp only
    split <;> exact ⟨by decide, by decide⟩
  · exact Nat.lt_add_of_pos_right (by decide)
  · show m.fds.writeAddr w.page + 2 + 1 ≤ m.fds.writeAddr w.page + w.header.size
    omega
  · intro x hx hlt
    have hlt : x < m.fds.writeAddr w.page + 2 + 1 := hlt
    exact hblank x (.inr (.inl (by omega)))
  · exact hblank _ (.inl rfl)
  · show x < m.fds.writeAddr w.page + 2 ∨ m.fds.writeAddr w.page + 2 + 1 ≤ x
    rcases hunwritten x hx with hx | hx <;> omega

/-- The next chunk is programmed. -/
theorem UnderWay.writeChunk {c : FdsChunk} (h : UnderWay m.fds m.desc.pRecord w)
    (hstep : w.step = .chunks) (hqueue : m.chunkQueue.Holds (c :: cs ++ rest))
    (hw : WriteChunks w (c :: cs))
    (hexec : (recordWriteChunk w m (m.fds.writeAddr w.page)).1 = fdsOpExecuting) :
    StepLeaves (recordWriteChunk w m (m.fds.writeAddr w.page)) := by
  have hoffset := h.offset
  obtain ⟨-, hroom⟩ := h.room
  have htag := h.tag
  have hsmall := cfg.pageSize_lt
  obtain ⟨hchunk, -⟩ := FdsChunkQueue.Holds.getAndAdvance hqueue
  have hsum := hw.offset
  rw [chunksSize_cons] at hsum
  have hsize : w.header.size = 3 + w.header.lengthWords.toNat := rfl
  have hblank : ∀ x, x = m.fds.writeAddr w.page + 1 ∨
      m.fds.writeAddr w.page + w.chunkOffset.toNat ≤ x ∧
        x < m.fds.writeAddr w.page + w.header.size → m.fds.flash x = fdsErasedWord := by
    intro x hx
    apply h.blank
    unfold FdsWriteOp.Unwritten
    rwa [hstep]
  -- The code of the step is one store, whether more chunks follow or not.
  have hcode : recordWriteChunk w m (m.fds.writeAddr w.page) =
      (fdsRetOf (FdsModule.store { m with chunkQueue := m.chunkQueue.getAndAdvance.2 }
        (m.fds.writeAddr w.page + w.chunkOffset.toNat) c.data).1, w.afterChunk c,
        (FdsModule.store { m with chunkQueue := m.chunkQueue.getAndAdvance.2 }
          (m.fds.writeAddr w.page + w.chunkOffset.toNat) c.data).2) := by
    rw [← hchunk]
    unfold recordWriteChunk FdsWriteOp.afterChunk
    dsimp only
    split <;> simp [*]
  have hnext : (w.afterChunk c).chunkOffset.toNat = w.chunkOffset.toNat + c.data.length := by
    show (w.chunkOffset + c.lengthWords).toNat = _
    rw [BitVec.toNat_add, c.toNat_lengthWords]
    omega
  have hcases : (w.afterChunk c).step = .headerFinalize ∨ (w.afterChunk c).step = .chunks := by
    unfold FdsWriteOp.afterChunk
    dsimp only
    split
    · exact .inl rfl
    · exact .inr rfl
  -- What is unwritten behind this chunk was unwritten in front of it.
  have hunwritten : ∀ x, (w.afterChunk c).Unwritten (m.fds.writeAddr w.page) x →
      x = m.fds.writeAddr w.page + 1 ∨
        m.fds.writeAddr w.page + w.chunkOffset.toNat + c.data.length ≤ x ∧
          x < m.fds.writeAddr w.page + w.header.size := by
    intro x hx
    unfold FdsWriteOp.Unwritten at hx
    rcases hcases with hfinal | hmore
    · rw [hfinal] at hx
      exact .inl hx
    · rw [hmore, hnext, ← Nat.add_assoc] at hx
      exact hx
  rw [hcode] at hexec ⊢
  have hstore := store_executing hexec
  unfold StepLeaves
  dsimp only
  rw [hstore]
  refine ⟨h.next rfl rfl rfl rfl rfl rfl (fun x hx => ?_) (by omega) (by rw [hstep]; decide),
    .words (m.fds.writeAddr w.page + w.chunkOffset.toNat) c.data rfl ?_ ?_ ?_ ?_ ?_
      fun x hx => ?_⟩
  · have hx := hunwritten x hx
    unfold FdsWriteOp.Unwritten
    rw [hstep]
    exact hx.imp_right fun hx => ⟨by omega, hx.2⟩
  · rcases hcases with hfinal | hmore
    · rw [hfinal]
      exact ⟨by decide, by decide⟩
    · rw [hmore]
      exact ⟨by decide, by decide⟩
  · show m.fds.writeAddr w.page < m.fds.writeAddr w.page + w.chunkOffset.toNat
    omega
  · show m.fds.writeAddr w.page + w.chunkOffset.toNat + c.data.length ≤
      m.fds.writeAddr w.page + w.header.size
    omega
  · exact fun x hx hlt => hblank x (.inr ⟨hx, by omega⟩)
  · exact hblank _ (.inl rfl)
  · show x < m.fds.writeAddr w.page + w.chunkOffset.toNat ∨
      m.fds.writeAddr w.page + w.chunkOffset.toNat + c.data.length ≤ x
    rcases hunwritten x hx with hx | hx <;> omega

/-- The word that makes the record valid is programmed. -/
theorem UnderWay.writeFinalize (h : UnderWay m.fds m.desc.pRecord w)
    (hstep : w.step = .headerFinalize)
    (hexec : (recordHeaderWriteFinalize w m (m.fds.writeAddr w.page)).1 = fdsOpExecuting) :
    StepLeaves (recordHeaderWriteFinalize w m (m.fds.writeAddr w.page)) := by
  have hthree := w.header.three_le_size
  have hoffset := h.offset
  have hstore := store_executing hexec
  have hblank : m.fds.flash (m.fds.writeAddr w.page + 1) = fdsErasedWord := by
    apply h.blank
    unfold FdsWriteOp.Unwritten
    rw [hstep]
  unfold StepLeaves
  dsimp only [recordHeaderWriteFinalize]
  rw [hstore]
  have hnone : ∀ x, ¬ FdsWriteOp.Unwritten { w with
      step := if w.update then .flagDirty else .done } (m.fds.writeAddr w.page) x := by
    intro x hx
    unfold FdsWriteOp.Unwritten at hx
    split_ifs at hx <;> exact hx
  refine ⟨h.next rfl rfl rfl rfl rfl rfl (fun x hx => absurd hx (hnone x)) hoffset
      (by rw [hstep]; decide),
    .words (m.fds.writeAddr w.page + 1) [w.header.ic] rfl ?_ ?_ ?_ ?_ hblank
      fun x hx => absurd hx (hnone x)⟩
  · dsimp only
    split <;> exact ⟨by decide, by decide⟩
  · exact Nat.lt_add_of_pos_right (by decide)
  · show m.fds.writeAddr w.page + 1 + 1 ≤ m.fds.writeAddr w.page + w.header.size
    omega
  · intro x hx hlt
    have hlt : x < m.fds.writeAddr w.page + 1 + 1 := hlt
    obtain rfl : x = m.fds.writeAddr w.page + 1 := by omega
    exact hblank

/-- The record that is replaced is flagged. -/
theorem UnderWay.writeFlag (h : UnderWay m.fds m.desc.pRecord w) (hstep : w.step = .flagDirty)
    (hw : WriteChunks w cs)
    (hexec : (recordHeaderFlagDirty m m.desc.pRecord).1 = fdsOpExecuting) :
    StepLeaves ((recordHeaderFlagDirty m m.desc.pRecord).1, { w with step := .done },
      (recordHeaderFlagDirty m m.desc.pRecord).2) := by
  have hoffset := h.offset
  have hstore := store_executing hexec
  have hupdate := hw.flag hstep
  have htarget := h.target hupdate (by rw [hstep]; decide)
  unfold StepLeaves
  dsimp only [recordHeaderFlagDirty]
  rw [hstore]
  refine ⟨h.next rfl rfl rfl rfl rfl rfl (fun x hx => absurd hx id) hoffset ?_,
    .flag rfl rfl hupdate htarget⟩
  rw [hstep]
  decide

/-- **What a write does next**, once its first word is programmed. -/
theorem UnderWay.writeStep (h : UnderWay m.fds m.desc.pRecord w)
    (hbegun : w.step ≠ .findRecord ∧ w.step ≠ .headerBegin)
    (hqueue : m.chunkQueue.Holds (cs ++ rest)) (hw : WriteChunks w cs)
    (hexec : (writeStep w m (m.fds.writeAddr w.page)).1 = fdsOpExecuting) :
    UnderWay (writeStep w m (m.fds.writeAddr w.page)).2.2.fds
        (writeStep w m (m.fds.writeAddr w.page)).2.2.desc.pRecord
        (writeStep w m (m.fds.writeAddr w.page)).2.1 ∧
      WriteStores (writeStep w m (m.fds.writeAddr w.page)).2.2.fds
        (writeStep w m (m.fds.writeAddr w.page)).2.2.desc.pRecord
        (writeStep w m (m.fds.writeAddr w.page)).2.1 := by
  unfold NordicEsb.writeStep at hexec ⊢
  cases hstep : w.step with
  | findRecord => exact absurd hstep hbegun.1
  | headerBegin => exact absurd hstep hbegun.2
  | recordId =>
    rw [hstep] at hexec
    exact h.writeId hstep hexec
  | chunks =>
    rw [hstep] at hexec
    cases cs with
    | nil => exact absurd rfl (hw.begun hstep)
    | cons c cs => exact h.writeChunk hstep hqueue hw hexec
  | headerFinalize =>
    rw [hstep] at hexec
    exact h.writeFinalize hstep hexec
  | flagDirty =>
    rw [hstep] at hexec
    exact h.writeFlag hstep hw hexec
  | done =>
    rw [hstep] at hexec
    cases hexec

/-- **The first step of a write.** -/
theorem writeStep_first (hends : ∀ i < cfg.maxPages, Ends m.fds i (m.fds.writeAddr i))
    (hroom : Room m.fds w) (hwaits : w.step = .findRecord ∨ w.step = .headerBegin)
    (hoffset : w.chunkOffset = 3)
    (htarget : w.update = true → Target m.fds m.desc.pRecord w)
    (hexec : (writeStep w m (m.fds.writeAddr w.page)).1 = fdsOpExecuting) :
    UnderWay (writeStep w m (m.fds.writeAddr w.page)).2.2.fds
        (writeStep w m (m.fds.writeAddr w.page)).2.2.desc.pRecord
        (writeStep w m (m.fds.writeAddr w.page)).2.1 ∧
      WriteStores (writeStep w m (m.fds.writeAddr w.page)).2.2.fds
        (writeStep w m (m.fds.writeAddr w.page)).2.2.desc.pRecord
        (writeStep w m (m.fds.writeAddr w.page)).2.1 := by
  have hown := hends w.page hroom.1
  have hthree : w.chunkOffset.toNat = 3 := by
    rw [hoffset]
    rfl
  have hcode : writeStep w m (m.fds.writeAddr w.page) =
      recordHeaderWriteBegin w m (m.fds.writeAddr w.page) := by
    unfold writeStep
    rcases hwaits with hstep | hstep <;> rw [hstep]
  rw [hcode] at hexec ⊢
  have hstore := store_executing hexec
  have hstart := Nat.le_add_right ((m.fds.pages.get w.page).pAddr + 2) (chainSize m.fds.flash
    ((m.fds.pages.get w.page).pAddr + cfg.pageSize) ((m.fds.pages.get w.page).pAddr + 2))
  dsimp only [recordHeaderWriteBegin]
  rw [hstore]
  refine ⟨⟨hroom, fun i hi _ => (hends i hi).congr rfl (.refl _ _ _), hstart.trans hown.le,
    fun x hx => .inl ?_, .inl hown.le, hown.erased.mono (Nat.le_add_right _ _) le_rfl,
    fun x hx => ?_, hthree.ge, fun hu _ => htarget hu⟩,
    .first rfl rfl (hown.congr rfl (.refl _ _ _))⟩
  · exact hown.record_le hx
  · have hx : x = m.fds.writeAddr w.page + 1 ∨ x = m.fds.writeAddr w.page + 2 ∨
        m.fds.writeAddr w.page + w.chunkOffset.toNat ≤ x ∧
          x < m.fds.writeAddr w.page + w.header.size := hx
    have hsize := w.header.three_le_size
    have hin := hroom.2
    exact hown.erased x (by omega) (by omega)

/-! ## §3 The whole operation -/

theorem store_pages (m : FdsModule cfg sz) (dest : ℕ) (src : List (BitVec 32)) :
    (m.store dest src).2.fds.pages = m.fds.pages := by
  unfold FdsModule.store
  rcases fsStore_cases m.fds dest src with hstore | ⟨ret, -, hstore⟩ <;> rw [hstore]

/-- A step changes no page. -/
theorem writeStep_pages (w : FdsWriteOp) (m : FdsModule cfg sz) (addr : ℕ) :
    (writeStep w m addr).2.2.fds.pages = m.fds.pages ∧ (writeStep w m addr).2.1.page = w.page := by
  unfold writeStep
  cases w.step with
  | findRecord => exact ⟨store_pages _ _ _, rfl⟩
  | headerBegin => exact ⟨store_pages _ _ _, rfl⟩
  | recordId => exact ⟨store_pages _ _ _, rfl⟩
  | chunks =>
    unfold recordWriteChunk
    refine ⟨store_pages _ _ _, ?_⟩
    dsimp only
    split <;> rfl
  | headerFinalize => exact ⟨store_pages _ _ _, rfl⟩
  | flagDirty => exact ⟨store_pages _ _ _, rfl⟩
  | done => exact ⟨rfl, rfl⟩

/-- **The words of a write that has ended** are behind the records of its page. -/
theorem ends_offsets (hroom : Room s w) (hflash : t.flash = s.flash)
    (hpages : t.pages = (pageOffsetsUpdate s w.page w.header.lengthWords).pages)
    (hothers : ∀ i < cfg.maxPages, i ≠ w.page → Ends s i (s.writeAddr i))
    (hown : Ends s w.page (s.writeAddr w.page + w.header.size)) :
    ∀ i < cfg.maxPages, Ends t i (t.writeAddr i) := by
  intro i hi
  obtain ⟨hpage, hin⟩ := hroom
  have hsmall := cfg.pageSize_lt
  have hsize : w.header.size = 3 + w.header.lengthWords.toNat := rfl
  have hthree : (3 : BitVec 16).toNat = 3 := rfl
  have hget : t.pages.get i = if i = w.page then
      { s.pages.get w.page with
        writeOffset := (s.pages.get w.page).writeOffset + (3 + w.header.lengthWords)
        wordsReserved := (s.pages.get w.page).wordsReserved - (3 + w.header.lengthWords) }
      else s.pages.get i := by
    rw [hpages]
    exact Fds.get_modifyPage _ hpage i
  have haddr : (t.pages.get i).pAddr = (s.pages.get i).pAddr := by
    rw [hget]
    split_ifs with hiw
    · rw [hiw]
    · rfl
  have hwrite : t.writeAddr i =
      if i = w.page then s.writeAddr w.page + w.header.size else s.writeAddr i := by
    unfold Fds.writeAddr at hin ⊢
    rw [hget]
    split_ifs with hiw
    · dsimp only
      rw [BitVec.toNat_add, BitVec.toNat_add, hthree]
      omega
    · rfl
  have hcongr : ∀ b, Ends s i b → Ends t i b := fun b h => h.congr haddr (hflash ▸ .refl _ _ _)
  rw [hwrite]
  split_ifs with hiw
  · subst hiw
    exact hcongr _ hown
  · exact hcongr _ (hothers i hi hiw)

theorem UnderWay.ends (h : UnderWay s p w) :
    Ends s w.page (s.writeAddr w.page + w.header.size) := by
  refine ⟨?_, h.erased⟩
  rcases h.stop with hstop | hstop <;> omega

/-- What a step of a write leaves: it goes on, or the records end where they are written next. -/
def WriteLeaves (out : FdsRet × FdsWriteOp × FdsModule cfg sz) : Prop :=
  (out.1 = fdsOpExecuting → UnderWay out.2.2.fds out.2.2.desc.pRecord out.2.1 ∧
    WriteStores out.2.2.fds out.2.2.desc.pRecord out.2.1) ∧
  (out.1 ≠ fdsOpExecuting → ∀ i < cfg.maxPages, Ends out.2.2.fds i (out.2.2.fds.writeAddr i))

/-- A write that has failed or is complete gives up its space. -/
theorem writeAdvance_leaves (hroom : Room m.fds w)
    (hothers : ∀ i < cfg.maxPages, i ≠ w.page → Ends m.fds i (m.fds.writeAddr i))
    (hown : Ends m.fds w.page (m.fds.writeAddr w.page + w.header.size))
    (hexec : (writeStep w m (m.fds.writeAddr w.page)).1 = fdsOpExecuting →
      UnderWay (writeStep w m (m.fds.writeAddr w.page)).2.2.fds
          (writeStep w m (m.fds.writeAddr w.page)).2.2.desc.pRecord
          (writeStep w m (m.fds.writeAddr w.page)).2.1 ∧
        WriteStores (writeStep w m (m.fds.writeAddr w.page)).2.2.fds
          (writeStep w m (m.fds.writeAddr w.page)).2.2.desc.pRecord
          (writeStep w m (m.fds.writeAddr w.page)).2.1) :
    WriteLeaves (writeAdvance w m) := by
  obtain ⟨out, hout⟩ : ∃ out, out = writeStep w m (m.fds.writeAddr w.page) := ⟨_, rfl⟩
  have hcode : writeAdvance w m =
      if out.1 ≠ fdsOpExecuting then (out.1, out.2.1, offsetsUpdate out.2.1 out.2.2) else out := by
    rw [hout]
    rfl
  obtain ⟨hpages, hpage⟩ := writeStep_pages w m (m.fds.writeAddr w.page)
  have hheader := writeStep_header w m (m.fds.writeAddr w.page)
  have hframe : (writeStep w m (m.fds.writeAddr w.page)).2.2.fds.flash = m.fds.flash :=
    (writeStep_framed w m _).fds.flash
  rw [← hout] at hpages hpage hheader hframe hexec
  rw [hcode]
  split_ifs with hret
  · refine ⟨fun h => absurd h hret, fun _ => ends_offsets hroom hframe ?_ hothers hown⟩
    show (pageOffsetsUpdate out.2.2.fds out.2.1.page out.2.1.header.lengthWords).pages = _
    unfold pageOffsetsUpdate Fds.modifyPage
    rw [hpage, hheader, hpages]
  · exact ⟨fun _ => hexec (not_not.mp hret), fun h => absurd (not_not.mp hret) h⟩

/-- **A step of a write that fstorage has executed.** -/
theorem UnderWay.writeExecute (h : UnderWay m.fds m.desc.pRecord w)
    (hbegun : w.step ≠ .findRecord ∧ w.step ≠ .headerBegin)
    (hqueue : m.chunkQueue.Holds (cs ++ rest)) (hw : WriteChunks w cs) (prevRet : FdsRet) :
    WriteLeaves (writeExecute w m prevRet) := by
  unfold NordicEsb.writeExecute
  split_ifs with hret hfind
  · exact ⟨fun h => (by cases h),
      fun _ => ends_offsets h.room rfl rfl h.others h.ends⟩
  · exact absurd hfind hbegun.1
  · exact writeAdvance_leaves h.room h.others h.ends fun hexec => h.writeStep hbegun hqueue hw hexec

/-- The record that a search finds has the ID. -/
theorem recordIdPages_live {id : BitVec 32} {n i : ℕ} {found : ℕ × ℕ} (htable : Table s)
    (hmax : i + n ≤ cfg.maxPages) (hfound : recordIdPages s id n i = some found) :
    ∃ j < cfg.maxPages, ∃ h, (found.2, h) ∈ pageLive s j ∧ h.recordId = id := by
  induction n generalizing i with
  | zero => cases hfound
  | succ n ih =>
    unfold recordIdPages at hfound
    rw [recordIdLoop_page (htable.pAddr_pos (by omega))] at hfound
    cases hfind : (pageHeaders cfg s.flash (s.pages.get i).pAddr).find?
        (fun h => h.2.recordId = id) with
    | none =>
      rw [hfind] at hfound
      exact ih (by omega) hfound
    | some x =>
      rw [hfind] at hfound
      obtain rfl := Option.some.inj hfound
      have hid := List.find?_some hfind
      exact ⟨i, by omega, x.2, List.mem_of_find?_eq_some hfind, by simpa using hid⟩

/-- **A write that begins.** -/
theorem writeExecute_first (htable : Table m.fds)
    (hends : ∀ i < cfg.maxPages, Ends m.fds i (m.fds.writeAddr i)) (hroom : Room m.fds w)
    (hwaits : w.Waits) (hoffset : w.chunkOffset = 3) :
    WriteLeaves (writeExecute w m fsSuccess) := by
  have hown := hends w.page hroom.1
  have hmore : Ends m.fds w.page (m.fds.writeAddr w.page + w.header.size) :=
    hown.mono (Nat.le_add_right _ _)
  have hstep : w.step = if w.update then .findRecord else .headerBegin := hwaits
  unfold writeExecute
  rw [if_neg (not_not_intro rfl)]
  split_ifs with hfind
  · have hupdate : w.update = true := by
      by_contra hne
      rw [if_neg hne] at hstep
      rw [hstep] at hfind
      cases hfind
    dsimp only
    cases hrecord : recordFindByDesc m.fds
        { m.desc with pRecord := 0, recordId := w.recordToDelete } with
    | none => exact ⟨fun h => (by cases h), fun _ => hends⟩
    | some found =>
      rw [recordFindByDesc_null _ rfl] at hrecord
      obtain ⟨at', hat, hfound⟩ := Option.map_eq_some_iff.mp hrecord
      obtain ⟨j, hj, h, hmem, hid⟩ := recordIdPages_live htable (by omega) hat
      have hp : found.2.pRecord = at'.2 := by rw [← hfound]
      have htarget : Target m.fds found.2.pRecord w := by
        refine ⟨j, hj, h, hp ▸ hmem, hid, fun hjw => ?_⟩
        subst hjw
        rw [hp]
        exact hown.record_le (mem_pageLive.mp hmem).1
      exact writeAdvance_leaves (m := { m with desc := found.2 }) hroom (fun i hi _ => hends i hi)
        hmore fun hexec => writeStep_first (m := { m with desc := found.2 }) hends hroom
          (.inl hfind) hoffset (fun _ => htarget) hexec
  · have hplain : w.step = .headerBegin ∧ w.update ≠ true := by
      split_ifs at hstep with hu
      · exact absurd hstep hfind
      · exact ⟨hstep, hu⟩
    exact writeAdvance_leaves hroom (fun i hi _ => hends i hi) hmore fun hexec =>
      writeStep_first hends hroom (.inr hplain.1) hoffset (fun hu => absurd hu hplain.2) hexec

end Step

/-! ## §4 Calls -/

section Calls

variable {l : FdsLedger cfg sz} {s t u : FdsSystem cfg sz} {w : FdsWriteOp} {ops : List FdsOp}
  {tokens : List FdsReserveToken}

/-- A write that has not begun. -/
def FdsOp.Fresh : FdsOp → Prop
  | .write w => w.Waits ∧ w.chunkOffset = 3
  | _ => True

/-- The record that a call replaces. -/
def FdsLabel.updates : FdsLabel → Option (BitVec 32)
  | .update recordId _ => some recordId
  | _ => none

/-- **What a call does**: it puts a write into the queue, or it does not. -/
inductive WriteCall (s : FdsSystem cfg sz) (updates : Option (BitVec 32)) :
    FdsSystem cfg sz → Prop
  | refused (t : FdsSystem cfg sz) (keeps : CallKeeps s t) (ops : t.ops = s.ops) :
      WriteCall s updates t
  | queued (w : FdsWriteOp) (t : FdsSystem cfg sz) (keeps : CallKeeps s t)
      (ops : t.ops = s.ops ++ [.write w]) (fresh : (FdsOp.write w).Fresh)
      (room : Room t.module.fds w) (replaces : w.update = true → updates = some w.recordToDelete) :
      WriteCall s updates (queueStart t)

theorem newWriteOp_fresh (record : FdsNewRecord) (update : Option (BitVec 32)) (page : ℕ)
    (lengthWords : BitVec 16) (recordId : BitVec 32) :
    (FdsOp.write (newWriteOp record update page lengthWords recordId)).Fresh := ⟨rfl, rfl⟩

/-- A write with its space. -/
theorem writeEnqueueAt_writeCall {record : FdsNewRecord} {update : Option (BitVec 32)} {page : ℕ}
    {lengthWords : BitVec 16} (hkeeps : CallKeeps s u) (hops : u.ops = s.ops)
    (hroom : QueuesHaveRoom u record.chunks.length → page < cfg.maxPages ∧
      u.module.fds.writeAddr page + (3 + lengthWords.toNat) ≤
        (u.module.fds.pages.get page).pAddr + cfg.pageSize) :
    WriteCall s update (writeEnqueueAt record update page lengthWords u).2 := by
  obtain ⟨v, hv⟩ : ∃ v, v = u.setFds
    { u.module.fds with latestRecId := u.module.fds.latestRecId + 1 } := ⟨_, rfl⟩
  obtain ⟨op, hop⟩ : ∃ op, op = newWriteOp record update page lengthWords
    v.module.fds.latestRecId := ⟨_, rfl⟩
  have hid : CallKeeps u v := by
    rw [hv]
    exact setFds_callKeeps (.of_eq rfl rfl rfl rfl) rfl rfl
  have hopsId : v.ops = u.ops := by rw [hv]; rfl
  unfold writeEnqueueAt
  dsimp only
  rw [← hv, ← hop]
  cases henqueue : opEnqueue (.write op) record.chunks v with
  | none =>
    refine .refused _ ((hkeeps.trans hid).trans ?_) (hopsId.trans hops)
    exact modifyPage_callKeeps v page _ (fun _ => rfl) (fun _ => rfl) fun _ => rfl
  | some t =>
    obtain ⟨hqueued, hopsQueued⟩ := opEnqueue_keeps henqueue
    have hfull : QueuesHaveRoom u record.chunks.length := by
      by_contra hnot
      have hnone : opEnqueue (.write op) record.chunks v = none := by
        refine opEnqueue_none fun h => hnot ?_
        rw [hv] at h
        exact h
      rw [hnone] at henqueue
      cases henqueue
    obtain ⟨hpage, hin⟩ := hroom hfull
    have hkeeps' := hid.trans hqueued
    have hoppage : op.page = page := by rw [hop]; rfl
    have hsize : op.header.size = 3 + lengthWords.toNat := by
      rw [hop]
      unfold newWriteOp FdsHeader.size
      rw [FdsHeader.lengthWords_tlWord]
    refine .queued op t (hkeeps.trans hkeeps') ?_ (hop ▸ newWriteOp_fresh _ _ _ _ _) ⟨?_, ?_⟩ ?_
    · rw [hopsQueued, hopsId, hops]
    · rwa [hoppage]
    · rw [hoppage, hsize, hkeeps'.frame.writeAddr, hkeeps'.frame.quiet.fds.pAddr]
      exact hin
    · rw [hop]
      unfold newWriteOp
      cases update with
      | none => exact fun h => (by cases h)
      | some id => exact fun _ => rfl

/-- A write that reserves its space. -/
theorem writeEnqueue_writeCall {record : FdsNewRecord} {update : Option (BitVec 32)}
    (hinv : LedgerInv l) (hkept : WriteKept l.sys record update) :
    WriteCall l.sys update (writeEnqueue record update none l.sys).2 := by
  unfold writeEnqueue
  split_ifs with hinvalid
  · exact .refused _ (.refl _) rfl
  · have hvalid : record.Valid := not_or.mp hinvalid
    dsimp only
    rcases writeSpaceReserve_cases l.sys.module.fds (chunksLength record.chunks) with
      ⟨page, hspace, hsize, hreserve⟩ | ⟨ret, hret, hreserve⟩
    · have hpage : page < cfg.maxPages := List.mem_range.mp (List.mem_of_find?_eq_some hspace)
      rw [hreserve]
      have hframe := reserve_callFrame l.sys page (chunksLength record.chunks + 3)
      refine writeEnqueueAt_writeCall ⟨hframe, rfl⟩ rfl fun hroom => ⟨hpage, ?_⟩
      rw [chunksLength_eq] at hspace hsize ⊢
      have hon : ReservesOn l.sys.module.fds (chunksSize record.chunks) page := ⟨hspace, hsize⟩
      obtain ⟨hfits, -, -⟩ := hkept hvalid hroom page hpage hon
      obtain ⟨-, hlength, hcounts⟩ := reserve_counts hon hfits hinv.accounts.bound rfl
      obtain ⟨hwords, hbound⟩ := hcounts page hpage
      rw [if_pos rfl] at hwords
      rw [hlength]
      show ((l.sys.module.fds.modifyPage page _).pages.get page).pAddr +
        ((l.sys.module.fds.modifyPage page _).pages.get page).writeOffset.toNat + _ ≤ _
      have hadd : ∀ a b c : ℕ, b + (3 + c) ≤ cfg.pageSize →
          a + b + (3 + c) ≤ a + cfg.pageSize := by
        omega
      exact hadd _ _ _ (by omega)
    · rw [hreserve]
      dsimp only
      rw [if_pos hret]
      exact .refused _ (.refl _) rfl

/-- **Every call** that the accounts allow. -/
theorem step_writeCall {label : FdsLabel} (hinv : LedgerInv l) (hen : l.Enabled label)
    (hkept : AccountKept l label) (hcall : label.IsCall) :
    WriteCall l.sys label.updates (l.step label).sys := by
  cases label with
  | reserve lengthWords =>
    show WriteCall l.sys none (fdsReserve lengthWords l.sys).2.2
    unfold fdsReserve
    rcases writeSpaceReserve_cases l.sys.module.fds lengthWords with
      ⟨page, -, -, hreserve⟩ | ⟨ret, hret, hreserve⟩
    · rw [hreserve]
      refine .refused _ ⟨?_, rfl⟩ rfl
      exact reserve_callFrame l.sys page _
    · rw [hreserve]
      dsimp only
      rw [if_neg hret]
      exact .refused _ (.refl _) rfl
  | reserveCancel tok =>
    show WriteCall l.sys none (fdsReserveCancel tok l.sys).2.2
    unfold fdsReserveCancel
    split_ifs
    · exact .refused _ (.refl _) rfl
    · refine .refused _ ?_ rfl
      exact modifyPage_callKeeps l.sys tok.page _ (fun _ => rfl) (fun _ => rfl) fun _ => rfl
    · exact .refused _ (.refl _) rfl
  | write record => exact writeEnqueue_writeCall hinv hkept
  | update recordId record => exact writeEnqueue_writeCall hinv hkept
  | writeReserved record tok =>
    obtain ⟨hmem, -⟩ := hen
    show WriteCall l.sys none (writeEnqueue record none (some tok) l.sys).2
    unfold writeEnqueue
    split_ifs with hinvalid
    · exact .refused _ (.refl _) rfl
    · refine writeEnqueueAt_writeCall (.refl _) rfl fun _ => ?_
      -- The words of the token are reserved on its page.
      have hpage := hinv.accounts.held tok hmem
      have hbound := hinv.accounts.bound tok.page hpage
      have hreserved := hinv.accounts.reserved tok.page hpage
      have herase := owed_erase hmem l.sys.unfinished tok.page
      have hwords : tok.wordsOn tok.page = tok.lengthWords.toNat + 3 := if_pos rfl
      refine ⟨hpage, ?_⟩
      unfold Fds.writeAddr
      omega
  | fsQueue full =>
    refine .refused _ ?_ rfl
    exact setFds_callKeeps (.of_eq rfl rfl rfl rfl) rfl rfl
  | delete recordId => exact absurd hen id
  | fileDelete fileId => exact absurd hen id
  | gc => exact absurd hen id
  | «open» desc => exact absurd hen id
  | close desc => exact absurd hen id
  | advance => exact absurd hcall id
  | flashDone => exact absurd hcall id
  | flashTimeout words => exact absurd hcall id

/-! ## §5 Runs -/

/-- **What holds in every state**: the records of every page end where it is written next, but for
    the one that is written. -/
structure StandInv (l : FdsLedger cfg sz) : Prop where
  ledger : LedgerInv l
  fresh : ∀ op ∈ l.sys.ops.tail, op.Fresh
  ends : l.sys.stage ≠ .executing → ∀ i < cfg.maxPages,
    Ends l.sys.module.fds i (l.sys.module.fds.writeAddr i)
  runs : ∀ w ops, l.sys.stage = .executing → l.sys.ops = .write w :: ops →
    UnderWay l.sys.module.fds l.sys.module.desc.pRecord w ∧
      WriteStores l.sys.module.fds l.sys.module.desc.pRecord w

/-- What `queue_process` leaves of the invariant. -/
structure Leaves (fds : Fds cfg) (ops : List FdsOp) (t : FdsSystem cfg sz) : Prop where
  frame : Framed fds t.module.fds
  tail : t.ops.tail = ops
  ends : t.stage ≠ .executing → ∀ i < cfg.maxPages, Ends t.module.fds i (t.module.fds.writeAddr i)
  runs : ∀ w ops, t.stage = .executing → t.ops = .write w :: ops →
    UnderWay t.module.fds t.module.desc.pRecord w ∧ WriteStores t.module.fds t.module.desc.pRecord w

/-- **One step of the write at the head of the queue.** -/
theorem queueProcess_leaves {result : FdsRet} (hops : s.ops = .write w :: ops)
    (hleaves : WriteLeaves (writeExecute w s.module result)) :
    Leaves s.module.fds ops (queueProcess result s) := by
  have hframe := (writeExecute_framed w s.module result).fds
  obtain ⟨hexec, hended⟩ := hleaves
  have hexecute : executeOp result (.write w) s.module =
      ((writeExecute w s.module result).1, .write (writeExecute w s.module result).2.1,
        (writeExecute w s.module result).2.2) := rfl
  rcases queueProcess_cases hops hexecute with ⟨hrun, hcode⟩ | ⟨hret, m, hm, hcode⟩
  · rw [hcode]
    refine ⟨hframe, rfl, fun h => absurd rfl h, fun w' ops' _ hcons => ?_⟩
    obtain ⟨hw', -⟩ := List.cons.inj hcons
    obtain rfl := FdsOp.write.inj hw'
    exact hexec hrun
  · rw [hcode]
    refine ⟨?_, rfl, fun _ i hi => ?_, fun _ _ h => (by cases h)⟩
    · show Framed s.module.fds m.fds
      rw [hm]
      exact hframe
    · show Ends m.fds i (m.fds.writeAddr i)
      rw [hm]
      exact hended hret i hi

/-- A call changes nothing that a write depends on. -/
theorem CallKeeps.runs (h : CallKeeps s t) {p : ℕ} (hway : UnderWay s.module.fds p w)
    (hstores : WriteStores s.module.fds p w) :
    UnderWay t.module.fds p w ∧ WriteStores t.module.fds p w := by
  have hflash := h.frame.quiet.fds.flash
  have haddr := h.frame.quiet.fds.pAddr
  have hwrite := h.frame.writeAddr
  have hpending := h.frame.quiet.pending
  have hends : ∀ i b, Ends s.module.fds i b → Ends t.module.fds i b := fun i b hends =>
    hends.congr (haddr i) (hflash ▸ .refl _ _ _)
  refine ⟨hway.congr hflash haddr hwrite, ?_⟩
  cases hstores with
  | first hfirst hstep hown =>
    refine .first ?_ hstep ?_
    · rw [hpending, hwrite]
      exact hfirst
    · rw [hwrite]
      exact hends _ _ hown
  | words dest src hwords hbegun hlt hle hblank hsecond hkeeps =>
    refine .words dest src (hpending.trans hwords) hbegun ?_ ?_ ?_ ?_ fun x hx => ?_
    · rwa [hwrite]
    · rwa [hwrite]
    · rwa [hflash]
    · rwa [hflash, hwrite]
    · rw [hwrite] at hx
      exact hkeeps x hx
  | flag hflag hstep hupdate htarget =>
    refine .flag (hpending.trans hflag) hstep hupdate ?_
    obtain ⟨j, hj, header, hmem, hid, hend⟩ := htarget
    refine ⟨j, hj, header, ?_, hid, fun hjw => hwrite w.page ▸ hend hjw⟩
    unfold pageLive
    rwa [hflash, haddr]

/-- Records that end on their page. -/
theorem LedgerInv.bound (h : LedgerInv l) : ∀ i < cfg.maxPages,
    l.sys.module.fds.writeAddr i ≤ (l.sys.module.fds.pages.get i).pAddr + cfg.pageSize := by
  intro i hi
  have hbound := h.accounts.bound i hi
  unfold Fds.writeAddr
  omega

/-- **A call keeps the invariant**, and the flash. -/
theorem WriteCall.standInv {updates : Option (BitVec 32)} (h : WriteCall l.sys updates t) (hinv : StandInv l)
    (hledger : LedgerInv ⟨t, tokens⟩) :
    StandInv ⟨t, tokens⟩ ∧ Framed l.sys.module.fds t.module.fds := by
  -- The call itself writes nothing, so the pages still end where they did.
  have hends : ∀ {u : FdsSystem cfg sz}, CallKeeps l.sys u → u.stage ≠ .executing →
      ∀ i < cfg.maxPages, Ends u.module.fds i (u.module.fds.writeAddr i) := by
    intro u hkeeps hstage i hi
    have hold := hinv.ends (hkeeps.frame.quiet.stage ▸ hstage) i hi
    rw [hkeeps.frame.writeAddr]
    exact hold.congr (hkeeps.frame.quiet.fds.pAddr i) (hkeeps.frame.quiet.fds.flash ▸ .refl _ _ _)
  cases h with
  | refused t keeps ops =>
    refine ⟨⟨hledger, ?_, hends keeps, fun w ops' hstage hcons => ?_⟩, keeps.frame.quiet.fds⟩
    · show ∀ op ∈ t.ops.tail, op.Fresh
      rw [ops]
      exact hinv.fresh
    · have hold := hinv.runs w ops' (keeps.frame.quiet.stage ▸ hstage) (ops ▸ hcons)
      show UnderWay t.module.fds t.module.desc.pRecord w ∧
        WriteStores t.module.fds t.module.desc.pRecord w
      rw [keeps.desc]
      exact keeps.runs hold.1 hold.2
  | queued w t keeps ops fresh room replaces =>
    unfold queueStart at hledger ⊢
    split_ifs at hledger ⊢ with hstage
    · -- There is no other operation, so the write begins.
      have hidle : l.sys.stage = .idle := keeps.frame.quiet.stage ▸ hstage
      have hempty := hinv.ledger.idle.mp hidle
      rw [hempty, List.nil_append] at ops
      have htable := keeps.frame.quiet.fds.table hinv.ledger.accounts.table
      have hfirst := writeExecute_first htable (hends keeps (by rw [hstage]; decide)) room fresh.1
        fresh.2
      have hleaves : Leaves t.module.fds [] (queueBegin t) :=
        queueProcess_leaves (s := { t with began := liveHeaders t.module.fds }) ops hfirst
      refine ⟨⟨hledger, ?_, hleaves.ends, hleaves.runs⟩, ?_⟩
      · show ∀ op ∈ (queueBegin t).ops.tail, op.Fresh
        rw [hleaves.tail]
        exact fun op hop => absurd hop List.not_mem_nil
      · exact keeps.frame.quiet.fds.trans hleaves.frame
    -- The write waits behind the operation at the head, which goes on as before.
    · have hbusy : l.sys.ops ≠ [] := fun hempty =>
        hstage (keeps.frame.quiet.stage.trans (hinv.ledger.idle.mpr hempty))
      refine ⟨⟨hledger, ?_, hends keeps, fun w' ops' hexec hcons => ?_⟩, keeps.frame.quiet.fds⟩
      · show ∀ op ∈ t.ops.tail, op.Fresh
        rw [ops, List.tail_append_of_ne_nil hbusy]
        intro op hop
        rcases List.mem_append.mp hop with hop | hop
        · exact hinv.fresh op hop
        · rw [List.mem_singleton.mp hop]
          exact fresh
      · obtain ⟨op, rest, hs⟩ := List.exists_cons_of_ne_nil hbusy
        have hcons : t.ops = .write w' :: ops' := hcons
        rw [ops, hs, List.cons_append, List.cons.injEq] at hcons
        have hold := hinv.runs w' rest (keeps.frame.quiet.stage ▸ hexec) (by rw [hs, hcons.1])
        show UnderWay t.module.fds t.module.desc.pRecord w' ∧
          WriteStores t.module.fds t.module.desc.pRecord w'
        rw [keeps.desc]
        exact keeps.runs hold.1 hold.2

theorem Grows.framed {r s t : Fds cfg} {gone : BitVec 32 → Prop} (h : Grows r s gone)
    (hframe : Framed s t) : Grows r t gone := by
  have hsame := grows_of_eq hframe.flash hframe.pAddr gone
  refine ⟨fun i hi x hx => ?_, fun i hi p r hr => ?_⟩
  · obtain ⟨header, hmem, hsize⟩ := h.chain i hi x hx
    obtain ⟨header', hmem', hsize'⟩ := hsame.chain i hi _ hmem
    exact ⟨header', hmem', hsize'.trans hsize⟩
  · rcases h.stands i hi p r hr with hr | hgone
    · exact hsame.stands i hi p r hr
    · exact .inr hgone

/-- fstorage executes a store. -/
theorem WriteStores.pending {fds : Fds cfg} {p : ℕ} (h : WriteStores fds p w) :
    (∃ dest src, fds.pending = some (.store dest src)) ∧
      w.step ≠ .findRecord ∧ w.step ≠ .headerBegin := by
  cases h with
  | first hfirst hstep hends =>
    rw [hstep]
    exact ⟨⟨_, _, hfirst⟩, by decide, by decide⟩
  | words dest src hwords hbegun => exact ⟨⟨dest, src, hwords⟩, hbegun⟩
  | flag hflag hstep =>
    rw [hstep]
    exact ⟨⟨_, _, hflag⟩, by decide, by decide⟩

/-- The queue advances. -/
theorem StandInv.advance (hinv : StandInv l) (hstage : l.sys.stage = .reporting)
    (hledger : LedgerInv ⟨queueAdvance l.sys, l.tokens⟩) :
    StandInv ⟨queueAdvance l.sys, l.tokens⟩ ∧
      Framed l.sys.module.fds (queueAdvance l.sys).module.fds := by
  have hends := hinv.ends (by rw [hstage]; decide)
  have haccounts := hinv.ledger.accounts
  have hunfinished : l.sys.unfinished = l.sys.ops.tail := if_pos hstage
  rw [hunfinished] at haccounts
  unfold queueAdvance at hledger ⊢
  cases htail : l.sys.ops.tail with
  | nil =>
    rw [htail] at hledger
    exact ⟨⟨hledger, by simp, fun _ => hends, fun _ _ h => (by cases h)⟩, .refl _⟩
  | cons op ops =>
    rw [htail] at haccounts hledger
    obtain ⟨w, rfl⟩ := haccounts.head
    obtain ⟨hwaits, hoffset⟩ : (FdsOp.write w).Fresh :=
      hinv.fresh _ (by rw [htail]; exact List.mem_cons_self)
    obtain ⟨css, hall, -⟩ := haccounts.chunks
    have hpage : w.page < cfg.maxPages := by
      cases hall with
      | cons hop _ =>
        obtain ⟨w', hw', hpage, -⟩ := hop
        rw [FdsOp.write.inj hw']
        exact hpage
    have hroom : Room l.sys.module.fds w := by
      have hreserved := haccounts.reserved w.page hpage
      have hbound := haccounts.bound w.page hpage
      have hwords : FdsOp.wordsOn w.page (.write w) = w.header.lengthWords.toNat + 3 := if_pos rfl
      rw [owed_cons_op, hwords] at hreserved
      refine ⟨hpage, ?_⟩
      unfold Fds.writeAddr FdsHeader.size
      omega
    have hleaves : Leaves l.sys.module.fds ops (queueBegin { l.sys with ops := .write w :: ops }) :=
      queueProcess_leaves
        (s := { l.sys with ops := .write w :: ops, began := liveHeaders l.sys.module.fds }) rfl
        (writeExecute_first haccounts.table hends hroom hwaits hoffset)
    refine ⟨⟨hledger, fun op hop => ?_, hleaves.ends, hleaves.runs⟩, hleaves.frame⟩
    have hop : op ∈ ops := hleaves.tail ▸ hop
    exact hinv.fresh op (by rw [htail]; exact List.mem_cons_of_mem _ hop)

/-- **fstorage reports the end of its store**, of which any part is programmed. -/
theorem StandInv.reported {result : FdsRet} {fds : Fds cfg} {n : ℕ} (hinv : StandInv l)
    (hstage : l.sys.stage = .executing)
    (hfds : ∀ dest src, l.sys.module.fds.pending = some (.store dest src) →
      fds = { l.sys.module.fds with
        flash := l.sys.module.fds.flash.store dest (src.take n), pending := none })
    (hledger : LedgerInv ⟨queueProcess result (l.sys.setFds fds), l.tokens⟩) :
    StandInv ⟨queueProcess result (l.sys.setFds fds), l.tokens⟩ ∧
      Grows l.sys.module.fds (queueProcess result (l.sys.setFds fds)).module.fds
        l.sys.Replaces := by
  have haccounts := hinv.ledger.accounts
  have hunfinished : l.sys.unfinished = l.sys.ops := if_neg (by rw [hstage]; decide)
  rw [hunfinished] at haccounts
  cases hops : l.sys.ops with
  | nil =>
    rw [hinv.ledger.idle.mpr hops] at hstage
    cases hstage
  | cons op ops =>
    rw [hops] at haccounts
    obtain ⟨w, rfl⟩ := haccounts.head
    obtain ⟨css, hall, hqueue⟩ := haccounts.chunks
    obtain ⟨hway, hstores⟩ := hinv.runs w ops hstage hops
    obtain ⟨⟨dest, src, hpending⟩, hbegun⟩ := hstores.pending
    have hfds := hfds dest src hpending
    obtain ⟨hway', hgrows⟩ := hstores.after (t := fds) (n := n) hway haccounts.table
      hinv.ledger.bound hpending (by rw [hfds]) (by rw [hfds])
    cases hall with
    | cons hop hall =>
    rename_i cs css
    obtain ⟨w', hw', -, hw⟩ := hop
    obtain rfl := FdsOp.write.inj hw'
    have hleaves := queueProcess_leaves (s := l.sys.setFds fds) hops
      (UnderWay.writeExecute (m := (l.sys.setFds fds).module) hway' hbegun hqueue hw result)
    refine ⟨⟨hledger, fun op hop => ?_, hleaves.ends, hleaves.runs⟩, ?_⟩
    · have hop : op ∈ ops := hleaves.tail ▸ hop
      exact hinv.fresh op (by rw [hops]; exact hop)
    · refine Grows.framed ⟨hgrows.chain, fun i hi p r hr => ?_⟩ hleaves.frame
      exact (hgrows.stands i hi p r hr).imp_right fun ⟨hupdate, hid⟩ =>
        ⟨hstage, w, ops, hops, hupdate, hid.symm⟩

/-- **Every step** keeps the invariant, and the records. -/
theorem step_standInv {label : FdsLabel} (hinv : StandInv l) (hen : l.Enabled label)
    (hkept : AccountKept l label) : StandInv (l.step label) ∧
      Grows l.sys.module.fds (l.step label).sys.module.fds l.sys.Replaces := by
  have hledger := step_ledgerInv hinv.ledger hen hkept
  have hframed : ∀ {t : FdsSystem cfg sz}, Framed l.sys.module.fds t.module.fds →
      Grows l.sys.module.fds t.module.fds l.sys.Replaces := fun h =>
    grows_of_eq h.flash h.pAddr _
  by_cases hcall : label.IsCall
  · obtain ⟨hinv', hframe⟩ :=
      (step_writeCall hinv.ledger hen hkept hcall).standInv hinv hledger
    exact ⟨hinv', hframed hframe⟩
  · cases label with
    | advance =>
      obtain ⟨hinv', hframe⟩ := hinv.advance hen hledger
      exact ⟨hinv', hframed hframe⟩
    | flashDone =>
      -- All words of the store are programmed.
      obtain ⟨n, hn⟩ : ∃ n, ∀ dest src,
          l.sys.module.fds.pending = some (.store dest src) → src.length ≤ n := by
        cases hpending : l.sys.module.fds.pending with
        | none => exact ⟨0, fun _ _ h => (by cases h)⟩
        | some op =>
          cases op with
          | store dest src =>
            refine ⟨src.length, fun dest' src' h => ?_⟩
            injection h with h
            injection h with _ hsrc
            rw [hsrc]
          | erase pageAddr numWords => exact ⟨0, fun _ _ h => (by cases h)⟩
      have hreport : LedgerInv
          ⟨queueProcess fsSuccess (l.sys.setFds (flashDone l.sys.module.fds)), l.tokens⟩ := hledger
      refine StandInv.reported (n := n) hinv hen (fun dest src hpending => ?_) hreport
      rw [flashDone_of_pending hpending, List.take_of_length_le (hn dest src hpending)]
    | flashTimeout words =>
      have hreport : LedgerInv ⟨queueProcess fsErrOperationTimeout (l.sys.setFds
          { l.sys.module.fds with flash := flashCut l.sys.module.fds words, pending := none }),
            l.tokens⟩ := hledger
      refine StandInv.reported (n := words) hinv hen (fun dest src hpending => ?_) hreport
      unfold flashCut
      rw [hpending]
    | _ => exact absurd trivial hcall

theorem standInv_start (hready : l.Ready) (hends : ∀ i < cfg.maxPages,
    Ends l.sys.module.fds i (l.sys.module.fds.writeAddr i)) : StandInv l := by
  refine ⟨hready.ledgerInv, ?_, fun _ => hends, fun w ops hstage => ?_⟩
  · rw [hready.sys.ops]
    exact fun op hop => absurd hop List.not_mem_nil
  · rw [hready.sys.stage] at hstage
    cases hstage

theorem standInv_of_reachable (h : (standingMachine cfg sz).ReachableUnder AccountKept l) :
    StandInv l :=
  h.invariant (I := StandInv) (fun _ hstart => standInv_start hstart.1 hstart.2)
    fun _ _ hinv hen hkept => (step_standInv hinv hen hkept).1

/-- **The records stand** in every run that keeps the accounts, from pages that are erased behind
    their last record. -/
theorem undisturbed_of_reachable (h : (standingMachine cfg sz).ReachableUnder AccountKept l) :
    Undisturbed l := by
  have hinv := standInv_of_reachable h
  refine ⟨fun w ops dest src hstage hops hrecord hpending => ?_, fun label hen hkept =>
    (step_standInv hinv hen hkept).2.stands⟩
  obtain ⟨hway, hstores⟩ := hinv.runs w ops hstage hops
  cases hstores with
  | first hfirst hstep hends =>
    rw [hfirst] at hpending
    injection hpending with hpending
    injection hpending with hdest hsrc
    have hthree := w.header.three_le_size
    have hroom := hway.room.2
    rw [← hdest, ← hsrc, List.length_singleton]
    exact hends.erased.mono le_rfl (by omega)
  | words dest' src' hwords hbegun hlt hle hblank =>
    rw [hwords] at hpending
    injection hpending with hpending
    injection hpending with hdest hsrc
    rw [← hdest, ← hsrc]
    exact hblank
  | flag hflag hstep hupdate => exact absurd hstep (hrecord hupdate)

end Calls

/-! ## §6 Two writes and an update -/

/-- A write, an update of the first record whose chunk times out in the middle, and a write behind
    it. -/
theorem undisturbed_twoFiles :
    Undisturbed ((standingMachine threePages smallQueues).run twoFilesLedger
      [.write oneChunk, .flashDone, .flashDone, .flashDone, .flashDone, .advance,
        .update 1 oneChunk, .flashDone, .flashDone, .flashTimeout 0, .advance,
        .update 1 oneChunk, .flashDone, .flashDone, .flashDone, .flashDone, .flashDone, .advance,
        .write oneChunk, .flashDone]) :=
  undisturbed_of_reachable
    (.of_follows (.start ⟨twoFilesLedger_ready, by decide +kernel⟩) (by decide +kernel))

end NordicEsb
