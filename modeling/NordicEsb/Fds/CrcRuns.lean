import NordicEsb.Fds.CrcAgreement

/-!
# Runs of the Build with a CRC

Any calls, in any order, while fstorage completes its operations or lets them time out. The chunks
of a record are read from their queue when they are written, so the queue has to hold them then; and
the CRC is checked over as many words as the header says, so that has to be the length of the chunks.

- `CrcAgrees`: a record that is written passes its check, and can be opened
- `CrcKept`: the condition, on the state before a step
- `CrcInv`: the invariant, with that of the queue of chunks (`ChunkInv`)

**Main result**: `crcAgrees_of_reachable`. A record that is written with fewer words than were
reserved for it fails its check (`not_crcAgrees_reservedShort`).
-/

namespace NordicEsb

variable {cfg : FdsConfig} {sz : FdsQueueSizes}

/-! ## §1 The property -/

/-- **A record that is accepted**: what is in flash at `p` passes `crc_verify_success`, and
    `fds_record_open` of the record succeeds. -/
structure RecordAccepted (s : FdsSystem cfg sz) (w : FdsWriteOp) (cs : List FdsChunk) (p : ℕ) :
    Prop where
  header : fdsHeaderAt s.module.fds.flash p = w.header
  data : s.module.fds.flash.read (p + 3) w.header.lengthWords.toNat = chunkWords cs
  /-- The CRC of `write_enqueue`. -/
  crc : w.header.crc16 = recordCrc w.header cs
  verifies : crcVerifySuccess s.module.fds.flash w.header.crc16 w.header.lengthWords p = true
  opens : ∀ desc : FdsRecordDesc, desc.recordId = w.header.recordId → desc.pRecord = 0 →
    (fdsRecordOpenCrc desc s).1 = fdsSuccess ∧ (fdsRecordOpenCrc desc s).2.1.pRecord = p

/-- **The CRCs agree** when the event of a write is sent. -/
structure CrcAgrees (l : CrcLedger cfg sz) : Prop where
  /-- No write fails its check. -/
  verified : ∀ w ops e, l.ledger.sys.stage = .reporting → l.ledger.sys.ops = .write w :: ops →
    l.ledger.sys.events.getLast? = some e → e.result ≠ fdsErrCrcCheckFailed
  /-- A write that reports success has written the record with which it was accepted. -/
  written : ∀ w ops cs css e, l.ledger.sys.stage = .reporting →
    l.ledger.sys.ops = .write w :: ops → l.ledger.accepted = cs :: css →
      l.ledger.sys.events.getLast? = some e → e.result = fdsSuccess →
        ∃ p, RecordAccepted l.ledger.sys w cs p

/-- The write whose first word fstorage completes finds what it must. -/
def HeadFresh (s : Fds cfg) : List FdsOp → List (List FdsChunk) → Prop
  | .write w :: _, cs :: _ => w.step = .recordId → WritesFresh s s.flash w cs
  | _, _ => True

instance (s : Fds cfg) : ∀ ops css, Decidable (HeadFresh s ops css)
  | .write w :: _, cs :: _ =>
    (inferInstance : Decidable (w.step = .recordId → WritesFresh s s.flash w cs))
  | .write _ :: _, [] | [], _ | .delete _ :: _, _ | .gc :: _, _ =>
    (inferInstance : Decidable True)

/-- **The condition**: the queue of chunks holds what is taken from it, and a write that begins finds
    an erased page and has the length that its header says. -/
def CrcKept (l : CrcLedger cfg sz) : FdsCrcLabel → Prop
  | .fds label => ChunksFitIn l.ledger label ∧ (label = .flashDone →
      HeadFresh l.ledger.sys.module.fds l.ledger.sys.ops l.ledger.accepted)
  | .verifyCrcOnWrites _ => True

instance (l : CrcLedger cfg sz) : DecidablePred (CrcKept l)
  | .fds label =>
    (inferInstance : Decidable (ChunksFitIn l.ledger label ∧
      (label = .flashDone →
        HeadFresh l.ledger.sys.module.fds l.ledger.sys.ops l.ledger.accepted)))
  | .verifyCrcOnWrites _ => (inferInstance : Decidable True)

/-! ## §2 The invariant -/

/-- The CRC in the header is that of the chunks. -/
def FdsOp.Sealed : FdsOp → List FdsChunk → Prop
  | .write w, cs => w.header.isValid = true ∧ w.header.crc16 = recordCrc w.header cs
  | _, _ => True

/-- An operation that has not begun. -/
def FdsOp.Waits : FdsOp → Prop
  | .write w => w.Waits
  | _ => True

/-- What holds in every state: every record has its CRC, and the write at the head of the queue has
    stored what it has taken. -/
structure CrcInv (l : ChunkLedger cfg sz) : Prop where
  chunks : ChunkInv l
  placed : Placed l.sys.module.fds
  records : List.Forall₂ FdsOp.Sealed l.sys.ops l.accepted
  waits : ∀ op ∈ l.sys.ops.tail, op.Waits
  goes : ∀ w ops cs css, l.sys.stage = .executing → l.sys.ops = .write w :: ops →
    l.accepted = cs :: css → WriteGoes l.sys.module w cs
  verified : ∀ w ops e, l.sys.stage = .reporting → l.sys.ops = .write w :: ops →
    l.sys.events.getLast? = some e → e.result ≠ fdsErrCrcCheckFailed
  written : ∀ w ops cs css e, l.sys.stage = .reporting → l.sys.ops = .write w :: ops →
    l.accepted = cs :: css → l.sys.events.getLast? = some e → e.result = fdsSuccess →
      ∃ p, RecordIn l.sys.module.fds w cs p

section Queue

variable {l : ChunkLedger cfg sz} {s t u : FdsSystem cfg sz} {op : FdsOp} {ops : List FdsOp}
  {w : FdsWriteOp} {cs chunks : List FdsChunk} {css : List (List FdsChunk)} {p : ℕ}

/-- **A record in flash with its CRC** passes its check. -/
theorem RecordIn.verifies {f : Fds cfg} (h : RecordIn f w cs p)
    (hcrc : w.header.crc16 = recordCrc w.header cs) :
    crcVerifySuccess f.flash w.header.crc16 w.header.lengthWords p = true :=
  crcVerifySuccess_of_stored h.header h.data hcrc

/-- **It can be opened.** -/
theorem RecordIn.accepted (h : RecordIn s.module.fds w cs p) (htable : Table s.module.fds)
    (hcrc : w.header.crc16 = recordCrc w.header cs) : RecordAccepted s w cs p := by
  have hverifies := h.verifies hcrc
  refine ⟨h.header, h.data, hcrc, hverifies, fun desc hid hnull => ?_⟩
  obtain ⟨k, honly⟩ := h.only
  unfold fdsRecordOpenCrc
  rw [recordFindByDesc_null _ hnull, hid, honly.recordIdPages_eq htable]
  dsimp only [Option.map_some]
  rw [h.header, hverifies, if_neg (by decide)]
  exact ⟨rfl, rfl⟩

/-! ## §3 One step of the queue -/

/-- A write whose words so far are in flash. -/
structure WriteReady (m : FdsModule cfg sz) (w : FdsWriteOp) (cs : List FdsChunk) : Prop where
  takes : w.Takes cs
  stands : WriteAt m w cs
  begun : w.step ≠ .findRecord ∧ w.step ≠ .headerBegin
  flags : w.step = .flagDirty → w.update = true

theorem FdsWriteOp.Waits.step_ne_done (h : w.Waits) : w.step ≠ .done := by
  unfold FdsWriteOp.Waits at h
  rw [h]
  split <;> decide

/-- The queue of chunks is another one, if anything. -/
theorem chunkQueueSkip_fds (op : FdsOp) (m : FdsModule cfg sz) :
    (chunkQueueSkip op m).fds = m.fds := by
  unfold chunkQueueSkip
  split <;> rfl

/-- **What `queue_process` does** with the operation at the head of the queue. -/
theorem queueProcess_cases {result : FdsRet} {out : FdsRet × FdsOp × FdsModule cfg sz}
    (hops : s.ops = op :: ops) (hout : executeOp result op s.module = out) :
    (out.1 = fdsOpExecuting ∧ queueProcess result s =
      { s with module := out.2.2, ops := out.2.1 :: ops, stage := .executing }) ∨
    (out.1 ≠ fdsOpExecuting ∧ ∃ m : FdsModule cfg sz, m.fds = out.2.2.fds ∧
      queueProcess result s =
        { s with
          module := m
          ops := out.2.1 :: ops
          stage := .reporting
          events := s.events ++ [⟨out.2.1, if out.1 = fdsOpCompleted then fdsSuccess else out.1,
            s.began, liveHeaders out.2.2.fds⟩] }) := by
  unfold queueProcess
  rw [hops]
  dsimp only
  rw [hout]
  by_cases hexec : out.1 = fdsOpExecuting
  · rw [if_pos hexec]
    exact .inl ⟨hexec, rfl⟩
  · rw [if_neg hexec]
    refine .inr ⟨hexec, _, ?_, rfl⟩
    split
    · rfl
    · exact chunkQueueSkip_fds _ _

/-- **The check of the CRC** changes nothing when it succeeds. -/
theorem queueProcessCrc_eq {result : FdsRet} (verifyCrc : Bool)
    (hchecks : ∀ w ops, s.ops = .write w :: ops → result = fsSuccess → w.step = .done →
      crcVerifySuccess s.module.fds.flash w.header.crc16 w.header.lengthWords
        (s.module.fds.writeAddr w.page) = true) :
    queueProcessCrc verifyCrc result s = queueProcess result s := by
  unfold queueProcessCrc queueProcess
  cases hops : s.ops with
  | nil => rfl
  | cons op ops =>
    have hexecute : executeOpCrc verifyCrc result op s.module = executeOp result op s.module := by
      cases op with
      | write w =>
        unfold executeOpCrc executeOp writeExecuteCrc
        dsimp only
        rw [if_neg]
        rintro ⟨hprev, hstep, -, hfail⟩
        rw [hchecks w ops hops hprev hstep] at hfail
        cases hfail
      | delete op => rfl
      | gc => rfl
    dsimp only
    rw [hexecute]

/-- A write keeps its header. -/
theorem writeStep_header (w : FdsWriteOp) (m : FdsModule cfg sz) (addr : ℕ) :
    (writeStep w m addr).2.1.header = w.header := by
  unfold writeStep
  cases w.step with
  | chunks =>
    unfold recordWriteChunk
    dsimp only
    split <;> rfl
  | _ => rfl

theorem writeAdvance_header (w : FdsWriteOp) (m : FdsModule cfg sz) :
    (writeAdvance w m).2.1.header = w.header := by
  have hstep := writeStep_header w m
    ((m.fds.pages.get w.page).pAddr + (m.fds.pages.get w.page).writeOffset.toNat)
  unfold writeAdvance
  dsimp only
  split <;> exact hstep

theorem writeExecute_header (w : FdsWriteOp) (m : FdsModule cfg sz) (prevRet : FdsRet) :
    (writeExecute w m prevRet).2.1.header = w.header := by
  unfold writeExecute
  split_ifs
  · rfl
  · dsimp only
    cases recordFindByDesc m.fds { m.desc with pRecord := 0, recordId := w.recordToDelete } with
    | none => rfl
    | some found => exact writeAdvance_header w _
  · exact writeAdvance_header w m

/-- An operation keeps its CRC. -/
theorem executeOp_sealed {result : FdsRet} {m : FdsModule cfg sz} (h : op.Sealed cs) :
    (executeOp result op m).2.1.Sealed cs := by
  cases op with
  | write w =>
    show (writeExecute w m result).2.1.header.isValid = true ∧
      (writeExecute w m result).2.1.header.crc16 =
        recordCrc (writeExecute w m result).2.1.header cs
    rw [writeExecute_header]
    exact h
  | delete op => trivial
  | gc => trivial

/-- **One step of the operation at the head of the queue**: the check of the CRC changes nothing, and
    a write that is complete has its record in flash. -/
theorem queueProcess_crcInv {result : FdsRet} (hops : s.ops = op :: ops)
    (hchunk : ChunkInv ⟨queueProcess result s, cs :: css⟩) (hplaced : Placed s.module.fds)
    (hrecords : List.Forall₂ FdsOp.Sealed (op :: ops) (cs :: css))
    (hwaits : ∀ op ∈ ops, op.Waits)
    (hready : ∀ w, op = .write w → result = fsSuccess → w.Waits ∨ WriteReady s.module w cs) :
    CrcInv ⟨queueProcess result s, cs :: css⟩ ∧
      ∀ v, queueProcessCrc v result s = queueProcess result s := by
  obtain ⟨hsealed, hrest⟩ := List.forall₂_cons.mp hrecords
  -- At its last step a write has its record in flash.
  have hdone : ∀ w, op = .write w → result = fsSuccess → w.step = .done →
      RecordIn s.module.fds w cs (s.module.fds.writeAddr w.page) := by
    intro w hw hresult hstep
    rcases hready w hw hresult with h | h
    · exact absurd hstep h.step_ne_done
    · subst hw
      exact h.stands.recordIn hstep hplaced.table hsealed.1
  refine ⟨?_, fun v => queueProcessCrc_eq v fun w ops' hcons hresult hstep => ?_⟩
  · obtain ⟨out, hout⟩ : ∃ out, executeOp result op s.module = out := ⟨_, rfl⟩
    have hplaced' : Placed out.2.2.fds := hout ▸ executeOp_placed op result hplaced
    have hrecords' : List.Forall₂ FdsOp.Sealed (out.2.1 :: ops) (cs :: css) :=
      .cons (hout ▸ executeOp_sealed hsealed) hrest
    -- What is a write now has been one.
    have hwrite : ∀ w', out.2.1 = .write w' → ∃ w, op = .write w ∧
        out = ((writeExecute w s.module result).1, .write (writeExecute w s.module result).2.1,
          (writeExecute w s.module result).2.2) := by
      intro w' hw'
      by_cases hop : ∃ w, op = .write w
      · obtain ⟨w, rfl⟩ := hop
        exact ⟨w, rfl, hout.symm⟩
      · have hkind := (executeOp_chunkQueue result s.module fun w h => hop ⟨w, h⟩).2 w'
        rw [hout] at hkind
        exact absurd hw' hkind
    rcases queueProcess_cases hops hout with ⟨hexec, heq⟩ | ⟨hexec, m, hm, heq⟩
    · rw [heq] at hchunk ⊢
      refine ⟨hchunk, hplaced', hrecords', hwaits, fun w' ops' cs' css' hstage hcons hnoted => ?_,
        fun _ _ _ h => (by cases h), fun _ _ _ _ _ h => (by cases h)⟩
      have hstores := hchunk.stores w' ops' cs' css' hstage hcons hnoted
      obtain ⟨w, rfl, hexecute⟩ := hwrite w' (List.head_eq_of_cons_eq hcons)
      obtain rfl : cs = cs' := List.head_eq_of_cons_eq hnoted
      obtain rfl : (writeExecute w s.module result).2.1 = w' := by
        have hhead := List.head_eq_of_cons_eq hcons
        rw [hexecute] at hhead
        exact FdsOp.write.inj hhead
      rw [hexecute] at hexec hstores ⊢
      have hresult : result = fsSuccess := by
        by_contra hfail
        unfold writeExecute at hexec
        rw [if_pos hfail] at hexec
        cases hexec
      subst hresult
      rcases hready w rfl rfl with h | h
      · exact writeExecute_begins hplaced.table h hexec
      · exact writeExecute_goes h.takes h.stands h.begun h.flags hexec hstores
    · rw [heq] at hchunk ⊢
      refine ⟨hchunk, ?_, hrecords', hwaits, fun _ _ _ _ h => (by cases h),
        fun w' ops' e _ hcons hlast => ?_, fun w' ops' cs' css' e _ hcons hnoted hlast hresult => ?_⟩
      · show Placed m.fds
        rw [hm]
        exact hplaced'
      · obtain ⟨w, rfl, hexecute⟩ := hwrite w' (List.head_eq_of_cons_eq hcons)
        obtain rfl := Option.some.inj (List.getLast?_concat.symm.trans hlast)
        dsimp only
        split_ifs
        · decide
        · rw [hexecute]
          exact (writeExecute_ret w s.module result).1
      · obtain ⟨w, rfl, hexecute⟩ := hwrite w' (List.head_eq_of_cons_eq hcons)
        obtain rfl : cs = cs' := List.head_eq_of_cons_eq hnoted
        obtain rfl := Option.some.inj (List.getLast?_concat.symm.trans hlast)
        dsimp only at hresult
        have hcompleted : out.1 = fdsOpCompleted := by
          by_contra hfail
          rw [if_neg hfail] at hresult
          exact hexec hresult
        rw [hexecute] at hcompleted
        obtain ⟨hsuccess, hstep, hlaststep⟩ :=
          (writeExecute_ret w s.module result).2 hcompleted
        rw [hlaststep] at hexecute
        obtain rfl : w = w' := by
          have hhead := List.head_eq_of_cons_eq hcons
          rw [hexecute] at hhead
          exact FdsOp.write.inj hhead
        refine ⟨s.module.fds.writeAddr w.page, ?_⟩
        show RecordIn m.fds w cs _
        rw [hm, hexecute]
        exact (hdone w rfl hsuccess hstep).framed (offsetsUpdate_framed w s.module).fds
  · rw [hops] at hcons
    obtain rfl := List.head_eq_of_cons_eq hcons
    exact (hdone w rfl hresult hstep).verifies hsealed.2

/-! ## §4 Calls -/

/-- **A new write** has its CRC, and waits. -/
theorem newWriteOpCrc_sealed {record : FdsNewRecord} (hvalid : record.Valid)
    (update : Option (BitVec 32)) (page : ℕ) (lengthWords : BitVec 16) (recordId : BitVec 32) :
    (FdsOp.write (newWriteOpCrc record update page lengthWords recordId)).Sealed record.chunks ∧
      (newWriteOpCrc record update page lengthWords recordId).Waits := by
  have hkey : ∀ ic, (⟨tlWord record.key lengthWords, ic, recordId⟩ : FdsHeader).recordKey =
      record.key := fun ic => BitVec.extractLsb'_append_eq_right
  unfold newWriteOpCrc newWriteOp
  refine ⟨⟨?_, ?_⟩, rfl⟩
  · unfold FdsHeader.isValid
    dsimp only
    rw [FdsHeader.fileId_icWordCrc, hkey]
    simpa [FdsNewRecord.Valid] using hvalid
  · rw [FdsHeader.crc16_icWordCrc]
    exact recordCrc_icWordCrc record.fileId 0 _ _ _ _

/-- Another header with the same counters. -/
theorem FdsWriteOp.Takes.header (h : w.Takes cs) (header : FdsHeader) :
    ({ w with header := header } : FdsWriteOp).Takes cs :=
  ⟨h.le, h.offset, h.fresh, h.begun, h.written⟩

theorem newWriteOpCrc_takes {record : FdsNewRecord} {update : Option (BitVec 32)} {page : ℕ}
    {lengthWords : BitVec 16} {recordId : BitVec 32} (hfit : record.chunks.length < 2 ^ 8) :
    (newWriteOpCrc record update page lengthWords recordId).chunkCount.toNat =
        record.chunks.length ∧
      (newWriteOpCrc record update page lengthWords recordId).Takes record.chunks := by
  have htakes : (newWriteOp record update page lengthWords recordId).chunkCount.toNat =
        record.chunks.length ∧
      (newWriteOp record update page lengthWords recordId).Takes record.chunks :=
    newWriteOp_takes hfit
  unfold newWriteOpCrc
  exact ⟨htakes.1, htakes.2.header _⟩

/-- What a call leaves alone, with the descriptor of `write_execute`. -/
structure CallKeeps (s t : FdsSystem cfg sz) : Prop where
  frame : CallFrame s t
  desc : t.module.desc = s.module.desc

theorem CallKeeps.refl (s : FdsSystem cfg sz) : CallKeeps s s := ⟨.refl s, rfl⟩

theorem CallKeeps.trans (h : CallKeeps s t) (h' : CallKeeps t u) : CallKeeps s u :=
  ⟨h.frame.trans h'.frame, h'.desc.trans h.desc⟩

/-- **What a call does to the records**: a write that is put into the queue has its CRC. -/
inductive CrcCall (l : ChunkLedger cfg sz) : ChunkLedger cfg sz → Prop
  | refused (t : FdsSystem cfg sz) (keeps : CallKeeps l.sys t) (ops : t.ops = l.sys.ops) :
      CrcCall l ⟨t, l.accepted⟩
  | queued (op : FdsOp) (chunks : List FdsChunk) (t : FdsSystem cfg sz)
      (keeps : CallKeeps l.sys t) (ops : t.ops = l.sys.ops ++ [op]) (record : op.Sealed chunks)
      (waits : op.Waits) : CrcCall l ⟨queueStart t, l.accepted ++ [chunks]⟩

/-- What fstorage executes does not change with a call. -/
theorem CallKeeps.flashDone (h : CallKeeps s t) :
    t.module.flashDone.fds.flash = s.module.flashDone.fds.flash ∧
      (∀ i, (t.module.flashDone.fds.pages.get i).pAddr =
        (s.module.flashDone.fds.pages.get i).pAddr) ∧
      ∀ i, t.module.flashDone.fds.writeAddr i = s.module.flashDone.fds.writeAddr i := by
  have hpages : ∀ m : FdsModule cfg sz, m.flashDone.fds.pages = m.fds.pages := by
    intro m
    unfold FdsModule.flashDone NordicEsb.flashDone
    cases m.fds.pending <;> rfl
  refine ⟨?_, fun i => ?_, fun i => ?_⟩
  · unfold FdsModule.flashDone NordicEsb.flashDone
    rw [h.frame.quiet.pending]
    cases s.module.fds.pending with
    | none => exact h.frame.quiet.fds.flash
    | some op =>
      show op.exec t.module.fds.flash = op.exec s.module.fds.flash
      rw [h.frame.quiet.fds.flash]
  · rw [hpages, hpages]
    exact h.frame.quiet.fds.pAddr i
  · unfold Fds.writeAddr
    rw [hpages, hpages]
    exact h.frame.writeAddr i

/-- **A call leaves a write alone** that fstorage executes. -/
theorem WriteGoes.keeps (h : WriteGoes s.module w cs) (hkeeps : CallKeeps s t) :
    WriteGoes t.module w cs := by
  obtain ⟨hflash, haddr, hwrite⟩ := hkeeps.flashDone
  refine ⟨h.begun, h.flags, fun hstep => ?_, fun hstep => ?_⟩
  · obtain ⟨hrecord, hpending⟩ := h.first hstep
    refine ⟨fun hu => ?_, ?_⟩
    · obtain ⟨j, hj, header, hmem⟩ := hrecord hu
      refine ⟨j, hj, header, ?_⟩
      rwa [hkeeps.desc, hkeeps.frame.quiet.fds.flash, hkeeps.frame.quiet.fds.pAddr]
    · rw [hkeeps.frame.quiet.pending, hkeeps.frame.writeAddr]
      exact hpending
  · obtain ⟨f, hfresh, hrecord, hnow⟩ := h.next hstep
    refine ⟨f, hfresh.congr haddr (hwrite _) rfl rfl, fun hu => ?_, ?_⟩
    · obtain ⟨j, hj, header, hmem⟩ := hrecord hu
      refine ⟨j, hj, header, ?_⟩
      show (t.module.desc.pRecord, header) ∈ _
      rwa [hkeeps.desc, haddr]
    · show t.module.flashDone.fds.flash =
        w.flashAt f (t.module.flashDone.fds.writeAddr w.page) t.module.desc.pRecord cs
      rw [hflash, hwrite, hkeeps.desc]
      exact hnow

/-- **A call keeps the records.** -/
theorem CrcCall.crcInv {next : ChunkLedger cfg sz} (h : CrcCall l next) (hinv : CrcInv l)
    (hchunk : ChunkInv next) : CrcInv next := by
  cases h with
  -- the operations are those of before, and so is what they have written
  | refused t keeps ops =>
    have hstage := keeps.frame.quiet.stage
    refine ⟨hchunk, hinv.placed.framed keeps.frame.quiet.fds, ops ▸ hinv.records,
      ops ▸ hinv.waits, fun w ops' cs css hexec hcons hnoted => ?_,
      fun w ops' e hreport hcons hlast => ?_,
      fun w ops' cs css e hreport hcons hnoted hlast hresult => ?_⟩
    · exact (hinv.goes w ops' cs css (hstage ▸ hexec) (ops ▸ hcons) hnoted).keeps keeps
    · exact hinv.verified w ops' e (hstage ▸ hreport) (ops ▸ hcons)
        (keeps.frame.quiet.events ▸ hlast)
    · obtain ⟨p, hrecord⟩ := hinv.written w ops' cs css e (hstage ▸ hreport) (ops ▸ hcons) hnoted
        (keeps.frame.quiet.events ▸ hlast) hresult
      exact ⟨p, hrecord.framed keeps.frame.quiet.fds⟩
  | queued op chunks t keeps ops record waits =>
    have hstage := keeps.frame.quiet.stage
    have hplaced := hinv.placed.framed keeps.frame.quiet.fds
    have hlen := hinv.records.length_eq
    have hrecords : List.Forall₂ FdsOp.Sealed t.ops (l.accepted ++ [chunks]) := by
      rw [ops]
      exact List.rel_append hinv.records (.cons record .nil)
    by_cases hidle : t.stage = .idle
    · -- There is no other operation.
      have hnone := hinv.chunks.idle.mp (hstage ▸ hidle)
      have hnoted : l.accepted = [] := List.length_eq_zero_iff.mp (by rw [← hlen, hnone]; rfl)
      rw [hnone, List.nil_append] at ops
      rw [hnoted, List.nil_append] at hchunk hrecords ⊢
      rw [ops] at hrecords
      unfold queueStart at hchunk ⊢
      rw [if_pos hidle] at hchunk ⊢
      refine (queueProcess_crcInv (s := { t with began := liveHeaders t.module.fds }) ops hchunk
        hplaced hrecords (fun op hop => absurd hop List.not_mem_nil) fun w hw _ => ?_).1
      subst hw
      exact .inl waits
    -- There is one: the new operation waits, and the head stays what it was.
    · have hbusy : l.sys.ops ≠ [] := fun hempty =>
        hidle (hstage.trans (hinv.chunks.idle.mpr hempty))
      have hnoted : l.accepted ≠ [] := fun hempty => hbusy
        (List.length_eq_zero_iff.mp (by rw [hlen, hempty]; rfl))
      unfold queueStart at hchunk ⊢
      rw [if_neg hidle] at hchunk ⊢
      refine ⟨hchunk, hplaced, hrecords, fun op' hop => ?_,
        fun w ops' cs css hexec hcons hnext => ?_, fun w ops' e hreport hcons hlast => ?_,
        fun w ops' cs css e hreport hcons hnext hlast hresult => ?_⟩
      · rw [ops, List.tail_append_of_ne_nil hbusy] at hop
        rcases List.mem_append.mp hop with hop | hop
        · exact hinv.waits op' hop
        · rw [List.mem_singleton.mp hop]
          exact waits
      · obtain ⟨tail, hhead⟩ := head_of_concat hbusy (ops.symm.trans hcons)
        obtain ⟨notes, hfirst⟩ := head_of_concat hnoted hnext
        exact (hinv.goes w tail cs notes (hstage ▸ hexec) hhead hfirst).keeps keeps
      · obtain ⟨tail, hhead⟩ := head_of_concat hbusy (ops.symm.trans hcons)
        exact hinv.verified w tail e (hstage ▸ hreport) hhead (keeps.frame.quiet.events ▸ hlast)
      · obtain ⟨tail, hhead⟩ := head_of_concat hbusy (ops.symm.trans hcons)
        obtain ⟨notes, hfirst⟩ := head_of_concat hnoted hnext
        obtain ⟨p, hrecord⟩ := hinv.written w tail cs notes e (hstage ▸ hreport) hhead hfirst
          (keeps.frame.quiet.events ▸ hlast) hresult
        exact ⟨p, hrecord.framed keeps.frame.quiet.fds⟩

/-- `op_enqueue` changes the queues only. -/
theorem opEnqueue_keeps (h : opEnqueue op chunks s = some t) :
    CallKeeps s t ∧ t.ops = s.ops ++ [op] := by
  unfold opEnqueue at h
  split at h
  · obtain rfl := Option.some.inj h
    exact ⟨⟨⟨⟨.refl _, rfl, rfl, rfl, rfl, rfl⟩, fun _ => rfl⟩, rfl⟩, rfl⟩
  · cases h

/-- **A new operation begins** as in the other build: it has nothing to check yet. -/
theorem queueStartCrc_eq (v : Bool) (hidle : s.stage = .idle → s.ops = [])
    (hkeeps : CallKeeps s t) (hops : t.ops = s.ops ++ [op]) (hwaits : op.Waits) :
    queueStartCrc v t = queueStart t := by
  unfold queueStartCrc queueStart
  split_ifs with hstage
  · refine queueProcessCrc_eq v fun w ops hcons _ hstep => ?_
    have hcons : t.ops = .write w :: ops := hcons
    rw [hops, hidle (hkeeps.frame.quiet.stage ▸ hstage), List.nil_append] at hcons
    obtain rfl := List.head_eq_of_cons_eq hcons
    exact absurd hstep hwaits.step_ne_done
  · rfl

theorem modifyPage_callKeeps (s : FdsSystem cfg sz) (page : ℕ) (f : FdsPage → FdsPage)
    (haddr : ∀ p, (f p).pAddr = p.pAddr) (htype : ∀ p, (f p).pageType = p.pageType)
    (hoffset : ∀ p, (f p).writeOffset = p.writeOffset) :
    CallKeeps s (s.setFds (s.module.fds.modifyPage page f)) :=
  ⟨modifyPage_callFrame s page f haddr htype hoffset, rfl⟩

theorem setFds_callKeeps {fds : Fds cfg} (hframe : Framed s.module.fds fds)
    (hpending : fds.pending = s.module.fds.pending) (hpages : fds.pages = s.module.fds.pages) :
    CallKeeps s (s.setFds fds) := by
  refine ⟨⟨setFds_quiet hframe hpending, fun i => ?_⟩, rfl⟩
  show (fds.pages.get i).pAddr + (fds.pages.get i).writeOffset.toNat = _
  rw [hpages]
  rfl

/-- An operation without chunks. -/
theorem enqueueStartCrc_eq (v : Bool) (hidle : s.stage = .idle → s.ops = []) (hwaits : op.Waits) :
    enqueueStartCrc v op s = enqueueStart op s := by
  unfold enqueueStartCrc enqueueStart
  cases henqueue : opEnqueue op [] s with
  | none => rfl
  | some t =>
    obtain ⟨hkeeps, hops⟩ := opEnqueue_keeps henqueue
    dsimp only
    rw [queueStartCrc_eq v hidle hkeeps hops hwaits]

/-- An operation without chunks has no CRC. -/
theorem enqueueStart_crcCall (hsealed : op.Sealed []) (hwaits : op.Waits) :
    CrcCall l (l.call [] (enqueueStart op l.sys)) := by
  unfold enqueueStart
  cases henqueue : opEnqueue op [] l.sys with
  | none =>
    dsimp only
    rw [ChunkLedger.call_refused (by decide)]
    exact .refused _ (.refl _) rfl
  | some t =>
    obtain ⟨hkeeps, hops⟩ := opEnqueue_keeps henqueue
    dsimp only
    rw [ChunkLedger.call_success]
    exact .queued op [] t hkeeps hops hsealed hwaits

/-- What `write_enqueue` has done before it calls `op_enqueue`. -/
structure Reserved (s : FdsSystem cfg sz) (record : FdsNewRecord) (tok : Option FdsReserveToken)
    (page : ℕ) (t : FdsSystem cfg sz) : Prop where
  valid : record.Valid
  keeps : CallKeeps s t
  ops : t.ops = s.ops
  queue : t.module.chunkQueue = s.module.chunkQueue
  full : t.module.fds.fsFull = s.module.fds.fsFull
  /-- The page of the token, or one with room. -/
  page : match tok with
    | some tok => page = tok.page
    | none => page < cfg.maxPages ∧ ReservesOn s.module.fds (chunksSize record.chunks) page

/-- **What `write_enqueue` does**: it fails, or has its space. -/
theorem writeEnqueueCrc_cases (v : Bool) (record : FdsNewRecord) (update : Option (BitVec 32))
    (tok : Option FdsReserveToken) (s : FdsSystem cfg sz) :
    (∃ ret, ret ≠ fdsSuccess ∧ writeEnqueueCrc v record update tok s = (ret, s)) ∨
      ∃ page lengthWords t, Reserved s record tok page t ∧
        writeEnqueueCrc v record update tok s =
          writeEnqueueAtCrc v record update page lengthWords t := by
  unfold writeEnqueueCrc
  split_ifs with hinvalid
  · exact .inl ⟨_, by decide, rfl⟩
  · have hvalid : record.Valid := not_or.mp hinvalid
    cases tok with
    | some tok => exact .inr ⟨_, _, s, ⟨hvalid, .refl s, rfl, rfl, rfl, rfl⟩, rfl⟩
    | none =>
      dsimp only
      rcases writeSpaceReserve_cases s.module.fds (chunksLength record.chunks) with
        ⟨page, hspace, hsize, hreserve⟩ | ⟨ret, hret, hreserve⟩
      · rw [hreserve]
        dsimp only
        rw [if_neg (not_not.mpr rfl)]
        refine .inr ⟨page, _, _, ?_, rfl⟩
        refine ⟨hvalid, ?_, rfl, rfl, rfl, ?_⟩
        · exact ⟨reserve_callFrame s page _, rfl⟩
        · rw [chunksLength_eq] at hspace hsize
          exact ⟨List.mem_range.mp (List.mem_of_find?_eq_some hspace), hspace, hsize⟩
      · rw [hreserve]
        exact .inl ⟨ret, hret, if_pos hret⟩

/-- **`write_enqueue`.** -/
theorem writeEnqueueCrc_calls (v : Bool) {record : FdsNewRecord} {update : Option (BitVec 32)}
    {tok : Option FdsReserveToken} {label : FdsLabel} (hlabel : label.chunks = some record.chunks)
    (hidle : l.sys.stage = .idle → l.sys.ops = [])
    (hfits : ∀ page t, Reserved l.sys record tok page t → AcceptFits l.sys record update page) :
    ChunkCall l label (l.call record.chunks (writeEnqueueCrc v record update tok l.sys)) ∧
      CrcCall l (l.call record.chunks (writeEnqueueCrc v record update tok l.sys)) := by
  rcases writeEnqueueCrc_cases v record update tok l.sys with
    ⟨ret, hret, hcode⟩ | ⟨page, lengthWords, u, hreserved, hcode⟩
  · rw [hcode, ChunkLedger.call_refused hret]
    exact ⟨.refused _ (.refl _) rfl rfl, .refused _ (.refl _) rfl⟩
  · obtain ⟨u', hu'⟩ : ∃ u', u' = u.setFds
        { u.module.fds with latestRecId := u.module.fds.latestRecId + 1 } := ⟨_, rfl⟩
    obtain ⟨w, hw⟩ : ∃ w, w = newWriteOpCrc record update page lengthWords
        u'.module.fds.latestRecId := ⟨_, rfl⟩
    have hid : CallKeeps u u' := hu' ▸ setFds_callKeeps (.of_eq rfl rfl rfl rfl) rfl rfl
    have hkeeps := hreserved.keeps.trans hid
    have hops : u'.ops = l.sys.ops := by
      rw [hu']
      exact hreserved.ops
    obtain ⟨hsealed, hwaits⟩ := newWriteOpCrc_sealed hreserved.valid update page lengthWords
      u'.module.fds.latestRecId
    rw [← hw] at hsealed hwaits
    have hqueue : u'.module.chunkQueue = l.sys.module.chunkQueue := by
      rw [hu']
      exact hreserved.queue
    have hfull : u'.module.fds.fsFull = l.sys.module.fds.fsFull := by
      rw [hu']
      exact hreserved.full
    have htakes : record.chunks.length < 2 ^ 8 →
        w.chunkCount.toNat = record.chunks.length ∧ w.Takes record.chunks := by
      rw [hw]
      exact newWriteOpCrc_takes
    have hfields : w.step = (if update.isSome then .findRecord else .headerBegin) ∧ w.page = page ∧
        w.recordToDelete = update.getD 0 := by
      rw [hw]
      exact ⟨rfl, rfl, rfl⟩
    have hchunk := opEnqueue_chunkCall lengthWords hlabel hkeeps.frame hops hqueue hfull htakes
      hfields.1 hfields.2.1 hfields.2.2 (hfits page u hreserved)
    rw [hcode]
    unfold writeEnqueueAtCrc
    dsimp only
    rw [← hu', ← hw]
    cases henqueue : opEnqueue (.write w) record.chunks u' with
    | none =>
      rw [henqueue] at hchunk
      refine ⟨hchunk, ?_⟩
      dsimp only
      rw [ChunkLedger.call_refused (by decide)]
      refine .refused _ (hkeeps.trans ?_) hops
      exact modifyPage_callKeeps u' page _ (fun _ => rfl) (fun _ => rfl) fun _ => rfl
    | some t =>
      obtain ⟨hqueued, hopsQueued⟩ := opEnqueue_keeps henqueue
      rw [hops] at hopsQueued
      rw [henqueue] at hchunk
      -- The operation begins as in the other build.
      dsimp only
      rw [queueStartCrc_eq v hidle (hkeeps.trans hqueued) hopsQueued hwaits]
      refine ⟨hchunk, ?_⟩
      rw [ChunkLedger.call_success]
      exact .queued _ _ t (hkeeps.trans hqueued) hopsQueued hsealed hwaits

/-- **Every call.** -/
theorem stepCrc_calls (v : Bool) {label : FdsLabel} (hidle : l.sys.stage = .idle → l.sys.ops = [])
    (hcall : label.IsCall) (hfits : ChunksFitIn l label) :
    ChunkCall l label (l.stepCrc v label) ∧ CrcCall l (l.stepCrc v label) := by
  cases label with
  | reserve lengthWords =>
    refine ⟨step_chunkCall hcall hfits, ?_⟩
    show CrcCall l ⟨(fdsReserve lengthWords l.sys).2.2, l.accepted⟩
    unfold fdsReserve
    rcases writeSpaceReserve_cases l.sys.module.fds lengthWords with
      ⟨page, -, -, hreserve⟩ | ⟨ret, hret, hreserve⟩
    · rw [hreserve]
      refine .refused _ ⟨?_, rfl⟩ rfl
      exact reserve_callFrame l.sys page _
    · rw [hreserve]
      dsimp only
      rw [if_neg hret]
      exact .refused _ (.refl _) rfl
  | reserveCancel tok =>
    refine ⟨step_chunkCall hcall hfits, ?_⟩
    show CrcCall l ⟨(fdsReserveCancel tok l.sys).2.2, l.accepted⟩
    unfold fdsReserveCancel
    split_ifs
    · exact .refused _ (.refl _) rfl
    · refine .refused _ ?_ rfl
      exact modifyPage_callKeeps l.sys tok.page _ (fun _ => rfl) (fun _ => rfl) fun _ => rfl
    · exact .refused _ (.refl _) rfl
  | write record =>
    refine writeEnqueueCrc_calls v rfl hidle fun page t hreserved => ?_
    exact hfits hreserved.valid page hreserved.page.1 hreserved.page.2
  | writeReserved record tok =>
    refine writeEnqueueCrc_calls v rfl hidle fun page t hreserved => ?_
    have hpage : page = tok.page := hreserved.page
    rw [hpage]
    exact hfits hreserved.valid
  | update recordId record =>
    refine writeEnqueueCrc_calls v rfl hidle fun page t hreserved => ?_
    exact hfits hreserved.valid page hreserved.page.1 hreserved.page.2
  | delete recordId =>
    have heq : l.stepCrc v (.delete recordId) = l.step (.delete recordId) :=
      congrArg (l.call []) (enqueueStartCrc_eq v hidle trivial)
    rw [heq]
    exact ⟨step_chunkCall hcall hfits, enqueueStart_crcCall trivial trivial⟩
  | fileDelete fileId =>
    have heq : l.stepCrc v (.fileDelete fileId) = l.step (.fileDelete fileId) := by
      refine congrArg (l.call []) ?_
      unfold fdsFileDeleteCrc fdsFileDelete
      split_ifs
      · rfl
      · exact enqueueStartCrc_eq v hidle trivial
    rw [heq]
    refine ⟨step_chunkCall hcall hfits, ?_⟩
    show CrcCall l (l.call [] (fdsFileDelete fileId l.sys))
    unfold fdsFileDelete
    split_ifs
    · rw [ChunkLedger.call_refused (by decide)]
      exact .refused _ (.refl _) rfl
    · exact enqueueStart_crcCall trivial trivial
  | gc =>
    -- A collection that has stopped is resumed before the queue is started.
    have hgc : ∀ t, opEnqueue .gc [] l.sys = some t → ∃ u, CallKeeps l.sys u ∧
        u.ops = l.sys.ops ++ [.gc] ∧
          fdsGcCallCrc v l.sys = (fdsSuccess, queueStartCrc v u) ∧
            fdsGcCall l.sys = (fdsSuccess, queueStart u) := by
      intro t henqueue
      obtain ⟨hkeeps, hops⟩ := opEnqueue_keeps henqueue
      unfold fdsGcCallCrc fdsGcCall
      rw [henqueue]
      refine ⟨_, ?_, ?_, rfl, rfl⟩
      · split
        · exact hkeeps.trans (setFds_callKeeps (.of_eq rfl rfl rfl rfl) rfl rfl)
        · exact hkeeps
      · split <;> exact hops
    have hstep := step_chunkCall hcall hfits
    show ChunkCall l _ (l.call [] (fdsGcCallCrc v l.sys)) ∧ CrcCall l (l.call [] (fdsGcCallCrc v l.sys))
    have hcalled : ChunkCall l .gc (l.call [] (fdsGcCall l.sys)) := hstep
    cases henqueue : opEnqueue .gc [] l.sys with
    | none =>
      have hnone : fdsGcCallCrc v l.sys = (fdsErrNoSpaceInQueues, l.sys) := by
        unfold fdsGcCallCrc
        rw [henqueue]
      rw [hnone, ChunkLedger.call_refused (by decide)]
      exact ⟨.refused _ (.refl _) rfl rfl, .refused _ (.refl _) rfl⟩
    | some t =>
      obtain ⟨u, hkeeps, hops, hcrc, hplain⟩ := hgc t henqueue
      rw [hplain] at hcalled
      rw [hcrc, queueStartCrc_eq v hidle hkeeps hops trivial]
      refine ⟨hcalled, ?_⟩
      rw [ChunkLedger.call_success]
      exact .queued .gc [] u hkeeps hops trivial trivial
  | «open» desc =>
    show ChunkCall l _ ⟨(fdsRecordOpenCrc desc l.sys).2.2, l.accepted⟩ ∧
      CrcCall l ⟨(fdsRecordOpenCrc desc l.sys).2.2, l.accepted⟩
    unfold fdsRecordOpenCrc
    cases recordFindByDesc l.sys.module.fds desc with
    | none => exact ⟨.refused _ (.refl _) rfl rfl, .refused _ (.refl _) rfl⟩
    | some found =>
      dsimp only
      split_ifs
      · exact ⟨.refused _ (.refl _) rfl rfl, .refused _ (.refl _) rfl⟩
      · have hopen := modifyPage_callKeeps l.sys found.1
          (fun p => { p with recordsOpen := p.recordsOpen + 1 }) (fun _ => rfl) (fun _ => rfl)
          fun _ => rfl
        exact ⟨.refused _ hopen.frame rfl rfl, .refused _ hopen rfl⟩
  | close desc =>
    refine ⟨step_chunkCall hcall hfits, ?_⟩
    show CrcCall l ⟨(fdsRecordClose desc l.sys).2.2, l.accepted⟩
    unfold fdsRecordClose
    cases recordFindByDesc l.sys.module.fds desc with
    | none => exact .refused _ (.refl _) rfl
    | some found =>
      dsimp only
      split_ifs
      · refine .refused _ ?_ rfl
        exact modifyPage_callKeeps l.sys found.1 _ (fun _ => rfl) (fun _ => rfl) fun _ => rfl
      · exact .refused _ (.refl _) rfl
  | fsQueue full =>
    refine ⟨step_chunkCall hcall hfits, .refused _ ?_ rfl⟩
    exact setFds_callKeeps (.of_eq rfl rfl rfl rfl) rfl rfl
  | advance => exact absurd hcall id
  | flashDone => exact absurd hcall id
  | flashTimeout words => exact absurd hcall id

/-! ## §5 Runs -/

/-- **The queue advances**: the next operation begins. -/
theorem queueAdvanceCrc_crcInv (v : Bool) (hinv : CrcInv l)
    (hchunk : ChunkInv ⟨queueAdvance l.sys, l.accepted.tail⟩) :
    CrcInv ⟨queueAdvanceCrc v l.sys, l.accepted.tail⟩ := by
  have hrecords : List.Forall₂ FdsOp.Sealed l.sys.ops.tail l.accepted.tail := by
    have hall := hinv.records
    revert hall
    cases l.sys.ops <;> cases l.accepted <;> intro hall
    · exact .nil
    · cases hall
    · cases hall
    · exact (List.forall₂_cons.mp hall).2
  have hwaits := hinv.waits
  unfold queueAdvanceCrc
  unfold queueAdvance at hchunk
  generalize l.accepted.tail = notes at hchunk hrecords ⊢
  cases htail : l.sys.ops.tail with
  | nil =>
    rw [htail] at hchunk hrecords
    exact ⟨hchunk, hinv.placed, hrecords, fun op hop => absurd hop List.not_mem_nil,
      fun _ _ _ _ h => (by cases h), fun _ _ _ h => (by cases h),
      fun _ _ _ _ _ h => (by cases h)⟩
  | cons op ops =>
    rw [htail] at hchunk hrecords hwaits
    cases hrecords with
    | cons hsealed hrest =>
      obtain ⟨hnext, hsame⟩ := queueProcess_crcInv
        (s := { l.sys with ops := op :: ops, began := liveHeaders l.sys.module.fds }) rfl hchunk
        hinv.placed (.cons hsealed hrest) (fun op' hop => hwaits op' (List.mem_cons_of_mem _ hop))
        fun w hw _ => .inl (by
          subst hw
          exact hwaits _ List.mem_cons_self)
      dsimp only
      unfold queueBeginCrc
      dsimp only
      rw [hsame]
      exact hnext

/-- **fstorage reports the end of its operation.** -/
theorem queueProcessCrc_flash (v : Bool) {result : FdsRet} {fds : Fds cfg} (hinv : CrcInv l)
    (hstage : l.sys.stage = .executing) (hplaced : Placed fds)
    (hchunk : ChunkInv ⟨queueProcess result (l.sys.setFds fds), l.accepted⟩)
    (hat : ∀ w ops cs css, l.sys.ops = .write w :: ops → l.accepted = cs :: css →
      result = fsSuccess → WriteAt { l.sys.module with fds := fds } w cs) :
    CrcInv ⟨queueProcessCrc v result (l.sys.setFds fds), l.accepted⟩ := by
  have hrecords := hinv.records
  have htakes := hinv.chunks.takes
  have hwaits := hinv.waits
  have hgoes := hinv.goes
  cases hops : l.sys.ops with
  | nil =>
    rw [hinv.chunks.idle.mpr hops] at hstage
    cases hstage
  | cons op ops =>
    rw [hops] at hrecords htakes hwaits hat hgoes
    generalize l.accepted = notes at hrecords htakes hat hgoes hchunk ⊢
    cases hrecords with
    | cons hsealed hrest =>
      obtain ⟨htake, -⟩ := List.forall₂_cons.mp htakes
      obtain ⟨hnext, hsame⟩ := queueProcess_crcInv (s := l.sys.setFds fds) hops hchunk hplaced
        (.cons hsealed hrest) hwaits fun w hw hresult => .inr (by
          subst hw
          have hgo := hgoes w ops _ _ hstage rfl rfl
          exact ⟨htake, hat w ops _ _ rfl rfl hresult, hgo.begun, hgo.flags⟩)
      rw [hsame]
      exact hnext

/-- **Every step.** -/
theorem stepCrc_crcInv (v : Bool) {label : FdsLabel} (hinv : CrcInv l) (hen : label.Enabled l.sys)
    (hfits : ChunksFitIn l label)
    (hfresh : label = .flashDone → HeadFresh l.sys.module.fds l.sys.ops l.accepted) :
    CrcInv (l.stepCrc v label) := by
  by_cases hcall : label.IsCall
  · obtain ⟨hchunks, hrecords⟩ := stepCrc_calls v hinv.chunks.idle.mp hcall hfits
    exact hrecords.crcInv hinv (hchunks.chunkInv hinv.chunks)
  · have hchunk := (step_chunkInv hinv.chunks hen hfits).1
    cases label with
    | advance => exact queueAdvanceCrc_crcInv v hinv hchunk
    | flashDone =>
      refine queueProcessCrc_flash v hinv hen (flashDone_placed hinv.placed) hchunk ?_
      intro w ops cs css hops hnoted _
      refine (hinv.goes w ops cs css hen hops hnoted).writeAt fun hstep => ?_
      have hhead := hfresh rfl
      rw [hops, hnoted] at hhead
      exact hhead hstep
    | flashTimeout words =>
      refine queueProcessCrc_flash v hinv hen ?_ hchunk fun w ops cs css _ _ hresult => ?_
      · exact hinv.placed.congr rfl rfl hinv.placed.curPage
      · cases hresult
    | _ => exact absurd trivial hcall

theorem crcMachine_start (hready : l.sys.Ready) (hnone : l.accepted = []) : CrcInv l := by
  have hidle : l.sys.stage ≠ .executing ∧ l.sys.stage ≠ .reporting := by
    rw [hready.stage]
    decide
  refine ⟨chunkMachine_start hready hnone, ⟨hready.table, hready.curPage⟩, ?_, fun op hop => ?_,
    fun _ _ _ _ h => absurd h hidle.1, fun _ _ _ h => absurd h hidle.2,
    fun _ _ _ _ _ h => absurd h hidle.2⟩
  · rw [hready.ops, hnone]
    exact .nil
  · rw [hready.ops] at hop
    exact absurd hop List.not_mem_nil

/-- **The CRCs agree** in every run whose steps meet the condition. -/
theorem crcAgrees_of_reachable {l : CrcLedger cfg sz}
    (h : (crcMachine cfg sz).ReachableUnder CrcKept l) : CrcAgrees l := by
  have hinv : CrcInv l.ledger := h.invariant (I := fun l => CrcInv l.ledger)
    (fun _ hstart => crcMachine_start hstart.1 hstart.2) fun l label hinv hen hkept => by
      cases label with
      | fds label => exact stepCrc_crcInv l.verifyCrc hinv hen hkept.1 hkept.2
      | verifyCrcOnWrites enable => exact hinv
  refine ⟨hinv.verified, fun w ops cs css e hreport hops hnoted hlast hresult => ?_⟩
  obtain ⟨p, hrecord⟩ := hinv.written w ops cs css e hreport hops hnoted hlast hresult
  have hrecords := hinv.records
  rw [hops, hnoted] at hrecords
  obtain ⟨hsealed, -⟩ := List.forall₂_cons.mp hrecords
  exact ⟨p, hrecord.accepted hinv.placed.table hsealed.2⟩

end Queue

/-! ## §6 A record shorter than its reservation -/

/-- The module with two records on its first page, before the first call. -/
def twoFilesCrc (verifyCrc : Bool) : CrcLedger threePages smallQueues :=
  ⟨twoFilesChunks, verifyCrc⟩

/-- The update of a record, with its CRC verified at the end. -/
def recordUpdatedCrc : CrcLedger threePages smallQueues :=
  (crcMachine threePages smallQueues).run (twoFilesCrc true)
    [.fds (.update 1 oneChunk), .fds .flashDone, .fds .flashDone, .fds .flashDone, .fds .flashDone,
      .fds .flashDone]

theorem crcAgrees_recordUpdatedCrc : CrcAgrees recordUpdatedCrc :=
  crcAgrees_of_reachable (.of_follows (.start ⟨twoFilesSystem_ready, rfl⟩) (by decide +kernel))

/-- One word is written where two have been reserved. -/
def writtenShort : CrcLedger threePages smallQueues :=
  (crcMachine threePages smallQueues).run (twoFilesCrc false)
    [.fds (.reserve 2), .fds (.writeReserved oneChunk ⟨0, 2⟩), .fds .flashDone, .fds .flashDone,
      .fds .flashDone, .fds .flashDone]

/-- **A record shorter than its reservation** is written, and cannot be opened: the header has the
    length that was reserved, so its CRC is verified over a word that is not of the record. -/
theorem not_crcAgrees_reservedShort :
    ¬ ∀ (cfg : FdsConfig) (sz : FdsQueueSizes) (l : CrcLedger cfg sz),
      (crcMachine cfg sz).Reachable l → CrcAgrees l := by
  intro hall
  obtain ⟨l, hl⟩ : ∃ l, l = writtenShort := ⟨_, rfl⟩
  have hagrees : CrcAgrees l := hall threePages smallQueues l
    (hl ▸ .of_follows (.start ⟨twoFilesSystem_ready, rfl⟩) (by decide +kernel))
  obtain ⟨w, hw⟩ : ∃ w : FdsWriteOp, w = { newWriteOpCrc oneChunk none 0 2 3 with
    step := .done, chunkOffset := 4, chunkCount := 0 } := ⟨_, rfl⟩
  obtain ⟨p, hrecord⟩ : ∃ p, RecordAccepted l.ledger.sys w oneChunk.chunks p := by
    obtain ⟨e, hlast, hresult⟩ : ∃ e, l.ledger.sys.events.getLast? = some e ∧
        e.result = fdsSuccess := by
      refine ⟨⟨.write w, fdsSuccess, liveHeaders twoFilesMounted,
        liveHeaders twoFilesMounted ++ [(threePages.pageAddr 0 + 10, w.header)]⟩, ?_, rfl⟩
      rw [hl, hw]
      decide +kernel
    refine hagrees.written w [] oneChunk.chunks [] e ?_ ?_ ?_ hlast hresult
    · rw [hl]
      decide +kernel
    · rw [hl, hw]
      decide +kernel
    · rw [hl]
      decide +kernel
  have hopens := (hrecord.opens ⟨3, 0, 0, false⟩ (by rw [hw]; rfl) rfl).1
  rw [hl] at hopens
  exact absurd hopens (by decide +kernel)

end NordicEsb
