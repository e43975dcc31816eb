import NordicEsb.Link.Model

/-!
# Exactly-Once, In-Order Delivery

Without a flush, and with every payload wanting an acknowledgment, the receiver is never more
than one payload ahead of the acknowledgments: what it stored is what was acknowledged, or that
and the head of the transmitter's queue. PIDs of successive payloads on a pipe differ, so a
retransmission is told from the next payload whatever the CRC is.

**Main result** (`exactly_once_in_order`): the payloads read at the receiver and those waiting
in its RX FIFO are a prefix of the accepted payloads, and include the acknowledged ones.
-/

namespace NordicEsb

/-! ## §1 Numbered payloads -/

/-- The accepted payloads with their numbers. -/
def numbered (l : List NrfEsbPayload) : List (ℕ × NrfEsbPayload) := l.zipIdx.map Prod.swap

@[simp] theorem numbered_nil : numbered [] = [] := rfl

theorem numbered_append (l : List NrfEsbPayload) (p : NrfEsbPayload) :
    numbered (l ++ [p]) = numbered l ++ [(l.length, p)] := by
  simp [numbered, List.zipIdx_append]

theorem numbered_map_snd (l : List NrfEsbPayload) : (numbered l).map Prod.snd = l := by
  unfold numbered
  rw [List.map_map]
  exact List.zipIdx_map_fst 0 l

namespace Link

variable {crcOf : AirPacket → UInt16} {cfg : NrfEsbConfig} {l : Link}

/-! ## §2 The invariant of reliable use -/

/-- No flush, and every payload wants an acknowledgment. -/
def ReliableUse (_ : Link) : LinkAction → Prop
  | .write p => p.noack = 0
  | .flushTx => False
  | _ => True

instance (l : Link) : DecidablePred (ReliableUse l)
  | .write p => (inferInstance : Decidable (p.noack = 0))
  | .flushTx => (inferInstance : Decidable False)
  | .startTx | .read _ | .txDone _ | .ackWindow _ | .ackSent => (inferInstance : Decidable True)

/-- The acknowledged payloads. -/
def ackedPayloads (l : Link) : List (ℕ × NrfEsbPayload) := l.acked.map Acked.payload

/-- **Transmitter and receiver are in step.** -/
structure InStep (l : Link) : Prop where
  /-- A payload is acknowledged or waits in the queue. -/
  accounted : l.ackedPayloads ++ l.ptx.queue = numbered l.ptx.accepted
  noack : ∀ p ∈ l.ptx.accepted, p.noack = 0
  /-- The receiver is at most the head of the queue ahead. -/
  stored : l.stored = l.ackedPayloads ∨
    ∃ x q, l.ptx.queue = x :: q ∧ l.stored = l.ackedPayloads ++ [x]
  /-- A transaction sends the head of the queue and wants its acknowledgment. -/
  head : l.ptx.esb.mainstate ≠ .idle →
    l.ptx.queue ≠ [] ∧ l.ptx.queue.head? = l.ptx.onAir ∧ l.ptx.esb.mainstate ≠ .ptxTx

theorem inStep_fresh (h : Fresh cfg l) : InStep l := by
  obtain ⟨_, _, _, _, _, _, _, rfl⟩ := h
  refine ⟨by simp [ackedPayloads, TxTrace.start], by simp [TxTrace.start], .inl rfl, ?_⟩
  intro hbusy
  exact absurd rfl hbusy

/-- **The next payload of a pipe is not taken for a retransmission**: the receiver remembers
    another PID, or nothing. -/
theorem InStep.pipeRecord_ne (h : InStep l) (hbase : Base crcOf cfg l) {x : ℕ × NrfEsbPayload}
    {q : List (ℕ × NrfEsbPayload)} (hq : l.ptx.queue = x :: q) :
    pipeRecord crcOf cfg l.ackedPayloads x.2.pipe ≠ recordOf crcOf cfg x.2 := by
  have hsplit : l.ptx.accepted = l.ackedPayloads.map Prod.snd ++ x.2 :: q.map Prod.snd := by
    rw [← numbered_map_snd l.ptx.accepted, ← h.accounted, hq]
    simp
  have hmem : x.2 ∈ l.ptx.accepted := by rw [hsplit]; simp
  have hpipe : x.2.pipe.toNat < nrfEsbPipeCount := by
    have := (hbase.valid x.2 hmem).1
    simp only [nrfEsbPipeCount]
    omega
  have hxpid := hbase.ledger.pidsCount _ _ _ hsplit hpipe
  intro heq
  rcases pipeRecord_cases crcOf cfg l.ackedPayloads x.2.pipe with
    ⟨l₁, y, l₂, hA, hy, hl₂, hrec⟩ | ⟨hnone, hrec⟩
  · -- the last payload of the pipe has the PID before
    have hpid : y.2.pid = x.2.pid := by
      rw [hrec] at heq
      exact congrArg Prod.fst heq
    have hsplit' : l.ptx.accepted =
        l₁.map Prod.snd ++ y.2 :: (l₂.map Prod.snd ++ x.2 :: q.map Prod.snd) := by
      rw [hsplit, hA]
      simp
    have hypid := hbase.ledger.pidsCount _ _ _ hsplit' (hy ▸ hpipe)
    have hzero : countOn x.2.pipe (l₂.map Prod.snd) = 0 := by
      rw [countOn, List.countP_eq_zero]
      intro p hp
      obtain ⟨z, hz, rfl⟩ := List.mem_map.mp hp
      simpa using hl₂ z hz
    rw [hA, List.map_append, List.map_cons, countOn_append, countOn_cons, if_pos hy, hzero] at hxpid
    rw [hpid, hy] at hypid
    omega
  · -- nothing was stored for the pipe, and PIDs start with 1
    have hzero : countOn x.2.pipe (l.ackedPayloads.map Prod.snd) = 0 := by
      rw [countOn, List.countP_eq_zero]
      intro p hp
      obtain ⟨z, hz, rfl⟩ := List.mem_map.mp hp
      simpa using hnone z hz
    rw [hrec] at heq
    have hpid : x.2.pid = 0 := (congrArg Prod.fst heq).symm
    rw [hpid, hzero] at hxpid
    exact absurd hxpid (by decide)

/-- What the receiver remembers while it is ahead. -/
theorem pipeRecord_ahead (A : List (ℕ × NrfEsbPayload)) (x : ℕ × NrfEsbPayload) :
    pipeRecord crcOf cfg (A ++ [x]) x.2.pipe = recordOf crcOf cfg x.2 := by
  rw [pipeRecord_append, if_pos rfl]

/-! ## §3 Every step keeps it -/

/-- A transaction that starts with a payload wanting an acknowledgment opens a window. -/
theorem head_of_starts {t : PtxTrace} {c : EsbCall} (hrun : (t.step c).Running)
    (hledger : (t.step c).Ledger) (hdpl : t.esb.configLocal.protocol = .esbDpl)
    (hnoack : ∀ p ∈ (t.step c).accepted, p.noack = 0) (h : PtxTrace.Starts t c) :
    (t.step c).queue ≠ [] ∧ (t.step c).queue.head? = (t.step c).onAir ∧
      (t.step c).esb.mainstate ≠ .ptxTx := by
  have hne := PtxTrace.queue_ne_nil_of_starts hrun.fifo h
  refine ⟨hne, h.onAir.symm, ?_⟩
  obtain ⟨x, hx⟩ := Option.ne_none_iff_exists'.mp (mt List.head?_eq_none_iff.mp hne)
  obtain ⟨s, hesb, hcfg⟩ := h.esb
  have hhead := head_of_represents hrun.fifo hx
  rw [hesb, startTxTransaction_txFifo] at hhead
  have hzero : x.2.noack = 0 :=
    hnoack x.2 (List.mem_of_getElem? (hledger.queue x (List.mem_of_mem_head? hx)))
  have hwants : wantsAck s.configLocal s.txFifo.head = true := by
    simp [wantsAck, hcfg, hdpl, hhead, hzero]
  have hmain : (startTxTransaction s).mainstate =
      if wantsAck s.configLocal s.txFifo.head then .ptxTxAck else .ptxTx := rfl
  rw [hesb, hmain, hwants]
  simp

/-- A call or a radio event that leaves the acknowledged payloads alone: the queue may grow by
    an accepted payload. -/
theorem InStep.ptx_step {c : EsbCall} {ack : Option AirPacket} {prx : Esb}
    {stored : List (ℕ × NrfEsbPayload)} (h : InStep l) (hbase : Base crcOf cfg l)
    (hen : l.ptx.Enabled c)
    (hcases : PtxTrace.Rests l.ptx c ∨ PtxTrace.Starts l.ptx c ∨ PtxTrace.Continues l.ptx c)
    (hqueue : ((l.ptx.step c).queue = l.ptx.queue ∧ (l.ptx.step c).accepted = l.ptx.accepted) ∨
      ∃ p, p.noack = 0 ∧ (l.ptx.step c).queue = l.ptx.queue ++ [(l.ptx.accepted.length, p)] ∧
        (l.ptx.step c).accepted = l.ptx.accepted ++ [p])
    (hstored : stored = l.ackedPayloads ∨
      ∃ x q, l.ptx.queue = x :: q ∧ stored = l.ackedPayloads ++ [x]) :
    InStep { l with ptx := l.ptx.step c, prx := prx, ackOnAir := ack, stored := stored } := by
  have hrun := PtxTrace.running_step hbase.running hen
  have hledger := PtxTrace.ledger_step hbase.ledger hen
  have hdpl : l.ptx.esb.configLocal.protocol = .esbDpl := hbase.config ▸ hbase.dpl
  have hnoack : ∀ p ∈ (l.ptx.step c).accepted, p.noack = 0 := by
    intro p hp
    rcases hqueue with ⟨-, ha⟩ | ⟨q, hq0, -, ha⟩
    · exact h.noack p (ha ▸ hp)
    · rw [ha] at hp
      rcases List.mem_append.mp hp with hp | hp
      · exact h.noack p hp
      · rwa [List.mem_singleton.mp hp]
  refine ⟨?_, hnoack, ?_, ?_⟩
  · change l.ackedPayloads ++ (l.ptx.step c).queue = numbered (l.ptx.step c).accepted
    rcases hqueue with ⟨hq, ha⟩ | ⟨p, -, hq, ha⟩
    · rw [hq, ha, h.accounted]
    · rw [hq, ha, numbered_append, ← List.append_assoc, h.accounted]
  · rcases hstored with hs | ⟨x, q, hq, hs⟩
    · exact .inl hs
    · right
      rcases hqueue with ⟨hq', -⟩ | ⟨p, -, hq', -⟩
      · exact ⟨x, q, hq'.trans hq, hs⟩
      · exact ⟨x, q ++ [(l.ptx.accepted.length, p)], by rw [hq', hq]; rfl, hs⟩
  · intro hbusy
    rcases hcases with hrests | hstarts | hcont
    · exact absurd hrests.idle hbusy
    · exact head_of_starts hrun hledger hdpl hnoack hstarts
    · obtain ⟨hne, hhead, hwants⟩ := h.head (hcont.busy hbusy)
      refine ⟨?_, ?_, hcont.wantsAck hwants⟩
      · rcases hqueue with ⟨hq, -⟩ | ⟨p, -, hq, -⟩
        · exact hq ▸ hne
        · simp [hq]
      · change (l.ptx.step c).queue.head? = (l.ptx.step c).onAir
        rw [hcont.onAir, ← hhead]
        rcases hqueue with ⟨hq, -⟩ | ⟨p, -, hq, -⟩
        · rw [hq]
        · rw [hq, List.head?_append_of_ne_nil _ hne]

/-- A write appends its payload if it is accepted. -/
theorem InStep.write (h : InStep l) (hbase : Base crcOf cfg l) {p : NrfEsbPayload}
    (hnoack : p.noack = 0) : InStep (l.step crcOf (.write p)) := by
  refine h.ptx_step (c := .writePayload (some p)) hbase trivial
    (PtxTrace.step_cases hbase.running.handler trivial) ?_ h.stored
  by_cases hok : (l.ptx.esb.call (.writePayload (some p))).1 = .success
  · have heff : txEffect l.ptx.esb (.writePayload (some p)) = .append := if_pos hok
    refine .inr ⟨writtenPayload l.ptx.esb (.writePayload (some p)), hnoack, ?_, ?_⟩
    · simp only [PtxTrace.step, TxTrace.step, heff, QueueOp.onList]
    · simp only [PtxTrace.step, TxTrace.step, heff, if_true]
  · rw [PtxTrace.step_of_rejected hok]
    exact .inl ⟨rfl, rfl⟩

theorem InStep.startTx (h : InStep l) (hbase : Base crcOf cfg l) :
    InStep (l.step crcOf .startTx) := by
  refine h.ptx_step (c := .startTx) hbase trivial
    (PtxTrace.step_cases hbase.running.handler trivial) (.inl ?_) h.stored
  by_cases hok : (l.ptx.esb.call .startTx).1 = .success
  · have heff : txEffect l.ptx.esb .startTx = .keep := if_pos hok
    simp [PtxTrace.step, TxTrace.step, heff, QueueOp.onList]
  · rw [PtxTrace.step_of_rejected hok]
    exact ⟨rfl, rfl⟩

/-- What is stored once the head of the queue arrived. -/
theorem InStep.storedAfter_cases (h : InStep l) (hbase : Base crcOf cfg l)
    {x : ℕ × NrfEsbPayload} {q : List (ℕ × NrfEsbPayload)} (hq : l.ptx.queue = x :: q)
    (hpipe : x.2.pipe.toNat < 8) (hpid : x.2.pid.toNat < 4) :
    storedAfter crcOf cfg l x = l.ackedPayloads ∨
      storedAfter crcOf cfg l x = l.ackedPayloads ++ [x] := by
  rcases h.stored with hs | ⟨x', q', hq', hs⟩
  · unfold storedAfter
    split
    · exact .inr (by rw [hs])
    · exact .inl hs
  · -- the receiver has it already, and takes it for a retransmission
    obtain rfl : x = x' := by
      rw [hq] at hq'
      exact (List.cons.inj hq').1
    have hre := (hbase.retransmitPayload_iff hpipe hpid).mpr (hs ▸ pipeRecord_ahead _ _)
    right
    unfold storedAfter storesRx
    rw [hre, hs]
    simp

theorem accepted_step_radioIrq (t : PtxTrace) (ev : RadioEvent) :
    (t.step (.radioIrq ev)).accepted = t.accepted := by
  have happ : txEffect t.esb (.radioIrq ev) ≠ .append := by
    intro heff
    obtain ⟨p, hp, -⟩ := txEffect_eq_append heff
    cases hp
  exact if_neg happ

/-- The end of an attempt: the receiver may get ahead. -/
theorem InStep.txDone (h : InStep l) (hbase : Base crcOf cfg l) {delivered : Bool}
    (hen : l.Enabled (.txDone delivered)) : InStep (l.step crcOf (.txDone delivered)) := by
  have hbusy : l.ptx.esb.mainstate ≠ .idle := by
    rcases hen with hm | hm <;> simp [hm]
  obtain ⟨hne, hhead, hwants⟩ := h.head hbusy
  have htx : l.ptx.esb.mainstate = .ptxTxAck := hen.resolve_left hwants
  obtain ⟨x, q, hq⟩ := List.exists_cons_of_ne_nil hne
  obtain ⟨x', hx', hair, hpipe, hlen, hpid⟩ := hbase.airPacket_eq hbusy
  obtain rfl : x = x' := by
    rw [hq, hx'] at hhead
    simpa using hhead
  have hqueue : (l.ptx.step (.radioIrq .silent)).queue = l.ptx.queue ∧
      PtxTrace.Continues l.ptx (.radioIrq .silent) := by
    rcases PtxTrace.step_radioIrq_cases .silent hbase.running.handler hbusy with
      ⟨hdone, -⟩ | ⟨-, hqueue, hcont⟩
    · have hh : (RadioEvent.silent.latch l.ptx.esb).onRadioDisabled = some .tx := by
        rw [latch_onRadioDisabled]
        simpa [TxHandlerMatches, htx] using hbase.running.handler
      simp only [PtxTrace.completedBy, completesTx, hh, Bool.and_false] at hdone
      cases hdone
    · exact ⟨hqueue, hcont⟩
  refine h.ptx_step hbase hbusy (.inr (.inr hqueue.2))
    (.inl ⟨hqueue.1, accepted_step_radioIrq _ _⟩) ?_
  rw [show (if l.arrives delivered && storesRx ((l.incoming crcOf).latch l.prx) then
      l.stored ++ l.ptx.onAir.toList else l.stored) =
    if l.arrives delivered then storedAfter crcOf cfg l x else l.stored by
      rw [← storesRx_incoming hx' hair]
      cases l.arrives delivered <;> simp]
  split
  · rcases h.storedAfter_cases hbase hq hpipe hpid with hs | hs
    · exact .inl hs
    · exact .inr ⟨x, q, hq, hs⟩
  · exact h.stored

/-- The end of a window: an acknowledgment finds the receiver ahead, and catches up. -/
theorem InStep.ackWindow (h : InStep l) (hbase : Base crcOf cfg l) {received : Bool}
    (hen : l.Enabled (.ackWindow received)) :
    InStep (l.step crcOf (.ackWindow received)) := by
  have hmain : l.ptx.esb.mainstate = .ptxRxAck := hen
  have hbusy : l.ptx.esb.mainstate ≠ .idle := by simp [hmain]
  change InStep (l.ackWindow crcOf received)
  unfold Link.ackWindow
  rcases PtxTrace.step_radioIrq_cases (l.ackEvent crcOf received) hbase.running.handler hbusy with
    ⟨hdone, hqueue, hcases⟩ | ⟨hdone, hqueue, hcont⟩
  · obtain ⟨hne, hhead, hwants⟩ := h.head hbusy
    obtain ⟨x, q, hq⟩ := List.exists_cons_of_ne_nil hne
    obtain ⟨-, x', hx', hrec⟩ := hbase.ack (ackOnAir_of_completedBy hbase.running hen hdone)
    obtain rfl : x = x' := by
      rw [hq, hx'] at hhead
      simpa using hhead
    -- the receiver remembers the head, so it is ahead
    have hstored : l.stored = l.ackedPayloads ++ [x] := by
      rcases h.stored with hs | ⟨y, q', hq', hs⟩
      · exact absurd (hs ▸ hrec) (h.pipeRecord_ne hbase hq)
      · rw [hq] at hq'
        rw [hs, (List.cons.inj hq').1]
    have hrun := PtxTrace.running_step (c := .radioIrq (l.ackEvent crcOf received))
      hbase.running hbusy
    have hledger := PtxTrace.ledger_step (c := .radioIrq (l.ackEvent crcOf received))
      hbase.ledger hbusy
    have hdpl : l.ptx.esb.configLocal.protocol = .esbDpl := hbase.config ▸ hbase.dpl
    have haccepted := accepted_step_radioIrq l.ptx (l.ackEvent crcOf received)
    have hnoack : ∀ p ∈ (l.ptx.step (.radioIrq (l.ackEvent crcOf received))).accepted,
        p.noack = 0 := haccepted ▸ h.noack
    rw [hdone, if_pos rfl, hx']
    refine ⟨?_, hnoack, .inl ?_, fun hb => ?_⟩
    · change List.map Acked.payload (l.acked ++ [⟨x, l.stored⟩]) ++
        (l.ptx.step (.radioIrq (l.ackEvent crcOf received))).queue = numbered _
      rw [haccepted, ← h.accounted, hqueue, hq]
      simp [ackedPayloads]
    · change l.stored = List.map Acked.payload (l.acked ++ [⟨x, l.stored⟩])
      rw [hstored]
      simp [ackedPayloads]
    · rcases hcases with hrests | hstarts
      · exact absurd hrests.idle hb
      · exact head_of_starts hrun hledger hdpl hnoack hstarts
  · rw [hdone, if_neg (by simp)]
    exact h.ptx_step hbase hbusy (.inr (.inr hcont))
      (.inl ⟨hqueue, accepted_step_radioIrq _ _⟩) h.stored

/-- **Every step of reliable use keeps both modules in step.** -/
theorem inStep_step {a : LinkAction} (h : InStep l) (hbase : Base crcOf cfg l)
    (hen : l.Enabled a) (hC : ReliableUse l a) : InStep (l.step crcOf a) := by
  cases a with
  | write p => exact h.write hbase hC
  | startTx => exact h.startTx hbase
  | flushTx => exact absurd hC id
  | read dst => exact ⟨h.accounted, h.noack, h.stored, h.head⟩
  | txDone delivered => exact h.txDone hbase hen
  | ackWindow received => exact h.ackWindow hbase hen
  | ackSent => exact ⟨h.accounted, h.noack, h.stored, h.head⟩

/-! ## §4 Delivery -/

/-- **Exactly once and in order**: what was read at the receiver and what waits in its RX FIFO
    is a prefix of the accepted payloads in length, pipe and bytes; it includes every
    acknowledged payload, and these are the ones that left the transmitter's TX FIFO. -/
theorem exactly_once_in_order (h : (machine crcOf cfg).ReachableUnder ReliableUse l) :
    (l.readOut ++ l.prx.rxFifo.toList).map NrfEsbPayload.content <+:
        l.ptx.accepted.map NrfEsbPayload.content ∧
      (l.ackedPayloads.map fun x => x.2.content) <+:
        (l.readOut ++ l.prx.rxFifo.toList).map NrfEsbPayload.content ∧
      l.ackedPayloads.map Prod.snd ++ l.ptx.esb.txFifo.toList = l.ptx.accepted := by
  have hboth : Base crcOf cfg l ∧ InStep l := by
    refine h.invariant (I := fun l => Base crcOf cfg l ∧ InStep l) ?_ ?_
    · exact fun l hl => ⟨base_fresh hl, inStep_fresh hl⟩
    · exact fun l a hinv hen hC => ⟨base_step hinv.1 hen, inStep_step hinv.2 hinv.1 hen hC⟩
  obtain ⟨hbase, hstep⟩ := hboth
  have haccepted : (l.ackedPayloads ++ l.ptx.queue).map Prod.snd = l.ptx.accepted := by
    rw [hstep.accounted, numbered_map_snd]
  refine ⟨?_, ?_, ?_⟩
  -- The receiver has stored what is acknowledged, and one packet more at most.
  · rw [hbase.contents, ← haccepted]
    rcases hstep.stored with hs | ⟨x, q, hq, hs⟩
    · rw [hs]
      simp [Function.comp_def]
    · rw [hs, hq]
      simp [Function.comp_def]
  · rw [hbase.contents]
    rcases hstep.stored with hs | ⟨x, q, hq, hs⟩
    · rw [hs]
    · rw [hs, List.map_append]
      exact List.prefix_append _ _
  · rw [hbase.running.fifo.toList_eq, ← haccepted]
    simp [TxTrace.payloads]

/-- The first acknowledgment is lost, and the retransmission is acknowledged. -/
def lostAckRun : List LinkAction :=
  [.write (.ofBytes 0 0 [7]), .txDone true, .ackWindow false, .ackSent, .txDone true,
    .ackWindow true]

theorem exactly_once_lostAck :
    ((machine checksum { nrfEsbDefaultConfig with retransmitCount := 3 }).run (defaultLink 3)
        lostAckRun).ackedPayloads.map Prod.snd ++
      ((machine checksum { nrfEsbDefaultConfig with retransmitCount := 3 }).run (defaultLink 3)
        lostAckRun).ptx.esb.txFifo.toList =
      ((machine checksum { nrfEsbDefaultConfig with retransmitCount := 3 }).run (defaultLink 3)
        lostAckRun).ptx.accepted :=
  (exactly_once_in_order
    (.of_follows (C := ReliableUse) (.start (fresh_defaultLink 3)) (by decide))).2.2

end Link

end NordicEsb
