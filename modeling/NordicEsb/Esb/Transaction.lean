import NordicEsb.Esb.TxQueue

/-!
# Transactions of a Primary Transmitter

A transaction sends the packet that `start_tx_transaction` built from the head of the
TX FIFO; when it completes, `tx_fifo_remove_last` removes whatever is the head then.
`PtxTrace` records which payload the running transaction was started with.

- `completesTx_cases`, `not_completesTx_cases`: how the handlers go on.
- `step_cases`: a step ends the transaction, starts one or continues it.
- `TransactionSafe`: the packet on the air comes from the recorded payload, and a
  completion removes that payload or nothing.

**Main result** (`transactionSafe_of_reachable`): a run is safe if no payload is written to
a TX FIFO that was flushed during the running transaction. `flushDuringTxRun` shows what
happens otherwise: the new payload is removed as sent.
-/

namespace NordicEsb

/-! ## §1 Starting a transaction -/

theorem startTxTransaction_txPayloadBuffer (s : Esb) :
    (startTxTransaction s).txPayloadBuffer =
      txPacket s.configLocal s.txFifo.head s.txPayloadBuffer := rfl

theorem startTxTransaction_txaddress (s : Esb) :
    (startTxTransaction s).radio.txaddress = s.txFifo.head.pipe := rfl

theorem startTxTransaction_configLocal (s : Esb) :
    (startTxTransaction s).configLocal = s.configLocal := rfl

/-- In a transaction, the handler is the one that belongs to the main state. -/
def TxHandlerMatches (s : Esb) : Prop :=
  match s.mainstate with
  | .idle => True
  | .ptxTx => s.onRadioDisabled = some .txNoack
  | .ptxTxAck => s.onRadioDisabled = some .tx
  | .ptxRxAck => s.onRadioDisabled = some .txWaitForAck
  | .prx | .prxSendAck => False

theorem txHandlerMatches_of_idle {s : Esb} (h : s.mainstate = .idle) : TxHandlerMatches s := by
  simp [TxHandlerMatches, h]

/-- In a transaction, the module acknowledges nothing. -/
theorem not_preparesAckDpl_of_txHandlerMatches {s : Esb} (h : TxHandlerMatches s)
    (hbusy : s.mainstate ≠ .idle) : preparesAckDpl s = false := by
  unfold TxHandlerMatches at h
  cases hs : s.mainstate with
  | idle => exact absurd hs hbusy
  | prx | prxSendAck => simp [hs] at h
  | ptxTx | ptxTxAck | ptxRxAck =>
    simp only [hs] at h
    simp [preparesAckDpl, h]

theorem startTxTransaction_txHandlerMatches (s : Esb) :
    TxHandlerMatches (startTxTransaction s) := by
  have hm : (startTxTransaction s).mainstate =
      if wantsAck s.configLocal s.txFifo.head then .ptxTxAck else .ptxTx := rfl
  have hh : (startTxTransaction s).onRadioDisabled =
      some (if wantsAck s.configLocal s.txFifo.head then .tx else .txNoack) := rfl
  unfold TxHandlerMatches
  rw [hm, hh]
  cases wantsAck s.configLocal s.txFifo.head <;> rfl

/-! ## §2 The radio interrupt in a transaction -/

/-- After a completion on `s`, is the next payload started? -/
def continuesTx (s : Esb) : Bool :=
  decide ((txFifoRemoveLast s).txFifo.count ≠ 0) &&
    !(s.onRadioDisabled == some .txWaitForAck && s.configLocal.txMode == .manual)

/-- How `on_radio_disabled_tx_wait_for_ack` goes on once the acknowledgment is processed. -/
theorem onAckReceived_eq (s : Esb) :
    ∃ s₁, onAckReceived s =
        (if s₁.txFifo.count = 0 ∨ s₁.configLocal.txMode = .manual then finishTx s₁
          else startNextTx s₁) ∧
      s₁.txFifo = (txFifoRemoveLast s).txFifo ∧ s₁.configLocal = s.configLocal := by
  refine ⟨_, rfl, ?_, ?_⟩
  · split <;> rfl
  · split <;> rfl

/-- **A completion removes the head and rests or starts the next payload.** -/
theorem completesTx_cases {s : Esb} (h : completesTx s = true) :
    (continuesTx s = false ∧ (callOnRadioDisabled s).mainstate = .idle) ∨
    (continuesTx s = true ∧ ∃ s₁, callOnRadioDisabled s = startTxTransaction s₁ ∧
      s₁.txFifo = (txFifoRemoveLast s).txFifo ∧ s₁.configLocal = s.configLocal) := by
  unfold completesTx at h
  unfold callOnRadioDisabled continuesTx
  cases hh : s.onRadioDisabled with
  | none => simp [hh] at h
  | some f =>
    cases f with
    | tx | rx | rxAck => simp [hh] at h
    | txNoack =>
      simp only [onRadioDisabledTxNoack]
      by_cases hc : (txFifoRemoveLast (raiseTxSuccess s)).txFifo.count = 0
      · left
        have hc' : (txFifoRemoveLast s).txFifo.count = 0 := hc
        rw [if_pos hc]
        exact ⟨by simp [hc'], rfl⟩
      · right
        have hc' : ¬ (txFifoRemoveLast s).txFifo.count = 0 := hc
        rw [if_neg hc]
        exact ⟨by simp [hc'], _, rfl, rfl, rfl⟩
    | txWaitForAck =>
      simp only [hh] at h
      simp only [onRadioDisabledTxWaitForAck, h, if_true]
      obtain ⟨s₁, heq, hfifo, hcfg⟩ := onAckReceived_eq { s with ppi :=
        { s.ppi with timerStart := false, rxTimeout := false, timerStop := false } }
      have hfifo' : s₁.txFifo = (txFifoRemoveLast s).txFifo := hfifo
      have hcfg' : s₁.configLocal = s.configLocal := hcfg
      rw [heq]
      by_cases hc : s₁.txFifo.count = 0 ∨ s₁.configLocal.txMode = .manual
      · left
        rw [if_pos hc]
        rw [hfifo', hcfg'] at hc
        exact ⟨by rcases hc with hc | hc <;> simp [hc], rfl⟩
      · right
        rw [if_neg hc]
        rw [hfifo', hcfg'] at hc
        push Not at hc
        exact ⟨by simp [hc.1, hc.2], _, rfl, hfifo', hcfg'⟩

/-- **Otherwise the transaction goes on** with the same packet, or is given up; only a
    packet without acknowledgment is done when it is out. -/
theorem not_completesTx_cases {s : Esb} (h : completesTx s = false) (hm : TxHandlerMatches s)
    (hbusy : s.mainstate ≠ .idle) :
    TxHandlerMatches (callOnRadioDisabled s) ∧
      (callOnRadioDisabled s).mainstate ≠ .ptxTx ∧
      (callOnRadioDisabled s).radio.txaddress = s.radio.txaddress ∧
      (callOnRadioDisabled s).txPayloadBuffer = s.txPayloadBuffer ∧
      (callOnRadioDisabled s).configLocal = s.configLocal := by
  unfold completesTx at h
  unfold TxHandlerMatches at hm
  unfold callOnRadioDisabled
  cases hs : s.mainstate with
  | idle => exact absurd hs hbusy
  | prx | prxSendAck => simp [hs] at hm
  | ptxTx =>
    simp only [hs] at hm
    simp [hm] at h
  | ptxTxAck =>
    simp only [hs] at hm
    rw [hm]
    exact ⟨rfl, by simp [onRadioDisabledTx], rfl, rfl, rfl⟩
  | ptxRxAck =>
    simp only [hs] at hm
    simp only [hm] at h
    simp only [hm, onRadioDisabledTxWaitForAck, h, onAckMissed]
    by_cases hr : s.retransmitsRemaining = 0
    · simp only [hr, if_true]
      exact ⟨trivial, by simp [suspendTx, finishTx], rfl, rfl, rfl⟩
    · simp only [hr, if_false]
      exact ⟨rfl, by simp [retransmit], rfl, rfl, rfl⟩

/-! ## §3 Runs of a primary transmitter -/

/-- Does the call run `start_tx_transaction`? -/
def startsTx (s : Esb) (c : EsbCall) : Bool :=
  match c with
  | .writePayload _ => (s.call c).1 == .success && autoStarts s
  | .startTx => (s.call c).1 == .success
  | .radioIrq ev =>
    (ev.latch s).radio.intensetDisabled && completesTx (ev.latch s) && continuesTx (ev.latch s)
  | _ => false

/-- A transmitter next to its queue, with the payload the last transaction was started with. -/
structure PtxTrace extends TxTrace where
  onAir : Option (ℕ × NrfEsbPayload)

namespace PtxTrace

/-- One call; a transaction that starts takes the head of the queue. -/
def step (t : PtxTrace) (c : EsbCall) : PtxTrace where
  toTxTrace := t.toTxTrace.step c
  onAir := if startsTx t.esb c then (t.toTxTrace.step c).queue.head? else t.onAir

/-- The steps of a transmitter: no second initialisation, no reception, and not the defective
    `nrf_esb_pop_tx`. The radio is disabled outside a transaction, so that DISABLED fires only
    during one. -/
def Enabled (t : PtxTrace) : EsbCall → Prop
  | .init _ | .disable | .startRx | .popTx => False
  | .radioIrq _ => t.esb.mainstate ≠ .idle
  | _ => True

instance (t : PtxTrace) : DecidablePred t.Enabled
  | .init _ | .disable | .startRx | .popTx => (inferInstance : Decidable False)
  | .radioIrq _ => (inferInstance : Decidable (t.esb.mainstate ≠ .idle))
  | .suspend | .writePayload _ | .readRxPayload _ | .startTx | .stopRx | .flushTx | .flushRx
  | .setAddressLength _ | .setBaseAddress0 _ | .setBaseAddress1 _ | .setPrefixes _ _
  | .updatePrefix _ _ | .enablePipes _ | .setRfChannel _ | .setTxPower _ | .evtIrq =>
    (inferInstance : Decidable True)

/-- A freshly initialised transmitter and its steps. -/
def machine : Machine PtxTrace EsbCall where
  start t := ∃ cfg s, cfg.mode = .ptx ∧ t = ⟨.start (nrfEsbInit (some cfg) s).2, none⟩
  enabled := Enabled
  step := step

instance (t : PtxTrace) (c : EsbCall) : Decidable (machine.enabled t c) :=
  inferInstanceAs (Decidable (t.Enabled c))

/-- No payload is written while a transaction runs and the TX FIFO is empty, which takes an
    `nrf_esb_flush_tx` during that transaction. -/
def NoWriteAfterFlush (t : PtxTrace) : EsbCall → Prop
  | .writePayload (some p) =>
    writeAccepted t.esb p = true → ¬ (t.esb.mainstate ≠ .idle ∧ t.esb.txFifo.count = 0)
  | _ => True

instance (t : PtxTrace) : DecidablePred t.NoWriteAfterFlush
  | .writePayload (some p) =>
    (inferInstance : Decidable (writeAccepted t.esb p = true →
      ¬ (t.esb.mainstate ≠ .idle ∧ t.esb.txFifo.count = 0)))
  | .writePayload none | .init _ | .suspend | .disable | .readRxPayload _ | .startTx | .startRx
  | .stopRx | .flushTx | .popTx | .flushRx | .setAddressLength _ | .setBaseAddress0 _
  | .setBaseAddress1 _ | .setPrefixes _ _ | .updatePrefix _ _ | .enablePipes _ | .setRfChannel _
  | .setTxPower _ | .evtIrq | .radioIrq _ =>
    (inferInstance : Decidable True)

/-- **A safe state of a transmitter.** -/
structure TransactionSafe (t : PtxTrace) : Prop where
  /-- The FIFO is the queue. -/
  fifo : t.esb.txFifo.Represents t.payloads
  /-- During a transaction the packet is the one built from the recorded payload. -/
  packet : t.esb.mainstate ≠ .idle →
    ∃ x old, t.onAir = some x ∧ t.esb.radio.txaddress = x.2.pipe ∧
      t.esb.txPayloadBuffer = txPacket t.esb.configLocal x.2 old
  /-- A completion that removes a payload removes the recorded one. -/
  removed : ∀ (ev : RadioEvent) x, t.esb.mainstate ≠ .idle → completesTx (ev.latch t.esb) = true →
    t.queue.head? = some x → t.onAir = some x

/-! ## §4 What a step does to the transaction -/

/-- A step that neither ends the transaction nor starts one: the packet stays, and the queue
    changes by an accepted write or a flush only. -/
structure Continues (t : PtxTrace) (c : EsbCall) : Prop where
  busy : (t.step c).esb.mainstate ≠ .idle → t.esb.mainstate ≠ .idle
  wantsAck : t.esb.mainstate ≠ .ptxTx → (t.step c).esb.mainstate ≠ .ptxTx
  handler : TxHandlerMatches (t.step c).esb
  txaddress : (t.step c).esb.radio.txaddress = t.esb.radio.txaddress
  txPayloadBuffer : (t.step c).esb.txPayloadBuffer = t.esb.txPayloadBuffer
  configLocal : (t.step c).esb.configLocal = t.esb.configLocal
  onAir : (t.step c).onAir = t.onAir
  queue : (t.step c).queue = t.queue ∨ c = .flushTx ∧ (t.step c).queue = [] ∨
    ∃ p, c = .writePayload (some p) ∧ writeAccepted t.esb p = true ∧
      (t.step c).queue = t.queue ++ [(t.accepted.length, writtenPayload t.esb c)]

/-- A step that ends in a resting module. -/
structure Rests (t : PtxTrace) (c : EsbCall) : Prop where
  idle : (t.step c).esb.mainstate = .idle
  onAir : (t.step c).onAir = t.onAir

/-- A step that starts a transaction with the head of the queue, which is not empty. -/
structure Starts (t : PtxTrace) (c : EsbCall) : Prop where
  esb : ∃ s, (t.step c).esb = startTxTransaction s ∧ s.configLocal = t.esb.configLocal
  count_ne : (t.step c).esb.txFifo.count ≠ 0
  onAir : (t.step c).onAir = (t.step c).queue.head?

/-- A rejected call changes nothing. -/
theorem step_of_rejected {t : PtxTrace} {c : EsbCall} (h : (t.esb.call c).1 ≠ .success) :
    t.step c = t := by
  have heff : txEffect t.esb c = .keep := if_neg h
  have hstarts : startsTx t.esb c = false := by
    cases c with
    | writePayload | startTx => simp [startsTx, h]
    | radioIrq => exact absurd rfl h
    | _ => rfl
  simp [step, TxTrace.step, heff, hstarts, exec_of_rejected _ _ h, QueueOp.onList]

theorem continues_of_rejected {t : PtxTrace} {c : EsbCall} (hm : TxHandlerMatches t.esb)
    (h : (t.esb.call c).1 ≠ .success) : Continues t c := by
  have hstep := step_of_rejected h
  refine ⟨?_, ?_, ?_, ?_, ?_, ?_, ?_, .inl ?_⟩ <;> rw [hstep]
  · exact id
  · exact id
  · exact hm

/-- The calls that neither start a transaction nor complete one end in a resting module or
    leave the transaction alone. -/
theorem exec_quiet {t : PtxTrace} {c : EsbCall} (hc : t.Enabled c)
    (hirq : ∀ ev, c ≠ .radioIrq ev) (hwrite : ∀ p, c ≠ .writePayload p) (hstart : c ≠ .startTx) :
    (t.esb.exec c).mainstate = .idle ∨
      ((t.esb.exec c).mainstate = t.esb.mainstate ∧
        (t.esb.exec c).onRadioDisabled = t.esb.onRadioDisabled ∧
        (t.esb.exec c).radio.txaddress = t.esb.radio.txaddress ∧
        (t.esb.exec c).txPayloadBuffer = t.esb.txPayloadBuffer ∧
        (t.esb.exec c).configLocal = t.esb.configLocal) := by
  by_cases hok : (t.esb.call c).1 = .success
  · unfold Esb.exec
    revert hok
    cases c with
    | init | disable | startRx | popTx => exact absurd hc id
    | writePayload p => exact absurd rfl (hwrite p)
    | startTx => exact absurd rfl hstart
    | radioIrq ev => exact absurd rfl (hirq ev)
    | stopRx =>
      simp only [Esb.call, nrfEsbStopRx]
      split
      · intro _; exact .inl rfl
      · simp
    | flushTx | flushRx | readRxPayload | evtIrq =>
      simp only [Esb.call, nrfEsbFlushTx, nrfEsbFlushRx, nrfEsbReadRxPayload, esbEvtIrqHandler]
      repeat' split
      all_goals simp_all
    | _ =>
      -- these calls want a resting module, and leave it resting
      simp only [Esb.call, nrfEsbSuspend, nrfEsbSetAddressLength, nrfEsbSetBaseAddress0,
        nrfEsbSetBaseAddress1, nrfEsbSetPrefixes, nrfEsbUpdatePrefix, nrfEsbEnablePipes,
        nrfEsbSetRfChannel, nrfEsbSetTxPower]
      by_cases hidle : t.esb.mainstate = .idle
      · intro _
        left
        repeat' split
        all_goals first | exact hidle | rfl
      · simp [hidle]
  · rw [exec_of_rejected t.esb c hok]
    exact .inr ⟨rfl, rfl, rfl, rfl, rfl⟩

/-- A write starts a transaction in a resting module in auto mode, and else only appends. -/
theorem step_write_cases {t : PtxTrace} {p : NrfEsbPayload} (hm : TxHandlerMatches t.esb)
    (hacc : writeAccepted t.esb p = true) :
    autoStarts t.esb = true ∧ Starts t (.writePayload (some p)) ∨
      Continues t (.writePayload (some p)) := by
  have hok : (t.esb.call (.writePayload (some p))).1 = .success := by
    rw [Esb.call, nrfEsbWritePayload_of_accepted hacc]
  have heff : txEffect t.esb (.writePayload (some p)) = .append := if_pos hok
  have hesb : (t.step (.writePayload (some p))).esb =
      if autoStarts (enqueuePayload p t.esb) then startTxTransaction (enqueuePayload p t.esb)
      else enqueuePayload p t.esb :=
    congrArg Prod.snd (nrfEsbWritePayload_of_accepted hacc)
  have hauto : autoStarts (enqueuePayload p t.esb) = autoStarts t.esb := rfl
  have hstarts : startsTx t.esb (.writePayload (some p)) = autoStarts t.esb := by
    simp [startsTx, hok]
  rw [hauto] at hesb
  cases hst : autoStarts t.esb with
  | true =>
    rw [hst, if_pos rfl] at hesb
    refine .inl ⟨rfl, ⟨_, hesb, rfl⟩, ?_, ?_⟩
    · rw [hesb]
      exact Nat.succ_ne_zero _
    · simp [step, hstarts, hst]
  | false =>
    rw [hst, if_neg (by simp)] at hesb
    right
    refine ⟨?_, ?_, ?_, ?_, ?_, ?_, ?_, .inr (.inr ⟨p, rfl, hacc, ?_⟩)⟩
    · rw [hesb]; exact id
    · rw [hesb]; exact id
    · rw [hesb]; exact hm
    · rw [hesb]; rfl
    · rw [hesb]; rfl
    · rw [hesb]; rfl
    · simp [step, hstarts, hst]
    · simp only [step, TxTrace.step, heff, QueueOp.onList]

/-- `nrf_esb_start_tx` takes the head of the queue. -/
theorem step_startTx_starts {t : PtxTrace} (hok : (t.esb.call .startTx).1 = .success) :
    Starts t .startTx := by
  have hcases : (t.step .startTx).esb = startTxTransaction t.esb ∧ t.esb.txFifo.count ≠ 0 := by
    revert hok
    simp only [step, TxTrace.step, Esb.exec, Esb.call, nrfEsbStartTx]
    split
    · simp
    · split
      · simp
      · rename_i hcount
        exact fun _ => ⟨rfl, hcount⟩
  refine ⟨⟨_, hcases.1, rfl⟩, ?_, by simp [step, startsTx, hok]⟩
  rw [hcases.1]
  exact hcases.2

/-- Does the radio interrupt complete the transaction? -/
def completedBy (t : PtxTrace) (ev : RadioEvent) : Bool :=
  (ev.latch t.esb).radio.intensetDisabled && completesTx (ev.latch t.esb)

/-- The radio interrupt completes the transaction, which takes its payload from the queue, or
    continues it. -/
theorem step_radioIrq_cases {t : PtxTrace} (ev : RadioEvent) (hm : TxHandlerMatches t.esb)
    (hbusy : t.esb.mainstate ≠ .idle) :
    completedBy t ev = true ∧ (t.step (.radioIrq ev)).queue = t.queue.tail ∧
        (Rests t (.radioIrq ev) ∨ Starts t (.radioIrq ev)) ∨
      completedBy t ev = false ∧ (t.step (.radioIrq ev)).queue = t.queue ∧
        Continues t (.radioIrq ev) := by
  have hhandler : TxHandlerMatches (ev.latch t.esb) := by simpa [TxHandlerMatches] using hm
  have hbusy' : (ev.latch t.esb).mainstate ≠ .idle := by simpa using hbusy
  have hack := not_preparesAckDpl_of_txHandlerMatches hhandler hbusy'
  have hesb : (t.step (.radioIrq ev)).esb =
      if (ev.latch t.esb).radio.intensetDisabled then callOnRadioDisabled (ev.latch t.esb)
      else ev.latch t.esb := radioIrqHandler_eq ev t.esb
  have hair : (t.step (.radioIrq ev)).onAir =
      if completedBy t ev && continuesTx (ev.latch t.esb) then (t.step (.radioIrq ev)).queue.head?
      else t.onAir := rfl
  have heff : txEffect t.esb (.radioIrq ev) = if completedBy t ev then .removeHead else .keep := by
    simp only [txEffect, Esb.call, if_true, documentedEffect, radioTxEffect, hack, Bool.false_and,
      Bool.or_false, completedBy]
    rfl
  have hqueue : (t.step (.radioIrq ev)).queue =
      if completedBy t ev then t.queue.tail else t.queue := by
    simp only [step, TxTrace.step, heff]
    split <;> rfl
  cases hdone : completedBy t ev with
  | true =>
    left
    rw [hdone, if_pos rfl] at hqueue
    refine ⟨rfl, hqueue, ?_⟩
    obtain ⟨hi, hd⟩ : (ev.latch t.esb).radio.intensetDisabled = true ∧
        completesTx (ev.latch t.esb) = true := by simpa [completedBy] using hdone
    rw [hi, if_pos rfl] at hesb
    rcases completesTx_cases hd with ⟨hcont, hidle⟩ | ⟨hcont, s₁, hs₁, hf₁, hcfg₁⟩
    · exact .inl ⟨by rw [hesb, hidle], by simp [hair, hcont]⟩
    · refine .inr ⟨⟨s₁, hesb.trans hs₁, by simpa using hcfg₁⟩, ?_, by simp [hair, hdone, hcont]⟩
      rw [hesb, hs₁, startTxTransaction_txFifo, hf₁]
      simp only [continuesTx, Bool.and_eq_true, decide_eq_true_eq] at hcont
      exact hcont.1
  | false =>
    right
    rw [hdone, if_neg (by simp)] at hqueue
    refine ⟨rfl, hqueue, ?_⟩
    have hair' : (t.step (.radioIrq ev)).onAir = t.onAir := by simp [hair, hdone]
    cases hi : (ev.latch t.esb).radio.intensetDisabled with
    | false =>
      rw [hi, if_neg (by simp)] at hesb
      refine ⟨fun _ => hbusy, ?_, ?_, ?_, ?_, ?_, hair', .inl hqueue⟩
      · rw [hesb, latch_mainstate]
        exact id
      · rwa [hesb]
      · rw [hesb, latch_txaddress]
      · rw [hesb, latch_txPayloadBuffer]
      · rw [hesb, latch_configLocal]
    | true =>
      have hd : completesTx (ev.latch t.esb) = false := by simpa [completedBy, hi] using hdone
      obtain ⟨hm', hwants, haddr, hbuf, hcfg⟩ := not_completesTx_cases hd hhandler hbusy'
      rw [hi, if_pos rfl] at hesb
      refine ⟨fun _ => hbusy, ?_, ?_, ?_, ?_, ?_, hair', .inl hqueue⟩
      · rw [hesb]
        exact fun _ => hwants
      · rwa [hesb]
      · rw [hesb, haddr, latch_txaddress]
      · rw [hesb, hbuf, latch_txPayloadBuffer]
      · rw [hesb, hcfg, latch_configLocal]

/-- **What a step does to the transaction**: it ends it, starts one with the head of the queue,
    or continues it. -/
theorem step_cases {t : PtxTrace} {c : EsbCall} (hm : TxHandlerMatches t.esb)
    (hen : t.Enabled c) :
    Rests t c ∨ Starts t c ∨ Continues t c := by
  by_cases hok : (t.esb.call c).1 = .success
  case neg => exact .inr (.inr (continues_of_rejected hm hok))
  by_cases hwrite : ∃ p, c = .writePayload p
  · obtain ⟨pPayload, rfl⟩ := hwrite
    obtain ⟨p, rfl, hacc⟩ := accepted_of_nrfEsbWritePayload hok
    exact .inr ((step_write_cases hm hacc).imp And.right id)
  by_cases hstart : c = .startTx
  · subst hstart
    exact .inr (.inl (step_startTx_starts hok))
  by_cases hirq : ∃ ev, c = .radioIrq ev
  · obtain ⟨ev, rfl⟩ := hirq
    rcases step_radioIrq_cases ev hm hen with ⟨-, -, hrest | hnext⟩ | ⟨-, -, hcont⟩
    · exact .inl hrest
    · exact .inr (.inl hnext)
    · exact .inr (.inr hcont)
  push Not at hwrite hirq
  -- a quiet call, which may be a flush
  have hair : (t.step c).onAir = t.onAir := by
    cases c with
    | writePayload p => exact absurd rfl (hwrite p)
    | startTx => exact absurd rfl hstart
    | radioIrq ev => exact absurd rfl (hirq ev)
    | _ => rfl
  have heff : txEffect t.esb c = documentedEffect t.esb c := if_pos hok
  rcases exec_quiet hen hirq hwrite hstart with hidle | ⟨hmain, hh, haddr, hbuf, hcfg⟩
  · exact .inl ⟨hidle, hair⟩
  · refine .inr (.inr ⟨?_, ?_, ?_, haddr, hbuf, hcfg, hair, ?_⟩)
    · rw [show (t.step c).esb.mainstate = t.esb.mainstate from hmain]
      exact id
    · rw [show (t.step c).esb.mainstate = t.esb.mainstate from hmain]
      exact id
    · unfold TxHandlerMatches at hm ⊢
      rwa [show (t.step c).esb.mainstate = t.esb.mainstate from hmain,
        show (t.step c).esb.onRadioDisabled = t.esb.onRadioDisabled from hh]
    · cases c with
      | init | disable | startRx | popTx => exact absurd hen id
      | writePayload p => exact absurd rfl (hwrite p)
      | radioIrq ev => exact absurd rfl (hirq ev)
      | flushTx =>
        right
        left
        simp [step, TxTrace.step, heff, documentedEffect, QueueOp.onList]
      | _ =>
        left
        simp [step, TxTrace.step, heff, documentedEffect, QueueOp.onList]

/-! ## §5 The invariants -/

/-- What every step keeps: the FIFO is the queue, the handler belongs to the main state, and
    the packet of a transaction is the one built from the recorded payload. -/
structure Running (t : PtxTrace) : Prop where
  fifo : t.esb.txFifo.Represents t.payloads
  handler : TxHandlerMatches t.esb
  packet : t.esb.mainstate ≠ .idle →
    ∃ x old, t.onAir = some x ∧ t.esb.radio.txaddress = x.2.pipe ∧
      t.esb.txPayloadBuffer = txPacket t.esb.configLocal x.2 old

/-- In a transaction, the recorded payload is the head of the queue, or the queue was flushed. -/
def HeadOnAir (t : PtxTrace) : Prop :=
  t.esb.mainstate ≠ .idle → t.queue = [] ∨ t.queue.head? = t.onAir

theorem running_start {t : PtxTrace} (h : machine.start t) : Running t := by
  obtain ⟨cfg, s, -, rfl⟩ := h
  have hidle : (nrfEsbInit (some cfg) s).2.mainstate = .idle := rfl
  refine ⟨?_, txHandlerMatches_of_idle hidle, fun hb => absurd hidle hb⟩
  simp only [TxTrace.start, TxTrace.payloads, List.map_nil, nrfEsbInit_txFifo]
  exact s.txFifo.represents_clear (by decide)

theorem queue_ne_nil_of_starts {t : PtxTrace} {c : EsbCall}
    (hfifo : (t.step c).esb.txFifo.Represents (t.step c).payloads) (h : Starts t c) :
    (t.step c).queue ≠ [] := by
  have := hfifo.pos_iff.mp (Nat.pos_of_ne_zero h.count_ne)
  simpa [TxTrace.payloads] using this

/-- A transaction that starts sends the head of the queue. -/
theorem running_of_starts {t : PtxTrace} {c : EsbCall}
    (hfifo : (t.step c).esb.txFifo.Represents (t.step c).payloads) (h : Starts t c) :
    Running (t.step c) := by
  obtain ⟨s, hesb, -⟩ := h.esb
  refine ⟨hfifo, hesb ▸ startTxTransaction_txHandlerMatches s, fun _ => ?_⟩
  obtain ⟨x, hx⟩ := Option.ne_none_iff_exists'.mp
    (mt List.head?_eq_none_iff.mp (queue_ne_nil_of_starts hfifo h))
  have hhead := head_of_represents hfifo hx
  rw [hesb, startTxTransaction_txFifo] at hhead
  refine ⟨x, s.txPayloadBuffer, h.onAir.trans hx, ?_, ?_⟩
  · rw [hesb, startTxTransaction_txaddress, hhead]
  · rw [hesb, startTxTransaction_txPayloadBuffer, startTxTransaction_configLocal, hhead]

/-- **Every step keeps `Running`**, a flush during the transaction included. -/
theorem running_step {t : PtxTrace} {c : EsbCall} (h : Running t) (hen : t.Enabled c) :
    Running (t.step c) := by
  have hfifo : (t.step c).esb.txFifo.Represents (t.step c).payloads :=
    TxTrace.step_represents h.fifo (by rintro rfl; exact hen)
  rcases step_cases h.handler hen with hrests | hstarts | hcont
  · exact ⟨hfifo, txHandlerMatches_of_idle hrests.idle, fun hb => absurd hrests.idle hb⟩
  · exact running_of_starts hfifo hstarts
  · refine ⟨hfifo, hcont.handler, fun hb => ?_⟩
    rw [hcont.txaddress, hcont.txPayloadBuffer, hcont.configLocal, hcont.onAir]
    exact h.packet (hcont.busy hb)

/-- **A step keeps `HeadOnAir`** if it writes nothing to a flushed FIFO. -/
theorem headOnAir_step {t : PtxTrace} {c : EsbCall} (hrun : Running t) (h : HeadOnAir t)
    (hen : t.Enabled c) (hC : NoWriteAfterFlush t c) : HeadOnAir (t.step c) := by
  intro hb
  rcases step_cases hrun.handler hen with hrests | hstarts | hcont
  · exact absurd hrests.idle hb
  · exact .inr hstarts.onAir.symm
  · rw [hcont.onAir]
    rcases hcont.queue with hq | ⟨-, hq⟩ | ⟨p, rfl, hacc, hq⟩
    · rw [hq]
      exact h (hcont.busy hb)
    · exact .inl hq
    · -- the FIFO is not empty, so the head stays
      have hcount : t.esb.txFifo.count ≠ 0 := fun h0 => hC hacc ⟨hcont.busy hb, h0⟩
      have hne : t.queue ≠ [] := by
        have := hrun.fifo.pos_iff.mp (Nat.pos_of_ne_zero hcount)
        simpa [TxTrace.payloads] using this
      rw [hq, List.head?_append_of_ne_nil _ hne]
      exact .inr ((h (hcont.busy hb)).resolve_left hne)

theorem Running.safe {t : PtxTrace} (h : Running t) (hhead : HeadOnAir t) :
    TransactionSafe t where
  fifo := h.fifo
  packet := h.packet
  removed := by
    intro ev x hbusy _ hx
    rcases hhead hbusy with hnil | hhead
    · simp [hnil] at hx
    · rw [← hhead, hx]

/-- **A completed transaction removes the payload it has sent**: every state reached by a run
    in which no payload is written to a TX FIFO flushed during the running transaction is
    safe. -/
theorem transactionSafe_of_reachable {t : PtxTrace}
    (h : machine.ReachableUnder NoWriteAfterFlush t) : TransactionSafe t := by
  have hboth : Running t ∧ HeadOnAir t := by
    refine h.invariant (I := fun t => Running t ∧ HeadOnAir t) ?_ ?_
    · intro t ht
      refine ⟨running_start ht, ?_⟩
      obtain ⟨_, _, -, rfl⟩ := ht
      exact fun hb => absurd rfl hb
    · intro t c ⟨hrun, hhead⟩ hen hC
      exact ⟨running_step hrun hen, headOnAir_step hrun hhead hen hC⟩
  exact hboth.1.safe hboth.2

/-- A transmitter with the default configuration. -/
def defaultStart : PtxTrace := ⟨.start (nrfEsbInit (some nrfEsbDefaultConfig) .reset).2, none⟩

/-- A payload is sent and acknowledged. -/
def acknowledgedRun : List EsbCall :=
  [.writePayload (some (.ofBytes 0 0 [1])), .radioIrq .silent,
    .radioIrq (.received ⟨0, 0, 0, []⟩ 0)]

/-- The TX FIFO is flushed while its head is on the air, and a payload is written to it. -/
def flushDuringTxRun : List EsbCall :=
  [.writePayload (some (.ofBytes 0 0 [1])), .flushTx, .writePayload (some (.ofBytes 0 0 [2])),
    .radioIrq .silent]

theorem transactionSafe_run_acknowledged :
    machine.ReachableUnder NoWriteAfterFlush
        (machine.run defaultStart acknowledgedRun) ∧
      TransactionSafe (machine.run defaultStart acknowledgedRun) := by
  have h : machine.ReachableUnder NoWriteAfterFlush
      (machine.run defaultStart acknowledgedRun) :=
    .of_follows (.start ⟨nrfEsbDefaultConfig, .reset, rfl, rfl⟩) (by decide)
  exact ⟨h, transactionSafe_of_reachable h⟩

/-- The acknowledgment of the flushed payload removes the one that was never sent. -/
theorem not_transactionSafe_run_flushDuringTx :
    ¬ ∀ t, machine.Reachable t → TransactionSafe t := by
  intro h
  have hsafe := h (machine.run defaultStart flushDuringTxRun)
    (.of_follows (.start ⟨nrfEsbDefaultConfig, .reset, rfl, rfl⟩) (by decide))
  have := hsafe.removed (.received ⟨0, 0, 0, []⟩ 0) _ (by decide) (by decide) rfl
  revert this
  decide

end PtxTrace

end NordicEsb
