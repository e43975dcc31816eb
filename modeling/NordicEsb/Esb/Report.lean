import NordicEsb.Esb.OnAir

/-!
# What the Event Handler is Told

`m_last_tx_attempts` is written when a transaction starts and when it is over, and read when the
event interrupt is handled. By then the next transaction may have been started, which has set it
to one.

- `AttemptTrace` counts the attempts of the transaction that is running, and keeps the count of the
  one before
- `AttemptInv` relates that to the retransmissions that are left

**Main result**: `reported_of_reachable`.
-/

namespace NordicEsb

/-! ## §1 The attempts of a transaction -/

/-- A transmitter with the attempts of the transaction that is running, and of the one that was
    completed or given up most recently. -/
structure AttemptTrace where
  esb : Esb
  onAir : ℕ
  completed : ℕ

/-- A packet is out. -/
def sendsBy (s : Esb) : EsbCall → Bool
  | .radioIrq _ => s.radio.intensetDisabled &&
    (s.onRadioDisabled == some .tx || s.onRadioDisabled == some .txNoack)
  | _ => false

/-- The transaction is over. -/
def endsBy (s : Esb) : EsbCall → Bool
  | .radioIrq ev => s.radio.intensetDisabled &&
    (completesTx (ev.latch s) || (radioIrqHandler ev s).mainstate == .idle)
  | _ => false

namespace AttemptTrace

/-- The attempts of the transaction that is running, behind this step. -/
def sent (t : AttemptTrace) (c : EsbCall) : ℕ := if sendsBy t.esb c then t.onAir + 1 else t.onAir

/-- One call. -/
def step (t : AttemptTrace) (c : EsbCall) : AttemptTrace where
  esb := t.esb.exec c
  onAir := if startsTx t.esb c then 0 else t.sent c
  completed := if endsBy t.esb c then t.sent c else t.completed

/-- A freshly initialised transmitter and its steps. -/
def machine : Machine AttemptTrace EsbCall where
  start t := ∃ cfg s, cfg.mode = .ptx ∧ t = ⟨(nrfEsbInit (some cfg) s).2, 0, 0⟩
  enabled t := PtxEnabled t.esb
  step := step

instance (t : AttemptTrace) (c : EsbCall) : Decidable (machine.enabled t c) :=
  inferInstanceAs (Decidable (PtxEnabled t.esb c))

/-- **What the event handler is told**: the attempts of the transaction that was over most
    recently. -/
def Reported (t : AttemptTrace) : Prop :=
  ∀ e ∈ (esbEvtIrqHandler t.esb).1, e.evtId = .txSuccess ∨ e.evtId = .txFailed →
    e.txAttempts.toNat = t.completed

/-- **The condition**: if a transaction starts while the event of another one is pending, that one
    has taken a single attempt. -/
def OneAttempt (t : AttemptTrace) (c : EsbCall) : Prop :=
  startsTx t.esb c = true →
    match c with
    | .radioIrq _ => t.esb.onRadioDisabled = some .txNoack ∨ t.onAir = 1
    | _ => t.completed = 1 ∨
      (t.esb.interruptFlags.txSuccess = false ∧ t.esb.interruptFlags.txFailed = false)

instance (t : AttemptTrace) : DecidablePred (OneAttempt t)
  | .radioIrq ev =>
    (inferInstance : Decidable (startsTx t.esb (.radioIrq ev) = true →
      t.esb.onRadioDisabled = some .txNoack ∨ t.onAir = 1))
  | .init _ | .suspend | .disable | .writePayload _ | .readRxPayload _ | .startTx | .startRx
  | .stopRx | .flushTx | .popTx | .flushRx | .setAddressLength _ | .setBaseAddress0 _
  | .setBaseAddress1 _ | .setPrefixes _ _ | .updatePrefix _ _ | .enablePipes _ | .setRfChannel _
  | .setTxPower _ | .evtIrq =>
    (inferInstance : Decidable (startsTx t.esb _ = true → t.completed = 1 ∨
      (t.esb.interruptFlags.txSuccess = false ∧ t.esb.interruptFlags.txFailed = false)))

/-- **The invariant**: what has been sent and what is left of the retransmissions. -/
structure AttemptInv (t : AttemptTrace) : Prop where
  handler : TxHandlerMatches t.esb
  intenset : t.esb.mainstate ≠ .idle → t.esb.radio.intensetDisabled = true
  noack : t.esb.mainstate = .ptxTx → t.onAir = 0 ∧ t.esb.lastTxAttempts = 1
  sending : t.esb.mainstate = .ptxTxAck → t.esb.retransmitsRemaining.toNat + t.onAir =
    t.esb.configLocal.retransmitCount.toNat
  waiting : t.esb.mainstate = .ptxRxAck → 0 < t.onAir ∧
    t.esb.retransmitsRemaining.toNat + t.onAir = t.esb.configLocal.retransmitCount.toNat + 1
  pending : t.esb.interruptFlags.txSuccess = true ∨ t.esb.interruptFlags.txFailed = true →
    t.esb.lastTxAttempts.toNat = t.completed

theorem AttemptInv.reported {t : AttemptTrace} (h : AttemptInv t) : Reported t := by
  intro e he htx
  unfold esbEvtIrqHandler at he
  dsimp only at he
  split_ifs at he
  · exact absurd he List.not_mem_nil
  · unfold InterruptFlags.events at he
    simp only [List.mem_append] at he
    rcases he with (he | he) | he
    · split_ifs at he with hflag
      · obtain rfl := List.mem_singleton.mp he
        exact h.pending (.inl hflag)
      · exact absurd he List.not_mem_nil
    · split_ifs at he with hflag
      · obtain rfl := List.mem_singleton.mp he
        exact h.pending (.inr hflag)
      · exact absurd he List.not_mem_nil
    · split_ifs at he with hflag
      · obtain rfl := List.mem_singleton.mp he
        rcases htx with htx | htx <;> cases htx
      · exact absurd he List.not_mem_nil
  · exact absurd he List.not_mem_nil

/-- A module that rests. -/
theorem attemptInv_idle {t : AttemptTrace} (hidle : t.esb.mainstate = .idle)
    (hpending : t.esb.interruptFlags.txSuccess = true ∨ t.esb.interruptFlags.txFailed = true →
      t.esb.lastTxAttempts.toNat = t.completed) : AttemptInv t where
  handler := txHandlerMatches_of_idle hidle
  intenset h := absurd hidle h
  noack h := nomatch hidle.symm.trans h
  sending h := nomatch hidle.symm.trans h
  waiting h := nomatch hidle.symm.trans h
  pending := hpending

/-- **A transaction starts.** -/
theorem attemptInv_start {s : Esb} {t : AttemptTrace} (hesb : t.esb = startTxTransaction s)
    (honAir : t.onAir = 0)
    (hpending : s.interruptFlags.txSuccess = true ∨ s.interruptFlags.txFailed = true →
      t.completed = 1) : AttemptInv t := by
  have hmain : t.esb.mainstate =
      if wantsAck s.configLocal s.txFifo.head then .ptxTxAck else .ptxTx := by
    rw [hesb]
    rfl
  have hattempts : t.esb.lastTxAttempts = 1 := by
    rw [hesb]
    rfl
  constructor
  · rw [hesb]
    exact startTxTransaction_txHandlerMatches s
  · intro _
    rw [hesb]
    rfl
  · intro _
    exact ⟨honAir, hattempts⟩
  · intro hsending
    have hack : wantsAck s.configLocal s.txFifo.head = true := by
      rw [hmain] at hsending
      split_ifs at hsending with hack
      exact hack
    have hremaining := (Transaction.sending_start hack).remaining
    have hconfig := (Transaction.sending_start hack).config
    rw [hesb, honAir, hconfig]
    exact hremaining
  · intro hwaiting
    rw [hmain] at hwaiting
    split_ifs at hwaiting
  · intro hflags
    rw [hattempts, hpending (by rw [hesb] at hflags; exact hflags)]
    rfl

/-- A call outside a transaction. -/
theorem attemptInv_step_idle {t : AttemptTrace} {c : EsbCall} (h : AttemptInv t)
    (hidle : t.esb.mainstate = .idle) (hen : PtxEnabled t.esb c) (hone : OneAttempt t c) :
    AttemptInv (t.step c) := by
  have hirq : ∀ ev, c ≠ .radioIrq ev := by
    rintro ev rfl
    exact hen hidle
  have hends : endsBy t.esb c = false := by
    cases c with
    | radioIrq ev => exact absurd rfl (hirq ev)
    | _ => rfl
  have hcompleted : (t.step c).completed = t.completed := by
    unfold step
    rw [hends]
    rfl
  rcases exec_idle hidle hen with ⟨hstarts, fifo, pids, hexec⟩ | ⟨hstarts, hstays⟩
  · have honAir : (t.step c).onAir = 0 := by
      unfold step
      rw [hstarts]
      rfl
    refine attemptInv_start hexec honAir fun hflags => ?_
    have hcond := hone hstarts
    rw [hcompleted]
    cases c with
    | radioIrq ev => exact absurd rfl (hirq ev)
    | _ =>
      rcases hcond with hcond | ⟨hsuccess, hfailed⟩
      · exact hcond
      · rcases hflags with hflag | hflag
        · exact absurd (hsuccess.symm.trans hflag) Bool.false_ne_true
        · exact absurd (hfailed.symm.trans hflag) Bool.false_ne_true
  · refine attemptInv_idle hstays.idle fun hflags => ?_
    have hattempts : (t.step c).esb.lastTxAttempts = t.esb.lastTxAttempts := hstays.lastTxAttempts
    rw [hattempts, hcompleted]
    apply h.pending
    have hsame : (t.step c).esb.interruptFlags = t.esb.interruptFlags ∨
        (t.step c).esb.interruptFlags = .clear := hstays.flags
    rcases hsame with hsame | hclear
    · rw [hsame] at hflags
      exact hflags
    · rw [hclear] at hflags
      rcases hflags with hflag | hflag <;> cases hflag

/-- A call during a transaction. -/
theorem attemptInv_step_call {t : AttemptTrace} {c : EsbCall} (h : AttemptInv t)
    (hbusy : t.esb.mainstate ≠ .idle) (hen : PtxEnabled t.esb c)
    (hirq : ∀ ev, c ≠ .radioIrq ev) : AttemptInv (t.step c) := by
  have hsent : t.sent c = t.onAir := by
    unfold sent
    cases c with
    | radioIrq ev => exact absurd rfl (hirq ev)
    | _ => rfl
  have honAir : (t.step c).onAir = t.onAir := by
    unfold step
    rw [startsTx_busy hbusy hirq, hsent]
    rfl
  have hcompleted : (t.step c).completed = t.completed := by
    unfold step
    cases c with
    | radioIrq ev => exact absurd rfl (hirq ev)
    | _ => rfl
  obtain ⟨⟨esb, onAir, completed⟩, hstep⟩ : ∃ u, u = t.step c := ⟨_, rfl⟩
  have hesb : esb = t.esb.exec c := congrArg AttemptTrace.esb hstep
  rw [← hstep] at honAir hcompleted ⊢
  dsimp only at honAir hcompleted
  subst honAir hcompleted
  rcases exec_busy h.handler hbusy hen hirq with ⟨⟨fifo, info, flags, pend, heq⟩, hflags⟩ | heq |
    ⟨p, -, -, heq⟩
  · rw [heq] at hesb hflags
    subst hesb
    refine ⟨h.handler, h.intenset, h.noack, h.sending, h.waiting, fun hset => ?_⟩
    apply h.pending
    rcases hflags with hsame | hclear
    · dsimp only at hsame hset
      rw [hsame] at hset
      exact hset
    · dsimp only at hclear hset
      rw [hclear] at hset
      rcases hset with hflag | hflag <;> cases hflag
  · rw [heq] at hesb
    subst hesb
    exact ⟨h.handler, h.intenset, h.noack, h.sending, h.waiting, h.pending⟩
  · rw [heq] at hesb
    subst hesb
    exact ⟨h.handler, h.intenset, h.noack, h.sending, h.waiting, h.pending⟩

/-- An interrupt that ends the transaction. -/
theorem step_over {t : AttemptTrace} {ev : RadioEvent} {s' : Esb} {n : ℕ}
    (hintenset : t.esb.radio.intensetDisabled = true)
    (hcall : callOnRadioDisabled (ev.latch t.esb) = s') (hsent : t.sent (.radioIrq ev) = n)
    (hover : completesTx (ev.latch t.esb) = true ∨ s'.mainstate = .idle) :
    t.step (.radioIrq ev) = ⟨s', if startsTx t.esb (.radioIrq ev) then 0 else n, n⟩ := by
  have hexec : t.esb.exec (.radioIrq ev) = s' := (exec_radioIrq ev hintenset).trans hcall
  have hirq : radioIrqHandler ev t.esb = s' := hexec
  have hends : endsBy t.esb (.radioIrq ev) = true := by
    rcases hover with hdone | hidle
    · simp [endsBy, hintenset, hdone]
    · simp [endsBy, hintenset, hirq, hidle]
  unfold step
  rw [hexec, hsent, hends]
  rfl

/-- An interrupt in the middle of a transaction. -/
theorem step_goes {t : AttemptTrace} {ev : RadioEvent} {s' : Esb} {n : ℕ}
    (hintenset : t.esb.radio.intensetDisabled = true)
    (hcall : callOnRadioDisabled (ev.latch t.esb) = s') (hsent : t.sent (.radioIrq ev) = n)
    (hgoes : completesTx (ev.latch t.esb) = false) (hbusy : s'.mainstate ≠ .idle) :
    t.step (.radioIrq ev) = ⟨s', n, t.completed⟩ := by
  have hexec : t.esb.exec (.radioIrq ev) = s' := (exec_radioIrq ev hintenset).trans hcall
  have hirq : radioIrqHandler ev t.esb = s' := hexec
  have hstarts : startsTx t.esb (.radioIrq ev) = false := by
    simp [startsTx, hgoes]
  have hends : endsBy t.esb (.radioIrq ev) = false := by
    simp [endsBy, hgoes, hirq, hbusy]
  unfold step
  rw [hexec, hsent, hstarts, hends]
  rfl

/-- **A packet without acknowledgment is out.** -/
theorem attemptInv_noack {t : AttemptTrace} (h : AttemptInv t) (ev : RadioEvent)
    (hs : t.esb.mainstate = .ptxTx) : AttemptInv (t.step (.radioIrq ev)) := by
  have hintenset := h.intenset (by rw [hs]; decide)
  have hhandler : t.esb.onRadioDisabled = some .txNoack := by
    have hm := h.handler
    unfold TxHandlerMatches at hm
    rwa [hs] at hm
  obtain ⟨honAir, hattempts⟩ := h.noack hs
  have hsent : t.sent (.radioIrq ev) = 1 := by
    simp [sent, sendsBy, hintenset, hhandler, honAir]
  have hdone : completesTx (ev.latch t.esb) = true := by
    unfold completesTx
    rw [latch_onRadioDisabled, hhandler]
  have hcall : callOnRadioDisabled (ev.latch t.esb) = onRadioDisabledTxNoack (ev.latch t.esb) := by
    unfold callOnRadioDisabled
    rw [latch_onRadioDisabled, hhandler]
  rcases onRadioDisabledTxNoack_cases (ev.latch t.esb) with hfinish | hnext
  · rw [step_over hintenset (hcall.trans hfinish) hsent (.inl hdone)]
    refine attemptInv_idle rfl fun _ => ?_
    show (ev.latch t.esb).lastTxAttempts.toNat = 1
    rw [latch_lastTxAttempts, hattempts]
    rfl
  · have hstarts : startsTx t.esb (.radioIrq ev) = true := by
      refine startsTx_of_busy hintenset hdone ?_
      rw [hcall, hnext]
      exact startTxTransaction_busy _
    rw [step_over hintenset (hcall.trans hnext) hsent (.inl hdone), if_pos hstarts]
    exact attemptInv_start rfl rfl fun _ => rfl

/-- **A packet that wants an acknowledgment is out.** -/
theorem attemptInv_sent {t : AttemptTrace} (h : AttemptInv t) (ev : RadioEvent)
    (hs : t.esb.mainstate = .ptxTxAck) : AttemptInv (t.step (.radioIrq ev)) := by
  have hintenset := h.intenset (by rw [hs]; decide)
  have hhandler : t.esb.onRadioDisabled = some .tx := by
    have hm := h.handler
    unfold TxHandlerMatches at hm
    rwa [hs] at hm
  have hsent : t.sent (.radioIrq ev) = t.onAir + 1 := by
    simp [sent, sendsBy, hintenset, hhandler]
  have hgoes : completesTx (ev.latch t.esb) = false := by
    unfold completesTx
    rw [latch_onRadioDisabled, hhandler]
  have hcall : callOnRadioDisabled (ev.latch t.esb) = onRadioDisabledTx (ev.latch t.esb) := by
    unfold callOnRadioDisabled
    rw [latch_onRadioDisabled, hhandler]
  have hmain : (onRadioDisabledTx (ev.latch t.esb)).mainstate = .ptxRxAck := rfl
  have hsum := h.sending hs
  have hbusy : (onRadioDisabledTx (ev.latch t.esb)).mainstate ≠ .idle := by
    rw [hmain]
    decide
  rw [step_goes hintenset hcall hsent hgoes hbusy]
  constructor
  · unfold TxHandlerMatches
    rw [hmain]
    rfl
  · intro _
    exact (latch_intensetDisabled ev t.esb).trans hintenset
  · intro hnoack
    cases hmain.symm.trans hnoack
  · intro hsending
    cases hmain.symm.trans hsending
  · intro _
    refine ⟨Nat.succ_pos _, ?_⟩
    show (ev.latch t.esb).retransmitsRemaining.toNat + (t.onAir + 1) =
      (ev.latch t.esb).configLocal.retransmitCount.toNat + 1
    rw [Transaction.latch_retransmitsRemaining, latch_configLocal]
    omega
  · intro hflags
    show (ev.latch t.esb).lastTxAttempts.toNat = t.completed
    rw [latch_lastTxAttempts]
    apply h.pending
    have hsame : (ev.latch t.esb).interruptFlags = t.esb.interruptFlags := latch_interruptFlags ev _
    rw [← hsame]
    exact hflags

/-- What the window finds, in terms of the attempts so far. -/
theorem AttemptInv.waited {t : AttemptTrace} (h : AttemptInv t) (ev : RadioEvent)
    (hs : t.esb.mainstate = .ptxRxAck) :
    Transaction.Waited t.esb (t.onAir - 1) ⟨.silent, ev⟩ (ev.latch t.esb) := by
  have hhandler : t.esb.onRadioDisabled = some .txWaitForAck := by
    have hm := h.handler
    unfold TxHandlerMatches at hm
    rwa [hs] at hm
  obtain ⟨hpos, hsum⟩ := h.waiting hs
  constructor
  · rw [latch_onRadioDisabled, hhandler]
  · rw [latch_intensetDisabled]
    exact h.intenset (by rw [hs]; decide)
  · exact Transaction.latch_received ev _
  · exact latch_configLocal ev _
  · exact latch_txFifo ev _
  · rw [Transaction.latch_retransmitsRemaining]
    omega

/-- **The window is closed.** -/
theorem attemptInv_waited {t : AttemptTrace} (h : AttemptInv t) (ev : RadioEvent)
    (hs : t.esb.mainstate = .ptxRxAck) (hone : OneAttempt t (.radioIrq ev)) :
    AttemptInv (t.step (.radioIrq ev)) := by
  have hintenset := h.intenset (by rw [hs]; decide)
  have hwaited := h.waited ev hs
  have hhandler : t.esb.onRadioDisabled = some .txWaitForAck :=
    (latch_onRadioDisabled ev t.esb).symm.trans hwaited.handler
  obtain ⟨hpos, hsum⟩ := h.waiting hs
  have hsent : t.sent (.radioIrq ev) = t.onAir := by
    simp [sent, sendsBy, hhandler]
  cases hacked : TxAttempt.acked ⟨.silent, ev⟩ with
  -- the acknowledgment has come: the transaction ends, and the next packet may start
  | true =>
    have hdone : completesTx (ev.latch t.esb) = true := hwaited.completesTx_eq.trans hacked
    obtain ⟨s', hacknowledged, hcases⟩ := onAckReceived_cases { ev.latch t.esb with
      ppi := { (ev.latch t.esb).ppi with timerStart := false, rxTimeout := false, timerStop := false } }
    have hcall : callOnRadioDisabled (ev.latch t.esb) = onAckReceived { ev.latch t.esb with
        ppi := { (ev.latch t.esb).ppi with
          timerStart := false, rxTimeout := false, timerStop := false } } := by
      have hwait : callOnRadioDisabled (ev.latch t.esb) =
          onRadioDisabledTxWaitForAck (ev.latch t.esb) := by
        unfold callOnRadioDisabled
        rw [hwaited.handler]
      rw [hwait]
      exact if_pos (hwaited.received.trans hacked)
    have hnoted : s'.lastTxAttempts.toNat = t.onAir := by
      have hcount := hwaited.noted
      have heq : s'.lastTxAttempts = (noteAck (ev.latch t.esb)).lastTxAttempts :=
        hacknowledged.lastTxAttempts
      rw [heq]
      omega
    -- The queue is empty now, or its next packet is sent.
    rcases hcases with hfinish | hnext
    · rw [step_over hintenset (hcall.trans hfinish) hsent (.inl hdone)]
      exact attemptInv_idle rfl fun _ => hnoted
    · have hstarts : startsTx t.esb (.radioIrq ev) = true := by
        refine startsTx_of_busy hintenset hdone ?_
        rw [hcall, hnext]
        exact startTxTransaction_busy _
      have hfirst : t.onAir = 1 := by
        rcases hone hstarts with hnoack | hfirst
        · cases hhandler.symm.trans hnoack
        · exact hfirst
      rw [step_over hintenset (hcall.trans hnext) hsent (.inl hdone), if_pos hstarts]
      exact attemptInv_start rfl rfl fun _ => hfirst
  -- no acknowledgment: a retransmission while attempts are left, else a failure
  | false =>
    have hgoes : completesTx (ev.latch t.esb) = false := hwaited.completesTx_eq.trans hacked
    rcases Nat.lt_or_ge (t.onAir - 1) t.esb.configLocal.retransmitCount.toNat with hmore | hlast
    · obtain ⟨hsending, hmain⟩ := hwaited.sending hacked hmore
      have hsame : (callOnRadioDisabled (ev.latch t.esb)).interruptFlags = t.esb.interruptFlags ∧
          (callOnRadioDisabled (ev.latch t.esb)).lastTxAttempts = t.esb.lastTxAttempts := by
        have hremaining := hwaited.remaining
        have hne : ¬ (ev.latch t.esb).retransmitsRemaining = 0 := by
          intro hzero
          have hnat : (ev.latch t.esb).retransmitsRemaining.toNat = 0 := by rw [hzero]; rfl
          omega
        rw [hwaited.missed_eq hacked]
        unfold onAckMissed
        dsimp only
        rw [if_neg hne]
        exact ⟨latch_interruptFlags ev _, latch_lastTxAttempts ev _⟩
      have hbusy : (callOnRadioDisabled (ev.latch t.esb)).mainstate ≠ .idle := by
        rw [hmain]
        decide
      rw [step_goes hintenset rfl hsent hgoes hbusy]
      refine ⟨?_, fun _ => hsending.intenset, fun hnoack => (by cases hmain.symm.trans hnoack),
        fun _ => ?_, fun hwaiting => (by cases hmain.symm.trans hwaiting), fun hflags => ?_⟩
      · unfold TxHandlerMatches
        rw [hmain]
        exact hsending.handler
      · have hcount := hsending.remaining
        have hconfig := hsending.config
        dsimp only
        rw [hconfig]
        omega
      · dsimp only at hflags ⊢
        rw [hsame.2]
        rw [hsame.1] at hflags
        exact h.pending hflags
    -- That was the last attempt.
    · obtain ⟨hidle, hattempts, -, -⟩ := hwaited.failed hacked (by omega)
      rw [step_over hintenset rfl hsent (.inr hidle)]
      refine attemptInv_idle hidle fun _ => ?_
      dsimp only
      omega

/-- **Step lemma.** -/
theorem attemptInv_step {t : AttemptTrace} {c : EsbCall} (h : AttemptInv t)
    (hen : PtxEnabled t.esb c) (hone : OneAttempt t c) : AttemptInv (t.step c) := by
  by_cases hidle : t.esb.mainstate = .idle
  · exact attemptInv_step_idle h hidle hen hone
  · by_cases hirq : ∃ ev, c = .radioIrq ev
    · obtain ⟨ev, rfl⟩ := hirq
      cases hs : t.esb.mainstate with
      | idle => exact absurd hs hidle
      | ptxTx => exact attemptInv_noack h ev hs
      | ptxTxAck => exact attemptInv_sent h ev hs
      | ptxRxAck => exact attemptInv_waited h ev hs hone
      | prx | prxSendAck =>
        have hm := h.handler
        unfold TxHandlerMatches at hm
        rw [hs] at hm
        exact hm.elim
    · push Not at hirq
      exact attemptInv_step_call h hidle hen hirq

/-- **The event handler is told the attempts** in every run in which no transaction that has taken
    more than one attempt is followed by another one before its event is delivered. -/
theorem reported_of_reachable {t : AttemptTrace} (h : machine.ReachableUnder OneAttempt t) :
    Reported t := by
  have hinv : AttemptInv t := h.invariant (I := AttemptInv)
    (fun t ht => by
      obtain ⟨cfg, s, -, rfl⟩ := ht
      refine attemptInv_idle rfl fun hflags => ?_
      rcases hflags with hflag | hflag <;> cases hflag)
    (fun t c hinv hen hone => attemptInv_step hinv hen hone)
  exact hinv.reported

/-- A transmitter with an event handler, and one retransmission. -/
def handledStart : AttemptTrace :=
  ⟨(nrfEsbInit (some { nrfEsbDefaultConfig with retransmitCount := 1, eventHandler := true })
    .reset).2, 0, 0⟩

theorem handledStart_start : machine.start handledStart := ⟨_, _, rfl, rfl⟩

/-- A payload is acknowledged at the second attempt. -/
theorem reported_secondAttempt :
    Reported (machine.run handledStart
      [.writePayload (some (.ofBytes 0 0 [1])), .radioIrq .silent, .radioIrq .silent,
        .radioIrq .silent, .radioIrq (.received ⟨0, 0, 0, []⟩ 0)]) :=
  reported_of_reachable (.of_follows (.start handledStart_start) (by decide))

/-- **Another payload is waiting**: its transaction has set the count to one when the event is
    delivered. -/
theorem not_reported_nextStarted : ¬ ∀ t, machine.Reachable t → Reported t := by
  intro hall
  have hreported := hall (machine.run handledStart
    [.writePayload (some (.ofBytes 0 0 [1])), .writePayload (some (.ofBytes 0 0 [2])),
      .radioIrq .silent, .radioIrq .silent, .radioIrq .silent,
      .radioIrq (.received ⟨0, 0, 0, []⟩ 0)])
    (.of_follows (.start handledStart_start) (by decide))
  have hone := hreported ⟨.txSuccess, 1⟩ (by decide) (.inl rfl)
  exact absurd hone (by decide)

end AttemptTrace

end NordicEsb
