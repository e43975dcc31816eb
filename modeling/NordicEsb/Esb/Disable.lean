import NordicEsb.Esb.TxQueue

/-!
# After `nrf_esb_disable`

`nrf_esb_disable` empties the FIFOs and sets the main state, but the radio interrupt stays
enabled and `on_radio_disabled` keeps pointing to the handler of the operation in flight. A
DISABLED event that still comes runs that handler.

- `Quiescent s₀ s`: the module has stayed as `nrf_esb_disable` left it in `s₀`.
- `Harmless s ev`: the event finds no handler, or one that only sets a flag that is set.

**Main result** (`quiescentAlong_disable_iff`): after `nrf_esb_disable`, whatever the module
was doing, a sequence of DISABLED events leaves it quiescent exactly if every event is
harmless.
-/

namespace NordicEsb

/-! ## §1 Staying disabled -/

/-- Every flag of `f` is one of `f₀`. -/
def InterruptFlags.GainsNothing (f₀ f : InterruptFlags) : Prop :=
  (f.txSuccess = true → f₀.txSuccess = true) ∧ (f.txFailed = true → f₀.txFailed = true) ∧
    (f.rxDataReceived = true → f₀.rxDataReceived = true)

instance (f₀ f : InterruptFlags) : Decidable (f₀.GainsNothing f) :=
  inferInstanceAs (Decidable (_ ∧ _))

/-- The module is in the state in which `nrf_esb_disable` left it: idle, with empty FIFOs, no
    new interrupt flag, and a radio that nothing has enabled or will enable by itself. -/
structure Quiescent (s₀ s : Esb) : Prop where
  mainstate : s.mainstate = .idle
  tx : s.txFifo.count = 0
  rx : s.rxFifo.count = 0
  flags : s₀.interruptFlags.GainsNothing s.interruptFlags
  task : s.radio.task = s₀.radio.task
  short : s.radio.disabledShort = .none
  txStart : s.ppi.txStart = false

/-- The module is quiescent before, between and after the events. -/
def QuiescentAlong (s₀ : Esb) : Esb → List RadioEvent → Prop
  | s, [] => Quiescent s₀ s
  | s, ev :: evs => Quiescent s₀ s ∧ QuiescentAlong s₀ (radioIrqHandler ev s) evs

theorem quiescent_disable (s : Esb) : Quiescent (nrfEsbDisable s) (nrfEsbDisable s) where
  mainstate := rfl
  tx := rfl
  rx := rfl
  flags := ⟨id, id, id⟩
  task := rfl
  short := rfl
  txStart := rfl

/-! ## §2 Harmless events -/

/-- The event finds no handler, or it finds one of the two that end a transmission, which then
    sets no flag that was not set in `s₀`, stores nothing and does not try again. -/
def Harmless (s₀ s : Esb) (ev : RadioEvent) : Prop :=
  s.radio.intensetDisabled = true →
    match s.onRadioDisabled with
    | none => True
    | some .txNoack => s₀.interruptFlags.txSuccess = true
    | some .txWaitForAck =>
      if (ev.latch s).radio.eventsEnd && (ev.latch s).radio.crcstatus then
        s₀.interruptFlags.txSuccess = true ∧
          (hasAckPayload (ev.latch s) && rxPushAccepted (ev.latch s)) = false
      else s₀.interruptFlags.txFailed = true ∧ s.retransmitsRemaining = 0
    | some .tx | some .rx | some .rxAck => False

/-- Every event is harmless when it comes. -/
def HarmlessAlong (s₀ : Esb) : Esb → List RadioEvent → Prop
  | _, [] => True
  | s, ev :: evs => Harmless s₀ s ev ∧ HarmlessAlong s₀ (radioIrqHandler ev s) evs

/-! ## §3 The handlers on a disabled module -/

/-- What the handlers leave alone: `t` is as quiet as `s`, with the same flags. -/
structure SameQuiet (s t : Esb) : Prop where
  mainstate : t.mainstate = s.mainstate
  tx : t.txFifo = s.txFifo
  rx : t.rxFifo = s.rxFifo
  flags : t.interruptFlags = s.interruptFlags
  task : t.radio.task = s.radio.task
  short : t.radio.disabledShort = s.radio.disabledShort
  txStart : t.ppi.txStart = s.ppi.txStart

theorem Quiescent.of_same {s₀ s t : Esb} (h : Quiescent s₀ s) (hsame : SameQuiet s t) :
    Quiescent s₀ t where
  mainstate := hsame.mainstate.trans h.mainstate
  tx := by rw [hsame.tx]; exact h.tx
  rx := by rw [hsame.rx]; exact h.rx
  flags := by rw [hsame.flags]; exact h.flags
  task := hsame.task.trans h.task
  short := hsame.short.trans h.short
  txStart := hsame.txStart.trans h.txStart

/-- The radio's own part of an event. -/
theorem sameQuiet_latch (ev : RadioEvent) (s : Esb) : SameQuiet s (ev.latch s) := by
  unfold RadioEvent.latch
  split <;> exact ⟨rfl, rfl, rfl, rfl, rfl, rfl, rfl⟩

/-- Removing the last payload from an empty FIFO. -/
theorem txFifoRemoveLast_of_empty {s : Esb} (h : s.txFifo.count = 0) : txFifoRemoveLast s = s := by
  unfold txFifoRemoveLast
  rw [if_neg (by omega)]

/-- **`on_radio_disabled_tx_noack`** reports a success. -/
theorem quiescent_txNoack {s₀ s : Esb} (h : Quiescent s₀ s) :
    Quiescent s₀ (onRadioDisabledTxNoack s) ↔ s₀.interruptFlags.txSuccess = true := by
  have hempty : (raiseTxSuccess s).txFifo.count = 0 := h.tx
  have heq : onRadioDisabledTxNoack s = finishTx (raiseTxSuccess s) := by
    unfold onRadioDisabledTxNoack
    rw [txFifoRemoveLast_of_empty hempty]
    exact if_pos hempty
  rw [heq]
  constructor
  · intro hq
    exact hq.flags.1 rfl
  · intro hset
    exact ⟨rfl, h.tx, h.rx, ⟨fun _ => hset, h.flags.2.1, h.flags.2.2⟩, h.task, h.short, h.txStart⟩

/-- **An acknowledgment** reports a success, and its payload is stored. -/
theorem quiescent_onAckReceived {s₀ s : Esb} (h : Quiescent s₀ s) :
    Quiescent s₀ (onAckReceived s) ↔
      s₀.interruptFlags.txSuccess = true ∧ (hasAckPayload s && rxPushAccepted s) = false := by
  have hempty : (noteAck s).txFifo.count = 0 := h.tx
  have heq : onAckReceived s =
      finishTx (if hasAckPayload s then receiveAckPayload (noteAck s) else noteAck s) := by
    unfold onAckReceived
    dsimp only
    rw [txFifoRemoveLast_of_empty hempty, show hasAckPayload (noteAck s) = hasAckPayload s from rfl]
    -- there is no next payload
    cases hasAckPayload s <;> exact if_pos (.inl hempty)
  rw [heq]
  cases hhas : hasAckPayload s with
  | false =>
    rw [Bool.false_and, if_neg (by simp)]
    constructor
    · intro hq
      exact ⟨hq.flags.1 rfl, rfl⟩
    · rintro ⟨hset, -⟩
      exact ⟨rfl, h.tx, h.rx, ⟨fun _ => hset, h.flags.2.1, h.flags.2.2⟩, h.task, h.short, rfl⟩
  | true =>
    rw [Bool.true_and, if_pos rfl]
    have hfifo : (finishTx (receiveAckPayload (noteAck s))).rxFifo =
        if rxPushAccepted s then s.rxFifo.push (rxPushEntry s.radio.txaddress 0 s
          (s.rxFifo.slots.get s.rxFifo.entryPoint)) else s.rxFifo := rfl
    constructor
    · intro hq
      refine ⟨hq.flags.1 rfl, ?_⟩
      by_contra hpush
      -- the payload of the acknowledgment is in the RX FIFO
      have hcount := hq.rx
      rw [hfifo, if_pos (by simpa using hpush)] at hcount
      exact absurd hcount (Nat.succ_ne_zero _)
    · rintro ⟨hset, hpush⟩
      have hrx : (finishTx (receiveAckPayload (noteAck s))).rxFifo.count = 0 := by
        rw [hfifo, if_neg (by simp [hpush])]
        exact h.rx
      have hdata : (finishTx (receiveAckPayload (noteAck s))).interruptFlags.rxDataReceived =
          (s.interruptFlags.rxDataReceived || rxPushAccepted s) := rfl
      refine ⟨rfl, h.tx, hrx, ⟨fun _ => hset, h.flags.2.1, fun hflag => h.flags.2.2 ?_⟩, h.task,
        h.short, rfl⟩
      rwa [hdata, hpush, Bool.or_false] at hflag

/-- **A missing acknowledgment** reports a failure, or the packet is sent again. -/
theorem quiescent_onAckMissed {s₀ s : Esb} (h : Quiescent s₀ s) :
    Quiescent s₀ (onAckMissed s) ↔
      s₀.interruptFlags.txFailed = true ∧ s.retransmitsRemaining = 0 := by
  unfold onAckMissed
  dsimp only
  split
  case isTrue hzero =>
    constructor
    · intro hq
      exact ⟨hq.flags.2.1 rfl, hzero⟩
    · rintro ⟨hset, -⟩
      exact ⟨rfl, h.tx, h.rx, ⟨h.flags.1, fun _ => hset, h.flags.2.2⟩, h.task, h.short, rfl⟩
  case isFalse hzero =>
    constructor
    · -- the module is in a transmission again
      intro hq
      exact absurd hq.mainstate nofun
    · rintro ⟨-, hno⟩
      exact absurd hno hzero

/-- `clear_events_restart_rx` enables the radio. -/
theorem not_quiescent_of_restart {s₀ s : Esb} (h : s.radio.disabledShort = .txen) :
    ¬ Quiescent s₀ s := by
  intro hq
  rw [hq.short] at h
  cases h

/-- **`on_radio_disabled_rx`** sends an acknowledgment or listens again. -/
theorem not_quiescent_onRadioDisabledRx {s₀ : Esb} (s : Esb) :
    ¬ Quiescent s₀ (onRadioDisabledRx s) := by
  cases hack : acceptsRx s && ackRequested s with
  | true =>
    intro hq
    have hstate := onRadioDisabledRx_mainstate s
    rw [hack, if_pos rfl, hq.mainstate] at hstate
    cases hstate
  | false =>
    apply not_quiescent_of_restart
    rw [onRadioDisabledRx_eq]
    cases hacc : acceptsRx s with
    | false => rfl
    | true =>
      rw [hacc, Bool.true_and] at hack
      have hrestart : ∀ retransmit, (acknowledge retransmit (notePidAndCrc s)).radio.disabledShort =
          .txen := by
        intro retransmit
        have hnone : ackRequested (notePidAndCrc s) = false := hack
        unfold acknowledge
        rw [if_neg (by simp [hnone])]
        rfl
      cases retransmitPayload s with
      | true => exact hrestart true
      | false => exact hrestart false

/-- **The end of an acknowledgment window.** -/
theorem quiescent_txWaitForAck {s₀ s : Esb} (h : Quiescent s₀ s) :
    Quiescent s₀ (onRadioDisabledTxWaitForAck s) ↔
      if s.radio.eventsEnd && s.radio.crcstatus then
        s₀.interruptFlags.txSuccess = true ∧ (hasAckPayload s && rxPushAccepted s) = false
      else s₀.interruptFlags.txFailed = true ∧ s.retransmitsRemaining = 0 := by
  have hquiet : Quiescent s₀ { s with
      ppi := { s.ppi with timerStart := false, rxTimeout := false, timerStop := false } } :=
    ⟨h.mainstate, h.tx, h.rx, h.flags, h.task, h.short, h.txStart⟩
  unfold onRadioDisabledTxWaitForAck
  dsimp only
  split
  · exact quiescent_onAckReceived hquiet
  · exact quiescent_onAckMissed hquiet

/-- **One event** leaves a quiescent module quiescent exactly if it is harmless. -/
theorem quiescent_radioIrq_iff {s₀ s : Esb} (h : Quiescent s₀ s) (ev : RadioEvent) :
    Quiescent s₀ (radioIrqHandler ev s) ↔ Harmless s₀ s ev := by
  have hlatch : Quiescent s₀ (ev.latch s) := h.of_same (sameQuiet_latch ev s)
  rw [radioIrqHandler_eq, latch_intensetDisabled]
  unfold Harmless
  cases s.radio.intensetDisabled with
  | false => simp [hlatch]
  | true =>
    rw [if_pos rfl]
    simp only [forall_true_left]
    unfold callOnRadioDisabled
    rw [latch_onRadioDisabled]
    cases s.onRadioDisabled with
    | none => simp [hlatch]
    | some handler =>
      cases handler with
      | txNoack => exact quiescent_txNoack hlatch
      | txWaitForAck =>
        have hremaining : (ev.latch s).retransmitsRemaining = s.retransmitsRemaining := by
          obtain ⟨r, b, heq⟩ := latch_eq ev s
          rw [heq]
        rw [← hremaining]
        exact quiescent_txWaitForAck hlatch
      | rx => exact iff_of_false (not_quiescent_onRadioDisabledRx _) id
      | tx =>
        -- the acknowledgment window opens
        exact iff_of_false (fun hq => absurd hq.mainstate nofun) id
      | rxAck =>
        -- the module listens again
        exact iff_of_false (fun hq => absurd hq.mainstate nofun) id

/-! ## §4 Sequences of events -/

/-- A quiescent module stays quiescent exactly while the events are harmless. -/
theorem quiescentAlong_iff {s₀ s : Esb} (h : Quiescent s₀ s) (evs : List RadioEvent) :
    QuiescentAlong s₀ s evs ↔ HarmlessAlong s₀ s evs := by
  induction evs generalizing s with
  | nil => exact iff_of_true h trivial
  | cons ev evs ih =>
    unfold QuiescentAlong HarmlessAlong
    constructor
    · rintro ⟨-, hrest⟩
      -- the rest starts from a quiescent state, so the event was harmless
      have hnext : Quiescent s₀ (radioIrqHandler ev s) := by
        cases evs with
        | nil => exact hrest
        | cons _ _ => exact hrest.1
      exact ⟨(quiescent_radioIrq_iff h ev).mp hnext, (ih hnext).mp hrest⟩
    · rintro ⟨hharmless, hrest⟩
      have hnext := (quiescent_radioIrq_iff h ev).mpr hharmless
      exact ⟨h, (ih hnext).mpr hrest⟩

/-- **Disabled means quiescent**, after any state and along any sequence of DISABLED events,
    exactly if every event is harmless. -/
theorem quiescentAlong_disable_iff (s : Esb) (evs : List RadioEvent) :
    QuiescentAlong (nrfEsbDisable s) (nrfEsbDisable s) evs ↔
      HarmlessAlong (nrfEsbDisable s) (nrfEsbDisable s) evs :=
  quiescentAlong_iff (quiescent_disable s) evs

/-- A module whose handler cannot run stays disabled. -/
theorem harmlessAlong_of_no_handler {s₀ s : Esb}
    (h : s.radio.intensetDisabled = false ∨ s.onRadioDisabled = none) (evs : List RadioEvent) :
    HarmlessAlong s₀ s evs := by
  induction evs generalizing s with
  | nil => trivial
  | cons ev evs ih =>
    have hirq : radioIrqHandler ev s = ev.latch s := by
      rw [radioIrqHandler_eq, latch_intensetDisabled]
      rcases h with hinten | hnone
      · rw [hinten, if_neg (by simp)]
      · unfold callOnRadioDisabled
        rw [latch_onRadioDisabled, hnone]
        split <;> rfl
    refine ⟨?_, ?_⟩
    · intro hrun
      rcases h with hinten | hnone
      · rw [hrun] at hinten
        cases hinten
      · rw [hnone]
        trivial
    · rw [hirq]
      apply ih
      rwa [latch_intensetDisabled, latch_onRadioDisabled]

/-- A packet that wants an acknowledgment is on air when the module is disabled. -/
def disabledInTx : Esb :=
  nrfEsbDisable (nrfEsbWritePayload (some (.ofBytes 0 0 [1]))
    (nrfEsbInit (some nrfEsbDefaultConfig) .reset).2).2

/-- **A disabled module may wake up**: the end of the packet in flight opens the window for its
    acknowledgment. -/
theorem not_quiescentAlong_disabledInTx :
    ¬ ∀ (calls : List EsbCall) (evs : List RadioEvent),
      QuiescentAlong (nrfEsbDisable (calls.foldl Esb.exec .reset))
        (nrfEsbDisable (calls.foldl Esb.exec .reset)) evs := by
  intro h
  have hquiet : Quiescent disabledInTx (radioIrqHandler .silent disabledInTx) :=
    (h [.init (some nrfEsbDefaultConfig), .writePayload (some (.ofBytes 0 0 [1]))] [.silent]).2
  exact absurd hquiet.mainstate (by decide)

end NordicEsb
