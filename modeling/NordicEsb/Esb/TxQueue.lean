import NordicEsb.Esb.Reception
import NordicEsb.Lib.Machine

/-!
# The TX FIFO as a Bounded Queue

What the TX FIFO is *for*: a queue of at most `NRF_ESB_TX_FIFO_SIZE` payloads.
`txEffect` says which queue operation each call and each radio event stands for
according to the documentation of `nrf_esb.h`; `TxTrace` runs the module next to
that queue, and numbers the accepted payloads so that two payloads with equal
contents stay different.

**Main result** (`txFifo_refines_queue_iff`): along a run the FIFO represents the
queue in every state reached exactly if `nrf_esb_pop_tx` never succeeds. That
function is documented as removing the first item, and steps the entry point.
-/

namespace NordicEsb

/-! ## §1 The specification -/

/-- A PTX transaction ends with success when the current handler runs on `s`. -/
def completesTx (s : Esb) : Bool :=
  match s.onRadioDisabled with
  | some .txNoack => true
  | some .txWaitForAck => s.radio.eventsEnd && s.radio.crcstatus
  | _ => false

/-- The effect of the handler that `RADIO_IRQHandler` runs on the latched state `s`. -/
def radioTxEffect (s : Esb) : QueueOp :=
  if s.radio.intensetDisabled && (completesTx s || preparesAckDpl s && ackPayloadDelivered s) then
    .removeHead
  else .keep

/-- The effect on the queue that the interface documents for a successful call. -/
def documentedEffect (s : Esb) : EsbCall → QueueOp
  | .init _ | .disable | .flushTx => .empty
  | .writePayload _ => .append
  | .popTx => .removeHead
  | .radioIrq ev => radioTxEffect (ev.latch s)
  | _ => .keep

/-- The effect of a call on the queue: the documented one, and none if the call is rejected. -/
def txEffect (s : Esb) (c : EsbCall) : QueueOp :=
  if (s.call c).1 = .success then documentedEffect s c else .keep

/-- The payload a successful `nrf_esb_write_payload` stores: the caller's, with its PID. -/
def writtenPayload (s : Esb) : EsbCall → NrfEsbPayload
  | .writePayload (some p) => { p with pid := nextPid s p.pipe }
  | _ => default

/-! ## §2 The TX FIFO after each function -/

@[simp] theorem startTxTransaction_txFifo (s : Esb) : (startTxTransaction s).txFifo = s.txFifo :=
  rfl

theorem onRadioDisabledTxNoack_txFifo (s : Esb) :
    (onRadioDisabledTxNoack s).txFifo = (txFifoRemoveLast s).txFifo := by
  unfold onRadioDisabledTxNoack
  dsimp only
  split <;> rfl

theorem onRadioDisabledTx_txFifo (s : Esb) : (onRadioDisabledTx s).txFifo = s.txFifo := rfl

theorem onRadioDisabledRxAck_txFifo (s : Esb) : (onRadioDisabledRxAck s).txFifo = s.txFifo := rfl

theorem onRadioDisabledTxWaitForAck_txFifo (s : Esb) :
    (onRadioDisabledTxWaitForAck s).txFifo =
      if s.radio.eventsEnd && s.radio.crcstatus then (txFifoRemoveLast s).txFifo else s.txFifo := by
  unfold onRadioDisabledTxWaitForAck
  dsimp only
  split
  · unfold onAckReceived
    dsimp only
    split <;> split <;> rfl
  · unfold onAckMissed
    dsimp only
    split <;> rfl

theorem callOnRadioDisabled_txFifo (s : Esb) (x : NrfEsbPayload)
    (hi : s.radio.intensetDisabled = true) :
    (callOnRadioDisabled s).txFifo = (radioTxEffect s).onRing x s.txFifo := by
  unfold radioTxEffect callOnRadioDisabled completesTx preparesAckDpl
  cases hh : s.onRadioDisabled with
  | none => simp [QueueOp.onRing]
  | some f =>
    cases f with
    | txNoack =>
      simp [hi, onRadioDisabledTxNoack_txFifo, txFifoRemoveLast, QueueOp.onRing]
    | tx => simp [onRadioDisabledTx_txFifo, QueueOp.onRing]
    | txWaitForAck =>
      simp only [onRadioDisabledTxWaitForAck_txFifo, hi]
      cases s.radio.eventsEnd && s.radio.crcstatus <;>
        simp [txFifoRemoveLast, QueueOp.onRing]
    | rx =>
      simp only [onRadioDisabledRx_txFifo, hi, beq_self_eq_true, Bool.true_and, Bool.false_or]
      by_cases hd : (acksDpl s && ackPayloadDelivered s) = true
      · have hpos : 0 < s.txFifo.count := by
          simp only [ackPayloadDelivered, ackPayloadMatches, Bool.and_eq_true,
            decide_eq_true_eq] at hd
          exact hd.2.1.1.1
        simp only [hd, if_true, QueueOp.onRing, if_pos hpos]
      · rw [if_neg hd, if_neg hd]
        rfl
    | rxAck => simp [onRadioDisabledRxAck_txFifo, QueueOp.onRing]

/-- The radio interrupt performs the operation `radioTxEffect` names. -/
theorem radioIrqHandler_txFifo (ev : RadioEvent) (s : Esb) (x : NrfEsbPayload) :
    (radioIrqHandler ev s).txFifo = (radioTxEffect (ev.latch s)).onRing x s.txFifo := by
  rw [radioIrqHandler_eq, ← latch_txFifo ev s]
  cases hi : (ev.latch s).radio.intensetDisabled with
  | false => simp [radioTxEffect, hi, QueueOp.onRing]
  | true => exact callOnRadioDisabled_txFifo _ x hi

theorem nrfEsbInit_txFifo (cfg : NrfEsbConfig) (s : Esb) :
    (nrfEsbInit (some cfg) s).2.txFifo = s.txFifo.clear := by
  unfold nrfEsbInit
  dsimp only
  split <;> rfl

theorem nrfEsbInit_configLocal (cfg : NrfEsbConfig) (s : Esb) :
    (nrfEsbInit (some cfg) s).2.configLocal = cfg := by
  unfold nrfEsbInit
  dsimp only
  split <;> rfl

/-- The checks of `nrf_esb_write_payload` for the payload `p`. -/
def writeAccepted (s : Esb) (p : NrfEsbPayload) : Bool :=
  s.esbInitialized && payloadLengthValid s.configLocal p &&
    decide (s.txFifo.count < nrfEsbTxFifoSize) &&
    !(s.configLocal.mode == .ptx && p.noack != 0 && !s.configLocal.selectiveAutoAck)

/-- A write that passes the checks enqueues, and starts a transaction if it may. -/
theorem nrfEsbWritePayload_of_accepted {s : Esb} {p : NrfEsbPayload}
    (h : writeAccepted s p = true) :
    nrfEsbWritePayload (some p) s =
      (.success,
        if autoStarts (enqueuePayload p s) then startTxTransaction (enqueuePayload p s)
        else enqueuePayload p s) := by
  simp only [writeAccepted, Bool.and_eq_true, decide_eq_true_eq, Bool.not_eq_true',
    Bool.and_eq_false_iff, beq_eq_false_iff_ne, bne_eq_false_iff_eq, Bool.not_eq_false'] at h
  obtain ⟨⟨⟨hinit, hlen⟩, hroom⟩, hnoack⟩ := h
  have hmode : ¬ (s.configLocal.mode = .ptx ∧ p.noack ≠ 0 ∧
      s.configLocal.selectiveAutoAck = false) := by
    rintro ⟨h₁, h₂, h₃⟩
    simp_all
  unfold nrfEsbWritePayload
  rw [if_neg (by simp [hinit])]
  dsimp only
  rw [if_neg (by simp [hlen]), if_neg (by omega), if_neg hmode]
  split <;> rfl

/-- Only such a write succeeds. -/
theorem accepted_of_nrfEsbWritePayload {s : Esb} {pPayload : Option NrfEsbPayload}
    (h : (nrfEsbWritePayload pPayload s).1 = .success) :
    ∃ p, pPayload = some p ∧ writeAccepted s p = true := by
  revert h
  unfold nrfEsbWritePayload
  split
  · simp
  · cases pPayload with
    | none => simp
    | some p =>
      dsimp only
      repeat' split
      all_goals simp_all [writeAccepted]
      all_goals grind

theorem nrfEsbWritePayload_txFifo {pPayload : Option NrfEsbPayload} {s : Esb}
    (h : (nrfEsbWritePayload pPayload s).1 = .success) :
    (nrfEsbWritePayload pPayload s).2.txFifo =
      s.txFifo.push (writtenPayload s (.writePayload pPayload)) := by
  obtain ⟨p, rfl, hacc⟩ := accepted_of_nrfEsbWritePayload h
  rw [nrfEsbWritePayload_of_accepted hacc]
  dsimp only
  split <;> rfl

/-- A rejected call leaves the module as it was. -/
theorem exec_of_rejected (s : Esb) (c : EsbCall) (h : (s.call c).1 ≠ .success) : s.exec c = s := by
  unfold Esb.exec
  revert h
  cases c with
  | init pConfig => cases pConfig <;> simp [Esb.call, nrfEsbInit]
  | writePayload pPayload =>
    simp only [Esb.call, nrfEsbWritePayload]
    repeat' split
    all_goals simp
  | readRxPayload pPayload =>
    simp only [Esb.call, nrfEsbReadRxPayload]
    repeat' split
    all_goals simp_all
  | setBaseAddress0 pAddr =>
    simp only [Esb.call, nrfEsbSetBaseAddress0]
    repeat' split
    all_goals simp
  | setBaseAddress1 pAddr =>
    simp only [Esb.call, nrfEsbSetBaseAddress1]
    repeat' split
    all_goals simp
  | setPrefixes pPrefixes numPipes =>
    simp only [Esb.call, nrfEsbSetPrefixes]
    repeat' split
    all_goals simp
  | disable | evtIrq | radioIrq => simp [Esb.call]
  | _ =>
    simp only [Esb.call, nrfEsbSuspend, nrfEsbStartTx, nrfEsbStartRx, nrfEsbStopRx,
      nrfEsbFlushTx, nrfEsbPopTx, nrfEsbFlushRx, nrfEsbSetAddressLength, nrfEsbUpdatePrefix,
      nrfEsbEnablePipes, nrfEsbSetRfChannel, nrfEsbSetTxPower]
    repeat' split
    all_goals simp

/-- The calls that are documented to leave the queue alone leave the TX FIFO alone. -/
theorem exec_txFifo_of_keep (s : Esb) (c : EsbCall) (hc : ∀ ev, c ≠ .radioIrq ev)
    (h : documentedEffect s c = .keep) : (s.exec c).txFifo = s.txFifo := by
  unfold Esb.exec
  cases c with
  | init | disable | flushTx | writePayload | popTx => simp [documentedEffect] at h
  | radioIrq ev => exact absurd rfl (hc ev)
  | evtIrq =>
    simp only [Esb.call, esbEvtIrqHandler]
    repeat' split
    all_goals rfl
  | readRxPayload pPayload =>
    simp only [Esb.call, nrfEsbReadRxPayload]
    repeat' split
    all_goals simp_all
  | _ =>
    simp only [Esb.call, nrfEsbSuspend, nrfEsbStartTx, nrfEsbStartRx, nrfEsbStopRx,
      nrfEsbFlushRx, nrfEsbSetAddressLength, nrfEsbSetBaseAddress0, nrfEsbSetBaseAddress1,
      nrfEsbSetPrefixes, nrfEsbUpdatePrefix, nrfEsbEnablePipes, nrfEsbSetRfChannel,
      nrfEsbSetTxPower]
    repeat' split
    all_goals rfl

/-- **What a call does to the TX FIFO**: every call but `nrf_esb_pop_tx` performs on the ring
    the operation its documentation promises on the queue. -/
theorem exec_txFifo (s : Esb) (c : EsbCall) (hc : c ≠ .popTx) :
    (s.exec c).txFifo = (txEffect s c).onRing (writtenPayload s c) s.txFifo := by
  unfold txEffect
  by_cases hok : (s.call c).1 = .success
  · rw [if_pos hok]
    cases c with
    | init pConfig =>
      cases pConfig with
      | none => cases hok
      | some cfg => exact nrfEsbInit_txFifo cfg s
    | writePayload pPayload => exact nrfEsbWritePayload_txFifo hok
    | popTx => exact absurd rfl hc
    | disable => rfl
    | flushTx =>
      revert hok
      simp only [Esb.exec, Esb.call, nrfEsbFlushTx]
      split <;> simp [documentedEffect, QueueOp.onRing]
    | radioIrq ev => exact radioIrqHandler_txFifo ev s _
    | _ => exact exec_txFifo_of_keep s _ (by simp) rfl
  · rw [if_neg hok, exec_of_rejected s c hok]
    rfl

/-- Only an accepted `nrf_esb_write_payload` appends. -/
theorem txEffect_eq_append {s : Esb} {c : EsbCall} (h : txEffect s c = .append) :
    ∃ p, c = .writePayload (some p) ∧ writeAccepted s p = true := by
  unfold txEffect at h
  split at h
  case isTrue hok =>
    cases c with
    | writePayload pPayload =>
      obtain ⟨p, rfl, hacc⟩ := accepted_of_nrfEsbWritePayload hok
      exact ⟨p, rfl, hacc⟩
    | radioIrq ev =>
      simp only [documentedEffect, radioTxEffect] at h
      split at h <;> cases h
    | _ => simp [documentedEffect] at h
  case isFalse => cases h

theorem count_lt_of_writeAccepted {s : Esb} {p : NrfEsbPayload} (h : writeAccepted s p = true) :
    s.txFifo.count < nrfEsbTxFifoSize := by
  simp only [writeAccepted, Bool.and_eq_true, decide_eq_true_eq] at h
  exact h.1.2

/-! ## §3 Runs -/

/-- The payload at the exit point is the head of the queue. -/
theorem head_of_represents {r : TxFifo} {q : List (ℕ × NrfEsbPayload)} {x : ℕ × NrfEsbPayload}
    (h : r.Represents (q.map Prod.snd)) (hx : q.head? = some x) : r.head = x.2 := by
  cases q with
  | nil => simp at hx
  | cons y q =>
    simp only [List.head?_cons, Option.some.injEq] at hx
    subst hx
    exact h.head_cons

/-- The payload in the next cell is the second of the queue. -/
theorem second_of_represents {r : TxFifo} {q : List (ℕ × NrfEsbPayload)}
    {x : ℕ × NrfEsbPayload} (h : r.Represents (q.map Prod.snd)) (hx : q.tail.head? = some x) :
    r.dropHead.head = x.2 ∧ 2 ≤ r.count := by
  match q, hx with
  | _ :: y :: q, hx =>
    simp only [List.tail_cons, List.head?_cons, Option.some.injEq] at hx
    subst hx
    have hcount := h.count_eq
    simp only [List.map_cons, List.length_cons] at hcount
    exact ⟨h.second, by omega⟩

/-- The module next to the queue its TX FIFO stands for. The payloads are numbered in the order
    in which they were accepted. -/
structure TxTrace where
  esb : Esb
  /-- The payloads waiting for transmission, oldest first. -/
  queue : List (ℕ × NrfEsbPayload)
  /-- The payloads accepted so far; a payload's number is its place here. -/
  accepted : List NrfEsbPayload

namespace TxTrace

/-- Before any call the queue is empty. -/
def start (s : Esb) : TxTrace := ⟨s, [], []⟩

/-- One call on both sides. -/
def step (t : TxTrace) (c : EsbCall) : TxTrace where
  esb := t.esb.exec c
  queue := (txEffect t.esb c).onList (t.accepted.length, writtenPayload t.esb c) t.queue
  accepted :=
    if txEffect t.esb c = .append then t.accepted ++ [writtenPayload t.esb c] else t.accepted

/-- A sequence of calls. -/
def run (t : TxTrace) (l : List EsbCall) : TxTrace := l.foldl step t

/-- The payloads in the queue. -/
def payloads (t : TxTrace) : List NrfEsbPayload := t.queue.map Prod.snd

theorem run_concat (t : TxTrace) (l : List EsbCall) (c : EsbCall) :
    t.run (l ++ [c]) = (t.run l).step c := by
  simp [run]

/-- **The TX FIFO is the queue**: the ring represents it, and a rejected call leaves the ring
    unchanged. -/
structure Refines (t : TxTrace) : Prop where
  represents : t.esb.txFifo.Represents t.payloads
  rejected : ∀ c, (t.esb.call c).1 ≠ .success → (t.esb.exec c).txFifo = t.esb.txFifo

theorem Refines.of_represents {t : TxTrace} (h : t.esb.txFifo.Represents t.payloads) :
    t.Refines :=
  ⟨h, fun c hc => by rw [exec_of_rejected _ c hc]⟩

/-- A call other than `nrf_esb_pop_tx` keeps FIFO and queue together. -/
theorem step_represents {t : TxTrace} {c : EsbCall} (h : t.esb.txFifo.Represents t.payloads)
    (hc : c ≠ .popTx) : (t.step c).esb.txFifo.Represents (t.step c).payloads := by
  simp only [step, payloads, QueueOp.map_onList, exec_txFifo t.esb c hc]
  refine QueueOp.represents_onRing h _ _ fun happ => ?_
  obtain ⟨p, -, hacc⟩ := txEffect_eq_append happ
  exact count_lt_of_writeAccepted hacc

/-- `nrf_esb_pop_tx` tears them apart, unless it finds nothing to pop. -/
theorem step_popTx_represents_iff {t : TxTrace} (h : t.esb.txFifo.Represents t.payloads) :
    (t.step .popTx).esb.txFifo.Represents (t.step .popTx).payloads ↔
      ¬ (t.esb.esbInitialized = true ∧ 0 < t.esb.txFifo.count) := by
  constructor
  · rintro h' ⟨hinit, hpos⟩
    have hexec : (t.esb.exec .popTx).txFifo =
        { t.esb.txFifo with
          entryPoint := RingQueue.advance nrfEsbTxFifoSize t.esb.txFifo.entryPoint
          count := t.esb.txFifo.count - 1 } := by
      simp [Esb.exec, Esb.call, nrfEsbPopTx, hinit, hpos.ne']
    rw [show (t.step .popTx).esb = t.esb.exec .popTx from rfl, hexec] at h'
    exact RingQueue.not_represents_of_entry_advanced h hpos (by decide) _ h'
  · intro hno
    have hrej : (t.esb.call .popTx).1 ≠ .success := by
      simp only [Esb.call, nrfEsbPopTx]
      split
      · simp
      · split
        · simp
        · exact absurd ⟨by simp_all, by omega⟩ hno
    have heff : txEffect t.esb .popTx = .keep := if_neg hrej
    simp only [step, payloads, heff, exec_of_rejected _ _ hrej]
    exact h

end TxTrace

/-- The module after a reset, and the empty queue. -/
def freshTrace : TxTrace := .start .reset

theorem freshTrace_represents : freshTrace.esb.txFifo.Represents freshTrace.payloads :=
  RingQueue.represents_clear Esb.reset.txFifo (by decide)

/-- **The TX FIFO refines a bounded queue exactly on the runs that never pop**: in every state
    of a run the FIFO represents the queue and rejected calls leave it unchanged, if and only if
    no `nrf_esb_pop_tx` of the run is called on an initialised module with a non-empty FIFO. -/
theorem txFifo_refines_queue_iff (l : List EsbCall) :
    (∀ l₁, l₁ <+: l → (freshTrace.run l₁).Refines) ↔
      ∀ l₁, l₁ ++ [.popTx] <+: l →
        ¬ ((freshTrace.run l₁).esb.esbInitialized = true ∧
          0 < (freshTrace.run l₁).esb.txFifo.count) := by
  constructor
  · intro h l₁ hl
    have hpre := (h l₁ ((List.prefix_append _ _).trans hl)).represents
    have hpost := (h _ hl).represents
    rw [TxTrace.run_concat] at hpost
    exact (TxTrace.step_popTx_represents_iff hpre).mp hpost
  · intro h l₁
    -- along the run, one call at a time
    induction l₁ using List.reverseRecOn with
    | nil => exact fun _ => .of_represents freshTrace_represents
    | append_singleton l₁ c ih =>
      intro hl
      have hpre := (ih ((List.prefix_append _ _).trans hl)).represents
      rw [TxTrace.run_concat]
      apply TxTrace.Refines.of_represents
      by_cases hc : c = .popTx
      · subst hc
        exact (TxTrace.step_popTx_represents_iff hpre).mpr (h l₁ hl)
      · exact TxTrace.step_represents hpre hc

/-- Two payloads are written and one is popped. -/
def popTxRun : List EsbCall :=
  [.init (some nrfEsbDefaultConfig), .writePayload (some (.ofBytes 0 0 [1])),
    .writePayload (some (.ofBytes 0 0 [2])), .popTx]

/-- The pop leaves the first payload at the exit point and loses the second one. -/
theorem txFifo_not_refines_queue_popTxRun :
    ¬ ∀ l₁, l₁ <+: popTxRun → (freshTrace.run l₁).Refines := by
  intro h
  have hr := (h popTxRun List.prefix_rfl).represents
  have hentry : (freshTrace.run popTxRun).esb.txFifo.entryPoint = 3 := by decide
  have hexit : (freshTrace.run popTxRun).esb.txFifo.exitPoint = 0 := by decide
  have hcount : (freshTrace.run popTxRun).esb.txFifo.count = 1 := by decide
  have := hr.entry_eq
  rw [hentry, hexit, hcount] at this
  exact absurd this (by decide)

end NordicEsb
