import NordicEsb.Esb.TxQueue

/-!
# ACK Payloads of a Primary Receiver

Under DPL the TX FIFO of a receiver holds payloads that travel in acknowledgments.
`on_radio_disabled_rx` looks at the head once, and with the pipe's `ack_payload` flag set it
removes that head as delivered and loads the next cell in the same breath.

- `ackContent_iff`: an acknowledgment is empty or carries the live head for its pipe, unless
  the handler has just removed a payload and nothing for this pipe follows it.
- `accountedFor_of_reachable`: a removed payload was sent before, in every run in which no
  payload reaches the head while the flag of its pipe is still set from an earlier one.

`PrxTrace` records which payloads were loaded into acknowledgments of which pipe.
-/

namespace NordicEsb

/-! ## §1 A receiver and its acknowledgments -/

/-- `m_rx_pipe_info[pipe].ack_payload` -/
def ackFlag (s : Esb) (pipe : UInt8) : Bool := (s.rxPipeInfo.get pipe.toNat).ackPayload

/-- A receiver next to its queue, with the payloads loaded into acknowledgments and the pipe of
    each acknowledgment. -/
structure PrxTrace extends TxTrace where
  loaded : List (ℕ × UInt8)

namespace PrxTrace

/-- The entry of `loaded` for a radio interrupt on the latched state `s`, when `head` is the
    head of the queue afterwards. -/
def loadedBy (s : Esb) (head : Option (ℕ × NrfEsbPayload)) : List (ℕ × UInt8) :=
  if preparesAckDpl s && ackPayloadMatches s then
    (head.map fun x => (x.1, rxmatchByte s)).toList
  else []

/-- One call; an acknowledgment with a payload takes the head of the queue. -/
def step (t : PrxTrace) (c : EsbCall) : PrxTrace where
  toTxTrace := t.toTxTrace.step c
  loaded :=
    match c with
    | .radioIrq ev => loadedBy (ev.latch t.esb) (t.toTxTrace.step c).queue.head? ++ t.loaded
    | _ => t.loaded

/-- The steps of a receiver: no second initialisation, no transmission, and not the defective
    `nrf_esb_pop_tx`. DISABLED fires only while the radio is in use. -/
def Enabled (t : PrxTrace) : EsbCall → Prop
  | .init _ | .disable | .startTx | .popTx => False
  | .radioIrq _ => t.esb.mainstate ≠ .idle
  | _ => True

instance (t : PrxTrace) : DecidablePred t.Enabled := fun c => by
  cases c <;> unfold Enabled <;> infer_instance

/-- A freshly initialised receiver with dynamic payload length and its steps. -/
def machine : Machine PrxTrace EsbCall where
  start t := ∃ cfg s, cfg.mode = .prx ∧ cfg.protocol = .esbDpl ∧
    t = ⟨.start (nrfEsbInit (some cfg) s).2, []⟩
  enabled := Enabled
  step := step

instance (t : PrxTrace) (c : EsbCall) : Decidable (machine.enabled t c) :=
  inferInstanceAs (Decidable (t.Enabled c))

/-! ## §2 What every step keeps -/

/-- The API calls leave a receiver a receiver, and set no `ack_payload` flag. -/
theorem exec_receives {t : PrxTrace} {c : EsbCall} (hen : t.Enabled c) (h : Receives t.esb)
    (hirq : ∀ ev, c ≠ .radioIrq ev) :
    Receives (t.esb.exec c) ∧ ∀ q, ackFlag (t.esb.exec c) q = true → ackFlag t.esb q = true := by
  by_cases hok : (t.esb.call c).1 = .success
  case neg =>
    rw [exec_of_rejected _ c hok]
    exact ⟨h, fun _ => id⟩
  unfold Esb.exec
  revert hok
  cases c with
  | init | disable | startTx | popTx => exact absurd hen id
  | radioIrq ev => exact absurd rfl (hirq ev)
  | writePayload pPayload =>
    intro hok
    obtain ⟨p, rfl, hacc⟩ := accepted_of_nrfEsbWritePayload hok
    have hauto : autoStarts (enqueuePayload p t.esb) = false := by
      have : (enqueuePayload p t.esb).configLocal.mode = .prx := h.mode
      simp [autoStarts, this]
    rw [Esb.call, nrfEsbWritePayload_of_accepted hacc, hauto]
    exact ⟨⟨h.mode, h.protocol, h.handler⟩, fun _ => id⟩
  | flushTx | readRxPayload | evtIrq =>
    simp only [Esb.call, nrfEsbFlushTx, nrfEsbReadRxPayload, esbEvtIrqHandler]
    repeat' split
    all_goals exact fun _ => ⟨⟨h.mode, h.protocol, h.handler⟩, fun _ => id⟩
  | flushRx =>
    simp only [Esb.call, nrfEsbFlushRx]
    split
    · exact fun _ => ⟨h, fun _ => id⟩
    · refine fun _ => ⟨⟨h.mode, h.protocol, h.handler⟩, fun q hq => ?_⟩
      rw [ackFlag, FixedArray.get_default] at hq
      cases hq
  | startRx =>
    simp only [Esb.call, nrfEsbStartRx]
    split
    · exact fun _ => ⟨h, fun _ => id⟩
    · exact fun _ => ⟨⟨h.mode, h.protocol, rfl, rfl⟩, fun _ => id⟩
  | stopRx =>
    simp only [Esb.call, nrfEsbStopRx]
    split
    · exact fun _ => ⟨h.of_idle rfl rfl rfl, fun _ => id⟩
    · exact fun _ => ⟨h, fun _ => id⟩
  | _ =>
    -- these calls want a resting module, and leave it resting
    simp only [Esb.call, nrfEsbSuspend, nrfEsbSetAddressLength, nrfEsbSetBaseAddress0,
      nrfEsbSetBaseAddress1, nrfEsbSetPrefixes, nrfEsbUpdatePrefix, nrfEsbEnablePipes,
      nrfEsbSetRfChannel, nrfEsbSetTxPower]
    by_cases hidle : t.esb.mainstate = .idle
    · intro _
      repeat' split
      all_goals
        first
        | exact ⟨h, fun _ => id⟩
        | exact ⟨h.of_idle hidle rfl rfl, fun _ => id⟩
        | exact ⟨h.of_idle rfl rfl rfl, fun _ => id⟩
    · simp [hidle]

/-- What every step keeps: a receiver whose FIFO is its queue, with no empty payload in it. -/
structure Invariant (t : PrxTrace) : Prop where
  receives : Receives t.esb
  fifo : t.esb.txFifo.Represents t.payloads
  length_ne : ∀ x ∈ t.queue, x.2.length ≠ 0

theorem invariant_start {t : PrxTrace} (h : machine.start t) : Invariant t := by
  obtain ⟨cfg, s, hmode, hproto, rfl⟩ := h
  have hcfg : (nrfEsbInit (some cfg) s).2.configLocal = cfg := nrfEsbInit_configLocal cfg s
  refine ⟨⟨hcfg ▸ hmode, hcfg ▸ hproto, ?_⟩, ?_, by simp [TxTrace.start]⟩
  · exact trivial
  · simp only [TxTrace.start, TxTrace.payloads, List.map_nil, nrfEsbInit_txFifo]
    exact s.txFifo.represents_clear (by decide)

/-- The queue is only appended to by a write, and a written payload is not empty. -/
theorem step_length_ne {t : PrxTrace} {c : EsbCall} (h : ∀ x ∈ t.queue, x.2.length ≠ 0) :
    ∀ x ∈ (t.step c).queue, x.2.length ≠ 0 := by
  intro x hx
  simp only [step, TxTrace.step] at hx
  cases heff : txEffect t.esb c with
  | keep => exact h x (by simpa [heff, QueueOp.onList] using hx)
  | removeHead => exact h x (List.mem_of_mem_tail (by simpa [heff, QueueOp.onList] using hx))
  | empty => simp [heff, QueueOp.onList] at hx
  | append =>
    rw [heff] at hx
    rcases List.mem_append.mp hx with hx | hx
    · exact h x hx
    · obtain ⟨p, rfl, hacc⟩ := txEffect_eq_append heff
      have hlen : p.length ≠ 0 := by
        rintro h0
        simp [writeAccepted, payloadLengthValid, h0] at hacc
      rw [List.mem_singleton.mp hx]
      exact hlen

/-- **One step keeps the invariant.** -/
theorem invariant_step {t : PrxTrace} {c : EsbCall} (h : Invariant t) (hen : machine.enabled t c) :
    Invariant (t.step c) := by
  refine ⟨?_, TxTrace.step_represents h.fifo ?_, step_length_ne h.length_ne⟩
  · by_cases hirq : ∃ ev, c = .radioIrq ev
    · obtain ⟨ev, rfl⟩ := hirq
      exact radioIrqHandler_receives ev h.receives hen
    · push Not at hirq
      exact (exec_receives hen h.receives hirq).1
  · rintro rfl
    exact hen

theorem invariant_of_reachable {C : PrxTrace → EsbCall → Prop} {t : PrxTrace}
    (h : machine.ReachableUnder C t) : Invariant t :=
  h.invariant (fun _ => invariant_start) fun _ _ hinv hen _ => invariant_step hinv hen

/-! ## §3 What an acknowledgment carries -/

/-- The prepared acknowledgment is empty, or it carries the live head of the TX FIFO and that
    payload was written for the pipe of the received packet. -/
def AckContentOk (s : Esb) : Prop :=
  s.txPayloadBuffer.byte0 = 0 ∨
    0 < s.txFifo.count ∧ AckCarries s.txPayloadBuffer s.txFifo.head ∧
      s.txFifo.head.pipe = rxmatchByte s

/-- The head is about to be removed as delivered, and the cell behind it is a dead one with
    something in it, or a live one for another pipe. -/
def StaleAck (s : Esb) : Prop :=
  ackPayloadDelivered s = true ∧
    if s.txFifo.count = 1 then s.txFifo.dropHead.head.length ≠ 0
    else s.txFifo.dropHead.head.pipe ≠ rxmatchByte s

/-- The two cells an acknowledgment can be loaded from, by what the queue holds. -/
theorem ackContentOk_onRadioDisabledRx_iff {s : Esb} {q : List NrfEsbPayload}
    (hfifo : s.txFifo.Represents q) (hlen : ∀ x ∈ q, x.length ≠ 0) (hack : acksDpl s = true) :
    AckContentOk (onRadioDisabledRx s) ↔ ¬ StaleAck s := by
  have hbuf := onRadioDisabledRx_ackBuffer hack
  have htx := onRadioDisabledRx_txFifo s
  have hpipe : rxmatchByte (onRadioDisabledRx s) = rxmatchByte s := by
    unfold rxmatchByte
    rw [(onRadioDisabledRx_frame s).rxmatch]
  unfold AckContentOk StaleAck
  rw [hpipe]
  rw [hack, Bool.true_and] at htx
  cases hm : ackPayloadMatches s with
  | false =>
    -- the acknowledgment is empty
    rw [hm, if_neg (by simp)] at hbuf
    have hdel : ackPayloadDelivered s = false := by simp [ackPayloadDelivered, hm]
    simp [hbuf, hdel]
  | true =>
    rw [hm, if_pos rfl] at hbuf
    obtain ⟨hpos, hhead⟩ : 0 < s.txFifo.count ∧ s.txFifo.head.pipe = rxmatchByte s := by
      simpa [ackPayloadMatches] using hm
    cases hdel : ackPayloadDelivered s with
    | false =>
      -- it carries the head, which stays
      rw [hdel, if_neg (by simp)] at htx
      rw [htx] at hbuf ⊢
      simp [hbuf, hpos, hhead]
    | true =>
      -- it carries the cell behind the head
      rw [hdel, if_pos rfl] at htx
      rw [htx] at hbuf ⊢
      have hcount : s.txFifo.dropHead.count = s.txFifo.count - 1 := rfl
      by_cases hone : s.txFifo.count = 1
      · simp [hcount, hone, hbuf.1]
      · have hlive : s.txFifo.dropHead.head.length ≠ 0 := by
          obtain _ | ⟨x, _ | ⟨y, rest⟩⟩ := q
          · simp [hfifo.count_eq] at hpos
          · simp [hfifo.count_eq] at hone
          · have hsecond : s.txFifo.dropHead.head = y := hfifo.second
            rw [hsecond]
            exact hlen y (by simp)
        have hmore : 0 < s.txFifo.count - 1 := by omega
        simp [hcount, hone, hbuf, hbuf.1, hlive, hmore]

/-- **An acknowledgment carries what it should, exactly if it is not loaded from a stale
    cell**: in every reachable state, for every packet that is acknowledged. -/
theorem ackContent_iff {t : PrxTrace} (h : machine.Reachable t) (ev : RadioEvent)
    (hbusy : t.esb.mainstate ≠ .idle) (hack : preparesAckDpl (ev.latch t.esb) = true) :
    AckContentOk (radioIrqHandler ev t.esb) ↔ ¬ StaleAck (ev.latch t.esb) := by
  have hinv := invariant_of_reachable h
  have hfifo : (ev.latch t.esb).txFifo.Represents t.payloads := by simpa using hinv.fifo
  -- What the queue holds was accepted, so no packet is empty.
  have hlen : ∀ x ∈ t.payloads, x.length ≠ 0 := by
    intro x hx
    obtain ⟨y, hy, rfl⟩ := List.mem_map.mp hx
    exact hinv.length_ne y hy
  rw [radioIrqHandler_of_preparesAckDpl hinv.receives hbusy hack]
  simp only [preparesAckDpl, Bool.and_eq_true] at hack
  exact ackContentOk_onRadioDisabledRx_iff hfifo hlen hack.2

/-- A receiver that has been started. -/
def defaultStart : PrxTrace :=
  ⟨.start (nrfEsbInit (some { nrfEsbDefaultConfig with mode := .prx }) .reset).2, []⟩

/-- A packet on `pipe` with the given PID, wanting an acknowledgment. -/
def packetOn (pipe : Fin 8) (pid : UInt8) : RadioEvent :=
  .received ⟨pipe, 1, pid <<< 1, [0]⟩ pid.toUInt16

/-- One payload for pipe 0 and one for pipe 1 are queued, and a packet comes in on pipe 0. -/
def twoPipesRun : List EsbCall :=
  [.startRx, .writePayload (some (.ofBytes 0 0 [1])), .writePayload (some (.ofBytes 1 0 [2])),
    .radioIrq (packetOn 0 1), .radioIrq .silent]

/-- The next packet on pipe 0 is answered with the payload for pipe 1. -/
theorem not_ackContentOk_twoPipes :
    ¬ ∀ t, machine.Reachable t → ∀ ev, t.esb.mainstate ≠ .idle →
      preparesAckDpl (ev.latch t.esb) = true → AckContentOk (radioIrqHandler ev t.esb) := by
  intro h
  have hok := h (machine.run defaultStart twoPipesRun)
    (.of_follows (.start ⟨_, .reset, rfl, rfl, rfl⟩) (by decide)) (packetOn 0 2) (by decide)
    (by decide)
  rcases hok with hempty | ⟨_, _, hpipe⟩
  · exact absurd hempty (by decide)
  · exact absurd hpipe (by decide)

/-- The first packet on pipe 0 is answered with the payload for pipe 0. -/
theorem ackContent_iff_twoPipes :
    AckContentOk (radioIrqHandler (packetOn 0 1) (machine.run defaultStart (twoPipesRun.take 3)).esb) ↔
      ¬ StaleAck ((packetOn 0 1).latch (machine.run defaultStart (twoPipesRun.take 3)).esb) :=
  ackContent_iff (.of_follows (.start ⟨_, .reset, rfl, rfl, rfl⟩) (by decide)) (packetOn 0 1)
    (by decide) (by decide)

/-! ## §4 What is removed was sent -/

/-- No payload reaches the head of the TX FIFO while the `ack_payload` flag of its pipe is
    still set, unless it is loaded in that very step: not by a write to an empty FIFO, and not
    by the removal of a payload for another pipe. -/
def FlagFree (t : PrxTrace) : EsbCall → Prop
  | .writePayload (some p) =>
    writeAccepted t.esb p = true → t.esb.txFifo.count = 0 → ackFlag t.esb p.pipe = false
  | .radioIrq ev =>
    let s := ev.latch t.esb
    preparesAckDpl s = true → ackPayloadDelivered s = true → 2 ≤ s.txFifo.count →
      s.txFifo.dropHead.head.pipe ≠ rxmatchByte s →
      ackFlag s s.txFifo.dropHead.head.pipe = false
  | _ => True

instance (t : PrxTrace) : DecidablePred t.FlagFree := fun c => by
  unfold FlagFree
  split <;> infer_instance

/-- **A removed payload was sent**: the FIFO is the queue, and a payload the handler removes
    as delivered has been loaded into an acknowledgment on its own pipe. -/
structure AccountedFor (t : PrxTrace) : Prop where
  fifo : t.esb.txFifo.Represents t.payloads
  removed : ∀ (ev : RadioEvent) x, t.esb.mainstate ≠ .idle →
    preparesAckDpl (ev.latch t.esb) = true → ackPayloadDelivered (ev.latch t.esb) = true →
    t.queue.head? = some x → (x.1, x.2.pipe) ∈ t.loaded

/-- A head whose pipe has the flag set was loaded. -/
def FlaggedHeadLoaded (t : PrxTrace) : Prop :=
  ∀ x, t.queue.head? = some x → ackFlag t.esb x.2.pipe = true → (x.1, x.2.pipe) ∈ t.loaded

theorem accountedFor_of_flaggedHeadLoaded {t : PrxTrace} (hinv : Invariant t)
    (h : FlaggedHeadLoaded t) : AccountedFor t := by
  refine ⟨hinv.fifo, fun ev x hbusy hack hdel hx => h x hx ?_⟩
  have hfifo : (ev.latch t.esb).txFifo.Represents t.payloads := by simpa using hinv.fifo
  have hhead : (ev.latch t.esb).txFifo.head = x.2 := head_of_represents hfifo hx
  simp only [ackPayloadDelivered, ackPayloadMatches, Bool.and_eq_true, decide_eq_true_eq,
    beq_iff_eq] at hdel
  obtain ⟨⟨⟨_, hpipe⟩, hflag⟩, _⟩ := hdel
  unfold ackFlag
  rw [← hhead, hpipe, rxmatchByte_toNat, ← latch_rxPipeInfo ev]
  exact hflag

/-- Only the flag of the packet's pipe changes, and it says whether the acknowledgment carries
    a payload. -/
theorem ackFlag_onRadioDisabledRx (s : Esb) (q : UInt8) :
    ackFlag (onRadioDisabledRx s) q =
      if acksDpl s && q == rxmatchByte s then ackPayloadMatches s else ackFlag s q := by
  unfold ackFlag
  rw [onRadioDisabledRx_rxPipeInfo]
  cases hacc : acceptsRx s with
  | false => simp [acksDpl, hacc]
  | true =>
    rw [if_pos rfl, FixedArray.get_set _ _ _ _ (rxmatch_lt s), ← rxmatchByte_toNat]
    by_cases hq : q = rxmatchByte s
    · subst hq
      have hmatched : (s.rxPipeInfo.get (rxmatchByte s).toNat) = matchedPipeInfo s := by
        rw [rxmatchByte_toNat]
        rfl
      rw [if_pos rfl, hmatched]
      simp [acksDpl, hacc, ackPayloadAfter]
    · have hq' : q.toNat ≠ (rxmatchByte s).toNat := fun h => hq (UInt8.toNat_inj.mp h)
      simp [hq, hq']

/-- The queue after a packet: the head is gone if it was taken for delivered. -/
theorem queue_step_rx {t : PrxTrace} {ev : RadioEvent} (hinv : Invariant t)
    (hbusy : t.esb.mainstate ≠ .idle) (hh : (ev.latch t.esb).onRadioDisabled = some .rx) :
    (t.step (.radioIrq ev)).queue =
      if acksDpl (ev.latch t.esb) && ackPayloadDelivered (ev.latch t.esb) then t.queue.tail
      else t.queue := by
  have hnotdone : completesTx (ev.latch t.esb) = false := by simp only [completesTx, hh]
  have hintenset : (ev.latch t.esb).radio.intensetDisabled = true := by
    rw [latch_intensetDisabled]
    exact (hinv.receives.cases hbusy).1
  have hprep : preparesAckDpl (ev.latch t.esb) = acksDpl (ev.latch t.esb) := by
    simp only [preparesAckDpl, hh, beq_self_eq_true, Bool.true_and]
  have heff : txEffect t.esb (.radioIrq ev) =
      if acksDpl (ev.latch t.esb) && ackPayloadDelivered (ev.latch t.esb) then .removeHead
      else .keep := by
    simp only [txEffect, Esb.call, if_true, documentedEffect, radioTxEffect, hintenset, hnotdone,
      hprep, Bool.true_and, Bool.false_or]
  simp only [step, TxTrace.step, heff]
  split <;> rfl

/-- Receiving a packet keeps `FlaggedHeadLoaded`. -/
theorem flaggedHeadLoaded_step_rx {t : PrxTrace} {ev : RadioEvent} (hinv : Invariant t)
    (h : FlaggedHeadLoaded t) (hC : FlagFree t (.radioIrq ev)) (hbusy : t.esb.mainstate ≠ .idle)
    (hh : (ev.latch t.esb).onRadioDisabled = some .rx)
    (heq : radioIrqHandler ev t.esb = onRadioDisabledRx (ev.latch t.esb)) :
    FlaggedHeadLoaded (t.step (.radioIrq ev)) := by
  intro x hx hflag
  have hloaded : (t.step (.radioIrq ev)).loaded =
      loadedBy (ev.latch t.esb) (t.step (.radioIrq ev)).queue.head? ++ t.loaded := rfl
  have hstate : (t.step (.radioIrq ev)).esb = onRadioDisabledRx (ev.latch t.esb) := heq
  have hfifo : (ev.latch t.esb).txFifo.Represents t.payloads := by simpa using hinv.fifo
  have hkeep : ∀ q, ackFlag (ev.latch t.esb) q = ackFlag t.esb q := by simp [ackFlag]
  have hprep : preparesAckDpl (ev.latch t.esb) = acksDpl (ev.latch t.esb) := by
    simp only [preparesAckDpl, hh, beq_self_eq_true, Bool.true_and]
  rw [hstate, ackFlag_onRadioDisabledRx] at hflag
  rw [queue_step_rx hinv hbusy hh] at hx
  rw [hloaded, queue_step_rx hinv hbusy hh, loadedBy, hprep]
  simp only [FlagFree, hprep] at hC
  generalize ev.latch t.esb = s at *
  cases hack : acksDpl s with
  | false =>
    -- nothing is acknowledged, and nothing changes
    rw [hack] at hx hflag
    simp only [Bool.false_and, Bool.false_eq_true, if_false] at hx hflag ⊢
    exact h x hx ((hkeep _).symm.trans hflag)
  | true =>
    rw [hack] at hx hflag
    simp only [Bool.true_and] at hx hflag ⊢
    cases hm : ackPayloadMatches s with
    | false =>
      -- the flag of this pipe is cleared, and the head stays
      have hdel : ackPayloadDelivered s = false := by simp [ackPayloadDelivered, hm]
      rw [hdel, if_neg (by simp)] at hx
      by_cases hp : x.2.pipe = rxmatchByte s
      · simp [hp, hm] at hflag
      · have hflag' : ackFlag s x.2.pipe = true := by simpa [hp] using hflag
        simpa using h x hx ((hkeep _).symm.trans hflag')
    | true =>
      by_cases hp : x.2.pipe = rxmatchByte s
      · -- the head of this pipe is loaded now
        simp [hx, hp]
      · have hflag' : ackFlag s x.2.pipe = true := by simpa [hp] using hflag
        exfalso
        cases hdel : ackPayloadDelivered s with
        | false =>
          -- the head was for this pipe
          rw [hdel, if_neg (by simp)] at hx
          have hhead := head_of_represents hfifo hx
          simp only [ackPayloadMatches, hhead, Bool.and_eq_true, beq_iff_eq] at hm
          exact hp hm.2
        | true =>
          -- the next payload is exposed, and its flag is clear
          rw [hdel, if_pos rfl] at hx
          obtain ⟨hnext, hcount⟩ := second_of_represents hfifo hx
          have := hC hack hdel hcount (by rwa [hnext])
          rw [hnext, hflag'] at this
          cases this

/-- The end of an acknowledgment keeps `FlaggedHeadLoaded`. -/
theorem flaggedHeadLoaded_step_rxAck {t : PrxTrace} {ev : RadioEvent}
    (h : FlaggedHeadLoaded t) (hh : (ev.latch t.esb).onRadioDisabled = some .rxAck)
    (heq : radioIrqHandler ev t.esb = onRadioDisabledRxAck (ev.latch t.esb)) :
    FlaggedHeadLoaded (t.step (.radioIrq ev)) := by
  have hprep : preparesAckDpl (ev.latch t.esb) = false := by
    rw [preparesAckDpl, hh]
    rfl
  have hdone : completesTx (ev.latch t.esb) = false := by simp only [completesTx, hh]
  have heff : txEffect t.esb (.radioIrq ev) = .keep := by
    simp only [txEffect, Esb.call, if_true, documentedEffect, radioTxEffect, hdone, hprep,
      Bool.false_and, Bool.or_false, Bool.and_false, Bool.false_eq_true, if_false]
  have hqueue : (t.step (.radioIrq ev)).queue = t.queue := by
    simp only [step, TxTrace.step, heff, QueueOp.onList]
  have hloaded : (t.step (.radioIrq ev)).loaded = t.loaded := by
    simp only [step, loadedBy, hprep, Bool.false_and, Bool.false_eq_true, if_false,
      List.nil_append]
  have hflags : ∀ q, ackFlag (t.step (.radioIrq ev)).esb q = ackFlag t.esb q := by
    intro q
    have hesb : (t.step (.radioIrq ev)).esb = onRadioDisabledRxAck (ev.latch t.esb) := heq
    have hinfo : (onRadioDisabledRxAck (ev.latch t.esb)).rxPipeInfo = t.esb.rxPipeInfo :=
      latch_rxPipeInfo ev t.esb
    rw [ackFlag, hesb, hinfo]
    rfl
  intro x hx hflag
  rw [hloaded]
  exact h x (by rwa [hqueue] at hx) (by rwa [hflags] at hflag)

/-- The API calls keep `FlaggedHeadLoaded`: a write to an empty FIFO finds the flag clear. -/
theorem flaggedHeadLoaded_step_call {t : PrxTrace} {c : EsbCall} (hinv : Invariant t)
    (h : FlaggedHeadLoaded t) (hen : machine.enabled t c) (hC : FlagFree t c)
    (hirq : ∀ ev, c ≠ .radioIrq ev) : FlaggedHeadLoaded (t.step c) := by
  intro x hx hflag
  have hflag' : ackFlag t.esb x.2.pipe = true :=
    (exec_receives hen hinv.receives hirq).2 _ hflag
  have hloaded : (t.step c).loaded = t.loaded := by
    cases c with
    | radioIrq ev => exact absurd rfl (hirq ev)
    | _ => rfl
  rw [hloaded]
  apply h x ?_ hflag'
  simp only [step, TxTrace.step] at hx
  cases heff : txEffect t.esb c with
  | keep => simpa [heff, QueueOp.onList] using hx
  | empty => simp [heff, QueueOp.onList] at hx
  | removeHead =>
    -- no call but the excluded `nrf_esb_pop_tx` removes
    exfalso
    unfold txEffect at heff
    split at heff
    · cases c with
      | popTx => exact hen
      | radioIrq ev => exact hirq ev rfl
      | _ => cases heff
    · cases heff
  | append =>
    obtain ⟨p, rfl, hacc⟩ := txEffect_eq_append heff
    rw [heff] at hx
    cases hq : t.queue with
    | cons y q => simpa [QueueOp.onList, hq] using hx
    | nil =>
      have hcount : t.esb.txFifo.count = 0 :=
        hinv.fifo.nil_iff.mpr (by simp [TxTrace.payloads, hq])
      have hpipe : x.2.pipe = p.pipe := by
        simp only [QueueOp.onList, hq, List.nil_append, List.head?_cons, Option.some.injEq] at hx
        rw [← hx]
        rfl
      have := hC hacc hcount
      rw [← hpipe, hflag'] at this
      cases this

/-- **One step keeps `FlaggedHeadLoaded`** if it is free of stale flags. -/
theorem flaggedHeadLoaded_step {t : PrxTrace} {c : EsbCall} (hinv : Invariant t)
    (h : FlaggedHeadLoaded t) (hen : machine.enabled t c) (hC : FlagFree t c) :
    FlaggedHeadLoaded (t.step c) := by
  by_cases hirq : ∃ ev, c = .radioIrq ev
  · obtain ⟨ev, rfl⟩ := hirq
    rcases radioIrqHandler_cases ev hinv.receives hen with ⟨hh, heq⟩ | ⟨hh, heq⟩
    · exact flaggedHeadLoaded_step_rx hinv h hC hen hh heq
    · exact flaggedHeadLoaded_step_rxAck h hh heq
  · push Not at hirq
    exact flaggedHeadLoaded_step_call hinv h hen hC hirq

/-- **No ACK payload is dropped unsent**: in every state reached by a run whose steps are all
    free of stale flags, what the handler removes as delivered has been sent. -/
theorem accountedFor_of_reachable {t : PrxTrace} (h : machine.ReachableUnder FlagFree t) :
    AccountedFor t := by
  have hboth : Invariant t ∧ FlaggedHeadLoaded t := by
    refine h.invariant (I := fun t => Invariant t ∧ FlaggedHeadLoaded t) ?_ ?_
    · intro t ht
      refine ⟨invariant_start ht, ?_⟩
      obtain ⟨_, _, _, _, rfl⟩ := ht
      intro x hx
      cases hx
    · intro t c hinv hen hC
      exact ⟨invariant_step hinv.1 hen, flaggedHeadLoaded_step hinv.1 hinv.2 hen hC⟩
  exact accountedFor_of_flaggedHeadLoaded hboth.1 hboth.2

/-- A payload is loaded, its successor follows on the same pipe, and both are accounted for. -/
def samePipeRun : List EsbCall :=
  [.startRx, .writePayload (some (.ofBytes 0 0 [1])), .writePayload (some (.ofBytes 0 0 [2])),
    .radioIrq (packetOn 0 1), .radioIrq .silent]

theorem accountedFor_samePipe :
    machine.ReachableUnder FlagFree (machine.run defaultStart samePipeRun) ∧
      AccountedFor (machine.run defaultStart samePipeRun) := by
  have h : machine.ReachableUnder FlagFree (machine.run defaultStart samePipeRun) :=
    .of_follows (.start ⟨_, .reset, rfl, rfl, rfl⟩) (by decide)
  exact ⟨h, accountedFor_of_reachable h⟩

/-- The FIFO is flushed after its payload was sent, and another one is written. -/
def flushAfterAckRun : List EsbCall :=
  [.startRx, .writePayload (some (.ofBytes 0 0 [1])), .radioIrq (packetOn 0 1), .radioIrq .silent,
    .flushTx, .writePayload (some (.ofBytes 0 0 [2]))]

/-- The next packet removes the new payload as delivered, and it was never sent. -/
theorem not_accountedFor_flushAfterAck :
    ¬ ∀ t, machine.Reachable t → AccountedFor t := by
  intro h
  have hacc := h (machine.run defaultStart flushAfterAckRun)
    (.of_follows (.start ⟨_, .reset, rfl, rfl, rfl⟩) (by decide))
  have := hacc.removed (packetOn 0 2) _ (by decide) (by decide) (by decide) rfl
  revert this
  decide

end PrxTrace

end NordicEsb
