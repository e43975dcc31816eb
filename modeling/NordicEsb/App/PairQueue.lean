import NordicEsb.App.Isolation

/-!
# The Queued Pairing Record

In its setup session the box keeps three things in step: the record in the TX FIFO, the pending
device type, and the slot counters. `ID_PAIR_REQ` writes the first two, `ID_PAIR_INFO_GET` empties
the FIFO and clears the type before it counts a slot, and the radio takes records away.

- `QueuedMatches`: every queued record is the one of the next free slot of the pending type.
- `refuses`: `ID_PAIR_REQ` of an unknown type, or of a type with no slot left, clears the pending
  type and leaves the FIFO as it is.

**Main result** (`queuedMatches_of_reachable`): as long as no request is refused while a record is
queued, this holds in every state, and a step that refuses one breaks it.
-/

namespace NordicEsb

/-! ## §1 What the TX FIFO holds -/

/-- All payloads in the TX FIFO are in `P`. -/
def Queues (P : NrfEsbPayload → Prop) (s : Esb) : Prop :=
  ∃ l, s.txFifo.Represents l ∧ ∀ p ∈ l, P p

variable {P : NrfEsbPayload → Prop} {s s' : Esb}

theorem Queues.of_eq (h : Queues P s) (hfifo : s'.txFifo = s.txFifo) : Queues P s' := by
  unfold Queues
  rw [hfifo]
  exact h

/-- What is read off the FIFO. -/
theorem Queues.mem_toList (h : Queues P s) : ∀ p ∈ s.txFifo.toList, P p := by
  obtain ⟨l, hrep, hall⟩ := h
  rw [hrep.toList_eq]
  exact hall

/-- **A call** takes payloads away, or adds the one that is written. -/
theorem Queues.exec (h : Queues P s) (c : EsbCall) (hpop : c ≠ .popTx)
    (hwrite : ∀ p, c = .writePayload (some p) → P { p with pid := nextPid s p.pipe }) :
    Queues P (s.exec c) := by
  obtain ⟨l, hrep, hall⟩ := h
  have hroom : txEffect s c = .append → s.txFifo.count < nrfEsbTxFifoSize := by
    intro happ
    obtain ⟨p, -, hacc⟩ := txEffect_eq_append happ
    exact count_lt_of_writeAccepted hacc
  refine ⟨(txEffect s c).onList (writtenPayload s c) l, ?_, ?_⟩
  · rw [exec_txFifo s c hpop]
    exact QueueOp.represents_onRing hrep _ _ hroom
  · intro p hp
    cases heff : txEffect s c with
    | keep =>
      rw [heff] at hp
      exact hall p hp
    | removeHead =>
      rw [heff] at hp
      exact hall p (List.mem_of_mem_tail hp)
    | empty =>
      rw [heff] at hp
      cases hp
    | append =>
      obtain ⟨q, hq, -⟩ := txEffect_eq_append heff
      rw [heff] at hp
      rcases List.mem_append.mp hp with hold | hnew
      · exact hall p hold
      · rw [List.mem_singleton.mp hnew, hq]
        exact hwrite q hq

/-- An empty FIFO. -/
theorem queues_clear (hfifo : s.txFifo.Represents []) : Queues P s :=
  ⟨[], hfifo, fun _ hp => absurd hp List.not_mem_nil⟩

/-- A module that reports its events to a handler. -/
structure Running (s : Esb) : Prop where
  initialized : s.esbInitialized = true
  handler : s.configLocal.eventHandler = true

theorem callOnRadioDisabled_esbInitialized (s : Esb) :
    (callOnRadioDisabled s).esbInitialized = s.esbInitialized := by
  unfold callOnRadioDisabled
  split
  · rfl
  · unfold onRadioDisabledTxNoack
    dsimp only
    split <;> (unfold txFifoRemoveLast; split <;> rfl)
  · rfl
  · have hremove : ∀ s : Esb, (txFifoRemoveLast s).esbInitialized = s.esbInitialized := by
      intro s
      unfold txFifoRemoveLast
      split <;> rfl
    unfold onRadioDisabledTxWaitForAck
    dsimp only
    split
    · unfold onAckReceived
      dsimp only
      split <;> split <;> exact hremove _
    · unfold onAckMissed
      dsimp only
      split <;> rfl
  · exact (onRadioDisabledRx_frame s).esbInitialized
  · rfl

/-- Every call keeps a module running. -/
theorem Running.exec (h : Running s) (c : EsbCall)
    (hcfg : ∀ cfg, c = .init (some cfg) → cfg.eventHandler = true) : Running (s.exec c) := by
  obtain ⟨hinit, hhandler⟩ := h
  cases c with
  | radioIrq ev =>
    refine ⟨?_, ?_⟩
    · show (radioIrqHandler ev s).esbInitialized = true
      unfold radioIrqHandler
      dsimp only
      split
      · rw [callOnRadioDisabled_esbInitialized, latch_esbInitialized]
        exact hinit
      · rw [latch_esbInitialized]
        exact hinit
    · show (radioIrqHandler ev s).configLocal.eventHandler = true
      rw [(radioIrqHandler_frame ev s).2]
      exact hhandler
  | init pConfig =>
    cases pConfig with
    | none => exact ⟨hinit, hhandler⟩
    | some cfg => exact ⟨rfl, (congrArg _ (nrfEsbInit_configLocal cfg s)).trans (hcfg cfg rfl)⟩
  | readRxPayload pPayload =>
    simp only [Esb.exec, Esb.call, nrfEsbReadRxPayload]
    repeat' split
    all_goals simp_all
    all_goals first
      | exact ⟨hinit, hhandler⟩
      | exact ⟨rfl, hhandler⟩
  | _ =>
    simp only [Esb.exec, Esb.call, nrfEsbDisable, nrfEsbSuspend, nrfEsbWritePayload, nrfEsbStartTx,
      nrfEsbStartRx, nrfEsbStopRx, nrfEsbFlushTx, nrfEsbPopTx, nrfEsbFlushRx,
      nrfEsbSetAddressLength, nrfEsbSetBaseAddress0, nrfEsbSetBaseAddress1, nrfEsbSetPrefixes,
      nrfEsbUpdatePrefix, nrfEsbEnablePipes, nrfEsbSetRfChannel, nrfEsbSetTxPower, esbEvtIrqHandler]
    repeat' split
    all_goals exact ⟨hinit, hhandler⟩

namespace Box

/-! ## §2 The record and the pending type -/

/-- The payload is a record, and its index is the one of the next free slot of type `devType`. -/
def RecordFor (ds : BoxData) (devType : UInt8) (p : NrfEsbPayload) : Prop :=
  p.length = sizeofPairInfo ∧ Offers ds devType (PairInfo.ofData p.data).devIdx

/-- **What is queued matches the pending slot**: if the TX FIFO holds a `pair_info_t` in pairing
    mode, the pending type is the one whose indices contain its `dev_idx`, and `dev_idx` is the
    first free one of that type. -/
def QueuedMatches (b : Box) : Prop :=
  b.gMode = .pairing → ∀ p ∈ b.esb.txFifo.toList, p.length = sizeofPairInfo →
    Offers b.gDs b.gCurPairingDevType (PairInfo.ofData p.data).devIdx

/-- `ID_PAIR_REQ` at the head of the RX FIFO gets no slot. -/
def refuses (b : Box) : Bool :=
  b.esb.rxFifo.count != 0 && b.esb.rxFifo.head.length == 2 &&
    b.esb.rxFifo.head.data.get 0 == idPairReq &&
    (offer b.gDs (b.esb.rxFifo.head.data.get 1)).2 == 0xff

/-- The event handler is about to read a payload that no flush takes away before. -/
def readsNext (s : Esb) : Bool :=
  s.interruptFlags.rxDataReceived && !s.interruptFlags.txSuccess && !s.interruptFlags.txFailed

/-- **No request is refused while a record is queued.** -/
def Careful (b : Box) : BoxStep → Prop
  | .evtIrq =>
    ¬ (b.gMode = .pairing ∧ readsNext b.esb = true ∧ b.refuses = true ∧ b.esb.txFifo.count ≠ 0)
  | .radioIrq _ | .tick => True

instance (b : Box) : DecidablePred b.Careful
  | .evtIrq =>
    (inferInstance : Decidable (¬ (b.gMode = .pairing ∧ readsNext b.esb = true ∧
      b.refuses = true ∧ b.esb.txFifo.count ≠ 0)))
  | .radioIrq _ | .tick => (inferInstance : Decidable True)

instance (chipId : FixedArray 4 UInt8) (b : Box) (a : BoxStep) :
    Decidable ((machine chipId).enabled b a) := inferInstanceAs (Decidable (b.Interrupts a))

/-- The box in pairing mode: its module runs, and what is queued matches. -/
structure Matched (b : Box) : Prop where
  esb : Running b.esb
  queue : Queues (RecordFor b.gDs b.gCurPairingDevType) b.esb

/-- **The invariant.** -/
def PairQueueInv (b : Box) : Prop := b.gMode = .pairing → Matched b

variable {b b' : Box}

theorem PairQueueInv.queuedMatches (h : PairQueueInv b) : QueuedMatches b :=
  fun hmode p hp _ => ((h hmode).queue.mem_toList p hp).2

/-! ## §3 Every step -/

/-- Call, and nothing but the module changes. -/
theorem Matched.call (h : Matched b) (c : EsbCall) (hpop : c ≠ .popTx)
    (hwrite : ∀ p, c = .writePayload (some p) →
      RecordFor b.gDs b.gCurPairingDevType { p with pid := nextPid b.esb p.pipe })
    (hcfg : ∀ cfg, c = .init (some cfg) → cfg.eventHandler = true)
    (hesb : b'.esb = b.esb.exec c) (hds : b'.gDs = b.gDs)
    (htype : b'.gCurPairingDevType = b.gCurPairingDevType) : Matched b' := by
  refine ⟨?_, ?_⟩
  · rw [hesb]
    exact h.esb.exec c hcfg
  · rw [hesb, hds, htype]
    exact h.queue.exec c hpop hwrite

/-- An empty FIFO matches whatever the slots are. -/
theorem matched_flushed (hrunning : Running b.esb) (hesb : b'.esb = (nrfEsbFlushTx b.esb).2) :
    Matched b' := by
  rw [nrfEsbFlushTx_eq hrunning.initialized] at hesb
  refine ⟨?_, ?_⟩
  · rw [hesb]
    exact ⟨hrunning.initialized, hrunning.handler⟩
  · apply queues_clear
    rw [hesb]
    exact b.esb.txFifo.represents_clear (by decide)

theorem Matched.esbInit (h : Matched b) (isPtx : Bool) : Matched (b.callEsb (esbInit isPtx)) := by
  have hdisabled : Matched { b with esb := nrfEsbDisable b.esb } :=
    h.call .disable (by simp) (by simp) (by simp) rfl rfl rfl
  refine hdisabled.call (.init (some (appEsbConfig isPtx))) (by simp) (by simp) ?_ rfl rfl rfl
  rintro cfg ⟨⟩
  rfl

/-- After a flush the handler finds nothing to read. -/
theorem Matched.onTxDone (h : Matched b) (hmode : b.gMode = .pairing) :
    Matched b.onTxDone ∧ b.onTxDone.gMode = .pairing ∧ b.onTxDone.esb.rxFifo.count = 0 := by
  rw [onTxDone_of_pairing h.esb.initialized hmode]
  refine ⟨⟨⟨h.esb.initialized, h.esb.handler⟩, queues_clear ?_⟩, hmode, rfl⟩
  exact b.esb.txFifo.represents_clear (by decide)

/-- **`ID_PAIR_REQ` with a free slot** writes record and type together. -/
theorem matched_onPairReq (hrunning : Running b.esb) {devType idx : UInt8}
    (hoffer : offer b.gDs (b.rxPayload.data.get 1) = (devType, idx)) (hidx : idx ≠ 0xff)
    (hoffers : Offers b.gDs devType idx) : Matched b.onPairReq := by
  obtain ⟨b₁, hb₁⟩ : ∃ b₁ : Box, b₁ = ({ b with gCurPairingDevType := devType } : Box).callEsb
      nrfEsbFlushTx := ⟨_, rfl⟩
  have hflushed : Matched b₁ := by
    rw [hb₁]
    exact matched_flushed hrunning rfl
  have hreq : b.onPairReq =
      b₁.callEsb (nrfEsbWritePayload (some (.ofBytes 0 0 (b.pairInfo idx).bytes))) := by
    unfold onPairReq
    rw [hoffer, hb₁]
    dsimp only
    rw [if_pos hidx]
    rfl
  rw [hreq]
  refine hflushed.call (.writePayload (some (.ofBytes 0 0 (b.pairInfo idx).bytes))) (by simp) ?_
    (by simp) rfl rfl rfl
  rintro p ⟨⟩
  have hcarries := carries_ofBytes (b.pairInfo idx)
    (nextPid b₁.esb (NrfEsbPayload.ofBytes 0 0 (b.pairInfo idx).bytes).pipe)
  refine ⟨hcarries.length, ?_⟩
  rw [PairInfo.ofData_eq hcarries.bytes, hb₁]
  exact hoffers

/-- **`ID_PAIR_INFO_GET`** leaves the FIFO empty. -/
theorem matched_onPairInfoGet (hrunning : Running b.esb) : Matched b.onPairInfoGet := by
  obtain ⟨hesb, -⟩ := onPairInfoGet_spec hrunning.initialized
  apply matched_flushed hrunning
  rw [hesb, nrfEsbFlushTx_eq hrunning.initialized]

/-- A read payload of two bytes is the head of the RX FIFO. -/
theorem copyRxPayload_get (dst : NrfEsbPayload) {src : NrfEsbPayload} (hlen : src.length = 2) :
    (copyRxPayload dst src).data.get 0 = src.data.get 0 ∧
      (copyRxPayload dst src).data.get 1 = src.data.get 1 := by
  have hcopy : (copyRxPayload dst src).data = dst.data.copy src.data 2 := by
    unfold copyRxPayload
    rw [hlen]
    rfl
  rw [hcopy]
  exact ⟨rfl, rfl⟩

/-- **A payload that is not refused** keeps the record and the pending type together. -/
theorem Matched.onRxReceived (h : Matched b) (hmode : b.gMode = .pairing)
    (hcareful : b.refuses = true → b.esb.txFifo.count = 0) : Matched b.onRxReceived := by
  by_cases hrx : b.esb.rxFifo.count = 0
  · rw [onRxReceived_of_empty hrx]
    exact h
  · rw [onRxReceived_of_unread h.esb.initialized hrx]
    obtain ⟨b₁, hb₁⟩ : ∃ b₁ : Box, b₁ = { b with
        esb := { b.esb with rxFifo := b.esb.rxFifo.dropHead.clear, rxPipeInfo := default }
        rxPayload := copyRxPayload b.rxPayload b.esb.rxFifo.head } := ⟨_, rfl⟩
    rw [← hb₁]
    have hread : Matched b₁ := by
      rw [hb₁]
      exact ⟨⟨h.esb.initialized, h.esb.handler⟩, h.queue⟩
    have hmode₁ : b₁.gMode = .pairing := by
      rw [hb₁]
      exact hmode
    unfold Box.onPayload
    by_cases hlen : b₁.rxPayload.length = 2
    · rw [if_pos ⟨hmode₁, hlen⟩]
      by_cases hreq : b₁.rxPayload.data.get 0 = idPairReq
      · rw [if_pos hreq]
        rcases offer_cases b₁.gDs (b₁.rxPayload.data.get 1) with hnone | ⟨idx, hoffer, hidx, hoffers⟩
        · -- refused: nothing is queued, so that clearing the type does no harm
          have hhead : b.esb.rxFifo.head.length = 2 := by
            rw [hb₁] at hlen
            exact hlen
          obtain ⟨hget0, hget1⟩ := copyRxPayload_get b.rxPayload hhead
          have hrefuses : b.refuses = true := by
            rw [hb₁] at hreq hnone
            rw [hget0] at hreq
            rw [hget1] at hnone
            simp [refuses, hrx, hhead, hreq, hnone]
          have hempty := hcareful hrefuses
          rw [onPairReq_of_none hnone]
          refine ⟨hread.esb, ?_⟩
          obtain ⟨l, hrep, -⟩ := h.queue
          apply queues_clear
          rw [hrep.nil_iff.mp hempty] at hrep
          rw [hb₁]
          exact hrep
        · exact matched_onPairReq hread.esb hoffer hidx hoffers
      · rw [if_neg hreq]
        split
        · exact matched_onPairInfoGet hread.esb
        · exact hread
    · have hother : ¬ (b₁.gMode = .pairing ∧ b₁.rxPayload.length = 2) := fun hall => hlen hall.2
      have hnormal : ¬ b₁.gMode = .normal := by
        rw [hmode₁]
        exact BoxMode.noConfusion
      rw [if_neg hother, if_neg hnormal]
      exact hread

/-- The collected events: those of the transmitter come first. -/
theorem esbEvtIrq_foldl (hrunning : Running b.esb) :
    b.esbEvtIrq = (b.esb.interruptFlags.events b.esb.lastTxAttempts).foldl nrfEsbEventHandler
      { b with esb := { b.esb with evtIrqPending := false, interruptFlags := .clear } } := by
  unfold Box.esbEvtIrq esbEvtIrqHandler
  dsimp only
  rw [hrunning.initialized, hrunning.handler]
  rfl

theorem Matched.esbEvtIrq (h : Matched b) (hmode : b.gMode = .pairing)
    (hcareful : Careful b .evtIrq) : Matched b.esbEvtIrq := by
  obtain ⟨b₁, hb₁⟩ : ∃ b₁ : Box, b₁ =
    { b with esb := { b.esb with evtIrqPending := false, interruptFlags := .clear } } := ⟨_, rfl⟩
  have hcollected : Matched b₁ := by
    rw [hb₁]
    exact ⟨⟨h.esb.initialized, h.esb.handler⟩, h.queue⟩
  have hmode₁ : b₁.gMode = .pairing := by
    rw [hb₁]
    exact hmode
  -- a handler that has flushed leaves nothing to read
  have hempty : ∀ {b' : Box}, Matched b' → b'.esb.rxFifo.count = 0 → b'.onRxReceived = b' :=
    fun _ hrx => onRxReceived_of_empty hrx
  rw [esbEvtIrq_foldl h.esb, ← hb₁]
  unfold InterruptFlags.events
  cases hsuccess : b.esb.interruptFlags.txSuccess <;>
    cases hfailed : b.esb.interruptFlags.txFailed <;>
      cases hreceived : b.esb.interruptFlags.rxDataReceived
  · exact hcollected
  · apply hcollected.onRxReceived hmode₁
    intro hrefuses
    by_contra hcount
    have hreads : readsNext b.esb = true := by simp [readsNext, hsuccess, hfailed, hreceived]
    rw [hb₁] at hrefuses hcount
    exact hcareful ⟨hmode, hreads, hrefuses, hcount⟩
  · exact (hcollected.onTxDone hmode₁).1
  · obtain ⟨hdone, -, hrx⟩ := hcollected.onTxDone hmode₁
    show Matched b₁.onTxDone.onRxReceived
    rw [hempty hdone hrx]
    exact hdone
  · exact (hcollected.onTxDone hmode₁).1
  · obtain ⟨hdone, -, hrx⟩ := hcollected.onTxDone hmode₁
    show Matched b₁.onTxDone.onRxReceived
    rw [hempty hdone hrx]
    exact hdone
  · obtain ⟨hdone, hmode₂, -⟩ := hcollected.onTxDone hmode₁
    exact (hdone.onTxDone hmode₂).1
  · obtain ⟨hdone, hmode₂, -⟩ := hcollected.onTxDone hmode₁
    obtain ⟨htwice, -, hrx⟩ := hdone.onTxDone hmode₂
    show Matched b₁.onTxDone.onTxDone.onRxReceived
    rw [hempty htwice hrx]
    exact htwice

theorem Matched.radioIrq (h : Matched b) (ev : RadioEvent) : Matched (b.radioIrq ev) :=
  h.call (.radioIrq ev) (by simp) (by simp) (by simp) rfl rfl rfl

/-- The hop stops the receiver or initialises the module again. -/
theorem Matched.hopChannel (h : Matched b) : Matched b.hopChannel := by
  have hidle : Matched { b with esb := stopRxWaitIdle b.esb } := by
    have hstop : Matched { b with esb := (nrfEsbStopRx b.esb).2 } :=
      h.call .stopRx (by simp) (by simp) (by simp) rfl rfl rfl
    unfold stopRxWaitIdle
    split
    · dsimp only
      split
      · exact hstop.esbInit false
      · exact hstop
    · exact h
  have hesb : b.hopChannel.esb = (stopRxWaitIdle b.esb).exec
      (.setRfChannel (b.gaChlist.get (nextChIdx b.gCurChIdx).toNat).toUInt32) := rfl
  exact hidle.call _ (by simp) (by simp) (by simp) hesb rfl rfl

theorem Matched.tick (h : Matched b) (hmode : b.gMode = .pairing) :
    Matched b.intervalTimerEventHandler := by
  have hhop := h.hopChannel
  have htick : b.intervalTimerEventHandler = b.hopChannel.callEsb nrfEsbStartRx := by
    unfold intervalTimerEventHandler
    dsimp only
    rw [show b.hopChannel.gMode = b.gMode from rfl, hmode]
  rw [htick]
  exact hhop.call .startRx (by simp) (by simp) (by simp) rfl rfl rfl

/-! ### Modes -/

theorem nrfEsbEventHandler_gMode (event : NrfEsbEvt) (hmode : b.gMode ≠ .pairing) :
    (b.nrfEsbEventHandler event).gMode ≠ .pairing := by
  have hpayload : ∀ b : Box, b.gMode ≠ .pairing → b.onPayload.gMode ≠ .pairing := by
    intro b hb
    unfold onPayload
    rw [if_neg (fun h => hb h.1)]
    split
    · split <;> exact hb
    · exact hb
  unfold Box.nrfEsbEventHandler
  cases event.evtId with
  | txSuccess | txFailed =>
    show b.onTxDone.gMode ≠ .pairing
    rw [onTxDone_gMode]
    exact hmode
  | rxReceived =>
    show b.onRxReceived.gMode ≠ .pairing
    unfold onRxReceived
    dsimp only
    split
    · exact hpayload _ hmode
    · exact hmode

/-- A setup session does not start by itself. -/
theorem step_gMode {a : BoxStep} (hmode : b.gMode ≠ .pairing) : (b.step a).gMode ≠ .pairing := by
  cases a with
  | radioIrq ev => exact hmode
  | evtIrq =>
    have hrun : ∀ (events : List NrfEsbEvt) (b : Box), b.gMode ≠ .pairing →
        (events.foldl nrfEsbEventHandler b).gMode ≠ .pairing := by
      intro events
      induction events with
      | nil => exact fun _ hb => hb
      | cons event events ih => exact fun _ hb => ih _ (nrfEsbEventHandler_gMode event hb)
    exact hrun _ _ hmode
  | tick =>
    show b.intervalTimerEventHandler.gMode ≠ .pairing
    have hhop : b.hopChannel.gMode = b.gMode := rfl
    unfold intervalTimerEventHandler
    dsimp only
    split
    · have hfill : (fillBeacon (b.hopChannel.callEsb (esbInit true))).gMode = b.gMode :=
        (fillBeacon_frame _).2.1
      show (fillBeacon (b.hopChannel.callEsb (esbInit true))).gMode ≠ .pairing
      rw [hfill]
      exact hmode
    · exact hmode
    · exact hmode

/-- **A careful step keeps the invariant.** -/
theorem PairQueueInv.step (h : PairQueueInv b) {a : BoxStep} (hcareful : Careful b a) :
    PairQueueInv (b.step a) := by
  intro hstep
  have hmode : b.gMode = .pairing := by
    by_contra hother
    exact step_gMode hother hstep
  cases a with
  | radioIrq ev => exact (h hmode).radioIrq ev
  | evtIrq => exact (h hmode).esbEvtIrq hmode hcareful
  | tick => exact (h hmode).tick hmode

theorem matched_enterSetupMode (picked : ChannelList) (b : Box) :
    Matched (enterSetupMode picked b) := by
  obtain ⟨b₁, hb₁⟩ : ∃ b₁ : Box, b₁ = { b with
    gDs := { b.gDs with chlist := picked, controllerSlotIdx := 0, displaySlotIdx := 0 }
    esb := (esbInit false b.esb).2 } := ⟨_, rfl⟩
  have hinit : Matched b₁ := by
    rw [hb₁]
    have hclear : (esbInit false b.esb).2.txFifo = (nrfEsbDisable b.esb).txFifo.clear :=
      nrfEsbInit_txFifo (appEsbConfig false) (nrfEsbDisable b.esb)
    refine ⟨⟨rfl, congrArg _ (nrfEsbInit_configLocal (appEsbConfig false) (nrfEsbDisable b.esb))⟩,
      queues_clear ?_⟩
    show RingQueue.Represents (esbInit false b.esb).2.txFifo []
    rw [hclear]
    exact RingQueue.represents_clear _ (by decide)
  obtain ⟨b₂, hb₂⟩ : ∃ b₂ : Box, b₂ = b₁.callEsb
    (nrfEsbSetRfChannel (defaultPairingChannelList.get 0).toUInt32) := ⟨_, rfl⟩
  have hchannel : Matched b₂ := by
    rw [hb₂]
    exact hinit.call (.setRfChannel (defaultPairingChannelList.get 0).toUInt32) (by simp) (by simp)
      (by simp) rfl rfl rfl
  refine hchannel.call .startRx (by simp) (by simp) (by simp) ?_ ?_ ?_
  all_goals
    rw [hb₂, hb₁]
    rfl

theorem pairQueueInv_main (chipId : FixedArray 4 UInt8) (flash : BoxData) (button : Bool)
    (picked : ChannelList) : PairQueueInv (Box.main chipId flash button picked) := by
  unfold Box.main
  dsimp only
  intro hmode
  split at hmode
  · rename_i hsig
    rw [if_pos hsig]
    exact matched_enterSetupMode picked _
  · rename_i hsig
    rw [if_neg hsig]
    split at hmode
    · rename_i hnone
      rw [if_pos hnone]
      exact matched_enterSetupMode picked _
    · rename_i hsome
      rw [if_neg hsome]
      split at hmode
      · rename_i hbutton
        rw [if_pos hbutton]
        exact matched_enterSetupMode picked _
      · cases hmode

/-! ## §4 Refused requests -/

/-- No record is for the type 0. -/
theorem Offers.devType_ne_zero {ds : BoxData} {devType idx : UInt8} (h : Offers ds devType idx) :
    devType ≠ 0 := by
  cases h <;> decide

/-- **A request that is refused while a record is queued** clears the pending type and leaves the
    record. -/
theorem Matched.not_queuedMatches (h : Matched b) (hcareless : ¬ Careful b .evtIrq) :
    ¬ QueuedMatches b.esbEvtIrq := by
  obtain ⟨hmode, hreads, hrefuses, hcount⟩ := not_not.mp hcareless
  simp only [readsNext, Bool.and_eq_true, Bool.not_eq_true'] at hreads
  simp only [refuses, Bool.and_eq_true, beq_iff_eq, bne_iff_ne] at hrefuses
  obtain ⟨⟨hreceived, hsuccess⟩, hfailed⟩ := hreads
  obtain ⟨⟨⟨hrx, hhead⟩, hreq⟩, hoffer⟩ := hrefuses
  obtain ⟨b₁, hb₁⟩ : ∃ b₁ : Box, b₁ = { b with
      esb := { b.esb with
        evtIrqPending := false, interruptFlags := .clear
        rxFifo := b.esb.rxFifo.dropHead.clear, rxPipeInfo := default }
      rxPayload := copyRxPayload b.rxPayload b.esb.rxFifo.head } := ⟨_, rfl⟩
  -- A packet has been received and nothing sent, so the payload is read and answered.
  have hevt : b.esbEvtIrq = b₁.onPayload := by
    rw [esbEvtIrq_foldl h.esb]
    unfold InterruptFlags.events
    rw [hsuccess, hfailed, hreceived]
    obtain ⟨b₀, hb₀⟩ : ∃ b₀ : Box, b₀ =
      { b with esb := { b.esb with evtIrqPending := false, interruptFlags := .clear } } := ⟨_, rfl⟩
    have hread := onRxReceived_of_unread (b := b₀) (by rw [hb₀]; exact h.esb.initialized)
      (by rw [hb₀]; exact hrx)
    rw [hb₀] at hread
    rw [hb₁]
    exact hread
  obtain ⟨hget0, hget1⟩ := copyRxPayload_get b.rxPayload hhead
  -- There is no index left to offer.
  have hnone : offer b₁.gDs (b₁.rxPayload.data.get 1) = (0, 0xff) := by
    rw [hb₁]
    dsimp only
    rw [hget1]
    rcases offer_cases b.gDs (b.esb.rxFifo.head.data.get 1) with hnone | ⟨idx, hsome, hidx, -⟩
    · exact hnone
    · rw [hsome] at hoffer
      exact absurd hoffer hidx
  -- The request is refused: the type is cleared, the queue stays as it was.
  have hpayload : b₁.onPayload = { b₁ with gCurPairingDevType := 0 } := by
    have hlen : b₁.gMode = .pairing ∧ b₁.rxPayload.length = 2 := by
      rw [hb₁]
      exact ⟨hmode, hhead⟩
    have hid : b₁.rxPayload.data.get 0 = idPairReq := by
      rw [hb₁]
      exact hget0.trans hreq
    unfold Box.onPayload
    rw [if_pos hlen, if_pos hid, onPairReq_of_none hnone]
  rw [hevt, hpayload]
  intro hmatches
  obtain ⟨l, hrep, hall⟩ := h.queue
  have hlist : b₁.esb.txFifo.toList = l := by
    rw [hb₁]
    exact hrep.toList_eq
  cases l with
  | nil => exact hcount (hrep.nil_iff.mpr rfl)
  -- the queued packet still offers an index of a type that is no longer set
  | cons p l =>
    have hp : p ∈ b₁.esb.txFifo.toList := by
      rw [hlist]
      exact List.mem_cons_self
    have hmode₁ : b₁.gMode = .pairing := by
      rw [hb₁]
      exact hmode
    exact (hmatches hmode₁ p hp (hall p List.mem_cons_self).1).devType_ne_zero rfl

/-- **What is queued matches the pending slot** in every run in which no request is refused while
    a record is queued; and each step from there keeps it so exactly if it refuses none. -/
theorem queuedMatches_of_reachable {chipId : FixedArray 4 UInt8}
    (h : (machine chipId).ReachableUnder Careful b) :
    QueuedMatches b ∧ ∀ a, b.Interrupts a → (QueuedMatches (b.step a) ↔ Careful b a) := by
  have hinv : PairQueueInv b := by
    apply h.invariant (I := PairQueueInv)
    · rintro _ ⟨flash, button, picked, rfl⟩
      exact pairQueueInv_main chipId flash button picked
    · exact fun _ _ hs _ hcareful => hs.step hcareful
  refine ⟨hinv.queuedMatches, fun a _ => ⟨fun hmatches => ?_, fun hcareful =>
    (hinv.step hcareful).queuedMatches⟩⟩
  -- Only the event interrupt can be careless.
  by_contra hcareless
  cases a with
  | evtIrq => exact (hinv (not_not.mp hcareless).1).not_queuedMatches hcareless hmatches
  | radioIrq | tick => exact hcareless trivial

/-- A box in its setup session, and a packet with its acknowledgment. -/
def sessionBox : Box :=
  Box.main (.replicate _ 7) (fullRecord.torn 0) false (.load (.replicate _ 0) [5, 40, 70])

/-- The packet comes in, is acknowledged and handled. -/
def requestSteps (pkt : AirPacket) (crc : UInt16) : List BoxStep :=
  [.radioIrq (.received pkt crc), .radioIrq .silent, .evtIrq]

/-- A display and then a controller ask for a slot. -/
theorem queuedMatches_run :
    QueuedMatches ((machine (.replicate _ 7)).run sessionBox
      (requestSteps ⟨0, 2, 2, [idPairReq, devTypeDisplay]⟩ 0x1234 ++
        requestSteps ⟨0, 2, 4, [idPairReq, devTypeController]⟩ 0x4321)) :=
  (queuedMatches_of_reachable (.of_follows (.start ⟨_, _, _, rfl⟩) (by decide +kernel))).1

/-- **A display is offered a slot, and then a device of the unknown type 7 asks for one**: the
    record with index 1 stays queued, and no type is pending. -/
theorem not_queuedMatches_unknown :
    ∃ b, (machine (.replicate _ 7)).Reachable b ∧ ¬ QueuedMatches b := by
  obtain ⟨b, hb⟩ : ∃ b, b = (machine (.replicate _ 7)).run sessionBox
      (requestSteps ⟨0, 2, 2, [idPairReq, devTypeDisplay]⟩ 0x1234 ++
        requestSteps ⟨0, 2, 4, [idPairReq, 7]⟩ 0x4321) := ⟨_, rfl⟩
  have hqueued : b.gMode = .pairing ∧ b.gCurPairingDevType = 0 ∧
      ∃ p ∈ b.esb.txFifo.toList, p.length = sizeofPairInfo ∧
        (PairInfo.ofData p.data).devIdx = 1 := by
    rw [hb]
    decide +kernel
  obtain ⟨hmode, htype, p, hp, hlen, -⟩ := hqueued
  refine ⟨b, ?_, fun hmatches => (hmatches hmode p hp hlen).devType_ne_zero htype⟩
  rw [hb]
  exact .of_follows (.start ⟨_, _, _, rfl⟩) (by decide +kernel)

end Box

end NordicEsb
