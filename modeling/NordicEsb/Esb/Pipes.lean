import NordicEsb.Esb.RxQueue

/-!
# The Pipes of a Module

`RXMATCH` is the pipe whose address a packet came in on, and the radio looks for the addresses
in `RXADDRESSES` only. A module that enables the pipes below `n` and writes payloads for them
therefore never stores a packet of another pipe.

- `Hears`: the radio reports a packet on a pipe it listens to.
- `PipesBelow`: the pipes in the FIFOs and in the registers are below `n`.

**Main result** (`PipesBelow.exec`): every call that respects the bound keeps it.
-/

namespace NordicEsb

/-! ## §1 The bound -/

/-- **The radio hears a packet** on one of the pipes in `RXADDRESSES`. -/
def Esb.Hears (s : Esb) (ev : RadioEvent) : Prop :=
  ∀ pkt ∈ ev.packet, s.radio.rxaddresses.toNat.testBit pkt.pipe.val = true

instance (s : Esb) (ev : RadioEvent) : Decidable (s.Hears ev) :=
  inferInstanceAs (Decidable (∀ pkt ∈ ev.packet, _))

/-- **All pipes are below `n`**: in the cells of both FIFOs, used or not, in the address of the
    transmitter, and in the masks of the receiver. -/
structure PipesBelow (n : ℕ) (s : Esb) : Prop where
  rx : ∀ i, (s.rxFifo.slots.get i).pipe.toNat < n
  tx : ∀ i, (s.txFifo.slots.get i).pipe.toNat < n
  address : s.radio.txaddress.toNat < n
  enabled : ∀ i : Fin 8, s.esbAddr.rxPipesEnabled.toNat.testBit i.val = true → i.val < n
  received : ∀ i : Fin 8, s.radio.rxaddresses.toNat.testBit i.val = true → i.val < n

/-- The call names pipes below `n` only, or it is a packet that the radio hears. -/
def PipesGiven (n : ℕ) (s : Esb) : EsbCall → Prop
  | .writePayload (some p) => p.pipe.toNat < n
  | .setPrefixes _ numPipes => numPipes.toNat ≤ n
  | .enablePipes enableMask => ∀ i : Fin 8, enableMask.toNat.testBit i.val = true → i.val < n
  | .radioIrq ev => s.Hears ev
  | _ => True

variable {n : ℕ} {s s' : Esb}

/-- Nothing that names a pipe has changed. -/
theorem PipesBelow.of_eq (h : PipesBelow n s) (hrx : s'.rxFifo.slots = s.rxFifo.slots)
    (htx : s'.txFifo.slots = s.txFifo.slots) (haddress : s'.radio.txaddress = s.radio.txaddress)
    (henabled : s'.esbAddr.rxPipesEnabled = s.esbAddr.rxPipesEnabled)
    (hreceived : s'.radio.rxaddresses = s.radio.rxaddresses) : PipesBelow n s' where
  rx := by rw [hrx]; exact h.rx
  tx := by rw [htx]; exact h.tx
  address := by rw [haddress]; exact h.address
  enabled := by rw [henabled]; exact h.enabled
  received := by rw [hreceived]; exact h.received

/-! ## §2 The handlers -/

/-- The mask of one pipe. -/
theorem testBit_pipeMask {p : UInt8} (hp : p.toNat < 8) (i : Fin 8)
    (h : ((1 : UInt32) <<< p.toUInt32).toNat.testBit i.val = true) : i.val = p.toNat := by
  have htable : ∀ j i : Fin 8,
      ((1 : UInt32) <<< j.val.toUInt8.toUInt32).toNat.testBit i.val = decide (i.val = j.val) := by
    decide
  have hround : p.toNat.toUInt8 = p := UInt8.ofNat_toNat
  have hbit := htable ⟨p.toNat, hp⟩ i
  simp only [hround] at hbit
  rw [hbit] at h
  exact of_decide_eq_true h

theorem PipesBelow.callFormatIfEsb (h : PipesBelow n s) (length : UInt8) :
    PipesBelow n (callUpdateRfPayloadFormatIfEsb length s) := h.of_eq rfl rfl rfl rfl rfl

/-- **`start_tx_transaction`** sends, and then listens, on the pipe of the payload. -/
theorem PipesBelow.startTxTransaction (hn : n ≤ 8) (h : PipesBelow n s) :
    PipesBelow n (startTxTransaction s) where
  rx := (h.callFormatIfEsb s.txFifo.head.length).rx
  tx := (h.callFormatIfEsb s.txFifo.head.length).tx
  address := h.tx _
  enabled := (h.callFormatIfEsb s.txFifo.head.length).enabled
  received i hi := by
    have hpipe := h.tx s.txFifo.exitPoint
    have hi' := testBit_pipeMask (p := s.txFifo.head.pipe) (lt_of_lt_of_le hpipe hn) i hi
    rw [hi']
    exact hpipe

theorem PipesBelow.txFifoRemoveLast (h : PipesBelow n s) : PipesBelow n (txFifoRemoveLast s) := by
  unfold NordicEsb.txFifoRemoveLast
  split
  · exact h.of_eq rfl rfl rfl rfl rfl
  · exact h

/-- A packet is stored with the pipe it is given. -/
theorem PipesBelow.pushRfbuf (h : PipesBelow n s) {pipe : UInt8} (hpipe : pipe.toNat < n)
    (pid : UInt8) : PipesBelow n (rxFifoPushRfbuf pipe pid s).2 := by
  refine ⟨?_, h.tx, h.address, h.enabled, h.received⟩
  show ∀ i, (FixedArray.get (RingQueue.slots (if rxPushAccepted s then _ else s.rxFifo))
    i).pipe.toNat < n
  split
  · exact forall_get_set (P := fun p : NrfEsbPayload => p.pipe.toNat < n) h.rx hpipe
  · exact h.rx

/-- The payload of an acknowledgment is stored for the pipe of the transmission. -/
theorem PipesBelow.onAckReceived (hn : n ≤ 8) (h : PipesBelow n s) :
    PipesBelow n (onAckReceived s) := by
  have hnoted : PipesBelow n (noteAck s) := h.of_eq rfl rfl rfl rfl rfl
  have hremoved := hnoted.txFifoRemoveLast
  obtain ⟨t, ht⟩ : ∃ t, t = if hasAckPayload (NordicEsb.txFifoRemoveLast (noteAck s)) then
      receiveAckPayload (NordicEsb.txFifoRemoveLast (noteAck s))
      else NordicEsb.txFifoRemoveLast (noteAck s) := ⟨_, rfl⟩
  have hstored : PipesBelow n t := by
    rw [ht]
    split
    · exact (hremoved.pushRfbuf hremoved.address 0).of_eq rfl rfl rfl rfl rfl
    · exact hremoved
  unfold NordicEsb.onAckReceived
  dsimp only
  rw [← ht]
  split
  · exact hstored.of_eq rfl rfl rfl rfl rfl
  · exact PipesBelow.startTxTransaction hn (hstored.of_eq rfl rfl rfl rfl rfl)

/-- The registers of the receiver are left as they are. -/
theorem PipesBelow.clearEventsRestartRx (h : PipesBelow n s) :
    PipesBelow n (clearEventsRestartRx s) := h.of_eq rfl rfl rfl rfl rfl

/-- **An acknowledgment** goes out on the pipe of the packet. -/
theorem PipesBelow.acknowledge (h : PipesBelow n s) (hmatch : s.radio.rxmatch.val < n)
    (retransmit : Bool) : PipesBelow n (acknowledge retransmit s) := by
  have hsend : ∀ t : Esb, PipesBelow n t → t.radio.rxmatch = s.radio.rxmatch →
      PipesBelow n (sendAck t) := by
    intro t ht hrx
    refine ⟨ht.rx, ht.tx, ?_, ht.enabled, ht.received⟩
    show (rxmatchByte t).toNat < n
    rw [rxmatchByte_toNat, hrx]
    exact hmatch
  have hdpl : PipesBelow n (prepareAckDpl retransmit s) ∧
      (prepareAckDpl retransmit s).radio.rxmatch = s.radio.rxmatch := by
    unfold prepareAckDpl
    split
    · split
      · exact ⟨h.of_eq rfl rfl rfl rfl rfl, rfl⟩
      · exact ⟨h.of_eq rfl rfl rfl rfl rfl, rfl⟩
    · exact ⟨h.of_eq rfl rfl rfl rfl rfl, rfl⟩
  unfold NordicEsb.acknowledge
  split
  · unfold prepareAck
    split
    · exact hsend _ hdpl.1 hdpl.2
    · exact hsend _ (h.of_eq rfl rfl rfl rfl rfl) rfl
  · exact h.clearEventsRestartRx

theorem acknowledge_rxmatch (retransmit : Bool) (s : Esb) :
    (acknowledge retransmit s).radio.rxmatch = s.radio.rxmatch := by
  unfold acknowledge
  split
  · unfold prepareAck
    split
    · show (prepareAckDpl retransmit s).radio.rxmatch = _
      unfold prepareAckDpl
      split
      · split <;> rfl
      · rfl
    · rfl
  · rfl

/-- **A packet is stored for the pipe it came in on.** -/
theorem PipesBelow.onRadioDisabledRx (h : PipesBelow n s)
    (hmatch : s.radio.crcstatus = true → s.radio.rxmatch.val < n) :
    PipesBelow n (onRadioDisabledRx s) := by
  have hnoted : PipesBelow n (notePidAndCrc s) := h.of_eq rfl rfl rfl rfl rfl
  unfold NordicEsb.onRadioDisabledRx
  cases hcrc : s.radio.crcstatus with
  | false => exact h.clearEventsRestartRx
  | true =>
    have hbound := hmatch hcrc
    rw [Bool.not_true, if_neg Bool.false_ne_true]
    split
    · exact h.clearEventsRestartRx
    · split
      · exact hnoted.acknowledge hbound true
      · have hacked := hnoted.acknowledge hbound false
        have hpipe : (rxmatchByte (NordicEsb.acknowledge false (notePidAndCrc s))).toNat < n := by
          rw [rxmatchByte_toNat, acknowledge_rxmatch]
          exact hbound
        exact (hacked.pushRfbuf hpipe _).of_eq rfl rfl rfl rfl rfl

theorem PipesBelow.callOnRadioDisabled (hn : n ≤ 8) (h : PipesBelow n s)
    (hmatch : s.radio.crcstatus = true → s.radio.rxmatch.val < n) :
    PipesBelow n (callOnRadioDisabled s) := by
  unfold NordicEsb.callOnRadioDisabled
  split
  · exact h
  · unfold onRadioDisabledTxNoack
    dsimp only
    have hremoved : PipesBelow n (NordicEsb.txFifoRemoveLast (raiseTxSuccess s)) :=
      (h.of_eq rfl rfl rfl rfl rfl : PipesBelow n (raiseTxSuccess s)).txFifoRemoveLast
    split
    · exact hremoved.of_eq rfl rfl rfl rfl rfl
    · exact PipesBelow.startTxTransaction hn (hremoved.of_eq rfl rfl rfl rfl rfl)
  · -- the acknowledgment window opens
    unfold onRadioDisabledTx
    dsimp only
    obtain ⟨t, ht⟩ : ∃ t : Esb, t = { s with
        radio := { s.radio with disabledShort := .none, eventsEnd := false }
        sysTimer := ⟨s.waitForAckTimeoutUs, s.configLocal.retransmitDelay.toUInt32 - 130⟩
        ppi := ⟨true, true, true, false⟩ } := ⟨_, rfl⟩
    have hopened : PipesBelow n t := by
      rw [ht]
      exact h.of_eq rfl rfl rfl rfl rfl
    rw [ht] at hopened
    exact (hopened.callFormatIfEsb 0).of_eq rfl rfl rfl rfl rfl
  · unfold onRadioDisabledTxWaitForAck
    dsimp only
    split
    · exact PipesBelow.onAckReceived hn (h.of_eq rfl rfl rfl rfl rfl)
    · unfold onAckMissed
      dsimp only
      split
      · exact h.of_eq rfl rfl rfl rfl rfl
      · exact h.of_eq rfl rfl rfl rfl rfl
  · exact h.onRadioDisabledRx hmatch
  · exact h.of_eq rfl rfl rfl rfl rfl

/-- What the radio hears has a pipe below the bound. -/
theorem PipesBelow.radioIrqHandler (hn : n ≤ 8) (h : PipesBelow n s) {ev : RadioEvent}
    (hev : s.Hears ev) : PipesBelow n (radioIrqHandler ev s) := by
  have hlatched : PipesBelow n (ev.latch s) := by
    unfold RadioEvent.latch
    split
    · exact h.of_eq rfl rfl rfl rfl rfl
    · exact h.of_eq rfl rfl rfl rfl rfl
  have hmatch : (ev.latch s).radio.crcstatus = true → (ev.latch s).radio.rxmatch.val < n := by
    unfold RadioEvent.latch
    split
    · exact fun hcrc => nomatch hcrc
    · rename_i pkt hpkt
      exact fun _ => h.received pkt.pipe (hev pkt hpkt)
  unfold NordicEsb.radioIrqHandler
  dsimp only
  split
  · exact hlatched.callOnRadioDisabled hn hmatch
  · exact hlatched

/-! ## §3 Every call -/

/-- The first `m` pipes. -/
theorem testBit_bitMaskUInt8 {m : UInt8} (hm : m < 9) (i : Fin 8)
    (h : (bitMaskUInt8 m).toNat.testBit i.val = true) : i.val < m.toNat := by
  have htable : ∀ (j : Fin 9) (i : Fin 8),
      (bitMaskUInt8 j.val.toUInt8).toNat.testBit i.val = true → i.val < j.val := by decide
  have hlt : m.toNat < 9 := UInt8.lt_iff_toNat_lt.mp hm
  have hround : m.toNat.toUInt8 = m := UInt8.ofNat_toNat
  have hbit := htable ⟨m.toNat, hlt⟩ i
  simp only [hround] at hbit
  exact hbit h

/-- **Every call that names pipes below `n` keeps the bound.** -/
theorem PipesBelow.exec (hn : n ≤ 8) (h : PipesBelow n s) (c : EsbCall)
    (hc : PipesGiven n s c) : PipesBelow n (s.exec c) := by
  cases c with
  | radioIrq ev => exact h.radioIrqHandler hn hc
  | init pConfig =>
    cases pConfig with
    | none => exact h
    | some cfg =>
      simp only [Esb.exec, Esb.call, nrfEsbInit]
      split <;> exact h.of_eq rfl rfl rfl rfl rfl
  | disable => exact h.of_eq rfl rfl rfl rfl rfl
  | startTx =>
    simp only [Esb.exec, Esb.call, nrfEsbStartTx]
    split
    · exact h
    · split
      · exact h
      · exact h.startTxTransaction hn
  | writePayload pPayload =>
    cases pPayload with
    | none =>
      simp only [Esb.exec, Esb.call, nrfEsbWritePayload]
      split <;> exact h
    | some p =>
      have hqueued : PipesBelow n (enqueuePayload p s) := by
        refine ⟨h.rx, ?_, h.address, h.enabled, h.received⟩
        exact forall_get_set (P := fun q : NrfEsbPayload => q.pipe.toNat < n)
          (p := { p with pid := nextPid s p.pipe }) h.tx hc
      simp only [Esb.exec, Esb.call, nrfEsbWritePayload]
      repeat' split
      all_goals first
        | exact h
        | exact hqueued
        | exact hqueued.startTxTransaction hn
  | startRx =>
    simp only [Esb.exec, Esb.call, nrfEsbStartRx]
    split
    · exact h
    · refine ⟨h.rx, h.tx, h.address, h.enabled, fun i hi => h.enabled i ?_⟩
      -- the pipes that are enabled become the addresses of the receiver
      simpa using hi
  | setPrefixes pPrefixes numPipes =>
    simp only [Esb.exec, Esb.call, nrfEsbSetPrefixes]
    split
    · exact h
    · split
      · exact h
      · split
        · exact h
        · rename_i hlt
          refine ⟨h.rx, h.tx, h.address, fun i hi => ?_, h.received⟩
          exact lt_of_lt_of_le (testBit_bitMaskUInt8 (not_not.mp hlt) i hi) hc
  | enablePipes enableMask =>
    simp only [Esb.exec, Esb.call, nrfEsbEnablePipes]
    split
    · exact h
    · exact ⟨h.rx, h.tx, h.address, hc, h.received⟩
  | readRxPayload pPayload =>
    simp only [Esb.exec, Esb.call, nrfEsbReadRxPayload]
    repeat' split
    all_goals simp_all
    all_goals first
      | exact h
      | exact h.of_eq rfl rfl rfl rfl rfl
  | evtIrq =>
    simp only [Esb.exec, Esb.call, esbEvtIrqHandler]
    repeat' split
    all_goals first
      | exact h
      | exact h.of_eq rfl rfl rfl rfl rfl
  | _ =>
    simp only [Esb.exec, Esb.call, nrfEsbSuspend, nrfEsbStopRx, nrfEsbFlushTx, nrfEsbPopTx,
      nrfEsbFlushRx, nrfEsbSetAddressLength, nrfEsbSetBaseAddress0, nrfEsbSetBaseAddress1,
      nrfEsbUpdatePrefix, nrfEsbSetRfChannel, nrfEsbSetTxPower]
    repeat' split
    all_goals first
      | exact h
      | exact h.of_eq rfl rfl rfl rfl rfl

end NordicEsb
