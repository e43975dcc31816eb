import NordicEsb.Esb.Bounds
import NordicEsb.Link.Packet

/-!
# What a Module Conveys

A module under DPL sends what was written to it, and a caller reads what came in. A property of
byte strings that holds of everything written and of everything received therefore holds of
every cell of the two FIFOs, used or not, and of every packet the module sends.

**Main result** (`Conveys.exec`): every call keeps it, whatever the state of the module is.
-/

namespace NordicEsb

/-! ## §1 Byte strings -/

/-- The bytes a payload is sent and read for. -/
def NrfEsbPayload.message (p : NrfEsbPayload) : List UInt8 := p.data.firstN p.length.toNat

/-- The bytes of the packet in the transmit buffer. -/
def sentBytes (s : Esb) : List UInt8 := s.txPayloadBuffer.data.firstN s.txPayloadBuffer.byte0.toNat

/-- The packet has as many bytes as it claims, and they are in `Q`. -/
def AirPacket.Carries (pkt : AirPacket) (Q : List UInt8 → Prop) : Prop :=
  pkt.byte0.toNat ≤ nrfEsbMaxPayloadLength →
    pkt.data.length = pkt.byte0.toNat ∧ Q pkt.data

/-- **A call that supplies bytes of `Q` only**: what it writes and what it receives is in `Q`, it
    configures DPL, and the radio is started under DPL. -/
def Supplies (Q : List UInt8 → Prop) (s : Esb) : EsbCall → Prop
  | .init (some cfg) => cfg.protocol = .esbDpl
  | .startTx | .startRx => s.configLocal.protocol = .esbDpl
  | .writePayload (some p) => Q p.message
  | .radioIrq ev => ∀ pkt, ev.packet = some pkt → ev.crcOk = true → pkt.Carries Q
  | _ => True

/-- A module that was never initialised nor started. -/
structure Untouched (s : Esb) : Prop where
  initialized : s.esbInitialized = false
  handler : s.onRadioDisabled = none

/-- **Everything in the module is in `Q`**: the cells of both FIFOs, and the packet it sends. -/
structure Conveys (Q : List UInt8 → Prop) (s : Esb) : Prop where
  protocol : s.configLocal.protocol = .esbDpl ∨ Untouched s
  sent : Q (sentBytes s)
  tx : ∀ i, Q (s.txFifo.slots.get i).message
  rx : ∀ i, Q (s.rxFifo.slots.get i).message

/-- Reading transports the bytes. -/
theorem message_copyRxPayload (dst src : NrfEsbPayload) :
    (copyRxPayload dst src).message = src.message := FixedArray.firstN_copy _ _ _

theorem message_default : (default : NrfEsbPayload).message = [] := rfl

theorem length_message (p : NrfEsbPayload) :
    p.message.length = min p.length.toNat nrfEsbMaxPayloadLength := FixedArray.length_firstN _ _

/-- The packet on air carries the bytes in the transmit buffer. -/
theorem Conveys.airPacket {Q : List UInt8 → Prop} {s : Esb} (h : Conveys Q s) :
    (airPacket s).Carries Q := by
  intro hlen
  refine ⟨?_, h.sent⟩
  have hlength := FixedArray.length_firstN s.txPayloadBuffer.data s.txPayloadBuffer.byte0.toNat
  exact hlength.trans (Nat.min_eq_left hlen)

/-! ## §2 The transmit buffer -/

/-- The packet that is sent after a step is the one before, an empty one, or a cell of the
    TX FIFO. -/
def Loads (s s' : Esb) : Prop :=
  sentBytes s' = sentBytes s ∨ sentBytes s' = [] ∨
    ∃ i, sentBytes s' = (s'.txFifo.slots.get i).message

/-- **`start_tx_transaction`** sends the cell at the exit point. -/
theorem sentBytes_startTxTransaction {s : Esb} (hdpl : s.configLocal.protocol = .esbDpl) :
    sentBytes (startTxTransaction s) = s.txFifo.head.message := by
  unfold sentBytes
  rw [startTxTransaction_txPayloadBuffer, txPacket, hdpl]
  exact FixedArray.firstN_copy _ _ _

theorem loads_startTxTransaction {s t : Esb} (hdpl : s.configLocal.protocol = .esbDpl) :
    Loads t (startTxTransaction s) :=
  .inr (.inr ⟨s.txFifo.exitPoint, sentBytes_startTxTransaction hdpl⟩)

/-- A transmission without acknowledgment is followed by the next one or by rest. -/
theorem loads_onRadioDisabledTxNoack {s : Esb} (hdpl : s.configLocal.protocol = .esbDpl) :
    Loads s (onRadioDisabledTxNoack s) := by
  unfold onRadioDisabledTxNoack
  dsimp only
  split
  · exact .inl rfl
  · exact loads_startTxTransaction hdpl

theorem loads_onRadioDisabledTxWaitForAck {s : Esb} (hdpl : s.configLocal.protocol = .esbDpl) :
    Loads s (onRadioDisabledTxWaitForAck s) := by
  unfold onRadioDisabledTxWaitForAck
  dsimp only
  split
  · unfold onAckReceived
    dsimp only
    split
    · split
      · exact .inl rfl
      · exact loads_startTxTransaction hdpl
    · split
      · exact .inl rfl
      · exact loads_startTxTransaction hdpl
  · unfold onAckMissed
    dsimp only
    split <;> exact .inl rfl

/-- **A receiver** acknowledges with a cell of its TX FIFO or with nothing. -/
theorem loads_onRadioDisabledRx {s : Esb} (hdpl : s.configLocal.protocol = .esbDpl) :
    Loads s (onRadioDisabledRx s) := by
  by_cases hack : acksDpl s = true
  · have hbuffer := onRadioDisabledRx_ackBuffer hack
    split at hbuffer
    · -- the cell at the exit point
      refine .inr (.inr ⟨(onRadioDisabledRx s).txFifo.exitPoint, ?_⟩)
      unfold sentBytes
      rw [hbuffer.1]
      exact hbuffer.2
    · refine .inr (.inl ?_)
      unfold sentBytes
      rw [hbuffer]
      rfl
  · -- no acknowledgment: the buffer is left alone
    left
    have hnone : ∀ b, acceptsRx s = true →
        (acknowledge b (notePidAndCrc s)).txPayloadBuffer = s.txPayloadBuffer := by
      intro b hacc
      have hno : ackRequested s = false := by simpa [acksDpl, hacc, hdpl] using hack
      unfold acknowledge
      rw [show ackRequested (notePidAndCrc s) = false from hno]
      rfl
    unfold sentBytes
    rw [onRadioDisabledRx_eq]
    cases hacc : acceptsRx s with
    | false => rfl
    | true =>
      rw [if_pos rfl]
      split
      · rw [hnone true hacc]
      · rw [show (pushReceived (acknowledge false (notePidAndCrc s))).txPayloadBuffer =
            (acknowledge false (notePidAndCrc s)).txPayloadBuffer from rfl, hnone false hacc]

theorem loads_callOnRadioDisabled {s : Esb} (hdpl : s.configLocal.protocol = .esbDpl) :
    Loads s (callOnRadioDisabled s) := by
  unfold callOnRadioDisabled
  cases s.onRadioDisabled with
  | none => exact .inl rfl
  | some f =>
    cases f with
    | tx | rxAck => exact .inl rfl
    | txNoack => exact loads_onRadioDisabledTxNoack hdpl
    | txWaitForAck => exact loads_onRadioDisabledTxWaitForAck hdpl
    | rx => exact loads_onRadioDisabledRx hdpl

theorem sentBytes_latch (ev : RadioEvent) (s : Esb) : sentBytes (ev.latch s) = sentBytes s := by
  unfold sentBytes
  rw [latch_txPayloadBuffer]

/-- Without a handler the radio interrupt does nothing. -/
theorem radioIrqHandler_of_none {ev : RadioEvent} {s : Esb} (h : s.onRadioDisabled = none) :
    radioIrqHandler ev s = ev.latch s := by
  rw [radioIrqHandler_eq, callOnRadioDisabled, latch_onRadioDisabled, h]
  split <;> rfl

/-- **What every call does to the transmit buffer.** -/
theorem exec_loads {Q : List UInt8 → Prop} {s : Esb} {c : EsbCall} (h : Conveys Q s)
    (hc : Supplies Q s c) : Loads s (s.exec c) := by
  cases c with
  | init pConfig =>
    left
    cases pConfig with
    | none => rfl
    | some cfg =>
      simp only [Esb.exec, Esb.call, nrfEsbInit]
      split <;> rfl
  | disable => exact .inl rfl
  | startTx =>
    simp only [Esb.exec, Esb.call, nrfEsbStartTx]
    repeat' split
    · exact .inl rfl
    · exact .inl rfl
    · exact loads_startTxTransaction hc
  -- a module that was never initialised rejects the write
  | writePayload pPayload =>
    rcases h.protocol with hdpl | huntouched
    · simp only [Esb.exec, Esb.call, nrfEsbWritePayload]
      repeat' split
      all_goals first
        | exact .inl rfl
        | exact loads_startTxTransaction hdpl
    · left
      simp only [Esb.exec, Esb.call, nrfEsbWritePayload, huntouched.initialized]
      rfl
  -- latching the events loads nothing: only the handler does
  | radioIrq ev =>
    show Loads s (radioIrqHandler ev s)
    rcases h.protocol with hdpl | huntouched
    · rw [radioIrqHandler_eq]
      split
      · have hloads := loads_callOnRadioDisabled (s := ev.latch s) (by simpa using hdpl)
        unfold Loads at hloads ⊢
        rwa [sentBytes_latch] at hloads
      · exact .inl (sentBytes_latch ev s)
    · rw [radioIrqHandler_of_none huntouched.handler]
      exact .inl (sentBytes_latch ev s)
  | readRxPayload pPayload =>
    left
    simp only [Esb.exec, Esb.call, nrfEsbReadRxPayload]
    repeat' split
    all_goals simp_all [sentBytes]
  -- the other calls leave what is sent as it is
  | evtIrq =>
    left
    simp only [Esb.exec, Esb.call, esbEvtIrqHandler]
    repeat' split
    all_goals rfl
  | _ =>
    left
    simp only [Esb.exec, Esb.call, nrfEsbSuspend, nrfEsbStartRx, nrfEsbStopRx, nrfEsbFlushTx,
      nrfEsbPopTx, nrfEsbFlushRx, nrfEsbSetAddressLength, nrfEsbSetBaseAddress0,
      nrfEsbSetBaseAddress1, nrfEsbSetPrefixes, nrfEsbUpdatePrefix, nrfEsbEnablePipes,
      nrfEsbSetRfChannel, nrfEsbSetTxPower]
    repeat' split
    all_goals rfl

/-! ## §3 Every call -/

/-- A call other than `nrf_esb_init` and a start leaves an untouched module untouched. -/
theorem untouched_exec {Q : List UInt8 → Prop} {s : Esb} {c : EsbCall} (h : Untouched s)
    (hc : Supplies Q s c) :
    (s.exec c).configLocal.protocol = .esbDpl ∨ Untouched (s.exec c) := by
  obtain ⟨hinit, hnone⟩ := h
  cases c with
  | init pConfig =>
    cases pConfig with
    | none => exact .inr ⟨hinit, hnone⟩
    | some cfg => exact .inl ((congrArg _ (nrfEsbInit_configLocal cfg s)).trans hc)
  | startTx =>
    simp only [Esb.exec, Esb.call, nrfEsbStartTx]
    repeat' split
    all_goals exact .inl hc
  | startRx =>
    simp only [Esb.exec, Esb.call, nrfEsbStartRx]
    repeat' split
    all_goals exact .inl hc
  | radioIrq ev =>
    right
    show Untouched (radioIrqHandler ev s)
    rw [radioIrqHandler_of_none hnone]
    exact ⟨by simpa using hinit, by simpa using hnone⟩
  | disable => exact .inr ⟨hinit, hnone⟩
  | writePayload pPayload =>
    right
    simp only [Esb.exec, Esb.call, nrfEsbWritePayload, hinit]
    exact ⟨hinit, hnone⟩
  | readRxPayload pPayload =>
    right
    simp only [Esb.exec, Esb.call, nrfEsbReadRxPayload, hinit]
    exact ⟨hinit, hnone⟩
  | evtIrq =>
    right
    simp only [Esb.exec, Esb.call, esbEvtIrqHandler]
    rw [if_pos (by simp [hinit])]
    exact ⟨hinit, hnone⟩
  | _ =>
    right
    simp only [Esb.exec, Esb.call, nrfEsbSuspend, nrfEsbStopRx, nrfEsbFlushTx, nrfEsbPopTx,
      nrfEsbFlushRx, nrfEsbSetAddressLength, nrfEsbSetBaseAddress0, nrfEsbSetBaseAddress1,
      nrfEsbSetPrefixes, nrfEsbUpdatePrefix, nrfEsbEnablePipes, nrfEsbSetRfChannel,
      nrfEsbSetTxPower]
    repeat' split
    all_goals first
      | exact ⟨hinit, hnone⟩
      | exact ⟨hinit, rfl⟩

/-- **What is stored of a received packet** are its bytes. -/
theorem Pushed.message_of_dpl {Q : List UInt8 → Prop} {s : Esb} {ev : RadioEvent}
    {p : NrfEsbPayload} (h : Pushed (ev.latch s) p) (hdpl : s.configLocal.protocol = .esbDpl)
    (hev : ∀ pkt, ev.packet = some pkt → ev.crcOk = true → pkt.Carries Q) : Q p.message := by
  obtain ⟨packet, crcOk, rxcrc, rssisample⟩ := ev
  cases packet with
  | none => exact absurd h.crc (by simp [RadioEvent.latch])
  | some pkt =>
    have hcrc : crcOk = true := h.crc
    have hlength : rxPushLength (RadioEvent.latch ⟨some pkt, crcOk, rxcrc, rssisample⟩ s) =
        pkt.byte0 := by
      simp [rxPushLength, hdpl, RadioEvent.latch]
    have hle : pkt.byte0.toNat ≤ nrfEsbMaxPayloadLength := by
      have hacc := h.accepted
      simp only [rxPushAccepted, RadioEvent.latch, hdpl, beq_self_eq_true, Bool.true_and,
        Bool.and_eq_true, Bool.not_eq_true'] at hacc
      exact not_lt.mp (of_decide_eq_false hacc.2)
    obtain ⟨hlen, hQ⟩ := hev pkt rfl hcrc hle
    have hmessage : p.message = pkt.data := by
      unfold NrfEsbPayload.message
      rw [h.length, h.bytes, hlength, ← hlen]
      exact FixedArray.firstN_load _ _ (hlen ▸ hle)
    rw [hmessage]
    exact hQ

/-- No call leaves DPL. -/
theorem dpl_exec {Q : List UInt8 → Prop} {s : Esb} {c : EsbCall}
    (hdpl : s.configLocal.protocol = .esbDpl) (hc : Supplies Q s c) :
    (s.exec c).configLocal.protocol = .esbDpl := by
  by_cases hinit : ∃ cfg, c = .init (some cfg)
  · obtain ⟨cfg, rfl⟩ := hinit
    exact (congrArg _ (nrfEsbInit_configLocal cfg s)).trans hc
  · rw [(exec_protocol s c fun cfg hcfg => hinit ⟨cfg, hcfg⟩).1]
    exact hdpl

/-- **Every call keeps everything in the module in `Q`.** -/
theorem Conveys.exec {Q : List UInt8 → Prop} (hnil : Q []) {s : Esb} (h : Conveys Q s)
    (c : EsbCall) (hc : Supplies Q s c) : Conveys Q (s.exec c) := by
  have htx : ∀ i, Q ((s.exec c).txFifo.slots.get i).message := by
    intro i
    rcases exec_txSlots s c with hsame | ⟨p, rfl, -, henq⟩
    · rw [hsame]
      exact h.tx i
    · rw [henq]
      exact forall_get_set (P := fun q => Q q.message)
        (p := { p with pid := nextPid s p.pipe }) h.tx hc i
  refine ⟨?_, ?_, htx, ?_⟩
  · rcases h.protocol with hdpl | huntouched
    · exact .inl (dpl_exec hdpl hc)
    · exact untouched_exec huntouched hc
  · rcases exec_loads h hc with hsame | hempty | ⟨i, hcell⟩
    · rw [hsame]
      exact h.sent
    · rw [hempty]
      exact hnil
    · rw [hcell]
      exact htx i
  · intro i
    by_cases hirq : ∃ ev, c = .radioIrq ev
    · obtain ⟨ev, rfl⟩ := hirq
      show Q ((radioIrqHandler ev s).rxFifo.slots.get i).message
      rcases h.protocol with hdpl | huntouched
      · rw [radioIrqHandler_eq]
        split
        · rcases callOnRadioDisabled_rxFifo (ev.latch s) with hsame | ⟨p, hpush, hpushed, -⟩
          · rw [hsame, latch_rxFifo]
            exact h.rx i
          · rw [hpush]
            refine forall_get_set (P := fun q => Q q.message) (by simpa using h.rx) ?_ i
            exact hpushed.message_of_dpl hdpl hc
        · rw [latch_rxFifo]
          exact h.rx i
      · rw [radioIrqHandler_of_none huntouched.handler, latch_rxFifo]
        exact h.rx i
    · rw [exec_rxSlots s c fun ev hev => hirq ⟨ev, hev⟩]
      exact h.rx i

/-- A module that works under DPL, with everything in `Q`. -/
structure Works (Q : List UInt8 → Prop) (s : Esb) : Prop extends Conveys Q s where
  dpl : s.configLocal.protocol = .esbDpl

theorem Works.exec {Q : List UInt8 → Prop} (hnil : Q []) {s : Esb} (h : Works Q s) (c : EsbCall)
    (hc : Supplies Q s c) : Works Q (s.exec c) :=
  ⟨h.toConveys.exec hnil c hc, dpl_exec h.dpl hc⟩

/-- `nrf_esb_init` makes a module work. -/
theorem Conveys.init {Q : List UInt8 → Prop} (hnil : Q []) {s : Esb} (h : Conveys Q s)
    (cfg : NrfEsbConfig) (hcfg : cfg.protocol = .esbDpl) :
    Works Q (s.exec (.init (some cfg))) :=
  ⟨h.exec hnil (.init (some cfg)) hcfg, (congrArg _ (nrfEsbInit_configLocal cfg s)).trans hcfg⟩

/-- The module of a fresh boot. -/
theorem conveys_reset {Q : List UInt8 → Prop} (hnil : Q []) : Conveys Q Esb.reset where
  protocol := .inr ⟨rfl, rfl⟩
  sent := hnil
  tx i := by
    rw [show Esb.reset.txFifo.slots = default from rfl, FixedArray.get_default]
    exact hnil
  rx i := by
    rw [show Esb.reset.rxFifo.slots = default from rfl, FixedArray.get_default]
    exact hnil

end NordicEsb
