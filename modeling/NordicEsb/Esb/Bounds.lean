import NordicEsb.Esb.Access

/-!
# Buffer Bounds

Pipes and lengths come from the caller, from the configuration and from the air, and not every
one of them is checked.

- `Fits`: what a call has to respect.
- `CellsFit`: no FIFO cell claims more bytes than it has; kept by calls that fit.

**Main result** (`inBoundsAlong_iff`): from `nrf_esb_init` on, every access of a run is in
bounds exactly if every call of the run fits. Payloads for the 8 pipes of the radio and
configurations with a length that a cell can hold are enough
(`inBoundsAlong_of_withinLimits`).
-/

namespace NordicEsb

/-! ## §1 What has to be respected -/

/-- The payload a transmission starts with, if the call starts one. -/
def nextSent (s : Esb) : EsbCall → NrfEsbPayload
  | .writePayload (some p) => (enqueuePayload p s).txFifo.head
  | .radioIrq _ => s.txFifo.dropHead.head
  | _ => s.txFifo.head

/-- A receiver under the fixed-length protocol stores a packet. -/
def storesFixedLength (s : Esb) : EsbCall → Bool
  | .radioIrq ev =>
    (ev.latch s).radio.intensetDisabled && s.onRadioDisabled == some .rx &&
      s.configLocal.protocol == .esb && s.configLocal.mode == .prx && storesRx (ev.latch s)
  | _ => false

/-- **A call fits**: the pipe of an accepted payload is an index of `m_pids`, a payload that goes
    on the air has one of the 8 pipes of the radio, and a receiver with fixed-length packets has
    a length that fits a FIFO cell. -/
structure Fits (s : Esb) (c : EsbCall) : Prop where
  written : ∀ p, c = .writePayload (some p) → writeAccepted s p = true →
    p.pipe.toNat < nrfEsbPipeCount
  sent : startsTx s c = true → (nextSent s c).pipe.toNat ≤ 7
  stored : storesFixedLength s c = true →
    s.configLocal.payloadLength.toNat ≤ nrfEsbMaxPayloadLength

/-- Every access of the calls is in bounds. -/
def InBoundsAlong : Esb → List EsbCall → Prop
  | _, [] => True
  | s, c :: calls => (∀ a ∈ s.accesses c, a.InBounds) ∧ InBoundsAlong (s.exec c) calls

/-- Every call fits when it is made. -/
def FitsAlong : Esb → List EsbCall → Prop
  | _, [] => True
  | s, c :: calls => Fits s c ∧ FitsAlong (s.exec c) calls

/-- The payloads in the FIFO cells, used or not, fit the cells. -/
structure CellsFit (s : Esb) : Prop where
  tx : ∀ i, (s.txFifo.slots.get i).length.toNat ≤ nrfEsbMaxPayloadLength
  rx : ∀ i, (s.rxFifo.slots.get i).length.toNat ≤ nrfEsbMaxPayloadLength

/-! ## §2 One call -/

/-- **`start_tx_transaction`** copies what fits a cell. -/
theorem startTxAccesses_inBounds {s : Esb}
    (h : s.txFifo.head.length.toNat ≤ nrfEsbMaxPayloadLength) :
    (∀ a ∈ startTxAccesses s, a.InBounds) ↔ s.txFifo.head.pipe.toNat ≤ 7 := by
  simp [startTxAccesses, Access.InBounds, h]

/-- **`rx_fifo_push_rfbuf`** checks the length of a packet with a dynamic length only. -/
theorem rxPushAccesses_inBounds (s : Esb) :
    (∀ a ∈ rxPushAccesses s, a.InBounds) ↔
      (rxPushAccepted s = true → s.configLocal.protocol = .esb → s.configLocal.mode = .prx →
        s.configLocal.payloadLength.toNat ≤ nrfEsbMaxPayloadLength) := by
  unfold rxPushAccesses
  cases hacc : rxPushAccepted s with
  | false => simp
  | true =>
    simp only [if_true, List.mem_singleton, forall_eq, Access.InBounds, rxPushLength]
    cases hproto : s.configLocal.protocol with
    | esb => cases s.configLocal.mode <;> simp
    | esbDpl =>
      -- the check of the code
      simp only [rxPushAccepted, hproto, beq_self_eq_true, Bool.true_and, Bool.and_eq_true,
        Bool.not_eq_true', decide_eq_false_iff_not, not_lt] at hacc
      simp [hacc.2]

/-- A packet with a dynamic length is always stored within its cell. -/
theorem rxPushAccesses_inBounds_of_dpl {s : Esb} (h : s.configLocal.protocol ≠ .esb) :
    ∀ a ∈ rxPushAccesses s, a.InBounds :=
  (rxPushAccesses_inBounds s).mpr fun _ hesb => absurd hesb h

/-- After a completion the next payload is the second of the FIFO. -/
theorem head_txFifoRemoveLast {s : Esb} (h : (txFifoRemoveLast s).txFifo.count ≠ 0) :
    (txFifoRemoveLast s).txFifo = s.txFifo.dropHead := by
  unfold txFifoRemoveLast at h ⊢
  by_cases hpos : 0 < s.txFifo.count
  · exact if_pos hpos
  · simp only [if_neg hpos] at h
    omega

theorem startNext_inBounds {s t : Esb} (h : CellsFit s)
    (hfifo : t.txFifo = (txFifoRemoveLast s).txFifo) (hne : t.txFifo.count ≠ 0) :
    (∀ a ∈ startTxAccesses t, a.InBounds) ↔ s.txFifo.dropHead.head.pipe.toNat ≤ 7 := by
  rw [hfifo] at hne
  have hdrop : t.txFifo = s.txFifo.dropHead := hfifo.trans (head_txFifoRemoveLast hne)
  rw [← hdrop]
  apply startTxAccesses_inBounds
  rw [hdrop]
  exact h.tx _

/-- **`on_radio_disabled_tx_noack`** -/
theorem txNoackAccesses_inBounds {s : Esb} (h : CellsFit s) :
    (∀ a ∈ txNoackAccesses s, a.InBounds) ↔
      ((txFifoRemoveLast s).txFifo.count ≠ 0 → s.txFifo.dropHead.head.pipe.toNat ≤ 7) := by
  have hfifo : (txFifoRemoveLast (raiseTxSuccess s)).txFifo = (txFifoRemoveLast s).txFifo := rfl
  unfold txNoackAccesses
  dsimp only
  by_cases hne : (txFifoRemoveLast s).txFifo.count = 0
  · rw [if_pos (hfifo ▸ hne)]
    simp [hne]
  · rw [if_neg (hfifo ▸ hne), startNext_inBounds h hfifo hne]
    simp [hne]

/-- **An acknowledgment**: its payload has a dynamic length. -/
theorem ackReceivedAccesses_inBounds {s : Esb} (h : CellsFit s) :
    (∀ a ∈ ackReceivedAccesses s, a.InBounds) ↔
      ((txFifoRemoveLast s).txFifo.count ≠ 0 → s.configLocal.txMode ≠ .manual →
        s.txFifo.dropHead.head.pipe.toNat ≤ 7) := by
  obtain ⟨t, ht⟩ : ∃ t, t = txFifoRemoveLast (noteAck s) := ⟨_, rfl⟩
  have hfifo : t.txFifo = (txFifoRemoveLast s).txFifo := by rw [ht]; rfl
  have hcfg : t.configLocal = s.configLocal := by rw [ht]; rfl
  have hpush : ∀ a ∈ (if hasAckPayload t then rxPushAccesses t else []), a.InBounds := by
    cases hhas : hasAckPayload t with
    | false => simp
    | true =>
      simp only [hasAckPayload, Bool.and_eq_true, bne_iff_ne] at hhas
      exact rxPushAccesses_inBounds_of_dpl hhas.1
  have happend : (∀ a ∈ ackReceivedAccesses s, a.InBounds) ↔
      ∀ a ∈ (if t.txFifo.count = 0 ∨ t.configLocal.txMode = .manual then []
        else startTxAccesses t), a.InBounds := by
    unfold ackReceivedAccesses
    dsimp only
    rw [← ht, List.forall_mem_append]
    exact and_iff_right hpush
  rw [happend, ← hfifo, ← hcfg]
  by_cases hstop : t.txFifo.count = 0 ∨ t.configLocal.txMode = .manual
  · rw [if_pos hstop]
    simp only [List.not_mem_nil, false_imp_iff, implies_true, true_iff]
    rcases hstop with hzero | hmanual
    · exact fun hne => absurd hzero hne
    · exact fun _ hauto => absurd hmanual hauto
  · rw [not_or] at hstop
    rw [if_neg (not_or.mpr hstop), startNext_inBounds h hfifo hstop.1]
    simp [hstop.1, hstop.2]

/-- **The acknowledgment a receiver prepares** is in bounds. -/
theorem prepareAckAccesses_inBounds {s : Esb} (h : CellsFit s) :
    ∀ a ∈ prepareAckAccesses s, a.InBounds := by
  have hmatch : (rxmatchByte s).toNat ≤ 7 := by
    rw [rxmatchByte_toNat]
    omega
  unfold prepareAckAccesses
  rw [List.forall_mem_append]
  constructor
  · split
    · simp only [List.mem_singleton, forall_eq, Access.InBounds]
      split <;> exact h.tx _
    · simp
  · simpa [Access.InBounds] using hmatch

/-- **`on_radio_disabled_rx`** -/
theorem rxAccesses_inBounds {s : Esb} (h : CellsFit s) :
    (∀ a ∈ rxAccesses s, a.InBounds) ↔
      (s.configLocal.protocol = .esb → s.configLocal.mode = .prx → storesRx s = true →
        s.configLocal.payloadLength.toNat ≤ nrfEsbMaxPayloadLength) := by
  unfold rxAccesses storesRx
  cases acceptsRx s with
  | false => simp
  | true =>
    have hack : ∀ a ∈ (if ackRequested s then prepareAckAccesses s else []), a.InBounds := by
      split
      · exact prepareAckAccesses_inBounds h
      · simp
    simp only [if_true, List.forall_mem_cons, List.forall_mem_append]
    have hpipe : (Access.rxPipeInfo s.radio.rxmatch.val).InBounds := rxmatch_lt s
    rw [and_iff_right hpipe, and_iff_right hack]
    cases retransmitPayload s with
    | true => simp
    | false =>
      simp only [Bool.false_eq_true, if_false, Bool.not_false, Bool.true_and]
      rw [rxPushAccesses_inBounds]
      exact ⟨fun hle hesb hprx hacc => hle hacc hesb hprx,
        fun hle hacc hesb hprx => hle hesb hprx hacc⟩

/-- **The handlers**, on the latched state. -/
theorem handlerAccesses_inBounds {s : Esb} (h : CellsFit s) :
    (∀ a ∈ handlerAccesses s, a.InBounds) ↔
      (completesTx s = true → continuesTx s = true → s.txFifo.dropHead.head.pipe.toNat ≤ 7) ∧
        (s.onRadioDisabled = some .rx → s.configLocal.protocol = .esb →
          s.configLocal.mode = .prx → storesRx s = true →
            s.configLocal.payloadLength.toNat ≤ nrfEsbMaxPayloadLength) := by
  unfold handlerAccesses completesTx continuesTx
  cases s.onRadioDisabled with
  | none => simp
  | some f =>
    cases f with
    | tx | rxAck => simp
    | txNoack => simp [txNoackAccesses_inBounds h]
    | txWaitForAck =>
      unfold txWaitForAckAccesses
      cases s.radio.eventsEnd && s.radio.crcstatus with
      | false => simp
      | true => simp [ackReceivedAccesses_inBounds h]
    | rx => simp [rxAccesses_inBounds h]

/-! ## §3 The cells -/

/-- The payload that a write accepts fits a cell. -/
theorem length_le_of_writeAccepted {s : Esb} {p : NrfEsbPayload} (h : writeAccepted s p = true) :
    p.length.toNat ≤ nrfEsbMaxPayloadLength := by
  simp only [writeAccepted, payloadLengthValid, Bool.and_eq_true, Bool.not_eq_true',
    Bool.or_eq_false_iff, decide_eq_false_iff_not, not_lt] at h
  exact h.1.1.2.1.2

/-- A property of all cells survives a write of something that has it. -/
theorem forall_get_set {n : ℕ} {P : NrfEsbPayload → Prop} {a : FixedArray n NrfEsbPayload} {i : ℕ}
    {p : NrfEsbPayload} (h : ∀ j, P (a.get j)) (hp : P p) (j : ℕ) : P ((a.set i p).get j) := by
  by_cases hij : j = i
  · subst hij
    by_cases hj : j < n
    · rwa [FixedArray.get_set_self _ _ hj]
    · have hget := h j
      simp only [FixedArray.get, hj, dite_false] at hget ⊢
      exact hget
  · rw [FixedArray.get_set_ne _ _ hij]
    exact h j

theorem cellsFit_enqueuePayload {s : Esb} {p : NrfEsbPayload} (h : CellsFit s)
    (hacc : writeAccepted s p = true) : CellsFit (enqueuePayload p s) where
  tx := forall_get_set (P := fun q => q.length.toNat ≤ nrfEsbMaxPayloadLength) h.tx
    (length_le_of_writeAccepted hacc)
  rx := h.rx

/-- What `rx_fifo_push_rfbuf` stores of the packet in the receive buffer. -/
structure Pushed (s : Esb) (p : NrfEsbPayload) : Prop where
  length : p.length = rxPushLength s
  bytes : p.data.firstN (rxPushLength s).toNat =
    s.rxPayloadBuffer.data.firstN (rxPushLength s).toNat
  accepted : rxPushAccepted s = true
  crc : s.radio.crcstatus = true

/-- The payload of an acknowledgment is stored if it passes the check. -/
theorem onAckReceived_rxFifo {s : Esb} (hcrc : s.radio.crcstatus = true) :
    (onAckReceived s).rxFifo = s.rxFifo ∨
      ∃ p, (onAckReceived s).rxFifo = s.rxFifo.push p ∧ Pushed s p ∧ hasAckPayload s = true := by
  obtain ⟨t, ht⟩ : ∃ t, t = txFifoRemoveLast (noteAck s) := ⟨_, rfl⟩
  have hhas : hasAckPayload t = hasAckPayload s := by rw [ht]; rfl
  have hrx : t.rxFifo = s.rxFifo := by rw [ht]; rfl
  have hpushed : (receiveAckPayload t).rxFifo =
      if rxPushAccepted s then
        s.rxFifo.push (rxPushEntry t.radio.txaddress 0 t (s.rxFifo.slots.get s.rxFifo.entryPoint))
      else s.rxFifo := by
    rw [ht]
    rfl
  have hfifo : (onAckReceived s).rxFifo =
      (if hasAckPayload t then receiveAckPayload t else t).rxFifo := by
    unfold onAckReceived
    dsimp only
    rw [← ht]
    split <;> split <;> rfl
  rw [hfifo, hhas]
  cases hasAckPayload s with
  | false => exact .inl hrx
  | true =>
    rw [if_pos rfl, hpushed]
    cases hacc : rxPushAccepted s with
    | false => exact .inl rfl
    | true =>
      have hlength : rxPushLength t = rxPushLength s := by rw [ht]; rfl
      have hbuffer : t.rxPayloadBuffer = s.rxPayloadBuffer := by rw [ht]; rfl
      refine .inr ⟨_, rfl, ⟨hlength, ?_, hacc, hcrc⟩, rfl⟩
      rw [← hlength, ← hbuffer]
      exact FixedArray.firstN_copy _ _ _

/-- What the handlers leave in the RX FIFO: nothing new, or a packet whose length passed the
    check of `rx_fifo_push_rfbuf`. -/
theorem callOnRadioDisabled_rxFifo (s : Esb) :
    (callOnRadioDisabled s).rxFifo = s.rxFifo ∨
      ∃ p, (callOnRadioDisabled s).rxFifo = s.rxFifo.push p ∧ Pushed s p ∧
        (s.configLocal.protocol = .esb → s.onRadioDisabled = some .rx ∧ storesRx s = true) := by
  unfold callOnRadioDisabled
  cases hh : s.onRadioDisabled with
  | none => exact .inl rfl
  | some f =>
    cases f with
    | tx | rxAck => exact .inl rfl
    | txNoack =>
      left
      dsimp only
      unfold onRadioDisabledTxNoack
      dsimp only
      split <;> rfl
    | txWaitForAck =>
      dsimp only
      unfold onRadioDisabledTxWaitForAck
      dsimp only
      split
      case isTrue hack =>
        simp only [Bool.and_eq_true] at hack
        rcases onAckReceived_rxFifo (s := { s with
            ppi := { s.ppi with timerStart := false, rxTimeout := false, timerStop := false } })
            hack.2 with hsame | ⟨p, hpush, hpushed, hhas⟩
        · exact .inl hsame
        · simp only [hasAckPayload, Bool.and_eq_true, bne_iff_ne] at hhas
          exact .inr ⟨p, hpush, ⟨hpushed.length, hpushed.bytes, hpushed.accepted, hpushed.crc⟩,
            fun hesb => absurd hesb hhas.1⟩
      case isFalse =>
        left
        unfold onAckMissed
        dsimp only
        split <;> rfl
    | rx =>
      dsimp only
      rw [onRadioDisabledRx_rxFifo]
      cases hst : storesRx s with
      | false => exact .inl rfl
      | true =>
        have hstores := hst
        simp only [storesRx, acceptsRx, Bool.and_eq_true] at hst
        exact .inr ⟨_, rfl, ⟨rfl, FixedArray.firstN_copy _ _ _, hst.2, hst.1.1.1⟩,
          fun _ => ⟨rfl, rfl⟩⟩

/-- The other calls write no cell of the RX FIFO. -/
theorem exec_rxSlots (s : Esb) (c : EsbCall) (hc : ∀ ev, c ≠ .radioIrq ev) :
    (s.exec c).rxFifo.slots = s.rxFifo.slots := by
  unfold Esb.exec
  cases c with
  | radioIrq ev => exact absurd rfl (hc ev)
  | init pConfig =>
    cases pConfig with
    | none => rfl
    | some cfg =>
      simp only [Esb.call, nrfEsbInit]
      split <;> rfl
  | disable => rfl
  | evtIrq =>
    simp only [Esb.call, esbEvtIrqHandler]
    repeat' split
    all_goals rfl
  | writePayload pPayload =>
    simp only [Esb.call, nrfEsbWritePayload]
    repeat' split
    all_goals rfl
  | readRxPayload pPayload =>
    simp only [Esb.call, nrfEsbReadRxPayload]
    repeat' split
    all_goals simp_all [RingQueue.dropHead]
  | _ =>
    simp only [Esb.call, nrfEsbSuspend, nrfEsbStartTx, nrfEsbStartRx, nrfEsbStopRx, nrfEsbFlushTx,
      nrfEsbPopTx, nrfEsbFlushRx, nrfEsbSetAddressLength, nrfEsbSetBaseAddress0,
      nrfEsbSetBaseAddress1, nrfEsbSetPrefixes, nrfEsbUpdatePrefix, nrfEsbEnablePipes,
      nrfEsbSetRfChannel, nrfEsbSetTxPower]
    repeat' split
    all_goals rfl

/-- Only an accepted write changes a cell of the TX FIFO. -/
theorem exec_txSlots (s : Esb) (c : EsbCall) :
    (s.exec c).txFifo.slots = s.txFifo.slots ∨
      ∃ p, c = .writePayload (some p) ∧ writeAccepted s p = true ∧
        (s.exec c).txFifo.slots = (enqueuePayload p s).txFifo.slots := by
  by_cases hpop : c = .popTx
  · subst hpop
    left
    simp only [Esb.exec, Esb.call, nrfEsbPopTx]
    repeat' split
    all_goals rfl
  · rw [exec_txFifo s c hpop]
    cases heff : txEffect s c with
    | keep => exact .inl rfl
    | empty => exact .inl rfl
    | removeHead =>
      left
      simp only [QueueOp.onRing]
      split <;> rfl
    | append =>
      obtain ⟨p, rfl, hacc⟩ := txEffect_eq_append heff
      exact .inr ⟨p, rfl, hacc, rfl⟩

/-- **The cells stay fitting** as long as the calls fit. -/
theorem cellsFit_exec {s : Esb} {c : EsbCall} (h : CellsFit s) (hfits : Fits s c) :
    CellsFit (s.exec c) where
  tx i := by
    rcases exec_txSlots s c with hsame | ⟨p, -, hacc, henq⟩
    · rw [hsame]
      exact h.tx i
    · rw [henq]
      exact (cellsFit_enqueuePayload h hacc).tx i
  rx i := by
    by_cases hirq : ∃ ev, c = .radioIrq ev
    · obtain ⟨ev, rfl⟩ := hirq
      show (((radioIrqHandler ev s).rxFifo.slots.get i).length.toNat ≤ _)
      rw [radioIrqHandler_eq]
      cases hi : (ev.latch s).radio.intensetDisabled with
      | false => simpa using h.rx i
      | true =>
        rw [if_pos rfl]
        rcases callOnRadioDisabled_rxFifo (ev.latch s) with hsame | ⟨p, hpush, hpushed, hesb⟩
        · rw [hsame, latch_rxFifo]
          exact h.rx i
        · rw [hpush]
          refine forall_get_set (P := fun q => q.length.toNat ≤ nrfEsbMaxPayloadLength)
            (by simpa using h.rx) ?_ i
          show p.length.toNat ≤ _
          rw [hpushed.length]
          -- the copy into the cell was in bounds
          have hcopy := (rxPushAccesses_inBounds (ev.latch s)).mpr ?_
          · exact hcopy (.copy (rxPushLength (ev.latch s)).toNat) (by simp [rxPushAccesses, hpushed.accepted])
          · intro _ hproto hprx
            obtain ⟨hrx, hst⟩ := hesb hproto
            rw [latch_configLocal] at hproto hprx ⊢
            exact hfits.stored (by
              simpa [storesFixedLength, hi, hproto, hprx, hst] using hrx)
    · rw [exec_rxSlots s c fun ev hev => hirq ⟨ev, hev⟩]
      exact h.rx i

/-! ## §4 Runs -/

/-- A call that writes no payload, starts no transmission and stores no packet fits. -/
theorem fits_of_plain {s : Esb} {c : EsbCall} (hwrite : ∀ p, c ≠ .writePayload (some p))
    (hstart : startsTx s c = false) (hstore : storesFixedLength s c = false) : Fits s c where
  written p hc := absurd hc (hwrite p)
  sent hsent := by simp [hstart] at hsent
  stored hstored := by simp [hstore] at hstored

theorem fits_write_iff {s : Esb} {p : NrfEsbPayload} (hacc : writeAccepted s p = true) :
    Fits s (.writePayload (some p)) ↔ p.pipe.toNat < nrfEsbPipeCount ∧
      (autoStarts s = true → (enqueuePayload p s).txFifo.head.pipe.toNat ≤ 7) := by
  have hcall : (s.call (.writePayload (some p))).1 = .success := by
    show (nrfEsbWritePayload (some p) s).1 = .success
    rw [nrfEsbWritePayload_of_accepted hacc]
  constructor
  · intro h
    refine ⟨h.written p rfl hacc, fun hauto => h.sent ?_⟩
    simp [startsTx, hcall, hauto]
  · rintro ⟨hpipe, hhead⟩
    refine ⟨fun q hq _ => ?_, fun hstart => hhead ?_, fun hst => by cases hst⟩
    · cases hq
      exact hpipe
    · simp only [startsTx, Bool.and_eq_true] at hstart
      exact hstart.2

/-- **One call** makes accesses in bounds exactly if it fits. -/
theorem accesses_inBounds_iff {s : Esb} (h : CellsFit s) (c : EsbCall) :
    (∀ a ∈ s.accesses c, a.InBounds) ↔ Fits s c := by
  cases c with
  | writePayload pPayload =>
    cases pPayload with
    | none =>
      have hrej : (s.call (.writePayload none)).1 ≠ .success := by
        intro hok
        obtain ⟨p, hp, -⟩ := accepted_of_nrfEsbWritePayload hok
        cases hp
      have hstart : startsTx s (.writePayload none) = false := by simp [startsTx, hrej]
      have hplain : Fits s (.writePayload none) := fits_of_plain (by simp) hstart rfl
      simp [Esb.accesses, hplain]
    | some p =>
      unfold Esb.accesses
      dsimp only
      cases hacc : writeAccepted s p with
      | false =>
        have hrej : (s.call (.writePayload (some p))).1 ≠ .success := by
          intro hok
          obtain ⟨q, hq, hacc'⟩ := accepted_of_nrfEsbWritePayload hok
          cases hq
          simp [hacc] at hacc'
        have hfits : Fits s (.writePayload (some p)) := by
          refine ⟨fun q hq hacc' => ?_, fun hstart => ?_, fun hst => by cases hst⟩
          · cases hq
            simp [hacc] at hacc'
          · simp [startsTx, hrej] at hstart
        simp [hfits]
      -- accepted: the copy is in bounds if the length fits, and so is the start if there is one
      | true =>
        have hcells := cellsFit_enqueuePayload h hacc
        rw [fits_write_iff hacc, if_pos rfl, List.forall_mem_cons]
        refine and_congr Iff.rfl ?_
        have hauto : autoStarts (enqueuePayload p s) = autoStarts s := rfl
        rw [hauto]
        cases autoStarts s with
        | false => simp
        | true => simp [startTxAccesses_inBounds (hcells.tx _)]
  -- only the buffer of the next packet is read
  | startTx =>
    unfold Esb.accesses
    dsimp only
    by_cases hok : (nrfEsbStartTx s).1 = .success
    · rw [if_pos hok, startTxAccesses_inBounds (h.tx _)]
      constructor
      · exact fun hpipe => ⟨fun p hc => (by cases hc), fun _ => hpipe, fun hst => by cases hst⟩
      · exact fun hfits => hfits.sent (by simpa [startsTx, Esb.call] using hok)
    · rw [if_neg hok]
      have hstart : startsTx s .startTx = false := by simpa [startsTx, Esb.call] using hok
      have hplain : Fits s .startTx := fits_of_plain (by simp) hstart rfl
      simp [hplain]
  -- the handler starts the next packet or stores the received one
  | radioIrq ev =>
    unfold Esb.accesses
    dsimp only
    cases hi : (ev.latch s).radio.intensetDisabled with
    | false =>
      have hplain : Fits s (.radioIrq ev) :=
        fits_of_plain (by simp) (by simp [startsTx, hi]) (by simp [storesFixedLength, hi])
      simp [hplain]
    | true =>
      have hcells : CellsFit (ev.latch s) := ⟨by simpa using h.tx, by simpa using h.rx⟩
      rw [if_pos rfl, handlerAccesses_inBounds hcells]
      simp only [latch_txFifo, latch_configLocal, latch_onRadioDisabled]
      constructor
      · rintro ⟨hsent, hstored⟩
        refine ⟨fun p hc => (by cases hc), fun hstart => ?_, fun hst => ?_⟩
        · simp only [startsTx, hi, Bool.true_and, Bool.and_eq_true] at hstart
          exact hsent hstart.1 hstart.2
        · simp only [storesFixedLength, hi, Bool.true_and, Bool.and_eq_true, beq_iff_eq] at hst
          exact hstored hst.1.1.1 hst.1.1.2 hst.1.2 hst.2
      · intro hfits
        refine ⟨fun hcomp hcont => hfits.sent (by simp [startsTx, hi, hcomp, hcont]),
          fun hh hesb hprx hst => hfits.stored (by simp [storesFixedLength, hi, hh, hesb, hprx, hst])⟩
  -- the cells hold what was stored, and what was stored fits
  | readRxPayload pPayload =>
    have hplain : Fits s (.readRxPayload pPayload) := fits_of_plain (by simp) rfl rfl
    cases pPayload with
    | none => simp [Esb.accesses, hplain]
    | some p =>
      unfold Esb.accesses
      dsimp only
      split
      · simp only [List.mem_singleton, forall_eq, Access.InBounds, hplain, iff_true]
        exact h.rx _
      · simp [hplain]
  | _ =>
    refine iff_of_true (by simp [Esb.accesses]) (fits_of_plain (by simp) rfl rfl)

theorem cellsFit_initialised (cfg : NrfEsbConfig) : CellsFit (initialised cfg) where
  tx i := by
    have hslots : (initialised cfg).txFifo.slots = default := rfl
    rw [hslots, FixedArray.get_default]
    decide
  rx i := by
    have hslots : (initialised cfg).rxFifo.slots = default := rfl
    rw [hslots, FixedArray.get_default]
    decide

/-- From cells that fit, a run stays in bounds exactly as long as its calls fit. -/
theorem inBoundsAlong_of_cellsFit {s : Esb} (h : CellsFit s) (calls : List EsbCall) :
    InBoundsAlong s calls ↔ FitsAlong s calls := by
  induction calls generalizing s with
  | nil => exact Iff.rfl
  | cons c calls ih =>
    unfold InBoundsAlong FitsAlong
    rw [accesses_inBounds_iff h c]
    -- the cells still fit if this call does
    exact and_congr_right fun hfits => ih (cellsFit_exec h hfits)

/-- **Buffer bounds**: in every run from `nrf_esb_init` on, the accesses are in bounds exactly if
    the calls fit. -/
theorem inBoundsAlong_iff (cfg : NrfEsbConfig) (calls : List EsbCall) :
    InBoundsAlong (initialised cfg) calls ↔ FitsAlong (initialised cfg) calls :=
  inBoundsAlong_of_cellsFit (cellsFit_initialised cfg) calls

/-- The pipe of a payload is not checked. -/
theorem not_inBoundsAlong_pipe200 :
    ¬ InBoundsAlong (initialised nrfEsbDefaultConfig) [.writePayload (some (.ofBytes 200 0 [1]))] := by
  intro h
  have hpids : (Access.pids 200).InBounds := h.1 _ (by decide)
  exact absurd hpids (by decide)

/-! ## §5 What a caller can rely on -/

/-- The inputs that never lead out of bounds: payloads for the 8 pipes of the radio, and
    configurations whose fixed length is one that a cell can hold. -/
def WithinLimits : EsbCall → Prop
  | .writePayload (some p) => p.pipe.toNat ≤ 7
  | .init (some cfg) => cfg.protocol = .esb → cfg.payloadLength.toNat ≤ nrfEsbMaxPayloadLength
  | _ => True

/-- The cells hold payloads for the pipes of the radio, and the configuration is within limits. -/
structure Limited (s : Esb) : Prop where
  pipe : ∀ i, (s.txFifo.slots.get i).pipe.toNat ≤ 7
  config : s.configLocal.protocol = .esb → s.configLocal.payloadLength.toNat ≤ nrfEsbMaxPayloadLength

theorem pipe_enqueuePayload {s : Esb} {p : NrfEsbPayload} (h : Limited s) (hp : p.pipe.toNat ≤ 7)
    (i : ℕ) : ((enqueuePayload p s).txFifo.slots.get i).pipe.toNat ≤ 7 :=
  forall_get_set (P := fun q => q.pipe.toNat ≤ 7) h.pipe
    (show ({ p with pid := nextPid s p.pipe } : NrfEsbPayload).pipe.toNat ≤ 7 from hp) i

/-- **Within the limits every call fits.** -/
theorem fits_of_limited {s : Esb} {c : EsbCall} (h : Limited s) (hc : WithinLimits c) :
    Fits s c where
  written p hwrite _ := by
    subst hwrite
    exact lt_of_le_of_lt (show p.pipe.toNat ≤ 7 from hc) (by decide)
  sent _ := by
    unfold nextSent
    split
    · exact pipe_enqueuePayload h hc _
    · exact h.pipe _
    · exact h.pipe _
  stored hst := by
    unfold storesFixedLength at hst
    split at hst
    · simp only [Bool.and_eq_true, beq_iff_eq] at hst
      exact h.config hst.1.1.2
    · cases hst

/-- Only `nrf_esb_init` changes the part of the configuration that the bounds depend on. -/
theorem exec_protocol (s : Esb) (c : EsbCall) (hc : ∀ cfg, c ≠ .init (some cfg)) :
    (s.exec c).configLocal.protocol = s.configLocal.protocol ∧
      (s.exec c).configLocal.payloadLength = s.configLocal.payloadLength := by
  unfold Esb.exec
  cases c with
  | init pConfig =>
    cases pConfig with
    | none => exact ⟨rfl, rfl⟩
    | some cfg => exact absurd rfl (hc cfg)
  | radioIrq ev =>
    have hcfg : (s.exec (.radioIrq ev)).configLocal = s.configLocal := (radioIrqHandler_frame ev s).2
    unfold Esb.exec at hcfg
    rw [hcfg]
    exact ⟨rfl, rfl⟩
  | disable => exact ⟨rfl, rfl⟩
  | evtIrq =>
    simp only [Esb.call, esbEvtIrqHandler]
    repeat' split
    all_goals exact ⟨rfl, rfl⟩
  | readRxPayload pPayload =>
    simp only [Esb.call, nrfEsbReadRxPayload]
    repeat' split
    all_goals simp_all
  | _ =>
    simp only [Esb.call, nrfEsbWritePayload, nrfEsbSuspend, nrfEsbStartTx, nrfEsbStartRx,
      nrfEsbStopRx, nrfEsbFlushTx, nrfEsbPopTx, nrfEsbFlushRx, nrfEsbSetAddressLength,
      nrfEsbSetBaseAddress0, nrfEsbSetBaseAddress1, nrfEsbSetPrefixes, nrfEsbUpdatePrefix,
      nrfEsbEnablePipes, nrfEsbSetRfChannel, nrfEsbSetTxPower]
    repeat' split
    all_goals exact ⟨rfl, rfl⟩

theorem limited_exec {s : Esb} {c : EsbCall} (h : Limited s) (hc : WithinLimits c) :
    Limited (s.exec c) where
  pipe i := by
    rcases exec_txSlots s c with hsame | ⟨p, rfl, -, henq⟩
    · rw [hsame]
      exact h.pipe i
    · rw [henq]
      exact pipe_enqueuePayload h hc i
  config := by
    by_cases hinit : ∃ cfg, c = .init (some cfg)
    · obtain ⟨cfg, rfl⟩ := hinit
      have hcfg : (s.exec (.init (some cfg))).configLocal = cfg := nrfEsbInit_configLocal cfg s
      rw [hcfg]
      exact hc
    · obtain ⟨hproto, hlen⟩ := exec_protocol s c fun cfg hcfg => hinit ⟨cfg, hcfg⟩
      rw [hproto, hlen]
      exact h.config

theorem limited_initialised {cfg : NrfEsbConfig} (hcfg : WithinLimits (.init (some cfg))) :
    Limited (initialised cfg) where
  pipe i := by
    have hslots : (initialised cfg).txFifo.slots = default := rfl
    rw [hslots, FixedArray.get_default]
    decide
  config := by
    have hlocal : (initialised cfg).configLocal = cfg := nrfEsbInit_configLocal cfg _
    rw [hlocal]
    exact hcfg

/-- **Within the limits every access of every run is in bounds.** -/
theorem inBoundsAlong_of_withinLimits {cfg : NrfEsbConfig} {calls : List EsbCall}
    (hcfg : WithinLimits (.init (some cfg))) (hcalls : ∀ c ∈ calls, WithinLimits c) :
    InBoundsAlong (initialised cfg) calls := by
  have hrun : ∀ s, Limited s → FitsAlong s calls := by
    induction calls with
    | nil => exact fun s _ => trivial
    | cons c calls ih =>
      intro s h
      have hc : WithinLimits c := hcalls c List.mem_cons_self
      refine ⟨fits_of_limited h hc, ih (fun c' hc' => hcalls c' (List.mem_cons_of_mem _ hc')) _ ?_⟩
      exact limited_exec h hc
  exact (inBoundsAlong_of_cellsFit (cellsFit_initialised cfg) calls).mpr
    (hrun _ (limited_initialised hcfg))

end NordicEsb
