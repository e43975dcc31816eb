import NordicEsb.Esb.Transaction
import NordicEsb.Lib.Driven

/-!
# Manual Transmission

Under `NRF_ESB_TXMODE_MANUAL`, `nrf_esb_start_tx` is documented to send one payload. The
handler at the end of an acknowledgment window looks at the mode; `on_radio_disabled_tx_noack`
does not, and goes on with the next payload.

**Main result** (`sendsOneOnly_iff`): a start sends the payload at the head only, and the module
comes to rest after it, whatever is received, exactly if that payload goes out as a packet that
wants an acknowledgment or is the last one.
-/

namespace NordicEsb

open Driven

/-! ## §1 One start -/

/-- The radio fires while it is in use. -/
def radioStep (ev : RadioEvent) (s : Esb) : Esb :=
  if s.mainstate = .idle then s else radioIrqHandler ev s

/-- A packet is on air. -/
def OnAir (s : Esb) : Prop := s.mainstate = .ptxTx ∨ s.mainstate = .ptxTxAck

/-- Nothing is on air but the packet in `buf`, built from the payload in cell `cell`. -/
def OnlyPacket (cell : ℕ) (buf : PayloadBuffer) (s : Esb) : Prop :=
  OnAir s → s.currentPayload = some cell ∧ s.txPayloadBuffer = buf

/-- **A start sends one payload**: from `nrf_esb_start_tx` on, only the packet of the payload at
    the head is on air, and the module comes to rest. -/
def SendsOneOnly (s : Esb) : Prop :=
  (nrfEsbStartTx s).1 = .success ∧
    Always radioStep (OnlyPacket s.txFifo.exitPoint
      (txPacket s.configLocal s.txFifo.head s.txPayloadBuffer)) (nrfEsbStartTx s).2 ∧
    Reaches radioStep (fun t => t.mainstate = .idle) (nrfEsbStartTx s).2

/-! ## §2 Attempts -/

/-- An attempt of the transaction of the payload in `cell` with packet `buf`, in main state `m`
    with `n` retransmissions left. -/
structure Attempt (cell : ℕ) (buf : PayloadBuffer) (m : NrfEsbMainstate) (n : ℕ) (s : Esb) :
    Prop where
  mainstate : s.mainstate = m
  handler : TxHandlerMatches s
  inten : s.radio.intensetDisabled = true
  manual : s.configLocal.txMode = .manual
  current : s.currentPayload = some cell
  buffer : s.txPayloadBuffer = buf
  remaining : s.retransmitsRemaining.toNat = n

variable {cell : ℕ} {buf : PayloadBuffer}

/-- A module at rest stays so, and sends nothing. -/
theorem always_of_idle {s : Esb} (h : s.mainstate = .idle) :
    Always radioStep (OnlyPacket cell buf) s := by
  apply Always.of_fixed
  · intro ev
    exact if_pos h
  · rintro (hair | hair)
    · rw [h] at hair
      cases hair
    · rw [h] at hair
      cases hair

/-- The handler runs in an attempt. -/
theorem Attempt.radioStep_eq {m : NrfEsbMainstate} {n : ℕ} {s : Esb}
    (h : Attempt cell buf m n s) (hbusy : m ≠ .idle) (ev : RadioEvent) :
    radioStep ev s = callOnRadioDisabled (ev.latch s) := by
  unfold radioStep
  rw [if_neg (by rw [h.mainstate]; exact hbusy), radioIrqHandler_eq, latch_intensetDisabled,
    h.inten, if_pos rfl]

/-- **The packet is out**: the acknowledgment window opens. -/
theorem Attempt.sent {n : ℕ} {s : Esb} (h : Attempt cell buf .ptxTxAck n s) (ev : RadioEvent) :
    Attempt cell buf .ptxRxAck n (radioStep ev s) := by
  have hh : s.onRadioDisabled = some .tx := by simpa [TxHandlerMatches, h.mainstate] using h.handler
  rw [h.radioStep_eq (by decide)]
  unfold callOnRadioDisabled
  rw [latch_onRadioDisabled, hh]
  obtain ⟨r, b, heq⟩ := latch_eq ev s
  have hinten := latch_intensetDisabled ev s
  rw [heq] at hinten ⊢
  exact ⟨rfl, rfl, hinten.trans h.inten, h.manual, h.current, h.buffer, h.remaining⟩

/-- **The window closes**: the module rests, or tries again with one retransmission less. -/
theorem Attempt.closed {n : ℕ} {s : Esb} (h : Attempt cell buf .ptxRxAck n s) (ev : RadioEvent) :
    (radioStep ev s).mainstate = .idle ∨
      ∃ k, n = k + 1 ∧ Attempt cell buf .ptxTxAck k (radioStep ev s) := by
  have hh : s.onRadioDisabled = some .txWaitForAck := by
    simpa [TxHandlerMatches, h.mainstate] using h.handler
  rw [h.radioStep_eq (by decide)]
  unfold callOnRadioDisabled
  rw [latch_onRadioDisabled, hh]
  obtain ⟨r, b, heq⟩ := latch_eq ev s
  have hinten := latch_intensetDisabled ev s
  rw [heq] at hinten ⊢
  unfold onRadioDisabledTxWaitForAck
  dsimp only
  split
  · -- acknowledged: the handler looks at the mode
    left
    obtain ⟨s₁, hack, -, hcfg⟩ := onAckReceived_eq _
    rw [hack, if_pos (.inr (by rw [hcfg]; exact h.manual))]
    rfl
  · unfold onAckMissed
    dsimp only
    split
    · exact .inl rfl
    case isFalse hleft =>
      right
      have hpos : 0 < n := by
        rw [← h.remaining]
        exact Nat.pos_of_ne_zero fun hzero => hleft (UInt32.toNat_inj.mp hzero)
      refine ⟨n - 1, by omega, ⟨rfl, rfl, hinten.trans h.inten, h.manual, h.current, h.buffer, ?_⟩⟩
      change (s.retransmitsRemaining - 1).toNat = n - 1
      have hone : (1 : UInt32).toNat = 1 := rfl
      have hle : (1 : UInt32) ≤ s.retransmitsRemaining := by
        rw [UInt32.le_iff_toNat_le, hone, h.remaining]
        omega
      rw [UInt32.toNat_sub_of_le _ _ hle, h.remaining, hone]

/-- **All attempts of one payload**: nothing else is on air, and they end. The induction is on
    the retransmissions that are left. -/
theorem Attempt.ends {n : ℕ} {s : Esb} (h : Attempt cell buf .ptxTxAck n s) :
    Always radioStep (OnlyPacket cell buf) s ∧
      Reaches radioStep (fun t => t.mainstate = .idle) s := by
  induction n using Nat.strong_induction_on generalizing s with
  | _ n ih =>
    have hwindow : ∀ e, Always radioStep (OnlyPacket cell buf) (radioStep e s) ∧
        Reaches radioStep (fun t => t.mainstate = .idle) (radioStep e s) := by
      intro e
      have hsent := h.sent e
      have hnext : ∀ e', Always radioStep (OnlyPacket cell buf) (radioStep e' (radioStep e s)) ∧
          Reaches radioStep (fun t => t.mainstate = .idle) (radioStep e' (radioStep e s)) := by
        intro e'
        rcases hsent.closed e' with hidle | ⟨k, hk, hagain⟩
        · exact ⟨always_of_idle hidle, .of_now hidle⟩
        · exact ih k (by omega) hagain
      refine ⟨.of_step ?_ fun e' => (hnext e').1, .of_step fun e' => (hnext e').2⟩
      -- nothing is on air while the window is open
      rintro (hair | hair)
      · rw [hsent.mainstate] at hair
        cases hair
      · rw [hsent.mainstate] at hair
        cases hair
    exact ⟨.of_step (fun _ => ⟨h.current, h.buffer⟩) fun e => (hwindow e).1,
      .of_step fun e => (hwindow e).2⟩

/-! ## §3 The three ways a start ends -/

/-- A start is accepted when something is queued. -/
theorem nrfEsbStartTx_eq {s : Esb} {p : NrfEsbPayload} {q : List NrfEsbPayload}
    (hidle : s.mainstate = .idle) (hfifo : s.txFifo.Represents (p :: q)) :
    nrfEsbStartTx s = (.success, startTxTransaction s) := by
  have hpos : 0 < s.txFifo.count := hfifo.pos_iff.mpr (by simp)
  unfold nrfEsbStartTx
  rw [if_neg (by simp [hidle]), if_neg (by omega)]

/-- A packet that wants an acknowledgment. -/
theorem attempt_startTx {s : Esb} (hmanual : s.configLocal.txMode = .manual)
    (hack : wantsAck s.configLocal s.txFifo.head = true) :
    Attempt s.txFifo.exitPoint (txPacket s.configLocal s.txFifo.head s.txPayloadBuffer) .ptxTxAck
      s.configLocal.retransmitCount.toUInt32.toNat (startTxTransaction s) where
  mainstate := if_pos hack
  handler := startTxTransaction_txHandlerMatches s
  inten := rfl
  manual := hmanual
  current := rfl
  buffer := startTxTransaction_txPayloadBuffer s
  remaining := congrArg UInt32.toNat (if_pos hack)

/-- A packet without acknowledgment is on air. -/
structure NoackOnAir (s t : Esb) : Prop where
  mainstate : t.mainstate = .ptxTx
  handler : t.onRadioDisabled = some .txNoack
  inten : t.radio.intensetDisabled = true
  fifo : t.txFifo = s.txFifo
  current : t.currentPayload = some s.txFifo.exitPoint
  buffer : t.txPayloadBuffer = txPacket s.configLocal s.txFifo.head s.txPayloadBuffer

theorem noackOnAir_startTx {s : Esb} (hack : wantsAck s.configLocal s.txFifo.head = false) :
    NoackOnAir s (startTxTransaction s) where
  mainstate := if_neg (by simp [hack])
  handler := congrArg some (if_neg (by simp [hack]))
  inten := rfl
  fifo := rfl
  current := rfl
  buffer := startTxTransaction_txPayloadBuffer s

/-- Its end: the module rests, or starts the payload that is next, whatever the mode is. -/
theorem NoackOnAir.radioStep {s t : Esb} (h : NoackOnAir s t) (hpos : 0 < s.txFifo.count)
    (ev : RadioEvent) :
    if s.txFifo.count = 1 then (NordicEsb.radioStep ev t).mainstate = .idle
    else OnAir (NordicEsb.radioStep ev t) ∧
      (NordicEsb.radioStep ev t).currentPayload =
        some (RingQueue.advance nrfEsbTxFifoSize s.txFifo.exitPoint) := by
  have hirq : NordicEsb.radioStep ev t = onRadioDisabledTxNoack (ev.latch t) := by
    unfold NordicEsb.radioStep
    rw [if_neg (by simp [h.mainstate]), radioIrqHandler_eq, latch_intensetDisabled, h.inten,
      if_pos rfl]
    unfold callOnRadioDisabled
    rw [latch_onRadioDisabled, h.handler]
  have hdrop : (txFifoRemoveLast (raiseTxSuccess (ev.latch t))).txFifo = s.txFifo.dropHead := by
    have hfifo : (raiseTxSuccess (ev.latch t)).txFifo = s.txFifo :=
      (latch_txFifo ev t).trans h.fifo
    unfold txFifoRemoveLast
    rw [hfifo]
    exact if_pos hpos
  have hcount : s.txFifo.dropHead.count = s.txFifo.count - 1 := rfl
  rw [hirq]
  unfold onRadioDisabledTxNoack
  dsimp only
  rw [hdrop]
  split
  case isTrue hone =>
    rw [if_pos (by omega)]
    rfl
  case isFalse hmore =>
    rw [if_neg (by omega)]
    constructor
    · unfold OnAir
      have hstate : ∀ u : Esb, (startNextTx u).mainstate =
          if wantsAck u.configLocal u.txFifo.head then .ptxTxAck else .ptxTx := fun _ => rfl
      rw [hstate]
      split
      · exact .inr rfl
      · exact .inl rfl
    · have hcell : ∀ u : Esb, (startNextTx u).currentPayload = some u.txFifo.exitPoint :=
        fun _ => rfl
      rw [hcell, hdrop]
      rfl

/-- **Manual mode sends one payload per start** exactly if the payload at the head goes out as a
    packet that wants an acknowledgment, or nothing else is queued. -/
theorem sendsOneOnly_iff {s : Esb} {p : NrfEsbPayload} {q : List NrfEsbPayload}
    (hidle : s.mainstate = .idle) (hmanual : s.configLocal.txMode = .manual)
    (hfifo : s.txFifo.Represents (p :: q)) :
    SendsOneOnly s ↔ wantsAck s.configLocal p = true ∨ q = [] := by
  have hhead := hfifo.head_cons
  have hlen := hfifo.count_eq
  unfold SendsOneOnly
  rw [nrfEsbStartTx_eq hidle hfifo]
  cases hack : wantsAck s.configLocal p with
  | true =>
    obtain ⟨halways, hreaches⟩ := (attempt_startTx hmanual (hhead ▸ hack)).ends
    exact iff_of_true ⟨rfl, halways, hreaches⟩ (.inl rfl)
  | false =>
    have hair := noackOnAir_startTx (s := s) (hhead ▸ hack)
    have hstep := hair.radioStep (by rw [hlen]; simp)
    have hnow : OnlyPacket s.txFifo.exitPoint
        (txPacket s.configLocal s.txFifo.head s.txPayloadBuffer) (startTxTransaction s) :=
      fun _ => ⟨hair.current, hair.buffer⟩
    cases q with
    | nil =>
      -- nothing is left to send
      have hrest : ∀ ev, (radioStep ev (startTxTransaction s)).mainstate = .idle := by
        intro ev
        have hend := hstep ev
        rwa [if_pos (by rw [hlen]; rfl)] at hend
      exact iff_of_true ⟨rfl, .of_step hnow fun ev => always_of_idle (hrest ev),
        .of_step fun ev => .of_now (hrest ev)⟩ (.inr rfl)
    | cons p' q =>
      refine iff_of_false ?_ (by simp)
      rintro ⟨-, halways, -⟩
      have hend := hstep .silent
      rw [if_neg (by rw [hlen]; simp)] at hend
      -- the cell of the payload on air has changed
      have honly := (halways (fun _ => .silent) 1 hend.1).1
      have hnext : some (RingQueue.advance nrfEsbTxFifoSize s.txFifo.exitPoint) =
          some s.txFifo.exitPoint := hend.2.symm.trans honly
      have hlt := hfifo.exit_lt
      have hsize : nrfEsbTxFifoSize = 8 := rfl
      rw [Option.some_inj, RingQueue.advance] at hnext
      split at hnext <;> omega

/-! ## §4 Two payloads without acknowledgment -/

/-- Two payloads are queued in manual mode; `noack` is the flag of the first. -/
def queuedTwo (noack : UInt8) : Esb :=
  [.ofBytes 0 noack [1], .ofBytes 0 0 [2]].foldl (fun s p => (nrfEsbWritePayload (some p) s).2)
    (nrfEsbInit (some { nrfEsbDefaultConfig with
      txMode := .manual, protocol := .esbDpl, selectiveAutoAck := true }) .reset).2

theorem queuedTwo_represents : (queuedTwo 0).txFifo.Represents
    [{ NrfEsbPayload.ofBytes 0 0 [1] with pid := 1 },
      { NrfEsbPayload.ofBytes 0 0 [2] with pid := 2 }] := by
  have hempty : Esb.reset.txFifo.clear.Represents [] := RingQueue.represents_clear _ (by decide)
  have hone := hempty.push (by decide) { NrfEsbPayload.ofBytes 0 0 [1] with pid := 1 }
  exact hone.push (Nat.succ_lt_succ (Nat.zero_lt_succ 6)) _

/-- The first payload wants an acknowledgment. -/
theorem sendsOneOnly_queuedTwo : SendsOneOnly (queuedTwo 0) :=
  (sendsOneOnly_iff rfl rfl queuedTwo_represents).mpr (.inl rfl)

/-- **A start in manual mode may send two payloads.** -/
theorem not_sendsOneOnly_queuedTwo : ¬ SendsOneOnly (queuedTwo 1) := by
  rintro ⟨-, halways, -⟩
  have honly := (halways (fun _ => .silent) 1 (.inr (by decide +kernel))).1
  exact absurd honly (by decide +kernel)

end NordicEsb
