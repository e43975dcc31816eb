import NordicEsb.Esb.Transaction

/-!
# Packet Identifiers

`nrf_esb_write_payload` gives every accepted payload the next of four PIDs of its pipe, and a
transmitter sends its payloads in the order in which they were accepted. The ledger of a
transmitter says so in terms of the numbers of `TxTrace`:

- `PidsCount`: the PID counts, modulo four, the payloads of the same pipe.
- `Ledger`: the queue and the payload on the air are accepted payloads, in order.

Both hold whatever is flushed and whenever.
-/

namespace NordicEsb

/-! ## §1 Counting -/

/-- How many payloads of `l` are for `pipe`. -/
def countOn (pipe : UInt8) (l : List NrfEsbPayload) : ℕ := l.countP fun p => p.pipe == pipe

@[simp] theorem countOn_nil (pipe : UInt8) : countOn pipe [] = 0 := rfl

@[simp] theorem countOn_append (pipe : UInt8) (l₁ l₂ : List NrfEsbPayload) :
    countOn pipe (l₁ ++ l₂) = countOn pipe l₁ + countOn pipe l₂ :=
  List.countP_append

theorem countOn_cons (pipe : UInt8) (p : NrfEsbPayload) (l : List NrfEsbPayload) :
    countOn pipe (p :: l) = countOn pipe l + if p.pipe = pipe then 1 else 0 := by
  simp [countOn, List.countP_cons]

/-- **The PID of a payload counts the payloads of its pipe up to and including it**, modulo
    four. -/
def PidsCount (l : List NrfEsbPayload) : Prop :=
  ∀ l₁ p l₂, l = l₁ ++ p :: l₂ → p.pipe.toNat < nrfEsbPipeCount →
    p.pid.toNat = (countOn p.pipe l₁ + 1) % 4

theorem pidsCount_nil : PidsCount [] := by
  intro l₁ p l₂ h
  simp at h

theorem PidsCount.append {l : List NrfEsbPayload} {p : NrfEsbPayload} (h : PidsCount l)
    (hp : p.pipe.toNat < nrfEsbPipeCount → p.pid.toNat = (countOn p.pipe l + 1) % 4) :
    PidsCount (l ++ [p]) := by
  intro l₁ q l₂ heq hpipe
  rcases List.eq_nil_or_concat l₂ with rfl | ⟨l₂', z, rfl⟩
  · -- the appended payload itself
    obtain ⟨rfl, hq⟩ := List.append_inj' heq rfl
    obtain rfl : p = q := by simpa using hq
    exact hp hpipe
  · have heq' : l ++ [p] = (l₁ ++ q :: l₂') ++ [z] := by simpa using heq
    obtain ⟨rfl, -⟩ := List.append_inj' heq' rfl
    exact h l₁ q l₂' rfl hpipe

/-- Two payloads of one pipe have the same PID only if a multiple of four payloads were
    accepted from the one to the other. -/
theorem PidsCount.four_dvd {l₁ l₂ l₃ : List NrfEsbPayload} {p q : NrfEsbPayload}
    (h : PidsCount (l₁ ++ p :: l₂ ++ q :: l₃)) (hpipe : p.pipe = q.pipe)
    (hlt : p.pipe.toNat < nrfEsbPipeCount) (hpid : p.pid = q.pid) :
    4 ∣ countOn q.pipe (l₂ ++ [q]) := by
  have hp := h l₁ p (l₂ ++ q :: l₃) (by simp) hlt
  have hq := h (l₁ ++ p :: l₂) q l₃ rfl (hpipe ▸ hlt)
  rw [countOn_append, countOn_cons, if_pos hpipe] at hq
  rw [hpid, hq, hpipe] at hp
  have hlast : countOn q.pipe [q] = 1 := by simp [countOn]
  rw [countOn_append, hlast]
  omega

/-! ## §2 The ledger of a transmitter -/

theorem nextPid_toNat (s : Esb) (pipe : UInt8) :
    (nextPid s pipe).toNat = ((s.pids.get pipe.toNat).toNat + 1) % 4 := by
  unfold nextPid nrfEsbPidMax
  generalize s.pids.get pipe.toNat = x
  have hfour : ((3 : UInt8) + 1).toNat = 4 := rfl
  have hone : (1 : UInt8).toNat = 1 := rfl
  rw [UInt8.toNat_mod, UInt8.toNat_add, hfour, hone]
  omega

theorem startTxTransaction_pids (s : Esb) : (startTxTransaction s).pids = s.pids := rfl

/-- The radio interrupt leaves the PIDs and the configuration alone. -/
theorem callOnRadioDisabled_frame (s : Esb) :
    (callOnRadioDisabled s).pids = s.pids ∧
      (callOnRadioDisabled s).configLocal = s.configLocal := by
  unfold callOnRadioDisabled
  split
  · exact ⟨rfl, rfl⟩
  · unfold onRadioDisabledTxNoack
    dsimp only
    split <;> exact ⟨rfl, rfl⟩
  · exact ⟨rfl, rfl⟩
  · unfold onRadioDisabledTxWaitForAck
    dsimp only
    split
    · unfold onAckReceived
      dsimp only
      split <;> split <;> exact ⟨rfl, rfl⟩
    · unfold onAckMissed
      dsimp only
      split <;> exact ⟨rfl, rfl⟩
  · exact ⟨(onRadioDisabledRx_frame s).pids, (onRadioDisabledRx_frame s).configLocal⟩
  · exact ⟨rfl, rfl⟩

theorem radioIrqHandler_frame (ev : RadioEvent) (s : Esb) :
    (radioIrqHandler ev s).pids = s.pids ∧
      (radioIrqHandler ev s).configLocal = s.configLocal := by
  have h := callOnRadioDisabled_frame (ev.latch s)
  rw [latch_pids, latch_configLocal] at h
  rw [radioIrqHandler_eq]
  split
  · exact h
  · exact ⟨latch_pids ev s, latch_configLocal ev s⟩

namespace PtxTrace

/-- Only an accepted write changes a PID. -/
theorem exec_pids {t : PtxTrace} {c : EsbCall} (hen : t.Enabled c)
    (h : txEffect t.esb c ≠ .append) : (t.esb.exec c).pids = t.esb.pids := by
  by_cases hok : (t.esb.call c).1 = .success
  case neg => rw [exec_of_rejected _ c hok]
  rw [txEffect, if_pos hok] at h
  unfold Esb.exec
  cases c with
  | init | disable | startRx | popTx => exact absurd hen id
  | writePayload p => exact absurd rfl h
  | radioIrq ev => exact (radioIrqHandler_frame ev t.esb).1
  | readRxPayload | evtIrq =>
    simp only [Esb.call, nrfEsbReadRxPayload, esbEvtIrqHandler]
    repeat' split
    all_goals simp_all
  | _ =>
    simp only [Esb.call, nrfEsbSuspend, nrfEsbStartTx, nrfEsbStopRx, nrfEsbFlushTx,
      nrfEsbFlushRx, nrfEsbSetAddressLength, nrfEsbSetBaseAddress0, nrfEsbSetBaseAddress1,
      nrfEsbSetPrefixes, nrfEsbUpdatePrefix, nrfEsbEnablePipes, nrfEsbSetRfChannel,
      nrfEsbSetTxPower]
    repeat' split
    all_goals rfl

/-- **The ledger**: queue and payload on the air by number, and the PIDs. -/
structure Ledger (t : PtxTrace) : Prop where
  /-- The queue holds accepted payloads. -/
  queue : ∀ x ∈ t.queue, t.accepted[x.1]? = some x.2
  /-- So does the transaction. -/
  onAir : ∀ x, t.onAir = some x → t.accepted[x.1]? = some x.2
  /-- The queue is in the order of acceptance. -/
  sorted : t.queue.Pairwise fun x y => x.1 < y.1
  /-- Nothing in the queue is older than the payload on the air. -/
  onAir_le : ∀ x, t.onAir = some x → ∀ y ∈ t.queue, x.1 ≤ y.1
  pids : ∀ pipe : UInt8, pipe.toNat < nrfEsbPipeCount →
    (t.esb.pids.get pipe.toNat).toNat = countOn pipe t.accepted % 4
  pidsCount : PidsCount t.accepted

theorem ledger_start {t : PtxTrace} (h : machine.start t) : Ledger t := by
  obtain ⟨cfg, s, -, rfl⟩ := h
  refine ⟨by simp [TxTrace.start], by simp, by simp [TxTrace.start], by simp, ?_, pidsCount_nil⟩
  intro pipe _
  have hpids : (nrfEsbInit (some cfg) s).2.pids = default := by
    unfold nrfEsbInit
    dsimp only
    split <;> rfl
  simp only [TxTrace.start, hpids, FixedArray.get_default, countOn_nil]
  rfl

/-- The head of a queue in order is its oldest payload. -/
theorem head_le_of_sorted {q : List (ℕ × NrfEsbPayload)} {x : ℕ × NrfEsbPayload}
    (hsorted : q.Pairwise fun x y => x.1 < y.1) (hx : q.head? = some x) :
    ∀ y ∈ q, x.1 ≤ y.1 := by
  cases q with
  | nil => simp
  | cons z q =>
    obtain rfl : z = x := by simpa using hx
    rw [List.pairwise_cons] at hsorted
    intro y hy
    rcases List.mem_cons.mp hy with rfl | hy
    · exact le_rfl
    · exact (hsorted.1 y hy).le

/-- The new queue decides: a started transaction takes its head. -/
theorem Ledger.of_queue {t t' : PtxTrace} {b : Bool}
    (hair : t'.onAir = if b then t'.queue.head? else t.onAir)
    (hqueue : ∀ x ∈ t'.queue, t'.accepted[x.1]? = some x.2)
    (hsorted : t'.queue.Pairwise fun x y => x.1 < y.1)
    (hold : ∀ x, t.onAir = some x →
      t'.accepted[x.1]? = some x.2 ∧ ∀ y ∈ t'.queue, x.1 ≤ y.1)
    (hpids : ∀ pipe : UInt8, pipe.toNat < nrfEsbPipeCount →
      (t'.esb.pids.get pipe.toNat).toNat = countOn pipe t'.accepted % 4)
    (hcount : PidsCount t'.accepted) : Ledger t' := by
  have hboth : ∀ x, t'.onAir = some x →
      t'.accepted[x.1]? = some x.2 ∧ ∀ y ∈ t'.queue, x.1 ≤ y.1 := by
    intro x hx
    rw [hair] at hx
    cases b with
    | true => exact ⟨hqueue x (List.mem_of_mem_head? hx), head_le_of_sorted hsorted hx⟩
    | false => exact hold x hx
  exact ⟨hqueue, fun x hx => (hboth x hx).1, hsorted, fun x hx => (hboth x hx).2, hpids, hcount⟩

/-- After any step, nothing in the queue is older than what was on the air before. -/
theorem ledger_step_old {t : PtxTrace} {c : EsbCall} {x : ℕ × NrfEsbPayload} (h : Ledger t)
    (hx : t.onAir = some x) : ∀ y ∈ (t.step c).queue, x.1 ≤ y.1 := by
  intro y hy
  simp only [step, TxTrace.step] at hy
  cases heff : txEffect t.esb c with
  | keep => exact h.onAir_le x hx y (by simpa [heff, QueueOp.onList] using hy)
  | removeHead =>
    exact h.onAir_le x hx y (List.mem_of_mem_tail (by simpa [heff, QueueOp.onList] using hy))
  | empty => simp [heff, QueueOp.onList] at hy
  | append =>
    rw [heff] at hy
    rcases List.mem_append.mp hy with hy | hy
    · exact h.onAir_le x hx y hy
    · rw [List.mem_singleton.mp hy]
      exact (List.getElem?_eq_some_iff.mp (h.onAir x hx)).1.le

/-- An accepted write appends the next number with the next PID. -/
theorem ledger_step_append {t : PtxTrace} {p : NrfEsbPayload} (h : Ledger t)
    (hacc : writeAccepted t.esb p = true) : Ledger (t.step (.writePayload (some p))) := by
  have hok : (t.esb.call (.writePayload (some p))).1 = .success := by
    rw [Esb.call, nrfEsbWritePayload_of_accepted hacc]
  have heff : txEffect t.esb (.writePayload (some p)) = .append := if_pos hok
  have hq : (t.step (.writePayload (some p))).queue =
      t.queue ++ [(t.accepted.length, writtenPayload t.esb (.writePayload (some p)))] := by
    simp only [step, TxTrace.step, heff, QueueOp.onList]
  have ha : (t.step (.writePayload (some p))).accepted =
      t.accepted ++ [writtenPayload t.esb (.writePayload (some p))] := by
    simp only [step, TxTrace.step, heff, if_true]
  have hwpipe : (writtenPayload t.esb (.writePayload (some p))).pipe = p.pipe := rfl
  have hkeep : ∀ x : ℕ × NrfEsbPayload, t.accepted[x.1]? = some x.2 →
      (t.step (.writePayload (some p))).accepted[x.1]? = some x.2 := by
    intro x hx
    have hlt := (List.getElem?_eq_some_iff.mp hx).1
    rw [ha, List.getElem?_append_left hlt, hx]
  have hlen : ∀ x ∈ t.queue, x.1 < t.accepted.length := fun x hx =>
    (List.getElem?_eq_some_iff.mp (h.queue x hx)).1
  refine Ledger.of_queue (b := startsTx t.esb (.writePayload (some p))) rfl ?_ ?_ ?_ ?_ ?_
  · intro x hx
    rw [hq] at hx
    rcases List.mem_append.mp hx with hx | hx
    · exact hkeep x (h.queue x hx)
    · rw [List.mem_singleton.mp hx, ha]
      simp
  · rw [hq, List.pairwise_append]
    refine ⟨h.sorted, List.pairwise_singleton _ _, fun x hx y hy => ?_⟩
    rw [List.mem_singleton.mp hy]
    exact hlen x hx
  · intro x hx
    exact ⟨hkeep x (h.onAir x hx), ledger_step_old h hx⟩
  · intro pipe hpipe
    have hpids : (t.step (.writePayload (some p))).esb.pids =
        t.esb.pids.set p.pipe.toNat (nextPid t.esb p.pipe) := by
      change (nrfEsbWritePayload (some p) t.esb).2.pids = _
      rw [nrfEsbWritePayload_of_accepted hacc]
      dsimp only
      split <;> rfl
    rw [hpids, ha, countOn_append]
    by_cases hsame : pipe = p.pipe
    · subst hsame
      rw [FixedArray.get_set_self _ _ hpipe, nextPid_toNat, h.pids _ hpipe]
      simp only [countOn, List.countP_singleton, hwpipe, beq_self_eq_true, if_true]
      omega
    · have hne : pipe.toNat ≠ p.pipe.toNat := fun he => hsame (UInt8.toNat_inj.mp he)
      rw [FixedArray.get_set_ne _ _ hne, h.pids _ hpipe]
      simp [countOn, hwpipe, Ne.symm hsame]
  · rw [ha]
    refine h.pidsCount.append fun hpipe => ?_
    have hpid : (writtenPayload t.esb (.writePayload (some p))).pid = nextPid t.esb p.pipe := rfl
    rw [hwpipe] at hpipe
    rw [hpid, hwpipe, nextPid_toNat, h.pids _ hpipe]
    omega

/-- **Every step keeps the ledger.** -/
theorem ledger_step {t : PtxTrace} {c : EsbCall} (h : Ledger t) (hen : t.Enabled c) :
    Ledger (t.step c) := by
  by_cases happ : txEffect t.esb c = .append
  · obtain ⟨p, rfl, hacc⟩ := txEffect_eq_append happ
    exact ledger_step_append h hacc
  · have ha : (t.step c).accepted = t.accepted := if_neg happ
    have hsub : (t.step c).queue.Sublist t.queue := by
      simp only [step, TxTrace.step]
      cases heff : txEffect t.esb c with
      | keep => exact List.Sublist.refl _
      | append => exact absurd heff happ
      | removeHead => exact List.tail_sublist _
      | empty => exact List.nil_sublist _
    have hpids : (t.step c).esb.pids = t.esb.pids := exec_pids hen happ
    refine Ledger.of_queue (b := startsTx t.esb c) rfl ?_ (h.sorted.sublist hsub) ?_ ?_ ?_
    · intro x hx
      rw [ha]
      exact h.queue x (hsub.subset hx)
    · intro x hx
      rw [ha]
      exact ⟨h.onAir x hx, ledger_step_old h hx⟩
    · rw [hpids, ha]
      exact h.pids
    · rw [ha]
      exact h.pidsCount

/-- **The payloads on the air are in order**: the next one is no older. -/
theorem onAir_mono {t : PtxTrace} {c : EsbCall} {x : ℕ × NrfEsbPayload} (hrun : Running t)
    (h : Ledger t) (hen : t.Enabled c) (hx : t.onAir = some x) :
    ∃ x', (t.step c).onAir = some x' ∧ x.1 ≤ x'.1 := by
  rcases step_cases hrun.handler hen with hrests | hstarts | hcont
  · exact ⟨x, hrests.onAir.trans hx, le_rfl⟩
  · have hfifo := (running_step hrun hen).fifo
    obtain ⟨x', hx'⟩ := Option.ne_none_iff_exists'.mp
      (mt List.head?_eq_none_iff.mp (queue_ne_nil_of_starts hfifo hstarts))
    exact ⟨x', hstarts.onAir.trans hx', ledger_step_old h hx x' (List.mem_of_mem_head? hx')⟩
  · exact ⟨x, hcont.onAir.trans hx, le_rfl⟩

end PtxTrace

end NordicEsb
