import NordicEsb.Uart.AppUart

/-!
# Sending Through the UART

A byte that `app_uart_put` accepts waits in the FIFO until the interrupt, or a later access of a
call, takes it and writes it to `TXD`. When the driver sends nothing, no interrupt will come, and
the call itself has to start it.

- `TxSide.Running` and `TxSide.Quiet` are the two states of the driver between calls
- `TxAt` says what is known where a call is, `TxInv` adds the FIFO and what has been sent
- one lemma for the interrupt, one for the accesses of each function

**Main result** (`sends_of_reachable`): every byte that was accepted is sent once and in order,
unless it is flushed, and while one waits the UART is busy.
-/

namespace NordicEsb.Uart

open Fifo

variable {n m : ℕ}

/-! ## §1 A FIFO between two accesses -/

section Fifo

variable {fifo : AppFifo n} {q : List (BitVec 8)}

/-- The cell behind the bytes can be written. -/
theorem store_holds (h : fifo.Holds q) (hroom : q.length < n) (byte : BitVec 8) :
    { fifo with pBuf := fifo.pBuf.set (fifo.writePos &&& fifo.mask).toNat byte }.Holds q := by
  have hput := (fifoPut_holds h hroom byte).ring
  refine ⟨h.pow, h.mask, ?_⟩
  constructor
  · exact h.ring.entry_lt
  · exact h.ring.exit_lt
  · exact h.ring.count_eq
  · exact h.ring.length_le
  · exact h.ring.entry_eq
  · intro i hi
    have hcell := hput.slot_eq i (by rw [List.length_append]; omega)
    rwa [List.getElem_append_left hi] at hcell

/-- **`write_pos` is moved on** over a cell that has been written. -/
theorem advance_holds (h : fifo.Holds q) (hroom : q.length < n) {byte : BitVec 8}
    (hcell : fifo.pBuf.get (fifo.writePos &&& fifo.mask).toNat = byte) :
    { fifo with writePos := fifo.writePos + 1 }.Holds (q ++ [byte]) := by
  have hput := fifoPut_holds h hroom byte
  unfold fifoPut at hput
  rwa [← hcell, FixedArray.set_get, hcell] at hput

/-- **A flush** up to a `write_pos` that was read before. -/
theorem flushTo_holds (h : fifo.Holds q) {writePos : BitVec 32}
    (hle : (writePos - fifo.readPos).toNat ≤ q.length) :
    (flushTo fifo writePos).Holds (q.drop (writePos - fifo.readPos).toNat) := by
  induction q generalizing fifo with
  | nil =>
    have hzero : writePos = fifo.readPos := by
      rw [List.length_nil] at hle
      bv_omega
    rw [List.drop_nil, hzero]
    exact h
  | cons byte q ih =>
    obtain ⟨-, hget⟩ := fifoGet_holds h
    by_cases hzero : (writePos - fifo.readPos).toNat = 0
    · have hsame : writePos = fifo.readPos := by bv_omega
      rw [hzero, List.drop_zero, hsame]
      exact h
    · have hnext : (writePos - (fifoGet fifo).2.readPos).toNat + 1 =
          (writePos - fifo.readPos).toNat := by
        show (writePos - (fifo.readPos + 1)).toNat + 1 = _
        bv_omega
      have hrest := ih hget (by rw [List.length_cons] at hle; omega)
      rw [← hnext, List.drop_succ_cons]
      exact hrest

theorem length_sub (h : fifo.Holds q) : (fifo.writePos - fifo.readPos).toNat = q.length := h.length

end Fifo

/-! ## §2 The driver -/

section Driver

variable {t : TxSide n} {pc : Pc}

/-- **A byte is being sent**: the interrupt will come, or it is pending. -/
structure TxSide.Running (t : TxSide n) : Prop where
  length : t.bufferLength = 1
  counter : t.counter = 1
  event : t.txdrdy = !t.shifting

/-- **Nothing is being sent.** -/
structure TxSide.Quiet (t : TxSide n) : Prop where
  length : t.bufferLength = 0
  shifting : t.shifting = false
  txdrdy : t.txdrdy = false

/-- A transfer that `nrf_drv_uart_tx` is about to begin. -/
structure TxSide.Beginning (t : TxSide n) : Prop where
  length : t.bufferLength = 1
  shifting : t.shifting = false
  txdrdy : t.txdrdy = false

/-- No byte waits unless one is being sent. -/
def TxSide.Settled (t : TxSide n) : Prop := t.Running ∨ t.Quiet ∧ t.ledger.held = []

/-- What is known where a call is. -/
def TxAt (t : TxSide n) : Pc → Prop
  | .putTest _ readPos => t.Settled ∧ t.ledger.held.length ≤ (t.fifo.writePos - readPos).toNat
  | .putStore _ => t.Settled ∧ t.ledger.held.length < n
  | .putAdvance byte => t.Settled ∧ t.ledger.held.length < n ∧
      t.fifo.pBuf.get (t.fifo.writePos &&& t.fifo.mask).toNat = byte
  | .putInProgress _ => t.Running ∨ t.Quiet
  | .putGet _ | .txInProgress _ | .txLength _ => t.Quiet
  | .putGetAdvance _ => t.Quiet ∧ t.ledger.held.head? = some (t.buffer.get 0)
  | .txCounter _ => t.Beginning
  | .txStart _ | .txLoad _ => t.Beginning ∧ t.counter = 0
  | .txSet _ _ => t.Beginning ∧ t.counter = 1
  | .flushTxStore writePos => t.Settled ∧ writePos = t.fifo.writePos
  | _ => t.Settled

/-- The byte that a call has taken from the FIFO and not yet written to `TXD`. -/
def TxSide.pending (t : TxSide n) : Pc → List (BitVec 8)
  | .txInProgress _ | .txLength _ | .txCounter _ | .txStart _ | .txLoad _ => [t.buffer.get 0]
  | .txSet _ txd => [txd]
  | _ => []

/-- The byte that a call has put into the FIFO, before it returns. -/
def Pc.accepted : Pc → List (BitVec 8)
  | .putInProgress byte | .putGet byte | .putGetAdvance byte | .txInProgress byte | .txLength byte
  | .txCounter byte | .txStart byte | .txLoad byte | .txSet byte _ => [byte]
  | _ => []

/-- **The sending direction** where a call is. -/
structure TxInv (t : TxSide n) (pc : Pc) : Prop where
  holds : t.fifo.Holds t.ledger.held
  driver : TxAt t pc
  sent : t.ledger.taken = t.txd ++ t.pending pc

/-- A transfer of the buffer begins. -/
theorem TxSide.txByte_running (hlength : t.bufferLength = 1) (hcounter : t.counter = 0) :
    t.txByte.Running ∧ t.txByte.txd = t.txd ++ [t.buffer.get 0] := by
  refine ⟨⟨hlength, ?_, rfl⟩, ?_⟩
  · show t.counter + 1 = 1
    rw [hcounter]
    rfl
  · show t.txd ++ [t.buffer.get t.counter.toNat] = _
    rw [hcounter]
    rfl

/-- **The interrupt has moved the bytes on.** -/
structure TxSide.Moved (t t' : TxSide n) : Prop where
  holds : t'.fifo.Holds t'.ledger.held
  settled : t'.Settled
  sent : t'.ledger.taken = t'.txd
  arrived : t'.ledger.arrived = t.ledger.arrived
  held : t'.ledger.held = t.ledger.held.tail
  pBuf : t'.fifo.pBuf = t.fifo.pBuf
  writePos : t'.fifo.writePos = t.fifo.writePos
  mask : t'.fifo.mask = t.fifo.mask

/-- **`NRF_DRV_UART_EVT_TX_DONE`**: the next byte is sent, or nothing is. -/
theorem TxSide.eventTxDone_moved (hholds : t.fifo.Holds t.ledger.held) (hquiet : t.Quiet)
    (hsent : t.ledger.taken = t.txd) : t.Moved t.eventTxDone.2 := by
  unfold TxSide.eventTxDone
  cases hheld : t.ledger.held with
  | nil =>
    rw [hheld] at hholds
    rw [appFifoGet_nil hholds]
    refine ⟨?_, .inr ⟨hquiet, hheld⟩, hsent, rfl, ?_, rfl, rfl, rfl⟩
    · rw [hheld]
      exact hholds
    · rw [hheld]
      rfl
  | cons byte q =>
    rw [hheld] at hholds
    rw [appFifoGet_cons hholds]
    -- `nrf_drv_uart_tx` is not busy.
    obtain ⟨next, hnext⟩ : ∃ next : TxSide n, next =
      { t with
        fifo := (fifoGet t.fifo).2, buffer := t.buffer.set 0 byte, ledger := t.ledger.take,
        bufferLength := 1, counter := 0, txdrdy := false } := ⟨_, rfl⟩
    have htx : (nrfDrvUartTx { t with
        fifo := (fifoGet t.fifo).2, buffer := t.buffer.set 0 byte, ledger := t.ledger.take } 1).2 =
        next.txByte := by
      unfold nrfDrvUartTx TxSide.inProgress
      dsimp only
      rw [hquiet.length, if_neg (by decide), hnext]
    dsimp only
    rw [htx]
    obtain ⟨hrunning, htxd⟩ := next.txByte_running (by rw [hnext]) (by rw [hnext])
    have hbuffer : next.buffer.get 0 = byte := by
      rw [hnext]
      exact FixedArray.get_set_self _ _ (by decide)
    have hledger : next.txByte.ledger = t.ledger.take := by
      rw [hnext]
      rfl
    have hfifo : next.txByte.fifo = (fifoGet t.fifo).2 := by
      rw [hnext]
      rfl
    have hold : next.txd = t.txd := by rw [hnext]
    have htail : next.txByte.ledger.held = t.ledger.held.tail := by
      rw [hledger]
      rfl
    refine ⟨?_, .inl hrunning, ?_, ?_, htail, ?_, ?_, ?_⟩
    · rw [hfifo, htail, hheld]
      exact (fifoGet_holds hholds).2
    · rw [hledger, htxd, hbuffer, QueueLedger.taken_take, hheld, hsent, hold]
      rfl
    · rw [hledger, QueueLedger.arrived_take]
    all_goals
      rw [hfifo]
      rfl

/-- **The interrupt** moves on to the next byte, and changes nothing when none is being sent. -/
theorem TxSide.irqHandler_cases (hholds : t.fifo.Holds t.ledger.held)
    (hdriver : t.Running ∧ t.ledger.taken = t.txd ∨ t.txdrdy = false) :
    t.irqHandler.2 = t ∨ t.Running ∧ t.Moved t.irqHandler.2 := by
  unfold TxSide.irqHandler
  by_cases hevent : t.txdrdy = false
  · rw [if_pos hevent]
    exact .inl rfl
  · rw [if_neg hevent]
    obtain ⟨hrunning, hsent⟩ := hdriver.resolve_right hevent
    obtain ⟨hlength, hcounter, hshifting⟩ := hrunning
    have hgone : t.shifting = false := by
      cases hs : t.shifting with
      | false => rfl
      | true =>
        rw [hs] at hshifting
        exact absurd hshifting hevent
    rw [if_neg (by rw [hlength, hcounter]; decide), if_neg (by rw [hlength]; decide)]
    obtain ⟨h1, h2, h3, h4, h5, h6, h7, h8⟩ := TxSide.eventTxDone_moved
      (t := { t with txdrdy := false, bufferLength := 0 }) hholds ⟨rfl, hgone, rfl⟩ hsent
    exact .inr ⟨⟨hlength, hcounter, hshifting⟩, h1, h2, h3, h4, h5, h6, h7, h8⟩

/-! ## §3 The interrupt where a call is -/

theorem TxSide.Running.not_quiet (h : t.Running) (hshifting : t.shifting = false)
    (htxdrdy : t.txdrdy = false) : False := by
  have hevent := h.event
  rw [hshifting, htxdrdy] at hevent
  cases hevent

theorem TxSide.Settled.event (h : t.Settled) : t.Running ∨ t.txdrdy = false :=
  h.imp_right fun hquiet => hquiet.1.txdrdy

/-- There is an event only when a byte is being sent, and then no call is about to send one. -/
theorem TxAt.event (h : TxAt t pc) : t.Running ∧ t.pending pc = [] ∨ t.txdrdy = false := by
  cases pc with
  | putTest byte readPos => exact h.1.event.imp_left fun hrunning => ⟨hrunning, rfl⟩
  | putStore byte => exact h.1.event.imp_left fun hrunning => ⟨hrunning, rfl⟩
  | putAdvance byte => exact h.1.event.imp_left fun hrunning => ⟨hrunning, rfl⟩
  | putInProgress byte => exact h.imp (fun hrunning => ⟨hrunning, rfl⟩) fun hquiet => hquiet.txdrdy
  | putGet byte => exact .inr h.txdrdy
  | txInProgress byte => exact .inr h.txdrdy
  | txLength byte => exact .inr h.txdrdy
  | putGetAdvance byte => exact .inr h.1.txdrdy
  | txCounter byte => exact .inr h.txdrdy
  | txStart byte => exact .inr h.1.txdrdy
  | txLoad byte => exact .inr h.1.txdrdy
  | txSet byte txd => exact .inr h.1.txdrdy
  | flushTxStore writePos => exact h.1.event.imp_left fun hrunning => ⟨hrunning, rfl⟩
  | _ => exact TxSide.Settled.event h |>.imp_left fun hrunning => ⟨hrunning, rfl⟩

/-- **What is known where a call is** stays known when the interrupt moves the bytes on. -/
theorem TxAt.moved {t' : TxSide n} (h : TxAt t pc) (hrunning : t.Running) (hmoved : t.Moved t') :
    TxAt t' pc ∧ t'.pending pc = [] := by
  have hshorter : t'.ledger.held.length ≤ t.ledger.held.length := by
    rw [hmoved.held, List.length_tail]
    exact Nat.sub_le _ _
  cases pc with
  | putTest byte readPos =>
    refine ⟨⟨hmoved.settled, ?_⟩, rfl⟩
    rw [hmoved.writePos]
    exact hshorter.trans h.2
  | putStore byte => exact ⟨⟨hmoved.settled, hshorter.trans_lt h.2⟩, rfl⟩
  | putAdvance byte =>
    refine ⟨⟨hmoved.settled, hshorter.trans_lt h.2.1, ?_⟩, rfl⟩
    rw [hmoved.pBuf, hmoved.writePos, hmoved.mask]
    exact h.2.2
  | putInProgress byte => exact ⟨hmoved.settled.imp_right And.left, rfl⟩
  -- from here to the start nothing is being sent, so no byte can have left
  | putGet byte => exact (hrunning.not_quiet h.shifting h.txdrdy).elim
  | txInProgress byte => exact (hrunning.not_quiet h.shifting h.txdrdy).elim
  | txLength byte => exact (hrunning.not_quiet h.shifting h.txdrdy).elim
  | putGetAdvance byte => exact (hrunning.not_quiet h.1.shifting h.1.txdrdy).elim
  | txCounter byte => exact (hrunning.not_quiet h.shifting h.txdrdy).elim
  | txStart byte => exact (hrunning.not_quiet h.1.shifting h.1.txdrdy).elim
  | txLoad byte => exact (hrunning.not_quiet h.1.shifting h.1.txdrdy).elim
  | txSet byte txd => exact (hrunning.not_quiet h.1.shifting h.1.txdrdy).elim
  | flushTxStore writePos => exact ⟨⟨hmoved.settled, h.2.trans hmoved.writePos.symm⟩, rfl⟩
  | _ => exact ⟨hmoved.settled, rfl⟩

/-- **The interrupt**, where a call is. -/
theorem TxInv.irqHandler (h : TxInv t pc) :
    TxInv t.irqHandler.2 pc ∧ t.irqHandler.2.ledger.arrived = t.ledger.arrived := by
  have hevent : t.Running ∧ t.ledger.taken = t.txd ∨ t.txdrdy = false := by
    refine h.driver.event.imp_left fun ⟨hrunning, hpending⟩ => ⟨hrunning, ?_⟩
    rw [h.sent, hpending, List.append_nil]
  rcases TxSide.irqHandler_cases h.holds hevent with hsame | ⟨hrunning, hmoved⟩
  · rw [hsame]
    exact ⟨h, rfl⟩
  · obtain ⟨hat, hpending⟩ := h.driver.moved hrunning hmoved
    refine ⟨⟨hmoved.holds, hat, ?_⟩, hmoved.arrived⟩
    rw [hpending, List.append_nil]
    exact hmoved.sent

/-- The shift register is empty again. -/
theorem TxInv.shifted (h : TxInv t pc) (hshifting : t.shifting = true) :
    TxInv { t with shifting := false, txdrdy := true } pc := by
  have hnot : ∀ {p : Prop}, t.shifting = false → p := fun hfalse => by
    rw [hshifting] at hfalse
    cases hfalse
  have hsettled : t.Settled → { t with shifting := false, txdrdy := true }.Settled := by
    rintro (hrunning | hquiet)
    · exact .inl ⟨hrunning.length, hrunning.counter, rfl⟩
    · exact hnot hquiet.1.shifting
  have hdriver := h.driver
  refine ⟨h.holds, ?_, ?_⟩
  · cases pc with
    | putTest byte readPos => exact ⟨hsettled hdriver.1, hdriver.2⟩
    | putStore byte => exact ⟨hsettled hdriver.1, hdriver.2⟩
    | putAdvance byte => exact ⟨hsettled hdriver.1, hdriver.2⟩
    | putInProgress byte =>
      rcases hdriver with hrunning | hquiet
      · exact .inl ⟨hrunning.length, hrunning.counter, rfl⟩
      · exact hnot hquiet.shifting
    | putGet byte => exact hnot hdriver.shifting
    | txInProgress byte => exact hnot hdriver.shifting
    | txLength byte => exact hnot hdriver.shifting
    | putGetAdvance byte => exact hnot hdriver.1.shifting
    | txCounter byte => exact hnot hdriver.shifting
    | txStart byte => exact hnot hdriver.1.shifting
    | txLoad byte => exact hnot hdriver.1.shifting
    | txSet byte txd => exact hnot hdriver.1.shifting
    | flushTxStore writePos => exact ⟨hsettled hdriver.1, hdriver.2⟩
    | _ => exact hsettled hdriver
  · cases pc <;> exact h.sent

end Driver

/-! ## §4 The accesses of the calls -/

section Calls

variable {u : AppUart n m} {pc : Pc}

/-- The bytes whose `app_uart_put` has returned `NRF_SUCCESS`. -/
def AppUart.accepted (u : AppUart n m) : List (BitVec 8) :=
  (u.puts.filter fun call => call.2 = .success).map Prod.fst

/-- **What holds of the sending direction** in every state. -/
structure SendInv (u : AppUart n m) (pc : Pc) : Prop where
  tx : TxInv u.tx pc
  accepted : u.tx.ledger.arrived = u.accepted ++ pc.accepted
  codes : ∀ call ∈ u.puts, call.2 = .success ∨ call.2 = .errorNoMem

/-- `app_uart_put` returns. -/
theorem SendInv.returnPut {byte : BitVec 8} {ret : UartRet} (htx : TxInv u.tx .idle)
    (hcodes : ∀ call ∈ u.puts, call.2 = .success ∨ call.2 = .errorNoMem)
    (hret : ret = .success ∧ u.tx.ledger.arrived = u.accepted ++ [byte] ∨
      ret = .errorNoMem ∧ u.tx.ledger.arrived = u.accepted) :
    SendInv (u.returnPut byte ret) .idle := by
  refine ⟨htx, ?_, fun call hcall => ?_⟩
  · show u.tx.ledger.arrived =
      ((u.puts ++ [(byte, ret)]).filter fun call => call.2 = .success).map Prod.fst ++ []
    rw [List.filter_append, List.map_append, List.append_nil]
    rcases hret with ⟨rfl, harrived⟩ | ⟨rfl, harrived⟩
    · exact harrived
    · exact harrived.trans (List.append_nil _).symm
  · rcases List.mem_append.mp hcall with hcall | hcall
    · exact hcodes call hcall
    · rw [List.mem_singleton.mp hcall]
      exact hret.imp And.left And.left

/-- Another FIFO. -/
theorem TxSide.Settled.setFifo {t : TxSide n} (h : t.Settled) (fifo : AppFifo n) :
    { t with fifo := fifo }.Settled :=
  h.imp (fun hrunning => ⟨hrunning.length, hrunning.counter, hrunning.event⟩)
    fun hquiet => ⟨⟨hquiet.1.length, hquiet.1.shifting, hquiet.1.txdrdy⟩, hquiet.2⟩

theorem inProgress_eq_false {t : TxSide n} : t.inProgress = false ↔ t.bufferLength = 0 := by
  simp [TxSide.inProgress]

theorem TxSide.Running.inProgress {t : TxSide n} (h : t.Running) : t.inProgress = true := by
  unfold TxSide.inProgress
  rw [h.length]
  rfl

/-- **An access of `app_uart_put`.** -/
theorem SendInv.putStep (h : SendInv u pc) (hput : pc.function = .put) :
    SendInv (u.putStep pc) (u.putStep pc).pc := by
  obtain ⟨⟨hholds, hdriver, hsent⟩, haccepted, hcodes⟩ := h
  cases pc with
  | putLength byte =>
    -- the interrupt only takes bytes, so the length read here stays an upper bound
    exact ⟨⟨hholds, ⟨hdriver, (length_sub hholds).ge⟩, hsent⟩, haccepted, hcodes⟩
  | putTest byte readPos =>
    obtain ⟨hsettled, hlen⟩ := hdriver
    unfold AppUart.putStep
    dsimp only
    split_ifs with hroom
    · have hpos := hholds.mask
      have hmask := hholds.toNat_mask
      rw [BitVec.le_def] at hroom
      have hlt : u.tx.ledger.held.length < n := by omega
      exact ⟨⟨hholds, ⟨hsettled, hlt⟩, hsent⟩, haccepted, hcodes⟩
    · refine SendInv.returnPut ⟨hholds, hsettled, hsent⟩ hcodes (.inr ⟨rfl, ?_⟩)
      exact haccepted.trans (List.append_nil _)
  | putStore byte =>
    -- the cell is behind those of the bytes that are held
    obtain ⟨hsettled, hroom⟩ := hdriver
    have hlt : (u.tx.fifo.writePos &&& u.tx.fifo.mask).toNat < n := by
      rw [hholds.and_mask]
      exact Nat.mod_lt _ (by omega)
    exact ⟨⟨store_holds hholds hroom byte, ⟨hsettled.setFifo _, hroom, FixedArray.get_set_self _ _ hlt⟩,
      hsent⟩, haccepted, hcodes⟩
  | putAdvance byte =>
    obtain ⟨hsettled, hroom, hcell⟩ := hdriver
    refine ⟨⟨advance_holds hholds hroom hcell, ?_, hsent⟩, ?_, hcodes⟩
    · exact hsettled.imp (fun hrunning => ⟨hrunning.length, hrunning.counter, hrunning.event⟩)
        fun hquiet => ⟨hquiet.1.length, hquiet.1.shifting, hquiet.1.txdrdy⟩
    · show (u.tx.ledger.arrive byte).arrived = u.accepted ++ [byte]
      rw [QueueLedger.arrived_arrive, haccepted]
      exact congrArg (· ++ [byte]) (List.append_nil _)
  | putInProgress byte =>
    unfold AppUart.putStep
    dsimp only
    split_ifs with hbusy
    · have hrunning : u.tx.Running := by
        rcases hdriver with hrunning | hquiet
        · exact hrunning
        · rw [inProgress_eq_false.mpr hquiet.length] at hbusy
          cases hbusy
      exact SendInv.returnPut ⟨hholds, .inl hrunning, hsent⟩ hcodes (.inl ⟨rfl, haccepted⟩)
    · -- from here on there is no interrupt until the call has begun a transfer
      have hquiet : u.tx.Quiet := hdriver.resolve_left fun hrunning => hbusy hrunning.inProgress
      exact ⟨⟨hholds, hquiet, hsent⟩, haccepted, hcodes⟩
  | putGet byte =>
    unfold AppUart.putStep
    dsimp only
    cases hheld : u.tx.ledger.held with
    | nil =>
      -- the interrupt has sent the byte already
      have hzero : fifoLength u.tx.fifo = 0 := hholds.eq_zero_iff.mpr hheld
      rw [if_neg (not_not.mpr hzero)]
      exact SendInv.returnPut ⟨hholds, .inr ⟨hdriver, hheld⟩, hsent⟩ hcodes (.inl ⟨rfl, haccepted⟩)
    | cons next q =>
      have hzero : fifoLength u.tx.fifo ≠ 0 := by
        rw [Ne, hholds.eq_zero_iff, hheld]
        exact List.cons_ne_nil next q
      rw [if_pos hzero]
      have hpeek : fifoPeek u.tx.fifo 0 = next := by
        rw [hheld] at hholds
        exact (fifoGet_holds hholds).1
      refine ⟨⟨hholds, ⟨⟨hdriver.length, hdriver.shifting, hdriver.txdrdy⟩, ?_⟩, hsent⟩, haccepted,
        hcodes⟩
      show u.tx.ledger.held.head? = some ((u.tx.buffer.set 0 (fifoPeek u.tx.fifo 0)).get 0)
      rw [hheld, hpeek, FixedArray.get_set_self _ _ (by decide)]
      rfl
  | putGetAdvance byte =>
    obtain ⟨hquiet, hhead⟩ := hdriver
    obtain ⟨q, hheld⟩ : ∃ q, u.tx.ledger.held = u.tx.buffer.get 0 :: q := by
      cases hheld : u.tx.ledger.held with
      | nil =>
        rw [hheld] at hhead
        cases hhead
      | cons next q =>
        rw [hheld] at hhead
        exact ⟨q, by rw [Option.some.inj hhead]⟩
    refine ⟨⟨?_, ⟨hquiet.length, hquiet.shifting, hquiet.txdrdy⟩, ?_⟩, ?_, hcodes⟩
    · show (fifoGet u.tx.fifo).2.Holds u.tx.ledger.held.tail
      rw [hheld] at hholds ⊢
      exact (fifoGet_holds hholds).2
    · show u.tx.ledger.take.taken = u.tx.txd ++ [u.tx.buffer.get 0]
      rw [QueueLedger.taken_take, hsent, hheld]
      exact congrArg (· ++ [u.tx.buffer.get 0]) (List.append_nil _)
    · show u.tx.ledger.take.arrived = _
      rw [QueueLedger.arrived_take]
      exact haccepted
  | txInProgress byte =>
    unfold AppUart.putStep
    dsimp only
    -- No interrupt has begun a transfer since the test of `app_uart_put`.
    rw [if_neg (by rw [inProgress_eq_false.mpr hdriver.length]; exact Bool.false_ne_true)]
    exact ⟨⟨hholds, hdriver, hsent⟩, haccepted, hcodes⟩
  | txLength byte =>
    exact ⟨⟨hholds, ⟨rfl, hdriver.shifting, hdriver.txdrdy⟩, hsent⟩, haccepted, hcodes⟩
  | txCounter byte =>
    exact ⟨⟨hholds, ⟨⟨hdriver.length, hdriver.shifting, hdriver.txdrdy⟩, rfl⟩, hsent⟩, haccepted,
      hcodes⟩
  | txStart byte =>
    exact ⟨⟨hholds, ⟨⟨hdriver.1.length, hdriver.1.shifting, rfl⟩, hdriver.2⟩, hsent⟩, haccepted,
      hcodes⟩
  | txLoad byte =>
    -- the byte that has been taken is the one that is about to be written to `TXD`
    obtain ⟨hbeginning, hcounter⟩ := hdriver
    refine ⟨⟨hholds, ⟨⟨hbeginning.length, hbeginning.shifting, rfl⟩, ?_⟩, ?_⟩, haccepted, hcodes⟩
    · show u.tx.counter + 1 = 1
      rw [hcounter]
      rfl
    · show u.tx.ledger.taken = u.tx.txd ++ [u.tx.buffer.get u.tx.counter.toNat]
      rw [hcounter]
      exact hsent
  | txSet byte txd =>
    obtain ⟨hbeginning, hcounter⟩ := hdriver
    refine SendInv.returnPut (u := { u with tx := u.tx.setTxd txd }) ⟨hholds, ?_, ?_⟩ hcodes
      (.inl ⟨rfl, haccepted⟩)
    · exact .inl ⟨hbeginning.length, hcounter, by
        show u.tx.txdrdy = !true
        rw [hbeginning.txdrdy]
        rfl⟩
    · exact hsent.trans (List.append_nil _).symm
  | _ => cases hput

/-- An access that leaves the sending direction alone, between two places where a call to the
    sending direction is not under way. -/
theorem SendInv.other {u' : AppUart n m} {pc' : Pc} (h : SendInv u pc) (htx : u'.tx = u.tx)
    (hputs : u'.puts = u.puts) (hat : TxAt u.tx pc → TxAt u.tx pc')
    (hpending : u.tx.pending pc' = u.tx.pending pc) (haccepted : pc'.accepted = pc.accepted) :
    SendInv u' pc' := by
  refine ⟨?_, ?_, ?_⟩
  · rw [htx]
    exact ⟨h.tx.holds, hat h.tx.driver, hpending ▸ h.tx.sent⟩
  · unfold AppUart.accepted
    rw [htx, hputs, haccepted]
    exact h.accepted
  · rw [hputs]
    exact h.codes

/-- **An access of `app_uart_get`** is none to the sending direction. -/
theorem SendInv.getStep (h : SendInv u pc) (hget : pc.function = .get) :
    SendInv (u.getStep pc) (u.getStep pc).pc := by
  cases pc with
  | getGet rxOvf =>
    unfold AppUart.getStep
    dsimp only
    split_ifs <;> exact h.other rfl rfl id rfl rfl
  | getResume rxOvf out =>
    unfold AppUart.getStep
    dsimp only
    split_ifs <;> exact h.other rfl rfl id rfl rfl
  | rxTest out =>
    unfold AppUart.getStep
    dsimp only
    split_ifs <;> exact h.other rfl rfl id rfl rfl
  | getOvf => exact h.other rfl rfl id rfl rfl
  | getAdvance rxOvf byte => exact h.other rfl rfl id rfl rfl
  | rxMask out => exact h.other rfl rfl id rfl rfl
  | rxSecondary out => exact h.other rfl rfl id rfl rfl
  | rxLength out => exact h.other rfl rfl id rfl rfl
  | rxCounter out => exact h.other rfl rfl id rfl rfl
  | rxUnmask out => exact h.other rfl rfl id rfl rfl
  | _ => cases hget

/-- **An access of `app_uart_flush`.** -/
theorem SendInv.flushStep (h : SendInv u pc) (hflush : pc.function = .flush) :
    SendInv (u.flushStep pc) (u.flushStep pc).pc := by
  cases pc with
  | flushRx => exact h.other rfl rfl id rfl rfl
  | flushRxStore writePos => exact h.other rfl rfl id rfl rfl
  | flushTx => exact h.other rfl rfl (fun hsettled => ⟨hsettled, rfl⟩) rfl rfl
  | flushTxStore writePos =>
    obtain ⟨⟨hholds, ⟨hsettled, hwrite⟩, hsent⟩, haccepted, hcodes⟩ := h
    have hlen := length_sub hholds
    rw [← hwrite] at hlen
    refine ⟨⟨flushTo_holds hholds hlen.le, ?_, ?_⟩, ?_, hcodes⟩
    · refine hsettled.imp (fun hrunning => ⟨hrunning.length, hrunning.counter, hrunning.event⟩)
        fun hquiet => ⟨⟨hquiet.1.length, hquiet.1.shifting, hquiet.1.txdrdy⟩, ?_⟩
      show u.tx.ledger.held.drop _ = []
      rw [hquiet.2, List.drop_nil]
    · show (u.tx.ledger.discardMany _).taken = u.tx.txd ++ []
      rw [QueueLedger.taken_discardMany]
      exact hsent
    · show (u.tx.ledger.discardMany _).arrived = u.accepted ++ []
      rw [QueueLedger.arrived_discardMany]
      exact haccepted
  | _ => cases hflush

end Calls

/-! ## §5 Runs -/

section Runs

variable {u : AppUart n m} {rxPin : Bool}

/-- **Every step** keeps it. -/
theorem SendInv.step {label : UartLabel} (h : SendInv u u.pc) (hen : label.Enabled u) :
    SendInv (u.step label) (u.step label).pc := by
  cases label with
  | call call =>
    have hidle : u.pc = .idle := hen
    rw [hidle] at h
    cases call <;> exact h.other rfl rfl id rfl rfl
  | main =>
    show SendInv u.mainStep u.mainStep.pc
    unfold AppUart.mainStep
    cases hfunction : u.pc.function with
    | none => exact h
    | put => exact h.putStep hfunction
    | get => exact h.getStep hfunction
    | flush => exact h.flushStep hfunction
  | shifted => exact ⟨h.tx.shifted hen, h.accepted, h.codes⟩
  | irq error rxd =>
    obtain ⟨htx, harrived⟩ := h.tx.irqHandler
    exact ⟨htx, harrived.trans h.accepted, h.codes⟩

/-- **Sending is right.** -/
structure Sends (u : AppUart n m) : Prop where
  /-- A call returns `NRF_SUCCESS` or `NRF_ERROR_NO_MEM`. -/
  codes : ∀ call ∈ u.puts, call.2 = .success ∨ call.2 = .errorNoMem
  /-- What is written to `TXD` has been accepted, each byte once and in order. -/
  order : u.pc = .idle → u.tx.txd.Sublist u.accepted
  /-- Unless something is flushed, what has been accepted is written or waits. -/
  complete : u.pc = .idle → (∀ x ∈ u.tx.ledger.settled, x.2 = true) →
    ∃ q, u.tx.fifo.Holds q ∧ u.accepted = u.tx.txd ++ q
  /-- While a byte waits, one is being sent, and the interrupt will come. -/
  running : u.pc = .idle → fifoLength u.tx.fifo ≠ 0 → u.tx.Running

/-- **The UART sends every accepted byte**, wherever the interrupt comes between the accesses of a
    call. -/
theorem sends_of_reachable (h : (uartMachine n m rxPin).Reachable u) : Sends u := by
  have hinv : SendInv u u.pc := by
    refine h.invariant (I := fun u => SendInv u u.pc) ?_ fun u label hinv hen _ => hinv.step hen
    rintro u ⟨txFifo, rxFifo, htx, -, rfl⟩
    exact ⟨⟨htx, .inr ⟨⟨rfl, rfl, rfl⟩, rfl⟩, rfl⟩, rfl, fun call hcall =>
      absurd hcall List.not_mem_nil⟩
  refine ⟨hinv.codes, fun hidle => ?_, fun hidle hall => ?_, fun hidle hlen => ?_⟩
  all_goals
    rw [hidle] at hinv
    obtain ⟨⟨hholds, hsettled, hsent⟩, haccepted, -⟩ := hinv
    replace hsent : u.tx.ledger.taken = u.tx.txd := hsent.trans (List.append_nil _)
    replace haccepted : u.tx.ledger.arrived = u.accepted := haccepted.trans (List.append_nil _)
  · rw [← hsent, ← haccepted]
    exact u.tx.ledger.taken_sublist
  · exact ⟨u.tx.ledger.held, hholds, by
      rw [← haccepted, QueueLedger.arrived_eq hall, hsent]⟩
  · rcases hsettled with hrunning | ⟨-, hheld⟩
    · exact hrunning
    · exact absurd (hholds.eq_zero_iff.mpr hheld) hlen

end Runs

/-! ## §6 Three bytes -/

/-- A FIFO of two bytes. -/
def emptyPair : AppFifo 2 := ⟨.replicate 2 0, 1, 0, 0⟩

/-- A FIFO of one byte. -/
def emptyCell : AppFifo 1 := ⟨.replicate 1 0, 0, 0, 0⟩

theorem emptyPair_holds : emptyPair.Holds [] :=
  (@appFifoInit_holds 2 emptyPair (.replicate 2 0) ⟨1, rfl⟩).2

theorem emptyCell_holds : emptyCell.Holds [] :=
  (@appFifoInit_holds 1 emptyCell (.replicate 1 0) ⟨0, rfl⟩).2

/-- The first byte is sent by its own call. The second is put while the first is being sent, and the
    interrupt takes it between `write_pos` and the test of the driver; it is gone, too, when the
    driver is tested. The third call is not finished. -/
theorem sends_threeBytes :
    Sends ((uartMachine 2 1 false).run (appUartInit emptyPair emptyCell false)
      (.call (.put 1) :: List.replicate 13 .main ++ [.call (.put 2), .main, .main, .main, .shifted,
        .main, .irq none none, .shifted, .irq none none, .main, .main, .call (.put 3), .main])) :=
  sends_of_reachable
    (.of_follows (.start ⟨emptyPair, emptyCell, emptyPair_holds, emptyCell_holds, rfl⟩)
      (by decide +kernel))

end NordicEsb.Uart
