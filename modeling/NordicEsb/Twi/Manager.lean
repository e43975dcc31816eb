import NordicEsb.Lib.Machine
import NordicEsb.Twi.Queue

/-!
# The Transaction Manager

`app_twi_schedule` and `app_twi_perform` may be called from the thread, from interrupts and from
callbacks, and a driver event may come in at any point of such a call. What is being executed is
therefore a stack of frames: the frame on top goes on, and a call or an event puts a new one on
top. A step of a frame goes up to the next point where another context may come in between: a
critical region, or an access to what another context might use.

- `startTransfer` binds two transfers together where this is possible (`startTransfer_ops`)
- `State.run` is a step of the frame on top, `machine` adds the calls and the events
- the state also keeps what has been accepted, and what has ended with which result
-/

namespace NordicEsb.Twi

/-! ## §1 Transfers -/

/-- `ret_code_t` -/
abbrev RetCode := BitVec 32

/-- `NRF_SUCCESS` -/
def nrfSuccess : RetCode := 0

/-- `NRF_ERROR_INTERNAL` -/
def nrfErrorInternal : RetCode := 3

/-- `NRF_ERROR_BUSY` -/
def nrfErrorBusy : RetCode := 17

/-- `nrf_drv_twi_xfer_type_t` -/
inductive XferType where
  | tx
  | rx
  | txrx
  | txtx
deriving DecidableEq, Repr

/-- `NRF_DRV_TWI_FLAG_TX_NO_STOP` -/
def flagTxNoStop : BitVec 32 := 1 <<< 5

/-- `nrf_drv_twi_xfer_desc_t`, and the flags of the transfer. -/
structure XferDesc where
  address : BitVec 8
  type : XferType
  pPrimaryBuf : BitVec 32
  primaryLength : BitVec 8
  pSecondaryBuf : BitVec 32
  secondaryLength : BitVec 8
  flags : BitVec 32
deriving DecidableEq, Repr

/-- `start_transfer` up to the call of `nrf_drv_twi_xfer`: the descriptor, and
    `current_transfer_idx`. -/
def startTransfer (t : Transaction) (currentTransferIdx : BitVec 8) : XferDesc × BitVec 8 :=
  let first := t.transfer currentTransferIdx.toNat
  let second := t.transfer (currentTransferIdx.toNat + 1)
  if first.noStop = true ∧ first.isReadOp = false ∧ currentTransferIdx.toNat + 1 < t.number ∧
      first.opAddress = second.opAddress then
    -- Two transfers are bound together.
    (⟨first.opAddress, if second.isReadOp then .txrx else .txtx, first.pData, first.length,
      second.pData, second.length, if second.noStop then flagTxNoStop else 0⟩,
      currentTransferIdx + 1)
  else
    (⟨first.opAddress, if first.isReadOp then .rx else .tx, first.pData, first.length, 0, 0,
      if first.noStop then flagTxNoStop else 0⟩, currentTransferIdx)

/-- What is done on the bus. -/
structure Op where
  address : BitVec 8
  read : Bool
  pData : BitVec 32
  length : BitVec 8
deriving DecidableEq, Repr

/-- A transfer of a transaction. -/
def Transfer.op (t : Transfer) : Op := ⟨t.opAddress, t.isReadOp, t.pData, t.length⟩

/-- The transfers of a transaction. -/
def Transaction.ops (t : Transaction) : List Op := t.transfers.list.map Transfer.op

/-- What the driver does for a descriptor: one transfer, or two. -/
def XferDesc.ops (d : XferDesc) : List Op :=
  match d.type with
  | .tx => [⟨d.address, false, d.pPrimaryBuf, d.primaryLength⟩]
  | .rx => [⟨d.address, true, d.pPrimaryBuf, d.primaryLength⟩]
  | .txrx => [⟨d.address, false, d.pPrimaryBuf, d.primaryLength⟩,
      ⟨d.address, true, d.pSecondaryBuf, d.secondaryLength⟩]
  | .txtx => [⟨d.address, false, d.pPrimaryBuf, d.primaryLength⟩,
      ⟨d.address, false, d.pSecondaryBuf, d.secondaryLength⟩]

theorem Transaction.getElem?_ops (t : Transaction) {i : ℕ} (hi : i < t.number) :
    t.ops[i]? = some (t.transfer i).op := by
  unfold Transaction.ops Transaction.transfer
  rw [List.getElem?_map, List.getElem?_eq_getElem hi, List.getD_eq_getElem?_getD,
    List.getElem?_eq_getElem hi]
  rfl

theorem Transaction.length_ops (t : Transaction) : t.ops.length = t.number :=
  List.length_map _

theorem Transaction.take_ops_succ (t : Transaction) {i : ℕ} (hi : i < t.number) :
    t.ops.take (i + 1) = t.ops.take i ++ [(t.transfer i).op] := by
  rw [List.take_add_one, t.getElem?_ops hi]
  rfl

/-- **A descriptor is the next transfer, or the next two**, and the index is the last one of
    them. -/
theorem startTransfer_ops (t : Transaction) {idx : BitVec 8} (hidx : idx.toNat < t.number) :
    idx.toNat ≤ (startTransfer t idx).2.toNat ∧ (startTransfer t idx).2.toNat < t.number ∧
    t.ops.take idx.toNat ++ (startTransfer t idx).1.ops =
      t.ops.take ((startTransfer t idx).2.toNat + 1) := by
  have hlt : t.number < 2 ^ 8 := t.transfers.number_lt
  unfold startTransfer
  dsimp only
  by_cases hpair : (t.transfer idx.toNat).noStop = true ∧
      (t.transfer idx.toNat).isReadOp = false ∧ idx.toNat + 1 < t.number ∧
      (t.transfer idx.toNat).opAddress = (t.transfer (idx.toNat + 1)).opAddress
  · rw [if_pos hpair]
    obtain ⟨-, htx, hnext, haddress⟩ := hpair
    have hsucc : (idx + 1).toNat = idx.toNat + 1 := by bv_omega
    dsimp only
    rw [hsucc]
    refine ⟨Nat.le_succ _, hnext, ?_⟩
    rw [t.take_ops_succ hnext, t.take_ops_succ hidx, List.append_assoc]
    unfold Transfer.op
    rw [htx, ← haddress]
    cases (t.transfer (idx.toNat + 1)).isReadOp <;> rfl
  · rw [if_neg hpair]
    refine ⟨le_rfl, hidx, ?_⟩
    dsimp only
    rw [t.take_ops_succ hidx]
    unfold Transfer.op
    cases (t.transfer idx.toNat).isReadOp <;> rfl

/-! ## §2 What is being executed -/

/-- `app_twi_t`, without the driver instance. -/
structure AppTwi (size : BitVec 8) where
  queue : AppTwiQueue size
  currentTransferIdx : BitVec 8
  internalTransactionInProgress : Bool
  internalTransactionResult : BitVec 8
  pCurrentTransaction : Option Transaction
deriving DecidableEq

/-- A point in a function of `app_twi.c` from which the function goes on. -/
inductive Frame where
  /-- `start_pending_transaction`, before the critical region -/
  | pending (switchTransaction : Bool)
  /-- `start_pending_transaction`, behind the critical region: a transaction is to be started -/
  | first
  /-- `start_transfer` -/
  | transfer
  /-- `start_transfer`, at the call of `nrf_drv_twi_xfer` -/
  | xfer (desc : XferDesc)
  /-- `signal_end_of_transaction` -/
  | signal (result : RetCode)
  /-- `twi_event_handler`, for `NRF_DRV_TWI_EVT_DONE` or for an error -/
  | event (done : Bool)
  /-- `app_twi_schedule` returns `NRF_SUCCESS`. -/
  | scheduled
  /-- `app_twi_perform` calls `app_twi_schedule`. -/
  | performPut (transfers : Transfers)
  /-- `app_twi_perform` waits. -/
  | performWait
  /-- `app_twi_perform` returns `internal_transaction_result`. -/
  | performDone
deriving DecidableEq

/-- A transaction that has ended: with its result, and with what the driver has done for it. -/
structure Ended where
  transaction : Transaction
  result : RetCode
  performed : List XferDesc
deriving DecidableEq

/-- The manager, the transfer of the driver, and what is being executed; `accepted`, `ended`,
    `called` and `performed` keep what has happened. -/
structure State (size : BitVec 8) where
  twi : AppTwi size
  /-- The transfer that the driver has started, until its event. -/
  driver : Option XferDesc
  /-- The frame on top comes first. -/
  stack : List Frame
  /-- The transactions that were put into the queue. -/
  accepted : List Transaction
  /-- The transactions whose end was signalled. -/
  ended : List Ended
  /-- The callbacks that were called, with their results. -/
  called : List (Callback × RetCode)
  /-- What the driver has done for the current transaction. -/
  performed : List XferDesc
  /-- What the calls have returned. -/
  returned : List RetCode
deriving DecidableEq

variable {size : BitVec 8}

/-- `app_twi_is_idle` -/
def AppTwi.isIdle (pAppTwi : AppTwi size) : Prop := pAppTwi.pCurrentTransaction = none

instance (pAppTwi : AppTwi size) : Decidable pAppTwi.isIdle :=
  inferInstanceAs (Decidable (_ = none))

/-- The critical region of `start_pending_transaction`. -/
def State.runPending (switchTransaction : Bool) (rest : List Frame) (s : State size) :
    State size :=
  if switchTransaction = true ∨ s.twi.isIdle then
    match queueGet s.twi.queue with
    | (some t, queue) =>
      { s with
        twi := { s.twi with queue := queue, pCurrentTransaction := some t }
        performed := []
        stack := .first :: rest }
    | (none, queue) =>
      { s with
        twi := { s.twi with queue := queue, pCurrentTransaction := none }
        stack := rest }
  else { s with stack := rest }

/-- `p_app_twi->current_transfer_idx = 0` -/
def State.runFirst (rest : List Frame) (s : State size) : State size :=
  { s with
    twi := { s.twi with currentTransferIdx := 0 }
    stack := .transfer :: rest }

/-- `start_transfer`, before `nrf_drv_twi_xfer` -/
def State.runTransfer (rest : List Frame) (s : State size) : State size :=
  match s.twi.pCurrentTransaction with
  | none => { s with stack := rest }
  | some t =>
    { s with
      twi := { s.twi with
        currentTransferIdx := (startTransfer t s.twi.currentTransferIdx).2 }
      stack := .xfer (startTransfer t s.twi.currentTransferIdx).1 :: rest }

/-- `nrf_drv_twi_xfer` has returned `ret`: behind a failure the end of the transaction is
    signalled. -/
def State.runXfer (ret : RetCode) (desc : XferDesc) (rest : List Frame) (s : State size) :
    State size :=
  if ret = nrfSuccess then { s with driver := some desc, stack := rest }
  else { s with stack := .signal ret :: rest }

/-- `signal_end_of_transaction`; `internal_transaction_cb` is executed here. -/
def State.runSignal (result : RetCode) (rest : List Frame) (s : State size) : State size :=
  match s.twi.pCurrentTransaction with
  | none => { s with stack := rest }
  | some t =>
    { s with
      twi :=
        match t.callback with
        | .internal => { s.twi with
            internalTransactionResult := result.setWidth 8
            internalTransactionInProgress := false }
        | _ => s.twi
      ended := s.ended ++ [⟨t, result, s.performed⟩]
      called :=
        match t.callback with
        | .none => s.called
        | callback => s.called ++ [(callback, result)]
      stack := .pending true :: rest }

/-- `twi_event_handler`, up to the next transfer or to the end of the transaction -/
def State.runEvent (done : Bool) (rest : List Frame) (s : State size) : State size :=
  match s.twi.pCurrentTransaction with
  | none => { s with stack := rest }
  | some t =>
    if done then
      let currentTransferIdx := s.twi.currentTransferIdx + 1
      if currentTransferIdx.toNat < t.number then
        { s with
          twi := { s.twi with currentTransferIdx := currentTransferIdx }
          stack := .transfer :: rest }
      else { s with stack := .signal nrfSuccess :: rest }
    else { s with stack := .signal nrfErrorInternal :: rest }

/-- The transaction of `app_twi_perform`. -/
def internalTransaction (transfers : Transfers) : Transaction := ⟨.internal, transfers⟩

/-- `app_twi_perform` schedules its transaction: `VERIFY_SUCCESS` returns if the queue is full. -/
def State.runPerformPut (transfers : Transfers) (rest : List Frame) (s : State size) :
    State size :=
  match queuePut s.twi.queue (internalTransaction transfers) with
  | none => { s with returned := s.returned ++ [nrfErrorBusy], stack := rest }
  | some queue =>
    { s with
      twi := { s.twi with queue := queue }
      accepted := s.accepted ++ [internalTransaction transfers]
      stack := .pending false :: .performWait :: rest }

/-- The waiting loop of `app_twi_perform`. -/
def State.runPerformWait (rest : List Frame) (s : State size) : State size :=
  if s.twi.internalTransactionInProgress then s
  else { s with stack := .performDone :: rest }

/-- `return p_app_twi->internal_transaction_result` -/
def State.runPerformDone (rest : List Frame) (s : State size) : State size :=
  { s with
    returned := s.returned ++ [s.twi.internalTransactionResult.setWidth 32]
    stack := rest }

/-- **The frame on top goes on**; `ret` is what `nrf_drv_twi_xfer` returns. -/
def State.run (ret : RetCode) (s : State size) : State size :=
  match s.stack with
  | [] => s
  | .pending switchTransaction :: rest => s.runPending switchTransaction rest
  | .first :: rest => s.runFirst rest
  | .transfer :: rest => s.runTransfer rest
  | .xfer desc :: rest => s.runXfer ret desc rest
  | .signal result :: rest => s.runSignal result rest
  | .event done :: rest => s.runEvent done rest
  | .scheduled :: rest => { s with returned := s.returned ++ [nrfSuccess], stack := rest }
  | .performPut transfers :: rest => s.runPerformPut transfers rest
  | .performWait :: rest => s.runPerformWait rest
  | .performDone :: rest => s.runPerformDone rest

/-! ## §3 Calls and events -/

/-- What happens. -/
inductive Label where
  /-- `app_twi_schedule` is called. -/
  | schedule (pTransaction : Transaction)
  /-- `app_twi_perform` is called. -/
  | perform (transfers : Transfers)
  /-- The driver calls `twi_event_handler`. -/
  | event (done : Bool)
  /-- The frame on top goes on. -/
  | run (ret : RetCode)
deriving DecidableEq

/-- `app_twi_schedule` up to the end of its critical region -/
def State.schedule (pTransaction : Transaction) (s : State size) : State size :=
  match queuePut s.twi.queue pTransaction with
  | none => { s with returned := s.returned ++ [nrfErrorBusy] }
  | some queue =>
    { s with
      twi := { s.twi with queue := queue }
      accepted := s.accepted ++ [pTransaction]
      stack := .pending false :: .scheduled :: s.stack }

/-- `app_twi_perform` up to the end of its critical region -/
def State.perform (transfers : Transfers) (s : State size) : State size :=
  if s.twi.internalTransactionInProgress then
    { s with returned := s.returned ++ [nrfErrorBusy] }
  else
    { s with
      twi := { s.twi with internalTransactionInProgress := true }
      stack := .performPut transfers :: s.stack }

/-- The event of the transfer that the driver has started. -/
def State.event (done : Bool) (s : State size) : State size :=
  { s with
    driver := none
    performed := if done then s.performed ++ s.driver.toList else s.performed
    stack := .event done :: s.stack }

/-- A step. -/
def State.step (s : State size) : Label → State size
  | .schedule pTransaction => s.schedule pTransaction
  | .perform transfers => s.perform transfers
  | .event done => s.event done
  | .run ret => s.run ret

/-- The state after `app_twi_init`. -/
def State.init (pBuffer : FixedArray (size.toNat + 1) Transaction)
    (currentTransferIdx internalTransactionResult : BitVec 8) : State size where
  twi :=
    { queue := .init pBuffer
      currentTransferIdx := currentTransferIdx
      internalTransactionInProgress := false
      internalTransactionResult := internalTransactionResult
      pCurrentTransaction := none }
  driver := none
  stack := []
  accepted := []
  ended := []
  called := []
  performed := []
  returned := []

/-- **The manager**: calls come at any time, an event comes once for each transfer that has been
    started. `internal_transaction_cb` is not known outside of `app_twi.c`. -/
def machine (size : BitVec 8) : Machine (State size) Label where
  start s := ∃ pBuffer currentTransferIdx internalTransactionResult,
    s = State.init pBuffer currentTransferIdx internalTransactionResult
  enabled s
    | .schedule pTransaction => pTransaction.callback ≠ .internal
    | .perform _ => True
    | .event _ => s.driver ≠ none
    | .run _ => True
  step := State.step

end NordicEsb.Twi
