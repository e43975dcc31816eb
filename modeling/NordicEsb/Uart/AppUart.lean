import NordicEsb.Fifo.AppFifo
import NordicEsb.Lib.Machine
import NordicEsb.Lib.QueueLedger

/-!
# The UART with FIFOs

`app_uart_fifo.c` puts a FIFO in front of each direction of `nrf_drv_uart.c`. The application calls
`app_uart_put`, `app_uart_get` and `app_uart_flush`; the UART interrupt moves the bytes on. It may
come between any two accesses of a call to what both share.

- `TxSide` and `RxSide` are the two directions, each with its FIFO, the buffer of one byte, the
  control block of the driver and the registers of the UART
- `nrfDrvUartTx`, `nrfDrvUartRx`, `uartEventHandler` and `uartIrqHandler` run in the interrupt
- `Pc` says where a call of the application is, and `AppUart.mainStep` takes it one access further
- `uartMachine` is the application, the interrupt and the shift register, in any order

The driver is the one without EasyDMA. The handler of the application calls none of these
functions, and no transfer is aborted.
-/

namespace NordicEsb.Uart

open Fifo

/-! ## §1 Sending -/

/-- What the functions return. -/
inductive UartRet where
  | success
  | errorNoMem
  | errorNotFound
  | errorBusy
deriving DecidableEq, Repr

/-- What `m_event_handler` is called with. -/
inductive AppUartEvt where
  | dataReady
  | fifoError (errorCode : Fifo.Ret)
  | communicationError (errorCommunication : BitVec 32)
  | txEmpty
deriving DecidableEq, Repr

/-- The sending direction. -/
structure TxSide (n : ℕ) where
  /-- `m_tx_fifo` -/
  fifo : AppFifo n
  /-- `tx_buffer` -/
  buffer : FixedArray 1 (BitVec 8)
  /-- `tx_buffer_length` -/
  bufferLength : BitVec 8
  /-- `tx_counter` -/
  counter : BitVec 16
  /-- The event `TXDRDY`. -/
  txdrdy : Bool
  /-- A byte is being shifted out; when it is gone, there is the event. -/
  shifting : Bool
  /-- What has been written to `TXD`. -/
  txd : List (BitVec 8)
  /-- What has been put into the FIFO, taken from it, and flushed. -/
  ledger : QueueLedger (BitVec 8)

variable {n m : ℕ}

/-- `nrf_drv_uart_tx_in_progress` -/
def TxSide.inProgress (t : TxSide n) : Bool := t.bufferLength ≠ 0

/-- The first part of `tx_byte`: the event is cleared, and the next byte is read from the buffer. -/
def TxSide.loadByte (t : TxSide n) : BitVec 8 × TxSide n :=
  (t.buffer.get t.counter.toNat, { t with txdrdy := false, counter := t.counter + 1 })

/-- `nrf_uart_txd_set` -/
def TxSide.setTxd (t : TxSide n) (byte : BitVec 8) : TxSide n :=
  { t with shifting := true, txd := t.txd ++ [byte] }

/-- `tx_byte` -/
def TxSide.txByte (t : TxSide n) : TxSide n := t.loadByte.2.setTxd t.loadByte.1

/-- `nrf_drv_uart_tx` of the buffer, as the interrupt calls it. -/
def nrfDrvUartTx (t : TxSide n) (length : BitVec 8) : UartRet × TxSide n :=
  if t.inProgress then (.errorBusy, t)
  else (.success, { t with bufferLength := length, counter := 0, txdrdy := false }.txByte)

/-- `NRF_DRV_UART_EVT_TX_DONE` in `uart_event_handler`. -/
def TxSide.eventTxDone (t : TxSide n) : List AppUartEvt × TxSide n :=
  let t :=
    match appFifoGet t.fifo with
    | (.success, some byte, fifo) =>
      (nrfDrvUartTx { t with
        fifo := fifo, buffer := t.buffer.set 0 byte, ledger := t.ledger.take } 1).2
    | _ => t
  (if fifoLength t.fifo = 0 then [.txEmpty] else [], t)

/-- The part of `uart_irq_handler` for `TXDRDY`, with `tx_done_event`. -/
def TxSide.irqHandler (t : TxSide n) : List AppUartEvt × TxSide n :=
  if t.txdrdy = false then ([], t)
  else if t.counter < t.bufferLength.setWidth 16 then ([], t.txByte)
  else
    if t.bufferLength = 0 then ([], { t with txdrdy := false })
    else { t with txdrdy := false, bufferLength := 0 }.eventTxDone

/-! ## §2 Receiving -/

/-- The receiving direction. -/
structure RxSide (n : ℕ) where
  /-- `m_rx_fifo` -/
  fifo : AppFifo n
  /-- `rx_buffer` -/
  buffer : FixedArray 1 (BitVec 8)
  /-- `m_rx_ovf` -/
  rxOvf : Bool
  /-- `rx_buffer_length` -/
  bufferLength : BitVec 8
  /-- `rx_secondary_buffer_length` -/
  secondaryLength : BitVec 8
  /-- `rx_counter` -/
  counter : BitVec 8
  /-- The interrupts of `RXDRDY` and `ERROR` are enabled. -/
  inten : Bool
  /-- What `rx_byte` has stored. -/
  stored : List (BitVec 8)
  /-- What has been put into the FIFO, taken from it, and flushed. -/
  ledger : QueueLedger (BitVec 8)

/-- The interrupts are masked, or enabled again. -/
def RxSide.setInten (r : RxSide n) (inten : Bool) : RxSide n := { r with inten := inten }

/-- `nrf_drv_uart_rx` into the buffer, as the interrupt calls it. -/
def nrfDrvUartRx (r : RxSide n) (length : BitVec 8) : UartRet × RxSide n :=
  if r.bufferLength ≠ 0 then
    if r.secondaryLength ≠ 0 then (.errorBusy, r.setInten true)
    else (.success, { r with secondaryLength := length, inten := true })
  else
    (.success, { r with
      bufferLength := length, counter := 0, secondaryLength := 0, inten := true })

/-- `rx_byte` -/
def RxSide.rxByte (r : RxSide n) (rxd : BitVec 8) : RxSide n :=
  -- A byte for which there is no buffer is lost.
  if r.bufferLength = 0 then r
  else { r with
    buffer := r.buffer.set r.counter.toNat rxd
    counter := r.counter + 1
    stored := r.stored ++ [rxd] }

/-- `NRF_DRV_UART_EVT_RX_DONE` in `uart_event_handler`. -/
def RxSide.eventRxDone (r : RxSide n) : List AppUartEvt × RxSide n :=
  let put := appFifoPut r.fifo (r.buffer.get 0)
  let ledger := if put.1 = .success then r.ledger.arrive (r.buffer.get 0) else r.ledger
  let r := { r with fifo := put.2, ledger := ledger }
  (if put.1 ≠ .success then [.fifoError put.1]
    else if fifoLength r.fifo ≠ 0 then [.dataReady]
    else [],
    if fifoLength r.fifo ≤ r.fifo.mask then (nrfDrvUartRx r 1).2
    else { r with rxOvf := true })

/-- `NRF_DRV_UART_EVT_ERROR` in `uart_event_handler`. -/
def RxSide.eventError (r : RxSide n) (errorMask : BitVec 32) : List AppUartEvt × RxSide n :=
  ([.communicationError errorMask], (nrfDrvUartRx r 1).2)

/-- The part of `uart_irq_handler` for `ERROR` and `RXDRDY`, with `rx_done_event`; the arguments are
    the source of an error and the byte in `RXD`, when there is the event. -/
def RxSide.irqHandler (r : RxSide n) (error : Option (BitVec 32)) (rxd : Option (BitVec 8)) :
    List AppUartEvt × RxSide n :=
  if r.inten = false then ([], r)
  else
    match error, rxd with
    | some errorMask, _ =>
      { r with inten := false, bufferLength := 0, secondaryLength := 0 }.eventError errorMask
    | none, some rxd =>
      let r := r.rxByte rxd
      if r.bufferLength ≠ r.counter then ([], r)
      else if r.secondaryLength ≠ 0 then
        -- The secondary buffer is the same byte.
        { r with bufferLength := r.secondaryLength, secondaryLength := 0, counter := 0 }.eventRxDone
      else { r with inten := false, bufferLength := 0 }.eventRxDone
    | none, none => ([], r)

/-! ## §3 The calls of the application -/

/-- Where a call of the application is: its next access to what it shares with the interrupt. -/
inductive Pc where
  | idle
  /-- `app_fifo_put`: `read_pos` is read, the length is tested, the byte is stored, and `write_pos`
      is moved on. -/
  | putLength (byte : BitVec 8)
  | putTest (byte : BitVec 8) (readPos : BitVec 32)
  | putStore (byte : BitVec 8)
  | putAdvance (byte : BitVec 8)
  | putInProgress (byte : BitVec 8)
  /-- `app_fifo_get`: the length is tested and the byte is read, and `read_pos` is moved on. -/
  | putGet (byte : BitVec 8)
  | putGetAdvance (byte : BitVec 8)
  /-- `nrf_drv_uart_tx` -/
  | txInProgress (byte : BitVec 8)
  | txLength (byte : BitVec 8)
  | txCounter (byte : BitVec 8)
  | txStart (byte : BitVec 8)
  | txLoad (byte : BitVec 8)
  | txSet (byte txd : BitVec 8)
  | getOvf
  /-- `app_fifo_get` -/
  | getGet (rxOvf : Bool)
  | getAdvance (rxOvf : Bool) (byte : BitVec 8)
  | getResume (rxOvf : Bool) (out : Option (BitVec 8))
  /-- `nrf_drv_uart_rx` -/
  | rxMask (out : Option (BitVec 8))
  | rxTest (out : Option (BitVec 8))
  | rxSecondary (out : Option (BitVec 8))
  | rxLength (out : Option (BitVec 8))
  | rxCounter (out : Option (BitVec 8))
  | rxUnmask (out : Option (BitVec 8))
  /-- `app_fifo_flush`, of one FIFO and then of the other. -/
  | flushRx
  | flushRxStore (writePos : BitVec 32)
  | flushTx
  | flushTxStore (writePos : BitVec 32)
deriving DecidableEq

/-- `app_uart_fifo.c` with its driver. -/
structure AppUart (n m : ℕ) where
  pc : Pc
  tx : TxSide n
  rx : RxSide m
  /-- The arguments and the return codes of `app_uart_put`. -/
  puts : List (BitVec 8 × UartRet)
  /-- What `app_uart_get` has returned, `none` for `NRF_ERROR_NOT_FOUND`. -/
  gets : List (Option (BitVec 8))
  /-- What the handler of the application has been called with. -/
  events : List AppUartEvt

/-- A call of the application. -/
inductive UartCall where
  | put (byte : BitVec 8)
  | get
  | flush
deriving DecidableEq

/-- Where a call begins. -/
def UartCall.entry : UartCall → Pc
  | .put byte => .putLength byte
  | .get => .getOvf
  | .flush => .flushRx

/-- `app_uart_put` returns. -/
def AppUart.returnPut (u : AppUart n m) (byte : BitVec 8) (ret : UartRet) : AppUart n m :=
  { u with pc := .idle, puts := u.puts ++ [(byte, ret)] }

/-- `app_uart_get` returns. -/
def AppUart.returnGet (u : AppUart n m) (out : Option (BitVec 8)) : AppUart n m :=
  { u with pc := .idle, gets := u.gets ++ [out] }

/-- The FIFO behind a flush, which has read this `write_pos`. -/
def flushTo (fifo : AppFifo n) (writePos : BitVec 32) : AppFifo n :=
  { fifo with readPos := writePos }

/-- The next access of `app_uart_put` and of `nrf_drv_uart_tx` below it. -/
def AppUart.putStep (u : AppUart n m) : Pc → AppUart n m
  | .putLength byte => { u with pc := .putTest byte u.tx.fifo.readPos }
  | .putTest byte readPos =>
    if u.tx.fifo.writePos - readPos ≤ u.tx.fifo.mask then { u with pc := .putStore byte }
    else u.returnPut byte .errorNoMem
  | .putStore byte =>
    let fifo := u.tx.fifo
    { u with
      pc := .putAdvance byte
      tx := { u.tx with
        fifo := { fifo with pBuf := fifo.pBuf.set (fifo.writePos &&& fifo.mask).toNat byte } } }
  | .putAdvance byte =>
    { u with
      pc := .putInProgress byte
      tx := { u.tx with
        fifo := { u.tx.fifo with writePos := u.tx.fifo.writePos + 1 }
        ledger := u.tx.ledger.arrive byte } }
  | .putInProgress byte =>
    if u.tx.inProgress then u.returnPut byte .success else { u with pc := .putGet byte }
  | .putGet byte =>
    if fifoLength u.tx.fifo ≠ 0 then
      { u with
        pc := .putGetAdvance byte
        tx := { u.tx with buffer := u.tx.buffer.set 0 (fifoPeek u.tx.fifo 0) } }
    else u.returnPut byte .success
  | .putGetAdvance byte =>
    { u with
      pc := .txInProgress byte
      tx := { u.tx with fifo := (fifoGet u.tx.fifo).2, ledger := u.tx.ledger.take } }
  | .txInProgress byte =>
    if u.tx.inProgress then u.returnPut byte .errorBusy else { u with pc := .txLength byte }
  | .txLength byte => { u with pc := .txCounter byte, tx := { u.tx with bufferLength := 1 } }
  | .txCounter byte => { u with pc := .txStart byte, tx := { u.tx with counter := 0 } }
  | .txStart byte => { u with pc := .txLoad byte, tx := { u.tx with txdrdy := false } }
  | .txLoad byte => { u with pc := .txSet byte u.tx.loadByte.1, tx := u.tx.loadByte.2 }
  | .txSet byte txd => { u with tx := u.tx.setTxd txd }.returnPut byte .success
  | _ => u

/-- The next access of `app_uart_get` and of `nrf_drv_uart_rx` below it. -/
def AppUart.getStep (u : AppUart n m) : Pc → AppUart n m
  | .getOvf => { u with pc := .getGet u.rx.rxOvf }
  | .getGet rxOvf =>
    if fifoLength u.rx.fifo ≠ 0 then { u with pc := .getAdvance rxOvf (fifoPeek u.rx.fifo 0) }
    else { u with pc := .getResume rxOvf none }
  | .getAdvance rxOvf byte =>
    { u with
      pc := .getResume rxOvf (some byte)
      rx := { u.rx with fifo := (fifoGet u.rx.fifo).2, ledger := u.rx.ledger.take } }
  | .getResume rxOvf out =>
    if rxOvf then { u with pc := .rxMask out, rx := { u.rx with rxOvf := false } }
    else u.returnGet out
  | .rxMask out => { u with pc := .rxTest out, rx := u.rx.setInten false }
  | .rxTest out =>
    if u.rx.bufferLength ≠ 0 then
      if u.rx.secondaryLength ≠ 0 then { u with rx := u.rx.setInten true }.returnGet out
      else { u with pc := .rxSecondary out }
    else { u with pc := .rxLength out }
  | .rxSecondary out => { u with pc := .rxUnmask out, rx := { u.rx with secondaryLength := 1 } }
  | .rxLength out => { u with pc := .rxCounter out, rx := { u.rx with bufferLength := 1 } }
  | .rxCounter out =>
    { u with pc := .rxUnmask out, rx := { u.rx with counter := 0, secondaryLength := 0 } }
  | .rxUnmask out => { u with rx := u.rx.setInten true }.returnGet out
  | _ => u

/-- The next access of `app_uart_flush`. -/
def AppUart.flushStep (u : AppUart n m) : Pc → AppUart n m
  | .flushRx => { u with pc := .flushRxStore u.rx.fifo.writePos }
  | .flushRxStore writePos =>
    { u with
      pc := .flushTx
      rx := { u.rx with
        fifo := flushTo u.rx.fifo writePos
        ledger := u.rx.ledger.discardMany (writePos - u.rx.fifo.readPos).toNat } }
  | .flushTx => { u with pc := .flushTxStore u.tx.fifo.writePos }
  | .flushTxStore writePos =>
    { u with
      pc := .idle
      tx := { u.tx with
        fifo := flushTo u.tx.fifo writePos
        ledger := u.tx.ledger.discardMany (writePos - u.tx.fifo.readPos).toNat } }
  | _ => u

/-- The function that a call is in. -/
inductive UartFunction where
  | none
  | put
  | get
  | flush
deriving DecidableEq

def Pc.function : Pc → UartFunction
  | .idle => .none
  | .putLength _ | .putTest _ _ | .putStore _ | .putAdvance _ | .putInProgress _ | .putGet _
  | .putGetAdvance _ | .txInProgress _ | .txLength _ | .txCounter _ | .txStart _ | .txLoad _
  | .txSet _ _ => .put
  | .getOvf | .getGet _ | .getAdvance _ _ | .getResume _ _ | .rxMask _ | .rxTest _
  | .rxSecondary _ | .rxLength _ | .rxCounter _ | .rxUnmask _ => .get
  | .flushRx | .flushRxStore _ | .flushTx | .flushTxStore _ => .flush

/-- **The call goes one access further.** -/
def AppUart.mainStep (u : AppUart n m) : AppUart n m :=
  match u.pc.function with
  | .none => u
  | .put => u.putStep u.pc
  | .get => u.getStep u.pc
  | .flush => u.flushStep u.pc

/-! ## §4 The machine -/

/-- `uart_irq_handler` -/
def AppUart.irqHandler (u : AppUart n m) (error : Option (BitVec 32)) (rxd : Option (BitVec 8)) :
    AppUart n m :=
  { u with
    rx := (u.rx.irqHandler error rxd).2
    tx := u.tx.irqHandler.2
    events := u.events ++ (u.rx.irqHandler error rxd).1 ++ u.tx.irqHandler.1 }

/-- What can happen. -/
inductive UartLabel where
  | call (call : UartCall)
  | main
  /-- The shift register is empty again. -/
  | shifted
  | irq (error : Option (BitVec 32)) (rxd : Option (BitVec 8))
deriving DecidableEq

/-- The state after a label. -/
def AppUart.step (u : AppUart n m) : UartLabel → AppUart n m
  | .call call => { u with pc := call.entry }
  | .main => u.mainStep
  | .shifted => { u with tx := { u.tx with shifting := false, txdrdy := true } }
  | .irq error rxd => u.irqHandler error rxd

/-- When it can happen. -/
def UartLabel.Enabled (u : AppUart n m) : UartLabel → Prop
  | .call _ => u.pc = .idle
  | .main => u.pc ≠ .idle
  | .shifted => u.tx.shifting = true
  | .irq _ _ => True

instance (u : AppUart n m) : DecidablePred (UartLabel.Enabled u)
  | .call _ => (inferInstance : Decidable (u.pc = .idle))
  | .main => (inferInstance : Decidable (u.pc ≠ .idle))
  | .shifted => (inferInstance : Decidable (u.tx.shifting = true))
  | .irq _ _ => (inferInstance : Decidable True)

/-- `app_uart_init` with two FIFOs; `rxPin` tells whether there is a pin to receive on, and then the
    first byte is requested. -/
def appUartInit (txFifo : AppFifo n) (rxFifo : AppFifo m) (rxPin : Bool) : AppUart n m where
  pc := .idle
  tx := ⟨txFifo, .replicate 1 0, 0, 0, false, false, [], .empty⟩
  rx :=
    let r : RxSide m := ⟨rxFifo, .replicate 1 0, false, 0, 0, 0, false, [], .empty⟩
    if rxPin then (nrfDrvUartRx r 1).2 else r
  puts := []
  gets := []
  events := []

/-- **The application, the interrupt and the shift register.** -/
def uartMachine (n m : ℕ) (rxPin : Bool) : Machine (AppUart n m) UartLabel where
  start u := ∃ (txFifo : AppFifo n) (rxFifo : AppFifo m), txFifo.Holds [] ∧ rxFifo.Holds [] ∧
    u = appUartInit txFifo rxFifo rxPin
  enabled u label := label.Enabled u
  step := AppUart.step

instance (rxPin : Bool) (u : AppUart n m) (label : UartLabel) :
    Decidable ((uartMachine n m rxPin).enabled u label) :=
  inferInstanceAs (Decidable (label.Enabled u))

end NordicEsb.Uart
