import NordicEsb.Esb.Handlers

/-!
# The Module's Interface

The public functions of `nrf_esb.h`. Each returns its error code together with
the new module state; a rejected call returns the state it was given. A null
argument pointer is `none`.

`EsbCall` names every call together with the two interrupts, and `Esb.exec` runs
one of them. Each call is one step: the sections between `DISABLE_RF_IRQ` and
`ENABLE_RF_IRQ` are not interrupted by the radio.
-/

namespace NordicEsb

/-! ## §1 Initialisation -/

/-- The module variables and registers after a reset, before any call. -/
def Esb.reset : Esb where
  esbInitialized := false
  mainstate := .idle
  currentPayload := none
  esbAddr := nrfEsbAddrDefault
  configLocal :=
    { protocol := .esb, mode := .ptx, eventHandler := false, bitrate := .bitrate1Mbps
      crc := .crcOff, txOutputPower := .zeroDbm, retransmitDelay := 0, retransmitCount := 0
      txMode := .auto, radioIrqPriority := 0, eventIrqPriority := 0, payloadLength := 0
      selectiveAutoAck := false }
  txFifo := { slots := default, entryPoint := 0, exitPoint := 0, count := 0 }
  rxFifo := { slots := default, entryPoint := 0, exitPoint := 0, count := 0 }
  fifoPointersSet := false
  txPayloadBuffer := default
  rxPayloadBuffer := default
  interruptFlags := .clear
  pids := default
  rxPipeInfo := default
  retransmitsRemaining := 0
  lastTxAttempts := 0
  waitForAckTimeoutUs := 0
  onRadioDisabled := none
  updateRfPayloadFormat := none
  nullCall := false
  radio :=
    { disabledShort := .none, intensetDisabled := false, task := .disable, packetptr := .rxBuffer
      pcnf := none, txaddress := 0, rxaddresses := 0, frequency := 0, base0 := 0, base1 := 0
      prefix0 := 0, prefix1 := 0, mode := .bitrate1Mbps, txpower := .zeroDbm, crccnf := .crcOff
      eventsEnd := false, crcstatus := false, rxmatch := 0, rxcrc := 0, rssisample := 0 }
  sysTimer := { cc0 := 0, cc1 := 0 }
  ppi := { timerStart := false, timerStop := false, rxTimeout := false, txStart := false }
  evtIrqPending := false
  evtIrqEnabled := false

/-- `reset_fifos` -/
def resetFifos (s : Esb) : Esb :=
  { s with txFifo := s.txFifo.clear, rxFifo := s.rxFifo.clear }

/-- `initialize_fifos` -/
def initializeFifos (s : Esb) : Esb := { resetFifos s with fifoPointersSet := true }

/-- Clearing all four PPI channels of the module. -/
def clearPpi (s : Esb) : Esb :=
  { s with ppi := { timerStart := false, timerStop := false, rxTimeout := false, txStart := false } }

/-- `nrf_esb_disable`, which always returns `NRF_SUCCESS`. -/
def nrfEsbDisable (s : Esb) : Esb :=
  let s := clearPpi s
  let s := resetFifos { s with mainstate := .idle }
  { s with
    rxPipeInfo := default
    pids := default
    evtIrqEnabled := false
    radio := { s.radio with disabledShort := .none } }

/-- `nrf_esb_init` -/
def nrfEsbInit (pConfig : Option NrfEsbConfig) (s : Esb) : RetCode × Esb :=
  match pConfig with
  | none => (.errorNull, s)
  | some cfg =>
    let s := if s.esbInitialized then nrfEsbDisable s else s
    let s := { s with
      configLocal := cfg
      interruptFlags := .clear
      rxPipeInfo := default
      pids := default }
    let s := updateRadioParameters s
    let s := initializeFifos s
    (.success, { s with evtIrqEnabled := true, mainstate := .idle, esbInitialized := true })

/-- The module after power-up and `nrf_esb_init` with `cfg`. -/
def initialised (cfg : NrfEsbConfig) : Esb := (nrfEsbInit (some cfg) Esb.reset).2

/-- `nrf_esb_suspend` -/
def nrfEsbSuspend (s : Esb) : RetCode × Esb :=
  if s.mainstate ≠ .idle then (.errorBusy, s)
  else (.success, { clearPpi s with mainstate := .idle })

/-- `nrf_esb_is_idle` -/
def nrfEsbIsIdle (s : Esb) : Bool := s.mainstate == .idle

/-! ## §2 Payloads -/

/-- The test of `VERIFY_PAYLOAD_LENGTH`. -/
def payloadLengthValid (cfg : NrfEsbConfig) (p : NrfEsbPayload) : Bool :=
  !(p.length == 0 || decide (p.length.toNat > nrfEsbMaxPayloadLength) ||
    (cfg.protocol == .esb && decide (p.length > cfg.payloadLength)))

/-- `(m_pids[pipe] + 1) % (NRF_ESB_PID_MAX + 1)` -/
def nextPid (s : Esb) (pipe : UInt8) : UInt8 := (s.pids.get pipe.toNat + 1) % (nrfEsbPidMax + 1)

/-- The part of `nrf_esb_write_payload` that runs with the radio interrupt disabled. -/
def enqueuePayload (p : NrfEsbPayload) (s : Esb) : Esb :=
  { s with
    txFifo := s.txFifo.push { p with pid := nextPid s p.pipe }
    pids := s.pids.set p.pipe.toNat (nextPid s p.pipe) }

/-- Does `nrf_esb_write_payload` start a transmission by itself? -/
def autoStarts (s : Esb) : Bool :=
  s.configLocal.mode == .ptx && s.configLocal.txMode == .auto && s.mainstate == .idle

/-- `nrf_esb_write_payload` -/
def nrfEsbWritePayload (pPayload : Option NrfEsbPayload) (s : Esb) : RetCode × Esb :=
  if !s.esbInitialized then (.errorInvalidState, s)
  else
    match pPayload with
    | none => (.errorNull, s)
    | some p =>
      if !payloadLengthValid s.configLocal p then (.errorInvalidLength, s)
      else if s.txFifo.count ≥ nrfEsbTxFifoSize then (.errorNoMem, s)
      else if s.configLocal.mode = .ptx ∧ p.noack ≠ 0 ∧ s.configLocal.selectiveAutoAck = false then
        (.errorNotSupported, s)
      else
        let s := enqueuePayload p s
        if autoStarts s then (.success, startTxTransaction s) else (.success, s)

/-- The caller's payload after `nrf_esb_read_rx_payload` copied `src` to it. -/
def copyRxPayload (dst src : NrfEsbPayload) : NrfEsbPayload :=
  { dst with
    length := src.length
    pipe := src.pipe
    rssi := src.rssi
    pid := src.pid
    data := dst.data.copy src.data src.length.toNat }

/-- `nrf_esb_read_rx_payload`: the error code, the caller's payload and the state. -/
def nrfEsbReadRxPayload (pPayload : Option NrfEsbPayload) (s : Esb) :
    RetCode × Option NrfEsbPayload × Esb :=
  if !s.esbInitialized then (.errorInvalidState, pPayload, s)
  else
    match pPayload with
    | none => (.errorNull, none, s)
    | some p =>
      if s.rxFifo.count = 0 then (.errorNotFound, some p, s)
      else
        (.success, some (copyRxPayload p s.rxFifo.head), { s with rxFifo := s.rxFifo.dropHead })

/-- `nrf_esb_flush_tx` -/
def nrfEsbFlushTx (s : Esb) : RetCode × Esb :=
  if !s.esbInitialized then (.errorInvalidState, s)
  else (.success, { s with txFifo := s.txFifo.clear })

/-- `nrf_esb_pop_tx`: it steps the *entry* point. -/
def nrfEsbPopTx (s : Esb) : RetCode × Esb :=
  if !s.esbInitialized then (.errorInvalidState, s)
  else if s.txFifo.count = 0 then (.errorBufferEmpty, s)
  else
    (.success, { s with
      txFifo := { s.txFifo with
        entryPoint := RingQueue.advance nrfEsbTxFifoSize s.txFifo.entryPoint
        count := s.txFifo.count - 1 } })

/-- `nrf_esb_flush_rx` -/
def nrfEsbFlushRx (s : Esb) : RetCode × Esb :=
  if !s.esbInitialized then (.errorInvalidState, s)
  else (.success, { s with rxFifo := s.rxFifo.clear, rxPipeInfo := default })

/-! ## §3 Starting and stopping the radio -/

/-- `nrf_esb_start_tx` -/
def nrfEsbStartTx (s : Esb) : RetCode × Esb :=
  if s.mainstate ≠ .idle then (.errorBusy, s)
  else if s.txFifo.count = 0 then (.errorBufferEmpty, s)
  else (.success, startTxTransaction s)

/-- `nrf_esb_start_rx` -/
def nrfEsbStartRx (s : Esb) : RetCode × Esb :=
  if s.mainstate ≠ .idle then (.errorBusy, s)
  else
    (.success, { s with
      onRadioDisabled := some .rx
      mainstate := .prx
      radio := { s.radio with
        disabledShort := .txen
        intensetDisabled := true
        rxaddresses := s.esbAddr.rxPipesEnabled.toUInt32
        frequency := s.esbAddr.rfChannel
        packetptr := .rxBuffer
        task := .rxen } })

/-- `nrf_esb_stop_rx` -/
def nrfEsbStopRx (s : Esb) : RetCode × Esb :=
  if s.mainstate = .prx then
    (.success, { s with
      onRadioDisabled := none
      mainstate := .idle
      radio := { s.radio with disabledShort := .none, intensetDisabled := false, task := .disable } })
  else (.errorNotInRxMode, s)

/-! ## §4 Setters -/

/-- `nrf_esb_set_address_length` -/
def nrfEsbSetAddressLength (length : UInt8) (s : Esb) : RetCode × Esb :=
  if s.mainstate ≠ .idle then (.errorBusy, s)
  else if ¬ (length > 2 ∧ length < 6) then (.errorInvalidParam, s)
  else
    let s := { s with esbAddr := { s.esbAddr with addrLength := length } }
    (.success, callUpdateRfPayloadFormat s.configLocal.payloadLength s)

/-- `nrf_esb_set_base_address_0` -/
def nrfEsbSetBaseAddress0 (pAddr : Option (FixedArray 4 UInt8)) (s : Esb) : RetCode × Esb :=
  if s.mainstate ≠ .idle then (.errorBusy, s)
  else
    match pAddr with
    | none => (.errorNull, s)
    | some addr =>
      (.success, updateRadioBase0 { s with esbAddr := { s.esbAddr with baseAddrP0 := addr } })

/-- `nrf_esb_set_base_address_1` -/
def nrfEsbSetBaseAddress1 (pAddr : Option (FixedArray 4 UInt8)) (s : Esb) : RetCode × Esb :=
  if s.mainstate ≠ .idle then (.errorBusy, s)
  else
    match pAddr with
    | none => (.errorNull, s)
    | some addr =>
      (.success, updateRadioBase1 { s with esbAddr := { s.esbAddr with baseAddrP1 := addr } })

/-- `BIT_MASK_UINT_8` -/
def bitMaskUInt8 (x : UInt8) : UInt8 := (0xFF >>> (8 - x.toUInt32)).toUInt8

/-- `nrf_esb_set_prefixes` -/
def nrfEsbSetPrefixes (pPrefixes : Option (FixedArray 8 UInt8)) (numPipes : UInt8) (s : Esb) :
    RetCode × Esb :=
  if s.mainstate ≠ .idle then (.errorBusy, s)
  else
    match pPrefixes with
    | none => (.errorNull, s)
    | some prefixes =>
      if ¬ numPipes < 9 then (.errorInvalidParam, s)
      else
        (.success, updateRadioPrefixes { s with
          esbAddr := { s.esbAddr with
            pipePrefixes := s.esbAddr.pipePrefixes.copy prefixes numPipes.toNat
            numPipes := numPipes
            rxPipesEnabled := bitMaskUInt8 numPipes } })

/-- `nrf_esb_update_prefix` -/
def nrfEsbUpdatePrefix (pipe pfx : UInt8) (s : Esb) : RetCode × Esb :=
  if s.mainstate ≠ .idle then (.errorBusy, s)
  else if ¬ pipe < 8 then (.errorInvalidParam, s)
  else
    (.success, updateRadioPrefixes { s with
      esbAddr := { s.esbAddr with pipePrefixes := s.esbAddr.pipePrefixes.set pipe.toNat pfx } })

/-- `nrf_esb_enable_pipes` -/
def nrfEsbEnablePipes (enableMask : UInt8) (s : Esb) : RetCode × Esb :=
  if s.mainstate ≠ .idle then (.errorBusy, s)
  else (.success, { s with esbAddr := { s.esbAddr with rxPipesEnabled := enableMask } })

/-- `nrf_esb_set_rf_channel` -/
def nrfEsbSetRfChannel (channel : UInt32) (s : Esb) : RetCode × Esb :=
  if s.mainstate ≠ .idle then (.errorBusy, s)
  else if ¬ channel ≤ 125 then (.errorInvalidParam, s)
  else (.success, { s with esbAddr := { s.esbAddr with rfChannel := channel.toUInt8 } })

/-- `nrf_esb_get_rf_channel` -/
def nrfEsbGetRfChannel (s : Esb) : UInt32 := s.esbAddr.rfChannel.toUInt32

/-- `nrf_esb_set_tx_power` -/
def nrfEsbSetTxPower (txOutputPower : NrfEsbTxPower) (s : Esb) : RetCode × Esb :=
  if s.mainstate ≠ .idle then (.errorBusy, s)
  else if s.configLocal.txOutputPower ≠ txOutputPower then
    (.success, updateRadioTxPower
      { s with configLocal := { s.configLocal with txOutputPower := txOutputPower } })
  else (.success, s)

/-! ## §5 The event interrupt -/

/-- `nrf_esb_evt_id_t` -/
inductive NrfEsbEvtId where
  | txSuccess
  | txFailed
  | rxReceived
deriving DecidableEq, Repr

/-- `nrf_esb_evt_t` -/
structure NrfEsbEvt where
  evtId : NrfEsbEvtId
  txAttempts : UInt32
deriving DecidableEq, Repr

/-- The events `ESB_EVT_IRQHandler` passes to the handler, in this order. -/
def InterruptFlags.events (f : InterruptFlags) (txAttempts : UInt32) : List NrfEsbEvt :=
  (if f.txSuccess then [⟨.txSuccess, txAttempts⟩] else []) ++
    (if f.txFailed then [⟨.txFailed, txAttempts⟩] else []) ++
    (if f.rxDataReceived then [⟨.rxReceived, txAttempts⟩] else [])

/-- `ESB_EVT_IRQHandler` up to the calls of the event handler: the flags are read and
    cleared first, so the events of one run are fixed before the handler runs. -/
def esbEvtIrqHandler (s : Esb) : List NrfEsbEvt × Esb :=
  let s := { s with evtIrqPending := false }
  if !s.esbInitialized then ([], s)
  else
    let events := s.interruptFlags.events s.lastTxAttempts
    let s := { s with interruptFlags := .clear }
    if s.configLocal.eventHandler then (events, s) else ([], s)

/-! ## §6 One step of the module -/

/-- A call of the interface or an interrupt. -/
inductive EsbCall where
  | init (pConfig : Option NrfEsbConfig)
  | suspend
  | disable
  | writePayload (pPayload : Option NrfEsbPayload)
  | readRxPayload (pPayload : Option NrfEsbPayload)
  | startTx
  | startRx
  | stopRx
  | flushTx
  | popTx
  | flushRx
  | setAddressLength (length : UInt8)
  | setBaseAddress0 (pAddr : Option (FixedArray 4 UInt8))
  | setBaseAddress1 (pAddr : Option (FixedArray 4 UInt8))
  | setPrefixes (pPrefixes : Option (FixedArray 8 UInt8)) (numPipes : UInt8)
  | updatePrefix (pipe pfx : UInt8)
  | enablePipes (enableMask : UInt8)
  | setRfChannel (channel : UInt32)
  | setTxPower (txOutputPower : NrfEsbTxPower)
  | evtIrq
  | radioIrq (ev : RadioEvent)

/-- Run one call: its error code and the new state. -/
def Esb.call (s : Esb) : EsbCall → RetCode × Esb
  | .init pConfig => nrfEsbInit pConfig s
  | .suspend => nrfEsbSuspend s
  | .disable => (.success, nrfEsbDisable s)
  | .writePayload pPayload => nrfEsbWritePayload pPayload s
  | .readRxPayload pPayload =>
    let (err, _, s) := nrfEsbReadRxPayload pPayload s
    (err, s)
  | .startTx => nrfEsbStartTx s
  | .startRx => nrfEsbStartRx s
  | .stopRx => nrfEsbStopRx s
  | .flushTx => nrfEsbFlushTx s
  | .popTx => nrfEsbPopTx s
  | .flushRx => nrfEsbFlushRx s
  | .setAddressLength length => nrfEsbSetAddressLength length s
  | .setBaseAddress0 pAddr => nrfEsbSetBaseAddress0 pAddr s
  | .setBaseAddress1 pAddr => nrfEsbSetBaseAddress1 pAddr s
  | .setPrefixes pPrefixes numPipes => nrfEsbSetPrefixes pPrefixes numPipes s
  | .updatePrefix pipe pfx => nrfEsbUpdatePrefix pipe pfx s
  | .enablePipes enableMask => nrfEsbEnablePipes enableMask s
  | .setRfChannel channel => nrfEsbSetRfChannel channel s
  | .setTxPower txOutputPower => nrfEsbSetTxPower txOutputPower s
  | .evtIrq => (.success, (esbEvtIrqHandler s).2)
  | .radioIrq ev => (.success, radioIrqHandler ev s)

/-- The state after one call. -/
def Esb.exec (s : Esb) (c : EsbCall) : Esb := (s.call c).2

end NordicEsb
