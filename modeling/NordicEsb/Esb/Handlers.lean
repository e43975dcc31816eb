import NordicEsb.Esb.Radio

/-!
# Radio Interrupt Handlers

The transaction machinery of `nrf_esb.c`: building a packet
(`start_tx_transaction`), the five functions `on_radio_disabled` is pointed to,
and `RADIO_IRQHandler`, which runs the current one.

A busy-wait for the radio (`while (NRF_RADIO->EVENTS_DISABLED == 0)`) is taken to
end, and the hardware's part of an interrupt, what it leaves in the registers and
in the receive buffer, is `RadioEvent.latch`.
-/

namespace NordicEsb

/-! ## §1 FIFO operations -/

/-- `tx_fifo_remove_last` -/
def txFifoRemoveLast (s : Esb) : Esb :=
  { s with txFifo := if 0 < s.txFifo.count then s.txFifo.dropHead else s.txFifo }

/-- The length `rx_fifo_push_rfbuf` records for the packet in the receive buffer. -/
def rxPushLength (s : Esb) : UInt8 :=
  match s.configLocal.protocol with
  | .esbDpl => s.rxPayloadBuffer.byte0
  | .esb =>
    match s.configLocal.mode with
    | .ptx => 0
    | .prx => s.configLocal.payloadLength

/-- The payload `rx_fifo_push_rfbuf` leaves in the cell that held `old`. -/
def rxPushEntry (pipe pid : UInt8) (s : Esb) (old : NrfEsbPayload) : NrfEsbPayload :=
  { old with
    length := rxPushLength s
    data := old.data.copy s.rxPayloadBuffer.data (rxPushLength s).toNat
    pipe := pipe
    rssi := s.radio.rssisample
    pid := pid }

/-- The test under which `rx_fifo_push_rfbuf` stores the packet. -/
def rxPushAccepted (s : Esb) : Bool :=
  s.rxFifo.count < nrfEsbRxFifoSize &&
    !(s.configLocal.protocol == .esbDpl &&
      s.rxPayloadBuffer.byte0.toNat > nrfEsbMaxPayloadLength)

/-- `rx_fifo_push_rfbuf`: its result and the new state. -/
def rxFifoPushRfbuf (pipe pid : UInt8) (s : Esb) : Bool × Esb :=
  (rxPushAccepted s,
    { s with
      rxFifo :=
        if rxPushAccepted s then
          s.rxFifo.push (rxPushEntry pipe pid s (s.rxFifo.slots.get s.rxFifo.entryPoint))
        else s.rxFifo })

/-! ## §2 Transmission -/

/-- Does the payload go out as a packet that wants an acknowledgment? -/
def wantsAck (cfg : NrfEsbConfig) (p : NrfEsbPayload) : Bool :=
  match cfg.protocol with
  | .esb => true
  | .esbDpl => p.noack == 0 || !cfg.selectiveAutoAck

/-- The packet `start_tx_transaction` builds in `m_tx_payload_buffer`. -/
def txPacket (cfg : NrfEsbConfig) (p : NrfEsbPayload) (old : PayloadBuffer) : PayloadBuffer :=
  match cfg.protocol with
  | .esb =>
    { byte0 := p.pid
      byte1 := 0
      data := old.data.copy p.data p.length.toNat }
  | .esbDpl =>
    { byte0 := p.length
      byte1 := p.pid <<< 1 ||| (if wantsAck cfg p then 0x00 else 0x01)
      data := old.data.copy p.data p.length.toNat }

/-- `start_tx_transaction` -/
def startTxTransaction (s : Esb) : Esb :=
  let p := s.txFifo.head
  let ack := wantsAck s.configLocal p
  let s := { s with lastTxAttempts := 1, currentPayload := some s.txFifo.exitPoint }
  let s := callUpdateRfPayloadFormatIfEsb p.length s
  { s with
    txPayloadBuffer := txPacket s.configLocal p s.txPayloadBuffer
    retransmitsRemaining :=
      if ack then s.configLocal.retransmitCount.toUInt32 else s.retransmitsRemaining
    onRadioDisabled := some (if ack then .tx else .txNoack)
    mainstate := if ack then .ptxTxAck else .ptxTx
    radio := { s.radio with
      disabledShort := if ack then .rxen else .none
      intensetDisabled := true
      txaddress := p.pipe
      rxaddresses := 1 <<< p.pipe.toUInt32
      frequency := s.esbAddr.rfChannel
      packetptr := .txBuffer
      task := .txen } }

/-- The module rests and the event interrupt is made pending. -/
def finishTx (s : Esb) : Esb := { s with mainstate := .idle, evtIrqPending := true }

/-- The event interrupt is made pending and the next payload is started. -/
def startNextTx (s : Esb) : Esb := startTxTransaction { s with evtIrqPending := true }

/-- `m_interrupt_flags |= NRF_ESB_INT_TX_SUCCESS_MSK` -/
def raiseTxSuccess (s : Esb) : Esb :=
  { s with interruptFlags := { s.interruptFlags with txSuccess := true } }

/-- `on_radio_disabled_tx_noack` -/
def onRadioDisabledTxNoack (s : Esb) : Esb :=
  let s := txFifoRemoveLast (raiseTxSuccess s)
  if s.txFifo.count = 0 then finishTx s else startNextTx s

/-- `on_radio_disabled_tx`: the packet is out, open the acknowledgment window. -/
def onRadioDisabledTx (s : Esb) : Esb :=
  let s := { s with
    radio := { s.radio with disabledShort := .none, eventsEnd := false }
    sysTimer := { cc0 := s.waitForAckTimeoutUs, cc1 := s.configLocal.retransmitDelay.toUInt32 - 130 }
    ppi := { s.ppi with timerStart := true, rxTimeout := true, timerStop := true, txStart := false } }
  let s := callUpdateRfPayloadFormatIfEsb 0 s
  { s with
    radio := { s.radio with packetptr := .rxBuffer }
    onRadioDisabled := some .txWaitForAck
    mainstate := .ptxRxAck }

/-- The TX FIFO cell behind `mp_current_payload`. -/
def currentPayloadOf (s : Esb) : NrfEsbPayload :=
  match s.currentPayload with
  | none => default
  | some i => s.txFifo.slots.get i

/-- What follows a call of `rx_fifo_push_rfbuf` that returned `pushed`. -/
def raiseRxDataReceived (pushed : Bool) (s : Esb) : Esb :=
  { s with interruptFlags := { s.interruptFlags with
      rxDataReceived := s.interruptFlags.rxDataReceived || pushed } }

/-- Does the received acknowledgment carry a payload? -/
def hasAckPayload (s : Esb) : Bool :=
  s.configLocal.protocol != .esb && decide (0 < s.rxPayloadBuffer.byte0)

/-- Store the payload of a received acknowledgment. -/
def receiveAckPayload (s : Esb) : Esb :=
  let (pushed, s) := rxFifoPushRfbuf s.radio.txaddress 0 s
  raiseRxDataReceived pushed s

/-- The registers and counters `on_radio_disabled_tx_wait_for_ack` sets when an
    acknowledgment came. -/
def noteAck (s : Esb) : Esb :=
  raiseTxSuccess { s with
    ppi := { s.ppi with txStart := false }
    lastTxAttempts := s.configLocal.retransmitCount.toUInt32 - s.retransmitsRemaining + 1 }

/-- The branch of `on_radio_disabled_tx_wait_for_ack` taken when an acknowledgment came. -/
def onAckReceived (s : Esb) : Esb :=
  let s := txFifoRemoveLast (noteAck s)
  let s := if hasAckPayload s then receiveAckPayload s else s
  if s.txFifo.count = 0 ∨ s.configLocal.txMode = .manual then finishTx s else startNextTx s

/-- All retransmits are expended, and the TX operation is suspended. -/
def suspendTx (s : Esb) : Esb :=
  finishTx { s with
    ppi := { s.ppi with txStart := false }
    lastTxAttempts := s.configLocal.retransmitCount.toUInt32 + 1
    interruptFlags := { s.interruptFlags with txFailed := true } }

/-- There are more retransmits left: the system timer enters TX again when it reaches
    `CC[1]`. -/
def retransmit (s : Esb) : Esb :=
  let s := { s with radio := { s.radio with disabledShort := .rxen } }
  let s := callUpdateRfPayloadFormat (currentPayloadOf s).length s
  { s with
    radio := { s.radio with packetptr := .txBuffer }
    onRadioDisabled := some .tx
    mainstate := .ptxTxAck
    ppi := { s.ppi with txStart := true } }

/-- The branch of `on_radio_disabled_tx_wait_for_ack` taken when the window stayed empty. -/
def onAckMissed (s : Esb) : Esb :=
  let remaining := s.retransmitsRemaining
  let s := { s with retransmitsRemaining := remaining - 1 }
  if remaining = 0 then suspendTx s else retransmit s

/-- `on_radio_disabled_tx_wait_for_ack` -/
def onRadioDisabledTxWaitForAck (s : Esb) : Esb :=
  let s := { s with ppi := { s.ppi with timerStart := false, rxTimeout := false, timerStop := false } }
  if s.radio.eventsEnd && s.radio.crcstatus then onAckReceived s else onAckMissed s

/-! ## §3 Reception -/

/-- `clear_events_restart_rx` -/
def clearEventsRestartRx (s : Esb) : Esb :=
  let s := { s with radio := { s.radio with disabledShort := .none } }
  let s := callUpdateRfPayloadFormat s.configLocal.payloadLength s
  { s with radio := { s.radio with packetptr := .rxBuffer, disabledShort := .txen, task := .rxen } }

/-- The pipe number in `RXMATCH` as the byte the code stores. -/
def rxmatchByte (s : Esb) : UInt8 := s.radio.rxmatch.val.toUInt8

/-- `&m_rx_pipe_info[NRF_RADIO->RXMATCH]` -/
def matchedPipeInfo (s : Esb) : PipeInfo := s.rxPipeInfo.get s.radio.rxmatch.val

/-- The PID field of the received packet. -/
def receivedPid (s : Esb) : UInt8 := s.rxPayloadBuffer.byte1 >>> 1

/-- `retransmit_payload`: PID and CRC equal those of the pipe's last packet. -/
def retransmitPayload (s : Esb) : Bool :=
  s.radio.rxcrc == (matchedPipeInfo s).crc && receivedPid s == (matchedPipeInfo s).pid

/-- `ack`: must the received packet be acknowledged? -/
def ackRequested (s : Esb) : Bool :=
  s.configLocal.selectiveAutoAck == false || (s.rxPayloadBuffer.byte1 &&& 0x01) == 0

/-- Is the payload at the head of the TX FIFO meant for the pipe of the received packet? -/
def ackPayloadMatches (s : Esb) : Bool :=
  decide (0 < s.txFifo.count) && s.txFifo.head.pipe == rxmatchByte s

/-- Is the head of the TX FIFO taken for an ACK payload that has been delivered? -/
def ackPayloadDelivered (s : Esb) : Bool :=
  ackPayloadMatches s && (matchedPipeInfo s).ackPayload && !retransmitPayload s

/-- `p_pipe_info->ack_payload = b` -/
def setAckPayload (b : Bool) (s : Esb) : Esb :=
  { s with
    rxPipeInfo := s.rxPipeInfo.set s.radio.rxmatch.val { matchedPipeInfo s with ackPayload := b } }

/-- The ACK payload at the head has been delivered: remove it and report TX success. -/
def removeAckPayload (s : Esb) : Esb := raiseTxSuccess { s with txFifo := s.txFifo.dropHead }

/-- Load the payload at the exit point of the TX FIFO into the acknowledgment. -/
def loadAckPayload (s : Esb) : Esb :=
  let s := setAckPayload true s
  let s := { s with currentPayload := some s.txFifo.exitPoint }
  let p := s.txFifo.head
  let s := callUpdateRfPayloadFormat p.length s
  { s with
    txPayloadBuffer := { s.txPayloadBuffer with
      byte0 := p.length
      data := s.txPayloadBuffer.data.copy p.data p.length.toNat } }

/-- The acknowledgment carries no payload. -/
def loadEmptyAck (s : Esb) : Esb :=
  let s := setAckPayload false s
  let s := callUpdateRfPayloadFormat 0 s
  { s with txPayloadBuffer := { s.txPayloadBuffer with byte0 := 0 } }

/-- Copy byte 1 of the received packet into the acknowledgment. -/
def echoByte1 (s : Esb) : Esb :=
  { s with txPayloadBuffer := { s.txPayloadBuffer with byte1 := s.rxPayloadBuffer.byte1 } }

/-- The acknowledgment `on_radio_disabled_rx` builds for DPL; `retransmit` is the local
    `retransmit_payload`. -/
def prepareAckDpl (retransmit : Bool) (s : Esb) : Esb :=
  if ackPayloadMatches s then
    -- pipe stays in ACK with payload until TX FIFO is empty;
    -- do not report TX success on first ack payload or retransmit
    if (matchedPipeInfo s).ackPayload && !retransmit then
      echoByte1 (loadAckPayload (removeAckPayload s))
    else
      echoByte1 (loadAckPayload s)
  else
    echoByte1 (loadEmptyAck s)

/-- The acknowledgment `on_radio_disabled_rx` builds for the fixed-length protocol. -/
def prepareAckEsb (s : Esb) : Esb :=
  let s := callUpdateRfPayloadFormat 0 s
  { s with
    txPayloadBuffer := { s.txPayloadBuffer with byte0 := s.rxPayloadBuffer.byte0, byte1 := 0 } }

/-- Send the prepared acknowledgment on the pipe of the received packet. -/
def sendAck (s : Esb) : Esb :=
  { s with
    mainstate := .prxSendAck
    radio := { s.radio with
      disabledShort := .rxen, txaddress := rxmatchByte s, packetptr := .txBuffer }
    onRadioDisabled := some .rxAck }

/-- The `if (ack)` branch of `on_radio_disabled_rx`. -/
def prepareAck (retransmit : Bool) (s : Esb) : Esb :=
  match s.configLocal.protocol with
  | .esbDpl => sendAck (prepareAckDpl retransmit s)
  | .esb => sendAck (prepareAckEsb s)

/-- `p_pipe_info->pid = ...; p_pipe_info->crc = ...` -/
def notePidAndCrc (s : Esb) : Esb :=
  { s with
    rxPipeInfo := s.rxPipeInfo.set s.radio.rxmatch.val
      { matchedPipeInfo s with pid := receivedPid s, crc := s.radio.rxcrc } }

/-- The `if (send_rx_event)` part of `on_radio_disabled_rx`. -/
def pushReceived (s : Esb) : Esb :=
  let (pushed, s) := rxFifoPushRfbuf (rxmatchByte s) (matchedPipeInfo s).pid s
  raiseRxDataReceived pushed { s with evtIrqPending := s.evtIrqPending || pushed }

/-- The `if (ack) ... else ...` part of `on_radio_disabled_rx`. -/
def acknowledge (retransmit : Bool) (s : Esb) : Esb :=
  if ackRequested s then prepareAck retransmit s else clearEventsRestartRx s

/-- `on_radio_disabled_rx` -/
def onRadioDisabledRx (s : Esb) : Esb :=
  if !s.radio.crcstatus then clearEventsRestartRx s
  else if s.rxFifo.count ≥ nrfEsbRxFifoSize then clearEventsRestartRx s
  else if retransmitPayload s then acknowledge true (notePidAndCrc s)
  else pushReceived (acknowledge false (notePidAndCrc s))

/-- `on_radio_disabled_rx_ack` -/
def onRadioDisabledRxAck (s : Esb) : Esb :=
  let s := { s with radio := { s.radio with disabledShort := .txen } }
  let s := callUpdateRfPayloadFormat s.configLocal.payloadLength s
  { s with
    radio := { s.radio with packetptr := .rxBuffer }
    onRadioDisabled := some .rx
    mainstate := .prx }

/-! ## §4 The interrupt -/

/-- A packet on the air: the pipe its address belongs to, the two header bytes and the
    payload bytes. -/
structure AirPacket where
  pipe : Fin 8
  byte0 : UInt8
  byte1 : UInt8
  data : List UInt8
deriving DecidableEq, Repr

/-- What the radio has done when DISABLED fires: it received a packet, with or without a
    CRC error, or none. -/
structure RadioEvent where
  packet : Option AirPacket
  crcOk : Bool
  rxcrc : UInt16
  rssisample : UInt8
deriving DecidableEq, Repr

/-- A DISABLED event before which nothing was received. -/
def RadioEvent.silent : RadioEvent := ⟨none, false, 0, 0⟩

/-- A packet received without a CRC error. -/
def RadioEvent.received (pkt : AirPacket) (rxcrc : UInt16) : RadioEvent := ⟨some pkt, true, rxcrc, 0⟩

/-- The registers and the receive buffer as the radio leaves them. -/
def RadioEvent.latch (ev : RadioEvent) (s : Esb) : Esb :=
  match ev.packet with
  | none => { s with radio := { s.radio with eventsEnd := false, crcstatus := false } }
  | some pkt =>
    { s with
      radio := { s.radio with
        eventsEnd := true
        crcstatus := ev.crcOk
        rxmatch := pkt.pipe
        rxcrc := ev.rxcrc
        rssisample := ev.rssisample }
      rxPayloadBuffer := {
        byte0 := pkt.byte0
        byte1 := pkt.byte1
        data := s.rxPayloadBuffer.data.load pkt.data } }

/-- The call `on_radio_disabled()`. -/
def callOnRadioDisabled (s : Esb) : Esb :=
  match s.onRadioDisabled with
  | none => s
  | some .txNoack => onRadioDisabledTxNoack s
  | some .tx => onRadioDisabledTx s
  | some .txWaitForAck => onRadioDisabledTxWaitForAck s
  | some .rx => onRadioDisabledRx s
  | some .rxAck => onRadioDisabledRxAck s

/-- `RADIO_IRQHandler` for the DISABLED event. -/
def radioIrqHandler (ev : RadioEvent) (s : Esb) : Esb :=
  let s := ev.latch s
  if s.radio.intensetDisabled then callOnRadioDisabled s else s

end NordicEsb
