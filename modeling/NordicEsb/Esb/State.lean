import NordicEsb.Lib.RingQueue

/-!
# State of the Enhanced ShockBurst Module

The data model of `nrf_esb.h` and the module state of `nrf_esb.c`: payloads,
configuration, addresses, the two FIFOs, the two packet buffers, the per-pipe
PID and CRC bookkeeping, and the registers of the radio, the system timer and
the PPI that the module reads or writes.

- Bytes and the 16-bit configuration values have their machine types; FIFO
  indices and counters are natural numbers, so that the code's own comparisons
  are what keeps them in range.
- A function pointer is an `Option`: `none` is the null pointer of a fresh boot.
- `NRF_RADIO` has two kinds of fields, those the module writes and those the
  radio hardware writes (`rxmatch`, `rxcrc`, `crcstatus`, ...).
-/

namespace NordicEsb

/-! ## §1 Constants -/

/-- `NRF_ESB_MAX_PAYLOAD_LENGTH` -/
abbrev nrfEsbMaxPayloadLength : ℕ := 32
/-- `NRF_ESB_TX_FIFO_SIZE` -/
abbrev nrfEsbTxFifoSize : ℕ := 8
/-- `NRF_ESB_RX_FIFO_SIZE` -/
abbrev nrfEsbRxFifoSize : ℕ := 8
/-- `NRF_ESB_PIPE_COUNT` -/
abbrev nrfEsbPipeCount : ℕ := 9
/-- `NRF_ESB_PID_MAX` -/
abbrev nrfEsbPidMax : UInt8 := 3

/-- `RX_WAIT_FOR_ACK_TIMEOUT_US_2MBPS` -/
abbrev rxWaitForAckTimeoutUs2Mbps : UInt32 := 48
/-- `RX_WAIT_FOR_ACK_TIMEOUT_US_1MBPS` -/
abbrev rxWaitForAckTimeoutUs1Mbps : UInt32 := 64
/-- `RX_WAIT_FOR_ACK_TIMEOUT_US_250KBPS` -/
abbrev rxWaitForAckTimeoutUs250Kbps : UInt32 := 250
/-- `RX_WAIT_FOR_ACK_TIMEOUT_US_1MBPS_BLE` -/
abbrev rxWaitForAckTimeoutUs1MbpsBle : UInt32 := 64

/-- The error codes the module returns (`nrf_error.h`, `nrf_esb_error_codes.h`). -/
inductive RetCode where
  | success
  | errorNoMem
  | errorNotFound
  | errorNotSupported
  | errorInvalidParam
  | errorInvalidState
  | errorInvalidLength
  | errorNull
  | errorBusy
  | errorBufferEmpty
  | errorNotInRxMode
deriving DecidableEq, Repr

/-! ## §2 Configuration -/

/-- `nrf_esb_protocol_t` -/
inductive NrfEsbProtocol where
  | esb
  | esbDpl
deriving DecidableEq, Repr, Inhabited

/-- `nrf_esb_mode_t` -/
inductive NrfEsbMode where
  | ptx
  | prx
deriving DecidableEq, Repr, Inhabited

/-- `nrf_esb_bitrate_t` -/
inductive NrfEsbBitrate where
  | bitrate2Mbps
  | bitrate1Mbps
  | bitrate250Kbps
  | bitrate1MbpsBle
deriving DecidableEq, Repr, Inhabited

/-- `nrf_esb_crc_t` -/
inductive NrfEsbCrc where
  | crc16Bit
  | crc8Bit
  | crcOff
deriving DecidableEq, Repr, Inhabited

/-- `nrf_esb_tx_power_t` -/
inductive NrfEsbTxPower where
  | pos4Dbm
  | zeroDbm
  | neg4Dbm
  | neg8Dbm
  | neg12Dbm
  | neg16Dbm
  | neg20Dbm
  | neg30Dbm
deriving DecidableEq, Repr, Inhabited

/-- `nrf_esb_tx_mode_t` -/
inductive NrfEsbTxMode where
  | auto
  | manual
  | manualStart
deriving DecidableEq, Repr, Inhabited

/-- `nrf_esb_config_t`; the event handler is only tested against null here. -/
structure NrfEsbConfig where
  protocol : NrfEsbProtocol
  mode : NrfEsbMode
  eventHandler : Bool
  bitrate : NrfEsbBitrate
  crc : NrfEsbCrc
  txOutputPower : NrfEsbTxPower
  retransmitDelay : UInt16
  retransmitCount : UInt16
  txMode : NrfEsbTxMode
  radioIrqPriority : UInt8
  eventIrqPriority : UInt8
  payloadLength : UInt8
  selectiveAutoAck : Bool
deriving DecidableEq, Repr

/-- `NRF_ESB_DEFAULT_CONFIG` -/
def nrfEsbDefaultConfig : NrfEsbConfig where
  protocol := .esbDpl
  mode := .ptx
  eventHandler := false
  bitrate := .bitrate2Mbps
  crc := .crc16Bit
  txOutputPower := .zeroDbm
  retransmitDelay := 250
  retransmitCount := 0
  txMode := .auto
  radioIrqPriority := 1
  eventIrqPriority := 2
  payloadLength := 32
  selectiveAutoAck := false

/-- `nrf_esb_address_t` -/
structure NrfEsbAddress where
  baseAddrP0 : FixedArray 4 UInt8
  baseAddrP1 : FixedArray 4 UInt8
  pipePrefixes : FixedArray 8 UInt8
  numPipes : UInt8
  addrLength : UInt8
  rxPipesEnabled : UInt8
  rfChannel : UInt8
deriving DecidableEq

/-- `NRF_ESB_ADDR_DEFAULT` -/
def nrfEsbAddrDefault : NrfEsbAddress where
  baseAddrP0 := .replicate 4 0xE7
  baseAddrP1 := .replicate 4 0xC2
  pipePrefixes := .load (.replicate 8 0) [0xE7, 0xC2, 0xC3, 0xC4, 0xC5, 0xC6, 0xC7, 0xC8]
  numPipes := 8
  addrLength := 5
  rxPipesEnabled := 0xFF
  rfChannel := 2

/-! ## §3 Payloads, buffers and FIFOs -/

/-- The data bytes of a payload. -/
abbrev PayloadData := FixedArray nrfEsbMaxPayloadLength UInt8

/-- `nrf_esb_payload_t` -/
structure NrfEsbPayload where
  length : UInt8
  pipe : UInt8
  rssi : UInt8
  noack : UInt8
  pid : UInt8
  data : PayloadData
deriving DecidableEq, Inhabited

/-- A payload a caller has filled in: `NRF_ESB_CREATE_PAYLOAD` with a `noack` field. -/
def NrfEsbPayload.ofBytes (pipe noack : UInt8) (bytes : List UInt8) : NrfEsbPayload where
  length := bytes.length.toUInt8
  pipe := pipe
  rssi := 0
  noack := noack
  pid := 0
  data := .load (.replicate _ 0) bytes

/-- `m_tx_payload_buffer` and `m_rx_payload_buffer`: bytes 0 and 1 are the packet
    header, the others the payload. -/
structure PayloadBuffer where
  byte0 : UInt8
  byte1 : UInt8
  data : PayloadData
deriving DecidableEq, Inhabited

/-- `nrf_esb_payload_tx_fifo_t` with the storage its pointers lead to. -/
abbrev TxFifo := RingQueue nrfEsbTxFifoSize NrfEsbPayload

/-- `nrf_esb_payload_rx_fifo_t` with the storage its pointers lead to. -/
abbrev RxFifo := RingQueue nrfEsbRxFifoSize NrfEsbPayload

/-- `pipe_info_t` -/
structure PipeInfo where
  crc : UInt16
  pid : UInt8
  ackPayload : Bool
deriving DecidableEq, Repr

/-- A pipe's bookkeeping after `memset(m_rx_pipe_info, 0, ...)`. -/
instance : Inhabited PipeInfo := ⟨⟨0, 0, false⟩⟩

/-- The bits of `m_interrupt_flags`. -/
structure InterruptFlags where
  txSuccess : Bool
  txFailed : Bool
  rxDataReceived : Bool
deriving DecidableEq, Repr

/-- `m_interrupt_flags == 0` -/
def InterruptFlags.clear : InterruptFlags := ⟨false, false, false⟩

/-! ## §4 Registers -/

/-- The shortcut taken on DISABLED (`RADIO_SHORTS_DISABLED_RXEN_Msk` or `_TXEN_Msk`). -/
inductive DisabledShort where
  | none
  | rxen
  | txen
deriving DecidableEq, Repr

/-- The radio task triggered last. -/
inductive RadioTask where
  | disable
  | txen
  | rxen
deriving DecidableEq, Repr

/-- Which packet buffer `PACKETPTR` points to. -/
inductive PacketPtr where
  | txBuffer
  | rxBuffer
deriving DecidableEq, Repr

/-- The on-air packet format (`PCNF0`, `PCNF1`): the length field is dynamic for
    DPL and static otherwise. -/
structure Pcnf where
  protocol : NrfEsbProtocol
  balen : UInt8
  statlen : UInt8
  maxlen : UInt8
deriving DecidableEq, Repr

/-- `NRF_RADIO` -/
structure NrfRadio where
  -- written by the module
  disabledShort : DisabledShort
  intensetDisabled : Bool
  task : RadioTask
  packetptr : PacketPtr
  pcnf : Option Pcnf
  txaddress : UInt8
  rxaddresses : UInt32
  frequency : UInt8
  base0 : UInt32
  base1 : UInt32
  prefix0 : UInt32
  prefix1 : UInt32
  mode : NrfEsbBitrate
  txpower : NrfEsbTxPower
  crccnf : NrfEsbCrc
  -- written by the radio hardware
  eventsEnd : Bool
  crcstatus : Bool
  rxmatch : Fin 8
  rxcrc : UInt16
  rssisample : UInt8
deriving DecidableEq

/-- The PPI channels of the module. -/
structure PpiChen where
  timerStart : Bool
  timerStop : Bool
  rxTimeout : Bool
  txStart : Bool
deriving DecidableEq, Repr

/-- `NRF_ESB_SYS_TIMER`: the two compare values. -/
structure SysTimer where
  cc0 : UInt32
  cc1 : UInt32
deriving DecidableEq, Repr

/-! ## §5 Module state -/

/-- `nrf_esb_mainstate_t` -/
inductive NrfEsbMainstate where
  | idle
  | ptxTx
  | ptxTxAck
  | ptxRxAck
  | prx
  | prxSendAck
deriving DecidableEq, Repr

/-- The functions `on_radio_disabled` is pointed to. -/
inductive OnRadioDisabled where
  | txNoack
  | tx
  | txWaitForAck
  | rx
  | rxAck
deriving DecidableEq, Repr

/-- The module state of `nrf_esb.c`. -/
structure Esb where
  esbInitialized : Bool
  mainstate : NrfEsbMainstate
  /-- The TX FIFO cell `mp_current_payload` points to. -/
  currentPayload : Option ℕ
  esbAddr : NrfEsbAddress
  configLocal : NrfEsbConfig
  txFifo : TxFifo
  rxFifo : RxFifo
  /-- Whether `initialize_fifos` has filled in the `p_payload` pointers. -/
  fifoPointersSet : Bool
  txPayloadBuffer : PayloadBuffer
  rxPayloadBuffer : PayloadBuffer
  interruptFlags : InterruptFlags
  pids : FixedArray nrfEsbPipeCount UInt8
  rxPipeInfo : FixedArray nrfEsbPipeCount PipeInfo
  retransmitsRemaining : UInt32
  lastTxAttempts : UInt32
  waitForAckTimeoutUs : UInt32
  onRadioDisabled : Option OnRadioDisabled
  /-- Which of the two formats `update_rf_payload_format` points to. -/
  updateRfPayloadFormat : Option NrfEsbProtocol
  /-- History variable: `update_rf_payload_format` was called through the null pointer. -/
  nullCall : Bool
  radio : NrfRadio
  sysTimer : SysTimer
  ppi : PpiChen
  /-- `ESB_EVT_IRQ` is pending. -/
  evtIrqPending : Bool
  /-- `ESB_EVT_IRQ` is enabled. -/
  evtIrqEnabled : Bool
deriving DecidableEq

end NordicEsb
