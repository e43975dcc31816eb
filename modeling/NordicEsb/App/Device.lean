import NordicEsb.App.Config

/-!
# The Device

The program of a device (`device/main.c`) for the second scheme: its variables over
the state of its ESB module, `main` up to the idle loop, the event handler, and the
handler of the interval timer.

- The two data payloads are numbered by history variables: `send_device_data` gives the
  payload it hands over as new data the next number, and a repeated payload keeps its own.
- `while (!nrf_esb_is_idle());` in `hop_channel` is passed when the module is idle; the
  history variable `hung` records that it was not.
- Pins, logging, delays and the unused `g_pairing_timeout` are left out.
-/

namespace NordicEsb

/-! ## §1 Program state -/

/-- `MODE_NORMAL` and `MODE_PAIRING` -/
inductive DeviceMode where
  | normal
  | pairing
deriving DecidableEq, Repr

/-- `PAIR_STATE_NONE`, `PAIR_STATE_SEND_REQ` and `PAIR_STATE_WAIT_FOR_INFO` -/
inductive PairState where
  | none
  | sendReq
  | waitForInfo
deriving DecidableEq, Repr

/-- `BEACON_SCAN_SHORT_TIMEOUT_MS` -/
abbrev beaconScanShortTimeoutMs : UInt32 := intervalTimerInterval10Ms / 10
/-- `BEACON_SCAN_LONG_TIMEOUT_MS` -/
abbrev beaconScanLongTimeoutMs : UInt32 :=
  intervalTimerInterval10Ms / 10 * (maximumChannelListSize.toUInt32 + 1)

/-- `ds_data_t` of a device. -/
structure DeviceData where
  signature : UInt32
  chlist : ChannelList
  sysAddress32 : FixedArray 4 UInt8
  devIdx : UInt8
deriving DecidableEq

/-- The variables of `device/main.c`, the ESB module below them and the flash record. -/
structure Device where
  esb : Esb
  txDataPayload : FixedArray 2 NrfEsbPayload
  rxPayload : NrfEsbPayload
  gaChlist : ChannelList
  gMode : DeviceMode
  gCurChIdx : UInt8
  gDs : DeviceData
  gDevType : UInt8
  gPairState : PairState
  gScanTimeout : UInt32
  gCurPayloadIdx : UInt8
  gForceHopChannel : Bool
  gSyncTimeout : UInt32
  /-- The record in the flash page, as `ds_update` last left it. -/
  flash : DeviceData
  intervalTimerRunning : Bool
  /-- `nrf_esb_error_handler` has called `NVIC_SystemReset`. -/
  systemReset : Bool
  /-- History variable: `hop_channel` found the module busy. -/
  hung : Bool
  /-- History variable: how many payloads were handed over as new data. -/
  newDataCount : ℕ
  /-- History variable: the number of the payload in each buffer, 0 if it never was new data. -/
  payloadNumber : FixedArray 2 ℕ
  /-- History variable: the number of the payload handed over last. -/
  sentNumber : ℕ

namespace Device

/-- A call of the ESB module whose error code is ignored. -/
def callEsb (f : Esb → RetCode × Esb) (d : Device) : Device := { d with esb := (f d.esb).2 }

/-- `APP_ERROR_CHECK` around a call of the ESB module. -/
def checkEsb (f : Esb → RetCode × Esb) (d : Device) : Device :=
  { d with esb := (f d.esb).2, systemReset := d.systemReset || (f d.esb).1 != .success }

/-- `esb_init` -/
def esbInit (isPtx : Bool) (s : Esb) : RetCode × Esb := nrfEsbInit (some (appEsbConfig isPtx)) s

/-- The next value of `g_cur_ch_idx`. -/
def nextChIdx (idx : UInt8) : UInt8 :=
  if (idx + 1).toNat ≥ maximumChannelListSize then 0 else idx + 1

/-- `hop_channel` -/
def hopChannel (d : Device) : Device :=
  let d := { d with gCurChIdx := nextChIdx d.gCurChIdx }
  let d := { d with hung := d.hung || !nrfEsbIsIdle d.esb }
  d.checkEsb (nrfEsbSetRfChannel (d.gaChlist.get d.gCurChIdx.toNat).toUInt32)

/-- `interval_timer_start` -/
def intervalTimerStart (d : Device) : Device := { d with intervalTimerRunning := true }

/-- `interval_timer_stop` -/
def intervalTimerStop (d : Device) : Device := { d with intervalTimerRunning := false }

/-! ## §2 Packets -/

/-- `is_beacon_packet` -/
def isBeaconPacket (p : NrfEsbPayload) : Bool :=
  p.pipe == 0 && p.length == 10 && p.data.get 0 == beaconByte1 && p.data.get 1 == beaconByte2

/-- `send_pairing_req` -/
def sendPairingReq (d : Device) : Device :=
  (d.callEsb nrfEsbFlushTx).callEsb
    (nrfEsbWritePayload (some (.ofBytes 0 0 [idPairReq, d.gDevType])))

/-- `send_get_info_req` -/
def sendGetInfoReq (d : Device) : Device :=
  (d.callEsb nrfEsbFlushTx).callEsb
    (nrfEsbWritePayload (some (.ofBytes 0 0 [idPairInfoGet, 0])))

/-- The other index of the two payload buffers. -/
def otherIdx (idx : UInt8) : UInt8 := if idx = 0 then 1 else 0

/-- The number a payload from buffer `idx` goes out with. -/
def handOver (isRetransmit : Bool) (idx : UInt8) (d : Device) : Device :=
  if isRetransmit then { d with sentNumber := d.payloadNumber.get idx.toNat }
  else
    { d with
      newDataCount := d.newDataCount + 1
      payloadNumber := d.payloadNumber.set idx.toNat (d.newDataCount + 1)
      sentNumber := d.newDataCount + 1 }

/-- `send_device_data` -/
def sendDeviceData (isRetransmit : Bool) (d : Device) : Device :=
  let d := d.callEsb nrfEsbFlushTx
  let idx := if isRetransmit then otherIdx d.gCurPayloadIdx else d.gCurPayloadIdx
  let p := { d.txDataPayload.get idx.toNat with noack := 0 }
  let d := { d with txDataPayload := d.txDataPayload.set idx.toNat p }
  let d := (handOver isRetransmit idx d).callEsb (nrfEsbWritePayload (some p))
  if isRetransmit then d else { d with gCurPayloadIdx := otherIdx d.gCurPayloadIdx }

/-! ## §3 Modes -/

/-- `enter_normal_mode` -/
def enterNormalMode (d : Device) : Device :=
  let d := { d with gMode := .normal, gPairState := .none }
  let d := intervalTimerStop d
  let d := d.callEsb (esbInit false)
  let d := d.callEsb (nrfEsbSetBaseAddress1 (some d.gDs.sysAddress32))
  let d := d.callEsb (nrfEsbUpdatePrefix 1 d.gDs.devIdx)
  let d := { d with
    gaChlist := d.gDs.chlist
    gCurChIdx := maximumChannelListSize.toUInt8
    gScanTimeout := beaconScanLongTimeoutMs
    gSyncTimeout := 0
    gForceHopChannel := true }
  intervalTimerStart d

/-- `do_pairing` -/
def doPairing (d : Device) : Device :=
  let d := d.callEsb (esbInit true)
  let d := { d with gaChlist := defaultPairingChannelList, gCurChIdx := 0 }
  let d := d.checkEsb (nrfEsbSetRfChannel (d.gaChlist.get d.gCurChIdx.toNat).toUInt32)
  sendPairingReq { d with gMode := .pairing, gPairState := .sendReq }

/-! ## §4 The event handler -/

/-- After a data packet: hop and listen for the next beacon. -/
def listenForBeacon (d : Device) : Device :=
  let d := hopChannel { d with gScanTimeout := beaconScanShortTimeoutMs }
  let d := (d.callEsb (esbInit false)).callEsb nrfEsbStartRx
  intervalTimerStart d

/-- The case `NRF_ESB_EVENT_TX_SUCCESS`. -/
def onTxSuccess (d : Device) : Device :=
  match d.gMode with
  | .pairing =>
    match d.gPairState with
    -- got an ACK from the box
    | .sendReq => sendGetInfoReq { d with gPairState := .waitForInfo }
    | .none | .waitForInfo => d
  | .normal => listenForBeacon d

/-- The case `NRF_ESB_EVENT_TX_FAILED`. -/
def onTxFailed (d : Device) : Device :=
  let d := d.callEsb nrfEsbFlushTx
  match d.gMode with
  | .pairing =>
    let d := hopChannel d
    if d.gPairState = .waitForInfo then sendGetInfoReq d else sendPairingReq d
  | .normal => listenForBeacon d

/-- Store the record in the payload that was read. -/
def storePairInfo (d : Device) : Device :=
  let info := PairInfo.ofData d.rxPayload.data
  let d := { d with gDs := { d.gDs with
    chlist := info.chlist
    sysAddress32 := info.systemAddress32
    devIdx := info.devIdx } }
  enterNormalMode { d with flash := d.gDs }

/-- What a beacon asks of the device with index `devIdx`: `none` for no packet, otherwise
    whether the packet is to be sent again. -/
def beaconRequest (devIdx : UInt8) (beacon : NrfEsbPayload) : Option Bool :=
  if beacon.data.get 2 = beaconByte3NewData then some false
  else if beacon.data.get 2 = beaconByte3Resend ∧
      beacon.data.get 3 &&& shiftBit 6 devIdx = shiftBit 6 devIdx then some true
  else none

/-- A beacon has been read. -/
def onBeacon (d : Device) : Device :=
  let d := { d with gSyncTimeout := beaconScanLongTimeoutMs }
  match beaconRequest d.gDs.devIdx d.rxPayload with
  | some isResend =>
    let d := intervalTimerStop d
    let d := (d.callEsb nrfEsbStopRx).callEsb (esbInit true)
    sendDeviceData isResend d
  | none =>
    -- hop to the next channel and scan the next beacon
    let d := intervalTimerStop d
    let d := (d.callEsb nrfEsbStopRx).callEsb (esbInit false)
    intervalTimerStart
      { d with gScanTimeout := beaconScanShortTimeoutMs, gForceHopChannel := true }

/-- What the handler does with `rx_payload`. -/
def onPayload (d : Device) : Device :=
  if d.gMode = .pairing ∧ d.gPairState = .waitForInfo then
    if d.rxPayload.length = sizeofPairInfo then storePairInfo d else d
  else if d.gMode = .normal then
    if isBeaconPacket d.rxPayload then onBeacon d else d
  else d

/-- The case `NRF_ESB_EVENT_RX_RECEIVED`; the result of the read is not checked. -/
def onRxReceived (d : Device) : Device :=
  let (_, p, esb) := nrfEsbReadRxPayload (some d.rxPayload) d.esb
  onPayload { d with esb := esb, rxPayload := p.getD d.rxPayload }

/-- `nrf_esb_event_handler` -/
def nrfEsbEventHandler (d : Device) (event : NrfEsbEvt) : Device :=
  match event.evtId with
  | .txSuccess => onTxSuccess d
  | .txFailed => onTxFailed d
  | .rxReceived => onRxReceived d

/-! ## §5 Interrupts -/

/-- `ESB_EVT_IRQHandler` with the handler it calls. -/
def esbEvtIrq (d : Device) : Device :=
  let (events, esb) := esbEvtIrqHandler d.esb
  events.foldl nrfEsbEventHandler { d with esb := esb }

/-- `RADIO_IRQHandler` -/
def radioIrq (ev : RadioEvent) (d : Device) : Device := { d with esb := radioIrqHandler ev d.esb }

/-- A counter that stops at zero. -/
def countDown (n : UInt32) : UInt32 := if n = 0 then 0 else n - 1

/-- `interval_timer_event_handler` -/
def intervalTimerEventHandler (d : Device) : Device :=
  if d.gScanTimeout ≠ 0 ∨ d.gSyncTimeout ≠ 0 ∨ d.gForceHopChannel then
    let d := { d with
      gScanTimeout := countDown d.gScanTimeout
      gSyncTimeout := countDown d.gSyncTimeout }
    if d.gScanTimeout = 0 ∨ d.gForceHopChannel then
      let d := { d with
        gForceHopChannel := false
        gScanTimeout :=
          if d.gSyncTimeout = 0 then beaconScanLongTimeoutMs else beaconScanShortTimeoutMs }
      (hopChannel (d.callEsb nrfEsbStopRx)).callEsb nrfEsbStartRx
    else d
  else d

/-! ## §6 Start-up -/

/-- `tx_data_payload` as it is initialised. -/
def initialTxDataPayload : FixedArray 2 NrfEsbPayload :=
  .load default
    [.ofBytes 1 0 (List.replicate 4 [0x12, 0x34, 0x56, 0x78, 0x9a, 0xbc, 0xde, 0xf0]).flatten,
      .ofBytes 1 0 (List.replicate 4 [0x0f, 0xed, 0xcb, 0xa9, 0x87, 0x65, 0x43, 0x21]).flatten]

/-- The variables before `main` runs. -/
def reset (flash : DeviceData) : Device where
  esb := .reset
  txDataPayload := initialTxDataPayload
  rxPayload := default
  gaChlist := default
  gMode := .normal
  gCurChIdx := 0
  gDs := { signature := 0, chlist := default, sysAddress32 := default, devIdx := 0xff }
  gDevType := devTypeDisplay
  gPairState := .none
  gScanTimeout := 0
  gCurPayloadIdx := 0
  gForceHopChannel := false
  gSyncTimeout := 0
  flash := flash
  intervalTimerRunning := false
  systemReset := false
  hung := false
  newDataCount := 0
  payloadNumber := default
  sentNumber := 0

/-- The prefixes `main` sets for pipes 0 and 1. -/
def addrPrefix (ds : DeviceData) : FixedArray 8 UInt8 :=
  .load (.replicate _ 0)
    [pipe0Prefix, if ds.signature = dsSignature ∧ ds.devIdx ≠ 0xff then ds.devIdx else 0xff]

/-- The addresses `main` sets. -/
def setAddresses (d : Device) : Device :=
  let d := d.callEsb (nrfEsbSetBaseAddress0 (some defaultPairingAddress32))
  let d := d.callEsb (nrfEsbSetBaseAddress1 (some d.gDs.sysAddress32))
  d.callEsb (nrfEsbSetPrefixes (some (addrPrefix d.gDs)) (if d.gDs.devIdx = 0xff then 1 else 2))

/-- `main` before it chooses a mode. -/
def boot (flash : DeviceData) (button2 : Bool) : Device :=
  let d := { reset flash with gDs := flash }
  let d := if d.gDs.signature ≠ dsSignature then
    { d with gDs := { d.gDs with signature := dsSignature } } else d
  setAddresses { d with gDevType := if button2 then devTypeController else d.gDevType }

/-- `main` up to the idle loop, on a chip whose flash page holds `flash`; `button1` and `button2`
    tell whether the buttons are pressed. -/
def main (flash : DeviceData) (button1 button2 : Bool) : Device :=
  let d := boot flash button2
  let d := if d.gDs.devIdx = 0xff ∨ button1 then doPairing d else enterNormalMode d
  intervalTimerStart d

end Device

end NordicEsb
