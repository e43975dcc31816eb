import NordicEsb.App.Config

/-!
# The Box

The program of the box (`box/main.c`) for the second scheme: its variables over the
state of its ESB module, `main` up to the idle loop, the event handler, and the
handler of the interval timer.

- A radio interrupt runs `radioIrqHandler` of the module; `ESB_EVT_IRQ` runs the event
  handler once for each event the module has collected.
- Pins, logging and the unused `g_pairing_timeout` are left out. The channels
  `do_channel_list_generation` picks come from measured signal strengths and are an
  argument here.
-/

namespace NordicEsb

/-! ## §1 Program state -/

/-- `MODE_NORMAL`, `MODE_CHANNEL_PICKING` and `MODE_PAIRING` -/
inductive BoxMode where
  | normal
  | channelPicking
  | pairing
deriving DecidableEq, Repr

/-- `ds_data_t` of the box. -/
structure BoxData where
  signature : UInt32
  chlist : ChannelList
  displaySlotIdx : UInt8
  controllerSlotIdx : UInt8
deriving DecidableEq

/-- The variables of `box/main.c`, the ESB module below them and the flash record. -/
structure Box where
  esb : Esb
  gaChlist : ChannelList
  gMode : BoxMode
  gCurChIdx : UInt8
  gBeacon : NrfEsbPayload
  rxPayload : NrfEsbPayload
  gBaseAddr1 : FixedArray 4 UInt8
  gDs : BoxData
  gCurPairingDevType : UInt8
  gDevsPairedMask : UInt8
  gDevsDataRecvMask : UInt8
  /-- The record in the flash page, as `ds_update` last left it. -/
  flash : BoxData
  intervalTimerRunning : Bool
  /-- `nrf_esb_error_handler` has called `NVIC_SystemReset`. -/
  systemReset : Bool

namespace Box

/-- A call of the ESB module whose error code is ignored. -/
def callEsb (f : Esb → RetCode × Esb) (b : Box) : Box := { b with esb := (f b.esb).2 }

/-- `APP_ERROR_CHECK` around a call of the ESB module. -/
def checkEsb (f : Esb → RetCode × Esb) (b : Box) : Box :=
  { b with esb := (f b.esb).2, systemReset := b.systemReset || (f b.esb).1 != .success }

/-- `esb_init` -/
def esbInit (isPtx : Bool) (s : Esb) : RetCode × Esb :=
  nrfEsbInit (some (appEsbConfig isPtx)) (nrfEsbDisable s)

/-! ## §2 Channels and beacons -/

/-- `M_ESB_STOP_RX_WAIT_IDLE` -/
def stopRxWaitIdle (s : Esb) : Esb :=
  if !nrfEsbIsIdle s then
    let (err, s) := nrfEsbStopRx s
    if err ≠ .success then (esbInit false s).2 else s
  else s

/-- The next value of `g_cur_ch_idx`. -/
def nextChIdx (idx : UInt8) : UInt8 :=
  if (idx + 1).toNat ≥ maximumChannelListSize then 0 else idx + 1

/-- `hop_channel` -/
def hopChannel (b : Box) : Box :=
  let b := { b with gCurChIdx := nextChIdx b.gCurChIdx }
  let b := { b with esb := stopRxWaitIdle b.esb }
  b.checkEsb (nrfEsbSetRfChannel (b.gaChlist.get b.gCurChIdx.toNat).toUInt32)

/-- The beacon's bytes 2 and 3 and the receive mask as `send_beacon` leaves them. -/
def fillBeacon (b : Box) : Box :=
  if b.gCurChIdx = 0 then
    { b with
      gDevsDataRecvMask := 0
      gBeacon := { b.gBeacon with data := b.gBeacon.data.set 2 beaconByte3NewData } }
  else
    { b with
      gBeacon := { b.gBeacon with
        data := (b.gBeacon.data.set 2 beaconByte3Resend).set 3
          (~~~b.gDevsDataRecvMask &&& b.gDevsPairedMask) } }

/-- `send_beacon` -/
def sendBeacon (b : Box) : Box :=
  let b := fillBeacon b
  let b := { b with gBeacon := { b.gBeacon with noack := 1 } }
  b.callEsb (nrfEsbWritePayload (some b.gBeacon))

/-! ## §3 Modes -/

/-- `enter_normal_mode` -/
def enterNormalMode (b : Box) : Box :=
  { b with
    gaChlist := b.gDs.chlist
    gMode := .normal
    gCurChIdx := maximumChannelListSize.toUInt8
    intervalTimerRunning := true }

/-- `enter_setup_mode`; `picked` is what `do_channel_list_generation` selects. -/
def enterSetupMode (picked : ChannelList) (b : Box) : Box :=
  let b := { b with gMode := .channelPicking, gDs := { b.gDs with chlist := picked } }
  let b := b.checkEsb (esbInit false)
  let b := { b with gaChlist := defaultPairingChannelList, gCurChIdx := 0 }
  let b := b.checkEsb (nrfEsbSetRfChannel (b.gaChlist.get b.gCurChIdx.toNat).toUInt32)
  let b := { b with
    gDevsPairedMask := 0
    gMode := .pairing
    gDs := { b.gDs with controllerSlotIdx := 0, displaySlotIdx := 0 } }
  let b := b.checkEsb nrfEsbStartRx
  { b with intervalTimerRunning := true }

/-! ## §4 The event handler -/

/-- The cases `NRF_ESB_EVENT_TX_SUCCESS` and `NRF_ESB_EVENT_TX_FAILED`. -/
def onTxDone (b : Box) : Box :=
  let b := b.callEsb nrfEsbFlushRx
  let b := b.callEsb nrfEsbFlushTx
  if b.gMode = .normal then
    -- switch to PRX mode
    (b.callEsb (esbInit false)).callEsb nrfEsbStartRx
  else b

/-- The type and the index `ID_PAIR_REQ` offers to a device of type `devType`: `(0, 0xff)`
    when no slot is left or the type is unknown. -/
def offer (ds : BoxData) (devType : UInt8) : UInt8 × UInt8 :=
  if devType = devTypeDisplay then
    if ds.displaySlotIdx < maximumDisplayDev then (devTypeDisplay, ds.displaySlotIdx + 1)
    else (0, 0xff)
  else if devType = devTypeController then
    if ds.controllerSlotIdx < maximumControllerDev then
      (devTypeController, maximumDisplayDev + ds.controllerSlotIdx + 1)
    else (0, 0xff)
  else (0, 0xff)

/-- The record offered with index `devIdx`. -/
def pairInfo (b : Box) (devIdx : UInt8) : PairInfo where
  systemAddress32 := b.gBaseAddr1
  chlist := b.gDs.chlist
  devIdx := devIdx

/-- The case `ID_PAIR_REQ`. -/
def onPairReq (b : Box) : Box :=
  let (curType, devIdx) := offer b.gDs (b.rxPayload.data.get 1)
  let b := { b with gCurPairingDevType := curType }
  if devIdx ≠ 0xff then
    -- device slot is available: set the pairing info as ack payload
    (b.callEsb nrfEsbFlushTx).callEsb
      (nrfEsbWritePayload (some (.ofBytes 0 0 (b.pairInfo devIdx).bytes)))
  else b

/-- Take the slot of the pending device type, if there is one. -/
def takeSlot (b : Box) : Box :=
  if b.gCurPairingDevType = devTypeDisplay ∧ b.gDs.displaySlotIdx < maximumDisplayDev then
    let slot := b.gDs.displaySlotIdx + 1
    { b with
      gDs := { b.gDs with displaySlotIdx := slot }
      gDevsPairedMask := b.gDevsPairedMask ||| shiftBit 6 slot }
  else if b.gCurPairingDevType = devTypeController ∧
      b.gDs.controllerSlotIdx < maximumControllerDev then
    let slot := b.gDs.controllerSlotIdx + 1
    { b with
      gDs := { b.gDs with controllerSlotIdx := slot }
      gDevsPairedMask := b.gDevsPairedMask ||| shiftBit 2 slot }
  else b

/-- The case `ID_PAIR_INFO_GET`. -/
def onPairInfoGet (b : Box) : Box :=
  let b := b.callEsb nrfEsbFlushTx
  let b := { takeSlot b with gCurPairingDevType := 0 }
  if b.gDs.controllerSlotIdx = maximumControllerDev ∧
      b.gDs.displaySlotIdx = maximumDisplayDev then
    enterNormalMode { b with flash := b.gDs }
  else b

/-- What the handler does with the payload it has read. -/
def onPayload (b : Box) : Box :=
  if b.gMode = .pairing ∧ b.rxPayload.length = 2 then
    if b.rxPayload.data.get 0 = idPairReq then onPairReq b
    else if b.rxPayload.data.get 0 = idPairInfoGet then onPairInfoGet b
    else b
  else if b.gMode = .normal then
    if b.rxPayload.pipe ≠ 0 ∧ b.rxPayload.length = 32 then
      { b with gDevsDataRecvMask := b.gDevsDataRecvMask ||| shiftBit 6 b.rxPayload.pipe }
    else b
  else b

/-- The case `NRF_ESB_EVENT_RX_RECEIVED`: one payload is read, the others are flushed. -/
def onRxReceived (b : Box) : Box :=
  let (err, p, esb) := nrfEsbReadRxPayload (some b.rxPayload) b.esb
  let b := { b with esb := esb, rxPayload := p.getD b.rxPayload }
  if err = .success then onPayload (b.callEsb nrfEsbFlushRx) else b

/-- `nrf_esb_event_handler` -/
def nrfEsbEventHandler (b : Box) (event : NrfEsbEvt) : Box :=
  match event.evtId with
  | .txSuccess | .txFailed => onTxDone b
  | .rxReceived => onRxReceived b

/-! ## §5 Interrupts -/

/-- `ESB_EVT_IRQHandler` with the handler it calls. -/
def esbEvtIrq (b : Box) : Box :=
  let (events, esb) := esbEvtIrqHandler b.esb
  events.foldl nrfEsbEventHandler { b with esb := esb }

/-- `RADIO_IRQHandler` -/
def radioIrq (ev : RadioEvent) (b : Box) : Box := { b with esb := radioIrqHandler ev b.esb }

/-- `interval_timer_event_handler` -/
def intervalTimerEventHandler (b : Box) : Box :=
  let b := hopChannel b
  match b.gMode with
  | .normal => sendBeacon (b.callEsb (esbInit true))
  | .pairing => b.callEsb nrfEsbStartRx
  | .channelPicking => b

/-! ## §6 Start-up -/

/-- `g_beacon` as it is initialised. -/
def initialBeacon : NrfEsbPayload :=
  .ofBytes 0 0 [beaconByte1, beaconByte2, 0xee, 0xdd, 0xee, 0xdd, 0xee, 0xdd, 0xee, 0xdd]

/-- The variables before `main` runs. -/
def reset (flash : BoxData) : Box where
  esb := .reset
  gaChlist := default
  gMode := .normal
  gCurChIdx := 0
  gBeacon := initialBeacon
  rxPayload := default
  gBaseAddr1 := default
  gDs := { signature := 0, chlist := default, displaySlotIdx := 0, controllerSlotIdx := 0 }
  gCurPairingDevType := 0
  gDevsPairedMask := 0
  gDevsDataRecvMask := 0
  flash := flash
  intervalTimerRunning := false
  systemReset := false

/-- The mask `main` rebuilds from the slot counters of a stored record. -/
def pairedMaskOf (ds : BoxData) : UInt8 :=
  let mask := (List.range ds.displaySlotIdx.toNat).foldl
    (fun mask i => mask ||| shiftBit 5 i.toUInt8) 0
  (List.range ds.controllerSlotIdx.toNat).foldl (fun mask i => mask ||| shiftBit 1 i.toUInt8) mask

/-- The prefixes `main` sets for pipes 0 to 6. -/
def addrPrefix : FixedArray 8 UInt8 := .load (.replicate _ 0) [pipe0Prefix, 1, 2, 3, 4, 5, 6]

/-- The addresses `main` sets. -/
def setAddresses (b : Box) : Box :=
  let b := b.callEsb (nrfEsbSetBaseAddress0 (some defaultPairingAddress32))
  let b := b.callEsb (nrfEsbSetBaseAddress1 (some b.gBaseAddr1))
  b.callEsb (nrfEsbSetPrefixes (some addrPrefix) 7)

/-- `main` up to the idle loop, on a chip with number `chipId` whose flash page holds `flash`;
    `button` tells whether `BUTTON_1` is pressed. -/
def main (chipId : FixedArray 4 UInt8) (flash : BoxData) (button : Bool) (picked : ChannelList) :
    Box :=
  let b := { reset flash with gBaseAddr1 := chipId, gDs := flash }
  if b.gDs.signature ≠ dsSignature then
    enterSetupMode picked
      (setAddresses { b with gDs := { b.gDs with signature := dsSignature } })
  else if b.gDs.controllerSlotIdx = 0 ∧ b.gDs.displaySlotIdx = 0 then
    enterSetupMode picked (setAddresses b)
  else
    let b := setAddresses { b with gDevsPairedMask := pairedMaskOf b.gDs }
    if button then enterSetupMode picked b else enterNormalMode b

end Box

end NordicEsb
