import NordicEsb.Esb.State

/-!
# Radio Parameters and Packet Formats

The part of `nrf_esb.c` that translates the module's configuration into radio
registers: address conversion, the two on-air packet formats behind the function
pointer `update_rf_payload_format`, and the `update_radio_*` functions that
`nrf_esb_init` and the setters call.
-/

namespace NordicEsb

/-! ## §1 Addresses -/

/-- The 32-bit word stored in cells `i .. i + 3` (little endian). -/
def loadWord {n : ℕ} (a : FixedArray n UInt8) (i : ℕ) : UInt32 :=
  (a.get i).toUInt32 ||| (a.get (i + 1)).toUInt32 <<< 8 |||
    (a.get (i + 2)).toUInt32 <<< 16 ||| (a.get (i + 3)).toUInt32 <<< 24

/-- `__REV`: reverse the bytes of a word. -/
def rev (x : UInt32) : UInt32 :=
  (x &&& 0x000000FF) <<< 24 ||| (x &&& 0x0000FF00) <<< 8 |||
    (x &&& 0x00FF0000) >>> 8 ||| (x &&& 0xFF000000) >>> 24

/-- `bytewise_bit_swap`, the variant compiled for the Cortex-M0 of the nRF51. -/
def bytewiseBitSwap (inp : UInt32) : UInt32 :=
  let inp := (inp &&& 0xF0F0F0F0) >>> 4 ||| (inp &&& 0x0F0F0F0F) <<< 4
  let inp := (inp &&& 0xCCCCCCCC) >>> 2 ||| (inp &&& 0x33333333) <<< 2
  (inp &&& 0xAAAAAAAA) >>> 1 ||| (inp &&& 0x55555555) <<< 1

/-- `addr_conv` -/
def addrConv (addr : FixedArray 4 UInt8) : UInt32 := rev (bytewiseBitSwap (loadWord addr 0))

/-- `update_radio_addresses(NRF_ESB_ADDR_UPDATE_MASK_BASE0)` -/
def updateRadioBase0 (s : Esb) : Esb :=
  { s with radio := { s.radio with base0 := addrConv s.esbAddr.baseAddrP0 } }

/-- `update_radio_addresses(NRF_ESB_ADDR_UPDATE_MASK_BASE1)` -/
def updateRadioBase1 (s : Esb) : Esb :=
  { s with radio := { s.radio with base1 := addrConv s.esbAddr.baseAddrP1 } }

/-- `update_radio_addresses(NRF_ESB_ADDR_UPDATE_MASK_PREFIX)` -/
def updateRadioPrefixes (s : Esb) : Esb :=
  { s with
    radio := { s.radio with
      prefix0 := bytewiseBitSwap (loadWord s.esbAddr.pipePrefixes 0)
      prefix1 := bytewiseBitSwap (loadWord s.esbAddr.pipePrefixes 4) } }

/-! ## §2 Packet formats -/

/-- `update_rf_payload_format_esb_dpl`: the length travels in a 6-bit header field. -/
def updateRfPayloadFormatEsbDpl (addr : NrfEsbAddress) : Pcnf where
  protocol := .esbDpl
  balen := addr.addrLength - 1
  statlen := 0
  maxlen := 32

/-- `update_rf_payload_format_esb`: both ends know the length beforehand. -/
def updateRfPayloadFormatEsb (addr : NrfEsbAddress) (payloadLength : UInt8) : Pcnf where
  protocol := .esb
  balen := addr.addrLength - 1
  statlen := payloadLength
  maxlen := payloadLength

/-- The registers after a call of the function `fmt` points to. -/
def pcnfAfter (fmt : Option NrfEsbProtocol) (addr : NrfEsbAddress) (payloadLength : UInt8)
    (old : Option Pcnf) : Option Pcnf :=
  match fmt with
  | none => old
  | some .esbDpl => some (updateRfPayloadFormatEsbDpl addr)
  | some .esb => some (updateRfPayloadFormatEsb addr payloadLength)

/-- The call `update_rf_payload_format(payload_length)` through the function pointer;
    a call through the null pointer is recorded. -/
def callUpdateRfPayloadFormat (payloadLength : UInt8) (s : Esb) : Esb :=
  { s with
    radio := { s.radio with
      pcnf := pcnfAfter s.updateRfPayloadFormat s.esbAddr payloadLength s.radio.pcnf }
    nullCall := s.nullCall || s.updateRfPayloadFormat.isNone }

/-- The call `update_rf_payload_format(payload_length)` that the code makes only under
    `NRF_ESB_PROTOCOL_ESB`. -/
def callUpdateRfPayloadFormatIfEsb (payloadLength : UInt8) (s : Esb) : Esb :=
  { s with
    radio := { s.radio with
      pcnf :=
        if s.configLocal.protocol = .esb then
          pcnfAfter s.updateRfPayloadFormat s.esbAddr payloadLength s.radio.pcnf
        else s.radio.pcnf }
    nullCall := s.nullCall ||
      (s.configLocal.protocol == .esb && s.updateRfPayloadFormat.isNone) }

/-! ## §3 Radio parameters -/

/-- `update_radio_tx_power` -/
def updateRadioTxPower (s : Esb) : Esb :=
  { s with radio := { s.radio with txpower := s.configLocal.txOutputPower } }

/-- The ACK time-out `update_radio_bitrate` selects. -/
def waitForAckTimeout : NrfEsbBitrate → UInt32
  | .bitrate2Mbps => rxWaitForAckTimeoutUs2Mbps
  | .bitrate1Mbps => rxWaitForAckTimeoutUs1Mbps
  | .bitrate250Kbps => rxWaitForAckTimeoutUs250Kbps
  | .bitrate1MbpsBle => rxWaitForAckTimeoutUs1MbpsBle

/-- `update_radio_bitrate` -/
def updateRadioBitrate (s : Esb) : Esb :=
  { s with
    radio := { s.radio with mode := s.configLocal.bitrate }
    waitForAckTimeoutUs := waitForAckTimeout s.configLocal.bitrate }

/-- `update_radio_protocol` -/
def updateRadioProtocol (s : Esb) : Esb :=
  { s with updateRfPayloadFormat := some s.configLocal.protocol }

/-- `update_radio_crc` -/
def updateRadioCrc (s : Esb) : Esb :=
  { s with radio := { s.radio with crccnf := s.configLocal.crc } }

/-- `update_radio_parameters` -/
def updateRadioParameters (s : Esb) : Esb :=
  let s := updateRadioTxPower s
  let s := updateRadioBitrate s
  let s := updateRadioProtocol s
  let s := updateRadioCrc s
  callUpdateRfPayloadFormat s.configLocal.payloadLength s

end NordicEsb
