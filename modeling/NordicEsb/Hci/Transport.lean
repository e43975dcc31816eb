import NordicEsb.Hci.Packet
import NordicEsb.Hci.MemPool
import NordicEsb.Lib.Machine

/-!
# The HCI Transport over a Link that Loses Frames

Two instances of the transport send packets to each other, each with its own SLIP layer, over a
wire in each direction that keeps the order and may lose any whole frame. A packet is repeated
until its acknowledgement arrives or the retries are used up.

- `HciTransport` is one instance, its handlers follow the source
- `hciNet` is the machine of both instances, the wires and the timers
- `Agreed`: what a side reports as sent was accepted, once, and in order

The sender keeps its number after a packet that failed. The next packet then has the number of the
failed one, so the condition `Unseen` asks that the peer has not taken the failed packet and that
no copy of it is still on the way.
-/

namespace NordicEsb

/-! ## §1 One instance -/

/-- `tx_state_t` -/
inductive TxState where
  | idle
  | pending
  | active
deriving DecidableEq, Repr

/-- `tx_event_t` -/
inductive TxEvent where
  | stateEntry
  | slipTxDone
  | timeout
  | validRxAck
deriving DecidableEq, Repr

/-- `hci_transport_tx_done_result_t` -/
inductive TxDoneResult where
  | success
  | failure
deriving DecidableEq, Repr

/-- `MAX_RETRY_COUNT` -/
abbrev maxRetryCount : ℕ := 5

/-- What the SLIP layer sends: its packet is read byte by byte, an acknowledgement from the static
    buffer that the next acknowledgement overwrites. -/
inductive SlipSource where
  | ack
  /-- The application packet with this index. -/
  | data (packet : ℕ) (bytes : List HciByte)
deriving DecidableEq, Repr

/-- `m_current_state` of the SLIP layer, with what it has read so far. -/
inductive SlipSend where
  | ready
  | transmitting (source : SlipSource) (sent : List HciByte)
deriving DecidableEq, Repr

/-- A whole frame on the wire; `packet` says which application packet it carries. -/
structure WireFrame where
  bytes : List HciByte
  packet : Option ℕ
deriving DecidableEq, Repr

/-- The state of an instance, and what its application has seen. -/
structure HciTransport where
  txState : TxState
  packetExpectedSeqNumber : Fin 8
  packetTransmitSeqNumber : Fin 8
  txBuffer : List HciByte
  txRetryCounter : ℕ
  txDoneResultCode : TxDoneResult
  /-- `ack_packet` -/
  ackPacket : List HciByte
  slip : SlipSend
  /-- The packets passed to `hci_transport_pkt_write`. -/
  written : List (List HciByte)
  /-- The results passed to `m_transport_tx_done_handle`, one for each packet. -/
  txDone : List TxDoneResult
  /-- The packets behind the `HCI_TRANSPORT_RX_RDY` events, each with its index at the peer. -/
  rxRdy : List (ℕ × List HciByte)
deriving DecidableEq, Repr

/-- `hci_transport_open` -/
def hciTransportOpen : HciTransport where
  txState := .idle
  packetExpectedSeqNumber := 1
  packetTransmitSeqNumber := 1
  txBuffer := []
  txRetryCounter := 0
  txDoneResultCode := .failure
  ackPacket := [0, 0, 0, 0]
  slip := .ready
  written := []
  txDone := []
  rxRdy := []

/-- `hci_slip_write`: whether the layer takes the packet. -/
def slipWrite (source : SlipSource) (t : HciTransport) : Bool × HciTransport :=
  match t.slip with
  | .ready => (true, { t with slip := .transmitting source [] })
  | .transmitting _ _ => (false, t)

/-- The application packet in `mp_tx_buffer`, the last one written. -/
def HciTransport.txSource (t : HciTransport) : SlipSource :=
  .data (t.written.length - 1) t.txBuffer

/-- `expected_ack_number_get` -/
def expectedAckNumberGet (t : HciTransport) : Fin 8 := t.packetTransmitSeqNumber + 1

/-- `tx_sm_event_handle(TX_EVENT_STATE_ENTRY)` -/
def txSmStateEntry (t : HciTransport) : HciTransport :=
  match t.txState with
  | .idle => { t with txDone := t.txDone ++ [t.txDoneResultCode] }
  | .pending => t
  | .active => { t with txRetryCounter := 0 }

/-- `tx_sm_state_change` -/
def txSmStateChange (state : TxState) (t : HciTransport) : HciTransport :=
  txSmStateEntry { t with txState := state }

/-- `tx_sm_event_handle` -/
def txSmEventHandle (event : TxEvent) (t : HciTransport) : HciTransport :=
  match t.txState, event with
  | _, .stateEntry => txSmStateEntry t
  | .pending, .slipTxDone => txSmStateChange .active (slipWrite t.txSource t).2
  | .active, .validRxAck =>
    -- `packet_number_tx_inc`
    txSmStateChange .idle { t with packetTransmitSeqNumber := t.packetTransmitSeqNumber + 1 }
  | .active, .timeout =>
    if t.txRetryCounter ≠ maxRetryCount then
      (slipWrite t.txSource { t with txRetryCounter := t.txRetryCounter + 1 }).2
    else txSmStateChange .idle { t with txDoneResultCode := .failure }
  | _, _ => t

/-- `ack_transmit` -/
def ackTransmit (t : HciTransport) : HciTransport :=
  (slipWrite .ack { t with ackPacket := NordicEsb.ackPacket t.packetExpectedSeqNumber }).2

/-- `rx_vendor_specific_pkt_type_handle` -/
def rxVendorSpecificPktTypeHandle (frame : WireFrame) (t : HciTransport) : HciTransport :=
  if isRxPktValid frame.bytes then
    if t.packetExpectedSeqNumber = packetSeqNmbrExtract frame.bytes then
      let t := ackTransmit { t with packetExpectedSeqNumber := t.packetExpectedSeqNumber + 1 }
      { t with rxRdy := t.rxRdy ++ [(frame.packet.getD 0, rxPktData frame.bytes)] }
    else ackTransmit t
  else t

/-- `slip_event_handle` for `HCI_SLIP_RX_RDY`. -/
def slipRxRdyHandle (frame : WireFrame) (t : HciTransport) : HciTransport :=
  if packetTypeDecode frame.bytes = pktTypeVendorSpecific then
    rxVendorSpecificPktTypeHandle frame t
  else if packetTypeDecode frame.bytes = pktTypeAck then
    if rxAckPktTypeHandle (expectedAckNumberGet t) frame.bytes then
      txSmEventHandle .validRxAck { t with txDoneResultCode := .success }
    else t
  else t

/-- `pkt_write_handle` -/
def pktWriteHandle (t : HciTransport) : HciRet × HciTransport :=
  match slipWrite t.txSource t with
  | (true, t) => (.success, txSmStateChange .active t)
  | (false, t) => (.success, txSmStateChange .pending t)

/-- `hci_transport_pkt_write` -/
def hciTransportPktWrite (pBuffer : Option (List HciByte)) (t : HciTransport) :
    HciRet × HciTransport :=
  match pBuffer with
  | none => (.errorNull, t)
  | some data =>
    match t.txState with
    | .idle =>
      pktWriteHandle
        { t with
          txBuffer := hciTxPacket t.packetExpectedSeqNumber t.packetTransmitSeqNumber data
          written := t.written ++ [data] }
    | _ => (.errorNoMem, t)

/-- What the SLIP layer reads. -/
def SlipSource.bytes (t : HciTransport) : SlipSource → List HciByte
  | .ack => t.ackPacket
  | .data _ bytes => bytes

/-- The index of the packet that is sent. -/
def SlipSource.packet : SlipSource → Option ℕ
  | .ack => none
  | .data packet _ => some packet

/-- The SLIP layer sends one more byte; with the end byte the frame is on the wire and
    `HCI_SLIP_TX_DONE` is handled. -/
def slipSendByte (t : HciTransport) : List WireFrame × HciTransport :=
  match t.slip with
  | .ready => ([], t)
  | .transmitting source sent =>
    if sent.length < (source.bytes t).length then
      ([], { t with
        slip := .transmitting source (sent ++ [byteAt (source.bytes t) sent.length]) })
    else ([⟨sent, source.packet⟩], txSmEventHandle .slipTxDone { t with slip := .ready })

/-! ## §2 Both instances -/

/-- The two ends. -/
inductive HciSide where
  | a
  | b
deriving DecidableEq, Repr

/-- The other end. -/
def HciSide.peer : HciSide → HciSide
  | .a => .b
  | .b => .a

/-- Both instances and the frames on the wires, the oldest first. -/
structure HciNet where
  a : HciTransport
  b : HciTransport
  fromA : List WireFrame
  fromB : List WireFrame
deriving DecidableEq, Repr

/-- The instance at an end. -/
def HciNet.side (s : HciNet) : HciSide → HciTransport
  | .a => s.a
  | .b => s.b

/-- The frames that an end has sent. -/
def HciNet.wire (s : HciNet) : HciSide → List WireFrame
  | .a => s.fromA
  | .b => s.fromB

/-- The instance at an end handles an event. -/
def HciNet.act (d : HciSide) (f : HciTransport → List WireFrame × HciTransport) (s : HciNet) :
    HciNet :=
  match d with
  | .a => { s with a := (f s.a).2, fromA := s.fromA ++ (f s.a).1 }
  | .b => { s with b := (f s.b).2, fromB := s.fromB ++ (f s.b).1 }

/-- Other frames on a wire. -/
def HciNet.setWire (d : HciSide) (wire : List WireFrame) (s : HciNet) : HciNet :=
  match d with
  | .a => { s with fromA := wire }
  | .b => { s with fromB := wire }

/-- What can happen. -/
inductive HciNetLabel where
  /-- The application writes a packet. -/
  | write (d : HciSide) (data : List HciByte)
  /-- The SLIP layer sends a byte. -/
  | slipByte (d : HciSide)
  /-- The oldest frame arrives at the other end. -/
  | deliver (d : HciSide)
  /-- A frame is lost. -/
  | lose (d : HciSide) (i : ℕ)
  /-- `hci_transport_timeout_handle` -/
  | timeout (d : HciSide)
deriving DecidableEq, Repr

/-- The oldest frame from an end arrives. -/
def HciNet.receive (d : HciSide) (s : HciNet) : HciNet :=
  match s.wire d with
  | [] => s
  | frame :: rest => (s.setWire d rest).act d.peer fun t => ([], slipRxRdyHandle frame t)

/-- The state after an event. -/
def HciNet.step (s : HciNet) : HciNetLabel → HciNet
  | .write d data => s.act d fun t => ([], (hciTransportPktWrite (some data) t).2)
  | .slipByte d => s.act d slipSendByte
  | .timeout d => s.act d fun t => ([], txSmEventHandle .timeout t)
  | .lose d i => s.setWire d ((s.wire d).eraseIdx i)
  | .deliver d => s.receive d

/-- The application writes a packet after the callback for the one before; a length has 16 bits. -/
def HciNetLabel.Enabled (s : HciNet) : HciNetLabel → Prop
  | .write d data => (s.side d).txState = .idle ∧ data.length < 2 ^ 16
  | _ => True

/-- **The two transports and the link between them.** -/
def hciNet : Machine HciNet HciNetLabel where
  start s := s = ⟨hciTransportOpen, hciTransportOpen, [], []⟩
  enabled s l := l.Enabled s
  step := HciNet.step

/-! ## §3 What is agreed -/

/-- **What a sender reports and what its peer has accepted.** -/
structure Agreed (sender receiver : HciTransport) : Prop where
  /-- A packet reported as sent was accepted exactly once. -/
  once : ∀ i, sender.txDone[i]? = some .success → (receiver.rxRdy.map Prod.fst).count i = 1
  /-- Packets are accepted in the order in which they were written. -/
  inOrder : (receiver.rxRdy.map Prod.fst).Pairwise (· < ·)
  /-- What was accepted is what was written. -/
  intact : ∀ p ∈ receiver.rxRdy, sender.written[p.1]? = some p.2

/-- The frame that the SLIP layer has begun to send and that nothing can change any more. -/
def HciTransport.leaving (t : HciTransport) : List WireFrame :=
  match t.slip with
  | .ready => []
  | .transmitting .ack sent => if sent.length = pktHdrSize then [⟨sent, none⟩] else []
  | .transmitting (.data packet bytes) _ => [⟨bytes, some packet⟩]

/-- The frames on the wire and the one behind them. -/
def HciNet.onTheWay (s : HciNet) (d : HciSide) : List WireFrame := s.wire d ++ (s.side d).leaving

/-- **The condition**: where the last packet failed, the peer has not accepted it, and no copy of it
    is on the way. -/
def Unseen (s : HciNet) : HciNetLabel → Prop
  | .write d _ =>
    (s.side d).txDone.getLast? = some .failure →
      (s.side d.peer).packetExpectedSeqNumber = (s.side d).packetTransmitSeqNumber ∧
        ∀ f ∈ s.onTheWay d, f.packet ≠ some ((s.side d).written.length - 1)
  | _ => True

end NordicEsb
