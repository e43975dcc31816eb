import NordicEsb.Hci.MemPool
import Mathlib.Data.List.Basic
import Mathlib.Data.List.Flatten

/-!
# SLIP

A packet is sent between two end bytes, with an escape byte before each byte of it that looks like
an end byte or an escape byte. The sender is a loop that stops where the UART has no memory left
and goes on when it is empty again; the receiver takes one byte at a time.

- `slipFrame` is the frame of a packet
- `transmitBuffer` and `slipUartEventhandler` are the two state machines of the code, with
  `send_tx_byte` and `handle_rx_byte` as their states

**Main result** (`slip_roundTrip`): whatever the UART refuses, it gets the frame byte by byte, and
a receiver of the frame gets the packet.
-/

namespace NordicEsb

/-! ## §1 Frames -/

/-- `APP_SLIP_END` -/
abbrev appSlipEnd : BitVec 8 := 0xC0

/-- `APP_SLIP_ESC` -/
abbrev appSlipEsc : BitVec 8 := 0xDB

/-- `APP_SLIP_ESC_END` -/
abbrev appSlipEscEnd : BitVec 8 := 0xDC

/-- `APP_SLIP_ESC_ESC` -/
abbrev appSlipEscEsc : BitVec 8 := 0xDD

/-- A byte of a packet as it is sent. -/
def slipEscape (b : BitVec 8) : List (BitVec 8) :=
  if b = appSlipEnd then [appSlipEsc, appSlipEscEnd]
  else if b = appSlipEsc then [appSlipEsc, appSlipEscEsc]
  else [b]

/-- The bytes of a packet and the end byte behind them. -/
def slipRest (packet : List (BitVec 8)) : List (BitVec 8) :=
  packet.flatMap slipEscape ++ [appSlipEnd]

/-- **The frame of a packet.** -/
def slipFrame (packet : List (BitVec 8)) : List (BitVec 8) := appSlipEnd :: slipRest packet

/-! ## §2 The module -/

/-- `slip_states_t` -/
inductive SlipState where
  | off
  | ready
  | transmitting
deriving DecidableEq, Repr

/-- What `send_tx_byte` points to. -/
inductive SendTxByte where
  | default
  | esc
  | encoded
  | endByte
deriving DecidableEq, Repr

/-- What `handle_rx_byte` points to. -/
inductive HandleRxByte where
  | default
  | waitStart
  | esc
deriving DecidableEq, Repr

/-- `hci_slip_evt_t`: a packet is named by its address, that of a sent packet is left out. -/
inductive HciSlipEvt where
  | rxRdy (packet packetLength : ℕ)
  | txDone (packetLength : ℕ)
  | rxOverflow (packet packetLength : ℕ)
deriving DecidableEq, Repr

/-- The module, the memory it writes to, the UART and the events it has raised. -/
structure HciSlip where
  currentState : SlipState
  /-- `m_slip_event_handler` is not `NULL`. -/
  eventHandler : Bool
  /-- What `mp_tx_buffer` points to. -/
  txBuffer : List (BitVec 8)
  txBufferLength : ℕ
  txBufferIndex : ℕ
  sendTxByte : SendTxByte
  /-- `mp_rx_buffer`; `NULL` is the address 0. -/
  rxBuffer : ℕ
  rxBufferLength : ℕ
  rxReceivedCount : ℕ
  handleRxByte : HandleRxByte
  memory : ℕ → BitVec 8
  /-- The bytes that `app_uart_put` has accepted. -/
  uartBytes : List (BitVec 8)
  /-- How many bytes `app_uart_put` accepts before it returns `NRF_ERROR_NO_MEM`. -/
  uartRoom : ℕ
  events : List HciSlipEvt

/-- `m_slip_event_handler(event)`, if there is a handler. -/
def HciSlip.raise (s : HciSlip) (evt : HciSlipEvt) : HciSlip :=
  if s.eventHandler then { s with events := s.events ++ [evt] } else s

/-- `app_uart_put` -/
def appUartPut (byte : BitVec 8) (s : HciSlip) : HciRet × HciSlip :=
  if s.uartRoom = 0 then (.errorNoMem, s)
  else (.success, { s with uartBytes := s.uartBytes ++ [byte], uartRoom := s.uartRoom - 1 })

/-- `mp_tx_buffer[m_tx_buffer_index]` -/
def HciSlip.txByte (s : HciSlip) : BitVec 8 := s.txBuffer.getD s.txBufferIndex 0

/-! ### Sending -/

/-- `send_tx_byte_end` -/
def sendTxByteEnd (s : HciSlip) : HciRet × HciSlip :=
  let (errCode, s) := appUartPut appSlipEnd s
  if errCode = .success ∧ s.txBufferIndex = 0 then
    -- Packet transmission started.
    (errCode, { s with sendTxByte := .default })
  else (errCode, s)

/-- `send_tx_byte_default` -/
def sendTxByteDefault (s : HciSlip) : HciRet × HciSlip :=
  let (errCode, s) := appUartPut s.txByte s
  if errCode = .success then (errCode, { s with txBufferIndex := s.txBufferIndex + 1 })
  else (errCode, s)

/-- `send_tx_byte_encoded` -/
def sendTxByteEncoded (s : HciSlip) : HciRet × HciSlip :=
  let (errCode, s) :=
    if s.txByte = appSlipEnd then appUartPut appSlipEscEnd s
    else if s.txByte = appSlipEsc then appUartPut appSlipEscEsc s
    else (.errorNoMem, s)
  if errCode = .success then
    (errCode, { s with txBufferIndex := s.txBufferIndex + 1, sendTxByte := .default })
  else (errCode, s)

/-- `send_tx_byte_esc` -/
def sendTxByteEsc (s : HciSlip) : HciRet × HciSlip :=
  let (errCode, s) := appUartPut appSlipEsc s
  if errCode = .success then (errCode, { s with sendTxByte := .encoded }) else (errCode, s)

/-- `send_tx_byte()` -/
def sendTxByte (s : HciSlip) : HciRet × HciSlip :=
  match s.sendTxByte with
  | .default => sendTxByteDefault s
  | .esc => sendTxByteEsc s
  | .encoded => sendTxByteEncoded s
  | .endByte => sendTxByteEnd s

/-- The choice of `send_tx_byte_esc` in the loop of `transmit_buffer`. -/
def escapeNext (s : HciSlip) : HciSlip :=
  if (s.txByte = appSlipEnd ∨ s.txByte = appSlipEsc) ∧ s.sendTxByte = .default then
    { s with sendTxByte := .esc }
  else s

/-- The loop of `transmit_buffer`, at most `fuel` rounds, and whether the UART has no memory
    left. -/
def transmitLoop : ℕ → HciSlip → Bool × HciSlip
  | 0, s => (true, s)
  | fuel + 1, s =>
    if s.txBufferIndex < s.txBufferLength then
      match sendTxByte (escapeNext s) with
      | (.errorNoMem, s) => (true, s)
      | (_, s) => transmitLoop fuel s
    else (false, s)

/-- `transmit_buffer`: every round of the loop but the last puts a byte. -/
def transmitBuffer (s : HciSlip) : HciSlip :=
  match transmitLoop (s.uartRoom + 1) s with
  | (true, s) => s
  | (false, s) =>
    match sendTxByte { s with sendTxByte := .endByte } with
    | (.success, s) => { s with currentState := .ready }.raise (.txDone s.txBufferIndex)
    | (_, s) => s

/-- `hci_slip_write` -/
def hciSlipWrite (pBuffer : Option (List (BitVec 8))) (length : ℕ) (s : HciSlip) :
    HciRet × HciSlip :=
  match pBuffer with
  | none => (.errorInvalidAddr, s)
  | some buffer =>
    match s.currentState with
    | .ready =>
      (.success, transmitBuffer
        { s with
          txBufferIndex := 0
          txBufferLength := length
          txBuffer := buffer
          currentState := .transmitting
          sendTxByte := .endByte })
    | .transmitting => (.errorNoMem, s)
    | .off => (.errorInvalidState, s)

/-! ### Receiving -/

/-- `mp_rx_buffer[m_rx_received_count++] = byte` -/
def HciSlip.store (s : HciSlip) (byte : BitVec 8) : HciSlip :=
  { s with
    memory := fun a => if a = s.rxBuffer + s.rxReceivedCount then byte else s.memory a
    rxReceivedCount := s.rxReceivedCount + 1 }

/-- `handle_slip_end` -/
def handleSlipEnd (s : HciSlip) : HciSlip :=
  if s.rxReceivedCount > 0 ∧ s.eventHandler = true then
    { s with rxReceivedCount := 0, rxBuffer := 0 }.raise (.rxRdy s.rxBuffer s.rxReceivedCount)
  else s

/-- `handle_rx_byte_esc` -/
def handleRxByteEsc (byte : BitVec 8) (s : HciSlip) : HciSlip :=
  let s :=
    if byte = appSlipEnd then handleSlipEnd s
    else if byte = appSlipEscEnd then s.store appSlipEnd
    else if byte = appSlipEscEsc then s.store appSlipEsc
    else s.store byte
  { s with handleRxByte := .default }

/-- `handle_rx_byte_default` -/
def handleRxByteDefault (byte : BitVec 8) (s : HciSlip) : HciSlip :=
  if byte = appSlipEnd then handleSlipEnd s
  else if byte = appSlipEsc then { s with handleRxByte := .esc }
  else s.store byte

/-- `handle_rx_byte_wait_start` -/
def handleRxByteWaitStart (byte : BitVec 8) (s : HciSlip) : HciSlip :=
  if byte = appSlipEnd then { s with handleRxByte := .default } else s

/-- `handle_rx_byte(byte)` -/
def handleRxByte (byte : BitVec 8) (s : HciSlip) : HciSlip :=
  match s.handleRxByte with
  | .default => handleRxByteDefault byte s
  | .waitStart => handleRxByteWaitStart byte s
  | .esc => handleRxByteEsc byte s

/-- `rx_buffer_overflowed` -/
def rxBufferOverflowed (s : HciSlip) : Bool × HciSlip :=
  if s.rxBuffer = 0 ∨ s.rxReceivedCount ≥ s.rxBufferLength then
    (true, s.raise (.rxOverflow s.rxBuffer s.rxReceivedCount))
  else (false, s)

/-- The events of the UART that the module handles. -/
inductive AppUartEvt where
  /-- `APP_UART_TX_EMPTY`: the UART accepts so many bytes again. -/
  | txEmpty (room : ℕ)
  /-- `APP_UART_DATA` -/
  | data (value : BitVec 8)
deriving DecidableEq, Repr

/-- `slip_uart_eventhandler` -/
def slipUartEventhandler (s : HciSlip) : AppUartEvt → HciSlip
  | .txEmpty room =>
    let s := { s with uartRoom := room }
    if s.currentState = .transmitting then transmitBuffer s else s
  | .data value =>
    match rxBufferOverflowed s with
    | (true, s) => s
    | (false, s) => handleRxByte value s

/-- `hci_slip_rx_buffer_register` -/
def hciSlipRxBufferRegister (pBuffer length : ℕ) (s : HciSlip) : HciSlip :=
  { s with
    rxBuffer := pBuffer
    rxBufferLength := length
    rxReceivedCount := 0
    handleRxByte := .waitStart }

/-! ## §3 Sending under back-pressure -/

variable {packet rest : List (BitVec 8)} {b : BitVec 8} {s : HciSlip}

theorem slipRest_cons (b : BitVec 8) (packet : List (BitVec 8)) :
    slipRest (b :: packet) = slipEscape b ++ slipRest packet := by
  simp [slipRest]

/-- **Where the sender is**, and what it still has to send. -/
inductive SlipPending (packet : List (BitVec 8)) : SendTxByte → ℕ → List (BitVec 8) → Prop
  | start : SlipPending packet .endByte 0 (slipFrame packet)
  | default (i : ℕ) (hi : i ≤ packet.length) :
      SlipPending packet .default i (slipRest (packet.drop i))
  | esc (i : ℕ) (hi : i < packet.length)
      (hb : packet[i] = appSlipEnd ∨ packet[i] = appSlipEsc) :
      SlipPending packet .esc i (slipRest (packet.drop i))
  | encoded (i : ℕ) (hi : i < packet.length) (code : BitVec 8)
      (hb : slipEscape packet[i] = [appSlipEsc, code]) :
      SlipPending packet .encoded i (code :: slipRest (packet.drop (i + 1)))
  | finish : SlipPending packet .endByte packet.length [appSlipEnd]

/-- The module sends `packet` and has `rest` of its frame still to put. -/
structure Sending (packet : List (BitVec 8)) (s : HciSlip) (rest : List (BitVec 8)) : Prop where
  nonempty : packet ≠ []
  state : s.currentState = .transmitting
  handler : s.eventHandler = true
  buffer : s.txBuffer = packet
  length : s.txBufferLength = packet.length
  pending : SlipPending packet s.sendTxByte s.txBufferIndex rest

/-- What a round of the loop leaves alone, and what it puts. -/
structure Put (s s' : HciSlip) (l : List (BitVec 8)) : Prop where
  bytes : s'.uartBytes = s.uartBytes ++ l
  room : s'.uartRoom + l.length = s.uartRoom
  events : s'.events = s.events

theorem Put.trans {s s' s'' : HciSlip} {l l' : List (BitVec 8)} (h : Put s s' l)
    (h' : Put s' s'' l') : Put s s'' (l ++ l') := by
  refine ⟨?_, ?_, h'.events.trans h.events⟩
  · rw [h'.bytes, h.bytes, List.append_assoc]
  · rw [List.length_append]
    have := h.room
    have := h'.room
    omega

theorem drop_eq_cons {i : ℕ} (hi : i < packet.length) :
    packet.drop i = packet[i] :: packet.drop (i + 1) :=
  List.drop_eq_getElem_cons hi

theorem slipEscape_plain (hend : b ≠ appSlipEnd) (hesc : b ≠ appSlipEsc) : slipEscape b = [b] := by
  unfold slipEscape
  rw [if_neg hend, if_neg hesc]

theorem Sending.txByte (h : Sending packet s rest) (hi : s.txBufferIndex < packet.length) :
    s.txByte = packet[s.txBufferIndex] := by
  unfold HciSlip.txByte
  rw [h.buffer, List.getD_eq_getElem _ _ hi]

/-- A byte that the UART accepts. -/
theorem appUartPut_room (byte : BitVec 8) (hroom : s.uartRoom ≠ 0) :
    appUartPut byte s =
      (.success, { s with uartBytes := s.uartBytes ++ [byte], uartRoom := s.uartRoom - 1 }) :=
  if_neg hroom

theorem appUartPut_full (byte : BitVec 8) (hroom : s.uartRoom = 0) :
    appUartPut byte s = (.errorNoMem, s) :=
  if_pos hroom

/-- The sender after the choice of `send_tx_byte_esc`. -/
theorem Sending.escapeNext (h : Sending packet s rest) (hi : s.txBufferIndex < packet.length) :
    Sending packet (escapeNext s) rest ∧ Put s (escapeNext s) [] ∧
      (escapeNext s).txBufferIndex = s.txBufferIndex ∧
      ((escapeNext s).sendTxByte = .default →
        packet[s.txBufferIndex] ≠ appSlipEnd ∧ packet[s.txBufferIndex] ≠ appSlipEsc) := by
  have hbyte := h.txByte hi
  unfold NordicEsb.escapeNext
  split
  case isTrue hspecial =>
    refine ⟨⟨h.nonempty, h.state, h.handler, h.buffer, h.length, ?_⟩, ⟨by simp, rfl, rfl⟩, rfl,
      fun hdefault => by cases hdefault⟩
    rw [hbyte] at hspecial
    have hpending := h.pending
    obtain ⟨send, hsend⟩ : ∃ send, send = s.sendTxByte := ⟨_, rfl⟩
    obtain ⟨i, hi'⟩ : ∃ i, i = s.txBufferIndex := ⟨_, rfl⟩
    simp only [← hi', ← hsend] at hpending hspecial hi ⊢
    obtain ⟨hbytes, rfl⟩ := hspecial
    cases hpending with
    | default _ hle => exact .esc i hi hbytes
  case isFalse hplain =>
    refine ⟨h, ⟨by simp, rfl, rfl⟩, rfl, fun hdefault => ?_⟩
    rw [hbyte] at hplain
    exact ⟨fun heq => hplain ⟨.inl heq, hdefault⟩, fun heq => hplain ⟨.inr heq, hdefault⟩⟩

/-- **A round of the loop** where the UART has room: the next byte of the frame. -/
theorem Sending.put (h : Sending packet s rest) (hi : s.txBufferIndex < packet.length)
    (hroom : s.uartRoom ≠ 0)
    (hplain : s.sendTxByte = .default →
      packet[s.txBufferIndex] ≠ appSlipEnd ∧ packet[s.txBufferIndex] ≠ appSlipEsc) :
    ∃ b rest' s', rest = b :: rest' ∧ sendTxByte s = (.success, s') ∧ Sending packet s' rest' ∧
      Put s s' [b] := by
  have hbyte := h.txByte hi
  obtain ⟨hne, hstate, hhandler, hbuffer, hlength, hpending⟩ := h
  -- A put appends one byte and takes one place of the UART's room.
  have hput : ∀ (b : BitVec 8) (t : HciSlip), t.uartBytes = s.uartBytes ++ [b] →
      t.uartRoom = s.uartRoom - 1 → t.events = s.events → Put s t [b] := by
    intro b t hbytes hroom' hevents
    refine ⟨hbytes, ?_, hevents⟩
    rw [hroom', List.length_singleton]
    omega
  obtain ⟨send, hsend⟩ : ∃ send, send = s.sendTxByte := ⟨_, rfl⟩
  obtain ⟨i, hidx⟩ : ∃ i, i = s.txBufferIndex := ⟨_, rfl⟩
  simp only [← hidx] at hi hplain hbyte
  rw [← hsend, ← hidx] at hpending
  rw [← hsend] at hplain
  unfold NordicEsb.sendTxByte
  rw [← hsend]
  -- The function pointer says which byte is next: the cases are its four values and the end.
  cases hpending with
  | start =>
    have hout : sendTxByteEnd s = (.success,
        { s with
          uartBytes := s.uartBytes ++ [appSlipEnd]
          uartRoom := s.uartRoom - 1
          sendTxByte := .default }) := by
      simp only [sendTxByteEnd, appUartPut_room _ hroom]
      rw [if_pos ⟨trivial, hidx.symm⟩]
    refine ⟨appSlipEnd, slipRest packet, _, rfl, hout, ?_, hput _ _ rfl rfl rfl⟩
    refine ⟨hne, hstate, hhandler, hbuffer, hlength, ?_⟩
    dsimp only
    rw [← hidx]
    exact .default 0 (Nat.zero_le _)
  | default _ hle =>
    obtain ⟨hend, hesc⟩ := hplain rfl
    have hout : sendTxByteDefault s = (.success,
        { s with
          uartBytes := s.uartBytes ++ [packet[i]]
          uartRoom := s.uartRoom - 1
          txBufferIndex := s.txBufferIndex + 1 }) := by
      simp only [sendTxByteDefault, hbyte, appUartPut_room _ hroom]
      rfl
    refine ⟨packet[i], slipRest (packet.drop (i + 1)), _, ?_, hout, ?_, hput _ _ rfl rfl rfl⟩
    · rw [drop_eq_cons hi, slipRest_cons, slipEscape_plain hend hesc]
      rfl
    · refine ⟨hne, hstate, hhandler, hbuffer, hlength, ?_⟩
      dsimp only
      rw [← hsend, ← hidx]
      exact .default (i + 1) hi
  | esc _ _ hb =>
    -- The byte needs an escape: `0xDB` goes first and its code in the next round.
    obtain ⟨code, hcode⟩ : ∃ code, slipEscape packet[i] = [appSlipEsc, code] := by
      unfold slipEscape
      by_cases hend : packet[i] = appSlipEnd
      · exact ⟨_, if_pos hend⟩
      · rw [if_neg hend, if_pos (hb.resolve_left hend)]
        exact ⟨_, rfl⟩
    have hout : sendTxByteEsc s = (.success,
        { s with
          uartBytes := s.uartBytes ++ [appSlipEsc]
          uartRoom := s.uartRoom - 1
          sendTxByte := .encoded }) := by
      simp only [sendTxByteEsc, appUartPut_room _ hroom]
      rfl
    refine ⟨appSlipEsc, code :: slipRest (packet.drop (i + 1)), _, ?_, hout, ?_,
      hput _ _ rfl rfl rfl⟩
    · rw [drop_eq_cons hi, slipRest_cons, hcode]
      rfl
    · refine ⟨hne, hstate, hhandler, hbuffer, hlength, ?_⟩
      dsimp only
      rw [← hidx]
      exact .encoded i hi code hcode
  | encoded _ _ code hb =>
    -- The code of the escaped byte: `sendTxByteEncoded` compares the byte once more.
    have hout : sendTxByteEncoded s = (.success,
        { s with
          uartBytes := s.uartBytes ++ [code]
          uartRoom := s.uartRoom - 1
          txBufferIndex := s.txBufferIndex + 1
          sendTxByte := .default }) := by
      unfold sendTxByteEncoded
      rw [hbyte]
      unfold slipEscape at hb
      by_cases hend : packet[i] = appSlipEnd
      · rw [if_pos hend] at hb
        obtain rfl : appSlipEscEnd = code := by simpa using hb
        simp only [if_pos hend, appUartPut_room _ hroom]
        rfl
      · rw [if_neg hend] at hb
        by_cases hesc : packet[i] = appSlipEsc
        · rw [if_pos hesc] at hb
          obtain rfl : appSlipEscEsc = code := by simpa using hb
          simp only [if_neg hend, if_pos hesc, appUartPut_room _ hroom]
          rfl
        · rw [if_neg hesc] at hb
          simp at hb
    refine ⟨code, _, _, rfl, hout, ?_, hput _ _ rfl rfl rfl⟩
    refine ⟨hne, hstate, hhandler, hbuffer, hlength, ?_⟩
    dsimp only
    rw [← hidx]
    exact .default (i + 1) hi
  | finish => omega

/-- **A round of the loop** where the UART has no room. -/
theorem sendTxByte_full (hroom : s.uartRoom = 0) : sendTxByte s = (.errorNoMem, s) := by
  unfold NordicEsb.sendTxByte
  split
  · simp only [sendTxByteDefault, appUartPut_full _ hroom]
    rfl
  · simp only [sendTxByteEsc, appUartPut_full _ hroom]
    rfl
  · unfold sendTxByteEncoded
    simp only [appUartPut_full _ hroom, ite_self]
    rfl
  · simp only [sendTxByteEnd, appUartPut_full _ hroom]
    rfl

/-- More than the end byte is left as long as the packet has bytes left. -/
theorem Sending.two_le (h : Sending packet s rest) (hi : s.txBufferIndex < packet.length) :
    2 ≤ rest.length := by
  have hrest : ∀ i, i < packet.length → 2 ≤ (slipRest (packet.drop i)).length := by
    intro i hlt
    rw [drop_eq_cons hlt, slipRest_cons]
    have hescape : 1 ≤ (slipEscape packet[i]).length := by
      unfold slipEscape
      split
      · simp
      · split
        · simp
        · simp
    have hend : 1 ≤ (slipRest (packet.drop (i + 1))).length := by simp [slipRest]
    rw [List.length_append]
    omega
  have hpending := h.pending
  obtain ⟨send, hsend⟩ : ∃ send, send = s.sendTxByte := ⟨_, rfl⟩
  obtain ⟨i, hidx⟩ : ∃ i, i = s.txBufferIndex := ⟨_, rfl⟩
  rw [← hsend, ← hidx] at hpending
  rw [← hidx] at hi
  cases hpending with
  | start =>
    have := hrest 0 hi
    simp only [slipFrame, List.length_cons, List.drop_zero] at this ⊢
    omega
  | default _ _ => exact hrest i hi
  | esc _ _ _ => exact hrest i hi
  | encoded _ _ code _ => simp [slipRest]
  | finish => omega

/-- Only the end byte is left when the packet has no byte left. -/
theorem Sending.last (h : Sending packet s rest) (hi : ¬ s.txBufferIndex < packet.length) :
    s.txBufferIndex = packet.length ∧ rest = [appSlipEnd] := by
  have hpending := h.pending
  have hpos : 0 < packet.length := List.length_pos_iff.mpr h.nonempty
  obtain ⟨send, hsend⟩ : ∃ send, send = s.sendTxByte := ⟨_, rfl⟩
  obtain ⟨i, hidx⟩ : ∃ i, i = s.txBufferIndex := ⟨_, rfl⟩
  rw [← hsend, ← hidx] at hpending
  rw [← hidx] at hi ⊢
  cases hpending with
  | start => omega
  | default _ hle =>
    have heq : i = packet.length := by omega
    refine ⟨heq, ?_⟩
    rw [heq, List.drop_length]
    rfl
  | esc _ hlt _ => omega
  | encoded _ hlt code _ => omega
  | finish => exact ⟨rfl, rfl⟩

/-- **The loop of `transmit_buffer`** puts as many bytes as there is room for, up to the end
    byte. -/
theorem transmitLoop_cases (fuel : ℕ) (h : Sending packet s rest) (hfuel : s.uartRoom < fuel) :
    (∃ s', transmitLoop fuel s = (true, s') ∧ s.uartRoom + 1 < rest.length ∧
      Sending packet s' (rest.drop s.uartRoom) ∧ Put s s' (rest.take s.uartRoom)) ∨
    (∃ s' l, transmitLoop fuel s = (false, s') ∧ rest = l ++ [appSlipEnd] ∧
      Sending packet s' [appSlipEnd] ∧ s'.txBufferIndex = packet.length ∧ Put s s' l) := by
  induction fuel generalizing s rest with
  | zero => omega
  | succ fuel ih =>
    unfold transmitLoop
    rw [h.length]
    by_cases hi : s.txBufferIndex < packet.length
    · rw [if_pos hi]
      obtain ⟨hnext, hsame, hidx, hplain⟩ := h.escapeNext hi
      have hi' : (NordicEsb.escapeNext s).txBufferIndex < packet.length := by rwa [hidx]
      have hroom : (NordicEsb.escapeNext s).uartRoom = s.uartRoom := by simpa using hsame.room
      have htwo := hnext.two_le hi'
      by_cases hfull : s.uartRoom = 0
      · -- The UART has no memory left.
        rw [sendTxByte_full (by rw [hroom, hfull])]
        refine .inl ⟨_, rfl, by omega, ?_, ?_⟩
        · rw [hfull]
          exact hnext
        · rw [hfull]
          exact hsame
      · obtain ⟨b, rest', s', rfl, hsend, hsending, hput⟩ :=
          hnext.put hi' (by rwa [hroom]) (by simpa only [hidx] using hplain)
        rw [hsend]
        have hroom' : s'.uartRoom + 1 = s.uartRoom := by
          have := hput.room
          simp only [List.length_singleton] at this
          omega
        rcases ih hsending (by omega) with
          ⟨t, ht, hlen, hdrop, htake⟩ | ⟨t, l, ht, hl, hlast, hindex, htail⟩
        · refine .inl ⟨t, ht, ?_, ?_, ?_⟩
          · rw [List.length_cons]
            omega
          · rw [← hroom', List.drop_succ_cons]
            exact hdrop
          · rw [← hroom', List.take_succ_cons]
            exact hsame.trans (hput.trans htake)
        · refine .inr ⟨t, b :: l, ht, by rw [hl, List.cons_append], hlast, hindex, ?_⟩
          exact hsame.trans (hput.trans htail)
    · rw [if_neg hi]
      obtain ⟨hidx, rfl⟩ := h.last hi
      exact .inr ⟨s, [], rfl, rfl, h, hidx, by simp, by simp, rfl⟩

/-- **`transmit_buffer`**: as many bytes as there is room for, and the event behind the last. -/
theorem transmitBuffer_cases (h : Sending packet s rest) :
    (s.uartRoom < rest.length ∧ Sending packet (transmitBuffer s) (rest.drop s.uartRoom) ∧
      (transmitBuffer s).uartBytes = s.uartBytes ++ rest.take s.uartRoom ∧
      (transmitBuffer s).events = s.events) ∨
    (rest.length ≤ s.uartRoom ∧ (transmitBuffer s).currentState = .ready ∧
      (transmitBuffer s).uartBytes = s.uartBytes ++ rest ∧
      (transmitBuffer s).events = s.events ++ [.txDone packet.length]) := by
  unfold transmitBuffer
  rcases transmitLoop_cases (s.uartRoom + 1) h (Nat.lt_succ_self _) with
    ⟨s', hloop, hlen, hsending, hput⟩ | ⟨s', l, hloop, rfl, hsending, hidx, hput⟩
  · rw [hloop]
    exact .inl ⟨by omega, hsending, hput.bytes, hput.events⟩
  · rw [hloop]
    have hpos : 0 < packet.length := List.length_pos_iff.mpr h.nonempty
    have hroom := hput.room
    simp only [NordicEsb.sendTxByte, sendTxByteEnd]
    by_cases hfull : s'.uartRoom = 0
    · -- The end byte is refused.
      rw [appUartPut_full _ (by exact hfull)]
      have hlen : l.length = s.uartRoom := by omega
      refine .inl ⟨by simp [hlen], ?_, ?_, hput.events⟩
      · rw [← hlen, List.drop_left]
        obtain ⟨hne, hstate, hhandler, hbuffer, hlength, -⟩ := hsending
        refine ⟨hne, hstate, hhandler, hbuffer, hlength, ?_⟩
        dsimp only
        rw [if_neg (by simp), hidx]
        exact .finish
      · rw [← hlen, List.take_left]
        exact hput.bytes
    · rw [appUartPut_room _ (by exact hfull)]
      refine .inr ⟨by rw [List.length_append, List.length_singleton]; omega, ?_⟩
      simp only [hidx, hpos.ne', and_false, if_false, HciSlip.raise, hsending.handler, if_true]
      refine ⟨trivial, ?_, ?_⟩
      · rw [hput.bytes, List.append_assoc]
      · rw [hput.events]

/-- `hci_slip_write` when the UART accepts `room` bytes, and one `APP_UART_TX_EMPTY` for each of
    `rooms`. -/
def slipSent (packet : List (BitVec 8)) (room : ℕ) (rooms : List ℕ) (s : HciSlip) : HciSlip :=
  rooms.foldl (fun s room => slipUartEventhandler s (.txEmpty room))
    (hciSlipWrite (some packet) packet.length { s with uartRoom := room }).2

/-- The module `s` has put `k` bytes of the frame since the state `s₀`. -/
structure SentUpTo (packet : List (BitVec 8)) (s₀ : HciSlip) (k : ℕ) (s : HciSlip) : Prop where
  bytes : s.uartBytes = s₀.uartBytes ++ (slipFrame packet).take k
  events : s.events = s₀.events ++
    if (slipFrame packet).length ≤ k then [.txDone packet.length] else []
  state : if (slipFrame packet).length ≤ k then s.currentState = .ready
    else Sending packet s ((slipFrame packet).drop k)

/-- A call of `transmit_buffer` goes on with the frame. -/
theorem SentUpTo.transmit {s₀ : HciSlip} {k : ℕ} (h : SentUpTo packet s₀ k s)
    (hk : k < (slipFrame packet).length) (room : ℕ) :
    SentUpTo packet s₀ (k + room) (transmitBuffer { s with uartRoom := room }) := by
  obtain ⟨hbytes, hevents, hstate⟩ := h
  rw [if_neg (by omega)] at hevents hstate
  have hsending : Sending packet { s with uartRoom := room } ((slipFrame packet).drop k) := by
    obtain ⟨hne, hcurrent, hhandler, hbuffer, hlength, hpending⟩ := hstate
    exact ⟨hne, hcurrent, hhandler, hbuffer, hlength, hpending⟩
  rcases transmitBuffer_cases hsending with ⟨hlen, hrest, hput, hevt⟩ | ⟨hlen, hready, hput, hevt⟩
  · rw [List.length_drop] at hlen
    dsimp only at hlen
    refine ⟨?_, ?_, ?_⟩
    · rw [hput, hbytes, List.append_assoc, ← List.take_add]
    · rw [hevt, hevents, if_neg (by omega)]
    · rw [if_neg (by omega), ← List.drop_drop]
      exact hrest
  · rw [List.length_drop] at hlen
    dsimp only at hlen
    refine ⟨?_, ?_, ?_⟩
    · rw [hput, hbytes, List.append_assoc, List.take_append_drop,
        List.take_of_length_le (by omega)]
    · rw [hevt, hevents, if_pos (by omega), List.append_nil]
    · rw [if_pos (by omega)]
      exact hready

/-- **Every pattern of refusals.** -/
theorem sentUpTo_slipSent (s : HciSlip) (room : ℕ) (rooms : List ℕ) (hne : packet ≠ [])
    (hready : s.currentState = .ready) (hhandler : s.eventHandler = true) :
    SentUpTo packet s (room + rooms.sum) (slipSent packet room rooms s) := by
  have hwrite : SentUpTo packet s room
      (hciSlipWrite (some packet) packet.length { s with uartRoom := room }).2 := by
    unfold hciSlipWrite
    simp only [hready]
    have hstart : SentUpTo packet s 0
        { s with
          txBufferIndex := 0
          txBufferLength := packet.length
          txBuffer := packet
          currentState := .transmitting
          sendTxByte := .endByte } :=
      ⟨by simp, by simp [slipFrame], ⟨hne, rfl, hhandler, rfl, rfl, .start⟩⟩
    simpa using hstart.transmit (by simp [slipFrame]) room
  unfold slipSent
  obtain ⟨t, ht⟩ : ∃ t, t = (hciSlipWrite (some packet) packet.length
    { s with uartRoom := room }).2 := ⟨_, rfl⟩
  rw [← ht] at hwrite ⊢
  clear ht
  induction rooms generalizing t room with
  | nil => simpa using hwrite
  | cons r rooms ih =>
    rw [List.sum_cons, ← Nat.add_assoc, List.foldl_cons]
    refine ih (room + r) _ ?_
    unfold slipUartEventhandler
    by_cases hdone : (slipFrame packet).length ≤ room
    · -- Nothing is left to send.
      obtain ⟨hbytes, hevents, hstate⟩ := hwrite
      rw [if_pos hdone] at hevents hstate
      dsimp only
      rw [if_neg (by simp [hstate])]
      refine ⟨?_, ?_, ?_⟩
      · rw [List.take_of_length_le (by omega), ← List.take_of_length_le hdone]
        exact hbytes
      · rw [if_pos (by omega)]
        exact hevents
      · rw [if_pos (by omega)]
        exact hstate
    · have hsending := hwrite.state
      rw [if_neg hdone] at hsending
      dsimp only
      rw [if_pos hsending.state]
      exact hwrite.transmit (by omega) r

/-! ## §4 Receiving a frame -/

/-- Bytes from the UART. -/
def slipReceived (bytes : List (BitVec 8)) (s : HciSlip) : HciSlip :=
  bytes.foldl (fun s byte => slipUartEventhandler s (.data byte)) s

@[simp] theorem slipReceived_nil (s : HciSlip) : slipReceived [] s = s := rfl

@[simp] theorem slipReceived_cons (byte : BitVec 8) (bytes : List (BitVec 8)) (s : HciSlip) :
    slipReceived (byte :: bytes) s
      = slipReceived bytes (slipUartEventhandler s (.data byte)) := rfl

theorem slipReceived_append (bytes bytes' : List (BitVec 8)) (s : HciSlip) :
    slipReceived (bytes ++ bytes') s = slipReceived bytes' (slipReceived bytes s) :=
  List.foldl_append

variable {p size : ℕ} {mem : ℕ → BitVec 8}

/-- The receiver writes only to the buffer at `p`, as long as it has one. -/
structure InBuffer (p size : ℕ) (mem : ℕ → BitVec 8) (s : HciSlip) : Prop where
  buffer : s.rxBuffer = 0 ∨ (s.rxBuffer = p ∧ s.rxBufferLength = size)
  outside : ∀ a, a < p ∨ p + size ≤ a → s.memory a = mem a

theorem InBuffer.store (h : InBuffer p size mem s) (hbuffer : s.rxBuffer ≠ 0)
    (hcount : s.rxReceivedCount < s.rxBufferLength) (byte : BitVec 8) :
    InBuffer p size mem (s.store byte) := by
  obtain ⟨hp, hsize⟩ := h.buffer.resolve_left hbuffer
  refine ⟨h.buffer, fun a ha => ?_⟩
  unfold HciSlip.store
  dsimp only
  rw [if_neg (by omega)]
  exact h.outside a ha

theorem InBuffer.slipEnd (h : InBuffer p size mem s) : InBuffer p size mem (handleSlipEnd s) := by
  unfold handleSlipEnd HciSlip.raise
  split
  · split
    · exact ⟨.inl rfl, h.outside⟩
    · exact ⟨.inl rfl, h.outside⟩
  · exact h

/-- **No byte is written outside the buffer**, whatever is received. -/
theorem InBuffer.received (h : InBuffer p size mem s) (bytes : List (BitVec 8)) :
    InBuffer p size mem (slipReceived bytes s) := by
  induction bytes generalizing s with
  | nil => exact h
  | cons byte bytes ih =>
    refine ih ?_
    unfold slipUartEventhandler rxBufferOverflowed
    dsimp only
    by_cases hover : s.rxBuffer = 0 ∨ s.rxReceivedCount ≥ s.rxBufferLength
    · rw [if_pos hover]
      unfold HciSlip.raise
      dsimp only
      split
      · exact ⟨h.buffer, h.outside⟩
      · exact h
    · rw [if_neg hover]
      rw [not_or, not_le] at hover
      have hstore := h.store hover.1 hover.2
      unfold NordicEsb.handleRxByte
      dsimp only
      split
      · unfold handleRxByteDefault
        split
        · exact h.slipEnd
        · split
          · exact ⟨h.buffer, h.outside⟩
          · exact hstore byte
      · unfold handleRxByteWaitStart
        split
        · exact ⟨h.buffer, h.outside⟩
        · exact h
      · have hkept : ∀ t, InBuffer p size mem t →
            InBuffer p size mem { t with handleRxByte := .default } :=
          fun t ht => ⟨ht.buffer, ht.outside⟩
        unfold handleRxByteEsc
        apply hkept
        split
        · exact h.slipEnd
        · split
          · exact hstore appSlipEnd
          · split
            · exact hstore appSlipEsc
            · exact hstore byte

/-- The receiver has decoded the bytes `l` since the buffer at `p` was registered. -/
structure Decoded (p size : ℕ) (events : List HciSlipEvt) (l : List (BitVec 8)) (s : HciSlip) :
    Prop where
  buffer : s.rxBuffer = p
  length : s.rxBufferLength = size
  count : s.rxReceivedCount = l.length
  handler : s.eventHandler = true
  events : s.events = events
  stored : ∀ i (hi : i < l.length), s.memory (p + i) = l[i]

theorem Decoded.store {events : List HciSlipEvt} {l : List (BitVec 8)}
    (h : Decoded p size events l s) (byte : BitVec 8) :
    Decoded p size events (l ++ [byte]) (s.store byte) := by
  refine ⟨h.buffer, h.length, ?_, h.handler, h.events, fun i hi => ?_⟩
  · unfold HciSlip.store
    rw [List.length_append, List.length_singleton, ← h.count]
  · unfold HciSlip.store
    dsimp only
    rw [h.buffer, h.count]
    rw [List.length_append, List.length_singleton] at hi
    by_cases hlast : i = l.length
    · subst hlast
      simp
    · rw [if_neg (by omega), List.getElem_append_left (by omega)]
      exact h.stored i (by omega)

/-- The buffer is not full. -/
theorem Decoded.handle {events : List HciSlipEvt} {l : List (BitVec 8)}
    (h : Decoded p size events l s) (hp : p ≠ 0) (hlt : l.length < size) (byte : BitVec 8) :
    slipUartEventhandler s (.data byte) = handleRxByte byte s := by
  unfold slipUartEventhandler rxBufferOverflowed
  dsimp only
  rw [if_neg]
  rw [h.buffer, h.count, h.length, not_or, not_le]
  exact ⟨hp, hlt⟩

/-- **A byte of the packet** is decoded. -/
theorem Decoded.escape {events : List HciSlipEvt} {l : List (BitVec 8)}
    (h : Decoded p size events l s) (hdefault : s.handleRxByte = .default) (hp : p ≠ 0)
    (hlt : l.length < size) (b : BitVec 8) :
    Decoded p size events (l ++ [b]) (slipReceived (slipEscape b) s) ∧
      (slipReceived (slipEscape b) s).handleRxByte = .default := by
  have hesc : ∀ code, slipReceived [appSlipEsc, code] s
      = handleRxByteEsc code { s with handleRxByte := .esc } := by
    intro code
    have hescaped : Decoded p size events l { s with handleRxByte := .esc } :=
      ⟨h.buffer, h.length, h.count, h.handler, h.events, h.stored⟩
    have hfirst : handleRxByte appSlipEsc s = { s with handleRxByte := .esc } := by
      unfold NordicEsb.handleRxByte
      rw [hdefault]
      rfl
    rw [slipReceived_cons, h.handle hp hlt, hfirst, slipReceived_cons, slipReceived_nil,
      hescaped.handle hp hlt]
    rfl
  have hkept : ∀ {l : List (BitVec 8)} (t : HciSlip) (x : HandleRxByte),
      Decoded p size events l t → Decoded p size events l { t with handleRxByte := x } :=
    fun t x ht => ⟨ht.buffer, ht.length, ht.count, ht.handler, ht.events, ht.stored⟩
  unfold slipEscape
  by_cases hend : b = appSlipEnd
  · rw [if_pos hend, hesc, hend]
    exact ⟨hkept _ _ ((hkept s .esc h).store appSlipEnd), rfl⟩
  · rw [if_neg hend]
    by_cases hescape : b = appSlipEsc
    · rw [if_pos hescape, hesc, hescape]
      exact ⟨hkept _ _ ((hkept s .esc h).store appSlipEsc), rfl⟩
    · have hstore : handleRxByte b s = s.store b := by
        unfold NordicEsb.handleRxByte handleRxByteDefault
        rw [hdefault]
        dsimp only
        rw [if_neg hend, if_neg hescape]
      rw [if_neg hescape, slipReceived_cons, slipReceived_nil, h.handle hp hlt, hstore]
      exact ⟨h.store b, hdefault⟩

/-- The bytes of the packet, one after the other. -/
theorem Decoded.flatMap {events : List HciSlipEvt} {l : List (BitVec 8)}
    (h : Decoded p size events l s) (hdefault : s.handleRxByte = .default) (hp : p ≠ 0)
    (hlt : l.length + packet.length < size) :
    Decoded p size events (l ++ packet) (slipReceived (packet.flatMap slipEscape) s) ∧
      (slipReceived (packet.flatMap slipEscape) s).handleRxByte = .default := by
  induction packet generalizing l s with
  | nil => simpa using And.intro h hdefault
  | cons b packet ih =>
    rw [List.length_cons] at hlt
    obtain ⟨hb, hdefault'⟩ := h.escape hdefault hp (by omega) b
    have hrest := ih hb hdefault' (by simp only [List.length_append, List.length_singleton]; omega)
    rw [List.flatMap_cons, slipReceived_append]
    rw [List.append_assoc, List.singleton_append] at hrest
    exact hrest

/-- **A frame is decoded**: one event, and the packet in the buffer. -/
theorem slipReceived_frame (s : HciSlip) (hne : packet ≠ []) (hhandler : s.eventHandler = true)
    (hp : p ≠ 0) (hsize : packet.length < size) :
    (slipReceived (slipFrame packet) (hciSlipRxBufferRegister p size s)).events
      = s.events ++ [.rxRdy p packet.length] ∧
    ∀ i (hi : i < packet.length),
      (slipReceived (slipFrame packet) (hciSlipRxBufferRegister p size s)).memory (p + i)
        = packet[i] := by
  have hregistered : Decoded p size s.events [] (hciSlipRxBufferRegister p size s) :=
    ⟨rfl, rfl, rfl, hhandler, rfl, fun i hi => absurd hi (Nat.not_lt_zero i)⟩
  -- the end byte in front
  have hstart : slipUartEventhandler (hciSlipRxBufferRegister p size s) (.data appSlipEnd)
      = { hciSlipRxBufferRegister p size s with handleRxByte := .default } := by
    rw [hregistered.handle hp (by simp only [List.length_nil]; omega)]
    rfl
  have hstarted : Decoded p size s.events []
      { hciSlipRxBufferRegister p size s with handleRxByte := .default } :=
    ⟨rfl, rfl, rfl, hhandler, rfl, fun i hi => absurd hi (Nat.not_lt_zero i)⟩
  obtain ⟨hpacket, hdefault⟩ := hstarted.flatMap rfl hp (by simpa using hsize)
  rw [List.nil_append] at hpacket
  unfold slipFrame slipRest
  rw [slipReceived_cons, hstart, slipReceived_append, slipReceived_cons, slipReceived_nil,
    hpacket.handle hp hsize]
  -- the end byte behind
  have hend : ∀ t : HciSlip, Decoded p size s.events packet t → t.handleRxByte = .default →
      handleRxByte appSlipEnd t = { t with
        rxReceivedCount := 0
        rxBuffer := 0
        events := t.events ++ [.rxRdy p packet.length] } := by
    intro t ht hdefault
    have hpos : 0 < packet.length := List.length_pos_iff.mpr hne
    have hready : handleRxByte appSlipEnd t = handleSlipEnd t := by
      unfold NordicEsb.handleRxByte
      rw [hdefault]
      rfl
    rw [hready]
    unfold handleSlipEnd HciSlip.raise
    rw [if_pos ⟨by rw [ht.count]; exact hpos, ht.handler⟩, ht.buffer, ht.count]
    simp [ht.handler]
  rw [hend _ hpacket hdefault]
  refine ⟨?_, hpacket.stored⟩
  dsimp only
  rw [hpacket.events]

/-! ## §5 The round trip -/

/-- **SLIP under back-pressure**: the UART gets the frame byte by byte, with one event when it is
    complete, and a receiver with a buffer longer than the packet decodes it and writes nothing
    outside that buffer. -/
theorem slip_roundTrip (tx rx : HciSlip) (packet : List (BitVec 8)) (room : ℕ) (rooms : List ℕ)
    (p size : ℕ) (hne : packet ≠ []) (hready : tx.currentState = .ready)
    (htx : tx.eventHandler = true) (hrx : rx.eventHandler = true) (hp : p ≠ 0)
    (hsize : packet.length < size) :
    (slipSent packet room rooms tx).uartBytes
      = tx.uartBytes ++ (slipFrame packet).take (room + rooms.sum) ∧
    (slipSent packet room rooms tx).events
      = tx.events ++
        (if (slipFrame packet).length ≤ room + rooms.sum then [.txDone packet.length] else []) ∧
    (slipReceived (slipFrame packet) (hciSlipRxBufferRegister p size rx)).events
      = rx.events ++ [.rxRdy p packet.length] ∧
    (∀ i (hi : i < packet.length),
      (slipReceived (slipFrame packet) (hciSlipRxBufferRegister p size rx)).memory (p + i)
        = packet[i]) ∧
    (∀ k a, a < p ∨ p + size ≤ a →
      (slipReceived ((slipFrame packet).take k) (hciSlipRxBufferRegister p size rx)).memory a
        = rx.memory a) := by
  have hsent := sentUpTo_slipSent tx room rooms hne hready htx
  obtain ⟨hevents, hstored⟩ := slipReceived_frame rx hne hrx hp hsize
  refine ⟨hsent.bytes, hsent.events, hevents, hstored, fun k a ha => ?_⟩
  have hregistered : InBuffer p size rx.memory (hciSlipRxBufferRegister p size rx) :=
    ⟨.inr ⟨rfl, rfl⟩, fun _ _ => rfl⟩
  exact (hregistered.received _).outside a ha

/-- A module that has been opened and has a handler. -/
def slipOpened : HciSlip where
  currentState := .ready
  eventHandler := true
  txBuffer := []
  txBufferLength := 0
  txBufferIndex := 0
  sendTxByte := .default
  rxBuffer := 0
  rxBufferLength := 0
  rxReceivedCount := 0
  handleRxByte := .waitStart
  memory := fun _ => 0
  uartBytes := []
  uartRoom := 0
  events := []

/-- A packet with both special bytes, and a UART that has room for one byte at a time. -/
theorem slip_roundTrip_special :
    (slipSent [0xC0, 0xDB, 0x01] 0 [1, 1, 1, 1, 1, 1, 1] slipOpened).uartBytes
      = [0xC0, 0xDB, 0xDC, 0xDB, 0xDD, 0x01, 0xC0] :=
  (slip_roundTrip slipOpened slipOpened [0xC0, 0xDB, 0x01] 0 [1, 1, 1, 1, 1, 1, 1] 0x2000 4
    (by decide) rfl rfl rfl (by decide) (by decide)).1.trans (by decide)

end NordicEsb
