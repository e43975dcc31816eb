import NordicEsb.Esb.Pid
import NordicEsb.Esb.AckPayload

/-!
# Packets Between Two Modules

What a transmitter sends under DPL and what a receiver makes of it. A packet carries length,
PID, the acknowledgment bit and the bytes of its payload, so that a receiver with matching
bookkeeping recovers the `content` a payload is read for.
-/

namespace NordicEsb

/-! ## §1 From the transmit buffer to the air -/

/-- What a payload is sent and read for: length, pipe and bytes. -/
def NrfEsbPayload.content (p : NrfEsbPayload) : UInt8 × UInt8 × List UInt8 :=
  (p.length, p.pipe, p.data.firstN p.length.toNat)

/-- The packet in the transmit buffer, as the radio sends it under DPL. -/
def airPacket (s : Esb) : AirPacket where
  pipe := Fin.ofNat 8 s.radio.txaddress.toNat
  byte0 := s.txPayloadBuffer.byte0
  byte1 := s.txPayloadBuffer.byte1
  data := s.txPayloadBuffer.data.firstN s.txPayloadBuffer.byte0.toNat

/-- The packet a transmitter under DPL sends for a payload. -/
def packetOf (cfg : NrfEsbConfig) (p : NrfEsbPayload) : AirPacket where
  pipe := Fin.ofNat 8 p.pipe.toNat
  byte0 := p.length
  byte1 := p.pid <<< 1 ||| (if wantsAck cfg p then 0x00 else 0x01)
  data := p.data.firstN p.length.toNat

theorem airPacket_eq_packetOf {s : Esb} {p : NrfEsbPayload} {old : PayloadBuffer}
    (hdpl : s.configLocal.protocol = .esbDpl) (haddr : s.radio.txaddress = p.pipe)
    (hbuf : s.txPayloadBuffer = txPacket s.configLocal p old) :
    airPacket s = packetOf s.configLocal p := by
  unfold airPacket packetOf
  rw [hbuf, haddr]
  unfold txPacket
  simp [hdpl]

/-! ## §2 At the receiver -/

/-- The receiver's registers and buffer when `pkt` has come in with the CRC `crc`. -/
theorem latch_received (pkt : AirPacket) (crc : UInt16) (s : Esb) :
    (RadioEvent.received pkt crc).latch s =
      { s with
        radio := { s.radio with
          eventsEnd := true, crcstatus := true, rxmatch := pkt.pipe, rxcrc := crc
          rssisample := 0 }
        rxPayloadBuffer := {
          byte0 := pkt.byte0, byte1 := pkt.byte1, data := s.rxPayloadBuffer.data.load pkt.data } } :=
  rfl

/-- A delivered packet is handled if the RX FIFO has room. -/
theorem acceptsRx_received (pkt : AirPacket) (crc : UInt16) (s : Esb) :
    acceptsRx ((RadioEvent.received pkt crc).latch s) =
      decide (s.rxFifo.count < nrfEsbRxFifoSize) := by
  unfold acceptsRx
  rw [latch_rxFifo]
  exact Bool.true_and _

section

variable {cfg : NrfEsbConfig} {p : NrfEsbPayload} {crc : UInt16} {s : Esb}

/-- A two-bit PID survives the shift next to the acknowledgment bit. -/
theorem pid_shift {pid b : UInt8} (hpid : pid.toNat < 4) (hb : b = 0 ∨ b = 1) :
    (pid <<< 1 ||| b) >>> 1 = pid ∧ (pid <<< 1 ||| b) &&& 1 = b := by
  have hcases : pid = 0 ∨ pid = 1 ∨ pid = 2 ∨ pid = 3 := by
    simp only [← UInt8.toNat_inj]
    have h0 : (0 : UInt8).toNat = 0 := rfl
    have h1 : (1 : UInt8).toNat = 1 := rfl
    have h2 : (2 : UInt8).toNat = 2 := rfl
    have h3 : (3 : UInt8).toNat = 3 := rfl
    omega
  rcases hcases with rfl | rfl | rfl | rfl <;> rcases hb with rfl | rfl <;> decide

theorem receivedPid_packetOf (hpid : p.pid.toNat < 4) :
    receivedPid ((RadioEvent.received (packetOf cfg p) crc).latch s) = p.pid := by
  rw [latch_received]
  exact (pid_shift hpid (by split <;> simp)).1

theorem ackRequested_packetOf (hpid : p.pid.toNat < 4) (hack : wantsAck cfg p = true) :
    ackRequested ((RadioEvent.received (packetOf cfg p) crc).latch s) = true := by
  have hbit : (packetOf cfg p).byte1 &&& 0x01 = 0 := by
    simp only [packetOf, hack, if_true]
    exact (pid_shift hpid (.inl rfl)).2
  rw [latch_received]
  simp [ackRequested, hbit]

theorem rxmatchByte_packetOf (hpipe : p.pipe.toNat < 8) :
    rxmatchByte ((RadioEvent.received (packetOf cfg p) crc).latch s) = p.pipe := by
  rw [latch_received]
  unfold rxmatchByte packetOf
  rw [← UInt8.toNat_inj]
  simp [Fin.ofNat, Nat.toUInt8]
  omega

theorem rxPushAccepted_packetOf (hlen : p.length.toNat ≤ nrfEsbMaxPayloadLength) :
    rxPushAccepted ((RadioEvent.received (packetOf cfg p) crc).latch s) =
      decide (s.rxFifo.count < nrfEsbRxFifoSize) := by
  have hshort : ¬ p.length.toNat > nrfEsbMaxPayloadLength := by omega
  rw [latch_received]
  simp only [rxPushAccepted, packetOf, hshort, decide_false, Bool.and_false, Bool.not_false,
    Bool.and_true]

/-- **The stored payload has the content of the sent one.** -/
theorem content_receivedEntry (hdpl : s.configLocal.protocol = .esbDpl)
    (hpipe : p.pipe.toNat < 8) (hlen : p.length.toNat ≤ nrfEsbMaxPayloadLength) :
    (receivedEntry ((RadioEvent.received (packetOf cfg p) crc).latch s)).content = p.content := by
  have hrx : rxmatchByte ((RadioEvent.received (packetOf cfg p) crc).latch s) = p.pipe :=
    rxmatchByte_packetOf hpipe
  have hlength : rxPushLength ((RadioEvent.received (packetOf cfg p) crc).latch s) = p.length := by
    rw [latch_received]
    simp [rxPushLength, hdpl, packetOf]
  unfold receivedEntry rxPushEntry NrfEsbPayload.content
  dsimp only
  rw [hlength, hrx, FixedArray.firstN_copy]
  refine congrArg (fun bytes => (p.length, p.pipe, bytes)) ?_
  exact FixedArray.firstN_load_firstN _ _ hlen

end

end NordicEsb
