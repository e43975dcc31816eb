import NordicEsb.Link.Packet

/-!
# A Transmitter and a Receiver

Two modules under DPL and the air between them. The transmitter writes, flushes and starts
transactions; every attempt is lost or delivered, and a delivered one has its acknowledgment
lost or received; the receiver reads when it likes.

- `Link`: both modules, the acknowledgment on the air, and what was stored, acknowledged and
  read out.
- `pipeRecord`: what the receiver remembers of a pipe is the PID and the CRC of the last
  payload it stored for it.
- `Base`: what every step keeps, whatever is lost or flushed.

The CRC of a packet is an arbitrary function of the packet.
-/

namespace NordicEsb

/-! ## §1 The two modules -/

/-- An acknowledged payload, with what the receiver had stored by then. -/
structure Acked where
  payload : ℕ × NrfEsbPayload
  storedBefore : List (ℕ × NrfEsbPayload)

/-- A transmitter and a receiver; payloads have the numbers of the transmitter's trace. -/
structure Link where
  ptx : PtxTrace
  prx : Esb
  /-- The acknowledgment the receiver sends for the transmitter's last packet. -/
  ackOnAir : Option AirPacket
  /-- The payloads the receiver pushed to its RX FIFO. -/
  stored : List (ℕ × NrfEsbPayload)
  /-- The payloads whose transactions ended with an acknowledgment. -/
  acked : List Acked
  /-- What `nrf_esb_read_rx_payload` returned at the receiver. -/
  readOut : List NrfEsbPayload

/-- One step of either module or of the radio between them. -/
inductive LinkAction where
  /-- The transmitter writes a payload. -/
  | write (p : NrfEsbPayload)
  | startTx
  | flushTx
  /-- The receiver reads into a payload of the caller. -/
  | read (dst : NrfEsbPayload)
  /-- An attempt is over, and the packet came through or not. -/
  | txDone (delivered : Bool)
  /-- The acknowledgment window is over, and an acknowledgment came through or not. -/
  | ackWindow (received : Bool)
  /-- The receiver has sent its acknowledgment. -/
  | ackSent

namespace Link

variable (crcOf : AirPacket → UInt16)

/-- The transmitter's packet as it arrives. -/
def incoming (l : Link) : RadioEvent :=
  .received (airPacket l.ptx.esb) (crcOf (airPacket l.ptx.esb))

/-- Does a delivered packet find the receiver listening? -/
def arrives (delivered : Bool) (l : Link) : Bool := delivered && l.prx.mainstate == .prx

/-- An attempt is over: the transmitter's radio is done, and the packet may have arrived. -/
def txDone (delivered : Bool) (l : Link) : Link :=
  let prx := if l.arrives delivered then radioIrqHandler (l.incoming crcOf) l.prx else l.prx
  { l with
    ptx := l.ptx.step (.radioIrq .silent)
    prx := prx
    ackOnAir :=
      if l.arrives delivered && l.ptx.esb.mainstate == .ptxTxAck && prx.mainstate == .prxSendAck
      then some (airPacket prx) else none
    stored :=
      if l.arrives delivered && storesRx ((l.incoming crcOf).latch l.prx)
      then l.stored ++ l.ptx.onAir.toList else l.stored }

/-- What the transmitter's radio finds in the acknowledgment window. -/
def ackEvent (received : Bool) (l : Link) : RadioEvent :=
  match l.ackOnAir with
  | some pkt => if received then .received pkt (crcOf pkt) else .silent
  | none => .silent

/-- The acknowledgment window is over. -/
def ackWindow (received : Bool) (l : Link) : Link :=
  { l with
    ptx := l.ptx.step (.radioIrq (l.ackEvent crcOf received))
    ackOnAir := none
    acked :=
      if l.ptx.completedBy (l.ackEvent crcOf received)
      then l.acked ++ l.ptx.onAir.toList.map fun x => ⟨x, l.stored⟩ else l.acked }

/-- The receiver reads into `dst`. -/
def read (dst : NrfEsbPayload) (l : Link) : Link :=
  { l with
    prx := (nrfEsbReadRxPayload (some dst) l.prx).2.2
    readOut :=
      if (nrfEsbReadRxPayload (some dst) l.prx).1 = .success
      then l.readOut ++ (nrfEsbReadRxPayload (some dst) l.prx).2.1.toList else l.readOut }

/-- One step. -/
def step (l : Link) : LinkAction → Link
  | .write p => { l with ptx := l.ptx.step (.writePayload (some p)) }
  | .startTx => { l with ptx := l.ptx.step .startTx }
  | .flushTx => { l with ptx := l.ptx.step .flushTx }
  | .read dst => l.read dst
  | .txDone delivered => l.txDone crcOf delivered
  | .ackWindow received => l.ackWindow crcOf received
  | .ackSent => { l with prx := radioIrqHandler .silent l.prx }

/-- When an action may be taken: the radio events follow the main states, and payloads are
    written for the pipes 0 to 7. -/
def Enabled (l : Link) : LinkAction → Prop
  | .write p => p.pipe.toNat < 8
  | .startTx | .flushTx | .read _ => True
  | .txDone _ => l.ptx.esb.mainstate = .ptxTx ∨ l.ptx.esb.mainstate = .ptxTxAck
  | .ackWindow _ => l.ptx.esb.mainstate = .ptxRxAck
  | .ackSent => l.prx.mainstate = .prxSendAck

instance (l : Link) : DecidablePred l.Enabled := fun a => by
  cases a <;> unfold Enabled <;> infer_instance

/-- A freshly initialised transmitter with the configuration `cfg`, and a freshly initialised
    receiver that has been started. -/
def Fresh (cfg : NrfEsbConfig) (l : Link) : Prop :=
  ∃ cfgRx sTx sRx, cfg.mode = .ptx ∧ cfg.protocol = .esbDpl ∧
    cfgRx.mode = .prx ∧ cfgRx.protocol = .esbDpl ∧
    l = { ptx := ⟨.start (nrfEsbInit (some cfg) sTx).2, none⟩
          prx := (nrfEsbStartRx (nrfEsbInit (some cfgRx) sRx).2).2
          ackOnAir := none, stored := [], acked := [], readOut := [] }

/-- The link as a machine: any payloads, any flushes, any losses. -/
def machine (cfg : NrfEsbConfig) : Machine Link LinkAction where
  start := Fresh cfg
  enabled := Enabled
  step := step crcOf

/-! ## §2 What the receiver remembers -/

/-- PID and CRC of the packet of a payload. -/
def recordOf (cfg : NrfEsbConfig) (p : NrfEsbPayload) : UInt8 × UInt16 :=
  (p.pid, crcOf (packetOf cfg p))

/-- PID and CRC of the last payload stored for a pipe, and zeros if there is none. -/
def pipeRecord (cfg : NrfEsbConfig) (stored : List (ℕ × NrfEsbPayload)) (pipe : UInt8) :
    UInt8 × UInt16 :=
  ((stored.filter fun y => y.2.pipe == pipe).getLast?.map fun y => recordOf crcOf cfg y.2).getD
    (0, 0)

theorem pipeRecord_append (cfg : NrfEsbConfig) (stored : List (ℕ × NrfEsbPayload))
    (x : ℕ × NrfEsbPayload) (pipe : UInt8) :
    pipeRecord crcOf cfg (stored ++ [x]) pipe =
      if x.2.pipe = pipe then recordOf crcOf cfg x.2 else pipeRecord crcOf cfg stored pipe := by
  unfold pipeRecord
  by_cases hp : x.2.pipe = pipe
  · simp [List.filter_append, hp]
  · simp [List.filter_append, hp]

/-- A remembered record is that of a stored payload, or nothing was stored for the pipe. -/
theorem pipeRecord_cases (cfg : NrfEsbConfig) (stored : List (ℕ × NrfEsbPayload)) (pipe : UInt8) :
    (∃ l₁ y l₂, stored = l₁ ++ y :: l₂ ∧ y.2.pipe = pipe ∧ (∀ z ∈ l₂, z.2.pipe ≠ pipe) ∧
        pipeRecord crcOf cfg stored pipe = recordOf crcOf cfg y.2) ∨
      (∀ y ∈ stored, y.2.pipe ≠ pipe) ∧ pipeRecord crcOf cfg stored pipe = (0, 0) := by
  induction stored using List.reverseRecOn with
  | nil => exact .inr ⟨by simp, rfl⟩
  | append_singleton stored x ih =>
    rw [pipeRecord_append]
    by_cases hp : x.2.pipe = pipe
    · exact .inl ⟨stored, x, [], rfl, hp, by simp, if_pos hp⟩
    · rw [if_neg hp]
      rcases ih with ⟨l₁, y, l₂, rfl, hy, hl₂, hrec⟩ | ⟨hnone, hrec⟩
      · refine .inl ⟨l₁, y, l₂ ++ [x], by simp, hy, ?_, hrec⟩
        intro z hz
        rcases List.mem_append.mp hz with hz | hz
        · exact hl₂ z hz
        · rwa [List.mem_singleton.mp hz]
      · refine .inr ⟨?_, hrec⟩
        intro z hz
        rcases List.mem_append.mp hz with hz | hz
        · exact hnone z hz
        · rwa [List.mem_singleton.mp hz]

/-! ## §3 What every step keeps -/

/-- **The common invariant of both modules.** -/
structure Base (cfg : NrfEsbConfig) (l : Link) : Prop where
  dpl : cfg.protocol = .esbDpl
  running : l.ptx.Running
  ledger : l.ptx.Ledger
  config : l.ptx.esb.configLocal = cfg
  valid : ∀ p ∈ l.ptx.accepted, p.pipe.toNat < 8 ∧ p.length.toNat ≤ nrfEsbMaxPayloadLength
  receives : Receives l.prx
  listening : l.prx.mainstate ≠ .idle
  rxFifo : l.prx.rxFifo.Represents l.prx.rxFifo.toList
  /-- What was read out and what waits in the RX FIFO is what was stored. -/
  contents : (l.readOut ++ l.prx.rxFifo.toList).map NrfEsbPayload.content =
    l.stored.map fun y => y.2.content
  stored : ∀ y ∈ l.stored, l.ptx.accepted[y.1]? = some y.2
  stored_le : ∀ y ∈ l.stored, ∃ x, l.ptx.onAir = some x ∧ y.1 ≤ x.1
  /-- The receiver remembers the last payload stored for each pipe. -/
  pipeInfo : ∀ pipe : UInt8, pipe.toNat < 8 →
    ((l.prx.rxPipeInfo.get pipe.toNat).pid, (l.prx.rxPipeInfo.get pipe.toNat).crc) =
      pipeRecord crcOf cfg l.stored pipe
  /-- An acknowledgment is sent only for a payload the receiver remembers. -/
  ack : l.ackOnAir.isSome → l.ptx.esb.mainstate ≠ .idle ∧
    ∃ x, l.ptx.onAir = some x ∧
      pipeRecord crcOf cfg l.stored x.2.pipe = recordOf crcOf cfg x.2

variable {crcOf} {cfg : NrfEsbConfig} {l : Link}

/-- The receiver after initialisation and `nrf_esb_start_rx`. -/
theorem startRx_init (cfgRx : NrfEsbConfig) (s : Esb) :
    (nrfEsbStartRx (nrfEsbInit (some cfgRx) s).2).2.rxFifo = s.rxFifo.clear ∧
      (nrfEsbStartRx (nrfEsbInit (some cfgRx) s).2).2.rxPipeInfo = default ∧
      (nrfEsbStartRx (nrfEsbInit (some cfgRx) s).2).2.configLocal = cfgRx := by
  unfold nrfEsbInit
  dsimp only
  split <;> exact ⟨rfl, rfl, rfl⟩

theorem base_fresh (h : Fresh cfg l) : Base crcOf cfg l := by
  obtain ⟨cfgRx, sTx, sRx, hmode, hdpl, hrxmode, hrxdpl, rfl⟩ := h
  have hstart : PtxTrace.machine.start ⟨.start (nrfEsbInit (some cfg) sTx).2, none⟩ :=
    ⟨cfg, sTx, hmode, rfl⟩
  obtain ⟨hfifo, hinfo, hcfg⟩ := startRx_init cfgRx sRx
  have hclear := RingQueue.represents_clear sRx.rxFifo (by decide)
  refine
    { dpl := hdpl
      running := PtxTrace.running_start hstart
      ledger := PtxTrace.ledger_start hstart
      config := nrfEsbInit_configLocal cfg sTx
      valid := by simp [TxTrace.start]
      receives := ⟨hcfg ▸ hrxmode, hcfg ▸ hrxdpl, rfl, rfl⟩
      listening := by simp [nrfEsbStartRx, nrfEsbInit]
      rxFifo := ?_
      contents := ?_
      stored := by simp
      stored_le := by simp
      pipeInfo := ?_
      ack := by simp }
  · rw [hfifo, hclear.toList_eq]
    exact hclear
  · rw [hfifo, hclear.toList_eq]
    rfl
  · intro pipe _
    rw [hinfo, FixedArray.get_default]
    rfl

/-- No step takes back an accepted payload. -/
theorem accepted_prefix_step (t : PtxTrace) (c : EsbCall) :
    t.accepted <+: (t.step c).accepted := by
  simp only [PtxTrace.step, TxTrace.step]
  split
  · exact List.prefix_append _ _
  · exact List.prefix_rfl

/-- A call of the transmitter, and whatever becomes of the acknowledgment on the air. -/
theorem Base.ptx_step (h : Base crcOf cfg l) {c : EsbCall} (ack : Option AirPacket)
    (acked : List Acked) (hen : l.ptx.Enabled c)
    (hcfg : (l.ptx.esb.exec c).configLocal = l.ptx.esb.configLocal)
    (hvalid : ∀ p, c = .writePayload (some p) → p.pipe.toNat < 8)
    (hack : ack.isSome → (l.ptx.step c).esb.mainstate ≠ .idle ∧
      ∃ x, (l.ptx.step c).onAir = some x ∧
        pipeRecord crcOf cfg l.stored x.2.pipe = recordOf crcOf cfg x.2) :
    Base crcOf cfg { l with ptx := l.ptx.step c, ackOnAir := ack, acked := acked } := by
  have haccepted : ∀ p ∈ (l.ptx.step c).accepted,
      p ∈ l.ptx.accepted ∨ ∃ q, c = .writePayload (some q) ∧ writeAccepted l.ptx.esb q = true ∧
        p.pipe = q.pipe ∧ p.length = q.length := by
    intro p hp
    simp only [PtxTrace.step, TxTrace.step] at hp
    split at hp
    case isTrue happ =>
      obtain ⟨q, rfl, hacc⟩ := txEffect_eq_append happ
      rcases List.mem_append.mp hp with hp | hp
      · exact .inl hp
      · rw [List.mem_singleton.mp hp]
        exact .inr ⟨q, rfl, hacc, rfl, rfl⟩
    case isFalse => exact .inl hp
  have hprefix := accepted_prefix_step l.ptx c
  refine
    { h with
      running := PtxTrace.running_step h.running hen
      ledger := PtxTrace.ledger_step h.ledger hen
      config := hcfg.trans h.config
      valid := ?_
      stored := fun y hy => ?_
      stored_le := fun y hy => ?_
      ack := hack }
  · intro p hp
    rcases haccepted p hp with hold | ⟨q, rfl, hacc, hpipe, hlen⟩
    · exact h.valid p hold
    · rw [hpipe, hlen]
      refine ⟨hvalid q rfl, ?_⟩
      simp only [writeAccepted, payloadLengthValid, Bool.and_eq_true, Bool.not_eq_true',
        Bool.or_eq_false_iff, decide_eq_false_iff_not] at hacc
      have := hacc.1.1.2.1.2
      omega
  · obtain ⟨rest, hrest⟩ := hprefix
    have hold := h.stored y hy
    rw [← hrest, List.getElem?_append_left (List.getElem?_eq_some_iff.mp hold).1, hold]
  · obtain ⟨x, hx, hle⟩ := h.stored_le y hy
    obtain ⟨x', hx', hle'⟩ := PtxTrace.onAir_mono h.running h.ledger hen hx
    exact ⟨x', hx', hle.trans hle'⟩

/-! ## §4 A packet arrives -/

/-- In a transaction, the packet on the air is that of the recorded payload. -/
theorem Base.airPacket_eq (h : Base crcOf cfg l) (hbusy : l.ptx.esb.mainstate ≠ .idle) :
    ∃ x, l.ptx.onAir = some x ∧ airPacket l.ptx.esb = packetOf cfg x.2 ∧
      x.2.pipe.toNat < 8 ∧ x.2.length.toNat ≤ nrfEsbMaxPayloadLength ∧ x.2.pid.toNat < 4 := by
  obtain ⟨x, old, hx, haddr, hbuf⟩ := h.running.packet hbusy
  have hacc := h.ledger.onAir x hx
  obtain ⟨hpipe, hlen⟩ := h.valid x.2 (List.mem_of_getElem? hacc)
  refine ⟨x, hx, ?_, hpipe, hlen, ?_⟩
  · rw [← h.config]
    exact airPacket_eq_packetOf (h.config ▸ h.dpl) haddr hbuf
  · obtain ⟨hlt, hget⟩ := List.getElem?_eq_some_iff.mp hacc
    have hsplit := List.take_append_drop x.1 l.ptx.accepted
    rw [List.drop_eq_getElem_cons hlt, hget] at hsplit
    have hcount := h.ledger.pidsCount _ _ _ hsplit.symm (by simp only [nrfEsbPipeCount]; omega)
    omega

/-- The receiver takes a packet for a retransmission exactly if it remembers it. -/
theorem Base.retransmitPayload_iff (h : Base crcOf cfg l) {p : NrfEsbPayload}
    (hpipe : p.pipe.toNat < 8) (hpid : p.pid.toNat < 4) :
    retransmitPayload
        ((RadioEvent.received (packetOf cfg p) (crcOf (packetOf cfg p))).latch l.prx) = true ↔
      pipeRecord crcOf cfg l.stored p.pipe = recordOf crcOf cfg p := by
  have hinfo := h.pipeInfo p.pipe hpipe
  have hrx : rxmatchByte
      ((RadioEvent.received (packetOf cfg p) (crcOf (packetOf cfg p))).latch l.prx) = p.pipe :=
    rxmatchByte_packetOf hpipe
  have hmatched : matchedPipeInfo
      ((RadioEvent.received (packetOf cfg p) (crcOf (packetOf cfg p))).latch l.prx) =
        l.prx.rxPipeInfo.get p.pipe.toNat := by
    unfold matchedPipeInfo
    rw [← rxmatchByte_toNat, hrx, latch_rxPipeInfo]
  have hcrc : ((RadioEvent.received (packetOf cfg p) (crcOf (packetOf cfg p))).latch
      l.prx).radio.rxcrc = crcOf (packetOf cfg p) := rfl
  unfold retransmitPayload
  rw [hmatched, hcrc, receivedPid_packetOf hpid, ← hinfo, recordOf]
  simp only [Bool.and_eq_true, beq_iff_eq, Prod.mk.injEq]
  constructor
  · rintro ⟨hc, hp⟩
    exact ⟨hp.symm, hc.symm⟩
  · rintro ⟨hp, hc⟩
    exact ⟨hc.symm, hp.symm⟩

variable (crcOf) in
/-- What the receiver has stored once the payload `x` arrived. -/
def storedAfter (cfg : NrfEsbConfig) (l : Link) (x : ℕ × NrfEsbPayload) :
    List (ℕ × NrfEsbPayload) :=
  if storesRx ((RadioEvent.received (packetOf cfg x.2) (crcOf (packetOf cfg x.2))).latch l.prx)
  then l.stored ++ [x] else l.stored

theorem mem_storedAfter {x y : ℕ × NrfEsbPayload} (h : y ∈ storedAfter crcOf cfg l x) :
    y ∈ l.stored ∨ y = x := by
  unfold storedAfter at h
  split at h
  · simpa using h
  · exact .inl h

/-- A handled payload is remembered, whether it was stored or taken for a retransmission. -/
theorem Base.pipeRecord_storedAfter (h : Base crcOf cfg l) {x : ℕ × NrfEsbPayload}
    (hpipe : x.2.pipe.toNat < 8) (hlen : x.2.length.toNat ≤ nrfEsbMaxPayloadLength)
    (hpid : x.2.pid.toNat < 4) (hroom : l.prx.rxFifo.count < nrfEsbRxFifoSize) :
    pipeRecord crcOf cfg (storedAfter crcOf cfg l x) x.2.pipe = recordOf crcOf cfg x.2 := by
  have hiff := h.retransmitPayload_iff hpipe hpid
  unfold storedAfter storesRx
  rw [acceptsRx_received, rxPushAccepted_packetOf hlen, decide_eq_true hroom]
  cases hre : retransmitPayload
      ((RadioEvent.received (packetOf cfg x.2) (crcOf (packetOf cfg x.2))).latch l.prx) with
  | true => exact hiff.mp hre
  | false => exact (pipeRecord_append crcOf cfg _ x _).trans (if_pos rfl)

theorem pipeRecord_storedAfter_ne {x : ℕ × NrfEsbPayload} {pipe : UInt8} (hne : x.2.pipe ≠ pipe) :
    pipeRecord crcOf cfg (storedAfter crcOf cfg l x) pipe = pipeRecord crcOf cfg l.stored pipe := by
  unfold storedAfter
  split
  · rw [pipeRecord_append, if_neg hne]
  · rfl

/-- The bookkeeping of every pipe after the packet of `x`. -/
theorem Base.pipeInfo_receive (h : Base crcOf cfg l) {x : ℕ × NrfEsbPayload}
    (hpipe : x.2.pipe.toNat < 8) (hlen : x.2.length.toNat ≤ nrfEsbMaxPayloadLength)
    (hpid : x.2.pid.toNat < 4) (q : UInt8) (hq : q.toNat < 8) :
    let info := (onRadioDisabledRx ((RadioEvent.received (packetOf cfg x.2)
      (crcOf (packetOf cfg x.2))).latch l.prx)).rxPipeInfo.get q.toNat
    (info.pid, info.crc) = pipeRecord crcOf cfg (storedAfter crcOf cfg l x) q := by
  dsimp only
  rw [onRadioDisabledRx_rxPipeInfo, acceptsRx_received]
  by_cases hroom : l.prx.rxFifo.count < nrfEsbRxFifoSize
  · rw [decide_eq_true hroom, if_pos rfl, ← rxmatchByte_toNat, rxmatchByte_packetOf hpipe]
    by_cases hsame : q = x.2.pipe
    · subst hsame
      rw [FixedArray.get_set_self _ _ (by simp only [nrfEsbPipeCount]; omega),
        receivedPid_packetOf hpid, h.pipeRecord_storedAfter hpipe hlen hpid hroom]
      rfl
    · have hne : q.toNat ≠ x.2.pipe.toNat := fun he => hsame (UInt8.toNat_inj.mp he)
      rw [FixedArray.get_set_ne _ _ hne, latch_rxPipeInfo, h.pipeInfo q hq,
        pipeRecord_storedAfter_ne (Ne.symm hsame)]
  · have hsame : storedAfter crcOf cfg l x = l.stored := by
      unfold storedAfter storesRx
      rw [acceptsRx_received, decide_eq_false hroom]
      rfl
    rw [decide_eq_false hroom, if_neg (by simp), latch_rxPipeInfo, h.pipeInfo q hq, hsame]

/-- The RX FIFO and the read payloads after the packet of `x`. -/
theorem Base.contents_receive (h : Base crcOf cfg l) {x : ℕ × NrfEsbPayload}
    (hpipe : x.2.pipe.toNat < 8) (hlen : x.2.length.toNat ≤ nrfEsbMaxPayloadLength) :
    let fifo := (onRadioDisabledRx ((RadioEvent.received (packetOf cfg x.2)
      (crcOf (packetOf cfg x.2))).latch l.prx)).rxFifo
    fifo.Represents fifo.toList ∧
      (l.readOut ++ fifo.toList).map NrfEsbPayload.content =
        (storedAfter crcOf cfg l x).map fun y => y.2.content := by
  dsimp only
  have hentry : (receivedEntry ((RadioEvent.received (packetOf cfg x.2)
      (crcOf (packetOf cfg x.2))).latch l.prx)).content = x.2.content :=
    content_receivedEntry h.receives.protocol hpipe hlen
  rw [onRadioDisabledRx_rxFifo, latch_rxFifo]
  unfold storedAfter
  cases hst : storesRx
      ((RadioEvent.received (packetOf cfg x.2) (crcOf (packetOf cfg x.2))).latch l.prx) with
  | false =>
    simp only [Bool.false_eq_true, if_false]
    exact ⟨h.rxFifo, h.contents⟩
  | true =>
    have hroom : l.prx.rxFifo.count < nrfEsbRxFifoSize := by
      simp only [storesRx, acceptsRx_received, Bool.and_eq_true, decide_eq_true_eq] at hst
      exact hst.1.1
    have hpush := h.rxFifo.push hroom (receivedEntry
      ((RadioEvent.received (packetOf cfg x.2) (crcOf (packetOf cfg x.2))).latch l.prx))
    simp only [if_true]
    rw [hpush.toList_eq]
    refine ⟨hpush, ?_⟩
    rw [← List.append_assoc, @List.map_append _ _ _ (l.readOut ++ _), h.contents]
    simp [hentry]

/-- **A packet arrives at the listening receiver.** -/
theorem Base.receive (h : Base crcOf cfg l) {x : ℕ × NrfEsbPayload}
    (hx : l.ptx.onAir = some x) (hpipe : x.2.pipe.toNat < 8)
    (hlen : x.2.length.toNat ≤ nrfEsbMaxPayloadLength) (hpid : x.2.pid.toNat < 4)
    (hprx : l.prx.mainstate = .prx) :
    Base crcOf cfg { l with
      prx := radioIrqHandler
        (.received (packetOf cfg x.2) (crcOf (packetOf cfg x.2))) l.prx
      stored := storedAfter crcOf cfg l x
      ackOnAir := none } := by
  have hirq := radioIrqHandler_of_prx
    (.received (packetOf cfg x.2) (crcOf (packetOf cfg x.2))) h.receives hprx
  have hcontents := h.contents_receive hpipe hlen
  refine
    { h with
      receives := radioIrqHandler_receives _ h.receives h.listening
      listening := ?_
      rxFifo := hirq ▸ hcontents.1
      contents := hirq ▸ hcontents.2
      stored := fun y hy => ?_
      stored_le := fun y hy => ?_
      pipeInfo := fun q hq => hirq ▸ h.pipeInfo_receive hpipe hlen hpid q hq
      ack := fun hack => by cases hack }
  · dsimp only
    rw [hirq, onRadioDisabledRx_mainstate, latch_mainstate, hprx]
    split <;> simp
  · rcases mem_storedAfter hy with hy | rfl
    · exact h.stored y hy
    · exact h.ledger.onAir y hx
  · rcases mem_storedAfter hy with hy | rfl
    · exact h.stored_le y hy
    · exact ⟨y, hx, le_rfl⟩

/-! ## §5 Every step -/

/-- The end of an attempt that wants an acknowledgment keeps the transaction going. -/
theorem silent_step {t : PtxTrace} (hm : TxHandlerMatches t.esb)
    (htx : t.esb.mainstate = .ptxTxAck) :
    (t.step (.radioIrq .silent)).esb.mainstate ≠ .idle ∧
      (t.step (.radioIrq .silent)).onAir = t.onAir := by
  have hh : (RadioEvent.silent.latch t.esb).onRadioDisabled = some .tx := by
    rw [latch_onRadioDisabled]
    simpa [TxHandlerMatches, htx] using hm
  have hdone : t.completedBy .silent = false := by
    simp only [PtxTrace.completedBy, completesTx, hh, Bool.and_false]
  constructor
  · have hesb : (t.step (.radioIrq .silent)).esb =
        if (RadioEvent.silent.latch t.esb).radio.intensetDisabled
        then callOnRadioDisabled (RadioEvent.silent.latch t.esb)
        else RadioEvent.silent.latch t.esb := radioIrqHandler_eq .silent t.esb
    rw [hesb]
    split
    · unfold callOnRadioDisabled
      rw [hh]
      simp [onRadioDisabledTx]
    · rw [latch_mainstate, htx]
      simp
  · have hbusy : t.esb.mainstate ≠ .idle := by simp [htx]
    rcases PtxTrace.step_radioIrq_cases .silent hm hbusy with ⟨hd, -⟩ | ⟨-, -, hcont⟩
    · rw [hdone] at hd
      cases hd
    · exact hcont.onAir

/-- A call to a busy transmitter leaves its transaction alone. -/
theorem busy_step {t : PtxTrace} {c : EsbCall} (hbusy : t.esb.mainstate ≠ .idle)
    (hc : (∃ p, c = .writePayload (some p)) ∨ c = .startTx ∨ c = .flushTx) :
    (t.step c).esb.mainstate = t.esb.mainstate ∧ (t.step c).onAir = t.onAir := by
  rcases hc with ⟨p, rfl⟩ | rfl | rfl
  · by_cases hok : (t.esb.call (.writePayload (some p))).1 = .success
    · obtain ⟨q, hq, hacc⟩ := accepted_of_nrfEsbWritePayload hok
      obtain rfl : p = q := by simpa using hq
      have hauto : autoStarts t.esb = false := by simp [autoStarts, hbusy]
      have hesb : (t.step (.writePayload (some p))).esb =
          if autoStarts (enqueuePayload p t.esb) then startTxTransaction (enqueuePayload p t.esb)
          else enqueuePayload p t.esb :=
        congrArg Prod.snd (nrfEsbWritePayload_of_accepted hacc)
      rw [show autoStarts (enqueuePayload p t.esb) = autoStarts t.esb from rfl, hauto] at hesb
      refine ⟨by rw [hesb]; rfl, ?_⟩
      simp [PtxTrace.step, startsTx, hauto]
    · rw [PtxTrace.step_of_rejected hok]
      exact ⟨rfl, rfl⟩
  · have hrej : (t.esb.call .startTx).1 ≠ .success := by
      simp [Esb.call, nrfEsbStartTx, hbusy]
    rw [PtxTrace.step_of_rejected hrej]
    exact ⟨rfl, rfl⟩
  · refine ⟨?_, rfl⟩
    change (nrfEsbFlushTx t.esb).2.mainstate = _
    unfold nrfEsbFlushTx
    split <;> rfl

/-- The calls of the link leave the configuration alone. -/
theorem exec_configLocal {s : Esb} {c : EsbCall}
    (hc : (∃ p, c = .writePayload (some p)) ∨ c = .startTx ∨ c = .flushTx ∨
      ∃ ev, c = .radioIrq ev) : (s.exec c).configLocal = s.configLocal := by
  rcases hc with ⟨p, rfl⟩ | rfl | rfl | ⟨ev, rfl⟩
  · simp only [Esb.exec, Esb.call, nrfEsbWritePayload]
    repeat' split
    all_goals rfl
  · simp only [Esb.exec, Esb.call, nrfEsbStartTx]
    repeat' split
    all_goals rfl
  · simp only [Esb.exec, Esb.call, nrfEsbFlushTx]
    split <;> rfl
  · exact (radioIrqHandler_frame ev s).2

/-- A write, a start or a flush at the transmitter. -/
theorem Base.call (h : Base crcOf cfg l) {c : EsbCall}
    (hc : (∃ p, c = .writePayload (some p)) ∨ c = .startTx ∨ c = .flushTx)
    (hvalid : ∀ p, c = .writePayload (some p) → p.pipe.toNat < 8) :
    Base crcOf cfg { l with ptx := l.ptx.step c } := by
  have hen : l.ptx.Enabled c := by
    rcases hc with ⟨p, rfl⟩ | rfl | rfl <;> trivial
  refine h.ptx_step l.ackOnAir l.acked hen
    (exec_configLocal (by tauto)) hvalid fun hack => ?_
  obtain ⟨hbusy, x, hx, hrec⟩ := h.ack hack
  obtain ⟨hmain, hair⟩ := busy_step hbusy hc
  exact ⟨hmain ▸ hbusy, x, hair.trans hx, hrec⟩

/-- A read is refused and changes nothing, or takes the head of the RX FIFO. -/
theorem nrfEsbReadRxPayload_cases (dst : NrfEsbPayload) (s : Esb) :
    (∃ err, err ≠ .success ∧ nrfEsbReadRxPayload (some dst) s = (err, some dst, s)) ∨
      0 < s.rxFifo.count ∧ nrfEsbReadRxPayload (some dst) s =
        (.success, some (copyRxPayload dst s.rxFifo.head), { s with rxFifo := s.rxFifo.dropHead }) := by
  unfold nrfEsbReadRxPayload
  dsimp only
  split
  · exact .inl ⟨_, by simp, rfl⟩
  · split
    · exact .inl ⟨_, by simp, rfl⟩
    · exact .inr ⟨by omega, rfl⟩

theorem content_copyRxPayload (dst src : NrfEsbPayload) :
    (copyRxPayload dst src).content = src.content := by
  unfold NrfEsbPayload.content copyRxPayload
  dsimp only
  rw [FixedArray.firstN_copy]

/-- The receiver reads a payload. -/
theorem Base.read (h : Base crcOf cfg l) (dst : NrfEsbPayload) :
    Base crcOf cfg (l.read dst) := by
  unfold Link.read
  rcases nrfEsbReadRxPayload_cases dst l.prx with ⟨err, herr, heq⟩ | ⟨hpos, heq⟩
  · rw [heq]
    simp only [herr, if_false]
    exact h
  · rw [heq]
    simp only [if_true, Option.toList_some]
    obtain ⟨x, q, hq⟩ := List.exists_cons_of_ne_nil (h.rxFifo.pos_iff.mp hpos)
    have hdrop := h.rxFifo.dropHead hpos
    have hhead : l.prx.rxFifo.head = x := by
      have := h.rxFifo
      rw [hq] at this
      exact this.head_cons
    rw [hq, List.tail_cons] at hdrop
    refine
      { h with
        receives := ⟨h.receives.mode, h.receives.protocol, h.receives.handler⟩
        rxFifo := ?_
        contents := ?_ }
    · rw [hdrop.toList_eq]
      exact hdrop
    · rw [hdrop.toList_eq, ← h.contents, hq]
      simp [content_copyRxPayload, hhead]

/-- The receiver has sent its acknowledgment. -/
theorem Base.ackSent (h : Base crcOf cfg l) (hsent : l.prx.mainstate = .prxSendAck) :
    Base crcOf cfg { l with prx := radioIrqHandler .silent l.prx } := by
  have hrest : radioIrqHandler .silent l.prx =
      onRadioDisabledRxAck (RadioEvent.silent.latch l.prx) := by
    rcases radioIrqHandler_cases .silent h.receives h.listening with ⟨hh, -⟩ | ⟨-, heq⟩
    · obtain ⟨-, ⟨-, hm⟩ | ⟨hack, -⟩⟩ := h.receives.cases h.listening
      · rw [hsent] at hm
        cases hm
      · rw [latch_onRadioDisabled, hack] at hh
        cases hh
    · exact heq
  have hfifo : (radioIrqHandler .silent l.prx).rxFifo = l.prx.rxFifo := by
    rw [hrest]
    rfl
  have hinfo : (radioIrqHandler .silent l.prx).rxPipeInfo = l.prx.rxPipeInfo := by
    rw [hrest]
    rfl
  refine
    { h with
      receives := radioIrqHandler_receives _ h.receives h.listening
      listening := ?_
      rxFifo := by rw [hfifo]; exact h.rxFifo
      contents := by rw [hfifo]; exact h.contents
      pipeInfo := by rw [hinfo]; exact h.pipeInfo }
  dsimp only
  rw [hrest]
  simp [onRadioDisabledRxAck]

/-- The receiver of an attempt that has arrived. -/
theorem storesRx_incoming {x : ℕ × NrfEsbPayload}
    (hx : l.ptx.onAir = some x) (hair : airPacket l.ptx.esb = packetOf cfg x.2) :
    (if storesRx ((l.incoming crcOf).latch l.prx) then l.stored ++ l.ptx.onAir.toList
      else l.stored) = storedAfter crcOf cfg l x := by
  unfold incoming storedAfter
  rw [hair, hx]
  rfl

/-- The receiver acknowledges only what it has handled, which takes room in its RX FIFO. -/
theorem room_of_prxSendAck {s : Esb} {pkt : AirPacket} {crc : UInt16} (h : Receives s)
    (hprx : s.mainstate = .prx)
    (hsend : (radioIrqHandler (.received pkt crc) s).mainstate = .prxSendAck) :
    s.rxFifo.count < nrfEsbRxFifoSize := by
  rw [radioIrqHandler_of_prx _ h hprx, onRadioDisabledRx_mainstate, acceptsRx_received,
    latch_mainstate, hprx] at hsend
  by_contra hfull
  rw [decide_eq_false hfull] at hsend
  simp at hsend

/-- An attempt is over. -/
theorem Base.txDone (h : Base crcOf cfg l) (delivered : Bool)
    (hen : l.Enabled (.txDone delivered)) : Base crcOf cfg (l.txDone crcOf delivered) := by
  have hbusy : l.ptx.esb.mainstate ≠ .idle := by
    rcases hen with hm | hm <;> simp [hm]
  obtain ⟨x, hx, hair, hpipe, hlen, hpid⟩ := h.airPacket_eq hbusy
  unfold Link.txDone
  cases harr : l.arrives delivered with
  | false =>
    simp only [Bool.false_and, Bool.false_eq_true, if_false]
    exact h.ptx_step _ _ hbusy (exec_configLocal (by simp)) (by simp) (by simp)
  | true =>
    have hprx : l.prx.mainstate = .prx := by
      simp only [arrives, Bool.and_eq_true, beq_iff_eq] at harr
      exact harr.2
    have hreceived := h.receive hx hpipe hlen hpid hprx
    have hin : l.incoming crcOf = .received (packetOf cfg x.2) (crcOf (packetOf cfg x.2)) := by
      rw [incoming, hair]
    simp only [Bool.true_and, if_true]
    rw [storesRx_incoming hx hair, hin]
    refine hreceived.ptx_step _ _ hbusy (exec_configLocal (by simp)) (by simp) fun hack => ?_
    obtain ⟨htx, hsend⟩ : l.ptx.esb.mainstate = .ptxTxAck ∧
        (radioIrqHandler (.received (packetOf cfg x.2) (crcOf (packetOf cfg x.2)))
          l.prx).mainstate = .prxSendAck := by
      by_contra hno
      simp [hno] at hack
    obtain ⟨hbusy', hair'⟩ := silent_step h.running.handler htx
    have hroom : l.prx.rxFifo.count < nrfEsbRxFifoSize :=
      room_of_prxSendAck h.receives hprx hsend
    exact ⟨hbusy', x, hair'.trans hx, h.pipeRecord_storedAfter hpipe hlen hpid hroom⟩

/-- In the acknowledgment window only an acknowledgment completes the transaction. -/
theorem ackOnAir_of_completedBy {received : Bool} (hrun : l.ptx.Running)
    (hen : l.Enabled (.ackWindow received))
    (hdone : l.ptx.completedBy (l.ackEvent crcOf received) = true) : l.ackOnAir.isSome := by
  have hmain : l.ptx.esb.mainstate = .ptxRxAck := hen
  have hh : l.ptx.esb.onRadioDisabled = some .txWaitForAck := by
    simpa [TxHandlerMatches, hmain] using hrun.handler
  cases hack : l.ackOnAir with
  | some _ => rfl
  | none =>
    simp [PtxTrace.completedBy, completesTx, ackEvent, hack, hh, RadioEvent.silent,
      RadioEvent.latch] at hdone

/-- The acknowledgment window is over. -/
theorem Base.ackWindow (h : Base crcOf cfg l) (received : Bool)
    (hen : l.Enabled (.ackWindow received)) : Base crcOf cfg (l.ackWindow crcOf received) := by
  have hbusy : l.ptx.esb.mainstate ≠ .idle := by
    have : l.ptx.esb.mainstate = .ptxRxAck := hen
    simp [this]
  exact h.ptx_step _ _ hbusy (exec_configLocal (by simp)) (by simp) (by simp)

/-- **Every step keeps the common invariant.** -/
theorem base_step {a : LinkAction} (h : Base crcOf cfg l) (hen : l.Enabled a) :
    Base crcOf cfg (l.step crcOf a) := by
  cases a with
  | write p =>
    refine h.call (.inl ⟨p, rfl⟩) fun q hq => ?_
    obtain rfl : p = q := by simpa using hq
    exact hen
  | startTx => exact h.call (.inr (.inl rfl)) (by simp)
  | flushTx => exact h.call (.inr (.inr rfl)) (by simp)
  | read dst => exact h.read dst
  | txDone delivered => exact h.txDone delivered hen
  | ackWindow received => exact h.ackWindow received hen
  | ackSent => exact h.ackSent hen

/-- The common invariant holds in every reachable state. -/
theorem base_of_reachable (h : (machine crcOf cfg).Reachable l) : Base crcOf cfg l :=
  h.invariant (fun _ => base_fresh) fun _ _ hinv hen _ => base_step hinv hen

/-! ## §6 A concrete link -/

/-- A CRC that tells packets apart by their header and bytes. -/
def checksum (pkt : AirPacket) : UInt16 :=
  pkt.data.foldl (fun crc b => crc * 31 + b.toUInt16)
    (pkt.byte0.toUInt16 * 31 + pkt.byte1.toUInt16 + 1)

/-- Two modules with the default configuration; the transmitter retransmits `count` times. -/
def defaultLink (count : UInt16) : Link where
  ptx := ⟨.start (nrfEsbInit (some { nrfEsbDefaultConfig with retransmitCount := count })
    .reset).2, none⟩
  prx := (nrfEsbStartRx (nrfEsbInit (some { nrfEsbDefaultConfig with mode := .prx })
    .reset).2).2
  ackOnAir := none
  stored := []
  acked := []
  readOut := []

theorem fresh_defaultLink (count : UInt16) :
    Fresh { nrfEsbDefaultConfig with retransmitCount := count } (defaultLink count) :=
  ⟨_, .reset, .reset, rfl, rfl, rfl, rfl, rfl⟩

instance (crcOf : AirPacket → UInt16) (cfg : NrfEsbConfig) (l : Link) (a : LinkAction) :
    Decidable ((machine crcOf cfg).enabled l a) :=
  inferInstanceAs (Decidable (l.Enabled a))

end Link

end NordicEsb
