import NordicEsb.Hci.Transport
import NordicEsb.Lib.StopAndWait

/-!
# The HCI Transport Delivers

Each direction of the link is a stop-and-wait link: the frames of a sender carry its number, the
acknowledgements of the receiver the number it expects, and the frame that a SLIP layer has begun
counts as on the way. An acknowledgement that is overwritten while it is sent counts with the
number at its last byte, or not at all.

- `Direction` is the invariant of a direction, `LinkStage` says how far the last packet is
- `Pair` is the invariant of both directions, kept by every handler

**Main result** (`agreed_of_reachable`): in every run that writes after a failure only where the
peer has not seen the failed packet, what is reported is agreed in every state.
-/

namespace NordicEsb

/-! ## §1 One direction -/

/-- The number after a number. -/
abbrev nextSeq (n : Fin 8) : Fin 8 := n + 1

theorem nextSeq_ne : ∀ n, nextSeq n ≠ n := by decide

/-- The number and the packet of a frame with application data. -/
def dataFrame (f : WireFrame) : Option (Fin 8 × ℕ) :=
  f.packet.map fun i => (packetSeqNmbrExtract f.bytes, i)

/-- The number of an acknowledgement that counts. -/
def ackFrame (f : WireFrame) : Option (Fin 8) :=
  if f.packet = none ∧ headerValid f.bytes = true then some (ackNumber f.bytes) else none

/-- A direction of the link: what `t` sends, and what `r` answers. -/
def linkView (t r : HciTransport) (out back : List WireFrame) : StopAndWait.Link (Fin 8) ℕ where
  number := t.packetTransmitSeqNumber
  expected := r.packetExpectedSeqNumber
  frames := out.filterMap dataFrame
  acks := back.filterMap ackFrame

/-- The packets with a result of success. -/
def succeeded (txDone : List TxDoneResult) : List ℕ :=
  (List.range txDone.length).filter fun i => txDone[i]? = some .success

/-- A frame that `t` has sent. -/
inductive SentBy (t : HciTransport) : WireFrame → Prop
  | data (e n : Fin 8) (i : ℕ) (data : List HciByte) (hdata : t.written[i]? = some data) :
      SentBy t ⟨hciTxPacket e n data, some i⟩
  | ack (e e' : Fin 8) :
      SentBy t ⟨[seqByte e <<< 3, 0, 0, headerChecksumCalculate (seqByte e' <<< 3) 0 0], none⟩

/-- **How far the last packet is.** -/
inductive LinkStage (t r : HciTransport) (l : StopAndWait.Link (Fin 8) ℕ) : Prop
  /-- The last packet succeeded, or could not have arrived. -/
  | fresh (hlink : StopAndWait.Fresh nextSeq l) (hstate : t.txState = .idle)
      (hrx : r.rxRdy.map Prod.fst = succeeded t.txDone)
  /-- The last packet is under way. -/
  | awaited (hlink : StopAndWait.Awaited nextSeq (t.written.length - 1) l)
      (hlast : t.txState = .idle → t.txDone.getLast? = some .failure)
      (hrx : r.rxRdy.map Prod.fst = succeeded t.txDone)
  /-- The last packet has arrived. -/
  | accepted (hlink : StopAndWait.Accepted nextSeq l)
      (hlast : t.txState = .idle → t.txDone.getLast? = some .failure)
      (hrx : r.rxRdy.map Prod.fst = succeeded t.txDone ++ [t.written.length - 1])

/-- **The invariant of a direction.** -/
structure Direction (t r : HciTransport) (out back : List WireFrame) : Prop where
  sent : ∀ f ∈ out, SentBy t f
  count : t.written.length = t.txDone.length + if t.txState = .idle then 0 else 1
  /-- The packet in `mp_tx_buffer` is the last one written, under the number of the sender. -/
  buffer : t.txState ≠ .idle → ∃ e data, t.written[t.txDone.length]? = some data ∧
    t.txBuffer = hciTxPacket e t.packetTransmitSeqNumber data
  intact : ∀ p ∈ r.rxRdy, t.written[p.1]? = some p.2
  stage : LinkStage t r (linkView t r out back)

variable {t t' r r' : HciTransport} {out back out' back' : List WireFrame} {f : WireFrame}

/-- What the SLIP layer and the receiver do not touch of a sender. -/
structure SenderEq (t t' : HciTransport) : Prop where
  state : t'.txState = .idle ↔ t.txState = .idle
  number : t'.packetTransmitSeqNumber = t.packetTransmitSeqNumber
  buffer : t'.txBuffer = t.txBuffer
  written : t'.written = t.written
  txDone : t'.txDone = t.txDone

/-- What the SLIP layer and the sender do not touch of a receiver. -/
structure ReceiverEq (r r' : HciTransport) : Prop where
  expected : r'.packetExpectedSeqNumber = r.packetExpectedSeqNumber
  rxRdy : r'.rxRdy = r.rxRdy

theorem SenderEq.refl (t : HciTransport) : SenderEq t t := ⟨Iff.rfl, rfl, rfl, rfl, rfl⟩

theorem ReceiverEq.refl (t : HciTransport) : ReceiverEq t t := ⟨rfl, rfl⟩

/-- What is in a list is in its extensions. -/
theorem getElem?_of_begins {l l' : List (List HciByte)} {i : ℕ} {data : List HciByte}
    (h : l <+: l') (hi : l[i]? = some data) : l'[i]? = some data := by
  obtain ⟨rest, rfl⟩ := h
  rw [List.getElem?_append_left (List.getElem?_eq_some_iff.mp hi).1, hi]

theorem SentBy.mono (h : SentBy t f) (hwritten : t.written <+: t'.written) : SentBy t' f := by
  cases h with
  | data e n i data hdata => exact .data e n i data (getElem?_of_begins hwritten hdata)
  | ack e e' => exact .ack e e'

/-- The stage depends on the state machines only. -/
theorem LinkStage.congr {l : StopAndWait.Link (Fin 8) ℕ} (h : LinkStage t r l)
    (ht : SenderEq t t') (hr : ReceiverEq r r') : LinkStage t' r' l := by
  cases h with
  | fresh hlink hstate hrx =>
    refine .fresh hlink ?_ ?_
    · exact ht.state.mpr hstate
    · rw [hr.rxRdy, ht.txDone, hrx]
  | awaited hlink hlast hrx =>
    refine .awaited ?_ ?_ ?_
    · rw [ht.written]
      exact hlink
    · rw [ht.state, ht.txDone]
      exact hlast
    · rw [hr.rxRdy, ht.txDone, hrx]
  | accepted hlink hlast hrx =>
    refine .accepted hlink ?_ ?_
    · rw [ht.state, ht.txDone]
      exact hlast
    · rw [hr.rxRdy, ht.txDone, ht.written, hrx]

/-- A direction depends on the state machines and on what is on the way only. -/
theorem Direction.congr (h : Direction t r out back) (ht : SenderEq t t') (hr : ReceiverEq r r') :
    Direction t' r' out back := by
  have hview : linkView t' r' out back = linkView t r out back := by
    unfold linkView
    rw [ht.number, hr.expected]
  refine ⟨fun f hf => (h.sent f hf).mono ⟨[], ?_⟩, ?_, ?_, ?_, ?_⟩
  · rw [ht.written, List.append_nil]
  · simp only [ht.written, ht.txDone, ht.state]
    exact h.count
  · rw [ht.written, ht.txDone, Ne, ht.state, ht.buffer, ht.number]
    exact h.buffer
  · rw [hr.rxRdy, ht.written]
    exact h.intact
  · rw [hview]
    exact h.stage.congr ht hr

/-! ### Losses -/

theorem LinkStage.lost {l l' : StopAndWait.Link (Fin 8) ℕ} (h : LinkStage t r l)
    (hlost : StopAndWait.Lost l l') : LinkStage t r l' := by
  cases h with
  | fresh hlink hstate hrx => exact .fresh (hlink.lost hlost) hstate hrx
  | awaited hlink hlast hrx => exact .awaited (hlink.lost hlost) hlast hrx
  | accepted hlink hlast hrx => exact .accepted (hlink.lost hlost) hlast hrx

/-- Frames are lost. -/
theorem Direction.lost (h : Direction t r out back) (hout : out'.Sublist out)
    (hback : back'.Sublist back) : Direction t r out' back' :=
  ⟨fun f hf => h.sent f (hout.subset hf), h.count, h.buffer, h.intact,
    h.stage.lost ⟨rfl, rfl, hout.filterMap _, hback.filterMap _⟩⟩

/-! ### The receiver sends -/

/-- An acknowledgement of what is expected, or one that does not count. -/
theorem Direction.answer (h : Direction t r out back)
    (hf : ackFrame f = none ∨ ackFrame f = some r.packetExpectedSeqNumber) :
    Direction t r out (back ++ [f]) := by
  refine ⟨h.sent, h.count, h.buffer, h.intact, ?_⟩
  rcases hf with hnone | hsome
  · have hview : linkView t r out (back ++ [f]) = linkView t r out back := by
      unfold linkView
      rw [List.filterMap_append, List.filterMap_cons_none hnone, List.filterMap_nil,
        List.append_nil]
    rw [hview]
    exact h.stage
  · have hview : linkView t r out (back ++ [f]) =
        { linkView t r out back with
          acks := (linkView t r out back).acks ++ [(linkView t r out back).expected] } := by
      unfold linkView
      rw [List.filterMap_append, List.filterMap_cons_some hsome, List.filterMap_nil]
    rw [hview]
    cases h.stage with
    | fresh hlink hstate hrx => exact .fresh (hlink.answer nextSeq_ne) hstate hrx
    | awaited hlink hlast hrx => exact .awaited (hlink.answer nextSeq_ne) hlast hrx
    | accepted hlink hlast hrx => exact .accepted hlink.answer hlast hrx

/-! ### The sender sends -/

/-- A frame of the sender without application data. -/
theorem Direction.sendAck (h : Direction t r out back) (hf : SentBy t f) (hnone : f.packet = none) :
    Direction t r (out ++ [f]) back := by
  have hview : linkView t r (out ++ [f]) back = linkView t r out back := by
    have hdata : dataFrame f = none := by
      unfold dataFrame
      rw [hnone]
      rfl
    unfold linkView
    rw [List.filterMap_append, List.filterMap_cons_none hdata, List.filterMap_nil, List.append_nil]
  refine ⟨fun g hg => ?_, h.count, h.buffer, h.intact, ?_⟩
  · rcases List.mem_append.mp hg with hg | hg
    · exact h.sent g hg
    · rw [List.mem_singleton.mp hg]
      exact hf
  · rw [hview]
    exact h.stage

/-- **The packet in `mp_tx_buffer` is sent**, for the first time or again. -/
theorem Direction.send (h : Direction t r out back) (hstate : t.txState ≠ .idle) :
    Direction t r (out ++ [⟨t.txBuffer, some (t.written.length - 1)⟩]) back := by
  obtain ⟨e, data, hdata, hbuffer⟩ := h.buffer hstate
  have hlast : t.written.length - 1 = t.txDone.length := by
    have hcount := h.count
    rw [if_neg hstate] at hcount
    omega
  have hview : linkView t r (out ++ [⟨t.txBuffer, some (t.written.length - 1)⟩]) back =
      { linkView t r out back with
        frames := (linkView t r out back).frames ++
          [((linkView t r out back).number, t.written.length - 1)] } := by
    unfold linkView
    rw [List.filterMap_append]
    simp only [List.filterMap_cons, List.filterMap_nil, dataFrame, Option.map_some, hbuffer,
      packetSeqNmbrExtract_hciTxPacket]
  refine ⟨fun g hg => ?_, h.count, h.buffer, h.intact, ?_⟩
  · rcases List.mem_append.mp hg with hg | hg
    · exact h.sent g hg
    · rw [List.mem_singleton.mp hg, hbuffer]
      refine .data e _ _ data ?_
      rw [hlast, hdata]
  · rw [hview]
    cases h.stage with
    | fresh _ hidle _ => exact absurd hidle hstate
    | awaited hlink hlast hrx => exact .awaited hlink.send hlast hrx
    | accepted hlink hlast hrx => exact .accepted hlink.send hlast hrx

/-! ### A packet begins -/

theorem succeeded_failure (l : List TxDoneResult) : succeeded (l ++ [.failure]) = succeeded l := by
  unfold succeeded
  rw [List.length_append, List.length_singleton, List.range_succ, List.filter_append]
  have hlast : List.filter (fun i => decide ((l ++ [.failure])[i]? = some .success)) [l.length] =
      [] := by
    simp
  rw [hlast, List.append_nil]
  refine List.filter_congr fun i hi => ?_
  rw [List.getElem?_append_left (List.mem_range.mp hi)]

theorem succeeded_success (l : List TxDoneResult) :
    succeeded (l ++ [.success]) = succeeded l ++ [l.length] := by
  unfold succeeded
  rw [List.length_append, List.length_singleton, List.range_succ, List.filter_append]
  have hlast : List.filter (fun i => decide ((l ++ [.success])[i]? = some .success)) [l.length] =
      [l.length] := by
    simp
  rw [hlast]
  congr 1
  refine List.filter_congr fun i hi => ?_
  rw [List.getElem?_append_left (List.mem_range.mp hi)]

/-- The sender with a new packet. -/
def HciTransport.load (data : List HciByte) (state : TxState) (t : HciTransport) : HciTransport :=
  { t with
    txState := state
    txBuffer := hciTxPacket t.packetExpectedSeqNumber t.packetTransmitSeqNumber data
    written := t.written ++ [data] }

/-- **A packet is written** where the condition holds. -/
theorem Direction.load (h : Direction t r out back) (hstate : t.txState = .idle)
    (hunseen : t.txDone.getLast? = some .failure →
      r.packetExpectedSeqNumber = t.packetTransmitSeqNumber ∧
        ∀ f ∈ out, f.packet ≠ some (t.written.length - 1))
    (data : List HciByte) {state : TxState} (hnew : state ≠ .idle) :
    Direction (t.load data state) r out back := by
  have hcount := h.count
  rw [if_pos hstate, Nat.add_zero] at hcount
  have hprefix : t.written <+: t.written ++ [data] := List.prefix_append _ _
  -- nothing of an earlier packet is left that has the number
  have hfresh : StopAndWait.Fresh nextSeq (linkView t r out back) ∧
      r.rxRdy.map Prod.fst = succeeded t.txDone := by
    cases h.stage with
    | fresh hlink _ hrx => exact ⟨hlink, hrx⟩
    | awaited hlink hlast hrx =>
      refine ⟨hlink.fresh fun f hf heq => ?_, hrx⟩
      obtain ⟨g, hg, hfg⟩ := List.mem_filterMap.mp hf
      obtain ⟨i, hi, rfl⟩ := Option.map_eq_some_iff.mp hfg
      exact (hunseen (hlast hstate)).2 g hg (hi.trans (congrArg some heq))
    | accepted hlink hlast hrx =>
      have hexpected : r.packetExpectedSeqNumber = nextSeq t.packetTransmitSeqNumber :=
        hlink.expected
      exact absurd (hexpected.symm.trans (hunseen (hlast hstate)).1) (nextSeq_ne _)
  refine ⟨fun f hf => (h.sent f hf).mono hprefix, ?_, ?_, fun p hp => ?_, ?_⟩
  · show (t.written ++ [data]).length = t.txDone.length + if state = .idle then 0 else 1
    rw [if_neg hnew, List.length_append, hcount]
    rfl
  · refine fun _ => ⟨_, data, ?_, rfl⟩
    show (t.written ++ [data])[t.txDone.length]? = some data
    rw [← hcount, List.getElem?_concat_length]
  · exact getElem?_of_begins hprefix (h.intact p hp)
  · exact .awaited (hfresh.1.begin _) (fun hidle => absurd hidle hnew) hfresh.2

/-! ### A packet ends -/

/-- The sender after a result. -/
def HciTransport.finish (result : TxDoneResult) (number : Fin 8) (t : HciTransport) :
    HciTransport :=
  { t with
    txState := .idle
    packetTransmitSeqNumber := number
    txDoneResultCode := result
    txDone := t.txDone ++ [result] }

/-- The retries are used up. -/
theorem Direction.fail (h : Direction t r out back) (hstate : t.txState ≠ .idle) :
    Direction (t.finish .failure t.packetTransmitSeqNumber) r out back := by
  have hcount := h.count
  rw [if_neg hstate] at hcount
  refine ⟨fun f hf => (h.sent f hf).mono ⟨[], List.append_nil _⟩, ?_,
    fun hne => absurd rfl hne, h.intact, ?_⟩
  · show t.written.length = (t.txDone ++ [TxDoneResult.failure]).length + 0
    rw [hcount, List.length_append]
    rfl
  · have hlast : (t.txDone ++ [TxDoneResult.failure]).getLast? = some .failure :=
      List.getLast?_concat
    cases h.stage with
    | fresh _ hidle _ => exact absurd hidle hstate
    | awaited hlink _ hrx =>
      refine .awaited hlink (fun _ => hlast) ?_
      show _ = succeeded (t.txDone ++ [.failure])
      rw [succeeded_failure, hrx]
    | accepted hlink _ hrx =>
      refine .accepted hlink (fun _ => hlast) ?_
      show _ = succeeded (t.txDone ++ [.failure]) ++ _
      rw [succeeded_failure, hrx]
      rfl

/-- **The acknowledgement arrives**: the peer has the packet. -/
theorem Direction.acked (h : Direction t r out (f :: back)) (hstate : t.txState ≠ .idle)
    (hf : ackFrame f = some (expectedAckNumberGet t)) :
    Direction (t.finish .success (t.packetTransmitSeqNumber + 1)) r out back := by
  have hcount := h.count
  rw [if_neg hstate] at hcount
  have hacks : (linkView t r out (f :: back)).acks =
      nextSeq t.packetTransmitSeqNumber :: back.filterMap ackFrame :=
    List.filterMap_cons_some hf
  refine ⟨fun f hf => (h.sent f hf).mono ⟨[], List.append_nil _⟩, ?_,
    fun hne => absurd rfl hne, h.intact, ?_⟩
  · show t.written.length = (t.txDone ++ [TxDoneResult.success]).length + 0
    rw [hcount, List.length_append]
    rfl
  · cases h.stage with
    | fresh _ hidle _ => exact absurd hidle hstate
    | awaited hlink _ _ => exact absurd rfl (hlink.not_acked hacks)
    | accepted hlink _ hrx =>
      refine .fresh (hlink.acked nextSeq_ne hacks) rfl ?_
      show _ = succeeded (t.txDone ++ [.success])
      rw [succeeded_success, hrx, hcount]
      rfl

/-! ### A packet arrives -/

/-- The receiver after a packet. -/
def HciTransport.take (p : ℕ × List HciByte) (r : HciTransport) : HciTransport :=
  { r with
    packetExpectedSeqNumber := r.packetExpectedSeqNumber + 1
    rxRdy := r.rxRdy ++ [p] }

/-- **The receiver accepts a packet**: it is the last one written, and new. -/
theorem Direction.accept {e n : Fin 8} {i : ℕ} {data : List HciByte}
    (h : Direction t r (⟨hciTxPacket e n data, some i⟩ :: out) back)
    (hdata : t.written[i]? = some data) (hn : r.packetExpectedSeqNumber = n) :
    Direction t (r.take (i, data)) out back := by
  have hframe : dataFrame ⟨hciTxPacket e n data, some i⟩ = some (n, i) := by
    unfold dataFrame
    rw [packetSeqNmbrExtract_hciTxPacket]
    rfl
  have hframes : (linkView t r (⟨hciTxPacket e n data, some i⟩ :: out) back).frames =
      (n, i) :: out.filterMap dataFrame :=
    List.filterMap_cons_some hframe
  refine ⟨fun f hf => h.sent f (List.mem_cons_of_mem _ hf), h.count, h.buffer, fun p hp => ?_, ?_⟩
  · rcases List.mem_append.mp hp with hp | hp
    · exact h.intact p hp
    · rw [List.mem_singleton.mp hp]
      exact hdata
  · cases h.stage with
    | fresh hlink _ _ =>
      exact absurd hn.symm (hlink.not_accept (hframes ▸ List.mem_cons_self))
    | accepted hlink _ _ =>
      exact absurd hn.symm (hlink.not_accept nextSeq_ne (hframes ▸ List.mem_cons_self))
    | awaited hlink hlast hrx =>
      obtain ⟨hi, haccepted⟩ := hlink.accept hframes hn.symm
      refine .accepted haccepted hlast ?_
      show (r.rxRdy ++ [(i, data)]).map Prod.fst = _
      rw [List.map_append, hrx]
      exact congrArg (fun x => succeeded t.txDone ++ [x]) hi

/-! ## §2 The handlers -/

/-- An acknowledgement of which the header was read with one number and the checksum with
    another. -/
abbrev tornAck (e e' : Fin 8) : List HciByte :=
  [seqByte e <<< 3, 0, 0, headerChecksumCalculate (seqByte e' <<< 3) 0 0]

/-- What the SLIP layer has read of its packet. -/
def SlipShape : SlipSend → Prop
  | .ready => True
  | .transmitting .ack sent => ∃ e e', sent <+: tornAck e e'
  | .transmitting (.data _ bytes) sent => sent <+: bytes

/-- The SLIP layer has read its packet, and goes on reading the acknowledgement of now. -/
structure SlipOk (t : HciTransport) : Prop where
  shape : SlipShape t.slip
  ack : ∀ sent, t.slip = .transmitting .ack sent → sent.length < pktHdrSize →
    t.ackPacket = ackPacket t.packetExpectedSeqNumber
  length : t.ackPacket.length = pktHdrSize

variable {w v : List WireFrame}

/-- **The invariant of both directions**, with the wires `w` from `t` and `v` from `r`. -/
structure Pair (t r : HciTransport) (w v : List WireFrame) : Prop where
  sending : Direction t r (w ++ t.leaving) (v ++ r.leaving)
  receiving : Direction r t (v ++ r.leaving) (w ++ t.leaving)
  slip : SlipOk t
  peerSlip : SlipOk r

theorem Pair.symm (h : Pair t r w v) : Pair r t v w :=
  ⟨h.receiving, h.sending, h.peerSlip, h.slip⟩

/-- A handler that does not touch the SLIP layer, and of the receiver nothing. -/
theorem Pair.sender (h : Pair t r w v) (hdir : Direction t' r (w ++ t.leaving) (v ++ r.leaving))
    (hreceiver : ReceiverEq t t') (hslip : t'.slip = t.slip) (hack : t'.ackPacket = t.ackPacket) :
    Pair t' r w v := by
  have hleaving : t'.leaving = t.leaving := by
    unfold HciTransport.leaving
    rw [hslip]
  refine ⟨?_, ?_, ⟨?_, ?_, ?_⟩, h.peerSlip⟩
  · rw [hleaving]
    exact hdir
  · rw [hleaving]
    exact h.receiving.congr (SenderEq.refl r) hreceiver
  · rw [hslip]
    exact h.slip.shape
  · rw [hslip, hack, hreceiver.expected]
    exact h.slip.ack
  · rw [hack]
    exact h.slip.length

/-- Frames on a wire are lost. -/
theorem Pair.lost {w' : List WireFrame} (h : Pair t r w v) (hw : w'.Sublist w) : Pair t r w' v := by
  have hsub := hw.append_right t.leaving
  exact ⟨h.sending.lost hsub (List.Sublist.refl _), h.receiving.lost (List.Sublist.refl _) hsub,
    h.slip, h.peerSlip⟩

/-! ### Sending -/

theorem ackFrame_data (bytes : List HciByte) (i : ℕ) : ackFrame ⟨bytes, some i⟩ = none :=
  if_neg fun h => Option.some_ne_none i h.1

/-- **The packet is passed to the SLIP layer**, which may be busy. -/
theorem Pair.writeSlip (h : Pair t r w v) (hstate : t.txState ≠ .idle) :
    Pair (slipWrite t.txSource t).2 r w v := by
  unfold NordicEsb.slipWrite
  split
  case h_1 hready =>
    have hleaving : t.leaving = [] := by
      unfold HciTransport.leaving
      rw [hready]
    have hsending := h.sending.send hstate
    have hreceiving := h.receiving.answer
      (f := ⟨t.txBuffer, some (t.written.length - 1)⟩) (.inl (ackFrame_data _ _))
    rw [hleaving, List.append_nil] at hsending hreceiving
    refine ⟨hsending.congr ⟨Iff.rfl, rfl, rfl, rfl, rfl⟩ (ReceiverEq.refl r),
      hreceiving.congr (SenderEq.refl r) ⟨rfl, rfl⟩, ⟨List.nil_prefix, ?_, h.slip.length⟩, h.peerSlip⟩
    intro sent hsent
    cases hsent
  case h_2 => exact h

/-- **An acknowledgement is passed to the SLIP layer**: it changes the one that is being sent. -/
theorem ackTransmit_effect (h : SlipShape t.slip) :
    SenderEq t (ackTransmit t) ∧ ReceiverEq t (ackTransmit t) ∧
      (ackTransmit t).leaving = t.leaving ∧ SlipOk (ackTransmit t) := by
  unfold ackTransmit NordicEsb.slipWrite
  dsimp only
  split
  case h_1 hready =>
    refine ⟨⟨Iff.rfl, rfl, rfl, rfl, rfl⟩, ⟨rfl, rfl⟩, ?_, ⟨1, 1, List.nil_prefix⟩,
      fun _ _ _ => rfl, rfl⟩
    unfold HciTransport.leaving
    rw [hready]
    rfl
  case h_2 => exact ⟨⟨Iff.rfl, rfl, rfl, rfl, rfl⟩, ⟨rfl, rfl⟩, rfl, h, fun _ _ _ => rfl, rfl⟩

/-- The receiver answers, after it has taken a packet or not. -/
theorem Pair.answer (hsending : Direction t r (w ++ t.leaving) (v ++ r.leaving))
    (hreceiving : Direction r t (v ++ r.leaving) (w ++ t.leaving)) (hshape : SlipShape t.slip)
    (hpeer : SlipOk r) : Pair (ackTransmit t) r w v := by
  obtain ⟨hsender, hreceiver, hleaving, hslip⟩ := ackTransmit_effect hshape
  refine ⟨?_, ?_, hslip, hpeer⟩
  · rw [hleaving]
    exact hsending.congr hsender (ReceiverEq.refl r)
  · rw [hleaving]
    exact hreceiving.congr (SenderEq.refl r) hreceiver

/-- The next byte of a packet. -/
theorem prefix_byteAt {sent bytes : List HciByte} (h : sent <+: bytes)
    (hlt : sent.length < bytes.length) : sent ++ [byteAt bytes sent.length] <+: bytes := by
  obtain ⟨rest, rfl⟩ := h
  cases rest with
  | nil =>
    rw [List.append_nil] at hlt
    exact absurd hlt (Nat.lt_irrefl _)
  | cons b rest =>
    refine ⟨rest, ?_⟩
    unfold byteAt
    rw [List.getD_append_right _ _ _ _ (Nat.le_refl _), Nat.sub_self]
    simp

/-- The next byte of an acknowledgement, which may have changed since the last one. -/
theorem prefix_tornAck {sent : List HciByte} {e e' : Fin 8} (h : sent <+: tornAck e e')
    (hlt : sent.length < pktHdrSize) (x : Fin 8) :
    (sent.length + 1 < pktHdrSize ∧
      ∃ d d', sent ++ [byteAt (ackPacket x) sent.length] <+: tornAck d d') ∨
    (sent.length + 1 = pktHdrSize ∧
      ∃ d, sent ++ [byteAt (ackPacket x) sent.length] = tornAck d x) := by
  rw [List.prefix_iff_eq_take] at h
  obtain ⟨k, hk⟩ : ∃ k, k = sent.length := ⟨_, rfl⟩
  rw [← hk] at h hlt ⊢
  rw [h]
  match k, hlt with
  | 0, _ => exact .inl ⟨by decide, x, x, ⟨[0, 0, _], rfl⟩⟩
  | 1, _ => exact .inl ⟨by decide, e, e', ⟨[0, _], rfl⟩⟩
  | 2, _ => exact .inl ⟨by decide, e, e', ⟨[_], rfl⟩⟩
  | 3, _ => exact .inr ⟨rfl, e, rfl⟩

theorem ackFrame_tornAck (e e' : Fin 8) :
    ackFrame ⟨tornAck e e', none⟩ = none ∨ ackFrame ⟨tornAck e e', none⟩ = some e' := by
  revert e e'
  decide

/-- The SLIP layer reads a byte of an application packet. -/
theorem Pair.readData {i : ℕ} {bytes sent : List HciByte} (h : Pair t r w v)
    (hslip : t.slip = .transmitting (.data i bytes) sent) (hlt : sent.length < bytes.length) :
    Pair { t with slip := .transmitting (.data i bytes) (sent ++ [byteAt bytes sent.length]) }
      r w v := by
  have hshape := h.slip.shape
  have hsending := h.sending
  have hreceiving := h.receiving
  unfold HciTransport.leaving at hsending hreceiving
  rw [hslip] at hshape hsending hreceiving
  refine ⟨hsending.congr ⟨Iff.rfl, rfl, rfl, rfl, rfl⟩ (ReceiverEq.refl r),
    hreceiving.congr (SenderEq.refl r) ⟨rfl, rfl⟩, ⟨prefix_byteAt hshape hlt, ?_, h.slip.length⟩,
    h.peerSlip⟩
  intro sent hsent
  cases hsent

/-- The SLIP layer reads a byte of an acknowledgement; with the last one it can no longer change. -/
theorem Pair.readAck {sent : List HciByte} (h : Pair t r w v)
    (hslip : t.slip = .transmitting .ack sent) (hlt : sent.length < pktHdrSize) :
    Pair { t with slip := .transmitting .ack (sent ++ [byteAt t.ackPacket sent.length]) }
      r w v := by
  have hshape := h.slip.shape
  have hack := h.slip.ack sent hslip hlt
  have hleaving : t.leaving = [] := by
    unfold HciTransport.leaving
    rw [hslip]
    exact if_neg (Nat.ne_of_lt hlt)
  have hsending := h.sending
  have hreceiving := h.receiving
  rw [hslip] at hshape
  rw [hleaving, List.append_nil] at hsending hreceiving
  obtain ⟨e, e', hprefix⟩ := hshape
  obtain ⟨new, hnew⟩ : ∃ new, new = sent ++ [byteAt t.ackPacket sent.length] := ⟨_, rfl⟩
  have hnewlen : new.length = sent.length + 1 := by
    rw [hnew, List.length_append]
    rfl
  rw [← hnew]
  have hcases := prefix_tornAck hprefix hlt t.packetExpectedSeqNumber
  rw [← hack, ← hnew] at hcases
  rcases hcases with ⟨hshort, d, d', hd⟩ | ⟨hlast, d, hd⟩
  · have hnewleaving : ({ t with slip := .transmitting .ack new } : HciTransport).leaving = [] :=
      if_neg (by rw [hnewlen]; exact Nat.ne_of_lt hshort)
    refine ⟨?_, ?_, ⟨⟨d, d', hd⟩, fun _ _ _ => hack, h.slip.length⟩, h.peerSlip⟩
    · rw [hnewleaving, List.append_nil]
      exact hsending.congr ⟨Iff.rfl, rfl, rfl, rfl, rfl⟩ (ReceiverEq.refl r)
    · rw [hnewleaving, List.append_nil]
      exact hreceiving.congr (SenderEq.refl r) ⟨rfl, rfl⟩
  · -- the number of an acknowledgement that counts is the one expected now
    have hnewleaving : ({ t with slip := .transmitting .ack new } : HciTransport).leaving =
        [⟨tornAck d t.packetExpectedSeqNumber, none⟩] := by
      refine (if_pos (hnewlen.trans hlast)).trans ?_
      rw [hd]
    refine ⟨?_, ?_, ⟨⟨d, _, [], (List.append_nil new).trans hd⟩, fun _ _ _ => hack, h.slip.length⟩, h.peerSlip⟩
    · rw [hnewleaving]
      exact (hsending.sendAck (.ack d _) rfl).congr ⟨Iff.rfl, rfl, rfl, rfl, rfl⟩
        (ReceiverEq.refl r)
    · rw [hnewleaving]
      exact (hreceiving.answer (ackFrame_tornAck d _)).congr (SenderEq.refl r) ⟨rfl, rfl⟩

/-- The frame that ends is the one that was leaving. -/
theorem SlipOk.leaving {source : SlipSource} {sent : List HciByte} (h : SlipOk t)
    (hslip : t.slip = .transmitting source sent) (hlen : ¬sent.length < (source.bytes t).length) :
    t.leaving = [⟨sent, source.packet⟩] := by
  have hshape := h.shape
  have hack := h.ack sent
  rw [hslip] at hshape
  unfold HciTransport.leaving
  rw [hslip]
  cases source with
  | ack =>
    have hlong : ¬sent.length < pktHdrSize := by
      intro hlt
      apply hlen
      show sent.length < t.ackPacket.length
      rw [hack hslip hlt]
      exact hlt
    obtain ⟨e, e', hprefix⟩ := hshape
    exact if_pos (Nat.le_antisymm hprefix.length_le (Nat.not_lt.mp hlong))
  | data i bytes =>
    have heq : sent = bytes := List.IsPrefix.eq_of_length_le hshape (Nat.not_lt.mp hlen)
    rw [heq]
    rfl

/-- The end byte: the frame is on the wire and the SLIP layer is ready. -/
theorem Pair.endFrame {source : SlipSource} {sent : List HciByte} (h : Pair t r w v)
    (hslip : t.slip = .transmitting source sent) (hlen : ¬sent.length < (source.bytes t).length) :
    Pair { t with slip := .ready } r (w ++ [⟨sent, source.packet⟩]) v := by
  have hleaving := h.slip.leaving hslip hlen
  have hsending := h.sending
  have hreceiving := h.receiving
  rw [hleaving] at hsending hreceiving
  refine ⟨?_, ?_, ⟨trivial, fun _ hsent => (by cases hsent), h.slip.length⟩, h.peerSlip⟩
  · refine Direction.congr (t := t) (r := r) ?_ ⟨Iff.rfl, rfl, rfl, rfl, rfl⟩ (ReceiverEq.refl r)
    exact (List.append_nil (w ++ _)).symm ▸ hsending
  · refine Direction.congr (t := r) (r := t) ?_ (SenderEq.refl r) ⟨rfl, rfl⟩
    exact (List.append_nil (w ++ _)).symm ▸ hreceiving

/-! ### Events of the state machine -/

theorem slipWrite_txState (source : SlipSource) (t : HciTransport) :
    (slipWrite source t).2.txState = t.txState := by
  unfold slipWrite
  split <;> rfl

theorem txSmEventHandle_idle {event : TxEvent} (hevent : event ≠ .stateEntry)
    (hstate : t.txState = .idle) : txSmEventHandle event t = t := by
  unfold txSmEventHandle
  rw [hstate]
  cases event with
  | stateEntry => exact absurd rfl hevent
  | _ => rfl

theorem txSmEventHandle_pending {event : TxEvent} (hevent : event ≠ .stateEntry)
    (hdone : event ≠ .slipTxDone) (hstate : t.txState = .pending) : txSmEventHandle event t = t := by
  unfold txSmEventHandle
  rw [hstate]
  cases event with
  | stateEntry => exact absurd rfl hevent
  | slipTxDone => exact absurd rfl hdone
  | _ => rfl

/-- `HCI_SLIP_TX_DONE`: a packet that waited is passed to the SLIP layer. -/
theorem Pair.slipTxDone (h : Pair t r w v) : Pair (txSmEventHandle .slipTxDone t) r w v := by
  cases hstate : t.txState with
  | idle =>
    rw [txSmEventHandle_idle (by decide) hstate]
    exact h
  | active =>
    have heq : txSmEventHandle .slipTxDone t = t := by simp only [txSmEventHandle, hstate]
    rw [heq]
    exact h
  | pending =>
    have heq : txSmEventHandle .slipTxDone t =
        txSmStateChange .active (slipWrite t.txSource t).2 := by
      simp only [txSmEventHandle, hstate]
    have hne : t.txState ≠ .idle := by
      rw [hstate]
      decide
    have hwrite := h.writeSlip hne
    rw [heq]
    refine hwrite.sender (hwrite.sending.congr ⟨?_, rfl, rfl, rfl, rfl⟩ (ReceiverEq.refl r))
      ⟨rfl, rfl⟩ rfl rfl
    show TxState.active = .idle ↔ _
    rw [slipWrite_txState, hstate]
    decide

/-- `TX_EVENT_TIMEOUT`: the packet is sent again, or given up. -/
theorem Pair.timeout (h : Pair t r w v) : Pair (txSmEventHandle .timeout t) r w v := by
  cases hstate : t.txState with
  | idle =>
    rw [txSmEventHandle_idle (by decide) hstate]
    exact h
  | pending =>
    rw [txSmEventHandle_pending (by decide) (by decide) hstate]
    exact h
  | active =>
    have hne : t.txState ≠ .idle := by
      rw [hstate]
      decide
    have heq : txSmEventHandle .timeout t =
        if t.txRetryCounter ≠ maxRetryCount then
          (slipWrite t.txSource { t with txRetryCounter := t.txRetryCounter + 1 }).2
        else txSmStateChange .idle { t with txDoneResultCode := .failure } := by
      simp only [txSmEventHandle, hstate]
    rw [heq]
    split
    · have hretry : Pair { t with txRetryCounter := t.txRetryCounter + 1 } r w v :=
        h.sender (h.sending.congr ⟨Iff.rfl, rfl, rfl, rfl, rfl⟩ (ReceiverEq.refl r)) ⟨rfl, rfl⟩
          rfl rfl
      exact hretry.writeSlip hne
    · exact h.sender (h.sending.fail hne) ⟨rfl, rfl⟩ rfl rfl

/-- `hci_transport_pkt_write` after the callback for the packet before. -/
theorem Pair.pktWrite (h : Pair t r w v) (hstate : t.txState = .idle)
    (hunseen : t.txDone.getLast? = some .failure →
      r.packetExpectedSeqNumber = t.packetTransmitSeqNumber ∧
        ∀ f ∈ w ++ t.leaving, f.packet ≠ some (t.written.length - 1))
    (data : List HciByte) : Pair (hciTransportPktWrite (some data) t).2 r w v := by
  have hload : ∀ state : TxState, state ≠ .idle → Pair (t.load data state) r w v :=
    fun state hnew => h.sender (h.sending.load hstate hunseen data hnew) ⟨rfl, rfl⟩ rfl rfl
  cases hslip : t.slip with
  | ready =>
    have heq : (hciTransportPktWrite (some data) t).2 =
        { (slipWrite (t.load data .active).txSource (t.load data .active)).2 with
          txRetryCounter := 0 } := by
      simp only [hciTransportPktWrite, hstate, pktWriteHandle, slipWrite, hslip,
        HciTransport.load]
      rfl
    have hwrite := (hload .active (by decide)).writeSlip fun hidle => (by cases hidle)
    rw [heq]
    exact hwrite.sender (hwrite.sending.congr ⟨Iff.rfl, rfl, rfl, rfl, rfl⟩ (ReceiverEq.refl r))
      ⟨rfl, rfl⟩ rfl rfl
  | transmitting source sent =>
    have heq : (hciTransportPktWrite (some data) t).2 = t.load data .pending := by
      simp only [hciTransportPktWrite, hstate, pktWriteHandle, slipWrite, hslip,
        HciTransport.load]
      rfl
    rw [heq]
    exact hload .pending (by decide)

/-- The SLIP layer goes on. -/
theorem Pair.sendByte (h : Pair t r w v) :
    Pair (slipSendByte t).2 r (w ++ (slipSendByte t).1) v := by
  unfold NordicEsb.slipSendByte
  split
  case h_1 =>
    rw [List.append_nil]
    exact h
  case h_2 source sent hslip =>
    split
    case isTrue hlt =>
      rw [List.append_nil]
      cases source with
      | ack =>
        have hshort : sent.length < t.ackPacket.length := hlt
        rw [h.slip.length] at hshort
        exact h.readAck hslip hshort
      | data i bytes => exact h.readData hslip hlt
    case isFalse hlen => exact (h.endFrame hslip hlen).slipTxDone

/-! ### A frame arrives -/

/-- `TX_EVENT_VALID_RX_ACK`: only a packet that is active ends with it. -/
theorem Pair.validRxAck (h : Pair t r w (f :: v))
    (hf : ackFrame f = some (expectedAckNumberGet t)) (hcode : t.txDoneResultCode = .success) :
    Pair (txSmEventHandle .validRxAck t) r w v := by
  have hdrop : Pair t r w v := (h.symm.lost (List.sublist_cons_self _ _)).symm
  cases hstate : t.txState with
  | idle =>
    rw [txSmEventHandle_idle (by decide) hstate]
    exact hdrop
  | pending =>
    rw [txSmEventHandle_pending (by decide) (by decide) hstate]
    exact hdrop
  | active =>
    have hne : t.txState ≠ .idle := by
      rw [hstate]
      decide
    have heq : txSmEventHandle .validRxAck t =
        t.finish .success (t.packetTransmitSeqNumber + 1) := by
      simp only [txSmEventHandle, hstate, txSmStateChange, txSmStateEntry, HciTransport.finish,
        hcode]
    rw [heq]
    exact hdrop.sender (h.sending.acked hne hf) ⟨rfl, rfl⟩ rfl rfl

/-- An acknowledgement of the receiver arrives. -/
theorem Pair.rxAck {e e' : Fin 8} (h : Pair t r w (⟨tornAck e e', none⟩ :: v)) :
    Pair (slipRxRdyHandle ⟨tornAck e e', none⟩ t) r w v := by
  have htype : packetTypeDecode (tornAck e e') = pktTypeAck := packetTypeDecode_ack _ _
  have heq : slipRxRdyHandle ⟨tornAck e e', none⟩ t =
      if rxAckPktTypeHandle (expectedAckNumberGet t) (tornAck e e') then
        txSmEventHandle .validRxAck { t with txDoneResultCode := .success }
      else t := by
    unfold slipRxRdyHandle
    rw [htype, if_neg (by decide), if_pos rfl]
  rw [heq]
  split
  case isFalse => exact (h.symm.lost (List.sublist_cons_self _ _)).symm
  case isTrue hack =>
    have hframe : ackFrame ⟨tornAck e e', none⟩ = some (expectedAckNumberGet t) := by
      unfold rxAckPktTypeHandle at hack
      unfold ackFrame
      cases hvalid : headerValid (tornAck e e') with
      | false =>
        rw [hvalid] at hack
        cases hack
      | true =>
        rw [hvalid] at hack
        rw [if_pos ⟨rfl, rfl⟩]
        exact congrArg some (beq_iff_eq.mp hack)
    have hcode : Pair { t with txDoneResultCode := .success } r w (⟨tornAck e e', none⟩ :: v) :=
      h.sender (h.sending.congr ⟨Iff.rfl, rfl, rfl, rfl, rfl⟩ (ReceiverEq.refl r))
        ⟨rfl, rfl⟩ rfl rfl
    exact hcode.validRxAck hframe rfl

/-- The event for the application comes after the answer. -/
theorem ackTransmit_take (p : ℕ × List HciByte) (t : HciTransport) :
    ackTransmit (t.take p) =
      let t' := ackTransmit
        { t with packetExpectedSeqNumber := t.packetExpectedSeqNumber + 1 }
      { t' with rxRdy := t'.rxRdy ++ [p] } := by
  unfold ackTransmit slipWrite HciTransport.take
  dsimp only
  split <;> rfl

/-- An application packet of the receiver arrives. -/
theorem Pair.rxData {e n : Fin 8} {i : ℕ} {data : List HciByte}
    (h : Pair t r w (⟨hciTxPacket e n data, some i⟩ :: v)) (hdata : r.written[i]? = some data) :
    Pair (slipRxRdyHandle ⟨hciTxPacket e n data, some i⟩ t) r w v := by
  have hdrop : Pair t r w v := (h.symm.lost (List.sublist_cons_self _ _)).symm
  unfold slipRxRdyHandle
  dsimp only
  rw [packetTypeDecode_hciTxPacket, if_pos rfl]
  unfold rxVendorSpecificPktTypeHandle
  dsimp only
  rw [isRxPktValid_hciTxPacket, if_pos rfl, packetSeqNmbrExtract_hciTxPacket,
    rxPktData_hciTxPacket]
  split
  case isFalse =>
    exact Pair.answer hdrop.sending hdrop.receiving hdrop.slip.shape hdrop.peerSlip
  case isTrue hn =>
    have htake := h.receiving.accept hdata hn
    have hanswer : Pair (ackTransmit (t.take (i, data))) r w v := by
      refine Pair.answer ?_ ?_ hdrop.slip.shape hdrop.peerSlip
      · exact hdrop.sending.congr ⟨Iff.rfl, rfl, rfl, rfl, rfl⟩ (ReceiverEq.refl r)
      · exact htake
    rw [ackTransmit_take] at hanswer
    exact hanswer

/-- **A frame arrives.** -/
theorem Pair.deliver (h : Pair t r w (f :: v)) : Pair (slipRxRdyHandle f t) r w v := by
  have hsent := h.receiving.sent f List.mem_cons_self
  cases hsent with
  | data e n i data hdata => exact h.rxData hdata
  | ack e e' => exact h.rxAck

/-! ## §3 Runs -/

/-- The invariant of the machine. -/
def HciNet.Inv (s : HciNet) : Prop := Pair s.a s.b s.fromA s.fromB

/-- The invariant, seen from an end. -/
theorem HciNet.Inv.pair {s : HciNet} (h : s.Inv) (d : HciSide) :
    Pair (s.side d) (s.side d.peer) (s.wire d) (s.wire d.peer) := by
  cases d with
  | a => exact h
  | b => exact Pair.symm h

theorem HciNet.Inv.act {s : HciNet} {d : HciSide}
    {f : HciTransport → List WireFrame × HciTransport}
    (h : Pair (f (s.side d)).2 (s.side d.peer) (s.wire d ++ (f (s.side d)).1) (s.wire d.peer)) :
    (s.act d f).Inv := by
  cases d with
  | a => exact h
  | b => exact Pair.symm h

theorem HciNet.Inv.setWire {s : HciNet} {d : HciSide} {wire : List WireFrame}
    (h : Pair (s.side d) (s.side d.peer) wire (s.wire d.peer)) : (s.setWire d wire).Inv := by
  cases d with
  | a => exact h
  | b => exact Pair.symm h

/-- The frame leaves the wire, and the other end handles it. -/
theorem HciNet.Inv.receive {s : HciNet} {d : HciSide} (h : s.Inv) : (s.receive d).Inv := by
  unfold HciNet.receive
  split
  case h_1 => exact h
  case h_2 frame rest hwire =>
    have hpair := (h.pair d).symm
    rw [hwire] at hpair
    refine HciNet.Inv.act ?_
    rw [List.append_nil]
    cases d with
    | a => exact hpair.deliver
    | b => exact hpair.deliver

theorem hciTransportOpen_direction : Direction hciTransportOpen hciTransportOpen [] [] := by
  refine ⟨fun f hf => absurd hf List.not_mem_nil, rfl, fun hne => absurd rfl hne,
    fun p hp => absurd hp List.not_mem_nil, .fresh ⟨rfl, ?_, ?_⟩ rfl rfl⟩
  · exact fun f hf => absurd hf List.not_mem_nil
  · exact fun f hf => absurd hf List.not_mem_nil

/-- **A step keeps the invariant.** -/
theorem HciNet.Inv.step {s : HciNet} {l : HciNetLabel} (h : s.Inv) (henabled : l.Enabled s)
    (hunseen : Unseen s l) : (s.step l).Inv := by
  cases l with
  | write d data =>
    refine HciNet.Inv.act ?_
    rw [List.append_nil]
    exact (h.pair d).pktWrite henabled.1 hunseen data
  | slipByte d => exact HciNet.Inv.act (h.pair d).sendByte
  | timeout d =>
    refine HciNet.Inv.act ?_
    rw [List.append_nil]
    exact (h.pair d).timeout
  | lose d i => exact HciNet.Inv.setWire ((h.pair d).lost (List.eraseIdx_sublist _ _))
  | deliver d => exact h.receive

theorem HciNet.Inv.of_reachable {s : HciNet} (h : hciNet.ReachableUnder Unseen s) : s.Inv := by
  refine h.invariant (I := HciNet.Inv) ?_ fun s l hI henabled hunseen => hI.step henabled hunseen
  rintro s rfl
  exact ⟨hciTransportOpen_direction, hciTransportOpen_direction,
    ⟨trivial, fun _ hsent => (by cases hsent), rfl⟩,
    ⟨trivial, fun _ hsent => (by cases hsent), rfl⟩⟩

/-! ### What the invariant says -/

theorem mem_succeeded {txDone : List TxDoneResult} {i : ℕ} :
    i ∈ succeeded txDone ↔ txDone[i]? = some .success := by
  unfold succeeded
  rw [List.mem_filter, List.mem_range, decide_eq_true_eq]
  exact ⟨And.right, fun h => ⟨(List.getElem?_eq_some_iff.mp h).1, h⟩⟩

theorem succeeded_pairwise (txDone : List TxDoneResult) : (succeeded txDone).Pairwise (· < ·) :=
  List.Pairwise.filter _ List.pairwise_lt_range

/-- The packets that were accepted: those reported as sent, and perhaps a later one. -/
theorem Direction.rxRdy (h : Direction t r out back) :
    ∃ later, r.rxRdy.map Prod.fst = succeeded t.txDone ++ later ∧
      (succeeded t.txDone ++ later).Pairwise (· < ·) := by
  have hsorted := succeeded_pairwise t.txDone
  cases h.stage with
  | fresh _ _ hrx => exact ⟨[], by rw [hrx, List.append_nil], by rwa [List.append_nil]⟩
  | awaited _ _ hrx => exact ⟨[], by rw [hrx, List.append_nil], by rwa [List.append_nil]⟩
  | accepted _ hlast hrx =>
    refine ⟨_, hrx, List.pairwise_append.mpr ⟨hsorted, List.pairwise_singleton _ _, ?_⟩⟩
    intro i hi x hx
    rw [List.mem_singleton.mp hx]
    have hi := mem_succeeded.mp hi
    have hlt := (List.getElem?_eq_some_iff.mp hi).1
    have hcount := h.count
    by_cases hstate : t.txState = .idle
    · -- the last packet failed, so a packet that succeeded is an earlier one
      rw [if_pos hstate] at hcount
      have hfailed := hlast hstate
      rw [List.getLast?_eq_getElem?] at hfailed
      have hne : i ≠ t.txDone.length - 1 := by
        intro heq
        rw [heq, hfailed] at hi
        cases hi
      omega
    · rw [if_neg hstate] at hcount
      omega

theorem Direction.agreed (h : Direction t r out back) : Agreed t r := by
  obtain ⟨later, hrx, hsorted⟩ := h.rxRdy
  refine ⟨fun i hi => ?_, ?_, h.intact⟩
  · rw [hrx]
    exact List.count_eq_one_of_mem (hsorted.imp Nat.ne_of_lt)
      (List.mem_append_left _ (mem_succeeded.mpr hi))
  · rw [hrx]
    exact hsorted

/-- **Main result.** In every run that writes a packet after one that failed only where the peer
    has not taken that one and no copy of it is on the way, in every state and for both ends: a
    packet reported as sent was accepted exactly once, and packets are accepted in order. -/
theorem agreed_of_reachable (s : HciNet) (h : hciNet.ReachableUnder Unseen s) (d : HciSide) :
    Agreed (s.side d) (s.side d.peer) :=
  ((HciNet.Inv.of_reachable h).pair d).sending.agreed

/-! ### Two runs -/

instance (s : HciNet) (l : HciNetLabel) : Decidable (hciNet.enabled s l) :=
  match l with
  | .write d data => inferInstanceAs (Decidable ((s.side d).txState = .idle ∧ data.length < 2 ^ 16))
  | .slipByte _ => .isTrue trivial
  | .deliver _ => .isTrue trivial
  | .lose _ _ => .isTrue trivial
  | .timeout _ => .isTrue trivial

instance (s : HciNet) (l : HciNetLabel) : Decidable (Unseen s l) :=
  match l with
  | .write _ _ => inferInstanceAs (Decidable (_ → _ ∧ ∀ f ∈ _, _))
  | .slipByte _ => .isTrue trivial
  | .deliver _ => .isTrue trivial
  | .lose _ _ => .isTrue trivial
  | .timeout _ => .isTrue trivial

/-- Both ends have called `hci_transport_open`. -/
def bothOpen : HciNet := ⟨hciTransportOpen, hciTransportOpen, [], []⟩

/-- A packet of one byte is written and its frame is on the wire. -/
def writeByte (b : HciByte) : List HciNetLabel :=
  .write .a [b] :: List.replicate 8 (.slipByte .a)

/-- The frame arrives, and so does the acknowledgement. -/
def answered : List HciNetLabel :=
  .deliver .a :: List.replicate 5 (.slipByte .b) ++ [.deliver .b]

/-- The retries are used up, and the frame sent again is lost. -/
def givenUp : List HciNetLabel :=
  List.replicate 6 (.timeout .a) ++ List.replicate 8 (.slipByte .a) ++ [.lose .a 0]

theorem agreed_secondLost :
    Agreed
      (hciNet.run bothOpen (writeByte 1 ++ answered ++ writeByte 2 ++ .lose .a 0 :: givenUp ++
        writeByte 3 ++ answered)).a
      (hciNet.run bothOpen (writeByte 1 ++ answered ++ writeByte 2 ++ .lose .a 0 :: givenUp ++
        writeByte 3 ++ answered)).b :=
  agreed_of_reachable _ (.of_follows (.start rfl) (by decide +kernel)) .a

/-- **The acknowledgements of a packet are lost, and the next packet is reported as sent** though
    the peer took it for the first one sent again. -/
theorem not_agreed_acksLost :
    ¬ ∀ (s : HciNet), hciNet.Reachable s → ∀ d : HciSide, Agreed (s.side d) (s.side d.peer) := by
  intro hall
  have hagreed := hall
    (hciNet.run bothOpen (writeByte 1 ++ .deliver .a :: List.replicate 5 (.slipByte .b) ++
      .lose .b 0 :: givenUp ++ writeByte 2 ++ answered))
    (.of_follows (.start rfl) (by decide +kernel)) .a
  exact absurd (hagreed.once 1 (by decide +kernel)) (by decide +kernel)

end NordicEsb
