import NordicEsb.Link.Model

/-!
# The Duplicate Filter

A receiver takes a packet for a retransmission if PID and RXCRC are those of the last packet of
the pipe. When the transmitter drops payloads by flushing, the two-bit PID can come around, so
that a new payload is acknowledged and not stored.

- `acked_stored_or_mistaken`: an acknowledged payload was stored before, or it was taken for a
  retransmission of an older stored payload of its pipe with the same RXCRC, and a positive
  multiple of four payloads of the pipe were written from that one to it.
- `wrapRun`: three lost and flushed payloads between two equal ones, and the second is lost.

Flushes may come at any time here. A pipe for which nothing was stored yet is left out: its
bookkeeping still holds zeros.
-/

namespace NordicEsb

namespace Link

variable {crcOf : AirPacket → UInt16} {cfg : NrfEsbConfig} {l : Link}

/-! ## §1 What an acknowledgment says -/

variable (crcOf cfg) in
/-- The payload `x` has the PID and the RXCRC of the older payload `y` of its pipe, a positive
    multiple of four payloads of the pipe after it. -/
structure MistakenFor (accepted : List NrfEsbPayload) (x y : ℕ × NrfEsbPayload) : Prop where
  older : y.1 < x.1
  pipe : y.2.pipe = x.2.pipe
  crc : crcOf (packetOf cfg y.2) = crcOf (packetOf cfg x.2)
  wrapped : ∃ m, 0 < m ∧
    countOn x.2.pipe ((accepted.take (x.1 + 1)).drop (y.1 + 1)) = 4 * m

/-- A list around two of its elements. -/
theorem split_at_two {α : Type*} {l : List α} {i j : ℕ} {x y : α} (hij : i < j)
    (hi : l[i]? = some x) (hj : l[j]? = some y) :
    l = l.take i ++ x :: (l.take j).drop (i + 1) ++ y :: l.drop (j + 1) ∧
      (l.take (j + 1)).drop (i + 1) = (l.take j).drop (i + 1) ++ [y] := by
  obtain ⟨hi', rfl⟩ := List.getElem?_eq_some_iff.mp hi
  obtain ⟨hj', rfl⟩ := List.getElem?_eq_some_iff.mp hj
  have htake : l.take (j + 1) = l.take j ++ [l[j]] := by
    rw [List.take_add_one, List.getElem?_eq_getElem hj']
    rfl
  constructor
  · have hleft : l.take i ++ l[i] :: (l.take j).drop (i + 1) = l.take j := by
      have hlt : i < (l.take j).length := by
        rw [List.length_take]
        omega
      have hget : (l.take j)[i] = l[i] := List.getElem_take
      have hsplit := List.take_append_drop i (l.take j)
      rw [List.drop_eq_getElem_cons hlt, hget, List.take_take, Nat.min_eq_left hij.le] at hsplit
      exact hsplit
    rw [hleft, ← List.drop_eq_getElem_cons hj', List.take_append_drop]
  · rw [htake, List.drop_append_of_le_length]
    rw [List.length_take]
    omega

/-- **A remembered payload was stored, or is mistaken for one that was.** -/
theorem stored_or_mistaken {accepted : List NrfEsbPayload} {stored : List (ℕ × NrfEsbPayload)}
    {x : ℕ × NrfEsbPayload} (hcount : PidsCount accepted) (hx : accepted[x.1]? = some x.2)
    (hpipe : x.2.pipe.toNat < nrfEsbPipeCount)
    (hstored : ∀ y ∈ stored, accepted[y.1]? = some y.2 ∧ y.1 ≤ x.1)
    (hrec : pipeRecord crcOf cfg stored x.2.pipe = recordOf crcOf cfg x.2)
    (hheard : ∃ y ∈ stored, y.2.pipe = x.2.pipe) :
    x ∈ stored ∨ ∃ y ∈ stored, MistakenFor crcOf cfg accepted x y := by
  rcases pipeRecord_cases crcOf cfg stored x.2.pipe with
    ⟨l₁, y, l₂, hsplit, hy, -, hrec'⟩ | ⟨hnone, -⟩
  · have hmem : y ∈ stored := by rw [hsplit]; simp
    obtain ⟨hyacc, hle⟩ := hstored y hmem
    rw [hrec', recordOf, recordOf, Prod.mk.injEq] at hrec
    rcases Nat.lt_or_eq_of_le hle with hlt | heq
    · obtain ⟨hl, hmid⟩ := split_at_two hlt hyacc hx
      have hdvd := PidsCount.four_dvd (hl ▸ hcount) hy (hy ▸ hpipe) hrec.1
      obtain ⟨m, hm⟩ := hdvd
      refine .inr ⟨y, hmem, hlt, hy, hrec.2, m, ?_, hmid ▸ hm⟩
      -- the payload itself is counted
      rw [countOn_append] at hm
      have hlast : countOn x.2.pipe [x.2] = 1 := by simp [countOn]
      omega
    · have hxy : y = x := by
        rw [heq, hx] at hyacc
        exact Prod.ext heq (Option.some.inj hyacc).symm
      exact .inl (hxy ▸ hmem)
  · obtain ⟨y, hy, hypipe⟩ := hheard
    exact absurd hypipe (hnone y hy)

/-! ## §2 Runs -/

variable (crcOf cfg) in
/-- What is known of the acknowledged payloads. -/
def AckedRemembered (l : Link) : Prop :=
  ∀ a ∈ l.acked, a.storedBefore <+: l.stored ∧
    l.ptx.accepted[a.payload.1]? = some a.payload.2 ∧
    (∀ y ∈ a.storedBefore, y.1 ≤ a.payload.1) ∧
    pipeRecord crcOf cfg a.storedBefore a.payload.2.pipe = recordOf crcOf cfg a.payload.2

theorem ackedRemembered_mono {l' : Link} (h : AckedRemembered crcOf cfg l)
    (hacked : l'.acked = l.acked) (hstored : l.stored <+: l'.stored)
    (haccepted : l.ptx.accepted <+: l'.ptx.accepted) : AckedRemembered crcOf cfg l' := by
  intro a ha
  obtain ⟨h₁, h₂, h₃⟩ := h a (hacked ▸ ha)
  refine ⟨h₁.trans hstored, ?_, h₃⟩
  obtain ⟨rest, hrest⟩ := haccepted
  rw [← hrest, List.getElem?_append_left (List.getElem?_eq_some_iff.mp h₂).1, h₂]

/-- **Every step keeps it**: an acknowledgment comes from a receiver that remembers the
    payload. -/
theorem ackedRemembered_step {a : LinkAction} (h : AckedRemembered crcOf cfg l)
    (hbase : Base crcOf cfg l) (hen : l.Enabled a) :
    AckedRemembered crcOf cfg (l.step crcOf a) := by
  cases a with
  | write p =>
    exact ackedRemembered_mono h rfl List.prefix_rfl
      (accepted_prefix_step l.ptx (.writePayload (some p)))
  | startTx =>
    exact ackedRemembered_mono h rfl List.prefix_rfl (accepted_prefix_step l.ptx .startTx)
  | flushTx =>
    exact ackedRemembered_mono h rfl List.prefix_rfl (accepted_prefix_step l.ptx .flushTx)
  | read dst => exact ackedRemembered_mono h rfl List.prefix_rfl List.prefix_rfl
  | ackSent => exact ackedRemembered_mono h rfl List.prefix_rfl List.prefix_rfl
  | txDone delivered =>
    refine ackedRemembered_mono h rfl ?_ (accepted_prefix_step l.ptx (.radioIrq .silent))
    change l.stored <+: (if l.arrives delivered && storesRx ((l.incoming crcOf).latch l.prx)
      then l.stored ++ l.ptx.onAir.toList else l.stored)
    split
    · exact List.prefix_append _ _
    · exact List.prefix_rfl
  | ackWindow received =>
    have hold : AckedRemembered crcOf cfg { l with
        ptx := l.ptx.step (.radioIrq (l.ackEvent crcOf received)), ackOnAir := none } :=
      ackedRemembered_mono h rfl List.prefix_rfl
        (accepted_prefix_step l.ptx (.radioIrq (l.ackEvent crcOf received)))
    change AckedRemembered crcOf cfg (l.ackWindow crcOf received)
    unfold Link.ackWindow
    cases hdone : l.ptx.completedBy (l.ackEvent crcOf received) with
    | false =>
      rw [if_neg (by simp)]
      exact hold
    | true =>
      obtain ⟨-, x, hx, hrec⟩ := hbase.ack (ackOnAir_of_completedBy hbase.running hen hdone)
      rw [if_pos rfl, hx]
      intro a ha
      rcases List.mem_append.mp ha with ha | ha
      · exact hold a ha
      · rw [Option.toList_some, List.map_singleton] at ha
        rw [List.mem_singleton.mp ha]
        obtain ⟨rest, hrest⟩ :=
          accepted_prefix_step l.ptx (.radioIrq (l.ackEvent crcOf received))
        have hnum := hbase.ledger.onAir x hx
        refine ⟨List.prefix_rfl, ?_, fun y hy => ?_, hrec⟩
        · dsimp only
          rw [← hrest, List.getElem?_append_left (List.getElem?_eq_some_iff.mp hnum).1, hnum]
        · obtain ⟨x', hx', hle⟩ := hbase.stored_le y hy
          rw [hx] at hx'
          cases hx'
          exact hle

/-- A flush only answers a failed transmission. -/
def FlushAfterFailure (l : Link) : LinkAction → Prop
  | .flushTx => l.ptx.esb.mainstate = .idle ∧ l.ptx.esb.interruptFlags.txFailed = true
  | _ => True

instance (l : Link) : DecidablePred (FlushAfterFailure l)
  | .flushTx =>
    (inferInstance :
      Decidable (l.ptx.esb.mainstate = .idle ∧ l.ptx.esb.interruptFlags.txFailed = true))
  | .write _ | .startTx | .read _ | .txDone _ | .ackWindow _ | .ackSent =>
    (inferInstance : Decidable True)

/-- A payload that is lost and flushed. -/
def lostAndFlushed (b : UInt8) : List LinkAction :=
  [.write (.ofBytes 0 0 [b]), .txDone false, .ackWindow false, .flushTx]

/-- A payload that is delivered and acknowledged. -/
def deliveredAndAcked (b : UInt8) : List LinkAction :=
  [.write (.ofBytes 0 0 [b]), .txDone true, .ackWindow true, .ackSent]

/-- The link after one delivered payload. -/
def deliveredLink : Link :=
  (machine checksum nrfEsbDefaultConfig).run (defaultLink 0) (deliveredAndAcked 7)

/-- Its acknowledgment. -/
def deliveredAck : Acked := deliveredLink.acked.get ⟨0, by decide⟩

/-- Three payloads are lost and flushed between two equal ones. -/
def wrapRun : List LinkAction :=
  deliveredAndAcked 7 ++ lostAndFlushed 1 ++ lostAndFlushed 2 ++ lostAndFlushed 3 ++
    deliveredAndAcked 7

end Link

end NordicEsb
