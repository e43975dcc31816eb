import NordicEsb.Fifo.AppFifo
import NordicEsb.Lib.QueueLedger

/-!
# The Byte FIFO as a Bounded Queue

The callers of `app_fifo.c` see return codes, bytes and sizes. What they see of any sequence of
calls is what they would see of a queue of bytes with a fixed capacity.

- `callFifo` and `callQueue` are one call, of the FIFO and of the queue
- `callFifo_holds` is the step of the refinement, `runFifo_holds` the run
- `delivered_sublist` and `accepted_eq` say that the bytes come out once, in order

**Main result** (`appFifo_refines`): a FIFO whose buffer size is a power of two is a queue of that
capacity.
-/

namespace NordicEsb.Fifo

/-! ## §1 Calls -/

/-- A call to the FIFO. `read` and `write` have the arguments of `appFifoRead` and
    `appFifoWrite`. -/
inductive Call where
  | put (byte : BitVec 8)
  | get
  | peek (index : BitVec 16)
  | flush
  | read (pByteArray : Bool) (pSize : Option (BitVec 32))
  | write (pByteArray : Option (ℕ → BitVec 8)) (pSize : Option (BitVec 32))

/-- What the caller sees of a call: the return code, the bytes it gets, and the size. -/
structure Output where
  ret : Ret
  bytes : List (BitVec 8)
  size : Option ℕ

/-- What the caller sees of a bulk call. -/
def Bulk.output {n : ℕ} (bulk : Bulk n) : Output :=
  ⟨bulk.ret, bulk.bytes, bulk.pSize.map BitVec.toNat⟩

/-- A call without an array asks for the size only. -/
def Call.SizeOnly : Call → Prop
  | .read pByteArray _ => pByteArray = false
  | .write pByteArray _ => pByteArray = none
  | _ => False

variable {n : ℕ}

/-- One call of the FIFO. -/
def callFifo (pFifo : AppFifo n) : Call → Output × AppFifo n
  | .put byte => (⟨(appFifoPut pFifo byte).1, [], none⟩, (appFifoPut pFifo byte).2)
  | .get =>
    (⟨(appFifoGet pFifo).1, (appFifoGet pFifo).2.1.toList, none⟩, (appFifoGet pFifo).2.2)
  | .peek index => (⟨(appFifoPeek pFifo index).1, (appFifoPeek pFifo index).2.toList, none⟩, pFifo)
  | .flush => (⟨(appFifoFlush pFifo).1, [], none⟩, (appFifoFlush pFifo).2)
  | .read pByteArray pSize =>
    ((appFifoRead pFifo pByteArray pSize).output, (appFifoRead pFifo pByteArray pSize).pFifo)
  | .write pByteArray pSize =>
    ((appFifoWrite pFifo pByteArray pSize).output, (appFifoWrite pFifo pByteArray pSize).pFifo)

/-- One call of a queue of `capacity` bytes; the ledger of the queue keeps what has left it. -/
def callQueue (capacity : ℕ) (l : QueueLedger (BitVec 8)) :
    Call → Output × QueueLedger (BitVec 8)
  | .put byte =>
    if l.held.length < capacity then (⟨.success, [], none⟩, l.arrive byte)
    else (⟨.errorNoMem, [], none⟩, l)
  | .get =>
    match l.held with
    | byte :: _ => (⟨.success, [byte], none⟩, l.take)
    | [] => (⟨.errorNotFound, [], none⟩, l)
  | .peek index =>
    match l.held[index.toNat]? with
    | some byte => (⟨.success, [byte], none⟩, l)
    | none => (⟨.errorNotFound, [], none⟩, l)
  | .flush => (⟨.success, [], none⟩, l.discard)
  | .read _ none => (⟨.errorNull, [], none⟩, l)
  | .read pByteArray (some requested) =>
    if l.held = [] then (⟨.errorNotFound, [], some 0⟩, l)
    else if pByteArray = false then (⟨.success, [], some l.held.length⟩, l)
    else (⟨.success, l.held.take requested.toNat, some (min requested.toNat l.held.length)⟩,
      l.takeMany requested.toNat)
  | .write _ none => (⟨.errorNull, [], none⟩, l)
  | .write pByteArray (some requested) =>
    if l.held.length = capacity then (⟨.errorNoMem, [], some 0⟩, l)
    else match pByteArray with
    | none => (⟨.success, [], some (capacity - l.held.length)⟩, l)
    | some bytes =>
      let count := min requested.toNat (capacity - l.held.length)
      (⟨.success, [], some count⟩, l.arriveAll ((List.range count).map bytes))

/-- A sequence of calls of the FIFO. -/
def runFifo (pFifo : AppFifo n) : List Call → List Output × AppFifo n
  | [] => ([], pFifo)
  | call :: calls =>
    ((callFifo pFifo call).1 :: (runFifo (callFifo pFifo call).2 calls).1,
      (runFifo (callFifo pFifo call).2 calls).2)

/-- A sequence of calls of the queue. -/
def runQueue (capacity : ℕ) (l : QueueLedger (BitVec 8)) :
    List Call → List Output × QueueLedger (BitVec 8)
  | [] => ([], l)
  | call :: calls =>
    ((callQueue capacity l call).1 :: (runQueue capacity (callQueue capacity l call).2 calls).1,
      (runQueue capacity (callQueue capacity l call).2 calls).2)

/-- The bytes that a call has put in, as its caller knows it. -/
def Call.accepted (out : Output) : Call → List (BitVec 8)
  | .put byte => if out.ret = .success then [byte] else []
  | .write (some bytes) _ =>
    if out.ret = .success then (List.range (out.size.getD 0)).map bytes else []
  | _ => []

/-- The bytes that a call has taken out. -/
def Call.delivered (out : Output) : Call → List (BitVec 8)
  | .get => out.bytes
  | .read _ _ => out.bytes
  | _ => []

/-- All bytes that the calls have put in. -/
def accepted (calls : List Call) (outs : List Output) : List (BitVec 8) :=
  (calls.zip outs).flatMap fun x => x.1.accepted x.2

/-- All bytes that the calls have taken out. -/
def delivered (calls : List Call) (outs : List Output) : List (BitVec 8) :=
  (calls.zip outs).flatMap fun x => x.1.delivered x.2

/-- **The FIFO is a bounded queue** after these calls. -/
structure BehavesAsQueue (pFifo : AppFifo n) (calls : List Call) : Prop where
  /-- every call returned what a queue of `n` bytes returns -/
  outputs : (runFifo pFifo calls).1 = (runQueue n .empty calls).1
  length : (fifoLength (runFifo pFifo calls).2).toNat = (runQueue n .empty calls).2.held.length
  capacity : (fifoLength (runFifo pFifo calls).2).toNat ≤ n
  /-- no byte comes out twice, or before an older one -/
  order : (delivered calls (runFifo pFifo calls).1).Sublist
    (accepted calls (runFifo pFifo calls).1)
  /-- only a flush drops bytes -/
  complete : .flush ∉ calls → accepted calls (runFifo pFifo calls).1 =
    delivered calls (runFifo pFifo calls).1 ++ (runQueue n .empty calls).2.held
  /-- a bulk read is a run of gets -/
  read : ∀ requested : BitVec 32,
    let bulk := appFifoRead (runFifo pFifo calls).2 true (some requested)
    let gets := getRun requested.toNat (runFifo pFifo calls).2
    bulk.pFifo = gets.2 ∧ bulk.bytes = gets.1 ∧
      bulk.pSize.map BitVec.toNat = some gets.1.length
  /-- a bulk write is a run of puts -/
  write : ∀ (bytes : ℕ → BitVec 8) (requested : BitVec 32),
    let bulk := appFifoWrite (runFifo pFifo calls).2 (some bytes) (some requested)
    let puts := putRun bytes requested.toNat 0 (runFifo pFifo calls).2
    bulk.pFifo = puts.2 ∧ bulk.pSize.map BitVec.toNat = some puts.1
  unchanged : ∀ call, (callFifo (runFifo pFifo calls).2 call).1.ret ≠ .success ∨ call.SizeOnly →
    (callFifo (runFifo pFifo calls).2 call).2 = (runFifo pFifo calls).2

/-! ## §2 The refinement -/

variable {pFifo : AppFifo n} {q : List (BitVec 8)}

theorem appFifoRead_eq (h : pFifo.Holds q) (requested : BitVec 32) :
    appFifoRead pFifo true (some requested) =
      if q = [] then ⟨.errorNotFound, [], some 0, pFifo⟩
      else ⟨.success, (readLoop (min requested.toNat q.length) pFifo).1,
        some (min32 requested (fifoLength pFifo)),
        (readLoop (min requested.toNat q.length) pFifo).2⟩ := by
  unfold appFifoRead
  dsimp only
  rw [toNat_min32, h.length]
  by_cases hq : q = []
  · rw [if_pos (h.eq_zero_iff.mpr hq), if_pos hq, h.eq_zero_iff.mpr hq]
  · rw [if_neg (mt h.eq_zero_iff.mp hq), if_neg (by simp), if_neg hq]

theorem available_eq_zero_iff (h : pFifo.Holds q) :
    pFifo.mask - fifoLength pFifo + 1 = 0 ↔ q.length = n := by
  have hle := h.ring.length_le
  have hzero : (0 : BitVec 32).toNat = 0 := rfl
  rw [← BitVec.toNat_inj, h.available, hzero]
  omega

theorem appFifoWrite_eq (h : pFifo.Holds q) (bytes : ℕ → BitVec 8) (requested : BitVec 32) :
    appFifoWrite pFifo (some bytes) (some requested) =
      if q.length = n then ⟨.errorNoMem, [], some 0, pFifo⟩
      else ⟨.success, [], some (min32 requested (pFifo.mask - fifoLength pFifo + 1)),
        writeLoop bytes (min requested.toNat (n - q.length)) 0 pFifo⟩ := by
  unfold appFifoWrite
  dsimp only
  rw [toNat_min32, h.available]
  by_cases hq : q.length = n
  · rw [if_pos ((available_eq_zero_iff h).mpr hq), if_pos hq, (available_eq_zero_iff h).mpr hq]
  · rw [if_neg (mt (available_eq_zero_iff h).mp hq), if_neg hq]

/-- What a call has to do with the call of the queue. -/
def Refines (pFifo : AppFifo n) (l : QueueLedger (BitVec 8)) (call : Call) : Prop :=
  (callFifo pFifo call).1 = (callQueue n l call).1 ∧
  (callFifo pFifo call).2.Holds (callQueue n l call).2.held

variable {l : QueueLedger (BitVec 8)}

theorem callFifo_put (h : pFifo.Holds l.held) (byte : BitVec 8) :
    Refines pFifo l (.put byte) := by
  unfold Refines callFifo callQueue
  dsimp only
  by_cases hroom : l.held.length < n
  · rw [appFifoPut_room h hroom, if_pos hroom]
    exact ⟨rfl, fifoPut_holds h hroom byte⟩
  · rw [appFifoPut_full h hroom, if_neg hroom]
    exact ⟨rfl, h⟩

theorem callFifo_get (h : pFifo.Holds l.held) : Refines pFifo l .get := by
  unfold Refines callFifo callQueue
  dsimp only
  cases hq : l.held with
  | nil =>
    rw [hq] at h
    rw [appFifoGet_nil h]
    dsimp only
    rw [hq]
    exact ⟨rfl, h⟩
  | cons byte q =>
    rw [hq] at h
    rw [appFifoGet_cons h]
    unfold QueueLedger.take
    dsimp only
    rw [hq]
    exact ⟨rfl, (fifoGet_holds h).2⟩

theorem callFifo_peek (h : pFifo.Holds l.held) (index : BitVec 16) :
    Refines pFifo l (.peek index) := by
  unfold Refines callFifo callQueue
  dsimp only
  rw [appFifoPeek_eq h]
  cases l.held[index.toNat]? with
  | none => exact ⟨rfl, h⟩
  | some byte => exact ⟨rfl, h⟩

theorem callFifo_read (h : pFifo.Holds l.held) (pByteArray : Bool) (requested : BitVec 32) :
    Refines pFifo l (.read pByteArray (some requested)) := by
  unfold Refines callFifo callQueue
  dsimp only
  cases pByteArray with
  | false =>
    unfold appFifoRead
    dsimp only
    by_cases hq : l.held = []
    · rw [if_pos (h.eq_zero_iff.mpr hq), if_pos hq, h.eq_zero_iff.mpr hq]
      exact ⟨rfl, h⟩
    · rw [if_neg (mt h.eq_zero_iff.mp hq), if_pos rfl, if_neg hq, if_pos rfl]
      refine ⟨?_, h⟩
      unfold Bulk.output
      dsimp only
      rw [Option.map_some, h.length]
  | true =>
    rw [appFifoRead_eq h]
    by_cases hq : l.held = []
    · rw [if_pos hq, if_pos hq]
      exact ⟨rfl, h⟩
    · obtain ⟨hbytes, hrest⟩ := readLoop_holds (min requested.toNat l.held.length) h
        (Nat.min_le_right _ _)
      rw [if_neg hq, if_neg hq, if_neg (by simp)]
      unfold Bulk.output QueueLedger.takeMany
      dsimp only
      rw [Option.map_some, toNat_min32, h.length, hbytes, ← List.take_eq_take_min]
      refine ⟨rfl, ?_⟩
      rw [List.drop_eq_drop_min]
      exact hrest

theorem callFifo_write (h : pFifo.Holds l.held) (pByteArray : Option (ℕ → BitVec 8))
    (requested : BitVec 32) : Refines pFifo l (.write pByteArray (some requested)) := by
  have hle := h.ring.length_le
  unfold Refines callFifo callQueue
  dsimp only
  cases pByteArray with
  | none =>
    unfold appFifoWrite
    dsimp only
    by_cases hq : l.held.length = n
    · rw [if_pos ((available_eq_zero_iff h).mpr hq), if_pos hq, (available_eq_zero_iff h).mpr hq]
      exact ⟨rfl, h⟩
    · rw [if_neg (mt (available_eq_zero_iff h).mp hq), if_neg hq]
      refine ⟨?_, h⟩
      unfold Bulk.output
      dsimp only
      rw [Option.map_some, h.available]
  | some bytes =>
    rw [appFifoWrite_eq h]
    by_cases hq : l.held.length = n
    · rw [if_pos hq, if_pos hq]
      exact ⟨rfl, h⟩
    · rw [if_neg hq, if_neg hq]
      unfold Bulk.output QueueLedger.arriveAll
      dsimp only
      rw [Option.map_some, toNat_min32, h.available, List.range_eq_range']
      exact ⟨rfl, writeLoop_holds bytes _ 0 h (by omega)⟩

/-- **A call of the FIFO is a call of the queue.** -/
theorem callFifo_holds (h : pFifo.Holds l.held) (call : Call) : Refines pFifo l call := by
  cases call with
  | put byte => exact callFifo_put h byte
  | get => exact callFifo_get h
  | peek index => exact callFifo_peek h index
  | flush => exact ⟨rfl, appFifoFlush_holds h⟩
  | read pByteArray pSize =>
    cases pSize with
    | none => exact ⟨rfl, h⟩
    | some requested => exact callFifo_read h pByteArray requested
  | write pByteArray pSize =>
    cases pSize with
    | none => exact ⟨rfl, h⟩
    | some requested => exact callFifo_write h pByteArray requested

/-- **A run of the FIFO is a run of the queue.** -/
theorem runFifo_holds (h : pFifo.Holds l.held) (calls : List Call) :
    (runFifo pFifo calls).1 = (runQueue n l calls).1 ∧
    (runFifo pFifo calls).2.Holds (runQueue n l calls).2.held := by
  induction calls generalizing pFifo l with
  | nil => exact ⟨rfl, h⟩
  | cons call calls ih =>
    obtain ⟨hout, hnext⟩ := callFifo_holds h call
    obtain ⟨houts, hend⟩ := ih hnext
    unfold runFifo runQueue
    dsimp only
    rw [hout, houts]
    exact ⟨rfl, hend⟩

/-! ## §3 Once, and in order -/

/-- What a call of the queue puts in and takes out is in its ledger. -/
theorem callQueue_ledger (capacity : ℕ) (l : QueueLedger (BitVec 8)) (call : Call) :
    (callQueue capacity l call).2.arrived =
      l.arrived ++ call.accepted (callQueue capacity l call).1 ∧
    (callQueue capacity l call).2.taken =
      l.taken ++ call.delivered (callQueue capacity l call).1 := by
  cases call with
  | put byte =>
    unfold callQueue
    split_ifs <;> simp [Call.accepted, Call.delivered]
  | get =>
    unfold callQueue
    cases hq : l.held with
    | nil => simp [Call.accepted, Call.delivered]
    | cons byte q => simp [Call.accepted, Call.delivered, hq]
  | peek index =>
    unfold callQueue
    dsimp only
    cases l.held[index.toNat]? with
    | none => simp [Call.accepted, Call.delivered]
    | some byte => simp [Call.accepted, Call.delivered]
  | flush => simp [callQueue, Call.accepted, Call.delivered]
  | read pByteArray pSize =>
    cases pSize with
    | none => simp [callQueue, Call.accepted, Call.delivered]
    | some requested =>
      unfold callQueue
      dsimp only
      split_ifs <;> simp [Call.accepted, Call.delivered]
  | write pByteArray pSize =>
    cases pSize with
    | none => cases pByteArray <;> simp [callQueue, Call.accepted, Call.delivered]
    | some requested =>
      unfold callQueue
      dsimp only
      cases pByteArray with
      | none => split_ifs <;> simp [Call.accepted, Call.delivered]
      | some bytes => split_ifs <;> simp [Call.accepted, Call.delivered]

theorem runQueue_ledger (capacity : ℕ) (l : QueueLedger (BitVec 8)) (calls : List Call) :
    (runQueue capacity l calls).2.arrived =
      l.arrived ++ accepted calls (runQueue capacity l calls).1 ∧
    (runQueue capacity l calls).2.taken =
      l.taken ++ delivered calls (runQueue capacity l calls).1 := by
  induction calls generalizing l with
  | nil => simp [runQueue, accepted, delivered]
  | cons call calls ih =>
    obtain ⟨harrived, htaken⟩ := callQueue_ledger capacity l call
    obtain ⟨harrived', htaken'⟩ := ih (callQueue capacity l call).2
    unfold runQueue
    dsimp only
    rw [harrived', htaken', harrived, htaken]
    simp [accepted, delivered]

/-- Only a flush discards. -/
theorem callQueue_settled (capacity : ℕ) {l : QueueLedger (BitVec 8)} {call : Call}
    (hl : ∀ x ∈ l.settled, x.2 = true) (hflush : call ≠ .flush) :
    ∀ x ∈ (callQueue capacity l call).2.settled, x.2 = true := by
  have hmany : ∀ k, ∀ x ∈ (l.takeMany k).settled, x.2 = true := by
    intro k x hx
    rcases List.mem_append.mp hx with hx | hx
    · exact hl x hx
    · obtain ⟨y, -, rfl⟩ := List.mem_map.mp hx
      rfl
  have htake : ∀ x ∈ l.take.settled, x.2 = true := by
    intro x hx
    rcases List.mem_append.mp hx with hx | hx
    · exact hl x hx
    · obtain ⟨y, -, rfl⟩ := List.mem_map.mp hx
      rfl
  cases call with
  | put byte =>
    unfold callQueue
    split_ifs <;> exact hl
  | get =>
    unfold callQueue
    cases l.held with
    | nil => exact hl
    | cons byte q => exact htake
  | peek index =>
    unfold callQueue
    dsimp only
    cases l.held[index.toNat]? with
    | none => exact hl
    | some byte => exact hl
  | flush => exact absurd rfl hflush
  | read pByteArray pSize =>
    cases pSize with
    | none => exact hl
    | some requested =>
      unfold callQueue
      dsimp only
      split_ifs
      · exact hl
      · exact hl
      · exact hmany _
  | write pByteArray pSize =>
    cases pSize with
    | none => exact hl
    | some requested =>
      unfold callQueue
      dsimp only
      cases pByteArray with
      | none => split_ifs <;> exact hl
      | some bytes => split_ifs <;> exact hl

theorem runQueue_settled (capacity : ℕ) {l : QueueLedger (BitVec 8)} {calls : List Call}
    (hl : ∀ x ∈ l.settled, x.2 = true) (hflush : .flush ∉ calls) :
    ∀ x ∈ (runQueue capacity l calls).2.settled, x.2 = true := by
  induction calls generalizing l with
  | nil => exact hl
  | cons call calls ih =>
    rw [List.mem_cons, not_or] at hflush
    exact ih (callQueue_settled capacity hl (Ne.symm hflush.1)) hflush.2

/-! ## §4 Calls that change nothing -/

/-- **A call that fails, or asks for the size only**, leaves the FIFO as it was. -/
theorem callFifo_unchanged {call : Call}
    (hcall : (callFifo pFifo call).1.ret ≠ .success ∨ call.SizeOnly) :
    (callFifo pFifo call).2 = pFifo := by
  cases call with
  | put byte =>
    revert hcall
    unfold callFifo appFifoPut Call.SizeOnly
    split_ifs <;> simp
  | get =>
    revert hcall
    unfold callFifo appFifoGet Call.SizeOnly
    split_ifs <;> simp
  | peek index => rfl
  | flush => simp [callFifo, appFifoFlush, Call.SizeOnly] at hcall
  | read pByteArray pSize =>
    revert hcall
    unfold callFifo appFifoRead Call.SizeOnly
    cases pSize with
    | none => simp
    | some requested =>
      dsimp only
      split_ifs with hempty harray
      · simp
      · simp
      · simp [Bulk.output, harray]
  | write pByteArray pSize =>
    revert hcall
    unfold callFifo appFifoWrite Call.SizeOnly
    cases pSize with
    | none => simp
    | some requested =>
      dsimp only
      split_ifs with hfull
      · simp
      · cases pByteArray with
        | none => simp
        | some bytes => simp [Bulk.output]

/-! ## §5 The FIFO is a queue -/

theorem appFifoRead_getRun (h : pFifo.Holds q) (requested : BitVec 32) :
    let bulk := appFifoRead pFifo true (some requested)
    let gets := getRun requested.toNat pFifo
    bulk.pFifo = gets.2 ∧ bulk.bytes = gets.1 ∧
      bulk.pSize.map BitVec.toNat = some gets.1.length := by
  have hbytes := (readLoop_holds (min requested.toNat q.length) h (Nat.min_le_right _ _)).1
  have hlen : (readLoop (min requested.toNat q.length) pFifo).1.length =
      min requested.toNat q.length := by
    rw [hbytes, List.length_take]
    omega
  dsimp only
  rw [appFifoRead_eq h, getRun_eq _ h, hlen]
  by_cases hq : q = []
  · rw [if_pos hq, hq, List.length_nil, Nat.min_zero]
    exact ⟨rfl, rfl, rfl⟩
  · rw [if_neg hq]
    refine ⟨rfl, rfl, ?_⟩
    dsimp only
    rw [Option.map_some, toNat_min32, h.length]

theorem appFifoWrite_putRun (h : pFifo.Holds q) (bytes : ℕ → BitVec 8) (requested : BitVec 32) :
    let bulk := appFifoWrite pFifo (some bytes) (some requested)
    let puts := putRun bytes requested.toNat 0 pFifo
    bulk.pFifo = puts.2 ∧ bulk.pSize.map BitVec.toNat = some puts.1 := by
  dsimp only
  rw [appFifoWrite_eq h, putRun_eq _ _ _ h]
  by_cases hq : q.length = n
  · rw [if_pos hq, hq, Nat.sub_self, Nat.min_zero]
    exact ⟨rfl, rfl⟩
  · rw [if_neg hq]
    refine ⟨rfl, ?_⟩
    dsimp only
    rw [Option.map_some, toNat_min32, h.available]

/-- A FIFO that is empty is a queue from here on. -/
theorem behavesAsQueue_of_empty (h : pFifo.Holds []) (calls : List Call) :
    BehavesAsQueue pFifo calls := by
  obtain ⟨houts, hend⟩ := runFifo_holds (l := .empty) h calls
  obtain ⟨harrived, htaken⟩ := runQueue_ledger n .empty calls
  rw [QueueLedger.arrived_empty, List.nil_append, ← houts] at harrived
  rw [QueueLedger.taken_empty, List.nil_append, ← houts] at htaken
  constructor
  · exact houts
  · exact hend.length
  · rw [hend.length]
    exact hend.ring.length_le
  · rw [← harrived, ← htaken]
    exact QueueLedger.taken_sublist _
  · intro hflush
    rw [← harrived, ← htaken]
    apply QueueLedger.arrived_eq
    exact runQueue_settled n (by simp [QueueLedger.empty]) hflush
  · exact appFifoRead_getRun hend
  · exact appFifoWrite_putRun hend
  · intro call
    exact callFifo_unchanged

/-- **The FIFO is a bounded queue**, for every buffer size that is a power of two. -/
theorem appFifo_refines {bufSize : BitVec 16} (pFifo : AppFifo bufSize.toNat)
    (pBuf : FixedArray bufSize.toNat (BitVec 8)) (hpow : bufSize.toNat.isPowerOfTwo)
    (calls : List Call) :
    (appFifoInit pFifo (some pBuf) bufSize).1 = .success ∧
    BehavesAsQueue (appFifoInit pFifo (some pBuf) bufSize).2 calls := by
  obtain ⟨hret, hholds⟩ := appFifoInit_holds pFifo pBuf hpow
  exact ⟨hret, behavesAsQueue_of_empty hholds calls⟩

/-- A buffer of four bytes, and calls that fill it. -/
theorem appFifo_refines_fourBytes :
    (appFifoInit ⟨FixedArray.replicate 4 0, 0, 0, 0⟩ (some (FixedArray.replicate 4 0)) 4).1 =
      .success ∧
    BehavesAsQueue
      (appFifoInit ⟨FixedArray.replicate 4 0, 0, 0, 0⟩ (some (FixedArray.replicate 4 0)) 4).2
      [.put 1, .write (some fun i => BitVec.ofNat 8 i) (some 9), .get, .read true (some 2)] :=
  @appFifo_refines 4 ⟨FixedArray.replicate 4 0, 0, 0, 0⟩ (FixedArray.replicate 4 0)
    ⟨2, rfl⟩ _

end NordicEsb.Fifo
