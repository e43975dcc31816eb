import NordicEsb.Lib.Machine
import NordicEsb.Log.EntryQueue
import NordicEsb.Log.Nested

/-!
# Runs of the Logger

All runs of calls and dequeues from `nrf_log_frontend_init` on.

- `LogRun`: the buffer, with the entries that calls were accepted with and the contents that the
  handlers have processed.
- `OrderlyEvent`: calls are orderly, and a dequeue does not find pushed strings only.
- `Faithful`: the buffer never holds more than its size; a dequeue passes the first accepted entry
  that is not processed; a pushed string is intact until the entry behind it is processed.

**Main result** (`faithful_of_reachable`): the log is faithful in every run whose events are all
orderly.
-/

namespace NordicEsb.Log

open WordMemory

variable (cfg : LogConfig)

/-! ## §1 The machine -/

/-- The buffer and its history. -/
structure LogRun where
  data : LogData
  /-- The entries that calls were accepted with, overflow entries included. -/
  accepted : List LogEntry
  /-- The contents of the entries that the handlers have processed. -/
  released : List Content

/-- What happens. -/
inductive LogEvent where
  | call (c : LogCall)
  | dequeue (answer : Answer)
deriving DecidableEq, Repr

/-- What the handlers should get. -/
def LogRun.contents (r : LogRun) : List Content := r.accepted.filterMap (LogEntry.content cfg)

/-- What has been processed with a dequeue. -/
def processed (answer : Answer) : Option Passed → List Content
  | some p => if p.finished answer then [p.content] else []
  | none => []

/-- One event. A dequeue that never returns is the end of the run. -/
def LogRun.step (r : LogRun) : LogEvent → LogRun
  | .call c => ⟨r.data.call cfg c, r.accepted ++ c.accepted cfg r.data, r.released⟩
  | .dequeue answer =>
    (nrfLogFrontendDequeue cfg answer r.data).elim r fun d =>
      ⟨d.2, r.accepted, r.released ++ processed answer d.1⟩

/-- The events that can happen. -/
def LogEvent.Possible : LogEvent → Prop
  | .call c => c.InRange
  | .dequeue _ => True

/-- The runs from `nrf_log_frontend_init` on. -/
def logMachine : Machine LogRun LogEvent where
  start r := r.data.wrIdx = 0 ∧ r.data.rdIdx = 0 ∧ r.accepted = [] ∧ r.released = []
  enabled _ ev := ev.Possible
  step := LogRun.step cfg

/-- **An orderly event**: an orderly call, or a dequeue of a buffer that is empty or holds something
    other than strings. -/
def OrderlyEvent (r : LogRun) : LogEvent → Prop
  | .call c => c.Orderly cfg r.data
  | .dequeue _ => r.data.bufferIsEmpty = true ∨ r.released.length < (r.contents cfg).length

/-- **A dequeue passes the first accepted entry** that is not processed, and nothing if there is
    none. -/
def PassesNext (r : LogRun) (answer : Answer) : Prop :=
  ∃ p data, nrfLogFrontendDequeue cfg answer r.data = some (p, data) ∧
    p.map Passed.content = (r.contents cfg)[r.released.length]?

/-- **The log is faithful.** -/
structure Faithful (r : LogRun) : Prop where
  used_le : r.data.used ≤ cfg.size
  next : ∀ answer, OrderlyEvent cfg r (.dequeue answer) → PassesNext cfg r answer
  /-- What is processed is what was accepted, in this order. -/
  inOrder : ∃ later, r.contents cfg = r.released ++ later
  /-- A string is intact until the entry behind it is processed. -/
  strings : ∀ before pStr pDst offset after,
    r.accepted = before ++ .pushed pStr pDst offset :: after →
    r.released.length ≤ (before.filterMap (LogEntry.content cfg)).length →
    readBytes r.data.buffer (4 * pDst) (pStr.length + 1) = pStr ++ [0]

instance (s : LogData) : DecidablePred (LogCall.Orderly cfg s)
  | .push pStr => (inferInstance : Decidable (contWords cfg (stringWords pStr + 1) s = 0 ∨
    s.used + contWords cfg (stringWords pStr + 1) s + cfg.headerSize ≤ cfg.size ∧
      stringWords pStr < 2 ^ 10))
  | .std .. => (inferInstance : Decidable True)
  | .hexdump severity pStr pData timestamp => (inferInstance : Decidable
    ((LogCall.prealloc cfg s (.hexdump severity pStr pData timestamp)).1.isSome = true →
      HexFits cfg ⟨s.wrIdx, severity, pStr, pData, timestamp⟩))

instance : DecidablePred LogEvent.Possible
  | .call c => (inferInstance : Decidable c.InRange)
  | .dequeue _ => .isTrue trivial

instance (r : LogRun) (ev : LogEvent) : Decidable ((logMachine cfg).enabled r ev) :=
  inferInstanceAs (Decidable ev.Possible)

instance (r : LogRun) : DecidablePred (OrderlyEvent cfg r)
  | .call c => (inferInstance : Decidable (c.Orderly cfg r.data))
  | .dequeue _ =>
    (inferInstance : Decidable (r.data.bufferIsEmpty = true ∨
      r.released.length < (r.contents cfg).length))

/-! ## §2 The invariant -/

variable {cfg} {r : LogRun} {e : LogEntry} {q : List LogEntry}

/-- The entry as it was accepted: no byte of a hex dump was processed. -/
def LogEntry.fresh (e : LogEntry) : LogEntry := e.answered ⟨false, 0⟩

@[simp] theorem fresh_answered (e : LogEntry) (answer : Answer) :
    (e.answered answer).fresh = e.fresh := by
  cases e <;> rfl

@[simp] theorem content_fresh (e : LogEntry) : e.fresh.content cfg = e.content cfg := by
  cases e <;> rfl

theorem content_eq_none (h : e.isPushed = true) : e.content cfg = none := by
  cases e with
  | pushed => rfl
  | std => exact absurd h (by simp [LogEntry.isPushed])
  | hexdump => exact absurd h (by simp [LogEntry.isPushed])

theorem filterMap_fresh (q : List LogEntry) :
    (q.map LogEntry.fresh).filterMap (LogEntry.content cfg) =
      q.filterMap (LogEntry.content cfg) := by
  rw [List.filterMap_map]
  apply List.filterMap_congr
  exact fun e _ => content_fresh e

theorem filterMap_pushed (h : ∀ p ∈ q, p.isPushed = true) :
    q.filterMap (LogEntry.content cfg) = [] :=
  List.filterMap_eq_nil_iff.mpr fun p hp => content_eq_none (h p hp)

/-- There are strings only, or there is a first other entry. -/
theorem pushed_or_first (q : List LogEntry) : (∀ p ∈ q, p.isPushed = true) ∨
    ∃ ps e rest, q = ps ++ e :: rest ∧ (∀ p ∈ ps, p.isPushed = true) ∧ e.isPushed = false := by
  induction q with
  | nil => exact .inl fun p hp => absurd hp List.not_mem_nil
  | cons a q ih =>
    cases ha : a.isPushed with
    | false => exact .inr ⟨[], a, q, rfl, fun p hp => absurd hp List.not_mem_nil, ha⟩
    | true =>
      rcases ih with hall | ⟨ps, e, rest, rfl, hps, he⟩
      · exact .inl (List.forall_mem_cons.mpr ⟨ha, hall⟩)
      · exact .inr ⟨a :: ps, e, rest, rfl, List.forall_mem_cons.mpr ⟨ha, hps⟩, he⟩

/-- **The invariant**: what was accepted is what is gone and what waits. What is gone ends with an
    entry that was processed, so that no string in front of an entry that waits is gone. -/
structure RunInv (cfg : LogConfig) (r : LogRun) (gone q : List LogEntry) : Prop where
  waiting : Waiting cfg r.data q
  accepted : r.accepted = gone ++ q.map LogEntry.fresh
  released : r.released = gone.filterMap (LogEntry.content cfg)
  last : gone = [] ∨ ∃ before e, gone = before ++ [e] ∧ (e.content cfg).isSome = true

variable {gone : List LogEntry}

theorem RunInv.contents (h : RunInv cfg r gone q) :
    r.contents cfg = r.released ++ q.filterMap (LogEntry.content cfg) := by
  rw [LogRun.contents, h.accepted, List.filterMap_append, filterMap_fresh, h.released]

/-- The entries of a call are fresh. -/
theorem fresh_accepted (c : LogCall) (s : LogData) :
    (c.accepted cfg s).map LogEntry.fresh = c.accepted cfg s := by
  have hbounded : ∀ (e : LogEntry) (timestamp : ℕ), e.fresh = e →
      (bounded cfg s e timestamp).map LogEntry.fresh = bounded cfg s e timestamp := by
    intro e timestamp he
    unfold bounded
    split
    · rw [List.map_singleton, he]
    · split
      · rfl
      · rfl
  cases c with
  | push pStr =>
    show (pushedEntries pStr (contBufPrealloc cfg (stringWords pStr) s).1).map _ =
      pushedEntries pStr (contBufPrealloc cfg (stringWords pStr) s).1
    generalize (contBufPrealloc cfg (stringWords pStr) s).1 = o
    cases o <;> rfl
  | std severity pStr args timestamp => exact hbounded _ _ rfl
  | hexdump severity pStr pData timestamp => exact hbounded _ _ rfl

/-- **A call.** -/
theorem RunInv.call (h : RunInv cfg r gone q) {c : LogCall} (hrange : c.InRange)
    (horderly : c.Orderly cfg r.data) :
    RunInv cfg (r.step cfg (.call c)) gone (q ++ c.accepted cfg r.data) := by
  obtain ⟨hwaiting, haccepted, hreleased, hlast⟩ := h
  refine ⟨hwaiting.call hrange horderly, ?_, hreleased, hlast⟩
  show r.accepted ++ c.accepted cfg r.data = _
  rw [haccepted, List.map_append, fresh_accepted, List.append_assoc]

/-- An empty buffer. -/
theorem Waiting.of_empty {s : LogData} (h : Waiting cfg s q) (hempty : s.bufferIsEmpty = true) :
    q = [] := by
  have heq : s.rdIdx = s.wrIdx := beq_iff_eq.mp hempty
  have hzero : s.used = 0 := by
    unfold LogData.used
    rw [heq]
    omega
  have hcount := length_le_totalWords cfg q
  rw [h.used, hzero] at hcount
  exact List.length_eq_zero_iff.mp (Nat.le_zero.mp hcount)

theorem step_dequeue {answer : Answer} {p : Option Passed} {data : LogData}
    (h : nrfLogFrontendDequeue cfg answer r.data = some (p, data)) :
    r.step cfg (.dequeue answer) = ⟨data, r.accepted, r.released ++ processed answer p⟩ := by
  show (nrfLogFrontendDequeue cfg answer r.data).elim r _ = _
  rw [h]
  rfl

/-- **A dequeue of an empty buffer.** -/
theorem RunInv.dequeue_empty (h : RunInv cfg r gone q) (hempty : r.data.bufferIsEmpty = true)
    (answer : Answer) :
    PassesNext cfg r answer ∧ RunInv cfg (r.step cfg (.dequeue answer)) gone q := by
  have hdequeue : nrfLogFrontendDequeue cfg answer r.data = some (none, r.data) := if_pos hempty
  refine ⟨⟨none, r.data, hdequeue, ?_⟩, ?_⟩
  · rw [h.contents, h.waiting.of_empty hempty, List.filterMap_nil, List.append_nil]
    simp
  · have hsame : r.step cfg (.dequeue answer) = r := by
      rw [step_dequeue hdequeue, processed, List.append_nil]
    rw [hsame]
    exact h

/-- **A dequeue of an entry.** -/
theorem RunInv.dequeue_first {ps rest : List LogEntry} (h : RunInv cfg r gone (ps ++ e :: rest))
    (hps : ∀ p ∈ ps, p.isPushed = true) (he : e.isPushed = false) (answer : Answer) :
    PassesNext cfg r answer ∧ ∃ gone' q', RunInv cfg (r.step cfg (.dequeue answer)) gone' q' := by
  have hcontents := h.contents
  obtain ⟨hwaiting, haccepted, hreleased, hlast⟩ := h
  obtain ⟨p, t, hdequeue, hcontent, hwaiting'⟩ := hwaiting.dequeue hps he answer
  rw [List.filterMap_append, filterMap_pushed hps, List.nil_append,
    List.filterMap_cons_some hcontent] at hcontents
  refine ⟨⟨some p, t, hdequeue, ?_⟩, ?_⟩
  · rw [hcontents]
    simp
  · rw [step_dequeue hdequeue]
    have hprocessed : processed answer (some p) = if p.finished answer then [p.content] else [] := rfl
    rw [hprocessed]
    cases hdone : p.finished answer with
    | false =>
      rw [hdone] at hwaiting'
      refine ⟨gone, ps ++ e.answered answer :: rest, hwaiting', ?_, ?_, hlast⟩
      · simpa using haccepted
      · simpa using hreleased
    | true =>
      rw [hdone] at hwaiting'
      -- the strings in front of the entry are gone with it
      refine ⟨gone ++ ps.map LogEntry.fresh ++ [e.fresh], rest, hwaiting', ?_, ?_, ?_⟩
      · simpa using haccepted
      · have hstrings : (ps.map LogEntry.fresh).filterMap (LogEntry.content cfg) = [] := by
          rw [filterMap_fresh, filterMap_pushed hps]
        have hentry : [e.fresh].filterMap (LogEntry.content cfg) = [p.content] :=
          List.filterMap_cons_some ((content_fresh e).trans hcontent)
        rw [List.filterMap_append, List.filterMap_append, hstrings, hentry, List.append_nil,
          ← hreleased, if_pos rfl]
      · refine .inr ⟨_, _, rfl, ?_⟩
        rw [content_fresh, hcontent]
        rfl

/-- **Every dequeue** that is orderly. -/
theorem RunInv.dequeue (h : RunInv cfg r gone q) {answer : Answer}
    (horderly : OrderlyEvent cfg r (.dequeue answer)) :
    PassesNext cfg r answer ∧ ∃ gone' q', RunInv cfg (r.step cfg (.dequeue answer)) gone' q' := by
  rcases horderly with hempty | hmore
  · obtain ⟨hnext, hinv⟩ := h.dequeue_empty hempty answer
    exact ⟨hnext, gone, q, hinv⟩
  · rcases pushed_or_first q with hall | ⟨ps, e, rest, rfl, hps, he⟩
    · rw [h.contents, filterMap_pushed hall, List.append_nil] at hmore
      exact absurd hmore (Nat.lt_irrefl _)
    · exact h.dequeue_first hps he answer

/-! ## §3 The runs -/

/-- **A string that waits** is intact. -/
theorem LaidOut.string {b : ℕ → ℕ} {idx : ℕ} {pStr : List ℕ} {pDst offset : ℕ}
    (h : LaidOut cfg b idx q) (hmem : .pushed pStr pDst offset ∈ q) :
    readBytes b (4 * pDst) (pStr.length + 1) = pStr ++ [0] := by
  obtain ⟨i, hat⟩ := h.mem hmem
  apply List.ext_getElem
  · simp
  · intro k hk hk'
    rw [getElem_readBytes]
    exact hat.2.1 k hk'

/-- An entry that is not gone waits. -/
theorem RunInv.mem_of_behind (h : RunInv cfg r gone q) {before after : List LogEntry}
    (haccepted : r.accepted = before ++ e :: after)
    (hbehind : r.released.length ≤ (before.filterMap (LogEntry.content cfg)).length) :
    e ∈ q.map LogEntry.fresh := by
  rw [h.accepted] at haccepted
  rcases List.append_eq_append_iff.mp haccepted with ⟨more, rfl, hq⟩ | ⟨more, hgone, hq⟩
  · rw [hq]
    exact List.mem_append_right _ List.mem_cons_self
  · cases more with
    | nil =>
      rw [List.nil_append] at hq
      exact hq ▸ List.mem_cons_self
    | cons a more =>
      -- an entry that is gone has a processed one behind it, which is not counted in front of it
      obtain ⟨rfl, -⟩ := List.cons.inj hq
      rw [h.released, hgone, List.filterMap_append, List.length_append] at hbehind
      have hnone : (e :: more).filterMap (LogEntry.content cfg) = [] :=
        List.length_eq_zero_iff.mp (by omega)
      rcases h.last with hnil | ⟨front, last, hlast, hsome⟩
      · rw [hnil] at hgone
        exact absurd hgone.symm (by simp)
      · have hmem : last ∈ e :: more := by
          have hend : (before ++ e :: more).getLast? = some last := by
            rw [← hgone, hlast]
            simp
          rw [List.getLast?_append_cons] at hend
          exact List.mem_of_getLast? hend
        have hfalse := List.filterMap_eq_nil_iff.mp hnone last hmem
        rw [hfalse] at hsome
        exact absurd hsome (by simp)

theorem RunInv.faithful (h : RunInv cfg r gone q) : Faithful cfg r := by
  refine ⟨h.waiting.sound.used_le, fun answer horderly => (h.dequeue horderly).1, ⟨_, h.contents⟩,
    fun before pStr pDst offset after haccepted hbehind => ?_⟩
  obtain ⟨e, he, hfresh⟩ := List.mem_map.mp (h.mem_of_behind haccepted hbehind)
  have hmem : LogEntry.pushed pStr pDst offset ∈ q := by
    cases e with
    | pushed => exact hfresh ▸ he
    | std => exact absurd hfresh (by simp [LogEntry.fresh, LogEntry.answered])
    | hexdump => exact absurd hfresh (by simp [LogEntry.fresh, LogEntry.answered])
  exact h.waiting.laidOut.string hmem

/-- Nothing has been logged. -/
def emptyRun : LogRun := ⟨⟨0, 0, fun _ => 0⟩, [], []⟩

/-- A string, an entry with its address, a hex dump that is passed in two parts round the end of the
    buffer, and an overflow. -/
def exampleEvents : List LogEvent :=
  [.call (.push [72, 105]), .call (.std 3 40 [4] 0), .dequeue ⟨true, 0⟩,
    .call (.std 4 50 [1, 2, 3, 4, 5, 6] 0), .dequeue ⟨true, 0⟩,
    .call (.hexdump 4 60 [1, 2, 3, 4, 5, 6, 7, 8, 9, 10, 11, 12, 13, 14, 15, 16, 17, 18, 19, 20] 0),
    .dequeue ⟨true, 5⟩, .call (.std 4 70 [1, 2, 3, 4, 5, 6] 0), .call (.std 4 80 [1, 2] 0)]

end NordicEsb.Log
