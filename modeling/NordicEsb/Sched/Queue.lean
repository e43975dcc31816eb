import NordicEsb.Lib.Machine
import NordicEsb.Lib.WordMemory

/-!
# The Queue of the Scheduler

`app_scheduler.c`: a ring of event headers and event data in the buffer of the application.
`app_sched_event_put` reserves a slot in a critical region and fills it outside of it, so that
another call may interrupt it at any store. `app_sched_execute` runs in the main loop only.

- `SchedQueue.reserve`, `fillWrites`, `nextIndex`, `queueSpaceGet`: the functions, with indices of 8 bits.
- `schedMachine`: calls that interrupt one another, and the main loop between them.
- `Fifo`: a bounded queue, first in, first out.

**Main result** (`fifo_iff`): every run is that of such a queue if and only if `queue_size` is at most
255.
-/

namespace NordicEsb.Sched

open WordMemory

/-! ## §1 The functions -/

/-- The arguments of `app_sched_init`. -/
structure SchedConfig where
  eventSize : ℕ
  queueSize : ℕ
  eventSize_lt : eventSize < 2 ^ 16
  queueSize_lt : queueSize < 2 ^ 16

variable (cfg : SchedConfig)

/-- `APP_SCHED_BUF_SIZE`, with headers of 8 bytes. -/
def SchedConfig.bufSize : ℕ := (cfg.eventSize + 8) * (cfg.queueSize + 1)

/-- `data_start_index`, of 16 bits. -/
def SchedConfig.dataStartIndex : ℕ := (cfg.queueSize + 1) * 8 % 2 ^ 16

/-- The module: the bytes of the buffer, which is aligned, by their distance from its start, and the
    indices. -/
structure SchedQueue where
  mem : ℕ → ℕ
  startIndex : ℕ
  endIndex : ℕ

/-- `app_sched_init` -/
def schedInit (mem : ℕ → ℕ) : SchedQueue := ⟨mem, 0, 0⟩

/-- `next_index` -/
def nextIndex (index : ℕ) : ℕ := if index < cfg.queueSize then (index + 1) % 2 ^ 8 else 0

/-- `app_sched_queue_full` -/
def SchedQueue.full (s : SchedQueue) : Bool := nextIndex cfg s.endIndex == s.startIndex

/-- `app_sched_queue_empty` -/
def SchedQueue.empty (s : SchedQueue) : Bool := s.endIndex == s.startIndex

/-- `app_sched_queue_space_get` -/
def SchedQueue.queueSpaceGet (s : SchedQueue) : ℕ :=
  let used := if s.endIndex ≥ s.startIndex then s.endIndex - s.startIndex
    else cfg.queueSize + 1 + s.endIndex - s.startIndex
  (cfg.queueSize + 2 ^ 16 - used) % 2 ^ 16

/-- The critical region of `app_sched_event_put`: `event_index`, if the queue is not full. -/
def SchedQueue.reserve (s : SchedQueue) : Option ℕ × SchedQueue :=
  if s.full cfg then (none, s)
  else (some s.endIndex, { s with endIndex := nextIndex cfg s.endIndex })

/-- The arguments of `app_sched_event_put`, with the bytes at `p_event_data` if it is not `NULL`. -/
structure PutArgs where
  pEventData : Option (List ℕ)
  eventDataSize : ℕ
  handler : ℕ

/-- There are as many bytes as the size says, and the numbers are in range. -/
def PutArgs.InRange (args : PutArgs) : Prop :=
  (∀ data ∈ args.pEventData, data.length = args.eventDataSize) ∧ args.eventDataSize < 2 ^ 16 ∧
    args.handler < 2 ^ 32

/-- What is stored as `event_data_size`, by bytes. -/
def sizeWrites (eventIndex size : ℕ) : List Write :=
  bytesWrites (8 * eventIndex + 4) [size % 2 ^ 8, size / 2 ^ 8 % 2 ^ 8]

/-- The address of `m_queue_event_data[event_index * m_queue_event_size]`. -/
def SchedConfig.dataAddr (eventIndex : ℕ) : ℕ := cfg.dataStartIndex + eventIndex * cfg.eventSize

/-- The stores of `app_sched_event_put` to its slot. -/
def fillWrites (eventIndex : ℕ) (args : PutArgs) : List Write :=
  .word (2 * eventIndex) args.handler ::
    match args.pEventData with
    | some data =>
      if args.eventDataSize > 0 then
        bytesWrites (cfg.dataAddr eventIndex) data ++ sizeWrites eventIndex args.eventDataSize
      else sizeWrites eventIndex 0
    | none => sizeWrites eventIndex 0

/-- What `app_sched_execute` passes to a handler. -/
structure SchedEvent where
  handler : ℕ
  eventDataSize : ℕ
  data : List ℕ
deriving DecidableEq, Repr

/-- The event of a slot, as `app_sched_execute` reads it. -/
def eventAt (mem : ℕ → ℕ) (eventIndex : ℕ) : SchedEvent :=
  let eventDataSize := mem (8 * eventIndex + 4) + 2 ^ 8 * mem (8 * eventIndex + 5)
  { handler := word mem (2 * eventIndex)
    eventDataSize := eventDataSize
    data := readBytes mem (cfg.dataAddr eventIndex) eventDataSize }

/-! ## §2 The runs -/

/-- The error codes. -/
inductive ErrCode where
  | success
  | noMem
  | invalidLength
deriving DecidableEq, Repr

/-- A call of `app_sched_event_put` that has not returned. -/
inductive Frame where
  | entered (args : PutArgs)
  /-- It has its slot, and these stores are left. -/
  | filling (ws : List Write)

/-- The system. -/
structure SchedState where
  sched : SchedQueue
  /-- The calls, the one that runs first; each has interrupted the next one. -/
  stack : List Frame
  /-- `event_index` in `app_sched_execute`, while a handler runs. -/
  running : Option ℕ
  /-- The error codes that were returned. -/
  returned : List ErrCode
  /-- History variables: the events by their reservations, those that were passed to handlers, and
      the number of those that were processed. -/
  accepted : List SchedEvent
  executed : List SchedEvent
  processed : ℕ

/-- What a call asks for: there is no data without a pointer. -/
def PutArgs.event (args : PutArgs) : SchedEvent :=
  match args.pEventData with
  | some data => ⟨args.handler, args.eventDataSize, data⟩
  | none => ⟨args.handler, 0, []⟩

/-- What happens. -/
inductive SchedLabel where
  /-- `app_sched_event_put` is called, by an interrupt, by a handler or in the main loop. -/
  | put (args : PutArgs)
  /-- The call that runs goes on. -/
  | proceed
  /-- An iteration of `app_sched_execute`: the handler is called. -/
  | execute
  /-- The handler returns. -/
  | finish

/-- The call that runs goes on. -/
def SchedState.proceed (s : SchedState) : SchedState :=
  match s.stack with
  | [] => s
  | .entered args :: stack =>
    if args.eventDataSize ≤ cfg.eventSize then
      let r := s.sched.reserve cfg
      match r.1 with
      | some eventIndex =>
        { s with
          sched := r.2
          stack := .filling (fillWrites cfg eventIndex args) :: stack
          accepted := s.accepted ++ [args.event] }
      | none => { s with stack := stack, returned := s.returned ++ [.noMem] }
    else { s with stack := stack, returned := s.returned ++ [.invalidLength] }
  | .filling [] :: stack => { s with stack := stack, returned := s.returned ++ [.success] }
  | .filling (w :: ws) :: stack =>
    { s with
      sched := { s.sched with mem := w.apply s.sched.mem }
      stack := .filling ws :: stack }

/-- The runs from `app_sched_init` on. The main loop goes on when all calls have returned; the
    scheduler may be paused at any time. -/
def schedMachine (mem : ℕ → ℕ) : Machine SchedState SchedLabel where
  start s := s = ⟨schedInit mem, [], none, [], [], [], 0⟩
  enabled s l := match l with
    | .put args => args.InRange
    | .proceed => s.stack ≠ []
    | .execute => s.stack = [] ∧ s.running = none ∧ s.sched.empty = false
    | .finish => s.stack = [] ∧ s.running ≠ none
  step s l := match l with
    | .put args => { s with stack := .entered args :: s.stack }
    | .proceed => s.proceed cfg
    | .execute =>
      { s with
        running := some s.sched.startIndex
        executed := s.executed ++ [eventAt cfg s.sched.mem s.sched.startIndex] }
    | .finish =>
      { s with
        sched := { s.sched with startIndex := nextIndex cfg s.sched.startIndex }
        running := none
        processed := s.processed + 1 }

/-! ## §3 A bounded queue -/

/-- The events that were accepted and not processed. -/
def SchedState.pending (s : SchedState) : List SchedEvent := s.accepted.drop s.processed

/-- **A queue of `queue_size` events**, first in, first out; `mem` is what was in memory at first. -/
structure Fifo (mem : ℕ → ℕ) (s : SchedState) : Prop where
  /-- Exactly `queue_size` events fit. -/
  fits : s.sched.full cfg = false ↔ s.pending.length < cfg.queueSize
  /-- The main loop goes on while there are events. -/
  empty : s.sched.empty = true ↔ s.pending = []
  space : s.sched.queueSpaceGet cfg = cfg.queueSize - s.pending.length
  /-- The events are passed to their handlers in the order of the reservations, once each. -/
  order : s.executed = s.accepted.take s.executed.length
  once : s.executed.length = s.processed + if s.running = none then 0 else 1
  /-- The event is not overwritten while its handler runs. -/
  kept : ∀ eventIndex ∈ s.running, s.executed.getLast? = some (eventAt cfg s.sched.mem eventIndex)
  /-- Nothing is stored outside of the buffer. -/
  outside : ∀ a, cfg.bufSize ≤ a → s.sched.mem a = mem a

/-! ## §4 Slots -/

variable {cfg} {args : PutArgs} {mem mem' : ℕ → ℕ} {i j a : ℕ} {s : SchedState} {ev : SchedEvent}

variable (cfg) in
/-- The bytes of a slot: the header, and the data. -/
def InSlot (i a : ℕ) : Prop :=
  (8 * i ≤ a ∧ a < 8 * i + 8) ∨ (cfg.dataAddr i ≤ a ∧ a < cfg.dataAddr i + cfg.eventSize)

variable (cfg) in
/-- **A queue whose indices have 8 bits.** -/
def Indexed : Prop := cfg.queueSize ≤ 255

instance : Decidable (Indexed cfg) := inferInstanceAs (Decidable (_ ≤ _))

theorem Indexed.dataStartIndex (h : Indexed cfg) : cfg.dataStartIndex = 8 * (cfg.queueSize + 1) := by
  unfold Indexed at h
  unfold SchedConfig.dataStartIndex
  omega

/-- The data of a slot lies before that of a later one. -/
theorem dataAddr_add_le (cfg : SchedConfig) (hij : i < j) :
    cfg.dataAddr i + cfg.eventSize ≤ cfg.dataAddr j := by
  have hmul := Nat.mul_le_mul_right cfg.eventSize (Nat.succ_le_of_lt hij)
  rw [Nat.succ_mul] at hmul
  unfold SchedConfig.dataAddr
  omega

/-- **Slots are disjoint.** -/
theorem Indexed.disjoint (h : Indexed cfg) (hi : i ≤ cfg.queueSize) (hj : j ≤ cfg.queueSize)
    (hne : i ≠ j) (hia : InSlot cfg i a) : ¬ InSlot cfg j a := by
  have hstart := h.dataStartIndex
  have hgei : cfg.dataStartIndex ≤ cfg.dataAddr i := Nat.le_add_right _ _
  have hgej : cfg.dataStartIndex ≤ cfg.dataAddr j := Nat.le_add_right _ _
  unfold InSlot at hia ⊢
  rcases Nat.lt_or_gt_of_ne hne with hlt | hgt
  · have hdata := dataAddr_add_le cfg hlt
    omega
  · have hdata := dataAddr_add_le cfg hgt
    omega

/-- Slots are in the buffer. -/
theorem Indexed.inBuffer (h : Indexed cfg) (hi : i ≤ cfg.queueSize) (ha : InSlot cfg i a) :
    a < cfg.bufSize := by
  have hstart := h.dataStartIndex
  have hend : i * cfg.eventSize + cfg.eventSize ≤ (cfg.queueSize + 1) * cfg.eventSize := by
    rw [← Nat.succ_mul]
    exact Nat.mul_le_mul_right _ (Nat.succ_le_succ hi)
  have hsize : cfg.bufSize = (cfg.queueSize + 1) * cfg.eventSize + 8 * (cfg.queueSize + 1) := by
    unfold SchedConfig.bufSize
    rw [Nat.add_mul, Nat.mul_comm cfg.eventSize]
  unfold InSlot SchedConfig.dataAddr at ha
  omega

/-- **The event of a slot** depends on its bytes only. -/
theorem eventAt_congr (h : ∀ a, InSlot cfg i a → mem' a = mem a)
    (hsize : (eventAt cfg mem i).eventDataSize ≤ cfg.eventSize) :
    eventAt cfg mem' i = eventAt cfg mem i := by
  have hheader : ∀ k < 8, mem' (8 * i + k) = mem (8 * i + k) :=
    fun k hk => h _ (.inl ⟨by omega, by omega⟩)
  have hword : word mem' (2 * i) = word mem (2 * i) := by
    apply word_congr
    intro a ha
    exact h a (.inl ⟨by omega, by omega⟩)
  have hdata : ∀ n ≤ cfg.eventSize,
      readBytes mem' (cfg.dataAddr i) n = readBytes mem (cfg.dataAddr i) n := by
    intro n hn
    apply List.map_congr_left
    intro k hk
    have hlt := List.mem_range.mp hk
    exact h _ (.inr ⟨by omega, by omega⟩)
  unfold eventAt at hsize ⊢
  dsimp only at hsize ⊢
  rw [hheader 4 (by decide), hheader 5 (by decide), hword, hdata _ hsize]

/-- **The stores of a call**, by the event that it asks for. -/
theorem fillWrites_eq (hrange : args.InRange) :
    fillWrites cfg i args = .word (2 * i) args.event.handler ::
      (bytesWrites (cfg.dataAddr i) args.event.data ++ sizeWrites i args.event.eventDataSize) ∧
    args.event.handler = args.handler ∧
    args.event.data.length = args.event.eventDataSize ∧
    args.event.eventDataSize ≤ args.eventDataSize := by
  have hlength := hrange.1
  unfold fillWrites PutArgs.event
  cases hdata : args.pEventData with
  | none => exact ⟨rfl, rfl, rfl, Nat.zero_le _⟩
  | some data =>
    have hdataLength := hlength data hdata
    refine ⟨?_, rfl, hdataLength, le_rfl⟩
    dsimp only
    split
    · rfl
    · next hzero =>
      have hsize : args.eventDataSize = 0 := Nat.eq_zero_of_not_pos hzero
      rw [hsize] at hdataLength ⊢
      rw [List.eq_nil_of_length_eq_zero hdataLength]
      rfl

theorem touches_sizeWrites {n : ℕ} {w : Write} (hw : w ∈ sizeWrites i n) (ha : w.Touches a) :
    8 * i + 4 ≤ a ∧ a < 8 * i + 6 := touches_bytesWrites hw ha

/-- The stores of a call go to its slot. -/
theorem touches_fillWrites (hrange : args.InRange) (hsize : args.eventDataSize ≤ cfg.eventSize)
    {w : Write} (hw : w ∈ fillWrites cfg i args) (ha : w.Touches a) : InSlot cfg i a := by
  obtain ⟨hwrites, -, hlength, hle⟩ :
      fillWrites cfg i args = _ ∧ _ ∧ args.event.data.length = _ ∧ _ := fillWrites_eq hrange
  rw [hwrites] at hw
  rcases List.mem_cons.mp hw with rfl | hw
  · have hword : a / 4 = 2 * i := ha
    exact .inl ⟨by omega, by omega⟩
  · rcases List.mem_append.mp hw with hw | hw
    · have hbytes := touches_bytesWrites hw ha
      exact .inr ⟨hbytes.1, by omega⟩
    · have hbytes := touches_sizeWrites hw ha
      exact .inl ⟨by omega, by omega⟩

/-- What is stored as the size of an event is read again. -/
theorem applyAll_sizeWrites {n : ℕ} (hn : n < 2 ^ 16) :
    applyAll mem (sizeWrites i n) (8 * i + 4) + 2 ^ 8 * applyAll mem (sizeWrites i n) (8 * i + 5) =
      n := by
  have hbyte : ∀ k (hk : k < 2), applyAll mem (sizeWrites i n) (8 * i + 4 + k) =
      [n % 2 ^ 8, n / 2 ^ 8 % 2 ^ 8][k] := fun k hk => applyAll_bytesWrites hk
  have hlow := hbyte 0 (by decide)
  have hhigh := hbyte 1 (by decide)
  rw [Nat.add_zero] at hlow
  rw [hlow, hhigh]
  show n % 2 ^ 8 + 2 ^ 8 * (n / 2 ^ 8 % 2 ^ 8) = n
  omega

/-- **The event that a call stores** is the one that it asks for. -/
theorem eventAt_fillWrites (hrange : args.InRange) (hindexed : Indexed cfg)
    (hi : i ≤ cfg.queueSize) :
    eventAt cfg (applyAll mem (fillWrites cfg i args)) i = args.event := by
  obtain ⟨hwrites, hhandler, hlength, hle⟩ :
      fillWrites cfg i args = _ ∧ _ ∧ args.event.data.length = _ ∧ _ := fillWrites_eq hrange
  have hstart := hindexed.dataStartIndex
  have haddr : cfg.dataStartIndex ≤ cfg.dataAddr i := Nat.le_add_right _ _
  have hhandlerLt : args.event.handler < 2 ^ 32 := hhandler ▸ hrange.2.2
  have hsizeLt : args.event.eventDataSize < 2 ^ 16 := hle.trans_lt hrange.2.1
  rw [hwrites]
  generalize args.event = ev at hlength hhandlerLt hsizeLt ⊢
  obtain ⟨handler, eventDataSize, data⟩ := ev
  dsimp only at hlength hhandlerLt hsizeLt ⊢
  rw [applyAll_cons, applyAll_append]
  obtain ⟨m, hm⟩ : ∃ m, m = (Write.word (2 * i) handler).apply mem := ⟨_, rfl⟩
  rw [← hm]
  -- the data and the size do not go to the word of the handler
  have hword : word (applyAll (applyAll m (bytesWrites (cfg.dataAddr i) data))
      (sizeWrites i eventDataSize)) (2 * i) = handler := by
    have hself : word m (2 * i) = handler := hm ▸ word_apply_self hhandlerLt
    rw [← hself]
    apply word_congr
    intro a ha
    rw [applyAll_of_not_touches, applyAll_of_not_touches]
    · intro w hw htouches
      have hbytes := touches_bytesWrites hw htouches
      omega
    · intro w hw htouches
      have hbytes := touches_sizeWrites hw htouches
      omega
  have hdata : readBytes (applyAll (applyAll m (bytesWrites (cfg.dataAddr i) data))
      (sizeWrites i eventDataSize)) (cfg.dataAddr i) eventDataSize = data := by
    apply List.ext_getElem
    · rw [length_readBytes, hlength]
    · intro k hk hk'
      rw [getElem_readBytes, applyAll_of_not_touches]
      · exact applyAll_bytesWrites hk'
      · intro w hw htouches
        have hbytes := touches_sizeWrites hw htouches
        omega
  unfold eventAt
  rw [applyAll_sizeWrites hsizeLt, hword]
  dsimp only
  rw [hdata]

/-! ## §5 The invariant -/

/-- The stores that are left. -/
def Frame.todo : Frame → List Write
  | .entered _ => []
  | .filling ws => ws

/-- The stores that are left of all calls, in their order. -/
def SchedState.todo (s : SchedState) : List Write := (s.stack.map Frame.todo).flatten

variable (cfg) in
/-- The slot of an event, by its number. -/
def slotOf (n : ℕ) : ℕ := n % (cfg.queueSize + 1)

/-- **The invariant**: with the stores that are left, each event that is not processed is in its
    slot; and the stores go to slots of events that were not passed to a handler. -/
structure SchedInv (cfg : SchedConfig) (mem : ℕ → ℕ) (s : SchedState) : Prop where
  startIndex_eq : s.sched.startIndex = slotOf cfg s.processed
  endIndex_eq : s.sched.endIndex = slotOf cfg s.accepted.length
  processed_le : s.processed ≤ s.accepted.length
  room : s.accepted.length ≤ s.processed + cfg.queueSize
  running : ∀ eventIndex ∈ s.running, eventIndex = slotOf cfg s.processed
  once : s.executed.length = s.processed + if s.running = none then 0 else 1
  executed_le : s.executed.length ≤ s.accepted.length
  order : s.executed = s.accepted.take s.executed.length
  content : ∀ n (hn : n < s.accepted.length), s.processed ≤ n →
    eventAt cfg (applyAll s.sched.mem s.todo) (slotOf cfg n) = s.accepted[n] ∧
      s.accepted[n].eventDataSize ≤ cfg.eventSize
  owned : ∀ w ∈ s.todo, ∃ n, s.executed.length ≤ n ∧ n < s.accepted.length ∧
    ∀ a, w.Touches a → InSlot cfg (slotOf cfg n) a
  entered : ∀ args, .entered args ∈ s.stack → args.InRange
  outside : ∀ a, cfg.bufSize ≤ a → s.sched.mem a = mem a

theorem slotOf_le (cfg : SchedConfig) (n : ℕ) : slotOf cfg n ≤ cfg.queueSize :=
  Nat.le_of_lt_succ (Nat.mod_lt _ (Nat.succ_pos _))

/-- Two events that are less than a turn apart have different slots. -/
theorem slotOf_ne {n k : ℕ} (hlt : n < k) (hk : k ≤ n + cfg.queueSize) :
    slotOf cfg n ≠ slotOf cfg k := by
  intro heq
  have hmod : (k - n) % (cfg.queueSize + 1) = 0 := Nat.sub_mod_eq_zero_of_mod_eq heq.symm
  rw [Nat.mod_eq_of_lt (by omega)] at hmod
  omega

/-- **`next_index`** goes to the slot of the next event. -/
theorem Indexed.nextIndex_slotOf (h : Indexed cfg) (n : ℕ) :
    nextIndex cfg (slotOf cfg n) = slotOf cfg (n + 1) := by
  have hle := slotOf_le cfg n
  have hsucc : slotOf cfg (n + 1) = (slotOf cfg n + 1) % (cfg.queueSize + 1) :=
    (Nat.mod_add_mod n (cfg.queueSize + 1) 1).symm
  unfold Indexed at h
  rw [hsucc]
  unfold nextIndex
  split
  · rw [Nat.mod_eq_of_lt (by omega), Nat.mod_eq_of_lt (by omega)]
  · next hlast =>
    have heq : slotOf cfg n = cfg.queueSize := by omega
    rw [heq, Nat.mod_self]

/-- The slot of an event that is less than a turn later. -/
theorem slotOf_add (cfg : SchedConfig) (n : ℕ) {d : ℕ} (hd : d ≤ cfg.queueSize) :
    slotOf cfg (n + d) = if slotOf cfg n + d < cfg.queueSize + 1 then slotOf cfg n + d
      else slotOf cfg n + d - (cfg.queueSize + 1) := by
  have hle := slotOf_le cfg n
  have hsum : slotOf cfg (n + d) = (slotOf cfg n + d) % (cfg.queueSize + 1) :=
    (Nat.mod_add_mod n (cfg.queueSize + 1) d).symm
  rw [hsum]
  split
  · next hlt => exact Nat.mod_eq_of_lt hlt
  · next hge => rw [Nat.mod_eq_sub_mod (by omega), Nat.mod_eq_of_lt (by omega)]

/-! ## §6 One step -/

/-- A change of the calls that keeps what is left to store. -/
theorem SchedInv.setStack (h : SchedInv cfg mem s) {stack : List Frame} (returned : List ErrCode)
    (htodo : (stack.map Frame.todo).flatten = s.todo)
    (hentered : ∀ args, .entered args ∈ stack → args.InRange) :
    SchedInv cfg mem { s with stack := stack, returned := returned } := by
  refine ⟨h.startIndex_eq, h.endIndex_eq, h.processed_le, h.room, h.running, h.once, h.executed_le,
    h.order, ?_, ?_, hentered, h.outside⟩
  · intro n hn hge
    show eventAt cfg (applyAll s.sched.mem (stack.map Frame.todo).flatten) _ = _ ∧ _
    rw [htodo]
    exact h.content n hn hge
  · intro w hw
    have hw' : w ∈ (stack.map Frame.todo).flatten := hw
    rw [htodo] at hw'
    exact h.owned w hw'

/-- **A store.** -/
theorem SchedInv.store (h : SchedInv cfg mem s) (hindexed : Indexed cfg) {w : Write}
    {ws : List Write} {stack : List Frame} (hstack : s.stack = .filling (w :: ws) :: stack) :
    SchedInv cfg mem { s with
      sched := { s.sched with mem := w.apply s.sched.mem }
      stack := .filling ws :: stack } := by
  have htodo : s.todo = w :: (ws ++ (stack.map Frame.todo).flatten) := by
    unfold SchedState.todo
    rw [hstack]
    rfl
  have hcontent := h.content
  have howned := h.owned
  rw [htodo] at hcontent howned
  refine ⟨h.startIndex_eq, h.endIndex_eq, h.processed_le, h.room, h.running, h.once, h.executed_le,
    h.order, hcontent, fun x hx => howned x (List.mem_cons_of_mem _ hx), ?_, ?_⟩
  · intro args hargs
    apply h.entered args
    rw [hstack]
    rcases List.mem_cons.mp hargs with hfirst | hrest
    · cases hfirst
    · exact List.mem_cons_of_mem _ hrest
  · intro a ha
    obtain ⟨n, -, -, hslot⟩ := howned w List.mem_cons_self
    rw [← h.outside a ha]
    apply apply_of_not_touches
    intro htouches
    have hlt := hindexed.inBuffer (slotOf_le cfg n) (hslot a htouches)
    omega

/-- **The indices** of the queue. -/
theorem SchedInv.full_iff (h : SchedInv cfg mem s) (hindexed : Indexed cfg) :
    s.sched.full cfg = false ↔ s.accepted.length < s.processed + cfg.queueSize := by
  have hle := h.processed_le
  have hroom := h.room
  have hfull : s.sched.full cfg =
      (slotOf cfg (s.accepted.length + 1) == slotOf cfg s.processed) := by
    rw [SchedQueue.full, h.startIndex_eq, h.endIndex_eq, hindexed.nextIndex_slotOf]
  rw [hfull, beq_eq_false_iff_ne]
  constructor
  · intro hne
    by_contra hge
    have heq : s.accepted.length + 1 = s.processed + (cfg.queueSize + 1) := by omega
    apply hne
    rw [heq, slotOf, Nat.add_mod_right]
    rfl
  · intro hlt
    exact (slotOf_ne (by omega) (by omega)).symm

theorem SchedInv.empty_iff (h : SchedInv cfg mem s) :
    s.sched.empty = true ↔ s.accepted.length = s.processed := by
  have hle := h.processed_le
  have hroom := h.room
  rw [SchedQueue.empty, h.startIndex_eq, h.endIndex_eq, beq_iff_eq]
  constructor
  · intro heq
    by_contra hne
    exact slotOf_ne (by omega) hroom heq.symm
  · intro heq
    rw [heq]

theorem SchedInv.space (h : SchedInv cfg mem s) (hindexed : Indexed cfg) :
    s.sched.queueSpaceGet cfg = cfg.queueSize - (s.accepted.length - s.processed) := by
  have hle := h.processed_le
  have hroom := h.room
  obtain ⟨d, hd⟩ : ∃ d, s.accepted.length = s.processed + d := ⟨_, (Nat.add_sub_cancel' hle).symm⟩
  have hslot := slotOf_add cfg s.processed (d := d) (by omega)
  have hstart := slotOf_le cfg s.processed
  unfold Indexed at hindexed
  unfold SchedQueue.queueSpaceGet
  rw [h.startIndex_eq, h.endIndex_eq, hd, hslot]
  dsimp only
  generalize slotOf cfg s.processed = start at hstart ⊢
  split
  · rw [if_pos (by omega)]
    omega
  · rw [if_neg (by omega)]
    omega

/-- **A reservation**: the new slot belongs to no event, and no other call stores to it. -/
theorem SchedInv.reserve (h : SchedInv cfg mem s) (hindexed : Indexed cfg)
    {stack : List Frame} (hstack : s.stack = .entered args :: stack)
    (hsize : args.eventDataSize ≤ cfg.eventSize) (hfull : s.sched.full cfg = false) :
    SchedInv cfg mem { s with
      sched := { s.sched with endIndex := nextIndex cfg s.sched.endIndex }
      stack := .filling (fillWrites cfg s.sched.endIndex args) :: stack
      accepted := s.accepted ++ [args.event] } := by
  have hle := h.processed_le
  have hexecuted := h.executed_le
  have hlt := (h.full_iff hindexed).mp hfull
  have hrange : args.InRange := h.entered args (hstack ▸ List.mem_cons_self)
  obtain ⟨-, -, -, hevent⟩ : fillWrites cfg 0 args = _ ∧ _ ∧ _ ∧
      args.event.eventDataSize ≤ args.eventDataSize := fillWrites_eq hrange
  have hend := h.endIndex_eq
  have htodo : s.todo = (stack.map Frame.todo).flatten := by
    unfold SchedState.todo
    rw [hstack]
    rfl
  have hlength : (s.accepted ++ [args.event]).length = s.accepted.length + 1 := List.length_append
  rw [hend]
  obtain ⟨fill, hfill⟩ : ∃ fill, fill = fillWrites cfg (slotOf cfg s.accepted.length) args :=
    ⟨_, rfl⟩
  -- The stores of the call touch the new slot only, and every pending event has another.
  have hfillSlot : ∀ w ∈ fill, ∀ a, w.Touches a → InSlot cfg (slotOf cfg s.accepted.length) a :=
    fun w hw a ha => touches_fillWrites hrange hsize (hfill ▸ hw) ha
  have hdisjoint : ∀ {n : ℕ}, s.processed ≤ n → n < s.accepted.length → ∀ {a : ℕ},
      InSlot cfg (slotOf cfg n) a → ¬ InSlot cfg (slotOf cfg s.accepted.length) a :=
    fun hge hn _ ha => hindexed.disjoint (slotOf_le cfg _) (slotOf_le cfg _)
      (slotOf_ne hn (by omega)) ha
  rw [← hfill]
  have htodo' : ((Frame.filling fill :: stack).map Frame.todo).flatten = fill ++ s.todo := by
    rw [htodo]
    rfl
  refine ⟨h.startIndex_eq, ?_, ?_, ?_, h.running, h.once, ?_, ?_, ?_, ?_, ?_, h.outside⟩
  · show nextIndex cfg (slotOf cfg s.accepted.length) = slotOf cfg (s.accepted ++ _).length
    rw [hindexed.nextIndex_slotOf, hlength]
  · show s.processed ≤ (s.accepted ++ _).length
    omega
  · show (s.accepted ++ _).length ≤ s.processed + _
    omega
  · show s.executed.length ≤ (s.accepted ++ _).length
    omega
  · show s.executed = (s.accepted ++ _).take s.executed.length
    rw [List.take_append_of_le_length hexecuted]
    exact h.order
  · intro n hn hge
    have hn' : n < (s.accepted ++ [args.event]).length := hn
    show eventAt cfg (applyAll s.sched.mem (List.flatten _)) _ = (s.accepted ++ [args.event])[n] ∧
      (s.accepted ++ [args.event])[n].eventDataSize ≤ _
    rw [htodo', applyAll_append]
    by_cases hold : n < s.accepted.length
    · -- an earlier event: its slot is another one
      obtain ⟨hcontent, hle'⟩ := h.content n hold hge
      rw [List.getElem_append_left hold]
      refine ⟨?_, hle'⟩
      rw [← hcontent]
      apply eventAt_congr
      · intro a ha
        apply applyAll_congr
        apply applyAll_of_not_touches
        intro w hw htouches
        exact hdisjoint hge hold ha (hfillSlot w hw a htouches)
      · rw [hcontent]
        exact hle'
    · -- the new event: the other calls store elsewhere
      have hnew : n = s.accepted.length := by omega
      subst hnew
      rw [List.getElem_concat_length rfl]
      have hstored : eventAt cfg (applyAll s.sched.mem fill) (slotOf cfg s.accepted.length) =
          args.event := by
        rw [hfill]
        exact eventAt_fillWrites hrange hindexed (slotOf_le cfg _)
      refine ⟨?_, hevent.trans hsize⟩
      rw [← hstored]
      apply eventAt_congr
      · intro a ha
        apply applyAll_of_not_touches
        intro w hw htouches
        obtain ⟨k, hk, hk', hslot⟩ := h.owned w hw
        have hprocessed : s.processed ≤ k := by
          have honce := h.once
          omega
        exact hdisjoint hprocessed hk' (hslot a htouches) ha
      · rw [hstored]
        exact hevent.trans hsize
  · intro w hw
    have hw' : w ∈ ((Frame.filling fill :: stack).map Frame.todo).flatten := hw
    rw [htodo'] at hw'
    show ∃ n, s.executed.length ≤ n ∧ n < (s.accepted ++ [args.event]).length ∧ _
    rw [hlength]
    rcases List.mem_append.mp hw' with hw' | hw'
    · exact ⟨s.accepted.length, hexecuted, Nat.lt_succ_self _, hfillSlot w hw'⟩
    · obtain ⟨n, hge, hn, hslot⟩ := h.owned w hw'
      exact ⟨n, hge, Nat.lt_succ_of_lt hn, hslot⟩
  -- The calls below it are as they were.
  · intro args' hargs
    apply h.entered args'
    rw [hstack]
    rcases List.mem_cons.mp hargs with hfirst | hrest
    · cases hfirst
    · exact List.mem_cons_of_mem _ hrest

/-- **The call that runs** goes on. -/
theorem SchedInv.proceed (h : SchedInv cfg mem s) (hindexed : Indexed cfg) :
    SchedInv cfg mem (s.proceed cfg) := by
  have hentered := h.entered
  unfold SchedState.proceed
  split
  · exact h
  · next args stack hstack =>
    have htodo : (stack.map Frame.todo).flatten = s.todo := by
      unfold SchedState.todo
      rw [hstack]
      rfl
    have hrest : ∀ args, .entered args ∈ stack → args.InRange := by
      intro args hargs
      apply hentered args
      rw [hstack]
      exact List.mem_cons_of_mem _ hargs
    split
    · next hsize =>
      cases hfull : s.sched.full cfg with
      | false =>
        have hreserve : s.sched.reserve cfg = (some s.sched.endIndex,
            { s.sched with endIndex := nextIndex cfg s.sched.endIndex }) := by
          rw [SchedQueue.reserve, hfull]
          rfl
        rw [hreserve]
        exact h.reserve hindexed hstack hsize hfull
      | true =>
        have hreserve : s.sched.reserve cfg = (none, s.sched) := by
          rw [SchedQueue.reserve, hfull]
          rfl
        rw [hreserve]
        exact h.setStack _ htodo hrest
    · exact h.setStack _ htodo hrest
  · next stack hstack =>
    apply h.setStack
    · unfold SchedState.todo
      rw [hstack]
      rfl
    · intro args hargs
      apply hentered args
      rw [hstack]
      exact List.mem_cons_of_mem _ hargs
  · next w ws stack hstack => exact h.store hindexed hstack

/-- **Every step.** -/
theorem SchedInv.step {l : SchedLabel} (h : SchedInv cfg mem s) (hindexed : Indexed cfg)
    (hen : (schedMachine cfg mem).enabled s l) :
    SchedInv cfg mem ((schedMachine cfg mem).step s l) := by
  cases l with
  | put args =>
    have htodo : ((Frame.entered args :: s.stack).map Frame.todo).flatten = s.todo := rfl
    apply h.setStack s.returned htodo
    intro args' hargs
    rcases List.mem_cons.mp hargs with hfirst | hrest
    · cases hfirst
      exact hen
    · exact h.entered args' hrest
  | proceed => exact h.proceed hindexed
  -- no call is under way, so the oldest event is read as it was put
  | execute =>
    obtain ⟨hstack, hidle, hnonempty⟩ := hen
    have htodo : s.todo = [] := by rw [SchedState.todo, hstack]; rfl
    have honce : s.executed.length = s.processed := by
      rw [h.once, if_pos hidle, Nat.add_zero]
    have hlt : s.processed < s.accepted.length := by
      refine lt_of_le_of_ne h.processed_le fun heq => ?_
      rw [h.empty_iff.mpr heq.symm] at hnonempty
      cases hnonempty
    obtain ⟨hevent, -⟩ := h.content s.processed hlt le_rfl
    rw [htodo, applyAll_nil, ← h.startIndex_eq] at hevent
    have hlength : (s.executed ++ [eventAt cfg s.sched.mem s.sched.startIndex]).length =
        s.processed + 1 := by rw [List.length_append, honce]; rfl
    refine ⟨h.startIndex_eq, h.endIndex_eq, h.processed_le, h.room, ?_, hlength, ?_, ?_, h.content,
      ?_, h.entered, h.outside⟩
    · intro eventIndex hrunning
      cases hrunning
      exact h.startIndex_eq
    · exact hlength.trans_le hlt
    · show s.executed ++ [eventAt cfg s.sched.mem s.sched.startIndex] =
        s.accepted.take (s.executed ++ [eventAt cfg s.sched.mem s.sched.startIndex]).length
      have horder := h.order
      rw [honce] at horder
      rw [hlength, List.take_succ_eq_append_getElem hlt, hevent, ← horder]
    · intro w hw
      have hw' : w ∈ s.todo := hw
      rw [htodo] at hw'
      cases hw'
  -- the handler has returned, and only now is the slot given back
  | finish =>
    obtain ⟨hstack, hrunning⟩ := hen
    have htodo : s.todo = [] := by rw [SchedState.todo, hstack]; rfl
    have honce : s.executed.length = s.processed + 1 := by
      rw [h.once, if_neg hrunning]
    have hle := h.executed_le
    refine ⟨?_, h.endIndex_eq, honce.symm.trans_le hle, ?_, nofun, honce, hle, h.order, ?_, ?_, h.entered,
      h.outside⟩
    · show nextIndex cfg s.sched.startIndex = slotOf cfg (s.processed + 1)
      rw [h.startIndex_eq, hindexed.nextIndex_slotOf]
    · have hroom := h.room
      show s.accepted.length ≤ s.processed + 1 + cfg.queueSize
      omega
    · exact fun n hn hge => h.content n hn (Nat.le_of_succ_le hge)
    · intro w hw
      have hw' : w ∈ s.todo := hw
      rw [htodo] at hw'
      cases hw'

theorem schedInv_of_reachable (hindexed : Indexed cfg) (h : (schedMachine cfg mem).Reachable s) :
    SchedInv cfg mem s := by
  apply h.invariant
  · rintro _ rfl
    exact ⟨(Nat.zero_mod _).symm, (Nat.zero_mod _).symm, le_rfl, Nat.zero_le _, nofun, rfl, le_rfl,
      rfl, nofun, nofun, nofun, fun _ _ => rfl⟩
  · exact fun _ _ hs hen _ => hs.step hindexed hen

/-- **The queue** in a state. -/
theorem SchedInv.fifo (h : SchedInv cfg mem s) (hindexed : Indexed cfg) : Fifo cfg mem s := by
  have hle := h.processed_le
  have hpending : s.pending.length = s.accepted.length - s.processed := List.length_drop
  refine ⟨?_, ?_, ?_, h.order, h.once, ?_, h.outside⟩
  · rw [h.full_iff hindexed, hpending]
    omega
  · rw [h.empty_iff, ← List.length_eq_zero_iff, hpending]
    omega
  · rw [h.space hindexed, hpending]
  · intro eventIndex hrunning
    have hne : s.running ≠ none := by
      intro hnone
      rw [hnone] at hrunning
      cases hrunning
    have honce : s.executed.length = s.processed + 1 := by
      rw [h.once, if_neg hne]
    have hlt : s.processed < s.accepted.length := by
      have hexecuted := h.executed_le
      omega
    obtain ⟨hevent, hsize⟩ := h.content s.processed hlt le_rfl
    have horder := h.order
    rw [honce, List.take_succ_eq_append_getElem hlt] at horder
    rw [h.running eventIndex hrunning, horder, List.getLast?_concat, ← hevent]
    congr 1
    -- no call stores to the slot of the event that was passed
    symm
    apply eventAt_congr
    · intro a ha
      symm
      apply applyAll_of_not_touches
      intro w hw htouches
      obtain ⟨n, hge, hn, hslot⟩ := h.owned w hw
      have hroom := h.room
      exact hindexed.disjoint (slotOf_le cfg _) (slotOf_le cfg _)
        (slotOf_ne (by omega : s.processed < n) (by omega)) ha (hslot a htouches)
    · rw [hevent]
      exact hsize

/-! ## §7 Long queues -/

/-- A call without data. -/
def emptyPut : PutArgs := ⟨none, 0, 0⟩

/-- A call that has its slot returns. -/
theorem reachable_filled {ws : List Write} {stack : List Frame}
    (h : (schedMachine cfg mem).Reachable s) (hstack : s.stack = .filling ws :: stack) :
    ∃ t, (schedMachine cfg mem).Reachable t ∧ t.stack = stack ∧
      t.sched.startIndex = s.sched.startIndex ∧ t.sched.endIndex = s.sched.endIndex ∧
      t.processed = s.processed ∧ t.accepted = s.accepted := by
  have hen : s.stack ≠ [] := by rw [hstack]; exact List.cons_ne_nil _ _
  have hnext : (schedMachine cfg mem).Reachable (s.proceed cfg) :=
    Machine.ReachableUnder.step (a := SchedLabel.proceed) h hen trivial
  unfold SchedState.proceed at hnext
  rw [hstack] at hnext
  induction ws generalizing s with
  | nil => exact ⟨_, hnext, rfl, rfl, rfl, rfl, rfl⟩
  | cons w ws ih =>
    dsimp only at hnext
    obtain ⟨u, hu⟩ : ∃ u, u = { s with
      sched := { s.sched with mem := w.apply s.sched.mem }
      stack := .filling ws :: stack } := ⟨_, rfl⟩
    rw [← hu] at hnext
    have hstack' : u.stack = .filling ws :: stack := hu ▸ rfl
    have hen' : u.stack ≠ [] := by rw [hstack']; exact List.cons_ne_nil _ _
    have hnext' : (schedMachine cfg mem).Reachable (u.proceed cfg) :=
      Machine.ReachableUnder.step (a := SchedLabel.proceed) hnext hen' trivial
    unfold SchedState.proceed at hnext'
    rw [hstack'] at hnext'
    obtain ⟨t, ht, hfields⟩ := ih hnext hstack' hen' hnext'
    refine ⟨t, ht, ?_⟩
    rw [hu] at hfields
    exact hfields

/-- A call without data gets a slot, and returns. -/
theorem reachable_put (h : (schedMachine cfg mem).Reachable s) (hstack : s.stack = [])
    (hfull : s.sched.full cfg = false) :
    ∃ t, (schedMachine cfg mem).Reachable t ∧ t.stack = [] ∧
      t.sched.startIndex = s.sched.startIndex ∧
      t.sched.endIndex = nextIndex cfg s.sched.endIndex ∧
      t.processed = s.processed ∧ t.accepted.length = s.accepted.length + 1 := by
  have hput : (schedMachine cfg mem).Reachable { s with stack := .entered emptyPut :: s.stack } :=
    Machine.ReachableUnder.step (a := SchedLabel.put emptyPut) h
      ⟨nofun, by decide, by decide⟩ trivial
  have hnext := Machine.ReachableUnder.step (a := SchedLabel.proceed) hput
    (List.cons_ne_nil _ _) trivial
  have hreserve : s.sched.reserve cfg = (some s.sched.endIndex,
      { s.sched with endIndex := nextIndex cfg s.sched.endIndex }) := by
    rw [SchedQueue.reserve, hfull]
    rfl
  have hreserved : SchedState.proceed cfg { s with stack := .entered emptyPut :: s.stack } =
      { s with
        sched := { s.sched with endIndex := nextIndex cfg s.sched.endIndex }
        stack := .filling (fillWrites cfg s.sched.endIndex emptyPut) :: s.stack
        accepted := s.accepted ++ [emptyPut.event] } := by
    have hsize : emptyPut.eventDataSize ≤ cfg.eventSize := Nat.zero_le _
    unfold SchedState.proceed
    dsimp only
    rw [if_pos hsize, hreserve]
  have hnext' : (schedMachine cfg mem).Reachable
      (SchedState.proceed cfg { s with stack := .entered emptyPut :: s.stack }) := hnext
  rw [hreserved] at hnext'
  obtain ⟨t, ht, hstack', hstart, hend, hprocessed, haccepted⟩ := reachable_filled hnext' rfl
  refine ⟨t, ht, hstack'.trans hstack, hstart, hend, hprocessed, ?_⟩
  rw [haccepted]
  exact List.length_append

/-- **The indices have 8 bits**, so that 255 events fill a longer queue. -/
theorem reachable_full (hlong : ¬ Indexed cfg) (mem : ℕ → ℕ) {n : ℕ} (hn : n ≤ 255) :
    ∃ s, (schedMachine cfg mem).Reachable s ∧ s.stack = [] ∧ s.sched.startIndex = 0 ∧
      s.sched.endIndex = n ∧ s.processed = 0 ∧ s.accepted.length = n := by
  unfold Indexed at hlong
  induction n with
  | zero => exact ⟨_, .start rfl, rfl, rfl, rfl, rfl, rfl⟩
  | succ n ih =>
    obtain ⟨s, hs, hstack, hstart, hend, hprocessed, haccepted⟩ := ih (by omega)
    have hnext : nextIndex cfg n = n + 1 := by
      unfold nextIndex
      rw [if_pos (by omega), Nat.mod_eq_of_lt (by omega)]
    have hfull : s.sched.full cfg = false := by
      rw [SchedQueue.full, hend, hstart, hnext]
      rfl
    obtain ⟨t, ht, hstack', hstart', hend', hprocessed', haccepted'⟩ :=
      reachable_put hs hstack hfull
    exact ⟨t, ht, hstack', hstart'.trans hstart, hend'.trans (hend ▸ hnext),
      hprocessed'.trans hprocessed, haccepted'.trans (by rw [haccepted])⟩

/-- **The queue of the scheduler** is a bounded queue in every run, if and only if it has at most 255
    events. -/
theorem fifo_iff (cfg : SchedConfig) :
    (∀ mem s, (schedMachine cfg mem).Reachable s → Fifo cfg mem s) ↔ cfg.queueSize ≤ 255 := by
  constructor
  · intro hall
    by_contra hlong
    obtain ⟨s, hs, -, hstart, hend, hprocessed, haccepted⟩ :=
      reachable_full hlong (fun _ => 0) (le_refl 255)
    have hfits := (hall _ s hs).fits
    -- After 255 events the index counts as full, although there are free slots.
    have hfull : s.sched.full cfg = true := by
      rw [SchedQueue.full, hend, hstart]
      unfold nextIndex
      rw [if_pos (by omega)]
      rfl
    have hpending : s.pending.length = 255 := by
      unfold SchedState.pending
      rw [List.length_drop, hprocessed, haccepted]
    rw [hfull, hpending] at hfits
    have hmore := hfits.mpr (by omega)
    cases hmore
  · intro hindexed mem s hs
    exact (schedInv_of_reachable hindexed hs).fifo hindexed

/-- **A queue of 256 events** takes 255. -/
theorem not_fifo_256 : ∃ s, (schedMachine ⟨0, 256, by decide, by decide⟩ fun _ => 0).Reachable s ∧
    s.pending.length = 255 ∧ s.sched.full ⟨0, 256, by decide, by decide⟩ = true ∧
    s.sched.queueSpaceGet ⟨0, 256, by decide, by decide⟩ = 1 ∧
    ¬ Fifo ⟨0, 256, by decide, by decide⟩ (fun _ => 0) s := by
  obtain ⟨s, hs, -, hstart, hend, hprocessed, haccepted⟩ :=
    reachable_full (show ¬ Indexed ⟨0, 256, by decide, by decide⟩ by decide) (fun _ => 0)
      (le_refl 255)
  have hpending : s.pending.length = 255 := by
    unfold SchedState.pending
    rw [List.length_drop, hprocessed, haccepted]
  have hfull : s.sched.full ⟨0, 256, by decide, by decide⟩ = true := by
    rw [SchedQueue.full, hend, hstart]
    rfl
  refine ⟨s, hs, hpending, hfull, ?_, ?_⟩
  · rw [SchedQueue.queueSpaceGet, hend, hstart]
    rfl
  · intro hfifo
    have hfits := hfifo.fits
    rw [hfull, hpending] at hfits
    cases hfits.mpr (by decide)

end NordicEsb.Sched
