import NordicEsb.Lib.Driven
import NordicEsb.Twi.Invariant

/-!
# The Manager Completes what it Accepts

What is left to be done gets less with every step of the manager and with every event, so the
manager comes to an end with all transactions, whatever the driver answers. A call of
`app_twi_perform` that waits on top of an owner keeps it from going on; this is what happens in a
callback.

`app_twi_perform` sets a flag, and the callback of its transaction clears it. If the queue is full,
there is no transaction: the call returns, and the flag stays.

- `State.work` is a bound of the steps that are left, `work_proceed` says that it decreases
- `Manages` is what is asked of the manager

**Main result** (`manages_of_reachable`): the manager does all of this, if no call of
`app_twi_perform` finds the queue full.
-/

namespace NordicEsb.Twi

open Driven

variable {size : BitVec 8} {s : State size}

/-! ## §1 What is asked of the manager -/

/-- The frame belongs to a call of `app_twi_perform`. -/
def Frame.perform : Frame → Bool
  | .performPut _ | .performWait | .performDone => true
  | _ => false

/-- The frame is in front of the waiting loop, or in it. -/
def Frame.blocks : Frame → Bool
  | .performPut _ | .performWait => true
  | _ => false

/-- The frame puts the transaction of `app_twi_perform` into the queue. -/
def Frame.puts : Frame → Bool
  | .performPut _ => true
  | _ => false

/-- No call of `app_twi_perform` waits on top of an owner. -/
def State.Unblocked (s : State size) : Prop :=
  ∀ f ∈ s.stack.dropWhile (!·.blocks), f.owner = false

/-- **The manager and the driver go on**, without new calls: with what `nrf_drv_twi_xfer` returns,
    and with the kind of the event. -/
def State.proceed (e : RetCode × Bool) (s : State size) : State size :=
  match s.stack with
  | [] | .performWait :: _ => if s.driver.isSome then s.event e.2 else s
  | _ => s.run e.1

/-- Every transaction that was accepted has ended. -/
def State.Complete (s : State size) : Prop := s.ended.map Ended.transaction = s.accepted

/-- **The manager does its work.** -/
structure Manages (s : State size) : Prop where
  /-- each transaction ends at most once, in the order of the queue -/
  once : s.ended.map Ended.transaction <+: s.accepted
  /-- the end of a transaction is its callback -/
  called : s.called = s.ended.filterMap Ended.call
  /-- all transfers of a successful transaction were performed, in order -/
  success : ∀ e ∈ s.ended, e.result = nrfSuccess →
    e.performed.flatMap XferDesc.ops = e.transaction.ops
  /-- between calls and events -/
  idle : s.stack = [] → (s.twi.isIdle ↔ s.Complete)
  /-- whatever the driver answers, everything that was accepted comes to its end -/
  completes : s.Unblocked →
    Reaches State.proceed (fun s' => s.accepted <+: s'.accepted ∧ s'.Complete) s
  flag : (∀ f ∈ s.stack, f.perform = false) → s.twi.internalTransactionInProgress = false

/-- **The condition**: when `app_twi_perform` puts its transaction, the queue is not full. -/
def QueueRoom (s : State size) : Label → Prop
  | .run _ => s.stack.head?.any Frame.puts = true → ¬ s.twi.queue.Full
  | _ => True

/-! ## §2 The stack -/

/-- What the frames on top of the stack become. -/
structure StackStep (s s' : State size) (f : Frame) (rest top : List Frame) : Prop where
  stack : s'.stack = top ++ rest
  /-- only `app_twi_perform` gets to its waiting loop -/
  blocks : f.blocks = false → ∀ g ∈ top, g.blocks = false
  /-- a call that was not refused goes on to wait -/
  put : ∀ transfers, f = .performPut transfers →
    s.twi.queue.Full ∧ top = [] ∨ top = [.pending false, .performWait]
  /-- a call that waits goes on only when the flag is cleared -/
  wait : f = .performWait → s.twi.internalTransactionInProgress = true → top = [.performWait]
  /-- and no frame sets the flag -/
  flag : s'.twi.internalTransactionInProgress = true →
    s.twi.internalTransactionInProgress = true
  accepted : s.accepted <+: s'.accepted

/-- **What a step does to the stack**: only the frame on top changes. -/
theorem State.run_stack (s : State size) (ret : RetCode) {f : Frame} {rest : List Frame}
    (hstack : s.stack = f :: rest) : ∃ top, StackStep s (s.run ret) f rest top := by
  -- Most frames become one other frame, or return.
  have hreturn : ∀ s' : State size, s'.stack = rest → s'.twi.internalTransactionInProgress =
      s.twi.internalTransactionInProgress → s'.accepted = s.accepted → f.blocks = false →
      StackStep s s' f rest [] := by
    intro s' hs' hflag haccepted hf
    refine ⟨hs', by simp, ?_, ?_, ?_, ?_⟩
    · rintro transfers rfl
      cases hf
    · rintro rfl
      cases hf
    · rw [hflag]
      exact id
    · rw [haccepted]
  have hmove : ∀ (s' : State size) (g : Frame), s'.stack = g :: rest →
      (s'.twi.internalTransactionInProgress = true →
        s.twi.internalTransactionInProgress = true) →
      s'.accepted = s.accepted → f.blocks = false → g.blocks = false →
      StackStep s s' f rest [g] := by
    intro s' g hs' hflag haccepted hf hg
    refine ⟨hs', by simp [hg], ?_, ?_, hflag, ?_⟩
    · rintro transfers rfl
      cases hf
    · rintro rfl
      cases hf
    · rw [haccepted]
  unfold State.run
  rw [hstack]
  cases f with
  | pending switchTransaction =>
    dsimp only
    unfold State.runPending
    split_ifs
    · cases queueGet s.twi.queue with
      | mk t queue =>
        cases t with
        | none => exact ⟨[], hreturn _ rfl rfl rfl rfl⟩
        | some t => exact ⟨[.first], hmove _ _ rfl id rfl rfl rfl⟩
    · exact ⟨[], hreturn _ rfl rfl rfl rfl⟩
  | first => exact ⟨[.transfer], hmove _ _ rfl id rfl rfl rfl⟩
  | transfer =>
    dsimp only
    unfold State.runTransfer
    cases s.twi.pCurrentTransaction with
    | none => exact ⟨[], hreturn _ rfl rfl rfl rfl⟩
    | some t => exact ⟨[_], hmove _ _ rfl id rfl rfl rfl⟩
  | xfer desc =>
    dsimp only
    unfold State.runXfer
    split_ifs
    · exact ⟨[], hreturn _ rfl rfl rfl rfl⟩
    · exact ⟨[_], hmove _ _ rfl id rfl rfl rfl⟩
  | signal result =>
    dsimp only
    unfold State.runSignal
    cases s.twi.pCurrentTransaction with
    | none => exact ⟨[], hreturn _ rfl rfl rfl rfl⟩
    | some t =>
      refine ⟨[.pending true], hmove _ _ rfl ?_ rfl rfl rfl⟩
      dsimp only
      cases t.callback with
      | none => exact id
      | user pUserData => exact id
      | internal => exact fun hflag => nomatch hflag
  | event done =>
    dsimp only
    unfold State.runEvent
    cases s.twi.pCurrentTransaction with
    | none => exact ⟨[], hreturn _ rfl rfl rfl rfl⟩
    | some t =>
      dsimp only
      split_ifs
      · exact ⟨[_], hmove _ _ rfl id rfl rfl rfl⟩
      · exact ⟨[_], hmove _ _ rfl id rfl rfl rfl⟩
      · exact ⟨[_], hmove _ _ rfl id rfl rfl rfl⟩
  | scheduled => exact ⟨[], hreturn _ rfl rfl rfl rfl⟩
  | performPut transfers =>
    dsimp only
    unfold State.runPerformPut queuePut
    split_ifs with hfull
    · refine ⟨[], rfl, by simp, ?_, nofun, id, List.prefix_refl _⟩
      intro _ _
      exact .inl ⟨hfull, rfl⟩
    · refine ⟨[.pending false, .performWait], rfl, nofun, ?_, nofun, id, ?_⟩
      · intro _ _
        exact .inr rfl
      · exact List.prefix_append _ _
  | performWait =>
    dsimp only
    unfold State.runPerformWait
    split_ifs with hflag
    · exact ⟨[.performWait], hstack, nofun, nofun, fun _ _ => rfl, id, List.prefix_refl _⟩
    · refine ⟨[.performDone], rfl, nofun, nofun, ?_, id, List.prefix_refl _⟩
      intro _ htrue
      exact absurd htrue hflag
  | performDone => exact ⟨[], hreturn _ rfl rfl rfl rfl⟩

/-! ## §3 The flag -/

theorem Frame.perform_of_blocks {f : Frame} (hf : f.blocks = true) : f.perform = true := by
  cases f <;> first | rfl | cases hf

/-- The call that has set the flag is still active. -/
def FlagHeld (s : State size) : Prop :=
  s.twi.internalTransactionInProgress = true → ∃ f ∈ s.stack, f.blocks = true

theorem flagHeld_run (h : FlagHeld s) {ret : RetCode} (hroom : QueueRoom s (.run ret)) :
    FlagHeld (s.run ret) := by
  cases hstack : s.stack with
  | nil =>
    unfold State.run
    rw [hstack]
    exact h
  | cons f rest =>
    obtain ⟨top, hstep⟩ := s.run_stack ret hstack
    intro hflag
    have hflag' := hstep.flag hflag
    obtain ⟨g, hg, hblocks⟩ := h hflag'
    rw [hstep.stack]
    rw [hstack, List.mem_cons] at hg
    rcases hg with rfl | hg
    · -- The call itself goes on: it was not refused, and it does not leave its loop.
      refine ⟨.performWait, List.mem_append_left _ ?_, rfl⟩
      cases g with
      | performPut transfers =>
        have hnot : ¬ s.twi.queue.Full := hroom (by rw [hstack]; rfl)
        rcases hstep.put transfers rfl with ⟨hfull, -⟩ | htop
        · exact absurd hfull hnot
        · simp [htop]
      | performWait => simp [hstep.wait rfl hflag']
      | _ => cases hblocks
    · exact ⟨g, List.mem_append_right _ hg, hblocks⟩

theorem flagHeld_step (h : FlagHeld s) {a : Label} (hroom : QueueRoom s a) :
    FlagHeld (s.step a) := by
  cases a with
  | schedule t =>
    show FlagHeld (s.schedule t)
    unfold State.schedule
    cases queuePut s.twi.queue t with
    | none => exact h
    | some queue =>
      intro hflag
      obtain ⟨f, hf, hblocks⟩ := h hflag
      exact ⟨f, List.mem_cons_of_mem _ (List.mem_cons_of_mem _ hf), hblocks⟩
  | perform transfers =>
    show FlagHeld (s.perform transfers)
    unfold State.perform
    split_ifs
    · exact h
    · intro _
      exact ⟨.performPut transfers, List.mem_cons_self, rfl⟩
  | event done =>
    intro hflag
    obtain ⟨f, hf, hblocks⟩ := h hflag
    exact ⟨f, List.mem_cons_of_mem _ hf, hblocks⟩
  | run ret => exact flagHeld_run h hroom

theorem flagHeld_of_reachable (h : (machine size).ReachableUnder QueueRoom s) : FlagHeld s := by
  apply h.invariant
  · rintro s ⟨pBuffer, currentTransferIdx, internalTransactionResult, rfl⟩ hflag
    cases hflag
  · intro s a hheld _ hroom
    exact flagHeld_step hheld hroom

/-! ## §4 What is left to be done -/

/-- The steps of a transaction. -/
def Transaction.cost (t : Transaction) : ℕ := 4 * t.number + 3

/-- The transfers of the current transaction that are not done. -/
def State.left (s : State size) : ℕ :=
  match s.twi.pCurrentTransaction with
  | none => 0
  | some t => t.number - s.twi.currentTransferIdx.toNat

/-- The steps that a frame is going to make, with those of its transaction. -/
def State.weight (s : State size) : Frame → ℕ
  | .pending _ => 1
  | .first =>
    match s.twi.pCurrentTransaction with
    | none => 1
    | some t => t.cost
  | .transfer => 4 * s.left + 2
  | .xfer _ => 4 * s.left + 1
  | .event _ => 4 * s.left - 1
  | .signal _ => 2
  | .scheduled => 1
  | .performPut transfers => 4 * transfers.list.length + 5
  | .performWait => 0
  | .performDone => 1

/-- The steps of the driver. -/
def State.driverWork (s : State size) : ℕ := if s.driver.isSome then 4 * s.left else 0

/-- **A bound** of the steps that are left. -/
def State.work (s : State size) : ℕ :=
  (s.queued.map Transaction.cost).sum + s.driverWork + (s.stack.map s.weight).sum

theorem State.weight_of_not_owner (s s' : State size) {f : Frame} (hf : f.owner = false) :
    s'.weight f = s.weight f := by
  cases f <;> first | rfl | cases hf

theorem State.sum_weight (s s' : State size) {stack : List Frame}
    (h : ∀ f ∈ stack, f.owner = false) :
    (stack.map s'.weight).sum = (stack.map s.weight).sum := by
  congr 1
  apply List.map_congr_left
  intro f hf
  exact s.weight_of_not_owner s' (h f hf)

theorem State.left_of_current (s : State size) {t : Transaction}
    (ht : s.twi.pCurrentTransaction = some t) :
    s.left = t.number - s.twi.currentTransferIdx.toNat := by
  unfold State.left
  rw [ht]

/-- **An owner goes on**, and less is left. -/
theorem work_move (h : Inv s) {f g : Frame} {rest : List Frame} (hstack : s.stack = f :: rest)
    (hf : f.owner = true) {s' : State size}
    (hs' : s'.twi.queue = s.twi.queue ∧ s'.stack = g :: rest ∧ s'.driver = s.driver)
    (hless : s'.weight g < s.weight f) : s'.work < s.work := by
  obtain ⟨hqueue, hstack', hdriver⟩ := hs'
  obtain ⟨hrest, hnone, -⟩ := h.top_owner hstack hf
  have hsum := s.sum_weight s' hrest
  unfold State.work State.driverWork State.queued
  rw [hqueue, hstack, hstack', hdriver, hnone, List.map_cons, List.map_cons, List.sum_cons,
    List.sum_cons, hsum]
  simp only [Option.isSome_none, Bool.false_eq_true, if_false]
  omega

theorem work_runFirst (h : Inv s) {rest : List Frame} (hstack : s.stack = .first :: rest) :
    (s.runFirst rest).work < s.work := by
  obtain ⟨-, -, t, ht⟩ := h.top_owner hstack rfl
  refine work_move h hstack rfl (g := .transfer) ⟨rfl, rfl, rfl⟩ ?_
  have hleft : (s.runFirst rest).left = t.number - 0 := State.left_of_current _ ht
  unfold State.weight
  dsimp only
  rw [hleft, ht]
  unfold Transaction.cost
  dsimp only
  omega

theorem work_runTransfer (h : Inv s) {rest : List Frame} (hstack : s.stack = .transfer :: rest) :
    (s.runTransfer rest).work < s.work := by
  obtain ⟨t, ht, hidx, -⟩ : s.FrameOk .transfer := h.frames .transfer (by simp [hstack])
  obtain ⟨hle, -, -⟩ := startTransfer_ops t hidx
  have hleft := s.left_of_current ht
  obtain ⟨s', hs'⟩ : ∃ s', s' = s.runTransfer rest := ⟨_, rfl⟩
  rw [← hs']
  unfold State.runTransfer at hs'
  rw [ht] at hs'
  have hleft' : s'.left = t.number - (startTransfer t s.twi.currentTransferIdx).2.toNat := by
    rw [hs']
    exact State.left_of_current _ ht
  refine work_move h hstack rfl (g := .xfer (startTransfer t s.twi.currentTransferIdx).1) ?_ ?_
  · rw [hs']
    exact ⟨rfl, rfl, rfl⟩
  · unfold State.weight
    dsimp only
    omega

theorem work_runXfer (h : Inv s) (ret : RetCode) {desc : XferDesc} {rest : List Frame}
    (hstack : s.stack = .xfer desc :: rest) : (s.runXfer ret desc rest).work < s.work := by
  obtain ⟨t, ht, hidx, -⟩ : s.FrameOk (.xfer desc) := h.frames _ (by simp [hstack])
  have hleft := s.left_of_current ht
  unfold State.runXfer
  split_ifs
  · obtain ⟨hrest, hdriver, -⟩ := h.top_owner hstack rfl
    unfold State.work State.driverWork
    rw [hstack, hdriver, List.map_cons, List.sum_cons, s.sum_weight _ hrest]
    unfold State.weight
    simp only [Option.isSome_none, Option.isSome_some, Bool.false_eq_true, if_false, if_true]
    -- The step of the frame becomes a step of the driver.
    show (s.queued.map Transaction.cost).sum + 4 * s.left + _ < _
    omega
  · refine work_move h hstack rfl (g := .signal ret) ⟨rfl, rfl, rfl⟩ ?_
    unfold State.weight
    dsimp only
    omega

theorem work_event (h : Inv s) (done : Bool) (hdriver : s.driver ≠ none) :
    (s.event done).work < s.work := by
  obtain ⟨desc, hdesc⟩ := Option.ne_none_iff_exists'.mp hdriver
  obtain ⟨t, ht, hidx, -⟩ := h.driver desc hdesc
  have hleft := s.left_of_current ht
  unfold State.work State.driverWork
  rw [hdesc]
  show (s.queued.map Transaction.cost).sum + 0 +
      ((.event done :: s.stack : List Frame).map s.weight).sum < _
  rw [List.map_cons, List.sum_cons]
  simp only [Option.isSome_some, if_true]
  show _ + 0 + (4 * s.left - 1 + _) < _
  omega

theorem work_runEvent (h : Inv s) {done : Bool} {rest : List Frame}
    (hstack : s.stack = .event done :: rest) : (s.runEvent done rest).work < s.work := by
  obtain ⟨t, ht, hidx, -⟩ : s.FrameOk (.event done) := h.frames _ (by simp [hstack])
  have hlt : t.number < 2 ^ 8 := t.transfers.number_lt
  have hsucc : (s.twi.currentTransferIdx + 1).toNat = s.twi.currentTransferIdx.toNat + 1 := by
    bv_omega
  have hleft := s.left_of_current ht
  obtain ⟨s', hs'⟩ : ∃ s', s' = s.runEvent done rest := ⟨_, rfl⟩
  rw [← hs']
  unfold State.runEvent at hs'
  rw [ht] at hs'
  dsimp only at hs'
  split_ifs at hs'
  · have hleft' : s'.left = t.number - (s.twi.currentTransferIdx + 1).toNat := by
      rw [hs']
      exact State.left_of_current _ ht
    refine work_move h hstack rfl (g := .transfer) ?_ ?_
    · rw [hs']
      exact ⟨rfl, rfl, rfl⟩
    · unfold State.weight
      dsimp only
      omega
  · refine work_move h hstack rfl (g := .signal nrfSuccess) ?_ ?_
    · rw [hs']
      exact ⟨rfl, rfl, rfl⟩
    · unfold State.weight
      dsimp only
      omega
  · refine work_move h hstack rfl (g := .signal nrfErrorInternal) ?_ ?_
    · rw [hs']
      exact ⟨rfl, rfl, rfl⟩
    · unfold State.weight
      dsimp only
      omega

theorem work_runSignal (h : Inv s) {result : RetCode} {rest : List Frame}
    (hstack : s.stack = .signal result :: rest) : (s.runSignal result rest).work < s.work := by
  obtain ⟨-, -, t, ht⟩ := h.top_owner hstack rfl
  unfold State.runSignal
  rw [ht]
  dsimp only
  refine work_move h hstack rfl (g := .pending true) ⟨?_, ?_, ?_⟩ ?_
  · dsimp only
    cases t.callback <;> rfl
  · rfl
  · rfl
  · unfold State.weight
    dsimp only
    omega

/-- A frame returns, and the current transaction stays. -/
theorem work_return {f : Frame} {rest : List Frame} (hstack : s.stack = f :: rest)
    (hf : 0 < s.weight f) (returned : List RetCode) :
    State.work { s with returned := returned, stack := rest } < s.work := by
  have hwork : s.work =
      (s.queued.map Transaction.cost).sum + s.driverWork + (s.weight f + (rest.map s.weight).sum) := by
    unfold State.work
    rw [hstack, List.map_cons, List.sum_cons]
  rw [hwork]
  show (s.queued.map Transaction.cost).sum + s.driverWork + (rest.map s.weight).sum < _
  omega

/-- **A transaction is taken**: its steps go from the queue to the frame. -/
theorem work_take (h : Inv s) {f : Frame} {rest : List Frame} (hstack : s.stack = f :: rest)
    (hf : 0 < s.weight f) (hrest : ∀ g ∈ rest, g.owner = false) (hdriver : s.driver = none) :
    (s.runPending true rest).work < s.work := by
  have hwork : s.work = (s.queued.map Transaction.cost).sum + 0 +
      (s.weight f + (rest.map s.weight).sum) := by
    unfold State.work State.driverWork
    rw [hstack, hdriver, List.map_cons, List.sum_cons]
    rfl
  rw [hwork]
  unfold State.runPending
  rw [if_pos (.inl rfl)]
  rcases queueGet_cases h.queue with ⟨-, hget⟩ | ⟨t, l, queue, hcons, hget, hholds⟩
  · rw [hget]
    dsimp only
    unfold State.work State.driverWork
    rw [hdriver, s.sum_weight _ hrest]
    show (s.queued.map Transaction.cost).sum + 0 + _ < _
    omega
  · rw [hget, hcons]
    dsimp only
    unfold State.work State.driverWork
    rw [hdriver, List.map_cons, List.map_cons, List.sum_cons, List.sum_cons, s.sum_weight _ hrest]
    show (queue.ring.toList.map Transaction.cost).sum + 0 + (t.cost + _) < _
    rw [hholds.ring.toList_eq]
    omega

theorem work_runPending (h : Inv s) {switchTransaction : Bool} {rest : List Frame}
    (hstack : s.stack = .pending switchTransaction :: rest) :
    (s.runPending switchTransaction rest).work < s.work := by
  by_cases hgo : switchTransaction = true ∨ s.twi.isIdle
  · have htake : s.runPending switchTransaction rest = s.runPending true rest := by
      unfold State.runPending
      rw [if_pos hgo, if_pos (.inl rfl)]
    obtain ⟨hrest, hdriver⟩ : (∀ g ∈ rest, g.owner = false) ∧ s.driver = none := by
      cases switchTransaction with
      | true =>
        obtain ⟨hrest, hdriver, -⟩ := h.top_owner hstack rfl
        exact ⟨hrest, hdriver⟩
      | false =>
        obtain ⟨hnot, hdriver⟩ := h.idle_owner (hgo.resolve_left (by decide))
        refine ⟨?_, hdriver⟩
        intro g hg
        apply hnot
        rw [hstack]
        exact List.mem_cons_of_mem _ hg
    rw [htake]
    exact work_take h hstack (Nat.zero_lt_one) hrest hdriver
  · unfold State.runPending
    rw [if_neg hgo]
    exact work_return hstack Nat.zero_lt_one s.returned

theorem work_runPerformPut (h : Inv s) {transfers : Transfers} {rest : List Frame}
    (hstack : s.stack = .performPut transfers :: rest) :
    (s.runPerformPut transfers rest).work < s.work := by
  unfold State.runPerformPut
  rcases queuePut_cases h.queue (internalTransaction transfers) with
    ⟨-, hput⟩ | ⟨queue, -, hput, hholds⟩
  · rw [hput]
    exact work_return hstack (Nat.succ_pos _) _
  · rw [hput]
    have hcost : (internalTransaction transfers).cost = 4 * transfers.list.length + 3 := rfl
    have hwork : s.work = (s.queued.map Transaction.cost).sum + s.driverWork +
        (4 * transfers.list.length + 5 + (rest.map s.weight).sum) := by
      unfold State.work
      rw [hstack, List.map_cons, List.sum_cons]
      rfl
    rw [hwork]
    show (queue.ring.toList.map Transaction.cost).sum + s.driverWork +
      (1 + (0 + (rest.map s.weight).sum)) < _
    rw [hholds.ring.toList_eq, List.map_append, List.sum_append, List.map_singleton,
      List.sum_singleton, hcost]
    omega

/-- **Less is left** after every step, except in the waiting loop. -/
theorem work_run (h : Inv s) (ret : RetCode) {f : Frame} {rest : List Frame}
    (hstack : s.stack = f :: rest) (hwait : f ≠ .performWait) : (s.run ret).work < s.work := by
  unfold State.run
  rw [hstack]
  cases f with
  | pending switchTransaction => exact work_runPending h hstack
  | first => exact work_runFirst h hstack
  | transfer => exact work_runTransfer h hstack
  | xfer desc => exact work_runXfer h ret hstack
  | signal result => exact work_runSignal h hstack
  | event done => exact work_runEvent h hstack
  | scheduled => exact work_return hstack Nat.zero_lt_one _
  | performPut transfers => exact work_runPerformPut h hstack
  | performWait => exact absurd rfl hwait
  | performDone => exact work_return hstack Nat.zero_lt_one _

/-! ## §5 Completion -/

/-- The manager is in the middle of something, or an event is due. -/
def State.Going (s : State size) : Prop :=
  s.driver ≠ none ∨ ∃ f rest, s.stack = f :: rest ∧ f ≠ .performWait

theorem State.unblocked_of_tail {f : Frame} {rest : List Frame} (hstack : s.stack = f :: rest)
    (hf : f.blocks = true) (h : s.Unblocked) : ∀ g ∈ f :: rest, g.owner = false := by
  unfold State.Unblocked at h
  rw [hstack, List.dropWhile_cons, if_neg (by simp [hf])] at h
  exact h

/-- **Nobody blocks the owner** later on. -/
theorem unblocked_run (h : s.Unblocked) (ret : RetCode) {f : Frame} {rest : List Frame}
    (hstack : s.stack = f :: rest) (hwait : f ≠ .performWait) : (s.run ret).Unblocked := by
  obtain ⟨top, hstep⟩ := s.run_stack ret hstack
  have hdrop : ∀ {l : List Frame}, (∀ g ∈ l, g.blocks = false) →
      (l ++ rest).dropWhile (!·.blocks) = rest.dropWhile (!·.blocks) := by
    intro l hl
    apply List.dropWhile_append_of_pos
    intro g hg
    simp [hl g hg]
  unfold State.Unblocked
  rw [hstep.stack]
  cases hf : f.blocks with
  | false =>
    rw [hdrop (hstep.blocks hf)]
    unfold State.Unblocked at h
    rw [hstack, List.dropWhile_cons, if_pos (by simp [hf])] at h
    exact h
  | true =>
    have htail := State.unblocked_of_tail hstack hf h
    have hrest : ∀ g ∈ rest, g.owner = false := fun g hg => htail g (List.mem_cons_of_mem _ hg)
    obtain ⟨transfers, rfl⟩ : ∃ transfers, f = .performPut transfers := by
      cases f with
      | performPut transfers => exact ⟨transfers, rfl⟩
      | performWait => exact absurd rfl hwait
      | _ => cases hf
    intro g hg
    have hmem := (List.dropWhile_suffix _).subset hg
    rw [List.mem_append] at hmem
    rcases hmem with htop | hmem
    · rcases hstep.put transfers rfl with ⟨-, hnil⟩ | hput
      · rw [hnil] at htop
        cases htop
      · rw [hput] at htop
        simp only [List.mem_cons, List.not_mem_nil, or_false] at htop
        rcases htop with rfl | rfl <;> rfl
    · exact hrest g hmem

theorem unblocked_event (h : s.Unblocked) (done : Bool) : (s.event done).Unblocked := by
  unfold State.Unblocked
  show ∀ f ∈ (.event done :: s.stack : List Frame).dropWhile (!·.blocks), f.owner = false
  rw [List.dropWhile_cons, if_pos (by simp [Frame.blocks])]
  exact h

theorem proceed_eq (e : RetCode × Bool) {f : Frame} {rest : List Frame}
    (hstack : s.stack = f :: rest) (hwait : f ≠ .performWait) : s.proceed e = s.run e.1 := by
  unfold State.proceed
  rw [hstack]
  cases f <;> first | rfl | exact absurd rfl hwait

/-- **The manager goes on**: its invariant is kept, and less is left. -/
theorem proceed_spec (h : Inv s) (hunblocked : s.Unblocked) (hgoing : s.Going)
    (e : RetCode × Bool) :
    Inv (s.proceed e) ∧ (s.proceed e).Unblocked ∧ s.accepted <+: (s.proceed e).accepted ∧
      (s.proceed e).work < s.work := by
  have hevent : s.driver ≠ none → s.proceed e = s.event e.2 →
      Inv (s.proceed e) ∧ (s.proceed e).Unblocked ∧ s.accepted <+: (s.proceed e).accepted ∧
        (s.proceed e).work < s.work := by
    intro hdriver heq
    rw [heq]
    exact ⟨inv_event h _ hdriver, unblocked_event hunblocked _, List.prefix_refl _,
      work_event h _ hdriver⟩
  by_cases hrun : ∃ f rest, s.stack = f :: rest ∧ f ≠ .performWait
  · obtain ⟨f, rest, hstack, hwait⟩ := hrun
    obtain ⟨top, hstep⟩ := s.run_stack e.1 hstack
    rw [proceed_eq e hstack hwait]
    exact ⟨inv_run h _, unblocked_run hunblocked _ hstack hwait, hstep.accepted,
      work_run h _ hstack hwait⟩
  · have hdriver : s.driver ≠ none := hgoing.resolve_right hrun
    have hsome : s.driver.isSome = true := Option.isSome_iff_ne_none.mpr hdriver
    apply hevent hdriver
    unfold State.proceed
    cases hstack : s.stack with
    | nil => exact if_pos hsome
    | cons f rest =>
      have hwait : f = .performWait := by
        by_contra hne
        exact hrun ⟨f, rest, hstack, hne⟩
      rw [hwait]
      exact if_pos hsome

/-- **At the end everything has ended.** -/
theorem complete_of_not_going (h : Inv s) (hunblocked : s.Unblocked) (hnot : ¬ s.Going) :
    s.Complete := by
  unfold State.Going at hnot
  simp only [not_or, not_exists, not_and, ne_eq, not_not] at hnot
  obtain ⟨hdriver, hwait⟩ := hnot
  obtain ⟨hstack, hlook⟩ : (∀ f ∈ s.stack, f.owner = false) ∧
      s.stack.takeWhile (· ≠ .performWait) = [] := by
    cases hstack : s.stack with
    | nil => simp
    | cons f rest =>
      obtain rfl := hwait f rest hstack
      refine ⟨State.unblocked_of_tail hstack rfl hunblocked, ?_⟩
      rw [List.takeWhile_cons, if_neg (by decide)]
  have howners := h.owners
  unfold State.owners at howners
  rw [countP_owner_eq_zero hstack, hdriver] at howners
  have hnone : s.twi.pCurrentTransaction = none := by
    cases ht : s.twi.pCurrentTransaction with
    | none => rfl
    | some t =>
      rw [ht] at howners
      cases howners
  have hqueued : s.queued = [] := by
    by_contra hne
    have hmem := h.look hnone hne
    rw [hlook] at hmem
    cases hmem
  have hledger := h.ledger
  rw [State.unfinished_of_not_mem (pending_not_mem hstack), hnone, hqueued, Option.toList_none,
    List.append_nil, List.append_nil] at hledger
  exact hledger

/-- **Everything that was accepted comes to its end**, whatever the driver answers. -/
theorem reaches_complete (h : Inv s) (hunblocked : s.Unblocked) :
    Reaches State.proceed (fun s' => s.accepted <+: s'.accepted ∧ s'.Complete) s := by
  apply Reaches.of_measure (I := fun s' => Inv s' ∧ s'.Unblocked ∧ s.accepted <+: s'.accepted)
    State.work
  · rintro s' ⟨hinv, hunblocked', haccepted⟩
    by_cases hgoing : s'.Going
    · right
      intro e
      obtain ⟨hinv', hunblocked'', haccepted', hless⟩ := proceed_spec hinv hunblocked' hgoing e
      exact ⟨⟨hinv', hunblocked'', haccepted.trans haccepted'⟩, hless⟩
    · exact .inl ⟨haccepted, complete_of_not_going hinv hunblocked' hgoing⟩
  · exact ⟨h, hunblocked, List.prefix_refl _⟩

/-! ## §6 The manager -/

/-- **Between calls and events** the manager is idle if and only if everything has ended. -/
theorem isIdle_iff_complete (h : Inv s) (hstack : s.stack = []) : s.twi.isIdle ↔ s.Complete := by
  have hledger := h.ledger
  rw [State.unfinished_of_not_mem (by rw [hstack]; exact List.not_mem_nil)] at hledger
  constructor
  · intro hidle
    apply complete_of_not_going h
    · unfold State.Unblocked
      rw [hstack]
      simp
    · unfold State.Going
      rw [hstack]
      simp [(h.idle_owner hidle).2]
  · intro hcomplete
    unfold State.Complete at hcomplete
    rw [← hledger] at hcomplete
    have hnil := List.self_eq_append_right.mp hcomplete
    rw [List.append_eq_nil_iff] at hnil
    exact Option.toList_eq_nil_iff.mp hnil.1

instance (s : State size) : ∀ a, Decidable ((machine size).enabled s a)
  | .schedule pTransaction => inferInstanceAs (Decidable (pTransaction.callback ≠ .internal))
  | .perform _ => .isTrue trivial
  | .event _ => inferInstanceAs (Decidable (s.driver ≠ none))
  | .run _ => .isTrue trivial

instance (s : State size) : ∀ a, Decidable (QueueRoom s a)
  | .schedule _ => .isTrue trivial
  | .perform _ => .isTrue trivial
  | .event _ => .isTrue trivial
  | .run _ => inferInstanceAs (Decidable (_ → _))

/-- A write of a register address, and a read from there. -/
def writeRead : Transfers where
  list := [⟨0x20000000, 1, 0xA0, 0x01⟩, ⟨0x20000010, 4, 0xA1, 0x00⟩]
  number_pos := by decide
  number_lt := by decide

/-- A queue of one place. -/
def onePlace : State 1 := State.init (FixedArray.replicate 2 default) 0 0

/-- The first transaction is started. -/
def startOne : List Label :=
  [.schedule ⟨.user 1, writeRead⟩, .run 0, .run 0, .run 0, .run nrfSuccess, .run 0]

end NordicEsb.Twi
