import NordicEsb.Twi.Manager

/-!
# What Holds at Every Step

Some frames own the current transaction: they start it, go on with it, or end it. There is one
owner as long as there is a current transaction, which is a frame or the driver. So no context
that comes in between changes what the owner works on.

- `Frame.owner` are the frames that own the current transaction
- `Inv` ties the queue, the owner and what has happened together
- `Inv.move` is a step of an owner, `inv_step` any step

**Main result** (`inv_of_reachable`): `Inv` holds in every state that is reached.
-/

namespace NordicEsb.Twi

variable {size : BitVec 8} {s : State size}

/-! ## §1 The invariant -/

/-- The frame owns the current transaction. -/
def Frame.owner : Frame → Bool
  | .pending switchTransaction => switchTransaction
  | .first | .transfer | .xfer _ | .signal _ | .event _ => true
  | .scheduled | .performPut _ | .performWait | .performDone => false

/-- The transactions in the queue. -/
def State.queued (s : State size) : List Transaction := s.twi.queue.ring.toList

/-- What is accepted and has not ended: behind its end a transaction is no longer one of them,
    though it still is the current one. -/
def State.unfinished (s : State size) : List Transaction :=
  (if .pending true ∈ s.stack then [] else s.twi.pCurrentTransaction.toList) ++ s.queued

/-- The owners of the current transaction. -/
def State.owners (s : State size) : ℕ :=
  s.stack.countP Frame.owner + s.driver.toList.length

/-- What the driver has done for the current transaction. -/
def State.done (s : State size) : List Op := s.performed.flatMap XferDesc.ops

/-- A transaction with a callback gets it at its end. -/
def Ended.call (e : Ended) : Option (Callback × RetCode) :=
  match e.transaction.callback with
  | .none => none
  | callback => some (callback, e.result)

/-- What an owner knows of the current transaction. -/
def State.FrameOk (s : State size) : Frame → Prop
  | .first => s.performed = []
  | .transfer => ∃ t, s.twi.pCurrentTransaction = some t ∧
      s.twi.currentTransferIdx.toNat < t.number ∧
      s.done = t.ops.take s.twi.currentTransferIdx.toNat
  | .xfer desc => ∃ t, s.twi.pCurrentTransaction = some t ∧
      s.twi.currentTransferIdx.toNat < t.number ∧
      s.done ++ desc.ops = t.ops.take (s.twi.currentTransferIdx.toNat + 1)
  | .event done => ∃ t, s.twi.pCurrentTransaction = some t ∧
      s.twi.currentTransferIdx.toNat < t.number ∧
      (done = true → s.done = t.ops.take (s.twi.currentTransferIdx.toNat + 1))
  | .signal result => ∃ t, s.twi.pCurrentTransaction = some t ∧
      (result = nrfSuccess → s.done = t.ops)
  | _ => True

/-- **The invariant.** -/
structure Inv (s : State size) : Prop where
  queue : s.twi.queue.Holds s.queued
  /-- everything that was accepted has ended, in order, or is unfinished -/
  ledger : s.ended.map Ended.transaction ++ s.unfinished = s.accepted
  called : s.called = s.ended.filterMap Ended.call
  success : ∀ e ∈ s.ended, e.result = nrfSuccess →
    e.performed.flatMap XferDesc.ops = e.transaction.ops
  /-- there is an owner if and only if there is a current transaction -/
  owners : s.owners = s.twi.pCurrentTransaction.toList.length
  /-- somebody is going to look into the queue, in front of all who wait -/
  look : s.twi.pCurrentTransaction = none → s.queued ≠ [] →
    .pending false ∈ s.stack.takeWhile (· ≠ .performWait)
  frames : ∀ f ∈ s.stack, s.FrameOk f
  /-- the driver works on the next transfer -/
  driver : ∀ desc, s.driver = some desc → s.FrameOk (.xfer desc)

/-! ## §2 Owners -/

/-- A frame that owns nothing knows nothing. -/
theorem State.frameOk_of_not_owner (s : State size) {f : Frame} (hf : f.owner = false) :
    s.FrameOk f := by
  cases f <;> first | exact trivial | cases hf

/-- **The frame on top is the owner**: there is no other one. -/
theorem Inv.top_owner (h : Inv s) {f : Frame} {rest : List Frame} (hstack : s.stack = f :: rest)
    (hf : f.owner = true) :
    (∀ g ∈ rest, g.owner = false) ∧ s.driver = none ∧
      ∃ t, s.twi.pCurrentTransaction = some t := by
  have howners := h.owners
  unfold State.owners at howners
  rw [hstack, List.countP_cons, if_pos hf] at howners
  cases ht : s.twi.pCurrentTransaction with
  | none =>
    rw [ht] at howners
    simp at howners
  | some t =>
    rw [ht, Option.toList_some, List.length_singleton] at howners
    refine ⟨?_, ?_, t, rfl⟩
    · have hzero : rest.countP Frame.owner = 0 := by omega
      intro g hg
      simpa using List.countP_eq_zero.mp hzero g hg
    · have hzero : s.driver.toList.length = 0 := by omega
      simpa using hzero

/-- **The driver is the owner**: no frame is. -/
theorem Inv.driver_owner (h : Inv s) {desc : XferDesc} (hdriver : s.driver = some desc) :
    (∀ g ∈ s.stack, g.owner = false) ∧ ∃ t, s.twi.pCurrentTransaction = some t := by
  have howners := h.owners
  unfold State.owners at howners
  rw [hdriver, Option.toList_some, List.length_singleton] at howners
  cases ht : s.twi.pCurrentTransaction with
  | none =>
    rw [ht] at howners
    simp at howners
  | some t =>
    rw [ht, Option.toList_some, List.length_singleton] at howners
    refine ⟨?_, t, rfl⟩
    have hzero : s.stack.countP Frame.owner = 0 := by omega
    intro g hg
    simpa using List.countP_eq_zero.mp hzero g hg

/-- **There is no owner** while there is no current transaction. -/
theorem Inv.idle_owner (h : Inv s) (hidle : s.twi.isIdle) :
    (∀ g ∈ s.stack, g.owner = false) ∧ s.driver = none := by
  have howners := h.owners
  have hnone : s.twi.pCurrentTransaction = none := hidle
  unfold State.owners at howners
  rw [hnone, Option.toList_none, List.length_nil] at howners
  have hzero : s.stack.countP Frame.owner = 0 := by omega
  have hdriver : s.driver.toList.length = 0 := by omega
  refine ⟨?_, by simpa using hdriver⟩
  intro g hg
  simpa using List.countP_eq_zero.mp hzero g hg

theorem countP_owner_eq_zero {stack : List Frame} (h : ∀ g ∈ stack, g.owner = false) :
    stack.countP Frame.owner = 0 := by
  apply List.countP_eq_zero.mpr
  intro g hg
  simp [h g hg]

theorem pending_not_mem {stack : List Frame} (h : ∀ g ∈ stack, g.owner = false) :
    .pending true ∉ stack := fun hmem => absurd (h _ hmem) (by decide)

/-- The transactions that are unfinished while the current one goes on. -/
theorem State.unfinished_of_not_mem (hpending : .pending true ∉ s.stack) :
    s.unfinished = s.twi.pCurrentTransaction.toList ++ s.queued := by
  unfold State.unfinished
  rw [if_neg hpending]

/-- **An owner goes on** with the current transaction. -/
theorem Inv.move (h : Inv s) {f g : Frame} {rest : List Frame} (hstack : s.stack = f :: rest)
    (hf : f.owner = true) (hf' : f ≠ .pending true) (hg : g.owner = true)
    (hg' : g ≠ .pending true) {s' : State size} (idx : BitVec 8)
    (hs' : s' = { s with
      twi := { s.twi with currentTransferIdx := idx }
      stack := g :: rest })
    (hok : s'.FrameOk g) : Inv s' := by
  obtain ⟨hrest, hdriver, t, ht⟩ := h.top_owner hstack hf
  have hnot := pending_not_mem hrest
  have hunfinished : s'.unfinished = s.unfinished := by
    rw [State.unfinished_of_not_mem, State.unfinished_of_not_mem, hs']
    · rfl
    · rw [hstack, List.mem_cons, not_or]
      exact ⟨Ne.symm hf', hnot⟩
    · rw [hs', List.mem_cons, not_or]
      exact ⟨Ne.symm hg', hnot⟩
  have howners := h.owners
  unfold State.owners at howners
  rw [hstack, List.countP_cons, if_pos hf] at howners
  have hframes : ∀ f ∈ s'.stack, s'.FrameOk f := by
    intro f' hmem
    rw [hs', List.mem_cons] at hmem
    rcases hmem with rfl | hmem
    · exact hok
    · exact s'.frameOk_of_not_owner (hrest f' hmem)
  constructor
  · rw [hs']
    exact h.queue
  · rw [hunfinished, hs']
    exact h.ledger
  · rw [hs']
    exact h.called
  · rw [hs']
    exact h.success
  · unfold State.owners
    rw [hs', List.countP_cons, if_pos hg]
    exact howners
  · intro hnone
    rw [hs'] at hnone
    rw [ht] at hnone
    cases hnone
  · exact hframes
  · intro desc hdesc
    rw [hs'] at hdesc
    rw [hdriver] at hdesc
    cases hdesc

/-! ## §3 Steps of owners -/

theorem inv_runFirst (h : Inv s) {rest : List Frame} (hstack : s.stack = .first :: rest) :
    Inv (s.runFirst rest) := by
  obtain ⟨-, -, t, ht⟩ := h.top_owner hstack rfl
  have hok : s.performed = [] := h.frames .first (by simp [hstack])
  apply h.move hstack rfl (by decide) (g := .transfer) rfl (by decide) 0 rfl
  refine ⟨t, ht, t.transfers.number_pos, ?_⟩
  show s.performed.flatMap XferDesc.ops = t.ops.take 0
  rw [hok, List.take_zero, List.flatMap_nil]

theorem inv_runTransfer (h : Inv s) {rest : List Frame} (hstack : s.stack = .transfer :: rest) :
    Inv (s.runTransfer rest) := by
  obtain ⟨t, ht, hidx, hdone⟩ : s.FrameOk .transfer := h.frames .transfer (by simp [hstack])
  obtain ⟨-, hlt, hops⟩ := startTransfer_ops t hidx
  unfold State.runTransfer
  rw [ht]
  apply h.move hstack rfl (by decide) (g := .xfer _) rfl (fun heq => by cases heq) _ rfl
  refine ⟨t, ht, hlt, ?_⟩
  rw [← hops, ← hdone]
  rfl

/-- The driver has started the transfer. -/
theorem inv_runXfer (h : Inv s) (ret : RetCode) {desc : XferDesc} {rest : List Frame}
    (hstack : s.stack = .xfer desc :: rest) : Inv (s.runXfer ret desc rest) := by
  have hok : s.FrameOk (.xfer desc) := h.frames (.xfer desc) (by simp [hstack])
  obtain ⟨hrest, hdriver, t, ht⟩ := h.top_owner hstack rfl
  have hnot := pending_not_mem hrest
  unfold State.runXfer
  by_cases hret : ret = nrfSuccess
  · rw [if_pos hret]
    have hunfinished : s.unfinished = s.twi.pCurrentTransaction.toList ++ s.queued := by
      apply State.unfinished_of_not_mem
      rw [hstack, List.mem_cons, not_or]
      exact ⟨fun heq => (by cases heq), hnot⟩
    constructor
    · exact h.queue
    · rw [State.unfinished_of_not_mem hnot]
      rw [← h.ledger, hunfinished]
      rfl
    · exact h.called
    · exact h.success
    · unfold State.owners
      rw [countP_owner_eq_zero hrest, ht]
      rfl
    · intro hnone
      rw [ht] at hnone
      cases hnone
    · intro f hmem
      exact State.frameOk_of_not_owner _ (hrest f hmem)
    · intro desc' hdesc
      cases hdesc
      exact hok
  · rw [if_neg hret]
    obtain ⟨t, ht, -, -⟩ := hok
    apply h.move hstack rfl (fun heq => by cases heq) (g := .signal ret) rfl
      (fun heq => by cases heq) s.twi.currentTransferIdx rfl
    exact ⟨t, ht, fun hsuccess => absurd hsuccess hret⟩

/-- **An event**: the transfer is over. -/
theorem inv_event (h : Inv s) (done : Bool) (hdriver : s.driver ≠ none) : Inv (s.event done) := by
  obtain ⟨desc, hdesc⟩ := Option.ne_none_iff_exists'.mp hdriver
  obtain ⟨t, ht, hidx, hops⟩ := h.driver desc hdesc
  obtain ⟨hstack, -⟩ := h.driver_owner hdesc
  have hnot := pending_not_mem hstack
  have hnot' : .pending true ∉ (s.event done).stack := by
    show .pending true ∉ .event done :: s.stack
    rw [List.mem_cons, not_or]
    exact ⟨fun heq => (by cases heq), hnot⟩
  constructor
  · exact h.queue
  · have hledger := h.ledger
    rw [State.unfinished_of_not_mem hnot] at hledger
    rw [State.unfinished_of_not_mem hnot']
    exact hledger
  · exact h.called
  · exact h.success
  · show (.event done :: s.stack : List Frame).countP Frame.owner + 0 =
      s.twi.pCurrentTransaction.toList.length
    rw [List.countP_cons, countP_owner_eq_zero hstack, ht]
    rfl
  · intro hnone
    have hnone' : s.twi.pCurrentTransaction = none := hnone
    rw [ht] at hnone'
    cases hnone'
  · intro f hmem
    rcases List.mem_cons.mp hmem with rfl | hmem
    · refine ⟨t, ht, hidx, ?_⟩
      intro hdone
      show (s.event done).done = t.ops.take (s.twi.currentTransferIdx.toNat + 1)
      rw [← hops]
      unfold State.done State.event
      dsimp only
      rw [if_pos hdone, hdesc, Option.toList_some, List.flatMap_append, List.flatMap_singleton]
    · exact State.frameOk_of_not_owner _ (hstack f hmem)
  · intro desc' hdesc'
    cases hdesc'

theorem inv_runEvent (h : Inv s) {done : Bool} {rest : List Frame}
    (hstack : s.stack = .event done :: rest) : Inv (s.runEvent done rest) := by
  obtain ⟨t, ht, hidx, hdone⟩ : s.FrameOk (.event done) := h.frames _ (by simp [hstack])
  have hlt : t.number < 2 ^ 8 := t.transfers.number_lt
  have hsucc : (s.twi.currentTransferIdx + 1).toNat = s.twi.currentTransferIdx.toNat + 1 := by
    bv_omega
  have hne : Frame.event done ≠ .pending true := fun heq => by cases heq
  unfold State.runEvent
  rw [ht]
  dsimp only
  cases done with
  | true =>
    rw [if_pos rfl]
    by_cases hmore : (s.twi.currentTransferIdx + 1).toNat < t.number
    · rw [if_pos hmore]
      apply h.move hstack rfl hne (g := .transfer) rfl (by decide) _ rfl
      refine ⟨t, ht, hmore, ?_⟩
      show s.done = t.ops.take (s.twi.currentTransferIdx + 1).toNat
      rw [hsucc]
      exact hdone rfl
    · rw [if_neg hmore]
      apply h.move hstack rfl hne (g := .signal nrfSuccess) rfl (fun heq => by cases heq)
        s.twi.currentTransferIdx rfl
      refine ⟨t, ht, ?_⟩
      intro _
      show s.done = t.ops
      rw [hdone rfl]
      -- It was the last transfer.
      apply List.take_of_length_le
      rw [t.length_ops]
      omega
  | false =>
    rw [if_neg (by decide)]
    apply h.move hstack rfl hne (g := .signal nrfErrorInternal) rfl (fun heq => by cases heq)
      s.twi.currentTransferIdx rfl
    exact ⟨t, ht, fun hsuccess => absurd hsuccess (by decide)⟩

/-- **The end of a transaction** is signalled once. -/
theorem inv_runSignal (h : Inv s) {result : RetCode} {rest : List Frame}
    (hstack : s.stack = .signal result :: rest) : Inv (s.runSignal result rest) := by
  obtain ⟨t, ht, hdone⟩ : s.FrameOk (.signal result) := h.frames _ (by simp [hstack])
  obtain ⟨hrest, hdriver, -⟩ := h.top_owner hstack rfl
  -- The transaction that has ended is still the current one.
  have hunfinished : s.unfinished = t :: s.queued := by
    rw [State.unfinished_of_not_mem, ht]
    · rfl
    · rw [hstack, List.mem_cons, not_or]
      exact ⟨fun heq => (by cases heq), pending_not_mem hrest⟩
  have hledger := h.ledger
  rw [hunfinished] at hledger
  obtain ⟨s', hs'⟩ : ∃ s', s' = s.runSignal result rest := ⟨_, rfl⟩
  rw [← hs']
  unfold State.runSignal at hs'
  rw [ht] at hs'
  dsimp only at hs'
  have hqueue : s'.twi.queue = s.twi.queue := by
    rw [hs']
    dsimp only
    cases t.callback <;> rfl
  have hcurrent : s'.twi.pCurrentTransaction = some t := by
    rw [hs']
    dsimp only
    cases t.callback <;> exact ht
  -- Only the callback is made; the queue is as it was.
  have hqueued : s'.queued = s.queued := by
    unfold State.queued
    rw [hqueue]
  have hended : s'.ended = s.ended ++ [⟨t, result, s.performed⟩] := by rw [hs']
  have hstack' : s'.stack = .pending true :: rest := by rw [hs']
  have hdriver' : s'.driver = none := by
    rw [hs']
    exact hdriver
  constructor
  · rw [hqueue, hqueued]
    exact h.queue
  · unfold State.unfinished
    rw [if_pos (by rw [hstack']; exact List.mem_cons_self), hended, hqueued, List.nil_append,
      List.map_append, List.append_assoc]
    rw [hs']
    exact hledger
  · rw [hended, List.filterMap_append, ← h.called, hs']
    dsimp only
    unfold Ended.call
    cases hcall : t.callback <;> simp [hcall]
  · intro e he hsuccess
    rw [hended, List.mem_append, List.mem_singleton] at he
    rcases he with he | rfl
    · exact h.success e he hsuccess
    · exact hdone hsuccess
  · unfold State.owners
    rw [hstack', hdriver', hcurrent, List.countP_cons, countP_owner_eq_zero hrest]
    rfl
  · intro hnone
    rw [hcurrent] at hnone
    cases hnone
  · intro f hmem
    rw [hstack', List.mem_cons] at hmem
    rcases hmem with rfl | hmem
    · exact trivial
    · exact State.frameOk_of_not_owner _ (hrest f hmem)
  · intro desc hdesc
    rw [hdriver'] at hdesc
    cases hdesc

/-- **The next transaction** is taken from the queue, or there is none. -/
theorem inv_take (h : Inv s) {rest : List Frame} (hrest : ∀ g ∈ rest, g.owner = false)
    (hdriver : s.driver = none) (hunfinished : s.unfinished = s.queued) :
    Inv (s.runPending true rest) := by
  have hledger := h.ledger
  rw [hunfinished] at hledger
  have hnot := pending_not_mem hrest
  unfold State.runPending
  rw [if_pos (.inl rfl)]
  -- The queue is empty and the manager rests, or its head becomes the current transaction.
  rcases queueGet_cases h.queue with ⟨hnil, hget⟩ | ⟨t, l, queue, hcons, hget, hholds⟩
  · rw [hget]
    dsimp only
    constructor
    · exact h.queue
    · rw [State.unfinished_of_not_mem hnot]
      exact hledger
    · exact h.called
    · exact h.success
    · unfold State.owners
      rw [countP_owner_eq_zero hrest, hdriver]
      rfl
    · intro _ hne
      exact absurd hnil hne
    · intro f hmem
      exact State.frameOk_of_not_owner _ (hrest f hmem)
    · intro desc hdesc
      rw [hdriver] at hdesc
      cases hdesc
  · rw [hget]
    dsimp only
    obtain ⟨s', hs'⟩ : ∃ s' : State size, s' = { s with
      twi := { s.twi with queue := queue, pCurrentTransaction := some t }
      performed := []
      stack := .first :: rest } := ⟨_, rfl⟩
    rw [← hs']
    have hqueued : s'.queued = l := by
      rw [hs']
      exact hholds.ring.toList_eq
    have hnot' : .pending true ∉ s'.stack := by
      rw [hs', List.mem_cons, not_or]
      exact ⟨by decide, hnot⟩
    constructor
    · rw [hqueued, hs']
      exact hholds
    · rw [State.unfinished_of_not_mem hnot', hqueued, hs']
      rw [hcons] at hledger
      exact hledger
    · rw [hs']
      exact h.called
    · rw [hs']
      exact h.success
    · unfold State.owners
      rw [hs', List.countP_cons, countP_owner_eq_zero hrest, hdriver]
      rfl
    · intro hnone
      rw [hs'] at hnone
      cases hnone
    · intro f hmem
      rw [hs', List.mem_cons] at hmem
      rcases hmem with rfl | hmem
      · rw [hs']
        rfl
      · exact State.frameOk_of_not_owner _ (hrest f hmem)
    · intro desc hdesc
      rw [hs'] at hdesc
      rw [hdriver] at hdesc
      cases hdesc

/-! ## §4 Steps of the others -/

/-- Nothing changes that an owner works on. -/
structure SameWork (s s' : State size) : Prop where
  idx : s'.twi.currentTransferIdx = s.twi.currentTransferIdx
  current : s'.twi.pCurrentTransaction = s.twi.pCurrentTransaction
  driver : s'.driver = s.driver
  ended : s'.ended = s.ended
  called : s'.called = s.called
  performed : s'.performed = s.performed
  owners : s'.stack.filter Frame.owner = s.stack.filter Frame.owner

namespace SameWork

variable {s' : State size} (hw : SameWork s s')
include hw

theorem mem_owner {f : Frame} (hf : f.owner = true) : f ∈ s'.stack ↔ f ∈ s.stack := by
  have hfilter : f ∈ s'.stack.filter Frame.owner ↔ f ∈ s.stack.filter Frame.owner := by
    rw [hw.owners]
  rw [List.mem_filter, List.mem_filter] at hfilter
  constructor
  · intro hmem
    exact (hfilter.mp ⟨hmem, hf⟩).1
  · intro hmem
    exact (hfilter.mpr ⟨hmem, hf⟩).1

theorem owners_eq : s'.owners = s.owners := by
  unfold State.owners
  rw [List.countP_eq_length_filter, List.countP_eq_length_filter, hw.owners, hw.driver]

theorem frameOk {f : Frame} (h : s.FrameOk f) : s'.FrameOk f := by
  have hidx := hw.idx
  have hcurrent := hw.current
  have hperformed := hw.performed
  unfold State.FrameOk State.done at h ⊢
  rw [hidx, hcurrent, hperformed]
  exact h

theorem frames (h : Inv s) : ∀ f ∈ s'.stack, s'.FrameOk f := by
  intro f hmem
  cases hf : f.owner with
  | true => exact hw.frameOk (h.frames f ((hw.mem_owner hf).mp hmem))
  | false => exact s'.frameOk_of_not_owner hf

/-- **Another context goes on**, and puts nothing into the queue. -/
theorem inv_keep (h : Inv s) (hqueue : s'.twi.queue = s.twi.queue)
    (haccepted : s'.accepted = s.accepted)
    (hlook : s'.twi.pCurrentTransaction = none → s'.queued ≠ [] →
      .pending false ∈ s'.stack.takeWhile (· ≠ .performWait)) : Inv s' := by
  have hqueued : s'.queued = s.queued := by
    unfold State.queued
    rw [hqueue]
  have hunfinished : s'.unfinished = s.unfinished := by
    unfold State.unfinished
    rw [hqueued, hw.current]
    simp only [hw.mem_owner (f := .pending true) rfl]
  constructor
  · rw [hqueue, hqueued]
    exact h.queue
  · rw [hw.ended, hunfinished, haccepted]
    exact h.ledger
  · rw [hw.called, hw.ended]
    exact h.called
  · rw [hw.ended]
    exact h.success
  · rw [hw.owners_eq, hw.current]
    exact h.owners
  · exact hlook
  · exact hw.frames h
  · intro desc hdesc
    rw [hw.driver] at hdesc
    exact hw.frameOk (h.driver desc hdesc)

/-- **A transaction is put into the queue**, and its context is going to look there. -/
theorem inv_put (h : Inv s) (t : Transaction) (hqueue : s'.twi.queue.Holds (s.queued ++ [t]))
    (haccepted : s'.accepted = s.accepted ++ [t])
    (hlook : .pending false ∈ s'.stack.takeWhile (· ≠ .performWait)) : Inv s' := by
  have hqueued : s'.queued = s.queued ++ [t] := hqueue.ring.toList_eq
  have hunfinished : s'.unfinished = s.unfinished ++ [t] := by
    unfold State.unfinished
    rw [hqueued, hw.current, List.append_assoc]
    simp only [hw.mem_owner (f := .pending true) rfl]
  constructor
  · rw [hqueued]
    exact hqueue
  · rw [hw.ended, hunfinished, haccepted, ← List.append_assoc, h.ledger]
  · rw [hw.called, hw.ended]
    exact h.called
  · rw [hw.ended]
    exact h.success
  · rw [hw.owners_eq, hw.current]
    exact h.owners
  · intro _ _
    exact hlook
  · exact hw.frames h
  · intro desc hdesc
    rw [hw.driver] at hdesc
    exact hw.frameOk (h.driver desc hdesc)

end SameWork

/-- A frame that does not look leaves it to the ones below. -/
theorem Inv.look_tail (h : Inv s) {f : Frame} {rest : List Frame} (hstack : s.stack = f :: rest)
    (hf : f ≠ .pending false) (hnone : s.twi.pCurrentTransaction = none) (hne : s.queued ≠ []) :
    f ≠ .performWait ∧ .pending false ∈ rest.takeWhile (· ≠ .performWait) := by
  have hlook := h.look hnone hne
  rw [hstack, List.takeWhile_cons] at hlook
  by_cases hwait : f = .performWait
  · rw [if_neg (by simp [hwait])] at hlook
    cases hlook
  · rw [if_pos (by simpa using hwait), List.mem_cons] at hlook
    exact ⟨hwait, hlook.resolve_left (Ne.symm hf)⟩

theorem inv_runPending (h : Inv s) {switchTransaction : Bool} {rest : List Frame}
    (hstack : s.stack = .pending switchTransaction :: rest) :
    Inv (s.runPending switchTransaction rest) := by
  cases switchTransaction with
  | true =>
    obtain ⟨hrest, hdriver, -⟩ := h.top_owner hstack rfl
    apply inv_take h hrest hdriver
    unfold State.unfinished
    rw [if_pos (by rw [hstack]; exact List.mem_cons_self), List.nil_append]
  | false =>
    by_cases hidle : s.twi.isIdle
    · obtain ⟨hnot, hdriver⟩ := h.idle_owner hidle
      have hnone : s.twi.pCurrentTransaction = none := hidle
      have htake : s.runPending false rest = s.runPending true rest := by
        unfold State.runPending
        rw [if_pos (.inr hidle), if_pos (.inl rfl)]
      rw [htake]
      apply inv_take h
      · intro g hg
        apply hnot
        rw [hstack]
        exact List.mem_cons_of_mem _ hg
      · exact hdriver
      · rw [State.unfinished_of_not_mem (pending_not_mem hnot), hnone]
        rfl
    · unfold State.runPending
      rw [if_neg (by simpa using hidle)]
      refine SameWork.inv_keep ?_ h ?_ ?_ ?_
      · refine ⟨rfl, rfl, rfl, rfl, rfl, rfl, ?_⟩
        rw [hstack]
        rfl
      · rfl
      · rfl
      · intro hnone
        exact absurd hnone hidle

theorem inv_runPerformPut (h : Inv s) {transfers : Transfers} {rest : List Frame}
    (hstack : s.stack = .performPut transfers :: rest) : Inv (s.runPerformPut transfers rest) := by
  have howners : rest.filter Frame.owner = s.stack.filter Frame.owner := by
    rw [hstack]
    rfl
  unfold State.runPerformPut
  rcases queuePut_cases h.queue (internalTransaction transfers) with
    ⟨-, hput⟩ | ⟨queue, -, hput, hholds⟩
  · rw [hput]
    refine SameWork.inv_keep ?_ h ?_ ?_ ?_
    · exact ⟨rfl, rfl, rfl, rfl, rfl, rfl, howners⟩
    · rfl
    · rfl
    · intro hnone hne
      exact (h.look_tail hstack (fun heq => by cases heq) hnone hne).2
  · rw [hput]
    refine SameWork.inv_put ?_ h (internalTransaction transfers) ?_ ?_ ?_
    · exact ⟨rfl, rfl, rfl, rfl, rfl, rfl, howners⟩
    · exact hholds
    · rfl
    · simp

theorem inv_schedule (h : Inv s) (t : Transaction) : Inv (s.schedule t) := by
  unfold State.schedule
  rcases queuePut_cases h.queue t with ⟨-, hput⟩ | ⟨queue, -, hput, hholds⟩
  · rw [hput]
    refine SameWork.inv_keep ?_ h ?_ ?_ ?_
    · exact ⟨rfl, rfl, rfl, rfl, rfl, rfl, rfl⟩
    · rfl
    · rfl
    · exact h.look
  · rw [hput]
    refine SameWork.inv_put ?_ h t ?_ ?_ ?_
    · exact ⟨rfl, rfl, rfl, rfl, rfl, rfl, rfl⟩
    · exact hholds
    · rfl
    · simp

theorem inv_perform (h : Inv s) (transfers : Transfers) : Inv (s.perform transfers) := by
  unfold State.perform
  split_ifs
  · refine SameWork.inv_keep ?_ h ?_ ?_ ?_
    · exact ⟨rfl, rfl, rfl, rfl, rfl, rfl, rfl⟩
    · rfl
    · rfl
    · exact h.look
  · refine SameWork.inv_keep ?_ h ?_ ?_ ?_
    · exact ⟨rfl, rfl, rfl, rfl, rfl, rfl, rfl⟩
    · rfl
    · rfl
    · intro hnone hne
      rw [List.takeWhile_cons, if_pos (by simp)]
      exact List.mem_cons_of_mem _ (h.look hnone hne)

/-- A call returns. -/
theorem inv_return (h : Inv s) {f : Frame} {rest : List Frame} (hstack : s.stack = f :: rest)
    (hf : f.owner = false) (hf' : f ≠ .pending false) (returned : List RetCode) :
    Inv { s with returned := returned, stack := rest } := by
  refine SameWork.inv_keep ?_ h ?_ ?_ ?_
  · refine ⟨rfl, rfl, rfl, rfl, rfl, rfl, ?_⟩
    rw [hstack, List.filter_cons, if_neg (by simp [hf])]
  · rfl
  · rfl
  · intro hnone hne
    exact (h.look_tail hstack hf' hnone hne).2

theorem inv_runPerformWait (h : Inv s) {rest : List Frame}
    (hstack : s.stack = .performWait :: rest) : Inv (s.runPerformWait rest) := by
  unfold State.runPerformWait
  split_ifs
  · exact h
  · refine SameWork.inv_keep ?_ h ?_ ?_ ?_
    · refine ⟨rfl, rfl, rfl, rfl, rfl, rfl, ?_⟩
      rw [hstack]
      rfl
    · rfl
    · rfl
    · intro hnone hne
      exact absurd rfl (h.look_tail hstack (by decide) hnone hne).1

/-! ## §5 Every step -/

/-- **The frame on top goes on.** -/
theorem inv_run (h : Inv s) (ret : RetCode) : Inv (s.run ret) := by
  unfold State.run
  cases hstack : s.stack with
  | nil => exact h
  | cons f rest =>
    cases f with
    | pending switchTransaction => exact inv_runPending h hstack
    | first => exact inv_runFirst h hstack
    | transfer => exact inv_runTransfer h hstack
    | xfer desc => exact inv_runXfer h ret hstack
    | signal result => exact inv_runSignal h hstack
    | event done => exact inv_runEvent h hstack
    | scheduled => exact inv_return h hstack rfl (by decide) _
    | performPut transfers => exact inv_runPerformPut h hstack
    | performWait => exact inv_runPerformWait h hstack
    | performDone => exact inv_return h hstack rfl (by decide) _

theorem inv_init (pBuffer : FixedArray (size.toNat + 1) Transaction)
    (currentTransferIdx internalTransactionResult : BitVec 8) :
    Inv (State.init pBuffer currentTransferIdx internalTransactionResult) := by
  have hholds := AppTwiQueue.init_holds pBuffer
  have hqueued : (State.init pBuffer currentTransferIdx internalTransactionResult).queued = [] :=
    hholds.ring.toList_eq
  constructor
  · rw [hqueued]
    exact hholds
  · rw [State.unfinished_of_not_mem (by simp [State.init]), hqueued]
    rfl
  · rfl
  · simp [State.init]
  · rfl
  · intro _ hne
    exact absurd hqueued hne
  · simp [State.init]
  · simp [State.init]

theorem inv_step (h : Inv s) {a : Label} (hen : (machine size).enabled s a) : Inv (s.step a) := by
  cases a with
  | schedule t => exact inv_schedule h t
  | perform transfers => exact inv_perform h transfers
  | event done => exact inv_event h done hen
  | run ret => exact inv_run h ret

/-- **The invariant holds** in every state that is reached. -/
theorem inv_of_reachable {C : State size → Label → Prop}
    (h : (machine size).ReachableUnder C s) : Inv s := by
  apply h.invariant
  · rintro s ⟨pBuffer, currentTransferIdx, internalTransactionResult, rfl⟩
    exact inv_init pBuffer currentTransferIdx internalTransactionResult
  · intro s a hinv hen _
    exact inv_step hinv hen

end NordicEsb.Twi
