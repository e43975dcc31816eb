import NordicEsb.Timer.Run
import NordicEsb.Timer.Api

/-!
# The List of Timers Stays a List

Whatever is called and whenever the interrupts come, the list at `mp_timer_id_head` ends, has no node
twice, and a timer leaves it by its own stop, by a stop of all timers or by expiring; all others keep
the time at which they expire.

This fails for one reason. `app_timer_stop` marks the timer as not running before it finds the queue
full. The timer stays in the list, and its next start inserts it a second time.

**Main result**: `listIntegrity_of_reachable`.
-/

namespace NordicEsb.Timer

open DeltaList LinkedList

variable {n : ℕ} {s t : AppTimer n} {d : List (Fin n × ℕ)} {i : Fin n}

/-! ## §1 The list of a state -/

/-- The nodes and ticks that a walk of so many steps meets. -/
def walkList (node : Fin n → TimerNode n) : ℕ → Option (Fin n) → List (Fin n × ℕ)
  | 0, _ => []
  | _ + 1, none => []
  | fuel + 1, some p => (p, (node p).ticksToExpire) :: walkList node fuel (node p).next

/-- The list at `mp_timer_id_head`: as many nodes as there are timers, unless it ends before. -/
def AppTimer.timerList (s : AppTimer n) : List (Fin n × ℕ) := walkList s.node n s.mpTimerIdHead

theorem walkList_eq : ∀ d fuel p, s.Chain p d → d.length ≤ fuel → walkList s.node fuel p = d := by
  intro d
  induction d with
  | nil =>
    intro fuel p hchain _
    obtain rfl : p = none := hchain
    cases fuel <;> rfl
  | cons q d ih =>
    intro fuel p hchain hfuel
    obtain ⟨rfl, hticks, hrest⟩ := hchain
    obtain ⟨fuel, rfl⟩ : ∃ k, fuel = k + 1 := ⟨fuel - 1, by simp at hfuel; omega⟩
    unfold walkList
    rw [ih fuel _ hrest (by simpa using hfuel)]
    dsimp only at hticks
    rw [hticks]

theorem AppTimer.Lists.timerList_eq (h : s.Lists d) : s.timerList = d :=
  walkList_eq d n _ h.chain h.length_le

/-! ## §2 The property -/

/-- Timer `i` leaves the list at this step, if it is in it: the list handler finds a stop of it or of
    all timers, or it has expired. -/
def AppTimer.Leaves (s : AppTimer n) (a : TimerLabel n) (i : Fin n) : Prop :=
  a = .swi ∧ (Stops s.mOpQueue i ∨ s.Expires s.timerList i)

/-- **The others keep their time**: a timer that does not leave the list is in it after the step, due
    `c` ticks earlier, where `m_ticks_latest` is `c` ticks later. -/
def KeepsOthers (cfg : TimerConfig) (s : AppTimer n) (a : TimerLabel n) : Prop :=
  ∀ i u, (i, u) ∈ dues 0 s.timerList → ¬ s.Leaves a i →
    ∃ c v, v + c = u ∧ (i, v) ∈ dues 0 (s.step cfg a).timerList ∧
      (s.step cfg a).mTicksLatest = (s.mTicksLatest + c) % (maxRtcCounterVal + 1)

/-- **The condition**: when the list handler runs, a timer that is started and still in the list
    runs, or it leaves the list before. -/
def Insertable (s : AppTimer n) (a : TimerLabel n) : Prop :=
  a = .swi → s.Insertable s.timerList

instance (s : AppTimer n) (d : List (Fin n × ℕ)) (i : Fin n) : Decidable (s.Expires d i) :=
  decidable_of_iff (∃ e ∈ dues 0 d, e.1 = i ∧ s.pending.any (fun c => decide (e.2 ≤ c)) = true) (by
    unfold AppTimer.Expires
    simp only [Option.any_eq_true, decide_eq_true_eq, Option.mem_def]
    constructor
    · rintro ⟨e, he, rfl, c, hc, hle⟩
      exact ⟨c, hc, e.2, hle, he⟩
    · rintro ⟨c, hc, u, hle, hu⟩
      exact ⟨_, hu, rfl, c, hc, hle⟩)

instance (s : AppTimer n) (d : List (Fin n × ℕ)) : Decidable (s.Insertable d) := by
  unfold AppTimer.Insertable
  infer_instance

instance (s : AppTimer n) (a : TimerLabel n) : Decidable (Insertable s a) := by
  unfold Insertable
  infer_instance

/-! ## §3 The invariant -/

/-- **The invariant**: the list is a delta list, and all numbers are in range. -/
structure ListInv (s : AppTimer n) : Prop where
  lists : ∃ d, s.Lists d
  latest : s.mTicksLatest ≤ maxRtcCounterVal
  period : ∀ i, (s.node i).ticksPeriodicInterval < 2 ^ 32
  params : ∀ i params, .start i params ∈ s.mOpQueue →
    params.ticksFirstInterval < 2 ^ 32 ∧ params.ticksPeriodicInterval < 2 ^ 32

theorem ListInv.timerList (h : ListInv s) : s.Lists s.timerList := by
  obtain ⟨d, hd⟩ := h.lists
  rwa [hd.timerList_eq]

theorem listInv_initial (h : s.Initial) : ListInv s where
  lists := ⟨[], h.head, List.nodup_nil, fun e he => absurd he List.not_mem_nil⟩
  latest := h.latest
  period i := by
    rw [(h.node i).2]
    decide
  params i params hi := by
    rw [h.queue] at hi
    exact absurd hi List.not_mem_nil

/-- What a step may do between two runs of the list handler. -/
structure Unlinked (s t : AppTimer n) : Prop where
  head : t.mpTimerIdHead = s.mpTimerIdHead
  latest : t.mTicksLatest = s.mTicksLatest
  core : ∀ i, (t.node i).next = (s.node i).next ∧
    (t.node i).ticksToExpire = (s.node i).ticksToExpire ∧
    (t.node i).ticksPeriodicInterval = (s.node i).ticksPeriodicInterval

theorem unlinked_setRunning (s : AppTimer n) (p : Fin n) (b : Bool) :
    Unlinked s (s.setNode p fun x => { x with isRunning := b }) := by
  refine ⟨rfl, rfl, fun i => ?_⟩
  by_cases hi : i = p
  · subst hi
    rw [setNode_self]
    exact ⟨rfl, rfl, rfl⟩
  · rw [setNode_ne _ _ hi]
    exact ⟨rfl, rfl, rfl⟩

theorem Unlinked.lists (h : Unlinked s t) (hd : s.Lists d) : t.Lists d := by
  refine ⟨?_, hd.nodup, hd.small⟩
  rw [h.head]
  apply Holds.congr hd.chain
  intro i _
  exact ⟨(h.core i).1, (h.core i).2.1⟩

theorem listInv_unlinked (hinv : ListInv s) (h : Unlinked s t)
    (hparams : ∀ i params, .start i params ∈ t.mOpQueue →
      params.ticksFirstInterval < 2 ^ 32 ∧ params.ticksPeriodicInterval < 2 ^ 32) : ListInv t where
  lists := ⟨_, h.lists hinv.timerList⟩
  latest := h.latest.symm ▸ hinv.latest
  period i := (h.core i).2.2.symm ▸ hinv.period i
  params := hparams

theorem userOpSchedule_unlinked (cfg : TimerConfig) (op : TimerUserOp n) (s : AppTimer n) :
    Unlinked s (userOpSchedule cfg op s).2 ∧
      ∀ op' ∈ (userOpSchedule cfg op s).2.mOpQueue, op' ∈ s.mOpQueue ∨ op' = op := by
  unfold userOpSchedule
  by_cases hroom : s.mOpQueue.length + 1 < cfg.opQueueSize
  · rw [if_pos hroom]
    refine ⟨⟨rfl, rfl, fun _ => ⟨rfl, rfl, rfl⟩⟩, fun op' hop' => ?_⟩
    simpa using hop'
  · rw [if_neg hroom]
    exact ⟨⟨rfl, rfl, fun _ => ⟨rfl, rfl, rfl⟩⟩, fun op' hop' => .inl hop'⟩

theorem Unlinked.trans {u : AppTimer n} (h : Unlinked s t) (h' : Unlinked t u) : Unlinked s u where
  head := h'.head.trans h.head
  latest := h'.latest.trans h.latest
  core i := ⟨(h'.core i).1.trans (h.core i).1, (h'.core i).2.1.trans (h.core i).2.1,
    (h'.core i).2.2.trans (h.core i).2.2⟩

theorem Unlinked.refl (s : AppTimer n) : Unlinked s s := ⟨rfl, rfl, fun _ => ⟨rfl, rfl, rfl⟩⟩

/-- A call queues an operation, and marks a timer as not running if it is a stop. -/
theorem call_unlinked (cfg : TimerConfig) (s : AppTimer n) {c : TimerCall n} (hc : c.InRange) :
    Unlinked s (s.call cfg c).2 ∧ ∀ i params, .start i params ∈ (s.call cfg c).2.mOpQueue →
      .start i params ∈ s.mOpQueue ∨
        params.ticksFirstInterval < 2 ^ 32 ∧ params.ticksPeriodicInterval < 2 ^ 32 := by
  cases c with
  | start timerId timeoutTicks pContext counter =>
    show Unlinked s (appTimerStart cfg timerId timeoutTicks pContext counter s).2 ∧ ∀ i params,
      .start i params ∈ (appTimerStart cfg timerId timeoutTicks pContext counter s).2.mOpQueue → _
    unfold appTimerStart
    cases timerId with
    | none => exact ⟨.refl s, fun i params hi => .inl hi⟩
    | some p =>
      dsimp only
      by_cases hmin : timeoutTicks < appTimerMinTimeoutTicks
      · rw [if_pos hmin]
        exact ⟨.refl s, fun i params hi => .inl hi⟩
      · rw [if_neg hmin]
        by_cases hhandler : (s.node p).pTimeoutHandler = none
        · rw [if_pos hhandler]
          exact ⟨.refl s, fun i params hi => .inl hi⟩
        · rw [if_neg hhandler]
          obtain ⟨hunlinked, hqueue⟩ := userOpSchedule_unlinked cfg (.start p ⟨counter, timeoutTicks,
            if (s.node p).mode = .repeated then timeoutTicks else 0, pContext⟩) s
          refine ⟨hunlinked, fun i params hi => ?_⟩
          rcases hqueue _ hi with hi | hi
          · exact .inl hi
          · right
            obtain ⟨-, rfl⟩ := TimerUserOp.start.inj hi
            refine ⟨hc.1, ?_⟩
            dsimp only
            split
            · exact hc.1
            · decide
  | stop timerId =>
    show Unlinked s (appTimerStop cfg timerId s).2 ∧ ∀ i params,
      .start i params ∈ (appTimerStop cfg timerId s).2.mOpQueue → _
    unfold appTimerStop
    cases timerId with
    | none => exact ⟨.refl s, fun i params hi => .inl hi⟩
    | some p =>
      dsimp only
      by_cases hhandler : (s.node p).pTimeoutHandler = none
      · rw [if_pos hhandler]
        exact ⟨.refl s, fun i params hi => .inl hi⟩
      · rw [if_neg hhandler]
        obtain ⟨hunlinked, hqueue⟩ := userOpSchedule_unlinked cfg (.stop p)
          (s.setNode p fun x => { x with isRunning := false })
        refine ⟨(unlinked_setRunning s p false).trans hunlinked, fun i params hi => ?_⟩
        exact .inl ((hqueue _ hi).resolve_right fun h => nomatch h)
  | stopAll =>
    obtain ⟨hunlinked, hqueue⟩ := userOpSchedule_unlinked cfg .stopAll s
    refine ⟨hunlinked, fun i params hi => ?_⟩
    exact .inl ((hqueue _ hi).resolve_right fun h => nomatch h)

theorem timeoutsCheckStart_unlinked (counter : ℕ) (s : AppTimer n) :
    Unlinked s (timeoutsCheckStart counter s) ∧
      (timeoutsCheckStart counter s).mOpQueue = s.mOpQueue := by
  unfold timeoutsCheckStart
  cases hhead : s.mpTimerIdHead with
  | none => exact ⟨.refl s, rfl⟩
  | some head => exact ⟨⟨hhead.symm ▸ hhead, rfl, fun _ => ⟨rfl, rfl, rfl⟩⟩, rfl⟩

/-- An iteration of the RTC interrupt marks a timer as not running. -/
theorem timeoutsCheckStep_unlinked (s : AppTimer n) :
    Unlinked s (timeoutsCheckStep s).2 ∧ (timeoutsCheckStep s).2.mOpQueue = s.mOpQueue := by
  have hend : ∀ c, Unlinked s (timeoutsCheckEnd c s) ∧
      (timeoutsCheckEnd c s).mOpQueue = s.mOpQueue :=
    fun c => ⟨⟨rfl, rfl, fun _ => ⟨rfl, rfl, rfl⟩⟩, rfl⟩
  unfold timeoutsCheckStep
  rcases s.check with _ | ⟨_ | p, elapsed, expired⟩
  · exact ⟨.refl s, rfl⟩
  · exact hend expired
  · dsimp only
    by_cases hlt : elapsed < (s.node p).ticksToExpire
    · rw [if_pos hlt]
      exact hend expired
    · rw [if_neg hlt]
      have hcheck : ∀ k, Unlinked s { s with check := k } :=
        fun k => ⟨rfl, rfl, fun _ => ⟨rfl, rfl, rfl⟩⟩
      by_cases hrunning : (s.node p).isRunning = true
      · rw [if_pos hrunning]
        exact ⟨(hcheck _).trans (unlinked_setRunning _ p false), rfl⟩
      · rw [if_neg hrunning]
        exact ⟨hcheck _, rfl⟩

/-! ## §4 Steps and runs -/

/-- **A run of the list handler** keeps the invariant, and the others keep their time. -/
theorem listInv_swi (cfg : TimerConfig) (h : ListInv s) (hsafe : s.Insertable s.timerList) :
    ∃ t, timerListHandler cfg s = some t ∧ ListInv t ∧
      ∀ i u, (i, u) ∈ dues 0 s.timerList → ¬ s.Leaves .swi i →
        ∃ c v, v + c = u ∧ (i, v) ∈ dues 0 t.timerList ∧
          t.mTicksLatest = (s.mTicksLatest + c) % (maxRtcCounterVal + 1) := by
  obtain ⟨m, d₁, u, d₂, t, ht, hprepared, hinserted, hfinished⟩ := timerListHandler_spec cfg
    h.timerList h.latest h.period (fun i params hi => (h.params i params hi).1) hsafe
  have hlists : t.Lists d₂ := by
    refine ⟨?_, hinserted.lists.nodup, hinserted.lists.small⟩
    rw [hfinished.head]
    exact hinserted.lists.chain.congr fun i _ => by rw [hfinished.node]
  have hqueue : t.mOpQueue = [] := by
    rw [hfinished.queue]
    exact (congrArg (·.1) hinserted.vars).trans hprepared.queue
  refine ⟨t, ht, ⟨⟨d₂, hlists⟩, ?_, fun i => ?_, fun i params hi => ?_⟩, fun i v hv hleaves => ?_⟩
  · have hm : m.mTicksLatest ≤ maxRtcCounterVal := by
      rcases hprepared.latest with ⟨hm, -⟩ | ⟨-, -, hm⟩
      · rw [hm]
        exact Nat.le_of_lt_succ (Nat.mod_lt _ (Nat.succ_pos _))
      · rw [hm]
        exact Nat.zero_le _
    rcases hfinished.latest with hl | ⟨-, hl⟩
    · rw [hl, hinserted.latest]
      exact hm
    · rw [hl]
      exact Nat.zero_le _
  -- The period is that of before, or that of the start that was applied.
  · rw [hfinished.node]
    by_cases hi : (m.node i).isRunning = true ∨ firstStart s.mOpQueue i = none
    · rw [period_of_data (hinserted.kept i hi), hprepared.period]
      exact h.period i
    · rw [not_or, Bool.not_eq_true] at hi
      obtain ⟨params, hparams⟩ := Option.ne_none_iff_exists'.mp hi.2
      have hperiod := congrArg TimerNode.ticksPeriodicInterval
        (hinserted.started i params hi.1 hparams)
      have hp : (u.node i).ticksPeriodicInterval = params.ticksPeriodicInterval := hperiod
      rw [hp]
      exact (h.params i params (mem_of_firstStart hparams)).2
  · rw [hqueue] at hi
    exact absurd hi List.not_mem_nil
  · have hstops : ¬ Stops s.mOpQueue i := fun hi => hleaves ⟨rfl, .inl hi⟩
    have hexpires : ¬ s.Expires s.timerList i := fun hi => hleaves ⟨rfl, .inr hi⟩
    obtain ⟨hmem, hle⟩ := hprepared.survives i v hv hstops hexpires
    have hmem₂ := (hinserted.mem_dues _).mpr (.inl hmem)
    refine ⟨s.pending.getD 0, v - s.pending.getD 0, Nat.sub_add_cancel hle, ?_, ?_⟩
    · rw [hlists.timerList_eq]
      exact hmem₂
    · rcases hprepared.latest with ⟨hm, -⟩ | ⟨-, hall, -⟩
      · rcases hfinished.latest with hl | ⟨hnone, -⟩
        · rw [hl, hinserted.latest, hm]
        · -- The list is not empty.
          have hchain := hinserted.lists.chain
          rw [hnone] at hchain
          rw [Holds.nil_of_none hchain] at hmem₂
          exact absurd hmem₂ List.not_mem_nil
      · exact absurd (.inl (hall i ((mem_keys_iff 0).mpr ⟨v, hv⟩))) hstops

/-- What does not touch the links keeps everybody's time. -/
theorem keepsOthers_unlinked {cfg : TimerConfig} {a : TimerLabel n} (h : ListInv s)
    (hstep : Unlinked s (s.step cfg a)) : KeepsOthers cfg s a := by
  intro i u hu _
  refine ⟨0, u, rfl, ?_, ?_⟩
  · rwa [(hstep.lists h.timerList).timerList_eq]
  · rw [hstep.latest]
    exact (Nat.mod_eq_of_lt (Nat.lt_succ_of_le h.latest)).symm

/-- **Step lemma.** -/
theorem ListInv.step (cfg : TimerConfig) {a : TimerLabel n} (h : ListInv s)
    (hen : s.Enabled cfg a) (hsafe : Insertable s a) :
    ListInv (s.step cfg a) ∧ KeepsOthers cfg s a := by
  cases a with
  | call c =>
    obtain ⟨hunlinked, hqueue⟩ := call_unlinked cfg s (c := c) hen
    refine ⟨listInv_unlinked h hunlinked fun i params hi => ?_, keepsOthers_unlinked h hunlinked⟩
    rcases hqueue i params hi with hi | hi
    · exact h.params i params hi
    · exact hi
  | rtc1 counter =>
    obtain ⟨hunlinked, hqueue⟩ := timeoutsCheckStart_unlinked counter s
    exact ⟨listInv_unlinked h hunlinked fun i params hi => h.params i params (hqueue ▸ hi),
      keepsOthers_unlinked h hunlinked⟩
  | check =>
    obtain ⟨hunlinked, hqueue⟩ := timeoutsCheckStep_unlinked s
    exact ⟨listInv_unlinked h hunlinked fun i params hi => h.params i params (hqueue ▸ hi),
      keepsOthers_unlinked h hunlinked⟩
  | swi =>
    obtain ⟨t, ht, hinv, hkeeps⟩ := listInv_swi cfg h (hsafe rfl)
    have hstep : s.step cfg .swi = t := by
      show (timerListHandler cfg s).getD s = t
      rw [ht]
      rfl
    unfold KeepsOthers
    rw [hstep]
    exact ⟨hinv, hkeeps⟩

/-- **The list of timers stays a list** in every run whose steps meet the condition: it ends, no node
    is in it twice, and its times do not decrease; the list handler ends; and every step leaves to
    the timers that stay in the list the time at which they expire. -/
theorem listIntegrity_of_reachable (cfg : TimerConfig) {s : AppTimer n}
    (h : (timerMachine cfg).ReachableUnder Insertable s) :
    s.Lists s.timerList ∧
      ((dues s.mTicksLatest s.timerList).Pairwise fun p q => p.2 ≤ q.2) ∧
      (Insertable s .swi → (timerListHandler cfg s).isSome = true) ∧
      ∀ a, s.Enabled cfg a → Insertable s a → KeepsOthers cfg s a := by
  have hinv : ListInv s := h.invariant (I := ListInv) (fun s hs => listInv_initial hs)
    fun s a hinv hen hsafe => (hinv.step cfg hen hsafe).1
  refine ⟨hinv.timerList, dues_sorted _ _, fun hsafe => ?_, fun a hen hsafe =>
    (hinv.step cfg hen hsafe).2⟩
  obtain ⟨t, ht, -⟩ := listInv_swi cfg hinv (hsafe rfl)
  rw [ht]
  rfl

/-- Two timers, with room for one operation. -/
def twoTimers : AppTimer 2 where
  node i := ⟨0, 0, 0, 0, false, if i = 0 then .repeated else .singleShot, some 0x100, 0, none⟩
  mpTimerIdHead := none
  mOpQueue := []
  mTicksLatest := 0
  mTicksElapsed _ := 0
  mTicksElapsedQReadInd := 0
  mTicksElapsedQWriteInd := 0
  mRtc1Running := false
  mRtc1Reset := false
  check := .idle

theorem twoTimers_initial : twoTimers.Initial :=
  ⟨rfl, rfl, rfl, rfl, rfl, rfl, fun _ => ⟨rfl, rfl⟩, by decide⟩

instance (cfg : TimerConfig) (s : AppTimer n) (a : TimerLabel n) :
    Decidable ((timerMachine cfg).enabled s a) :=
  inferInstanceAs (Decidable (s.Enabled cfg a))

/-- A timer expires and is restarted, and another one is stopped. -/
theorem listIntegrity_restart :
    ((timerMachine ⟨4, false⟩).run twoTimers
      [.call (.start (some 0) 100 0 0), .call (.start (some 1) 250 0 0), .swi, .rtc1 130, .check,
        .check, .swi, .call (.stop (some 1))]).Lists
      ((timerMachine ⟨4, false⟩).run twoTimers
        [.call (.start (some 0) 100 0 0), .call (.start (some 1) 250 0 0), .swi, .rtc1 130, .check,
          .check, .swi, .call (.stop (some 1))]).timerList :=
  (listIntegrity_of_reachable ⟨4, false⟩ (.of_follows (.start twoTimers_initial)
    (by decide +kernel : (timerMachine ⟨4, false⟩).Follows Insertable twoTimers
      [.call (.start (some 0) 100 0 0), .call (.start (some 1) 250 0 0), .swi, .rtc1 130, .check,
        .check, .swi, .call (.stop (some 1))]))).1

/-- **A stop that fails** leaves the timer in the list, not running. Its next start makes it point to
    itself. -/
theorem not_listIntegrity_noMem :
    ¬ ∀ (cfg : TimerConfig) (s : AppTimer 2), (timerMachine cfg).Reachable s →
      ∃ d, s.Lists d := by
  intro hall
  obtain ⟨d, hchain, -⟩ := hall ⟨2, false⟩ _ (.of_follows (.start twoTimers_initial)
    (by decide +kernel : (timerMachine ⟨2, false⟩).Follows (fun _ _ => True) twoTimers
      [.call (.start (some 0) 100 0 0), .swi, .call (.start (some 1) 200 0 0), .call (.stop (some 0)),
        .swi, .call (.start (some 0) 100 0 0), .swi]))
  have hhead : ((timerMachine ⟨2, false⟩).run twoTimers
      [.call (.start (some 0) 100 0 0), .swi, .call (.start (some 1) 200 0 0), .call (.stop (some 0)),
        .swi, .call (.start (some 0) 100 0 0), .swi]).mpTimerIdHead = some 0 := by decide +kernel
  rw [hhead] at hchain
  exact not_holds_self (by decide +kernel) hchain

end NordicEsb.Timer
