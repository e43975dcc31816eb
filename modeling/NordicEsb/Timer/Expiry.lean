import NordicEsb.Timer.Order

/-!
# Timers That Fire and Timers That Expire

Expiry is worked out twice. `timer_timeouts_check` calls the timeout handlers of the timers that have
expired, and leaves the list as it is. `expired_timers_handler` takes the timers out, once the list
handler runs; all it has is the sum of the deltas that `timer_timeouts_check` came to last.

- `ExpiryTrace` keeps the timers whose handlers were called, and those that did not run any more when
  they were reached
- the sum of the deltas cuts the list where the interrupt stopped, so both find the same timers
- a timer that is stopped after it fired is taken out by the deletions
- a periodic timer that is late by more than a period is due at once

**Main result**: `expiryAgrees_of_reachable`.
-/

namespace NordicEsb.Timer

open DeltaList LinkedList

variable {n : ℕ} {s t b c : AppTimer n} {d pre : List (Fin n × ℕ)} {i : Fin n}

/-! ## §1 The passes of the list handler -/

/-- The list handler up to the operations that it takes from the queue: the states after the
    deletions, after the expired timers and after the restarts. -/
def listPasses (s : AppTimer n) : Option (AppTimer n × AppTimer n × AppTimer n) := do
  let ((ticksElapsed, ticksHaveElapsed), a) := elapsedTicksAcquire s
  let b ← listDeletionsHandler a
  let (pRestartListHead, c) ← expirePass ticksHaveElapsed ticksElapsed s.mTicksLatest b
  let t ← restartLoop (n + 1) pRestartListHead c
  some (b, c, t)

/-- **The list handler goes on after its passes** with the operations. -/
theorem timerListHandler_passes (cfg : TimerConfig) (h : listPasses s = some (b, c, t)) :
    ∃ f : AppTimer n → AppTimer n, (∀ u, Finished u (f u)) ∧
      timerListHandler cfg s = (t.mOpQueue.foldlM insertOp { t with mOpQueue := [] }).map f := by
  unfold listPasses at h
  dsimp only at h
  cases hb : listDeletionsHandler (elapsedTicksAcquire s).2 with
  | none =>
    rw [hb] at h
    cases h
  | some b' =>
    rw [hb] at h
    simp only [Option.bind_eq_bind, Option.bind_some] at h
    cases hc : expirePass (elapsedTicksAcquire s).1.2 (elapsedTicksAcquire s).1.1 s.mTicksLatest
        b' with
    | none =>
      rw [hc] at h
      cases h
    | some r =>
      rw [hc] at h
      simp only [Option.bind_some] at h
      cases ht : restartLoop (n + 1) r.1 r.2 with
      | none =>
        rw [ht] at h
        cases h
      | some t' =>
        rw [ht] at h
        obtain ⟨rfl, rfl, rfl⟩ : b' = b ∧ r.2 = c ∧ t' = t := by simpa using h
        refine ⟨fun u => { (if (decide (b'.mpTimerIdHead ≠ (elapsedTicksAcquire s).2.mpTimerIdHead) ||
          (elapsedTicksAcquire s).1.2 || decide (u.mpTimerIdHead ≠ r.2.mpTimerIdHead)) = true then
            compareRegUpdate cfg u else u) with mRtc1Reset := false },
          fun u => finished_compareRegUpdate cfg u _, ?_⟩
        unfold timerListHandler listInsertionsHandler
        dsimp only
        rw [hb]
        simp only [Option.bind_eq_bind, Option.bind_some]
        rw [hc]
        simp only [Option.bind_some]
        rw [ht]
        simp only [Option.bind_some]
        cases t'.mOpQueue.foldlM insertOp { t' with mOpQueue := [] } <;> rfl

/-- An insertion does not touch `m_ticks_latest`. -/
theorem timerListInsert_latest {p : Fin n} (h : timerListInsert p s = some t) :
    t.mTicksLatest = s.mTicksLatest := by
  unfold timerListInsert at h
  cases hhead : s.mpTimerIdHead with
  | none =>
    rw [hhead] at h
    obtain rfl := Option.some.inj h
    rfl
  | some head =>
    rw [hhead] at h
    dsimp only at h
    split_ifs at h with hle
    · obtain rfl := Option.some.inj h
      rfl
    · obtain ⟨r, -, rfl⟩ := Option.map_eq_some_iff.mp h
      unfold insertLink
      cases r.2.2 <;> rfl

theorem insertOps_latest {q : List (TimerUserOp n)} (h : q.foldlM insertOp s = some t) :
    t.mTicksLatest = s.mTicksLatest := by
  induction q generalizing s with
  | nil =>
    obtain rfl := Option.some.inj h
    rfl
  | cons op q ih =>
    rw [List.foldlM_cons] at h
    obtain ⟨u, hu, h⟩ := Option.bind_eq_some_iff.mp h
    rw [ih h]
    unfold insertOp at hu
    cases op with
    | start p params =>
      dsimp only at hu
      by_cases hrunning : (s.node p).isRunning = true
      · rw [if_pos hrunning] at hu
        obtain rfl := Option.some.inj hu
        rfl
      · rw [if_neg hrunning] at hu
        unfold insertTimer at hu
        exact (timerListInsert_latest hu).trans rfl
    | stop p =>
      obtain rfl := Option.some.inj hu
      rfl
    | stopAll =>
      obtain rfl := Option.some.inj hu
      rfl

/-- Without a start the operations insert nothing. -/
theorem insertOps_of_noStart {q : List (TimerUserOp n)} (h : ∀ i params, .start i params ∉ q) :
    q.foldlM insertOp s = some s := by
  induction q with
  | nil => rfl
  | cons op q ih =>
    have hrest := ih fun i params hi => h i params (List.mem_cons_of_mem _ hi)
    rw [List.foldlM_cons]
    cases op with
    | start p params => exact absurd (List.mem_cons_self ..) (h p params)
    | stop p => exact hrest
    | stopAll => exact hrest

/-- A timer that is at most `2 ^ 23 + 1` ticks late is due one period after it was due, or at once. -/
theorem insertTicks_periodic {latest ticks u period : ℕ} (hu : u ≤ ticks)
    (hlate : ticks ≤ u + 2 ^ 23 + 1) (hperiod : period < 2 ^ 32) :
    insertTicks ((latest + ticks) % (maxRtcCounterVal + 1)) ((latest + u) % (maxRtcCounterVal + 1))
      period = u + period - ticks := by
  unfold insertTicks ticksDiffGet maxRtcCounterVal
  split
  · omega
  · dsimp only
    split <;> omega

/-- **What the passes do** to a list: stops come first, then time passes, and what was periodic comes
    back. -/
structure Passed (s b c t : AppTimer n) (d d₁ d₂ d₃ : List (Fin n × ℕ)) : Prop where
  deleted : b.Lists d₁
  expired : c.Lists d₂
  restarted : t.Lists d₃
  mem_deleted : ∀ e, e ∈ dues 0 d₁ ↔ e ∈ dues 0 d ∧ ¬ Stops s.mOpQueue e.1
  mem_expired : ∀ i, i ∈ keys d₂ ↔ i ∈ keys d₁ ∧ ¬ s.Expires d i
  again : ∀ i u, (i, u) ∈ dues 0 d₁ → s.Expires d i → (s.node i).ticksPeriodicInterval ≠ 0 →
    (i, insertTicks ((s.mTicksLatest + s.pending.getD 0) % (maxRtcCounterVal + 1))
      ((s.mTicksLatest + u) % (maxRtcCounterVal + 1)) (s.node i).ticksPeriodicInterval) ∈ dues 0 d₃ ∧
      (t.node i).isRunning = true
  queue : t.mOpQueue = s.mOpQueue
  latest : t.mTicksLatest = (s.mTicksLatest + s.pending.getD 0) % (maxRtcCounterVal + 1) ∨
    t.mTicksLatest = 0 ∧ d₁ = []

/-- **The passes end.** -/
theorem listPasses_spec (h : ListInv s) :
    ∃ b c t d₁ d₂ d₃, listPasses s = some (b, c, t) ∧ Passed s b c t s.timerList d₁ d₂ d₃ := by
  obtain ⟨a, ha, hnode, hhead, hqueue, -, -, -, hal⟩ := elapsedTicksAcquire_spec s
  have hal := hal h.latest
  have hlists : a.Lists s.timerList := by
    refine ⟨?_, h.timerList.nodup, h.timerList.small⟩
    rw [hhead]
    exact h.timerList.chain.congr fun i _ => by rw [hnode]
  obtain ⟨b, d₁, hb, hdel⟩ := deleteOps_spec a.mOpQueue a s.timerList hlists
  have hqueue₁ : b.mOpQueue = s.mOpQueue := (congrArg (·.1) hdel.vars).trans hqueue
  rw [hqueue] at hdel
  have hdata : ∀ i, (b.node i).ticksPeriodicInterval = (s.node i).ticksPeriodicInterval := by
    intro i
    show (b.node i).core.ticksPeriodicInterval = _
    rw [hdel.core, hnode]
    rfl
  -- If all timers of the list are stopped, it is empty now.
  have hlatest : b.mTicksLatest = (s.mTicksLatest + s.pending.getD 0) % (maxRtcCounterVal + 1) ∨
      b.mTicksLatest = 0 ∧ d₁ = [] := by
    rcases hdel.latest with ⟨hl, -⟩ | ⟨-, hall, hl⟩
    · exact .inl (hl.trans hal)
    · refine .inr ⟨hl, ?_⟩
      by_contra hne
      obtain ⟨q, hq⟩ := List.exists_mem_of_ne_nil d₁ hne
      obtain ⟨u, hu⟩ := (mem_keys_iff 0).mp (List.mem_map_of_mem (f := Prod.fst) hq)
      obtain ⟨hu, hstops⟩ := (hdel.mem_dues _).mp hu
      exact hstops (.inl (hall _ ((mem_keys_iff 0).mpr ⟨u, hu⟩)))
  have hb' : listDeletionsHandler a = some b := hb
  have hpasses : ∀ {r c t}, expirePass s.pending.isSome (s.pending.getD 0) s.mTicksLatest b =
      some (r, c) → restartLoop (n + 1) r c = some t → listPasses s = some (b, c, t) := by
    intro r c t hc ht
    unfold listPasses
    rw [ha]
    dsimp only
    rw [hb']
    simp only [Option.bind_eq_bind, Option.bind_some]
    rw [hc]
    simp only [Option.bind_some]
    rw [ht]
    rfl
  cases hpending : s.pending with
  | none =>
    rw [hpending] at hpasses hlatest
    have hexpires : ∀ i, ¬ s.Expires s.timerList i := by
      rintro i ⟨c, hc, -⟩
      rw [hpending] at hc
      cases hc
    refine ⟨b, b, b, d₁, d₁, d₁, hpasses rfl rfl, ⟨hdel.lists, hdel.lists, hdel.lists, hdel.mem_dues,
      fun i => ?_, fun i u _ hexp => absurd hexp (hexpires i), hqueue₁, hpending ▸ hlatest⟩⟩
    exact ⟨fun hi => ⟨hi, hexpires i⟩, fun hi => hi.1⟩
  | some e =>
    rw [hpending] at hpasses hlatest
    obtain ⟨r, c, l, hc, hexp⟩ := expiredTimersLoop_spec s.mTicksLatest d₁ (n + 1) e 0 none [] b
      hdel.lists.chain rfl (by simpa using hdel.lists.nodup) (Nat.lt_succ_of_le hdel.lists.length_le)
    have hexpires : ∀ i ∈ keys d₁, s.Expires s.timerList i ↔ ∃ u ≤ e, (i, u) ∈ dues 0 d₁ := by
      intro i hi
      obtain ⟨v, hv⟩ := (mem_keys_iff 0).mp hi
      have hstops := ((hdel.mem_dues _).mp hv).2
      unfold AppTimer.Expires
      rw [hpending]
      constructor
      · rintro ⟨e', he, u, hu, hmem⟩
        obtain rfl := Option.some.inj he
        exact ⟨u, hu, (hdel.mem_dues _).mpr ⟨hmem, hstops⟩⟩
      · rintro ⟨u, hu, hmem⟩
        exact ⟨e, rfl, u, hu, ((hdel.mem_dues _).mp hmem).1⟩
    have hcut : ∀ i, i ∈ keys (expired e d₁) ↔ ∃ u ≤ e, (i, u) ∈ dues 0 d₁ := by
      intro i
      rw [mem_keys_iff 0]
      apply exists_congr
      intro u
      rw [mem_dues_expired, Nat.zero_add, and_comm]
    have hsplit := hdel.lists.nodup
    rw [← keys_expired_append e d₁] at hsplit
    have hleft : ∀ i, i ∈ keys (expire e d₁) ↔ i ∈ keys d₁ ∧ ¬ s.Expires s.timerList i := by
      intro i
      have hmem : i ∈ keys d₁ ↔ i ∈ keys (expired e d₁) ∨ i ∈ keys (expire e d₁) := by
        rw [← keys_expired_append e d₁, List.mem_append]
      constructor
      · intro hi
        have hid := hmem.mpr (.inr hi)
        refine ⟨hid, fun hexpire => ?_⟩
        rw [hexpires i hid, ← hcut] at hexpire
        exact List.disjoint_of_nodup_append hsplit hexpire hi
      · rintro ⟨hid, hnot⟩
        rw [hexpires i hid, ← hcut] at hnot
        exact (hmem.mp hid).resolve_left hnot
    have hlists₂ : c.Lists (expire e d₁) := by
      refine ⟨hexp.chain, nodup_expire hdel.lists.nodup, fun q hq => ?_⟩
      have hmem := (mem_dues_expire (b := 0) (e := e) (l := d₁) (p := (q.1, q.2 + e))).mp
        (mem_dues_add.mpr hq)
      have hsmall := hdel.lists.small _ hmem.1
      dsimp only at hsmall
      omega
    -- What has been collected is what was due, with the time at which it was due.
    have hagain : ∀ i u, (i, u) ∈ dues 0 (expired e d₁) →
        (s.node i).ticksPeriodicInterval ≠ 0 → (c.node i).ticksFirstInterval =
            (s.node i).ticksPeriodicInterval ∧
          (c.node i).ticksAtStart = (s.mTicksLatest + u) % (maxRtcCounterVal + 1) := by
      intro i u hu hperiod
      have hdata' := hexp.again i u hu
      unfold TimerNode.again at hdata'
      have hperiod' : (b.node i).data.ticksPeriodicInterval ≠ 0 := by
        show (b.node i).ticksPeriodicInterval ≠ 0
        rwa [hdata]
      rw [if_pos hperiod'] at hdata'
      constructor
      · have hfirst := congrArg TimerNode.ticksFirstInterval hdata'
        exact hfirst.trans (hdata i)
      · exact congrArg TimerNode.ticksAtStart hdata'
    have hcollected : ∀ i, i ∈ keys l ↔
        i ∈ keys (expired e d₁) ∧ (s.node i).ticksPeriodicInterval ≠ 0 := by
      intro i
      rw [hexp.mem_restart, hdata]
      simp
    obtain ⟨t, d₃, ht, hlists₃, hmem, -, hrun, hvars, hlatest₃, -⟩ := restartLoop_spec l (n + 1) r c
      (expire e d₁) hlists₂ hexp.restart hexp.nodup
      (fun i hi => by
        obtain ⟨hi, hperiod⟩ := (hcollected i).mp hi
        obtain ⟨u, hu⟩ := (mem_keys_iff 0).mp hi
        rw [(hagain i u hu hperiod).1]
        exact h.period i)
      (by
        have hlen := length_le_card (List.Nodup.of_append_right hexp.nodup)
        rw [Fintype.card_fin] at hlen
        omega)
    have hlatest₁ : t.mTicksLatest = b.mTicksLatest := hlatest₃.trans hexp.latest
    refine ⟨b, c, t, d₁, expire e d₁, d₃, hpasses hc ht, ⟨hdel.lists, hlists₂, hlists₃, hdel.mem_dues,
      hleft, fun i u hu hexpire hperiod => ?_, ?_, ?_⟩⟩
    · have hid : i ∈ keys d₁ := (mem_keys_iff 0).mpr ⟨u, hu⟩
      have hi : i ∈ keys (expired e d₁) := (hcut i).mpr ((hexpires i hid).mp hexpire)
      obtain ⟨v, hv⟩ := (mem_keys_iff 0).mp hi
      obtain rfl := dues_unique hdel.lists.nodup hu (mem_dues_expired.mp hv).1
      have hil := (hcollected i).mpr ⟨hi, hperiod⟩
      obtain ⟨hfirst, hstart⟩ := hagain i u hv hperiod
      constructor
      · refine (hmem _).mpr (.inr ⟨hil, ?_⟩)
        have hnonempty : d₁ ≠ [] := by
          rintro rfl
          cases hid
        rw [hpending, hfirst, hstart, hexp.latest, (hlatest.resolve_right fun h => hnonempty h.2)]
      · exact congrArg TimerNode.isRunning (hrun i hil)
    · exact (congrArg (·.1) (hvars.trans hexp.vars)).trans hqueue₁
    · rw [hlatest₁, hpending]
      exact hlatest

/-! ## §2 The record -/

/-- The timer that the next iteration of `timer_timeouts_check` finds expired. -/
def AppTimer.reached (s : AppTimer n) : Option (Fin n) :=
  match s.check with
  | .checking (some pTimer) ticksElapsed _ =>
    if ticksElapsed < (s.node pTimer).ticksToExpire then none else some pTimer
  | _ => none

theorem reached_end {o : Option (Fin n)} {elapsed expired : ℕ}
    (hcheck : s.check = .checking o elapsed expired)
    (hlast : ∀ j ∈ o, elapsed < (s.node j).ticksToExpire) : s.reached = none := by
  unfold AppTimer.reached
  rw [hcheck]
  cases o with
  | none => rfl
  | some p => exact if_pos (hlast p rfl)

/-- The timer module, the timers whose handlers were called since the list handler ran, and those
    that were already stopped when they were reached. -/
structure ExpiryTrace (n : ℕ) where
  timer : AppTimer n
  called : List (Fin n)
  stopped : List (Fin n)

namespace ExpiryTrace

/-- One step. A timer whose handler was called is not stopped for that. -/
def step (cfg : TimerConfig) (s : ExpiryTrace n) (a : TimerLabel n) : ExpiryTrace n where
  timer := s.timer.step cfg a
  called :=
    match a with
    | .check => s.called ++ (timeoutsCheckStep s.timer).1.toList
    | _ => s.called
  stopped :=
    match a with
    | .check => s.stopped ++ s.timer.reached.toList.filter fun p =>
        !(s.timer.node p).isRunning && decide (p ∉ s.called)
    | _ => s.stopped

/-- Any list of timers, after a run of the list handler. -/
structure Starts (s : ExpiryTrace n) : Prop where
  list : ListInv s.timer
  check : s.timer.check = .idle
  pending : s.timer.pending = none
  called : s.called = []
  stopped : s.stopped = []

/-- The calls and the RTC interrupts before the next run of the list handler. -/
def machine (cfg : TimerConfig) : Machine (ExpiryTrace n) (TimerLabel n) where
  start := Starts
  enabled s a := a ≠ .swi ∧ s.timer.Enabled cfg a
  step := step cfg

/-- **The condition**: the counter has not gone on for a whole period since the list handler ran, as
    far as the last interrupt can tell. -/
def CounterAdvances (s : ExpiryTrace n) : TimerLabel n → Prop
  | .rtc1 counter => ∀ c ∈ s.timer.pending, c ≤ ticksDiffGet counter s.timer.mTicksLatest
  | _ => True

/-- The sum of the deltas of the timers that were reached. -/
def ticks (s : ExpiryTrace n) : ℕ :=
  ((s.timer.timerList.filter fun q => decide (q.1 ∈ s.called ∨ q.1 ∈ s.stopped)).map
    Prod.snd).sum

/-! ## §3 The property -/

/-- `expired_timers_handler` takes the timer out. -/
def Removed (b c : AppTimer n) (i : Fin n) : Prop := i ∈ keys b.timerList ∧ i ∉ keys c.timerList

instance (b c : AppTimer n) (i : Fin n) : Decidable (Removed b c i) :=
  inferInstanceAs (Decidable (_ ∧ _))

/-- The handlers that were called are those of the timers that `expired_timers_handler` takes out,
    except those that were stopped, each called once. -/
def CalledIffRemoved (s : ExpiryTrace n) : Prop :=
  s.called.Nodup ∧ ∀ b c t, listPasses s.timer = some (b, c, t) →
    ∀ i, i ∈ s.called ↔ Removed b c i ∧ i ∉ s.stopped

/-- `m_ticks_latest` goes on by the sum of the deltas. -/
def LatestAdvances (cfg : TimerConfig) (s : ExpiryTrace n) : Prop :=
  ∀ t, timerListHandler cfg s.timer = some t →
    t.mTicksLatest = (s.timer.mTicksLatest + s.ticks) % (maxRtcCounterVal + 1)

/-- A periodic timer is due one period after it was due. -/
def RestartsOnTime (s : ExpiryTrace n) : Prop :=
  ∀ b c t, listPasses s.timer = some (b, c, t) → ∀ i u, (i, u) ∈ dues 0 s.timer.timerList →
    Removed b c i → (s.timer.node i).ticksPeriodicInterval ≠ 0 →
      ∃ v, (i, v) ∈ dues 0 t.timerList ∧ v + s.ticks = u + (s.timer.node i).ticksPeriodicInterval

/-- **What the list handler does**, with the stops and the limits of the counter. The list after the
    restarts is the one that the list handler leaves, unless timers are started. -/
structure PassesAgree (cfg : TimerConfig) (s : ExpiryTrace n) (b c t : AppTimer n) : Prop where
  removed : ∀ i, ¬ Stops s.timer.mOpQueue i → (i ∈ s.called ↔ Removed b c i ∧ i ∉ s.stopped)
  deleted : ∀ i, Stops s.timer.mOpQueue i → i ∉ keys b.timerList
  latest : ∀ u, timerListHandler cfg s.timer = some u →
    u.mTicksLatest = (s.timer.mTicksLatest + s.ticks) % (maxRtcCounterVal + 1) ∨
      u.mTicksLatest = 0 ∧ (b.mpTimerIdHead = none ∨ u.mpTimerIdHead = none)
  restarts : ∀ i u, (i, u) ∈ dues 0 s.timer.timerList → Removed b c i →
    (s.timer.node i).ticksPeriodicInterval ≠ 0 → s.ticks ≤ u + 2 ^ 23 + 1 →
      (i, u + (s.timer.node i).ticksPeriodicInterval - s.ticks) ∈ dues 0 t.timerList ∧
        (t.node i).isRunning = true ∧
        t.mTicksLatest = (s.timer.mTicksLatest + s.ticks) % (maxRtcCounterVal + 1)
  ends : (∀ i params, .start i params ∉ s.timer.mOpQueue) →
    ∃ u, timerListHandler cfg s.timer = some u ∧ u.timerList = t.timerList

/-- **The two agree.** -/
def Agrees (cfg : TimerConfig) (s : ExpiryTrace n) : Prop :=
  s.called.Nodup ∧ ∃ b c t, listPasses s.timer = some (b, c, t) ∧ PassesAgree cfg s b c t

/-! ## §4 The invariant -/

/-- **The invariant**: what has been reached is what the list handler will find expired, and what the
    interrupt that is running has visited. -/
structure ExpiryInv (s : ExpiryTrace n) (pre : List (Fin n × ℕ)) : Prop where
  list : ListInv s.timer
  once : s.called.Nodup
  off : ∀ i, i ∈ s.called ∨ i ∈ s.stopped → (s.timer.node i).isRunning = false
  apart : ∀ i ∈ s.called, i ∉ s.stopped
  reached : ∀ i, i ∈ s.called ∨ i ∈ s.stopped ↔
    s.timer.Expires s.timer.timerList i ∨ i ∈ keys pre
  sum : ∀ c ∈ s.timer.pending, ((expired c s.timer.timerList).map Prod.snd).sum = c
  check : s.timer.Visited pre

theorem expiryInv_start {cfg : TimerConfig} {s : ExpiryTrace n} (h : (machine cfg).start s) :
    ExpiryInv s [] := by
  obtain ⟨hlist, hcheck, hpending, hcalled, hstopped⟩ := h
  refine ⟨hlist, ?_, fun i hi => ?_, fun i hi => ?_, fun i => ?_, fun c hc => ?_, ?_⟩
  · rw [hcalled]
    exact List.nodup_nil
  · rw [hcalled, hstopped] at hi
    simp at hi
  · rw [hcalled] at hi
    cases hi
  · rw [hcalled, hstopped]
    unfold AppTimer.Expires
    rw [hpending]
    simp
  · rw [hpending] at hc
    cases hc
  · unfold AppTimer.Visited
    rw [hcheck]

/-- Calls leave the list and the interrupt alone, and make no timer run. -/
theorem call_frame (cfg : TimerConfig) (s : AppTimer n) (c : TimerCall n) :
    (s.call cfg c).2.pending = s.pending ∧ (s.call cfg c).2.check = s.check ∧
      ∀ i, (s.node i).isRunning = false → ((s.call cfg c).2.node i).isRunning = false := by
  have hschedule : ∀ (op : TimerUserOp n) (t : AppTimer n),
      (userOpSchedule cfg op t).2.pending = t.pending ∧
        (userOpSchedule cfg op t).2.check = t.check ∧
        (userOpSchedule cfg op t).2.node = t.node := by
    intro op t
    unfold userOpSchedule
    split <;> exact ⟨rfl, rfl, rfl⟩
  have hkeep : ∀ op, (userOpSchedule cfg op s).2.pending = s.pending ∧
      (userOpSchedule cfg op s).2.check = s.check ∧ ∀ i, (s.node i).isRunning = false →
        ((userOpSchedule cfg op s).2.node i).isRunning = false := by
    intro op
    obtain ⟨hpending, hcheck, hnode⟩ := hschedule op s
    refine ⟨hpending, hcheck, fun i hi => ?_⟩
    rwa [hnode]
  have hsame : s.pending = s.pending ∧ s.check = s.check ∧
      ∀ i, (s.node i).isRunning = false → (s.node i).isRunning = false := ⟨rfl, rfl, fun _ => id⟩
  cases c with
  | start timerId timeoutTicks pContext counter =>
    unfold AppTimer.call appTimerStart
    cases timerId with
    | none => exact hsame
    | some p =>
      dsimp only
      by_cases hmin : timeoutTicks < appTimerMinTimeoutTicks
      · rw [if_pos hmin]
        exact hsame
      · rw [if_neg hmin]
        by_cases hhandler : (s.node p).pTimeoutHandler = none
        · rw [if_pos hhandler]
          exact hsame
        · rw [if_neg hhandler]
          exact hkeep _
  | stop timerId =>
    unfold AppTimer.call appTimerStop
    cases timerId with
    | none => exact hsame
    | some p =>
      dsimp only
      by_cases hhandler : (s.node p).pTimeoutHandler = none
      · rw [if_pos hhandler]
        exact hsame
      · rw [if_neg hhandler]
        obtain ⟨hpending, hcheck, hnode⟩ := hschedule (.stop p)
          (s.setNode p fun x => { x with isRunning := false })
        refine ⟨hpending, hcheck, fun i hi => ?_⟩
        rw [hnode]
        by_cases hip : i = p
        · subst hip
          rw [setNode_self]
        · rwa [setNode_ne _ _ hip]
  | stopAll => exact hkeep .stopAll

/-- What does not touch the record keeps the invariant. -/
theorem ExpiryInv.unlinked {s : ExpiryTrace n} {t : AppTimer n} (h : ExpiryInv s pre)
    (hlist : ListInv t) (hunlinked : Unlinked s.timer t) (hpending : t.pending = s.timer.pending)
    (hcheck : t.Visited pre)
    (hoff : ∀ i, (s.timer.node i).isRunning = false → (t.node i).isRunning = false) :
    ExpiryInv { s with timer := t } pre := by
  have hsame : t.timerList = s.timer.timerList :=
    (hunlinked.lists h.list.timerList).timerList_eq
  refine ⟨hlist, h.once, fun i hi => hoff i (h.off i hi), h.apart, fun i => ?_, fun c hc => ?_, hcheck⟩
  · rw [hsame, expires_iff hpending]
    exact h.reached i
  · rw [hsame]
    exact h.sum c (hpending ▸ hc)

/-- **The interrupt ends**: its sum is that of what it has visited. -/
theorem ExpiryInv.checkEnd {s : ExpiryTrace n} {o : Option (Fin n)} {elapsed expired : ℕ}
    (h : ExpiryInv s pre) (hlist : ListInv (timeoutsCheckEnd expired s.timer))
    (hcheck : s.timer.check = .checking o elapsed expired)
    (hlast : ∀ j ∈ o, elapsed < (s.timer.node j).ticksToExpire) :
    ExpiryInv { s with timer := timeoutsCheckEnd expired s.timer } [] := by
  obtain ⟨hsum, hcut, hexpires, hpre⟩ := visited_end h.check hcheck hlast
  refine ⟨hlist, h.once, h.off, h.apart, fun i => ?_, fun c hc => ?_, rfl⟩
  · -- What had expired before is among what has been visited now.
    rw [h.reached i]
    constructor
    · rintro (hi | hi)
      · exact .inl ((hexpires i).mpr (hpre i hi))
      · exact .inl ((hexpires i).mpr hi)
    · rintro (hi | hi)
      · exact .inr ((hexpires i).mp hi)
      · cases hi
  · rw [pending_timeoutsCheckEnd] at hc
    obtain rfl := Option.some.inj hc
    show ((DeltaList.expired expired s.timer.timerList).map Prod.snd).sum = expired
    rw [hcut, hsum]

/-- **A timer is reached.** -/
theorem ExpiryInv.visit {cfg : TimerConfig} {s : ExpiryTrace n} {p : Fin n} {elapsed expired : ℕ}
    (h : ExpiryInv s pre) (hlist : ListInv (timeoutsCheckStep s.timer).2)
    (hcheck : s.timer.check = .checking (some p) elapsed expired)
    (hdue : ¬ elapsed < (s.timer.node p).ticksToExpire) :
    ExpiryInv (s.step cfg .check) (pre ++ [(p, (s.timer.node p).ticksToExpire)]) := by
  obtain ⟨hcalls, hpending, -, -, hrunning⟩ := timeoutsCheckStep_visit hcheck hdue
  have hvisited := visited_visit h.check h.list hcheck hdue
  obtain ⟨hunlinked, -⟩ := timeoutsCheckStep_unlinked s.timer
  -- The walk only reads the list.
  have hsame : (timeoutsCheckStep s.timer).2.timerList = s.timer.timerList :=
    (hunlinked.lists h.list.timerList).timerList_eq
  have hreached : s.timer.reached = some p := by
    unfold AppTimer.reached
    rw [hcheck]
    exact if_neg hdue
  -- The timer reached is called if it still runs; else it was stopped, or called before.
  have hcalled : (s.step cfg .check).called =
      s.called ++ if (s.timer.node p).isRunning = true then [p] else [] := by
    show s.called ++ (timeoutsCheckStep s.timer).1.toList = _
    rw [hcalls]
    split <;> rfl
  have hstopped : (s.step cfg .check).stopped = s.stopped ++
      if (s.timer.node p).isRunning = false ∧ p ∉ s.called then [p] else [] := by
    show s.stopped ++ s.timer.reached.toList.filter _ = _
    rw [hreached]
    cases hon : (s.timer.node p).isRunning <;> by_cases hp : p ∈ s.called <;> simp [hon, hp]
  have hmem : ∀ i, i ∈ (s.step cfg .check).called ∨ i ∈ (s.step cfg .check).stopped ↔
      (i ∈ s.called ∨ i ∈ s.stopped) ∨ i = p := by
    intro i
    rw [hcalled, hstopped]
    cases (s.timer.node p).isRunning <;> by_cases hp : p ∈ s.called <;> simp [hp] <;> grind
  refine ⟨hlist, ?_, fun i hi => ?_, fun i hi => ?_, fun i => ?_, fun c hc => ?_, hvisited⟩
  · -- A timer that has been called does not run, so it is not called again.
    rw [hcalled]
    by_cases hon : (s.timer.node p).isRunning = true
    · rw [if_pos hon]
      refine h.once.append (List.nodup_singleton p) fun i hi hip => ?_
      obtain rfl := List.mem_singleton.mp hip
      have hoff := h.off i (.inl hi)
      rw [hon] at hoff
      cases hoff
    · rw [if_neg hon, List.append_nil]
      exact h.once
  · show ((timeoutsCheckStep s.timer).2.node i).isRunning = false
    by_contra hon
    obtain ⟨hon, hne⟩ := (hrunning i).mp (Bool.eq_true_of_not_eq_false hon)
    have hoff := h.off i (((hmem i).mp hi).resolve_right hne)
    rw [hon] at hoff
    cases hoff
  · rw [hcalled] at hi
    rw [hstopped]
    have hoff := h.off i
    have hapart := h.apart i
    cases hon : (s.timer.node p).isRunning with
    | true =>
      simp only [hon, if_true, List.mem_append, List.mem_singleton] at hi ⊢
      rintro (hi' | hi')
      · rcases hi with hi | rfl
        · exact hapart hi hi'
        · rw [hoff (.inr hi')] at hon
          cases hon
      · simp at hi'
    | false =>
      have hi : i ∈ s.called := by simpa [hon] using hi
      have hip : p ∉ s.called → i ≠ p := fun hp hip => hp (hip ▸ hi)
      simp only [List.mem_append, not_or]
      refine ⟨hapart hi, fun hi' => ?_⟩
      split at hi'
      · rename_i hp
        exact hip hp.2 (List.mem_singleton.mp hi')
      · cases hi'
  · rw [hmem, h.reached]
    show _ ↔ (timeoutsCheckStep s.timer).2.Expires (timeoutsCheckStep s.timer).2.timerList i ∨ _
    rw [hsame, expires_iff hpending]
    simp only [keys, List.map_append, List.mem_append, List.map_cons, List.map_nil,
      List.mem_singleton]
    tauto
  · show ((DeltaList.expired c (timeoutsCheckStep s.timer).2.timerList).map Prod.snd).sum = c
    rw [hsame]
    exact h.sum c (hpending ▸ hc)

/-- **Step lemma.** -/
theorem expiryInv_step {cfg : TimerConfig} {s : ExpiryTrace n} {a : TimerLabel n}
    (h : ∃ pre, ExpiryInv s pre) (hen : (machine cfg).enabled s a) (hcounter : CounterAdvances s a) :
    ∃ pre, ExpiryInv ((machine cfg).step s a) pre := by
  obtain ⟨pre, h⟩ := h
  obtain ⟨hswi, hen⟩ := hen
  have hlist : ListInv (s.timer.step cfg a) :=
    (ListInv.step cfg h.list hen fun ha => absurd ha hswi).1
  cases a with
  | call c =>
    have hunlinked := (call_unlinked cfg s.timer (c := c) hen).1
    obtain ⟨hpending, hcheck, hoff⟩ := call_frame cfg s.timer c
    have hsame := (hunlinked.lists h.list.timerList).timerList_eq
    exact ⟨pre, h.unlinked hlist hunlinked hpending
      (visited_unlinked hunlinked hsame hpending hcheck h.check) hoff⟩
  | rtc1 counter =>
    obtain ⟨hunlinked, -⟩ := timeoutsCheckStart_unlinked counter s.timer
    obtain ⟨hpending, hnode, hvisited⟩ := visited_start h.list h.check hen.1 hcounter
    have hpre : pre = [] := visited_idle h.check hen.1
    subst hpre
    refine ⟨[], h.unlinked hlist hunlinked hpending hvisited fun i hi => ?_⟩
    show ((timeoutsCheckStart counter s.timer).node i).isRunning = false
    rwa [hnode]
  | check =>
    cases hcheck : s.timer.check with
    | idle => exact absurd hcheck hen
    | checking o elapsed expired =>
      by_cases hlast : ∀ j ∈ o, elapsed < (s.timer.node j).ticksToExpire
      · have hend := timeoutsCheckStep_end hcheck hlast
        have hreached := reached_end hcheck hlast
        have hstep : (machine cfg).step s .check =
            { s with timer := timeoutsCheckEnd expired s.timer } := by
          show ExpiryTrace.mk (timeoutsCheckStep s.timer).2
            (s.called ++ (timeoutsCheckStep s.timer).1.toList)
            (s.stopped ++ s.timer.reached.toList.filter _) = _
          rw [hend, hreached]
          simp
        rw [hstep]
        have hlist : ListInv (timeoutsCheckStep s.timer).2 := hlist
        rw [hend] at hlist
        exact ⟨[], h.checkEnd hlist hcheck hlast⟩
      · push Not at hlast
        obtain ⟨p, hp, hdue⟩ := hlast
        obtain rfl : o = some p := hp
        exact ⟨_, h.visit hlist hcheck (by omega)⟩
  | swi => exact absurd rfl hswi

/-! ## §5 The agreement -/

/-- The sum of the deltas is what the interrupt has left for the list handler. -/
theorem ExpiryInv.ticks_eq {s : ExpiryTrace n} (h : ExpiryInv s []) :
    s.ticks = s.timer.pending.getD 0 := by
  unfold ticks
  have hreached := h.reached
  unfold AppTimer.Expires at hreached
  cases hpending : s.timer.pending with
  | none =>
    have hnone : s.timer.timerList.filter (fun q => decide (q.1 ∈ s.called ∨ q.1 ∈ s.stopped)) =
        [] := by
      rw [List.filter_eq_nil_iff]
      intro q _
      rw [decide_eq_true_iff, hreached, hpending]
      simp
    rw [hnone]
    rfl
  | some e =>
    rw [filter_expired (e := e) h.list.timerList.nodup fun q _ => ?_]
    · exact h.sum e hpending
    · rw [decide_eq_true_iff, hreached, hpending,
        mem_keys_iff 0 (l := expired e s.timer.timerList)]
      constructor
      · rintro (⟨c, hc, u, hu, hmem⟩ | hq)
        · obtain rfl := Option.some.inj hc
          exact ⟨u, mem_dues_expired.mpr ⟨hmem, by omega⟩⟩
        · cases hq
      · rintro ⟨u, hu⟩
        obtain ⟨hmem, hle⟩ := mem_dues_expired.mp hu
        exact .inl ⟨e, rfl, u, by simpa using hle, hmem⟩

/-- **When the interrupt is over**, the list handler takes out what has fired. -/
theorem ExpiryInv.agrees {s : ExpiryTrace n} (h : ExpiryInv s []) (cfg : TimerConfig) :
    Agrees cfg s := by
  obtain ⟨b, c, t, d₁, d₂, d₃, hpasses, hpassed⟩ := listPasses_spec h.list
  obtain ⟨f, hfinished, hhandler⟩ := timerListHandler_passes cfg hpasses
  -- The list handler removes a timer if it is not stopped first and has expired.
  have hremoved : ∀ i, Removed b c i ↔
      ¬ Stops s.timer.mOpQueue i ∧ s.timer.Expires s.timer.timerList i := by
    intro i
    unfold Removed
    rw [hpassed.deleted.timerList_eq, hpassed.expired.timerList_eq, hpassed.mem_expired]
    have hdeleted : i ∈ keys d₁ ↔ i ∈ keys s.timer.timerList ∧ ¬ Stops s.timer.mOpQueue i := by
      rw [mem_keys_iff 0, mem_keys_iff 0]
      simp only [hpassed.mem_deleted, exists_and_right]
    constructor
    · rintro ⟨hi, hnot⟩
      rw [not_and, not_not] at hnot
      exact ⟨(hdeleted.mp hi).2, hnot hi⟩
    · rintro ⟨hstops, e, he, u, hu, hmem⟩
      refine ⟨hdeleted.mpr ⟨(mem_keys_iff 0).mpr ⟨u, hmem⟩, hstops⟩, fun hi => ?_⟩
      exact hi.2 ⟨e, he, u, hu, hmem⟩
  refine ⟨h.once, b, c, t, hpasses, fun i hstops => ?_, fun i hstops hi => ?_, fun u hu => ?_,
    fun i u hu hrem hperiod hlate => ?_, fun hnone => ?_⟩
  · rw [hremoved]
    have hreached := h.reached i
    have hapart := h.apart i
    simp only [List.map_nil, List.not_mem_nil, or_false] at hreached
    tauto
  · rw [hpassed.deleted.timerList_eq] at hi
    obtain ⟨u, hu⟩ := (mem_keys_iff 0).mp hi
    exact ((hpassed.mem_deleted _).mp hu).2 hstops
  · rw [hhandler, Option.map_eq_some_iff] at hu
    obtain ⟨v, hv, rfl⟩ := hu
    have hlatest : v.mTicksLatest = t.mTicksLatest := (insertOps_latest hv).trans rfl
    rw [h.ticks_eq]
    rcases (hfinished v).latest with hsame | ⟨hhead, hzero⟩
    · rw [hsame, hlatest]
      rcases hpassed.latest with hl | ⟨hl, rfl⟩
      · exact .inl hl
      · exact .inr ⟨hl, .inl hpassed.deleted.chain⟩
    · refine .inr ⟨hzero, .inr ?_⟩
      rw [(hfinished v).head, hhead]
  · obtain ⟨hstops, hexpires⟩ := (hremoved i).mp hrem
    have hmem := (hpassed.mem_deleted (i, u)).mpr ⟨hu, hstops⟩
    -- An expired timer is due within the ticks that have passed.
    have hle : u ≤ s.ticks := by
      obtain ⟨e, he, v, hv, hmem'⟩ := hexpires
      rw [h.ticks_eq, he, dues_unique h.list.timerList.nodup hu hmem']
      exact hv
    obtain ⟨hagain, hrunning⟩ := hpassed.again i u hmem hexpires hperiod
    rw [← h.ticks_eq, insertTicks_periodic hle hlate (h.list.period i)] at hagain
    rw [hpassed.restarted.timerList_eq]
    refine ⟨hagain, hrunning, ?_⟩
    rw [h.ticks_eq]
    refine hpassed.latest.resolve_right ?_
    rintro ⟨-, rfl⟩
    cases hmem
  · have hops := insertOps_of_noStart (s := { t with mOpQueue := [] })
      (q := t.mOpQueue) (hpassed.queue ▸ hnone)
    rw [hops] at hhandler
    refine ⟨_, hhandler, ?_⟩
    unfold AppTimer.timerList
    rw [(hfinished _).node, (hfinished _).head]

/-- A run of the module is where a record may start, once the list handler has run. -/
theorem starts_of_reachable (cfg : TimerConfig) {s : AppTimer n}
    (h : (timerMachine cfg).ReachableUnder Insertable s) (hidle : s.check = .idle)
    (hpending : s.pending = none) : Starts ⟨s, [], []⟩ := by
  refine ⟨?_, hidle, hpending, rfl, rfl⟩
  exact h.invariant (I := ListInv) (fun s hs => listInv_initial hs)
    fun s a hinv hen hsafe => (hinv.step cfg hen hsafe).1

instance (cfg : TimerConfig) (s : ExpiryTrace n) (a : TimerLabel n) :
    Decidable ((machine cfg).enabled s a) :=
  inferInstanceAs (Decidable (a ≠ .swi ∧ s.timer.Enabled cfg a))

instance (s : ExpiryTrace n) (a : TimerLabel n) : Decidable (CounterAdvances s a) :=
  match a with
  | .rtc1 counter => decidable_of_iff
      (s.timer.pending.all (fun c => decide (c ≤ ticksDiffGet counter s.timer.mTicksLatest)) = true)
      (by
        unfold CounterAdvances
        simp [Option.all_eq_true])
  | .call _ => .isTrue trivial
  | .check => .isTrue trivial
  | .swi => .isTrue trivial

/-- The first timer is periodic, and the second one is due `first` ticks after its start. -/
def twoStarted (period first : ℕ) : ExpiryTrace 2 :=
  ⟨(timerMachine ⟨4, false⟩).run twoTimers
    [.call (.start (some 0) period 0 0), .call (.start (some 1) first 0 0), .swi], [], []⟩

theorem twoStarted_starts {period first : ℕ}
    (h : (timerMachine ⟨4, false⟩).Follows Insertable twoTimers
      [.call (.start (some 0) period 0 0), .call (.start (some 1) first 0 0), .swi])
    (hidle : (twoStarted period first).timer.check = .idle)
    (hpending : (twoStarted period first).timer.pending = none) :
    Starts (twoStarted period first) :=
  starts_of_reachable ⟨4, false⟩ (.of_follows (.start twoTimers_initial) h) hidle hpending

/-- The passes end in every run, whether or not the counter meets the condition. -/
theorem exists_passes {cfg : TimerConfig} {C : ExpiryTrace n → TimerLabel n → Prop}
    {s : ExpiryTrace n} (h : (machine cfg).ReachableUnder C s) :
    ∃ b c t, listPasses s.timer = some (b, c, t) := by
  have hlist : ListInv s.timer := h.invariant (I := fun s => ListInv s.timer)
    (fun s hs => hs.list)
    fun s a hinv hen _ => (ListInv.step cfg hinv hen.2 fun ha => absurd ha hen.1).1
  obtain ⟨b, c, t, _, _, _, hpasses, -⟩ := listPasses_spec hlist
  exact ⟨b, c, t, hpasses⟩

theorem passes_value {α : Type*} {s : AppTimer n} {v : α}
    (f : AppTimer n × AppTimer n × AppTimer n → α) (hf : (listPasses s).map f = some v)
    (h : listPasses s = some (b, c, t)) : f (b, c, t) = v := by
  rw [h] at hf
  exact Option.some.inj hf

/-- **A timer that is stopped by its own handler** is not taken out as expired. -/
theorem not_calledIffRemoved :
    ¬ ∀ s : ExpiryTrace 2, (machine ⟨4, false⟩).ReachableUnder CounterAdvances s →
      s.timer.check = .idle → CalledIffRemoved s := by
  intro hall
  obtain ⟨s, hs⟩ : ∃ s, s = (machine ⟨4, false⟩).run (twoStarted 1000 100)
    [.rtc1 130, .check, .call (.stop (some 1)), .check] := ⟨_, rfl⟩
  have hreach : (machine ⟨4, false⟩).ReachableUnder CounterAdvances s := by
    rw [hs]
    exact .of_follows (.start (twoStarted_starts (by decide +kernel) (by decide +kernel)
      (by decide +kernel))) (by decide +kernel)
  obtain ⟨b, c, t, hpasses⟩ := exists_passes hreach
  obtain ⟨-, hiff⟩ := hall s hreach (by rw [hs]; decide +kernel)
  have hcalled : (1 : Fin 2) ∈ s.called := by
    rw [hs]
    decide +kernel
  have hgone := passes_value (fun p => decide ((1 : Fin 2) ∈ keys p.1.timerList))
    (by rw [hs]; decide +kernel : _ = some false) hpasses
  have hin := ((hiff b c t hpasses 1).mp hcalled).1.1
  exact absurd hin (of_decide_eq_false hgone)

/-- **When the last timer is stopped**, `m_ticks_latest` is zero. -/
theorem not_latestAdvances :
    ¬ ∀ s : ExpiryTrace 2, (machine ⟨4, false⟩).ReachableUnder CounterAdvances s →
      s.timer.check = .idle → LatestAdvances ⟨4, false⟩ s := by
  intro hall
  obtain ⟨s, hs⟩ : ∃ s, s = (machine ⟨4, false⟩).run (twoStarted 1000 100)
    [.rtc1 130, .check, .call (.stop (some 0)), .call (.stop (some 1)), .check] := ⟨_, rfl⟩
  have hreach : (machine ⟨4, false⟩).ReachableUnder CounterAdvances s := by
    rw [hs]
    exact .of_follows (.start (twoStarted_starts (by decide +kernel) (by decide +kernel)
      (by decide +kernel))) (by decide +kernel)
  have hzero : (timerListHandler ⟨4, false⟩ s.timer).map (·.mTicksLatest) = some 0 := by
    rw [hs]
    decide +kernel
  obtain ⟨u, hu, hlatest⟩ := Option.map_eq_some_iff.mp hzero
  have hsum : (s.timer.mTicksLatest + s.ticks) % (maxRtcCounterVal + 1) = 100 := by
    rw [hs]
    decide +kernel
  have hsame := hall s hreach (by rw [hs]; decide +kernel) u hu
  rw [hlatest, hsum] at hsame
  cases hsame

/-- **A periodic timer that is late by more than a period** is due at once. -/
theorem not_restartsOnTime :
    ¬ ∀ s : ExpiryTrace 2, (machine ⟨4, false⟩).ReachableUnder CounterAdvances s →
      s.timer.check = .idle → RestartsOnTime s := by
  intro hall
  obtain ⟨s, hs⟩ : ∃ s, s = (machine ⟨4, false⟩).run (twoStarted 100 250)
    [.rtc1 300, .check, .check, .check] := ⟨_, rfl⟩
  have hreach : (machine ⟨4, false⟩).ReachableUnder CounterAdvances s := by
    rw [hs]
    exact .of_follows (.start (twoStarted_starts (by decide +kernel) (by decide +kernel)
      (by decide +kernel))) (by decide +kernel)
  obtain ⟨b, c, t, hpasses⟩ := exists_passes hreach
  have hdue : ((0 : Fin 2), 100) ∈ dues 0 s.timer.timerList := by
    rw [hs]
    decide +kernel
  have hremoved := passes_value (fun p => decide (Removed p.1 p.2.1 (0 : Fin 2)))
    (by rw [hs]; decide +kernel : _ = some true) hpasses
  have hlist := passes_value (fun p => dues 0 p.2.2.timerList)
    (by rw [hs]; decide +kernel : _ = some [((0 : Fin 2), 0)]) hpasses
  have hticks : s.ticks = 250 ∧ (s.timer.node 0).ticksPeriodicInterval = 100 := by
    rw [hs]
    decide +kernel
  obtain ⟨v, hv, hsum⟩ := hall s hreach (by rw [hs]; decide +kernel) b c t hpasses 0 100 hdue
    (of_decide_eq_true hremoved) (by rw [hticks.2]; decide)
  dsimp only at hlist
  rw [hlist, List.mem_singleton] at hv
  rw [hticks.1, hticks.2] at hsum
  have hzero : v = 0 := congrArg Prod.snd hv
  omega

/-- **When the counter has gone on for a whole period**, the sum of the last interrupt is smaller than
    that of the one before: a timer that has fired stays in the list. -/
theorem not_removed_of_wrap :
    ¬ ∀ s : ExpiryTrace 2, (machine ⟨4, false⟩).Reachable s → s.timer.check = .idle →
      ∀ b c t, listPasses s.timer = some (b, c, t) → ∀ i, ¬ Stops s.timer.mOpQueue i →
        (i ∈ s.called ↔ Removed b c i ∧ i ∉ s.stopped) := by
  intro hall
  obtain ⟨s, hs⟩ : ∃ s, s = (machine ⟨4, false⟩).run (twoStarted 100 250)
    [.rtc1 300, .check, .check, .check, .rtc1 120, .check, .check] := ⟨_, rfl⟩
  have hreach : (machine ⟨4, false⟩).Reachable s := by
    rw [hs]
    exact .of_follows (.start (twoStarted_starts (by decide +kernel) (by decide +kernel)
      (by decide +kernel))) (by decide +kernel)
  obtain ⟨b, c, t, hpasses⟩ := exists_passes hreach
  have hcalled : (1 : Fin 2) ∈ s.called ∧ ¬ Stops s.timer.mOpQueue 1 := by
    rw [hs]
    decide +kernel
  have hkept := passes_value (fun p => decide ((1 : Fin 2) ∈ keys p.2.1.timerList))
    (by rw [hs]; decide +kernel : _ = some true) hpasses
  have hiff := hall s hreach (by rw [hs]; decide +kernel) b c t hpasses 1 hcalled.2
  exact (hiff.mp hcalled.1).1.2 (of_decide_eq_true hkept)

/-- **A periodic timer that is later than the limit** is taken for one that was started ahead of
    `m_ticks_latest`. -/
theorem not_restarts_of_late :
    ¬ ∀ s : ExpiryTrace 2, (machine ⟨4, false⟩).ReachableUnder CounterAdvances s →
      s.timer.check = .idle → ∀ b c t, listPasses s.timer = some (b, c, t) →
        ∀ i u, (i, u) ∈ dues 0 s.timer.timerList → Removed b c i →
          (s.timer.node i).ticksPeriodicInterval ≠ 0 →
            (i, u + (s.timer.node i).ticksPeriodicInterval - s.ticks) ∈ dues 0 t.timerList := by
  intro hall
  obtain ⟨s, hs⟩ : ∃ s, s = (machine ⟨4, false⟩).run (twoStarted 100 (2 ^ 23 + 150))
    [.rtc1 (2 ^ 23 + 200), .check, .check, .check] := ⟨_, rfl⟩
  have hreach : (machine ⟨4, false⟩).ReachableUnder CounterAdvances s := by
    rw [hs]
    exact .of_follows (.start (twoStarted_starts (by decide +kernel) (by decide +kernel)
      (by decide +kernel))) (by decide +kernel)
  obtain ⟨b, c, t, hpasses⟩ := exists_passes hreach
  have hdue : ((0 : Fin 2), 100) ∈ dues 0 s.timer.timerList := by
    rw [hs]
    decide +kernel
  have hremoved := passes_value (fun p => decide (Removed p.1 p.2.1 (0 : Fin 2)))
    (by rw [hs]; decide +kernel : _ = some true) hpasses
  have hlist := passes_value (fun p => dues 0 p.2.2.timerList)
    (by rw [hs]; decide +kernel : _ = some [((0 : Fin 2), 2 ^ 23 + 50)]) hpasses
  have hticks : s.ticks = 2 ^ 23 + 150 ∧ (s.timer.node 0).ticksPeriodicInterval = 100 := by
    rw [hs]
    decide +kernel
  have hmem := hall s hreach (by rw [hs]; decide +kernel) b c t hpasses 0 100 hdue
    (of_decide_eq_true hremoved) (by rw [hticks.2]; decide)
  dsimp only at hlist
  rw [hlist, List.mem_singleton, hticks.1, hticks.2] at hmem
  have hv := congrArg Prod.snd hmem
  omega

end ExpiryTrace

end NordicEsb.Timer
