import NordicEsb.Timer.Passes

/-!
# A Run of the List Handler

The passes of `timer_list_handler` one after the other: what is in the list afterwards, when it is
due, and which timers run.

**Main result**: `timerListHandler_spec`.
-/

namespace NordicEsb.Timer

open DeltaList

variable {n : ℕ} {s t m : AppTimer n} {d d' l : List (Fin n × ℕ)} {i : Fin n} {e : Fin n × ℕ}

/-! ## §1 What a run finds -/

/-- The ticks that the RTC interrupt has left for the list handler. -/
def AppTimer.pending (s : AppTimer n) : Option ℕ :=
  if s.mTicksElapsedQReadInd ≠ s.mTicksElapsedQWriteInd then
    some (s.mTicksElapsed (s.mTicksElapsedQReadInd + 1))
  else none

/-- The node has expired by the ticks that are left for the list handler. -/
def AppTimer.Expires (s : AppTimer n) (d : List (Fin n × ℕ)) (i : Fin n) : Prop :=
  ∃ c ∈ s.pending, ∃ u ≤ c, (i, u) ∈ dues 0 d

/-- The node expires, and is periodic. -/
def AppTimer.Restarts (s : AppTimer n) (d : List (Fin n × ℕ)) (i : Fin n) : Prop :=
  ¬ Stops s.mOpQueue i ∧ s.Expires d i ∧ (s.node i).ticksPeriodicInterval ≠ 0

/-- **What the list handler has done** when it comes to the operations. -/
structure Prepared (s m : AppTimer n) (d d' : List (Fin n × ℕ)) : Prop where
  lists : m.Lists d'
  survives : ∀ i u, (i, u) ∈ dues 0 d → ¬ Stops s.mOpQueue i → ¬ s.Expires d i →
    (i, u - s.pending.getD 0) ∈ dues 0 d' ∧ s.pending.getD 0 ≤ u
  keys_cases : ∀ i ∈ keys d', ¬ Stops s.mOpQueue i ∧ i ∈ keys d ∧ (s.Expires d i → s.Restarts d i)
  again : ∀ i, s.Restarts d i → i ∈ keys d' ∧ (m.node i).isRunning = true
  running : ∀ i, ¬ s.Restarts d i → (m.node i).isRunning = true → (s.node i).isRunning = true
  kept : ∀ i, ¬ s.Restarts d i → ¬ (.stopAll ∈ s.mOpQueue ∧ i ∈ keys d) →
    (m.node i).isRunning = (s.node i).isRunning
  ended : ∀ i ∈ keys d, .stopAll ∈ s.mOpQueue → .stop i ∉ s.mOpQueue →
    (m.node i).isRunning = false
  period : ∀ i, (m.node i).ticksPeriodicInterval = (s.node i).ticksPeriodicInterval
  queue : m.mOpQueue = []
  drained : m.mTicksElapsedQReadInd = m.mTicksElapsedQWriteInd
  check : m.check = s.check
  latest : m.mTicksLatest = (s.mTicksLatest + s.pending.getD 0) % (maxRtcCounterVal + 1) ∧
      m.mRtc1Reset = s.mRtc1Reset ∨
    d ≠ [] ∧ (∀ i ∈ keys d, .stop i ∈ s.mOpQueue) ∧ m.mTicksLatest = 0

theorem elapsedTicksAcquire_spec (s : AppTimer n) :
    ∃ t, elapsedTicksAcquire s = ((s.pending.getD 0, s.pending.isSome), t) ∧ t.node = s.node ∧
      t.mpTimerIdHead = s.mpTimerIdHead ∧ t.mOpQueue = s.mOpQueue ∧ t.check = s.check ∧
      t.mTicksElapsedQReadInd = t.mTicksElapsedQWriteInd ∧ t.mRtc1Reset = s.mRtc1Reset ∧
      (s.mTicksLatest ≤ maxRtcCounterVal →
        t.mTicksLatest = (s.mTicksLatest + s.pending.getD 0) % (maxRtcCounterVal + 1)) := by
  unfold elapsedTicksAcquire AppTimer.pending
  by_cases hne : s.mTicksElapsedQReadInd ≠ s.mTicksElapsedQWriteInd
  · rw [if_pos hne, if_pos hne]
    have hnext : ∀ a b : Fin 2, a ≠ b → a + 1 = b := by decide
    exact ⟨_, rfl, rfl, rfl, rfl, rfl, hnext _ _ hne, rfl, fun _ => rfl⟩
  · rw [if_neg hne, if_neg hne]
    refine ⟨_, rfl, rfl, rfl, rfl, rfl, not_not.mp hne, rfl, fun hlatest => ?_⟩
    exact (Nat.mod_eq_of_lt (Nat.lt_succ_of_le hlatest)).symm

/-- Time has passed, or not. -/
theorem expirePass_spec (h : s.Lists d) (elapsed : Option ℕ) (ticksPrevious : ℕ) :
    ∃ r t l d', expirePass elapsed.isSome (elapsed.getD 0) ticksPrevious s = some (r, t) ∧
      t.Lists d' ∧ t.Chain r l ∧ (keys d' ++ keys l).Nodup ∧
      (∀ i u, (i, u) ∈ dues 0 d → (∀ c ∈ elapsed, c < u) →
        (i, u - elapsed.getD 0) ∈ dues 0 d' ∧ elapsed.getD 0 ≤ u) ∧
      (∀ i ∈ keys d', i ∈ keys d ∧ ∀ c ∈ elapsed, ∀ u, (i, u) ∈ dues 0 d → c < u) ∧
      (∀ i, i ∈ keys l ↔ (∃ c ∈ elapsed, ∃ u ≤ c, (i, u) ∈ dues 0 d) ∧
        (s.node i).ticksPeriodicInterval ≠ 0) ∧
      (∀ i, (t.node i).isRunning = (s.node i).isRunning ∧
        (t.node i).ticksPeriodicInterval = (s.node i).ticksPeriodicInterval) ∧
      (∀ i ∈ keys l, (t.node i).ticksFirstInterval = (s.node i).ticksPeriodicInterval) ∧
      t.vars = s.vars ∧ t.mTicksLatest = s.mTicksLatest ∧ t.mRtc1Reset = s.mRtc1Reset := by
  cases elapsed with
  -- no ticks are read, so no timer expires
  | none =>
    refine ⟨none, s, [], d, rfl, h, rfl, ?_, fun i u hu _ => ⟨hu, Nat.zero_le u⟩,
      fun i hi => ⟨hi, fun c hc => nomatch hc⟩, fun i => ?_, fun _ => ⟨rfl, rfl⟩,
      fun i hi => absurd hi List.not_mem_nil, rfl, rfl, rfl⟩
    · simpa using h.nodup
    · simp
  | some c =>
    obtain ⟨r, t, l, ht, hexp⟩ := expiredTimersLoop_spec ticksPrevious d (n + 1) c 0 none [] s
      h.chain rfl (by simpa using h.nodup) (Nat.lt_succ_of_le h.length_le)
    -- What stays in the list is due later by the elapsed ticks.
    have hleft : ∀ i u, (i, u + c) ∈ dues 0 d ∧ c < u + c ↔ (i, u) ∈ dues 0 (expire c d) := by
      intro i u
      have hmem := mem_dues_expire (b := 0) (e := c) (l := d) (p := (i, u + c))
      rw [mem_dues_add, Nat.zero_add] at hmem
      exact hmem.symm
    -- What leaves it was due within them.
    have hexpired : ∀ i, i ∈ keys (expired c d) ↔ ∃ u ≤ c, (i, u) ∈ dues 0 d := by
      intro i
      rw [mem_keys_iff 0]
      apply exists_congr
      intro u
      rw [mem_dues_expired, Nat.zero_add, and_comm]
    have hfields : ∀ i, (t.node i).isRunning = (s.node i).isRunning ∧
        (t.node i).ticksPeriodicInterval = (s.node i).ticksPeriodicInterval := by
      intro i
      by_cases hi : i ∈ keys (expired c d)
      · obtain ⟨u, hu⟩ := (mem_keys_iff 0).mp hi
        have hdata := hexp.again i u hu
        constructor
        · have hrunning := congrArg TimerNode.isRunning hdata
          rw [again_isRunning] at hrunning
          exact hrunning
        · have hperiod := congrArg TimerNode.ticksPeriodicInterval hdata
          rw [again_ticksPeriodicInterval] at hperiod
          exact hperiod
      · have hdata := hexp.kept i hi
        exact ⟨isRunning_of_data hdata, period_of_data hdata⟩
    refine ⟨r, t, l, expire c d, ht, ⟨hexp.chain, nodup_expire h.nodup, fun e he => ?_⟩,
      hexp.restart, hexp.nodup, fun i u hu hlt => ?_, fun i hi => ?_, fun i => ?_, hfields,
      fun i hi => ?_, hexp.vars, hexp.latest, hexp.reset⟩
    · have hsmall := h.small _ ((hleft e.1 e.2).mpr he).1
      dsimp only at hsmall
      omega
    · have hlt := hlt c rfl
      refine ⟨(hleft _ _).mp ?_, Nat.le_of_lt hlt⟩
      show (i, u - c + c) ∈ dues 0 d ∧ c < u - c + c
      rw [Nat.sub_add_cancel (Nat.le_of_lt hlt)]
      exact ⟨hu, hlt⟩
    · obtain ⟨u, hu⟩ := (mem_keys_iff 0).mp hi
      obtain ⟨hmem, hlt⟩ := (hleft i u).mpr hu
      refine ⟨(mem_keys_iff 0).mpr ⟨_, hmem⟩, fun c' hc' v hv => ?_⟩
      obtain rfl := Option.some.inj hc'
      rw [dues_unique h.nodup hv hmem]
      exact hlt
    · rw [hexp.mem_restart, hexpired]
      simp
    · have hmem := (hexp.mem_restart i).mp hi
      obtain ⟨hi, hperiod⟩ := hmem.resolve_left List.not_mem_nil
      obtain ⟨u, hu⟩ := (mem_keys_iff 0).mp hi
      have hfirst := congrArg TimerNode.ticksFirstInterval (hexp.again i u hu)
      rw [again_ticksFirstInterval _ _ (show (s.node i).data.ticksPeriodicInterval ≠ 0 from hperiod)]
        at hfirst
      exact hfirst

/-- **Up to the operations** the list handler ends. -/
theorem prepared_spec (h : s.Lists d) (hlatest : s.mTicksLatest ≤ maxRtcCounterVal)
    (hperiod : ∀ i, (s.node i).ticksPeriodicInterval < 2 ^ 32) :
    ∃ a t₁ r t₂ t₃ d', elapsedTicksAcquire s = ((s.pending.getD 0, s.pending.isSome), a) ∧
      listDeletionsHandler a = some t₁ ∧
      expirePass s.pending.isSome (s.pending.getD 0) s.mTicksLatest t₁ = some (r, t₂) ∧
      restartLoop (n + 1) r t₂ = some t₃ ∧ t₃.mOpQueue = s.mOpQueue ∧
      Prepared s { t₃ with mOpQueue := [] } d d' := by
  obtain ⟨a, ha, hnode, hhead, hqueue, hcheck, hdrained, hreset, hal⟩ := elapsedTicksAcquire_spec s
  have hlists : a.Lists d := by
    refine ⟨?_, h.nodup, h.small⟩
    rw [hhead]
    exact h.chain.congr fun i _ => by rw [hnode]
  obtain ⟨t₁, d₁, ht₁, hdel⟩ := deleteOps_spec a.mOpQueue a d hlists
  obtain ⟨r, t₂, l, d₂, ht₂, hlists₂, hchain, hnodup, hleft, hkeys, hrestart, hfields, hfirst, hvars,
    hlatest₂, hreset₂⟩ := expirePass_spec hdel.lists s.pending s.mTicksLatest
  have hperiod₁ : ∀ i, (t₁.node i).ticksPeriodicInterval = (s.node i).ticksPeriodicInterval := by
    intro i
    show (t₁.node i).core.ticksPeriodicInterval = _
    rw [hdel.core, hnode]
    rfl
  obtain ⟨t₃, d₃, ht₃, hlists₃, hmem, hkept, hrun, hvars₃, hlatest₃, hreset₃⟩ :=
    restartLoop_spec l (n + 1) r t₂ d₂ hlists₂ hchain hnodup
      (fun i hi => by
        rw [hfirst i hi, hperiod₁]
        exact hperiod i)
      (by
        have hlen := LinkedList.length_le_card (List.Nodup.of_append_right hnodup)
        rw [Fintype.card_fin] at hlen
        omega)
  have hq : t₃.mOpQueue = s.mOpQueue := by
    have hq₃ := congrArg (·.1) ((hvars₃.trans hvars).trans hdel.vars)
    exact hq₃.trans hqueue
  rw [hqueue] at hdel
  -- What expires is what is restarted, if it is periodic.
  have hdues₁ : ∀ i, (∃ c ∈ s.pending, ∃ u ≤ c, (i, u) ∈ dues 0 d₁) ↔
      ¬ Stops s.mOpQueue i ∧ s.Expires d i := by
    intro i
    unfold AppTimer.Expires
    constructor
    · rintro ⟨c, hc, u, hu, hmem⟩
      obtain ⟨hmem, hstops⟩ := (hdel.mem_dues _).mp hmem
      exact ⟨hstops, c, hc, u, hu, hmem⟩
    · rintro ⟨hstops, c, hc, u, hu, hmem⟩
      exact ⟨c, hc, u, hu, (hdel.mem_dues _).mpr ⟨hmem, hstops⟩⟩
  have hl : ∀ i, i ∈ keys l ↔ s.Restarts d i := by
    intro i
    rw [hrestart, hdues₁, hperiod₁, and_assoc]
    rfl
  have hkeys₃ : ∀ i, i ∈ keys d₃ ↔ i ∈ keys d₂ ∨ i ∈ keys l := by
    intro i
    rw [mem_keys_iff 0, mem_keys_iff 0 (l := d₂)]
    constructor
    · rintro ⟨u, hu⟩
      rcases (hmem _).mp hu with hu | ⟨hil, -⟩
      · exact .inl ⟨u, hu⟩
      · exact .inr hil
    · rintro (⟨u, hu⟩ | hil)
      · exact ⟨u, (hmem _).mpr (.inl hu)⟩
      · refine ⟨insertTicks t₂.mTicksLatest (t₂.node i).ticksAtStart
          (t₂.node i).ticksFirstInterval, (hmem _).mpr (.inr ⟨hil, rfl⟩)⟩
  have hoff : ∀ i, ¬ s.Restarts d i → (t₃.node i).isRunning = (t₁.node i).isRunning := by
    intro i hi
    rw [isRunning_of_data (hkept i (mt (hl i).mp hi)), (hfields i).1]
  refine ⟨a, t₁, r, t₂, t₃, d₃, ha, ht₁, ht₂, ht₃, hq, ⟨⟨hlists₃.chain, hlists₃.nodup, hlists₃.small⟩,
    fun i u hu hstops hexpires => ?_, fun i hi => ?_, fun i hi => ?_, fun i hi hrunning => ?_,
    fun i hi hall => ?_, fun i hi hall hstop => ?_, fun i => ?_, rfl, ?_, ?_, ?_⟩⟩
  · obtain ⟨hmem₂, hle⟩ := hleft i u ((hdel.mem_dues _).mpr ⟨hu, hstops⟩) fun c hc => by
      by_contra hle
      exact hexpires ⟨c, hc, u, by omega, hu⟩
    exact ⟨(hmem _).mpr (.inl hmem₂), hle⟩
  · rcases (hkeys₃ i).mp hi with hi | hi
    · obtain ⟨hi₁, hlater⟩ := hkeys i hi
      obtain ⟨u, hu⟩ := (mem_keys_iff 0).mp hi₁
      obtain ⟨hmem, hstops⟩ := (hdel.mem_dues _).mp hu
      refine ⟨hstops, (mem_keys_iff 0).mpr ⟨u, hmem⟩, ?_⟩
      rintro ⟨c, hc, v, hv, hmemv⟩
      have hlt := hlater c hc v ((hdel.mem_dues _).mpr ⟨hmemv, hstops⟩)
      omega
    · have hi := (hl i).mp hi
      obtain ⟨hstops, ⟨c, hc, u, hu, hmem⟩, -⟩ := id hi
      exact ⟨hstops, (mem_keys_iff 0).mpr ⟨u, hmem⟩, fun _ => hi⟩
  · have hil := (hl i).mpr hi
    refine ⟨(hkeys₃ i).mpr (.inr hil), ?_⟩
    exact congrArg TimerNode.isRunning (hrun i hil)
  · rw [hoff i hi] at hrunning
    rw [← hnode]
    exact hdel.running i hrunning
  · rw [hoff i hi, hdel.kept i hall, hnode]
  · have hnot : ¬ s.Restarts d i := fun hi => hi.1 (.inr hall)
    rw [hoff i hnot]
    exact hdel.ended i hi hall hstop
  · rw [← hperiod₁ i]
    by_cases hil : i ∈ keys l
    · have hdata := congrArg TimerNode.ticksPeriodicInterval (hrun i hil)
      exact hdata.trans (hfields i).2
    · exact (period_of_data (hkept i hil)).trans (hfields i).2
  · have hread := congrArg (·.2.2.1) ((hvars₃.trans hvars).trans hdel.vars)
    have hwrite := congrArg (·.2.2.2.1) ((hvars₃.trans hvars).trans hdel.vars)
    exact hread.trans (hdrained.trans hwrite.symm)
  · have hcheck₃ := congrArg (·.2.2.2.2) ((hvars₃.trans hvars).trans hdel.vars)
    exact hcheck₃.trans hcheck
  · rcases hdel.latest with ⟨hl₁, hr₁⟩ | ⟨hne, hstops, hzero⟩
    · left
      exact ⟨((hlatest₃.trans hlatest₂).trans hl₁).trans (hal hlatest),
        ((hreset₃.trans hreset₂).trans hr₁).trans hreset⟩
    · exact .inr ⟨hne, hstops, (hlatest₃.trans hlatest₂).trans hzero⟩

/-! ## §2 The whole run -/

/-- **The condition of a run**: a timer that is started and still in the list runs, or it leaves the
    list before the start is handled. -/
def AppTimer.Insertable (s : AppTimer n) (d : List (Fin n × ℕ)) : Prop :=
  ∀ i, (firstStart s.mOpQueue i).isSome = true → i ∈ keys d →
    (s.node i).isRunning = true ∨ Stops s.mOpQueue i ∨ s.Expires d i

/-- What happens after the operations. -/
structure Finished (s t : AppTimer n) : Prop where
  node : t.node = s.node
  head : t.mpTimerIdHead = s.mpTimerIdHead
  queue : t.mOpQueue = s.mOpQueue
  read : t.mTicksElapsedQReadInd = s.mTicksElapsedQReadInd
  write : t.mTicksElapsedQWriteInd = s.mTicksElapsedQWriteInd
  check : t.check = s.check
  reset : t.mRtc1Reset = false
  latest : t.mTicksLatest = s.mTicksLatest ∨ (s.mpTimerIdHead = none ∧ t.mTicksLatest = 0)

theorem finished_compareRegUpdate (cfg : TimerConfig) (s : AppTimer n) (b : Bool) :
    Finished s { (if b = true then compareRegUpdate cfg s else s) with mRtc1Reset := false } := by
  cases b with
  | false => exact ⟨rfl, rfl, rfl, rfl, rfl, rfl, rfl, .inl rfl⟩
  | true =>
    unfold compareRegUpdate
    cases hhead : s.mpTimerIdHead with
    | some p => exact ⟨rfl, hhead.symm ▸ hhead, rfl, rfl, rfl, rfl, rfl, .inl rfl⟩
    | none =>
      by_cases hkeep : cfg.keepsRtcActive = true
      · simp only [hkeep, if_true]
        exact ⟨rfl, hhead ▸ rfl, rfl, rfl, rfl, rfl, rfl, .inl rfl⟩
      · simp only [hkeep, if_true]
        exact ⟨rfl, hhead ▸ rfl, rfl, rfl, rfl, rfl, rfl, .inr ⟨hhead, rfl⟩⟩

/-- **A run of the list handler** ends, and does what the passes do. -/
theorem timerListHandler_spec (cfg : TimerConfig) (h : s.Lists d)
    (hlatest : s.mTicksLatest ≤ maxRtcCounterVal)
    (hperiod : ∀ i, (s.node i).ticksPeriodicInterval < 2 ^ 32)
    (hfirst : ∀ i params, .start i params ∈ s.mOpQueue → params.ticksFirstInterval < 2 ^ 32)
    (hinsertable : s.Insertable d) :
    ∃ m d₁ u d₂ t, timerListHandler cfg s = some t ∧ Prepared s m d d₁ ∧
      Inserted s.mOpQueue m u d₁ d₂ ∧ Finished u t := by
  obtain ⟨a, t₁, r, t₂, t₃, d₁, ha, ht₁, ht₂, ht₃, hqueue, hprepared⟩ :=
    prepared_spec h hlatest hperiod
  obtain ⟨u, d₂, hu, hinserted⟩ := insertOps_spec s.mOpQueue { t₃ with mOpQueue := [] } d₁
    hprepared.lists hfirst fun i params hi hmem => by
      obtain ⟨hstops, hid, hexpires⟩ := hprepared.keys_cases i hmem
      by_cases hrestarts : s.Restarts d i
      · exact (hprepared.again i hrestarts).2
      · rw [hprepared.kept i hrestarts fun hall => hstops (.inr hall.1)]
        rcases hinsertable i (firstStart_isSome hi) hid with hrunning | hstop | hexp
        · exact hrunning
        · exact absurd hstop hstops
        · exact absurd (hexpires hexp) hrestarts
  refine ⟨_, d₁, u, d₂, _, ?_, hprepared, hinserted, finished_compareRegUpdate cfg u
    (decide (t₁.mpTimerIdHead ≠ a.mpTimerIdHead) || s.pending.isSome ||
      decide (u.mpTimerIdHead ≠ t₂.mpTimerIdHead))⟩
  unfold timerListHandler listInsertionsHandler
  rw [ha]
  dsimp only
  rw [ht₁]
  simp only [Option.bind_eq_bind, Option.bind_some]
  rw [ht₂]
  simp only [Option.bind_some]
  rw [ht₃]
  simp only [Option.bind_some]
  rw [hqueue, hu]
  rfl

end NordicEsb.Timer
