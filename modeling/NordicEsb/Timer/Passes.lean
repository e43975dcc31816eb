import NordicEsb.Timer.Lists

/-!
# The Passes of the List Handler

What each pass of `timer_list_handler` does to the list, as a delta list, and to the nodes. Every
pass ends; the last one does so as long as no timer is inserted that is in the list.

- `listDeletionsHandler_spec` takes out what is stopped
- `expiredTimersHandler_spec` takes out what has expired, and collects what is periodic
- `restartLoop_spec` and `insertOps_spec` insert
-/

namespace NordicEsb.Timer

open DeltaList LinkedList

variable {n : ℕ} {s t : AppTimer n} {d l : List (Fin n × ℕ)} {q : List (TimerUserOp n)} {p i : Fin n}
  {e : Fin n × ℕ}

/-! ## §1 Deletions -/

/-- Timer `i` is stopped by one of the operations. -/
def Stops (q : List (TimerUserOp n)) (i : Fin n) : Prop := .stop i ∈ q ∨ .stopAll ∈ q

instance (q : List (TimerUserOp n)) (i : Fin n) : Decidable (Stops q i) :=
  inferInstanceAs (Decidable (_ ∨ _))

/-- What a node has besides its place in the list, and whether it runs. -/
def TimerNode.core (x : TimerNode n) : TimerNode n := { x.data with isRunning := false }

theorem core_of_data {x y : TimerNode n} (h : x.data = y.data) : x.core = y.core := by
  unfold TimerNode.core
  rw [h]

theorem isRunning_of_data {x y : TimerNode n} (h : x.data = y.data) :
    x.isRunning = y.isRunning := by
  have hrunning : x.data.isRunning = y.data.isRunning := by rw [h]
  exact hrunning

theorem period_of_data {x y : TimerNode n} (h : x.data = y.data) :
    x.ticksPeriodicInterval = y.ticksPeriodicInterval := by
  have hperiod : x.data.ticksPeriodicInterval = y.data.ticksPeriodicInterval := by rw [h]
  exact hperiod

/-- `STOP_ALL` empties the list. -/
theorem stopAllLoop_spec : ∀ d fuel (s : AppTimer n), s.Chain s.mpTimerIdHead d →
    (keys d).Nodup → d.length < fuel →
    ∃ t, stopAllLoop fuel s = some t ∧ t.mpTimerIdHead = none ∧
      (∀ i, t.node i = if i ∈ keys d then { s.node i with isRunning := false } else s.node i) ∧
      t.vars = s.vars ∧ t.mTicksLatest = s.mTicksLatest ∧ t.mRtc1Reset = s.mRtc1Reset := by
  intro d
  induction d with
  | nil =>
    intro fuel s hchain hnodup hfuel
    obtain ⟨fuel, rfl⟩ : ∃ k, fuel = k + 1 := ⟨fuel - 1, by simp at hfuel; omega⟩
    have hhead : s.mpTimerIdHead = none := hchain
    unfold stopAllLoop
    rw [hhead]
    exact ⟨s, rfl, hhead, fun i => by simp, rfl, rfl, rfl⟩
  | cons q d ih =>
    intro fuel s hchain hnodup hfuel
    obtain ⟨fuel, rfl⟩ : ∃ k, fuel = k + 1 := ⟨fuel - 1, by simp at hfuel; omega⟩
    obtain ⟨hhead, -, hrest⟩ := hchain
    obtain ⟨hq, hnodup⟩ := List.nodup_cons.mp hnodup
    unfold stopAllLoop
    rw [hhead]
    dsimp only at hrest ⊢
    have hnode : ∀ i ∈ keys d,
        (s.setNode q.1 fun x => { x with isRunning := false }).node i = s.node i := fun i hi =>
      setNode_ne _ _ fun h => hq (h ▸ hi)
    rw [setNode_self]
    obtain ⟨t, ht, hnone, hnodes, hothers⟩ := ih fuel
      { s.setNode q.1 fun x => { x with isRunning := false } with
        mpTimerIdHead := (s.node q.1).next }
      (AppTimer.Chain.congr hrest hnode) hnodup (by simpa using hfuel)
    refine ⟨t, ht, hnone, fun i => ?_, hothers⟩
    rw [hnodes i]
    by_cases hiq : i = q.1
    · subst hiq
      have hmem : q.1 ∈ keys (q :: d) := List.mem_cons_self ..
      rw [if_neg hq, if_pos hmem]
      exact setNode_self s q.1 fun x => { x with isRunning := false }
    · have hmem : i ∈ keys (q :: d) ↔ i ∈ keys d := by simp [hiq]
      dsimp only
      rw [setNode_ne _ _ hiq]
      simp only [hmem]

/-- **What the deletions do.** -/
structure Deleted (q : List (TimerUserOp n)) (s t : AppTimer n) (d d' : List (Fin n × ℕ)) :
    Prop where
  lists : t.Lists d'
  mem_dues : ∀ e, e ∈ dues 0 d' ↔ e ∈ dues 0 d ∧ ¬ Stops q e.1
  core : ∀ i, (t.node i).core = (s.node i).core
  running : ∀ i, (t.node i).isRunning = true → (s.node i).isRunning = true
  kept : ∀ i, ¬ (.stopAll ∈ q ∧ i ∈ keys d) → (t.node i).isRunning = (s.node i).isRunning
  ended : ∀ i ∈ keys d, .stopAll ∈ q → .stop i ∉ q → (t.node i).isRunning = false
  vars : t.vars = s.vars
  latest : (t.mTicksLatest = s.mTicksLatest ∧ t.mRtc1Reset = s.mRtc1Reset) ∨
    (d ≠ [] ∧ (∀ i ∈ keys d, .stop i ∈ q) ∧ t.mTicksLatest = 0)

theorem Deleted.nil (h : s.Lists d) : Deleted [] s s d d where
  lists := h
  mem_dues e := by simp [Stops]
  core _ := rfl
  running _ hi := hi
  kept _ _ := rfl
  ended _ _ hall := absurd hall List.not_mem_nil
  vars := rfl
  latest := .inl ⟨rfl, rfl⟩

/-- A start is not a deletion. -/
theorem Deleted.start {d' : List (Fin n × ℕ)} {params : TimerUserOpStart} (h : Deleted q s t d d') :
    Deleted (.start p params :: q) s t d d' := by
  have hall : TimerUserOp.stopAll ∈ TimerUserOp.start p params :: q ↔ .stopAll ∈ q := by simp
  have hstop : ∀ i, TimerUserOp.stop i ∈ TimerUserOp.start p params :: q ↔ .stop i ∈ q := by simp
  refine ⟨h.lists, fun e => ?_, h.core, h.running, fun i => ?_, fun i => ?_, h.vars, ?_⟩
  · unfold Stops
    rw [hall, hstop]
    exact h.mem_dues e
  · rw [hall]
    exact h.kept i
  · rw [hall, hstop]
    exact h.ended i
  · simp only [hstop]
    exact h.latest

/-- The deletions after a stop. -/
theorem Deleted.stop {u : AppTimer n} {d' : List (Fin n × ℕ)} (hlists : s.Lists d)
    (hrelinks : Relinks (keys d) s u)
    (hlatest : (u.mTicksLatest = s.mTicksLatest ∧ u.mRtc1Reset = s.mRtc1Reset) ∨
      (keys d = [p] ∧ u.mTicksLatest = 0))
    (h : Deleted q u t (remove p d) d') : Deleted (.stop p :: q) s t d d' := by
  have hrunning : ∀ i, (u.node i).isRunning = (s.node i).isRunning := fun i =>
    isRunning_of_data (hrelinks.data i)
  have hkeys : ∀ i, i ∈ keys (remove p d) ↔ i ≠ p ∧ i ∈ keys d := fun i =>
    mem_keys_remove hlists.nodup
  have hall : TimerUserOp.stopAll ∈ TimerUserOp.stop p :: q ↔ .stopAll ∈ q := by simp
  have hstop : ∀ i, TimerUserOp.stop i ∈ TimerUserOp.stop p :: q ↔ i = p ∨ .stop i ∈ q := by simp
  refine ⟨h.lists, fun e => ?_, fun i => (h.core i).trans (core_of_data (hrelinks.data i)),
    fun i hi => hrunning i ▸ h.running i hi, fun i hi => ?_, fun i hi hstopAll hi' => ?_,
    h.vars.trans hrelinks.vars, ?_⟩
  · rw [h.mem_dues e, mem_dues_remove hlists.nodup]
    unfold Stops
    rw [hall, hstop]
    tauto
  · rw [← hrunning i]
    apply h.kept
    rintro ⟨hstopAll, hmem⟩
    exact hi ⟨hall.mpr hstopAll, ((hkeys i).mp hmem).2⟩
  · rw [hstop, not_or] at hi'
    exact h.ended i ((hkeys i).mpr ⟨hi'.1, hi⟩) (hall.mp hstopAll) hi'.2
  · -- If `p` was the last timer, the list is empty from here on.
    rcases h.latest with ⟨hl, hr⟩ | ⟨hne, hmem, hl⟩
    · rcases hlatest with ⟨hl', hr'⟩ | ⟨hlast, hl'⟩
      · exact .inl ⟨hl.trans hl', hr.trans hr'⟩
      · refine .inr ⟨?_, fun i hi => ?_, hl.trans hl'⟩
        · rintro rfl
          cases hlast
        · rw [hlast] at hi
          exact (hstop i).mpr (.inl (List.mem_singleton.mp hi))
    · refine .inr ⟨?_, fun i hi => ?_, hl⟩
      · rintro rfl
        exact hne rfl
      · rw [hstop]
        by_cases hip : i = p
        · exact .inl hip
        · exact .inr (hmem i ((hkeys i).mpr ⟨hip, hi⟩))

/-- The deletions after `STOP_ALL`. -/
theorem Deleted.stopAll {u : AppTimer n} {d' : List (Fin n × ℕ)}
    (hnodes : ∀ i, u.node i = if i ∈ keys d then { s.node i with isRunning := false } else s.node i)
    (hvars : u.vars = s.vars)
    (hlatest : u.mTicksLatest = s.mTicksLatest) (hreset : u.mRtc1Reset = s.mRtc1Reset)
    (h : Deleted q u t [] d') : Deleted (.stopAll :: q) s t d d' := by
  have hrunning : ∀ i, (u.node i).isRunning = true → (s.node i).isRunning = true := by
    intro i
    rw [hnodes i]
    by_cases hi : i ∈ keys d
    · rw [if_pos hi]
      exact fun h => nomatch h
    · rw [if_neg hi]
      exact id
  refine ⟨h.lists, fun e => ?_, fun i => (h.core i).trans ?_, fun i hi => hrunning i (h.running i hi),
    fun i hi => ?_, fun i hi _ _ => ?_, h.vars.trans hvars, ?_⟩
  · rw [h.mem_dues e]
    simp [Stops]
  · rw [hnodes i]
    by_cases hi : i ∈ keys d
    · rw [if_pos hi]
      rfl
    · rw [if_neg hi]
  · have hi' : i ∉ keys d := fun hmem => hi ⟨List.mem_cons_self .., hmem⟩
    rw [h.kept i fun hmem => absurd hmem.2 List.not_mem_nil, hnodes i, if_neg hi']
  · have hu : (u.node i).isRunning = false := by
      rw [hnodes i, if_pos hi]
    rw [h.kept i fun hmem => absurd hmem.2 List.not_mem_nil, hu]
  · rcases h.latest with ⟨hl, hr⟩ | ⟨hne, -⟩
    · exact .inl ⟨hl.trans hlatest, hr.trans hreset⟩
    · exact absurd rfl hne

/-- **The deletions** end and take out what is stopped. -/
theorem deleteOps_spec : ∀ (q : List (TimerUserOp n)) s d, s.Lists d →
    ∃ t d', q.foldlM deleteOp s = some t ∧ Deleted q s t d d' := by
  intro q
  induction q with
  | nil => exact fun s d h => ⟨s, d, rfl, .nil h⟩
  | cons op q ih =>
    intro s d h
    rw [List.foldlM_cons]
    cases op with
    | start p params =>
      obtain ⟨t, d', ht, hdeleted⟩ := ih s d h
      exact ⟨t, d', ht, hdeleted.start⟩
    | stop p =>
      obtain ⟨u, hu, hlists, hrelinks, hlatest⟩ := timerListRemove_lists h p
      obtain ⟨t, d', ht, hdeleted⟩ := ih u _ hlists
      have hop : deleteOp s (.stop p) = some u := hu
      exact ⟨t, d', by rw [hop]; exact ht, .stop h hrelinks hlatest hdeleted⟩
    | stopAll =>
      obtain ⟨u, hu, hhead, hnodes, hvars, hlatest, hreset⟩ := stopAllLoop_spec d (n + 1) s h.chain
        h.nodup (Nat.lt_succ_of_le h.length_le)
      have hlists : u.Lists [] := ⟨hhead, List.nodup_nil, fun e he => absurd he List.not_mem_nil⟩
      obtain ⟨t, d', ht, hdeleted⟩ := ih u [] hlists
      have hop : deleteOp s .stopAll = some u := hu
      exact ⟨t, d', by rw [hop]; exact ht, .stopAll hnodes hvars hlatest hreset hdeleted⟩

/-! ## §2 Expired timers -/

/-- What `expired_timers_handler` writes into the node of a timer that was due at `u`. -/
def TimerNode.again (ticksPrevious u : ℕ) (x : TimerNode n) : TimerNode n :=
  if x.ticksPeriodicInterval ≠ 0 then
    { x with
      ticksAtStart := (ticksPrevious + u) % (maxRtcCounterVal + 1)
      ticksFirstInterval := x.ticksPeriodicInterval }
  else x

@[simp] theorem again_isRunning (ticksPrevious u : ℕ) (x : TimerNode n) :
    (x.again ticksPrevious u).isRunning = x.isRunning := by
  unfold TimerNode.again
  split <;> rfl

@[simp] theorem again_ticksPeriodicInterval (ticksPrevious u : ℕ) (x : TimerNode n) :
    (x.again ticksPrevious u).ticksPeriodicInterval = x.ticksPeriodicInterval := by
  unfold TimerNode.again
  split <;> rfl

theorem again_ticksFirstInterval (ticksPrevious u : ℕ) {x : TimerNode n}
    (h : x.ticksPeriodicInterval ≠ 0) :
    (x.again ticksPrevious u).ticksFirstInterval = x.ticksPeriodicInterval := by
  unfold TimerNode.again
  rw [if_pos h]

/-- **What is done with the timers that have expired**: they leave the list, and those that are
    periodic are collected. -/
structure Expired (ticksPrevious b e : ℕ) (s t : AppTimer n) (d l : List (Fin n × ℕ))
    (r : Option (Fin n)) (l' : List (Fin n × ℕ)) : Prop where
  chain : t.Chain t.mpTimerIdHead (expire e d)
  restart : t.Chain r l'
  mem_restart : ∀ i, i ∈ keys l' ↔
    i ∈ keys l ∨ i ∈ keys (expired e d) ∧ (s.node i).ticksPeriodicInterval ≠ 0
  nodup : (keys (expire e d) ++ keys l').Nodup
  kept : ∀ i, i ∉ keys (expired e d) → (t.node i).data = (s.node i).data
  again : ∀ i u, (i, u) ∈ dues b (expired e d) →
    (t.node i).data = (s.node i).data.again ticksPrevious u
  vars : t.vars = s.vars
  latest : t.mTicksLatest = s.mTicksLatest
  reset : t.mRtc1Reset = s.mRtc1Reset

/-- The first timer has expired. -/
theorem Expired.cons {ticksPrevious b c : ℕ} {f : Fin n × ℕ} {u : AppTimer n} {r : Option (Fin n)}
    {l₁ l' : List (Fin n × ℕ)} (hge : ¬ c < f.2) (hf : f.1 ∉ keys d)
    (hnodes : ∀ i, i ≠ f.1 → u.node i = s.node i)
    (hdata : (u.node f.1).data = (s.node f.1).data.again ticksPrevious (b + f.2))
    (hl : ∀ i, i ∈ keys l₁ ↔ i ∈ keys l ∨ i = f.1 ∧ (s.node i).ticksPeriodicInterval ≠ 0)
    (hvars : u.vars = s.vars) (hlatest : u.mTicksLatest = s.mTicksLatest)
    (hreset : u.mRtc1Reset = s.mRtc1Reset)
    (h : Expired ticksPrevious (b + f.2) (c - f.2) u t d l₁ r l') :
    Expired ticksPrevious b c s t (f :: d) l r l' := by
  have hexpire : expire c (f :: d) = expire (c - f.2) d := if_neg hge
  have hexpired : expired c (f :: d) = f :: expired (c - f.2) d := if_neg hge
  have hfexpired : f.1 ∉ keys (expired (c - f.2) d) := fun h => hf (by
    rw [← keys_expired_append (c - f.2) d]
    exact List.mem_append_left _ h)
  refine ⟨?_, h.restart, fun i => ?_, ?_, fun i hi => ?_, fun i v hv => ?_, h.vars.trans hvars,
    h.latest.trans hlatest, h.reset.trans hreset⟩
  · rw [hexpire]
    exact h.chain
  · rw [h.mem_restart, hl, hexpired]
    by_cases hif : i = f.1
    · subst hif
      simp [hfexpired]
    · rw [hnodes i hif]
      simp [hif]
  · rw [hexpire]
    exact h.nodup
  · rw [hexpired] at hi
    have hif : i ≠ f.1 := fun h => hi (h ▸ List.mem_cons_self ..)
    rw [h.kept i fun h => hi (List.mem_cons_of_mem _ h), hnodes i hif]
  · rw [hexpired, dues_cons, List.mem_cons] at hv
    rcases hv with hv | hv
    · obtain ⟨rfl, rfl⟩ := Prod.mk.inj hv
      rw [h.kept _ hfexpired, hdata]
    · have hif : i ≠ f.1 := by
        rintro rfl
        exact hfexpired ((mem_keys_iff (b + f.2)).mpr ⟨v, hv⟩)
      rw [h.again i v hv, hnodes i hif]

/-- **The loop of `expired_timers_handler`** ends. -/
theorem expiredTimersLoop_spec (ticksPrevious : ℕ) : ∀ d fuel e b r l (s : AppTimer n),
    s.Chain s.mpTimerIdHead d → s.Chain r l → (keys d ++ keys l).Nodup → d.length < fuel →
    ∃ r' t l', expiredTimersLoop ticksPrevious fuel e b r s = some (r', t) ∧
      Expired ticksPrevious b e s t d l r' l' := by
  intro d
  -- The loop takes the head while its ticks are used up: the induction is on the list it walks.
  induction d with
  | nil =>
    intro fuel e b r l s hchain hrestart hnodup hfuel
    obtain ⟨fuel, rfl⟩ : ∃ k, fuel = k + 1 := ⟨fuel - 1, by simp at hfuel; omega⟩
    have hhead : s.mpTimerIdHead = none := hchain
    unfold expiredTimersLoop
    rw [hhead]
    refine ⟨r, s, l, rfl, hchain, hrestart, fun i => ?_, hnodup, fun _ _ => rfl, fun i u hu => ?_,
      rfl, rfl, rfl⟩
    · simp [expired]
    · cases hu
  | cons q d ih =>
    intro fuel e b r l s hchain hrestart hnodup hfuel
    obtain ⟨fuel, rfl⟩ : ∃ k, fuel = k + 1 := ⟨fuel - 1, by simp at hfuel; omega⟩
    obtain ⟨hhead, hticks, hrest⟩ := hchain
    obtain ⟨hq, hnodup'⟩ := List.nodup_cons.mp hnodup
    -- The head is in neither list any more, so writing it keeps both.
    have hqd : q.1 ∉ keys d := fun h => hq (List.mem_append_left _ h)
    have hql : q.1 ∉ keys l := fun h => hq (List.mem_append_right _ h)
    unfold expiredTimersLoop
    rw [hhead]
    dsimp only at hticks hrest ⊢
    rw [hticks]
    by_cases hlt : e < q.2
    · -- The first timer is not due.
      have hexpire : expire e (q :: d) = (q.1, q.2 - e) :: d := if_pos hlt
      have hexpired : expired e (q :: d) = [] := if_pos hlt
      rw [if_pos hlt]
      refine ⟨r, _, l, rfl, ?_, ?_, fun i => ?_, ?_, fun i _ => ?_, fun i u hu => ?_, rfl, rfl, rfl⟩
      · rw [hexpire]
        refine ⟨hhead, ?_, ?_⟩
        · show (AppTimer.node _ q.1).ticksToExpire = q.2 - e
          rw [setNode_self, ← hticks]
        · show AppTimer.Chain _ (AppTimer.node _ q.1).next d
          rw [setNode_self]
          exact AppTimer.Chain.congr hrest fun i hi => by
            rw [setNode_ne]
            rintro rfl
            exact hqd hi
      · refine hrestart.congr fun i hi => ?_
        rw [setNode_ne]
        rintro rfl
        exact hql hi
      · rw [hexpired]
        simp
      · rw [hexpire]
        exact hnodup
      · have hq : q.1 ∈ keys (q :: d) := List.mem_cons_self
        exact (relinks_setNode s hq (by intro x; rfl)).data i
      · rw [hexpired] at hu
        cases hu
    · rw [if_neg hlt, setNode_self]
      dsimp only
      by_cases hperiod : (s.node q.1).ticksPeriodicInterval = 0
      · -- The timer stops.
        rw [if_neg (not_not.mpr hperiod)]
        obtain ⟨u, hu⟩ : ∃ u : AppTimer n, u =
            { s.setNode q.1 fun x => { x with ticksToExpire := 0 } with
              mpTimerIdHead := (s.node q.1).next } := ⟨_, rfl⟩
        have hnodes : ∀ i, i ≠ q.1 → u.node i = s.node i := by
          intro i hi
          rw [hu]
          dsimp only
          rw [setNode_ne _ _ hi]
        have hself : u.node q.1 = { s.node q.1 with ticksToExpire := 0 } := by
          rw [hu]
          dsimp only
          rw [setNode_self]
        have hhead' : u.mpTimerIdHead = (s.node q.1).next := by rw [hu]
        rw [← hu]
        -- The ticks of the head are spent for the timers behind it.
        obtain ⟨r', t, l', ht, h⟩ := ih fuel (e - q.2) (b + q.2) r l u
          (hhead' ▸ AppTimer.Chain.congr hrest fun i hi => hnodes i fun h => hqd (h ▸ hi))
          (hrestart.congr fun i hi => hnodes i fun h => hql (h ▸ hi)) hnodup'
          (by simpa using hfuel)
        refine ⟨r', t, l', ht, h.cons hlt hqd hnodes ?_ (fun i => ?_) ?_ ?_ ?_⟩
        · rw [hself]
          exact (if_neg (not_not.mpr hperiod)).symm
        · constructor
          · exact .inl
          · rintro (hi | ⟨rfl, hi⟩)
            · exact hi
            · exact absurd hperiod hi
        · rw [hu]
          rfl
        · rw [hu]
          rfl
        · rw [hu]
          rfl
      · -- The timer is collected, to be restarted.
        rw [if_pos hperiod]
        obtain ⟨u, hu⟩ : ∃ u : AppTimer n, u =
            AppTimer.setNode { s.setNode q.1 fun x => { x with ticksToExpire := 0 } with
              mpTimerIdHead := (s.node q.1).next } q.1 fun x =>
              { x with
                ticksAtStart := (ticksPrevious + (b + q.2)) % (maxRtcCounterVal + 1)
                ticksFirstInterval := x.ticksPeriodicInterval
                next := r } := ⟨_, rfl⟩
        have hnodes : ∀ i, i ≠ q.1 → u.node i = s.node i := by
          intro i hi
          rw [hu, setNode_ne _ _ hi]
          dsimp only
          rw [setNode_ne _ _ hi]
        have hself : u.node q.1 = { s.node q.1 with
            ticksToExpire := 0
            ticksAtStart := (ticksPrevious + (b + q.2)) % (maxRtcCounterVal + 1)
            ticksFirstInterval := (s.node q.1).ticksPeriodicInterval
            next := r } := by
          rw [hu, setNode_self]
          dsimp only
          rw [setNode_self]
        have hhead' : u.mpTimerIdHead = (s.node q.1).next := by
          rw [hu]
          rfl
        rw [← hu]
        -- The same, with the head pushed on the list to restart.
        obtain ⟨r', t, l', ht, h⟩ := ih fuel (e - q.2) (b + q.2) (some q.1) ((q.1, 0) :: l) u
          (hhead' ▸ AppTimer.Chain.congr hrest fun i hi => hnodes i fun h => hqd (h ▸ hi))
          ⟨rfl, congrArg TimerNode.ticksToExpire hself, by
            dsimp only
            rw [hself]
            exact hrestart.congr fun i hi => hnodes i fun h => hql (h ▸ hi)⟩
          (by
            rw [show keys ((q.1, 0) :: l) = q.1 :: keys l from rfl, List.nodup_middle]
            exact hnodup)
          (by simpa using hfuel)
        refine ⟨r', t, l', ht, h.cons hlt hqd hnodes ?_ (fun i => ?_) ?_ ?_ ?_⟩
        · rw [hself]
          exact (if_pos hperiod).symm
        · rw [show keys ((q.1, 0) :: l) = q.1 :: keys l from rfl, List.mem_cons]
          constructor
          · rintro (rfl | hi)
            · exact .inr ⟨rfl, hperiod⟩
            · exact .inl hi
          · rintro (hi | ⟨rfl, -⟩)
            · exact .inr hi
            · exact .inl rfl
        · rw [hu]
          rfl
        · rw [hu]
          rfl
        · rw [hu]
          rfl

/-! ## §3 Insertions -/

/-- What `list_insertions_handler` writes into the node of a timer. -/
def TimerNode.run (x : TimerNode n) : TimerNode n :=
  { x with ticksAtStart := 0, ticksFirstInterval := 0, isRunning := true }

theorem insertTicks_lt {latest start first : ℕ} (hfirst : first < 2 ^ 32) :
    insertTicks latest start first < 2 ^ 32 := by
  unfold insertTicks
  by_cases hdiff : ticksDiffGet start latest < maxRtcCounterVal / 2
  · rw [if_pos hdiff]
    apply Nat.mod_lt
    decide
  · rw [if_neg hdiff]
    dsimp only
    by_cases hgt : first > ticksDiffGet latest start
    · rw [if_pos hgt]
      omega
    · rw [if_neg hgt]
      decide

/-- **One timer is inserted.** -/
theorem insertTimer_spec (h : s.Lists d) (hp : p ∉ keys d)
    (hfirst : (s.node p).ticksFirstInterval < 2 ^ 32) :
    ∃ t, insertTimer p s = some t ∧
      t.Lists (DeltaList.insert p (insertTicks s.mTicksLatest (s.node p).ticksAtStart
        (s.node p).ticksFirstInterval) d) ∧
      (∀ i, i ∉ p :: keys d → t.node i = s.node i) ∧
      (∀ i, i ≠ p → (t.node i).data = (s.node i).data) ∧
      (t.node p).data = (s.node p).data.run ∧
      t.vars = s.vars ∧ t.mTicksLatest = s.mTicksLatest ∧ t.mRtc1Reset = s.mRtc1Reset := by
  unfold insertTimer
  obtain ⟨u, hu⟩ : ∃ u, u = s.setNode p fun x =>
      { x with
        ticksToExpire := insertTicks s.mTicksLatest x.ticksAtStart x.ticksFirstInterval
        ticksAtStart := 0
        ticksFirstInterval := 0
        isRunning := true
        next := none } := ⟨_, rfl⟩
  have hnodes : ∀ i, i ≠ p → u.node i = s.node i := by
    intro i hi
    rw [hu, setNode_ne _ _ hi]
  have hself : u.node p = { s.node p with
      ticksToExpire := insertTicks s.mTicksLatest (s.node p).ticksAtStart
        (s.node p).ticksFirstInterval
      ticksAtStart := 0
      ticksFirstInterval := 0
      isRunning := true
      next := none } := by
    rw [hu, setNode_self]
  have hlists : u.Lists d := by
    refine ⟨?_, h.nodup, h.small⟩
    have hhead : u.mpTimerIdHead = s.mpTimerIdHead := by
      rw [hu]
      rfl
    rw [hhead]
    exact h.chain.congr fun i hi => hnodes i fun hip => hp (hip ▸ hi)
  have hticks : (u.node p).ticksToExpire = insertTicks s.mTicksLatest (s.node p).ticksAtStart
      (s.node p).ticksFirstInterval := by
    rw [hself]
  obtain ⟨t, ht, hlists', hrelinks, hlatest, hreset⟩ := timerListInsert_lists hlists hp
    (by rw [hself]) (hticks ▸ insertTicks_lt hfirst)
  rw [← hu]
  rw [hticks] at hlists'
  refine ⟨t, ht, hlists', fun i hi => ?_, fun i hi => ?_, ?_, hrelinks.vars.trans (by rw [hu]; rfl),
    hlatest.trans (by rw [hu]; rfl), hreset.trans (by rw [hu]; rfl)⟩
  · rw [hrelinks.outside i hi, hnodes i fun hip => hi (hip ▸ List.mem_cons_self ..)]
  · rw [hrelinks.data i, hnodes i hi]
  · rw [hrelinks.data p, hself]
    rfl

/-- **The restarts** end: each of the timers is inserted. -/
theorem restartLoop_spec : ∀ l fuel r (s : AppTimer n) d, s.Lists d → s.Chain r l →
    (keys d ++ keys l).Nodup → (∀ i ∈ keys l, (s.node i).ticksFirstInterval < 2 ^ 32) →
    l.length < fuel →
    ∃ t d', restartLoop fuel r s = some t ∧ t.Lists d' ∧
      (∀ e, e ∈ dues 0 d' ↔ e ∈ dues 0 d ∨ e.1 ∈ keys l ∧ e.2 = insertTicks s.mTicksLatest
        (s.node e.1).ticksAtStart (s.node e.1).ticksFirstInterval) ∧
      (∀ i, i ∉ keys l → (t.node i).data = (s.node i).data) ∧
      (∀ i ∈ keys l, (t.node i).data = (s.node i).data.run) ∧
      t.vars = s.vars ∧ t.mTicksLatest = s.mTicksLatest ∧ t.mRtc1Reset = s.mRtc1Reset := by
  intro l
  induction l with
  | nil =>
    intro fuel r s d h hchain hnodup hfirst hfuel
    obtain ⟨fuel, rfl⟩ : ∃ k, fuel = k + 1 := ⟨fuel - 1, by simp at hfuel; omega⟩
    obtain rfl : r = none := hchain
    exact ⟨s, d, rfl, h, fun e => by simp, fun _ _ => rfl, fun i hi => absurd hi List.not_mem_nil,
      rfl, rfl, rfl⟩
  | cons f l ih =>
    intro fuel r s d h hchain hnodup hfirst hfuel
    obtain ⟨fuel, rfl⟩ : ∃ k, fuel = k + 1 := ⟨fuel - 1, by simp at hfuel; omega⟩
    obtain ⟨rfl, -, hrest⟩ := hchain
    rw [show keys (f :: l) = f.1 :: keys l from rfl, List.nodup_middle] at hnodup
    obtain ⟨hf, hnodup⟩ := List.nodup_cons.mp hnodup
    have hfd : f.1 ∉ keys d := fun h => hf (List.mem_append_left _ h)
    have hfl : f.1 ∉ keys l := fun h => hf (List.mem_append_right _ h)
    obtain ⟨u, hu, hlists, houtside, hdata, hself, hvars, hlatest, hreset⟩ := insertTimer_spec h hfd
      (hfirst _ (List.mem_cons_self ..))
    -- The insertion relinks the list only, so the timers still to restart are as they were.
    have hsame : ∀ i ∈ keys l, u.node i = s.node i := by
      intro i hi
      apply houtside
      rw [List.mem_cons, not_or]
      refine ⟨fun hif => hfl (hif ▸ hi), fun hid => ?_⟩
      exact List.disjoint_of_nodup_append hnodup hid hi
    have hne : ∀ i ∈ keys l, i ≠ f.1 := fun i hi hif => hfl (hif ▸ hi)
    obtain ⟨t, d', ht, hlists', hmem, hkept, hrun, hothers⟩ := ih fuel _ u _ hlists
      (AppTimer.Chain.congr hrest hsame)
      (by
        refine List.Nodup.append hlists.nodup (List.Nodup.of_append_right hnodup) ?_
        intro i hi hil
        rcases mem_keys_insert.mp hi with rfl | hi
        · exact hfl hil
        · exact List.disjoint_of_nodup_append hnodup hi hil)
      (fun i hi => by rw [hsame i hi]; exact hfirst i (List.mem_cons_of_mem _ hi))
      (by simpa using hfuel)
    have hstep : restartLoop (fuel + 1) (some f.1) s = some t := by
      show (insertTimer f.1 s).bind (restartLoop fuel (s.node f.1).next) = some t
      rw [hu]
      exact ht
    refine ⟨t, d', hstep, hlists', fun e => ?_, fun i hi => ?_, fun i hi => ?_,
      hothers.1.trans hvars, hothers.2.1.trans hlatest, hothers.2.2.trans hreset⟩
    · rw [hmem e, mem_dues_insert, hlatest, Nat.zero_add]
      rw [show keys (f :: l) = f.1 :: keys l from rfl, List.mem_cons]
      constructor
      · rintro ((rfl | he) | ⟨hel, heq⟩)
        · exact .inr ⟨.inl rfl, rfl⟩
        · exact .inl he
        · rw [hsame _ hel] at heq
          exact .inr ⟨.inr hel, heq⟩
      · rintro (he | ⟨hef | hel, heq⟩)
        · exact .inl (.inr he)
        · exact .inl (.inl (Prod.ext hef (by rw [heq, hef])))
        · rw [← hsame _ hel] at heq
          exact .inr ⟨hel, heq⟩
    · rw [hkept i fun h => hi (List.mem_cons_of_mem _ h), hdata i fun h => hi (h ▸ List.mem_cons_self ..)]
    · rcases List.mem_cons.mp hi with rfl | hi
      · rw [hkept _ hfl, hself]
      · rw [hrun i hi, hdata i (hne i hi)]

/-- The parameters of the first start of timer `i`. -/
def firstStart (q : List (TimerUserOp n)) (i : Fin n) : Option TimerUserOpStart :=
  q.findSome? fun op =>
    match op with
    | .start p params => if p = i then some params else none
    | _ => none

theorem firstStart_isSome {params : TimerUserOpStart} (h : .start i params ∈ q) :
    (firstStart q i).isSome = true := by
  unfold firstStart
  rw [List.findSome?_isSome_iff]
  exact ⟨_, h, by simp⟩

theorem mem_of_firstStart {params : TimerUserOpStart} (h : firstStart q i = some params) :
    .start i params ∈ q := by
  unfold firstStart at h
  obtain ⟨op, hop, hparams⟩ := List.exists_of_findSome?_eq_some h
  cases op with
  | start p params' =>
    dsimp only at hparams
    by_cases hp : p = i
    · rw [if_pos hp, Option.some.injEq] at hparams
      rwa [hp, hparams] at hop
    · rw [if_neg hp] at hparams
      cases hparams
  | stop p => cases hparams
  | stopAll => cases hparams

/-- What `list_insertions_handler` takes over from a start. -/
def TimerNode.take (params : TimerUserOpStart) (x : TimerNode n) : TimerNode n :=
  { x with
    ticksPeriodicInterval := params.ticksPeriodicInterval
    pContext := params.pContext }

/-- **What the operations do**, after the restarts: a timer that does not run is inserted at its first
    start. -/
structure Inserted (q : List (TimerUserOp n)) (s t : AppTimer n) (d d' : List (Fin n × ℕ)) :
    Prop where
  lists : t.Lists d'
  mem_dues : ∀ e, e ∈ dues 0 d' ↔ e ∈ dues 0 d ∨ (s.node e.1).isRunning = false ∧
    ∃ params, firstStart q e.1 = some params ∧ e.2 = insertTicks s.mTicksLatest
      (if s.mRtc1Reset = true then 0 else params.ticksAtStart) params.ticksFirstInterval
  kept : ∀ i, (s.node i).isRunning = true ∨ firstStart q i = none →
    (t.node i).data = (s.node i).data
  started : ∀ i params, (s.node i).isRunning = false → firstStart q i = some params →
    (t.node i).data = (s.node i).data.run.take params
  vars : t.vars = s.vars
  latest : t.mTicksLatest = s.mTicksLatest
  reset : t.mRtc1Reset = s.mRtc1Reset

/-- The first of the operations inserts no timer. -/
theorem Inserted.skip {op : TimerUserOp n} {d' : List (Fin n × ℕ)}
    (hop : ∀ i, (s.node i).isRunning = false → firstStart (op :: q) i = firstStart q i)
    (h : Inserted q s t d d') : Inserted (op :: q) s t d d' := by
  refine ⟨h.lists, fun e => ?_, fun i hi => ?_, fun i params hi hfirst => ?_, h.vars, h.latest,
    h.reset⟩
  · rw [h.mem_dues e]
    apply or_congr Iff.rfl
    apply and_congr_right
    intro he
    rw [hop e.1 he]
  · apply h.kept
    cases hrunning : (s.node i).isRunning with
    | true => exact .inl rfl
    | false =>
      rw [hrunning, hop i hrunning] at hi
      exact .inr (hi.resolve_left (by decide))
  · rw [hop i hi] at hfirst
    exact h.started i params hi hfirst

theorem firstStart_self (q : List (TimerUserOp n)) (p : Fin n) (params : TimerUserOpStart) :
    firstStart (.start p params :: q) p = some params := by
  simp [firstStart]

theorem firstStart_ne (q : List (TimerUserOp n)) (params : TimerUserOpStart) (h : i ≠ p) :
    firstStart (.start p params :: q) i = firstStart q i := by
  unfold firstStart
  rw [List.findSome?_cons]
  dsimp only
  rw [if_neg h.symm]

/-- The first of the operations inserts timer `p`. -/
theorem Inserted.start {params : TimerUserOpStart} {u : AppTimer n} {d' : List (Fin n × ℕ)} {v : ℕ}
    (hp : (s.node p).isRunning = false) (hpd : p ∉ keys d)
    (hv : v = insertTicks s.mTicksLatest (if s.mRtc1Reset = true then 0 else params.ticksAtStart)
      params.ticksFirstInterval)
    (hdata : ∀ i, i ≠ p → (u.node i).data = (s.node i).data)
    (hself : (u.node p).data = (s.node p).data.run.take params) (hvars : u.vars = s.vars)
    (hlatest : u.mTicksLatest = s.mTicksLatest) (hreset : u.mRtc1Reset = s.mRtc1Reset)
    (h : Inserted q u t (DeltaList.insert p v d) d') : Inserted (.start p params :: q) s t d d' := by
  have hrunning : (u.node p).isRunning = true := by
    have hrun : (u.node p).data.isRunning = true := by rw [hself]; rfl
    exact hrun
  refine ⟨h.lists, fun e => ?_, fun i hi => ?_, fun i params' hi hfirst => ?_, h.vars.trans hvars,
    h.latest.trans hlatest, h.reset.trans hreset⟩
  · rw [h.mem_dues e, mem_dues_insert, hlatest, hreset, Nat.zero_add]
    by_cases hep : e.1 = p
    · -- `p` is in the list once.
      have hnot : e ∉ dues 0 d := fun he => hpd (hep ▸ (mem_keys_iff 0).mpr ⟨e.2, he⟩)
      rw [hep, hrunning, hp, firstStart_self]
      simp only [hnot, or_false, false_or, Bool.true_eq_false, false_and, true_and, Option.some.injEq,
        exists_eq_left', ← hv]
      constructor
      · rintro rfl
        rfl
      · exact fun he => Prod.ext hep he
    · have hne : e ≠ (p, v) := fun he => hep (congrArg Prod.fst he)
      rw [isRunning_of_data (hdata e.1 hep), firstStart_ne q params hep]
      simp only [hne, false_or]
  · have hip : i ≠ p := by
      rintro rfl
      rcases hi with hi | hi
      · rw [hp] at hi
        cases hi
      · rw [firstStart_self] at hi
        cases hi
    rw [firstStart_ne q params hip] at hi
    rw [← hdata i hip]
    apply h.kept
    rwa [isRunning_of_data (hdata i hip)]
  · by_cases hip : i = p
    · subst hip
      rw [firstStart_self] at hfirst
      obtain rfl := Option.some.inj hfirst
      rw [h.kept _ (.inl hrunning), hself]
    · rw [firstStart_ne q params hip] at hfirst
      rw [h.started i params' (by rw [isRunning_of_data (hdata i hip)]; exact hi) hfirst, hdata i hip]

/-- **The operations** end if a timer that is in the list and does not run is not started. -/
theorem insertOps_spec : ∀ (q : List (TimerUserOp n)) s d, s.Lists d →
    (∀ i params, .start i params ∈ q → params.ticksFirstInterval < 2 ^ 32) →
    (∀ i params, .start i params ∈ q → i ∈ keys d → (s.node i).isRunning = true) →
    ∃ t d', q.foldlM insertOp s = some t ∧ Inserted q s t d d' := by
  intro q
  induction q with
  | nil =>
    intro s d h _ _
    refine ⟨s, d, rfl, h, fun e => ?_, fun _ _ => rfl, fun i params _ hfirst => ?_, rfl, rfl, rfl⟩
    · simp [firstStart]
    · cases hfirst
  | cons op q ih =>
    intro s d h hsmall hsafe
    have hsmall' : ∀ i params, .start i params ∈ q → params.ticksFirstInterval < 2 ^ 32 :=
      fun i params hi => hsmall i params (List.mem_cons_of_mem _ hi)
    have hsafe' : ∀ i params, .start i params ∈ q → i ∈ keys d → (s.node i).isRunning = true :=
      fun i params hi => hsafe i params (List.mem_cons_of_mem _ hi)
    rw [List.foldlM_cons]
    cases op with
    -- only a start inserts a timer
    | stop p =>
      obtain ⟨t, d', ht, hinserted⟩ := ih s d h hsmall' hsafe'
      exact ⟨t, d', ht, hinserted.skip fun i _ => rfl⟩
    | stopAll =>
      obtain ⟨t, d', ht, hinserted⟩ := ih s d h hsmall' hsafe'
      exact ⟨t, d', ht, hinserted.skip fun i _ => rfl⟩
    | start p params =>
      by_cases hp : (s.node p).isRunning = true
      · -- The timer runs already.
        obtain ⟨t, d', ht, hinserted⟩ := ih s d h hsmall' hsafe'
        have hop : insertOp s (.start p params) = some s := if_pos hp
        refine ⟨t, d', by rw [hop]; exact ht, hinserted.skip fun i hi => ?_⟩
        apply firstStart_ne
        rintro rfl
        rw [hp] at hi
        cases hi
      · have hp' : (s.node p).isRunning = false := by simpa using hp
        -- The timer does not run and is in no list, so it can be linked.
        have hpd : p ∉ keys d := fun h => hp (hsafe p params (List.mem_cons_self ..) h)
        obtain ⟨w, hw⟩ : ∃ w, w = s.setNode p fun x =>
            { x with
              ticksAtStart := if s.mRtc1Reset = true then 0 else params.ticksAtStart
              ticksFirstInterval := params.ticksFirstInterval
              ticksPeriodicInterval := params.ticksPeriodicInterval
              pContext := params.pContext } := ⟨_, rfl⟩
        have hop : insertOp s (.start p params) = insertTimer p w := by
          rw [hw]
          exact if_neg hp
        have hnodes : ∀ i, i ≠ p → w.node i = s.node i := by
          intro i hi
          rw [hw, setNode_ne _ _ hi]
        have hself : w.node p = { s.node p with
            ticksAtStart := if s.mRtc1Reset = true then 0 else params.ticksAtStart
            ticksFirstInterval := params.ticksFirstInterval
            ticksPeriodicInterval := params.ticksPeriodicInterval
            pContext := params.pContext } := by
          rw [hw, setNode_self]
        have hlists : w.Lists d := by
          refine ⟨?_, h.nodup, h.small⟩
          have hhead : w.mpTimerIdHead = s.mpTimerIdHead := by
            rw [hw]
            rfl
          rw [hhead]
          exact h.chain.congr fun i hi => hnodes i fun hip => hpd (hip ▸ hi)
        have hfirst : (w.node p).ticksFirstInterval < 2 ^ 32 := by
          rw [hself]
          exact hsmall p params (List.mem_cons_self ..)
        obtain ⟨u, hu, hlists', -, hdata, hrun, hvars, hlatest, hreset⟩ :=
          insertTimer_spec hlists hpd hfirst
        have hdata' : ∀ i, i ≠ p → (u.node i).data = (s.node i).data := by
          intro i hi
          rw [hdata i hi, hnodes i hi]
        have hself' : (u.node p).data = (s.node p).data.run.take params := by
          rw [hrun, hself]
          rfl
        -- A second start of the timer finds it running.
        have hsafe'' : ∀ v i params', .start i params' ∈ q → i ∈ keys (DeltaList.insert p v d) →
            (u.node i).isRunning = true := by
          intro v i params' hi hmem
          by_cases hip : i = p
          · subst hip
            have hrunning : (u.node i).data.isRunning = true := by rw [hself']; rfl
            exact hrunning
          · rw [isRunning_of_data (hdata' i hip)]
            exact hsafe' i params' hi ((mem_keys_insert.mp hmem).resolve_left hip)
        obtain ⟨t, d', ht, hinserted⟩ := ih u _ hlists' hsmall' (hsafe'' _)
        refine ⟨t, d', by rw [hop, hu]; exact ht, .start hp' hpd ?_ hdata' hself'
          (hvars.trans (by rw [hw]; rfl)) (hlatest.trans (by rw [hw]; rfl))
          (hreset.trans (by rw [hw]; rfl)) hinserted⟩
        rw [hself]
        have hl : w.mTicksLatest = s.mTicksLatest := by
          rw [hw]
          rfl
        rw [hl]

end NordicEsb.Timer
