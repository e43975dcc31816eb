import NordicEsb.Timer.Integrity

/-!
# Operations Take Effect in Call Order

`replay` is what the operations of the queue mean for a timer when they are carried out one after the
other. The list handler deletes first and inserts afterwards, so it agrees only if no stop comes
behind a start of the same timer in the same batch.

- `OrderTrace` keeps the timers whose last call was a stop
- the other part of the condition is about the RTC: its counter does not pass a whole period between
  two interrupts without a run of the list handler

**Main result**: `inOrder_of_reachable`.
-/

namespace NordicEsb.Timer

open DeltaList LinkedList

variable {n : ℕ} {s t : AppTimer n} {d pre : List (Fin n × ℕ)} {q : List (TimerUserOp n)} {i : Fin n}

/-! ## §1 Replay -/

/-- What a sequence of operations leaves a timer at: stopped, or running, with the start that was
    effective if there was one. -/
inductive Replayed where
  | stopped
  | running (params : Option TimerUserOpStart)
deriving DecidableEq, Repr

/-- A start of a stopped timer runs it, a stop ends it. -/
def replayOp (i : Fin n) (r : Replayed) : TimerUserOp n → Replayed
  | .start p params => if p = i ∧ r = .stopped then .running (some params) else r
  | .stop p => if p = i then .stopped else r
  | .stopAll => .stopped

/-- **The operations in call order.** -/
def replay (q : List (TimerUserOp n)) (i : Fin n) (r : Replayed) : Replayed := q.foldl (replayOp i) r

/-- No stop comes behind a start of the same timer. -/
def StopsFirst (q : List (TimerUserOp n)) : Prop :=
  q.Pairwise fun a b => ∀ i params, a = .start i params → b ≠ .stop i ∧ b ≠ .stopAll

theorem not_stops_of_stopsFirst {params : TimerUserOpStart} (h : StopsFirst (.start i params :: q)) :
    ¬ Stops q i := by
  have hall := (List.pairwise_cons.mp h).1
  rintro (hstop | hstop)
  · exact (hall _ hstop i params rfl).1 rfl
  · exact (hall _ hstop i params rfl).2 rfl

/-- **Stops first** is as good as in order: then the first start counts. -/
theorem replay_of_stopsFirst : ∀ (q : List (TimerUserOp n)) r, StopsFirst q →
    replay q i r =
      match if Stops q i then .stopped else r, firstStart q i with
      | .stopped, some params => .running (some params)
      | r', _ => r' := by
  intro q
  induction q with
  | nil =>
    intro r _
    have hnone : ¬ Stops ([] : List (TimerUserOp n)) i := by simp [Stops]
    rw [if_neg hnone]
    cases r <;> rfl
  | cons op q ih =>
    intro r h
    have hq : StopsFirst q := (List.pairwise_cons.mp h).2
    show replay q i (replayOp i r op) = _
    rw [ih _ hq]
    cases op with
    | start p params =>
      have hstops : Stops (.start p params :: q) i ↔ Stops q i := by simp [Stops]
      simp only [hstops]
      by_cases hp : p = i
      · subst hp
        have hnot := not_stops_of_stopsFirst h
        rw [if_neg hnot, if_neg hnot, firstStart_self]
        cases r with
        | stopped => simp [replayOp]
        | running r => simp [replayOp]
      · rw [firstStart_ne q params (Ne.symm hp)]
        simp [replayOp, hp]
    | stop p =>
      have hfirst : firstStart (.stop p :: q) i = firstStart q i := rfl
      have hstops : Stops (.stop p :: q) i ↔ i = p ∨ Stops q i := by
        unfold Stops
        simp [or_assoc]
      rw [hfirst]
      by_cases hp : i = p
      · have hop : replayOp i r (.stop p) = .stopped := if_pos hp.symm
        rw [hop, if_pos (hstops.mpr (.inl hp)), ite_self]
      · have hop : replayOp i r (.stop p) = r := if_neg (Ne.symm hp)
        simp only [hop, hstops, hp, false_or]
    | stopAll =>
      have hfirst : firstStart (.stopAll :: q) i = firstStart q i := rfl
      have hstops : Stops (.stopAll :: q) i := .inr (List.mem_cons_self ..)
      have hop : replayOp i r .stopAll = .stopped := rfl
      rw [hfirst, hop, if_pos hstops, ite_self]

/-! ## §2 The property -/

/-- What the operations start from: the timer runs, or it is periodic and has just expired. -/
def AppTimer.base (s : AppTimer n) (i : Fin n) : Replayed :=
  if (s.node i).isRunning = true ∨
      s.Expires s.timerList i ∧ (s.node i).ticksPeriodicInterval ≠ 0 then
    .running none
  else .stopped

/-- A started timer is due as its start says. If all timers that were in the list have been stopped,
    the RTC is reset, and the time is counted from there. -/
def DueFrom (s t : AppTimer n) (i : Fin n) (params : TimerUserOpStart) : Prop :=
  ∃ u, (i, u) ∈ dues 0 t.timerList ∧
    (u = insertTicks t.mTicksLatest params.ticksAtStart params.ticksFirstInterval ∨
      (s.timerList ≠ [] ∧ ∀ j ∈ keys s.timerList, .stop j ∈ s.mOpQueue) ∧ t.mTicksLatest = 0 ∧
        u = insertTicks 0 0 params.ticksFirstInterval)

/-- **Timer `i` is as the operations in call order leave it.** It runs if and only if it is in the
    list. -/
def Replays (s t : AppTimer n) (i : Fin n) : Prop :=
  ((t.node i).isRunning = true ↔ i ∈ keys t.timerList) ∧
  match replay s.mOpQueue i (s.base i) with
  | .stopped => (t.node i).isRunning = false
  | .running none => (t.node i).isRunning = true
  | .running (some params) => (t.node i).isRunning = true ∧
    (t.node i).ticksPeriodicInterval = params.ticksPeriodicInterval ∧
    (t.node i).pContext = params.pContext ∧ DueFrom s t i params

/-- **The list handler** ends, and carries out the operations in call order. -/
def InOrder (cfg : TimerConfig) (s : AppTimer n) : Prop :=
  ∃ t, timerListHandler cfg s = some t ∧ ∀ i, Replays s t i

/-- The ticks of a started timer lead to the end of its first interval, unless that is over. -/
theorem insertTicks_expiry (latest start first : ℕ) :
    (latest + insertTicks latest start first) % (maxRtcCounterVal + 1) =
        (start + first) % (maxRtcCounterVal + 1) ∨
      insertTicks latest start first = 0 ∧ first ≤ ticksDiffGet latest start := by
  unfold insertTicks ticksDiffGet maxRtcCounterVal
  split
  · left
    omega
  · dsimp only
    split
    · left
      omega
    · right
      constructor
      · rfl
      · omega

/-! ## §3 The invariant -/

/-- How far the RTC interrupt has come: it has visited the nodes of `pre`. -/
def AppTimer.Visited (s : AppTimer n) (pre : List (Fin n × ℕ)) : Prop :=
  match s.check with
  | .idle => pre = []
  | .checking p elapsed expired => ∃ suf, s.timerList = pre ++ suf ∧ s.Chain p suf ∧
    (pre.map Prod.snd).sum = expired ∧ ∀ c ∈ s.pending, c ≤ expired + elapsed

/-- **The invariant**: a timer in the list runs, unless there is a reason. -/
structure OrderInv (s : AppTimer n) (pre : List (Fin n × ℕ)) : Prop where
  list : ListInv s
  reset : s.mRtc1Reset = false
  ordered : StopsFirst s.mOpQueue
  linked : ∀ i, (s.node i).isRunning = true → i ∈ keys s.timerList
  reason : ∀ i ∈ keys s.timerList, (s.node i).isRunning = false →
    .stop i ∈ s.mOpQueue ∨ s.Expires s.timerList i ∨ i ∈ keys pre
  stopped : ∀ i, .stop i ∈ s.mOpQueue → (s.node i).isRunning = false
  expired : ∀ i, s.Expires s.timerList i → (s.node i).isRunning = false
  visited : ∀ i ∈ keys pre, (s.node i).isRunning = false
  check : s.Visited pre

theorem OrderInv.idle (h : OrderInv s pre) (hcheck : s.check = .idle) : OrderInv s [] := by
  have hpre := h.check
  unfold AppTimer.Visited at hpre
  rw [hcheck] at hpre
  exact hpre ▸ h

theorem OrderInv.insertable (h : OrderInv s []) : s.Insertable s.timerList := by
  intro i hstart hi
  cases hrunning : (s.node i).isRunning with
  | true => exact .inl rfl
  | false =>
    rcases h.reason i hi hrunning with hstop | hexpires | hi
    · exact .inr (.inl (.inl hstop))
    · exact .inr (.inr hexpires)
    · exact absurd hi List.not_mem_nil

/-! ## §4 A run of the list handler -/

/-- What the operations find. -/
theorem prepared_running {m : AppTimer n} {d₁ : List (Fin n × ℕ)} (h : OrderInv s [])
    (hp : Prepared s m s.timerList d₁) (i : Fin n) :
    ((m.node i).isRunning = true ↔ i ∈ keys d₁) ∧
      ((m.node i).isRunning = true ↔
        (if Stops s.mOpQueue i then Replayed.stopped else s.base i) = .running none) := by
  by_cases hrestarts : s.Restarts s.timerList i
  · -- It is restarted.
    obtain ⟨hmem, hrunning⟩ := hp.again i hrestarts
    obtain ⟨hstops, hexpires, hperiod⟩ := hrestarts
    have hbase : s.base i = .running none := if_pos (.inr ⟨hexpires, hperiod⟩)
    rw [if_neg hstops, hbase]
    exact ⟨⟨fun _ => hmem, fun _ => hrunning⟩, ⟨fun _ => rfl, fun _ => hrunning⟩⟩
  · by_cases hstops : Stops s.mOpQueue i
    · -- It is stopped.
      have hnot : i ∉ keys d₁ := fun hi => (hp.keys_cases i hi).1 hstops
      have hoff : (m.node i).isRunning = false := by
        by_contra hon
        have hon := Bool.eq_true_of_not_eq_false hon
        have hrunning := hp.running i hrestarts hon
        rcases hstops with hstop | hall
        · rw [h.stopped i hstop] at hrunning
          cases hrunning
        · by_cases hstop : .stop i ∈ s.mOpQueue
          · rw [h.stopped i hstop] at hrunning
            cases hrunning
          · rw [hp.ended i (h.linked i hrunning) hall hstop] at hon
            cases hon
      rw [if_pos hstops, hoff]
      simp [hnot]
    · have hkept := hp.kept i hrestarts fun hall => hstops (.inr hall.1)
      rw [if_neg hstops, hkept]
      have hbase : s.base i = .running none ↔ (s.node i).isRunning = true := by
        unfold AppTimer.base
        by_cases hrunning : (s.node i).isRunning = true
        · rw [if_pos (.inl hrunning)]
          exact ⟨fun _ => hrunning, fun _ => rfl⟩
        · rw [if_neg]
          · exact ⟨fun h => absurd h (by decide), fun h => absurd h hrunning⟩
          · rintro (hr | ⟨hexpires, hperiod⟩)
            · exact hrunning hr
            · exact hrestarts ⟨hstops, hexpires, hperiod⟩
      refine ⟨⟨fun hrunning => ?_, fun hi => ?_⟩, hbase.symm⟩
      · obtain ⟨u, hu⟩ := (mem_keys_iff 0).mp (h.linked i hrunning)
        have hexpires : ¬ s.Expires s.timerList i := fun hexpires => by
          rw [h.expired i hexpires] at hrunning
          cases hrunning
        exact (mem_keys_iff 0).mpr ⟨_, (hp.survives i u hu hstops hexpires).1⟩
      · obtain ⟨-, hlinked, hexpires⟩ := hp.keys_cases i hi
        by_contra hoff
        rcases h.reason i hlinked (by simpa using hoff) with hstop | hexp | hmem
        · exact hstops (.inl hstop)
        · exact hrestarts (hexpires hexp)
        · exact absurd hmem List.not_mem_nil

/-- A timer is stopped, or runs without a start, before the operations are inserted. -/
theorem stopped_or_base (s : AppTimer n) (i : Fin n) :
    (if Stops s.mOpQueue i then Replayed.stopped else s.base i) = .stopped ∨
      (if Stops s.mOpQueue i then Replayed.stopped else s.base i) = .running none := by
  unfold AppTimer.base
  split_ifs <;> simp

/-- **What the operations leave** a timer at. -/
theorem replays_of_inserted {m u : AppTimer n} {d₁ d₂ : List (Fin n × ℕ)} (h : OrderInv s [])
    (hp : Prepared s m s.timerList d₁) (hi : Inserted s.mOpQueue m u d₁ d₂) (hf : Finished u t)
    (hd : t.timerList = d₂) (i : Fin n) : Replays s t i := by
  obtain ⟨hmem, hbase⟩ := prepared_running h hp i
  have hnode : t.node i = u.node i := by rw [hf.node]
  unfold Replays
  rw [replay_of_stopsFirst _ _ h.ordered, hd, hnode]
  cases hrunning : (m.node i).isRunning with
  | true =>
    -- It runs without a start, and stays in the list.
    have hkept := hi.kept i (.inl hrunning)
    have hu : (u.node i).isRunning = true := (isRunning_of_data hkept).trans hrunning
    obtain ⟨v, hv⟩ := (mem_keys_iff 0).mp (hmem.mp hrunning)
    have hd₂ : i ∈ keys d₂ := (mem_keys_iff 0).mpr ⟨v, (hi.mem_dues _).mpr (.inl hv)⟩
    rw [hbase.mp hrunning]
    exact ⟨⟨fun _ => hd₂, fun _ => hu⟩, hu⟩
  | false =>
    have hstopped : (if Stops s.mOpQueue i then Replayed.stopped else s.base i) = .stopped := by
      rcases stopped_or_base s i with h | h
      · exact h
      · rw [hbase.mpr h] at hrunning
        cases hrunning
    have hd₁ : i ∉ keys d₁ := fun hi => by
      rw [hmem.mpr hi] at hrunning
      cases hrunning
    rw [hstopped]
    cases hfirst : firstStart s.mOpQueue i with
    | none =>
      have hu : (u.node i).isRunning = false :=
        (isRunning_of_data (hi.kept i (.inr hfirst))).trans hrunning
      have hd₂ : i ∉ keys d₂ := by
        rw [mem_keys_iff 0]
        rintro ⟨v, hv⟩
        rcases (hi.mem_dues _).mp hv with hv | ⟨-, params, hparams, -⟩
        · exact hd₁ ((mem_keys_iff 0).mpr ⟨v, hv⟩)
        · rw [hfirst] at hparams
          cases hparams
      rw [hu]
      simp [hd₂]
    | some params =>
      have hstarted := hi.started i params hrunning hfirst
      have hu : (u.node i).isRunning = true := congrArg TimerNode.isRunning hstarted
      obtain ⟨v, hv⟩ : ∃ v, v = insertTicks m.mTicksLatest
        (if m.mRtc1Reset = true then 0 else params.ticksAtStart) params.ticksFirstInterval :=
        ⟨_, rfl⟩
      have hdue : (i, v) ∈ dues 0 d₂ := (hi.mem_dues _).mpr (.inr ⟨hrunning, params, hfirst, hv⟩)
      have hd₂ : i ∈ keys d₂ := (mem_keys_iff 0).mpr ⟨v, hdue⟩
      refine ⟨⟨fun _ => hd₂, fun _ => hu⟩, hu,
        congrArg TimerNode.ticksPeriodicInterval hstarted, congrArg TimerNode.pContext hstarted,
        v, hd ▸ hdue, ?_⟩
      have hlatest : t.mTicksLatest = m.mTicksLatest := by
        rcases hf.latest with hl | ⟨hnone, -⟩
        · exact hl.trans hi.latest
        · have hchain := hi.lists.chain
          rw [hnone] at hchain
          rw [Holds.nil_of_none hchain] at hdue
          exact absurd hdue List.not_mem_nil
      rw [hlatest]
      by_cases hreset : m.mRtc1Reset = true
      · rw [if_pos hreset] at hv
        rcases hp.latest with ⟨-, hr⟩ | ⟨hne, hall, hzero⟩
        · rw [hr, h.reset] at hreset
          cases hreset
        · rw [hzero] at hv ⊢
          exact .inr ⟨⟨hne, hall⟩, rfl, hv⟩
      · rw [if_neg hreset] at hv
        exact .inl hv

/-- **A run of the list handler** carries out the operations in call order. -/
theorem handled_spec (cfg : TimerConfig) (h : OrderInv s []) :
    ∃ t, timerListHandler cfg s = some t ∧ (∀ i, Replays s t i) ∧ ListInv t ∧ t.mOpQueue = [] ∧
      t.mRtc1Reset = false ∧ t.pending = none ∧ t.check = s.check := by
  obtain ⟨t₀, ht₀, hinv, -⟩ := listInv_swi cfg h.list h.insertable
  obtain ⟨m, d₁, u, d₂, t, ht, hp, hi, hf⟩ := timerListHandler_spec cfg h.list.timerList
    h.list.latest h.list.period (fun i params hi => (h.list.params i params hi).1) h.insertable
  obtain rfl : t₀ = t := Option.some.inj (ht₀.symm.trans ht)
  have hlists : t₀.Lists d₂ := by
    refine ⟨?_, hi.lists.nodup, hi.lists.small⟩
    rw [hf.head]
    exact hi.lists.chain.congr fun i _ => by rw [hf.node]
  have hd := hlists.timerList_eq
  refine ⟨t₀, ht, fun i => ?_, hinv, ?_, hf.reset, ?_, ?_⟩
  · exact replays_of_inserted h hp hi hf hd i
  · rw [hf.queue]
    exact (congrArg (·.1) hi.vars).trans hp.queue
  · have hread := congrArg (·.2.2.1) hi.vars
    have hwrite := congrArg (·.2.2.2.1) hi.vars
    unfold AppTimer.pending
    rw [hf.read, hf.write, if_neg]
    rw [not_not]
    exact hread.trans (hp.drained.trans hwrite.symm)
  · rw [hf.check]
    exact (congrArg (·.2.2.2.2) hi.vars).trans hp.check

/-! ## §5 Calls and the RTC interrupt -/

/-- What a call does if it succeeds: the operation is queued. -/
theorem call_cases {cfg : TimerConfig} {c : TimerCall n} (h : (s.call cfg c).1 = .success) :
    (∃ p timeoutTicks pContext counter params, c = .start (some p) timeoutTicks pContext counter ∧
      (s.call cfg c).2 = { s with mOpQueue := s.mOpQueue ++ [.start p params] }) ∨
    (∃ p, c = .stop (some p) ∧ (s.call cfg c).2 =
      { s.setNode p (fun x => { x with isRunning := false }) with
        mOpQueue := s.mOpQueue ++ [.stop p] }) ∨
    (c = .stopAll ∧ (s.call cfg c).2 = { s with mOpQueue := s.mOpQueue ++ [.stopAll] }) := by
  have hschedule : ∀ (op : TimerUserOp n) (s : AppTimer n),
      (userOpSchedule cfg op s).1 = .success →
        (userOpSchedule cfg op s).2 = { s with mOpQueue := s.mOpQueue ++ [op] } := by
    intro op s hsuccess
    unfold userOpSchedule at hsuccess ⊢
    by_cases hroom : s.mOpQueue.length + 1 < cfg.opQueueSize
    · rw [if_pos hroom]
    · rw [if_neg hroom] at hsuccess
      cases hsuccess
  cases c with
  | start timerId timeoutTicks pContext counter =>
    left
    unfold AppTimer.call appTimerStart at h ⊢
    cases timerId with
    | none => cases h
    | some p =>
      dsimp only at h ⊢
      by_cases hmin : timeoutTicks < appTimerMinTimeoutTicks
      · rw [if_pos hmin] at h
        cases h
      · rw [if_neg hmin] at h ⊢
        by_cases hhandler : (s.node p).pTimeoutHandler = none
        · rw [if_pos hhandler] at h
          cases h
        · rw [if_neg hhandler] at h ⊢
          exact ⟨p, timeoutTicks, pContext, counter, _, rfl, hschedule _ s h⟩
  | stop timerId =>
    right
    left
    unfold AppTimer.call appTimerStop at h ⊢
    cases timerId with
    | none => cases h
    | some p =>
      dsimp only at h ⊢
      by_cases hhandler : (s.node p).pTimeoutHandler = none
      · rw [if_pos hhandler] at h
        cases h
      · rw [if_neg hhandler] at h ⊢
        exact ⟨p, rfl, hschedule _ _ h⟩
  | stopAll => exact .inr (.inr ⟨rfl, hschedule _ s h⟩)

theorem expires_iff (hpending : t.pending = s.pending) :
    t.Expires d i ↔ s.Expires d i := by
  unfold AppTimer.Expires
  rw [hpending]

/-- The nodes that the RTC interrupt has visited are the same. -/
theorem visited_unlinked (hunlinked : Unlinked s t) (hlist : t.timerList = s.timerList)
    (hpending : t.pending = s.pending) (hcheck : t.check = s.check) (h : s.Visited pre) :
    t.Visited pre := by
  unfold AppTimer.Visited at h ⊢
  rw [hcheck]
  cases hs : s.check with
  | idle =>
    rw [hs] at h
    exact h
  | checking p elapsed expired =>
    rw [hs] at h
    obtain ⟨suf, hsuf, hchain, hsum, hle⟩ := h
    refine ⟨suf, hlist.trans hsuf, Holds.congr hchain fun i _ => ?_, hsum, fun c hc => ?_⟩
    · exact ⟨(hunlinked.core i).1, (hunlinked.core i).2.1⟩
    · exact hle c (hpending ▸ hc)

/-- **An operation is queued.** -/
theorem orderInv_enqueue (op : TimerUserOp n) (h : OrderInv s pre) (hinv : ListInv t)
    (hunlinked : Unlinked s t) (hpending : t.pending = s.pending) (hcheck : t.check = s.check)
    (hreset : t.mRtc1Reset = s.mRtc1Reset) (hqueue : t.mOpQueue = s.mOpQueue ++ [op])
    (hrunning : ∀ i, (t.node i).isRunning = true ↔ (s.node i).isRunning = true ∧ op ≠ .stop i)
    (hstarts : ∀ i, op = .stop i ∨ op = .stopAll → firstStart s.mOpQueue i = none) :
    OrderInv t pre := by
  have hlist : t.timerList = s.timerList := (hunlinked.lists h.list.timerList).timerList_eq
  have hoff : ∀ i, (s.node i).isRunning = false → (t.node i).isRunning = false := by
    intro i hi
    by_contra hon
    have hon := ((hrunning i).mp (Bool.eq_true_of_not_eq_false hon)).1
    rw [hi] at hon
    cases hon
  refine ⟨hinv, hreset.trans h.reset, ?_, fun i hi => ?_, fun i hi hnot => ?_, fun i hi => ?_,
    fun i hi => ?_, fun i hi => hoff i (h.visited i hi),
    visited_unlinked hunlinked hlist hpending hcheck h.check⟩
  · unfold StopsFirst
    rw [hqueue, List.pairwise_append]
    refine ⟨h.ordered, List.pairwise_singleton _ _, fun a ha b hb i params hstart => ?_⟩
    obtain rfl := List.mem_singleton.mp hb
    subst hstart
    have hsome := firstStart_isSome ha
    constructor
    · intro hstop
      rw [hstarts i (.inl hstop)] at hsome
      cases hsome
    · intro hall
      rw [hstarts i (.inr hall)] at hsome
      cases hsome
  · rw [hlist]
    exact h.linked i ((hrunning i).mp hi).1
  · rw [hlist] at hi ⊢
    rw [hqueue, expires_iff hpending, List.mem_append, List.mem_singleton]
    by_cases hs : (s.node i).isRunning = true
    · -- It has just been stopped.
      have hop : op = .stop i := by
        by_contra hne
        rw [(hrunning i).mpr ⟨hs, hne⟩] at hnot
        cases hnot
      exact .inl (.inr hop.symm)
    · rcases h.reason i hi (by simpa using hs) with hstop | hrest
      · exact .inl (.inl hstop)
      · exact .inr hrest
  · rw [hqueue, List.mem_append, List.mem_singleton] at hi
    rcases hi with hi | hi
    · exact hoff i (h.stopped i hi)
    · by_contra hon
      exact ((hrunning i).mp (Bool.eq_true_of_not_eq_false hon)).2 hi.symm
  · rw [hlist, expires_iff hpending] at hi
    exact hoff i (h.expired i hi)

/-- **A call** that succeeds, with no start in the queue that it stops. -/
theorem orderInv_call {cfg : TimerConfig} {c : TimerCall n} (h : OrderInv s pre) (hc : c.InRange)
    (hsuccess : (s.call cfg c).1 = .success)
    (hstop : ∀ i, c = .stop (some i) ∨ c = .stopAll → firstStart s.mOpQueue i = none) :
    OrderInv (s.call cfg c).2 pre := by
  have hinv := (ListInv.step cfg h.list (a := .call c) hc (fun h => nomatch h)).1
  have hunlinked := (call_unlinked cfg s hc).1
  rcases call_cases hsuccess with ⟨p, _, _, _, params, rfl, heq⟩ | ⟨p, rfl, heq⟩ | ⟨rfl, heq⟩
  · refine orderInv_enqueue (.start p params) h hinv hunlinked (by rw [heq]; rfl)
      (by rw [heq]) (by rw [heq]) (by rw [heq]) (fun i => by rw [heq]; simp) fun i hi => ?_
    rcases hi with hi | hi <;> cases hi
  · refine orderInv_enqueue (.stop p) h hinv hunlinked (by rw [heq]; rfl)
      (by rw [heq]; rfl) (by rw [heq]; rfl) (by rw [heq]) (fun i => ?_) fun i hi => ?_
    · rw [heq]
      dsimp only
      by_cases hip : i = p
      · subst hip
        rw [setNode_self]
        simp
      · rw [setNode_ne _ _ hip]
        simp [Ne.symm hip]
    · rcases hi with hi | hi
      · obtain rfl := TimerUserOp.stop.inj hi
        exact hstop p (.inl rfl)
      · cases hi
  · refine orderInv_enqueue .stopAll h hinv hunlinked (by rw [heq]; rfl)
      (by rw [heq]) (by rw [heq]) (by rw [heq]) (fun i => by rw [heq]; simp) fun i hi => ?_
    exact hstop i (.inr rfl)

theorem visited_idle (h : s.Visited pre) (hcheck : s.check = .idle) : pre = [] := by
  unfold AppTimer.Visited at h
  rw [hcheck] at h
  exact h

/-- The walk starts at the head of the list, and nothing else changes. -/
theorem visited_start {counter : ℕ} (hlist : ListInv s) (h : s.Visited pre) (hidle : s.check = .idle)
    (hlater : ∀ c ∈ s.pending, c ≤ ticksDiffGet counter s.mTicksLatest) :
    (timeoutsCheckStart counter s).pending = s.pending ∧
      (timeoutsCheckStart counter s).node = s.node ∧
      (timeoutsCheckStart counter s).Visited [] := by
  cases hhead : s.mpTimerIdHead with
  | none =>
    have hnone : timeoutsCheckStart counter s = s := by
      unfold timeoutsCheckStart
      rw [hhead]
    rw [hnone]
    exact ⟨rfl, rfl, visited_idle h hidle ▸ h⟩
  | some head =>
    have hstart : timeoutsCheckStart counter s =
        { s with check := .checking (some head) (ticksDiffGet counter s.mTicksLatest) 0 } := by
      unfold timeoutsCheckStart
      rw [hhead]
    have hchain := hlist.timerList.chain
    rw [hhead] at hchain
    rw [hstart]
    refine ⟨rfl, rfl, s.timerList, rfl, hchain, rfl, fun c hc => ?_⟩
    rw [Nat.zero_add]
    exact hlater c hc

/-- **The RTC interrupt starts.** -/
theorem orderInv_checkStart {counter : ℕ} (h : OrderInv s pre) (hidle : s.check = .idle)
    (hlater : ∀ c ∈ s.pending, c ≤ ticksDiffGet counter s.mTicksLatest) :
    OrderInv (timeoutsCheckStart counter s) [] := by
  have h := h.idle hidle
  obtain ⟨hpending, hnode, hvisited⟩ := visited_start h.list h.check hidle hlater
  obtain ⟨hunlinked, hqueue⟩ := timeoutsCheckStart_unlinked counter s
  have hlist : (timeoutsCheckStart counter s).timerList = s.timerList :=
    (hunlinked.lists h.list.timerList).timerList_eq
  have hreset : (timeoutsCheckStart counter s).mRtc1Reset = s.mRtc1Reset := by
    unfold timeoutsCheckStart
    cases s.mpTimerIdHead <;> rfl
  have hparams := hqueue.symm ▸ h.list.params
  refine ⟨listInv_unlinked h.list hunlinked hparams, hreset.trans h.reset, hqueue ▸ h.ordered,
    fun i hi => ?_, fun i hi hoff => ?_, fun i hi => ?_, fun i hi => ?_,
    fun i hi => absurd hi List.not_mem_nil, hvisited⟩
  · rw [hnode] at hi
    exact hlist ▸ h.linked i hi
  · rw [hnode] at hoff
    rw [hlist] at hi ⊢
    rw [hqueue, expires_iff hpending]
    exact h.reason i hi hoff
  · rw [hqueue] at hi
    exact hnode ▸ h.stopped i hi
  · rw [hlist, expires_iff hpending] at hi
    exact hnode ▸ h.expired i hi

theorem pending_timeoutsCheckEnd (c : ℕ) (s : AppTimer n) :
    (timeoutsCheckEnd c s).pending = some c := by
  have hne : ∀ a : Fin 2, a ≠ a + 1 := by decide
  have hnext : ∀ a b : Fin 2, a ≠ b → a + 1 = b := by decide
  unfold timeoutsCheckEnd AppTimer.pending
  dsimp only
  by_cases hread : s.mTicksElapsedQReadInd = s.mTicksElapsedQWriteInd
  · rw [if_pos hread, hread, if_pos (hne _), Function.update_self]
  · rw [if_neg hread, if_pos hread, hnext _ _ hread, Function.update_self]

/-- What is still to be visited when the interrupt stops is due later. -/
theorem due_of_unvisited {o : Option (Fin n)} {suf : List (Fin n × ℕ)} {elapsed expired : ℕ}
    (hchain : s.Chain o suf) (hlast : ∀ j ∈ o, elapsed < (s.node j).ticksToExpire) :
    ∀ e ∈ dues expired suf, expired + elapsed < e.2 := by
  intro e he
  cases suf with
  | nil => cases he
  | cons q suf =>
    obtain ⟨rfl, hticks, -⟩ := hchain
    have hlt := hlast q.1 rfl
    dsimp only at hticks
    rcases List.mem_cons.mp he with rfl | he
    · dsimp only
      omega
    · have hle := le_of_mem_dues he
      omega

/-- **What the interrupt leaves for the list handler** cuts the list where the walk stopped: what has
    been visited is what expires by it. -/
theorem visited_end {o : Option (Fin n)} {elapsed expired : ℕ} (h : s.Visited pre)
    (hcheck : s.check = .checking o elapsed expired)
    (hlast : ∀ j ∈ o, elapsed < (s.node j).ticksToExpire) :
    (pre.map Prod.snd).sum = expired ∧ DeltaList.expired expired s.timerList = pre ∧
      (∀ i, (timeoutsCheckEnd expired s).Expires s.timerList i ↔ i ∈ keys pre) ∧
      ∀ i, s.Expires s.timerList i → i ∈ keys pre := by
  unfold AppTimer.Visited at h
  rw [hcheck] at h
  obtain ⟨suf, hlist, hchain, hsum, hle⟩ := h
  have hlater : ∀ e ∈ dues expired suf, expired + elapsed < e.2 := due_of_unvisited hchain hlast
  have hdues : dues 0 s.timerList = dues 0 pre ++ dues expired suf := by
    rw [hlist, dues_append, hsum, Nat.zero_add]
  -- An entry that is due by now has been visited.
  have hpre : ∀ i u, (i, u) ∈ dues 0 s.timerList → u ≤ expired + elapsed → i ∈ keys pre := by
    intro i u hu hle
    rw [hdues, List.mem_append] at hu
    rcases hu with hu | hu
    · exact (mem_keys_iff 0).mpr ⟨u, hu⟩
    · have hlt := hlater _ hu
      dsimp only at hlt
      omega
  refine ⟨hsum, ?_, fun i => ?_, ?_⟩
  · -- The first timer that was not visited has ticks left, so that it does not expire with `pre`.
    rw [hlist, ← hsum]
    apply expired_sum_append
    intro q hq
    cases suf with
    | nil => cases hq
    | cons q' suf =>
      obtain rfl := Option.some.inj hq
      have hlt := hlater _ (List.mem_cons_self ..)
      dsimp only at hlt
      omega
  · unfold AppTimer.Expires
    rw [pending_timeoutsCheckEnd]
    constructor
    · rintro ⟨c, hc, u, hu, hmem⟩
      obtain rfl := Option.some.inj hc
      exact hpre i u hmem (by omega)
    · intro hi
      obtain ⟨u, hu⟩ := (mem_keys_iff 0).mp hi
      have hbound := le_sum_of_mem_dues hu
      rw [hsum, Nat.zero_add] at hbound
      refine ⟨expired, rfl, u, hbound, ?_⟩
      rw [hdues]
      exact List.mem_append_left _ hu
  · rintro i ⟨c, hc, u, hu, hmem⟩
    have hbound := hle c hc
    exact hpre i u hmem (by omega)

/-- **The RTC interrupt ends**: what it has visited is what has expired. -/
theorem orderInv_checkEnd {o : Option (Fin n)} {elapsed expired : ℕ} (h : OrderInv s pre)
    (hcheck : s.check = .checking o elapsed expired)
    (hlast : ∀ j ∈ o, elapsed < (s.node j).ticksToExpire) :
    OrderInv (timeoutsCheckEnd expired s) [] := by
  obtain ⟨-, -, hexpires, hpre⟩ := visited_end h.check hcheck hlast
  refine ⟨⟨?_, h.list.latest, h.list.period, h.list.params⟩, h.reset, h.ordered, h.linked,
    fun i hi hoff => ?_, h.stopped, fun i hi => h.visited i ((hexpires i).mp hi),
    fun i hi => absurd hi List.not_mem_nil, rfl⟩
  · obtain ⟨d, hd⟩ := h.list.lists
    exact ⟨d, hd.chain, hd.nodup, hd.small⟩
  · rcases h.reason i hi hoff with hstop | hexp | hmem
    · exact .inl hstop
    · exact .inr (.inl ((hexpires i).mpr (hpre i hexp)))
    · exact .inr (.inl ((hexpires i).mpr hmem))

/-- The interrupt ends at a timer that is not due, or at the end of the list. -/
theorem timeoutsCheckStep_end {o : Option (Fin n)} {elapsed expired : ℕ}
    (hcheck : s.check = .checking o elapsed expired)
    (hlast : ∀ j ∈ o, elapsed < (s.node j).ticksToExpire) :
    timeoutsCheckStep s = (none, timeoutsCheckEnd expired s) := by
  unfold timeoutsCheckStep
  rw [hcheck]
  cases o with
  | none => rfl
  | some p =>
    dsimp only
    rw [if_pos (hlast p rfl)]

/-- **What an iteration does** with a timer that is due: if it runs, its handler is called. -/
theorem timeoutsCheckStep_visit {p : Fin n} {elapsed expired : ℕ}
    (hcheck : s.check = .checking (some p) elapsed expired)
    (hdue : ¬ elapsed < (s.node p).ticksToExpire) :
    (timeoutsCheckStep s).1 = (if (s.node p).isRunning = true then some p else none) ∧
      (timeoutsCheckStep s).2.pending = s.pending ∧
      (timeoutsCheckStep s).2.mRtc1Reset = s.mRtc1Reset ∧
      (timeoutsCheckStep s).2.check = .checking (s.node p).next
        (elapsed - (s.node p).ticksToExpire) (expired + (s.node p).ticksToExpire) ∧
      ∀ i, ((timeoutsCheckStep s).2.node i).isRunning = true ↔
        (s.node i).isRunning = true ∧ i ≠ p := by
  unfold timeoutsCheckStep
  rw [hcheck]
  dsimp only
  rw [if_neg hdue]
  by_cases hrunning : (s.node p).isRunning = true
  · rw [if_pos hrunning, if_pos hrunning]
    refine ⟨rfl, rfl, rfl, rfl, fun i => ?_⟩
    dsimp only
    by_cases hip : i = p
    · subst hip
      rw [setNode_self]
      simp
    · rw [setNode_ne _ _ hip]
      simp [hip]
  · rw [if_neg hrunning, if_neg hrunning]
    refine ⟨rfl, rfl, rfl, rfl, fun i => ⟨fun hi => ⟨hi, ?_⟩, fun hi => hi.1⟩⟩
    rintro rfl
    exact hrunning hi

/-- The walk goes on behind the timer. -/
theorem visited_visit {p : Fin n} {elapsed expired : ℕ} (h : s.Visited pre) (hlist : ListInv s)
    (hcheck : s.check = .checking (some p) elapsed expired)
    (hdue : ¬ elapsed < (s.node p).ticksToExpire) :
    (timeoutsCheckStep s).2.Visited (pre ++ [(p, (s.node p).ticksToExpire)]) := by
  obtain ⟨-, hpending, -, hcheck', -⟩ := timeoutsCheckStep_visit hcheck hdue
  obtain ⟨hunlinked, -⟩ := timeoutsCheckStep_unlinked s
  have hsame := (hunlinked.lists hlist.timerList).timerList_eq
  unfold AppTimer.Visited at h ⊢
  rw [hcheck] at h
  obtain ⟨suf, hsplit, hchain, hsum, hle⟩ := h
  obtain ⟨suf, rfl, hrest⟩ := Holds.cons_of_some hchain
  rw [hcheck']
  refine ⟨suf, ?_, ?_, ?_, fun c hc => ?_⟩
  · rw [hsame, hsplit, List.append_assoc]
    rfl
  · apply Holds.congr hrest
    intro i _
    exact ⟨(hunlinked.core i).1, (hunlinked.core i).2.1⟩
  · rw [List.map_append, List.sum_append, hsum]
    simp
  · have hbound := hle c (hpending ▸ hc)
    omega

/-- **A timer is visited.** -/
theorem orderInv_visit {p : Fin n} {elapsed expired : ℕ} (h : OrderInv s pre)
    (hcheck : s.check = .checking (some p) elapsed expired)
    (hdue : ¬ elapsed < (s.node p).ticksToExpire) :
    OrderInv (timeoutsCheckStep s).2 (pre ++ [(p, (s.node p).ticksToExpire)]) := by
  have hen : s.Enabled ⟨0, false⟩ .check := by
    show s.check ≠ .idle
    rw [hcheck]
    exact fun h => nomatch h
  have hinv : ListInv (timeoutsCheckStep s).2 :=
    (ListInv.step ⟨0, false⟩ h.list hen (fun h => nomatch h)).1
  obtain ⟨hunlinked, hqueue⟩ := timeoutsCheckStep_unlinked s
  have hlist : (timeoutsCheckStep s).2.timerList = s.timerList :=
    (hunlinked.lists h.list.timerList).timerList_eq
  have hvisited := visited_visit h.check h.list hcheck hdue
  obtain ⟨-, hpending, hreset, -, hrunning⟩ := timeoutsCheckStep_visit hcheck hdue
  obtain ⟨t, ht⟩ : ∃ t, t = (timeoutsCheckStep s).2 := ⟨_, rfl⟩
  rw [← ht] at hinv hqueue hlist hvisited hpending hreset hrunning ⊢
  have hoff : ∀ i, (s.node i).isRunning = false ∨ i = p → (t.node i).isRunning = false := by
    intro i hi
    by_contra hon
    obtain ⟨hon, hne⟩ := (hrunning i).mp (Bool.eq_true_of_not_eq_false hon)
    rcases hi with hi | hi
    · rw [hi] at hon
      cases hon
    · exact hne hi
  have hkeys : ∀ i, i ∈ keys (pre ++ [(p, (s.node p).ticksToExpire)]) ↔ i ∈ keys pre ∨ i = p := by
    intro i
    simp [keys]
  refine ⟨hinv, hreset.trans h.reset, hqueue ▸ h.ordered, fun i hi => ?_, fun i hi hnot => ?_,
    fun i hi => hoff i (.inl (h.stopped i (hqueue ▸ hi))), fun i hi => ?_, fun i hi => ?_, hvisited⟩
  · rw [hlist]
    exact h.linked i ((hrunning i).mp hi).1
  · rw [hlist] at hi ⊢
    rw [hqueue, expires_iff hpending, hkeys]
    by_cases hip : i = p
    · exact .inr (.inr (.inr hip))
    · have hs : (s.node i).isRunning = false := by
        by_contra hon
        rw [(hrunning i).mpr ⟨Bool.eq_true_of_not_eq_false hon, hip⟩] at hnot
        cases hnot
      rcases h.reason i hi hs with hstop | hexp | hmem
      · exact .inl hstop
      · exact .inr (.inl hexp)
      · exact .inr (.inr (.inl hmem))
  · rw [hlist, expires_iff hpending] at hi
    exact hoff i (.inl (h.expired i hi))
  · rcases (hkeys i).mp hi with hi | hi
    · exact hoff i (.inl (h.visited i hi))
    · exact hoff i (.inr hi)

/-! ## §6 Runs -/

/-- The timer module, and the timers that have ended: the last call for them was a stop, or a stop of
    all timers that the list handler has carried out. -/
structure OrderTrace (n : ℕ) where
  timer : AppTimer n
  ended : Fin n → Bool

namespace OrderTrace

/-- Keep what has ended. -/
def endedAfter (cfg : TimerConfig) (s : OrderTrace n) : TimerLabel n → Fin n → Bool
  | .call c =>
    match c with
    | .start (some p) _ _ _ =>
      if (s.timer.call cfg c).1 = .success then Function.update s.ended p false else s.ended
    | .stop (some p) =>
      if (s.timer.call cfg c).1 = .success then Function.update s.ended p true else s.ended
    | _ => s.ended
  | .swi => fun i => s.ended i || decide (replay s.timer.mOpQueue i (.running none) = .stopped)
  | _ => s.ended

def step (cfg : TimerConfig) (s : OrderTrace n) (a : TimerLabel n) : OrderTrace n where
  timer := s.timer.step cfg a
  ended := s.endedAfter cfg a

/-- The timer module with this record. -/
def machine (cfg : TimerConfig) : Machine (OrderTrace n) (TimerLabel n) where
  start s := s.timer.Initial ∧ ∀ i, s.ended i = false
  enabled s a := s.timer.Enabled cfg a
  step := step cfg

/-- Calls succeed. -/
def Succeeds (cfg : TimerConfig) (s : OrderTrace n) : TimerLabel n → Prop
  | .call c => (s.timer.call cfg c).1 = .success
  | _ => True

/-- **The condition**: calls succeed, and no start is in the queue when the same timer is stopped.
    If the list handler has not run since the last RTC interrupt, the counter has not gone on for a
    whole period. -/
def Ordered (cfg : TimerConfig) (s : OrderTrace n) : TimerLabel n → Prop
  | .call c => (s.timer.call cfg c).1 = .success ∧
    ∀ i, c = .stop (some i) ∨ c = .stopAll → firstStart s.timer.mOpQueue i = none
  | .rtc1 counter => ∀ c ∈ s.timer.pending, c ≤ ticksDiffGet counter s.timer.mTicksLatest
  | _ => True

/-- A timer that has ended does not run, and nothing will start it. -/
structure Ended (s : AppTimer n) (i : Fin n) : Prop where
  running : (s.node i).isRunning = false
  start : firstStart s.mOpQueue i = none
  linked : i ∈ keys s.timerList → .stop i ∈ s.mOpQueue

/-- **The invariant** of the record. -/
def Inv (s : OrderTrace n) : Prop :=
  (∃ pre, OrderInv s.timer pre) ∧ ∀ i, s.ended i = true → Ended s.timer i

theorem firstStart_append_start (q : List (TimerUserOp n)) {p : Fin n}
    (params : TimerUserOpStart) (h : i ≠ p) :
    firstStart (q ++ [.start p params]) i = firstStart q i := by
  unfold firstStart
  rw [List.findSome?_append]
  simp [Ne.symm h]

theorem firstStart_append_stop (q : List (TimerUserOp n)) {op : TimerUserOp n}
    (hop : ∀ p params, op ≠ .start p params) :
    firstStart (q ++ [op]) i = firstStart q i := by
  unfold firstStart
  rw [List.findSome?_append]
  cases op with
  | start p params => exact absurd rfl (hop p params)
  | stop p => simp
  | stopAll => simp

/-- A call for another timer, or of no start. -/
theorem Ended.enqueue {op : TimerUserOp n} (h : Ended s i) (hunlinked : Unlinked s t)
    (hlist : ListInv s) (hqueue : t.mOpQueue = s.mOpQueue ++ [op])
    (hrunning : (t.node i).isRunning = true → (s.node i).isRunning = true)
    (hfirst : firstStart (s.mOpQueue ++ [op]) i = firstStart s.mOpQueue i) : Ended t i := by
  have hd : t.timerList = s.timerList := (hunlinked.lists hlist.timerList).timerList_eq
  refine ⟨?_, ?_, fun hi => ?_⟩
  · by_contra hon
    have hon := hrunning (Bool.eq_true_of_not_eq_false hon)
    rw [h.running] at hon
    cases hon
  · rw [hqueue, hfirst, h.start]
  · rw [hd] at hi
    rw [hqueue]
    exact List.mem_append_left _ (h.linked hi)

/-- **Calls** end timers and start them. -/
theorem ended_call {cfg : TimerConfig} {s : OrderTrace n} {c : TimerCall n} (h : Inv s)
    (hc : c.InRange) (hsuccess : (s.timer.call cfg c).1 = .success)
    (hstop : ∀ i, c = .stop (some i) ∨ c = .stopAll → firstStart s.timer.mOpQueue i = none) :
    ∀ i, s.endedAfter cfg (.call c) i = true → Ended (s.timer.call cfg c).2 i := by
  obtain ⟨⟨pre, hinv⟩, hended⟩ := h
  have hunlinked := (call_unlinked cfg s.timer hc).1
  have hd := (hunlinked.lists hinv.list.timerList).timerList_eq
  intro i hi
  rcases call_cases hsuccess with ⟨p, _, _, _, params, rfl, heq⟩ | ⟨p, rfl, heq⟩ | ⟨rfl, heq⟩
  · unfold endedAfter at hi
    dsimp only at hi
    rw [if_pos hsuccess] at hi
    have hip : i ≠ p := by
      rintro rfl
      rw [Function.update_self] at hi
      cases hi
    rw [Function.update_of_ne hip] at hi
    exact (hended i hi).enqueue hunlinked hinv.list (by rw [heq]) (fun hon => by rwa [heq] at hon)
      (firstStart_append_start _ params hip)
  · unfold endedAfter at hi
    dsimp only at hi
    rw [if_pos hsuccess] at hi
    have hfirst : ∀ j, firstStart (s.timer.mOpQueue ++ [.stop p]) j =
        firstStart s.timer.mOpQueue j :=
      fun j => firstStart_append_stop _ fun _ _ h => nomatch h
    by_cases hip : i = p
    · subst hip
      refine ⟨?_, ?_, fun _ => ?_⟩
      · rw [heq]
        dsimp only
        rw [setNode_self]
      · rw [heq]
        exact (hfirst i).trans (hstop i (.inl rfl))
      · rw [heq]
        exact List.mem_append_right _ (List.mem_singleton_self _)
    · rw [Function.update_of_ne hip] at hi
      refine (hended i hi).enqueue hunlinked hinv.list (by rw [heq]) (fun hon => ?_) (hfirst i)
      rw [heq] at hon
      dsimp only at hon
      rwa [setNode_ne _ _ hip] at hon
  · have hall : ∀ p params, (TimerUserOp.stopAll : TimerUserOp n) ≠ .start p params :=
      fun _ _ h => nomatch h
    exact (hended i hi).enqueue hunlinked hinv.list (by rw [heq]) (fun hon => by rwa [heq] at hon)
      (firstStart_append_stop _ hall)

/-- **The list handler** ends what is stopped. -/
theorem ended_swi {s : AppTimer n} (h : OrderInv s []) (hreplays : Replays s t i)
    (hi : Ended s i ∨ replay s.mOpQueue i (.running none) = .stopped) (hqueue : t.mOpQueue = []) :
    Ended t i := by
  obtain ⟨hlinked, hreplay⟩ := hreplays
  have hstopped : replay s.mOpQueue i (s.base i) = .stopped := by
    rw [replay_of_stopsFirst _ _ h.ordered]
    rcases hi with hended | hrun
    · rw [hended.start]
      by_cases hstops : Stops s.mOpQueue i
      · rw [if_pos hstops]
      · have hbase : s.base i = .stopped := by
          unfold AppTimer.base
          rw [if_neg]
          rintro (hon | ⟨⟨c, hc, u, hu, hmem⟩, -⟩)
          · rw [hended.running] at hon
            cases hon
          · exact hstops (.inl (hended.linked ((mem_keys_iff 0).mpr ⟨u, hmem⟩)))
        rw [if_neg hstops, hbase]
    · rw [replay_of_stopsFirst _ _ h.ordered] at hrun
      by_cases hstops : Stops s.mOpQueue i
      · rw [if_pos hstops] at hrun ⊢
        exact hrun
      · rw [if_neg hstops] at hrun
        cases hrun
  rw [hstopped] at hreplay
  have hoff : (t.node i).isRunning = false := hreplay
  refine ⟨hoff, by rw [hqueue]; rfl, fun hi => ?_⟩
  rw [hlinked.mpr hi] at hoff
  cases hoff

/-- An interrupt does not end a timer, nor start it. -/
theorem Ended.unlinked (h : Ended s i) (hunlinked : Unlinked s t) (hlist : ListInv s)
    (hqueue : t.mOpQueue = s.mOpQueue)
    (hrunning : (t.node i).isRunning = true → (s.node i).isRunning = true) : Ended t i := by
  have hd : t.timerList = s.timerList := (hunlinked.lists hlist.timerList).timerList_eq
  refine ⟨?_, hqueue ▸ h.start, fun hi => ?_⟩
  · by_contra hon
    have hon := hrunning (Bool.eq_true_of_not_eq_false hon)
    rw [h.running] at hon
    cases hon
  · rw [hqueue]
    exact h.linked (hd ▸ hi)

theorem timeoutsCheckStep_running (s : AppTimer n) (i : Fin n)
    (h : ((timeoutsCheckStep s).2.node i).isRunning = true) : (s.node i).isRunning = true := by
  unfold timeoutsCheckStep at h
  rcases hcheck : s.check with _ | ⟨_ | p, elapsed, expired⟩
  · rwa [hcheck] at h
  · rwa [hcheck] at h
  · rw [hcheck] at h
    dsimp only at h
    split_ifs at h with hlt hrunning
    · exact h
    · by_cases hip : i = p
      · subst hip
        exact hrunning
      · rwa [setNode_ne _ _ hip] at h
    · exact h

/-- **Step lemma.** -/
theorem inv_step {cfg : TimerConfig} {s : OrderTrace n} {a : TimerLabel n} (h : Inv s)
    (hen : s.timer.Enabled cfg a) (hordered : Ordered cfg s a) : Inv (s.step cfg a) := by
  obtain ⟨⟨pre, hinv⟩, hended⟩ := id h
  cases a with
  -- a call queues its operation, and a stop turns its timer off at once
  | call c =>
    exact ⟨⟨pre, orderInv_call hinv hen hordered.1 hordered.2⟩,
      ended_call h hen hordered.1 hordered.2⟩
  | rtc1 counter =>
    obtain ⟨hunlinked, hqueue⟩ := timeoutsCheckStart_unlinked counter s.timer
    refine ⟨⟨[], orderInv_checkStart hinv hen.1 hordered⟩, fun i hi => ?_⟩
    refine (hended i hi).unlinked hunlinked hinv.list hqueue fun hon => ?_
    have hnode : (timeoutsCheckStart counter s.timer).node = s.timer.node := by
      unfold timeoutsCheckStart
      cases s.timer.mpTimerIdHead <;> rfl
    rwa [← hnode]
  | check =>
    obtain ⟨hunlinked, hqueue⟩ := timeoutsCheckStep_unlinked s.timer
    refine ⟨?_, fun i hi => (hended i hi).unlinked hunlinked hinv.list hqueue
      (timeoutsCheckStep_running s.timer i)⟩
    show ∃ pre, OrderInv (timeoutsCheckStep s.timer).2 pre
    cases hcheck : s.timer.check with
    | idle => exact absurd hcheck hen
    | checking o elapsed expired =>
      by_cases hlast : ∀ j ∈ o, elapsed < (s.timer.node j).ticksToExpire
      · -- The interrupt is over.
        rw [timeoutsCheckStep_end hcheck hlast]
        exact ⟨[], orderInv_checkEnd hinv hcheck hlast⟩
      · push Not at hlast
        obtain ⟨p, hp, hdue⟩ := hlast
        obtain rfl : o = some p := hp
        exact ⟨_, orderInv_visit hinv hcheck (by omega)⟩
  -- the list handler replays the whole queue
  | swi =>
    have hidle := hinv.idle hen.1
    obtain ⟨t, ht, hreplays, hlist, hqueue, hreset, hpending, hcheck⟩ := handled_spec cfg hidle
    have hstep : s.timer.step cfg .swi = t := by
      show (timerListHandler cfg s.timer).getD s.timer = t
      rw [ht]
      rfl
    unfold Inv
    show (∃ pre, OrderInv (s.timer.step cfg .swi) pre) ∧
      ∀ i, s.endedAfter cfg .swi i = true → Ended (s.timer.step cfg .swi) i
    rw [hstep]
    refine ⟨⟨[], hlist, hreset, ?_, fun i hi => (hreplays i).1.mp hi, fun i hi hoff => ?_,
      fun i hi => ?_, fun i hi => ?_, fun i hi => absurd hi List.not_mem_nil, ?_⟩, fun i hi => ?_⟩
    · rw [hqueue]
      exact .nil
    · rw [(hreplays i).1.mpr hi] at hoff
      cases hoff
    · rw [hqueue] at hi
      exact absurd hi List.not_mem_nil
    · obtain ⟨c, hc, -⟩ := hi
      rw [hpending] at hc
      cases hc
    · unfold AppTimer.Visited
      rw [hcheck, hen.1]
    · unfold endedAfter at hi
      rw [Bool.or_eq_true, decide_eq_true_iff] at hi
      refine ended_swi hidle (hreplays i) ?_ hqueue
      rcases hi with hi | hi
      · exact .inl (hended i hi)
      · exact .inr hi

theorem inv_start {cfg : TimerConfig} {s : OrderTrace n} (h : (machine cfg).start s) : Inv s := by
  obtain ⟨hinitial, hended⟩ := h
  have hlists : s.timer.Lists [] :=
    ⟨hinitial.head, List.nodup_nil, fun e he => absurd he List.not_mem_nil⟩
  have hd := hlists.timerList_eq
  have hpending : s.timer.pending = none := by
    unfold AppTimer.pending
    rw [hinitial.read, hinitial.write]
    rfl
  refine ⟨⟨[], listInv_initial hinitial, hinitial.reset, ?_, fun i hi => ?_, fun i hi => ?_,
    fun i hi => ?_, fun i _ => (hinitial.node i).1, fun i hi => absurd hi List.not_mem_nil, ?_⟩,
    fun i hi => ?_⟩
  · rw [hinitial.queue]
    exact .nil
  · rw [(hinitial.node i).1] at hi
    cases hi
  · rw [hd] at hi
    exact absurd hi List.not_mem_nil
  · exact (hinitial.node i).1
  · unfold AppTimer.Visited
    rw [hinitial.check]
  · rw [hended i] at hi
    cases hi

/-- **Operations take effect in call order** in every run whose steps meet the condition: the list
    handler ends, and leaves every timer as the calls in their order do; and a timer that has ended
    does not fire. -/
theorem inOrder_of_reachable (cfg : TimerConfig) {s : OrderTrace n}
    (h : (machine cfg).ReachableUnder (Ordered cfg) s) :
    (s.timer.check = .idle → InOrder cfg s.timer) ∧
      ∀ i, s.ended i = true → (timeoutsCheckStep s.timer).1 ≠ some i := by
  obtain ⟨⟨pre, hinv⟩, hended⟩ := h.invariant (I := Inv) (fun s hs => inv_start hs)
    fun s a hinv hen hordered => inv_step hinv hen hordered
  constructor
  · intro hidle
    obtain ⟨t, ht, hreplays, -⟩ := handled_spec cfg (hinv.idle hidle)
    exact ⟨t, ht, hreplays⟩
  · intro i hi hfires
    -- A timer that has ended does not run, and only running timers are called.
    have hoff := (hended i hi).running
    unfold timeoutsCheckStep at hfires
    rcases hcheck : s.timer.check with _ | ⟨_ | p, elapsed, expired⟩
    · rw [hcheck] at hfires
      cases hfires
    · rw [hcheck] at hfires
      cases hfires
    · rw [hcheck] at hfires
      dsimp only at hfires
      split_ifs at hfires with hlt hrunning
      obtain rfl := Option.some.inj hfires
      rw [hoff] at hrunning
      cases hrunning

instance (cfg : TimerConfig) (s : OrderTrace n) (a : TimerLabel n) :
    Decidable ((machine cfg).enabled s a) :=
  inferInstanceAs (Decidable (s.timer.Enabled cfg a))

instance (cfg : TimerConfig) (s : OrderTrace n) : DecidablePred (Succeeds cfg s)
  | .call c => (inferInstance : Decidable ((s.timer.call cfg c).1 = .success))
  | .rtc1 _ | .check | .swi => (inferInstance : Decidable True)

instance (cfg : TimerConfig) (s : OrderTrace n) (a : TimerLabel n) :
    Decidable (Ordered cfg s a) :=
  match a with
  | .call c => inferInstanceAs (Decidable ((s.timer.call cfg c).1 = .success ∧
      ∀ i, c = .stop (some i) ∨ c = .stopAll → firstStart s.timer.mOpQueue i = none))
  | .rtc1 counter => decidable_of_iff
      (s.timer.pending.all (fun c => decide (c ≤ ticksDiffGet counter s.timer.mTicksLatest)) = true)
      (by
        unfold Ordered
        simp [Option.all_eq_true])
  | .check => .isTrue trivial
  | .swi => .isTrue trivial

/-- Nothing has been called yet. -/
def twoTimersTrace : OrderTrace 2 := ⟨twoTimers, fun _ => false⟩

/-- A timer is stopped and started again in one batch, and another one is started. -/
theorem inOrder_stopStart :
    InOrder ⟨4, false⟩ ((machine ⟨4, false⟩).run twoTimersTrace
      [.call (.start (some 0) 100 0 0), .swi, .call (.stop (some 0)),
        .call (.start (some 0) 300 0 40), .call (.start (some 1) 250 0 50)]).timer :=
  (inOrder_of_reachable ⟨4, false⟩ (.of_follows (.start ⟨twoTimers_initial, fun _ => rfl⟩)
    (by decide +kernel : (machine ⟨4, false⟩).Follows (Ordered ⟨4, false⟩) twoTimersTrace
      [.call (.start (some 0) 100 0 0), .swi, .call (.stop (some 0)),
        .call (.start (some 0) 300 0 40), .call (.start (some 1) 250 0 50)]))).1
    (by decide +kernel)

/-- **A stop behind a start** in one batch is without effect: the deletions come first. -/
theorem not_inOrder_startStop :
    ¬ ∀ (cfg : TimerConfig) (s : OrderTrace 2), (machine cfg).ReachableUnder (Succeeds cfg) s →
      s.timer.check = .idle → InOrder cfg s.timer := by
  intro hall
  obtain ⟨t, ht, hreplays⟩ := hall ⟨4, false⟩ _ (.of_follows
    (.start ⟨twoTimers_initial, fun _ => rfl⟩)
    (by decide +kernel : (machine ⟨4, false⟩).Follows (Succeeds ⟨4, false⟩) twoTimersTrace
      [.call (.start (some 0) 100 0 0), .call (.stop (some 0))])) (by decide +kernel)
  have hrun : (timerListHandler ⟨4, false⟩ ((machine ⟨4, false⟩).run twoTimersTrace
      [.call (.start (some 0) 100 0 0), .call (.stop (some 0))]).timer).map
        (fun t => (t.node 0).isRunning) = some true := by decide +kernel
  rw [ht] at hrun
  have hstopped : replay ((machine ⟨4, false⟩).run twoTimersTrace
      [.call (.start (some 0) 100 0 0), .call (.stop (some 0))]).timer.mOpQueue 0
        (AppTimer.base ((machine ⟨4, false⟩).run twoTimersTrace
          [.call (.start (some 0) 100 0 0), .call (.stop (some 0))]).timer 0) = .stopped := by
    decide +kernel
  have hoff := (hreplays 0).2
  rw [hstopped] at hoff
  have hon : (t.node 0).isRunning = true := Option.some.inj hrun
  have hoff : (t.node 0).isRunning = false := hoff
  rw [hon] at hoff
  cases hoff

end OrderTrace

end NordicEsb.Timer
