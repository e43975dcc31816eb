import NordicEsb.Timer.Handler
import NordicEsb.Lib.DeltaList
import NordicEsb.Lib.LinkedList

/-!
# The List of Timers Is a Delta List

`s.Lists d` says that the nodes from `mp_timer_id_head` on hold the delta list `d`. On such a list
`timer_list_insert` and `timer_list_remove` end, and do what `DeltaList.insert` and
`DeltaList.remove` do.

**Main results**: `timerListInsert_lists` and `timerListRemove_lists`.
-/

namespace NordicEsb.Timer

open DeltaList LinkedList

variable {n : ℕ} {s t u : AppTimer n} {d m r : List (Fin n × ℕ)} {p x y : Fin n}

/-! ## §1 Nodes -/

/-- A node without the fields that belong to the list. -/
def TimerNode.data (x : TimerNode n) : TimerNode n := { x with ticksToExpire := 0, next := none }

/-- The variables that the functions of this file do not touch. -/
def AppTimer.vars (s : AppTimer n) :=
  (s.mOpQueue, s.mTicksElapsed, s.mTicksElapsedQReadInd, s.mTicksElapsedQWriteInd, s.check)

@[simp] theorem setNode_self (s : AppTimer n) (p : Fin n) (f : TimerNode n → TimerNode n) :
    (s.setNode p f).node p = f (s.node p) := by
  simp [AppTimer.setNode]

theorem setNode_ne (s : AppTimer n) (f : TimerNode n → TimerNode n) (h : x ≠ p) :
    (s.setNode p f).node x = s.node x := by
  simp [AppTimer.setNode, h]

/-- From `p` the nodes of `l` are met, with their ticks, and then `NULL`. -/
def AppTimer.Chain (s : AppTimer n) : Option (Fin n) → List (Fin n × ℕ) → Prop :=
  Holds (fun i => (s.node i).next) fun i => (s.node i).ticksToExpire

/-- Nodes that are not in the list do not matter. -/
theorem AppTimer.Chain.congr {o : Option (Fin n)} (h : s.Chain o m)
    (hframe : ∀ i ∈ keys m, t.node i = s.node i) : t.Chain o m :=
  Holds.congr h fun i hi => by
    rw [hframe i hi]
    exact ⟨rfl, rfl⟩

theorem AppTimer.Chain.toList_subset {o : Option (Fin n)} (h : s.Chain o m) :
    o.toList ⊆ keys m := by
  intro i hi
  cases m with
  | nil =>
    obtain rfl : o = none := h
    cases hi
  | cons q m =>
    obtain ⟨rfl, -, -⟩ := h
    obtain rfl := List.mem_singleton.mp hi
    exact List.mem_cons_self ..

/-- Only the links of the nodes in `xs` differ, and perhaps the head, and the RTC if it is reset. -/
structure Relinks (xs : List (Fin n)) (s t : AppTimer n) : Prop where
  outside : ∀ i, i ∉ xs → t.node i = s.node i
  data : ∀ i, (t.node i).data = (s.node i).data
  vars : t.vars = s.vars

theorem Relinks.refl (xs : List (Fin n)) (s : AppTimer n) : Relinks xs s s :=
  ⟨fun _ _ => rfl, fun _ => rfl, rfl⟩

theorem Relinks.trans {xs : List (Fin n)} (h : Relinks xs s t) (h' : Relinks xs t u) :
    Relinks xs s u :=
  ⟨fun i hi => (h'.outside i hi).trans (h.outside i hi), fun i => (h'.data i).trans (h.data i),
    h'.vars.trans h.vars⟩

theorem Relinks.mono {xs ys : List (Fin n)} (h : Relinks xs s t) (hsub : xs ⊆ ys) :
    Relinks ys s t :=
  ⟨fun i hi => h.outside i fun hx => hi (hsub hx), h.data, h.vars⟩

theorem relinks_setNode {xs : List (Fin n)} (s : AppTimer n) (hp : p ∈ xs)
    {f : TimerNode n → TimerNode n} (hf : ∀ x, (f x).data = x.data) :
    Relinks xs s (s.setNode p f) := by
  refine ⟨fun i hi => setNode_ne s f fun h => hi (h ▸ hp), fun i => ?_, rfl⟩
  by_cases hi : i = p
  · subst hi
    rw [setNode_self, hf]
  · rw [setNode_ne s f hi]

/-- **The list is a delta list**: no node is in it twice, and no time needs more than 32 bits. -/
structure AppTimer.Lists (s : AppTimer n) (d : List (Fin n × ℕ)) : Prop where
  chain : s.Chain s.mpTimerIdHead d
  nodup : (keys d).Nodup
  small : ∀ q ∈ dues 0 d, q.2 < 2 ^ 32

theorem AppTimer.Lists.length_le (h : s.Lists d) : d.length ≤ n := by
  have hlen := length_le_card h.nodup
  rwa [Fintype.card_fin] at hlen

/-! ## §2 Insertion -/

/-- The writes of an insertion. -/
theorem relinks_insertLink (s : AppTimer n) (p : Fin n) (ticks : ℕ) (pPrevious : Fin n)
    (pCurrent : Option (Fin n)) :
    Relinks (p :: pPrevious :: pCurrent.toList) s (insertLink s p ticks pPrevious pCurrent) := by
  unfold insertLink
  have hp : p ∈ p :: pPrevious :: pCurrent.toList := by simp
  have hprev : pPrevious ∈ p :: pPrevious :: pCurrent.toList := by simp
  dsimp only
  refine Relinks.trans ?_ (relinks_setNode _ hprev ?_)
  · refine Relinks.trans ?_ (relinks_setNode _ hp ?_)
    · cases pCurrent with
      | none => exact .refl _ s
      | some c =>
        have hc : c ∈ p :: pPrevious :: [c] := by simp
        apply relinks_setNode s hc
        intro x
        rfl
    · intro x
      rfl
  · intro x
    rfl

/-- **The loop of `timer_list_insert`** behind a node of the list, and the writes after it. -/
theorem insertWalk_spec (s : AppTimer n) (p : Fin n) :
    ∀ m fuel ticks pPrevious pCurrent, s.Chain pCurrent m → (s.node pPrevious).next = pCurrent →
      (p :: pPrevious :: keys m).Nodup → m.length < fuel →
      ∃ r t, insertWalk s.node fuel ticks pPrevious pCurrent = some r ∧
        t = insertLink s p r.1 r.2.1 r.2.2 ∧
        t.Chain (t.node pPrevious).next (DeltaList.insert p ticks m) ∧
        (t.node pPrevious).ticksToExpire = (s.node pPrevious).ticksToExpire ∧
        Relinks (p :: pPrevious :: keys m) s t := by
  intro m
  induction m with
  | nil =>
    intro fuel ticks pPrevious pCurrent hchain hnext hnodup hfuel
    obtain rfl : pCurrent = none := hchain
    obtain ⟨fuel, rfl⟩ : ∃ k, fuel = k + 1 := ⟨fuel - 1, by simp at hfuel; omega⟩
    have hne : p ≠ pPrevious := by
      rintro rfl
      simp at hnodup
    refine ⟨(ticks, pPrevious, none), _, rfl, rfl, ?_, ?_, ?_⟩
    · -- `p` is the last node now.
      show AppTimer.Chain _ ((insertLink s p ticks pPrevious none).node pPrevious).next [(p, ticks)]
      unfold insertLink
      dsimp only
      rw [setNode_self]
      refine ⟨rfl, ?_, ?_⟩ <;> dsimp only <;> rw [setNode_ne _ _ hne, setNode_self]
      rfl
    · unfold insertLink
      dsimp only
      rw [setNode_self, setNode_ne _ _ hne.symm]
    · exact relinks_insertLink s p ticks pPrevious none
  | cons q m ih =>
    intro fuel ticks pPrevious pCurrent hchain hnext hnodup hfuel
    obtain ⟨rfl, hticks, hrest⟩ := hchain
    obtain ⟨fuel, rfl⟩ : ∃ k, fuel = k + 1 := ⟨fuel - 1, by simp at hfuel; omega⟩
    have hnodup' : (p :: q.1 :: keys m).Nodup := by
      simp only [keys, List.map_cons, List.nodup_cons, List.mem_cons, not_or] at hnodup ⊢
      tauto
    -- The node before is not in the rest, so the walk leaves it as it is.
    have hprev : pPrevious ∉ p :: q.1 :: keys m := by
      simp only [keys, List.map_cons, List.nodup_cons, List.mem_cons, not_or] at hnodup ⊢
      tauto
    have hsub : p :: q.1 :: keys m ⊆ p :: pPrevious :: keys (q :: m) := by
      intro i hi
      simp only [keys, List.map_cons, List.mem_cons] at hi ⊢
      tauto
    unfold insertWalk DeltaList.insert
    dsimp only at hticks ⊢
    rw [hticks]
    by_cases hgt : ticks > q.2
    · -- The node is passed.
      rw [if_pos hgt, if_neg (by omega)]
      obtain ⟨r, t, hwalk, ht, hchain, hval, hrelinks⟩ := ih fuel (ticks - q.2) q.1 _ hrest rfl
        hnodup' (by simpa using hfuel)
      have hsame := hrelinks.outside pPrevious hprev
      refine ⟨r, t, hwalk, ht, ?_, by rw [hsame], hrelinks.mono hsub⟩
      rw [hsame, hnext]
      exact ⟨rfl, hval.trans hticks, hchain⟩
    · -- `p` comes before the node.
      rw [if_neg hgt, if_pos (by omega)]
      have hpq : p ≠ q.1 := by
        rintro rfl
        simp at hnodup'
      have hpprev : p ≠ pPrevious := fun h => hprev (h ▸ List.mem_cons_self ..)
      have hqprev : q.1 ≠ pPrevious := fun h => hprev (h ▸ by simp)
      refine ⟨(ticks, pPrevious, some q.1), _, rfl, rfl, ?_, ?_, ?_⟩
      -- The list is `p`, the node with the ticks that remain to it, and the rest as it was.
      · show AppTimer.Chain _ ((insertLink s p ticks pPrevious (some q.1)).node pPrevious).next
          ((p, ticks) :: (q.1, q.2 - ticks) :: m)
        unfold insertLink
        dsimp only
        rw [setNode_self]
        refine ⟨rfl, ?_, ?_⟩
        · dsimp only
          rw [setNode_ne _ _ hpprev, setNode_self]
        · dsimp only
          rw [setNode_ne _ _ hpprev, setNode_self]
          refine ⟨rfl, ?_, ?_⟩
          · dsimp only
            rw [setNode_ne _ _ hqprev, setNode_ne _ _ hpq.symm, setNode_self]
            dsimp only
            rw [hticks]
          · dsimp only
            rw [setNode_ne _ _ hqprev, setNode_ne _ _ hpq.symm, setNode_self]
            refine AppTimer.Chain.congr hrest fun i hi => ?_
            have hip : i ≠ p := by
              rintro rfl
              simp only [List.nodup_cons, List.mem_cons, not_or] at hnodup'
              exact hnodup'.1.2 hi
            have hiq : i ≠ q.1 := by
              rintro rfl
              simp only [List.nodup_cons, List.mem_cons, not_or] at hnodup'
              exact hnodup'.2.1 hi
            have hiprev : i ≠ pPrevious := fun h => hprev (h ▸ by simp [hi])
            rw [setNode_ne _ _ hiprev, setNode_ne _ _ hip, setNode_ne _ _ hiq]
      · unfold insertLink
        dsimp only
        rw [setNode_self, setNode_ne _ _ hpprev.symm, setNode_ne _ _ hqprev.symm]
      · apply (relinks_insertLink s p ticks pPrevious (some q.1)).mono
        intro i hi
        simp only [Option.toList, keys, List.map_cons, List.mem_cons] at hi ⊢
        tauto

/-- **`timer_list_insert`** ends and inserts the timer. -/
theorem timerListInsert_lists (h : s.Lists d) (hp : p ∉ keys d) (hnext : (s.node p).next = none)
    (hsmall : (s.node p).ticksToExpire < 2 ^ 32) :
    ∃ t, timerListInsert p s = some t ∧
      t.Lists (DeltaList.insert p (s.node p).ticksToExpire d) ∧ Relinks (p :: keys d) s t ∧
      t.mTicksLatest = s.mTicksLatest ∧ t.mRtc1Reset = s.mRtc1Reset := by
  have hnodup := nodup_insert (t := (s.node p).ticksToExpire) h.nodup hp
  have hdues : ∀ q ∈ dues 0 (DeltaList.insert p (s.node p).ticksToExpire d), q.2 < 2 ^ 32 := by
    intro q hq
    rcases mem_dues_insert.mp hq with rfl | hq
    · simpa using hsmall
    · exact h.small q hq
  have hlen := h.length_le
  obtain ⟨hchain, hkeys, -⟩ := h
  unfold timerListInsert
  cases d with
  -- an empty list: the timer becomes its head
  | nil =>
    have hhead : s.mpTimerIdHead = none := hchain
    rw [hhead]
    exact ⟨_, rfl, ⟨⟨rfl, rfl, hnext⟩, hnodup, hdues⟩,
      ⟨fun _ _ => rfl, fun _ => rfl, rfl⟩, rfl, rfl⟩
  | cons q d =>
    obtain ⟨hhead, hticks, hrest⟩ := hchain
    have hpq : p ≠ q.1 := by
      rintro rfl
      exact hp (List.mem_cons_self ..)
    have hpd : p ∉ keys d := fun h => hp (List.mem_cons_of_mem _ h)
    obtain ⟨hqd, -⟩ := List.nodup_cons.mp hkeys
    rw [hhead]
    dsimp only at hticks ⊢
    rw [hticks]
    by_cases hle : (s.node p).ticksToExpire ≤ q.2
    · -- `p` is the first timer.
      rw [if_pos hle]
      refine ⟨_, rfl, ⟨?_, hnodup, hdues⟩, ?_, rfl, rfl⟩
      · unfold DeltaList.insert
        rw [if_pos hle]
        show AppTimer.Chain _ (some p) _
        refine ⟨rfl, ?_, ?_⟩
        · dsimp only
          show (AppTimer.node _ p).ticksToExpire = _
          rw [setNode_self]
          dsimp only
          rw [setNode_ne _ _ hpq]
        · show AppTimer.Chain _ (AppTimer.node _ p).next _
          rw [setNode_self]
          refine ⟨rfl, ?_, ?_⟩
          · show (AppTimer.node _ q.1).ticksToExpire = _
            rw [setNode_ne _ _ hpq.symm, setNode_self]
            dsimp only
            rw [hticks]
          · show AppTimer.Chain _ (AppTimer.node _ q.1).next _
            rw [setNode_ne _ _ hpq.symm, setNode_self]
            refine AppTimer.Chain.congr hrest fun i hi => ?_
            show AppTimer.node _ i = _
            have hip : i ≠ p := fun h => hpd (h ▸ hi)
            have hiq : i ≠ q.1 := fun h => hqd (h ▸ hi)
            rw [setNode_ne _ _ hip, setNode_ne _ _ hiq]
      · have hq : q.1 ∈ p :: keys (q :: d) := by simp
        have hrelinks := (relinks_setNode s hq
          (f := fun x => { x with ticksToExpire := x.ticksToExpire - (s.node p).ticksToExpire })
          fun x => rfl).trans
          (relinks_setNode _ (p := p) (f := fun x => { x with next := some q.1 }) (by simp)
            fun x => rfl)
        exact ⟨hrelinks.outside, hrelinks.data, hrelinks.vars⟩
    · rw [if_neg hle]
      -- `p` is behind the head, so the loop finds its place.
      have hnodup' : (p :: q.1 :: keys d).Nodup := List.nodup_cons.mpr ⟨hp, hkeys⟩
      obtain ⟨r, t, hwalk, ht, hchain, hval, hrelinks⟩ := insertWalk_spec s p d n
        ((s.node p).ticksToExpire - q.2) q.1 _ hrest rfl hnodup'
        (Nat.lt_of_succ_le hlen)
      unfold insertWalk
      rw [hticks, if_pos (by omega), hwalk]
      have hhead' : t.mpTimerIdHead = s.mpTimerIdHead := by
        rw [ht]
        unfold insertLink
        cases r.2.2 <;> rfl
      have hlatest : t.mTicksLatest = s.mTicksLatest ∧ t.mRtc1Reset = s.mRtc1Reset := by
        rw [ht]
        unfold insertLink
        cases r.2.2 <;> exact ⟨rfl, rfl⟩
      refine ⟨t, by rw [ht]; rfl, ⟨?_, hnodup, hdues⟩, hrelinks, hlatest.1, hlatest.2⟩
      unfold DeltaList.insert
      rw [hhead', hhead, if_neg hle]
      exact ⟨rfl, hval.trans hticks, hchain⟩

/-! ## §3 Removal -/

/-- The writes of a removal. -/
theorem relinks_removeLink (s : AppTimer n) (pPrevious pCurrent : Fin n) :
    Relinks (pPrevious :: (s.node pCurrent).next.toList) s (removeLink pPrevious pCurrent s) := by
  unfold removeLink
  dsimp only
  have hprev : pPrevious ∈ pPrevious :: (s.node pCurrent).next.toList := by simp
  cases hnext : (s.node pCurrent).next with
  | none =>
    dsimp only
    apply relinks_setNode s (by simp)
    intro x
    rfl
  | some c =>
    dsimp only
    refine Relinks.trans (relinks_setNode (p := pPrevious)
      (f := fun x => { x with next := some c }) s (by simp) ?_) (relinks_setNode _ ?_ ?_)
    · intro x
      rfl
    · simp
    · intro x
      rfl

/-- The node behind `p_previous` is taken out. -/
theorem removeLink_spec {q : Fin n × ℕ} {b : ℕ} {pPrevious : Fin n}
    (hticks : (s.node q.1).ticksToExpire = q.2) (hchain : s.Chain (s.node q.1).next m)
    (hnodup : (pPrevious :: keys m).Nodup) (hsmall : ∀ e ∈ dues (b + q.2) m, e.2 < 2 ^ 32) :
    (removeLink pPrevious q.1 s).Chain ((removeLink pPrevious q.1 s).node pPrevious).next
      (delay q.2 m) ∧
    ((removeLink pPrevious q.1 s).node pPrevious).ticksToExpire =
      (s.node pPrevious).ticksToExpire := by
  unfold removeLink
  dsimp only
  cases m with
  | nil =>
    have hnext : (s.node q.1).next = none := hchain
    rw [hnext]
    dsimp only
    rw [setNode_self]
    exact ⟨rfl, rfl⟩
  | cons r m =>
    obtain ⟨hnext, hr, hrest⟩ := hchain
    simp only [keys, List.map_cons, List.nodup_cons, List.mem_cons, not_or] at hnodup
    obtain ⟨⟨hpr, hpm⟩, hrm, -⟩ := hnodup
    have hlt : r.2 + q.2 < 2 ^ 32 := by
      have hlt := hsmall (r.1, b + q.2 + r.2) (by simp)
      dsimp only at hlt
      omega
    dsimp only at hr
    rw [hnext]
    dsimp only
    rw [setNode_ne _ _ hpr, setNode_self]
    refine ⟨⟨rfl, ?_, ?_⟩, rfl⟩
    · dsimp only
      rw [setNode_self, setNode_ne _ _ (Ne.symm hpr), hr, hticks, Nat.mod_eq_of_lt hlt]
    · dsimp only
      rw [setNode_self, setNode_ne _ _ (Ne.symm hpr)]
      refine AppTimer.Chain.congr hrest fun i hi => ?_
      have hir : i ≠ r.1 := fun h => hrm (h ▸ hi)
      have hip : i ≠ pPrevious := fun h => hpm (h ▸ hi)
      rw [setNode_ne _ _ hir, setNode_ne _ _ hip]

/-- The end of `timer_list_remove`. -/
def removeEnd (s : AppTimer n) : Option (Fin n) × Option (Fin n) → AppTimer n
  | (some pPrevious, some pCurrent) =>
    removeLink pPrevious pCurrent (if pPrevious = pCurrent then removeHead pCurrent s else s)
  | _ => s

theorem timerListRemove_eq (p : Fin n) (s : AppTimer n) :
    timerListRemove p s = (removeWalk s.node p (n + 1) s.mpTimerIdHead s.mpTimerIdHead).map
      (removeEnd s) := by
  unfold timerListRemove
  congr 1

/-- **The loop of `timer_list_remove`** behind a node of the list, and the writes after it. -/
theorem removeWalk_spec (s : AppTimer n) (p : Fin n) :
    ∀ m fuel b pPrevious pCurrent, s.Chain pCurrent m → (s.node pPrevious).next = pCurrent →
      (pPrevious :: keys m).Nodup → (∀ q ∈ dues b m, q.2 < 2 ^ 32) → m.length < fuel →
      ∃ r t, removeWalk s.node p fuel (some pPrevious) pCurrent = some r ∧ t = removeEnd s r ∧
        t.Chain (t.node pPrevious).next (remove p m) ∧
        (t.node pPrevious).ticksToExpire = (s.node pPrevious).ticksToExpire ∧
        Relinks (pPrevious :: keys m) s t ∧ t.mpTimerIdHead = s.mpTimerIdHead ∧
        t.mTicksLatest = s.mTicksLatest ∧ t.mRtc1Reset = s.mRtc1Reset := by
  intro m
  induction m with
  | nil =>
    intro fuel b pPrevious pCurrent hchain hnext hnodup hsmall hfuel
    obtain rfl : pCurrent = none := hchain
    obtain ⟨fuel, rfl⟩ : ∃ k, fuel = k + 1 := ⟨fuel - 1, by simp at hfuel; omega⟩
    exact ⟨_, s, rfl, rfl, hnext, rfl, .refl _ s, rfl, rfl, rfl⟩
  | cons q m ih =>
    intro fuel b pPrevious pCurrent hchain hnext hnodup hsmall hfuel
    obtain ⟨rfl, hticks, hrest⟩ := hchain
    obtain ⟨fuel, rfl⟩ : ∃ k, fuel = k + 1 := ⟨fuel - 1, by simp at hfuel; omega⟩
    obtain ⟨hprev, hnodup'⟩ := List.nodup_cons.mp hnodup
    unfold removeWalk remove
    dsimp only at hticks ⊢
    by_cases hqp : q.1 = p
    · -- The timer is found.
      have hne : pPrevious ≠ q.1 := fun h => hprev (h ▸ List.mem_cons_self ..)
      have hnodup'' : (pPrevious :: keys m).Nodup := by
        simp only [keys, List.map_cons, List.nodup_cons, List.mem_cons, not_or] at hnodup ⊢
        tauto
      have hend : removeEnd s (some pPrevious, some q.1) = removeLink pPrevious q.1 s := by
        unfold removeEnd
        dsimp only
        rw [if_neg hne]
      rw [if_pos hqp, if_pos hqp]
      refine ⟨_, _, rfl, rfl, ?_⟩
      rw [hend]
      obtain ⟨hchain, hval⟩ := removeLink_spec (b := b) hticks hrest hnodup''
        fun e he => hsmall e (List.mem_cons_of_mem _ he)
      have hrelinks := relinks_removeLink s pPrevious q.1
      refine ⟨hchain, hval, hrelinks.mono ?_, ?_⟩
      · apply List.cons_subset_cons
        exact List.Subset.trans (AppTimer.Chain.toList_subset hrest) (List.subset_cons_self _ _)
      · unfold removeLink
        dsimp only
        cases (s.node q.1).next <;> exact ⟨rfl, rfl, rfl⟩
    · rw [if_neg hqp, if_neg hqp]
      obtain ⟨r, t, hwalk, ht, hchain, hval, hrelinks, hothers⟩ := ih fuel (b + q.2) q.1 _ hrest rfl
        hnodup' (fun e he => hsmall e (List.mem_cons_of_mem _ he)) (by simpa using hfuel)
      have hsame := hrelinks.outside pPrevious hprev
      refine ⟨r, t, hwalk, ht, ?_, by rw [hsame], hrelinks.mono (List.subset_cons_self _ _), hothers⟩
      rw [hsame, hnext]
      exact ⟨rfl, hval.trans hticks, hchain⟩

/-- **`timer_list_remove`** ends and removes the timer. The RTC is reset if it was the last one. -/
theorem timerListRemove_lists (h : s.Lists d) (p : Fin n) :
    ∃ t, timerListRemove p s = some t ∧ t.Lists (remove p d) ∧ Relinks (keys d) s t ∧
      ((t.mTicksLatest = s.mTicksLatest ∧ t.mRtc1Reset = s.mRtc1Reset) ∨
        (keys d = [p] ∧ t.mTicksLatest = 0)) := by
  have hnodup := nodup_remove (x := p) h.nodup
  have hdues : ∀ q ∈ dues 0 (remove p d), q.2 < 2 ^ 32 := fun q hq =>
    h.small q ((mem_dues_remove h.nodup).mp hq).2
  have hlen := h.length_le
  obtain ⟨hchain, hkeys, hsmall⟩ := h
  rw [timerListRemove_eq]
  cases d with
  | nil =>
    have hhead : s.mpTimerIdHead = none := hchain
    rw [hhead]
    exact ⟨s, rfl, ⟨hchain, hnodup, hdues⟩, .refl _ s, .inl ⟨rfl, rfl⟩⟩
  | cons q d =>
    obtain ⟨hhead, hticks, hrest⟩ := hchain
    dsimp only at hticks
    rw [hhead]
    unfold removeWalk
    by_cases hqp : q.1 = p
    · -- The first timer is removed.
      rw [if_pos hqp]
      have hend : removeEnd s (some q.1, some q.1) = removeLink q.1 q.1 (removeHead q.1 s) := by
        unfold removeEnd
        dsimp only
        rw [if_pos rfl]
      have hnode : (removeHead q.1 s).node = s.node := by
        unfold removeHead
        cases (s.node q.1).next <;> rfl
      have hrest' : (removeHead q.1 s).Chain ((removeHead q.1 s).node q.1).next d :=
        AppTimer.Chain.congr (hnode ▸ hrest) fun i _ => by rw [hnode]
      have hsmall' : ∀ e ∈ dues (0 + q.2) d, e.2 < 2 ^ 32 :=
        fun e he => hsmall e (List.mem_cons_of_mem _ he)
      obtain ⟨hremoved, -⟩ := removeLink_spec (hnode ▸ hticks) hrest' hkeys hsmall'
      have hhead' : (removeLink q.1 q.1 (removeHead q.1 s)).mpTimerIdHead =
          ((removeLink q.1 q.1 (removeHead q.1 s)).node q.1).next := by
        unfold removeLink
        dsimp only
        rw [hnode]
        cases hnext : (s.node q.1).next with
        | none =>
          dsimp only
          rw [setNode_self]
          unfold removeHead
          rw [hnext]
          rfl
        | some c =>
          have hc : c ≠ q.1 := by
            have hmem := AppTimer.Chain.toList_subset (s := s) hrest (a := c) (by simp [hnext])
            rintro rfl
            exact (List.nodup_cons.mp hkeys).1 hmem
          dsimp only
          rw [setNode_ne _ _ hc.symm, setNode_self]
          unfold removeHead
          rw [hnext]
          rfl
      have hrelinks : Relinks (keys (q :: d)) s (removeLink q.1 q.1 (removeHead q.1 s)) := by
        have hhead : Relinks (keys (q :: d)) s (removeHead q.1 s) := by
          refine ⟨fun i _ => by rw [hnode], fun i => by rw [hnode], ?_⟩
          unfold removeHead
          cases (s.node q.1).next <;> rfl
        apply hhead.trans
        apply (relinks_removeLink (removeHead q.1 s) q.1 q.1).mono
        rw [hnode]
        exact List.cons_subset_cons _ (AppTimer.Chain.toList_subset hrest)
      refine ⟨removeLink q.1 q.1 (removeHead q.1 s), congrArg some hend, ⟨?_, hnodup, hdues⟩, ?_⟩
      · unfold remove
        rw [if_pos hqp]
        exact hhead' ▸ hremoved
      · refine ⟨hrelinks, ?_⟩
        cases hnext : (s.node q.1).next with
        | none =>
          -- It was the last one.
          have hd : d = [] := by
            have hchain : s.Chain (s.node q.1).next d := hrest
            rw [hnext] at hchain
            exact Holds.nil_of_none hchain
          subst hd
          refine .inr ⟨congrArg (fun x => [x]) hqp, ?_⟩
          unfold removeLink removeHead
          rw [hnext]
          dsimp only
          rw [hnext]
          rfl
        | some c =>
          left
          unfold removeLink removeHead
          rw [hnext]
          dsimp only
          rw [hnext]
          exact ⟨rfl, rfl⟩
    · rw [if_neg hqp]
      obtain ⟨r, t, hwalk, ht, hchain, hval, hrelinks, hhead', hlatest, hreset⟩ :=
        removeWalk_spec s p d n (0 + q.2) q.1 _ hrest rfl hkeys
          (fun e he => hsmall e (List.mem_cons_of_mem _ he)) (Nat.lt_of_succ_le hlen)
      rw [hwalk]
      refine ⟨t, by rw [ht]; rfl, ⟨?_, hnodup, hdues⟩, hrelinks, .inl ⟨hlatest, hreset⟩⟩
      unfold remove
      rw [hhead', hhead, if_neg hqp]
      exact ⟨rfl, hval.trans hticks, hchain⟩

end NordicEsb.Timer
