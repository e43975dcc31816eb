import NordicEsb.Fstorage.Queue
import Mathlib.Algebra.Order.BigOperators.Group.List
import Mathlib.Algebra.Order.Group.Nat
import Mathlib.Data.List.Perm.Subperm

/-!
# The Regions of the Users of fstorage

`fs_init` gives a region of the flash to each configuration that has none. In each round of its loop
it selects the configuration with the highest priority of those without a region, and places it
below the last one.

- `selectLoop`, `assign`, `fsInit`: the function, with `max_index` of 8 bits.
- `Regions`: the configurations that had a region keep it, and the others lie one below the other
  from `FS_PAGE_END_ADDR` on, by their priorities.
- `Selectable`: which configurations `fs_init` can serve.

**Main result** (`regions_iff`): the regions are such if and only if the configurations are.
-/

namespace NordicEsb.Fstorage

/-! ## §1 The function -/

/-- `fs_config_t`, with the pages that are requested and the priority. -/
structure FsUser extends FsConfig where
  numPages : ℕ
  priority : ℕ
deriving DecidableEq, Repr, Inhabited

/-- What is known when the program is built: `FS_PAGE_SIZE` in bytes, `FS_PAGE_END_ADDR` and the
    number of configurations. -/
structure FsFlash where
  pageSize : ℕ
  pageEndAddr : ℕ
  totalUsers : ℕ
  pageSize_le : pageSize ≤ 4096
  pageEndAddr_lt : pageEndAddr < 2 ^ 32
  totalUsers_lt : totalUsers < 2 ^ 32

/-- `(p_start_addr != NULL) && (p_end_addr != NULL)` -/
def FsUser.isSet (c : FsUser) : Bool := c.startAddr != 0 && c.endAddr != 0

/-- The configurations by their indices, and `FS_FLAG_INITIALIZED`. -/
structure FsSection where
  users : ℕ → FsUser
  initialized : Bool

variable (fl : FsFlash)

/-- The first loop: `configs_to_init`. -/
def configsToInit (users : ℕ → FsUser) : ℕ :=
  (List.range fl.totalUsers).foldl (fun k i => if (users i).isSet then k - 1 else k) fl.totalUsers

/-- The body of the inner loop, with `max_priority` and `max_index`. -/
def selectBody (users : ℕ → FsUser) (m : ℕ × ℕ) (j : ℕ) : ℕ × ℕ :=
  if (users j).isSet then m
  else if (users j).priority > m.1 then ((users j).priority, j % 2 ^ 8)
  else m

/-- The inner loop in round `i`. -/
def selectLoop (users : ℕ → FsUser) (i n : ℕ) : ℕ × ℕ :=
  (List.range n).foldl (selectBody users) (0, i % 2 ^ 8)

/-- The configurations, with `p_current_end`. -/
structure Placed where
  users : ℕ → FsUser
  currentEnd : ℕ

/-- Give a region to the configuration `maxIndex`. -/
def Placed.assign (p : Placed) (maxIndex : ℕ) : Placed :=
  let c := p.users maxIndex
  let startAddr := (p.currentEnd + 2 ^ 32 - c.numPages * fl.pageSize) % 2 ^ 32
  { users := Function.update p.users maxIndex
      { c with endAddr := p.currentEnd, startAddr := startAddr }
    currentEnd := startAddr }

/-- The configuration that is selected in round `i`. -/
def Placed.maxIndex (p : Placed) (i : ℕ) : ℕ := (selectLoop p.users i fl.totalUsers).2

/-- The rounds of the outer loop. -/
def placedAfter (users : ℕ → FsUser) (rounds : ℕ) : Placed :=
  (List.range rounds).foldl (fun p i => p.assign fl (p.maxIndex fl i)) ⟨users, fl.pageEndAddr⟩

/-- `fs_init` -/
def fsInit (s : FsSection) : FsSection :=
  if s.initialized then s
  else { users := (placedAfter fl s.users (configsToInit fl s.users)).users, initialized := true }

/-! ## §2 Regions -/

/-- The configurations without a region. -/
def unsetUsers (users : ℕ → FsUser) : List ℕ :=
  (List.range fl.totalUsers).filter fun i => !(users i).isSet

/-- The numbers of pages fit, and the lowest address is not `NULL`. -/
def FitsFlash (users : ℕ → FsUser) : Prop :=
  (∀ i < fl.totalUsers, (users i).numPages < 2 ^ 8 ∧ (users i).priority < 2 ^ 8) ∧
    ((unsetUsers fl users).map fun i => (users i).numPages * fl.pageSize).sum < fl.pageEndAddr

/-- The regions of `order` lie one below the other, from `top` down to `bottom`. -/
def Stacked (users : ℕ → FsUser) (top bottom : ℕ) : List ℕ → Prop
  | [] => top = bottom
  | i :: order => (users i).endAddr = top ∧
      (users i).startAddr + (users i).numPages * fl.pageSize = top ∧
      Stacked users (users i).startAddr bottom order

/-- **The regions** after `fs_init`. -/
structure Regions (users users' : ℕ → FsUser) : Prop where
  preset : ∀ i < fl.totalUsers, (users i).isSet = true → users' i = users i
  same : ∀ i < fl.totalUsers,
    (users' i).numPages = (users i).numPages ∧ (users' i).priority = (users i).priority
  set : ∀ i < fl.totalUsers, (users' i).isSet = true
  /-- The new regions are contiguous, and higher priorities come first. -/
  stacked : ∃ order bottom, order.Perm (unsetUsers fl users) ∧
    Stacked fl users' fl.pageEndAddr bottom order ∧
    order.Pairwise fun i j => (users j).priority ≤ (users i).priority
  disjoint : ∀ i ∈ unsetUsers fl users, ∀ j ∈ unsetUsers fl users, i ≠ j →
    (users' i).endAddr ≤ (users' j).startAddr ∨ (users' j).endAddr ≤ (users' i).startAddr
  ordered : ∀ i ∈ unsetUsers fl users, ∀ j ∈ unsetUsers fl users,
    (users i).priority < (users j).priority → (users' i).endAddr ≤ (users' j).startAddr

/-- The configurations without a region that have a priority. -/
def withPriority (users : ℕ → FsUser) : List ℕ :=
  (unsetUsers fl users).filter fun i => 0 < (users i).priority

/-- **The configurations that `fs_init` can serve**: none without a region has an index of more than 8
    bits, and those of priority 0 are just those of the rounds that are left for them. -/
def Selectable (users : ℕ → FsUser) : Prop :=
  (∀ i ∈ unsetUsers fl users, i < 2 ^ 8) ∧
    ∀ i, (i ∈ unsetUsers fl users ∧ (users i).priority = 0) ↔
      (withPriority fl users).length ≤ i ∧ i < (unsetUsers fl users).length

/-! ## §3 Loops -/

variable {fl} {users users' : ℕ → FsUser} {i j n : ℕ} {p : Placed} {order picks : List ℕ}

theorem mem_unsetUsers : i ∈ unsetUsers fl users ↔ i < fl.totalUsers ∧ (users i).isSet = false := by
  simp [unsetUsers]

theorem nodup_unsetUsers (fl : FsFlash) (users : ℕ → FsUser) : (unsetUsers fl users).Nodup :=
  List.nodup_range.filter _

/-- **The first loop** counts. -/
theorem configsToInit_eq (fl : FsFlash) (users : ℕ → FsUser) :
    configsToInit fl users = (unsetUsers fl users).length := by
  have hloop : ∀ (l : List ℕ) (k : ℕ), l.length ≤ k →
      l.foldl (fun k i => if (users i).isSet then k - 1 else k) k + l.length =
        k + (l.filter fun i => !(users i).isSet).length := by
    intro l
    induction l with
    | nil => exact fun _ _ => rfl
    | cons i l ih =>
      intro k hk
      rw [List.length_cons] at hk ⊢
      rw [List.foldl_cons, List.filter_cons]
      cases hset : (users i).isSet with
      | true =>
        have hrest := ih (k - 1) (by omega)
        simp only [if_true, Bool.not_true, Bool.false_eq_true, if_false]
        omega
      | false =>
        have hrest := ih k (by omega)
        simp only [Bool.false_eq_true, if_false, Bool.not_false, if_true, List.length_cons]
        omega
  have hall := hloop (List.range fl.totalUsers) fl.totalUsers (by rw [List.length_range])
  rw [List.length_range] at hall
  unfold configsToInit unsetUsers
  omega

/-- What the inner loop has found. -/
inductive Found (users : ℕ → FsUser) (i n : ℕ) : ℕ × ℕ → Prop
  /-- A configuration of the highest priority. -/
  | highest {j : ℕ} : j < n → (users j).isSet = false → 0 < (users j).priority →
      (∀ k < n, (users k).isSet = false → (users k).priority ≤ (users j).priority) →
      Found users i n ((users j).priority, j % 2 ^ 8)
  /-- No priority beats 0, and the index of the round is left. -/
  | nothing : (∀ k < n, (users k).isSet = false → (users k).priority = 0) →
      Found users i n (0, i % 2 ^ 8)

/-- **The inner loop.** -/
theorem found_selectLoop (users : ℕ → FsUser) (i n : ℕ) :
    Found users i n (selectLoop users i n) := by
  induction n with
  | zero => exact .nothing fun k hk => absurd hk (Nat.not_lt_zero k)
  | succ n ih =>
    have hstep : selectLoop users i (n + 1) = selectBody users (selectLoop users i n) n := by
      unfold selectLoop
      rw [List.range_succ, List.foldl_concat]
    rw [hstep]
    generalize selectLoop users i n = m at ih
    unfold selectBody
    -- the configurations before `n`, and `n`
    have hcases : ∀ {P : ℕ → Prop}, (∀ k < n, P k) → P n → ∀ k < n + 1, P k := by
      intro P hbefore hn k hk
      rcases Nat.lt_succ_iff_lt_or_eq.mp hk with hlt | rfl
      · exact hbefore k hlt
      · exact hn
    cases ih with
    | @highest j hj hunset hpos hmax =>
      dsimp only
      split
      · next hset =>
        exact .highest (by omega) hunset hpos (hcases hmax fun h => by simp [hset] at h)
      · next hnset =>
        have hn : (users n).isSet = false := by simpa using hnset
        split
        · next hgt =>
          exact .highest (by omega) hn (by omega)
            (hcases (fun k hk h => (hmax k hk h).trans hgt.le) fun _ => le_rfl)
        · next hle => exact .highest (by omega) hunset hpos (hcases hmax fun _ => by omega)
    | nothing hzero =>
      dsimp only
      split
      · next hset => exact .nothing (hcases hzero fun h => by simp [hset] at h)
      · next hnset =>
        have hn : (users n).isSet = false := by simpa using hnset
        split
        · next hgt =>
          refine .highest (by omega) hn hgt (hcases (fun k hk h => ?_) fun _ => le_rfl)
          rw [hzero k hk h]
          exact Nat.zero_le _
        · next hle => exact .nothing (hcases hzero fun _ => by omega)

/-! ## §4 Placing -/

/-- The configurations that were selected. -/
def picksAfter (fl : FsFlash) (users : ℕ → FsUser) (rounds : ℕ) : List ℕ :=
  (List.range rounds).map fun i => (placedAfter fl users i).maxIndex fl i

theorem picksAfter_succ (fl : FsFlash) (users : ℕ → FsUser) (rounds : ℕ) :
    picksAfter fl users (rounds + 1) =
      picksAfter fl users rounds ++ [(placedAfter fl users rounds).maxIndex fl rounds] := by
  unfold picksAfter
  rw [List.range_succ, List.map_append]
  rfl

@[simp] theorem length_picksAfter (fl : FsFlash) (users : ℕ → FsUser) (rounds : ℕ) :
    (picksAfter fl users rounds).length = rounds := by
  simp [picksAfter]

/-- Place several configurations. -/
def Placed.assignAll (fl : FsFlash) (p : Placed) (picks : List ℕ) : Placed :=
  picks.foldl (Placed.assign fl) p

theorem placedAfter_succ (fl : FsFlash) (users : ℕ → FsUser) (rounds : ℕ) :
    placedAfter fl users (rounds + 1) =
      (placedAfter fl users rounds).assign fl ((placedAfter fl users rounds).maxIndex fl rounds) := by
  unfold placedAfter
  rw [List.range_succ, List.foldl_concat]

theorem placedAfter_eq (fl : FsFlash) (users : ℕ → FsUser) (rounds : ℕ) :
    placedAfter fl users rounds =
      Placed.assignAll fl ⟨users, fl.pageEndAddr⟩ (picksAfter fl users rounds) := by
  induction rounds with
  | zero =>
    unfold placedAfter picksAfter Placed.assignAll
    rw [List.range_zero, List.map_nil, List.foldl_nil, List.foldl_nil]
  | succ rounds ih =>
    unfold Placed.assignAll at ih ⊢
    rw [picksAfter_succ, List.foldl_concat, ← ih, placedAfter_succ]

theorem assign_of_ne (p : Placed) (h : j ≠ i) : (p.assign fl i).users j = p.users j :=
  Function.update_of_ne h _ _

/-- The pages and the priority stay. -/
theorem assign_same (p : Placed) (i j : ℕ) :
    ((p.assign fl i).users j).numPages = (p.users j).numPages ∧
      ((p.assign fl i).users j).priority = (p.users j).priority := by
  by_cases h : j = i
  · subst h
    show (Function.update p.users j _ j).numPages = _ ∧ (Function.update p.users j _ j).priority = _
    rw [Function.update_self]
    exact ⟨rfl, rfl⟩
  · rw [assign_of_ne p h]
    exact ⟨rfl, rfl⟩

theorem assignAll_of_not_mem (h : j ∉ picks) (p : Placed) :
    (p.assignAll fl picks).users j = p.users j := by
  induction picks generalizing p with
  | nil => rfl
  | cons i picks ih =>
    rw [List.mem_cons, not_or] at h
    show (Placed.assignAll fl (p.assign fl i) picks).users j = _
    rw [ih h.2, assign_of_ne p h.1]

theorem assignAll_same (p : Placed) (picks : List ℕ) (j : ℕ) :
    ((p.assignAll fl picks).users j).numPages = (p.users j).numPages ∧
      ((p.assignAll fl picks).users j).priority = (p.users j).priority := by
  induction picks generalizing p with
  | nil => exact ⟨rfl, rfl⟩
  | cons i picks ih =>
    have hstep : ((p.assign fl i).users j).numPages = (p.users j).numPages ∧
        ((p.assign fl i).users j).priority = (p.users j).priority := assign_same p i j
    have hrest := ih (p.assign fl i)
    exact ⟨hrest.1.trans hstep.1, hrest.2.trans hstep.2⟩

variable (fl) in
/-- The bytes that the configurations ask for. -/
def bytesOf (users : ℕ → FsUser) (picks : List ℕ) : ℕ :=
  (picks.map fun i => (users i).numPages * fl.pageSize).sum

/-- **Configurations that are placed once** lie one below the other. -/
theorem stacked_assignAll (hnodup : picks.Nodup)
    (hfits : bytesOf fl p.users picks < p.currentEnd) (hend : p.currentEnd < 2 ^ 32) :
    Stacked fl (p.assignAll fl picks).users p.currentEnd (p.assignAll fl picks).currentEnd picks ∧
      (p.assignAll fl picks).currentEnd + bytesOf fl p.users picks = p.currentEnd := by
  induction picks generalizing p with
  | nil => exact ⟨rfl, rfl⟩
  | cons i picks ih =>
    obtain ⟨hnew, hrest⟩ := List.nodup_cons.mp hnodup
    have hbytes : bytesOf fl p.users (i :: picks) =
        (p.users i).numPages * fl.pageSize + bytesOf fl p.users picks := by
      unfold bytesOf
      rw [List.map_cons, List.sum_cons]
    have hsame : bytesOf fl (p.assign fl i).users picks = bytesOf fl p.users picks := by
      unfold bytesOf
      congr 1
      apply List.map_congr_left
      intro j _
      rw [(assign_same p i j).1]
    have hstart : (p.assign fl i).currentEnd =
        (p.currentEnd + 2 ^ 32 - (p.users i).numPages * fl.pageSize) % 2 ^ 32 := rfl
    rw [hbytes] at hfits ⊢
    have hcurrent : (p.assign fl i).currentEnd + (p.users i).numPages * fl.pageSize =
        p.currentEnd := by
      rw [hstart]
      omega
    obtain ⟨hstacked, hbottom⟩ := ih (p := p.assign fl i) hrest (by omega) (by omega)
    have husers : (p.assignAll fl (i :: picks)) = Placed.assignAll fl (p.assign fl i) picks := rfl
    have hi : ((p.assignAll fl (i :: picks)).users i) = (p.assign fl i).users i := by
      rw [husers]
      exact assignAll_of_not_mem hnew _
    have hself : (p.assign fl i).users i = { p.users i with
        endAddr := p.currentEnd, startAddr := (p.assign fl i).currentEnd } :=
      Function.update_self ..
    refine ⟨⟨?_, ?_, ?_⟩, ?_⟩
    · rw [hi, hself]
    · rw [hi, hself]
      exact hcurrent
    · rw [hi, hself]
      exact hstacked
    · rw [husers]
      omega

/-! ## §5 What is placed -/

/-- A region lies between the ends of the stack. -/
theorem Stacked.mem {top bottom : ℕ} (h : Stacked fl users top bottom order) :
    bottom ≤ top ∧ ∀ i ∈ order, bottom ≤ (users i).startAddr ∧
      (users i).startAddr ≤ (users i).endAddr ∧ (users i).endAddr ≤ top := by
  induction order generalizing top with
  | nil => exact ⟨(show top = bottom from h).ge, fun i hi => absurd hi List.not_mem_nil⟩
  | cons k order ih =>
    obtain ⟨hend, hstart, hrest⟩ := h
    obtain ⟨hle, hmem⟩ := ih hrest
    refine ⟨by omega, ?_⟩
    intro i hi
    rcases List.mem_cons.mp hi with rfl | hi
    · omega
    · have hi' := hmem i hi
      omega

/-- **Later regions lie below.** -/
theorem Stacked.pairwise {top bottom : ℕ} (h : Stacked fl users top bottom order) :
    order.Pairwise fun i j => (users j).endAddr ≤ (users i).startAddr := by
  induction order generalizing top with
  | nil => exact .nil
  | cons k order ih =>
    obtain ⟨-, -, hrest⟩ := h
    exact .cons (fun j hj => (hrest.mem.2 j hj).2.2) (ih hrest)

/-- Fewer configurations ask for fewer bytes. -/
theorem bytesOf_le (hnodup : picks.Nodup) (hsub : picks ⊆ order) :
    bytesOf fl users picks ≤ bytesOf fl users order := by
  obtain ⟨l, hperm, hsublist⟩ := List.subperm_of_subset hnodup hsub
  unfold bytesOf
  rw [← (hperm.map _).sum_eq]
  exact (hsublist.map _).sum_le_sum fun _ _ => Nat.zero_le _

/-- **What a round finds**, if all that was selected was new. -/
structure Fresh (fl : FsFlash) (users : ℕ → FsUser) (picks : List ℕ) : Prop where
  nodup : picks.Nodup
  sub : picks ⊆ unsetUsers fl users

theorem Fresh.stacked (h : Fresh fl users picks) (hfits : FitsFlash fl users) :
    Stacked fl (Placed.assignAll fl ⟨users, fl.pageEndAddr⟩ picks).users fl.pageEndAddr
        (Placed.assignAll fl ⟨users, fl.pageEndAddr⟩ picks).currentEnd picks ∧
      0 < (Placed.assignAll fl ⟨users, fl.pageEndAddr⟩ picks).currentEnd := by
  have hle : bytesOf fl users picks ≤ bytesOf fl users (unsetUsers fl users) :=
    bytesOf_le h.nodup h.sub
  have hall : bytesOf fl users (unsetUsers fl users) < fl.pageEndAddr := hfits.2
  have hend := fl.pageEndAddr_lt
  obtain ⟨hstacked, hbottom⟩ := stacked_assignAll (p := ⟨users, fl.pageEndAddr⟩) h.nodup
    (hle.trans_lt hall) hend
  refine ⟨hstacked, ?_⟩
  have hbottom' : (Placed.assignAll fl ⟨users, fl.pageEndAddr⟩ picks).currentEnd +
      bytesOf fl users picks = fl.pageEndAddr := hbottom
  omega

/-- The configurations that are left. -/
theorem Fresh.isSet_iff (h : Fresh fl users picks) (hfits : FitsFlash fl users)
    (hj : j < fl.totalUsers) :
    ((Placed.assignAll fl ⟨users, fl.pageEndAddr⟩ picks).users j).isSet = false ↔
      j ∈ unsetUsers fl users ∧ j ∉ picks := by
  obtain ⟨hstacked, hpos⟩ := h.stacked hfits
  by_cases hmem : j ∈ picks
  · obtain ⟨hge, hle, -⟩ := hstacked.mem.2 j hmem
    have hset : ((Placed.assignAll fl ⟨users, fl.pageEndAddr⟩ picks).users j).isSet = true := by
      unfold FsUser.isSet
      rw [Bool.and_eq_true, bne_iff_ne, bne_iff_ne]
      omega
    rw [hset]
    simp [hmem]
  · rw [assignAll_of_not_mem hmem, mem_unsetUsers]
    simp [hmem, hj]

/-- **The selection of a round.** -/
inductive Pick (fl : FsFlash) (users : ℕ → FsUser) (picks : List ℕ) (i : ℕ) : ℕ → Prop
  | highest {j : ℕ} : j ∈ unsetUsers fl users → j ∉ picks → 0 < (users j).priority →
      (∀ k ∈ unsetUsers fl users, k ∉ picks → (users k).priority ≤ (users j).priority) →
      Pick fl users picks i (j % 2 ^ 8)
  | round : (∀ k ∈ unsetUsers fl users, k ∉ picks → (users k).priority = 0) →
      Pick fl users picks i (i % 2 ^ 8)

theorem Fresh.pick (h : Fresh fl users (picksAfter fl users i)) (hfits : FitsFlash fl users) :
    Pick fl users (picksAfter fl users i) i ((placedAfter fl users i).maxIndex fl i) := by
  have hset := fun j hj => h.isSet_iff hfits (j := j) hj
  have hpriority : ∀ j, ((Placed.assignAll fl ⟨users, fl.pageEndAddr⟩
      (picksAfter fl users i)).users j).priority = (users j).priority := fun j =>
    (assignAll_same ⟨users, fl.pageEndAddr⟩ (picksAfter fl users i) j).2
  unfold Placed.maxIndex
  have hfound := found_selectLoop (placedAfter fl users i).users i fl.totalUsers
  rw [placedAfter_eq] at hfound ⊢
  generalize selectLoop _ i fl.totalUsers = m at hfound ⊢
  cases hfound with
  | @highest j hj hunset hpos hmax =>
    obtain ⟨hmem, hnew⟩ := (hset j hj).mp hunset
    rw [hpriority] at hpos
    refine .highest hmem hnew hpos ?_
    intro k hk hk'
    have hlt := (mem_unsetUsers.mp hk).1
    have hle := hmax k hlt ((hset k hlt).mpr ⟨hk, hk'⟩)
    rwa [hpriority, hpriority] at hle
  | nothing hzero =>
    refine .round ?_
    intro k hk hk'
    have hlt := (mem_unsetUsers.mp hk).1
    have hzero' := hzero k hlt ((hset k hlt).mpr ⟨hk, hk'⟩)
    rwa [hpriority] at hzero'

theorem mem_withPriority :
    j ∈ withPriority fl users ↔ j ∈ unsetUsers fl users ∧ 0 < (users j).priority := by
  simp [withPriority]

theorem nodup_withPriority (fl : FsFlash) (users : ℕ → FsUser) : (withPriority fl users).Nodup :=
  (nodup_unsetUsers fl users).filter _

/-- In a round without a priority, those with a priority were all selected. -/
theorem withPriority_le (hzero : ∀ k ∈ unsetUsers fl users, k ∉ picks → (users k).priority = 0) :
    (withPriority fl users).length ≤ picks.length := by
  apply (List.subperm_of_subset (nodup_withPriority fl users) _).length_le
  intro j hj
  obtain ⟨hmem, hpos⟩ := mem_withPriority.mp hj
  by_contra hnew
  have hj0 := hzero j hmem hnew
  omega

/-! ## §6 Configurations that can be served -/

/-- **The invariant** of the outer loop: what is selected is new and comes in the order of the
    priorities. -/
structure PicksInv (fl : FsFlash) (users : ℕ → FsUser) (picks : List ℕ) : Prop where
  fresh : Fresh fl users picks
  sorted : picks.Pairwise fun i j => (users j).priority ≤ (users i).priority
  dominates : ∀ x ∈ picks, ∀ y ∈ unsetUsers fl users, y ∉ picks →
    (users y).priority ≤ (users x).priority
  /-- Those of priority 0 were selected as the indices of their rounds. -/
  zero_lt : ∀ x ∈ picks, (users x).priority = 0 → x < picks.length

/-- A selection that keeps the invariant. -/
theorem PicksInv.concat (h : PicksInv fl users picks) (hmem : j ∈ unsetUsers fl users)
    (hnew : j ∉ picks)
    (hmax : ∀ k ∈ unsetUsers fl users, k ∉ picks → (users k).priority ≤ (users j).priority)
    (hzero : (users j).priority = 0 → j ≤ picks.length) : PicksInv fl users (picks ++ [j]) := by
  refine ⟨⟨?_, ?_⟩, ?_, ?_, ?_⟩
  · exact List.nodup_append.mpr ⟨h.fresh.nodup, List.nodup_singleton j, by
      rintro x hx y hy rfl
      exact hnew (List.mem_singleton.mp hy ▸ hx)⟩
  · intro x hx
    rcases List.mem_append.mp hx with hx | hx
    · exact h.fresh.sub hx
    · rw [List.mem_singleton.mp hx]
      exact hmem
  · refine List.pairwise_append.mpr ⟨h.sorted, List.pairwise_singleton _ _, ?_⟩
    intro x hx y hy
    rw [List.mem_singleton.mp hy]
    exact h.dominates x hx j hmem hnew
  · intro x hx y hy hy'
    have hy'' : y ∉ picks := fun hmem => hy' (List.mem_append_left _ hmem)
    rcases List.mem_append.mp hx with hx | hx
    · exact h.dominates x hx y hy hy''
    · rw [List.mem_singleton.mp hx]
      exact hmax y hy hy''
  · intro x hx hx0
    rw [List.length_append, List.length_singleton]
    rcases List.mem_append.mp hx with hx | hx
    · exact (h.zero_lt x hx hx0).trans (Nat.lt_succ_self _)
    · rw [List.mem_singleton.mp hx] at hx0 ⊢
      exact Nat.lt_succ_of_le (hzero hx0)

/-- **The rounds** for configurations that can be served. -/
theorem picksInv_picksAfter (hselectable : Selectable fl users) (hfits : FitsFlash fl users)
    (hi : i ≤ (unsetUsers fl users).length) : PicksInv fl users (picksAfter fl users i) := by
  induction i with
  | zero => exact ⟨⟨List.nodup_nil, List.nil_subset _⟩, .nil, nofun, nofun⟩
  | succ i ih =>
    have hinv := ih (by omega)
    have hpick := hinv.fresh.pick hfits
    have hlength := length_picksAfter fl users i
    rw [picksAfter_succ]
    generalize (placedAfter fl users i).maxIndex fl i = pick at hpick ⊢
    cases hpick with
    | @highest j hmem hnew hpos hmax =>
      have hj : j % 2 ^ 8 = j := Nat.mod_eq_of_lt (hselectable.1 j hmem)
      rw [hj]
      exact hinv.concat hmem hnew hmax fun hzero => by omega
    | round hzero =>
      have hge := withPriority_le hzero
      rw [hlength] at hge
      obtain ⟨hmem, hzero'⟩ := (hselectable.2 i).mpr ⟨hge, by omega⟩
      have hi' : i % 2 ^ 8 = i := Nat.mod_eq_of_lt (hselectable.1 i hmem)
      rw [hi']
      apply hinv.concat hmem
      · intro hold
        have hlt := hinv.zero_lt i hold hzero'
        omega
      · intro k hk hnew
        rw [hzero k hk hnew]
        exact Nat.zero_le _
      · intro _
        exact hlength.ge

/-- What is selected in all rounds are the configurations without a region. -/
theorem perm_of_fresh (h : Fresh fl users (picksAfter fl users (unsetUsers fl users).length)) :
    (picksAfter fl users (unsetUsers fl users).length).Perm (unsetUsers fl users) := by
  apply (List.subperm_of_subset h.nodup h.sub).perm_of_length_le
  rw [length_picksAfter]

/-- One of two elements of a list comes first. -/
theorem pairwise_total {R : ℕ → ℕ → Prop} {l : List ℕ} (h : l.Pairwise R) (hi : i ∈ l) (hj : j ∈ l)
    (hne : i ≠ j) : R i j ∨ R j i := by
  obtain ⟨a, ha, rfl⟩ := List.mem_iff_getElem.mp hi
  obtain ⟨b, hb, rfl⟩ := List.mem_iff_getElem.mp hj
  rcases Nat.lt_trichotomy a b with hlt | rfl | hgt
  · exact .inl (List.pairwise_iff_getElem.mp h a b ha hb hlt)
  · exact absurd rfl hne
  · exact .inr (List.pairwise_iff_getElem.mp h b a hb ha hgt)

theorem regions_of_selectable (hselectable : Selectable fl users) (hfits : FitsFlash fl users) :
    Regions fl users (placedAfter fl users (unsetUsers fl users).length).users := by
  obtain ⟨picks, hpicks⟩ : ∃ picks, picks = picksAfter fl users (unsetUsers fl users).length :=
    ⟨_, rfl⟩
  have hinv := picksInv_picksAfter hselectable hfits le_rfl
  have hperm := perm_of_fresh hinv.fresh
  rw [← hpicks] at hinv hperm
  obtain ⟨hstacked, -⟩ := hinv.fresh.stacked hfits
  rw [placedAfter_eq, ← hpicks]
  have hsame : ∀ j, ((Placed.assignAll fl ⟨users, fl.pageEndAddr⟩ picks).users j).numPages =
        (users j).numPages ∧
      ((Placed.assignAll fl ⟨users, fl.pageEndAddr⟩ picks).users j).priority =
        (users j).priority := assignAll_same ⟨users, fl.pageEndAddr⟩ picks
  have hother : ∀ j, j ∉ picks →
      (Placed.assignAll fl ⟨users, fl.pageEndAddr⟩ picks).users j = users j := fun j hj =>
    assignAll_of_not_mem hj ⟨users, fl.pageEndAddr⟩
  have hset := fun j hj => hinv.fresh.isSet_iff hfits (j := j) hj
  generalize Placed.assignAll fl ⟨users, fl.pageEndAddr⟩ picks = p at hstacked hsame hother hset
  have hmem : ∀ {j}, j ∈ unsetUsers fl users → j ∈ picks := fun hj => hperm.mem_iff.mpr hj
  refine ⟨?_, fun i _ => hsame i, ?_, ⟨picks, _, hperm, hstacked, hinv.sorted⟩, ?_, ?_⟩
  · intro i hi hpreset
    apply hother
    intro hpicked
    rw [(mem_unsetUsers.mp (hinv.fresh.sub hpicked)).2] at hpreset
    cases hpreset
  · intro i hi
    by_contra hunset
    obtain ⟨hmem', hnew⟩ := (hset i hi).mp (Bool.eq_false_of_not_eq_true hunset)
    exact hnew (hmem hmem')
  · intro i hi j hj hne
    rcases pairwise_total hstacked.pairwise (hmem hi) (hmem hj) hne with hbelow | hbelow
    · exact .inr hbelow
    · exact .inl hbelow
  · intro i hi j hj hlt
    have hne : i ≠ j := by
      rintro rfl
      exact absurd hlt (Nat.lt_irrefl _)
    have hpairs := hinv.sorted.and hstacked.pairwise
    rcases pairwise_total hpairs (hmem hi) (hmem hj) hne with ⟨hle, -⟩ | ⟨-, hbelow⟩
    · exact absurd hlt (Nat.not_lt_of_le hle)
    · exact hbelow

/-! ## §7 Other configurations -/

/-- **Regions for all**: each round selects another configuration. -/
theorem fresh_of_regions
    (h : Regions fl users (placedAfter fl users (unsetUsers fl users).length).users) :
    (unsetUsers fl users).Perm (picksAfter fl users (unsetUsers fl users).length) := by
  have hset := h.set
  rw [placedAfter_eq] at hset
  apply (List.subperm_of_subset (nodup_unsetUsers fl users) ?_).perm_of_length_le
  · rw [length_picksAfter]
  · intro j hj
    obtain ⟨hlt, hunset⟩ := mem_unsetUsers.mp hj
    by_contra hnew
    have hj' := hset j hlt
    rw [assignAll_of_not_mem hnew, hunset] at hj'
    cases hj'

theorem maxIndex_lt (p : Placed) (i : ℕ) : p.maxIndex fl i < 2 ^ 8 := by
  unfold Placed.maxIndex
  have hfound := found_selectLoop p.users i fl.totalUsers
  generalize selectLoop p.users i fl.totalUsers = m at hfound ⊢
  cases hfound with
  | highest => exact Nat.mod_lt _ (by decide)
  | nothing => exact Nat.mod_lt _ (by decide)

/-- The picks of earlier rounds. -/
theorem picksAfter_begins (fl : FsFlash) (users : ℕ → FsUser) (hij : i ≤ j) :
    picksAfter fl users i <+: picksAfter fl users j := by
  unfold picksAfter
  rw [← Nat.sub_add_cancel hij, Nat.add_comm, List.range_add, List.map_append]
  exact List.prefix_append _ _

theorem selectable_of_regions (hfits : FitsFlash fl users)
    (h : Regions fl users (placedAfter fl users (unsetUsers fl users).length).users) :
    Selectable fl users := by
  have hperm := fresh_of_regions h
  obtain ⟨k, hk⟩ : ∃ k, k = (unsetUsers fl users).length := ⟨_, rfl⟩
  rw [← hk] at hperm
  have hsmall : ∀ i ∈ unsetUsers fl users, i < 2 ^ 8 := by
    intro i hi
    obtain ⟨r, -, rfl⟩ := List.mem_map.mp (hperm.mem_iff.mp hi)
    exact maxIndex_lt _ _
  -- the rounds before each one are fresh, and it selects something new
  have hfresh : ∀ r ≤ k, Fresh fl users (picksAfter fl users r) := by
    intro r hr
    have hbegins := picksAfter_begins fl users hr
    have hnodup := hperm.nodup_iff.mp (nodup_unsetUsers fl users)
    exact ⟨hnodup.sublist hbegins.sublist, fun x hx => hperm.mem_iff.mpr (hbegins.subset hx)⟩
  have hnew : ∀ r < k, (placedAfter fl users r).maxIndex fl r ∈ unsetUsers fl users ∧
      (placedAfter fl users r).maxIndex fl r ∉ picksAfter fl users r := by
    intro r hr
    have hnext := hfresh (r + 1) hr
    rw [picksAfter_succ] at hnext
    refine ⟨hnext.sub (List.mem_append_right _ (List.mem_singleton_self _)), ?_⟩
    intro hold
    exact (List.nodup_append.mp hnext.nodup).2.2 _ hold _ (List.mem_singleton_self _) rfl
  have hpick : ∀ r < k, Pick fl users (picksAfter fl users r) r
      ((placedAfter fl users r).maxIndex fl r) := fun r hr => (hfresh r hr.le).pick hfits
  have hcount : k ≤ 2 ^ 8 := by
    have hsub : unsetUsers fl users ⊆ List.range (2 ^ 8) :=
      fun i hi => List.mem_range.mpr (hsmall i hi)
    have hlength := (List.subperm_of_subset (nodup_unsetUsers fl users) hsub).length_le
    rwa [List.length_range, ← hk] at hlength
  -- a round that selects a configuration of priority 0 selects its own index
  have hround : ∀ r < k, (users ((placedAfter fl users r).maxIndex fl r)).priority = 0 →
      (placedAfter fl users r).maxIndex fl r = r ∧
      ∀ j ∈ unsetUsers fl users, j ∉ picksAfter fl users r → (users j).priority = 0 := by
    intro r hr hzero
    have hcases := hpick r hr
    generalize (placedAfter fl users r).maxIndex fl r = pick at hcases hzero ⊢
    cases hcases with
    | @highest j hmem _ hpos _ =>
      rw [Nat.mod_eq_of_lt (hsmall j hmem)] at hzero
      omega
    | round hall => exact ⟨Nat.mod_eq_of_lt (by omega), hall⟩
  refine ⟨hsmall, fun j => ⟨?_, ?_⟩⟩
  · rintro ⟨hmem, hzero⟩
    obtain ⟨r, hr, rfl⟩ := List.mem_map.mp (hperm.mem_iff.mp hmem)
    obtain ⟨hself, hall⟩ := hround r (List.mem_range.mp hr) hzero
    have hge := withPriority_le hall
    rw [length_picksAfter] at hge
    rw [hself, ← hk]
    exact ⟨hge, List.mem_range.mp hr⟩
  · rintro ⟨hge, hlt⟩
    rw [← hk] at hlt
    obtain ⟨hmem, hnotPicked⟩ := hnew j hlt
    have hcases := hpick j hlt
    generalize (placedAfter fl users j).maxIndex fl j = pick at hcases hmem hnotPicked
    cases hcases with
    | @highest i hi hi' hpos _ =>
      -- then all rounds before selected a priority, which are too many
      exfalso
      have hall : ∀ x ∈ picksAfter fl users j, 0 < (users x).priority := by
        intro x hx
        by_contra hzero
        obtain ⟨r, hr, rfl⟩ := List.mem_map.mp hx
        have hr' := List.mem_range.mp hr
        obtain ⟨-, hrest⟩ := hround r (by omega) (Nat.eq_zero_of_not_pos hzero)
        have hold : i ∉ picksAfter fl users r :=
          fun h => hi' ((picksAfter_begins fl users hr'.le).subset h)
        have hi0 := hrest i hi hold
        omega
      have hsub : i :: picksAfter fl users j ⊆ withPriority fl users := by
        intro x hx
        rcases List.mem_cons.mp hx with rfl | hx
        · exact mem_withPriority.mpr ⟨hi, hpos⟩
        · exact mem_withPriority.mpr ⟨(hfresh j hlt.le).sub hx, hall x hx⟩
      have hnodup : (i :: picksAfter fl users j).Nodup :=
        List.nodup_cons.mpr ⟨hi', (hfresh j hlt.le).nodup⟩
      have hlength := (List.subperm_of_subset hnodup hsub).length_le
      rw [List.length_cons, length_picksAfter] at hlength
      omega
    | round hall =>
      rw [Nat.mod_eq_of_lt (by omega : j < 2 ^ 8)] at hmem hnotPicked
      exact ⟨hmem, hall j hmem hnotPicked⟩

/-- **The regions that `fs_init` gives** are disjoint, contiguous and in the order of the priorities,
    and leave the others alone, if and only if it can serve the configurations. -/
theorem regions_iff {s : FsSection} (hinit : s.initialized = false)
    (hfits : FitsFlash fl s.users) :
    Regions fl s.users (fsInit fl s).users ↔ Selectable fl s.users := by
  have husers : (fsInit fl s).users =
      (placedAfter fl s.users (unsetUsers fl s.users).length).users := by
    unfold fsInit
    rw [hinit, if_neg Bool.false_ne_true, configsToInit_eq]
  rw [husers]
  exact ⟨selectable_of_regions hfits, fun h => regions_of_selectable h hfits⟩

/-- A user with a region of its own, and one that asks for two pages. -/
def exampleFlash : FsFlash := ⟨4096, 0x80000, 2, by decide, by decide, by decide⟩

def exampleSection (priority : ℕ) : FsSection where
  users i := if i = 0 then ⟨⟨0x70000, 0x71000⟩, 1, 1⟩ else ⟨⟨0, 0⟩, 2, priority⟩
  initialized := false

theorem regions_example : FitsFlash exampleFlash (exampleSection 1).users ∧
    Regions exampleFlash (exampleSection 1).users
      (fsInit exampleFlash (exampleSection 1)).users := by
  have hfits : FitsFlash exampleFlash (exampleSection 1).users := ⟨by decide, by decide⟩
  refine ⟨hfits, (regions_iff rfl hfits).mpr ⟨by decide, fun i => ?_⟩⟩
  have hunset : unsetUsers exampleFlash (exampleSection 1).users = [1] := by decide
  have hpriority : withPriority exampleFlash (exampleSection 1).users = [1] := by decide
  rw [hunset, hpriority]
  constructor
  · rintro ⟨hi, hzero⟩
    rw [List.mem_singleton.mp hi] at hzero
    cases hzero
  · rintro ⟨hge, hlt⟩
    exact absurd hlt (Nat.not_lt_of_le hge)

/-- **The priority is 0**: the region of the other user is moved, and this one gets none. -/
theorem not_regions_zero : FitsFlash exampleFlash (exampleSection 0).users ∧
    ((exampleSection 0).users 0).startAddr = 0x70000 ∧
    ((fsInit exampleFlash (exampleSection 0)).users 0).startAddr = 0x7F000 ∧
    ((fsInit exampleFlash (exampleSection 0)).users 1).isSet = false ∧
    ¬ Regions exampleFlash (exampleSection 0).users
      (fsInit exampleFlash (exampleSection 0)).users := by
  refine ⟨⟨by decide, by decide⟩, rfl, by decide, by decide, ?_⟩
  intro h
  have hset := h.set 1 (by decide)
  revert hset
  decide

end NordicEsb.Fstorage
