import NordicEsb.Mem.Blocks
import NordicEsb.Lib.Machine
import Mathlib.Tactic.IntervalCases

/-!
# Allocations

The memory manager in any sequence of calls, with the blocks that are handed out at the moment. A
block is free as long as it is not among them, and an allocation finds one if there is any.

- `reserveFrom_spec` and `freeFrom_spec cfg` describe the two loops
- `cfg.getBlockCat_request` is the category where the search begins: the first one that is used and
  large enough
- `MemTrace` keeps the blocks that are handed out

**Main result**: `sound_of_reachable`.
-/

namespace NordicEsb

variable {cfg : MemConfig} {c i j k n : ℕ}

/-! ## §1 The loops -/

/-- What the loop of `nrf_mem_reserve` finds. -/
theorem reserveFrom_spec (s : MemManager) :
    ∀ n i m, m = cfg.blockMem i % 2 ^ 32 →
      (reserveFrom cfg s n i m = none ∧ ∀ j, i ≤ j → j < i + n → isBlockFree j s = false) ∨
      ∃ j, i ≤ j ∧ j < i + n ∧ isBlockFree j s = true ∧
        (∀ k, i ≤ k → k < j → isBlockFree k s = false) ∧
        reserveFrom cfg s n i m = some (j, ⟨cfg.blockMem j % 2 ^ 32, cfg.getBlockSize j⟩) := by
  intro n
  induction n with
  | zero =>
    intro i m _
    exact .inl ⟨rfl, fun j hij hj => absurd hj (by omega)⟩
  | succ n ih =>
    intro i m hm
    unfold reserveFrom
    dsimp only
    by_cases hfree : isBlockFree i s = true
    · rw [if_pos hfree, hm]
      exact .inr ⟨i, Nat.le_refl i, by omega, hfree, fun k hik hki => absurd hki (by omega), rfl⟩
    · rw [if_neg hfree]
      have hnext : (m + cfg.getBlockSize i) % 2 ^ 32 = cfg.blockMem (i + 1) % 2 ^ 32 := by
        rw [hm, Nat.mod_add_mod]
        rfl
      have hbusy : isBlockFree i s = false := by simpa using hfree
      rcases ih (i + 1) _ hnext with ⟨hnone, hall⟩ | ⟨j, hij, hj, hjfree, hbefore, hsome⟩
      · refine .inl ⟨hnone, fun j hij hj => ?_⟩
        rcases Nat.eq_or_lt_of_le hij with rfl | hlt
        · exact hbusy
        · exact hall j hlt (by omega)
      · refine .inr ⟨j, by omega, by omega, hjfree, fun k hik hkj => ?_, hsome⟩
        rcases Nat.eq_or_lt_of_le hik with rfl | hlt
        · exact hbusy
        · exact hbefore k hlt hkj

/-- What the loop of `nrf_free` finds. -/
theorem freeFrom_spec (cfg : MemConfig) (p : ℕ) :
    ∀ n i m, m = cfg.blockMem i % 2 ^ 32 →
      (freeFrom cfg p n i m = none ∧
        ∀ j, i ≤ j → j < i + n → cfg.blockMem j % 2 ^ 32 ≠ p) ∨
      ∃ j, i ≤ j ∧ j < i + n ∧ cfg.blockMem j % 2 ^ 32 = p ∧
        (∀ k, i ≤ k → k < j → cfg.blockMem k % 2 ^ 32 ≠ p) ∧ freeFrom cfg p n i m = some j := by
  intro n
  induction n with
  | zero =>
    intro i m _
    exact .inl ⟨rfl, fun j hij hj => absurd hj (by omega)⟩
  | succ n ih =>
    intro i m hm
    unfold freeFrom
    by_cases hstart : m = p
    · rw [if_pos hstart]
      exact .inr ⟨i, Nat.le_refl i, by omega, hm.symm.trans hstart,
        fun k hik hki => absurd hki (by omega), rfl⟩
    · rw [if_neg hstart]
      have hnext : (m + cfg.getBlockSize i) % 2 ^ 32 = cfg.blockMem (i + 1) % 2 ^ 32 := by
        rw [hm, Nat.mod_add_mod]
        rfl
      have hne : cfg.blockMem i % 2 ^ 32 ≠ p := fun h => hstart (hm.trans h)
      rcases ih (i + 1) _ hnext with ⟨hnone, hall⟩ | ⟨j, hij, hj, hjp, hbefore, hsome⟩
      · refine .inl ⟨hnone, fun j hij hj => ?_⟩
        rcases Nat.eq_or_lt_of_le hij with rfl | hlt
        · exact hne
        · exact hall j hlt (by omega)
      · refine .inr ⟨j, by omega, by omega, hjp, fun k hik hkj => ?_, hsome⟩
        rcases Nat.eq_or_lt_of_le hik with rfl | hlt
        · exact hne
        · exact hbefore k hlt hkj

/-! ## §2 The category of a request -/

namespace MemConfig

/-- `MAX_MEM_SIZE` is the size of the last category that is used. -/
theorem maxMemSize_eq (cfg : MemConfig) :
    ∃ c < blockCatCount, cfg.blockCount c ≠ 0 ∧ cfg.maxMemSize = cfg.blockSize c ∧
      ∀ d < blockCatCount, cfg.blockCount d ≠ 0 → d ≤ c := by
  obtain ⟨e, he, hused⟩ := cfg.used
  unfold blockCatCount at he ⊢
  unfold maxMemSize
  split_ifs with h6 h5 h4 h3 h2 h1
  · exact ⟨6, by omega, h6, rfl, fun d hd _ => by omega⟩
  · refine ⟨5, by omega, h5, rfl, fun d hd hd0 => ?_⟩
    interval_cases d <;> omega
  · refine ⟨4, by omega, h4, rfl, fun d hd hd0 => ?_⟩
    interval_cases d <;> omega
  · refine ⟨3, by omega, h3, rfl, fun d hd hd0 => ?_⟩
    interval_cases d <;> omega
  · refine ⟨2, by omega, h2, rfl, fun d hd hd0 => ?_⟩
    interval_cases d <;> omega
  · refine ⟨1, by omega, h1, rfl, fun d hd hd0 => ?_⟩
    interval_cases d <;> omega
  · -- Only the smallest category is left.
    have he0 : e = 0 := by interval_cases e <;> omega
    subst he0
    refine ⟨0, by omega, hused, rfl, fun d hd hd0 => ?_⟩
    interval_cases d <;> omega

/-- A used category takes part of `m_memory`. -/
theorem blockSize_le (cfg : MemConfig) (hc : c < blockCatCount) (hused : cfg.blockCount c ≠ 0) :
    cfg.blockSize c ≤ cfg.totalMemorySize := by
  have hlt : cfg.blockStart c < cfg.blocks := by
    have hend := cfg.blockStart_mono (Nat.succ_le_of_lt hc)
    rw [Nat.succ_eq_add_one, cfg.blockStart_succ] at hend
    unfold blockEnd at hend
    unfold blocks
    omega
  have hmem := cfg.blockMem_le (Nat.succ_le_of_lt hlt)
  have hsize := cfg.getBlockSize_block (k := 0) hc (Nat.pos_of_ne_zero hused)
  rw [Nat.add_zero] at hsize
  have hsucc : cfg.blockMem (cfg.blockStart c + 1) =
      cfg.blockMem (cfg.blockStart c) + cfg.getBlockSize (cfg.blockStart c) := rfl
  rw [Nat.succ_eq_add_one, hsucc] at hmem
  omega

theorem maxMemSize_lt (cfg : MemConfig) : cfg.maxMemSize < 2 ^ 32 := by
  obtain ⟨c, hc, hused, hmax, -⟩ := cfg.maxMemSize_eq
  have hsize := cfg.blockSize_le hc hused
  have htotal := cfg.totalMemorySize_lt
  omega

/-- Only the last category can end behind the blocks that are counted. -/
theorem blockEnd_le_total (cfg : MemConfig) (hc : c < 6) : cfg.blockEnd c ≤ cfg.totalBlockCount := by
  have hend := cfg.blockEnd_le hc
  have hstart : cfg.blockStart 6 = 0 + cfg.blockCount 0 + cfg.blockCount 1 + cfg.blockCount 2 +
    cfg.blockCount 3 + cfg.blockCount 4 + cfg.blockCount 5 := rfl
  unfold totalBlockCount
  omega

theorem blocks_eq (cfg : MemConfig) :
    cfg.blocks + cfg.blockCount 5 = cfg.totalBlockCount + cfg.blockCount 6 := by
  have hblocks : cfg.blocks = 0 + cfg.blockCount 0 + cfg.blockCount 1 + cfg.blockCount 2 +
    cfg.blockCount 3 + cfg.blockCount 4 + cfg.blockCount 5 + cfg.blockCount 6 := rfl
  unfold totalBlockCount
  omega

/-- Where the search for a block begins. -/
structure Requested (cfg : MemConfig) (n c : ℕ) : Prop where
  lt : c < blockCatCount
  used : cfg.blockCount c ≠ 0
  le : n ≤ cfg.blockSize c
  below : ∀ d < c, cfg.blockCount d ≠ 0 → cfg.blockSize d < n

/-- **The category of a request** is the first one that is used and large enough. -/
theorem getBlockCat_request (cfg : MemConfig) (h0 : n ≠ 0) (hmax : n ≤ cfg.maxMemSize) :
    cfg.Requested n (cfg.getBlockCat n cfg.totalBlockCount) := by
  have htest : ∀ c, cfg.isBlockCat n cfg.totalBlockCount c = true ↔
      (n ≤ cfg.blockSize c ∧ cfg.blockCount c ≠ 0) ∨ cfg.totalBlockCount < cfg.blockEnd c := by
    intro c
    unfold isBlockCat
    rw [Bool.or_eq_true, decide_eq_true_iff]
    simp [h0, blockEnd]
  obtain ⟨last, hlast, hused, hsize, hle⟩ := cfg.maxMemSize_eq
  have hfound : cfg.isBlockCat n cfg.totalBlockCount last = true :=
    (htest last).mpr (.inl ⟨hsize ▸ hmax, hused⟩)
  cases hfind : (List.range blockCatCount).find? (cfg.isBlockCat n cfg.totalBlockCount) with
  | none =>
    rw [List.find?_eq_none] at hfind
    exact absurd hfound (hfind last (List.mem_range.mpr hlast))
  | some c =>
    have hcat : cfg.getBlockCat n cfg.totalBlockCount = c := by
      unfold getBlockCat
      rw [hfind]
      rfl
    rw [hcat]
    rw [List.find?_range_eq_some] at hfind
    obtain ⟨htrue, hc, hbefore⟩ := hfind
    have hc := List.mem_range.mp hc
    have hbelow : ∀ d < c, cfg.blockCount d ≠ 0 → cfg.blockSize d < n := by
      intro d hd hd0
      by_contra hge
      have hfirst := hbefore d hd
      rw [(htest d).mpr (.inl ⟨by omega, hd0⟩)] at hfirst
      cases hfirst
    rcases (htest c).mp htrue with ⟨hfits, hcused⟩ | hbehind
    · exact ⟨hc, hcused, hfits, hbelow⟩
    · -- The last category has blocks that are not counted.
      have hc6 : c = 6 := by
        by_contra hne
        have hend := cfg.blockEnd_le_total (c := c) (by unfold blockCatCount at hc; omega)
        omega
      subst hc6
      have hend : cfg.blocks = cfg.blockEnd 6 := rfl
      have hblocks := cfg.blocks_eq
      have hcused : cfg.blockCount 6 ≠ 0 := by omega
      have hlast6 : last = 6 := by
        have hge := hle 6 hc hcused
        unfold blockCatCount at hlast
        omega
      rw [hlast6] at hsize
      exact ⟨hc, hcused, by omega, hbelow⟩

/-- A block is large enough if and only if it is not before that category. -/
theorem Requested.size_iff {c : ℕ} (h : cfg.Requested n c) (hi : i < cfg.blocks) :
    n ≤ cfg.getBlockSize i ↔ cfg.blockStart c ≤ i := by
  constructor
  · intro hsize
    obtain ⟨d, hd, k, hk, rfl⟩ := cfg.exists_block hi
    rw [cfg.getBlockSize_block hd hk] at hsize
    have hcd : c ≤ d := by
      by_contra hlt
      have hbelow := h.below d (by omega) (by omega)
      omega
    have hstart := cfg.blockStart_mono hcd
    omega
  · intro hstart
    have hsize := cfg.getBlockSize_block (k := 0) h.lt (Nat.pos_of_ne_zero h.used)
    have hmono := cfg.getBlockSize_mono hstart hi
    have hle := h.le
    rw [Nat.add_zero] at hsize
    omega

end MemConfig

/-! ## §3 Calls -/

/-- A call of the interface. -/
inductive MemCall where
  | reserve (ppBuffer : Bool) (pSize : Option UInt32)
  | malloc (size : UInt32)
  | calloc (count size : UInt32)
  | free (pMem : Option ℕ)
deriving DecidableEq, Repr

/-- How many bytes a call asks for. -/
def MemCall.requested : MemCall → Option ℕ
  | .reserve true (some size) => some size.toNat
  | .reserve _ _ => none
  | .malloc size => some size.toNat
  | .calloc count size => some (count.toNat * size.toNat)
  | .free _ => none

/-- Run a call: the memory it returns, and the state. -/
def MemManager.call (cfg : MemConfig) (s : MemManager) : MemCall → Option MemRegion × MemManager
  | .reserve ppBuffer pSize => (nrfMemReserve cfg ppBuffer pSize s).2
  | .malloc size => nrfMalloc cfg size s
  | .calloc count size => nrfCalloc cfg count size s
  | .free pMem => (none, nrfFree cfg pMem s)

/-- The module with the blocks that are handed out, last one first. -/
structure MemTrace where
  manager : MemManager
  allocated : List MemRegion

namespace MemTrace

/-- One call: what it returns is handed out, and what starts where a call of `nrf_free` points to is
    taken back. -/
def step (cfg : MemConfig) (t : MemTrace) (c : MemCall) : MemTrace where
  manager := (t.manager.call cfg c).2
  allocated :=
    match c with
    | .free (some p) => t.allocated.filter fun r => r.start != p
    | _ => (t.manager.call cfg c).1.toList ++ t.allocated

/-- The module after power-up and `nrf_mem_init`, and its calls. -/
def machine (cfg : MemConfig) : Machine MemTrace MemCall where
  start t := t = ⟨nrfMemInit cfg ⟨fun _ => 0, false⟩, []⟩
  enabled _ _ := True
  step := step cfg

end MemTrace

/-- Two regions have no byte in common. -/
def MemRegion.Disjoint (r q : MemRegion) : Prop :=
  r.start + r.length ≤ q.start ∨ q.start + q.length ≤ r.start

/-- Block `k` of category `c`, as the configuration says. -/
def MemConfig.block (cfg : MemConfig) (c k : ℕ) : MemRegion :=
  ⟨cfg.blockMemStart c + k * cfg.blockSize c, cfg.blockSize c⟩

namespace MemTrace

/-- **An allocation is right**: the memory lies in `m_memory`, is large enough, and nobody else has
    it. It fails only if the size is out of range or no block of that size or larger is left. -/
def AllocOk (cfg : MemConfig) (t : MemTrace) (c : MemCall) : Prop :=
  ∀ n, c.requested = some n →
    match (t.manager.call cfg c).1 with
    | some r => r.start + r.length ≤ cfg.totalMemorySize ∧ n ≤ r.length ∧
      ∀ q ∈ t.allocated, r.Disjoint q
    | none => n = 0 ∨ cfg.maxMemSize < n ∨
      ∀ c < blockCatCount, ∀ k < cfg.blockCount c, n ≤ cfg.blockSize c →
        cfg.block c k ∈ t.allocated

/-- **The bitmap is right**: the blocks that are counted are free if and only if they are not handed
    out. -/
def Agrees (cfg : MemConfig) (t : MemTrace) : Prop :=
  ∀ c < blockCatCount, ∀ k < cfg.blockCount c, cfg.blockStart c + k < cfg.totalBlockCount →
    (isBlockFree (cfg.blockStart c + k) t.manager = true ↔ cfg.block c k ∉ t.allocated)

/-- A block of this size or larger is free, among those that are counted. -/
def HasFree (cfg : MemConfig) (t : MemTrace) (n : ℕ) : Prop :=
  ∃ i < cfg.blocks, i < cfg.totalBlockCount ∧ isBlockFree i t.manager = true ∧
    n ≤ cfg.getBlockSize i

instance (cfg : MemConfig) (t : MemTrace) (n : ℕ) : Decidable (HasFree cfg t n) := by
  unfold HasFree
  infer_instance

/-- The search for a block of this size does not leave the blocks there are, nor miss one of them:
    the size is out of range, or `TOTAL_BLOCK_COUNT` is right, or a block is free. -/
def Served (cfg : MemConfig) (t : MemTrace) (n : ℕ) : Prop :=
  n = 0 ∨ cfg.maxMemSize < n ∨ cfg.blockCount 5 = cfg.blockCount 6 ∨ HasFree cfg t n

instance (cfg : MemConfig) (t : MemTrace) (n : ℕ) : Decidable (Served cfg t n) := by
  unfold Served
  infer_instance

/-- **The condition**: `TOTAL_BLOCK_COUNT` does no harm; if the product of `nrf_calloc` does not fit,
    nothing is found for what is left of it; and no block of size 0 stands before one that is
    freed. -/
def Fits (cfg : MemConfig) (t : MemTrace) : MemCall → Prop
  | .reserve _ (some size) => Served cfg t size.toNat
  | .reserve _ none => True
  | .malloc size => Served cfg t size.toNat
  | .calloc count size => Served cfg t (size * count).toNat ∧
    (count.toNat * size.toNat < 2 ^ 32 ∨ (size * count).toNat = 0 ∨
      cfg.maxMemSize < (size * count).toNat ∨ ¬ HasFree cfg t (size * count).toNat)
  | .free (some p) => p = 0 → (∃ r ∈ t.allocated, r.start = 0) →
    ∀ c < blockCatCount, cfg.blockCount c ≠ 0 → cfg.blockSize c ≠ 0
  | .free none => True

/-! ## §4 The invariant -/

/-- **The invariant**: what is handed out are blocks, and the bitmap says which. -/
structure MemInv (cfg : MemConfig) (t : MemTrace) : Prop where
  initialized : t.manager.moduleInitialized = true
  free_iff : ∀ i < cfg.blocks, i < cfg.totalBlockCount →
    (isBlockFree i t.manager = true ↔ cfg.regionOf i ∉ t.allocated)
  allocated : ∀ r ∈ t.allocated, ∃ i < cfg.blocks, i < cfg.totalBlockCount ∧
    r = cfg.regionOf i ∧ 0 < r.length

theorem block_eq_regionOf (cfg : MemConfig) (hc : c < blockCatCount) (hk : k < cfg.blockCount c) :
    cfg.block c k = cfg.regionOf (cfg.blockStart c + k) := by
  have hstart := cfg.blockMem_blockStart (Nat.le_of_lt hc)
  unfold MemConfig.block MemConfig.regionOf
  rw [cfg.blockMem_block hc (Nat.le_of_lt hk) hstart, cfg.getBlockSize_block hc hk]

theorem block_lt (cfg : MemConfig) (hc : c < blockCatCount) (hk : k < cfg.blockCount c) :
    cfg.blockStart c + k < cfg.blocks := by
  have hend := cfg.blockEnd_le hc
  unfold MemConfig.blockEnd at hend
  unfold MemConfig.blocks
  omega

theorem MemInv.agrees {t : MemTrace} (h : MemInv cfg t) : Agrees cfg t := by
  intro c hc k hk hcounted
  rw [block_eq_regionOf cfg hc hk]
  exact h.free_iff _ (block_lt cfg hc hk) hcounted

/-- Blocks stand one behind the other. -/
theorem regionOf_le (cfg : MemConfig) (h : i < j) : cfg.blockMem i + cfg.getBlockSize i ≤ cfg.blockMem j :=
  cfg.blockMem_mono (Nat.succ_le_of_lt h)

theorem regionOf_disjoint (cfg : MemConfig) (h : i ≠ j) : (cfg.regionOf i).Disjoint (cfg.regionOf j) := by
  rcases Nat.lt_or_gt_of_ne h with hlt | hgt
  · exact .inl (regionOf_le cfg hlt)
  · exact .inr (regionOf_le cfg hgt)

/-- A block that is not empty is not another one. -/
theorem regionOf_ne (cfg : MemConfig) (h : i ≠ j) (hsize : 0 < cfg.getBlockSize j) :
    cfg.regionOf i ≠ cfg.regionOf j := by
  intro heq
  have hstart : cfg.blockMem i = cfg.blockMem j := congrArg MemRegion.start heq
  have hlength : cfg.getBlockSize i = cfg.getBlockSize j := congrArg MemRegion.length heq
  rcases Nat.lt_or_gt_of_ne h with hlt | hgt
  · have hle := regionOf_le cfg hlt
    omega
  · have hle := regionOf_le cfg hgt
    omega

/-- A block ends in `m_memory`. -/
theorem regionOf_inside (cfg : MemConfig) (h : i < cfg.blocks) :
    cfg.blockMem i + cfg.getBlockSize i ≤ cfg.totalMemorySize :=
  cfg.blockMem_le (Nat.succ_le_of_lt h)

theorem blockMem_mod (cfg : MemConfig) (h : i < cfg.blocks) : cfg.blockMem i % 2 ^ 32 = cfg.blockMem i := by
  have hinside := regionOf_inside cfg h
  have htotal := cfg.totalMemorySize_lt
  exact Nat.mod_eq_of_lt (by omega)

/-- What `nrf_mem_reserve` does: it takes a block that is free and large enough, or nothing. -/
theorem nrfMemReserve_cases {t : MemTrace} {size : UInt32} (h : MemInv cfg t)
    (hserved : Served cfg t size.toNat) :
    (∃ i < cfg.blocks, i < cfg.totalBlockCount ∧ isBlockFree i t.manager = true ∧
      0 < size.toNat ∧ size.toNat ≤ cfg.getBlockSize i ∧
      (nrfMemReserve cfg true (some size) t.manager).2 =
        (some (cfg.regionOf i), blockAllocate i t.manager)) ∨
    ((nrfMemReserve cfg true (some size) t.manager).2 = (none, t.manager) ∧
      (size.toNat = 0 ∨ cfg.maxMemSize < size.toNat ∨
        ¬ HasFree cfg t size.toNat ∧ cfg.blockCount 5 = cfg.blockCount 6)) := by
  unfold nrfMemReserve
  rw [h.initialized]
  simp only [Bool.not_true, Bool.false_eq_true, if_false]
  by_cases hrange : size.toNat = 0 ∨ size.toNat > cfg.maxMemSize
  · rw [if_pos hrange]
    refine .inr ⟨rfl, ?_⟩
    rcases hrange with h0 | hmax
    · exact .inl h0
    · exact .inr (.inl hmax)
  rw [if_neg hrange]
  have hrequest := cfg.getBlockCat_request (n := size.toNat) (by omega) (by omega)
  obtain ⟨c, hc⟩ : ∃ c, c = cfg.getBlockCat size.toNat cfg.totalBlockCount := ⟨_, rfl⟩
  rw [← hc] at hrequest ⊢
  have hmem : cfg.blockMemStart c = cfg.blockMem (cfg.blockStart c) % 2 ^ 32 := by
    have hstart := cfg.blockMem_blockStart (Nat.le_of_lt hrequest.lt)
    have hlt : cfg.blockStart c < cfg.blocks :=
      block_lt cfg (k := 0) hrequest.lt (Nat.pos_of_ne_zero hrequest.used)
    rw [blockMem_mod cfg hlt, hstart]
  -- A block that is free and large enough is where the search goes.
  have hsearched : ∀ i < cfg.blocks, i < cfg.totalBlockCount → size.toNat ≤ cfg.getBlockSize i →
      cfg.blockStart c ≤ i ∧ i < cfg.blockStart c + (cfg.totalBlockCount - cfg.blockStart c) := by
    intro i hi hcounted hsize
    have hstart := (hrequest.size_iff hi).mp hsize
    omega
  rcases reserveFrom_spec t.manager (cfg.totalBlockCount - cfg.blockStart c) (cfg.blockStart c) _
    hmem with ⟨hnone, hbusy⟩ | ⟨j, hcj, hj, hjfree, hbefore, hsome⟩
  · rw [hnone]
    have hnofree : ¬ HasFree cfg t size.toNat := by
      rintro ⟨i, hi, hcounted, hifree, hsize⟩
      obtain ⟨hci, hin⟩ := hsearched i hi hcounted hsize
      exact absurd (hbusy i hci hin) (by rw [hifree]; decide)
    refine .inr ⟨rfl, .inr (.inr ⟨hnofree, ?_⟩)⟩
    rcases hserved with h0 | hmax | hcount | hfree
    · omega
    · omega
    · exact hcount
    · exact absurd hfree hnofree
  · rw [hsome]
    have hcounted : j < cfg.totalBlockCount := by omega
    have hjblock : j < cfg.blocks := by
      rcases hserved with h0 | hmax | hcount | ⟨i, hi, hicounted, hifree, hsize⟩
      · omega
      · omega
      · have hblocks := cfg.blocks_eq
        omega
      · obtain ⟨hci, -⟩ := hsearched i hi hicounted hsize
        by_contra hge
        have hnotfree := hbefore i hci (by omega)
        rw [hifree] at hnotfree
        cases hnotfree
    refine .inl ⟨j, hjblock, hcounted, hjfree, by omega, (hrequest.size_iff hjblock).mpr hcj, ?_⟩
    rw [blockMem_mod cfg hjblock]
    rfl

/-! ## §5 Steps and runs -/

/-- A block is handed out. -/
theorem memInv_alloc {t : MemTrace} (h : MemInv cfg t) (hi : i < cfg.blocks)
    (hcounted : i < cfg.totalBlockCount) (hsize : 0 < cfg.getBlockSize i) :
    MemInv cfg ⟨blockAllocate i t.manager, cfg.regionOf i :: t.allocated⟩ := by
  refine ⟨h.initialized, fun j hj hjcounted => ?_, fun r hr => ?_⟩
  · dsimp only
    rw [isBlockFree_blockAllocate, Bool.and_eq_true, h.free_iff j hj hjcounted, List.mem_cons]
    by_cases hji : j = i
    · subst hji
      simp
    · have hne := regionOf_ne cfg hji hsize
      simp [hji, hne]
  · rcases List.mem_cons.mp hr with rfl | hr
    · exact ⟨i, hi, hcounted, rfl, hsize⟩
    · exact h.allocated r hr

/-- **An allocation keeps the invariant and is right.** -/
theorem memInv_reserve {t : MemTrace} {size : UInt32} (h : MemInv cfg t)
    (hserved : Served cfg t size.toNat) :
    MemInv cfg ⟨(nrfMemReserve cfg true (some size) t.manager).2.2,
      (nrfMemReserve cfg true (some size) t.manager).2.1.toList ++ t.allocated⟩ := by
  rcases nrfMemReserve_cases h hserved with ⟨i, hi, hcounted, -, hpos, hsize, heq⟩ | ⟨heq, -⟩
  · rw [heq]
    exact memInv_alloc h hi hcounted (by omega)
  · rw [heq]
    exact h

theorem allocOk_reserve {t : MemTrace} {size : UInt32} (h : MemInv cfg t)
    (hserved : Served cfg t size.toNat) :
    match (nrfMemReserve cfg true (some size) t.manager).2.1 with
    | some r => r.start + r.length ≤ cfg.totalMemorySize ∧ size.toNat ≤ r.length ∧
      ∀ q ∈ t.allocated, r.Disjoint q
    | none => size.toNat = 0 ∨ cfg.maxMemSize < size.toNat ∨
      ∀ c < blockCatCount, ∀ k < cfg.blockCount c, size.toNat ≤ cfg.blockSize c →
        cfg.block c k ∈ t.allocated := by
  rcases nrfMemReserve_cases h hserved with ⟨i, hi, hcounted, hfree, hpos, hsize, heq⟩ |
    ⟨heq, h0 | hmax | ⟨hnofree, hcount⟩⟩
  · rw [heq]
    refine ⟨regionOf_inside cfg hi, hsize, fun q hq => ?_⟩
    obtain ⟨j, hj, hjcounted, rfl, -⟩ := h.allocated q hq
    -- The block was free, so it is another one.
    apply regionOf_disjoint cfg
    rintro rfl
    exact (h.free_iff i hi hcounted).mp hfree hq
  · rw [heq]
    exact .inl h0
  · rw [heq]
    exact .inr (.inl hmax)
  · rw [heq]
    refine .inr (.inr fun c hc k hk hfits => ?_)
    have hblock := block_lt cfg hc hk
    have hblocks := cfg.blocks_eq
    have hcounted : cfg.blockStart c + k < cfg.totalBlockCount := by omega
    rw [block_eq_regionOf cfg hc hk]
    by_contra hnot
    apply hnofree
    refine ⟨_, hblock, hcounted, (h.free_iff _ hblock hcounted).mpr hnot, ?_⟩
    rw [cfg.getBlockSize_block hc hk]
    exact hfits

/-- A product that does not fit asks for more than there is. -/
theorem allocOk_overflow {t : MemTrace} {count size : UInt32} (h : MemInv cfg t)
    (hfits : Fits cfg t (.calloc count size)) (hover : ¬ count.toNat * size.toNat < 2 ^ 32) :
    (nrfMemReserve cfg true (some (size * count)) t.manager).2.1 = none ∧
      cfg.maxMemSize < count.toNat * size.toNat := by
  have hmax := cfg.maxMemSize_lt
  refine ⟨?_, by omega⟩
  rcases nrfMemReserve_cases h hfits.1 with ⟨i, hi, hcounted, hfree, hpos, hsize, -⟩ | ⟨heq, -⟩
  · have hblockSize : cfg.getBlockSize i ≤ cfg.maxMemSize := by
      obtain ⟨c, hc, k, hk, rfl⟩ := cfg.exists_block hi
      obtain ⟨last, hlast, hused, hlastSize, hle⟩ := cfg.maxMemSize_eq
      rw [cfg.getBlockSize_block hc hk, hlastSize]
      rcases Nat.eq_or_lt_of_le (hle c hc (by omega)) with rfl | hlt
      · exact Nat.le_refl _
      · exact Nat.le_of_lt (cfg.increasing last hlast c hlt (by omega) hused)
    rcases hfits.2 with hlt | h0 | hgt | hnofree
    · exact absurd hlt hover
    · omega
    · omega
    · exact absurd ⟨i, hi, hcounted, hfree, hsize⟩ hnofree
  · rw [heq]

theorem MemInv.allocOk {t : MemTrace} {c : MemCall} (h : MemInv cfg t) (hfits : Fits cfg t c) :
    AllocOk cfg t c := by
  intro n hn
  cases c with
  | reserve ppBuffer pSize =>
    cases ppBuffer with
    | false => cases hn
    | true =>
      cases pSize with
      | none => cases hn
      | some size =>
        obtain rfl : size.toNat = n := Option.some.inj hn
        exact allocOk_reserve h hfits
  | malloc size =>
    obtain rfl : size.toNat = n := Option.some.inj hn
    exact allocOk_reserve h hfits
  | calloc count size =>
    obtain rfl : count.toNat * size.toNat = n := Option.some.inj hn
    by_cases hlt : count.toNat * size.toNat < 2 ^ 32
    · have hproduct : (size * count).toNat = count.toNat * size.toNat := by
        rw [UInt32.toNat_mul, Nat.mul_comm size.toNat, Nat.mod_eq_of_lt hlt]
      have hok := allocOk_reserve h hfits.1
      rw [hproduct] at hok
      exact hok
    · obtain ⟨hnone, hmax⟩ := allocOk_overflow h hfits hlt
      have hcall : (t.manager.call cfg (.calloc count size)).1 = none := hnone
      rw [hcall]
      exact .inr (.inl hmax)
  | free pMem => cases hn

/-- A block of size 0 stands at the start of `m_memory`. -/
theorem blockMem_of_empty (cfg : MemConfig) (hi : i < cfg.blocks) (hsize : cfg.getBlockSize i = 0) :
    cfg.blockMem i = 0 := by
  have hall : ∀ k ≤ i, cfg.blockMem k = 0 := by
    intro k
    induction k with
    | zero => exact fun _ => rfl
    | succ k ih =>
      intro hk
      have hmono := cfg.getBlockSize_mono (Nat.le_of_succ_le hk) hi
      show cfg.blockMem k + cfg.getBlockSize k = 0
      rw [ih (Nat.le_of_succ_le hk)]
      omega
  exact hall i (Nat.le_refl i)

/-- The first block that starts where a block that is handed out does is that block. -/
theorem eq_of_blockMem_eq {t : MemTrace} (hij : i ≤ j) (hj : j < cfg.blocks)
    (hstart : cfg.blockMem i = cfg.blockMem j) (hmem : cfg.regionOf j ∈ t.allocated)
    (hfits : Fits cfg t (.free (some (cfg.blockMem j)))) : i = j := by
  by_contra hne
  have hle := regionOf_le cfg (Nat.lt_of_le_of_ne hij hne)
  have hi : i < cfg.blocks := by omega
  have hempty : cfg.getBlockSize i = 0 := by omega
  have hzero := blockMem_of_empty cfg hi hempty
  obtain ⟨c, hc, k, hk, rfl⟩ := cfg.exists_block hi
  have hsizes := hfits (by omega) ⟨_, hmem, hstart.symm.trans hzero⟩ c hc (by omega)
  rw [cfg.getBlockSize_block hc hk] at hempty
  exact hsizes hempty

/-- **`nrf_free` takes back the block that starts there**, and no other. -/
theorem memInv_free {t : MemTrace} {p : ℕ} (h : MemInv cfg t) (hfits : Fits cfg t (.free (some p))) :
    MemInv cfg ⟨nrfFree cfg (some p) t.manager, t.allocated.filter fun r => r.start != p⟩ := by
  have hallocated : ∀ r ∈ t.allocated.filter fun r => r.start != p,
      ∃ i < cfg.blocks, i < cfg.totalBlockCount ∧ r = cfg.regionOf i ∧ 0 < r.length :=
    fun r hr => h.allocated r (List.mem_of_mem_filter hr)
  have hfilter : ∀ i, cfg.regionOf i ∈ (t.allocated.filter fun r => r.start != p) ↔
      cfg.regionOf i ∈ t.allocated ∧ cfg.blockMem i ≠ p := by
    intro i
    rw [List.mem_filter]
    simp [MemConfig.regionOf]
  unfold nrfFree
  rw [h.initialized]
  simp only [Bool.not_true, Bool.false_eq_true, if_false]
  -- The pointer is that of no block, or `j` is the first block that starts there.
  rcases freeFrom_spec cfg p cfg.totalBlockCount 0 0 rfl with ⟨hnone, hall⟩ |
    ⟨j, -, hj, hjp, hbefore, hsome⟩
  · rw [hnone]
    refine ⟨h.initialized, fun i hi hcounted => ?_, hallocated⟩
    have hne : cfg.blockMem i ≠ p := by
      have hne := hall i (Nat.zero_le i) (by omega)
      rwa [blockMem_mod cfg hi] at hne
    dsimp only
    rw [hfilter, h.free_iff i hi hcounted]
    simp [hne]
  · rw [hsome]
    refine ⟨h.initialized, fun i hi hcounted => ?_, hallocated⟩
    dsimp only
    rw [isBlockFree_blockInit, hfilter, Bool.or_eq_true, h.free_iff i hi hcounted,
      decide_eq_true_iff]
    by_cases hp : cfg.blockMem i = p
    · -- Block `i` starts at `p`: it is the one that is freed, or it was free before.
      constructor
      · rintro - ⟨-, hne⟩
        exact hne hp
      · intro _
        by_cases hmem : cfg.regionOf i ∈ t.allocated
        · right
          have hji : j ≤ i := by
            by_contra hlt
            have hne := hbefore i (Nat.zero_le i) (by omega)
            rw [blockMem_mod cfg hi] at hne
            exact hne hp
          subst hp
          rw [blockMem_mod cfg (by omega)] at hjp
          exact (eq_of_blockMem_eq hji hi hjp hmem hfits).symm
        · exact .inl hmem
    · have hne : i ≠ j := by
        rintro rfl
        rw [blockMem_mod cfg hi] at hjp
        exact hp hjp
      simp [hp, hne]

/-- **Step lemma.** -/
theorem memInv_step {t : MemTrace} {c : MemCall} (h : MemInv cfg t) (hfits : Fits cfg t c) :
    MemInv cfg (t.step cfg c) := by
  cases c with
  | reserve ppBuffer pSize =>
    cases ppBuffer with
    | false =>
      have hcall : t.manager.call cfg (.reserve false pSize) = (none, t.manager) := by
        show (nrfMemReserve cfg false pSize t.manager).2 = _
        unfold nrfMemReserve
        rw [h.initialized]
        rfl
      unfold step
      rw [hcall]
      exact h
    | true =>
      cases pSize with
      | none =>
        have hcall : t.manager.call cfg (.reserve true none) = (none, t.manager) := by
          show (nrfMemReserve cfg true none t.manager).2 = _
          unfold nrfMemReserve
          rw [h.initialized]
          rfl
        unfold step
        rw [hcall]
        exact h
      | some size => exact memInv_reserve h hfits
  | malloc size => exact memInv_reserve h hfits
  | calloc count size => exact memInv_reserve h hfits.1
  | free pMem =>
    cases pMem with
    | none =>
      have hcall : t.manager.call cfg (.free none) = (none, t.manager) := by
        show (none, nrfFree cfg none t.manager) = _
        unfold nrfFree
        rw [h.initialized]
        rfl
      unfold step
      rw [hcall]
      exact h
    | some p => exact memInv_free h hfits

/-- **The memory manager is sound and complete** in every run whose steps meet the condition. -/
theorem sound_of_reachable (cfg : MemConfig) {t : MemTrace}
    (h : (machine cfg).ReachableUnder (Fits cfg) t) :
    Agrees cfg t ∧ ∀ c, Fits cfg t c → AllocOk cfg t c := by
  have hinv : MemInv cfg t := h.invariant (I := MemInv cfg)
    (fun t ht => by
      rw [ht]
      refine ⟨rfl, fun i _ hcounted => ?_, fun r hr => absurd hr List.not_mem_nil⟩
      rw [isBlockFree_nrfMemInit _ hcounted]
      simp)
    (fun t c hinv _ hfits => memInv_step hinv hfits)
  exact ⟨hinv.agrees, fun c hfits => hinv.allocOk hfits⟩

instance (cfg : MemConfig) (t : MemTrace) (c : MemCall) : Decidable ((machine cfg).enabled t c) :=
  inferInstanceAs (Decidable True)

instance (cfg : MemConfig) (t : MemTrace) (c : MemCall) : Decidable (Fits cfg t c) := by
  unfold Fits
  split <;> infer_instance

/-- Five blocks of four sizes. -/
def fiveBlocks : MemConfig where
  blockCount c := [2, 0, 1, 0, 0, 1, 1].getD c 0
  blockSize c := [8, 0, 32, 0, 0, 64, 128].getD c 0
  used := by decide
  increasing := by decide
  memory_lt := by decide

/-- A block is freed and handed out again, and one of the next size is taken when there is no other. -/
theorem sound_fiveBlocks :
    Agrees fiveBlocks ((machine fiveBlocks).run ⟨nrfMemInit fiveBlocks ⟨fun _ => 0, false⟩, []⟩
      [.malloc 5, .calloc 2 4, .malloc 8, .free (some 0), .reserve true (some 3)]) ∧
    AllocOk fiveBlocks ((machine fiveBlocks).run ⟨nrfMemInit fiveBlocks ⟨fun _ => 0, false⟩, []⟩
      [.malloc 5, .calloc 2 4, .malloc 8, .free (some 0), .reserve true (some 3)]) (.malloc 100) := by
  have hsound := sound_of_reachable fiveBlocks (.of_follows (.start rfl)
    (by decide +kernel : (machine fiveBlocks).Follows (Fits fiveBlocks)
      ⟨nrfMemInit fiveBlocks ⟨fun _ => 0, false⟩, []⟩
      [.malloc 5, .calloc 2 4, .malloc 8, .free (some 0), .reserve true (some 3)]))
  exact ⟨hsound.1, hsound.2 (.malloc 100) (by decide +kernel)⟩

/-- A single block of the largest category. -/
def oneBlock : MemConfig where
  blockCount c := if c = 6 then 1 else 0
  blockSize c := if c = 6 then 16 else 0
  used := by decide
  increasing := by decide
  memory_lt := by decide

/-- **The largest blocks are not counted**: the block is free, but nothing can be allocated. -/
theorem not_sound_oneBlock :
    ¬ ∀ cfg t, (machine cfg).Reachable t → Agrees cfg t ∧ ∀ c, AllocOk cfg t c := by
  intro hall
  have hok := (hall oneBlock _ (.start rfl)).2 (.malloc 1) 1 rfl
  have hcall : (MemManager.call oneBlock (nrfMemInit oneBlock ⟨fun _ => 0, false⟩)
      (.malloc 1)).1 = none := by decide +kernel
  rw [hcall] at hok
  rcases hok with hzero | hmax | hall
  · cases hzero
  · exact absurd hmax (by decide)
  · exact absurd (hall 6 (by decide) 0 (by decide) (by decide)) List.not_mem_nil

end MemTrace

end NordicEsb
