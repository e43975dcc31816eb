import NordicEsb.Lib.Bitmap
import Mathlib.Data.List.Range
import Mathlib.Data.Nat.Basic
import Mathlib.Tactic.Linarith

/-!
# The Memory Manager

`mem_manager.c` hands out blocks of seven categories. A block has an index; the blocks of a category
stand next to each other, both in the bitmap and in `m_memory`. The tables that say where a category
starts are computed by the preprocessor, and so are the total count of blocks, the total size and
the largest size that may be requested.

- `MemConfig` is a configuration, `MemManager` the state of the module
- `nrfMemReserve`, `nrfMalloc`, `nrfCalloc` and `nrfFree` are the interface

`TOTAL_BLOCK_COUNT` counts the extra large blocks twice, and the largest ones not at all.
-/

namespace NordicEsb

/-! ## §1 Configuration -/

/-- `BLOCK_CAT_COUNT` -/
def blockCatCount : ℕ := 7

/-- `BITMAP_SIZE` -/
def bitmapSize : ℕ := 32

/-- The chain of macros that adds up what the categories below `c` take. -/
def tableStart (f : ℕ → ℕ) : ℕ → ℕ
  | 0 => 0
  | c + 1 => tableStart f c + f c

/-- A configuration that defines the seven block counts. Category 0 is the smallest. -/
structure MemConfig where
  /-- `MEMORY_MANAGER_..._BLOCK_COUNT` -/
  blockCount : ℕ → ℕ
  /-- `m_block_size` -/
  blockSize : ℕ → ℕ
  /-- One of the blocks is used, or the module does not compile. -/
  used : ∃ c < blockCatCount, blockCount c ≠ 0
  /-- The sizes increase. -/
  increasing : ∀ d < blockCatCount, ∀ c < d, blockCount c ≠ 0 → blockCount d ≠ 0 →
    blockSize c < blockSize d
  /-- `m_memory` is an object of a 32-bit address space. -/
  memory_lt : tableStart (fun c => blockCount c * blockSize c) blockCatCount < 2 ^ 32

namespace MemConfig

variable (cfg : MemConfig)

/-- `m_block_start` -/
def blockStart (c : ℕ) : ℕ := tableStart cfg.blockCount c

/-- `m_block_end` -/
def blockEnd (c : ℕ) : ℕ := cfg.blockStart c + cfg.blockCount c

/-- `m_block_mem_start` -/
def blockMemStart (c : ℕ) : ℕ := tableStart (fun d => cfg.blockCount d * cfg.blockSize d) c

/-- `TOTAL_BLOCK_COUNT` -/
def totalBlockCount : ℕ :=
  cfg.blockCount 0 + cfg.blockCount 1 + cfg.blockCount 2 + cfg.blockCount 3 + cfg.blockCount 4 +
    cfg.blockCount 5 + cfg.blockCount 5

/-- `TOTAL_MEMORY_SIZE` -/
def totalMemorySize : ℕ := cfg.blockMemStart blockCatCount

/-- `MAX_MEM_SIZE` -/
def maxMemSize : ℕ :=
  if cfg.blockCount 6 ≠ 0 then cfg.blockSize 6
  else if cfg.blockCount 5 ≠ 0 then cfg.blockSize 5
  else if cfg.blockCount 4 ≠ 0 then cfg.blockSize 4
  else if cfg.blockCount 3 ≠ 0 then cfg.blockSize 3
  else if cfg.blockCount 2 ≠ 0 then cfg.blockSize 2
  else if cfg.blockCount 1 ≠ 0 then cfg.blockSize 1
  else cfg.blockSize 0

/-- The test of `get_block_cat`. -/
def isBlockCat (size blockIndex c : ℕ) : Bool :=
  (size != 0 && decide (size ≤ cfg.blockSize c) && cfg.blockEnd c != cfg.blockStart c) ||
    decide (blockIndex < cfg.blockEnd c)

/-- `get_block_cat` -/
def getBlockCat (size blockIndex : ℕ) : ℕ :=
  ((List.range blockCatCount).find? (cfg.isBlockCat size blockIndex)).getD 0

/-- `get_block_size` -/
def getBlockSize (blockIndex : ℕ) : ℕ := cfg.blockSize (cfg.getBlockCat 0 blockIndex)

end MemConfig

/-! ## §2 State -/

/-- The state of the module. -/
structure MemManager where
  memPool : Bitmap bitmapSize
  moduleInitialized : Bool

/-- `get_block_coordinates` -/
def getBlockCoordinates (blockIndex : ℕ) : ℕ × ℕ :=
  let x := blockIndex / bitmapSize
  (x, blockIndex - x * bitmapSize)

/-- `block_init` -/
def blockInit (blockIndex : ℕ) (s : MemManager) : MemManager :=
  let (x, y) := getBlockCoordinates blockIndex
  { s with memPool := Function.update s.memPool x (Bitmap.wordSet (s.memPool x) y) }

/-- `is_block_free` -/
def isBlockFree (blockIndex : ℕ) (s : MemManager) : Bool :=
  let (x, y) := getBlockCoordinates blockIndex
  Bitmap.wordIsSet (s.memPool x) y

/-- `block_allocate` -/
def blockAllocate (blockIndex : ℕ) (s : MemManager) : MemManager :=
  let (x, y) := getBlockCoordinates blockIndex
  { s with memPool := Function.update s.memPool x (Bitmap.wordClear (s.memPool x) y) }

/-! ## §3 Interface -/

/-- The error codes of the module, behind `MEMORY_MANAGER_ERR_BASE`. -/
inductive MemRet where
  | success
  | invalidState
  | null
  | invalidParam
  | noMem
deriving DecidableEq, Repr

/-- Bytes of `m_memory`: where they start, and how many. A pointer to memory is the offset from
    the start of `m_memory`. -/
structure MemRegion where
  start : ℕ
  length : ℕ
deriving DecidableEq, Repr

/-- `nrf_mem_init` -/
def nrfMemInit (cfg : MemConfig) (s : MemManager) : MemManager :=
  let s := (List.range cfg.totalBlockCount).foldl (fun s i => blockInit i s) s
  { s with moduleInitialized := true }

/-- The loop of `nrf_mem_reserve`, with `n` blocks to go: the first block that is free. -/
def reserveFrom (cfg : MemConfig) (s : MemManager) : ℕ → ℕ → ℕ → Option (ℕ × MemRegion)
  | 0, _, _ => none
  | n + 1, blockIndex, memoryIndex =>
    let blockSize := cfg.getBlockSize blockIndex
    if isBlockFree blockIndex s then some (blockIndex, ⟨memoryIndex, blockSize⟩)
    else reserveFrom cfg s n (blockIndex + 1) ((memoryIndex + blockSize) % 2 ^ 32)

/-- `nrf_mem_reserve`: the error code, what is stored through the two pointers, and the state.
    `ppBuffer` says that the first pointer is not null. -/
def nrfMemReserve (cfg : MemConfig) (ppBuffer : Bool) (pSize : Option UInt32) (s : MemManager) :
    MemRet × Option MemRegion × MemManager :=
  if !s.moduleInitialized then (.invalidState, none, s)
  else if !ppBuffer then (.null, none, s)
  else
    match pSize with
    | none => (.null, none, s)
    | some size =>
      let requestedSize := size.toNat
      if requestedSize = 0 ∨ requestedSize > cfg.maxMemSize then (.invalidParam, none, s)
      else
        let blockCat := cfg.getBlockCat requestedSize cfg.totalBlockCount
        let blockIndex := cfg.blockStart blockCat
        match reserveFrom cfg s (cfg.totalBlockCount - blockIndex) blockIndex
          (cfg.blockMemStart blockCat) with
        | none => (.noMem, none, s)
        | some (i, buffer) => (.success, some buffer, blockAllocate i s)

/-- `nrf_malloc`: the memory behind the pointer that is returned. -/
def nrfMalloc (cfg : MemConfig) (size : UInt32) (s : MemManager) : Option MemRegion × MemManager :=
  (nrfMemReserve cfg true (some size) s).2

/-- `nrf_calloc`, which multiplies in 32 bits. -/
def nrfCalloc (cfg : MemConfig) (count size : UInt32) (s : MemManager) :
    Option MemRegion × MemManager :=
  (nrfMemReserve cfg true (some (size * count)) s).2

/-- The loop of `nrf_free`, with `n` blocks to go: the first block that starts at `p`. -/
def freeFrom (cfg : MemConfig) (p : ℕ) : ℕ → ℕ → ℕ → Option ℕ
  | 0, _, _ => none
  | n + 1, index, memoryIndex =>
    if memoryIndex = p then some index
    else freeFrom cfg p n (index + 1) ((memoryIndex + cfg.getBlockSize index) % 2 ^ 32)

/-- `nrf_free` -/
def nrfFree (cfg : MemConfig) (pMem : Option ℕ) (s : MemManager) : MemManager :=
  if !s.moduleInitialized then s
  else
    match pMem with
    | none => s
    | some p =>
      match freeFrom cfg p cfg.totalBlockCount 0 0 with
      | none => s
      | some index => blockInit index s

/-! ## §4 The blocks -/

theorem getBlockCoordinates_eq (i : ℕ) :
    getBlockCoordinates i = (i / bitmapSize, i % bitmapSize) := by
  have hdiv := Nat.div_add_mod i bitmapSize
  have hcomm := Nat.mul_comm bitmapSize (i / bitmapSize)
  unfold getBlockCoordinates
  dsimp only
  congr 1
  omega

theorem isBlockFree_eq (i : ℕ) (s : MemManager) : isBlockFree i s = s.memPool.get i := by
  unfold isBlockFree
  rw [getBlockCoordinates_eq]
  rfl

theorem bitmapSize_pos : 0 < bitmapSize := by decide

/-- `block_init` frees a block, and no other. -/
@[simp] theorem isBlockFree_blockInit (i j : ℕ) (s : MemManager) :
    isBlockFree j (blockInit i s) = (isBlockFree j s || decide (j = i)) := by
  rw [isBlockFree_eq, isBlockFree_eq]
  have hset : (blockInit i s).memPool = s.memPool.set i := by
    unfold blockInit
    rw [getBlockCoordinates_eq]
    rfl
  rw [hset, Bitmap.get_set bitmapSize_pos]

/-- `block_allocate` takes a block, and no other. -/
@[simp] theorem isBlockFree_blockAllocate (i j : ℕ) (s : MemManager) :
    isBlockFree j (blockAllocate i s) = (isBlockFree j s && !decide (j = i)) := by
  rw [isBlockFree_eq, isBlockFree_eq]
  have hclear : (blockAllocate i s).memPool = s.memPool.clear i := by
    unfold blockAllocate
    rw [getBlockCoordinates_eq]
    rfl
  rw [hclear, Bitmap.get_clear bitmapSize_pos]

/-- `nrf_mem_init` frees every block that is counted. -/
theorem isBlockFree_nrfMemInit {cfg : MemConfig} {i : ℕ} (s : MemManager)
    (h : i < cfg.totalBlockCount) : isBlockFree i (nrfMemInit cfg s) = true := by
  have hloop : ∀ (l : List ℕ) (s : MemManager), (i ∈ l ∨ isBlockFree i s = true) →
      isBlockFree i (l.foldl (fun s j => blockInit j s) s) = true := by
    intro l
    induction l with
    | nil =>
      intro s h
      exact h.resolve_left List.not_mem_nil
    | cons j l ih =>
      intro s h
      apply ih
      rw [isBlockFree_blockInit]
      rcases h with h | h
      · rcases List.mem_cons.mp h with rfl | h
        · right
          simp
        · exact .inl h
      · right
        simp [h]
  exact hloop _ s (.inl (List.mem_range.mpr h))

theorem tableStart_mono (f : ℕ → ℕ) {c d : ℕ} (h : c ≤ d) : tableStart f c ≤ tableStart f d := by
  induction d, h using Nat.le_induction with
  | base => exact Nat.le_refl _
  | succ d _ ih => exact Nat.le_add_right_of_le ih

namespace MemConfig

variable (cfg : MemConfig) {c d i j k : ℕ}

theorem blockStart_succ (c : ℕ) : cfg.blockStart (c + 1) = cfg.blockEnd c := rfl

theorem blockStart_mono (h : c ≤ d) : cfg.blockStart c ≤ cfg.blockStart d := tableStart_mono _ h

theorem blockEnd_le (h : c < d) : cfg.blockEnd c ≤ cfg.blockStart d := cfg.blockStart_mono h

/-- The category of a block: the first one that ends behind it. -/
theorem getBlockCat_block (hc : c < blockCatCount) (hk : k < cfg.blockCount c) :
    cfg.getBlockCat 0 (cfg.blockStart c + k) = c := by
  have hfind : (List.range blockCatCount).find? (cfg.isBlockCat 0 (cfg.blockStart c + k)) =
      some c := by
    rw [List.find?_range_eq_some]
    refine ⟨?_, List.mem_range.mpr hc, fun d hd => ?_⟩
    · simp [isBlockCat, blockEnd, hk]
    · have hend : cfg.blockEnd d ≤ cfg.blockStart c + k := Nat.le_add_right_of_le (cfg.blockEnd_le hd)
      simp [isBlockCat, hend]
  unfold getBlockCat
  rw [hfind]
  rfl

theorem getBlockSize_block (hc : c < blockCatCount) (hk : k < cfg.blockCount c) :
    cfg.getBlockSize (cfg.blockStart c + k) = cfg.blockSize c :=
  congrArg cfg.blockSize (cfg.getBlockCat_block hc hk)

/-- Every index below the start of a category is a block of a category before. -/
theorem exists_block (h : i < cfg.blockStart c) :
    ∃ d < c, ∃ k < cfg.blockCount d, i = cfg.blockStart d + k := by
  induction c with
  | zero => exact absurd h (Nat.not_lt_zero i)
  | succ c ih =>
    rcases Nat.lt_or_ge i (cfg.blockStart c) with hlt | hge
    · obtain ⟨d, hd, k, hk, hi⟩ := ih hlt
      exact ⟨d, Nat.lt_succ_of_lt hd, k, hk, hi⟩
    · have hend : i < cfg.blockStart c + cfg.blockCount c := h
      exact ⟨c, Nat.lt_succ_self c, i - cfg.blockStart c, by omega, by omega⟩

/-- Where a block starts in `m_memory`: the sizes of the blocks before it. -/
def blockMem (cfg : MemConfig) : ℕ → ℕ
  | 0 => 0
  | i + 1 => cfg.blockMem i + cfg.getBlockSize i

theorem blockMem_mono (h : i ≤ j) : cfg.blockMem i ≤ cfg.blockMem j := by
  induction j, h using Nat.le_induction with
  | base => exact Nat.le_refl _
  | succ j _ ih => exact Nat.le_add_right_of_le ih

/-- **The three tables agree**: the memory of a category starts where its first block does. -/
theorem blockMem_block (hc : c < blockCatCount) (hk : k ≤ cfg.blockCount c)
    (hstart : cfg.blockMem (cfg.blockStart c) = cfg.blockMemStart c) :
    cfg.blockMem (cfg.blockStart c + k) = cfg.blockMemStart c + k * cfg.blockSize c := by
  induction k with
  | zero => simpa using hstart
  | succ k ih =>
    have hsize := cfg.getBlockSize_block hc hk
    show cfg.blockMem (cfg.blockStart c + k) + cfg.getBlockSize (cfg.blockStart c + k) = _
    rw [ih (Nat.le_of_succ_le hk), hsize, Nat.succ_mul]
    omega

theorem blockMem_blockStart (hc : c ≤ blockCatCount) :
    cfg.blockMem (cfg.blockStart c) = cfg.blockMemStart c := by
  induction c with
  | zero => rfl
  | succ c ih => exact cfg.blockMem_block hc (Nat.le_refl _) (ih (Nat.le_of_succ_le hc))

/-- The blocks there are. -/
def blocks : ℕ := cfg.blockStart blockCatCount

theorem blockMem_le (h : i ≤ cfg.blocks) : cfg.blockMem i ≤ cfg.totalMemorySize := by
  have hend := cfg.blockMem_blockStart (Nat.le_refl blockCatCount)
  have hmono := cfg.blockMem_mono h
  unfold blocks at hmono
  unfold totalMemorySize
  omega

theorem totalMemorySize_lt : cfg.totalMemorySize < 2 ^ 32 := cfg.memory_lt

/-- **Larger blocks come later.** -/
theorem getBlockSize_mono (hij : i ≤ j) (hj : j < cfg.blocks) :
    cfg.getBlockSize i ≤ cfg.getBlockSize j := by
  obtain ⟨c, hc, k, hk, hi⟩ := cfg.exists_block (Nat.lt_of_le_of_lt hij hj)
  obtain ⟨d, hd, l, hl, hj⟩ := cfg.exists_block hj
  rw [hi, hj, cfg.getBlockSize_block hc hk, cfg.getBlockSize_block hd hl]
  rcases Nat.lt_trichotomy c d with hlt | heq | hgt
  · exact Nat.le_of_lt (cfg.increasing d hd c hlt (by omega) (by omega))
  · rw [heq]
  · have hend := cfg.blockEnd_le hgt
    unfold blockEnd at hend
    omega

/-- The bytes of a block. -/
def regionOf (i : ℕ) : MemRegion := ⟨cfg.blockMem i, cfg.getBlockSize i⟩

end MemConfig

end NordicEsb
