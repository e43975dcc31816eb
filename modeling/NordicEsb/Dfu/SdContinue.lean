import NordicEsb.Dfu.Continue
import NordicEsb.Lib.Machine
import Mathlib.Algebra.GroupWithZero.Nat

/-!
# The Copy of a SoftDevice

`nrf_dfu_sd_continue_impl` copies a SoftDevice to its region in chunks of whole pages, and saves after
each chunk how far it is. After a power loss it is called again and goes on from there.

- `SdUpdate`: the sizes and addresses; `SdState.next`, one operation; `sdMachine`, the runs with power
  losses, each of which leaves anything in the chunk that was being copied.
- `Progress`: the saved offset is at a page or at the end, what is below it is copied and compared,
  nothing wraps, and the function returns.
- `WholePages`: the SoftDevice is made of whole pages, or has one page at most.

**Main result** (`progress_iff`): every run makes progress if and only if the SoftDevice is such.
-/

namespace NordicEsb.Dfu

/-! ## §1 The copy -/

/-- An update of the SoftDevice: `CODE_PAGE_SIZE` as a power of two (a page has words),
    `SOFTDEVICE_REGION_START`, the address of the new one and its `sd_size`. -/
structure SdUpdate where
  pageBits : ℕ
  two_le_pageBits : 2 ≤ pageBits
  pageBits_lt : pageBits < 32
  regionStart : ℕ
  srcAddr : ℕ
  sdSize : ℕ
  sdSize_pos : 1 ≤ sdSize
  sdSize_lt : sdSize < 2 ^ 32

/-- `CODE_PAGE_SIZE` -/
def SdUpdate.page (u : SdUpdate) : ℕ := 2 ^ u.pageBits

/-- A subtraction of 32 bits. -/
def sub32 (a b : ℕ) : ℕ := (a + 2 ^ 32 - b) % 2 ^ 32

/-- `align_to_page` of 32 bits. -/
def SdUpdate.align (u : SdUpdate) (val : ℕ) : ℕ := (val + u.page - 1) % 2 ^ 32 / u.page * u.page

/-- The local variables. -/
structure SdLocals where
  targetAddr : ℕ
  srcAddr : ℕ
  lengthLeft : ℕ
  splitSize : ℕ
deriving DecidableEq, Repr

/-- `length_left` after a chunk. -/
def SdLocals.left (l : SdLocals) : ℕ :=
  if l.splitSize > l.lengthLeft then 0 else l.lengthLeft - l.splitSize

/-- Where the function is. -/
inductive SdPhase where
  /-- It is going to be called, after a reset. -/
  | boot
  | copy (l : SdLocals)
  | compare (l : SdLocals)
  | save (l : SdLocals)
  /-- It has returned, with `NRF_SUCCESS` or not. -/
  | returned (success : Bool)
deriving DecidableEq, Repr

/-- The device: the memory by bytes, `s_dfu_settings.write_offset`, and the same in flash. -/
structure SdState where
  mem : ℕ → BitVec 8
  writeOffset : ℕ
  saved : ℕ
  phase : SdPhase
  /-- History variable: all bytes below it were compared. -/
  compared : ℕ

variable (u : SdUpdate)

/-- The locals at the start of the function. -/
def SdUpdate.locals (writeOffset : ℕ) : SdLocals :=
  let lengthLeft := u.align (sub32 u.sdSize writeOffset)
  { targetAddr := u.regionStart + writeOffset
    srcAddr := u.srcAddr + writeOffset
    lengthLeft := lengthLeft
    splitSize := u.align (lengthLeft / 4) }

/-- `nrf_dfu_mbr_copy_sd` -/
def copySd (l : SdLocals) (mem : ℕ → BitVec 8) : ℕ → BitVec 8 := fun a =>
  if l.targetAddr ≤ a ∧ a < l.targetAddr + l.splitSize then mem (l.srcAddr + (a - l.targetAddr))
  else mem a

/-- A copy that was cut off: anything may be in the chunk. -/
def tornCopy (l : SdLocals) (garbage mem : ℕ → BitVec 8) : ℕ → BitVec 8 := fun a =>
  if l.targetAddr ≤ a ∧ a < l.targetAddr + l.splitSize then garbage a else mem a

/-- `nrf_dfu_mbr_compare` -/
def SameChunk (l : SdLocals) (mem : ℕ → BitVec 8) : Prop :=
  ∀ i < l.splitSize, mem (l.targetAddr + i) = mem (l.srcAddr + i)

instance (l : SdLocals) (mem : ℕ → BitVec 8) : Decidable (SameChunk l mem) :=
  inferInstanceAs (Decidable (∀ i < l.splitSize, mem (l.targetAddr + i) = mem (l.srcAddr + i)))

/-- The part of `nrf_dfu_sd_continue_impl` before the loop. -/
def SdState.begin (s : SdState) : SdState :=
  if u.sdSize ≠ 0 ∧ s.writeOffset = u.sdSize then { s with phase := .returned true }
  else { s with phase := .copy (u.locals s.writeOffset) }

/-- The end of an iteration: the new `write_offset` is saved. -/
def SdState.save (l : SdLocals) (s : SdState) : SdState :=
  let writeOffset := sub32 u.sdSize l.left
  { s with
    writeOffset := writeOffset
    saved := writeOffset
    phase := if l.left > 0 then
        .copy ⟨l.targetAddr + l.splitSize, l.srcAddr + l.splitSize, l.left, l.splitSize⟩
      else .returned true }

/-- The next operation. -/
def SdState.next (s : SdState) : SdState :=
  match s.phase with
  | .boot => s.begin u
  | .copy l => { s with mem := copySd l s.mem, phase := .compare l }
  | .compare l =>
    if SameChunk l s.mem then
      { s with
        phase := .save l
        compared := if l.targetAddr - u.regionStart ≤ s.compared then
            max s.compared (l.targetAddr - u.regionStart + l.splitSize)
          else s.compared }
    else { s with phase := .returned false }
  | .save l => s.save u l
  | .returned _ => s

/-- What is in memory when a copy does not end. -/
def SdState.torn (s : SdState) (garbage : ℕ → BitVec 8) : ℕ → BitVec 8 :=
  match s.phase with
  | .copy l => tornCopy l garbage s.mem
  | _ => s.mem

/-- What happens next. -/
inductive SdEvent where
  | next
  /-- The copy fails. -/
  | copyFails (garbage : ℕ → BitVec 8)
  /-- The power is lost, or the function has returned and the program is reset; and it is called
      again with the saved settings. -/
  | powerLost (garbage : ℕ → BitVec 8)

/-- One event. -/
def SdState.step (s : SdState) : SdEvent → SdState
  | .next => s.next u
  | .copyFails garbage => { s with mem := s.torn garbage, phase := .returned false }
  | .powerLost garbage =>
    { s with mem := s.torn garbage, writeOffset := s.saved, phase := .boot }

/-- The runs from a first call, with `mem` in memory. -/
def sdMachine (mem : ℕ → BitVec 8) : Machine SdState SdEvent where
  start s := s = ⟨mem, 0, 0, .boot, 0⟩
  enabled s a := match a with
    | .copyFails _ => ∃ l, s.phase = .copy l
    | _ => True
  step := SdState.step u

/-! ## §2 Progress -/

/-- **The property**: `image` is what was at the source at first. -/
structure Progress (image : ℕ → BitVec 8) (s : SdState) : Prop where
  offset_le : s.saved ≤ u.sdSize ∧ s.writeOffset ≤ u.sdSize
  /-- The offset is at a page, or at the end. -/
  aligned : u.page ∣ s.saved ∨ s.saved = u.sdSize
  copied : ∀ i < s.saved, s.mem (u.regionStart + i) = image i
  compared : s.saved ≤ s.compared
  /-- `sd_size - length_left` does not wrap. -/
  noWrap : ∀ l, s.phase = .save l → l.left ≤ u.sdSize
  whole : s.phase = .returned true → ∀ i < u.sdSize, s.mem (u.regionStart + i) = image i
  /-- If nothing else happens, the function returns. -/
  returns : ∃ k success, ((SdState.next u)^[k] s).phase = .returned success

/-- **The SoftDevice is made of whole pages, or has one page at most.** -/
def WholePages : Prop := u.page ∣ u.sdSize ∨ u.sdSize ≤ u.page

instance : Decidable (WholePages u) := inferInstanceAs (Decidable (_ ∨ _))

/-- The source is so far above the region that a chunk does not reach it. -/
def Room : Prop :=
  u.regionStart < u.srcAddr ∧ u.regionStart + (u.locals 0).splitSize ≤ u.srcAddr

instance : Decidable (Room u) := inferInstanceAs (Decidable (_ ∧ _))

/-! ## §3 Sizes -/

variable {u} {w : ℕ} {l : SdLocals} {image : ℕ → BitVec 8} {s : SdState}

theorem four_le_page (u : SdUpdate) : 4 ≤ u.page :=
  Nat.pow_le_pow_right (by decide : 0 < 2) u.two_le_pageBits

/-- A page is at most half of the address space. -/
theorem page_le_half (u : SdUpdate) : u.page ≤ 2 ^ 31 :=
  Nat.pow_le_pow_right (by decide) (Nat.le_of_lt_succ u.pageBits_lt)

theorem page_dvd (u : SdUpdate) : u.page ∣ 2 ^ 32 := Nat.pow_dvd_pow 2 u.pageBits_lt.le

theorem sub32_of_le {a b : ℕ} (hb : b ≤ a) (ha : a < 2 ^ 32) : sub32 a b = a - b := by
  unfold sub32
  omega

/-- The alignment of a value for which the addition does not wrap. -/
theorem align_spec {val : ℕ} (h : val + u.page ≤ 2 ^ 32) :
    u.page ∣ u.align val ∧ val ≤ u.align val ∧ u.align val < val + u.page := by
  have hpage := four_le_page u
  have hmod : (val + u.page - 1) % 2 ^ 32 = val + u.page - 1 := Nat.mod_eq_of_lt (by omega)
  have hdiv := Nat.div_add_mod (val + u.page - 1) u.page
  have hlt := Nat.mod_lt (val + u.page - 1) (by omega : u.page > 0)
  unfold SdUpdate.align
  rw [hmod]
  refine ⟨Nat.dvd_mul_left _ _, ?_, ?_⟩
  · rw [Nat.mul_comm]
    omega
  · rw [Nat.mul_comm]
    omega

theorem align_of_dvd {val : ℕ} (h : val + u.page ≤ 2 ^ 32) (hdvd : u.page ∣ val) :
    u.align val = val := by
  obtain ⟨hpages, hle, hlt⟩ := align_spec h
  obtain ⟨k, hk⟩ := Nat.dvd_sub hpages hdvd
  have hzero : k = 0 := by
    by_contra hne
    have hpage : u.page ≤ u.page * k := Nat.le_mul_of_pos_right _ (Nat.pos_of_ne_zero hne)
    omega
  rw [hzero] at hk
  omega

theorem align_mono {a b : ℕ} (hab : a ≤ b) (h : b + u.page ≤ 2 ^ 32) : u.align a ≤ u.align b := by
  have hpage := four_le_page u
  have hmod : ∀ {val : ℕ}, val + u.page ≤ 2 ^ 32 →
      (val + u.page - 1) % 2 ^ 32 = val + u.page - 1 := fun hval => Nat.mod_eq_of_lt (by omega)
  unfold SdUpdate.align
  rw [hmod h, hmod (by omega)]
  exact Nat.mul_le_mul_right _ (Nat.div_le_div_right (by omega))

/-- A multiple of the page size below two pages is one page. -/
theorem eq_page {n : ℕ} (hdvd : u.page ∣ n) (hpos : 0 < n) (hlt : n < 2 * u.page) : n = u.page := by
  obtain ⟨k, rfl⟩ := hdvd
  have hk : k = 1 := by
    have hne : k ≠ 0 := by
      rintro rfl
      omega
    by_contra hmany
    have htwo : u.page * 2 ≤ u.page * k := Nat.mul_le_mul_left _ (by omega)
    omega
  rw [hk, Nat.mul_one]

/-- The sizes for which nothing wraps. -/
theorem WholePages.small (h : WholePages u) : u.sdSize + u.page ≤ 2 ^ 32 := by
  have hsize := u.sdSize_lt
  have hpage := page_le_half u
  rcases h with hdvd | hle
  · obtain ⟨k, hk⟩ := Nat.dvd_sub (page_dvd u) hdvd
    have hpos : k ≠ 0 := by
      rintro rfl
      omega
    have hroom : u.page ≤ u.page * k := Nat.le_mul_of_pos_right _ (Nat.pos_of_ne_zero hpos)
    omega
  · omega

/-- A multiple of the page size below a page is nothing. -/
theorem page_le_of_dvd {n : ℕ} (hdvd : u.page ∣ n) (hpos : 0 < n) : u.page ≤ n :=
  Nat.le_of_dvd hpos hdvd

/-! ## §4 The invariant -/

/-- **The locals** for a chunk at the saved offset `w`. -/
structure Chunk (u : SdUpdate) (w : ℕ) (l : SdLocals) : Prop where
  target : l.targetAddr = u.regionStart + w
  src : l.srcAddr = u.srcAddr + w
  below : w < u.sdSize
  aligned : u.page ∣ w
  /-- What is left ends with the SoftDevice, or the SoftDevice is in one page. -/
  left : w + l.lengthLeft = u.sdSize ∨
    u.sdSize ≤ u.page ∧ w = 0 ∧ l.lengthLeft = u.page ∧ l.splitSize = u.page
  split_pos : 0 < l.splitSize
  split_pages : u.page ∣ l.splitSize
  split_le : l.splitSize ≤ (u.locals 0).splitSize

/-- Where the function is, with what it has done. -/
inductive PhaseInv (u : SdUpdate) (image : ℕ → BitVec 8) (s : SdState) : SdPhase → Prop
  | boot : PhaseInv u image s .boot
  | copy {l : SdLocals} : Chunk u s.saved l → PhaseInv u image s (.copy l)
  | compare {l : SdLocals} : Chunk u s.saved l →
      (∀ i < l.splitSize, s.mem (u.regionStart + (s.saved + i)) = image (s.saved + i)) →
      PhaseInv u image s (.compare l)
  | save {l : SdLocals} : Chunk u s.saved l →
      (∀ i < l.splitSize, s.mem (u.regionStart + (s.saved + i)) = image (s.saved + i)) →
      s.saved + l.splitSize ≤ s.compared → PhaseInv u image s (.save l)
  | failed : PhaseInv u image s (.returned false)
  | done : s.saved = u.sdSize → PhaseInv u image s (.returned true)

/-- **The invariant**: what is below the offset is copied, and the source from there on is as it
    was. -/
structure SdInv (u : SdUpdate) (image : ℕ → BitVec 8) (s : SdState) : Prop where
  same : s.writeOffset = s.saved
  offset_le : s.saved ≤ u.sdSize
  aligned : u.page ∣ s.saved ∨ s.saved = u.sdSize
  copied : ∀ i < s.saved, s.mem (u.regionStart + i) = image i
  source : ∀ i, s.saved ≤ i → s.mem (u.srcAddr + i) = image i
  compared : s.saved ≤ s.compared
  phase : PhaseInv u image s s.phase

/-- **The locals at the start.** -/
theorem chunk_locals (hwhole : WholePages u) (hlt : w < u.sdSize) (haligned : u.page ∣ w) :
    Chunk u w (u.locals w) := by
  have hsmall := hwhole.small
  have hpage := four_le_page u
  have hpage' := page_le_half u
  have hsize := u.sdSize_lt
  have hlength : ∀ {w : ℕ}, w < u.sdSize →
      (u.locals w).lengthLeft = u.align (u.sdSize - w) := by
    intro w hw
    rw [← sub32_of_le hw.le hsize]
    rfl
  have hroom : u.sdSize - w + u.page ≤ 2 ^ 32 := by omega
  obtain ⟨hpages, hge, hup⟩ := align_spec hroom
  rw [← hlength hlt] at hpages hge hup
  have hfull : u.page ≤ (u.locals w).lengthLeft := page_le_of_dvd hpages (by omega)
  have hsplitRoom : (u.locals w).lengthLeft / 4 + u.page ≤ 2 ^ 32 := by omega
  obtain ⟨hsplitPages, hsplitGe, hsplitLt⟩ := align_spec hsplitRoom
  have hsplitPos : 0 < u.align ((u.locals w).lengthLeft / 4) := by omega
  have hsplitLe : u.align ((u.locals w).lengthLeft / 4) ≤
      u.align ((u.locals 0).lengthLeft / 4) := by
    have hmono : (u.locals w).lengthLeft ≤ (u.locals 0).lengthLeft := by
      rw [hlength hlt, hlength u.sdSize_pos]
      exact align_mono (by omega) (by omega)
    have hbound : (u.locals 0).lengthLeft < u.sdSize + u.page := by
      rw [hlength u.sdSize_pos]
      exact (align_spec hsmall).2.2
    exact align_mono (by omega) (by omega)
  refine ⟨rfl, rfl, hlt, haligned, ?_, hsplitPos, hsplitPages, hsplitLe⟩
  rcases hwhole with hdvd | hsmall
  · -- whole pages are left
    left
    rw [hlength hlt, align_of_dvd hroom (Nat.dvd_sub hdvd haligned)]
    omega
  · right
    have hzero : w = 0 := by
      by_contra hne
      have hle := page_le_of_dvd haligned (Nat.pos_of_ne_zero hne)
      omega
    have hone : (u.locals w).lengthLeft = u.page := eq_page hpages (by omega) (by omega)
    have hsplit : u.align ((u.locals w).lengthLeft / 4) = u.page :=
      eq_page hsplitPages hsplitPos (by omega)
    exact ⟨hsmall, hzero, hone, hsplit⟩

theorem Chunk.left_lt (h : Chunk u w l) : l.left < l.lengthLeft ∧ l.left ≤ u.sdSize - w := by
  have hpos := h.split_pos
  have hbelow := h.below
  unfold SdLocals.left
  rcases h.left with hends | ⟨hsmall, hzero, hlength, hsplit⟩
  · split <;> omega
  · rw [hlength, hsplit, if_neg (Nat.lt_irrefl _)]
    omega

/-- **The offset that is saved after a chunk.** -/
theorem Chunk.next (h : Chunk u w l) :
    sub32 u.sdSize l.left ≤ w + l.splitSize ∧ w < sub32 u.sdSize l.left ∧
      sub32 u.sdSize l.left ≤ u.sdSize ∧
      (l.left = 0 → sub32 u.sdSize l.left = u.sdSize) ∧
      (0 < l.left → sub32 u.sdSize l.left = w + l.splitSize ∧
        Chunk u (w + l.splitSize)
          ⟨l.targetAddr + l.splitSize, l.srcAddr + l.splitSize, l.left, l.splitSize⟩) := by
  have hpos := h.split_pos
  have hbelow := h.below
  obtain ⟨hlt, hle⟩ := h.left_lt
  have hsub : sub32 u.sdSize l.left = u.sdSize - l.left :=
    sub32_of_le (by omega) u.sdSize_lt
  rw [hsub]
  rcases h.left with hends | ⟨hsmall, hzero, hlength, hsplit⟩
  · by_cases hover : l.splitSize > l.lengthLeft
    · have hleft : l.left = 0 := if_pos hover
      rw [hleft]
      refine ⟨by omega, by omega, by omega, fun _ => rfl, nofun⟩
    · have hleft : l.left = l.lengthLeft - l.splitSize := if_neg hover
      refine ⟨by omega, by omega, by omega, fun hzero => by omega, fun hmore => ⟨by omega, ?_⟩⟩
      refine ⟨?_, ?_, by omega, Nat.dvd_add h.aligned h.split_pages, .inl ?_, hpos, h.split_pages,
        h.split_le⟩
      · show l.targetAddr + l.splitSize = _
        rw [h.target, Nat.add_assoc]
      · show l.srcAddr + l.splitSize = _
        rw [h.src, Nat.add_assoc]
      · show w + l.splitSize + l.left = u.sdSize
        omega
  · have hleft : l.left = 0 := by
      unfold SdLocals.left
      rw [hlength, hsplit, if_neg (Nat.lt_irrefl _), Nat.sub_self]
    rw [hleft]
    exact ⟨by omega, by omega, by omega, fun _ => rfl, nofun⟩

/-! ## §5 The runs -/

/-- The source lies above what is written. -/
theorem Chunk.clear (h : Chunk u w l) (hroom : Room u) {i : ℕ} (hi : w ≤ i) :
    ¬ (l.targetAddr ≤ u.srcAddr + i ∧ u.srcAddr + i < l.targetAddr + l.splitSize) := by
  have hle := h.split_le
  have htarget := h.target
  have hspace := hroom.2
  omega

/-- What is in the memory after a change within the chunk. -/
theorem SdInv.keeps (h : SdInv u image s) (hroom : Room u) (hchunk : Chunk u s.saved l)
    {mem : ℕ → BitVec 8}
    (hmem : ∀ a, ¬ (l.targetAddr ≤ a ∧ a < l.targetAddr + l.splitSize) → mem a = s.mem a) :
    (∀ i < s.saved, mem (u.regionStart + i) = image i) ∧
      ∀ i, s.saved ≤ i → mem (u.srcAddr + i) = image i := by
  have htarget := hchunk.target
  constructor
  · intro i hi
    rw [hmem _ (by omega)]
    exact h.copied i hi
  · intro i hi
    rw [hmem _ (hchunk.clear hroom hi)]
    exact h.source i hi

theorem SdInv.torn (h : SdInv u image s) (hroom : Room u) (garbage : ℕ → BitVec 8) :
    (∀ i < s.saved, s.torn garbage (u.regionStart + i) = image i) ∧
      ∀ i, s.saved ≤ i → s.torn garbage (u.srcAddr + i) = image i := by
  have hphase := h.phase
  unfold SdState.torn
  generalize s.phase = phase at hphase
  cases hphase with
  | copy hchunk =>
    apply h.keeps hroom hchunk
    intro a ha
    exact if_neg ha
  | boot | compare | save | failed | done => exact ⟨h.copied, h.source⟩

/-- **One operation.** -/
theorem SdInv.next (h : SdInv u image s) (hwhole : WholePages u) (hroom : Room u) :
    SdInv u image (s.next u) := by
  have hphase := h.phase
  unfold SdState.next
  generalize s.phase = phase at hphase ⊢
  -- The phases follow each other: what one leaves is what the next one needs.
  cases hphase with
  | boot =>
    show SdInv u image (s.begin u)
    unfold SdState.begin
    split
    · next hall =>
      exact ⟨h.same, h.offset_le, h.aligned, h.copied, h.source, h.compared,
        .done (h.same.symm.trans hall.2)⟩
    · next hall =>
      have hne : s.saved ≠ u.sdSize := fun heq =>
        hall ⟨Nat.ne_of_gt u.sdSize_pos, h.same.trans heq⟩
      have hlt : s.saved < u.sdSize := lt_of_le_of_ne h.offset_le hne
      have haligned := h.aligned.resolve_right hne
      refine ⟨h.same, h.offset_le, h.aligned, h.copied, h.source, h.compared, .copy ?_⟩
      show Chunk u s.saved (u.locals s.writeOffset)
      rw [h.same]
      exact chunk_locals hwhole hlt haligned
  | @copy l hchunk =>
    have hmem : ∀ a, ¬ (l.targetAddr ≤ a ∧ a < l.targetAddr + l.splitSize) →
        copySd l s.mem a = s.mem a := fun a ha => if_neg ha
    have hkeeps := h.keeps hroom hchunk hmem
    refine ⟨h.same, h.offset_le, h.aligned, hkeeps.1, hkeeps.2, h.compared, .compare hchunk ?_⟩
    intro i hi
    have htarget := hchunk.target
    have hin : l.targetAddr ≤ u.regionStart + (s.saved + i) ∧
        u.regionStart + (s.saved + i) < l.targetAddr + l.splitSize := by omega
    have hsrc : l.srcAddr + (u.regionStart + (s.saved + i) - l.targetAddr) =
        u.srcAddr + (s.saved + i) := by
      rw [hchunk.src]
      omega
    show copySd l s.mem (u.regionStart + (s.saved + i)) = _
    rw [copySd, if_pos hin, hsrc]
    exact h.source _ (Nat.le_add_right _ _)
  | @compare l hchunk hcopied =>
    -- The copy of the chunk is what the source holds, so the comparison goes on to the save.
    have hsame : SameChunk l s.mem := by
      intro i hi
      rw [hchunk.target, hchunk.src, Nat.add_assoc, Nat.add_assoc, hcopied i hi,
        h.source _ (Nat.le_add_right _ _)]
    have hoffset : l.targetAddr - u.regionStart = s.saved := by
      rw [hchunk.target]
      omega
    dsimp only
    rw [if_pos hsame, hoffset, if_pos h.compared]
    exact ⟨h.same, h.offset_le, h.aligned, h.copied, h.source, h.compared.trans (le_max_left _ _),
      .save hchunk hcopied (le_max_right _ _)⟩
  | @save l hchunk hcopied hcompared =>
    obtain ⟨hle, hmore, hend, hlast, hnext⟩ := hchunk.next
    have hall : ∀ i < s.saved + l.splitSize, s.mem (u.regionStart + i) = image i := by
      intro i hi
      by_cases hold : i < s.saved
      · exact h.copied i hold
      · have hnew := hcopied (i - s.saved) (by omega)
        rwa [Nat.add_sub_cancel' (Nat.le_of_not_lt hold)] at hnew
    show SdInv u image (s.save u l)
    -- The save moves the offset to the next chunk, or to the end with the last one.
    by_cases hleft : l.left > 0
    · obtain ⟨hoffset, hchunk'⟩ := hnext hleft
      have hsave : s.save u l = { s with
          writeOffset := s.saved + l.splitSize
          saved := s.saved + l.splitSize
          phase := .copy ⟨l.targetAddr + l.splitSize, l.srcAddr + l.splitSize, l.left,
            l.splitSize⟩ } := by
        unfold SdState.save
        rw [if_pos hleft, hoffset]
      rw [hsave]
      refine ⟨rfl, hoffset ▸ hend, .inl hchunk'.aligned, hall, ?_, hcompared, .copy hchunk'⟩
      intro i hi
      exact h.source i (Nat.le_trans (Nat.le_add_right _ _) hi)
    · have hoffset := hlast (Nat.eq_zero_of_not_pos hleft)
      have hsave : s.save u l = { s with
          writeOffset := u.sdSize
          saved := u.sdSize
          phase := .returned true } := by
        unfold SdState.save
        rw [if_neg hleft, hoffset]
      rw [hoffset] at hle hmore
      rw [hsave]
      refine ⟨rfl, le_rfl, .inr rfl, fun i hi => hall i (hi.trans_le hle), ?_, hle.trans hcompared,
        .done rfl⟩
      intro i hi
      exact h.source i (hmore.le.trans hi)
  | failed => exact h
  | done hall => exact h

/-- **Every event** keeps the invariant. -/
theorem SdInv.step (h : SdInv u image s) (hwhole : WholePages u) (hroom : Room u) (ev : SdEvent) :
    SdInv u image (s.step u ev) := by
  cases ev with
  | next => exact h.next hwhole hroom
  | copyFails garbage =>
    obtain ⟨hcopied, hsource⟩ := h.torn hroom garbage
    exact ⟨h.same, h.offset_le, h.aligned, hcopied, hsource, h.compared, .failed⟩
  | powerLost garbage =>
    obtain ⟨hcopied, hsource⟩ := h.torn hroom garbage
    exact ⟨rfl, h.offset_le, h.aligned, hcopied, hsource, h.compared, .boot⟩

theorem sdInv_of_reachable {mem : ℕ → BitVec 8} (hwhole : WholePages u) (hroom : Room u)
    (h : (sdMachine u mem).Reachable s) : SdInv u (fun i => mem (u.srcAddr + i)) s := by
  apply h.invariant
  · rintro _ rfl
    exact ⟨rfl, Nat.zero_le _, .inl (Nat.dvd_zero _), fun i hi => absurd hi (Nat.not_lt_zero i),
      fun _ _ => rfl, Nat.zero_le _, .boot⟩
  · exact fun _ ev hs _ _ => hs.step hwhole hroom ev

/-! ## §6 Termination -/

/-- How much is left to do. -/
def SdState.rank (u : SdUpdate) (s : SdState) : ℕ :=
  match s.phase with
  | .boot => 3 * (u.locals s.writeOffset).lengthLeft + 3
  | .copy l => 3 * l.lengthLeft + 2
  | .compare l => 3 * l.lengthLeft + 1
  | .save l => 3 * l.lengthLeft
  | .returned _ => 0

/-- **One operation** brings the return nearer. -/
theorem SdInv.rank_lt (h : SdInv u image s) :
    (∃ success, s.phase = .returned success) ∨ (∃ success, (s.next u).phase = .returned success) ∨
      (s.next u).rank u < s.rank u := by
  have hphase := h.phase
  unfold SdState.next SdState.rank
  generalize s.phase = phase at hphase ⊢
  cases hphase with
  | boot =>
    right
    show (∃ success, (s.begin u).phase = .returned success) ∨ _ < _
    unfold SdState.begin
    split
    · exact .inl ⟨true, rfl⟩
    · exact .inr (Nat.lt_succ_self _)
  | copy => exact .inr (.inr (Nat.lt_succ_self _))
  | compare =>
    right
    dsimp only
    split
    · exact .inr (Nat.lt_succ_self _)
    · exact .inl ⟨false, rfl⟩
  | @save l hchunk =>
    right
    obtain ⟨hlt, -⟩ := hchunk.left_lt
    show (∃ success, (s.save u l).phase = .returned success) ∨ _ < _
    unfold SdState.save
    by_cases hleft : l.left > 0
    · right
      dsimp only
      rw [if_pos hleft]
      show 3 * l.left + 2 < 3 * l.lengthLeft
      omega
    · exact .inl ⟨true, if_neg hleft⟩
  | failed => exact .inl ⟨false, rfl⟩
  | done => exact .inl ⟨true, rfl⟩

/-- **The function returns.** -/
theorem SdInv.returns (h : SdInv u image s) (hwhole : WholePages u) (hroom : Room u) :
    ∃ k success, ((SdState.next u)^[k] s).phase = .returned success := by
  induction hn : s.rank u using Nat.strong_induction_on generalizing s with
  | _ n ih =>
    rcases h.rank_lt with ⟨success, hreturned⟩ | ⟨success, hreturned⟩ | hlt
    · exact ⟨0, success, hreturned⟩
    · exact ⟨1, success, hreturned⟩
    · obtain ⟨k, success, hreturned⟩ := ih _ (hn ▸ hlt) (h.next hwhole hroom) rfl
      exact ⟨k + 1, success, hreturned⟩

theorem SdInv.progress (h : SdInv u image s) (hwhole : WholePages u) (hroom : Room u) :
    Progress u image s := by
  have hphase := h.phase
  refine ⟨⟨h.offset_le, h.same ▸ h.offset_le⟩, h.aligned, h.copied, h.compared, ?_, ?_,
    h.returns hwhole hroom⟩
  · intro l hl
    rw [hl] at hphase
    cases hphase with
    | save hchunk => exact hchunk.left_lt.2.trans (Nat.sub_le _ _)
  · intro hreturned
    rw [hreturned] at hphase
    cases hphase with
    | done hall => exact hall ▸ h.copied

/-! ## §7 Other sizes -/

/-- The state after the first chunk. -/
def afterChunk (u : SdUpdate) (mem : ℕ → BitVec 8) : SdState :=
  (SdState.next u)^[4] ⟨mem, 0, 0, .boot, 0⟩

theorem reachable_afterChunk (u : SdUpdate) (mem : ℕ → BitVec 8) :
    (sdMachine u mem).Reachable (afterChunk u mem) := by
  have hstart : (sdMachine u mem).Reachable ⟨mem, 0, 0, .boot, 0⟩ := .start rfl
  have hnext : ∀ {s}, (sdMachine u mem).Reachable s → (sdMachine u mem).Reachable (s.next u) :=
    fun h => Machine.ReachableUnder.step (a := SdEvent.next) h trivial trivial
  exact hnext (hnext (hnext (hnext hstart)))

/-- **The offset after the first chunk.** -/
theorem saved_afterChunk (hroom : Room u) (mem : ℕ → BitVec 8) :
    (afterChunk u mem).saved = sub32 u.sdSize (u.locals 0).left ∧
      (afterChunk u mem).mem = copySd (u.locals 0) mem := by
  obtain ⟨l, hl⟩ : ∃ l, l = u.locals 0 := ⟨_, rfl⟩
  have htarget : l.targetAddr = u.regionStart := hl ▸ rfl
  have hsrc : l.srcAddr = u.srcAddr := hl ▸ rfl
  have hspace : u.regionStart + l.splitSize ≤ u.srcAddr := hl ▸ hroom.2
  have hsize := u.sdSize_pos
  have hsame : SameChunk l (copySd l mem) := by
    intro i hi
    have hout : ¬ (l.targetAddr ≤ l.srcAddr + i ∧ l.srcAddr + i < l.targetAddr + l.splitSize) := by
      omega
    have hin : l.targetAddr ≤ l.targetAddr + i ∧ l.targetAddr + i < l.targetAddr + l.splitSize := by
      omega
    unfold copySd
    rw [if_neg hout, if_pos hin, Nat.add_sub_cancel_left]
  have h1 : SdState.next u ⟨mem, 0, 0, .boot, 0⟩ = ⟨mem, 0, 0, .copy l, 0⟩ := by
    have hstart : ¬ (u.sdSize ≠ 0 ∧ 0 = u.sdSize) := by omega
    unfold SdState.next SdState.begin
    dsimp only
    rw [if_neg hstart, hl]
  have h2 : SdState.next u ⟨mem, 0, 0, .copy l, 0⟩ = ⟨copySd l mem, 0, 0, .compare l, 0⟩ := rfl
  obtain ⟨s₃, hs₃⟩ : ∃ s₃, s₃ = SdState.next u ⟨copySd l mem, 0, 0, .compare l, 0⟩ := ⟨_, rfl⟩
  have h3 : s₃.phase = .save l ∧ s₃.mem = copySd l mem := by
    rw [hs₃]
    unfold SdState.next
    dsimp only
    rw [if_pos hsame]
    exact ⟨rfl, rfl⟩
  have h4 : afterChunk u mem = s₃.save u l := by
    show SdState.next u (SdState.next u (SdState.next u (SdState.next u _))) = _
    rw [h1, h2, ← hs₃, SdState.next, h3.1]
  rw [h4, ← hl]
  unfold SdState.save
  exact ⟨rfl, h3.2⟩

/-- **Where pages are missing**: the first offset that is saved is in the middle of a page; or, for
    a size of which the alignment wraps, nothing is copied at all. -/
theorem wholePages_of_progress (hroom : Room u)
    (h : ∀ mem s, (sdMachine u mem).Reachable s → Progress u (fun i => mem (u.srcAddr + i)) s) :
    WholePages u := by
  have hpage := four_le_page u
  have hpage' := page_le_half u
  have hsize := u.sdSize_lt
  have hpos := u.sdSize_pos
  have hsub : sub32 u.sdSize 0 = u.sdSize := sub32_of_le (Nat.zero_le _) hsize
  have hlength : (u.locals 0).lengthLeft = u.align u.sdSize := by rw [← hsub]; rfl
  by_contra hno
  unfold WholePages at hno
  by_cases hsmall : u.sdSize + u.page ≤ 2 ^ 32
  · obtain ⟨hpages, hge, hlt⟩ := align_spec hsmall
    rw [← hlength] at hpages hge hlt
    have hsplitRoom : (u.locals 0).lengthLeft / 4 + u.page ≤ 2 ^ 32 := by omega
    obtain ⟨hsplitPages, hsplitGe, hsplitLt⟩ := align_spec hsplitRoom
    obtain ⟨l, hl⟩ : ∃ l, l = u.locals 0 := ⟨_, rfl⟩
    have hsplit : u.align (l.lengthLeft / 4) = l.splitSize := by
      rw [hl]
      rfl
    rw [← hl, hsplit] at hsplitGe hsplitLt hsplitPages
    rw [← hl] at hpages hge hlt
    -- With one page at most there would be nothing to split.
    have htwo : 2 * u.page ≤ l.lengthLeft := by
      by_contra hone
      have heq := eq_page hpages (by omega) (by omega)
      exact hno (.inr (by omega))
    have hsplitPos : u.page ≤ l.splitSize := page_le_of_dvd hsplitPages (by omega)
    have hleft : l.left = l.lengthLeft - l.splitSize := if_neg (by omega)
    -- After the first chunk the offset saved must be at the start of a page.
    have hprogress := (h (fun _ => 0) _ (reachable_afterChunk u _)).aligned
    rw [(saved_afterChunk hroom _).1, ← hl, sub32_of_le (by omega) hsize] at hprogress
    rcases hprogress with hdvd | hend
    · have hleftPages : u.page ∣ l.left := hleft ▸ Nat.dvd_sub hpages hsplitPages
      have hall := Nat.dvd_add hdvd hleftPages
      rw [Nat.sub_add_cancel (by omega)] at hall
      exact hno (.inl hall)
    · omega
  · -- `align_to_page` wraps to 0: there is nothing left, and all counts as copied
    have hzero : (u.locals 0).lengthLeft = 0 := by
      rw [hlength, SdUpdate.align, Nat.div_eq_of_lt (by omega), Nat.zero_mul]
    have hsplit : (u.locals 0).splitSize = 0 := by
      show u.align ((u.locals 0).lengthLeft / 4) = 0
      rw [hzero, SdUpdate.align, Nat.div_eq_of_lt (by omega), Nat.zero_mul]
    have hleft : (u.locals 0).left = 0 := by
      rw [SdLocals.left, hsplit, hzero, if_neg (Nat.lt_irrefl 0)]
    obtain ⟨mem, hmem⟩ : ∃ mem : ℕ → BitVec 8, mem = fun a => if a = u.regionStart then 1 else 0 :=
      ⟨_, rfl⟩
    obtain ⟨hsaved, hcopy⟩ := saved_afterChunk hroom mem
    have hcopied := (h mem _ (reachable_afterChunk u mem)).copied 0
    rw [hsaved, hleft, hsub, hcopy] at hcopied
    have hbyte := hcopied (by omega)
    have hout : ¬ ((u.locals 0).targetAddr ≤ u.regionStart + 0 ∧
        u.regionStart + 0 < (u.locals 0).targetAddr + (u.locals 0).splitSize) := by
      have htarget : (u.locals 0).targetAddr = u.regionStart := rfl
      omega
    rw [copySd, if_neg hout, hmem] at hbyte
    simp at hbyte
    exact Nat.ne_of_gt hroom.1 hbyte

/-- **The copy of a SoftDevice makes progress in every run** if and only if it is made of whole pages,
    or has one page at most. -/
theorem progress_iff (u : SdUpdate) (hroom : Room u) :
    (∀ mem s, (sdMachine u mem).Reachable s → Progress u (fun i => mem (u.srcAddr + i)) s) ↔
      WholePages u := by
  constructor
  · exact wholePages_of_progress hroom
  · intro hwhole mem s hs
    exact (sdInv_of_reachable hwhole hroom hs).progress hwhole hroom

/-- A SoftDevice of three pages and `rest` bytes. -/
def threePages (rest : Fin 4096) : SdUpdate where
  pageBits := 12
  two_le_pageBits := by decide
  pageBits_lt := by decide
  regionStart := 0x1000
  srcAddr := 0x20000
  sdSize := 12288 + rest
  sdSize_pos := by omega
  sdSize_lt := by omega

theorem progress_threePages :
    Progress (threePages 0) (fun _ => 0) (afterChunk (threePages 0) fun _ => 0) :=
  (progress_iff (threePages 0) (by decide)).mpr (by decide) (fun _ => 0) _
    (reachable_afterChunk _ _)

/-- **100 bytes more**: 100 is saved after the first chunk, which was a page. -/
theorem not_progress_rest : ∃ s, (sdMachine (threePages 100) fun _ => 0).Reachable s ∧
    s.saved = 100 ∧ ¬ Progress (threePages 100) (fun _ => 0) s := by
  refine ⟨_, reachable_afterChunk _ _, ?_, ?_⟩
  · rw [(saved_afterChunk (by decide) _).1]
    decide
  · intro h
    have haligned := h.aligned
    rw [(saved_afterChunk (by decide) _).1] at haligned
    revert haligned
    decide

end NordicEsb.Dfu
