import NordicEsb.Dfu.Continue
import Mathlib.Tactic.Ring
import Mathlib.Logic.Function.Iterate

/-!
# Power Loss during Activation

An application is being copied from bank 1 to bank 0, and power is lost. While the source of the
first page has not been erased, nothing is lost: the copy begins again. When the banks have been
marked, nothing is left to do. In between, `nrf_dfu_app_continue` does not find its way: it goes on
in the target at `write_offset`, but at the first page of the source, which is erased.

A page is also programmed with four times its size, as the length in bytes is taken for a length in
words. What is programmed behind the target page does no harm as long as it does not reach the
source page.

- `Update` is where an update begins
- `UpdateInv` says for each phase which words are in bank 0, and which are still in bank 1

**Main result**: `activates_of_reachable`.
-/

namespace NordicEsb.Dfu

variable {p : Platform}

/-! ## §1 Updates -/

/-- A new application is in bank 1. -/
structure Update (p : Platform) where
  flash : Flash 32
  settings : NrfDfuSettings
  dual : settings.bankLayout = .dual
  current : settings.bankCurrent = .bank1
  validApp : settings.bank1.bankCode = .validApp
  size_pos : 1 ≤ settings.bank1.imageSize
  writeOffset : settings.writeOffset = 0
  /-- The checksum of the image in bank 1 matches. -/
  crc : crc32Compute flash (p.mainApplicationStartAddr +
    alignToPage settings.bank0.imageSize p.codePageSize) settings.bank1.imageSize =
      settings.bank1.imageCrc

namespace Update

variable (u : Update p)

/-- The size of the new application. -/
def size : ℕ := u.settings.bank1.imageSize

/-- The first word of bank 0. -/
def main (_u : Update p) : ℕ := p.mainPage * p.pageWords

/-- The pages of the old application. -/
def oldPages : ℕ := (u.settings.bank0.imageSize + p.codePageSize - 1) / p.codePageSize

/-- The words of these pages: bank 1 begins behind them. -/
def gap : ℕ := u.oldPages * p.pageWords

/-- The words of the new application. -/
def words : ℕ := (u.size + 3) / 4

/-- Its pages. -/
def pages : ℕ := (u.size + p.codePageSize - 1) / p.codePageSize

/-- Word `i` of the new application. -/
def image (i : ℕ) : BitVec 32 := u.flash (u.main + u.gap + i)

/-- What is programmed behind a page does not reach the source. -/
def Roomy : Prop :=
  4 * min u.size p.codePageSize ≤ alignToPage u.settings.bank0.imageSize p.codePageSize

/-- The first `n` words are in bank 0. -/
def Copied (f : Flash 32) (n : ℕ) : Prop := ∀ i < u.words, i < n → f (u.main + i) = u.image i

/-- The words from `n` on are in bank 1. -/
def Intact (f : Flash 32) (n : ℕ) : Prop :=
  ∀ i < u.words, n ≤ i → f (u.main + u.gap + i) = u.image i

/-- The new application is in bank 0. -/
def Complete (f : Flash 32) : Prop := ∀ i < u.words, f (u.main + i) = u.image i

/-- Nothing is written but the pages of bank 0 and of the image in bank 1. -/
def Outside (f : Flash 32) : Prop :=
  ∀ x, x < u.main ∨ u.main + u.gap + u.pages * p.pageWords ≤ x → f x = u.flash x

/-- The settings after `w` words. -/
def settingsAt (w : ℕ) : NrfDfuSettings := { u.settings with writeOffset := 4 * w }

/-- The settings after all of them. -/
def settingsEnd : NrfDfuSettings := { u.settings with writeOffset := u.size }

/-- The settings when the banks have been marked. -/
def settingsDone : NrfDfuSettings :=
  nrfDfuInvalidateBank1 { u.settingsEnd with
    bank0 := ⟨u.size, u.settings.bank1.imageCrc, .validApp⟩ }

/-- The local variables after `w` words. -/
def localsAt (w : ℕ) : Locals where
  targetAddr := 4 * (u.main + w)
  srcAddr := 4 * (u.main + u.gap + w)
  lengthLeft := u.size - 4 * w

end Update

/-! ## §2 Runs -/

/-- The device from the beginning of an update on. -/
def machine (u : Update p) : Machine State Event where
  start s := s = ⟨u.flash, u.settings, u.settings, .start⟩
  enabled _ _ := True
  step := step p

/-- The first page of the source has not been erased. -/
def BeforeErase (s : State) : Prop :=
  s.saved.writeOffset = 0 ∧
    match s.phase with
    | .start | .eraseTarget _ | .store _ | .eraseSource _ => True
    | _ => False

/-- **The condition**: power is lost before the first page of the source is erased, or when the
    banks have been marked. -/
def PowerOk (s : State) : Event → Prop
  | .next => True
  | .powerLost => BeforeErase s ∨ s.saved.bankCurrent = .bank0

/-- **The update survives.** -/
structure Activates (u : Update p) (s : State) : Prop where
  /-- Every word is in bank 1 or in bank 0. -/
  safe : ∀ i < u.words, s.flash (u.main + i) = u.image i ∨
    s.flash (u.main + u.gap + i) = u.image i
  /-- Bank 1 is not invalidated before bank 0 is complete. -/
  marked : s.saved.bank1.bankCode ≠ .validApp ∨ s.settings.bank1.bankCode ≠ .validApp →
    u.Complete s.flash
  outside : u.Outside s.flash
  /-- When `nrf_dfu_continue` has returned, bank 0 is valid, and holds the image. -/
  returned : ∀ ret, s.phase = .returned ret →
    ret = .success ∧ s.saved.bank0 = ⟨u.size, u.settings.bank1.imageCrc, .validApp⟩ ∧
      u.Complete s.flash
  /-- It does return. -/
  returns : ∃ n, ((State.next p)^[n] s).phase = .returned .success

/-! ## §3 The invariant -/

/-- After `w` words, a number of whole pages. -/
structure Copying (u : Update p) (s : State) (w : ℕ) : Prop where
  page : ∃ k, w = k * p.pageWords
  lt : 4 * w < u.size
  saved : s.saved = u.settingsAt w
  settings : s.settings = u.settingsAt w
  copied : u.Copied s.flash w
  intact : u.Intact s.flash w
  outside : u.Outside s.flash

/-- The source page has been erased. -/
structure Moved (u : Update p) (s : State) (w : ℕ) : Prop where
  page : ∃ k, w = k * p.pageWords
  lt : 4 * w < u.size
  saved : s.saved = u.settingsAt w
  settings : s.settings = u.settingsAt w
  copied : u.Copied s.flash (w + p.pageWords)
  intact : u.Intact s.flash (w + p.pageWords)
  outside : u.Outside s.flash

/-- The banks have been marked. -/
structure Done (u : Update p) (s : State) : Prop where
  saved : s.saved = u.settingsDone
  settings : s.settings = u.settingsDone
  complete : u.Complete s.flash
  outside : u.Outside s.flash

/-- All words have been copied. -/
structure Ending (u : Update p) (s : State) : Prop where
  saved : s.saved = u.settingsEnd
  settings : s.settings = u.settingsEnd
  complete : u.Complete s.flash
  outside : u.Outside s.flash

/-- **The invariant.** -/
def UpdateInv (u : Update p) (s : State) : Prop :=
  match s.phase with
  | .start => Copying u s 0 ∨ Done u s
  | .eraseTarget l => ∃ w, l = u.localsAt w ∧ Copying u s w
  | .store l => ∃ w, l = u.localsAt w ∧ Copying u s w ∧
    s.flash.ErasedOn (u.main + w) (u.main + w + p.pageWords)
  | .eraseSource l => ∃ w, l = u.localsAt w ∧ Copying u s w ∧ u.Copied s.flash (w + p.pageWords)
  | .saveOffset l => ∃ w, l = u.localsAt w ∧ Moved u s w
  | .finish => Ending u s
  | .returned ret => ret = .success ∧ Done u s
  | .other => False

/-- What is left to do. -/
def work (u : Update p) (s : State) : ℕ :=
  match s.phase with
  | .start => 4 * u.size + 6
  | .eraseTarget l => 4 * l.lengthLeft + 5
  | .store l => 4 * l.lengthLeft + 4
  | .eraseSource l => 4 * l.lengthLeft + 3
  | .saveOffset l => 4 * l.lengthLeft + 2
  | .finish => 1
  | .returned _ | .other => 0

/-! ## §4 Pages and words -/

section Words

variable {u : Update p} {s : State} {w : ℕ} (hroom : u.Roomy)

theorem codePageSize_pos (p : Platform) : 0 < p.codePageSize := by
  have hpos := p.pageWords_pos
  unfold Platform.codePageSize
  omega

theorem alignToPage_eq (u : Update p) :
    alignToPage u.settings.bank0.imageSize p.codePageSize = 4 * u.gap := by
  unfold alignToPage Update.gap Update.oldPages Platform.codePageSize
  ring

theorem mainApplicationStartAddr_eq (u : Update p) : p.mainApplicationStartAddr = 4 * u.main := by
  unfold Platform.mainApplicationStartAddr Update.main Platform.codePageSize
  ring

theorem main_pos (u : Update p) : 0 < u.main :=
  Nat.mul_pos p.mainPage_pos p.pageWords_pos

include hroom in
/-- At most the words of the gap are programmed. -/
theorem curLen_le (w : ℕ) : (u.localsAt w).curLen p ≤ u.gap := by
  have hsize := alignToPage_eq u
  unfold Update.Roomy at hroom
  have hmin : (u.localsAt w).curLen p ≤ min u.size p.codePageSize := by
    unfold Locals.curLen Update.localsAt
    dsimp only
    split_ifs
    · omega
    · omega
  omega

include hroom in
/-- The source page is not the target page. -/
theorem pageWords_le_gap : p.pageWords ≤ u.gap := by
  have hpos : 0 < u.gap := by
    have hsize := alignToPage_eq u
    have hone := u.size_pos
    have hpage := codePageSize_pos p
    unfold Update.Roomy Update.size at hroom
    omega
  have hold : 0 < u.oldPages := Nat.pos_of_mul_pos_right hpos
  exact Nat.le_mul_of_pos_left _ hold

/-- The image ends in its last page. -/
theorem size_le_pages (u : Update p) : u.size ≤ u.pages * p.codePageSize := by
  have hdiv := Nat.lt_mul_div_succ (u.size + p.codePageSize - 1) (codePageSize_pos p)
  have hcomm := Nat.mul_comm u.pages p.codePageSize
  have hone := u.size_pos
  unfold Update.pages at hcomm ⊢
  rw [Nat.mul_add, Nat.mul_one] at hdiv
  omega

/-- A page that begins in the image is one of its pages. -/
theorem page_le {k : ℕ} (hlt : 4 * (k * p.pageWords) < u.size) :
    k * p.pageWords + p.pageWords ≤ u.pages * p.pageWords := by
  have hsize := size_le_pages u
  have hpages : u.pages * p.codePageSize = 4 * (u.pages * p.pageWords) := by
    unfold Platform.codePageSize
    ring
  have hk : k < u.pages := by
    by_contra hge
    have hmul := Nat.mul_le_mul_right p.pageWords (Nat.le_of_not_lt hge)
    omega
  have hmul := Nat.mul_le_mul_right p.pageWords (Nat.succ_le_of_lt hk)
  rw [Nat.succ_mul] at hmul
  exact hmul

/-- The target of a page is aligned. -/
theorem target_aligned (hpage : ∃ k, w = k * p.pageWords) :
    4 * (u.main + w) % p.codePageSize = 0 := by
  obtain ⟨k, rfl⟩ := hpage
  have heq : 4 * (u.main + k * p.pageWords) = (p.mainPage + k) * p.codePageSize := by
    unfold Update.main Platform.codePageSize
    ring
  rw [heq]
  exact Nat.mul_mod_left _ _

/-- And so is its source. -/
theorem source_aligned (hpage : ∃ k, w = k * p.pageWords) :
    4 * (u.main + u.gap + w) % p.codePageSize = 0 := by
  obtain ⟨k, rfl⟩ := hpage
  have heq : 4 * (u.main + u.gap + k * p.pageWords) =
      (p.mainPage + u.oldPages + k) * p.codePageSize := by
    unfold Update.main Update.gap Platform.codePageSize
    ring
  rw [heq]
  exact Nat.mul_mod_left _ _

end Words

/-! ## §5 Steps -/

variable {u : Update p} {s : State} {w : ℕ}

/-- **The target page is erased.** -/
theorem copying_eraseTarget (hroom : u.Roomy) (h : Copying u s w) :
    UpdateInv u (stepEraseTarget p (u.localsAt w) s) := by
  have hgap := pageWords_le_gap hroom
  have hword : 4 * (u.main + w) / 4 = u.main + w := by omega
  have hstep : stepEraseTarget p (u.localsAt w) s =
      { s with flash := s.flash.erase (u.main + w) p.pageWords, phase := .store (u.localsAt w) } := by
    unfold stepEraseTarget nrfDfuFlashErase
    have htarget : (u.localsAt w).targetAddr = 4 * (u.main + w) := rfl
    rw [htarget, target_aligned h.page, hword, Nat.one_mul]
    rfl
  rw [hstep]
  obtain ⟨k, hk⟩ := h.page
  have hend : w + p.pageWords ≤ u.pages * p.pageWords := by
    rw [hk]
    exact page_le (hk ▸ h.lt)
  -- The page is behind what is copied and in front of the source.
  refine ⟨w, rfl, ⟨h.page, h.lt, h.saved, h.settings, fun i hi hiw => ?_, fun i hi hwi => ?_,
    fun x hx => ?_⟩, Flash.erasedOn_erase _ _ _⟩
  · rw [← h.copied i hi hiw]
    exact (if_neg (by omega))
  · rw [← h.intact i hi hwi]
    exact (if_neg (by omega))
  · rw [← h.outside x hx]
    exact (if_neg (by omega))

/-- **The page is programmed**, and found equal. -/
theorem copying_store (hroom : u.Roomy) (h : Copying u s w)
    (herased : s.flash.ErasedOn (u.main + w) (u.main + w + p.pageWords)) :
    UpdateInv u (stepStore p (u.localsAt w) s) := by
  have hgap := pageWords_le_gap hroom
  have hpage := codePageSize_pos p
  have hlt := h.lt
  have hmain := main_pos u
  obtain ⟨c, hc⟩ : ∃ c, c = (u.localsAt w).curLen p := ⟨_, rfl⟩
  have hcgap : c ≤ u.gap := hc ▸ curLen_le hroom w
  have hcur : c = min p.codePageSize (u.size - 4 * w) := by
    rw [hc]
    unfold Locals.curLen Update.localsAt
    dsimp only
    split_ifs
    · omega
    · omega
  have hpageSize : p.codePageSize = 4 * p.pageWords := rfl
  have hwords : u.words = (u.size + 3) / 4 := rfl
  -- The target lies below the source.
  have hcopy := fun x => Flash.copy_apply (f := s.flash) (a := u.main + w)
    (b := u.main + u.gap + w) (n := c) (by omega) x
  obtain ⟨f, hf⟩ : ∃ f, f = s.flash.copy (u.main + w) (u.main + u.gap + w) c := ⟨_, rfl⟩
  rw [← hf] at hcopy
  have hbelow : ∀ x, x < u.main + w → f x = s.flash x := by
    intro x hx
    rw [hcopy, if_neg (by omega)]
  have habove : ∀ x, u.main + u.gap + w ≤ x → f x = s.flash x := by
    intro x hx
    rw [hcopy, if_neg (by omega)]
  have hintact : u.Intact f w := by
    intro i hi hwi
    rw [habove _ (by omega), h.intact i hi hwi]
  -- On the page, which is erased, the copy programs the words of the image.
  have hcopied : u.Copied f (w + p.pageWords) := by
    intro i hi hiw
    by_cases hnew : w ≤ i
    · have hin : u.main + w ≤ u.main + i ∧ u.main + i < u.main + w + c := by omega
      have hsrc : u.main + u.gap + w + (u.main + i - (u.main + w)) = u.main + u.gap + i := by omega
      rw [hcopy, if_pos hin, herased _ (by omega) (by omega), BitVec.allOnes_and, hsrc,
        h.intact i hi hnew]
    · rw [hbelow _ (by omega), h.copied i hi (by omega)]
  -- Target and source read the same, so the comparison succeeds.
  have hread : f.read (u.main + w) (c / 4) = f.read (u.main + u.gap + w) (c / 4) := by
    apply List.map_congr_left
    intro j hj
    have hj := List.mem_range.mp hj
    have hleft := hcopied (w + j) (by omega) (by omega)
    have hright := hintact (w + j) (by omega) (by omega)
    rw [Nat.add_assoc, hleft, Nat.add_assoc (u.main + u.gap), hright]
  have hstep : stepStore p (u.localsAt w) s =
      { s with flash := f, phase := .eraseSource (u.localsAt w) } := by
    have hstore : nrfDfuFlashStore (4 * (u.main + w)) (4 * (u.main + u.gap + w)) c s.flash =
        (.success, f) := by
      unfold nrfDfuFlashStore
      rw [if_neg (by omega), if_neg (by omega), if_neg (by omega), hf]
      congr 2
      · omega
      · omega
    have hcompare : nrfDfuMbrCompare p (4 * (u.main + w)) (4 * (u.main + u.gap + w)) c f =
        .success := by
      have htarget : 4 * (u.main + w) / 4 = u.main + w := by omega
      have hsource : 4 * (u.main + u.gap + w) / 4 = u.main + u.gap + w := by omega
      unfold nrfDfuMbrCompare
      rw [htarget, hsource, hread, p.mbrCompare_self]
      rfl
    unfold stepStore
    rw [← hc]
    have htarget : (u.localsAt w).targetAddr = 4 * (u.main + w) := rfl
    have hsource : (u.localsAt w).srcAddr = 4 * (u.main + u.gap + w) := rfl
    rw [htarget, hsource, hstore]
    dsimp only
    rw [hcompare]
    rfl
  rw [hstep]
  obtain ⟨k, hk⟩ := h.page
  have hend : w + p.pageWords ≤ u.pages * p.pageWords := by
    rw [hk]
    exact page_le (hk ▸ h.lt)
  refine ⟨w, rfl, ⟨h.page, h.lt, h.saved, h.settings, fun i hi hiw => hcopied i hi (by omega),
    hintact, fun x hx => ?_⟩, hcopied⟩
  rw [← h.outside x hx]
  rcases hx with hx | hx
  · exact hbelow x (by omega)
  · exact habove x (by omega)

/-- **The source page is erased.** -/
theorem copying_eraseSource (hroom : u.Roomy) (h : Copying u s w)
    (hcopied : u.Copied s.flash (w + p.pageWords)) :
    UpdateInv u (stepEraseSource p (u.localsAt w) s) := by
  have hgap := pageWords_le_gap hroom
  have hword : 4 * (u.main + u.gap + w) / 4 = u.main + u.gap + w := by omega
  have hstep : stepEraseSource p (u.localsAt w) s =
      { s with
        flash := s.flash.erase (u.main + u.gap + w) p.pageWords
        phase := .saveOffset (u.localsAt w) } := by
    unfold stepEraseSource nrfDfuFlashErase
    have hsource : (u.localsAt w).srcAddr = 4 * (u.main + u.gap + w) := rfl
    rw [hsource, source_aligned h.page, hword, Nat.one_mul]
    rfl
  rw [hstep]
  obtain ⟨k, hk⟩ := h.page
  have hend : w + p.pageWords ≤ u.pages * p.pageWords := by
    rw [hk]
    exact page_le (hk ▸ h.lt)
  refine ⟨w, rfl, h.page, h.lt, h.saved, h.settings, fun i hi hiw => ?_, fun i hi hwi => ?_,
    fun x hx => ?_⟩
  · rw [← hcopied i hi hiw]
    exact (if_neg (by omega))
  · rw [← h.intact i hi (by omega)]
    exact (if_neg (by omega))
  · rw [← h.outside x hx]
    exact (if_neg (by omega))

/-- **The progress is saved.** -/
theorem moved_saveOffset (h : Moved u s w) :
    UpdateInv u (stepSaveOffset p (u.localsAt w) s) ∧
      work u (stepSaveOffset p (u.localsAt w) s) < 4 * (u.localsAt w).lengthLeft + 2 := by
  have hlt := h.lt
  have hpos := p.pageWords_pos
  have hpageSize : p.codePageSize = 4 * p.pageWords := rfl
  have hwords : u.words = (u.size + 3) / 4 := rfl
  have hleft : (u.localsAt w).lengthLeft = u.size - 4 * w := rfl
  by_cases hmore : u.size - 4 * w > p.codePageSize
  -- A whole page was moved and more is left: the next round begins behind it.
  · have hcur : (u.localsAt w).curLen p = p.codePageSize := if_pos hmore
    have hstep : stepSaveOffset p (u.localsAt w) s =
        { s with
          settings := u.settingsAt (w + p.pageWords)
          saved := u.settingsAt (w + p.pageWords)
          phase := .eraseTarget (u.localsAt (w + p.pageWords)) } := by
      have hlocals : (⟨(u.localsAt w).targetAddr + p.codePageSize,
          (u.localsAt w).srcAddr + p.codePageSize, (u.localsAt w).lengthLeft - p.codePageSize⟩ :
          Locals) = u.localsAt (w + p.pageWords) := by
        unfold Update.localsAt
        congr 1
        · dsimp only
          omega
        · dsimp only
          omega
        · dsimp only
          omega
      have hoffset : 4 * w + p.codePageSize = 4 * (w + p.pageWords) := by omega
      have hsettings : { s.settings with
          writeOffset := s.settings.writeOffset + p.codePageSize } =
            u.settingsAt (w + p.pageWords) := by
        rw [h.settings]
        unfold Update.settingsAt
        dsimp only
        rw [hoffset]
      have hgoes : (u.localsAt w).lengthLeft - p.codePageSize > 0 := by
        rw [hleft]
        omega
      unfold stepSaveOffset
      rw [hcur]
      dsimp only
      rw [if_pos hgoes, hlocals, hsettings]
    rw [hstep]
    obtain ⟨k, hk⟩ := h.page
    refine ⟨⟨_, rfl, ⟨k + 1, ?_⟩, by omega, rfl, rfl, h.copied, h.intact, h.outside⟩, ?_⟩
    · rw [hk, Nat.succ_mul]
    · show 4 * (u.size - 4 * (w + p.pageWords)) + 5 < _
      omega
  -- That was the last part of the image.
  · have hcur : (u.localsAt w).curLen p = u.size - 4 * w := if_neg hmore
    have hstep : stepSaveOffset p (u.localsAt w) s =
        { s with settings := u.settingsEnd, saved := u.settingsEnd, phase := .finish } := by
      have hoffset : 4 * w + (u.size - 4 * w) = u.size := by omega
      have hsettings : { s.settings with
          writeOffset := s.settings.writeOffset + (u.size - 4 * w) } = u.settingsEnd := by
        rw [h.settings]
        unfold Update.settingsAt Update.settingsEnd
        dsimp only
        rw [hoffset]
      unfold stepSaveOffset
      rw [hcur]
      dsimp only
      rw [hsettings, hleft, Nat.sub_self, if_neg (Nat.lt_irrefl 0)]
    rw [hstep]
    refine ⟨⟨rfl, rfl, fun i hi => h.copied i hi (by omega), h.outside⟩, ?_⟩
    show 1 < _
    omega

/-- The checksum of a complete copy is that of the image. -/
theorem crc_of_complete (h : u.Complete s.flash) :
    crc32Compute s.flash p.mainApplicationStartAddr u.size = u.settings.bank1.imageCrc := by
  have hcrc := u.crc
  rw [alignToPage_eq u, mainApplicationStartAddr_eq u] at hcrc
  rw [← hcrc, mainApplicationStartAddr_eq u]
  unfold crc32Compute
  congr 1
  apply List.foldl_ext
  intro crc i hi
  have hi := List.mem_range.mp hi
  have hwords : u.words = (u.size + 3) / 4 := rfl
  have hword : s.flash (u.main + i / 4) = u.flash (u.main + u.gap + i / 4) :=
    h (i / 4) (by omega)
  have htarget : (4 * u.main + i) / 4 = u.main + i / 4 := by omega
  have hsource : (4 * u.main + 4 * u.gap + i) / 4 = u.main + u.gap + i / 4 := by omega
  have htargetMod : (4 * u.main + i) % 4 = i % 4 := by omega
  have hsourceMod : (4 * u.main + 4 * u.gap + i) % 4 = i % 4 := by omega
  unfold byteAt
  rw [htarget, hsource, htargetMod, hsourceMod, hword]

/-- **The banks are marked.** -/
theorem ending_finish (h : Ending u s) : UpdateInv u (stepFinish p s) := by
  have hcrc : crc32Compute s.flash p.mainApplicationStartAddr s.settings.bank1.imageSize =
      u.settings.bank1.imageCrc := by
    rw [h.settings]
    exact crc_of_complete h.complete
  have hdone : (stepFinish p s).settings = u.settingsDone := by
    have hbank : s.settings.bank1.imageCrc = u.settings.bank1.imageCrc := by
      rw [h.settings]
      rfl
    unfold stepFinish
    dsimp only
    rw [hcrc, hbank, if_pos rfl, h.settings]
    rfl
  exact ⟨rfl, hdone, hdone, h.complete, h.outside⟩

/-- **An update begins**, or is over. -/
theorem updateInv_start (h : Copying u s 0 ∨ Done u s) :
    UpdateInv u (nrfDfuContinue p s) ∧ work u (nrfDfuContinue p s) < 4 * u.size + 6 := by
  rcases h with h | h
  -- Bank 1 holds a valid image and is current, so the copy begins.
  · have hstep : nrfDfuContinue p s = { s with phase := .eraseTarget (u.localsAt 0) } := by
      have hlayout : ¬ s.settings.bankLayout = .single := by
        rw [h.settings]
        show ¬ u.settings.bankLayout = .single
        rw [u.dual]
        decide
      have hcurrent : s.settings.bankCurrent = .bank1 := by
        rw [h.settings]
        exact u.current
      have hcode : s.settings.bank1.bankCode = .validApp := by
        rw [h.settings]
        exact u.validApp
      have hold : s.settings.bank0 = u.settings.bank0 := by
        rw [h.settings]
        rfl
      have hsize : s.settings.bank1.imageSize = u.size := by
        rw [h.settings]
        rfl
      have hoffset : s.settings.writeOffset = 0 := by
        rw [h.settings]
        rfl
      unfold nrfDfuContinue
      rw [if_neg hlayout, hcurrent, if_neg (by decide), hold, alignToPage_eq u,
        mainApplicationStartAddr_eq u]
      unfold nrfDfuContinueBank
      rw [hcode]
      dsimp only
      rw [if_pos hcurrent]
      unfold appContinue
      rw [hoffset, hsize, mainApplicationStartAddr_eq u]
      unfold Update.localsAt
      dsimp only
      congr 3
      omega
    rw [hstep]
    refine ⟨⟨0, rfl, h.page, h.lt, h.saved, h.settings, h.copied, h.intact, h.outside⟩, ?_⟩
    show 4 * (u.size - 4 * 0) + 5 < _
    omega
  -- Bank 0 is current: there is nothing to continue.
  · have hstep : nrfDfuContinue p s = { s with phase := .returned .success } := by
      have hlayout : ¬ s.settings.bankLayout = .single := by
        rw [h.settings]
        show ¬ BankLayout.dual = .single
        decide
      have hcurrent : s.settings.bankCurrent = .bank0 := by
        rw [h.settings]
        rfl
      have hcode : s.settings.bank0.bankCode = .validApp := by
        rw [h.settings]
        rfl
      unfold nrfDfuContinue
      rw [if_neg hlayout, if_pos hcurrent]
      unfold nrfDfuContinueBank
      rw [hcode]
      dsimp only
      rw [if_neg (by rw [hcurrent]; decide)]
    rw [hstep]
    refine ⟨⟨rfl, h.saved, h.settings, h.complete, h.outside⟩, ?_⟩
    show 0 < _
    omega

/-- The operations on a page come one after the other. -/
theorem work_stepEraseTarget (u : Update p) (l : Locals) (s : State) :
    work u (stepEraseTarget p l s) < 4 * l.lengthLeft + 5 := by
  unfold stepEraseTarget
  dsimp only
  split_ifs
  · exact Nat.succ_pos _
  · exact Nat.lt_succ_self _

theorem work_stepStore (u : Update p) (l : Locals) (s : State) :
    work u (stepStore p l s) < 4 * l.lengthLeft + 4 := by
  unfold stepStore
  dsimp only
  split_ifs
  · exact Nat.succ_pos _
  · exact Nat.succ_pos _
  · exact Nat.lt_succ_self _

theorem work_stepEraseSource (u : Update p) (l : Locals) (s : State) :
    work u (stepEraseSource p l s) < 4 * l.lengthLeft + 3 := by
  unfold stepEraseSource
  dsimp only
  split_ifs
  · exact Nat.succ_pos _
  · exact Nat.lt_succ_self _

/-- **Step lemma**: the next operation keeps the invariant, and there is less to do. -/
theorem updateInv_next (hroom : u.Roomy) (h : UpdateInv u s) :
    UpdateInv u (s.next p) ∧
      ((∃ ret, s.phase = .returned ret) ∨ work u (s.next p) < work u s) := by
  obtain ⟨flash, saved, settings, phase⟩ := s
  cases phase with
  | start =>
    obtain ⟨hinv, hwork⟩ := updateInv_start h
    exact ⟨hinv, .inr hwork⟩
  | eraseTarget l =>
    refine ⟨?_, .inr (work_stepEraseTarget u l _)⟩
    obtain ⟨w, rfl, hcopying⟩ := h
    exact copying_eraseTarget hroom hcopying
  | store l =>
    refine ⟨?_, .inr (work_stepStore u l _)⟩
    obtain ⟨w, rfl, hcopying, herased⟩ := h
    exact copying_store hroom hcopying herased
  | eraseSource l =>
    refine ⟨?_, .inr (work_stepEraseSource u l _)⟩
    obtain ⟨w, rfl, hcopying, hcopied⟩ := h
    exact copying_eraseSource hroom hcopying hcopied
  | saveOffset l =>
    obtain ⟨w, rfl, hmoved⟩ := h
    obtain ⟨hinv, hwork⟩ := moved_saveOffset hmoved
    exact ⟨hinv, .inr hwork⟩
  | finish => exact ⟨ending_finish h, .inr Nat.zero_lt_one⟩
  | returned ret => exact ⟨h, .inl ⟨ret, rfl⟩⟩
  | other => exact h.elim

/-- The copy begins again: nothing is lost as long as the source is there. -/
theorem copying_restart (h : Copying u s w) (hoffset : s.saved.writeOffset = 0) :
    UpdateInv u (step p s .powerLost) := by
  have hw : w = 0 := by
    have hzero : 4 * w = 0 := by
      rw [h.saved] at hoffset
      exact hoffset
    omega
  subst hw
  exact .inl ⟨h.page, h.lt, h.saved, h.saved, h.copied, h.intact, h.outside⟩

/-- **Power is lost** where it may be. -/
theorem updateInv_powerLost (h : UpdateInv u s) (hok : PowerOk s .powerLost) :
    UpdateInv u (step p s .powerLost) := by
  rcases hok with ⟨hoffset, hphase⟩ | hmarked
  · obtain ⟨flash, saved, settings, phase⟩ := s
    cases phase with
    | start =>
      rcases h with hcopying | hdone
      · exact copying_restart hcopying hoffset
      · exact .inr ⟨hdone.saved, hdone.saved, hdone.complete, hdone.outside⟩
    | eraseTarget l =>
      obtain ⟨w, rfl, hcopying⟩ := h
      exact copying_restart hcopying hoffset
    | store l =>
      obtain ⟨w, rfl, hcopying, -⟩ := h
      exact copying_restart hcopying hoffset
    | eraseSource l =>
      obtain ⟨w, rfl, hcopying, -⟩ := h
      exact copying_restart hcopying hoffset
    | saveOffset | finish | returned | other => exact hphase.elim
  · -- The banks have been marked, as bank 1 is current before.
    have hcurrent : ∀ w, s.saved ≠ u.settingsAt w := by
      intro w hsaved
      have hbank1 : s.saved.bankCurrent = .bank1 := by
        rw [hsaved]
        exact u.current
      rw [hmarked] at hbank1
      cases hbank1
    obtain ⟨flash, saved, settings, phase⟩ := s
    cases phase with
    | start =>
      rcases h with hcopying | hdone
      · exact absurd hcopying.saved (hcurrent 0)
      · exact .inr ⟨hdone.saved, hdone.saved, hdone.complete, hdone.outside⟩
    | eraseTarget l =>
      obtain ⟨w, rfl, hcopying⟩ := h
      exact absurd hcopying.saved (hcurrent w)
    | store l =>
      obtain ⟨w, rfl, hcopying, -⟩ := h
      exact absurd hcopying.saved (hcurrent w)
    | eraseSource l =>
      obtain ⟨w, rfl, hcopying, -⟩ := h
      exact absurd hcopying.saved (hcurrent w)
    | saveOffset l =>
      obtain ⟨w, rfl, hmoved⟩ := h
      exact absurd hmoved.saved (hcurrent w)
    | finish =>
      have hending : Ending u ⟨flash, saved, settings, .finish⟩ := h
      have hbank1 : saved.bankCurrent = .bank1 := by
        have hsaved : saved = u.settingsEnd := hending.saved
        rw [hsaved]
        exact u.current
      exact nomatch hmarked.symm.trans hbank1
    | returned ret => exact .inr ⟨h.2.saved, h.2.saved, h.2.complete, h.2.outside⟩
    | other => exact h.elim

/-! ## §6 Results -/

/-- **It returns.** -/
theorem UpdateInv.returns (hroom : u.Roomy) (h : UpdateInv u s) :
    ∃ n, ((State.next p)^[n] s).phase = .returned .success := by
  obtain ⟨m, hm⟩ : ∃ m, m = work u s := ⟨_, rfl⟩
  induction m using Nat.strong_induction_on generalizing s with
  | _ m ih =>
    obtain ⟨hinv, ⟨ret, hret⟩ | hwork⟩ := updateInv_next hroom h
    · refine ⟨0, ?_⟩
      unfold UpdateInv at h
      rw [hret] at h
      rw [Function.iterate_zero_apply, hret, h.1]
    · obtain ⟨n, hn⟩ := ih _ (hm ▸ hwork) hinv rfl
      exact ⟨n + 1, hn⟩

/-- Bank 1 is marked as valid until the end. -/
theorem validApp_settingsAt (u : Update p) (w : ℕ) :
    (u.settingsAt w).bank1.bankCode = .validApp := u.validApp

/-- A state in which the copy is not over. -/
theorem UpdateInv.activates (hroom : u.Roomy) (h : UpdateInv u s) : Activates u s := by
  have hreturns := h.returns hroom
  have hcopying : ∀ {w n}, s.saved = u.settingsAt w → s.settings = u.settingsAt w →
      u.Copied s.flash n → u.Intact s.flash n → u.Outside s.flash →
      (∀ ret, s.phase ≠ .returned ret) → Activates u s := by
    intro w n hsaved hsettings hcopied hintact houtside hphase
    refine ⟨fun i hi => ?_, ?_, houtside, fun ret hret => absurd hret (hphase ret), hreturns⟩
    · rcases Nat.lt_or_ge i n with hlt | hge
      · exact .inl (hcopied i hi hlt)
      · exact .inr (hintact i hi hge)
    · rintro (hcode | hcode)
      · rw [hsaved] at hcode
        exact absurd (validApp_settingsAt u w) hcode
      · rw [hsettings] at hcode
        exact absurd (validApp_settingsAt u w) hcode
  have hdone : Done u s → (∀ ret, s.phase = .returned ret → ret = .success) → Activates u s := by
    intro hdone hret
    refine ⟨fun i hi => .inl (hdone.complete i hi), fun _ => hdone.complete, hdone.outside,
      fun ret hphase => ⟨hret ret hphase, ?_, hdone.complete⟩, hreturns⟩
    rw [hdone.saved]
    rfl
  obtain ⟨flash, saved, settings, phase⟩ := s
  cases phase with
  | start =>
    rcases h with h | h
    · exact hcopying h.saved h.settings h.copied h.intact h.outside (fun ret => nofun)
    · exact hdone h (fun ret => nofun)
  | eraseTarget l =>
    obtain ⟨w, rfl, h⟩ := h
    exact hcopying h.saved h.settings h.copied h.intact h.outside (fun ret => nofun)
  | store l =>
    obtain ⟨w, rfl, h, -⟩ := h
    exact hcopying h.saved h.settings h.copied h.intact h.outside (fun ret => nofun)
  | eraseSource l =>
    obtain ⟨w, rfl, h, -⟩ := h
    exact hcopying h.saved h.settings h.copied h.intact h.outside (fun ret => nofun)
  | saveOffset l =>
    obtain ⟨w, rfl, h⟩ := h
    exact hcopying h.saved h.settings h.copied h.intact h.outside (fun ret => nofun)
  | finish =>
    have hending : Ending u ⟨flash, saved, settings, .finish⟩ := h
    exact ⟨fun i hi => .inl (hending.complete i hi), fun _ => hending.complete, hending.outside,
      fun ret => nofun, hreturns⟩
  | returned ret =>
    refine hdone h.2 fun ret' hphase => ?_
    have hsame : Phase.returned ret = .returned ret' := hphase
    cases hsame
    exact h.1
  | other => exact h.elim

/-- **The activation survives power loss** in every run in which power is lost before the first page
    of the source is erased, or when the banks have been marked. -/
theorem activates_of_reachable (u : Update p) (hroom : u.Roomy) {s : State}
    (h : (machine u).ReachableUnder PowerOk s) : Activates u s := by
  have hinv : UpdateInv u s := h.invariant (I := UpdateInv u)
    (fun s hs => by
      rw [hs]
      have hsettings : u.settings = u.settingsAt 0 := by
        unfold Update.settingsAt
        rw [Nat.mul_zero, ← u.writeOffset]
      have hzero : 4 * 0 < u.size := u.size_pos
      -- Nothing is copied yet: the update begins at page 0.
      exact .inl ⟨⟨0, (Nat.zero_mul _).symm⟩, hzero, hsettings, hsettings,
        fun i _ hi => absurd hi (Nat.not_lt_zero i), fun i _ _ => rfl, fun x _ => rfl⟩)
    (fun s ev hinv _ hok => by
      cases ev with
      | next => exact (updateInv_next hroom hinv).1
      | powerLost => exact updateInv_powerLost hinv hok)
  exact hinv.activates hroom

instance (s : State) (ev : Event) : Decidable (PowerOk s ev) := by
  have : Decidable (BeforeErase s) := by
    unfold BeforeErase
    have : Decidable (match s.phase with
        | .start | .eraseTarget _ | .store _ | .eraseSource _ => True
        | _ => False) := by
      split <;> infer_instance
    infer_instance
  cases ev <;> unfold PowerOk <;> infer_instance

instance (u : Update p) (s : State) (ev : Event) : Decidable ((machine u).enabled s ev) :=
  inferInstanceAs (Decidable True)

/-- A device with pages of 4096 bytes. -/
def device : Platform where
  pageWords := 1024
  pageWords_pos := by decide
  mainPage := 31
  mainPage_pos := by decide
  mbrCompare ws vs := decide (ws = vs)
  mbrCompare_self ws := decide_eq_true rfl

/-- Bank 1 of that device, with an application of a single word. -/
def oneWordFlash : Flash 32 := fun x => if x = 32 * 1024 then 0x12345678#32 else 0xFFFFFFFF#32

/-- An application of a single word is to replace one that takes a page. -/
def oneWordUpdate : Update device where
  flash := oneWordFlash
  settings :=
    { bankLayout := .dual
      bankCurrent := .bank1
      bank0 := ⟨100, 0, .validApp⟩
      bank1 := ⟨4, crc32Compute oneWordFlash (32 * 4096) 4, .validApp⟩
      writeOffset := 0
      sdSize := 0 }
  dual := rfl
  current := rfl
  validApp := rfl
  size_pos := by decide
  writeOffset := rfl
  crc := rfl

/-- Power is lost when the first page has been programmed, and again when the banks are marked. -/
theorem activates_oneWordUpdate :
    Activates oneWordUpdate ((machine oneWordUpdate).run
      ⟨oneWordUpdate.flash, oneWordUpdate.settings, oneWordUpdate.settings, .start⟩
      ([.next, .next, .next, .powerLost] ++ List.replicate 6 .next ++ [.powerLost, .next])) :=
  activates_of_reachable oneWordUpdate (by unfold Update.Roomy; decide)
    (.of_follows (.start rfl) (by decide +kernel))

/-- **Power is lost before the banks are marked**: nothing is left to copy, but the loop runs once
    more, and the page behind the image cannot be erased. -/
theorem not_activates_beforeMark :
    ¬ ∀ (p : Platform) (u : Update p) (s : State), (machine u).Reachable s → Activates u s := by
  intro hall
  have hactivates := hall device oneWordUpdate ((machine oneWordUpdate).run
    ⟨oneWordUpdate.flash, oneWordUpdate.settings, oneWordUpdate.settings, .start⟩
    (List.replicate 5 .next ++ [.powerLost, .next, .next])) (.of_follows (.start rfl)
      (by decide +kernel))
  have hreturned := hactivates.returned .unalignedAddr (by decide +kernel)
  exact absurd hreturned.1 (by decide)

end NordicEsb.Dfu
