import NordicEsb.Fds.Table
import Mathlib.Tactic.IntervalCases

/-!
# The Chain of Headers on a Page

The records of a page are found by walking over their headers, so all that a search depends on are
the header words of the chain, whatever the flash holds otherwise.

- `headersOn` is the chain from an address on, valid or not; `record_find_next` finds its first
  valid header (`recordFindNext_eq`)
- `pageHeaders` are the valid headers of a page, `liveHeaders` those of all data pages

**Main result** (`headersOn_flag`): flagging a record dirty changes its header, and no other.
-/

namespace NordicEsb

variable {cfg : FdsConfig} {f g : Flash 32} {a b p q pEnd : ℕ}

/-! ## §1 The chain -/

/-- The headers from address `b` on, at most `fuel`. -/
def headersFrom (f : Flash 32) (pEnd : ℕ) : ℕ → ℕ → List (ℕ × FdsHeader)
  | 0, _ => []
  | fuel + 1, b =>
    if b < pEnd ∧ f b ≠ fdsErasedWord then
      (b, fdsHeaderAt f b) :: headersFrom f pEnd fuel (b + (fdsHeaderAt f b).size)
    else []

/-- **The chain of headers** from address `b` on. -/
def headersOn (f : Flash 32) (pEnd b : ℕ) : List (ℕ × FdsHeader) := headersFrom f pEnd (pEnd - b) b

/-- The valid headers of the page at `a`. -/
def pageHeaders (cfg : FdsConfig) (f : Flash 32) (a : ℕ) : List (ℕ × FdsHeader) :=
  (headersOn f (a + cfg.pageSize) (a + 2)).filter fun h => h.2.isValid

/-- The valid headers that an application finds, page after page. -/
def liveHeaders (s : Fds cfg) : List (ℕ × FdsHeader) :=
  (List.range cfg.maxPages).flatMap fun i =>
    if (s.pages.get i).pageType = .data then pageHeaders cfg s.flash (s.pages.get i).pAddr else []

theorem FdsHeader.three_le_size (h : FdsHeader) : 3 ≤ h.size := Nat.le_add_right _ _

/-- Every header takes up words, so there are fewer headers than words. -/
theorem headersFrom_fuel {n m : ℕ} (hn : pEnd - b ≤ n) (hm : pEnd - b ≤ m) :
    headersFrom f pEnd n b = headersFrom f pEnd m b := by
  induction n generalizing b m with
  | zero =>
    cases m with
    | zero => rfl
    | succ m =>
      unfold headersFrom
      rw [if_neg (by omega)]
  | succ n ih =>
    have hsize := (fdsHeaderAt f b).three_le_size
    cases m with
    | zero =>
      unfold headersFrom
      rw [if_neg (by omega)]
    | succ m =>
      unfold headersFrom
      split
      · rw [ih (by omega) (by omega : pEnd - (b + (fdsHeaderAt f b).size) ≤ m)]
      · rfl

theorem headersOn_cons (hlt : b < pEnd) (hne : f b ≠ fdsErasedWord) :
    headersOn f pEnd b =
      (b, fdsHeaderAt f b) :: headersOn f pEnd (b + (fdsHeaderAt f b).size) := by
  have hsize := (fdsHeaderAt f b).three_le_size
  obtain ⟨n, hn⟩ : ∃ n, pEnd - b = n + 1 := ⟨pEnd - b - 1, by omega⟩
  have hrest : headersFrom f pEnd n (b + (fdsHeaderAt f b).size) =
      headersOn f pEnd (b + (fdsHeaderAt f b).size) := headersFrom_fuel (by omega) le_rfl
  rw [← hrest]
  unfold headersOn
  rw [hn]
  exact if_pos ⟨hlt, hne⟩

theorem headersOn_nil (h : ¬(b < pEnd ∧ f b ≠ fdsErasedWord)) : headersOn f pEnd b = [] := by
  unfold headersOn
  cases pEnd - b with
  | zero => rfl
  | succ n =>
    unfold headersFrom
    rw [if_neg h]

/-- **Induction along the chain.** -/
theorem headersOn_induction (f : Flash 32) (pEnd : ℕ) {motive : ℕ → Prop} (b : ℕ)
    (hnil : ∀ b, ¬(b < pEnd ∧ f b ≠ fdsErasedWord) → motive b)
    (hcons : ∀ b, b < pEnd → f b ≠ fdsErasedWord → motive (b + (fdsHeaderAt f b).size) → motive b) :
    motive b := by
  obtain ⟨n, hn⟩ : ∃ n, pEnd - b = n := ⟨_, rfl⟩
  induction n using Nat.strong_induction_on generalizing b with
  | _ n ih =>
    by_cases h : b < pEnd ∧ f b ≠ fdsErasedWord
    · have hsize := (fdsHeaderAt f b).three_le_size
      exact hcons b h.1 h.2 (ih _ (by omega) _ rfl)
    · exact hnil b h

/-- The headers of a chain are on the page, behind its begin, and are what the flash holds. -/
theorem mem_headersOn {x : ℕ × FdsHeader} (hx : x ∈ headersOn f pEnd b) :
    b ≤ x.1 ∧ x.1 < pEnd ∧ x.2 = fdsHeaderAt f x.1 := by
  induction b using headersOn_induction f pEnd with
  | hnil b h =>
    rw [headersOn_nil h] at hx
    exact absurd hx List.not_mem_nil
  | hcons b hlt hne ih =>
    rw [headersOn_cons hlt hne] at hx
    rcases List.mem_cons.mp hx with rfl | hx
    · exact ⟨le_rfl, hlt, rfl⟩
    · obtain ⟨hle, hrest⟩ := ih hx
      exact ⟨by omega, hrest⟩

/-- What follows a header of the chain. -/
theorem headersOn_split {pre post : List (ℕ × FdsHeader)} {x : ℕ × FdsHeader}
    (h : headersOn f pEnd b = pre ++ x :: post) :
    post = headersOn f pEnd (x.1 + x.2.size) ∧ ∀ y ∈ pre, y.1 + 3 ≤ x.1 := by
  induction pre generalizing b with
  | nil =>
    by_cases hb : b < pEnd ∧ f b ≠ fdsErasedWord
    · rw [headersOn_cons hb.1 hb.2, List.nil_append, List.cons.injEq] at h
      obtain ⟨rfl, rfl⟩ := h
      exact ⟨rfl, fun y hy => absurd hy List.not_mem_nil⟩
    · rw [headersOn_nil hb] at h
      cases h
  | cons y pre ih =>
    by_cases hb : b < pEnd ∧ f b ≠ fdsErasedWord
    · rw [headersOn_cons hb.1 hb.2, List.cons_append, List.cons.injEq] at h
      obtain ⟨rfl, h⟩ := h
      obtain ⟨hpost, hpre⟩ := ih h
      refine ⟨hpost, fun z hz => ?_⟩
      rcases List.mem_cons.mp hz with rfl | hz
      · have hx : x ∈ headersOn f pEnd (b + (fdsHeaderAt f b).size) := by
          rw [h]
          exact List.mem_append_right _ List.mem_cons_self
        have hle := (mem_headersOn hx).1
        have hsize := (fdsHeaderAt f b).three_le_size
        omega
      · exact hpre z hz
    · rw [headersOn_nil hb] at h
      cases h

/-! ## §2 Searching -/

theorem recordFindLoop_eq {fuel : ℕ} (hfuel : pEnd - b ≤ fuel) :
    recordFindLoop f pEnd fuel b =
      ((headersOn f pEnd b).find? fun h => h.2.isValid).map Prod.fst := by
  induction fuel generalizing b with
  | zero =>
    rw [headersOn_nil (by omega)]
    rfl
  | succ fuel ih =>
    have hsize := (fdsHeaderAt f b).three_le_size
    unfold recordFindLoop
    by_cases hb : b < pEnd ∧ f b ≠ fdsErasedWord
    · rw [if_pos hb, headersOn_cons hb.1 hb.2]
      cases hvalid : (fdsHeaderAt f b).isValid with
      | true => simp [hvalid]
      | false =>
        rw [List.find?_cons_of_neg (by simp [hvalid])]
        exact ih (by omega)
    · rw [if_neg hb, headersOn_nil hb]
      rfl

/-- **A search finds the first valid header behind the last one.** -/
theorem recordFindNext_eq (hp : a + 2 ≤ recordNext f a p) :
    recordFindNext cfg f a p = ((headersOn f (a + cfg.pageSize) (recordNext f a p)).find? fun h =>
      h.2.isValid).map Prod.fst :=
  recordFindLoop_eq (by omega)

/-- A search that stops at a header leaves the valid headers behind it. -/
theorem headersOn_filter_find {x : ℕ × FdsHeader}
    (h : (headersOn f pEnd b).find? (fun h => h.2.isValid) = some x) :
    (headersOn f pEnd b).filter (fun h => h.2.isValid) =
      x :: (headersOn f pEnd (x.1 + x.2.size)).filter fun h => h.2.isValid := by
  obtain ⟨hvalid, pre, post, heq, hpre⟩ := List.find?_eq_some_iff_append.mp h
  have hskipped : pre.filter (fun h => h.2.isValid) = [] := by
    refine List.filter_eq_nil_iff.mpr fun y hy => ?_
    have hy' := hpre y hy
    simpa using hy'
  have hcons : (x :: post).filter (fun h => h.2.isValid) =
      x :: post.filter fun h => h.2.isValid := List.filter_cons_of_pos hvalid
  rw [heq, List.filter_append, hskipped, List.nil_append, hcons, (headersOn_split heq).1]

/-! ## §3 Flagging a record dirty -/

/-- The first word of a header, from the key and the length. -/
def tlWord (recordKey lengthWords : BitVec 16) : BitVec 32 := lengthWords ++ recordKey

/-- `m_fds_tl_dirty`: a key of 0; the length stays as it is in flash. -/
def fdsTlDirty : BitVec 32 := tlWord 0 0xFFFF

/-- A header whose record has been flagged dirty. -/
def FdsHeader.flagged (h : FdsHeader) : FdsHeader := { h with tl := h.tl &&& fdsTlDirty }

theorem FdsHeader.flagged_lengthWords (h : FdsHeader) : h.flagged.lengthWords = h.lengthWords := by
  unfold FdsHeader.lengthWords FdsHeader.flagged fdsTlDirty tlWord
  ext i hi
  simp only [BitVec.getElem_extractLsb', BitVec.getLsbD_and, BitVec.getLsbD_append]
  interval_cases i <;> simp

theorem FdsHeader.flagged_size (h : FdsHeader) : h.flagged.size = h.size := by
  unfold FdsHeader.size
  rw [h.flagged_lengthWords]

theorem FdsHeader.flagged_recordKey (h : FdsHeader) : h.flagged.recordKey = 0 := by
  unfold FdsHeader.recordKey FdsHeader.flagged fdsTlDirty tlWord
  ext i hi
  simp only [BitVec.getElem_extractLsb', BitVec.getLsbD_and, BitVec.getLsbD_append]
  interval_cases i <;> simp

theorem FdsHeader.flagged_isValid (h : FdsHeader) : h.flagged.isValid = false := by
  unfold FdsHeader.isValid
  rw [h.flagged_recordKey]
  simp

/-- A key of 0 is not an erased word. -/
theorem FdsHeader.flagged_ne_erased (h : FdsHeader) : h.flagged.tl ≠ fdsErasedWord := by
  intro heq
  have hkey := h.flagged_recordKey
  unfold FdsHeader.recordKey at hkey
  rw [heq] at hkey
  exact absurd hkey (by decide)

/-- A store that leaves the header words alone. -/
theorem fdsHeaderAt_flag_ne (hp : q < p ∨ p + 3 ≤ q) :
    fdsHeaderAt (f.store q [fdsTlDirty]) p = fdsHeaderAt f p := by
  have hagree : f.AgreeOn (f.store q [fdsTlDirty]) p (p + 3) :=
    Flash.agreeOn_store (by
      rw [List.length_singleton]
      omega)
  exact (fdsHeaderAt_congr hagree).symm

theorem fdsHeaderAt_flag (f : Flash 32) (q : ℕ) :
    fdsHeaderAt (f.store q [fdsTlDirty]) q = (fdsHeaderAt f q).flagged := by
  have htl : f.store q [fdsTlDirty] (q + 0) = f (q + 0) &&& [fdsTlDirty][0] :=
    Flash.store_apply (Nat.zero_lt_one)
  have hagree : f.AgreeOn (f.store q [fdsTlDirty]) (q + 1) (q + 3) :=
    Flash.agreeOn_store (.inr (by rw [List.length_singleton]))
  unfold fdsHeaderAt FdsHeader.flagged
  rw [← hagree (q + 1) (by omega) (by omega), ← hagree (q + 2) (by omega) (by omega)]
  exact congrArg (fun w => FdsHeader.mk w (f (q + 1)) (f (q + 2))) htl

theorem flag_apply_ne (hp : p ≠ q) : f.store q [fdsTlDirty] p = f p := by
  have hagree : f.AgreeOn (f.store q [fdsTlDirty]) p (p + 1) :=
    Flash.agreeOn_store (by
      rw [List.length_singleton]
      omega)
  exact (hagree p le_rfl (by omega)).symm

/-- A flag elsewhere leaves a chain alone. -/
theorem headersOn_flag_ne (hq : q < b ∨ pEnd + 2 ≤ q) :
    headersOn (f.store q [fdsTlDirty]) pEnd b = headersOn f pEnd b := by
  induction b using headersOn_induction f pEnd with
  | hnil b h =>
    rw [headersOn_nil h, headersOn_nil]
    rintro ⟨hlt, hne⟩
    rw [flag_apply_ne (by omega)] at hne
    exact h ⟨hlt, hne⟩
  | hcons b hlt hne ih =>
    have hheader := fdsHeaderAt_flag_ne (f := f) (q := q) (p := b) (by omega)
    rw [headersOn_cons hlt hne, headersOn_cons hlt (by rwa [flag_apply_ne (by omega)]), hheader,
      ih (by omega)]

/-- **A flag on a header of the chain** changes that header only. -/
theorem headersOn_flag {pre post : List (ℕ × FdsHeader)} {h : FdsHeader}
    (hchain : headersOn f pEnd b = pre ++ (q, h) :: post) :
    headersOn (f.store q [fdsTlDirty]) pEnd b = pre ++ (q, h.flagged) :: post := by
  induction pre generalizing b with
  | nil =>
    by_cases hb : b < pEnd ∧ f b ≠ fdsErasedWord
    · rw [headersOn_cons hb.1 hb.2, List.nil_append, List.cons.injEq, Prod.mk.injEq] at hchain
      obtain ⟨⟨rfl, rfl⟩, hpost⟩ := hchain
      have hsize := (fdsHeaderAt f b).three_le_size
      have hheader := fdsHeaderAt_flag f b
      have htl : f.store b [fdsTlDirty] b = (fdsHeaderAt f b).flagged.tl :=
        congrArg FdsHeader.tl hheader
      have hne : f.store b [fdsTlDirty] b ≠ fdsErasedWord := by
        rw [htl]
        exact FdsHeader.flagged_ne_erased _
      rw [headersOn_cons hb.1 hne, hheader, FdsHeader.flagged_size,
        headersOn_flag_ne (.inl (by omega)), hpost]
      rfl
    · rw [headersOn_nil hb] at hchain
      cases hchain
  | cons y pre ih =>
    by_cases hb : b < pEnd ∧ f b ≠ fdsErasedWord
    · have hsplit := (headersOn_split hchain).2 y List.mem_cons_self
      rw [headersOn_cons hb.1 hb.2, List.cons_append, List.cons.injEq] at hchain
      obtain ⟨rfl, hchain⟩ := hchain
      have hheader := fdsHeaderAt_flag_ne (f := f) (q := q) (p := b) (.inr hsplit)
      have hne : f.store q [fdsTlDirty] b ≠ fdsErasedWord := by
        rw [flag_apply_ne (by dsimp only at hsplit; omega)]
        exact hb.2
      rw [headersOn_cons hb.1 hne, hheader, ih hchain]
      rfl
    · rw [headersOn_nil hb] at hchain
      cases hchain

/-! ## §4 All pages -/

/-- The valid headers of `n` pages from page `i` on. -/
def pagesFrom (s : Fds cfg) : ℕ → ℕ → List (ℕ × FdsHeader)
  | 0, _ => []
  | n + 1, i => pageHeaders cfg s.flash (s.pages.get i).pAddr ++ pagesFrom s n (i + 1)

theorem pagesFrom_eq (s : Fds cfg) (n i : ℕ) :
    pagesFrom s n i =
      (List.range' i n).flatMap fun j => pageHeaders cfg s.flash (s.pages.get j).pAddr := by
  induction n generalizing i with
  | zero => rfl
  | succ n ih =>
    unfold pagesFrom
    rw [List.range'_succ, List.flatMap_cons, ih]

theorem pagesFrom_add (s : Fds cfg) (m n i : ℕ) :
    pagesFrom s (m + n) i = pagesFrom s m i ++ pagesFrom s n (i + m) := by
  induction m generalizing i with
  | zero => rw [Nat.zero_add, Nat.add_zero, pagesFrom, List.nil_append]
  | succ m ih =>
    rw [Nat.succ_add, pagesFrom, ih, pagesFrom, List.append_assoc, Nat.add_assoc, Nat.add_comm 1 m]

theorem Table.liveHeaders_eq {s : Fds cfg} (h : Table s) :
    liveHeaders s = pagesFrom s cfg.maxPages 0 := by
  unfold liveHeaders
  rw [pagesFrom_eq, ← List.range_eq_range', List.flatMap_def, List.flatMap_def]
  congr 1
  refine List.map_congr_left fun i hi => ?_
  rw [if_pos (h.data i (List.mem_range.mp hi))]

/-- A flag on a record leaves the other pages alone. -/
theorem pageHeaders_flag_ne (ha : a ∈ cfg.pageAddrs) (hb : b ∈ cfg.pageAddrs) (hne : b ≠ a)
    (hle : a + 2 ≤ q) (hlt : q < a + cfg.pageSize) :
    pageHeaders cfg (f.store q [fdsTlDirty]) b = pageHeaders cfg f b := by
  have hdisj := disjoint_pageAddrs hb ha hne
  unfold pageHeaders
  rw [headersOn_flag_ne (by omega)]

end NordicEsb
