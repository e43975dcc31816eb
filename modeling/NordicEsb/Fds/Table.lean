import NordicEsb.Fds.State
import Mathlib.Data.List.Perm.Basic
import Mathlib.Data.List.Nodup

/-!
# Tagged Pages and the Page Table

What a page of each kind holds, and which operation of fstorage turns one kind into another.
Every kind of page depends on the words of that page alone, so an operation on one page leaves
the others as they are.

- `DataPage`, `SwapPage` and `ErasedPage`; `SwapTagged` is a swap page on which the copy of a
  record may have been interrupted
- `Table` says that `m_pages` and `m_swap_page` together point at every page once
-/

namespace NordicEsb

variable {cfg : FdsConfig} {f g : Flash 32} {a b : ℕ} {r : FdsRecord} {rs vs : List FdsRecord}

/-! ## §1 The kinds of pages -/

/-- A page tagged data, with these records. -/
structure DataPage (cfg : FdsConfig) (f : Flash 32) (a : ℕ) (rs : List FdsRecord) : Prop where
  magic : f a = fdsPageTagMagic
  tag : f (a + 1) = fdsPageTagData
  records : RecordsAt f (a + cfg.pageSize) (a + 2) rs

/-- A page tagged swap, with these records and erased behind them. -/
structure SwapPage (cfg : FdsConfig) (f : Flash 32) (a : ℕ) (rs : List FdsRecord) : Prop where
  magic : f a = fdsPageTagMagic
  tag : f (a + 1) = fdsPageTagSwap
  records : RecordsAt f (a + cfg.pageSize) (a + 2) rs
  fits : 2 + recordsSize rs ≤ cfg.pageSize
  erased : f.ErasedOn (a + 2 + recordsSize rs) (a + cfg.pageSize)

/-- A page tagged swap, with these records; it is erased behind the tag if there are none. -/
structure SwapTagged (cfg : FdsConfig) (f : Flash 32) (a : ℕ) (rs : List FdsRecord) : Prop where
  magic : f a = fdsPageTagMagic
  tag : f (a + 1) = fdsPageTagSwap
  records : RecordsAt f (a + cfg.pageSize) (a + 2) rs
  fits : 2 + recordsSize rs ≤ cfg.pageSize
  erased : rs = [] → f.ErasedOn (a + 2) (a + cfg.pageSize)

/-- An erased page. -/
abbrev ErasedPage (cfg : FdsConfig) (f : Flash 32) (a : ℕ) : Prop :=
  f.ErasedOn a (a + cfg.pageSize)

/-- A data page whose valid records are `vs`. -/
def PageHolds (cfg : FdsConfig) (f : Flash 32) (a : ℕ) (vs : List FdsRecord) : Prop :=
  ∃ rs, DataPage cfg f a rs ∧ rs.filter FdsRecord.isValid = vs

theorem FdsConfig.two_le_pageSize (cfg : FdsConfig) : 2 ≤ cfg.pageSize := by
  have hle := Nat.le_of_dvd cfg.pageSize_pos cfg.phyPageSize_dvd
  cases hfamily : cfg.family <;> rw [hfamily] at hle <;> simp only [NrfFamily.phyPageSize] at hle <;>
    omega

/-- The kinds depend on the words of the page. -/
theorem DataPage.congr (h : DataPage cfg f a rs) (hfg : f.AgreeOn g a (a + cfg.pageSize)) :
    DataPage cfg g a rs := by
  have hsize := cfg.two_le_pageSize
  constructor
  · rw [← hfg a le_rfl (by omega)]
    exact h.magic
  · rw [← hfg (a + 1) (by omega) (by omega)]
    exact h.tag
  · exact h.records.congr (hfg.mono (by omega) le_rfl)

theorem PageHolds.congr (h : PageHolds cfg f a vs) (hfg : f.AgreeOn g a (a + cfg.pageSize)) :
    PageHolds cfg g a vs := by
  obtain ⟨rs, hpage, hvs⟩ := h
  exact ⟨rs, hpage.congr hfg, hvs⟩

theorem SwapPage.congr (h : SwapPage cfg f a rs) (hfg : f.AgreeOn g a (a + cfg.pageSize)) :
    SwapPage cfg g a rs := by
  have hsize := cfg.two_le_pageSize
  have hfits := h.fits
  constructor
  · rw [← hfg a le_rfl (by omega)]
    exact h.magic
  · rw [← hfg (a + 1) (by omega) (by omega)]
    exact h.tag
  · exact h.records.congr (hfg.mono (by omega) le_rfl)
  · exact h.fits
  · exact (hfg.mono (by omega) le_rfl).erasedOn h.erased

theorem SwapPage.tagged (h : SwapPage cfg f a rs) : SwapTagged cfg f a rs where
  magic := h.magic
  tag := h.tag
  records := h.records
  fits := h.fits
  erased := by
    rintro rfl
    exact h.erased

theorem SwapTagged.swapPage_of_nil (h : SwapTagged cfg f a []) : SwapPage cfg f a [] :=
  ⟨h.magic, h.tag, h.records, h.fits, h.erased rfl⟩

/-! ## §2 Operations on one page -/

theorem ErasedPage.apply (h : ErasedPage cfg f a) {i : ℕ} (hi : i < cfg.pageSize) :
    f (a + i) = fdsErasedWord :=
  h (a + i) (by omega) (by omega)

/-- Tagging a page leaves its other words alone. -/
theorem agreeOn_tag (f : Flash 32) (a b : ℕ) (tag₀ tag₁ : BitVec 32) :
    f.AgreeOn (f.store a [tag₀, tag₁]) (a + 2) b :=
  Flash.agreeOn_store (.inr (by simp))

theorem store_tag_zero (f : Flash 32) (a : ℕ) (tag₀ tag₁ : BitVec 32) :
    f.store a [tag₀, tag₁] a = f a &&& tag₀ := by
  have happly : f.store a [tag₀, tag₁] (a + 0) = f (a + 0) &&& [tag₀, tag₁][0] :=
    Flash.store_apply (by simp)
  simpa using happly

theorem store_tag_one (f : Flash 32) (a : ℕ) (tag₀ tag₁ : BitVec 32) :
    f.store a [tag₀, tag₁] (a + 1) = f (a + 1) &&& tag₁ := by
  have happly : f.store a [tag₀, tag₁] (a + 1) = f (a + 1) &&& [tag₀, tag₁][1] :=
    Flash.store_apply (by simp)
  simpa using happly

/-- An erased page becomes an empty swap page. -/
theorem ErasedPage.tagSwap (h : ErasedPage cfg f a) :
    SwapPage cfg (f.store a [fdsPageTagMagic, fdsPageTagSwap]) a [] := by
  have hsize := cfg.two_le_pageSize
  have herased : (f.store a [fdsPageTagMagic, fdsPageTagSwap]).ErasedOn (a + 2)
      (a + cfg.pageSize) :=
    (agreeOn_tag f a _ _ _).erasedOn (h.mono (by omega) le_rfl)
  constructor
  · rw [store_tag_zero, h a le_rfl (by omega), BitVec.allOnes_and]
  · rw [store_tag_one, h (a + 1) (by omega) (by omega), BitVec.allOnes_and]
  · intro hlt
    exact herased _ le_rfl hlt
  · exact hsize
  · exact herased

/-- An erased page becomes an empty data page. -/
theorem ErasedPage.tagData (h : ErasedPage cfg f a) :
    PageHolds cfg (f.store a [fdsPageTagMagic, fdsPageTagData]) a [] := by
  have hsize := cfg.two_le_pageSize
  refine ⟨[], ?_, rfl⟩
  constructor
  · rw [store_tag_zero, h a le_rfl (by omega), BitVec.allOnes_and]
  · rw [store_tag_one, h (a + 1) (by omega) (by omega), BitVec.allOnes_and]
  · intro hlt
    rw [← agreeOn_tag f a (a + cfg.pageSize) _ _ _ le_rfl hlt]
    exact h _ (by omega) hlt

/-- The data tag has one bit less than the swap tag, so a swap page can be promoted. -/
theorem SwapPage.promote (h : SwapPage cfg f a rs) :
    DataPage cfg (f.store a [fdsPageTagMagic, fdsPageTagData]) a rs := by
  constructor
  · rw [store_tag_zero, h.magic]
    decide
  · rw [store_tag_one, h.tag]
    decide
  · exact h.records.congr (agreeOn_tag f a _ _ _)

/-- A data page cannot be tagged swap: the bit that differs is cleared already. -/
theorem DataPage.tagSwap (h : DataPage cfg f a rs) :
    f.store a [fdsPageTagMagic, fdsPageTagSwap] = f := by
  apply Flash.store_eq_self
  intro i hi
  match i, hi with
  | 0, _ =>
    simp only [Nat.add_zero, h.magic, List.getElem_cons_zero, BitVec.and_self]
  | 1, _ =>
    have hbits : fdsPageTagData &&& fdsPageTagSwap = fdsPageTagData := by decide
    simpa only [h.tag, List.getElem_cons_succ, List.getElem_cons_zero] using hbits

/-! ## §3 Copying a record -/

/-- Four words at a time: a record is read as a header and its data. -/
theorem read_eq_words_iff : f.read a r.size = r.words ↔ fdsRecordAt f a = r := by
  have hsize : r.size = r.header.lengthWords.toNat + 1 + 1 + 1 := by
    simp only [FdsRecord.size, FdsHeader.size]
    omega
  have hread : f.read a r.size = f a :: f (a + 1) :: f (a + 2) ::
      f.read (a + 3) r.header.lengthWords.toNat := by
    rw [hsize, Flash.read_succ, Flash.read_succ, Flash.read_succ]
  rw [hread, FdsRecord.words]
  constructor
  · intro h
    simp only [List.cons.injEq] at h
    obtain ⟨htl, hic, hid, hdata⟩ := h
    have hheader : fdsHeaderAt f a = r.header := by
      unfold fdsHeaderAt
      rw [htl, hic, hid]
    rw [FdsRecord.ext_iff]
    refine ⟨hheader, ?_⟩
    simp only [fdsRecordAt, hheader]
    exact hdata
  · rintro rfl
    rfl

/-- A length that fits on a page leaves the first word of a record different from an erased
    one. -/
theorem FdsRecord.tl_ne_erased (h : r.size < 2 ^ 16) : r.header.tl ≠ fdsErasedWord := by
  intro htl
  have hlen : r.header.lengthWords.toNat = 0xFFFF := by
    rw [FdsHeader.lengthWords, htl]
    decide
  simp only [FdsRecord.size, FdsHeader.size, hlen] at h
  omega

/-- A record behind the others; these only need to keep their own words. -/
theorem RecordsAt.snoc {pEnd : ℕ} (h : RecordsAt f pEnd a rs)
    (hfg : f.AgreeOn g a (a + recordsSize rs))
    (hlast : RecordsAt g pEnd (a + recordsSize rs) [r]) : RecordsAt g pEnd a (rs ++ [r]) := by
  induction rs generalizing a with
  | nil => simpa using hlast
  | cons r₀ rs ih =>
    obtain ⟨⟨hfits, hne, hheader, hvalid⟩, hrest⟩ := h
    have hsize := r₀.three_le_size
    rw [recordsSize_cons] at hfg hlast
    have hg : fdsHeaderAt g a = r₀.header := by
      rw [← fdsHeaderAt_congr (hfg.mono le_rfl (by omega))]
      exact hheader
    refine ⟨⟨hfits, ?_, hg, ?_⟩, ?_⟩
    · rw [← hfg a le_rfl (by omega)]
      exact hne
    · intro hr
      obtain ⟨hle, hat⟩ := hvalid hr
      have hext : (fdsHeaderAt f a).size = r₀.size := by rw [hheader]; rfl
      refine ⟨hle, ?_⟩
      rw [← fdsRecordAt_congr (hfg.mono le_rfl (by omega))]
      exact hat
    · exact ih hrest (hfg.mono (by omega) (by omega)) (by rwa [Nat.add_assoc])

/-- A record of which at least the first word is programmed takes up all its words. -/
theorem RecordsAt.torn {pEnd : ℕ} (hfits : a + r.size ≤ pEnd) (htl : g a = r.header.tl)
    (hne : r.header.tl ≠ fdsErasedWord) (herased : g.ErasedOn (a + r.size) pEnd) :
    (fdsRecordAt g a).size = r.size ∧ RecordsAt g pEnd a [fdsRecordAt g a] := by
  have hsize : (fdsRecordAt g a).size = r.size := by
    simp only [FdsRecord.size, FdsHeader.size, FdsHeader.lengthWords, fdsRecordAt, fdsHeaderAt, htl]
  have hthree := r.three_le_size
  refine ⟨hsize, ⟨by omega, by rwa [htl], rfl, fun _ => ⟨by omega, rfl⟩⟩, ?_⟩
  intro hlt
  exact herased _ (by omega) hlt

/-- Where the next record is copied to. -/
theorem SwapPage.copied (h : SwapPage cfg f a rs) (r : FdsRecord) (k : ℕ) :
    f.AgreeOn (f.store (a + 2 + recordsSize rs) (r.words.take k)) a (a + 2 + recordsSize rs) ∧
      (f.store (a + 2 + recordsSize rs) (r.words.take k)).ErasedOn (a + 2 + recordsSize rs + r.size)
        (a + cfg.pageSize) := by
  refine ⟨Flash.agreeOn_store (.inl le_rfl), ?_⟩
  have hbehind : f.AgreeOn (f.store (a + 2 + recordsSize rs) (r.words.take k))
      (a + 2 + recordsSize rs + r.size) (a + cfg.pageSize) :=
    Flash.agreeOn_store (.inr (by simp only [List.length_take, r.length_words]; omega))
  exact hbehind.erasedOn (h.erased.mono (by omega) le_rfl)

/-- **A record that is copied to the swap page** is behind the others there. -/
theorem SwapPage.copy (h : SwapPage cfg f a rs)
    (hfits : 2 + recordsSize rs + r.size ≤ cfg.pageSize) :
    SwapPage cfg (f.store (a + 2 + recordsSize rs) r.words) a (rs ++ [r]) := by
  obtain ⟨hbefore, hbehind⟩ := h.copied r r.size
  rw [List.take_of_length_le (by rw [r.length_words])] at hbefore hbehind
  have hsize := cfg.two_le_pageSize
  have hread : fdsRecordAt (f.store (a + 2 + recordsSize rs) r.words) (a + 2 + recordsSize rs)
      = r := by
    rw [← read_eq_words_iff, ← r.length_words]
    exact Flash.read_store (h.erased.mono le_rfl (by rw [r.length_words]; omega))
  have hheader : fdsHeaderAt (f.store (a + 2 + recordsSize rs) r.words) (a + 2 + recordsSize rs)
      = r.header := congrArg FdsRecord.header hread
  have htl : (f.store (a + 2 + recordsSize rs) r.words) (a + 2 + recordsSize rs) = r.header.tl :=
    congrArg FdsHeader.tl hheader
  have hlt := cfg.pageSize_lt
  have hne : r.header.tl ≠ fdsErasedWord := FdsRecord.tl_ne_erased (by omega)
  constructor
  · rw [← hbefore a le_rfl (by omega)]
    exact h.magic
  · rw [← hbefore (a + 1) (by omega) (by omega)]
    exact h.tag
  · refine h.records.snoc (hbefore.mono (by omega) le_rfl) ?_
    obtain ⟨-, hlast⟩ := RecordsAt.torn (by omega) htl hne hbehind
    rwa [hread] at hlast
  · simp only [recordsSize_append, recordsSize_cons, recordsSize_nil]
    omega
  · simp only [recordsSize_append, recordsSize_cons, recordsSize_nil, Nat.add_zero]
    rwa [← Nat.add_assoc]

/-- **An interrupted copy** leaves a page tagged swap, on which a scan finds the record as soon as
    its first word is there. -/
theorem SwapPage.cut (h : SwapPage cfg f a rs)
    (hfits : 2 + recordsSize rs + r.size ≤ cfg.pageSize) (k : ℕ) :
    ∃ rs', SwapTagged cfg (f.store (a + 2 + recordsSize rs) (r.words.take k)) a rs' := by
  cases k with
  | zero => exact ⟨rs, by simpa using h.tagged⟩
  | succ k =>
    obtain ⟨hbefore, hbehind⟩ := h.copied r (k + 1)
    obtain ⟨g, hg⟩ : ∃ g, g = f.store (a + 2 + recordsSize rs) (r.words.take (k + 1)) := ⟨_, rfl⟩
    have hsize := cfg.two_le_pageSize
    have hthree := r.three_le_size
    have hfirst : 0 < (r.words.take (k + 1)).length := by simp [FdsRecord.words]
    have htl : g (a + 2 + recordsSize rs) = r.header.tl := by
      rw [hg]
      refine (Flash.store_apply hfirst).trans ?_
      rw [Nat.add_zero, h.erased _ le_rfl (by omega), BitVec.allOnes_and]
      rfl
    have hlt := cfg.pageSize_lt
    have hne : r.header.tl ≠ fdsErasedWord := FdsRecord.tl_ne_erased (by omega)
    rw [← hg] at hbefore hbehind ⊢
    obtain ⟨hlen, hlast⟩ := RecordsAt.torn (by omega) htl hne hbehind
    refine ⟨rs ++ [fdsRecordAt g (a + 2 + recordsSize rs)], ?_⟩
    constructor
    · rw [← hbefore a le_rfl (by omega)]
      exact h.magic
    · rw [← hbefore (a + 1) (by omega) (by omega)]
      exact h.tag
    · exact h.records.snoc (hbefore.mono (by omega) le_rfl) hlast
    · simp only [recordsSize_append, recordsSize_cons, recordsSize_nil, hlen]
      omega
    · simp

/-! ## §4 The page table -/

theorem mem_pageAddrs : a ∈ cfg.pageAddrs ↔ ∃ p < cfg.virtualPages, a = cfg.pageAddr p := by
  simp only [FdsConfig.pageAddrs, List.mem_map, List.mem_range]
  constructor
  · rintro ⟨p, hp, rfl⟩
    exact ⟨p, hp, rfl⟩
  · rintro ⟨p, hp, rfl⟩
    exact ⟨p, hp, rfl⟩

/-- Pages are as far apart as they are long. -/
theorem pageAddr_add_le {p q : ℕ} (h : p < q) :
    cfg.pageAddr p + cfg.pageSize ≤ cfg.pageAddr q := by
  have hmul : (p + 1) * cfg.pageSize ≤ q * cfg.pageSize := Nat.mul_le_mul_right _ h
  rw [Nat.add_mul] at hmul
  simp only [FdsConfig.pageAddr]
  omega

theorem pageAddr_inj {p q : ℕ} (h : cfg.pageAddr p = cfg.pageAddr q) : p = q := by
  have hpos := cfg.pageSize_pos
  by_contra hne
  rcases Nat.lt_or_gt_of_ne hne with hlt | hlt
  · have hle : cfg.pageAddr p + cfg.pageSize ≤ cfg.pageAddr q := pageAddr_add_le hlt
    omega
  · have hle : cfg.pageAddr q + cfg.pageSize ≤ cfg.pageAddr p := pageAddr_add_le hlt
    omega

theorem nodup_pageAddrs (cfg : FdsConfig) : cfg.pageAddrs.Nodup :=
  List.nodup_range.map fun _ _ => pageAddr_inj

theorem disjoint_pageAddrs (ha : a ∈ cfg.pageAddrs) (hb : b ∈ cfg.pageAddrs) (hne : a ≠ b) :
    a + cfg.pageSize ≤ b ∨ b + cfg.pageSize ≤ a := by
  obtain ⟨p, -, rfl⟩ := mem_pageAddrs.mp ha
  obtain ⟨q, -, rfl⟩ := mem_pageAddrs.mp hb
  rcases Nat.lt_or_gt_of_ne fun h : p = q => hne (congrArg _ h) with hlt | hlt
  · exact .inl (pageAddr_add_le hlt)
  · exact .inr (pageAddr_add_le hlt)

/-- Pages lie in the flash of the module. -/
theorem le_of_mem_pageAddrs (ha : a ∈ cfg.pageAddrs) :
    cfg.startAddr ≤ a ∧ a + cfg.pageSize ≤ cfg.endAddr := by
  obtain ⟨p, hp, rfl⟩ := mem_pageAddrs.mp ha
  have hmul : (p + 1) * cfg.pageSize ≤ cfg.virtualPages * cfg.pageSize :=
    Nat.mul_le_mul_right _ hp
  rw [Nat.add_mul] at hmul
  simp only [FdsConfig.pageAddr, FdsConfig.endAddr]
  omega

theorem pos_of_mem_pageAddrs (ha : a ∈ cfg.pageAddrs) : 0 < a := by
  have hstart := cfg.startAddr_pos
  have hle := (le_of_mem_pageAddrs ha).1
  omega

/-- The valid records of a page are those that a walk finds. -/
theorem PageHolds.walk (h : PageHolds cfg f a vs) (ha : a ∈ cfg.pageAddrs) :
    pageRecords cfg f a = vs := by
  obtain ⟨rs, hpage, hvs⟩ := h
  rw [pageRecords_eq (pos_of_mem_pageAddrs ha) hpage.records, hvs]

theorem SwapTagged.walk (h : SwapTagged cfg f a rs) (ha : a ∈ cfg.pageAddrs) :
    pageRecords cfg f a = rs.filter FdsRecord.isValid :=
  pageRecords_eq (pos_of_mem_pageAddrs ha) h.records

theorem ErasedPage.walk (h : ErasedPage cfg f a) (ha : a ∈ cfg.pageAddrs) :
    pageRecords cfg f a = [] := by
  have hnone : RecordsAt f (a + cfg.pageSize) (a + 2) [] := fun hlt => h (a + 2) (by omega) hlt
  exact pageRecords_eq (pos_of_mem_pageAddrs ha) hnone

/-- What is written to one page leaves the others alone. -/
theorem agreeOn_store_page {ws : List (BitVec 32)} {dest : ℕ} (ha : a ∈ cfg.pageAddrs)
    (hb : b ∈ cfg.pageAddrs) (hne : b ≠ a) (hle : a ≤ dest)
    (hend : dest + ws.length ≤ a + cfg.pageSize) :
    f.AgreeOn (f.store dest ws) b (b + cfg.pageSize) := by
  have := disjoint_pageAddrs hb ha hne
  exact Flash.agreeOn_store (by omega)

theorem agreeOn_erase_page (ha : a ∈ cfg.pageAddrs) (hb : b ∈ cfg.pageAddrs) (hne : b ≠ a) :
    f.AgreeOn (f.erase a cfg.pageSize) b (b + cfg.pageSize) :=
  Flash.agreeOn_erase (disjoint_pageAddrs hb ha hne)

/-- The operations of fstorage on pages are accepted when its queue has room. -/
theorem fsStore_page {s : Fds cfg} {ws : List (BitVec 32)} {dest : ℕ} (ha : a ∈ cfg.pageAddrs)
    (hfull : s.fsFull = false) (hle : a ≤ dest) (hpos : 0 < ws.length)
    (hend : dest + ws.length ≤ a + cfg.pageSize) :
    fsStore s dest ws = (fsSuccess, { s with pending := some (.store dest ws) }) := by
  have := le_of_mem_pageAddrs ha
  unfold fsStore
  rw [if_neg (by omega), if_neg (by omega), hfull]
  rfl

theorem fsErase_page {s : Fds cfg} (ha : a ∈ cfg.pageAddrs) (hfull : s.fsFull = false) :
    fsErase s a = (fsSuccess, { s with pending := some (.erase a cfg.pageSize) }) := by
  have := le_of_mem_pageAddrs ha
  unfold fsErase
  rw [if_neg (by omega), hfull]
  rfl

/-- The addresses in `m_pages`. -/
def slotAddrs (s : Fds cfg) : List ℕ :=
  (List.range cfg.maxPages).map fun i => (s.pages.get i).pAddr

/-- `m_swap_page` and `m_pages` together point at every page once. -/
def Covers (s : Fds cfg) : Prop := (s.swapPage.pAddr :: slotAddrs s).Perm cfg.pageAddrs

/-- The page table of an initialised module. -/
structure Table (s : Fds cfg) : Prop where
  data : ∀ i < cfg.maxPages, (s.pages.get i).pageType = .data
  covers : Covers s

section Table

variable {s s' : Fds cfg} {i j : ℕ} {page : FdsPage}

theorem Covers.swap_mem (h : Covers s) : s.swapPage.pAddr ∈ cfg.pageAddrs :=
  h.subset (by simp)

theorem mem_slotAddrs : a ∈ slotAddrs s ↔ ∃ i < cfg.maxPages, a = (s.pages.get i).pAddr := by
  simp only [slotAddrs, List.mem_map, List.mem_range]
  constructor
  · rintro ⟨i, hi, rfl⟩
    exact ⟨i, hi, rfl⟩
  · rintro ⟨i, hi, rfl⟩
    exact ⟨i, hi, rfl⟩

theorem Covers.slot_mem (h : Covers s) (hi : i < cfg.maxPages) :
    (s.pages.get i).pAddr ∈ cfg.pageAddrs :=
  h.subset (List.mem_cons_of_mem _ (mem_slotAddrs.mpr ⟨i, hi, rfl⟩))

theorem Covers.nodup (h : Covers s) : (s.swapPage.pAddr :: slotAddrs s).Nodup :=
  h.nodup_iff.mpr (nodup_pageAddrs cfg)

theorem Covers.slot_ne_swap (h : Covers s) (hi : i < cfg.maxPages) :
    (s.pages.get i).pAddr ≠ s.swapPage.pAddr := by
  intro heq
  exact (List.nodup_cons.mp h.nodup).1 (mem_slotAddrs.mpr ⟨i, hi, heq.symm⟩)

theorem Covers.slot_ne_slot (h : Covers s) (hi : i < cfg.maxPages) (hj : j < cfg.maxPages)
    (hne : j ≠ i) : (s.pages.get j).pAddr ≠ (s.pages.get i).pAddr := by
  intro heq
  have hnodup := (List.nodup_cons.mp h.nodup).2
  exact hne (List.inj_on_of_nodup_map hnodup (List.mem_range.mpr hj) (List.mem_range.mpr hi) heq)

theorem slotAddrs_set (hpages : s'.pages = s.pages.set i page) (hi : i < cfg.maxPages) :
    slotAddrs s' = (slotAddrs s).set i page.pAddr := by
  apply List.ext_getElem
  · simp [slotAddrs]
  · intro j h₁ h₂
    simp only [slotAddrs, List.getElem_map, List.getElem_range, List.getElem_set, hpages,
      FixedArray.get_set _ _ _ _ hi]
    by_cases hji : j = i
    · simp [hji]
    · simp [hji, Ne.symm hji]

/-- **A page changes places with the swap page.** -/
theorem Covers.exchange (h : Covers s) (hi : i < cfg.maxPages)
    (hswap : s'.swapPage.pAddr = (s.pages.get i).pAddr)
    (hpages : s'.pages = s.pages.set i page) (haddr : page.pAddr = s.swapPage.pAddr) :
    Covers s' := by
  have hlen : i < (slotAddrs s).length := by simpa [slotAddrs] using hi
  have hget : (slotAddrs s)[i] = (s.pages.get i).pAddr := by simp [slotAddrs]
  unfold Covers
  rw [slotAddrs_set hpages hi, hswap, haddr, ← hget]
  calc (slotAddrs s)[i] :: (slotAddrs s).set i s.swapPage.pAddr
      _ |>.Perm ((slotAddrs s)[i] :: s.swapPage.pAddr :: (slotAddrs s).eraseIdx i) :=
        (List.set_perm_cons_eraseIdx hlen _).cons _
      _ |>.Perm (s.swapPage.pAddr :: (slotAddrs s)[i] :: (slotAddrs s).eraseIdx i) :=
        List.Perm.swap _ _ _
      _ |>.Perm (s.swapPage.pAddr :: slotAddrs s) :=
        (List.getElem_cons_eraseIdx_perm hlen).cons _
      _ |>.Perm cfg.pageAddrs := h

end Table

end NordicEsb
