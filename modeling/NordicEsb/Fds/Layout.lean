import NordicEsb.Lib.Flash
import Mathlib.Algebra.GroupWithZero.Nat

/-!
# Pages and Records in Flash

The flash data storage keeps its records on virtual pages: a tag of two words, then the records
one after the other, each a header of three words and its data, up to the first erased word.

- `pageIdentify`, `pageIsErased`, `pageScan` and `recordFindNext` read pages as the code does
- `FDS_PAGE_TAG_SIZE` is 2 and `FDS_HEADER_SIZE` is 3
- `RecordsAt` says which records a page holds; a record that is not valid may reach beyond the
  end of its page, since its data are never read
- `pageRecords` are the valid records that a walk with `recordFindNext` finds

**Main results**: a walk finds the valid records of the chain (`pageRecords_eq`), and a scan
counts their words (`pageScan_wordsWritten`).
-/

namespace NordicEsb

/-! ## §1 Configuration and tags -/

/-- The chip, which fixes the size of a physical page. -/
inductive NrfFamily where
  | nrf51
  | nrf52
deriving DecidableEq, Repr

/-- `FDS_PHY_PAGE_SIZE` -/
def NrfFamily.phyPageSize : NrfFamily → ℕ
  | .nrf51 => 256
  | .nrf52 => 1024

/-- The configuration of the module, and where `fs_init` has placed it. -/
structure FdsConfig where
  family : NrfFamily
  /-- `FDS_VIRTUAL_PAGES` -/
  virtualPages : ℕ
  /-- `FDS_VIRTUAL_PAGE_SIZE`, in words. -/
  pageSize : ℕ
  /-- `fs_config.p_start_addr`, in words. -/
  startAddr : ℕ
  /-- `#error "FDS requires at least two virtual pages."` -/
  two_le_virtualPages : 2 ≤ virtualPages
  /-- `#error "FDS_VIRTUAL_PAGE_SIZE must be a multiple of the size of a physical page."` -/
  phyPageSize_dvd : family.phyPageSize ∣ pageSize
  pageSize_pos : 0 < pageSize
  /-- Offsets in a page are `uint16_t`. -/
  pageSize_lt : pageSize < 2 ^ 16
  startAddr_pos : 0 < startAddr

namespace FdsConfig

variable (cfg : FdsConfig)

/-- `FDS_MAX_PAGES` -/
def maxPages : ℕ := cfg.virtualPages - 1

/-- `fs_config.p_start_addr + (i * FDS_PAGE_SIZE)` -/
def pageAddr (i : ℕ) : ℕ := cfg.startAddr + i * cfg.pageSize

/-- The addresses of all pages. -/
def pageAddrs : List ℕ := (List.range cfg.virtualPages).map cfg.pageAddr

end FdsConfig

/-- `FDS_PAGE_TAG_MAGIC` -/
def fdsPageTagMagic : BitVec 32 := 0xDEADC0DE

/-- `FDS_PAGE_TAG_SWAP` -/
def fdsPageTagSwap : BitVec 32 := 0xF11E01FF

/-- `FDS_PAGE_TAG_DATA` -/
def fdsPageTagData : BitVec 32 := 0xF11E01FE

/-- `FDS_ERASED_WORD` -/
abbrev fdsErasedWord : BitVec 32 := BitVec.allOnes 32

/-- `fds_page_type_t` -/
inductive FdsPageType where
  | data
  | swap
  | erased
  | undefined
deriving DecidableEq, Repr

/-! ## §2 Records -/

/-- `fds_header_t`: the words `tl`, `ic` and the record ID, as they lie in flash. -/
structure FdsHeader where
  tl : BitVec 32
  ic : BitVec 32
  recordId : BitVec 32
deriving DecidableEq, Repr

namespace FdsHeader

def recordKey (header : FdsHeader) : BitVec 16 := header.tl.extractLsb' 0 16

def lengthWords (header : FdsHeader) : BitVec 16 := header.tl.extractLsb' 16 16

def fileId (header : FdsHeader) : BitVec 16 := header.ic.extractLsb' 0 16

/-- `header_is_valid`: neither `FDS_FILE_ID_INVALID` nor `FDS_RECORD_KEY_DIRTY`. -/
def isValid (header : FdsHeader) : Bool := header.fileId != 0xFFFF && header.recordKey != 0

/-- The words of a record with this header. -/
def size (header : FdsHeader) : ℕ := 3 + header.lengthWords.toNat

end FdsHeader

/-- A record in flash. -/
@[ext]
structure FdsRecord where
  header : FdsHeader
  data : List (BitVec 32)
  length_data : data.length = header.lengthWords.toNat
deriving DecidableEq

namespace FdsRecord

def isValid (r : FdsRecord) : Bool := r.header.isValid

def size (r : FdsRecord) : ℕ := r.header.size

/-- The record as it lies in flash. -/
def words (r : FdsRecord) : List (BitVec 32) :=
  r.header.tl :: r.header.ic :: r.header.recordId :: r.data

@[simp] theorem length_words (r : FdsRecord) : r.words.length = r.size := by
  simp only [words, List.length_cons, r.length_data, size, FdsHeader.size]
  omega

theorem three_le_size (r : FdsRecord) : 3 ≤ r.size := Nat.le_add_right _ _

end FdsRecord

/-- The words of a list of records. -/
def recordsSize (rs : List FdsRecord) : ℕ := (rs.map FdsRecord.size).sum

@[simp] theorem recordsSize_nil : recordsSize [] = 0 := rfl

@[simp] theorem recordsSize_cons (r : FdsRecord) (rs : List FdsRecord) :
    recordsSize (r :: rs) = r.size + recordsSize rs := rfl

@[simp] theorem recordsSize_append (rs rs' : List FdsRecord) :
    recordsSize (rs ++ rs') = recordsSize rs + recordsSize rs' := by
  simp [recordsSize]

theorem recordsSize_filter_le (rs : List FdsRecord) :
    recordsSize (rs.filter FdsRecord.isValid) ≤ recordsSize rs := by
  induction rs with
  | nil => simp
  | cons r rs ih =>
    rw [List.filter_cons]
    split
    · simp only [recordsSize_cons]
      omega
    · simp only [recordsSize_cons]
      omega

/-! ## §3 Reading pages -/

section Reading

variable (cfg : FdsConfig) (f : Flash 32)

/-- `(fds_header_t*)p_addr` -/
def fdsHeaderAt (a : ℕ) : FdsHeader := ⟨f a, f (a + 1), f (a + 2)⟩

/-- The record at an address. -/
def fdsRecordAt (a : ℕ) : FdsRecord :=
  ⟨fdsHeaderAt f a, f.read (a + 3) (fdsHeaderAt f a).lengthWords.toNat, by simp⟩

/-- `page_identify` -/
def pageIdentify (a : ℕ) : FdsPageType :=
  if f a ≠ fdsPageTagMagic then .undefined
  else if f (a + 1) = fdsPageTagSwap then .swap
  else if f (a + 1) = fdsPageTagData then .data
  else .undefined

/-- `page_is_erased` -/
def pageIsErased (a : ℕ) : Bool :=
  (List.range cfg.pageSize).all fun i => f (a + i) == fdsErasedWord

/-- What `page_scan` finds out. -/
structure PageScan where
  wordsWritten : BitVec 16
  canGc : Bool
  latestRecId : BitVec 32
deriving DecidableEq, Repr

/-- The loop of `page_scan` from address `a` on, at most `fuel` records. -/
def pageScanLoop (pEnd : ℕ) : ℕ → ℕ → PageScan → PageScan
  | 0, _, scan => scan
  | fuel + 1, a, scan =>
    if a < pEnd ∧ f a ≠ fdsErasedWord then
      let header := fdsHeaderAt f a
      pageScanLoop pEnd fuel (a + header.size)
        { wordsWritten := scan.wordsWritten + (3 + header.lengthWords)
          canGc := scan.canGc || !header.isValid
          latestRecId :=
            if header.isValid ∧ scan.latestRecId < header.recordId then header.recordId
            else scan.latestRecId }
    else scan

/-- `page_scan`: every record takes up words, so there are fewer records than words. -/
def pageScan (a : ℕ) (latestRecId : BitVec 32) : PageScan :=
  pageScanLoop f (a + cfg.pageSize) cfg.pageSize (a + 2)
    { wordsWritten := 2, canGc := false, latestRecId := latestRecId }

/-- The loop of `record_find_next` from address `a` on, at most `fuel` records. -/
def recordFindLoop (pEnd : ℕ) : ℕ → ℕ → Option ℕ
  | 0, _ => none
  | fuel + 1, a =>
    if a < pEnd ∧ f a ≠ fdsErasedWord then
      if (fdsHeaderAt f a).isValid then some a
      else recordFindLoop pEnd fuel (a + (fdsHeaderAt f a).size)
    else none

/-- Where `record_find_next` starts: behind the record at `p`, or, if `p` is `NULL`, at the first
    record of the page. -/
def recordNext (a p : ℕ) : ℕ :=
  if p ≠ 0 then p + (fdsHeaderAt f p).size else a + 2

/-- `record_find_next` on the page at `a`. -/
def recordFindNext (a p : ℕ) : Option ℕ :=
  recordFindLoop f (a + cfg.pageSize) cfg.pageSize (recordNext f a p)

/-- The records that repeated calls of `record_find_next` find, at most `fuel`. -/
def recordsAfter (a : ℕ) : ℕ → ℕ → List FdsRecord
  | 0, _ => []
  | fuel + 1, p =>
    match recordFindNext cfg f a p with
    | some q => fdsRecordAt f q :: recordsAfter a fuel q
    | none => []

/-- The valid records of the page at `a`. -/
def pageRecords (a : ℕ) : List FdsRecord := recordsAfter cfg f a cfg.pageSize 0

end Reading

/-! ## §4 The records of a page -/

variable {cfg : FdsConfig} {f g : Flash 32} {a pEnd : ℕ} {r : FdsRecord} {rs rs' : List FdsRecord}

/-- **The records from address `a` on**, up to the first erased word or the end of the page. -/
def RecordsAt (f : Flash 32) (pEnd : ℕ) : ℕ → List FdsRecord → Prop
  | a, [] => a < pEnd → f a = fdsErasedWord
  | a, r :: rs =>
    (a + 3 ≤ pEnd ∧ f a ≠ fdsErasedWord ∧ fdsHeaderAt f a = r.header ∧
      (r.isValid = true → a + r.size ≤ pEnd ∧ fdsRecordAt f a = r)) ∧
    RecordsAt f pEnd (a + r.size) rs

instance decidableRecordsAt (f : Flash 32) (pEnd : ℕ) :
    ∀ (a : ℕ) (rs : List FdsRecord), Decidable (RecordsAt f pEnd a rs)
  | a, [] => inferInstanceAs (Decidable (a < pEnd → f a = fdsErasedWord))
  | a, r :: rs =>
    have := decidableRecordsAt f pEnd (a + r.size) rs
    inferInstanceAs (Decidable (_ ∧ _))

theorem fdsHeaderAt_congr (hfg : f.AgreeOn g a (a + 3)) :
    fdsHeaderAt f a = fdsHeaderAt g a := by
  unfold fdsHeaderAt
  rw [hfg a le_rfl (by omega), hfg (a + 1) (by omega) (by omega),
    hfg (a + 2) (by omega) (by omega)]

theorem fdsRecordAt_congr (hfg : f.AgreeOn g a (a + (fdsHeaderAt f a).size)) :
    fdsRecordAt f a = fdsRecordAt g a := by
  have hheader : fdsHeaderAt f a = fdsHeaderAt g a :=
    fdsHeaderAt_congr (hfg.mono le_rfl (by simp only [FdsHeader.size]; omega))
  have hdata : f.read (a + 3) (fdsHeaderAt f a).lengthWords.toNat
      = g.read (a + 3) (fdsHeaderAt f a).lengthWords.toNat :=
    Flash.read_congr (hfg.mono (by omega) (by simp only [FdsHeader.size]; omega))
  rw [FdsRecord.ext_iff]
  exact ⟨hheader, hdata.trans (by rw [hheader]; rfl)⟩

/-- Memories that agree up to the end of the page hold the same records. -/
theorem RecordsAt.congr (h : RecordsAt f pEnd a rs) (hfg : f.AgreeOn g a pEnd) :
    RecordsAt g pEnd a rs := by
  induction rs generalizing a with
  | nil =>
    intro hlt
    rw [← hfg a le_rfl hlt]
    exact h hlt
  | cons r rs ih =>
    obtain ⟨⟨hfits, hne, hheader, hvalid⟩, hrest⟩ := h
    have hg : fdsHeaderAt g a = r.header := by
      rw [← fdsHeaderAt_congr (hfg.mono le_rfl hfits)]
      exact hheader
    refine ⟨⟨hfits, ?_, hg, ?_⟩, ih hrest (hfg.mono (Nat.le_add_right _ _) le_rfl)⟩
    · rw [← hfg a le_rfl (by omega)]
      exact hne
    · intro hr
      obtain ⟨hle, hat⟩ := hvalid hr
      refine ⟨hle, ?_⟩
      rw [← fdsRecordAt_congr (hfg.mono le_rfl (by rw [hheader]; exact hle))]
      exact hat

/-- What follows the first records. -/
theorem RecordsAt.right (h : RecordsAt f pEnd a (rs ++ rs')) :
    RecordsAt f pEnd (a + recordsSize rs) rs' := by
  induction rs generalizing a with
  | nil => simpa using h
  | cons r rs ih =>
    have := ih h.2
    rwa [recordsSize_cons, ← Nat.add_assoc]

/-- Each record takes up words of the page. -/
theorem RecordsAt.length_le (h : RecordsAt f pEnd a rs) : rs.length ≤ pEnd - a := by
  induction rs generalizing a with
  | nil => simp
  | cons r rs ih =>
    have hrest := ih h.2
    have hfits := h.1.1
    have hsize := r.three_le_size
    simp only [List.length_cons]
    omega

/-- A list of records begins with those that are not valid. -/
theorem recordsValid_cases (rs : List FdsRecord) :
    (∀ r ∈ rs, r.isValid = false) ∨
      ∃ skip r post, rs = skip ++ r :: post ∧ (∀ r ∈ skip, r.isValid = false) ∧
        r.isValid = true := by
  induction rs with
  | nil => exact .inl (by simp)
  | cons r rs ih =>
    cases hr : r.isValid with
    | true => exact .inr ⟨[], r, rs, rfl, by simp, hr⟩
    | false =>
      rcases ih with hnone | ⟨skip, r', post, rfl, hskip, hr'⟩
      · exact .inl (by simpa [hr] using hnone)
      · exact .inr ⟨r :: skip, r', post, rfl, by simpa [hr] using hskip, hr'⟩

/-! ## §5 Walking and scanning -/

theorem recordFindLoop_none (fuel : ℕ) (h : RecordsAt f pEnd a rs)
    (hrs : ∀ r ∈ rs, r.isValid = false) : recordFindLoop f pEnd fuel a = none := by
  induction fuel generalizing a rs with
  | zero => rfl
  | succ fuel ih =>
    unfold recordFindLoop
    cases rs with
    | nil =>
      have hend : ¬ (a < pEnd ∧ f a ≠ fdsErasedWord) := fun ⟨hlt, hne⟩ => hne (h hlt)
      rw [if_neg hend]
    | cons r rs =>
      obtain ⟨⟨hfits, hne, hheader, -⟩, hrest⟩ := h
      have hr : r.isValid = false := hrs r (by simp)
      have hinvalid : r.header.isValid = false := hr
      rw [if_pos ⟨by omega, hne⟩, hheader, if_neg (by simp [hinvalid])]
      exact ih hrest fun r' hr' => hrs r' (List.mem_cons_of_mem _ hr')

theorem recordFindLoop_some {fuel : ℕ} {skip post : List FdsRecord}
    (h : RecordsAt f pEnd a (skip ++ r :: post)) (hskip : ∀ r ∈ skip, r.isValid = false)
    (hr : r.isValid = true) (hfuel : skip.length < fuel) :
    recordFindLoop f pEnd fuel a = some (a + recordsSize skip) := by
  induction skip generalizing a fuel with
  | nil =>
    simp only [List.length_nil] at hfuel
    obtain ⟨fuel, rfl⟩ : ∃ n, fuel = n + 1 := ⟨fuel - 1, by omega⟩
    obtain ⟨⟨hfits, hne, hheader, -⟩, -⟩ := h
    have hvalid : r.header.isValid = true := hr
    unfold recordFindLoop
    rw [if_pos ⟨by omega, hne⟩, hheader, if_pos hvalid]
    rfl
  | cons r' skip ih =>
    simp only [List.length_cons] at hfuel
    obtain ⟨fuel, rfl⟩ : ∃ n, fuel = n + 1 := ⟨fuel - 1, by omega⟩
    obtain ⟨⟨hfits, hne, hheader, -⟩, hrest⟩ := h
    have hinvalid : r'.header.isValid = false := hskip r' (by simp)
    unfold recordFindLoop
    rw [if_pos ⟨by omega, hne⟩, hheader, if_neg (by simp [hinvalid])]
    have hnext : recordFindLoop f pEnd fuel (a + r'.size)
        = some (a + r'.size + recordsSize skip) :=
      ih hrest (fun r'' hr'' => hskip r'' (List.mem_cons_of_mem _ hr'')) (by omega)
    rw [recordsSize_cons, ← Nat.add_assoc]
    exact hnext

theorem recordNext_pos (ha : 0 < a) (p : ℕ) : 0 < recordNext f a p := by
  unfold recordNext
  split <;> omega

/-- `record_find_next` finds nothing when no valid record is left. -/
theorem recordFindNext_none {p : ℕ} (h : RecordsAt f (a + cfg.pageSize) (recordNext f a p) rs)
    (hrs : ∀ r ∈ rs, r.isValid = false) : recordFindNext cfg f a p = none :=
  recordFindLoop_none _ h hrs

/-- `record_find_next` skips the records that are not valid. -/
theorem recordFindNext_some {p : ℕ} {skip post : List FdsRecord}
    (h : RecordsAt f (a + cfg.pageSize) (recordNext f a p) (skip ++ r :: post))
    (hskip : ∀ r ∈ skip, r.isValid = false) (hr : r.isValid = true)
    (hlen : (skip ++ r :: post).length ≤ cfg.pageSize) :
    recordFindNext cfg f a p = some (recordNext f a p + recordsSize skip) := by
  simp only [List.length_append, List.length_cons] at hlen
  exact recordFindLoop_some h hskip hr (by omega)

theorem recordsAfter_eq {fuel p : ℕ} (ha : 0 < a)
    (h : RecordsAt f (a + cfg.pageSize) (recordNext f a p) rs) (hlen : rs.length ≤ cfg.pageSize)
    (hfuel : rs.length ≤ fuel) : recordsAfter cfg f a fuel p = rs.filter FdsRecord.isValid := by
  induction fuel generalizing p rs with
  | zero =>
    obtain rfl : rs = [] := List.length_eq_zero_iff.mp (by omega)
    rfl
  | succ fuel ih =>
    unfold recordsAfter
    rcases recordsValid_cases rs with hnone | ⟨skip, r, post, rfl, hskip, hr⟩
    · rw [recordFindNext_none h hnone]
      exact (List.filter_eq_nil_iff.mpr fun r hr => by simp [hnone r hr]).symm
    · rw [recordFindNext_some h hskip hr hlen]
      obtain ⟨q, hq⟩ : ∃ q, q = recordNext f a p + recordsSize skip := ⟨_, rfl⟩
      have hright := h.right
      rw [← hq] at hright ⊢
      obtain ⟨⟨-, -, hheader, hvalid⟩, hpost⟩ := hright
      have hqpos : q ≠ 0 := by
        have := recordNext_pos (f := f) ha p
        omega
      have hnext : recordNext f a q = q + r.size := by
        unfold recordNext
        rw [if_pos hqpos, hheader]
        rfl
      simp only [List.length_append, List.length_cons] at hlen hfuel
      have hrest : recordsAfter cfg f a fuel q = post.filter FdsRecord.isValid :=
        ih (by rwa [hnext]) (by omega) (by omega)
      have hskipped : skip.filter FdsRecord.isValid = [] :=
        List.filter_eq_nil_iff.mpr fun r hr => by simp [hskip r hr]
      simp only [hrest, (hvalid hr).2, List.filter_append, hskipped, List.nil_append,
        List.filter_cons_of_pos hr]

/-- **A walk over a page finds its valid records.** -/
theorem pageRecords_eq (ha : 0 < a) (h : RecordsAt f (a + cfg.pageSize) (a + 2) rs) :
    pageRecords cfg f a = rs.filter FdsRecord.isValid := by
  have hlen := h.length_le
  exact recordsAfter_eq ha h (by omega) (by omega)

/-- **A scan counts the words of the records**, in 16 bits. -/
theorem pageScanLoop_wordsWritten {fuel : ℕ} (h : RecordsAt f pEnd a rs)
    (hfuel : rs.length ≤ fuel) (scan : PageScan) :
    (pageScanLoop f pEnd fuel a scan).wordsWritten
      = scan.wordsWritten + BitVec.ofNat 16 (recordsSize rs) := by
  induction fuel generalizing a rs scan with
  | zero =>
    obtain rfl : rs = [] := List.length_eq_zero_iff.mp (by omega)
    simp [pageScanLoop]
  | succ fuel ih =>
    unfold pageScanLoop
    cases rs with
    | nil =>
      have hend : ¬ (a < pEnd ∧ f a ≠ fdsErasedWord) := fun ⟨hlt, hne⟩ => hne (h hlt)
      rw [if_neg hend]
      simp
    | cons r rs =>
      obtain ⟨⟨hfits, hne, hheader, -⟩, hrest⟩ := h
      simp only [List.length_cons] at hfuel
      rw [if_pos ⟨by omega, hne⟩, hheader]
      have hstep := ih hrest (by omega)
      simp only [FdsRecord.size] at hstep
      rw [hstep]
      simp only [recordsSize_cons, FdsRecord.size, FdsHeader.size]
      have hthree : (3 : BitVec 16).toNat = 3 := rfl
      apply BitVec.eq_of_toNat_eq
      simp only [BitVec.toNat_add, BitVec.toNat_ofNat, hthree]
      omega

theorem pageScan_wordsWritten (h : RecordsAt f (a + cfg.pageSize) (a + 2) rs)
    (latestRecId : BitVec 32) :
    (pageScan cfg f a latestRecId).wordsWritten = 2 + BitVec.ofNat 16 (recordsSize rs) := by
  have hlen := h.length_le
  exact pageScanLoop_wordsWritten h (by omega) _

end NordicEsb
