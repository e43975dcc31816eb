import NordicEsb.Fds.RecordCrc

/-!
# A Record That Is Written Passes Its Check

A write puts its words into flash one store after the other: the first word of the header, the
record ID, the chunks, and the CRC with the file ID at last. If it has begun on erased flash, behind
the last record of its page, the record is there when the write reports success, a search for its ID
finds it, and its CRC is that of the words in flash.

- `WritesFresh` is what a write must find when it begins; one of its parts is that the length in the
  header is that of the chunks
- `WriteAt` says what of the record is in flash when a step begins, `WriteGoes` that fstorage
  executes a step
- `RecordIn` says that the record is in flash and the only one with its ID

**Main results**: every step of a write that goes on keeps this (`writeExecute_begins`,
`writeExecute_goes`), and the last one finds the record (`WriteAt.recordIn`).
-/

namespace NordicEsb

variable {cfg : FdsConfig} {sz : FdsQueueSizes} {f g : Flash 32} {a b p q pEnd : ℕ}
  {id : BitVec 32}

/-! ## §1 Searching a record by its ID -/

/-- The loop of `record_find_by_desc` over a page finds the first valid header with the ID. -/
theorem recordIdLoop_eq {fuel : ℕ} (ha : 0 < a) (hp : a + 2 ≤ recordNext f a p)
    (hfuel : a + cfg.pageSize ≤ recordNext f a p + fuel) :
    recordIdLoop cfg f a id fuel p =
      (((headersOn f (a + cfg.pageSize) (recordNext f a p)).filter fun h => h.2.isValid).find?
        fun h => h.2.recordId = id).map Prod.fst := by
  induction fuel generalizing p with
  | zero =>
    rw [headersOn_nil (by omega)]
    rfl
  | succ fuel ih =>
    unfold recordIdLoop
    rw [recordFindNext_eq hp]
    cases hfind : (headersOn f (a + cfg.pageSize) (recordNext f a p)).find? fun h => h.2.isValid with
    | none =>
      have hnone : (headersOn f (a + cfg.pageSize) (recordNext f a p)).filter
          (fun h => h.2.isValid) = [] :=
        List.filter_eq_nil_iff.mpr (List.find?_eq_none.mp hfind)
      rw [hnone]
      rfl
    | some x =>
      obtain ⟨hle, -, hx⟩ := mem_headersOn (List.mem_of_find?_eq_some hfind)
      have hnext : recordNext f a x.1 = x.1 + x.2.size := by
        unfold recordNext
        rw [if_pos (by omega), hx]
      have hsize := x.2.three_le_size
      rw [headersOn_filter_find hfind]
      dsimp only [Option.map_some]
      by_cases hid : x.2.recordId = id
      · rw [← hx, if_pos hid, List.find?_cons_of_pos (by simpa using hid)]
        rfl
      · rw [← hx, if_neg hid, List.find?_cons_of_neg (by simpa using hid),
          ih (by omega) (by omega), hnext]

/-- The page at which a search finds the record. -/
theorem recordIdLoop_page (ha : 0 < a) :
    recordIdLoop cfg f a id cfg.pageSize 0 =
      ((pageHeaders cfg f a).find? fun h => h.2.recordId = id).map Prod.fst :=
  recordIdLoop_eq (p := 0) ha le_rfl (by
    show a + cfg.pageSize ≤ a + 2 + cfg.pageSize
    omega)

/-- The address of a page is not `NULL`. -/
theorem Table.pAddr_pos {s : Fds cfg} (h : Table s) {i : ℕ} (hi : i < cfg.maxPages) :
    0 < (s.pages.get i).pAddr := by
  obtain ⟨k, -, hk⟩ := mem_pageAddrs.mp (h.covers.slot_mem hi)
  have hpos := cfg.startAddr_pos
  rw [hk]
  unfold FdsConfig.pageAddr
  omega

/-- **A search finds the record** if no page before it has the ID. -/
theorem recordIdPages_eq_some {s : Fds cfg} (h : Table s) {k : ℕ} {x : ℕ × FdsHeader}
    (hbefore : ∀ j < k, ∀ y ∈ pageHeaders cfg s.flash (s.pages.get j).pAddr, y.2.recordId ≠ id)
    (hk : k < cfg.maxPages)
    (hfound : (pageHeaders cfg s.flash (s.pages.get k).pAddr).find? (fun h => h.2.recordId = id) =
      some x) :
    recordIdPages s id cfg.maxPages 0 = some (k, x.1) := by
  have hfrom : ∀ n i, i ≤ k → k < i + n → i + n ≤ cfg.maxPages →
      recordIdPages s id n i = some (k, x.1) := by
    intro n
    induction n with
    | zero => intro i hle hlt _; omega
    | succ n ih =>
      intro i hle hlt hmax
      unfold recordIdPages
      rw [recordIdLoop_page (h.pAddr_pos (by omega))]
      by_cases hik : i = k
      · subst hik
        rw [hfound]
        rfl
      · have hnone : (pageHeaders cfg s.flash (s.pages.get i).pAddr).find?
            (fun h => h.2.recordId = id) = none :=
          List.find?_eq_none.mpr fun y hy => by
            simpa using hbefore i (by omega) y hy
        rw [hnone]
        exact ih (i + 1) (by omega) (by omega) (by omega)
  exact hfrom cfg.maxPages 0 (Nat.zero_le _) (by omega) (by omega)

/-- What a search finds is a valid header on a page. -/
theorem recordIdPages_some {s : Fds cfg} (h : Table s) {n i : ℕ} {found : ℕ × ℕ}
    (hmax : i + n ≤ cfg.maxPages) (hfound : recordIdPages s id n i = some found) :
    ∃ j < cfg.maxPages, ∃ header,
      (found.2, header) ∈ pageHeaders cfg s.flash (s.pages.get j).pAddr := by
  induction n generalizing i with
  | zero => cases hfound
  | succ n ih =>
    unfold recordIdPages at hfound
    rw [recordIdLoop_page (h.pAddr_pos (by omega))] at hfound
    cases hfind : (pageHeaders cfg s.flash (s.pages.get i).pAddr).find?
        (fun h => h.2.recordId = id) with
    | none =>
      rw [hfind] at hfound
      exact ih (by omega) hfound
    | some x =>
      rw [hfind] at hfound
      obtain rfl := Option.some.inj hfound
      exact ⟨i, by omega, x.2, List.mem_of_find?_eq_some hfind⟩

/-! ## §2 Chains -/

/-- A chain depends on the words from its begin to the end of the page, and on a header that begins
    before the end. -/
theorem headersOn_congr (hfg : f.AgreeOn g b (pEnd + 2)) :
    headersOn g pEnd b = headersOn f pEnd b := by
  induction b using headersOn_induction f pEnd with
  | hnil b h =>
    rw [headersOn_nil h, headersOn_nil]
    rintro ⟨hlt, hne⟩
    rw [← hfg b le_rfl (by omega)] at hne
    exact h ⟨hlt, hne⟩
  | hcons b hlt hne ih =>
    have hheader : fdsHeaderAt f b = fdsHeaderAt g b :=
      fdsHeaderAt_congr (hfg.mono le_rfl (by omega))
    rw [headersOn_cons hlt hne, headersOn_cons hlt (by rwa [← hfg b le_rfl (by omega)]), ← hheader]
    rw [ih (hfg.mono (by have := (fdsHeaderAt f b).three_le_size; omega) le_rfl)]

/-- The words of the records of a chain. -/
def chainSize (f : Flash 32) (pEnd b : ℕ) : ℕ :=
  ((headersOn f pEnd b).map fun h => h.2.size).sum

theorem chainSize_cons (hlt : b < pEnd) (hne : f b ≠ fdsErasedWord) :
    chainSize f pEnd b =
      (fdsHeaderAt f b).size + chainSize f pEnd (b + (fdsHeaderAt f b).size) := by
  unfold chainSize
  rw [headersOn_cons hlt hne]
  rfl

/-- Every record of a chain ends before the chain does. -/
theorem le_of_mem_headersOn {x : ℕ × FdsHeader} (hx : x ∈ headersOn f pEnd b) :
    x.1 + x.2.size ≤ b + chainSize f pEnd b := by
  induction b using headersOn_induction f pEnd with
  | hnil b h =>
    rw [headersOn_nil h] at hx
    cases hx
  | hcons b hlt hne ih =>
    rw [chainSize_cons hlt hne]
    rw [headersOn_cons hlt hne] at hx
    rcases List.mem_cons.mp hx with rfl | hx
    · dsimp only
      omega
    · have hle := ih hx
      omega

/-- **A record behind a chain** makes it longer. -/
theorem headersOn_extend (hend : b + chainSize f pEnd b = a) (ha : a + 2 ≤ pEnd)
    (hfg : f.AgreeOn g b a) : headersOn g pEnd b = headersOn f pEnd b ++ headersOn g pEnd a := by
  induction b using headersOn_induction f pEnd with
  | hnil b h =>
    have hnil := headersOn_nil h
    unfold chainSize at hend
    rw [hnil] at hend ⊢
    obtain rfl : b = a := hend
    rfl
  | hcons b hlt hne ih =>
    have hsize := (fdsHeaderAt f b).three_le_size
    rw [chainSize_cons hlt hne] at hend
    have hheader : fdsHeaderAt f b = fdsHeaderAt g b :=
      fdsHeaderAt_congr (hfg.mono le_rfl (by omega))
    have hne' : g b ≠ fdsErasedWord := by rwa [← hfg b le_rfl (by omega)]
    rw [headersOn_cons hlt hne, headersOn_cons hlt hne', ← hheader,
      ih (by omega) (hfg.mono (by omega) le_rfl)]
    rfl

/-! ## §3 The one record with an ID -/

/-- **The only valid record with this ID** is this one, on page `k`. -/
structure OnlyRecord (s : Fds cfg) (id : BitVec 32) (k : ℕ) (x : ℕ × FdsHeader) : Prop where
  page : k < cfg.maxPages
  mem : x ∈ pageHeaders cfg s.flash (s.pages.get k).pAddr
  recordId : x.2.recordId = id
  only : ∀ j < cfg.maxPages, ∀ y ∈ pageHeaders cfg s.flash (s.pages.get j).pAddr,
    y.2.recordId = id → j = k ∧ y = x

/-- A search finds it. -/
theorem OnlyRecord.recordIdPages_eq {s : Fds cfg} {k : ℕ} {x : ℕ × FdsHeader} (h : Table s)
    (hx : OnlyRecord s id k x) : recordIdPages s id cfg.maxPages 0 = some (k, x.1) := by
  have hpage := hx.page
  refine recordIdPages_eq_some h (fun j hj y hy hid => ?_) hpage ?_
  · have hjk := (hx.only j (by omega) y hy hid).1
    omega
  · cases hfind : (pageHeaders cfg s.flash (s.pages.get k).pAddr).find?
        (fun h => h.2.recordId = id) with
    | none =>
      have hnone := List.find?_eq_none.mp hfind x hx.mem
      simp [hx.recordId] at hnone
    | some y =>
      have hid : y.2.recordId = id := by simpa using List.find?_some hfind
      rw [(hx.only k hpage y (List.mem_of_find?_eq_some hfind) hid).2]

/-- The pages of the table do not overlap. -/
theorem Table.disjoint_pages {s : Fds cfg} (h : Table s) {i j : ℕ} (hi : i < cfg.maxPages)
    (hj : j < cfg.maxPages) (hne : i ≠ j) :
    (s.pages.get i).pAddr + cfg.pageSize ≤ (s.pages.get j).pAddr ∨
      (s.pages.get j).pAddr + cfg.pageSize ≤ (s.pages.get i).pAddr :=
  disjoint_pageAddrs (h.covers.slot_mem hi) (h.covers.slot_mem hj) (h.covers.slot_ne_slot hj hi hne)

/-- A record that is flagged is no valid one any more, and every other one still is. -/
theorem mem_pageHeaders_flag {h : FdsHeader} {y : ℕ × FdsHeader}
    (hp : (p, h) ∈ pageHeaders cfg f a) :
    y ∈ pageHeaders cfg (f.store p [fdsTlDirty]) a ↔ y ∈ pageHeaders cfg f a ∧ y.1 ≠ p := by
  unfold pageHeaders at hp ⊢
  obtain ⟨hchain, -⟩ := List.mem_filter.mp hp
  obtain ⟨pre, post, hsplit⟩ := List.append_of_mem hchain
  have hsize := h.three_le_size
  obtain ⟨hpost, hpre⟩ := headersOn_split hsplit
  rw [headersOn_flag hsplit, hsplit]
  simp only [List.filter_append, List.filter_cons, h.flagged_isValid, Bool.false_eq_true, if_false,
    List.mem_append, List.mem_filter]
  have hbefore : y ∈ pre → y.1 ≠ p := fun hy => by
    have hle := hpre y hy
    dsimp only at hle
    omega
  have hbehind : y ∈ post → y.1 ≠ p := fun hy => by
    rw [hpost] at hy
    have hle := (mem_headersOn hy).1
    dsimp only at hle
    omega
  constructor
  · rintro (⟨hy, hvalid⟩ | ⟨hy, hvalid⟩)
    · exact ⟨.inl ⟨hy, hvalid⟩, hbefore hy⟩
    · refine ⟨.inr ?_, hbehind hy⟩
      split
      · exact List.mem_cons_of_mem _ (List.mem_filter.mpr ⟨hy, hvalid⟩)
      · exact List.mem_filter.mpr ⟨hy, hvalid⟩
  · rintro ⟨hy | hy, hne⟩
    · exact .inl hy
    · refine .inr ?_
      split at hy
      · rcases List.mem_cons.mp hy with rfl | hy
        · exact absurd rfl hne
        · exact List.mem_filter.mp hy
      · exact List.mem_filter.mp hy

/-- **Flagging another record** leaves it the only one. -/
theorem OnlyRecord.flag {s t : Fds cfg} {j k : ℕ} {h : FdsHeader} {x : ℕ × FdsHeader}
    (htable : Table s) (hx : OnlyRecord s id k x) (hj : j < cfg.maxPages)
    (hp : (p, h) ∈ pageHeaders cfg s.flash (s.pages.get j).pAddr) (hne : x.1 ≠ p)
    (hflash : t.flash = s.flash.store p [fdsTlDirty])
    (haddr : ∀ i, (t.pages.get i).pAddr = (s.pages.get i).pAddr) : OnlyRecord t id k x := by
  obtain ⟨hle, hlt, -⟩ := mem_headersOn (List.mem_of_mem_filter hp)
  have hpages : ∀ i < cfg.maxPages, ∀ y, y.1 ≠ p ∧
      y ∈ pageHeaders cfg s.flash (s.pages.get i).pAddr →
      y ∈ pageHeaders cfg t.flash (t.pages.get i).pAddr := by
    rintro i hi y ⟨hyp, hy⟩
    rw [hflash, haddr]
    by_cases hij : i = j
    · subst hij
      exact (mem_pageHeaders_flag hp).mpr ⟨hy, hyp⟩
    · rwa [pageHeaders_flag_ne (htable.covers.slot_mem hj) (htable.covers.slot_mem hi)
        (htable.covers.slot_ne_slot hj hi hij) hle hlt]
  have hpages' : ∀ i < cfg.maxPages, ∀ y,
      y ∈ pageHeaders cfg t.flash (t.pages.get i).pAddr →
      y ∈ pageHeaders cfg s.flash (s.pages.get i).pAddr := by
    intro i hi y hy
    rw [hflash, haddr] at hy
    by_cases hij : i = j
    · subst hij
      exact ((mem_pageHeaders_flag hp).mp hy).1
    · rwa [pageHeaders_flag_ne (htable.covers.slot_mem hj) (htable.covers.slot_mem hi)
        (htable.covers.slot_ne_slot hj hi hij) hle hlt] at hy
  exact ⟨hx.page, hpages k hx.page x ⟨hne, hx.mem⟩, hx.recordId,
    fun i hi y hy => hx.only i hi y (hpages' i hi y hy)⟩

/-! ## §4 A record that is stored -/

/-- The record without the second word of its header, on this flash. -/
def FdsHeader.storedPart (header : FdsHeader) (f : Flash 32) (a : ℕ) (ws : List (BitVec 32)) :
    Flash 32 :=
  ((f.store a [header.tl]).store (a + 2) [header.recordId]).store (a + 3) ws

/-- The record on this flash. -/
def FdsHeader.stored (header : FdsHeader) (f : Flash 32) (a : ℕ) (ws : List (BitVec 32)) :
    Flash 32 :=
  (header.storedPart f a ws).store (a + 1) [header.ic]

section Stored

variable {header : FdsHeader} {ws vs : List (BitVec 32)}

/-- One chunk more. -/
theorem storedPart_append (header : FdsHeader) (f : Flash 32) (a : ℕ) (ws vs : List (BitVec 32)) :
    (header.storedPart f a ws).store (a + 3 + ws.length) vs =
      header.storedPart f a (ws ++ vs) := Flash.store_append _ _ _ _

/-- What is outside the record is not touched. -/
theorem agreeOn_stored {n m : ℕ} (hdisj : m ≤ a ∨ a + 3 + ws.length ≤ n) :
    f.AgreeOn (header.stored f a ws) n m := by
  intro x hle hlt
  unfold FdsHeader.stored FdsHeader.storedPart
  symm
  rw [Flash.store_apply_outside (by rw [List.length_singleton]; omega),
    Flash.store_apply_outside (by omega),
    Flash.store_apply_outside (by rw [List.length_singleton]; omega),
    Flash.store_apply_outside (by rw [List.length_singleton]; omega)]

/-- **The header can be read.** -/
theorem fdsHeaderAt_stored (herased : f.ErasedOn a (a + 3)) :
    fdsHeaderAt (header.stored f a ws) a = header := by
  have htl : header.stored f a ws a = header.tl := by
    unfold FdsHeader.stored FdsHeader.storedPart
    rw [Flash.store_apply_outside (.inl (by omega)), Flash.store_apply_outside (.inl (by omega)),
      Flash.store_apply_outside (.inl (by omega)), Flash.store_singleton,
      herased a le_rfl (by omega), BitVec.allOnes_and]
  have hic : header.stored f a ws (a + 1) = header.ic := by
    unfold FdsHeader.stored FdsHeader.storedPart
    rw [Flash.store_singleton, Flash.store_apply_outside (.inl (by omega)),
      Flash.store_apply_outside (.inl (by omega)),
      Flash.store_apply_outside (.inr (by rw [List.length_singleton])),
      herased (a + 1) (by omega) (by omega), BitVec.allOnes_and]
  have hid : header.stored f a ws (a + 2) = header.recordId := by
    unfold FdsHeader.stored FdsHeader.storedPart
    rw [Flash.store_apply_outside (.inr (by rw [List.length_singleton])),
      Flash.store_apply_outside (.inl (by omega)), Flash.store_singleton,
      Flash.store_apply_outside (.inr (by rw [List.length_singleton]; omega)),
      herased (a + 2) (by omega) (by omega), BitVec.allOnes_and]
  unfold fdsHeaderAt
  rw [htl, hic, hid]

/-- **The data can be read.** -/
theorem read_stored (herased : f.ErasedOn (a + 3) (a + 3 + ws.length)) :
    (header.stored f a ws).read (a + 3) ws.length = ws := by
  have hhead : f.AgreeOn ((f.store a [header.tl]).store (a + 2) [header.recordId]) (a + 3)
      (a + 3 + ws.length) := by
    refine Flash.AgreeOn.trans (g := f.store a [header.tl]) ?_ ?_
    · exact Flash.agreeOn_store (.inr (by rw [List.length_singleton]; omega))
    · exact Flash.agreeOn_store (.inr (by rw [List.length_singleton]))
  have htail : (header.storedPart f a ws).AgreeOn (header.stored f a ws) (a + 3)
      (a + 3 + ws.length) :=
    Flash.agreeOn_store (.inr (by rw [List.length_singleton]; omega))
  rw [← Flash.read_congr htail]
  exact Flash.read_store (hhead.erasedOn herased)

end Stored

/-- **What a write must find** when it stores its first word: the length in its header is that of
    its chunks, the page has room for it and is erased behind its last record, and no record has its
    ID. -/
structure WritesFresh (s : Fds cfg) (f : Flash 32) (w : FdsWriteOp) (cs : List FdsChunk) :
    Prop where
  page : w.page < cfg.maxPages
  length : w.header.lengthWords.toNat = chunksSize cs
  inPage : s.writeAddr w.page + w.header.size ≤ (s.pages.get w.page).pAddr + cfg.pageSize
  erased : f.ErasedOn (s.writeAddr w.page) ((s.pages.get w.page).pAddr + cfg.pageSize)
  behind : (s.pages.get w.page).pAddr + 2 + chainSize f
    ((s.pages.get w.page).pAddr + cfg.pageSize) ((s.pages.get w.page).pAddr + 2) =
      s.writeAddr w.page
  fresh : ∀ i < cfg.maxPages, ∀ x ∈ pageHeaders cfg f (s.pages.get i).pAddr,
    x.2.recordId ≠ w.header.recordId

instance (s : Fds cfg) (f : Flash 32) (w : FdsWriteOp) (cs : List FdsChunk) :
    Decidable (WritesFresh s f w cs) :=
  decidable_of_iff (w.page < cfg.maxPages ∧ w.header.lengthWords.toNat = chunksSize cs ∧
      s.writeAddr w.page + w.header.size ≤ (s.pages.get w.page).pAddr + cfg.pageSize ∧
      f.ErasedOn (s.writeAddr w.page) ((s.pages.get w.page).pAddr + cfg.pageSize) ∧
      (s.pages.get w.page).pAddr + 2 + chainSize f ((s.pages.get w.page).pAddr + cfg.pageSize)
        ((s.pages.get w.page).pAddr + 2) = s.writeAddr w.page ∧
      ∀ i < cfg.maxPages, ∀ x ∈ pageHeaders cfg f (s.pages.get i).pAddr,
        x.2.recordId ≠ w.header.recordId)
    ⟨fun ⟨h₁, h₂, h₃, h₄, h₅, h₆⟩ => ⟨h₁, h₂, h₃, h₄, h₅, h₆⟩,
      fun ⟨h₁, h₂, h₃, h₄, h₅, h₆⟩ => ⟨h₁, h₂, h₃, h₄, h₅, h₆⟩⟩

namespace WritesFresh

variable {s t : Fds cfg} {w : FdsWriteOp} {cs : List FdsChunk}

/-- Only where the pages are written matters. -/
theorem congr {w' : FdsWriteOp} (h : WritesFresh s f w cs)
    (haddr : ∀ i, (t.pages.get i).pAddr = (s.pages.get i).pAddr)
    (hwrite : t.writeAddr w.page = s.writeAddr w.page) (hpage : w'.page = w.page)
    (hheader : w'.header = w.header) : WritesFresh t f w' cs := by
  obtain ⟨hlt, hlength, hin, herased, hbehind, hfresh⟩ := h
  refine ⟨?_, ?_, ?_, ?_, ?_, fun i hi x hx => ?_⟩
  · rwa [hpage]
  · rwa [hheader]
  · rwa [hpage, hheader, haddr, hwrite]
  · rwa [hpage, haddr, hwrite]
  · rwa [hpage, haddr, hwrite]
  · rw [haddr] at hx
    rw [hheader]
    exact hfresh i hi x hx

theorem header_size (h : WritesFresh s f w cs) :
    w.header.size = 3 + (chunkWords cs).length := by
  unfold FdsHeader.size
  rw [h.length, length_chunkWords]

/-- The first word of the header is not an erased one. -/
theorem tl_ne (h : WritesFresh s f w cs) : w.header.tl ≠ fdsErasedWord := by
  intro htl
  have hlength : w.header.lengthWords = 0xFFFF := by
    unfold FdsHeader.lengthWords
    rw [htl]
    decide
  have hsize : w.header.size = 3 + 0xFFFF := by
    unfold FdsHeader.size
    rw [hlength]
    rfl
  have hin := h.inPage
  have hsmall := cfg.pageSize_lt
  unfold Fds.writeAddr at hin
  omega

/-- What is stored is on the page. -/
theorem stored_agreeOn (h : WritesFresh s f w cs) {n m : ℕ} (hdisj : m ≤ s.writeAddr w.page ∨
    (s.pages.get w.page).pAddr + cfg.pageSize ≤ n) :
    f.AgreeOn (w.header.stored f (s.writeAddr w.page) (chunkWords cs)) n m := by
  have hsize := h.header_size
  have hin := h.inPage
  exact agreeOn_stored (by omega)

/-- Its header can be read. -/
theorem fdsHeaderAt_stored (h : WritesFresh s f w cs) :
    fdsHeaderAt (w.header.stored f (s.writeAddr w.page) (chunkWords cs)) (s.writeAddr w.page) =
      w.header := by
  have hsize := h.header_size
  have hin := h.inPage
  exact NordicEsb.fdsHeaderAt_stored (h.erased.mono le_rfl (by omega))

/-- Its data can be read. -/
theorem read_stored (h : WritesFresh s f w cs) :
    (w.header.stored f (s.writeAddr w.page) (chunkWords cs)).read (s.writeAddr w.page + 3)
      w.header.lengthWords.toNat = chunkWords cs := by
  have hsize := h.header_size
  have hin := h.inPage
  rw [h.length, ← length_chunkWords]
  exact NordicEsb.read_stored (h.erased.mono (by omega) (by omega))

/-- **The chain of its page** ends with it. -/
theorem headersOn_stored (h : WritesFresh s f w cs) :
    headersOn (w.header.stored f (s.writeAddr w.page) (chunkWords cs))
        ((s.pages.get w.page).pAddr + cfg.pageSize) ((s.pages.get w.page).pAddr + 2) =
      headersOn f ((s.pages.get w.page).pAddr + cfg.pageSize) ((s.pages.get w.page).pAddr + 2) ++
        [(s.writeAddr w.page, w.header)] := by
  have hheader := h.fdsHeaderAt_stored
  have hsize := h.header_size
  have hin := h.inPage
  have hne : w.header.stored f (s.writeAddr w.page) (chunkWords cs) (s.writeAddr w.page) ≠
      fdsErasedWord := by
    have htl := h.tl_ne
    rwa [← congrArg FdsHeader.tl hheader] at htl
  -- The words behind the record are erased.
  have hrest : headersOn (w.header.stored f (s.writeAddr w.page) (chunkWords cs))
      ((s.pages.get w.page).pAddr + cfg.pageSize) (s.writeAddr w.page + w.header.size) = [] := by
    refine headersOn_nil fun ⟨hlt, hwritten⟩ => hwritten ?_
    have hagree : f.AgreeOn (w.header.stored f (s.writeAddr w.page) (chunkWords cs))
        (s.writeAddr w.page + w.header.size) ((s.pages.get w.page).pAddr + cfg.pageSize) :=
      agreeOn_stored (.inr (by omega))
    rw [← hagree _ le_rfl hlt]
    exact h.erased _ (Nat.le_add_right _ _) hlt
  rw [headersOn_extend h.behind (by omega) (h.stored_agreeOn (.inl le_rfl)),
    headersOn_cons (by omega) hne, hheader, hrest]

/-- **The record is the only one with its ID** once it is stored. -/
theorem onlyRecord (h : WritesFresh s f w cs) (htable : Table s) (hvalid : w.header.isValid = true)
    (hflash : s.flash = w.header.stored f (s.writeAddr w.page) (chunkWords cs)) :
    OnlyRecord s w.header.recordId w.page (s.writeAddr w.page, w.header) := by
  have hchain := h.headersOn_stored
  rw [← hflash] at hchain
  refine ⟨h.page, ?_, rfl, fun j hj y hy hid => ?_⟩
  · unfold pageHeaders
    rw [hchain]
    exact List.mem_filter.mpr ⟨List.mem_append_right _ List.mem_cons_self, hvalid⟩
  · by_cases hjp : j = w.page
    · subst hjp
      unfold pageHeaders at hy
      rw [hchain, List.filter_append] at hy
      rcases List.mem_append.mp hy with hy | hy
      · exact absurd hid (h.fresh _ h.page y hy)
      · exact ⟨rfl, List.mem_singleton.mp (List.mem_of_mem_filter hy)⟩
    · -- The other pages have not changed.
      have hdisj := htable.disjoint_pages hj h.page hjp
      have hbehind := h.behind
      have hagree : f.AgreeOn s.flash ((s.pages.get j).pAddr + 2)
          ((s.pages.get j).pAddr + cfg.pageSize + 2) := by
        rw [hflash]
        exact h.stored_agreeOn (by omega)
      unfold pageHeaders at hy
      rw [headersOn_congr hagree] at hy
      exact absurd hid (h.fresh j hj y hy)

end WritesFresh

/-! ## §5 The steps of a write -/

/-- What the flash holds when a step begins: the record so far, on the flash that the write has
    found; `p` is the record to update. -/
def FdsWriteOp.flashAt (w : FdsWriteOp) (f : Flash 32) (a p : ℕ) (cs : List FdsChunk) : Flash 32 :=
  match w.step with
  | .findRecord | .headerBegin => f
  | .recordId => f.store a [w.header.tl]
  | .chunks | .headerFinalize => w.header.storedPart f a (chunkWords (w.taken cs))
  | .flagDirty => w.header.stored f a (chunkWords cs)
  | .done =>
    if w.update then (w.header.stored f a (chunkWords cs)).store p [fdsTlDirty]
    else w.header.stored f a (chunkWords cs)

/-- The record to update is a valid one. -/
def UpdatesRecord (s : Fds cfg) (f : Flash 32) (w : FdsWriteOp) (p : ℕ) : Prop :=
  w.update = true → ∃ j < cfg.maxPages, ∃ header,
    (p, header) ∈ pageHeaders cfg f (s.pages.get j).pAddr

/-- **A write whose next step begins** on a flash that holds its record so far. -/
def WriteAt (m : FdsModule cfg sz) (w : FdsWriteOp) (cs : List FdsChunk) : Prop :=
  ∃ f, WritesFresh m.fds f w cs ∧ UpdatesRecord m.fds f w m.desc.pRecord ∧
    m.fds.flash = w.flashAt f (m.fds.writeAddr w.page) m.desc.pRecord cs

/-- The operation of fstorage is complete. -/
def FdsModule.flashDone (m : FdsModule cfg sz) : FdsModule cfg sz :=
  { m with fds := NordicEsb.flashDone m.fds }

/-- **A write that fstorage executes.** -/
structure WriteGoes (m : FdsModule cfg sz) (w : FdsWriteOp) (cs : List FdsChunk) : Prop where
  begun : w.step ≠ .findRecord ∧ w.step ≠ .headerBegin
  flags : w.step = .flagDirty → w.update = true
  /-- The first word of the header. -/
  first : w.step = .recordId → UpdatesRecord m.fds m.fds.flash w m.desc.pRecord ∧
    m.fds.pending = some (.store (m.fds.writeAddr w.page) [w.header.tl])
  next : w.step ≠ .recordId → WriteAt m.flashDone w cs

section Step

variable {m : FdsModule cfg sz} {w : FdsWriteOp} {cs : List FdsChunk} {dest : ℕ}
  {src : List (BitVec 32)}

/-- The flash after a store that fstorage has taken. -/
theorem flashDone_of_pending {s : Fds cfg} (h : s.pending = some (.store dest src)) :
    NordicEsb.flashDone s = { s with flash := s.flash.store dest src, pending := none } := by
  unfold NordicEsb.flashDone
  rw [h]
  rfl

/-- fstorage has taken the first word of the header. -/
theorem WriteGoes.writeAt (h : WriteGoes m w cs)
    (hfresh : w.step = .recordId → WritesFresh m.fds m.fds.flash w cs) :
    WriteAt m.flashDone w cs := by
  by_cases hstep : w.step = .recordId
  · obtain ⟨hupdate, hpending⟩ := h.first hstep
    have hdone := flashDone_of_pending hpending
    have hfresh := hfresh hstep
    refine ⟨m.fds.flash, ?_, ?_, ?_⟩
    · refine hfresh.congr (fun i => ?_) ?_ rfl rfl
      · show ((NordicEsb.flashDone m.fds).pages.get i).pAddr = _
        rw [hdone]
      · show (NordicEsb.flashDone m.fds).writeAddr _ = _
        rw [hdone]
        rfl
    · intro hu
      obtain ⟨j, hj, header, hmem⟩ := hupdate hu
      refine ⟨j, hj, header, ?_⟩
      show _ ∈ pageHeaders cfg m.fds.flash ((NordicEsb.flashDone m.fds).pages.get j).pAddr
      rwa [hdone]
    · show (NordicEsb.flashDone m.fds).flash = w.flashAt _ ((NordicEsb.flashDone m.fds).writeAddr _) _ _
      rw [hdone]
      unfold FdsWriteOp.flashAt
      rw [hstep]
      rfl
  · exact h.next hstep

/-- fstorage has taken a store. -/
theorem store_executing (h : fdsRetOf (m.store dest src).1 = fdsOpExecuting) :
    (m.store dest src).2 =
      { m with fds := { m.fds with pending := some (.store dest src) } } := by
  unfold FdsModule.store at h ⊢
  rcases fsStore_cases m.fds dest src with hstore | ⟨ret, hret, hstore⟩
  · rw [hstore]
  · rw [hstore] at h
    dsimp only at h
    unfold fdsRetOf at h
    rw [if_neg hret] at h
    cases h

/-- A store does not complete an operation. -/
theorem fdsRetOf_ne_completed (ret : FdsRet) : fdsRetOf ret ≠ fdsOpCompleted := by
  unfold fdsRetOf
  split <;> decide

/-- **The next store** of a write. -/
theorem WriteAt.store {m' : FdsModule cfg sz} {w' : FdsWriteOp} (hat : WriteAt m w cs)
    (hfds : m'.fds = { m.fds with pending := some (.store dest src) }) (hdesc : m'.desc = m.desc)
    (hpage : w'.page = w.page) (hheader : w'.header = w.header) (hupdate : w'.update = w.update)
    (hflash : ∀ f, WritesFresh m.fds f w cs →
      (w.flashAt f (m.fds.writeAddr w.page) m.desc.pRecord cs).store dest src =
        w'.flashAt f (m.fds.writeAddr w.page) m.desc.pRecord cs) :
    WriteAt m'.flashDone w' cs := by
  obtain ⟨f, hfresh, hrecord, hnow⟩ := hat
  have hdone : m'.flashDone.fds =
      { m.fds with flash := m.fds.flash.store dest src, pending := none } := by
    show NordicEsb.flashDone m'.fds = _
    rw [hfds]
    rfl
  have hp : m'.flashDone.desc.pRecord = m.desc.pRecord := congrArg FdsRecordDesc.pRecord hdesc
  refine ⟨f, hfresh.congr (fun i => ?_) ?_ hpage hheader, fun hu => ?_, ?_⟩
  · rw [hdone]
  · rw [hdone]
    rfl
  · obtain ⟨j, hj, header, hmem⟩ := hrecord (hupdate ▸ hu)
    refine ⟨j, hj, header, ?_⟩
    rwa [hdone, hp]
  · rw [hdone, hp, hpage]
    show m.fds.flash.store dest src = w'.flashAt f (m.fds.writeAddr w.page) _ cs
    rw [hnow]
    exact hflash f hfresh

/-- Nothing is taken before the first chunk. -/
theorem FdsHeader.storedPart_nil (header : FdsHeader) (f : Flash 32) (a : ℕ) :
    header.storedPart f a [] = (f.store a [header.tl]).store (a + 2) [header.recordId] :=
  Flash.store_nil _ _

/-- What `writeAdvance` does when it goes on. -/
theorem writeAdvance_executing (h : (writeAdvance w m).1 = fdsOpExecuting) :
    writeAdvance w m = writeStep w m (m.fds.writeAddr w.page) := by
  unfold writeAdvance at h ⊢
  dsimp only at h ⊢
  split at h
  · exact absurd h ‹_›
  · rw [if_neg ‹_›]
    rfl

/-- A step that takes no chunk. -/
theorem wordStep_goes {step : FdsWriteStep} (hat : WriteAt m w cs)
    (hstep : step ≠ .findRecord ∧ step ≠ .headerBegin ∧ step ≠ .recordId)
    (hflags : step = .flagDirty → w.update = true)
    (hexec : fdsRetOf (m.store dest src).1 = fdsOpExecuting)
    (hflash : ∀ f, (w.flashAt f (m.fds.writeAddr w.page) m.desc.pRecord cs).store dest src =
      ({ w with step := step } : FdsWriteOp).flashAt f (m.fds.writeAddr w.page)
        m.desc.pRecord cs) :
    WriteGoes (m.store dest src).2 { w with step := step } cs := by
  have hstore := store_executing hexec
  refine ⟨⟨hstep.1, hstep.2.1⟩, hflags, fun h => absurd h hstep.2.2, fun _ => ?_⟩
  rw [hstore]
  exact hat.store rfl rfl rfl rfl rfl fun f _ => hflash f

/-- The step that takes a chunk. -/
theorem recordWriteChunk_goes (htakes : w.Takes cs) (hat : WriteAt m w cs)
    (hstep : w.step = .chunks)
    (hexec : (recordWriteChunk w m (m.fds.writeAddr w.page)).1 = fdsOpExecuting)
    (hstores : StoresTaken (recordWriteChunk w m (m.fds.writeAddr w.page)).2.2.fds
      (recordWriteChunk w m (m.fds.writeAddr w.page)).2.1 cs) :
    WriteGoes (recordWriteChunk w m (m.fds.writeAddr w.page)).2.2
      (recordWriteChunk w m (m.fds.writeAddr w.page)).2.1 cs := by
  obtain ⟨c, -, htaken, -, -⟩ := htakes.afterChunk hstep
  obtain ⟨chunk, queue, hget⟩ : ∃ chunk queue, m.chunkQueue.getAndAdvance = (chunk, queue) :=
    ⟨_, _, rfl⟩
  unfold recordWriteChunk at hexec hstores ⊢
  rw [hget] at hexec hstores ⊢
  dsimp only at hexec hstores ⊢
  have hstore := store_executing hexec
  rw [hstore] at hstores ⊢
  obtain ⟨w', hw'⟩ : ∃ w' : FdsWriteOp, w' =
      if w.chunkCount - 1 = 0 then
        { w with
          chunkOffset := w.chunkOffset + chunk.lengthWords
          chunkCount := w.chunkCount - 1
          step := .headerFinalize }
      else
        { w with
          chunkOffset := w.chunkOffset + chunk.lengthWords
          chunkCount := w.chunkCount - 1 } := ⟨_, rfl⟩
  rw [← hw'] at hstores ⊢
  have hstep' : w'.step = .chunks ∨ w'.step = .headerFinalize := by
    rw [hw']
    split
    · exact .inr rfl
    · exact .inl hstep
  have hpage : w'.page = w.page := by
    rw [hw']
    split <;> rfl
  have hheader : w'.header = w.header := by
    rw [hw']
    split <;> rfl
  have hupdate : w'.update = w.update := by
    rw [hw']
    split <;> rfl
  have hcount : w'.chunkCount = w.chunkCount - 1 := by
    rw [hw']
    split <;> rfl
  have htaken' : w'.taken cs = w.taken cs ++ [c] := by
    have hsame : w'.taken cs = (w.afterChunk c).taken cs := by
      unfold FdsWriteOp.taken
      rw [hcount]
      rfl
    rw [hsame, htaken]
  -- The chunk that fstorage has taken is the next one of this write.
  have hpending := hstores hstep' _ c htaken'
  have hdata : chunk.data = c.data := by
    injection hpending with hop
    injection hop
  have hdest : w.chunkOffset = BitVec.ofNat 16 (3 + chunksSize (w.taken cs)) := htakes.offset
  refine ⟨?_, ?_, ?_, fun _ => hat.store rfl rfl hpage hheader hupdate fun f hfresh => ?_⟩
  · rcases hstep' with h | h <;> simp [h]
  · rcases hstep' with h | h <;> simp [h]
  · rcases hstep' with h | h <;> simp [h]
  · have hnow : w.flashAt f (m.fds.writeAddr w.page) m.desc.pRecord cs =
        w.header.storedPart f (m.fds.writeAddr w.page) (chunkWords (w.taken cs)) := by
      unfold FdsWriteOp.flashAt
      rw [hstep]
    have hnext : w'.flashAt f (m.fds.writeAddr w.page) m.desc.pRecord cs =
        w.header.storedPart f (m.fds.writeAddr w.page) (chunkWords (w.taken cs) ++ c.data) := by
      unfold FdsWriteOp.flashAt
      rw [htaken', hheader, chunkWords_append]
      have hone : chunkWords [c] = c.data := List.append_nil _
      rcases hstep' with h | h
      · rw [h, hone]
      · rw [h, hone]
    -- The offset is inside the page, so its 16 bits are enough.
    have hoffset : w.chunkOffset.toNat = 3 + (chunkWords (w.taken cs)).length := by
      have hsplit := congrArg chunksSize (w.taken_append_unwritten cs)
      rw [chunksSize_append] at hsplit
      have hsize := hfresh.header_size
      have hin := hfresh.inPage
      have hsmall := cfg.pageSize_lt
      unfold Fds.writeAddr at hin
      rw [length_chunkWords] at hsize ⊢
      rw [hdest, BitVec.toNat_ofNat, Nat.mod_eq_of_lt (by omega)]
    rw [hnow, hnext, hdata, hoffset, ← Nat.add_assoc]
    exact storedPart_append _ _ _ _ _

/-- **The next step** of a write. -/
theorem writeStep_goes (htakes : w.Takes cs) (hat : WriteAt m w cs)
    (hbegun : w.step ≠ .findRecord ∧ w.step ≠ .headerBegin)
    (hflags : w.step = .flagDirty → w.update = true)
    (hexec : (writeStep w m (m.fds.writeAddr w.page)).1 = fdsOpExecuting)
    (hstores : StoresTaken (writeStep w m (m.fds.writeAddr w.page)).2.2.fds
      (writeStep w m (m.fds.writeAddr w.page)).2.1 cs) :
    WriteGoes (writeStep w m (m.fds.writeAddr w.page)).2.2
      (writeStep w m (m.fds.writeAddr w.page)).2.1 cs := by
  unfold writeStep at hexec hstores ⊢
  cases hstep : w.step with
  | findRecord => exact absurd hstep hbegun.1
  | headerBegin => exact absurd hstep hbegun.2
  -- no chunk is taken yet: only the words in front of the data are there
  | recordId =>
    simp only [hstep] at hexec hstores ⊢
    have htaken := htakes.fresh (.inr (.inr hstep))
    refine wordStep_goes hat ?_ ?_ hexec fun f => ?_
    · split <;> simp
    · split <;> simp
    · unfold FdsWriteOp.flashAt
      rw [hstep]
      have hnone : ({ w with step := if w.chunkCount ≠ 0 then .chunks else .headerFinalize } :
          FdsWriteOp).taken cs = [] := htaken
      rw [hnone, chunkWords_nil, FdsHeader.storedPart_nil]
      dsimp only
      by_cases hmore : w.chunkCount ≠ 0
      · rw [if_pos hmore]
      · rw [if_neg hmore]
  | chunks =>
    simp only [hstep] at hexec hstores ⊢
    exact recordWriteChunk_goes htakes hat hstep hexec hstores
  -- all chunks are taken, so the data is complete
  | headerFinalize =>
    simp only [hstep] at hexec hstores ⊢
    have hzero := htakes.written (.inl hstep)
    have hall : w.taken cs = cs := by
      unfold FdsWriteOp.taken
      rw [hzero]
      exact List.take_length
    refine wordStep_goes hat ?_ ?_ hexec fun f => ?_
    · split <;> simp
    · split <;> simp [*]
    · unfold FdsWriteOp.flashAt
      rw [hstep]
      dsimp only
      rw [hall]
      cases hupdate : w.update <;> simp [FdsHeader.stored]
  -- the record itself is complete; the old one is flagged
  | flagDirty =>
    simp only [hstep] at hexec hstores ⊢
    refine wordStep_goes hat (by simp) (by simp) hexec fun f => ?_
    unfold FdsWriteOp.flashAt
    rw [hstep]
    simp [hflags hstep]
  | done =>
    simp only [hstep] at hexec
    exact absurd hexec (by decide)

end Step

/-! ## §6 The first step and the last -/

/-- A write that has not begun. -/
def FdsWriteOp.Waits (w : FdsWriteOp) : Prop :=
  w.step = if w.update then .findRecord else .headerBegin

/-- **The record is in flash**: it is the only one with its ID, and its words are the ones that were
    accepted. -/
structure RecordIn (s : Fds cfg) (w : FdsWriteOp) (cs : List FdsChunk) (p : ℕ) : Prop where
  only : ∃ k, OnlyRecord s w.header.recordId k (p, w.header)
  header : fdsHeaderAt s.flash p = w.header
  data : s.flash.read (p + 3) w.header.lengthWords.toNat = chunkWords cs

section Ends

variable {s t : Fds cfg} {m : FdsModule cfg sz} {w : FdsWriteOp} {cs : List FdsChunk}

theorem OnlyRecord.framed {k : ℕ} {x : ℕ × FdsHeader} (h : OnlyRecord s id k x)
    (hframe : Framed s t) : OnlyRecord t id k x := by
  refine ⟨h.page, ?_, h.recordId, fun j hj y hy hid => ?_⟩
  · rw [hframe.flash, hframe.pAddr]
    exact h.mem
  · rw [hframe.flash, hframe.pAddr] at hy
    exact h.only j hj y hy hid

/-- Only the flash matters, and where the pages are. -/
theorem RecordIn.framed (h : RecordIn s w cs p) (hframe : Framed s t) : RecordIn t w cs p := by
  obtain ⟨⟨k, honly⟩, hheader, hdata⟩ := h
  refine ⟨⟨k, honly.framed hframe⟩, ?_, ?_⟩
  · rw [hframe.flash]
    exact hheader
  · rw [hframe.flash]
    exact hdata

/-- **The records of before** are still there when the new one is stored, and none is in its
    words. -/
theorem WritesFresh.old_mem {f : Flash 32} {j : ℕ} {y : ℕ × FdsHeader} (h : WritesFresh s f w cs)
    (htable : Table s) (hj : j < cfg.maxPages)
    (hy : y ∈ pageHeaders cfg f (s.pages.get j).pAddr) :
    y ∈ pageHeaders cfg (w.header.stored f (s.writeAddr w.page) (chunkWords cs))
        (s.pages.get j).pAddr ∧
      (y.1 < s.writeAddr w.page ∨ (s.pages.get w.page).pAddr + cfg.pageSize ≤ y.1) := by
  have hbehind := h.behind
  obtain ⟨hchain, hvalid⟩ := List.mem_filter.mp hy
  obtain ⟨hle, hlt, -⟩ := mem_headersOn hchain
  by_cases hjp : j = w.page
  · subst hjp
    have hend := le_of_mem_headersOn hchain
    have hsize := y.2.three_le_size
    refine ⟨?_, .inl (by omega)⟩
    unfold pageHeaders
    rw [h.headersOn_stored]
    exact List.mem_filter.mpr ⟨List.mem_append_left _ hchain, hvalid⟩
  · have hdisj := htable.disjoint_pages hj h.page hjp
    refine ⟨?_, by omega⟩
    unfold pageHeaders
    rw [headersOn_congr (h.stored_agreeOn (by omega))]
    exact hy

/-- **The last step finds the record.** -/
theorem WriteAt.recordIn (hat : WriteAt m w cs) (hstep : w.step = .done) (htable : Table m.fds)
    (hvalid : w.header.isValid = true) : RecordIn m.fds w cs (m.fds.writeAddr w.page) := by
  obtain ⟨f, hfresh, hrecord, hflash⟩ := hat
  unfold FdsWriteOp.flashAt at hflash
  rw [hstep] at hflash
  dsimp only at hflash
  have hheader := hfresh.fdsHeaderAt_stored
  have hdata := hfresh.read_stored
  cases hupdate : w.update with
  | false =>
    rw [hupdate, if_neg Bool.false_ne_true] at hflash
    refine ⟨⟨_, hfresh.onlyRecord htable hvalid hflash⟩, ?_, ?_⟩
    · rw [hflash]
      exact hheader
    · rw [hflash]
      exact hdata
  | true =>
    rw [hupdate, if_pos rfl] at hflash
    obtain ⟨j, hj, header, hp⟩ := hrecord hupdate
    obtain ⟨hp', hout⟩ := hfresh.old_mem htable hj hp
    -- The flash before the old record is flagged.
    obtain ⟨s, hs⟩ : ∃ s : Fds cfg, s = { m.fds with
        flash := w.header.stored f (m.fds.writeAddr w.page) (chunkWords cs) } := ⟨_, rfl⟩
    have hpages : s.pages = m.fds.pages := by
      rw [hs]
    have htable' : Table s := by
      rw [hs]
      exact ⟨htable.data, htable.covers⟩
    have haddr : s.writeAddr w.page = m.fds.writeAddr w.page := by
      rw [hs]
      rfl
    have hfresh' : WritesFresh s f w cs :=
      hfresh.congr (fun i => by rw [hpages]) haddr rfl rfl
    have honly := hfresh'.onlyRecord htable' hvalid (by rw [haddr, hs])
    rw [haddr] at honly
    have hsize := hfresh.header_size
    have hin := hfresh.inPage
    have hagree : (w.header.stored f (m.fds.writeAddr w.page) (chunkWords cs)).AgreeOn
        m.fds.flash (m.fds.writeAddr w.page)
        (m.fds.writeAddr w.page + 3 + (chunkWords cs).length) := by
      rw [hflash]
      refine Flash.agreeOn_store ?_
      rw [List.length_singleton]
      omega
    have hp : (m.desc.pRecord, header) ∈ pageHeaders cfg s.flash (s.pages.get j).pAddr := by
      rw [hs]
      exact hp'
    have honly' : OnlyRecord m.fds w.header.recordId w.page
        (m.fds.writeAddr w.page, w.header) := by
      refine honly.flag htable' hj hp ?_ ?_ fun i => ?_
      · dsimp only at hout ⊢
        omega
      · rw [hs, hflash]
      · rw [hpages]
    refine ⟨⟨w.page, honly'⟩, ?_, ?_⟩
    · rw [← fdsHeaderAt_congr (hagree.mono le_rfl (by omega))]
      exact hheader
    · have hlen : w.header.lengthWords.toNat = (chunkWords cs).length := by
        rw [length_chunkWords]
        exact hfresh.length
      rw [← hdata, hlen]
      exact (Flash.read_congr (hagree.mono (by omega) le_rfl)).symm

/-- A search for an ID. -/
theorem recordFindByDesc_null (s : Fds cfg) {desc : FdsRecordDesc} (hnull : desc.pRecord = 0) :
    recordFindByDesc s desc = (recordIdPages s desc.recordId cfg.maxPages 0).map fun p =>
      (p.1, { desc with pRecord := p.2, gcRunCount := s.gc.runCount }) := by
  unfold recordFindByDesc addressIsValid
  simp [hnull]

/-- **The first step** of a write. -/
theorem writeExecute_begins (htable : Table m.fds) (hwaits : w.Waits)
    (hexec : (writeExecute w m fsSuccess).1 = fdsOpExecuting) :
    WriteGoes (writeExecute w m fsSuccess).2.2 (writeExecute w m fsSuccess).2.1 cs := by
  unfold FdsWriteOp.Waits at hwaits
  have hbegin : ∀ desc : FdsRecordDesc, UpdatesRecord m.fds m.fds.flash w desc.pRecord →
      (writeAdvance w { m with desc := desc }).1 = fdsOpExecuting →
      WriteGoes (writeAdvance w { m with desc := desc }).2.2
        (writeAdvance w { m with desc := desc }).2.1 cs := by
    intro desc hupdate hexec
    have hstep : writeAdvance w { m with desc := desc } =
        recordHeaderWriteBegin w { m with desc := desc } (m.fds.writeAddr w.page) := by
      rw [writeAdvance_executing hexec]
      unfold writeStep
      rw [hwaits]
      cases w.update <;> rfl
    rw [hstep] at hexec ⊢
    unfold recordHeaderWriteBegin at hexec ⊢
    dsimp only at hexec ⊢
    rw [store_executing hexec]
    exact ⟨by simp, by simp, fun _ => ⟨hupdate, rfl⟩, fun h => absurd rfl h⟩
  unfold writeExecute at hexec ⊢
  rw [if_neg (not_not.mpr rfl)] at hexec ⊢
  cases hupdate : w.update with
  | false =>
    have hstep : w.step ≠ .findRecord := by
      rw [hwaits, hupdate]
      decide
    rw [if_neg hstep] at hexec ⊢
    refine hbegin m.desc (fun h => ?_) hexec
    rw [hupdate] at h
    cases h
  | true =>
    have hstep : w.step = .findRecord := by
      rw [hwaits, hupdate]
      rfl
    rw [if_pos hstep] at hexec ⊢
    dsimp only at hexec ⊢
    rw [recordFindByDesc_null _ rfl] at hexec ⊢
    dsimp only at hexec ⊢
    cases hrecord : recordIdPages m.fds w.recordToDelete cfg.maxPages 0 with
    | none =>
      rw [hrecord] at hexec
      cases hexec
    | some found =>
      rw [hrecord] at hexec
      exact hbegin _ (fun _ => recordIdPages_some htable (by omega) hrecord) hexec

/-- **Every other step** that goes on. -/
theorem writeExecute_goes (htakes : w.Takes cs) (hat : WriteAt m w cs)
    (hbegun : w.step ≠ .findRecord ∧ w.step ≠ .headerBegin)
    (hflags : w.step = .flagDirty → w.update = true)
    (hexec : (writeExecute w m fsSuccess).1 = fdsOpExecuting)
    (hstores : StoresTaken (writeExecute w m fsSuccess).2.2.fds
      (writeExecute w m fsSuccess).2.1 cs) :
    WriteGoes (writeExecute w m fsSuccess).2.2 (writeExecute w m fsSuccess).2.1 cs := by
  have hcode : writeExecute w m fsSuccess = writeAdvance w m := by
    unfold writeExecute
    rw [if_neg (not_not.mpr rfl), if_neg hbegun.1]
  rw [hcode] at hexec
  rw [hcode, writeAdvance_executing hexec] at hstores ⊢
  rw [writeAdvance_executing hexec] at hexec
  exact writeStep_goes htakes hat hbegun hflags hexec hstores

/-- What a step of a write returns. -/
theorem writeStep_ret (addr : ℕ) :
    (∃ ret, (writeStep w m addr).1 = fdsRetOf ret) ∨
      w.step = .done ∧ writeStep w m addr = (fdsOpCompleted, w, m) := by
  unfold writeStep
  cases hstep : w.step with
  | findRecord => exact .inl ⟨_, rfl⟩
  | headerBegin => exact .inl ⟨_, rfl⟩
  | recordId => exact .inl ⟨_, rfl⟩
  | chunks => exact .inl ⟨_, rfl⟩
  | headerFinalize => exact .inl ⟨_, rfl⟩
  | flagDirty => exact .inl ⟨_, rfl⟩
  | done => exact .inr ⟨rfl, rfl⟩

/-- What `writeAdvance` returns. -/
theorem writeAdvance_ret (w : FdsWriteOp) (m : FdsModule cfg sz) :
    (∃ ret, (writeAdvance w m).1 = fdsRetOf ret) ∨
      w.step = .done ∧ writeAdvance w m = (fdsOpCompleted, w, offsetsUpdate w m) := by
  unfold writeAdvance
  dsimp only
  rcases writeStep_ret (w := w) (m := m)
    ((m.fds.pages.get w.page).pAddr + (m.fds.pages.get w.page).writeOffset.toNat) with
    ⟨ret, hret⟩ | ⟨hstep, hdone⟩
  · refine .inl ⟨ret, ?_⟩
    split <;> exact hret
  · refine .inr ⟨hstep, ?_⟩
    rw [hdone]
    rfl

/-- **What a write returns**: it goes on, fails, or is complete after its last step. -/
theorem writeExecute_ret (w : FdsWriteOp) (m : FdsModule cfg sz) (prevRet : FdsRet) :
    (writeExecute w m prevRet).1 ≠ fdsErrCrcCheckFailed ∧
      ((writeExecute w m prevRet).1 = fdsOpCompleted → prevRet = fsSuccess ∧ w.step = .done ∧
        writeExecute w m prevRet = (fdsOpCompleted, w, offsetsUpdate w m)) := by
  have hret : ∀ ret, fdsRetOf ret ≠ fdsErrCrcCheckFailed ∧ fdsRetOf ret ≠ fdsOpCompleted := by
    intro ret
    unfold fdsRetOf
    split <;> decide
  unfold writeExecute
  split_ifs with hprev hfind
  · exact ⟨fun h => (by cases h), fun h => (by cases h)⟩
  · dsimp only
    cases recordFindByDesc m.fds { m.desc with pRecord := 0, recordId := w.recordToDelete } with
    | none => exact ⟨fun h => (by cases h), fun h => (by cases h)⟩
    | some found =>
      dsimp only
      rcases writeAdvance_ret w { m with desc := found.2 } with ⟨ret, heq⟩ | ⟨hstep, -⟩
      · rw [heq]
        exact ⟨(hret ret).1, fun h => absurd h (hret ret).2⟩
      · rw [hfind] at hstep
        cases hstep
  · rcases writeAdvance_ret w m with ⟨ret, heq⟩ | ⟨hstep, heq⟩
    · rw [heq]
      exact ⟨(hret ret).1, fun h => absurd h (hret ret).2⟩
    · rw [heq]
      exact ⟨fun h => (by cases h), fun _ => ⟨not_not.mp hprev, hstep, rfl⟩⟩

end Ends

end NordicEsb
