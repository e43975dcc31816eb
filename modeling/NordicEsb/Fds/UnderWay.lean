import NordicEsb.Fds.CrcRuns

/-!
# A Write Under Way

A write programs the words behind the last record of its page, in the order: first word of the
header, record ID, chunks, second word of the header. What that does to the chain of headers depends
on where the chain stops, and on nothing behind.

- `Stands`: a record is valid on a page, and holds these words
- `Ends` says where the records of a page end; behind, the page is erased
- `FdsWriteOp.Unwritten` are the words of its record that a write has not programmed yet
- `UnderWay` is what the flash holds while a write is executed, and `WriteStores` what fstorage
  programs
- `Grows` is what an operation of fstorage does to the records

**Main result** (`WriteStores.after`): whatever part of its store fstorage has programmed, the write
is still under way, and every record stands but the one that the write replaces.
-/

namespace NordicEsb

variable {cfg : FdsConfig} {f g : Flash 32} {a b pEnd : ℕ}

/-! ## §1 Records on a page -/

/-- The chain of headers of a page. -/
def pageChain (s : Fds cfg) (i : ℕ) : List (ℕ × FdsHeader) :=
  headersOn s.flash ((s.pages.get i).pAddr + cfg.pageSize) ((s.pages.get i).pAddr + 2)

/-- The valid headers of a page. -/
def pageLive (s : Fds cfg) (i : ℕ) : List (ℕ × FdsHeader) :=
  pageHeaders cfg s.flash (s.pages.get i).pAddr

/-- **This record stands** on a page, at this address. -/
def Stands (s : Fds cfg) (i p : ℕ) (r : FdsRecord) : Prop :=
  (p, r.header) ∈ pageLive s i ∧ fdsRecordAt s.flash p = r

/-- **Where the records of a page end**: in front of `b`, and the page is erased from there on. -/
structure Ends (s : Fds cfg) (i b : ℕ) : Prop where
  le : (s.pages.get i).pAddr + 2 + chainSize s.flash ((s.pages.get i).pAddr + cfg.pageSize)
    ((s.pages.get i).pAddr + 2) ≤ b
  erased : s.flash.ErasedOn b ((s.pages.get i).pAddr + cfg.pageSize)

instance (s : Fds cfg) (i b : ℕ) : Decidable (Ends s i b) :=
  decidable_of_iff ((s.pages.get i).pAddr + 2 + chainSize s.flash
      ((s.pages.get i).pAddr + cfg.pageSize) ((s.pages.get i).pAddr + 2) ≤ b ∧
      s.flash.ErasedOn b ((s.pages.get i).pAddr + cfg.pageSize))
    ⟨fun ⟨h₁, h₂⟩ => ⟨h₁, h₂⟩, fun ⟨h₁, h₂⟩ => ⟨h₁, h₂⟩⟩

/-! ## §2 Chains -/

/-- A length that fits on a page leaves the first word of a header different from an erased one. -/
theorem FdsHeader.tl_ne_erased {h : FdsHeader} (hsize : h.size < 2 ^ 16) :
    h.tl ≠ fdsErasedWord := by
  intro htl
  have hlength : h.lengthWords = 0xFFFF := by
    unfold FdsHeader.lengthWords
    rw [htl]
    decide
  unfold FdsHeader.size at hsize
  rw [hlength] at hsize
  exact absurd hsize (by decide)

/-- The size of a record is in the first word of its header. -/
theorem fdsHeaderAt_size_congr (h : g a = f a) :
    (fdsHeaderAt g a).size = (fdsHeaderAt f a).size := by
  simp only [FdsHeader.size, FdsHeader.lengthWords, fdsHeaderAt, h]

/-- **A chain stays where it is** as long as the first words of its headers stay, and the word at
    which it stops. -/
theorem headersOn_tl (htl : ∀ x ∈ headersOn f pEnd b, g x.1 = f x.1)
    (hstop : b + chainSize f pEnd b < pEnd →
      g (b + chainSize f pEnd b) = f (b + chainSize f pEnd b)) :
    headersOn g pEnd b = (headersOn f pEnd b).map fun x => (x.1, fdsHeaderAt g x.1) := by
  induction b using headersOn_induction f pEnd with
  | hnil b h =>
    have hnil := headersOn_nil h
    have hsize : chainSize f pEnd b = 0 := by
      unfold chainSize
      rw [hnil]
      rfl
    rw [hsize, Nat.add_zero] at hstop
    rw [hnil, List.map_nil]
    apply headersOn_nil
    rintro ⟨hlt, hne⟩
    rw [hstop hlt] at hne
    exact h ⟨hlt, hne⟩
  | hcons b hlt hne ih =>
    rw [headersOn_cons hlt hne] at htl ⊢
    have hsame : g b = f b := htl _ List.mem_cons_self
    have hsize := fdsHeaderAt_size_congr hsame
    rw [chainSize_cons hlt hne, ← Nat.add_assoc] at hstop
    rw [headersOn_cons hlt (by rwa [hsame]), hsize, List.map_cons,
      ih (fun x hx => htl x (List.mem_cons_of_mem _ hx)) hstop]

theorem chainSize_tl (htl : ∀ x ∈ headersOn f pEnd b, g x.1 = f x.1)
    (hstop : b + chainSize f pEnd b < pEnd →
      g (b + chainSize f pEnd b) = f (b + chainSize f pEnd b)) :
    chainSize g pEnd b = chainSize f pEnd b := by
  unfold chainSize
  rw [headersOn_tl htl hstop, List.map_map]
  congr 1
  apply List.map_congr_left
  intro x hx
  obtain ⟨-, -, hheader⟩ := mem_headersOn hx
  rw [hheader]
  exact fdsHeaderAt_size_congr (htl x hx)

/-- The flag on a header leaves the size of the chain. -/
theorem chainSize_flag {q : ℕ} {pre post : List (ℕ × FdsHeader)} {h : FdsHeader}
    (hchain : headersOn f pEnd b = pre ++ (q, h) :: post) :
    chainSize (f.store q [fdsTlDirty]) pEnd b = chainSize f pEnd b := by
  unfold chainSize
  rw [headersOn_flag hchain, hchain]
  simp only [List.map_append, List.map_cons, FdsHeader.flagged_size]

/-- The records of a chain do not overlap. -/
theorem headersOn_disjoint {x y : ℕ × FdsHeader} (hx : x ∈ headersOn f pEnd b)
    (hy : y ∈ headersOn f pEnd b) (hlt : x.1 < y.1) : x.1 + x.2.size ≤ y.1 := by
  induction b using headersOn_induction f pEnd with
  | hnil b h =>
    rw [headersOn_nil h] at hx
    cases hx
  | hcons b hb hne ih =>
    rw [headersOn_cons hb hne] at hx hy
    rcases List.mem_cons.mp hx with rfl | hx
    · rcases List.mem_cons.mp hy with rfl | hy
      · exact absurd hlt (lt_irrefl _)
      · exact (mem_headersOn hy).1
    · rcases List.mem_cons.mp hy with rfl | hy
      · have hle := (mem_headersOn hx).1
        dsimp only at hlt
        omega
      · exact ih hx hy

/-! ## §3 A write under way -/

/-- The words of its record that a write has not programmed yet, if the record is at `a`. -/
def FdsWriteOp.Unwritten (w : FdsWriteOp) (a x : ℕ) : Prop :=
  match w.step with
  | .findRecord | .headerBegin => a ≤ x ∧ x < a + w.header.size
  | .recordId => x = a + 1 ∨ x = a + 2 ∨ a + w.chunkOffset.toNat ≤ x ∧ x < a + w.header.size
  | .chunks => x = a + 1 ∨ a + w.chunkOffset.toNat ≤ x ∧ x < a + w.header.size
  | .headerFinalize => x = a + 1
  | .flagDirty | .done => False

/-- The record that this update replaces is at `p`, and not the one that is written. -/
def Target (s : Fds cfg) (p : ℕ) (w : FdsWriteOp) : Prop :=
  ∃ j < cfg.maxPages, ∃ h, (p, h) ∈ pageLive s j ∧ h.recordId = w.recordToDelete ∧
    (j = w.page → p + h.size ≤ s.writeAddr w.page)

/-- There is room on the page of this write. -/
def Room (s : Fds cfg) (w : FdsWriteOp) : Prop :=
  w.page < cfg.maxPages ∧
    s.writeAddr w.page + w.header.size ≤ (s.pages.get w.page).pAddr + cfg.pageSize

/-- **What the flash holds while a write is executed**; `p` is the record to update. -/
structure UnderWay (s : Fds cfg) (p : ℕ) (w : FdsWriteOp) : Prop where
  room : Room s w
  others : ∀ i < cfg.maxPages, i ≠ w.page → Ends s i (s.writeAddr i)
  tag : (s.pages.get w.page).pAddr + 2 ≤ s.writeAddr w.page
  /-- Its record is the last one, if its first word is programmed. -/
  chain : ∀ x ∈ pageChain s w.page, x.1 + x.2.size ≤ s.writeAddr w.page ∨
    x.1 = s.writeAddr w.page ∧ x.2.tl = w.header.tl
  stop : (s.pages.get w.page).pAddr + 2 + chainSize s.flash
      ((s.pages.get w.page).pAddr + cfg.pageSize) ((s.pages.get w.page).pAddr + 2) ≤
        s.writeAddr w.page ∨
    (s.pages.get w.page).pAddr + 2 + chainSize s.flash
      ((s.pages.get w.page).pAddr + cfg.pageSize) ((s.pages.get w.page).pAddr + 2) =
        s.writeAddr w.page + w.header.size
  erased : s.flash.ErasedOn (s.writeAddr w.page + w.header.size)
    ((s.pages.get w.page).pAddr + cfg.pageSize)
  blank : ∀ x, w.Unwritten (s.writeAddr w.page) x → s.flash x = fdsErasedWord
  offset : 3 ≤ w.chunkOffset.toNat
  target : w.update = true → w.step ≠ .done → Target s p w

/-- **What fstorage programs for a write.** -/
inductive WriteStores (s : Fds cfg) (p : ℕ) (w : FdsWriteOp) : Prop
  /-- The first word of the header, behind the last record. -/
  | first (pending : s.pending = some (.store (s.writeAddr w.page) [w.header.tl]))
      (step : w.step = .recordId) (ends : Ends s w.page (s.writeAddr w.page))
  /-- Other words of the record, while its header is not complete. -/
  | words (dest : ℕ) (src : List (BitVec 32)) (pending : s.pending = some (.store dest src))
      (begun : w.step ≠ .findRecord ∧ w.step ≠ .headerBegin) (lt : s.writeAddr w.page < dest)
      (le : dest + src.length ≤ s.writeAddr w.page + w.header.size)
      (blank : s.flash.ErasedOn dest (dest + src.length))
      (second : s.flash (s.writeAddr w.page + 1) = fdsErasedWord)
      (keeps : ∀ x, w.Unwritten (s.writeAddr w.page) x → x < dest ∨ dest + src.length ≤ x)
  /-- The flag of the record that is replaced. -/
  | flag (pending : s.pending = some (.store p [fdsTlDirty])) (step : w.step = .done)
      (update : w.update = true) (target : Target s p w)

/-- **What an operation of fstorage does to the records**: they stay, or they are gone. -/
structure Grows (s t : Fds cfg) (gone : BitVec 32 → Prop) : Prop where
  chain : ∀ i < cfg.maxPages, ∀ x ∈ pageChain s i,
    ∃ h, (x.1, h) ∈ pageChain t i ∧ h.size = x.2.size
  stands : ∀ i < cfg.maxPages, ∀ p r, Stands s i p r → Stands t i p r ∨ gone r.header.recordId

section Flash

variable {s t : Fds cfg} {i k p dest n : ℕ} {ws src : List (BitVec 32)} {w : FdsWriteOp}
  {x : ℕ × FdsHeader}

theorem mem_pageLive : x ∈ pageLive s i ↔ x ∈ pageChain s i ∧ x.2.isValid = true :=
  List.mem_filter

/-- Every record ends before the records of its page do. -/
theorem Ends.record_le (h : Ends s i b) (hx : x ∈ pageChain s i) : x.1 + x.2.size ≤ b := by
  have hle : x.1 + x.2.size ≤ _ := le_of_mem_headersOn hx
  exact hle.trans h.le

theorem Ends.mono (h : Ends s i a) (hle : a ≤ b) : Ends s i b :=
  ⟨h.le.trans hle, h.erased.mono hle le_rfl⟩

/-- Only the words of the page matter. -/
theorem Ends.congr (h : Ends s i b) (haddr : (t.pages.get i).pAddr = (s.pages.get i).pAddr)
    (hflash : s.flash.AgreeOn t.flash (s.pages.get i).pAddr
      ((s.pages.get i).pAddr + cfg.pageSize + 2)) : Ends t i b := by
  obtain ⟨hle, herased⟩ := h
  have hchain := headersOn_congr (hflash.mono (Nat.le_add_right _ 2) le_rfl)
  have hstart := Nat.le_add_right ((s.pages.get i).pAddr + 2) (chainSize s.flash
    ((s.pages.get i).pAddr + cfg.pageSize) ((s.pages.get i).pAddr + 2))
  refine ⟨?_, ?_⟩
  · unfold chainSize at hle ⊢
    rw [haddr, hchain]
    exact hle
  · rw [haddr]
    exact (hflash.mono (by omega) (by omega)).erasedOn herased

/-- What is programmed on one page leaves the others alone. -/
theorem Table.store_agreeOn (h : Table s) (hi : i < cfg.maxPages) (hk : k < cfg.maxPages)
    (hne : i ≠ k) (hle : (s.pages.get k).pAddr + 2 ≤ dest)
    (hend : dest + ws.length ≤ (s.pages.get k).pAddr + cfg.pageSize) :
    s.flash.AgreeOn (s.flash.store dest ws) (s.pages.get i).pAddr
      ((s.pages.get i).pAddr + cfg.pageSize + 2) := by
  have hdisj := h.disjoint_pages hi hk hne
  exact Flash.agreeOn_store (by omega)

/-- A record whose words stay. -/
theorem Stands.congr {r : FdsRecord} (h : Stands s i p r) (hmem : (p, r.header) ∈ pageLive t i)
    (hflash : s.flash.AgreeOn t.flash p (p + r.size)) : Stands t i p r := by
  obtain ⟨-, rfl⟩ := h
  have hsame : fdsRecordAt s.flash p = fdsRecordAt t.flash p := fdsRecordAt_congr hflash
  exact ⟨hmem, hsame.symm⟩

/-- **Another page**: its chain and its records stay. -/
theorem grows_other (haddr : (t.pages.get i).pAddr = (s.pages.get i).pAddr)
    (hflash : s.flash.AgreeOn t.flash (s.pages.get i).pAddr
      ((s.pages.get i).pAddr + cfg.pageSize + 2))
    (hbound : ∀ x ∈ pageChain s i, x.1 + x.2.size ≤ (s.pages.get i).pAddr + cfg.pageSize) :
    pageChain t i = pageChain s i ∧ ∀ p r, Stands s i p r → Stands t i p r := by
  have hchain : pageChain t i = pageChain s i := by
    unfold pageChain
    rw [haddr]
    exact headersOn_congr (hflash.mono (Nat.le_add_right _ 2) le_rfl)
  refine ⟨hchain, fun p r hstands => ?_⟩
  obtain ⟨hmem, hvalid⟩ := mem_pageLive.mp hstands.1
  obtain ⟨hle, -, -⟩ := mem_headersOn hmem
  have hend := hbound _ hmem
  refine hstands.congr (mem_pageLive.mpr ⟨hchain ▸ hmem, hvalid⟩) (hflash.mono ?_ ?_)
  · dsimp only at hle
    omega
  · exact hend.trans (Nat.le_add_right _ 2)

/-- Where records are written next depends on the pages only. -/
theorem writeAddr_congr (hpages : t.pages = s.pages) (i : ℕ) : t.writeAddr i = s.writeAddr i := by
  unfold Fds.writeAddr
  rw [hpages]

/-! ## §4 Programming words of a record -/

/-- The first words of the headers stay, and the word at which the chain stops. -/
theorem UnderWay.headersOn_store (h : UnderWay s p w) (hlt : s.writeAddr w.page < dest)
    (hle : dest + ws.length ≤ s.writeAddr w.page + w.header.size)
    (hflash : t.flash = s.flash.store dest ws) (hpages : t.pages = s.pages) :
    pageChain t w.page = (pageChain s w.page).map (fun x => (x.1, fdsHeaderAt t.flash x.1)) ∧
      chainSize t.flash ((t.pages.get w.page).pAddr + cfg.pageSize)
        ((t.pages.get w.page).pAddr + 2) =
      chainSize s.flash ((s.pages.get w.page).pAddr + cfg.pageSize)
        ((s.pages.get w.page).pAddr + 2) := by
  have htl : ∀ x ∈ pageChain s w.page, t.flash x.1 = s.flash x.1 := by
    intro x hx
    have hthree := x.2.three_le_size
    rw [hflash]
    apply Flash.store_apply_outside
    rcases h.chain x hx with hbefore | ⟨hown, -⟩ <;> omega
  have hstop : (s.pages.get w.page).pAddr + 2 + chainSize s.flash
      ((s.pages.get w.page).pAddr + cfg.pageSize) ((s.pages.get w.page).pAddr + 2) <
        (s.pages.get w.page).pAddr + cfg.pageSize →
      t.flash ((s.pages.get w.page).pAddr + 2 + chainSize s.flash
        ((s.pages.get w.page).pAddr + cfg.pageSize) ((s.pages.get w.page).pAddr + 2)) =
      s.flash ((s.pages.get w.page).pAddr + 2 + chainSize s.flash
        ((s.pages.get w.page).pAddr + cfg.pageSize) ((s.pages.get w.page).pAddr + 2)) := by
    intro _
    rw [hflash]
    apply Flash.store_apply_outside
    rcases h.stop with hbefore | hown <;> omega
  unfold pageChain
  rw [hpages]
  exact ⟨headersOn_tl htl hstop, chainSize_tl htl hstop⟩

/-- A record of the page of a write whose header is not complete is in front of it. -/
theorem UnderWay.record_le (h : UnderWay s p w)
    (hsecond : s.flash (s.writeAddr w.page + 1) = fdsErasedWord) (hx : x ∈ pageLive s w.page) :
    x.1 + x.2.size ≤ s.writeAddr w.page := by
  obtain ⟨hmem, hvalid⟩ := mem_pageLive.mp hx
  rcases h.chain x hmem with hbefore | ⟨hown, -⟩
  · exact hbefore
  · -- A header whose second word is erased is not valid.
    obtain ⟨-, -, hheader⟩ := mem_headersOn hmem
    have hfile : x.2.fileId = 0xFFFF := by
      rw [hheader, hown]
      simp only [FdsHeader.fileId, fdsHeaderAt, hsecond]
      decide
    unfold FdsHeader.isValid at hvalid
    rw [hfile] at hvalid
    simp at hvalid

/-- The other pages, while words are programmed behind the tag of this one. -/
theorem UnderWay.others_store (h : UnderWay s p w) (htable : Table s)
    (hbound : ∀ i < cfg.maxPages, s.writeAddr i ≤ (s.pages.get i).pAddr + cfg.pageSize)
    (hle : (s.pages.get w.page).pAddr + 2 ≤ dest)
    (hend : dest + ws.length ≤ (s.pages.get w.page).pAddr + cfg.pageSize)
    (hflash : t.flash = s.flash.store dest ws) (hpages : t.pages = s.pages) :
    ∀ i < cfg.maxPages, i ≠ w.page → Ends t i (t.writeAddr i) ∧ pageChain t i = pageChain s i ∧
      ∀ p r, Stands s i p r → Stands t i p r := by
  intro i hi hne
  have hagree : s.flash.AgreeOn t.flash (s.pages.get i).pAddr
      ((s.pages.get i).pAddr + cfg.pageSize + 2) := by
    rw [hflash]
    exact htable.store_agreeOn hi h.room.1 hne hle hend
  have haddr : (t.pages.get i).pAddr = (s.pages.get i).pAddr := by rw [hpages]
  have hends := h.others i hi hne
  refine ⟨?_, grows_other haddr hagree fun x hx => (hends.record_le hx).trans (hbound i hi)⟩
  rw [writeAddr_congr hpages]
  exact hends.congr haddr hagree

/-- **Words of the record are programmed.** -/
theorem UnderWay.words (h : UnderWay s p w) (htable : Table s)
    (hbound : ∀ i < cfg.maxPages, s.writeAddr i ≤ (s.pages.get i).pAddr + cfg.pageSize)
    (hlt : s.writeAddr w.page < dest)
    (hle : dest + ws.length ≤ s.writeAddr w.page + w.header.size)
    (hsecond : s.flash (s.writeAddr w.page + 1) = fdsErasedWord)
    (hkeeps : ∀ x, w.Unwritten (s.writeAddr w.page) x → x < dest ∨ dest + ws.length ≤ x)
    (hflash : t.flash = s.flash.store dest ws) (hpages : t.pages = s.pages) :
    UnderWay t p w ∧ Grows s t fun _ => False := by
  obtain ⟨hpage, hroom⟩ := h.room
  have htag := h.tag
  have hothers := h.others_store htable hbound (by omega) (by omega) hflash hpages
  obtain ⟨hchain, hsize⟩ := h.headersOn_store hlt hle hflash hpages
  have hwrite := writeAddr_congr hpages w.page
  have haddr : ∀ i, (t.pages.get i).pAddr = (s.pages.get i).pAddr := fun i => by rw [hpages]
  -- The words are written behind the start of the record, so what is in front stays.
  have hbefore : ∀ x ≤ s.writeAddr w.page, t.flash x = s.flash x := by
    intro x hx
    rw [hflash]
    exact Flash.store_apply_outside (by omega)
  -- The headers in front of the record are the same.
  have hheader : ∀ x ∈ pageChain s w.page, x.1 + x.2.size ≤ s.writeAddr w.page →
      fdsHeaderAt t.flash x.1 = x.2 := by
    intro x hx hend
    obtain ⟨-, -, hx⟩ := mem_headersOn hx
    have hthree := x.2.three_le_size
    rw [hx]
    refine fdsHeaderAt_congr fun y _ hy => hbefore y (by omega)
  -- The first word of the record is in front too: no header changes its length.
  have hmoved : ∀ x ∈ pageChain s w.page, (fdsHeaderAt t.flash x.1).tl = x.2.tl := by
    intro x hx
    obtain ⟨-, -, hheader⟩ := mem_headersOn hx
    have hthree := x.2.three_le_size
    have hle : x.1 ≤ s.writeAddr w.page := by
      rcases h.chain x hx with hend | ⟨hown, -⟩ <;> omega
    rw [hheader]
    exact hbefore x.1 hle
  have hsame : ∀ x ∈ pageChain s w.page, (fdsHeaderAt t.flash x.1).size = x.2.size := by
    intro x hx
    simp only [FdsHeader.size, FdsHeader.lengthWords, hmoved x hx]
  have hstands : ∀ p r, Stands s w.page p r → Stands t w.page p r := by
    intro p r hr
    obtain ⟨hmem, hvalid⟩ := mem_pageLive.mp hr.1
    have hend := h.record_le hsecond hr.1
    refine hr.congr (mem_pageLive.mpr ⟨?_, hvalid⟩) fun y _ hy => (hbefore y ?_).symm
    · rw [hchain, List.mem_map]
      exact ⟨_, hmem, Prod.ext rfl (hheader _ hmem hend)⟩
    · have hy : y < p + r.header.size := hy
      dsimp only at hend
      omega
  -- The record under way, and then the chains and the records that stand.
  refine ⟨⟨⟨hpage, ?_⟩, fun i hi hne => (hothers i hi hne).1, ?_, ?_, ?_, ?_, ?_, h.offset, ?_⟩,
    fun i hi x hx => ?_, fun i hi p r hr => .inl ?_⟩
  · rw [hwrite, haddr]
    exact hroom
  · rw [hwrite, haddr]
    exact htag
  · intro x hx
    rw [hchain, List.mem_map] at hx
    obtain ⟨y, hy, rfl⟩ := hx
    rw [hwrite]
    dsimp only
    rw [hsame y hy, hmoved y hy]
    exact h.chain y hy
  · rw [hsize, hwrite, haddr]
    exact h.stop
  · rw [hwrite, haddr]
    intro y hy hend
    rw [hflash, Flash.store_apply_outside (by omega)]
    exact h.erased y hy hend
  · intro y hy
    rw [hwrite] at hy
    have hout := hkeeps y hy
    rw [hflash, Flash.store_apply_outside hout]
    exact h.blank y hy
  · intro hu hstep
    obtain ⟨j, hj, header, hmem, hid, hend⟩ := h.target hu hstep
    refine ⟨j, hj, header, ?_, hid, fun hjw => hwrite ▸ hend hjw⟩
    by_cases hjw : j = w.page
    · subst hjw
      obtain ⟨hmem, hvalid⟩ := mem_pageLive.mp hmem
      refine mem_pageLive.mpr ⟨?_, hvalid⟩
      rw [hchain, List.mem_map]
      exact ⟨_, hmem, Prod.ext rfl (hheader _ hmem (hend rfl))⟩
    · obtain ⟨hmem, hvalid⟩ := mem_pageLive.mp hmem
      exact mem_pageLive.mpr ⟨(hothers j hj hjw).2.1 ▸ hmem, hvalid⟩
  · by_cases hiw : i = w.page
    · subst hiw
      refine ⟨fdsHeaderAt t.flash x.1, ?_, hsame x hx⟩
      rw [hchain, List.mem_map]
      exact ⟨x, hx, rfl⟩
    · exact ⟨x.2, (hothers i hi hiw).2.1 ▸ hx, rfl⟩
  · by_cases hiw : i = w.page
    · subst hiw
      exact hstands p r hr
    · exact (hothers i hi hiw).2.2 p r hr

/-- Only the flash, and where the pages are written, matters. -/
theorem UnderWay.congr (h : UnderWay s p w) (hflash : t.flash = s.flash)
    (haddr : ∀ i, (t.pages.get i).pAddr = (s.pages.get i).pAddr)
    (hwrite : ∀ i, t.writeAddr i = s.writeAddr i) : UnderWay t p w := by
  have hchain : ∀ i, pageChain t i = pageChain s i := fun i => by
    unfold pageChain
    rw [hflash, haddr]
  obtain ⟨⟨hpage, hroom⟩, hothers, htag, hown, hstop, herased, hblank, hoffset, htarget⟩ := h
  refine ⟨⟨hpage, ?_⟩, fun i hi hne => ?_, ?_, ?_, ?_, ?_, ?_, hoffset, fun hu hstep => ?_⟩
  · rwa [hwrite, haddr]
  · rw [hwrite]
    exact (hothers i hi hne).congr (haddr i) (hflash ▸ .refl _ _ _)
  · rwa [hwrite, haddr]
  · rwa [hchain, hwrite]
  · rwa [hflash, haddr, hwrite]
  · rwa [hflash, haddr, hwrite]
  · rwa [hflash, hwrite]
  · obtain ⟨j, hj, header, hmem, hid, hend⟩ := htarget hu hstep
    refine ⟨j, hj, header, ?_, hid, fun hjw => hwrite w.page ▸ hend hjw⟩
    unfold pageLive
    rwa [hflash, haddr]

/-- What does not change the flash keeps the records. -/
theorem grows_of_eq (hflash : t.flash = s.flash)
    (haddr : ∀ i, (t.pages.get i).pAddr = (s.pages.get i).pAddr) (gone : BitVec 32 → Prop) :
    Grows s t gone := by
  have hchain : ∀ i, pageChain t i = pageChain s i := fun i => by
    unfold pageChain
    rw [hflash, haddr]
  have hlive : ∀ i, pageLive t i = pageLive s i := fun i => by
    unfold pageLive
    rw [hflash, haddr]
  refine ⟨fun i _ x hx => ⟨x.2, hchain i ▸ hx, rfl⟩, fun i _ p r hr => .inl ?_⟩
  unfold Stands
  rw [hlive, hflash]
  exact hr

/-- The headers in front of the record are the same when only its first word is programmed. -/
theorem Ends.header_eq {i a : ℕ} (hends : Ends s i a)
    (hout : ∀ x, x ≠ a → t.flash x = s.flash x) {x : ℕ × FdsHeader} (hx : x ∈ pageChain s i) :
    fdsHeaderAt t.flash x.1 = x.2 := by
  have hend := hends.record_le hx
  obtain ⟨-, -, hx⟩ := mem_headersOn hx
  have hsize := x.2.three_le_size
  rw [hx]
  exact fdsHeaderAt_congr fun y _ hy => hout y (by omega)

/-- The chain is the same, or longer by the record whose first word is programmed. -/
theorem UnderWay.first_chain (h : UnderWay s p w) (hends : Ends s w.page (s.writeAddr w.page))
    (hout : ∀ x, x ≠ s.writeAddr w.page → t.flash x = s.flash x)
    (hfirst : t.flash (s.writeAddr w.page) = w.header.tl) (hpages : t.pages = s.pages) :
    ∃ more, pageChain t w.page = pageChain s w.page ++ more ∧
      (∀ x ∈ more, x.1 = s.writeAddr w.page ∧ x.2.tl = w.header.tl) ∧
      ((t.pages.get w.page).pAddr + 2 + chainSize t.flash
          ((t.pages.get w.page).pAddr + cfg.pageSize) ((t.pages.get w.page).pAddr + 2) ≤
            s.writeAddr w.page ∨
        (t.pages.get w.page).pAddr + 2 + chainSize t.flash
          ((t.pages.get w.page).pAddr + cfg.pageSize) ((t.pages.get w.page).pAddr + 2) =
            s.writeAddr w.page + w.header.size) := by
  obtain ⟨-, hroom⟩ := h.room
  have htag := h.tag
  have hthree := w.header.three_le_size
  have hsmall := cfg.pageSize_lt
  unfold pageChain
  rw [hpages]
  rcases Nat.eq_or_lt_of_le hends.le with hend | hend
  · have hextend := headersOn_extend (g := t.flash) hend (by omega) fun x _ hx =>
      (hout x (by omega)).symm
    have hne : t.flash (s.writeAddr w.page) ≠ fdsErasedWord := by
      rw [hfirst]
      exact FdsHeader.tl_ne_erased (by omega)
    have hsize : (fdsHeaderAt t.flash (s.writeAddr w.page)).size = w.header.size := by
      simp only [FdsHeader.size, FdsHeader.lengthWords, fdsHeaderAt, hfirst]
    have hlast : headersOn t.flash ((s.pages.get w.page).pAddr + cfg.pageSize)
        (s.writeAddr w.page) =
          [(s.writeAddr w.page, fdsHeaderAt t.flash (s.writeAddr w.page))] := by
      rw [headersOn_cons (by omega) hne, hsize, headersOn_nil]
      rintro ⟨hlt, hwritten⟩
      rw [hout _ (by omega)] at hwritten
      exact hwritten (hends.erased _ (Nat.le_add_right _ _) hlt)
    rw [hlast] at hextend
    refine ⟨_, hextend, fun x hx => ?_, .inr ?_⟩
    · rw [List.mem_singleton.mp hx]
      exact ⟨rfl, hfirst⟩
    · unfold chainSize at hend ⊢
      rw [hextend, List.map_append, List.sum_append, List.map_singleton, List.sum_singleton,
        hsize, ← hend]
      omega
  · have htl : ∀ x ∈ headersOn s.flash ((s.pages.get w.page).pAddr + cfg.pageSize)
        ((s.pages.get w.page).pAddr + 2), t.flash x.1 = s.flash x.1 := by
      intro x hx
      have hle := hends.record_le hx
      have hsize := x.2.three_le_size
      exact hout x.1 (by omega)
    have hsame := headersOn_tl (g := t.flash) htl fun _ => hout _ (by omega)
    refine ⟨[], ?_, by simp, .inl ?_⟩
    · rw [List.append_nil, hsame]
      refine (List.map_congr_left fun x hx => ?_).trans (List.map_id _)
      exact Prod.ext rfl (hends.header_eq hout hx)
    · rw [chainSize_tl htl fun _ => hout _ (by omega)]
      exact hends.le

/-- **The first word of the record is programmed**: it is the last one of its page now, or it cannot
    be reached. -/
theorem UnderWay.first (h : UnderWay s p w) (htable : Table s)
    (hbound : ∀ i < cfg.maxPages, s.writeAddr i ≤ (s.pages.get i).pAddr + cfg.pageSize)
    (hstep : w.step = .recordId) (hends : Ends s w.page (s.writeAddr w.page))
    (hflash : t.flash = s.flash.store (s.writeAddr w.page) [w.header.tl])
    (hpages : t.pages = s.pages) : UnderWay t p w ∧ Grows s t fun _ => False := by
  obtain ⟨hpage, hroom⟩ := h.room
  have htag := h.tag
  have hthree := w.header.three_le_size
  have hsmall := cfg.pageSize_lt
  have hothers := h.others_store htable hbound htag
    (by rw [List.length_singleton]; omega) hflash hpages
  have hwrite := writeAddr_congr hpages w.page
  have haddr : ∀ i, (t.pages.get i).pAddr = (s.pages.get i).pAddr := fun i => by rw [hpages]
  have hout : ∀ x, x ≠ s.writeAddr w.page → t.flash x = s.flash x := by
    intro x hx
    rw [hflash]
    exact Flash.store_apply_outside (by rw [List.length_singleton]; omega)
  -- The page is erased from there on, so the store leaves the first word of the header.
  have hfirst : t.flash (s.writeAddr w.page) = w.header.tl := by
    rw [hflash, Flash.store_singleton, hends.erased _ le_rfl (by omega), BitVec.allOnes_and]
  obtain ⟨more, hchain, hmore, hstop⟩ := h.first_chain hends hout hfirst hpages
  -- The chain grows at its end only.
  have hold : ∀ x ∈ pageChain s w.page, x ∈ pageChain t w.page := fun x hx =>
    hchain ▸ List.mem_append_left _ hx
  refine ⟨⟨⟨hpage, ?_⟩, fun i hi hne => (hothers i hi hne).1, ?_, ?_, ?_, ?_, ?_, h.offset, ?_⟩,
    fun i hi x hx => ⟨x.2, ?_, rfl⟩, fun i hi p r hr => .inl ?_⟩
  · rw [hwrite, haddr]
    exact hroom
  · rw [hwrite, haddr]
    exact htag
  · intro x hx
    rw [hwrite]
    rw [hchain] at hx
    rcases List.mem_append.mp hx with hx | hx
    · exact .inl (hends.record_le hx)
    · exact .inr (hmore x hx)
  · rw [hwrite]
    exact hstop
  · rw [hwrite, haddr]
    intro y hy hend
    rw [hout y (by omega)]
    exact h.erased y hy hend
  · intro y hy
    rw [hwrite] at hy
    have hne : y ≠ s.writeAddr w.page := by
      have hoffset := h.offset
      unfold FdsWriteOp.Unwritten at hy
      rw [hstep] at hy
      dsimp only at hy
      omega
    rw [hout y hne]
    exact h.blank y hy
  · intro hu hnot
    obtain ⟨j, hj, header, hmem, hid, hend⟩ := h.target hu hnot
    obtain ⟨hmem, hvalid⟩ := mem_pageLive.mp hmem
    refine ⟨j, hj, header, mem_pageLive.mpr ⟨?_, hvalid⟩, hid, fun hjw => hwrite ▸ hend hjw⟩
    by_cases hjw : j = w.page
    · subst hjw
      exact hold _ hmem
    · exact (hothers j hj hjw).2.1 ▸ hmem
  · by_cases hiw : i = w.page
    · subst hiw
      exact hold x hx
    · exact (hothers i hi hiw).2.1 ▸ hx
  · by_cases hiw : i = w.page
    · subst hiw
      obtain ⟨hmem, hvalid⟩ := mem_pageLive.mp hr.1
      have hend := hends.record_le hmem
      refine hr.congr (mem_pageLive.mpr ⟨hold _ hmem, hvalid⟩) fun y _ hy => (hout y ?_).symm
      have hy : y < p + r.header.size := hy
      dsimp only at hend
      omega
    · exact (hothers i hi hiw).2.2 p r hr

/-! ## §5 Flagging the record that is replaced -/

/-- **A record is flagged dirty**: the others stay, and the end of every page. -/
theorem flag_page {j : ℕ} {h : FdsHeader} (htable : Table s)
    (hbound : ∀ i < cfg.maxPages, ∀ x ∈ pageChain s i,
      x.1 + x.2.size ≤ (s.pages.get i).pAddr + cfg.pageSize)
    (hj : j < cfg.maxPages) (hmem : (p, h) ∈ pageLive s j)
    (hflash : t.flash = s.flash.store p [fdsTlDirty]) (hpages : t.pages = s.pages) :
    (∀ i < cfg.maxPages, chainSize t.flash ((t.pages.get i).pAddr + cfg.pageSize)
        ((t.pages.get i).pAddr + 2) = chainSize s.flash ((s.pages.get i).pAddr + cfg.pageSize)
          ((s.pages.get i).pAddr + 2)) ∧
      (∀ i < cfg.maxPages, ∀ x ∈ pageChain t i, x ∈ pageChain s i ∨
        i = j ∧ x = (p, h.flagged)) ∧
      Grows s t fun id => id = h.recordId := by
  obtain ⟨hchain, hvalid⟩ := mem_pageLive.mp hmem
  obtain ⟨hle, hlt, hheader⟩ := mem_headersOn hchain
  have haddr : ∀ i, (t.pages.get i).pAddr = (s.pages.get i).pAddr := fun i => by rw [hpages]
  obtain ⟨pre, post, hsplit⟩ := List.append_of_mem hchain
  -- The header that is flagged keeps its place and its length in the chain.
  have hflag := headersOn_flag hsplit
  rw [← hflash] at hflag
  have hsize : chainSize t.flash ((s.pages.get j).pAddr + cfg.pageSize)
      ((s.pages.get j).pAddr + 2) = chainSize s.flash ((s.pages.get j).pAddr + cfg.pageSize)
        ((s.pages.get j).pAddr + 2) := by
    rw [hflash]
    exact chainSize_flag hsplit
  have hchain' : pageChain t j = pre ++ (p, h.flagged) :: post := by
    unfold pageChain
    rw [hpages]
    exact hflag
  -- The flag is on page `j`; the other pages are as they were.
  have hagree : ∀ i < cfg.maxPages, i ≠ j → s.flash.AgreeOn t.flash (s.pages.get i).pAddr
      ((s.pages.get i).pAddr + cfg.pageSize + 2) := by
    intro i hi hne
    rw [hflash]
    exact htable.store_agreeOn hi hj hne hle hlt
  have hothers : ∀ i < cfg.maxPages, i ≠ j → pageChain t i = pageChain s i ∧
      ∀ p r, Stands s i p r → Stands t i p r := fun i hi hne =>
    grows_other (haddr i) (hagree i hi hne) (hbound i hi)
  refine ⟨fun i hi => ?_, fun i hi x hx => ?_, fun i hi x hx => ?_, fun i hi q r hr => ?_⟩
  · rw [haddr]
    by_cases hij : i = j
    · subst hij
      exact hsize
    · unfold chainSize
      rw [headersOn_congr ((hagree i hi hij).mono (Nat.le_add_right _ 2) le_rfl)]
  · by_cases hij : i = j
    · subst hij
      rw [hchain'] at hx
      rw [hsplit]
      rcases List.mem_append.mp hx with hx | hx
      · exact .inl (List.mem_append_left _ hx)
      · rcases List.mem_cons.mp hx with rfl | hx
        · exact .inr ⟨rfl, rfl⟩
        · exact .inl (List.mem_append_right _ (List.mem_cons_of_mem _ hx))
    · exact .inl ((hothers i hi hij).1 ▸ hx)
  · by_cases hij : i = j
    · subst hij
      rw [hchain']
      rw [hsplit] at hx
      rcases List.mem_append.mp hx with hx | hx
      · exact ⟨x.2, List.mem_append_left _ hx, rfl⟩
      · rcases List.mem_cons.mp hx with rfl | hx
        · exact ⟨h.flagged, List.mem_append_right _ List.mem_cons_self, h.flagged_size⟩
        · exact ⟨x.2, List.mem_append_right _ (List.mem_cons_of_mem _ hx), rfl⟩
    · exact ⟨x.2, (hothers i hi hij).1 ▸ hx, rfl⟩
  · by_cases hij : i = j
    · subst hij
      obtain ⟨hq, hqvalid⟩ := mem_pageLive.mp hr.1
      -- The record that is flagged is the only one that goes.
      by_cases hqp : q = p
      · subst hqp
        obtain ⟨-, -, hqheader⟩ := mem_headersOn hq
        have hsame : r.header = h := hqheader.trans hheader.symm
        exact .inr (congrArg FdsHeader.recordId hsame)
      · -- The flag is in front of this record, or behind it.
        have hapart : q + r.header.size ≤ p ∨ p < q := by
          rcases Nat.lt_or_gt_of_ne hqp with hbefore | hbehind
          · exact .inl (headersOn_disjoint hq hchain hbefore)
          · exact .inr hbehind
        refine .inl (hr.congr (mem_pageLive.mpr ⟨?_, hqvalid⟩) ?_)
        · rw [hsplit] at hq
          rw [hchain']
          rcases List.mem_append.mp hq with hq | hq
          · exact List.mem_append_left _ hq
          · rcases List.mem_cons.mp hq with heq | hq
            · exact absurd (congrArg Prod.fst heq) hqp
            · exact List.mem_append_right _ (List.mem_cons_of_mem _ hq)
        · rw [hflash]
          refine Flash.agreeOn_store ?_
          rw [List.length_singleton]
          have hsame : r.size = r.header.size := rfl
          omega
    · exact .inl ((hothers i hi hij).2 q r hr)

/-- **The record that a write replaces is flagged.** -/
theorem UnderWay.flag (h : UnderWay s p w) (htable : Table s)
    (hbound : ∀ i < cfg.maxPages, s.writeAddr i ≤ (s.pages.get i).pAddr + cfg.pageSize)
    (hstep : w.step = .done) (htarget : Target s p w)
    (hflash : t.flash = s.flash.store p [fdsTlDirty]) (hpages : t.pages = s.pages) :
    UnderWay t p w ∧ Grows s t fun id => id = w.recordToDelete := by
  obtain ⟨j, hj, header, hmem, hid, hend⟩ := htarget
  obtain ⟨hpage, hroom⟩ := h.room
  have hends : ∀ i < cfg.maxPages, ∀ x ∈ pageChain s i, i ≠ w.page →
      x.1 + x.2.size ≤ s.writeAddr i := fun i hi x hx hne => (h.others i hi hne).record_le hx
  have hin : ∀ i < cfg.maxPages, ∀ x ∈ pageChain s i,
      x.1 + x.2.size ≤ (s.pages.get i).pAddr + cfg.pageSize := by
    intro i hi x hx
    by_cases hiw : i = w.page
    · subst hiw
      have hle : x.1 + x.2.size ≤ _ := le_of_mem_headersOn hx
      rcases h.stop with hstop | hstop <;> omega
    · exact (hends i hi x hx hiw).trans (hbound i hi)
  obtain ⟨hsize, hchain, hgrows⟩ := flag_page htable hin hj hmem hflash hpages
  rw [hid] at hgrows
  have hwrite := writeAddr_congr (t := t) hpages
  have haddr : ∀ i, (t.pages.get i).pAddr = (s.pages.get i).pAddr := fun i => by rw [hpages]
  obtain ⟨hmem, -⟩ := mem_pageLive.mp hmem
  have hthree := header.three_le_size
  -- The flag is in front of the words that are written next.
  have hout : ∀ i < cfg.maxPages, ∀ y, s.writeAddr i ≤ y →
      y < (s.pages.get i).pAddr + cfg.pageSize → t.flash y = s.flash y := by
    intro i hi y hy hlt
    rw [hflash]
    apply Flash.store_apply_outside
    rw [List.length_singleton]
    obtain ⟨hle, hpend, -⟩ := mem_headersOn hmem
    by_cases hij : i = j
    · subst hij
      have hle : p + header.size ≤ s.writeAddr i := by
        by_cases hiw : i = w.page
        · subst hiw
          exact hend rfl
        · exact hends i hi _ hmem hiw
      omega
    · have hdisj := htable.disjoint_pages hi hj hij
      have hstart : (s.pages.get i).pAddr ≤ s.writeAddr i := Nat.le_add_right _ _
      dsimp only at hle hpend
      omega
  refine ⟨⟨⟨hpage, ?_⟩, fun i hi hne => ?_, ?_, fun x hx => ?_, ?_, ?_, fun x hx => ?_, h.offset,
    fun _ hnot => absurd hstep hnot⟩, hgrows⟩
  · rw [hwrite, haddr]
    exact hroom
  · have hother := h.others i hi hne
    refine ⟨?_, ?_⟩
    · rw [hsize i hi, hwrite, haddr]
      exact hother.le
    · rw [hwrite, haddr]
      intro y hy hlt
      rw [hout i hi y hy hlt]
      exact hother.erased y hy hlt
  · rw [hwrite, haddr]
    exact h.tag
  · rw [hwrite]
    rcases hchain w.page hpage x hx with hx | ⟨rfl, rfl⟩
    · exact h.chain x hx
    · left
      dsimp only
      rw [FdsHeader.flagged_size]
      exact hend rfl
  · rw [hsize w.page hpage, hwrite, haddr]
    exact h.stop
  · rw [hwrite, haddr]
    intro y hy hlt
    rw [hout w.page hpage y (by omega) hlt]
    exact h.erased y hy hlt
  · unfold FdsWriteOp.Unwritten at hx
    rw [hstep] at hx
    exact absurd hx id

/-- **What fstorage has programmed**, in whole or in part. -/
theorem WriteStores.after (h : WriteStores s p w) (hway : UnderWay s p w) (htable : Table s)
    (hbound : ∀ i < cfg.maxPages, s.writeAddr i ≤ (s.pages.get i).pAddr + cfg.pageSize)
    (hpending : s.pending = some (.store dest src))
    (hflash : t.flash = s.flash.store dest (src.take n)) (hpages : t.pages = s.pages) :
    UnderWay t p w ∧ Grows s t fun id => w.update = true ∧ id = w.recordToDelete := by
  have hweaken : ∀ {gone : BitVec 32 → Prop}, Grows s t gone →
      (∀ id, gone id → w.update = true ∧ id = w.recordToDelete) →
        Grows s t fun id => w.update = true ∧ id = w.recordToDelete := fun hgrows himp =>
    ⟨hgrows.chain, fun i hi q r hr => (hgrows.stands i hi q r hr).imp_right (himp _)⟩
  have haddr : ∀ i, (t.pages.get i).pAddr = (s.pages.get i).pAddr := fun i => by rw [hpages]
  -- Nothing has been programmed.
  have hnothing : src.take n = [] → UnderWay t p w ∧
      Grows s t fun id => w.update = true ∧ id = w.recordToDelete := by
    intro hnil
    rw [hnil, Flash.store_nil] at hflash
    exact ⟨hway.congr hflash haddr (writeAddr_congr hpages), grows_of_eq hflash haddr _⟩
  -- One word is programmed, or none.
  have hone : ∀ word : BitVec 32, src = [word] → src.take n = [] ∨ src.take n = [word] := by
    rintro word rfl
    cases n with
    | zero => exact .inl rfl
    | succ n => exact .inr (by simp)
  cases h with
  | first hfirst hstep hends =>
    obtain ⟨rfl, hsrc⟩ : dest = s.writeAddr w.page ∧ src = [w.header.tl] := by
      rw [hfirst] at hpending
      injection hpending with hpending
      injection hpending with hdest hsrc
      exact ⟨hdest.symm, hsrc.symm⟩
    rcases hone _ hsrc with hnil | hword
    · exact hnothing hnil
    · rw [hword] at hflash
      obtain ⟨hway', hgrows⟩ := hway.first htable hbound hstep hends hflash hpages
      exact ⟨hway', hweaken hgrows fun _ => False.elim⟩
  | words dest' src' hwords hbegun hlt hle hblank hsecond hkeeps =>
    obtain ⟨rfl, rfl⟩ : dest = dest' ∧ src = src' := by
      rw [hwords] at hpending
      injection hpending with hpending
      injection hpending with hdest hsrc
      exact ⟨hdest.symm, hsrc.symm⟩
    have hlength : (src.take n).length ≤ src.length := by
      rw [List.length_take]
      exact Nat.min_le_right _ _
    obtain ⟨hway', hgrows⟩ := hway.words htable hbound hlt (by omega) hsecond
      (fun x hx => (hkeeps x hx).imp_right fun hx => by omega) hflash hpages
    exact ⟨hway', hweaken hgrows fun _ => False.elim⟩
  | flag hflagged hstep hupdate htarget =>
    obtain ⟨rfl, hsrc⟩ : dest = p ∧ src = [fdsTlDirty] := by
      rw [hflagged] at hpending
      injection hpending with hpending
      injection hpending with hdest hsrc
      exact ⟨hdest.symm, hsrc.symm⟩
    rcases hone _ hsrc with hnil | hword
    · exact hnothing hnil
    · rw [hword] at hflash
      obtain ⟨hway', hgrows⟩ := hway.flag htable hbound hstep htarget hflash hpages
      exact ⟨hway', hweaken hgrows fun id hid => ⟨hupdate, hid⟩⟩

end Flash

end NordicEsb
