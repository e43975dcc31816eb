import NordicEsb.Fds.Restart
import NordicEsb.Lib.Machine

/-!
# Power Loss during a Collection

A collection that power loss may interrupt between two operations or after any number of words of
the copy of a record, and the initialisations after it, which power loss may interrupt between two
operations. The application opens and closes records while the collection is running.

**Main result** (`survives_of_reachable`): no copy of a record is lost and the last initialisation
restores the module, unless `fds_init` finds a swap page with copies behind the erased page they
come from (`PromotesErased`): there `m_gc.cur_page` is not set, and `init_execute` takes the data
page of entry 0 for the new swap page.
-/

namespace NordicEsb

variable {cfg : FdsConfig} {live : ℕ → List FdsRecord}

/-! ## §1 The machine -/

/-- `fds_gc` on an empty queue: the operation is executed at once. -/
def fdsGc (s : Fds cfg) : FdsRet × Fds cfg :=
  if s.initialized = false then (fdsErrNotInitialized, s)
  else
    gcExecute fsSuccess
      (if s.gc.state ≠ .begin then { s with gc := { s.gc with resume := true } } else s)

/-- The operation that the module executes. -/
inductive FdsPhase where
  | collecting
  | collected
  | off
  | initializing (step : FdsInitStep)
  | initialized
  /-- The operation has failed, or its first step is undetermined. -/
  | failed
deriving DecidableEq, Repr

/-- The module and what it is doing. -/
structure FdsRun (cfg : FdsConfig) where
  fds : Fds cfg
  phase : FdsPhase

inductive FdsEvent where
  /-- The application opens or closes records on the page: so many are open now. -/
  | recordsOpen (i : ℕ) (count : BitVec 16)
  /-- The operation of fstorage is complete. -/
  | flashDone
  /-- Power is lost after this many words of the operation. -/
  | powerLost (words : ℕ)
  /-- The module is reset, and `fds_init` is called. -/
  | powerUp

namespace FdsRun

/-- `queue_process` on what `gc_execute` returns. -/
def ofGc (out : FdsRet × Fds cfg) : FdsRun cfg :=
  ⟨out.2, if out.1 = fdsOpExecuting then .collecting
    else if out.1 = fdsOpCompleted then .collected else .failed⟩

/-- `queue_process` on what `init_execute` returns. -/
def ofInit (out : FdsRet × FdsInitStep × Fds cfg) : FdsRun cfg :=
  ⟨out.2.2, if out.1 = fdsOpExecuting then .initializing out.2.1
    else if out.1 = fdsOpCompleted then .initialized else .failed⟩

/-- `fds_init`, and the first step of the operation that it queues. -/
def boot (s : Fds cfg) : FdsRun cfg :=
  match fdsInit s with
  | (_, some step, s) => ofInit (initExecute fsSuccess step s)
  | (_, none, s) => ⟨s, if s.initialized then .initialized else .failed⟩

/-- When an event may occur. -/
def Enabled (r : FdsRun cfg) : FdsEvent → Prop
  | .recordsOpen _ _ => r.phase = .collecting
  | .flashDone => r.fds.pending ≠ none
  | .powerLost words =>
    r.phase ≠ .off ∧
      (words = 0 ∨ (r.phase = .collecting ∧ r.fds.gc.state = .copyRecord))
  | .powerUp => r.phase = .off

instance (r : FdsRun cfg) (ev : FdsEvent) : Decidable (r.Enabled ev) := by
  cases ev <;> unfold Enabled <;> infer_instance

/-- What an event does. -/
def step (r : FdsRun cfg) : FdsEvent → FdsRun cfg
  | .recordsOpen i count =>
    { r with fds := { r.fds with
        pages := r.fds.pages.set i { r.fds.pages.get i with recordsOpen := count } } }
  | .flashDone =>
    match r.phase with
    | .collecting => ofGc (gcExecute fsSuccess (flashDone r.fds))
    | .initializing step => ofInit (initExecute fsSuccess step (flashDone r.fds))
    | _ => r
  | .powerLost words => ⟨Fds.reset cfg (flashCut r.fds words), .off⟩
  | .powerUp => boot r.fds

/-- A module that has called `fds_gc` in the state `s`. -/
def machine (s : Fds cfg) : Machine (FdsRun cfg) FdsEvent where
  start r := r = ofGc (fdsGc s)
  enabled := Enabled
  step := step

instance (s : Fds cfg) (r : FdsRun cfg) (ev : FdsEvent) :
    Decidable ((machine s).enabled r ev) := inferInstanceAs (Decidable (r.Enabled ev))

end FdsRun

/-! ## §2 What is restored -/

/-- The pages are tagged: one is the swap page, the others are data pages. -/
structure WellTagged (cfg : FdsConfig) (f : Flash 32) : Prop where
  swap : ∃ w < cfg.virtualPages, pageIdentify f (cfg.pageAddr w) = .swap ∧
    ∀ p < cfg.virtualPages, p ≠ w → pageIdentify f (cfg.pageAddr p) = .data

/-- Every record that was valid has a copy on a page that is neither the swap page nor being
    erased. -/
structure CopiesKept (kept : List FdsRecord) (s : Fds cfg) : Prop where
  offSwap : ∀ r ∈ kept, ∃ a ∈ cfg.pageAddrs, a ≠ s.swapPage.pAddr ∧ r ∈ pageRecords cfg s.flash a
  offErase : ∀ r ∈ kept, ∀ e n, s.pending = some (.erase e n) →
    ∃ a ∈ cfg.pageAddrs, a ≠ e ∧ r ∈ pageRecords cfg s.flash a

/-- **A collection of the records `kept` survives.** -/
structure Survives (kept : List FdsRecord) (r : FdsRun cfg) : Prop where
  copies : CopiesKept kept r.fds
  working : r.phase ≠ .failed
  /-- An initialisation that is not interrupted ends after two operations at the latest. -/
  ends : ∀ step, r.phase = .initializing step →
    ∃ n ≤ 2, ((FdsRun.step · .flashDone)^[n] r).phase = .initialized
  tagged : r.phase = .initialized → WellTagged cfg r.fds.flash
  records : r.phase = .initialized → (liveRecords r.fds).Perm kept

/-- **If an erased page lies before a swap page with copies**, that is the second page. -/
def PromotesErased (cfg : FdsConfig) (f : Flash 32) : Prop :=
  ∀ w < cfg.virtualPages, ∀ e < w, pageIsErased cfg f (cfg.pageAddr e) = true →
    pageIdentify f (cfg.pageAddr w) = .swap →
    (pageScan cfg f (cfg.pageAddr w) 0).wordsWritten = 2 ∨ w = 1

instance (f : Flash 32) : Decidable (PromotesErased cfg f) :=
  inferInstanceAs (Decidable (∀ w < cfg.virtualPages, ∀ e < w, _ → _ → _ ∨ _))

/-- Whenever `fds_init` is called, `m_gc.cur_page` names the page to be promoted. -/
def FdsRun.Noted (r : FdsRun cfg) : FdsEvent → Prop
  | .powerUp => PromotesErased cfg r.fds.flash
  | _ => True

instance (r : FdsRun cfg) (ev : FdsEvent) : Decidable (r.Noted ev) := by
  cases ev <;> unfold FdsRun.Noted <;> infer_instance

/-- **A file system before a collection**: any order of the pages, any records on them, valid or
    dirty, and an empty swap page. -/
def FdsReady (s : Fds cfg) : Prop := ∃ live, Mounted live s

/-! ## §3 The invariant of a run -/

variable {s : Fds cfg} {r : FdsRun cfg} {kept : List FdsRecord}

/-- **The invariant**, phase by phase. -/
def RunInv (kept : List FdsRecord) (r : FdsRun cfg) : Prop :=
  match r.phase with
  | .collecting => ∃ live, (tableRecords cfg live).Perm kept ∧ GcInv live r.fds
  | .collected => ∃ live, (tableRecords cfg live).Perm kept ∧ GcInv live r.fds ∧ r.fds.pending = none
  | .off => FlashLayout cfg r.fds.flash kept ∧ r.fds = Fds.reset cfg r.fds.flash
  | .initializing step => ∃ live, (tableRecords cfg live).Perm kept ∧ InitInv live step r.fds
  | .initialized => ∃ live, (tableRecords cfg live).Perm kept ∧ Mounted live r.fds
  | .failed => False

theorem FlashLayout.perm {f : Flash 32} {kept' : List FdsRecord} (h : FlashLayout cfg f kept)
    (hperm : kept.Perm kept') : FlashLayout cfg f kept' := by
  cases h with
  | tagged w rs hw swap data records => exact .tagged w rs hw swap data (records.trans hperm)
  | copied e w rs he hw hne erased swap valid data records =>
    exact .copied e w rs he hw hne erased swap valid data (records.trans hperm)
  | untagged e he erased data records => exact .untagged e he erased data (records.trans hperm)

/-- Open records do not matter to the pages. -/
theorem GcInv.recordsOpen (h : GcInv live s) (i : ℕ) (count : BitVec 16) :
    GcInv live { s with
      pages := s.pages.set i { s.pages.get i with recordsOpen := count } } := by
  obtain ⟨pages, hpages⟩ : ∃ pages, pages = s.pages.set i
    { s.pages.get i with recordsOpen := count } := ⟨_, rfl⟩
  have hget : ∀ j, (pages.get j).pAddr = (s.pages.get j).pAddr ∧
      (pages.get j).pageType = (s.pages.get j).pageType := by
    intro j
    rw [hpages]
    by_cases hi : i < cfg.maxPages
    · rw [FixedArray.get_set _ _ _ _ hi]
      split
      · rename_i heq
        rw [heq]
        exact ⟨rfl, rfl⟩
      · exact ⟨rfl, rfl⟩
    · have hsame : s.pages.set i { s.pages.get i with recordsOpen := count } = s.pages := by
        funext k
        unfold FixedArray.set
        rw [if_neg (by have := k.isLt; omega)]
      rw [hsame]
      exact ⟨rfl, rfl⟩
  rw [← hpages]
  have haddr : ∀ j, (pages.get j).pAddr = (s.pages.get j).pAddr := fun j => (hget j).1
  constructor
  · obtain ⟨⟨hdata, hcovers⟩, hfull, hresume⟩ := h.collector
    refine ⟨⟨fun j hj => (hget j).2.trans (hdata j hj), ?_⟩, hfull, hresume⟩
    unfold Covers slotAddrs at hcovers ⊢
    simp only [haddr]
    exact hcovers
  · cases h.phase with
    | idle state pending hold copies src =>
      exact .idle state pending (fun j hj => by rw [haddr]; exact hold j hj)
        ⟨copies.page, copies.offset⟩ src
    | copying pre r post state pending hold cut valid src =>
      refine .copying pre r post state pending (fun j hj => by rw [haddr]; exact hold j hj)
        ⟨cut.cur, ?_, cut.valid, ⟨cut.copies.page, cut.copies.offset⟩⟩ valid ?_
      · rw [haddr]
        exact cut.page
      · rw [haddr]
        exact src
    | erasing state cur pending hold copies =>
      exact .erasing state cur (by rw [haddr]; exact pending)
        (fun j hj => by rw [haddr]; exact hold j hj) ⟨copies.page, copies.offset⟩
    | promoting state cur pending hold copied valid erased offset =>
      exact .promoting state cur (by rw [haddr]; exact pending)
        (fun j hj hne => by rw [haddr]; exact hold j hj hne) (by rw [haddr]; exact copied) valid
        erased offset
    | tagging state pending hold erased offset src =>
      exact .tagging state pending (fun j hj => by rw [haddr]; exact hold j hj) erased offset src
    | discarding vs state pending hold tagged offset =>
      exact .discarding vs state pending (fun j hj => by rw [haddr]; exact hold j hj) tagged offset

theorem runInv_ofGc {out : FdsRet × Fds cfg} (h : GcOutcome live out)
    (hkept : (tableRecords cfg live).Perm kept) : RunInv kept (FdsRun.ofGc out) := by
  obtain ⟨hinv, ⟨hret, hpending⟩ | ⟨hret, hpending⟩⟩ := h
  · have hphase : (FdsRun.ofGc out).phase = .collected := by
      unfold FdsRun.ofGc
      rw [hret]
      rfl
    unfold RunInv
    rw [hphase]
    exact ⟨live, hkept, hinv, hpending⟩
  · have hphase : (FdsRun.ofGc out).phase = .collecting := by
      unfold FdsRun.ofGc
      rw [hret]
      rfl
    unfold RunInv
    rw [hphase]
    exact ⟨live, hkept, hinv⟩

theorem runInv_ofInit {out : FdsRet × FdsInitStep × Fds cfg} (h : InitOutcome live out)
    (hkept : (tableRecords cfg live).Perm kept) : RunInv kept (FdsRun.ofInit out) := by
  rcases h with ⟨hret, hmounted⟩ | ⟨hret, hinv⟩
  · have hphase : (FdsRun.ofInit out).phase = .initialized := by
      unfold FdsRun.ofInit
      rw [hret]
      rfl
    unfold RunInv
    rw [hphase]
    exact ⟨live, hkept, hmounted⟩
  · have hphase : (FdsRun.ofInit out).phase = .initializing out.2.1 := by
      unfold FdsRun.ofInit
      rw [hret]
      rfl
    unfold RunInv
    rw [hphase]
    exact ⟨live, hkept, hinv⟩

/-- **A restart** on what power loss leaves. -/
theorem restart_outcome {f : Flash 32} (h : FlashLayout cfg f kept) (hnoted : PromotesErased cfg f) :
    RestartOutcome kept (fdsInit (Fds.reset cfg f)) := by
  cases h with
  | tagged w rs hw swap data records => exact restart_tagged hw swap data records
  | copied e w rs he hw hne erased swap valid data records =>
    refine restart_copied he hw hne erased swap valid data records fun hlt => ?_
    rcases hnoted w hw e hlt erased.isErased swap.tagged.identify with htwo | hone
    · exact .inl ((swap.tagged.scan_eq_two_iff 0).mp htwo)
    · exact .inr hone
  | untagged e he erased data records => exact restart_untagged he erased data records

theorem runInv_boot {f : Flash 32} (h : FlashLayout cfg f kept) (hnoted : PromotesErased cfg f) :
    RunInv kept (FdsRun.boot (Fds.reset cfg f)) := by
  obtain ⟨live, hkept, hout⟩ := restart_outcome h hnoted
  unfold FdsRun.boot
  obtain ⟨⟨ret, step, t⟩, hinit⟩ : ∃ out, out = fdsInit (Fds.reset cfg f) := ⟨_, rfl⟩
  rw [← hinit] at hout ⊢
  cases step with
  | some step => exact runInv_ofInit hout hkept
  | none =>
    have hinitialized : t.initialized = true := Mounted.initialized hout
    simp only [hinitialized, if_true]
    exact ⟨live, hkept, hout⟩

theorem Mounted.gcInv (h : Mounted live s) : GcInv live s :=
  ⟨h.collector, .idle h.state h.pending h.hold h.copies h.src⟩

/-- The collection begins. -/
theorem runInv_start (h : Mounted live s) :
    RunInv (tableRecords cfg live) (FdsRun.ofGc (fdsGc s)) := by
  have hgc : fdsGc s = gcExecute fsSuccess s := by
    unfold fdsGc
    rw [if_neg (by simp [h.initialized]), if_neg (by simp [h.state])]
  rw [hgc]
  exact runInv_ofGc (gcExecute_begin h.gcInv h.state) (List.Perm.refl _)

/-- **Step lemma.** -/
theorem runInv_step (h : RunInv kept r) (ev : FdsEvent) (hen : r.Enabled ev) (hnoted : r.Noted ev) :
    RunInv kept (r.step ev) := by
  obtain ⟨s, phase⟩ := r
  cases ev with
  | recordsOpen i count =>
    obtain rfl : phase = .collecting := hen
    obtain ⟨live, hkept, hinv⟩ := h
    exact ⟨live, hkept, hinv.recordsOpen i count⟩
  | flashDone =>
    have hpending : s.pending ≠ none := hen
    cases phase with
    | collecting =>
      obtain ⟨live, hkept, hinv⟩ := h
      exact runInv_ofGc (gcExecute_done hinv hpending) hkept
    -- nothing is pending, so the flash cannot be done
    | collected =>
      obtain ⟨live, hkept, hinv, hnone⟩ := h
      exact absurd hnone hpending
    | off =>
      have hreset : s = Fds.reset cfg s.flash := h.2
      rw [hreset] at hpending
      exact absurd rfl hpending
    | initializing step =>
      obtain ⟨live, hkept, hinv⟩ := h
      exact runInv_ofInit (initExecute_done hinv) hkept
    | initialized => exact h
    | failed => exact h
  -- what survives is a layout that the next start can read
  | powerLost words =>
    obtain ⟨hon, hwords⟩ := hen
    show FlashLayout cfg (flashCut s words) kept ∧ _
    refine ⟨?_, rfl⟩
    cases phase with
    | collecting =>
      obtain ⟨live, hkept, hinv⟩ := h
      exact (hinv.layout words (hwords.imp_right And.right)).perm hkept
    | collected =>
      obtain ⟨live, hkept, hinv, -⟩ := h
      have hzero : words = 0 := by simpa using hwords
      exact (hinv.layout words (.inl hzero)).perm hkept
    | off => exact absurd rfl hon
    | initializing step =>
      obtain ⟨live, hkept, hinv⟩ := h
      have hzero : words = 0 := by simpa using hwords
      -- No word of the pending operation has been written.
      have hcut : flashCut s words = s.flash := by
        unfold flashCut
        rw [hzero]
        split
        · simp
        · rfl
      rw [hcut]
      exact hinv.layout.perm hkept
    | initialized =>
      obtain ⟨live, hkept, hmounted⟩ := h
      have hzero : words = 0 := by simpa using hwords
      exact (hmounted.gcInv.layout words (.inl hzero)).perm hkept
    | failed => exact h.elim
  | powerUp =>
    obtain rfl : phase = .off := hen
    obtain ⟨hlayout, hreset⟩ := h
    show RunInv kept (FdsRun.boot s)
    dsimp only at hreset
    rw [hreset]
    exact runInv_boot hlayout hnoted

/-! ## §4 What the invariant says -/

theorem mem_tableRecords {x : FdsRecord} :
    x ∈ tableRecords cfg live ↔ ∃ j < cfg.maxPages, x ∈ live j := by
  simp only [tableRecords, List.mem_flatMap, List.mem_range]

/-- What the pages of the table hold, also while the swap page is promoted. -/
theorem GcInv.walk (h : GcInv live s) {j : ℕ} (hj : j < cfg.maxPages) :
    pageRecords cfg s.flash (s.pages.get j).pAddr = live j := by
  have hmem := h.collector.table.covers.slot_mem hj
  cases h.phase with
  | idle state pending hold copies src => exact (hold j hj).walk hmem
  | copying pre r post state pending hold cut valid src => exact (hold j hj).walk hmem
  | erasing state cur pending hold copies => exact (hold j hj).walk hmem
  | promoting state cur pending hold copied valid erased offset =>
    by_cases hjc : j = s.gc.curPage
    · rw [hjc] at hmem ⊢
      rw [copied.tagged.walk hmem, valid]
    · exact (hold j hj hjc).walk hmem
  | tagging state pending hold erased offset src => exact (hold j hj).walk hmem
  | discarding vs state pending hold tagged offset => exact (hold j hj).walk hmem

theorem InitInv.walk {step : FdsInitStep} (h : InitInv live step s) {j : ℕ}
    (hj : j < cfg.maxPages) : pageRecords cfg s.flash (s.pages.get j).pAddr = live j := by
  have hmem := h.collector.table.covers.slot_mem hj
  cases h.phase with
  | erasing rs hstep pending hold tagged offset => exact (hold j hj).walk hmem
  | promoting i hi hstep pending hold copied valid erased offset =>
    by_cases hji : j = i
    · rw [hji] at hmem ⊢
      rw [copied.tagged.walk hmem, valid]
    · exact (hold j hj hji).walk hmem
  | taggingSwap hstep pending hold erased offset => exact (hold j hj).walk hmem
  | taggingData i hi hstep pending hold empty erased copies =>
    by_cases hji : j = i
    · rw [hji] at hmem ⊢
      rw [erased.walk hmem, empty]
    · exact (hold j hj hji).walk hmem

/-- The pages of the table have the records, and no page of the table is the swap page. -/
theorem Covers.offSwap (h : Covers s)
    (hwalk : ∀ j < cfg.maxPages, pageRecords cfg s.flash (s.pages.get j).pAddr = live j)
    {x : FdsRecord} (hx : x ∈ tableRecords cfg live) :
    ∃ a ∈ cfg.pageAddrs, a ≠ s.swapPage.pAddr ∧ x ∈ pageRecords cfg s.flash a := by
  obtain ⟨j, hj, hxj⟩ := mem_tableRecords.mp hx
  exact ⟨_, h.slot_mem hj, h.slot_ne_swap hj, by rwa [hwalk j hj]⟩

theorem GcInv.copiesKept (h : GcInv live s) (hkept : (tableRecords cfg live).Perm kept) :
    CopiesKept kept s := by
  have hcovers := h.collector.table.covers
  have hoff : ∀ x ∈ kept, ∃ a ∈ cfg.pageAddrs, a ≠ s.swapPage.pAddr ∧
      x ∈ pageRecords cfg s.flash a :=
    fun x hx => hcovers.offSwap (fun j hj => h.walk hj) (hkept.symm.subset hx)
  refine ⟨hoff, fun x hx e n herase => ?_⟩
  cases h.phase with
  | idle state pending => simp [pending] at herase
  | copying pre r post state pending => simp [pending] at herase
  | erasing state cur pending hold copies =>
    rw [pending] at herase
    obtain ⟨rfl, rfl⟩ : (s.pages.get s.gc.curPage).pAddr = e ∧ cfg.pageSize = n := by
      simpa using herase
    obtain ⟨j, hj, hxj⟩ := mem_tableRecords.mp (hkept.symm.subset hx)
    by_cases hjc : j = s.gc.curPage
    · -- The records of the page that is erased are on the swap page.
      refine ⟨_, hcovers.swap_mem, (hcovers.slot_ne_swap cur).symm, ?_⟩
      have hvalid : (live s.gc.curPage).filter FdsRecord.isValid = live s.gc.curPage := by
        obtain ⟨rs, -, hrs⟩ := hold _ cur
        rw [← hrs, List.filter_filter]
        simp
      rw [copies.page.tagged.walk hcovers.swap_mem, hvalid, ← hjc]
      exact hxj
    · exact ⟨_, hcovers.slot_mem hj, hcovers.slot_ne_slot cur hj hjc, by rwa [h.walk hj]⟩
  | promoting state cur pending => simp [pending] at herase
  | tagging state pending => simp [pending] at herase
  | discarding vs state pending hold tagged offset =>
    rw [pending] at herase
    obtain ⟨rfl, rfl⟩ : s.swapPage.pAddr = e ∧ cfg.pageSize = n := by simpa using herase
    exact hoff x hx

theorem InitInv.copiesKept {step : FdsInitStep} (h : InitInv live step s)
    (hkept : (tableRecords cfg live).Perm kept) : CopiesKept kept s := by
  have hcovers := h.collector.table.covers
  have hoff : ∀ x ∈ kept, ∃ a ∈ cfg.pageAddrs, a ≠ s.swapPage.pAddr ∧
      x ∈ pageRecords cfg s.flash a :=
    fun x hx => hcovers.offSwap (fun j hj => h.walk hj) (hkept.symm.subset hx)
  refine ⟨hoff, fun x hx e n herase => ?_⟩
  cases h.phase with
  | erasing rs hstep pending hold tagged offset =>
    rw [pending] at herase
    obtain ⟨rfl, rfl⟩ : s.swapPage.pAddr = e ∧ cfg.pageSize = n := by simpa using herase
    exact hoff x hx
  | promoting i hi hstep pending => simp [pending] at herase
  | taggingSwap hstep pending => simp [pending] at herase
  | taggingData i hi hstep pending => simp [pending] at herase

theorem FlashLayout.copiesKept {f : Flash 32} (h : FlashLayout cfg f kept) :
    CopiesKept kept (Fds.reset cfg f) := by
  have hoff : ∀ a, (recordsBut cfg f a).Perm kept →
      ∀ x ∈ kept, ∃ b ∈ cfg.pageAddrs, b ≠ 0 ∧ x ∈ pageRecords cfg f b := by
    intro a hperm x hx
    obtain ⟨b, hb, hxb⟩ := List.mem_flatMap.mp (hperm.symm.subset hx)
    have hmem := List.mem_of_mem_erase hb
    exact ⟨b, hmem, (pos_of_mem_pageAddrs hmem).ne', hxb⟩
  refine ⟨?_, fun x hx e n herase => by simp [Fds.reset] at herase⟩
  cases h with
  | tagged w rs hw swap data records => exact hoff _ records
  | copied e w rs he hw hne erased swap valid data records => exact hoff _ records
  | untagged e he erased data records => exact hoff _ records

theorem Mounted.wellTagged (h : Mounted live s) : WellTagged cfg s.flash := by
  have hcovers := h.collector.table.covers
  obtain ⟨w, hw, haddr⟩ := mem_pageAddrs.mp hcovers.swap_mem
  refine ⟨w, hw, ?_, fun p hp hne => ?_⟩
  · rw [← haddr]
    exact h.copies.page.tagged.identify
  · obtain ⟨j, hj, hjaddr⟩ := hcovers.slot_of_ne (pageAddr_mem hp)
      (by rw [haddr]; exact fun heq => hne (pageAddr_inj heq))
    obtain ⟨rs, hpage, -⟩ := h.hold j hj
    rw [hjaddr]
    exact hpage.identify

theorem Mounted.liveRecords_eq (h : Mounted live s) : liveRecords s = tableRecords cfg live := by
  unfold liveRecords tableRecords
  apply List.flatMap_congr
  intro j hj
  have hlt := List.mem_range.mp hj
  rw [if_pos (h.collector.table.data j hlt)]
  exact h.gcInv.walk hlt

/-- The last step of the initialisation completes it. -/
theorem initExecute_tagData_done (h : InitInv live .tagData s) :
    (FdsRun.step ⟨s, .initializing .tagData⟩ .flashDone).phase = .initialized := by
  have htypes : ∀ j < cfg.maxPages, ((flashDone s).pages.get j).pageType = .data := by
    have hpages : (flashDone s).pages = s.pages := by
      unfold flashDone
      split
      · rfl
      · rfl
    rw [hpages]
    exact h.collector.table.data
  have hnone : (List.range cfg.maxPages).find?
      (fun i => ((flashDone s).pages.get i).pageType == .erased) = none := by
    rw [List.find?_eq_none]
    intro i hi
    rw [htypes i (List.mem_range.mp hi)]
    decide
  simp only [FdsRun.step, FdsRun.ofInit, initExecute, initTagData, hnone]
  rfl

/-- The step before it leads to the last one. -/
theorem initExecute_tagSwap_done (h : InitInv live .tagSwap s) :
    ∃ t, FdsRun.step ⟨s, .initializing .tagSwap⟩ .flashDone = ⟨t, .initializing .tagData⟩ ∧
      InitInv live .tagData t := by
  have hstep : ∀ t : Fds cfg, (initExecute fsSuccess .tagSwap t).2.1 = .tagData := by
    intro t
    simp only [initExecute, initReturn]
    rw [if_neg (by decide)]
    split
    · rfl
    · rfl
  have hret : ∀ t : Fds cfg, (initExecute fsSuccess .tagSwap t).1 ≠ fdsOpCompleted := by
    intro t
    simp only [initExecute, initReturn]
    rw [if_neg (by decide)]
    split
    · exact (by decide : fdsErrBusy ≠ fdsOpCompleted)
    · exact (by decide : fdsOpExecuting ≠ fdsOpCompleted)
  rcases initExecute_done h with ⟨hdone, -⟩ | ⟨hexec, hinv⟩
  · exact absurd hdone (hret _)
  · rw [hstep] at hinv
    refine ⟨_, ?_, hinv⟩
    simp only [FdsRun.step, FdsRun.ofInit, hexec, hstep]
    rfl

theorem InitInv.ends {step : FdsInitStep} (h : InitInv live step s) :
    ∃ n ≤ 2, ((FdsRun.step · .flashDone)^[n] (⟨s, .initializing step⟩ : FdsRun cfg)).phase
      = .initialized := by
  cases hstep : step with
  | tagData =>
    subst hstep
    exact ⟨1, by omega, initExecute_tagData_done h⟩
  | tagSwap =>
    subst hstep
    obtain ⟨t, ht, hinv⟩ := initExecute_tagSwap_done h
    refine ⟨2, le_rfl, ?_⟩
    simp only [Function.iterate_succ, Function.iterate_zero, Function.comp_apply, id_eq, ht]
    exact initExecute_tagData_done hinv
  | eraseSwap =>
    cases h.phase with
    | erasing rs hs => simp [hstep] at hs
    | promoting i hi hs => simp [hstep] at hs
    | taggingSwap hs => simp [hstep] at hs
    | taggingData i hi hs => simp [hstep] at hs
  | promoteSwap =>
    cases h.phase with
    | erasing rs hs => simp [hstep] at hs
    | promoting i hi hs => simp [hstep] at hs
    | taggingSwap hs => simp [hstep] at hs
    | taggingData i hi hs => simp [hstep] at hs

/-- **What the invariant says.** -/
theorem RunInv.survives (h : RunInv kept r) : Survives kept r := by
  obtain ⟨s, phase⟩ := r
  cases phase with
  | collecting =>
    obtain ⟨live, hkept, hinv⟩ := h
    exact ⟨hinv.copiesKept hkept, by simp, by simp, by simp, by simp⟩
  | collected =>
    obtain ⟨live, hkept, hinv, -⟩ := h
    exact ⟨hinv.copiesKept hkept, by simp, by simp, by simp, by simp⟩
  | off =>
    obtain ⟨hlayout, hreset⟩ := h
    refine ⟨?_, by simp, by simp, by simp, by simp⟩
    dsimp only at hreset ⊢
    rw [hreset]
    exact hlayout.copiesKept
  | initializing step =>
    obtain ⟨live, hkept, hinv⟩ := h
    refine ⟨hinv.copiesKept hkept, by simp, ?_, by simp, by simp⟩
    intro step' hstep
    obtain rfl : step = step' := by simpa using hstep
    exact hinv.ends
  | initialized =>
    obtain ⟨live, hkept, hmounted⟩ := h
    refine ⟨hmounted.gcInv.copiesKept hkept, by simp, by simp, fun _ => hmounted.wellTagged,
      fun _ => ?_⟩
    rw [hmounted.liveRecords_eq]
    exact hkept
  | failed => exact h.elim

/-! ## §5 Every run -/

/-- **Garbage collection survives power loss** in every run in which each call of `fds_init` finds
    the page to be promoted noted. -/
theorem survives_of_reachable (cfg : FdsConfig) (s : Fds cfg) (hready : FdsReady s)
    (r : FdsRun cfg) (h : (FdsRun.machine s).ReachableUnder FdsRun.Noted r) :
    Survives (liveRecords s) r := by
  obtain ⟨live, hmounted⟩ := hready
  have hinv : RunInv (tableRecords cfg live) r :=
    h.invariant (I := RunInv (tableRecords cfg live))
      (fun r hr => by
        obtain rfl : r = FdsRun.ofGc (fdsGc s) := hr
        exact runInv_start hmounted)
      (fun r ev hr hen hnoted => runInv_step hr ev hen hnoted)
  rw [hmounted.liveRecords_eq]
  exact hinv.survives

/-! ## §6 A page before the swap page -/

/-- An initialisation that finds nothing to do. -/
theorem fdsReady_fdsInit {f : Flash 32} {w : ℕ} (hw : w < cfg.virtualPages)
    (hswap : SwapTagged cfg f (cfg.pageAddr w) [])
    (hdata : ∀ p < cfg.virtualPages, p ≠ w → ∃ rs, DataPage cfg f (cfg.pageAddr p) rs)
    (hnone : (fdsInit (Fds.reset cfg f)).2.1 = none) :
    FdsReady (fdsInit (Fds.reset cfg f)).2.2 := by
  obtain ⟨live, -, hout⟩ := restart_tagged hw hswap hdata (List.Perm.refl _)
  rw [hnone] at hout
  exact ⟨live, hout⟩

/-- Three pages of 256 words. -/
def threePages : FdsConfig where
  family := .nrf51
  virtualPages := 3
  pageSize := 256
  startAddr := 0x1000
  two_le_virtualPages := by decide
  phyPageSize_dvd := by decide
  pageSize_pos := by decide
  pageSize_lt := by decide
  startAddr_pos := by decide

/-- A record with one word of data, valid or flagged dirty. -/
def shortRecord (valid : Bool) (id word : BitVec 32) : FdsRecord where
  header := ⟨if valid then 0x00010001 else 0x00010000, 0xFFFF0001, id⟩
  data := [word]
  length_data := by cases valid <;> simp [FdsHeader.lengthWords]

/-- Two data pages: a record on the first, a dirty and a valid one on the second. -/
def threeRecords : Flash 32 :=
  ((Flash.blank.store (threePages.pageAddr 0)
    (fdsPageTagMagic :: fdsPageTagData :: (shortRecord true 1 7).words)).store
    (threePages.pageAddr 1)
    (fdsPageTagMagic :: fdsPageTagData ::
      (shortRecord false 2 8).words ++ (shortRecord true 3 9).words)).store
    (threePages.pageAddr 2) [fdsPageTagMagic, fdsPageTagSwap]

/-- The module on these pages. -/
def threeMounted : Fds threePages := (fdsInit (Fds.reset threePages threeRecords)).2.2

theorem threeMounted_ready : FdsReady threeMounted := by
  have hswap : SwapTagged threePages threeRecords (threePages.pageAddr 2) [] := by
    constructor <;> decide +kernel
  refine fdsReady_fdsInit (w := 2) (by decide) hswap (fun p hp hne => ?_) (by decide +kernel)
  have hcases : p = 0 ∨ p = 1 := by
    have : p < 3 := hp
    omega
  rcases hcases with rfl | rfl
  · refine ⟨[shortRecord true 1 7], ?_⟩
    constructor <;> decide +kernel
  · refine ⟨[shortRecord false 2 8, shortRecord true 3 9], ?_⟩
    constructor <;> decide +kernel

/-- Power is lost in the middle of the copy, and the restart is completed. -/
theorem survives_threeMounted :
    Survives (liveRecords threeMounted)
      ((FdsRun.machine threeMounted).run (FdsRun.ofGc (fdsGc threeMounted))
        [.powerLost 2, .powerUp, .flashDone, .flashDone]) :=
  survives_of_reachable threePages threeMounted threeMounted_ready _
    (.of_follows (.start rfl) (by decide +kernel))

/-- **Power is lost when the second page is erased**, before the swap page behind it is tagged
    data: the restart takes the first page for the new swap page. -/
theorem not_survives_cutBeforeTag :
    ¬ ∀ (cfg : FdsConfig) (s : Fds cfg), FdsReady s → ∀ r : FdsRun cfg,
      (FdsRun.machine s).Reachable r → Survives (liveRecords s) r := by
  intro hall
  have hrun := hall threePages threeMounted threeMounted_ready
    ((FdsRun.machine threeMounted).run (FdsRun.ofGc (fdsGc threeMounted))
      [.flashDone, .flashDone, .powerLost 0, .powerUp, .flashDone, .flashDone, .flashDone])
    (.of_follows (.start rfl) (by decide +kernel))
  obtain ⟨w, hw, hswap, -⟩ := (hrun.tagged (by decide +kernel)).swap
  have hnone : ∀ w < threePages.virtualPages, pageIdentify
      ((FdsRun.machine threeMounted).run (FdsRun.ofGc (fdsGc threeMounted))
        [.flashDone, .flashDone, .powerLost 0, .powerUp, .flashDone, .flashDone,
          .flashDone]).fds.flash (threePages.pageAddr w) ≠ .swap := by
    decide +kernel
  exact hnone w hw hswap

end NordicEsb
