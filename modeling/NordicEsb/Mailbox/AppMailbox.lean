import NordicEsb.Lib.ByteMemory
import NordicEsb.Lib.Machine
import NordicEsb.Lib.QueueLedger
import NordicEsb.Lib.RingQueue

/-!
# A Mailbox

`app_mailbox.c` keeps items in a ring of slots. A slot has a word with the size of its item and then
its bytes. A mailbox that is full refuses an item, or gives up its oldest one for it; that is a mode,
and the return value is the same.

- `AppMailbox` and the functions of `app_mailbox.c`
- `MailQueue` is what a mailbox is for: a queue that remembers what became of each item
- `mailboxMachine` takes both through the same calls, and keeps what each answers
- `AppMailbox.Holds` says which items are in a mailbox, with one lemma for each function

The size of an item is not checked.

**Main result** (`behaves_of_reachable`): as long as no item is larger than a slot, the mailbox
answers as the queue does, and nothing behind the pool is written. A larger item runs into the next
slot (`not_behaves_largeItem`).
-/

namespace NordicEsb.Mailbox

/-! ## §1 The functions -/

/-- The bytes of an item, as many as its `size`. -/
abbrev Item := List (BitVec 8)

/-- What the functions return. -/
inductive MailboxRet where
  | success
  | errorNoMem
deriving DecidableEq, Repr

/-- `app_mailbox_overflow_mode_t` -/
inductive OverflowMode where
  | noOverflow
  | overflow
deriving DecidableEq, Repr

/-- `app_mailbox_t`, as `APP_MAILBOX_DEF` defines it. -/
structure MailboxConfig where
  itemSz : BitVec 16
  queueSz : BitVec 8
  /-- There is a slot. -/
  queueSz_pos : 0 < queueSz.toNat

/-- The bytes at `p_pool`, and `app_mailbox_cb_t`. -/
structure AppMailbox (cfg : MailboxConfig) where
  pool : ℕ → BitVec 8
  rIdx : BitVec 8
  wIdx : BitVec 8
  len : BitVec 8
  mode : OverflowMode

namespace MailboxConfig

variable (cfg : MailboxConfig)

/-- How many slots there are. -/
def slots : ℕ := cfg.queueSz.toNat

/-- The largest item. -/
def itemSize : ℕ := cfg.itemSz.toNat

/-- How many bytes `APP_MAILBOX_DEF` reserves. -/
def poolSize : ℕ := 4 * ((1 + (cfg.itemSize + 3) / 4) * cfg.slots)

/-- `idx * (item_sz + sizeof(uint32_t))`: where a slot begins. -/
def slotAddr (idx : ℕ) : ℕ := idx * (cfg.itemSize + 4)

/-- The index that comes next, as `dequeue` and `enqueue` handle the wrapping. -/
def nextIdx (idx : BitVec 8) : BitVec 8 := if idx + 1 = cfg.queueSz then 0 else idx + 1

end MailboxConfig

/-- The bytes of the word that holds a size. -/
def sizeBytes (size : BitVec 16) : List (BitVec 8) :=
  [size.extractLsb' 0 8, size.extractLsb' 8 8, 0, 0]

/-- The size in the word at an address: its lower half. -/
def sizeAt (pool : ℕ → BitVec 8) (addr : ℕ) : BitVec 16 := pool (addr + 1) ++ pool addr

/-- An item is put in the slot at an address: its size, and then its bytes. -/
def storeItem (pool : ℕ → BitVec 8) (addr : ℕ) (item : Item) : ℕ → BitVec 8 :=
  ByteMemory.copyIn (ByteMemory.copyIn pool addr (sizeBytes (BitVec.ofNat 16 item.length)))
    (addr + 4) item

/-- The item in the slot at an address. -/
def loadItem (pool : ℕ → BitVec 8) (addr : ℕ) : Item :=
  ByteMemory.copyOut pool (addr + 4) (sizeAt pool addr).toNat

variable {cfg : MailboxConfig}

/-- `dequeue` -/
def dequeue (p : AppMailbox cfg) : AppMailbox cfg :=
  { p with len := p.len - 1, rIdx := cfg.nextIdx p.rIdx }

/-- `enqueue` -/
def enqueue (p : AppMailbox cfg) : AppMailbox cfg :=
  { p with len := p.len + 1, wIdx := cfg.nextIdx p.wIdx }

/-- The item is put: `p_dst` is the slot of `w_idx` before `enqueue`. -/
def putItem (item : Item) (p : AppMailbox cfg) : AppMailbox cfg :=
  { enqueue p with pool := storeItem p.pool (cfg.slotAddr p.wIdx.toNat) item }

/-- `app_mailbox_create` -/
def appMailboxCreate (p : AppMailbox cfg) : AppMailbox cfg :=
  { p with rIdx := 0, wIdx := 0, len := 0, mode := .noOverflow }

/-- `app_mailbox_sized_put`; `app_mailbox_put` is this for an item of `item_sz` bytes. -/
def appMailboxSizedPut (item : Item) (p : AppMailbox cfg) : MailboxRet × AppMailbox cfg :=
  if p.len = cfg.queueSz then
    match p.mode with
    | .noOverflow => (.errorNoMem, p)
    -- The oldest element is removed, and `err_code` stays `NRF_ERROR_NO_MEM`.
    | .overflow => (.errorNoMem, putItem item (dequeue p))
  else (.success, putItem item p)

/-- `app_mailbox_sized_get`; the second part is what is written to `p_item`, and its length what is
    written to `p_size`. -/
def appMailboxSizedGet (p : AppMailbox cfg) : MailboxRet × Option Item × AppMailbox cfg :=
  if p.len = 0 then (.errorNoMem, none, p)
  else (.success, some (loadItem p.pool (cfg.slotAddr p.rIdx.toNat)), dequeue p)

/-- `app_mailbox_length_get` -/
def appMailboxLengthGet (p : AppMailbox cfg) : ℕ := p.len.toNat

/-- `app_mailbox_mode_set` -/
def appMailboxModeSet (mode : OverflowMode) (p : AppMailbox cfg) : AppMailbox cfg :=
  { p with mode := mode }

/-! ## §2 The queue, and the machine -/

/-- A call. -/
inductive MailboxCall where
  | create
  | put (item : Item)
  | get
  | lengthGet
  | modeSet (mode : OverflowMode)
deriving DecidableEq, Repr

/-- What a call answers. -/
inductive MailboxAnswer where
  | none
  | put (ret : MailboxRet)
  | get (ret : MailboxRet) (item : Option Item)
  | length (n : ℕ)
deriving DecidableEq, Repr

/-- A call to the mailbox. -/
def AppMailbox.call (p : AppMailbox cfg) : MailboxCall → MailboxAnswer × AppMailbox cfg
  | .create => (.none, appMailboxCreate p)
  | .put item => (.put (appMailboxSizedPut item p).1, (appMailboxSizedPut item p).2)
  | .get => (.get (appMailboxSizedGet p).1 (appMailboxSizedGet p).2.1, (appMailboxSizedGet p).2.2)
  | .lengthGet => (.length (appMailboxLengthGet p), p)
  | .modeSet mode => (.none, appMailboxModeSet mode p)

/-- **What a mailbox is for**: a queue of items, and what to do when it is full. -/
structure MailQueue where
  ledger : QueueLedger Item
  mode : OverflowMode

/-- A call to a queue with room for `n` items. -/
def MailQueue.call (n : ℕ) (q : MailQueue) : MailboxCall → MailboxAnswer × MailQueue
  | .create => (.none, ⟨q.ledger.discard, .noOverflow⟩)
  | .put item =>
    if q.ledger.held.length < n then (.put .success, { q with ledger := q.ledger.arrive item })
    else match q.mode with
    | .noOverflow => (.put .errorNoMem, q)
    | .overflow =>
      (.put .errorNoMem, { q with ledger := (q.ledger.discardMany 1).arrive item })
  | .get =>
    match q.ledger.held.head? with
    | none => (.get .errorNoMem none, q)
    | some item => (.get .success (some item), { q with ledger := q.ledger.take })
  | .lengthGet => (.length q.ledger.held.length, q)
  | .modeSet mode => (.none, { q with mode := mode })

/-- The mailbox and the queue, with what each has answered, and the memory before the first call. -/
structure MailboxRun (cfg : MailboxConfig) where
  mailbox : AppMailbox cfg
  answers : List MailboxAnswer
  queue : MailQueue
  expected : List MailboxAnswer
  memory : ℕ → BitVec 8

/-- Both take a call. -/
def MailboxRun.step (s : MailboxRun cfg) (c : MailboxCall) : MailboxRun cfg :=
  { s with
    mailbox := (s.mailbox.call c).2
    answers := s.answers ++ [(s.mailbox.call c).1]
    queue := (s.queue.call cfg.slots c).2
    expected := s.expected ++ [(s.queue.call cfg.slots c).1] }

/-- After `app_mailbox_create`. -/
def created (cfg : MailboxConfig) (memory : ℕ → BitVec 8) : MailboxRun cfg where
  mailbox := ⟨memory, 0, 0, 0, .noOverflow⟩
  answers := []
  queue := ⟨.empty, .noOverflow⟩
  expected := []
  memory := memory

/-- The size of an item is given in 16 bits. -/
def MailboxCall.InRange : MailboxCall → Prop
  | .put item => item.length < 2 ^ 16
  | _ => True

instance (c : MailboxCall) : Decidable c.InRange :=
  match c with
  | .put item => inferInstanceAs (Decidable (item.length < 2 ^ 16))
  | .create | .get | .lengthGet | .modeSet _ => .isTrue trivial

/-- **The mailbox and the queue**, from any memory on. -/
def mailboxMachine (cfg : MailboxConfig) : Machine (MailboxRun cfg) MailboxCall where
  start s := ∃ memory, s = created cfg memory
  enabled _ c := c.InRange
  step := MailboxRun.step

/-- An item is not larger than `item_sz`. -/
def MailboxCall.Fits (cfg : MailboxConfig) : MailboxCall → Prop
  | .put item => item.length ≤ cfg.itemSize
  | _ => True

/-- **The condition**: nothing is put that is larger than a slot. -/
def PutFits (_ : MailboxRun cfg) (c : MailboxCall) : Prop := c.Fits cfg

/-- The items that were got. -/
def gotten (answers : List MailboxAnswer) : List Item :=
  answers.filterMap fun
    | .get _ item => item
    | _ => none

/-- **The mailbox is the queue.** -/
structure Behaves (s : MailboxRun cfg) : Prop where
  /-- Every call answers as it should. -/
  answers : s.answers = s.expected
  /-- What was got is what was taken, -/
  gotten : gotten s.answers = s.queue.ledger.taken
  /-- so each item is got once at most, and in the order in which the items came. -/
  inOrder : (Mailbox.gotten s.answers).Sublist s.queue.ledger.arrived
  bounded : s.queue.ledger.held.length ≤ cfg.slots
  /-- Nothing behind the pool is written. -/
  inside : ∀ a, cfg.poolSize ≤ a → s.mailbox.pool a = s.memory a

instance (s : MailboxRun cfg) (c : MailboxCall) : Decidable ((mailboxMachine cfg).enabled s c) :=
  inferInstanceAs (Decidable c.InRange)

instance (s : MailboxRun cfg) (c : MailboxCall) : Decidable (PutFits s c) :=
  match c with
  | .put item => inferInstanceAs (Decidable (item.length ≤ cfg.itemSize))
  | .create | .get | .lengthGet | .modeSet _ => .isTrue trivial

/-! ## §3 A slot -/

section Slot

variable {pool pool' : ℕ → BitVec 8} {addr i j k n : ℕ} {item : Item}

theorem sizeAt_storeItem (pool : ℕ → BitVec 8) (addr : ℕ) (item : Item) :
    sizeAt (storeItem pool addr item) addr = BitVec.ofNat 16 item.length := by
  have hbyte : ∀ b (hb : b < 4), storeItem pool addr item (addr + b) =
      (sizeBytes (BitVec.ofNat 16 item.length))[b] := by
    intro b hb
    unfold storeItem
    rw [ByteMemory.copyIn_of_outside (.inl (by omega)), ByteMemory.copyIn_of_inside hb]
  have hlow := hbyte 0 (by decide)
  rw [Nat.add_zero] at hlow
  unfold sizeAt
  rw [hlow, hbyte 1 (by decide)]
  exact (BitVec.extractLsb'_append_extractLsb'_eq_extractLsb' rfl).trans BitVec.extractLsb'_eq_self

/-- **An item can be read again.** -/
theorem loadItem_storeItem (pool : ℕ → BitVec 8) (addr : ℕ) (h : item.length < 2 ^ 16) :
    loadItem (storeItem pool addr item) addr = item := by
  unfold loadItem
  rw [sizeAt_storeItem, BitVec.toNat_ofNat, Nat.mod_eq_of_lt h]
  exact ByteMemory.copyOut_copyIn _ _ _

/-- The word and the bytes of the item are written, and nothing else. -/
theorem storeItem_of_outside (h : k < addr ∨ addr + 4 + item.length ≤ k) :
    storeItem pool addr item k = pool k := by
  have hsize : (sizeBytes (BitVec.ofNat 16 item.length)).length = 4 := rfl
  unfold storeItem
  rw [ByteMemory.copyIn_of_outside (by omega), ByteMemory.copyIn_of_outside (by omega)]

/-- The word and the bytes of the item are read, and nothing else. -/
theorem loadItem_congr (hlen : (loadItem pool addr).length ≤ n)
    (h : ∀ x, addr ≤ x → x < addr + 4 + n → pool' x = pool x) :
    loadItem pool' addr = loadItem pool addr := by
  have hsize : sizeAt pool' addr = sizeAt pool addr := by
    unfold sizeAt
    rw [h addr le_rfl (by omega), h (addr + 1) (by omega) (by omega)]
  unfold loadItem at hlen ⊢
  rw [ByteMemory.length_copyOut] at hlen
  rw [hsize]
  apply ByteMemory.copyOut_congr
  intro x hle hlt
  exact h x (by omega) (by omega)

/-- A slot ends before the next one. -/
theorem MailboxConfig.slotAddr_add_le (h : i < j) :
    cfg.slotAddr i + (4 + cfg.itemSize) ≤ cfg.slotAddr j := by
  have hmul : (i + 1) * (cfg.itemSize + 4) ≤ j * (cfg.itemSize + 4) := Nat.mul_le_mul_right _ h
  rw [Nat.add_one_mul] at hmul
  unfold MailboxConfig.slotAddr
  omega

/-- The pool has room for all slots. -/
theorem MailboxConfig.slotAddr_slots_le (cfg : MailboxConfig) :
    cfg.slotAddr cfg.slots ≤ cfg.poolSize := by
  have hwords : cfg.itemSize + 4 ≤ 4 * (1 + (cfg.itemSize + 3) / 4) := by omega
  unfold MailboxConfig.slotAddr MailboxConfig.poolSize
  calc cfg.slots * (cfg.itemSize + 4)
      ≤ cfg.slots * (4 * (1 + (cfg.itemSize + 3) / 4)) := Nat.mul_le_mul_left _ hwords
    _ = 4 * ((1 + (cfg.itemSize + 3) / 4) * cfg.slots) := by
      rw [Nat.mul_left_comm, Nat.mul_comm cfg.slots]

/-- **Other slots** keep their item. -/
theorem loadItem_other (hne : i ≠ j) (hlen : (loadItem pool (cfg.slotAddr i)).length ≤ cfg.itemSize)
    (hfit : item.length ≤ cfg.itemSize) :
    loadItem (storeItem pool (cfg.slotAddr j) item) (cfg.slotAddr i) =
      loadItem pool (cfg.slotAddr i) := by
  apply loadItem_congr hlen
  intro x hle hlt
  apply storeItem_of_outside
  rcases Nat.lt_or_gt_of_ne hne with hbefore | hbehind
  · have hnext := cfg.slotAddr_add_le hbefore
    left
    omega
  · have hnext := cfg.slotAddr_add_le hbehind
    right
    omega

end Slot

/-! ## §4 The ring of the slots -/

/-- The ring of the slots. -/
def AppMailbox.ring (p : AppMailbox cfg) : RingQueue cfg.slots Item where
  slots := fun i => loadItem p.pool (cfg.slotAddr i)
  entryPoint := p.wIdx.toNat
  exitPoint := p.rIdx.toNat
  count := p.len.toNat

/-- **The mailbox holds these items**, oldest first. -/
structure AppMailbox.Holds (p : AppMailbox cfg) (q : List Item) : Prop where
  ring : p.ring.Represents q
  fits : ∀ item ∈ q, item.length ≤ cfg.itemSize

variable {p : AppMailbox cfg} {q : List Item} {item : Item}

theorem MailboxConfig.slots_lt (cfg : MailboxConfig) : cfg.slots < 2 ^ 8 := cfg.queueSz.isLt

theorem MailboxConfig.toNat_nextIdx {idx : BitVec 8} (h : idx.toNat < cfg.slots) :
    (cfg.nextIdx idx).toNat = RingQueue.advance cfg.slots idx.toNat := by
  have hbound := cfg.slots_lt
  have hsucc : (idx + 1).toNat = idx.toNat + 1 := by bv_omega
  unfold MailboxConfig.nextIdx RingQueue.advance
  by_cases hlast : idx + 1 = cfg.queueSz
  · have hend : cfg.slots = idx.toNat + 1 := by
      rw [← hsucc, hlast]
      rfl
    rw [if_pos hlast, if_pos (by omega)]
    rfl
  · have hend : idx.toNat + 1 ≠ cfg.slots := fun heq =>
      hlast (BitVec.eq_of_toNat_eq (hsucc.trans heq))
    rw [if_neg hlast, if_neg (by omega), hsucc]

theorem AppMailbox.get_ring (p : AppMailbox cfg) {i : ℕ} (h : i < cfg.slots) :
    p.ring.slots.get i = loadItem p.pool (cfg.slotAddr i) := dif_pos h

namespace AppMailbox.Holds

theorem length (h : p.Holds q) : p.len.toNat = q.length := h.ring.count_eq

theorem empty_iff (h : p.Holds q) : p.len = 0 ↔ q = [] := by
  rw [← h.ring.nil_iff]
  exact ⟨fun hlen => congrArg BitVec.toNat hlen, fun hlen => BitVec.eq_of_toNat_eq hlen⟩

theorem full_iff (h : p.Holds q) : p.len = cfg.queueSz ↔ cfg.slots ≤ q.length := by
  have hle := h.ring.length_le
  have hlen := h.length
  constructor
  · intro hfull
    rw [← hlen, hfull]
    rfl
  · intro hfull
    exact BitVec.eq_of_toNat_eq (hlen.trans (le_antisymm hle hfull))

/-- The item at `r_idx`. -/
theorem head {q : List Item} (h : p.Holds (item :: q)) :
    loadItem p.pool (cfg.slotAddr p.rIdx.toNat) = item := by
  rw [← h.ring.head_cons]
  exact (p.get_ring h.ring.exit_lt).symm

end AppMailbox.Holds

/-- **A created mailbox** is empty. -/
theorem create_holds (p : AppMailbox cfg) : (appMailboxCreate p).Holds [] :=
  ⟨p.ring.represents_clear cfg.queueSz_pos, fun _ hitem => absurd hitem List.not_mem_nil⟩

/-- **An item leaves.** -/
theorem dequeue_holds (h : p.Holds q) (hne : q ≠ []) : (dequeue p).Holds q.tail := by
  have hpos : 0 < p.len.toNat := h.ring.pos_iff.mpr hne
  have hlen : (p.len - 1).toNat = p.len.toNat - 1 := by bv_omega
  have hring : (dequeue p).ring = p.ring.dropHead := by
    show RingQueue.mk p.ring.slots p.wIdx.toNat (cfg.nextIdx p.rIdx).toNat (p.len - 1).toNat = _
    rw [cfg.toNat_nextIdx h.ring.exit_lt, hlen]
    rfl
  refine ⟨?_, fun item hitem => h.fits item (List.mem_of_mem_tail hitem)⟩
  rw [hring]
  exact h.ring.dropHead hpos

/-- **An item comes in.** -/
theorem putItem_holds (h : p.Holds q) (hroom : q.length < cfg.slots)
    (hfit : item.length ≤ cfg.itemSize) : (putItem item p).Holds (q ++ [item]) := by
  have hlen := h.length
  have hbound := cfg.slots_lt
  have hpush := h.ring.push (hlen.trans_lt hroom) item
  have hentry : p.wIdx.toNat = (p.rIdx.toNat + q.length) % cfg.slots := by
    rw [← hlen]
    exact h.ring.entry_eq
  have hnext := cfg.toNat_nextIdx h.ring.entry_lt
  have hcount : (p.len + 1).toNat = p.len.toNat + 1 := by bv_omega
  refine ⟨⟨?_, h.ring.exit_lt, ?_, hpush.length_le, ?_, fun i hi => ?_⟩, fun x hx => ?_⟩
  · show (cfg.nextIdx p.wIdx).toNat < cfg.slots
    rw [hnext]
    exact hpush.entry_lt
  · show (p.len + 1).toNat = _
    rw [hcount]
    exact hpush.count_eq
  · show (cfg.nextIdx p.wIdx).toNat = (p.rIdx.toNat + (p.len + 1).toNat) % cfg.slots
    rw [hnext, hcount]
    exact hpush.entry_eq
  · have hcell : (p.rIdx.toNat + i) % cfg.slots < cfg.slots := Nat.mod_lt _ cfg.queueSz_pos
    show (putItem item p).ring.slots.get ((p.rIdx.toNat + i) % cfg.slots) = _
    rw [(putItem item p).get_ring hcell]
    show loadItem (storeItem p.pool (cfg.slotAddr p.wIdx.toNat) item) _ = _
    by_cases hold : i < q.length
    · -- an older item: its slot is not the one written
      have hitem : loadItem p.pool (cfg.slotAddr ((p.rIdx.toNat + i) % cfg.slots)) = q[i] :=
        (p.get_ring hcell).symm.trans (h.ring.slot_eq i hold)
      rw [List.getElem_append_left hold, ← hitem, hentry]
      apply loadItem_other (RingQueue.offset_ne hold hroom) _ hfit
      rw [hitem]
      exact h.fits _ (List.getElem_mem hold)
    · have hlast : i = q.length := by
        rw [List.length_append] at hi
        exact le_antisymm (Nat.lt_succ_iff.mp hi) (Nat.le_of_not_lt hold)
      subst hlast
      rw [← hentry, loadItem_storeItem _ _ (hfit.trans_lt cfg.itemSz.isLt)]
      simp
  · rcases List.mem_append.mp hx with hx | hx
    · exact h.fits x hx
    · rw [List.mem_singleton.mp hx]
      exact hfit

/-- **Nothing behind the pool** is written. -/
theorem putItem_inside (h : p.Holds q) (hfit : item.length ≤ cfg.itemSize) {a : ℕ}
    (ha : cfg.poolSize ≤ a) : (putItem item p).pool a = p.pool a := by
  have hslot := cfg.slotAddr_add_le h.ring.entry_lt
  have hpool := cfg.slotAddr_slots_le
  have hend : cfg.slotAddr p.wIdx.toNat + (4 + cfg.itemSize) ≤ a :=
    hslot.trans (hpool.trans ha)
  exact storeItem_of_outside (.inr (by omega))

/-! ## §5 A call -/

section Call

variable {m : MailQueue} {c : MailboxCall}

/-- **The mailbox pictures the queue.** -/
structure Pictures (p : AppMailbox cfg) (m : MailQueue) : Prop where
  holds : p.Holds m.ledger.held
  mode : p.mode = m.mode

/-- **Every call** answers as the queue does, and keeps the picture. -/
theorem Pictures.call (h : Pictures p m) (hfit : c.Fits cfg) :
    (p.call c).1 = (m.call cfg.slots c).1 ∧ Pictures (p.call c).2 (m.call cfg.slots c).2 := by
  cases c with
  | create => exact ⟨rfl, create_holds p, rfl⟩
  | lengthGet => exact ⟨congrArg MailboxAnswer.length h.holds.length, h⟩
  | modeSet mode => exact ⟨rfl, ⟨h.holds.ring, h.holds.fits⟩, rfl⟩
  | get =>
    unfold AppMailbox.call MailQueue.call appMailboxSizedGet
    dsimp only
    cases hheld : m.ledger.held with
    | nil =>
      rw [if_pos (h.holds.empty_iff.mpr hheld)]
      exact ⟨rfl, h⟩
    | cons item rest =>
      have hholds := h.holds
      rw [hheld] at hholds
      have hnot : ¬ p.len = 0 := fun hempty => by
        have hnil := hholds.empty_iff.mp hempty
        cases hnil
      rw [if_neg hnot]
      refine ⟨congrArg (fun x => MailboxAnswer.get .success (some x)) hholds.head, ?_, h.mode⟩
      exact dequeue_holds h.holds (by rw [hheld]; exact List.cons_ne_nil _ _)
  | put item =>
    unfold AppMailbox.call MailQueue.call appMailboxSizedPut
    dsimp only
    by_cases hroom : m.ledger.held.length < cfg.slots
    · have hnot : ¬ p.len = cfg.queueSz := fun hfull =>
        absurd (h.holds.full_iff.mp hfull) (Nat.not_le_of_lt hroom)
      rw [if_neg hnot, if_pos hroom]
      exact ⟨rfl, putItem_holds h.holds hroom hfit, h.mode⟩
    · have hfull := Nat.le_of_not_lt hroom
      rw [if_pos (h.holds.full_iff.mpr hfull), if_neg hroom, h.mode]
      cases hmode : m.mode with
      | noOverflow => exact ⟨rfl, h⟩
      | overflow =>
        -- the oldest item goes, and then there is room
        have hpos : 0 < m.ledger.held.length := cfg.queueSz_pos.trans_le hfull
        have hdrop := dequeue_holds h.holds (List.length_pos_iff.mp hpos)
        have hle := h.holds.ring.length_le
        have hless : m.ledger.held.tail.length < cfg.slots := by
          rw [List.length_tail]
          omega
        refine ⟨rfl, ?_, h.mode.trans hmode⟩
        show (putItem item (dequeue p)).Holds (m.ledger.held.drop 1 ++ [item])
        rw [List.drop_one]
        exact putItem_holds hdrop hless hfit

/-- What is got is what is taken. -/
theorem MailQueue.taken_call (n : ℕ) (m : MailQueue) (c : MailboxCall) :
    (m.call n c).2.ledger.taken = m.ledger.taken ++ gotten [(m.call n c).1] := by
  cases c with
  | create => exact (m.ledger.taken_discard).trans (List.append_nil _).symm
  | lengthGet => exact (List.append_nil _).symm
  | modeSet mode => exact (List.append_nil _).symm
  | get =>
    unfold MailQueue.call
    dsimp only
    cases hheld : m.ledger.held.head? with
    | none => exact (List.append_nil _).symm
    | some item =>
      rw [QueueLedger.taken_take, hheld]
      rfl
  | put item =>
    unfold MailQueue.call
    dsimp only
    split_ifs
    · exact (List.append_nil _).symm
    · cases m.mode with
      | noOverflow => exact (List.append_nil _).symm
      | overflow =>
        rw [QueueLedger.taken_arrive, QueueLedger.taken_discardMany]
        exact (List.append_nil _).symm

/-- **Every call** stays in the pool. -/
theorem Pictures.inside (h : Pictures p m) (hfit : c.Fits cfg) {a : ℕ} (ha : cfg.poolSize ≤ a) :
    (p.call c).2.pool a = p.pool a := by
  cases c with
  | create => rfl
  | lengthGet => rfl
  | modeSet mode => rfl
  | get =>
    unfold AppMailbox.call appMailboxSizedGet
    dsimp only
    split_ifs <;> rfl
  | put item =>
    unfold AppMailbox.call appMailboxSizedPut
    dsimp only
    split_ifs with hfull
    · cases p.mode with
      | noOverflow => rfl
      | overflow =>
        have hle := h.holds.full_iff.mp hfull
        have hpos : 0 < m.ledger.held.length := cfg.queueSz_pos.trans_le hle
        exact putItem_inside (dequeue_holds h.holds (List.length_pos_iff.mp hpos)) hfit ha
    · exact putItem_inside h.holds hfit ha

end Call

/-! ## §6 Every run -/

section Runs

variable {s : MailboxRun cfg} {c : MailboxCall}

/-- **The invariant.** -/
structure MailboxInv (s : MailboxRun cfg) : Prop where
  pictures : Pictures s.mailbox s.queue
  answers : s.answers = s.expected
  gotten : gotten s.expected = s.queue.ledger.taken
  inside : ∀ a, cfg.poolSize ≤ a → s.mailbox.pool a = s.memory a

theorem mailboxInv_created (cfg : MailboxConfig) (memory : ℕ → BitVec 8) :
    MailboxInv (created cfg memory) where
  pictures := ⟨create_holds ⟨memory, 0, 0, 0, .noOverflow⟩, rfl⟩
  answers := rfl
  gotten := rfl
  inside _ _ := rfl

/-- **Every step** keeps it. -/
theorem MailboxInv.step (h : MailboxInv s) (hfit : c.Fits cfg) : MailboxInv (s.step c) := by
  obtain ⟨hanswer, hpictures⟩ := h.pictures.call hfit
  refine ⟨hpictures, ?_, ?_, fun a ha => ?_⟩
  · show s.answers ++ [_] = s.expected ++ [_]
    rw [h.answers, hanswer]
  · show Mailbox.gotten (s.expected ++ [(s.queue.call cfg.slots c).1]) = _
    rw [Mailbox.gotten, List.filterMap_append]
    exact (congrArg (· ++ _) h.gotten).trans (s.queue.taken_call cfg.slots c).symm
  · exact (h.pictures.inside hfit ha).trans (h.inside a ha)

end Runs

/-! ## §7 Two slots -/

/-- Two slots of four bytes. -/
def twoSlots : MailboxConfig := ⟨4, 2, by decide⟩

/-- An item of five bytes runs into the next slot, where the size of the next item takes the place
    of its last byte. -/
theorem not_behaves_largeItem :
    ¬ Behaves ((mailboxMachine twoSlots).run (created twoSlots fun _ => 0xFF)
      [.put [1, 2, 3, 4, 5], .put [9], .get]) := by
  intro h
  exact absurd h.answers (by decide +kernel)

end NordicEsb.Mailbox
