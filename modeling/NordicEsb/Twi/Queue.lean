import NordicEsb.Lib.RingQueue

/-!
# Transactions and their Queue

`app_twi.c` keeps the transactions that are to come in a ring of `size + 1` pointers. One cell stays
free, so that a full ring can be told from an empty one. The indices are bytes, and `size` may be
255: then the step behind the last cell is the overflow of the index.

- `Transfer`, `Transaction` and `AppTwiQueue`, with `queuePut` and `queueGet`
- `AppTwiQueue.Holds` says which transactions are in the ring

**Main results** (`queuePut_cases`, `queueGet_cases`): the ring is a queue of `size` transactions.
-/

namespace NordicEsb.Twi

/-! ## §1 Transactions -/

/-- `app_twi_transfer_t` -/
structure Transfer where
  pData : BitVec 32
  length : BitVec 8
  operation : BitVec 8
  flags : BitVec 8
deriving DecidableEq, Repr, Inhabited

/-- `APP_TWI_IS_READ_OP` -/
def Transfer.isReadOp (t : Transfer) : Bool := t.operation &&& 1 ≠ 0

/-- `APP_TWI_OP_ADDRESS` -/
def Transfer.opAddress (t : Transfer) : BitVec 8 := t.operation >>> 1

/-- `APP_TWI_NO_STOP` is set. -/
def Transfer.noStop (t : Transfer) : Bool := t.flags &&& 0x01 ≠ 0

/-- `p_transfers` and `number_of_transfers`, which is a byte that is not 0. -/
structure Transfers where
  list : List Transfer
  number_pos : 0 < list.length
  number_lt : list.length < 2 ^ 8
deriving DecidableEq

instance : Inhabited Transfers := ⟨⟨[default], by decide, by decide⟩⟩

/-- `callback` and `p_user_data` -/
inductive Callback where
  /-- `NULL` -/
  | none
  | user (pUserData : BitVec 32)
  /-- `internal_transaction_cb`, with the manager as `p_user_data` -/
  | internal
deriving DecidableEq, Repr, Inhabited

/-- `app_twi_transaction_t` -/
structure Transaction where
  callback : Callback
  transfers : Transfers
deriving DecidableEq, Inhabited

/-- `number_of_transfers` -/
def Transaction.number (t : Transaction) : ℕ := t.transfers.list.length

/-- `p_transfers[i]` -/
def Transaction.transfer (t : Transaction) (i : ℕ) : Transfer := t.transfers.list.getD i default

/-! ## §2 The queue -/

/-- `app_twi_queue_t`; the buffer has one cell more than the queue has places. -/
structure AppTwiQueue (size : BitVec 8) where
  pBuffer : FixedArray (size.toNat + 1) Transaction
  readIdx : BitVec 8
  writeIdx : BitVec 8
deriving DecidableEq

variable {size : BitVec 8}

/-- `INCREASE_IDX` -/
def increaseIdx (size idx : BitVec 8) : BitVec 8 :=
  let idx := idx + 1
  if idx > size then 0 else idx

/-- The queue is full. -/
def AppTwiQueue.Full (pQueue : AppTwiQueue size) : Prop :=
  (pQueue.writeIdx = size ∧ pQueue.readIdx = 0) ∨
    (pQueue.writeIdx.toNat : ℤ) = pQueue.readIdx.toNat - 1

instance (pQueue : AppTwiQueue size) : Decidable pQueue.Full :=
  inferInstanceAs (Decidable (_ ∨ _))

/-- `queue_put`; `none` when it returns `false`. -/
def queuePut (pQueue : AppTwiQueue size) (pTransaction : Transaction) :
    Option (AppTwiQueue size) :=
  if pQueue.Full then none
  else some { pQueue with
    pBuffer := pQueue.pBuffer.set pQueue.writeIdx.toNat pTransaction
    writeIdx := increaseIdx size pQueue.writeIdx }

/-- `queue_get`; `none` when it returns `NULL`. -/
def queueGet (pQueue : AppTwiQueue size) : Option Transaction × AppTwiQueue size :=
  if pQueue.readIdx = pQueue.writeIdx then (none, pQueue)
  else (some (pQueue.pBuffer.get pQueue.readIdx.toNat),
    { pQueue with readIdx := increaseIdx size pQueue.readIdx })

/-- The queue after `app_twi_init`. -/
def AppTwiQueue.init (pBuffer : FixedArray (size.toNat + 1) Transaction) : AppTwiQueue size :=
  ⟨pBuffer, 0, 0⟩

/-- The ring of the cells; the number of transactions is in the indices. -/
def AppTwiQueue.ring (pQueue : AppTwiQueue size) : RingQueue (size.toNat + 1) Transaction :=
  ⟨pQueue.pBuffer, pQueue.writeIdx.toNat, pQueue.readIdx.toNat,
    (pQueue.writeIdx.toNat + (size.toNat + 1) - pQueue.readIdx.toNat) % (size.toNat + 1)⟩

/-- **The queue holds these transactions**, and one cell is free. -/
structure AppTwiQueue.Holds (pQueue : AppTwiQueue size) (l : List Transaction) : Prop where
  ring : pQueue.ring.Represents l
  free : l.length ≤ size.toNat

variable {pQueue : AppTwiQueue size} {l : List Transaction}

theorem toNat_increaseIdx {idx : BitVec 8} (hidx : idx.toNat < size.toNat + 1) :
    (increaseIdx size idx).toNat = RingQueue.advance (size.toNat + 1) idx.toNat := by
  have hsize := size.isLt
  have hone : (1 : BitVec 8).toNat = 1 := rfl
  have hzero : (0 : BitVec 8).toNat = 0 := rfl
  have hadd : (idx + 1).toNat = (idx.toNat + 1) % 2 ^ 8 := by
    rw [BitVec.toNat_add, hone]
  unfold increaseIdx
  dsimp only
  by_cases hgt : idx + 1 > size
  · rw [if_pos hgt, hzero]
    rw [gt_iff_lt, BitVec.lt_def] at hgt
    unfold RingQueue.advance
    rw [if_pos (by omega)]
  · rw [if_neg hgt]
    rw [gt_iff_lt, BitVec.lt_def] at hgt
    unfold RingQueue.advance
    by_cases hlast : idx.toNat + 1 ≥ size.toNat + 1
    · -- The index overflows by itself.
      rw [if_pos hlast]
      omega
    · rw [if_neg hlast]
      omega

/-- The number of elements, from the indices. -/
theorem count_eq {n w r : ℕ} (hw : w < n) (hr : r < n) :
    (w + n - r) % n = if r ≤ w then w - r else w + n - r := by
  by_cases hle : r ≤ w
  · rw [if_pos hle]
    have hsum : w + n - r = w - r + n := by omega
    rw [hsum, Nat.add_mod_right, Nat.mod_eq_of_lt (by omega)]
  · rw [if_neg hle, Nat.mod_eq_of_lt (by omega)]

/-- A step of the writing index is one element more. -/
theorem count_put {n w r : ℕ} (hw : w < n) (hr : r < n) (hroom : (w + n - r) % n + 1 < n) :
    (RingQueue.advance n w + n - r) % n = (w + n - r) % n + 1 := by
  rw [count_eq hw hr] at hroom ⊢
  rw [count_eq (RingQueue.advance_lt hw) hr]
  unfold RingQueue.advance
  split_ifs at hroom ⊢ <;> omega

/-- A step of the reading index is one element less. -/
theorem count_get {n w r : ℕ} (hw : w < n) (hr : r < n) (hne : r ≠ w) :
    (w + n - RingQueue.advance n r) % n = (w + n - r) % n - 1 := by
  rw [count_eq hw hr, count_eq hw (RingQueue.advance_lt hr)]
  unfold RingQueue.advance
  split_ifs <;> omega

theorem AppTwiQueue.init_holds (pBuffer : FixedArray (size.toNat + 1) Transaction) :
    (AppTwiQueue.init pBuffer).Holds [] := by
  constructor
  · constructor
    · exact Nat.zero_lt_succ _
    · exact Nat.zero_lt_succ _
    · simp [AppTwiQueue.ring, AppTwiQueue.init]
    · exact Nat.zero_le _
    · simp [AppTwiQueue.ring, AppTwiQueue.init]
    · simp
  · exact Nat.zero_le _

/-- The number of transactions. -/
theorem AppTwiQueue.Holds.length_eq (h : pQueue.Holds l) :
    l.length = if pQueue.readIdx.toNat ≤ pQueue.writeIdx.toNat then
      pQueue.writeIdx.toNat - pQueue.readIdx.toNat
    else pQueue.writeIdx.toNat + (size.toNat + 1) - pQueue.readIdx.toNat := by
  rw [← h.ring.count_eq]
  exact count_eq h.ring.entry_lt h.ring.exit_lt

theorem AppTwiQueue.Holds.full_iff (h : pQueue.Holds l) :
    pQueue.Full ↔ l.length = size.toNat := by
  have hw : pQueue.writeIdx.toNat < size.toNat + 1 := h.ring.entry_lt
  have hr : pQueue.readIdx.toNat < size.toNat + 1 := h.ring.exit_lt
  have hzero : (0 : BitVec 8).toNat = 0 := rfl
  unfold AppTwiQueue.Full
  rw [h.length_eq, ← BitVec.toNat_inj, ← BitVec.toNat_inj, hzero]
  split_ifs <;> omega

/-- **A transaction is put** behind the others, unless the queue is full. -/
theorem queuePut_cases (h : pQueue.Holds l) (t : Transaction) :
    (pQueue.Full ∧ queuePut pQueue t = none) ∨
    ∃ pQueue', ¬ pQueue.Full ∧ queuePut pQueue t = some pQueue' ∧ pQueue'.Holds (l ++ [t]) := by
  have hw : pQueue.writeIdx.toNat < size.toNat + 1 := h.ring.entry_lt
  have hr : pQueue.readIdx.toNat < size.toNat + 1 := h.ring.exit_lt
  unfold queuePut
  by_cases hfull : pQueue.Full
  · exact .inl ⟨hfull, if_pos hfull⟩
  · right
    have hlen : l.length < size.toNat := by
      have hne := mt h.full_iff.mpr hfull
      have hfree := h.free
      omega
    refine ⟨_, hfull, if_neg hfull, ?_, ?_⟩
    · obtain ⟨pQueue', hput⟩ : ∃ pQueue' : AppTwiQueue size, pQueue' = { pQueue with
        pBuffer := pQueue.pBuffer.set pQueue.writeIdx.toNat t
        writeIdx := increaseIdx size pQueue.writeIdx } := ⟨_, rfl⟩
      have hring : pQueue'.ring = pQueue.ring.push t := by
        have hcount : (pQueue.writeIdx.toNat + (size.toNat + 1) - pQueue.readIdx.toNat) %
            (size.toNat + 1) = l.length := h.ring.count_eq
        rw [hput]
        unfold AppTwiQueue.ring RingQueue.push
        dsimp only
        rw [toNat_increaseIdx hw, count_put hw hr (by omega)]
      rw [← hput, hring]
      apply h.ring.push
      rw [h.ring.count_eq]
      omega
    · rw [List.length_append, List.length_singleton]
      exact hlen

/-- **The first transaction is taken**, unless there is none. -/
theorem queueGet_cases (h : pQueue.Holds l) :
    (l = [] ∧ queueGet pQueue = (none, pQueue)) ∨
    ∃ t rest pQueue', l = t :: rest ∧ queueGet pQueue = (some t, pQueue') ∧
      pQueue'.Holds rest := by
  have hw : pQueue.writeIdx.toNat < size.toNat + 1 := h.ring.entry_lt
  have hr : pQueue.readIdx.toNat < size.toNat + 1 := h.ring.exit_lt
  have hlen := h.length_eq
  unfold queueGet
  cases l with
  | nil =>
    left
    refine ⟨rfl, if_pos ?_⟩
    apply BitVec.toNat_inj.mp
    rw [List.length_nil] at hlen
    split_ifs at hlen <;> omega
  | cons t rest =>
    right
    have hne : pQueue.readIdx ≠ pQueue.writeIdx := by
      intro heq
      rw [heq, if_pos le_rfl, Nat.sub_self] at hlen
      simp at hlen
    have hhead : pQueue.pBuffer.get pQueue.readIdx.toNat = t := h.ring.head_cons
    refine ⟨t, rest, { pQueue with readIdx := increaseIdx size pQueue.readIdx }, rfl, ?_, ?_, ?_⟩
    · rw [if_neg hne, hhead]
    · obtain ⟨pQueue', hget⟩ : ∃ pQueue' : AppTwiQueue size, pQueue' =
        { pQueue with readIdx := increaseIdx size pQueue.readIdx } := ⟨_, rfl⟩
      have hring : pQueue'.ring = pQueue.ring.dropHead := by
        rw [hget]
        unfold AppTwiQueue.ring RingQueue.dropHead
        dsimp only
        rw [toNat_increaseIdx hr, count_get hw hr]
        intro heq
        exact hne (BitVec.toNat_inj.mp heq)
      rw [← hget, hring]
      apply h.ring.dropHead
      rw [h.ring.count_eq]
      exact Nat.zero_lt_succ _
    · have hfree := h.free
      rw [List.length_cons] at hfree
      omega

end NordicEsb.Twi
