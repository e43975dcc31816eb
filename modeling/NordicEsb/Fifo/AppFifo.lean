import NordicEsb.Lib.RingQueue
import Mathlib.Data.Nat.Bitwise

/-!
# FIFO of Bytes

`app_fifo.c` keeps bytes in a buffer whose size is a power of two. `read_pos` and `write_pos` are
32-bit counters that are never set back: their difference is the length, and a cell is found with
a mask.

- `AppFifo` and the functions of `app_fifo.c`
- `AppFifo.ring` is the ring of cells of a FIFO, `AppFifo.Holds` says which bytes are in it
- one lemma for each function on a FIFO that holds some bytes

**Main results** (`fifoPut_holds`, `fifoGet_holds`): the masked counters are a ring that is one
byte longer or shorter, also where a counter goes back to 0.
-/

namespace NordicEsb.Fifo

/-! ## §1 The functions -/

/-- What the functions return. -/
inductive Ret where
  | success
  | errorNull
  | errorInvalidLength
  | errorNoMem
  | errorNotFound
deriving DecidableEq, Repr

/-- `app_fifo_t`, with the `n` bytes at `p_buf`. -/
structure AppFifo (n : ℕ) where
  pBuf : FixedArray n (BitVec 8)
  bufSizeMask : BitVec 16
  readPos : BitVec 32
  writePos : BitVec 32

variable {n : ℕ}

/-- `fifo_length` -/
def fifoLength (pFifo : AppFifo n) : BitVec 32 :=
  pFifo.writePos - pFifo.readPos

/-- `buf_size_mask` in a 32-bit expression. -/
def AppFifo.mask (pFifo : AppFifo n) : BitVec 32 := pFifo.bufSizeMask.setWidth 32

/-- `fifo_put` -/
def fifoPut (pFifo : AppFifo n) (byte : BitVec 8) : AppFifo n :=
  { pFifo with
    pBuf := pFifo.pBuf.set (pFifo.writePos &&& pFifo.mask).toNat byte
    writePos := pFifo.writePos + 1 }

/-- `fifo_peek` -/
def fifoPeek (pFifo : AppFifo n) (index : BitVec 16) : BitVec 8 :=
  pFifo.pBuf.get ((pFifo.readPos + index.setWidth 32) &&& pFifo.mask).toNat

/-- `fifo_get` -/
def fifoGet (pFifo : AppFifo n) : BitVec 8 × AppFifo n :=
  (fifoPeek pFifo 0, { pFifo with readPos := pFifo.readPos + 1 })

/-- `IS_POWER_OF_TWO` -/
def isPowerOfTwo (a : ℕ) : Bool := a ≠ 0 ∧ (a - 1) &&& a = 0

/-- `MIN` -/
def min32 (a b : BitVec 32) : BitVec 32 := if a < b then a else b

/-- `app_fifo_init`; `pBuf` is `none` when it is `NULL`. -/
def appFifoInit (pFifo : AppFifo n) (pBuf : Option (FixedArray n (BitVec 8)))
    (bufSize : BitVec 16) : Ret × AppFifo n :=
  match pBuf with
  | none => (.errorNull, pFifo)
  | some pBuf =>
    if isPowerOfTwo bufSize.toNat then (.success, ⟨pBuf, bufSize - 1, 0, 0⟩)
    else (.errorInvalidLength, pFifo)

/-- `app_fifo_put` -/
def appFifoPut (pFifo : AppFifo n) (byte : BitVec 8) : Ret × AppFifo n :=
  if fifoLength pFifo ≤ pFifo.mask then (.success, fifoPut pFifo byte)
  else (.errorNoMem, pFifo)

/-- `app_fifo_get`; the second part is what is written to `p_byte`. -/
def appFifoGet (pFifo : AppFifo n) : Ret × Option (BitVec 8) × AppFifo n :=
  if fifoLength pFifo ≠ 0 then (.success, some (fifoGet pFifo).1, (fifoGet pFifo).2)
  else (.errorNotFound, none, pFifo)

/-- `app_fifo_peek` -/
def appFifoPeek (pFifo : AppFifo n) (index : BitVec 16) : Ret × Option (BitVec 8) :=
  if fifoLength pFifo > index.setWidth 32 then (.success, some (fifoPeek pFifo index))
  else (.errorNotFound, none)

/-- `app_fifo_flush` -/
def appFifoFlush (pFifo : AppFifo n) : Ret × AppFifo n :=
  (.success, { pFifo with readPos := pFifo.writePos })

/-- The loop of `app_fifo_read`, with the rounds that are left; the bytes go to
    `p_byte_array[0]`, `p_byte_array[1]`, and so on. -/
def readLoop : ℕ → AppFifo n → List (BitVec 8) × AppFifo n
  | 0, pFifo => ([], pFifo)
  | rounds + 1, pFifo =>
    let (byte, pFifo) := fifoGet pFifo
    let (bytes, pFifo) := readLoop rounds pFifo
    (byte :: bytes, pFifo)

/-- The loop of `app_fifo_write`, with the rounds that are left. -/
def writeLoop (pByteArray : ℕ → BitVec 8) : ℕ → ℕ → AppFifo n → AppFifo n
  | 0, _, pFifo => pFifo
  | rounds + 1, index, pFifo =>
    writeLoop pByteArray rounds (index + 1) (fifoPut pFifo (pByteArray index))

/-- What `app_fifo_read` and `app_fifo_write` leave behind: the bytes at `p_byte_array`, the value
    at `p_size` unless that is `NULL`, and the FIFO. -/
structure Bulk (n : ℕ) where
  ret : Ret
  bytes : List (BitVec 8)
  pSize : Option (BitVec 32)
  pFifo : AppFifo n

/-- `app_fifo_read` for a `p_fifo` that is not `NULL`. `pByteArray` tells whether there is an array,
    `pSize` is the value at `p_size`, and `none` when that is `NULL`. -/
def appFifoRead (pFifo : AppFifo n) (pByteArray : Bool) (pSize : Option (BitVec 32)) : Bulk n :=
  match pSize with
  | none => ⟨.errorNull, [], none, pFifo⟩
  | some requestedLen =>
    let byteCount := fifoLength pFifo
    let readSize := min32 requestedLen byteCount
    if byteCount = 0 then ⟨.errorNotFound, [], some byteCount, pFifo⟩
    -- Only the size is requested.
    else if pByteArray = false then ⟨.success, [], some byteCount, pFifo⟩
    else
      let (bytes, pFifo) := readLoop readSize.toNat pFifo
      ⟨.success, bytes, some readSize, pFifo⟩

/-- `app_fifo_write` for a `p_fifo` that is not `NULL`. -/
def appFifoWrite (pFifo : AppFifo n) (pByteArray : Option (ℕ → BitVec 8))
    (pSize : Option (BitVec 32)) : Bulk n :=
  match pSize with
  | none => ⟨.errorNull, [], none, pFifo⟩
  | some requestedLen =>
    let availableCount := pFifo.mask - fifoLength pFifo + 1
    let writeSize := min32 requestedLen availableCount
    if availableCount = 0 then ⟨.errorNoMem, [], some availableCount, pFifo⟩
    else match pByteArray with
    -- Only the size is requested.
    | none => ⟨.success, [], some availableCount, pFifo⟩
    | some pByteArray =>
      ⟨.success, [], some writeSize, writeLoop pByteArray writeSize.toNat 0 pFifo⟩

/-! ## §2 The ring of a FIFO -/

/-- The ring of the `n` cells. -/
def AppFifo.ring (pFifo : AppFifo n) : RingQueue n (BitVec 8) :=
  ⟨pFifo.pBuf, pFifo.writePos.toNat % n, pFifo.readPos.toNat % n, (fifoLength pFifo).toNat⟩

/-- **The FIFO holds these bytes**, oldest first. -/
structure AppFifo.Holds (pFifo : AppFifo n) (q : List (BitVec 8)) : Prop where
  pow : n.isPowerOfTwo
  mask : pFifo.bufSizeMask.toNat + 1 = n
  ring : pFifo.ring.Represents q

variable {pFifo : AppFifo n} {q : List (BitVec 8)}

theorem toNat_min32 (a b : BitVec 32) : (min32 a b).toNat = min a.toNat b.toNat := by
  unfold min32
  by_cases h : a < b
  · rw [if_pos h]
    rw [BitVec.lt_def] at h
    omega
  · rw [if_neg h]
    rw [BitVec.lt_def] at h
    omega

theorem isPowerOfTwo_iff (a : ℕ) : isPowerOfTwo a = true ↔ a.isPowerOfTwo := by
  unfold isPowerOfTwo
  rw [decide_eq_true_iff, Nat.and_comm (a - 1), Nat.ne_zero_and_sub_one_eq_zero_iff_isPowerOfTwo]

theorem AppFifo.Holds.le (h : pFifo.Holds q) : n ≤ 2 ^ 16 := by
  have hlt := pFifo.bufSizeMask.isLt
  have hmask := h.mask
  omega

/-- The counters go round a whole number of times. -/
theorem AppFifo.Holds.dvd (h : pFifo.Holds q) : n ∣ 2 ^ 32 := by
  have hle := h.le
  obtain ⟨k, hk⟩ := h.pow
  rw [hk] at hle ⊢
  apply Nat.pow_dvd_pow
  have hk16 : k ≤ 16 := (Nat.pow_le_pow_iff_right (by decide)).mp hle
  omega

theorem AppFifo.Holds.length (h : pFifo.Holds q) : (fifoLength pFifo).toNat = q.length :=
  h.ring.count_eq

theorem AppFifo.Holds.toNat_mask (h : pFifo.Holds q) : pFifo.mask.toNat = n - 1 := by
  have hmask := h.mask
  have hlt := pFifo.bufSizeMask.isLt
  unfold AppFifo.mask
  rw [BitVec.toNat_setWidth]
  omega

/-- **A masked counter** is a cell of the ring. -/
theorem AppFifo.Holds.and_mask (h : pFifo.Holds q) (pos : BitVec 32) :
    (pos &&& pFifo.mask).toNat = pos.toNat % n := by
  obtain ⟨k, hk⟩ := h.pow
  rw [BitVec.toNat_and, h.toNat_mask, hk, Nat.and_two_pow_sub_one_eq_mod]

/-- A sum that goes past the last counter value. -/
theorem AppFifo.Holds.add_mod (h : pFifo.Holds q) (pos i : BitVec 32) :
    (pos + i).toNat % n = (pos.toNat % n + i.toNat) % n := by
  rw [BitVec.toNat_add, Nat.mod_mod_of_dvd _ h.dvd, Nat.mod_add_mod]

theorem AppFifo.Holds.succ_mod (h : pFifo.Holds q) (pos : BitVec 32) :
    (pos + 1).toNat % n = RingQueue.advance n (pos.toNat % n) := by
  have hpos : 0 < n := by
    have hmask := h.mask
    omega
  rw [h.add_mod, RingQueue.advance_eq_mod (Nat.mod_lt _ hpos)]
  rfl

/-! ## §3 One byte -/

/-- **A byte is put** behind the others. -/
theorem fifoPut_holds (h : pFifo.Holds q) (hroom : q.length < n) (byte : BitVec 8) :
    (fifoPut pFifo byte).Holds (q ++ [byte]) := by
  have hle := h.le
  have hlen := h.length
  have hring : (fifoPut pFifo byte).ring = pFifo.ring.push byte := by
    unfold AppFifo.ring RingQueue.push fifoPut
    dsimp only
    rw [h.and_mask, h.succ_mod]
    congr 1
    unfold fifoLength at hlen ⊢
    bv_omega
  constructor
  · exact h.pow
  · exact h.mask
  · rw [hring]
    apply h.ring.push
    rw [h.ring.count_eq]
    exact hroom

/-- **The byte at an index.** -/
theorem fifoPeek_eq (h : pFifo.Holds q) {index : BitVec 16} (hindex : index.toNat < q.length) :
    fifoPeek pFifo index = q[index.toNat] := by
  unfold fifoPeek
  rw [h.and_mask, h.add_mod, BitVec.toNat_setWidth_of_le (by decide)]
  exact h.ring.slot_eq index.toNat hindex

/-- **The first byte is taken.** -/
theorem fifoGet_holds {byte : BitVec 8} (h : pFifo.Holds (byte :: q)) :
    (fifoGet pFifo).1 = byte ∧ (fifoGet pFifo).2.Holds q := by
  have hle := h.le
  have hlen := h.length
  rw [List.length_cons] at hlen
  have hring : (fifoGet pFifo).2.ring = pFifo.ring.dropHead := by
    unfold AppFifo.ring RingQueue.dropHead fifoGet
    dsimp only
    rw [h.succ_mod]
    congr 1
    unfold fifoLength at hlen ⊢
    bv_omega
  have hpeek : fifoPeek pFifo 0 = byte := by
    apply fifoPeek_eq h
    simp
  refine ⟨hpeek, ?_⟩
  constructor
  · exact h.pow
  · exact h.mask
  · rw [hring]
    apply h.ring.dropHead
    rw [h.ring.count_eq]
    simp

/-! ## §4 The functions on a FIFO that holds some bytes -/

/-- **A buffer whose size is a power of two** becomes an empty FIFO. -/
theorem appFifoInit_holds {bufSize : BitVec 16} (pFifo : AppFifo bufSize.toNat)
    (pBuf : FixedArray bufSize.toNat (BitVec 8)) (hpow : bufSize.toNat.isPowerOfTwo) :
    (appFifoInit pFifo (some pBuf) bufSize).1 = .success ∧
    (appFifoInit pFifo (some pBuf) bufSize).2.Holds [] := by
  have hpos := Nat.pos_of_isPowerOfTwo hpow
  unfold appFifoInit
  dsimp only
  rw [if_pos ((isPowerOfTwo_iff _).mpr hpow)]
  refine ⟨rfl, hpow, ?_, ?_⟩
  · dsimp only
    bv_omega
  · constructor
    · exact Nat.mod_lt _ hpos
    · exact Nat.mod_lt _ hpos
    · simp [AppFifo.ring, fifoLength]
    · exact Nat.zero_le _
    · simp [AppFifo.ring, fifoLength]
    · simp

theorem AppFifo.Holds.le_mask_iff (h : pFifo.Holds q) :
    fifoLength pFifo ≤ pFifo.mask ↔ q.length < n := by
  have hmask := h.mask
  rw [BitVec.le_def, h.length, h.toNat_mask]
  omega

theorem AppFifo.Holds.eq_zero_iff (h : pFifo.Holds q) : fifoLength pFifo = 0 ↔ q = [] := by
  have hzero : (0 : BitVec 32).toNat = 0 := rfl
  rw [← BitVec.toNat_inj, h.length, hzero, List.length_eq_zero_iff]

/-- What `app_fifo_write` calls `available_count`. -/
theorem AppFifo.Holds.available (h : pFifo.Holds q) :
    (pFifo.mask - fifoLength pFifo + 1).toNat = n - q.length := by
  have hmask := h.mask
  have hle := h.le
  have hroom := h.ring.length_le
  have hlen := h.length
  have htop := h.toNat_mask
  bv_omega

theorem appFifoPut_room (h : pFifo.Holds q) (hroom : q.length < n) (byte : BitVec 8) :
    appFifoPut pFifo byte = (.success, fifoPut pFifo byte) := by
  unfold appFifoPut
  rw [if_pos (h.le_mask_iff.mpr hroom)]

theorem appFifoPut_full (h : pFifo.Holds q) (hfull : ¬ q.length < n) (byte : BitVec 8) :
    appFifoPut pFifo byte = (.errorNoMem, pFifo) := by
  unfold appFifoPut
  rw [if_neg (mt h.le_mask_iff.mp hfull)]

theorem appFifoGet_cons {byte : BitVec 8} (h : pFifo.Holds (byte :: q)) :
    appFifoGet pFifo = (.success, some byte, (fifoGet pFifo).2) := by
  unfold appFifoGet
  rw [if_pos (mt h.eq_zero_iff.mp (List.cons_ne_nil byte q)), (fifoGet_holds h).1]

theorem appFifoGet_nil (h : pFifo.Holds []) : appFifoGet pFifo = (.errorNotFound, none, pFifo) := by
  unfold appFifoGet
  rw [if_neg (not_not.mpr (h.eq_zero_iff.mpr rfl))]

theorem appFifoPeek_eq (h : pFifo.Holds q) (index : BitVec 16) :
    appFifoPeek pFifo index =
      match q[index.toNat]? with
      | some byte => (.success, some byte)
      | none => (.errorNotFound, none) := by
  have hiff : fifoLength pFifo > index.setWidth 32 ↔ index.toNat < q.length := by
    rw [gt_iff_lt, BitVec.lt_def, h.length, BitVec.toNat_setWidth_of_le (by decide)]
  unfold appFifoPeek
  by_cases hindex : index.toNat < q.length
  · rw [if_pos (hiff.mpr hindex), fifoPeek_eq h hindex, List.getElem?_eq_getElem hindex]
  · rw [if_neg (mt hiff.mp hindex), List.getElem?_eq_none (by omega)]

/-- **A flush** leaves no byte, and no counter goes back. -/
theorem appFifoFlush_holds (h : pFifo.Holds q) : (appFifoFlush pFifo).2.Holds [] := by
  have hpos : 0 < n := by
    have hmask := h.mask
    omega
  refine ⟨h.pow, h.mask, ?_⟩
  constructor
  · exact Nat.mod_lt _ hpos
  · exact Nat.mod_lt _ hpos
  · simp [appFifoFlush, AppFifo.ring, fifoLength]
  · exact Nat.zero_le _
  · simp [appFifoFlush, AppFifo.ring, fifoLength]
  · simp

/-! ## §5 Many bytes -/

/-- **The reading loop** takes the first bytes. -/
theorem readLoop_holds (rounds : ℕ) (h : pFifo.Holds q) (hle : rounds ≤ q.length) :
    (readLoop rounds pFifo).1 = q.take rounds ∧
    (readLoop rounds pFifo).2.Holds (q.drop rounds) := by
  induction rounds generalizing pFifo q with
  | zero => exact ⟨rfl, h⟩
  | succ rounds ih =>
    cases q with
    | nil => simp at hle
    | cons byte q =>
      obtain ⟨hbyte, hget⟩ := fifoGet_holds h
      obtain ⟨hbytes, hrest⟩ := ih hget (by simpa using hle)
      unfold readLoop
      dsimp only
      rw [hbyte, hbytes]
      exact ⟨rfl, hrest⟩

/-- **The writing loop** puts its bytes behind the others. -/
theorem writeLoop_holds (pByteArray : ℕ → BitVec 8) (rounds index : ℕ) (h : pFifo.Holds q)
    (hroom : q.length + rounds ≤ n) :
    (writeLoop pByteArray rounds index pFifo).Holds
      (q ++ (List.range' index rounds).map pByteArray) := by
  induction rounds generalizing index pFifo q with
  | zero => simpa [writeLoop] using h
  | succ rounds ih =>
    unfold writeLoop
    have hput := fifoPut_holds h (by omega) (pByteArray index)
    have hrest := ih (index + 1) hput (by simp; omega)
    rw [List.append_assoc] at hrest
    simpa [List.range'_succ] using hrest

/-- Single gets, until one fails or there were enough of them: their bytes, and the FIFO. -/
def getRun : ℕ → AppFifo n → List (BitVec 8) × AppFifo n
  | 0, pFifo => ([], pFifo)
  | count + 1, pFifo =>
    match appFifoGet pFifo with
    | (.success, some byte, next) => (byte :: (getRun count next).1, (getRun count next).2)
    | _ => ([], pFifo)

/-- Single puts from an index on, until one fails or there were enough of them: how many there
    were, and the FIFO. -/
def putRun (pByteArray : ℕ → BitVec 8) : ℕ → ℕ → AppFifo n → ℕ × AppFifo n
  | 0, _, pFifo => (0, pFifo)
  | count + 1, index, pFifo =>
    match appFifoPut pFifo (pByteArray index) with
    | (.success, next) =>
      ((putRun pByteArray count (index + 1) next).1 + 1,
        (putRun pByteArray count (index + 1) next).2)
    | _ => (0, pFifo)

/-- **The longest run of gets** is the reading loop. -/
theorem getRun_eq (count : ℕ) (h : pFifo.Holds q) :
    getRun count pFifo = readLoop (min count q.length) pFifo := by
  induction count generalizing pFifo q with
  | zero =>
    rw [Nat.zero_min]
    rfl
  | succ count ih =>
    cases q with
    | nil =>
      unfold getRun
      rw [appFifoGet_nil h]
      rfl
    | cons byte q =>
      obtain ⟨hbyte, hget⟩ := fifoGet_holds h
      unfold getRun
      rw [appFifoGet_cons h, List.length_cons, Nat.succ_min_succ]
      dsimp only
      rw [ih hget, readLoop]
      dsimp only
      rw [hbyte]

/-- **The longest run of puts** is the writing loop. -/
theorem putRun_eq (pByteArray : ℕ → BitVec 8) (count index : ℕ) (h : pFifo.Holds q) :
    putRun pByteArray count index pFifo =
      (min count (n - q.length),
        writeLoop pByteArray (min count (n - q.length)) index pFifo) := by
  induction count generalizing index pFifo q with
  | zero =>
    rw [Nat.zero_min]
    rfl
  | succ count ih =>
    unfold putRun
    by_cases hroom : q.length < n
    · have hput := fifoPut_holds h hroom (pByteArray index)
      have hmin : min (count + 1) (n - q.length) =
          min count (n - (q ++ [pByteArray index]).length) + 1 := by
        simp only [List.length_append, List.length_singleton]
        omega
      rw [appFifoPut_room h hroom]
      dsimp only
      rw [ih (index + 1) hput, hmin, writeLoop]
    · have hnone : n - q.length = 0 := by omega
      rw [appFifoPut_full h hroom, hnone, Nat.min_zero]
      rfl

end NordicEsb.Fifo
