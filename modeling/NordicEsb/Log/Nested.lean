import NordicEsb.Lib.Machine
import NordicEsb.Log.Reserve

/-!
# Log Calls That Preempt One Another

A log call can be preempted by another one wherever it is outside of the critical region of its
allocation: before it copies the write index, between the copy and the allocation, and between any
two of its stores. The call that preempts returns first.

- `LogNest` is the buffer with the calls that have not returned, each with what it has left to do
- `InterruptSafe` is the property: calls store to the words that they have reserved, no two to the
  same, and when all have returned the buffer is that of a sequential order
- `Undisturbed` says when a step keeps it: the write index has not moved since it was copied, and
  there is room for a string

**Main result** (`interruptSafe_of_reachable`): in every run whose steps are all undisturbed, calls
are interrupt safe. The order is that in which they allocate.
-/

namespace NordicEsb.Log

open WordMemory

variable (cfg : LogConfig)

/-! ## §1 The machine -/

/-- Where a call is. -/
inductive Progress where
  | begins
  /-- It has copied the write index. -/
  | copied (wrIdx : ℕ)
  /-- It has allocated, and these stores are left. -/
  | stores (left : List Write)
deriving DecidableEq, Repr

/-- A call that has been made. -/
structure Activation where
  call : LogCall
  progress : Progress
  /-- The words that it has reserved, if it was accepted: the first one, and how many. -/
  reserved : Option (ℕ × ℕ)
  /-- The words that it has written. -/
  written : List ℕ
deriving DecidableEq, Repr

/-- The buffer and the calls. -/
structure LogNest where
  data : LogData
  /-- The calls that have not returned, the innermost first. -/
  stack : List Activation
  returned : List Activation
  /-- The buffer before the first call. -/
  initial : LogData
  /-- The calls in the order in which they have allocated. -/
  order : List LogCall

/-- All the calls. -/
def LogNest.calls (l : LogNest) : List Activation := l.stack ++ l.returned

/-- What can happen. -/
inductive NestLabel where
  /-- A call is made, and preempts the others. -/
  | call (c : LogCall)
  /-- The innermost call goes on. -/
  | proceed
deriving DecidableEq

/-- The innermost call goes on. -/
def LogNest.proceed (a : Activation) (rest : List Activation) (l : LogNest) : LogNest :=
  match a.progress with
  | .begins => { l with stack := { a with progress := .copied l.data.wrIdx } :: rest }
  | .copied wrIdx =>
    let r := a.call.prealloc cfg l.data
    { l with
      data := r.2
      stack :=
        { a with
          progress := .stores (a.call.stores cfg wrIdx r.1)
          reserved := r.1.map fun _ =>
            (l.data.wrIdx, (r.2.wrIdx + 2 ^ 32 - l.data.wrIdx) % 2 ^ 32) } :: rest
      order := l.order ++ [a.call] }
  | .stores (x :: left) =>
    { l with
      data := l.data.write [x]
      stack := { a with progress := .stores left, written := a.written ++ [x.index] } :: rest }
  | .stores [] => { l with stack := rest, returned := l.returned ++ [a] }

/-- The state after a label. -/
def LogNest.step (l : LogNest) : NestLabel → LogNest
  | .call c => { l with stack := ⟨c, .begins, none, []⟩ :: l.stack }
  | .proceed =>
    match l.stack with
    | [] => l
    | a :: rest => l.proceed cfg a rest

/-- When it can happen. -/
def NestLabel.Enabled (l : LogNest) : NestLabel → Prop
  | .call c => c.InRange
  | .proceed => l.stack ≠ []

instance (l : LogNest) : DecidablePred (NestLabel.Enabled l)
  | .call c => (inferInstance : Decidable c.InRange)
  | .proceed => (inferInstance : Decidable (l.stack ≠ []))

/-- **Calls that preempt one another**, from any buffer whose words in use fit. -/
def nestMachine : Machine LogNest NestLabel where
  start l := Sound cfg l.data ∧ l.stack = [] ∧ l.returned = [] ∧ l.order = [] ∧ l.initial = l.data
  enabled l label := label.Enabled l
  step := LogNest.step cfg

instance (l : LogNest) (label : NestLabel) : Decidable ((nestMachine cfg).enabled l label) :=
  inferInstanceAs (Decidable (label.Enabled l))

/-- The calls one after the other. -/
def LogData.callAll (s : LogData) (order : List LogCall) : LogData :=
  order.foldl (fun s c => s.call cfg c) s

/-- **Log calls are interrupt safe.** -/
structure InterruptSafe (l : LogNest) : Prop where
  /-- A call writes to the words that it has reserved. -/
  inside : ∀ a ∈ l.calls, ∀ i ∈ a.written,
    ∃ r, a.reserved = some r ∧ i ∈ ringSegment cfg.size r.1 r.2
  disjoint : l.calls.Pairwise fun a b => List.Disjoint a.written b.written
  /-- After all calls return. -/
  sequential : l.stack = [] → ∃ order, order.Perm (l.returned.map Activation.call) ∧
    l.data = l.initial.callAll cfg order

/-- A call allocates undisturbed: the write index is where it was, and there is room for a string. -/
def Activation.Undisturbed (s : LogData) (a : Activation) : Prop :=
  match a.progress with
  | .copied wrIdx => wrIdx = s.wrIdx ∧ a.call.Fits cfg s
  | .begins | .stores _ => True

/-- **The condition**: every allocation is undisturbed. -/
def Undisturbed (l : LogNest) : NestLabel → Prop
  | .call _ => True
  | .proceed =>
    match l.stack with
    | [] => True
    | a :: _ => a.Undisturbed cfg l.data

instance (s : LogData) (a : Activation) : Decidable (a.Undisturbed cfg s) :=
  match a with
  | ⟨call, .copied wrIdx, _, _⟩ =>
    (inferInstance : Decidable (wrIdx = s.wrIdx ∧ call.Fits cfg s))
  | ⟨_, .begins, _, _⟩ | ⟨_, .stores _, _, _⟩ => (inferInstance : Decidable True)

instance (l : LogNest) : DecidablePred (Undisturbed cfg l)
  | .call _ => (inferInstance : Decidable True)
  | .proceed =>
    match l with
    | ⟨_, [], _, _, _⟩ => (inferInstance : Decidable True)
    | ⟨data, a :: _, _, _, _⟩ => (inferInstance : Decidable (a.Undisturbed cfg data))

/-! ## §2 Allocation on another buffer -/

variable {cfg} {s : LogData} {n : ℕ}

variable (cfg) in
/-- What `buf_prealloc` stores. -/
def bufOverflow (nargs timestamp : ℕ) (s : LogData) : List Write :=
  if nargs + cfg.headerSize + cfg.headerSize > s.available cfg then
    if s.available cfg ≥ cfg.headerSize then overflowWrites cfg s.wrIdx timestamp else []
  else []

variable (cfg) in
/-- What the allocation of a call stores. -/
def LogCall.overflow (s : LogData) : LogCall → List Write
  | .push _ => []
  | .std _ _ args timestamp => bufOverflow cfg args.length timestamp s
  | .hexdump _ _ pData timestamp => bufOverflow cfg (ceilDiv pData.length 4 + 1) timestamp s

/-- The same indices with another buffer. -/
def LogData.setBuffer (s : LogData) (b : ℕ → ℕ) : LogData := ⟨s.wrIdx, s.rdIdx, b⟩

section SetBuffer

variable (s : LogData) (b : ℕ → ℕ)

@[simp] theorem setBuffer_wrIdx : (s.setBuffer b).wrIdx = s.wrIdx := rfl

@[simp] theorem setBuffer_rdIdx : (s.setBuffer b).rdIdx = s.rdIdx := rfl

@[simp] theorem setBuffer_available : (s.setBuffer b).available cfg = s.available cfg := by
  unfold LogData.available LogData.used
  simp only [setBuffer_wrIdx, setBuffer_rdIdx]

@[simp] theorem advance_setBuffer (n : ℕ) :
    (s.setBuffer b).advance n = (s.advance n).setBuffer b := by
  unfold LogData.advance
  simp only [setBuffer_wrIdx, setBuffer_rdIdx]
  rfl

theorem advance_write (ws : List Write) (n : ℕ) :
    ((s.setBuffer b).write ws).advance n = ((s.write ws).advance n).setBuffer (applyAll b ws) := by
  unfold LogData.advance LogData.write
  simp only [setBuffer_wrIdx, setBuffer_rdIdx]
  rfl

end SetBuffer

theorem bufPrealloc_setBuffer (nargs timestamp : ℕ) (s : LogData) (b : ℕ → ℕ) :
    bufPrealloc cfg nargs timestamp (s.setBuffer b) =
      ((bufPrealloc cfg nargs timestamp s).1, (bufPrealloc cfg nargs timestamp s).2.setBuffer
        (applyAll b (bufOverflow cfg nargs timestamp s))) := by
  rw [bufPrealloc, bufPrealloc, bufOverflow, setBuffer_available]
  by_cases hfull : nargs + cfg.headerSize + cfg.headerSize > s.available cfg
  · rw [if_pos hfull, if_pos hfull, if_pos hfull]
    by_cases hroom : s.available cfg ≥ cfg.headerSize
    · rw [if_pos hroom, if_pos hroom, if_pos hroom, advance_write, setBuffer_wrIdx]
    · rw [if_neg hroom, if_neg hroom, if_neg hroom, applyAll_nil]
  · rw [if_neg hfull, if_neg hfull, if_neg hfull, applyAll_nil, advance_setBuffer]

theorem contBufPrealloc_setBuffer (len32 : ℕ) (s : LogData) (b : ℕ → ℕ) :
    contBufPrealloc cfg len32 (s.setBuffer b) =
      ((contBufPrealloc cfg len32 s).1, (contBufPrealloc cfg len32 s).2.setBuffer b) := by
  have htake : contBufTake cfg (len32 + 1) (s.setBuffer b) =
      ((contBufTake cfg (len32 + 1) s).1, (contBufTake cfg (len32 + 1) s).2.setBuffer b) := by
    unfold contBufTake
    dsimp only
    rw [setBuffer_wrIdx, setBuffer_rdIdx]
    by_cases hfits : len32 + 1 ≤ cfg.size - s.wrIdx % cfg.size
    · rw [if_pos hfits, if_pos hfits, advance_setBuffer]
    · rw [if_neg hfits, if_neg hfits]
      by_cases hwraps : len32 + 1 < s.rdIdx % cfg.size
      · rw [if_pos hwraps, if_pos hwraps, advance_setBuffer]
      · rw [if_neg hwraps, if_neg hwraps]
  unfold contBufPrealloc
  rw [htake]
  dsimp only
  rw [setBuffer_available]

theorem grant_setBuffer (r : Bool × LogData) (b : ℕ → ℕ) :
    grant (r.1, r.2.setBuffer b) = ((grant r).1, (grant r).2.setBuffer b) := by
  obtain ⟨ok, t⟩ := r
  cases ok
  · rfl
  · rfl

/-- **An allocation** does not read the buffer. -/
theorem prealloc_setBuffer (c : LogCall) (s : LogData) (b : ℕ → ℕ) :
    c.prealloc cfg (s.setBuffer b) =
      ((c.prealloc cfg s).1,
        (c.prealloc cfg s).2.setBuffer (applyAll b (c.overflow cfg s))) := by
  have hgrant : ∀ nargs timestamp, grant (bufPrealloc cfg nargs timestamp (s.setBuffer b)) =
      ((grant (bufPrealloc cfg nargs timestamp s)).1,
        (grant (bufPrealloc cfg nargs timestamp s)).2.setBuffer
          (applyAll b (bufOverflow cfg nargs timestamp s))) := by
    intro nargs timestamp
    rw [bufPrealloc_setBuffer, grant_setBuffer]
  cases c with
  | push pStr =>
    rw [LogCall.prealloc, LogCall.prealloc, LogCall.overflow, contBufPrealloc_setBuffer, applyAll_nil]
  | std severity pStr args timestamp =>
    rw [LogCall.prealloc, LogCall.prealloc, LogCall.overflow, hgrant]
  | hexdump severity pStr pData timestamp =>
    rw [LogCall.prealloc, LogCall.prealloc, LogCall.overflow, hgrant]

/-- What an allocation stores goes to free words. -/
theorem Sound.overflow_free (h : Sound cfg s) {c : LogCall} {x : Write}
    (hx : x ∈ c.overflow cfg s) : x.index ∉ s.live cfg := by
  have hbuf : ∀ nargs timestamp, x ∈ bufOverflow cfg nargs timestamp s → x.index ∉ s.live cfg := by
    intro nargs timestamp hx hlive
    have hle := h.used_le
    have havailable := h.available
    unfold bufOverflow at hx
    split_ifs at hx
    · exact h.free (n := cfg.headerSize) (by omega) hlive (index_overflowWrites hx)
    · cases hx
    · cases hx
  cases c with
  | push pStr => cases hx
  | std severity pStr args timestamp => exact hbuf _ _ hx
  | hexdump severity pStr pData timestamp => exact hbuf _ _ hx

theorem Sound.advance_zero (h : Sound cfg s) : s.advance 0 = s := by
  unfold LogData.advance
  rw [Nat.add_zero, Nat.mod_eq_of_lt h.wrIdx_lt]

/-- **An allocation on the buffer** that is there: it reserves words that are free, and the stores
    that follow go there. -/
theorem Sound.allocates (h : Sound cfg s) {c : LogCall} (hfits : c.Fits cfg s) :
    ∃ n, s.used + n ≤ cfg.size ∧
      (c.prealloc cfg s).2 =
        (s.advance n).setBuffer (applyAll s.buffer (c.overflow cfg s)) ∧
      ∀ x ∈ c.stores cfg s.wrIdx (c.prealloc cfg s).1,
        x.index ∈ ringSegment cfg.size s.wrIdx n := by
  have hsame : s.setBuffer s.buffer = s := rfl
  have hset : c.prealloc cfg (s.setBuffer s.buffer) = _ := prealloc_setBuffer c s s.buffer
  have hpre := prealloc_cases h hfits
  rw [hsame] at hset
  generalize c.prealloc cfg s = r at hset hpre ⊢
  have hbuffer : r.2.buffer = applyAll s.buffer (c.overflow cfg s) :=
    congrArg (fun r => r.2.buffer) hset
  rw [← hbuffer]
  clear hset
  cases hpre with
  | reserved r n hroom hwrites => exact ⟨n, hroom, rfl, hwrites⟩
  | overflow timestamp hroom =>
    exact ⟨cfg.headerSize, hroom, rfl, fun x hx => absurd hx List.not_mem_nil⟩
  | lost n hroom => exact ⟨n, hroom, rfl, fun x hx => absurd hx List.not_mem_nil⟩
  | refused =>
    refine ⟨0, (Nat.add_zero _).trans_le h.used_le, ?_, fun x hx => absurd hx List.not_mem_nil⟩
    rw [h.advance_zero]
    exact hsame.symm

/-- The write index says how many words have been reserved. -/
theorem Sound.reserved_eq (h : Sound cfg s) (hroom : s.used + n ≤ cfg.size) :
    ((s.advance n).wrIdx + 2 ^ 32 - s.wrIdx) % 2 ^ 32 = n := by
  have hwr := h.wrIdx_lt
  have hlt := size_lt cfg
  have hadvance : (s.advance n).wrIdx = (s.wrIdx + n) % 2 ^ 32 := rfl
  rw [hadvance]
  omega

/-- **A call in front of the stores that are left**: they are in words in use, and the call stores to
    others. -/
theorem Sound.call_left (h : Sound cfg s) {c : LogCall} (hrange : c.InRange) (hfits : c.Fits cfg s)
    {left : List Write} (hused : ∀ x ∈ left, x.index ∈ s.live cfg) :
    (s.setBuffer (applyAll s.buffer left)).call cfg c =
      (c.prealloc cfg s).2.setBuffer (applyAll (c.prealloc cfg s).2.buffer
        (c.stores cfg s.wrIdx (c.prealloc cfg s).1 ++ left)) := by
  obtain ⟨n, hroom, hdata, hstores⟩ := h.allocates hfits
  have hfree := h.free hroom
  have hoverflow : applyAll (applyAll s.buffer left) (c.overflow cfg s) =
      applyAll (applyAll s.buffer (c.overflow cfg s)) left :=
    applyAll_comm fun x hx y hy heq => h.overflow_free hy (heq ▸ hused x hx)
  have hcommute : applyAll (applyAll (applyAll s.buffer (c.overflow cfg s)) left)
        (c.stores cfg s.wrIdx (c.prealloc cfg s).1) =
      applyAll (applyAll (applyAll s.buffer (c.overflow cfg s))
        (c.stores cfg s.wrIdx (c.prealloc cfg s).1)) left :=
    applyAll_comm fun x hx y hy heq => hfree (hused x hx) (heq ▸ hstores y hy)
  have hbuffer : (c.prealloc cfg s).2.buffer = applyAll s.buffer (c.overflow cfg s) := by
    rw [hdata]
    rfl
  rw [call_eq cfg _ hrange, prealloc_setBuffer, hoverflow, setBuffer_wrIdx, applyAll_append, hbuffer,
    ← hcommute]
  rfl

/-! ## §3 The invariant -/

namespace Activation

variable (cfg) in
/-- The words that it has reserved. -/
def words (a : Activation) : List ℕ :=
  a.reserved.elim [] fun r => ringSegment cfg.size r.1 r.2

/-- The stores that are left. -/
def left (a : Activation) : List Write :=
  match a.progress with
  | .stores left => left
  | .begins | .copied _ => []

/-- It has allocated. -/
def hasAllocated (a : Activation) : Bool :=
  match a.progress with
  | .stores _ => true
  | .begins | .copied _ => false

variable (cfg) in
/-- What holds of a call wherever it is. -/
structure Kept (a : Activation) : Prop where
  written : ∀ i ∈ a.written, i ∈ a.words cfg
  left : ∀ x ∈ a.left, x.index ∈ a.words cfg
  fresh : a.hasAllocated = false → a.reserved = none

end Activation

variable (cfg) in
/-- What holds in every state: what is left to store is in words of their own, and the calls that have
    allocated are in order once it is stored. -/
structure NestInv (l : LogNest) : Prop where
  sound : Sound cfg l.data
  inRange : ∀ a ∈ l.stack, a.call.InRange
  kept : ∀ a ∈ l.calls, a.Kept cfg
  live : ∀ a ∈ l.calls, ∀ i ∈ a.words cfg, i ∈ l.data.live cfg
  disjoint : l.calls.Pairwise fun a b => List.Disjoint (a.words cfg) (b.words cfg)
  order : l.order.Perm ((l.calls.filter Activation.hasAllocated).map Activation.call)
  returned : ∀ a ∈ l.returned, a.hasAllocated = true
  sequential : l.initial.callAll cfg l.order =
    l.data.setBuffer (applyAll l.data.buffer (l.stack.flatMap Activation.left))

variable {l : LogNest} {a a' : Activation} {rest : List Activation}

/-- **The innermost call goes on** with the words that it has. -/
theorem NestInv.replace (h : NestInv cfg l) (hstack : l.stack = a :: rest) (ws : List Write)
    (hcall : a'.call = a.call) (hreserved : a'.reserved = a.reserved)
    (hallocated : a'.hasAllocated = a.hasAllocated) (hleft : a.left = ws ++ a'.left)
    (hwritten : ∀ i ∈ a'.written, i ∈ a.words cfg) :
    NestInv cfg { l with data := l.data.write ws, stack := a' :: rest } := by
  obtain ⟨hsound, hinRange, hkept, hlive, hdisjoint, horder, hreturned, hsequential⟩ := h
  have hwords : a'.words cfg = a.words cfg := by
    unfold Activation.words
    rw [hreserved]
  unfold LogNest.calls at hkept hlive hdisjoint horder
  rw [hstack] at hinRange hkept hlive hdisjoint horder hsequential
  rw [List.cons_append] at hkept hlive hdisjoint horder
  obtain ⟨ha, hothers⟩ := List.forall_mem_cons.mp hkept
  refine ⟨hsound.write ws, ?_, ?_, ?_, ?_, ?_, hreturned, ?_⟩
  · refine List.forall_mem_cons.mpr ⟨?_, fun b hb => hinRange b (List.mem_cons_of_mem _ hb)⟩
    rw [hcall]
    exact hinRange a List.mem_cons_self
  · refine List.forall_mem_cons.mpr ⟨⟨?_, fun x hx => ?_, fun hnot => ?_⟩, hothers⟩
    · rwa [hwords]
    · rw [hwords]
      exact ha.left x (hleft ▸ List.mem_append_right _ hx)
    · rw [hreserved]
      exact ha.fresh (hallocated ▸ hnot)
  · refine List.forall_mem_cons.mpr ⟨?_, fun b hb => hlive b (List.mem_cons_of_mem _ hb)⟩
    rw [hwords]
    exact hlive a List.mem_cons_self
  · show List.Pairwise _ (a' :: (rest ++ l.returned))
    rw [List.pairwise_cons] at hdisjoint ⊢
    rwa [hwords]
  · show l.order.Perm (((a' :: (rest ++ l.returned)).filter _).map _)
    rw [List.filter_cons] at horder ⊢
    rw [hallocated]
    split <;> rename_i hcond
    · rw [if_pos hcond, List.map_cons] at horder
      rw [List.map_cons, hcall]
      exact horder
    · rwa [if_neg hcond] at horder
  · rw [List.flatMap_cons, hleft, List.append_assoc, applyAll_append] at hsequential
    rw [List.flatMap_cons]
    exact hsequential

/-- **A call is made.** -/
theorem NestInv.call (h : NestInv cfg l) {c : LogCall} (hrange : c.InRange) :
    NestInv cfg (l.step cfg (.call c)) := by
  obtain ⟨hsound, hinRange, hkept, hlive, hdisjoint, horder, hreturned, hsequential⟩ := h
  refine ⟨hsound, ?_, ?_, ?_, ?_, horder, hreturned, hsequential⟩
  · exact List.forall_mem_cons.mpr ⟨hrange, hinRange⟩
  · refine List.forall_mem_cons.mpr ⟨⟨?_, ?_, fun _ => rfl⟩, hkept⟩
    · exact fun i hi => absurd hi List.not_mem_nil
    · exact fun x hx => absurd hx List.not_mem_nil
  · refine List.forall_mem_cons.mpr ⟨fun i hi => absurd hi List.not_mem_nil, hlive⟩
  · refine List.pairwise_cons.mpr ⟨fun b _ => ?_, hdisjoint⟩
    exact List.disjoint_nil_left _

/-- **The innermost call allocates.** -/
theorem NestInv.allocate (h : NestInv cfg l) (hstack : l.stack = a :: rest)
    (hprogress : a.progress = .copied l.data.wrIdx) (hfits : a.call.Fits cfg l.data) :
    NestInv cfg (l.proceed cfg a rest) := by
  obtain ⟨hsound, hinRange, hkept, hlive, hdisjoint, horder, hreturned, hsequential⟩ := h
  unfold LogNest.calls at hkept hlive hdisjoint horder
  rw [hstack] at hinRange hkept hlive hdisjoint horder hsequential
  rw [List.cons_append] at hkept hlive hdisjoint horder
  obtain ⟨ha, hothers⟩ := List.forall_mem_cons.mp hkept
  obtain ⟨-, hdisjoint⟩ := List.pairwise_cons.mp hdisjoint
  have hlive : ∀ b ∈ rest ++ l.returned, ∀ i ∈ b.words cfg, i ∈ l.data.live cfg :=
    fun b hb => hlive b (List.mem_cons_of_mem _ hb)
  -- Before its allocation the call has no words, so it has written none.
  have hnotYet : a.hasAllocated = false ∧ a.left = [] := by
    unfold Activation.hasAllocated Activation.left
    rw [hprogress]
    exact ⟨rfl, rfl⟩
  have hnothing : a.written = [] := by
    have hnone : a.words cfg = [] := by
      unfold Activation.words
      rw [ha.fresh hnotYet.1]
      rfl
    refine List.eq_nil_iff_forall_not_mem.mpr fun i hi => ?_
    have hi := ha.written i hi
    rw [hnone] at hi
    exact List.not_mem_nil hi
  obtain ⟨n, hroom, hdata, hstores⟩ := hsound.allocates hfits
  have hfree := hsound.free hroom
  have hgrows : ∀ i ∈ l.data.live cfg, i ∈ (l.data.advance n).live cfg := by
    intro i hi
    rw [hsound.live_advance hroom]
    exact List.mem_append_left _ hi
  -- `r` is the allocation: the words it reserves and the buffer it leaves.
  obtain ⟨r, hr⟩ : ∃ r, r = a.call.prealloc cfg l.data := ⟨_, rfl⟩
  rw [← hr] at hdata hstores
  have hnew : r.2.live cfg = (l.data.advance n).live cfg := by
    rw [hdata]
    rfl
  unfold LogNest.proceed
  rw [hprogress]
  dsimp only
  rw [← hr]
  obtain ⟨a', ha'⟩ : ∃ a' : Activation, a' = { a with
      progress := .stores (a.call.stores cfg l.data.wrIdx r.1)
      reserved := r.1.map fun _ =>
        (l.data.wrIdx, (r.2.wrIdx + 2 ^ 32 - l.data.wrIdx) % 2 ^ 32) } := ⟨_, rfl⟩
  rw [← ha']
  have hcount : (r.2.wrIdx + 2 ^ 32 - l.data.wrIdx) % 2 ^ 32 = n := by
    rw [hdata]
    exact hsound.reserved_eq hroom
  -- A call that had no room has no words and no stores.
  have hwords : ∀ i ∈ a'.words cfg, i ∈ ringSegment cfg.size l.data.wrIdx n := by
    intro i hi
    rw [ha', hcount] at hi
    unfold Activation.words at hi
    cases hr1 : r.1 with
    | none =>
      rw [hr1] at hi
      cases hi
    | some p =>
      rw [hr1] at hi
      exact hi
  have hleft : a'.left = a.call.stores cfg l.data.wrIdx r.1 := by
    rw [ha']
    rfl
  have hinside : ∀ x ∈ a'.left, x.index ∈ a'.words cfg := by
    intro x hx
    rw [hleft] at hx
    have hx' := hstores x hx
    rw [ha', hcount]
    unfold Activation.words
    cases hr1 : r.1 with
    | none =>
      rw [hr1] at hx
      cases hx
    | some p => exact hx'
  -- The new words were free, so no other call has them.
  refine ⟨?_, ?_, ?_, ?_, ?_, ?_, hreturned, ?_⟩
  · show Sound cfg r.2
    rw [hdata]
    have hadvance := hsound.advance hroom
    exact ⟨hadvance.wrIdx_lt, hadvance.rdIdx_lt, hadvance.used_le⟩
  · refine List.forall_mem_cons.mpr ⟨?_, fun b hb => hinRange b (List.mem_cons_of_mem _ hb)⟩
    rw [ha']
    exact hinRange a List.mem_cons_self
  · refine List.forall_mem_cons.mpr ⟨⟨fun i hi => ?_, hinside, fun hnot => ?_⟩, hothers⟩
    · rw [ha'] at hi
      exact absurd (hnothing ▸ hi) List.not_mem_nil
    · rw [ha'] at hnot
      cases hnot
  · show ∀ b ∈ a' :: (rest ++ l.returned), ∀ i ∈ b.words cfg, i ∈ r.2.live cfg
    rw [hnew]
    refine List.forall_mem_cons.mpr ⟨fun i hi => ?_, fun b hb i hi => hgrows i (hlive b hb i hi)⟩
    rw [hsound.live_advance hroom]
    exact List.mem_append_right _ (hwords i hi)
  · refine List.pairwise_cons.mpr ⟨fun b hb i hi hi' => ?_, hdisjoint⟩
    exact hfree (hlive b hb i hi') (hwords i hi)
  -- The call joins the order at its end.
  · have hyes : a'.hasAllocated = true := by
      rw [ha']
      rfl
    have hsame : a'.call = a.call := by
      rw [ha']
    show (l.order ++ [a.call]).Perm (((a' :: (rest ++ l.returned)).filter _).map _)
    rw [List.filter_cons, if_neg (by rw [hnotYet.1]; decide)] at horder
    rw [List.filter_cons, if_pos hyes, List.map_cons, hsame]
    exact (List.perm_append_singleton _ _).trans (horder.cons _)
  · -- What is left to store is in words in use, and the new stores are not.
    rw [List.flatMap_cons, hnotYet.2, List.nil_append] at hsequential
    have hused : ∀ x ∈ rest.flatMap Activation.left, x.index ∈ l.data.live cfg := by
      intro x hx
      obtain ⟨b, hb, hx⟩ := List.mem_flatMap.mp hx
      have hb := List.mem_append_left l.returned hb
      exact hlive b hb _ ((hothers b hb).left x hx)
    have hall : l.initial.callAll cfg (l.order ++ [a.call]) =
        (l.initial.callAll cfg l.order).call cfg a.call := List.foldl_concat _ _ _ _
    show l.initial.callAll cfg (l.order ++ [a.call]) =
      r.2.setBuffer (applyAll r.2.buffer ((a' :: rest).flatMap Activation.left))
    rw [hall, hsequential, hsound.call_left (hinRange a List.mem_cons_self) hfits hused, ← hr,
      List.flatMap_cons, hleft]

/-- **The innermost call returns.** -/
theorem NestInv.returns (h : NestInv cfg l) (hstack : l.stack = a :: rest)
    (hprogress : a.progress = .stores []) :
    NestInv cfg { l with stack := rest, returned := l.returned ++ [a] } := by
  obtain ⟨hsound, hinRange, hkept, hlive, hdisjoint, horder, hreturned, hsequential⟩ := h
  have hperm : (rest ++ (l.returned ++ [a])).Perm l.calls := by
    unfold LogNest.calls
    rw [hstack, ← List.append_assoc]
    exact List.perm_append_singleton _ _
  rw [hstack] at hinRange hsequential
  have hleft : a.left = [] := by
    unfold Activation.left
    rw [hprogress]
  rw [List.flatMap_cons, hleft, List.nil_append] at hsequential
  refine ⟨hsound, fun b hb => hinRange b (List.mem_cons_of_mem _ hb), fun b hb => ?_,
    fun b hb => ?_, ?_, ?_, fun b hb => ?_, hsequential⟩
  · exact hkept b (hperm.mem_iff.mp hb)
  · exact hlive b (hperm.mem_iff.mp hb)
  · exact (hperm.pairwise_iff List.disjoint_symm).mpr hdisjoint
  · exact horder.trans ((hperm.symm.filter _).map _)
  · rcases List.mem_append.mp hb with hb | hb
    · exact hreturned b hb
    · rw [List.mem_singleton.mp hb]
      unfold Activation.hasAllocated
      rw [hprogress]

/-- **Every step.** -/
theorem NestInv.step (h : NestInv cfg l) {label : NestLabel} (hen : label.Enabled l)
    (hund : Undisturbed cfg l label) : NestInv cfg (l.step cfg label) := by
  cases label with
  | call c => exact h.call hen
  | proceed =>
    unfold LogNest.step
    unfold Undisturbed at hund
    cases hstack : l.stack with
    | nil => exact absurd hstack hen
    | cons a rest =>
      rw [hstack] at hund
      dsimp only at hund ⊢
      unfold Activation.Undisturbed at hund
      cases hprogress : a.progress with
      | begins =>
        unfold LogNest.proceed
        rw [hprogress]
        have ha := h.kept a (List.mem_append_left _ (hstack ▸ List.mem_cons_self))
        refine h.replace hstack [] rfl rfl ?_ ?_ ha.written
        · unfold Activation.hasAllocated
          rw [hprogress]
        · unfold Activation.left
          rw [hprogress]
          rfl
      | copied wrIdx =>
        rw [hprogress] at hund
        obtain ⟨rfl, hfits⟩ := hund
        exact h.allocate hstack hprogress hfits
      | stores left =>
        unfold LogNest.proceed
        rw [hprogress]
        cases left with
        | nil => exact h.returns hstack hprogress
        | cons x left =>
          have ha := h.kept a (List.mem_append_left _ (hstack ▸ List.mem_cons_self))
          have hleft : a.left = x :: left := by
            unfold Activation.left
            rw [hprogress]
          refine h.replace hstack [x] rfl rfl ?_ hleft fun i hi => ?_
          · unfold Activation.hasAllocated
            rw [hprogress]
          · rcases List.mem_append.mp hi with hi | hi
            · exact ha.written i hi
            · rw [List.mem_singleton.mp hi]
              exact ha.left x (hleft ▸ List.mem_cons_self)

/-- **Log calls are interrupt safe** in every run whose allocations are all undisturbed. -/
theorem interruptSafe_of_reachable (h : (nestMachine cfg).ReachableUnder (Undisturbed cfg) l) :
    InterruptSafe cfg l := by
  have hinv : NestInv cfg l := by
    refine h.invariant (I := NestInv cfg) (fun l hstart => ?_) fun _ _ hinv hen hund =>
      hinv.step hen hund
    obtain ⟨hsound, hstack, hreturned, horder, hinitial⟩ := hstart
    -- No call has begun.
    have hcalls : l.calls = [] := by
      unfold LogNest.calls
      rw [hstack, hreturned]
      rfl
    refine ⟨hsound, ?_, ?_, ?_, ?_, ?_, ?_, ?_⟩
    · rw [hstack]
      exact fun a ha => absurd ha List.not_mem_nil
    · rw [hcalls]
      exact fun a ha => absurd ha List.not_mem_nil
    · rw [hcalls]
      exact fun a ha => absurd ha List.not_mem_nil
    · rw [hcalls]
      exact .nil
    · rw [hcalls, horder]
      exact .nil
    · rw [hreturned]
      exact fun a ha => absurd ha List.not_mem_nil
    · rw [hstack, horder, hinitial]
      rfl
  refine ⟨fun a ha i hi => ?_, ?_, fun hempty => ⟨l.order, ?_, ?_⟩⟩
  · have hmem := (hinv.kept a ha).written i hi
    unfold Activation.words at hmem
    cases hreserved : a.reserved with
    | none =>
      rw [hreserved] at hmem
      exact absurd hmem List.not_mem_nil
    | some r =>
      rw [hreserved] at hmem
      exact ⟨r, rfl, hmem⟩
  · refine hinv.disjoint.imp_of_mem fun ha hb hdisjoint i hi hi' => ?_
    exact hdisjoint ((hinv.kept _ ha).written i hi) ((hinv.kept _ hb).written i hi')
  -- All calls have returned, so each has its place in the order.
  · have horder := hinv.order
    unfold LogNest.calls at horder
    rw [hempty, List.nil_append, List.filter_eq_self.mpr hinv.returned] at horder
    exact horder
  · have hsequential := hinv.sequential
    rw [hempty] at hsequential
    exact hsequential.symm

/-! ## §4 A call between the copy and the allocation -/

/-- A buffer of 16 words, without time stamps. -/
def smallLog : LogConfig := ⟨4, false, 100, by decide, by decide⟩

/-- Nothing has been logged. -/
def emptyNest : LogNest :=
  ⟨⟨0, 0, fun _ => 0⟩, [], [], ⟨0, 0, fun _ => 0⟩, []⟩

theorem emptyNest_start : (nestMachine smallLog).start emptyNest :=
  ⟨⟨by decide, by decide, by decide⟩, rfl, rfl, rfl, rfl⟩

/-- A call that is preempted between two of its stores. -/
def preemptedBetweenStores : LogNest :=
  (nestMachine smallLog).run emptyNest
    [.call (.std 1 7 [5] 0), .proceed, .proceed, .proceed, .call (.push [65]), .proceed, .proceed,
      .proceed, .proceed, .proceed, .proceed, .proceed, .proceed]

theorem interruptSafe_preemptedBetweenStores : InterruptSafe smallLog preemptedBetweenStores :=
  interruptSafe_of_reachable (.of_follows (.start emptyNest_start) (by decide +kernel))

/-- A call that is preempted between the copy of the write index and the allocation. -/
def preemptedBeforeAllocation : LogNest :=
  (nestMachine smallLog).run emptyNest
    [.call (.std 1 7 [] 0), .proceed, .call (.std 1 8 [] 0), .proceed, .proceed, .proceed, .proceed,
      .proceed, .proceed, .proceed]

/-- **Preempted before its allocation**, a call stores over the entry of the other one. -/
theorem not_interruptSafe_beforeAllocation :
    ¬ ∀ (cfg : LogConfig) (l : LogNest), (nestMachine cfg).Reachable l → InterruptSafe cfg l := by
  intro hall
  have hdisjoint := (hall smallLog preemptedBeforeAllocation
    (.of_follows (.start emptyNest_start) (by decide +kernel))).disjoint
  have hwritten : preemptedBeforeAllocation.calls.map Activation.written = [[0], [0]] := by
    decide +kernel
  rw [← List.pairwise_map (f := Activation.written) (R := List.Disjoint), hwritten] at hdisjoint
  have hpair := (List.pairwise_cons.mp hdisjoint).1 [0] List.mem_cons_self
  exact hpair List.mem_cons_self List.mem_cons_self

end NordicEsb.Log
