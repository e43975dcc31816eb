import Mathlib.Data.List.Basic
import Mathlib.Data.Nat.Notation
import Mathlib.Logic.Function.Basic
import Mathlib.Tactic.IntervalCases
import NordicEsb.Lib.RingSegment

/-!
# Words and Bytes

A memory of bytes in which words of four bytes are stored, least significant byte first. A `Write`
stores a word or a byte, and touches one word; a list of writes is carried out in its order.

- a word that is stored can be read again, and writes elsewhere do not matter
- writes to different words can be exchanged
- words and bytes that are stored round a ring can be read again

**Main results**: `word_ringWords`, `applyAll_ringBytes`, `applyAll_of_untouched`, `applyAll_comm`.
-/

namespace WordMemory

variable {b : ℕ → ℕ} {i j a v w n : ℕ}

/-! ## §1 Words -/

/-- The word at index `i`. -/
def word (b : ℕ → ℕ) (i : ℕ) : ℕ :=
  b (4 * i) + 2 ^ 8 * b (4 * i + 1) + 2 ^ 16 * b (4 * i + 2) + 2 ^ 24 * b (4 * i + 3)

/-- A store: a word to its index, or a byte to its address. -/
inductive Write where
  | word (i w : ℕ)
  | byte (a v : ℕ)
deriving DecidableEq, Repr

/-- The word that is touched. -/
def Write.index : Write → ℕ
  | .word i _ => i
  | .byte a _ => a / 4

/-- The memory after a store. -/
def Write.apply (b : ℕ → ℕ) : Write → ℕ → ℕ
  | .word i w => fun a => if a / 4 = i then w / 2 ^ (8 * (a % 4)) % 2 ^ 8 else b a
  | .byte a v => Function.update b a v

/-- The memory after several stores. -/
def applyAll (b : ℕ → ℕ) (ws : List Write) : ℕ → ℕ := ws.foldl Write.apply b

@[simp] theorem applyAll_nil : applyAll b [] = b := rfl

@[simp] theorem applyAll_cons (x : Write) (ws : List Write) :
    applyAll b (x :: ws) = applyAll (x.apply b) ws := rfl

theorem applyAll_append (ws vs : List Write) :
    applyAll b (ws ++ vs) = applyAll (applyAll b ws) vs :=
  List.foldl_append

theorem apply_of_index_ne {x : Write} (h : x.index ≠ a / 4) : x.apply b a = b a := by
  cases x with
  | word i w => exact if_neg (Ne.symm h)
  | byte c v =>
    apply Function.update_of_ne
    rintro rfl
    exact h rfl

/-- **Writes elsewhere** do not matter. -/
theorem applyAll_of_untouched : ∀ {ws : List Write} {b : ℕ → ℕ}, (∀ x ∈ ws, x.index ≠ a / 4) →
    applyAll b ws a = b a := by
  intro ws
  induction ws with
  | nil => exact fun _ => rfl
  | cons x ws ih =>
    intro b h
    rw [applyAll_cons, ih fun y hy => h y (List.mem_cons_of_mem _ hy)]
    exact apply_of_index_ne (h x (List.mem_cons_self ..))

theorem word_congr {b' : ℕ → ℕ} (h : ∀ a, a / 4 = i → b' a = b a) : word b' i = word b i := by
  unfold word
  rw [h _ (by omega), h _ (by omega), h _ (by omega), h _ (by omega)]

theorem word_applyAll {ws : List Write} (h : ∀ x ∈ ws, x.index ≠ i) :
    word (applyAll b ws) i = word b i := by
  apply word_congr
  rintro a rfl
  exact applyAll_of_untouched h

/-- **A word can be read again.** -/
theorem word_apply_self (hw : w < 2 ^ 32) : word ((Write.word i w).apply b) i = w := by
  have hbyte : ∀ k < 4, (Write.word i w).apply b (4 * i + k) = w / 2 ^ (8 * k) % 2 ^ 8 := by
    intro k hk
    have hdiv : (4 * i + k) / 4 = i := by omega
    have hmod : (4 * i + k) % 4 = k := by omega
    show (if (4 * i + k) / 4 = i then w / 2 ^ (8 * ((4 * i + k) % 4)) % 2 ^ 8 else _) = _
    rw [if_pos hdiv, hmod]
  unfold word
  have h0 := hbyte 0 (by decide)
  rw [Nat.add_zero] at h0
  rw [h0, hbyte 1 (by decide), hbyte 2 (by decide), hbyte 3 (by decide)]
  norm_num
  omega

/-! ## §2 Writes to different words -/

/-- What a store leaves at an address depends on what was there only. -/
theorem apply_congr (x : Write) {b' : ℕ → ℕ} (h : b a = b' a) : x.apply b a = x.apply b' a := by
  cases x with
  | word i w =>
    show (if _ then _ else b a) = (if _ then _ else b' a)
    rw [h]
  | byte c v =>
    show Function.update b c v a = Function.update b' c v a
    by_cases hc : a = c
    · rw [hc, Function.update_self, Function.update_self]
    · rw [Function.update_of_ne hc, Function.update_of_ne hc, h]

theorem applyAll_congr {b' : ℕ → ℕ} (ws : List Write) (h : b a = b' a) :
    applyAll b ws a = applyAll b' ws a := by
  induction ws generalizing b b' with
  | nil => exact h
  | cons x ws ih => exact ih (apply_congr x h)

theorem apply_comm {x y : Write} (h : x.index ≠ y.index) :
    y.apply (x.apply b) = x.apply (y.apply b) := by
  funext a
  by_cases hx : x.index = a / 4
  · have hy : y.index ≠ a / 4 := fun hy => h (hx.trans hy.symm)
    rw [apply_of_index_ne hy]
    exact apply_congr x (apply_of_index_ne hy).symm
  · rw [apply_of_index_ne hx]
    exact apply_congr y (apply_of_index_ne hx)

theorem applyAll_apply_comm {x : Write} : ∀ {ws : List Write} {b : ℕ → ℕ},
    (∀ y ∈ ws, x.index ≠ y.index) → applyAll (x.apply b) ws = x.apply (applyAll b ws) := by
  intro ws
  induction ws with
  | nil => exact fun _ => rfl
  | cons y ws ih =>
    intro b h
    rw [applyAll_cons, applyAll_cons, apply_comm (h y (List.mem_cons_self ..))]
    exact ih fun z hz => h z (List.mem_cons_of_mem _ hz)

/-- **Writes to different words** can be exchanged. -/
theorem applyAll_comm : ∀ {vs ws : List Write} {b : ℕ → ℕ},
    (∀ x ∈ vs, ∀ y ∈ ws, x.index ≠ y.index) →
      applyAll (applyAll b vs) ws = applyAll (applyAll b ws) vs := by
  intro vs
  induction vs with
  | nil => exact fun _ => rfl
  | cons x vs ih =>
    intro ws b h
    rw [applyAll_cons, applyAll_cons, ih fun z hz => h z (List.mem_cons_of_mem _ hz),
      applyAll_apply_comm (h x (List.mem_cons_self ..))]

/-! ## §3 Bytes in a row -/

/-- Store the bytes of `l` from address `a` on. -/
def bytesWrites : ℕ → List ℕ → List Write
  | _, [] => []
  | a, v :: l => .byte a v :: bytesWrites (a + 1) l

/-- An address that a store changes. -/
def Write.Touches (a : ℕ) : Write → Prop
  | .word i _ => a / 4 = i
  | .byte c _ => a = c

theorem apply_of_not_touches {x : Write} (h : ¬ x.Touches a) : x.apply b a = b a := by
  cases x with
  | word i w => exact if_neg h
  | byte c v => exact Function.update_of_ne h v b

/-- **Other addresses** keep what they hold. -/
theorem applyAll_of_not_touches {ws : List Write} (h : ∀ x ∈ ws, ¬ x.Touches a) :
    applyAll b ws a = b a := by
  induction ws generalizing b with
  | nil => rfl
  | cons x ws ih =>
    rw [applyAll_cons, ih fun y hy => h y (List.mem_cons_of_mem _ hy)]
    exact apply_of_not_touches (h x List.mem_cons_self)

theorem touches_bytesWrites {l : List ℕ} {c : ℕ} {x : Write} (hx : x ∈ bytesWrites c l)
    (h : x.Touches a) : c ≤ a ∧ a < c + l.length := by
  induction l generalizing c with
  | nil => cases hx
  | cons v l ih =>
    rw [List.length_cons]
    rcases List.mem_cons.mp hx with rfl | hx
    · have heq : a = c := h
      omega
    · have hrange := ih hx
      omega

/-- **Bytes in a row** can be read again. -/
theorem applyAll_bytesWrites {l : List ℕ} {k : ℕ} (hk : k < l.length) :
    applyAll b (bytesWrites a l) (a + k) = l[k] := by
  induction l generalizing a k b with
  | nil => cases hk
  | cons v l ih =>
    show applyAll ((Write.byte a v).apply b) (bytesWrites (a + 1) l) _ = _
    rw [List.length_cons] at hk
    cases k with
    | zero =>
      rw [applyAll_of_not_touches]
      · exact Function.update_self ..
      · intro x hx htouches
        have hrange := touches_bytesWrites hx htouches
        omega
    | succ k =>
      rw [show a + (k + 1) = a + 1 + k by omega]
      exact ih (by omega)

/-- The bytes from address `a` on. -/
def readBytes (b : ℕ → ℕ) (a n : ℕ) : List ℕ := (List.range n).map fun k => b (a + k)

@[simp] theorem length_readBytes : (readBytes b a n).length = n := by
  simp [readBytes]

theorem getElem_readBytes {k : ℕ} (hk : k < (readBytes b a n).length) :
    (readBytes b a n)[k] = b (a + k) := by
  simp [readBytes]

/-! ## §4 Rings -/

/-- Store the words of `l` from index `i` on, round a ring of `n` words. -/
def ringWords (n : ℕ) : ℕ → List ℕ → List Write
  | _, [] => []
  | i, v :: l => .word (i % n) v :: ringWords n (i + 1) l

/-- Store the bytes of `l` from address `a` on, round a ring of `n` bytes. -/
def ringBytes (n : ℕ) : ℕ → List ℕ → List Write
  | _, [] => []
  | a, v :: l => .byte (a % n) v :: ringBytes n (a + 1) l

theorem index_ringWords {l : List ℕ} {x : Write} (hx : x ∈ ringWords n i l) :
    x.index ∈ ringSegment n i l.length := by
  induction l generalizing i with
  | nil => cases hx
  | cons v l ih =>
    rw [mem_ringSegment]
    rcases List.mem_cons.mp hx with rfl | hx
    · exact ⟨0, Nat.succ_pos _, rfl⟩
    · obtain ⟨k, hk, hindex⟩ := mem_ringSegment.mp (ih hx)
      refine ⟨k + 1, Nat.succ_lt_succ hk, ?_⟩
      rw [← hindex, Nat.add_assoc, Nat.add_comm 1 k]

theorem index_ringBytes {l : List ℕ} {x : Write} (hx : x ∈ ringBytes (4 * n) a l) :
    ∃ k < l.length, x.index = (a + k) / 4 % n := by
  induction l generalizing a with
  | nil => cases hx
  | cons v l ih =>
    rcases List.mem_cons.mp hx with rfl | hx
    · exact ⟨0, Nat.succ_pos _, Nat.mod_mul_right_div_self a 4 n⟩
    · obtain ⟨k, hk, hindex⟩ := ih hx
      refine ⟨k + 1, Nat.succ_lt_succ hk, ?_⟩
      rw [hindex, Nat.add_assoc, Nat.add_comm 1 k]

/-- Two places of a ring that are less than a turn apart differ. -/
theorem ring_ne {j k : ℕ} (hjk : j < k) (hk : k < n) : (i + j) % n ≠ (i + k) % n := by
  intro heq
  have hmod : j ≡ k [MOD n] := Nat.ModEq.add_left_cancel' i heq
  rw [Nat.ModEq, Nat.mod_eq_of_lt (hjk.trans hk), Nat.mod_eq_of_lt hk] at hmod
  exact absurd hmod hjk.ne

/-- **The words of a ring** can be read again. -/
theorem word_ringWords {l : List ℕ} {k : ℕ} (hl : l.length ≤ n) (hbound : ∀ v ∈ l, v < 2 ^ 32)
    (hk : k < l.length) : word (applyAll b (ringWords n i l)) ((i + k) % n) = l[k] := by
  induction l generalizing i k b with
  | nil => cases hk
  | cons v l ih =>
    show word (applyAll ((Write.word (i % n) v).apply b) (ringWords n (i + 1) l)) _ = _
    rw [List.length_cons] at hl hk
    cases k with
    | zero =>
      -- the other words are less than a turn away
      have huntouched : ∀ x ∈ ringWords n (i + 1) l, x.index ≠ i % n := by
        intro x hx
        obtain ⟨j, hj, hindex⟩ := mem_ringSegment.mp (index_ringWords hx)
        rw [← hindex, Nat.add_assoc]
        exact (ring_ne (by omega : 0 < 1 + j) (by omega)).symm
      show word _ (i % n) = v
      rw [word_applyAll huntouched]
      exact word_apply_self (hbound v List.mem_cons_self)
    | succ k =>
      rw [show i + (k + 1) = i + 1 + k by omega]
      exact ih (by omega) (fun w hw => hbound w (List.mem_cons_of_mem _ hw)) (by omega)

theorem applyAll_ringBytes_of_ne {l : List ℕ} {c : ℕ} (h : ∀ j < l.length, (a + j) % n ≠ c) :
    applyAll b (ringBytes n a l) c = b c := by
  induction l generalizing a b with
  | nil => rfl
  | cons v l ih =>
    show applyAll ((Write.byte (a % n) v).apply b) (ringBytes n (a + 1) l) c = b c
    rw [ih]
    · apply Function.update_of_ne
      exact (h 0 (Nat.succ_pos _)).symm
    · intro j hj
      rw [Nat.add_assoc, Nat.add_comm 1]
      exact h (j + 1) (Nat.succ_lt_succ hj)

/-- **The bytes of a ring** can be read again. -/
theorem applyAll_ringBytes {l : List ℕ} {k : ℕ} (hl : l.length ≤ n) (hk : k < l.length) :
    applyAll b (ringBytes n a l) ((a + k) % n) = l[k] := by
  induction l generalizing a k b with
  | nil => cases hk
  | cons v l ih =>
    show applyAll ((Write.byte (a % n) v).apply b) (ringBytes n (a + 1) l) _ = _
    rw [List.length_cons] at hl hk
    cases k with
    | zero =>
      show applyAll _ _ (a % n) = v
      rw [applyAll_ringBytes_of_ne]
      · exact Function.update_self ..
      · intro j hj
        rw [Nat.add_assoc]
        exact (ring_ne (by omega : 0 < 1 + j) (by omega)).symm
    | succ k =>
      rw [show a + (k + 1) = a + 1 + k by omega]
      exact ih (by omega) (by omega)

/-- Bytes in a row that do not pass the end of the ring. -/
theorem bytesWrites_eq_ringBytes {l : List ℕ} {c : ℕ} (hc : c % n = a) (hl : a + l.length ≤ n) :
    bytesWrites a l = ringBytes n c l := by
  induction l generalizing a c with
  | nil => rfl
  | cons v l ih =>
    rw [List.length_cons] at hl
    show Write.byte a v :: bytesWrites (a + 1) l = .byte (c % n) v :: ringBytes n (c + 1) l
    rw [hc]
    cases l with
    | nil => rfl
    | cons w l =>
      rw [List.length_cons] at hl
      rw [ih (c := c + 1)]
      · rw [Nat.add_mod, hc, Nat.mod_eq_of_lt (by omega : 1 < n), Nat.mod_eq_of_lt (by omega)]
      · rw [List.length_cons]
        omega

theorem ringBytes_append (l m : List ℕ) :
    ringBytes n a (l ++ m) = ringBytes n a l ++ ringBytes n (a + l.length) m := by
  induction l generalizing a with
  | nil => rfl
  | cons v l ih =>
    show _ :: ringBytes n (a + 1) (l ++ m) = _ :: (ringBytes n (a + 1) l ++ _)
    rw [ih, List.length_cons, Nat.add_assoc, Nat.add_comm 1]

theorem ringWords_append (l m : List ℕ) :
    ringWords n i (l ++ m) = ringWords n i l ++ ringWords n (i + l.length) m := by
  induction l generalizing i with
  | nil => rfl
  | cons v l ih =>
    show _ :: ringWords n (i + 1) (l ++ m) = _ :: (ringWords n (i + 1) l ++ _)
    rw [ih, List.length_cons, Nat.add_assoc, Nat.add_comm 1]

end WordMemory
