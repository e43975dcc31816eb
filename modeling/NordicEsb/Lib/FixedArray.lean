import Mathlib.Algebra.GroupWithZero.Nat
import Mathlib.Data.Fintype.Pi
import Mathlib.Data.List.OfFn

/-!
# Fixed-Size Arrays Indexed by Machine Words

An array of `n` cells that programs index with plain natural numbers. Reading
outside the array yields the default value and writing outside it changes
nothing, so every operation is total and no cell beyond the array exists.

`copy` is the block copy `memcpy(dst, src, k)`, and `firstN` is the view of the
first `k` cells as a list, which is what such a copy transports.
-/

/-- Numbers of three bits are written as literals. -/
instance (priority := 2000) neZeroEight : NeZero 8 := ⟨by decide⟩

/-- So are numbers of one bit. -/
instance (priority := 2000) neZeroTwo : NeZero 2 := ⟨by decide⟩

/-- Indices are compared by `DecidableEq`. -/
instance (priority := 2000) lawfulBEqFin {n : ℕ} : LawfulBEq (Fin n) := inferInstance

/-- An array of `n` cells of type `α`. -/
def FixedArray (n : ℕ) (α : Type*) := Fin n → α

namespace FixedArray

variable {n m : ℕ} {α : Type*}

instance [DecidableEq α] : DecidableEq (FixedArray n α) :=
  inferInstanceAs (DecidableEq (Fin n → α))

/-- The array whose cells all hold `x`. -/
def replicate (n : ℕ) (x : α) : FixedArray n α := fun _ => x

instance [Inhabited α] : Inhabited (FixedArray n α) := ⟨replicate n default⟩

/-- Read cell `i`; the default value outside the array. -/
def get [Inhabited α] (a : FixedArray n α) (i : ℕ) : α :=
  if h : i < n then a ⟨i, h⟩ else default

/-- Write cell `i`; nothing happens outside the array. -/
def set (a : FixedArray n α) (i : ℕ) (x : α) : FixedArray n α :=
  fun j => if j.val = i then x else a j

/-- Copy the first `k` cells of `src` over those of `dst`. -/
def copy (dst src : FixedArray n α) (k : ℕ) : FixedArray n α :=
  fun j => if j.val < k then src j else dst j

/-- Store the list `l` from cell `0` on; the cells behind it keep their value. -/
def load (dst : FixedArray n α) (l : List α) : FixedArray n α :=
  fun j => (l[j.val]?).getD (dst j)

/-- The first `k` cells. -/
def firstN (a : FixedArray n α) (k : ℕ) : List α := (List.ofFn fun i : Fin n => a i).take k

/-! ## Reading back single cells -/

@[simp] theorem get_set_self [Inhabited α] (a : FixedArray n α) {i : ℕ} (x : α) (h : i < n) :
    (a.set i x).get i = x := by
  simp [get, set, h]

@[simp] theorem get_set_ne [Inhabited α] (a : FixedArray n α) {i j : ℕ} (x : α) (h : j ≠ i) :
    (a.set i x).get j = a.get j := by
  simp [get, set, h]

theorem get_set [Inhabited α] (a : FixedArray n α) (i j : ℕ) (x : α) (h : i < n) :
    (a.set i x).get j = if j = i then x else a.get j := by
  by_cases hij : j = i
  · subst hij; simp [h]
  · simp [hij]

/-- Only the last write to a cell counts. -/
@[simp] theorem set_set (a : FixedArray n α) (i : ℕ) (x y : α) :
    (a.set i x).set i y = a.set i y := by
  funext j
  unfold set
  split <;> rfl

/-- Writing back what a cell holds changes nothing. -/
@[simp] theorem set_get [Inhabited α] (a : FixedArray n α) (i : ℕ) : a.set i (a.get i) = a := by
  funext j
  unfold set get
  split
  case isTrue h =>
    subst h
    simp
  case isFalse => rfl

@[simp] theorem get_replicate [Inhabited α] (i : ℕ) :
    (replicate n (default : α)).get i = default := by
  simp [get, replicate]

@[simp] theorem get_default [Inhabited α] (i : ℕ) :
    (default : FixedArray n α).get i = default := get_replicate i

/-! ## Block copies -/

@[simp] theorem length_firstN (a : FixedArray n α) (k : ℕ) :
    (a.firstN k).length = min k n := by
  simp [firstN]

/-- Arrays with the same first `k` cells agree on each of them. -/
theorem get_eq_of_firstN_eq [Inhabited α] {a b : FixedArray n α} {k i : ℕ}
    (h : a.firstN k = b.firstN k) (hi : i < k) : a.get i = b.get i := by
  unfold get
  split
  case isTrue hin =>
    have hcell : ∀ c : FixedArray n α, (c.firstN k)[i]? = some (c ⟨i, hin⟩) := by
      intro c
      simp [firstN, hi, hin]
    have hsome : some (a ⟨i, hin⟩) = some (b ⟨i, hin⟩) := by rw [← hcell, ← hcell, h]
    exact Option.some_inj.mp hsome
  case isFalse => rfl

/-- A block copy transports exactly the cells it covers. -/
@[simp] theorem firstN_copy (dst src : FixedArray n α) (k : ℕ) :
    (dst.copy src k).firstN k = src.firstN k := by
  apply List.ext_getElem
  · simp
  · intro i h₁ h₂
    have hik : i < k := by
      simp only [length_firstN, lt_min_iff] at h₁
      exact h₁.1
    simp [firstN, copy, hik]

/-- Storing a list that fits and reading as many cells gives the list back. -/
theorem firstN_load (dst : FixedArray n α) (l : List α) (h : l.length ≤ n) :
    (dst.load l).firstN l.length = l := by
  apply List.ext_getElem
  · simp [h]
  · intro i h₁ h₂
    simp [firstN, load, h₂]

/-- Storing the first `k` cells of `src` makes them the first `k` cells. -/
theorem firstN_load_firstN (dst src : FixedArray n α) {k : ℕ} (h : k ≤ n) :
    (dst.load (src.firstN k)).firstN k = src.firstN k := by
  have hlen : (src.firstN k).length = k := by simp [h]
  have := firstN_load dst (src.firstN k) (by omega)
  rwa [hlen] at this

end FixedArray
