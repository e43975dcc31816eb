import Mathlib.Algebra.Order.Group.Nat
import Mathlib.Data.List.Basic
import Mathlib.Data.List.Induction
import Mathlib.Tactic.Ring

/-!
# Streams of Blocks

A function that takes blocks of `n` items is applied to a stream of items, which come one by one and
are kept until there is a full block.

- `foldBlocks`: the function applied to the blocks of a list, one after the other
- `feed`: one item comes

**Main results**: `feed_all`, that feeding a list item by item applies the function to the blocks of
the list and keeps the rest, and `feed_block`, for the items that fill a block.
-/

namespace BlockStream

variable {α σ : Type*}

/-- Block `i` of a list. -/
def block (n : ℕ) (l : List α) (i : ℕ) : List α := (l.drop (i * n)).take n

/-- The full blocks of a list, one after the other. -/
def foldBlocks (n : ℕ) (compress : σ → List α → σ) (s : σ) (l : List α) : σ :=
  (List.range (l.length / n)).foldl (fun s i => compress s (block n l i)) s

/-- What is kept: the state, and the items of the block that is not full. -/
structure Buffered (σ α : Type*) where
  state : σ
  buffer : List α

/-- One item comes. -/
def feed (n : ℕ) (compress : σ → List α → σ) (b : Buffered σ α) (x : α) : Buffered σ α :=
  if b.buffer.length + 1 = n then ⟨compress b.state (b.buffer ++ [x]), []⟩
  else ⟨b.state, b.buffer ++ [x]⟩

variable {n : ℕ} {compress : σ → List α → σ} {s : σ}

theorem feed_full {b : List α} (x : α) (h : b.length + 1 = n) :
    feed n compress ⟨s, b⟩ x = ⟨compress s (b ++ [x]), []⟩ := if_pos h

theorem feed_more {b : List α} (x : α) (h : b.length + 1 ≠ n) :
    feed n compress ⟨s, b⟩ x = ⟨s, b ++ [x]⟩ := if_neg h

/-! ## §1 Full blocks -/

/-- An item at the end is in none of the blocks that were full. -/
theorem block_concat {l : List α} {i : ℕ} (x : α) (h : i < l.length / n) :
    block n (l ++ [x]) i = block n l i := by
  have hle : (i + 1) * n ≤ l.length := (Nat.mul_le_mul_right n h).trans (Nat.div_mul_le_self _ _)
  have hsplit : (i + 1) * n = i * n + n := by ring
  unfold block
  rw [List.drop_append_of_le_length (by omega),
    List.take_append_of_le_length (by rw [List.length_drop]; omega)]

theorem foldBlocks_concat_of_not_dvd {l : List α} {x : α} (h : ¬ n ∣ l.length + 1) :
    foldBlocks n compress s (l ++ [x]) = foldBlocks n compress s l := by
  unfold foldBlocks
  rw [List.length_append, List.length_singleton, Nat.succ_div_of_not_dvd h]
  apply List.foldl_ext
  intro s i hi
  rw [block_concat x (List.mem_range.mp hi)]

/-- **The item that fills a block.** -/
theorem foldBlocks_concat_of_dvd {l : List α} {x : α} (hn : 0 < n) (h : n ∣ l.length + 1) :
    foldBlocks n compress s (l ++ [x]) =
      compress (foldBlocks n compress s l) (l.drop (l.length / n * n) ++ [x]) := by
  have hquotient : (l.length + 1) / n = l.length / n + 1 := Nat.succ_div_of_dvd h
  have hlast : block n (l ++ [x]) (l.length / n) = l.drop (l.length / n * n) ++ [x] := by
    have hlen : l.length + 1 = (l.length / n + 1) * n := by
      rw [← hquotient, Nat.div_mul_cancel h]
    have hsplit : (l.length / n + 1) * n = l.length / n * n + n := by ring
    unfold block
    rw [List.drop_append_of_le_length (Nat.div_mul_le_self _ _), List.take_of_length_le]
    rw [List.length_append, List.length_drop, List.length_singleton]
    omega
  unfold foldBlocks
  rw [List.length_append, List.length_singleton, hquotient, List.range_succ, List.foldl_append,
    List.foldl_cons, List.foldl_nil, hlast]
  congr 1
  apply List.foldl_ext
  intro s i hi
  rw [block_concat x (List.mem_range.mp hi)]

/-! ## §2 Items that come one by one -/

/-- **Feeding a list** applies the function to its blocks and keeps the rest. -/
theorem feed_all (hn : 0 < n) (l : List α) : l.foldl (feed n compress) ⟨s, []⟩ =
    ⟨foldBlocks n compress s l, l.drop (l.length / n * n)⟩ := by
  induction l using List.reverseRecOn with
  | nil => simp [foldBlocks]
  | append_singleton l x ih =>
    have hmod := Nat.div_add_mod' l.length n
    have hlt := Nat.mod_lt l.length hn
    have hbuffer : (l.drop (l.length / n * n)).length = l.length - l.length / n * n :=
      List.length_drop
    rw [List.foldl_append, ih, List.foldl_cons, List.foldl_nil, List.length_append,
      List.length_singleton]
    by_cases h : n ∣ l.length + 1
    · have hfull : (l.drop (l.length / n * n)).length + 1 = n := by
        have hrest : n ∣ l.length % n + 1 := by
          rw [← hmod, Nat.add_assoc] at h
          exact (Nat.dvd_add_right (Nat.dvd_mul_left n _)).mp h
        have hle := Nat.le_of_dvd (Nat.succ_pos _) hrest
        omega
      rw [feed_full x hfull, foldBlocks_concat_of_dvd hn h, Nat.div_mul_cancel h]
      simp
    · have hmore : (l.drop (l.length / n * n)).length + 1 ≠ n := by
        intro hfull
        apply h
        rw [show l.length + 1 = l.length / n * n + n by omega]
        exact Nat.dvd_add (Nat.dvd_mul_left n _) (Nat.dvd_refl n)
      rw [feed_more x hmore, foldBlocks_concat_of_not_dvd h, Nat.succ_div_of_not_dvd h,
        List.drop_append_of_le_length (Nat.div_mul_le_self _ _)]

/-- The items do not fill the block. -/
theorem feed_short {b l : List α} (h : b.length + l.length < n) :
    l.foldl (feed n compress) ⟨s, b⟩ = ⟨s, b ++ l⟩ := by
  induction l generalizing b with
  | nil => simp
  | cons x l ih =>
    rw [List.length_cons] at h
    rw [List.foldl_cons, feed_more x (by omega), ih]
    · simp
    · rw [List.length_append, List.length_singleton]
      omega

/-- **The items that fill a block.** -/
theorem feed_block {b l : List α} (h : b.length + l.length = n) (hl : l ≠ []) :
    l.foldl (feed n compress) ⟨s, b⟩ = ⟨compress s (b ++ l), []⟩ := by
  obtain ⟨front, x, rfl⟩ := (List.eq_nil_or_concat' l).resolve_left hl
  rw [List.length_append, List.length_singleton] at h
  have hlast : (b ++ front).length + 1 = n := by
    rw [List.length_append]
    omega
  have hfront : front.foldl (feed n compress) ⟨s, b⟩ = ⟨s, b ++ front⟩ := feed_short (by omega)
  rw [List.foldl_append, hfront, List.foldl_cons, List.foldl_nil, feed_full x hlast,
    List.append_assoc]

end BlockStream
