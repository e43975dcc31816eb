import Mathlib.Data.List.GetD
import NordicEsb.Lib.BlockStream
import NordicEsb.Lib.FixedArray

/-!
# SHA-256

`sha256.c`, and `nrf_crypto_hash_compute` over it. Bytes are put into a block of 64 one by one, and a
full block is compressed; the end of the message is padded in place.

- `sha256Transform`, `sha256Init`, `sha256Update`, `sha256Final`: the functions of the source.
- `Sha256Spec`: the hash of a whole message. The message is padded to full blocks, and the words of
  the schedule are given by their recurrence.
- `Absorbed`: what a context holds after a message.

**Main result** (`sha256_chunks`): however a message is split into updates, the digest is that of the
whole message, in big or in little endian order.
-/

namespace NordicEsb.Crypto

open BlockStream

/-! ## §1 The block function -/

/-- `ROTRIGHT` -/
def rotRight (a : BitVec 32) (b : ℕ) : BitVec 32 := (a >>> b) ||| (a <<< (32 - b))

/-- `CH`, `MAJ`, `EP0`, `EP1`, `SIG0` and `SIG1` -/
def ch (x y z : BitVec 32) : BitVec 32 := (x &&& y) ^^^ (~~~x &&& z)
def maj (x y z : BitVec 32) : BitVec 32 := (x &&& y) ^^^ (x &&& z) ^^^ (y &&& z)
def ep0 (x : BitVec 32) : BitVec 32 := rotRight x 2 ^^^ rotRight x 13 ^^^ rotRight x 22
def ep1 (x : BitVec 32) : BitVec 32 := rotRight x 6 ^^^ rotRight x 11 ^^^ rotRight x 25
def sig0 (x : BitVec 32) : BitVec 32 := rotRight x 7 ^^^ rotRight x 18 ^^^ (x >>> 3)
def sig1 (x : BitVec 32) : BitVec 32 := rotRight x 17 ^^^ rotRight x 19 ^^^ (x >>> 10)

/-- `k` -/
def k : List (BitVec 32) := [
  0x428a2f98, 0x71374491, 0xb5c0fbcf, 0xe9b5dba5, 0x3956c25b, 0x59f111f1, 0x923f82a4, 0xab1c5ed5,
  0xd807aa98, 0x12835b01, 0x243185be, 0x550c7dc3, 0x72be5d74, 0x80deb1fe, 0x9bdc06a7, 0xc19bf174,
  0xe49b69c1, 0xefbe4786, 0x0fc19dc6, 0x240ca1cc, 0x2de92c6f, 0x4a7484aa, 0x5cb0a9dc, 0x76f988da,
  0x983e5152, 0xa831c66d, 0xb00327c8, 0xbf597fc7, 0xc6e00bf3, 0xd5a79147, 0x06ca6351, 0x14292967,
  0x27b70a85, 0x2e1b2138, 0x4d2c6dfc, 0x53380d13, 0x650a7354, 0x766a0abb, 0x81c2c92e, 0x92722c85,
  0xa2bfe8a1, 0xa81a664b, 0xc24b8b70, 0xc76c51a3, 0xd192e819, 0xd6990624, 0xf40e3585, 0x106aa070,
  0x19a4c116, 0x1e376c08, 0x2748774c, 0x34b0bcb5, 0x391c0cb3, 0x4ed8aa4a, 0x5b9cca4f, 0x682e6ff3,
  0x748f82ee, 0x78a5636f, 0x84c87814, 0x8cc70208, 0x90befffa, 0xa4506ceb, 0xbef9a3f7, 0xc67178f2]

/-- `ctx->state` -/
abbrev HashState := FixedArray 8 (BitVec 32)

/-- The local variables `a` to `h`. -/
structure Working where
  a : BitVec 32
  b : BitVec 32
  c : BitVec 32
  d : BitVec 32
  e : BitVec 32
  f : BitVec 32
  g : BitVec 32
  h : BitVec 32

def Working.ofState (s : HashState) : Working :=
  ⟨s.get 0, s.get 1, s.get 2, s.get 3, s.get 4, s.get 5, s.get 6, s.get 7⟩

/-- `ctx->state[0] += a` and so on. -/
def Working.addTo (v : Working) (s : HashState) : HashState :=
  ((((((((s.set 0 (s.get 0 + v.a)).set 1 (s.get 1 + v.b)).set 2 (s.get 2 + v.c)).set 3
    (s.get 3 + v.d)).set 4 (s.get 4 + v.e)).set 5 (s.get 5 + v.f)).set 6 (s.get 6 + v.g)).set 7
    (s.get 7 + v.h))

/-- The body of the loop over the rounds. -/
def Working.round (v : Working) (ki mi : BitVec 32) : Working :=
  let t1 := v.h + ep1 v.e + ch v.e v.f v.g + ki + mi
  let t2 := ep0 v.a + maj v.a v.b v.c
  { h := v.g, g := v.f, f := v.e, e := v.d + t1, d := v.c, c := v.b, b := v.a, a := t1 + t2 }

/-- `(data[j] << 24) | (data[j + 1] << 16) | (data[j + 2] << 8) | (data[j + 3])` -/
def loadWord (data : FixedArray 64 (BitVec 8)) (j : ℕ) : BitVec 32 :=
  ((data.get j).setWidth 32 <<< 24) ||| ((data.get (j + 1)).setWidth 32 <<< 16) |||
    ((data.get (j + 2)).setWidth 32 <<< 8) ||| (data.get (j + 3)).setWidth 32

/-- `SIG1(m[i - 2]) + m[i - 7] + SIG0(m[i - 15]) + m[i - 16]` -/
def nextWord (m : List (BitVec 32)) (i : ℕ) : BitVec 32 :=
  sig1 (m.getD (i - 2) 0) + m.getD (i - 7) 0 + sig0 (m.getD (i - 15) 0) + m.getD (i - 16) 0

/-- The loops that fill `m`. -/
def messageSchedule (data : FixedArray 64 (BitVec 8)) : List (BitVec 32) :=
  (List.range 48).foldl (fun m i => m ++ [nextWord m (16 + i)])
    ((List.range 16).map fun i => loadWord data (4 * i))

/-- `sha256_transform` -/
def sha256Transform (state : HashState) (data : FixedArray 64 (BitVec 8)) : HashState :=
  let m := messageSchedule data
  let v := (List.range 64).foldl (fun v i => Working.round v (k.getD i 0) (m.getD i 0))
    (.ofState state)
  v.addTo state

/-! ## §2 Contexts -/

/-- `sha256_context_t` -/
structure Sha256Context where
  data : FixedArray 64 (BitVec 8)
  datalen : ℕ
  bitlen : BitVec 64
  state : HashState

/-- The values that `sha256_init` puts into the state. -/
def initialWords : List (BitVec 32) :=
  [0x6a09e667, 0xbb67ae85, 0x3c6ef372, 0xa54ff53a, 0x510e527f, 0x9b05688c, 0x1f83d9ab, 0x5be0cd19]

/-- `sha256_init` -/
def sha256Init (ctx : Sha256Context) : Sha256Context :=
  { ctx with datalen := 0, bitlen := 0, state := ctx.state.load initialWords }

/-- The body of the loop of `sha256_update`. -/
def Sha256Context.put (ctx : Sha256Context) (x : BitVec 8) : Sha256Context :=
  let ctx := { ctx with data := ctx.data.set ctx.datalen x, datalen := ctx.datalen + 1 }
  if ctx.datalen = 64 then
    { ctx with state := sha256Transform ctx.state ctx.data, bitlen := ctx.bitlen + 512, datalen := 0 }
  else ctx

/-- The error codes. -/
inductive CryptoCode where
  | success
  | null
  | notSupported
  | invalidLength
deriving DecidableEq, Repr

/-- `sha256_update`: there is no data for a null pointer and a length that is not 0. -/
def sha256Update (data : Option (List (BitVec 8))) (ctx : Sha256Context) :
    CryptoCode × Sha256Context :=
  match data with
  | none => (.null, ctx)
  | some data => (.success, data.foldl Sha256Context.put ctx)

/-- `while (i < stop) ctx->data[i++] = 0x00;` -/
def fillZeros (data : FixedArray 64 (BitVec 8)) (i stop : ℕ) : FixedArray 64 (BitVec 8) :=
  (List.range (stop - i)).foldl (fun data j => data.set (i + j) 0) data

/-- The padding, with a block of its own for the length if there is no room. -/
def Sha256Context.pad (ctx : Sha256Context) : Sha256Context :=
  let i := ctx.datalen
  let data := ctx.data.set i 0x80
  if ctx.datalen < 56 then { ctx with data := fillZeros data (i + 1) 56 }
  else
    let data := fillZeros data (i + 1) 64
    { ctx with state := sha256Transform ctx.state data, data := fillZeros data 0 56 }

/-- `ctx->data[63] = ctx->bitlen;` and so on up to `ctx->data[56]`. -/
def storeBitlen (data : FixedArray 64 (BitVec 8)) (bitlen : BitVec 64) : FixedArray 64 (BitVec 8) :=
  (List.range 8).foldl (fun data j => data.set (63 - j) ((bitlen >>> (8 * j)).setWidth 8)) data

/-- The bytes of `hash`: `ctx->state[n / 4]` from its most significant byte on, or all of them the
    other way round. -/
def hashBytes (state : HashState) (le : Bool) : List (BitVec 8) :=
  (List.range 32).map fun n =>
    if le then (state.get (7 - n / 4) >>> (n % 4 * 8)).setWidth 8
    else (state.get (n / 4) >>> (24 - n % 4 * 8)).setWidth 8

/-- `sha256_final`: the context and `hash`. -/
def sha256Final (ctx : Sha256Context) (le : Bool) : Sha256Context × List (BitVec 8) :=
  let padded := ctx.pad
  let bitlen := padded.bitlen + BitVec.ofNat 64 (ctx.datalen * 8)
  let data := storeBitlen padded.data bitlen
  let state := sha256Transform padded.state data
  (⟨data, ctx.datalen, bitlen, state⟩, hashBytes state le)

/-- `nrf_crypto_key_t` -/
structure NrfCryptoKey where
  pLeData : List (BitVec 8)
  len : ℕ
deriving DecidableEq

/-- `NRF_CRYPTO_HASH_ALG_SHA256` -/
def nrfCryptoHashAlgSha256 : ℕ := 5

/-- `nrf_crypto_hash_compute`, whose context is not initialised. -/
def nrfCryptoHashCompute (ctx : Sha256Context) (hashAlg : ℕ) (pData : Option (List (BitVec 8)))
    (pHash : NrfCryptoKey) : CryptoCode × NrfCryptoKey :=
  if hashAlg ≠ nrfCryptoHashAlgSha256 then (.notSupported, pHash)
  else if pHash.len ≠ 256 / 2 ^ 3 then (.invalidLength, pHash)
  else
    match sha256Update pData (sha256Init ctx) with
    | (.success, ctx) => (.success, ⟨(sha256Final ctx true).2, 256 / 2 ^ 3⟩)
    | (code, _) => (code, pHash)

/-! ## §3 The hash of a message -/

namespace Sha256Spec

/-- Word `t` of a block, most significant byte first. -/
def messageWord (b : List (BitVec 8)) (t : ℕ) : BitVec 32 :=
  b.getD (4 * t) 0 ++ b.getD (4 * t + 1) 0 ++ b.getD (4 * t + 2) 0 ++ b.getD (4 * t + 3) 0

/-- The words of the schedule, by their recurrence. -/
def scheduleWord (b : List (BitVec 8)) (t : ℕ) : BitVec 32 :=
  if t < 16 then messageWord b t
  else sig1 (scheduleWord b (t - 2)) + scheduleWord b (t - 7) + sig0 (scheduleWord b (t - 15)) +
    scheduleWord b (t - 16)
termination_by t

/-- The variables after `t` rounds. -/
def rounds (s : HashState) (b : List (BitVec 8)) : ℕ → Working
  | 0 => .ofState s
  | t + 1 => (rounds s b t).round (k.getD t 0) (scheduleWord b t)

/-- The state after a block. -/
def compress (s : HashState) (b : List (BitVec 8)) : HashState := (rounds s b 64).addTo s

/-- A number of 64 bits, most significant byte first. -/
def lengthBytes (bits : BitVec 64) : List (BitVec 8) :=
  (List.range 8).map fun j => (bits >>> (8 * (7 - j))).setWidth 8

/-- What is put behind a message: one bit, zeros up to the last 64 bits of a block, and the length in
    bits. -/
def padding (length : ℕ) : List (BitVec 8) :=
  0x80 :: (List.replicate ((119 - length % 64) % 64) 0 ++ lengthBytes (BitVec.ofNat 64 (8 * length)))

/-- The words of the last state, most significant byte first. -/
def digest (s : HashState) : List (BitVec 8) :=
  (s.firstN 8).flatMap fun (w : BitVec 32) =>
    [(w >>> 24).setWidth 8, (w >>> 16).setWidth 8, (w >>> 8).setWidth 8, w.setWidth 8]

/-- The state before the first block. -/
def initialState : HashState := fun i => initialWords.getD i 0

/-- **The hash of a message.** -/
def sha256 (message : List (BitVec 8)) : List (BitVec 8) :=
  digest (foldBlocks 64 compress initialState (message ++ padding message.length))

end Sha256Spec

/-! ## §4 The block function meets the recurrence -/

section Transform

open Sha256Spec

variable {s : HashState} {data : FixedArray 64 (BitVec 8)} {t : ℕ}

theorem getD_firstN {n : ℕ} {α : Type} [Inhabited α] (a : FixedArray n α) {j : ℕ} (hj : j < n)
    (x : α) : (a.firstN n).getD j x = a.get j := by
  have hlen : j < (a.firstN n).length := by
    rw [FixedArray.length_firstN, Nat.min_self]
    exact hj
  rw [List.getD_eq_getElem _ _ hlen]
  simp [FixedArray.firstN, FixedArray.get, hj]

theorem loadWord_eq (ht : t < 16) : loadWord data (4 * t) = messageWord (data.firstN 64) t := by
  unfold loadWord messageWord
  rw [getD_firstN data (by omega), getD_firstN data (by omega), getD_firstN data (by omega),
    getD_firstN data (by omega)]
  generalize data.get (4 * t) = w
  generalize data.get (4 * t + 1) = x
  generalize data.get (4 * t + 2) = y
  generalize data.get (4 * t + 3) = z
  apply BitVec.eq_of_getLsbD_eq
  intro i hi
  simp only [BitVec.getLsbD_or, BitVec.getLsbD_shiftLeft, BitVec.getLsbD_setWidth,
    BitVec.getLsbD_append, Nat.sub_sub]
  -- each byte has its eight places, and nothing above them
  by_cases h8 : i < 8
  · simp [h8, hi, show i < 16 by omega, show i < 24 by omega]
  · have hz : z.getLsbD i = false := BitVec.getLsbD_of_ge z i (by omega)
    by_cases h16 : i < 16
    · simp [h8, h16, hi, hz, show i < 24 by omega, show i - 8 < 8 by omega, show i - 8 < 32 by omega]
    · have hy : y.getLsbD (i - 8) = false := BitVec.getLsbD_of_ge y _ (by omega)
      by_cases h24 : i < 24
      · simp [h8, h16, h24, hi, hz, hy, show ¬ i - 8 < 8 by omega, show i - 16 < 8 by omega,
          show i - 16 < 32 by omega]
      · have hx : x.getLsbD (i - 16) = false := BitVec.getLsbD_of_ge x _ (by omega)
        simp [h8, h16, h24, hi, hz, hy, hx, show ¬ i - 8 < 8 by omega, show ¬ i - 16 < 8 by omega,
          show i - 24 < 32 by omega]

/-- **The schedule** meets its recurrence. -/
theorem getD_messageSchedule (ht : t < 64) :
    (messageSchedule data).getD t 0 = scheduleWord (data.firstN 64) t := by
  obtain ⟨first, hfirst⟩ : ∃ first, first = (List.range 16).map fun i => loadWord data (4 * i) :=
    ⟨_, rfl⟩
  have hpushed : ∀ n ≤ 48,
      (((List.range n).foldl (fun m i => m ++ [nextWord m (16 + i)]) first).length = 16 + n ∧
      ∀ t < 16 + n, ((List.range n).foldl (fun m i => m ++ [nextWord m (16 + i)]) first).getD t 0 =
        scheduleWord (data.firstN 64) t) := by
    intro n
    induction n with
    | zero =>
      intro _
      have hlength : first.length = 16 := by rw [hfirst, List.length_map, List.length_range]
      refine ⟨hlength, fun t ht => ?_⟩
      have hget : first.getD t 0 = loadWord data (4 * t) := by
        rw [List.getD_eq_getElem _ _ (hlength ▸ ht)]
        simp [hfirst]
      rw [List.range_zero, List.foldl_nil, hget, loadWord_eq ht, scheduleWord, if_pos ht]
    | succ n ih =>
      intro hn
      obtain ⟨hlength, hwords⟩ := ih (by omega)
      rw [List.range_succ, List.foldl_append, List.foldl_cons, List.foldl_nil]
      generalize (List.range n).foldl _ first = m at hlength hwords
      refine ⟨by rw [List.length_append, hlength, List.length_singleton, Nat.add_assoc],
        fun t ht => ?_⟩
      by_cases hlast : t = 16 + n
      · subst hlast
        rw [List.getD_append_right _ _ _ _ (by omega), hlength, Nat.sub_self, List.getD_cons_zero,
          scheduleWord, if_neg (by omega), nextWord, hwords _ (by omega), hwords _ (by omega),
          hwords _ (by omega), hwords _ (by omega)]
      · rw [List.getD_append _ _ _ _ (by omega)]
        exact hwords t (by omega)
  unfold messageSchedule
  rw [← hfirst]
  exact (hpushed 48 (le_refl _)).2 t ht

/-- **The block function.** -/
theorem sha256Transform_eq (s : HashState) (data : FixedArray 64 (BitVec 8)) :
    sha256Transform s data = compress s (data.firstN 64) := by
  have hrounds : ∀ n ≤ 64, (List.range n).foldl
      (fun v i => Working.round v (k.getD i 0) ((messageSchedule data).getD i 0)) (.ofState s) =
        rounds s (data.firstN 64) n := by
    intro n
    induction n with
    | zero => exact fun _ => rfl
    | succ n ih =>
      intro hn
      rw [List.range_succ, List.foldl_append, ih (by omega), List.foldl_cons, List.foldl_nil,
        getD_messageSchedule (by omega), rounds]
  unfold sha256Transform compress
  rw [← hrounds 64 (le_refl _)]

end Transform

/-! ## §5 Updates -/

section Context

open Sha256Spec

variable {ctx : Sha256Context} {data : FixedArray 64 (BitVec 8)} {message : List (BitVec 8)}

/-- The items of a block that follow the first `n` of them. -/
theorem firstN_set (data : FixedArray 64 (BitVec 8)) {n : ℕ} (hn : n < 64) (x : BitVec 8) :
    (data.set n x).firstN (n + 1) = data.firstN n ++ [x] := by
  apply List.ext_getElem
  · simp only [FixedArray.length_firstN, List.length_append, List.length_singleton]
    omega
  · intro i hi hi'
    rw [FixedArray.length_firstN] at hi
    simp only [FixedArray.firstN, List.getElem_take, List.getElem_ofFn, List.getElem_append,
      List.length_take, List.length_ofFn]
    by_cases hlast : i = n
    · simp [FixedArray.set, hlast]
    · have hlt : i < n := by omega
      simp [FixedArray.set, hlast, hlt, show i < 64 by omega]

/-- **What a context holds after a message**: the state of its blocks, the rest of it, and the length
    of its blocks in bits. -/
structure Absorbed (ctx : Sha256Context) (message : List (BitVec 8)) : Prop where
  datalen : ctx.datalen = message.length % 64
  buffer : ctx.data.firstN ctx.datalen = message.drop (message.length / 64 * 64)
  bitlen : ctx.bitlen = BitVec.ofNat 64 (512 * (message.length / 64))
  state : ctx.state = foldBlocks 64 compress initialState message

theorem absorbed_sha256Init (ctx : Sha256Context) : Absorbed (sha256Init ctx) [] := by
  refine ⟨rfl, rfl, rfl, ?_⟩
  funext i
  have hlt : i.val < initialWords.length := i.isLt
  show (initialWords[i.val]?).getD (ctx.state i) = initialWords.getD i.val 0
  rw [List.getElem?_eq_getElem hlt, List.getD_eq_getElem _ _ hlt]
  rfl

/-- **One byte.** -/
theorem Absorbed.put (h : Absorbed ctx message) (x : BitVec 8) :
    Absorbed (ctx.put x) (message ++ [x]) := by
  obtain ⟨hdatalen, hbuffer, hbitlen, hstate⟩ := h
  have hlt : ctx.datalen < 64 := hdatalen ▸ Nat.mod_lt _ (by decide)
  have hfirst := firstN_set ctx.data hlt x
  rw [hbuffer] at hfirst
  have hlength : (message ++ [x]).length = message.length + 1 := by simp
  have hrest : message.length / 64 * 64 ≤ message.length := Nat.div_mul_le_self _ _
  unfold Sha256Context.put
  dsimp only
  by_cases hfull : ctx.datalen + 1 = 64
  · have hdvd : 64 ∣ message.length + 1 := by omega
    rw [if_pos hfull]
    refine ⟨?_, ?_, ?_, ?_⟩
    · show 0 = _
      omega
    · show [] = _
      rw [hlength, Nat.div_mul_cancel hdvd, ← hlength, List.drop_length]
    · show ctx.bitlen + 512 = _
      rw [hbitlen, hlength, show (message.length + 1) / 64 = message.length / 64 + 1 by omega,
        Nat.mul_add, BitVec.ofNat_add]
      rfl
    · show sha256Transform ctx.state (ctx.data.set ctx.datalen x) = _
      rw [hfull] at hfirst
      rw [sha256Transform_eq, hfirst, hstate, foldBlocks_concat_of_dvd (by decide) hdvd]
  · have hndvd : ¬ 64 ∣ message.length + 1 := by omega
    have hquotient : (message.length + 1) / 64 = message.length / 64 := by omega
    rw [if_neg hfull]
    refine ⟨?_, ?_, ?_, ?_⟩
    · show ctx.datalen + 1 = _
      omega
    · show (ctx.data.set ctx.datalen x).firstN (ctx.datalen + 1) = _
      rw [hfirst, hlength, hquotient, List.drop_append_of_le_length hrest]
    · show ctx.bitlen = _
      rw [hbitlen, hlength, hquotient]
    · show ctx.state = _
      rw [hstate, foldBlocks_concat_of_not_dvd hndvd]

/-- **An update.** -/
theorem Absorbed.update (h : Absorbed ctx message) (data : List (BitVec 8)) :
    Absorbed (sha256Update (some data) ctx).2 (message ++ data) := by
  show Absorbed (data.foldl Sha256Context.put ctx) _
  induction data generalizing ctx message with
  | nil => simpa using h
  | cons x data ih =>
    have hrest := ih (h.put x)
    rwa [List.append_assoc, List.singleton_append] at hrest

/-- **Several updates.** -/
theorem Absorbed.updates (h : Absorbed ctx message) (chunks : List (List (BitVec 8))) :
    Absorbed (chunks.foldl (fun ctx data => (sha256Update (some data) ctx).2) ctx)
      (message ++ chunks.flatten) := by
  induction chunks generalizing ctx message with
  | nil => simpa using h
  | cons data chunks ih =>
    have hrest := ih (h.update data)
    rwa [List.append_assoc] at hrest

/-! ## §6 The end of the message -/

/-- Zeros behind the first bytes. -/
theorem firstN_fillZeros (data : FixedArray 64 (BitVec 8)) {i stop : ℕ} (hi : i ≤ stop)
    (hstop : stop ≤ 64) :
    (fillZeros data i stop).firstN stop = data.firstN i ++ List.replicate (stop - i) 0 := by
  have hzeros : ∀ n, i + n ≤ 64 →
      ((List.range n).foldl (fun data j => data.set (i + j) 0) data).firstN (i + n) =
        data.firstN i ++ List.replicate n 0 := by
    intro n
    induction n with
    | zero => simp
    | succ n ih =>
      intro hn
      rw [List.range_succ, List.foldl_append, List.foldl_cons, List.foldl_nil, ← Nat.add_assoc,
        firstN_set _ (by omega), ih (by omega), List.replicate_succ', List.append_assoc]
  have hend := hzeros (stop - i) (by omega)
  rw [Nat.add_sub_cancel' hi] at hend
  exact hend

/-- The length at the end of a block. -/
theorem firstN_storeBitlen (data : FixedArray 64 (BitVec 8)) (bitlen : BitVec 64) :
    (storeBitlen data bitlen).firstN 64 = data.firstN 56 ++ lengthBytes bitlen := by
  -- the bytes are stored from the last one on
  have hstored : ∀ n ≤ 8, ∀ i : Fin 64,
      ((List.range n).foldl (fun data j => data.set (63 - j) ((bitlen >>> (8 * j)).setWidth 8))
        data) i = if 64 ≤ i.val + n then (bitlen >>> (8 * (63 - i.val))).setWidth 8 else data i := by
    intro n
    induction n with
    | zero =>
      intro _ i
      have hlt := i.isLt
      rw [if_neg (by omega)]
      rfl
    | succ n ih =>
      intro hn i
      have hlt := i.isLt
      rw [List.range_succ, List.foldl_append, List.foldl_cons, List.foldl_nil]
      show (if i.val = 63 - n then _ else _) = _
      rw [ih (by omega)]
      by_cases hlast : i.val = 63 - n
      · have hplace : 63 - i.val = n := by omega
        rw [if_pos hlast, if_pos (by omega), hplace]
      · rw [if_neg hlast]
        by_cases hbefore : 64 ≤ i.val + n
        · rw [if_pos hbefore, if_pos (by omega)]
        · rw [if_neg hbefore, if_neg (by omega)]
  apply List.ext_getElem
  · simp only [FixedArray.length_firstN, List.length_append, lengthBytes, List.length_map,
      List.length_range]
    omega
  · intro i hi hi'
    rw [FixedArray.length_firstN] at hi
    have hcell := hstored 8 (le_refl _) ⟨i, by omega⟩
    simp only [FixedArray.firstN, List.getElem_take, List.getElem_ofFn, List.getElem_append,
      List.length_take, List.length_ofFn, lengthBytes, List.getElem_map, List.getElem_range]
    refine Eq.trans hcell ?_
    by_cases hlast : 64 ≤ i + 8
    · rw [if_pos hlast, dif_neg (by omega)]
      show (bitlen >>> (8 * (63 - i))).setWidth 8 = _
      rw [show 63 - i = 7 - (i - min 56 64) by omega]
    · rw [if_neg hlast, dif_pos (by omega)]

theorem length_lengthBytes (bits : BitVec 64) : (lengthBytes bits).length = 8 := by
  simp [lengthBytes]

theorem padding_eq (length : ℕ) : padding length = 0x80 ::
    (List.replicate ((119 - length % 64) % 64) 0 ++ lengthBytes (BitVec.ofNat 64 (8 * length))) :=
  rfl

/-- **The padded message** ends with a full block, and `sha256_final` has compressed all of it. -/
theorem Absorbed.final (h : Absorbed ctx message) (le : Bool) :
    (sha256Final ctx le).1.state =
      foldBlocks 64 compress initialState (message ++ padding message.length) := by
  obtain ⟨hdatalen, hbuffer, hbitlen, hstate⟩ := h
  have hlt : ctx.datalen < 64 := hdatalen ▸ Nat.mod_lt _ (by decide)
  have hbits : ctx.bitlen + BitVec.ofNat 64 (ctx.datalen * 8) =
      BitVec.ofNat 64 (8 * message.length) := by
    rw [hbitlen, ← BitVec.ofNat_add]
    congr 1
    omega
  obtain ⟨b, hb⟩ : ∃ b, b = message.drop (message.length / 64 * 64) := ⟨_, rfl⟩
  have hblength : b.length = ctx.datalen := by
    rw [hb, List.length_drop]
    omega
  have hfirst := firstN_set ctx.data hlt 0x80
  rw [hbuffer, ← hb] at hfirst
  -- the padding comes byte by byte after the message
  have hall : foldBlocks 64 compress initialState (message ++ padding message.length) =
      ((padding message.length).foldl (feed 64 compress) ⟨ctx.state, b⟩).state := by
    have hfeed : (message ++ padding message.length).foldl (feed 64 compress) ⟨initialState, []⟩ = _ :=
      feed_all (by decide) _
    rw [List.foldl_append, feed_all (by decide) message, ← hstate, ← hb] at hfeed
    rw [hfeed]
  have hbitlen' : ctx.pad.bitlen = ctx.bitlen := by
    unfold Sha256Context.pad
    split
    · rfl
    · rfl
  have hlast : (sha256Final ctx le).1.state =
      compress ctx.pad.state (ctx.pad.data.firstN 56 ++
        lengthBytes (BitVec.ofNat 64 (8 * message.length))) := by
    show sha256Transform ctx.pad.state (storeBitlen ctx.pad.data (ctx.pad.bitlen + _)) = _
    rw [sha256Transform_eq, firstN_storeBitlen, hbitlen', hbits]
  rw [hlast, hall, padding_eq]
  by_cases hroom : ctx.datalen < 56
  · have hpad : ctx.pad =
        { ctx with data := fillZeros (ctx.data.set ctx.datalen 0x80) (ctx.datalen + 1) 56 } :=
      if_pos hroom
    have hzeros : (119 - message.length % 64) % 64 = 56 - (ctx.datalen + 1) := by omega
    rw [hpad, hzeros, feed_block]
    · show compress ctx.state ((fillZeros _ _ _).firstN 56 ++ _) = _
      rw [firstN_fillZeros _ (by omega) (by decide), hfirst]
      simp
    · simp only [List.length_cons, List.length_append, List.length_replicate, length_lengthBytes]
      omega
    · exact List.cons_ne_nil _ _
  · have hpad : ctx.pad =
        { ctx with
          state := sha256Transform ctx.state
            (fillZeros (ctx.data.set ctx.datalen 0x80) (ctx.datalen + 1) 64)
          data := fillZeros (fillZeros (ctx.data.set ctx.datalen 0x80) (ctx.datalen + 1) 64) 0 56 } :=
      if_neg hroom
    have hzeros : (119 - message.length % 64) % 64 = (64 - (ctx.datalen + 1)) + 56 := by omega
    have hsplit : ∀ rest : List (BitVec 8), 0x80 ::
        (List.replicate ((64 - (ctx.datalen + 1)) + 56) 0 ++ rest) =
        (0x80 :: List.replicate (64 - (ctx.datalen + 1)) 0) ++ (List.replicate 56 0 ++ rest) := by
      intro rest
      rw [List.replicate_add, List.cons_append, List.append_assoc]
    have hblock : (0x80 :: List.replicate (64 - (ctx.datalen + 1)) 0).foldl (feed 64 compress)
        ⟨ctx.state, b⟩ =
          ⟨compress ctx.state (b ++ 0x80 :: List.replicate (64 - (ctx.datalen + 1)) 0), []⟩ := by
      apply feed_block
      · simp only [List.length_cons, List.length_replicate]
        omega
      · exact List.cons_ne_nil _ _
    rw [hpad, hzeros, hsplit, List.foldl_append, hblock, feed_block]
    · show compress (sha256Transform _ _) ((fillZeros _ 0 56).firstN 56 ++ _) = _
      rw [sha256Transform_eq, firstN_fillZeros _ (by omega) (by decide), hfirst,
        firstN_fillZeros _ (by decide) (by decide)]
      simp [FixedArray.firstN]
    · simp only [List.length_nil, List.length_append, List.length_replicate, length_lengthBytes]
    · simp

/-- The digest of a state, in both orders. -/
theorem hashBytes_eq (s : HashState) :
    hashBytes s false = digest s ∧ hashBytes s true = (digest s).reverse := by
  have hwords : s.firstN 8 =
      [s.get 0, s.get 1, s.get 2, s.get 3, s.get 4, s.get 5, s.get 6, s.get 7] := rfl
  have hplaces : List.range 32 = [0, 1, 2, 3, 4, 5, 6, 7, 8, 9, 10, 11, 12, 13, 14, 15, 16, 17, 18,
    19, 20, 21, 22, 23, 24, 25, 26, 27, 28, 29, 30, 31] := rfl
  unfold hashBytes digest
  rw [hwords, hplaces]
  constructor
  · simp
  · simp

/-- **However a message is split into updates**, the digest is that of the whole message, and with
    `le` that digest the other way round. -/
theorem sha256_chunks (ctx : Sha256Context) (chunks : List (List (BitVec 8))) :
    (sha256Final (chunks.foldl (fun ctx data => (sha256Update (some data) ctx).2)
      (sha256Init ctx)) false).2 = sha256 chunks.flatten ∧
    (sha256Final (chunks.foldl (fun ctx data => (sha256Update (some data) ctx).2)
      (sha256Init ctx)) true).2 = (sha256 chunks.flatten).reverse := by
  -- The context has absorbed the chunks as if they were one.
  have habsorbed := (absorbed_sha256Init ctx).updates chunks
  rw [List.nil_append] at habsorbed
  have hbytes : ∀ le, (sha256Final (chunks.foldl
      (fun ctx data => (sha256Update (some data) ctx).2) (sha256Init ctx)) le).2 =
        hashBytes (foldBlocks 64 compress initialState
          (chunks.flatten ++ padding chunks.flatten.length)) le := by
    intro le
    rw [← habsorbed.final le]
    rfl
  rw [hbytes, hbytes]
  exact hashBytes_eq _

/-- **`nrf_crypto_hash_compute`** gives the hash in little endian order, and leaves the key alone where
    it fails. -/
theorem nrfCryptoHashCompute_eq (ctx : Sha256Context) (hashAlg : ℕ)
    (pData : Option (List (BitVec 8))) (pHash : NrfCryptoKey) :
    (∀ data, hashAlg = nrfCryptoHashAlgSha256 → pHash.len = 32 → pData = some data →
      nrfCryptoHashCompute ctx hashAlg pData pHash = (.success, ⟨(sha256 data).reverse, 32⟩)) ∧
    ((nrfCryptoHashCompute ctx hashAlg pData pHash).1 ≠ .success →
      (nrfCryptoHashCompute ctx hashAlg pData pHash).2 = pHash) := by
  constructor
  · rintro data rfl hlen rfl
    have hhash := (sha256_chunks ctx [data]).2
    rw [List.flatten_singleton, List.foldl_cons, List.foldl_nil] at hhash
    have hlen' : ¬ pHash.len ≠ 256 / 2 ^ 3 := fun hne => hne hlen
    unfold nrfCryptoHashCompute
    rw [if_neg (not_not.mpr rfl), if_neg hlen']
    show (_, NrfCryptoKey.mk (sha256Final (sha256Update (some data) (sha256Init ctx)).2 true).2 _) = _
    rw [hhash]
    rfl
  · intro hfails
    unfold nrfCryptoHashCompute at hfails ⊢
    split
    · rfl
    · split
      · rfl
      · cases pData with
        | none => rfl
        | some data =>
          rename_i halg hlen
          rw [if_neg halg, if_neg hlen] at hfails
          exact absurd rfl hfails

/-- The message `abc`, in two updates. -/
example : (sha256Final (sha256Update (some [0x63]) (sha256Update (some [0x61, 0x62])
    (sha256Init ⟨default, 0, 0, default⟩)).2).2 false).2 =
      [0xba, 0x78, 0x16, 0xbf, 0x8f, 0x01, 0xcf, 0xea, 0x41, 0x41, 0x40, 0xde, 0x5d, 0xae, 0x22, 0x23,
        0xb0, 0x03, 0x61, 0xa3, 0x96, 0x17, 0x7a, 0x9c, 0xb4, 0x10, 0xff, 0x61, 0xf2, 0x00, 0x15,
        0xad] := by
  decide +kernel

end Context

end NordicEsb.Crypto
