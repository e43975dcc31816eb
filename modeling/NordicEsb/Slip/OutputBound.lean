import NordicEsb.Slip.Codec

/-!
# Output Bound of the SLIP Encoder

`slip_encode` compares `output_index` with `output_buffer_length` once for each byte of the input.
A byte may take two cells, and the two end bytes are written without a comparison: the last cells
are behind the buffer as soon as the packet does not fit, and what is left out of the packet is
not missed, as the end bytes follow.

- `OutputBound` is what is asked of the encoder
- `slipEncode_get_of_fits` and `slipEncode_get_ne` are the two sides of the bound

**Main result** (`outputBound_iff`): the encoder keeps to the bound if and only if the packet fits.
-/

namespace NordicEsb.SlipCodec

/-- **The output is bounded**: no cell from `output_buffer_length` on is written, and no packet is
    completed that is only the begin of the input. -/
structure OutputBound (input : List (BitVec 8)) (outputBufferLength : BitVec 32) : Prop where
  bounded : ∀ (m : ℕ) (pOutput : FixedArray m (BitVec 8)) (i : ℕ), outputBufferLength.toNat ≤ i →
    (slipEncode pOutput input outputBufferLength).2.get i = pOutput.get i
  complete : ∀ (m : ℕ) (pOutput : FixedArray m (BitVec 8)) (packet : List (BitVec 8)),
    outputBufferLength.toNat ≤ m → packet <+: input → packet ≠ input →
    encoded pOutput input outputBufferLength ≠ slipBytes packet

variable {m : ℕ} {outputBufferLength : BitVec 32}

/-! ## §1 A packet that fits -/

/-- A byte that is put leaves the cells behind it. -/
theorem Output.put_get {out : Output m} (c : BitVec 8) {i : ℕ}
    (hi : out.outputIndex.toNat < i) :
    (out.put c).pOutput.get i = out.pOutput.get i := by
  unfold Output.put
  apply FixedArray.get_set_ne
  omega

theorem Output.put_outputIndex {out : Output m} (c : BitVec 8)
    (hlt : out.outputIndex.toNat + 1 < 2 ^ 32) :
    (out.put c).outputIndex.toNat = out.outputIndex.toNat + 1 := by
  have hone : (1 : BitVec 32).toNat = 1 := rfl
  unfold Output.put
  rw [BitVec.toNat_add, hone]
  exact Nat.mod_eq_of_lt hlt

/-- What the loop does with a byte. -/
def Output.putEscaped (out : Output m) (c : BitVec 8) : Output m :=
  if c = slipEnd then (out.put slipEnd).put slipEscEnd
  else if c = slipEsc then (out.put slipEsc).put slipEscEsc
  else out.put c

theorem slipEncodeLoop_cons (c : BitVec 8) (input : List (BitVec 8)) {out : Output m}
    (hroom : out.outputIndex < outputBufferLength) :
    slipEncodeLoop outputBufferLength (c :: input) out =
      slipEncodeLoop outputBufferLength input (out.putEscaped c) := by
  rw [slipEncodeLoop, if_pos hroom]
  rfl

/-- A byte is one byte in the packet, or two. -/
theorem Output.putEscaped_cases (out : Output m) (c : BitVec 8) :
    (escape c).length = 1 ∧ out.putEscaped c = out.put c ∨
    ∃ first second, second ≠ 0 ∧ (escape c).length = 2 ∧
      out.putEscaped c = (out.put first).put second := by
  unfold Output.putEscaped escape
  split_ifs with hend hesc
  · exact .inr ⟨slipEnd, slipEscEnd, by decide, rfl, rfl⟩
  · exact .inr ⟨slipEsc, slipEscEsc, by decide, rfl, rfl⟩
  · exact .inl ⟨rfl, rfl⟩

/-- **A byte that fits** goes into the next cells, and into no other ones. -/
theorem Output.putEscaped_fits {out : Output m} (c : BitVec 8)
    (hlt : out.outputIndex.toNat + (escape c).length < 2 ^ 32) :
    (out.putEscaped c).outputIndex.toNat = out.outputIndex.toNat + (escape c).length ∧
    ∀ i, out.outputIndex.toNat + (escape c).length ≤ i →
      (out.putEscaped c).pOutput.get i = out.pOutput.get i := by
  rcases out.putEscaped_cases c with ⟨hlen, hput⟩ | ⟨first, second, -, hlen, hput⟩
  · rw [hlen] at hlt ⊢
    rw [hput]
    refine ⟨out.put_outputIndex c hlt, ?_⟩
    intro i hi
    exact out.put_get c hi
  · rw [hlen] at hlt ⊢
    rw [hput]
    have hfirst := out.put_outputIndex first (by omega)
    have hsecond := (out.put first).put_outputIndex second (by omega)
    refine ⟨by omega, ?_⟩
    intro i hi
    rw [(out.put first).put_get second (by omega), out.put_get first (by omega)]

/-- **The loop** writes the packet into the next cells, if the end bytes fit as well. -/
theorem slipEncodeLoop_fits (input : List (BitVec 8)) (out : Output m)
    (hfits : out.outputIndex.toNat + (slipBytes input).length ≤ outputBufferLength.toNat) :
    (slipEncodeLoop outputBufferLength input out).outputIndex.toNat + 2 =
      out.outputIndex.toNat + (slipBytes input).length ∧
    ∀ i, outputBufferLength.toNat ≤ i →
      (slipEncodeLoop outputBufferLength input out).pOutput.get i = out.pOutput.get i := by
  have hlt := outputBufferLength.isLt
  -- On the bytes of the packet, for every place the loop may stand at.
  induction input generalizing out with
  | nil => exact ⟨rfl, fun _ _ => rfl⟩
  | cons c input ih =>
    rw [length_slipBytes_cons] at hfits ⊢
    have hends := two_le_length_slipBytes input
    have hroom : out.outputIndex < outputBufferLength := by
      rw [BitVec.lt_def]
      omega
    obtain ⟨hindex, hcells⟩ := out.putEscaped_fits c (by omega)
    have hrest : (out.putEscaped c).outputIndex.toNat + (slipBytes input).length ≤
        outputBufferLength.toNat := by
      omega
    obtain ⟨hindex', hcells'⟩ := ih (out.putEscaped c) hrest
    rw [slipEncodeLoop_cons c input hroom]
    refine ⟨by omega, ?_⟩
    intro i hi
    rw [hcells' i hi]
    exact hcells i (by omega)

/-- **A packet that fits** leaves the cells behind the buffer. -/
theorem slipEncode_get_of_fits {input : List (BitVec 8)} (pOutput : FixedArray m (BitVec 8))
    (hfits : (slipBytes input).length ≤ outputBufferLength.toNat) {i : ℕ}
    (hi : outputBufferLength.toNat ≤ i) :
    (slipEncode pOutput input outputBufferLength).2.get i = pOutput.get i := by
  have hlt := outputBufferLength.isLt
  have hzero : (0 : BitVec 32).toNat = 0 := rfl
  obtain ⟨hindex, hcells⟩ := slipEncodeLoop_fits input ⟨pOutput, 0⟩
    (by simpa using hfits)
  dsimp only at hindex hcells
  unfold slipEncode
  dsimp only
  obtain ⟨out, hout⟩ : ∃ out, out = slipEncodeLoop outputBufferLength input ⟨pOutput, 0⟩ :=
    ⟨_, rfl⟩
  rw [← hout] at hindex hcells ⊢
  have hput := out.put_outputIndex slipEnd (by omega)
  rw [(out.put slipEnd).put_get slipEnd (by omega), out.put_get slipEnd (by omega)]
  exact hcells i hi

/-! ## §2 A packet that does not fit -/

/-- A cell that is not zero stays so, as no byte but a byte of the packet is zero. -/
theorem Output.put_get_ne {out : Output m} {c : BitVec 8} {k : ℕ} (hk : k < m)
    (hcell : out.pOutput.get k ≠ 0) (hc : c ≠ 0 ∨ out.outputIndex.toNat ≠ k) :
    (out.put c).pOutput.get k ≠ 0 := by
  unfold Output.put
  by_cases hat : k = out.outputIndex.toNat
  · rw [hat, FixedArray.get_set_self _ _ (by omega)]
    exact hc.resolve_right fun hne => hne hat.symm
  · rw [FixedArray.get_set_ne _ _ hat]
    exact hcell

theorem Output.put_get_self {out : Output m} {c : BitVec 8} {k : ℕ} (hk : k < m) (hc : c ≠ 0)
    (hat : out.outputIndex.toNat = k) : (out.put c).pOutput.get k ≠ 0 := by
  unfold Output.put
  rw [hat, FixedArray.get_set_self _ _ hk]
  exact hc

theorem slipEnd_ne_zero : slipEnd ≠ 0 := by decide

/-- The first byte is compared with the bound, and the second one is not zero. -/
theorem Output.putEscaped_get_ne {out : Output m} (c : BitVec 8) {k : ℕ} (hk : k < m)
    (hroom : out.outputIndex.toNat < k) (hcell : out.pOutput.get k ≠ 0) :
    (out.putEscaped c).pOutput.get k ≠ 0 := by
  rcases out.putEscaped_cases c with ⟨-, hput⟩ | ⟨first, second, hsecond, -, hput⟩
  · rw [hput]
    exact put_get_ne hk hcell (.inr hroom.ne)
  · rw [hput]
    exact put_get_ne hk (put_get_ne hk hcell (.inr hroom.ne)) (.inl hsecond)

theorem slipEncodeLoop_get_ne (hm : outputBufferLength.toNat < m) (input : List (BitVec 8))
    {out : Output m} (hcell : out.pOutput.get outputBufferLength.toNat ≠ 0) :
    (slipEncodeLoop outputBufferLength input out).pOutput.get outputBufferLength.toNat ≠ 0 := by
  induction input generalizing out with
  | nil => exact hcell
  | cons c input ih =>
    by_cases hroom : out.outputIndex < outputBufferLength
    · rw [slipEncodeLoop_cons c input hroom]
      apply ih
      exact out.putEscaped_get_ne c hm (BitVec.lt_def.mp hroom) hcell
    · unfold slipEncodeLoop
      rw [if_neg hroom]
      exact hcell

/-- **The cell behind the buffer** is written: by the second half of a byte, or by an end byte. -/
theorem slipEncodeLoop_overrun (hm : outputBufferLength.toNat < m) (input : List (BitVec 8))
    (out : Output m) (hindex : out.outputIndex.toNat ≤ outputBufferLength.toNat)
    (hover : outputBufferLength.toNat < out.outputIndex.toNat + (slipBytes input).length) :
    (((slipEncodeLoop outputBufferLength input out).put slipEnd).put slipEnd).pOutput.get
      outputBufferLength.toNat ≠ 0 := by
  have hlt := outputBufferLength.isLt
  -- The loop is over when the cell is the next one.
  have hstop : ∀ {out' : Output m}, out'.outputIndex.toNat = outputBufferLength.toNat →
      ((out'.put slipEnd).put slipEnd).pOutput.get outputBufferLength.toNat ≠ 0 := by
    intro out' hat
    apply Output.put_get_ne hm _ (.inl slipEnd_ne_zero)
    exact Output.put_get_self hm slipEnd_ne_zero hat
  -- Behind the loop a cell that is not zero stays so.
  have hkeep : ∀ {out' : Output m}, out'.pOutput.get outputBufferLength.toNat ≠ 0 →
      ((out'.put slipEnd).put slipEnd).pOutput.get outputBufferLength.toNat ≠ 0 := by
    intro out' hcell
    exact Output.put_get_ne hm (Output.put_get_ne hm hcell (.inl slipEnd_ne_zero))
      (.inl slipEnd_ne_zero)
  induction input generalizing out with
  | nil =>
    have hlen : (slipBytes []).length = 2 := rfl
    rw [hlen] at hover
    unfold slipEncodeLoop
    rcases Nat.lt_or_ge out.outputIndex.toNat outputBufferLength.toNat with hless | hge
    · apply Output.put_get_self hm slipEnd_ne_zero
      rw [out.put_outputIndex slipEnd (by omega)]
      omega
    · exact hstop (by omega)
  | cons c input ih =>
    rw [length_slipBytes_cons] at hover
    by_cases hroom : out.outputIndex < outputBufferLength
    · rw [slipEncodeLoop_cons c input hroom]
      have hless := BitVec.lt_def.mp hroom
      rcases out.putEscaped_cases c with ⟨hlen, hput⟩ | ⟨first, second, hsecond, hlen, hput⟩
      · have hnext := out.put_outputIndex c (by omega)
        rw [hput]
        exact ih _ (by omega) (by omega)
      · have hnext := out.put_outputIndex first (by omega)
        rw [hput]
        rcases Nat.lt_or_ge (out.outputIndex.toNat + 1) outputBufferLength.toNat with hin | hat
        · have hnext' := (out.put first).put_outputIndex second (by omega)
          exact ih _ (by omega) (by omega)
        · -- The second half is the byte behind the buffer.
          apply hkeep
          apply slipEncodeLoop_get_ne hm
          exact Output.put_get_self hm hsecond (by omega)
    · unfold slipEncodeLoop
      rw [if_neg hroom]
      rw [BitVec.lt_def] at hroom
      exact hstop (by omega)

/-- **A packet that does not fit** is written over the cell behind the buffer. -/
theorem slipEncode_get_ne {input : List (BitVec 8)} (pOutput : FixedArray m (BitVec 8))
    (hm : outputBufferLength.toNat < m)
    (hover : outputBufferLength.toNat < (slipBytes input).length) :
    (slipEncode pOutput input outputBufferLength).2.get outputBufferLength.toNat ≠ 0 := by
  have hzero : (0 : BitVec 32).toNat = 0 := rfl
  apply slipEncodeLoop_overrun hm input ⟨pOutput, 0⟩
  · dsimp only
    omega
  · dsimp only
    omega

/-! ## §3 The bound -/

/-- The begin of a packet has fewer bytes. -/
theorem length_slipBytes_lt {packet input : List (BitVec 8)} (hbegin : packet <+: input)
    (hne : packet ≠ input) : (slipBytes packet).length < (slipBytes input).length := by
  obtain ⟨rest, rfl⟩ := hbegin
  cases rest with
  | nil => simp at hne
  | cons c rest =>
    have hpos := length_escape_pos c
    simp only [length_slipBytes, List.flatMap_append, List.flatMap_cons, List.length_append]
    omega

/-- **The encoder keeps to its bound if and only if the packet fits.** -/
theorem outputBound_iff (input : List (BitVec 8)) (outputBufferLength : BitVec 32) :
    OutputBound input outputBufferLength ↔
      (slipBytes input).length ≤ outputBufferLength.toNat := by
  constructor
  · intro h
    by_contra hfits
    have hover : outputBufferLength.toNat < (slipBytes input).length := by omega
    -- An array of zeros shows that the cell is written.
    apply slipEncode_get_ne (FixedArray.replicate _ default) (Nat.lt_succ_self _) hover
    rw [h.bounded _ _ _ le_rfl]
    exact FixedArray.get_replicate _
  · intro hfits
    constructor
    · intro m pOutput i hi
      exact slipEncode_get_of_fits pOutput hfits hi
    · intro m pOutput packet hm hbegin hne heq
      rw [slipEncode_eq pOutput input outputBufferLength hm hfits] at heq
      have hless := length_slipBytes_lt hbegin hne
      rw [heq] at hless
      omega

/-- **One cell for two bytes**: three cells are written, and the packet `[1]` is complete. -/
theorem not_outputBound_oneCell :
    ¬ ∀ (input : List (BitVec 8)) (outputBufferLength : BitVec 32),
      OutputBound input outputBufferLength := by
  intro hall
  apply (hall [1, 2] 1).complete 3 (FixedArray.replicate 3 0) [1] (by decide)
    (by decide) (by decide)
  decide

end NordicEsb.SlipCodec
