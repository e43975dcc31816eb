import NordicEsb.App.Persistence
import NordicEsb.Esb.Pipes

/-!
# The Mask of the Paired Devices

Four places compute bits of a device mask: `ID_PAIR_INFO_GET` adds the bit of a slot, with one
shift for displays and another for controllers, `main` rebuilds the mask from the slot counters,
a data packet adds the bit of its pipe, and a device looks for its bit in a beacon that asks for
packets again.

- `Marks`: a mask has exactly the bits of a set of indices.
- `MaskLog`: a box with what it has handed out and every shift it has performed.

**Main result** (`maskExact_of_reachable`): over setup sessions, packets and power cycles the four
places agree, and no shift amount is negative.
-/

namespace NordicEsb

/-! ## §1 Bits -/

/-- The bits of a shift that is not negative. -/
theorem getLsbD_shiftBit {n k : UInt8} (hn : n.toNat < 8) (hk : k.toNat ≤ n.toNat) {j : ℕ}
    (hj : j < 8) : (shiftBit n k).toBitVec.getLsbD j = decide (j = n.toNat - k.toNat) := by
  have htable : ∀ n k j : Fin 8, k ≤ n →
      (shiftBit n.val.toUInt8 k.val.toUInt8).toBitVec.getLsbD j.val =
        decide (j.val = n.val - k.val) := by decide
  have hbit := htable ⟨n.toNat, hn⟩ ⟨k.toNat, by omega⟩ ⟨j, hj⟩ hk
  rwa [show n.toNat.toUInt8 = n from UInt8.ofNat_toNat,
    show k.toNat.toUInt8 = k from UInt8.ofNat_toNat] at hbit

/-- **Collecting bits**: one of the fold is one of the start or of a summand. -/
theorem getLsbD_foldl_or (g : ℕ → UInt8) (l : List ℕ) (mask : UInt8) (j : ℕ) :
    (l.foldl (fun mask i => mask ||| g i) mask).toBitVec.getLsbD j = true ↔
      mask.toBitVec.getLsbD j = true ∨ ∃ i ∈ l, (g i).toBitVec.getLsbD j = true := by
  induction l generalizing mask with
  | nil => simp
  | cons i l ih =>
    rw [List.foldl_cons, ih, UInt8.toBitVec_or, BitVec.getLsbD_or, Bool.or_eq_true, or_assoc]
    simp

/-- **The mask of a set of devices**: bit `6 - i` for each index `i` of the set, and no other. -/
def Marks (mask : UInt8) (S : Set UInt8) : Prop :=
  ∀ j < 8, mask.toBitVec.getLsbD j = true ↔ ∃ i ∈ S, j = 6 - i.toNat

/-- There is one mask for a set. -/
theorem Marks.unique {mask mask' : UInt8} {S : Set UInt8} (h : Marks mask S) (h' : Marks mask' S) :
    mask = mask' := by
  apply UInt8.eq_of_toBitVec_eq
  apply BitVec.eq_of_getLsbD_eq
  intro j hj
  rw [Bool.eq_iff_iff, h j hj, h' j hj]

theorem marks_zero : Marks 0 ∅ := by
  intro j _
  simp

/-- Another device: its bit is added to the mask. -/
theorem Marks.insert {mask bit idx : UInt8} {S : Set UInt8} (h : Marks mask S)
    (hbit : ∀ j < 8, bit.toBitVec.getLsbD j = decide (j = 6 - idx.toNat)) :
    Marks (mask ||| bit) (Set.insert idx S) := by
  intro j hj
  rw [UInt8.toBitVec_or, BitVec.getLsbD_or, Bool.or_eq_true, h j hj, hbit j hj, decide_eq_true_iff]
  constructor
  · rintro (⟨i, hi, heq⟩ | heq)
    · exact ⟨i, .inr hi, heq⟩
    · exact ⟨idx, .inl rfl, heq⟩
  · rintro ⟨i, rfl | hi, heq⟩
    · exact .inr heq
    · exact .inl ⟨i, hi, heq⟩

namespace Box

/-! ## §2 Slots and their bits -/

/-- **`main` rebuilds** the mask of the slots that are taken. -/
theorem marks_pairedMaskOf {ds : BoxData} (h : SlotsValid ds) :
    Marks (pairedMaskOf ds) (spentIdx ds) := by
  have hd := h.display
  have hc := h.controller
  have hround : ∀ i : ℕ, i < 256 → (i.toUInt8).toNat = i := fun i hi => UInt8.toNat_ofNat_of_lt hi
  intro j hj
  unfold pairedMaskOf
  rw [getLsbD_foldl_or, getLsbD_foldl_or]
  constructor
  · -- a bit of the zero mask, of a display or of a controller
    rintro ((hzero | ⟨i, hi, hbit⟩) | ⟨i, hi, hbit⟩)
    · simp at hzero
    · have hlt := List.mem_range.mp hi
      have hi' := hround i (by omega)
      rw [getLsbD_shiftBit (by decide) (by rw [hi']; show i ≤ 5; omega) hj, hi',
        decide_eq_true_iff] at hbit
      have hidx := hround (i + 1) (by omega)
      refine ⟨(i + 1).toUInt8, .inl ?_, ?_⟩
      · omega
      · rw [hidx, hbit]
        show 5 - i = 6 - (i + 1)
        omega
    · have hlt := List.mem_range.mp hi
      have hi' := hround i (by omega)
      rw [getLsbD_shiftBit (by decide) (by rw [hi']; show i ≤ 1; omega) hj, hi',
        decide_eq_true_iff] at hbit
      have hidx := hround (i + 5) (by omega)
      refine ⟨(i + 5).toUInt8, .inr ?_, ?_⟩
      · omega
      · rw [hidx, hbit]
        show 1 - i = 6 - (i + 5)
        omega
  · rintro ⟨idx, ⟨hpos, hle⟩ | ⟨hgt, hle⟩, rfl⟩
    · refine .inl (.inr ⟨idx.toNat - 1, List.mem_range.mpr (by omega), ?_⟩)
      have hi' := hround (idx.toNat - 1) (by omega)
      rw [getLsbD_shiftBit (by decide) (by rw [hi']; show _ ≤ 5; omega) hj, hi', decide_eq_true_iff]
      show 6 - idx.toNat = 5 - (idx.toNat - 1)
      omega
    · refine .inr ⟨idx.toNat - 5, List.mem_range.mpr (by omega), ?_⟩
      have hi' := hround (idx.toNat - 5) (by omega)
      rw [getLsbD_shiftBit (by decide) (by rw [hi']; show _ ≤ 1; omega) hj, hi', decide_eq_true_iff]
      show 6 - idx.toNat = 1 - (idx.toNat - 5)
      omega

/-- The index that `ID_PAIR_INFO_GET` hands out: the one that is offered to the pending type. -/
def grants (b : Box) : List UInt8 :=
  let (_, devIdx) := offer b.gDs b.gCurPairingDevType
  if devIdx ≠ 0xff then [devIdx] else []

/-- The amounts `takeSlot` shifts by. -/
def slotShifts (b : Box) : List ℤ :=
  if b.gCurPairingDevType = devTypeDisplay ∧ b.gDs.displaySlotIdx < maximumDisplayDev then
    [6 - ((b.gDs.displaySlotIdx + 1).toNat : ℤ)]
  else if b.gCurPairingDevType = devTypeController ∧
      b.gDs.controllerSlotIdx < maximumControllerDev then
    [2 - ((b.gDs.controllerSlotIdx + 1).toNat : ℤ)]
  else []

/-- The box agrees with the list of the indices it has handed out. -/
structure Agreed (b : Box) (handed : List UInt8) : Prop where
  mask : b.gDevsPairedMask = pairedMaskOf b.gDs
  slots : SlotsValid b.gDs
  handed : ∀ idx, idx ∈ handed ↔ idx ∈ spentIdx b.gDs

theorem Agreed.of_eq {b b' : Box} {handed : List UInt8} (h : Agreed b handed)
    (hmask : b'.gDevsPairedMask = b.gDevsPairedMask) (hds : b'.gDs = b.gDs) : Agreed b' handed :=
  ⟨by rw [hmask, hds]; exact h.mask, hds ▸ h.slots, hds ▸ h.handed⟩

/-- The mask a box agrees with. -/
theorem Agreed.marks {b : Box} {handed : List UInt8} (h : Agreed b handed) :
    Marks b.gDevsPairedMask {idx | idx ∈ handed} := by
  have hset : {idx | idx ∈ handed} = spentIdx b.gDs := Set.ext h.handed
  rw [h.mask, hset]
  exact marks_pairedMaskOf h.slots

/-- What `ID_PAIR_INFO_GET` does to the slots. -/
inductive TakesSlot (b : Box) : Prop where
  | none (grants : b.grants = []) (taken : takeSlot b = b) (shifts : b.slotShifts = [])
  | display (free : b.gDs.displaySlotIdx.toNat < 4)
      (grants : b.grants = [b.gDs.displaySlotIdx + 1])
      (taken : takeSlot b = { b with
        gDs := { b.gDs with displaySlotIdx := b.gDs.displaySlotIdx + 1 }
        gDevsPairedMask := b.gDevsPairedMask ||| shiftBit 6 (b.gDs.displaySlotIdx + 1) })
      (shifts : b.slotShifts = [6 - ((b.gDs.displaySlotIdx + 1).toNat : ℤ)])
  | controller (free : b.gDs.controllerSlotIdx.toNat < 2)
      (grants : b.grants = [maximumDisplayDev + b.gDs.controllerSlotIdx + 1])
      (taken : takeSlot b = { b with
        gDs := { b.gDs with controllerSlotIdx := b.gDs.controllerSlotIdx + 1 }
        gDevsPairedMask := b.gDevsPairedMask ||| shiftBit 2 (b.gDs.controllerSlotIdx + 1) })
      (shifts : b.slotShifts = [2 - ((b.gDs.controllerSlotIdx + 1).toNat : ℤ)])

/-- The index of a controller in mask and record. -/
theorem toNat_controllerIdx {slot : UInt8} (h : slot.toNat < 2) :
    (maximumDisplayDev + slot + 1).toNat = slot.toNat + 5 := by
  have htable : ∀ i : Fin 2, (maximumDisplayDev + i.val.toUInt8 + 1).toNat = i.val + 5 := by decide
  have hslot := htable ⟨slot.toNat, h⟩
  rwa [show slot.toNat.toUInt8 = slot from UInt8.ofNat_toNat] at hslot

theorem takesSlot (b : Box) : TakesSlot b := by
  have hmax : (0xff : UInt8).toNat = 255 := rfl
  have hne : ∀ {idx : UInt8}, idx.toNat < 255 → idx ≠ 0xff := by
    intro idx hlt heq
    rw [heq, hmax] at hlt
    exact lt_irrefl _ hlt
  by_cases hdisplay : b.gCurPairingDevType = devTypeDisplay
  · by_cases hfree : b.gDs.displaySlotIdx < maximumDisplayDev
    · have hlt : b.gDs.displaySlotIdx.toNat < 4 := UInt8.lt_iff_toNat_lt.mp hfree
      have hslot := toNat_add_one (n := b.gDs.displaySlotIdx) (by omega)
      apply TakesSlot.display hlt
      · unfold grants offer
        rw [if_pos hdisplay, if_pos hfree]
        exact if_pos (hne (by omega))
      · unfold takeSlot
        exact if_pos ⟨hdisplay, hfree⟩
      · unfold slotShifts
        exact if_pos ⟨hdisplay, hfree⟩
    · have hother : b.gCurPairingDevType ≠ devTypeController := by
        rw [hdisplay]
        decide
      apply TakesSlot.none
      · unfold grants offer
        rw [if_pos hdisplay, if_neg hfree]
        rfl
      · unfold takeSlot
        rw [if_neg (fun h => hfree h.2), if_neg (fun h => hother h.1)]
      · unfold slotShifts
        rw [if_neg (fun h => hfree h.2), if_neg (fun h => hother h.1)]
  · by_cases htake : b.gCurPairingDevType = devTypeController ∧
        b.gDs.controllerSlotIdx < maximumControllerDev
    · have hlt : b.gDs.controllerSlotIdx.toNat < 2 := UInt8.lt_iff_toNat_lt.mp htake.2
      have hidx := toNat_controllerIdx hlt
      apply TakesSlot.controller hlt
      · unfold grants offer
        rw [if_neg hdisplay, if_pos htake.1, if_pos htake.2]
        exact if_pos (hne (by omega))
      · unfold takeSlot
        rw [if_neg (fun h => hdisplay h.1), if_pos htake]
      · unfold slotShifts
        rw [if_neg (fun h => hdisplay h.1), if_pos htake]
    · apply TakesSlot.none
      · unfold grants offer
        rw [if_neg hdisplay]
        by_cases hcontroller : b.gCurPairingDevType = devTypeController
        · rw [if_pos hcontroller, if_neg (fun h => htake ⟨hcontroller, h⟩)]
          rfl
        · rw [if_neg hcontroller]
          rfl
      · unfold takeSlot
        rw [if_neg (fun h => hdisplay h.1), if_neg htake]
      · unfold slotShifts
        rw [if_neg (fun h => hdisplay h.1), if_neg htake]

/-- **Taking a slot** keeps the mask the one `main` would rebuild. -/
theorem Agreed.takeSlot {b : Box} {handed : List UInt8} (h : Agreed b handed) :
    Agreed (takeSlot b) (handed ++ b.grants) := by
  have hdisplay := h.slots.display
  have hcontroller := h.slots.controller
  have hmarks := h.marks
  -- the counters and the list grow alike; the mask follows, since it marks the list
  have hmask : ∀ {b' : Box} {idx : UInt8} (bit : UInt8), SlotsValid b'.gDs →
      (∀ i, i ∈ handed ++ [idx] ↔ i ∈ spentIdx b'.gDs) →
      (∀ j < 8, bit.toBitVec.getLsbD j = decide (j = 6 - idx.toNat)) →
      b'.gDevsPairedMask = b.gDevsPairedMask ||| bit → Agreed b' (handed ++ [idx]) := by
    intro b' idx bit hslots hhanded hbit heq
    refine ⟨?_, hslots, hhanded⟩
    have hset : Set.insert idx {i | i ∈ handed} = spentIdx b'.gDs := by
      ext i
      rw [← hhanded i, List.mem_append, List.mem_singleton, or_comm]
      rfl
    have hboth := hmarks.insert hbit
    rw [hset] at hboth
    rw [heq]
    exact hboth.unique (marks_pairedMaskOf hslots)
  cases b.takesSlot with
  | none grants taken _ =>
    rw [grants, taken, List.append_nil]
    exact h
  | display free grants taken _ =>
    have hslot := toNat_add_one (n := b.gDs.displaySlotIdx) (by omega)
    rw [grants, taken]
    refine hmask (shiftBit 6 (b.gDs.displaySlotIdx + 1)) ⟨?_, hcontroller⟩ ?_ ?_ rfl
    · show (b.gDs.displaySlotIdx + 1).toNat ≤ 4
      omega
    · intro i
      rw [List.mem_append, List.mem_singleton, h.handed i]
      unfold spentIdx
      simp only [Set.mem_ofPred_eq, hslot, ← UInt8.toNat_inj]
      omega
    · intro j hj
      exact getLsbD_shiftBit (by decide) (by rw [hslot]; show _ ≤ 6; omega) hj
  | controller free grants taken _ =>
    have hslot := toNat_add_one (n := b.gDs.controllerSlotIdx) (by omega)
    have hidx := toNat_controllerIdx free
    rw [grants, taken]
    refine hmask (shiftBit 2 (b.gDs.controllerSlotIdx + 1)) ⟨hdisplay, ?_⟩ ?_ ?_ rfl
    · show (b.gDs.controllerSlotIdx + 1).toNat ≤ 2
      omega
    · intro i
      rw [List.mem_append, List.mem_singleton, h.handed i]
      unfold spentIdx
      simp only [Set.mem_ofPred_eq, hslot, ← UInt8.toNat_inj, hidx]
      omega
    · intro j hj
      rw [getLsbD_shiftBit (by decide) (by rw [hslot]; show _ ≤ 2; omega) hj, hslot, hidx]
      apply decide_eq_decide.mpr
      show j = 2 - _ ↔ _
      omega

theorem slotShifts_nonneg (b : Box) : ∀ n ∈ b.slotShifts, 0 ≤ n := by
  intro n hn
  cases b.takesSlot with
  | none _ _ shifts =>
    rw [shifts] at hn
    cases hn
  | display free _ _ shifts =>
    have hslot := toNat_add_one (n := b.gDs.displaySlotIdx) (by omega)
    rw [shifts, List.mem_singleton, hslot] at hn
    omega
  | controller free _ _ shifts =>
    have hslot := toNat_add_one (n := b.gDs.controllerSlotIdx) (by omega)
    rw [shifts, List.mem_singleton, hslot] at hn
    omega

/-! ## §3 The shifts and grants of an event -/

/-- The amounts `onPayload` shifts by. -/
def payloadShifts (b : Box) : List ℤ :=
  if b.gMode = .pairing ∧ b.rxPayload.length = 2 then
    if b.rxPayload.data.get 0 = idPairReq then []
    else if b.rxPayload.data.get 0 = idPairInfoGet then b.slotShifts
    else []
  else if b.gMode = .normal ∧ b.rxPayload.pipe ≠ 0 ∧ b.rxPayload.length = 32 then
    [6 - (b.rxPayload.pipe.toNat : ℤ)]
  else []

/-- The indices `onPayload` hands out. -/
def payloadGrants (b : Box) : List UInt8 :=
  if b.gMode = .pairing ∧ b.rxPayload.length = 2 ∧ b.rxPayload.data.get 0 = idPairInfoGet then
    b.grants
  else []

/-- The box that `onPayload` gets to see, if a payload could be read. -/
def readPayload (b : Box) : Option Box :=
  let (err, p, esb) := nrfEsbReadRxPayload (some b.rxPayload) b.esb
  if err = .success then
    some ({ b with esb := esb, rxPayload := p.getD b.rxPayload }.callEsb nrfEsbFlushRx)
  else none

/-- The amounts the handler shifts by. -/
def eventShifts (b : Box) (event : NrfEsbEvt) : List ℤ :=
  match event.evtId with
  | .rxReceived => (b.readPayload.map payloadShifts).getD []
  | .txSuccess | .txFailed => []

/-- The indices the handler hands out. -/
def eventGrants (b : Box) (event : NrfEsbEvt) : List UInt8 :=
  match event.evtId with
  | .rxReceived => (b.readPayload.map payloadGrants).getD []
  | .txSuccess | .txFailed => []

/-- The amounts `main` shifts by. -/
def bootShifts (flash : BoxData) : List ℤ :=
  if flash.signature ≠ dsSignature ∨
      (flash.controllerSlotIdx = 0 ∧ flash.displaySlotIdx = 0) then []
  else
    (List.range flash.displaySlotIdx.toNat).map (fun i : ℕ => 5 - (i : ℤ)) ++
      (List.range flash.controllerSlotIdx.toNat).map (fun i : ℕ => 1 - (i : ℤ))

theorem bootShifts_nonneg {flash : BoxData} (h : flash.signature = dsSignature → SlotsValid flash) :
    ∀ n ∈ bootShifts flash, 0 ≤ n := by
  intro n hn
  unfold bootShifts at hn
  split at hn
  · cases hn
  case isFalse hsig =>
    obtain ⟨hd, hc⟩ := h (not_not.mp fun hne => hsig (.inl hne))
    rw [List.mem_append, List.mem_map, List.mem_map] at hn
    rcases hn with ⟨i, hi, rfl⟩ | ⟨i, hi, rfl⟩
    · have hlt := List.mem_range.mp hi
      omega
    · have hlt := List.mem_range.mp hi
      omega

/-- A payload is read and handled, or nothing happens. -/
theorem onRxReceived_cases (b : Box) :
    (∃ b₁, b.readPayload = some b₁ ∧ b.onRxReceived = onPayload b₁) ∨
      (b.readPayload = none ∧ b.onRxReceived = b) := by
  unfold readPayload onRxReceived
  rcases nrfEsbReadRxPayload_spec (some b.rxPayload) b.esb with
    ⟨hread, -⟩ | ⟨hread, hsame, -, hexec⟩
  · dsimp only
    rw [if_pos hread, if_pos hread]
    exact .inl ⟨_, rfl, rfl⟩
  · have hesb : (nrfEsbReadRxPayload (some b.rxPayload) b.esb).2.2 = b.esb := hexec
    dsimp only
    rw [if_neg hread, if_neg hread, hsame, hesb]
    exact .inr ⟨rfl, rfl⟩

end Box

/-! ## §4 The box and its log -/

/-- A box and its history. -/
structure MaskLog where
  box : Box
  /-- History variable: the indices handed out for the record in RAM. -/
  handed : List UInt8
  /-- History variable: the indices handed out for the record in flash. -/
  stored : List UInt8
  /-- History variable: every amount a bit was shifted by. -/
  shifts : List ℤ

namespace MaskLog

/-- `nrf_esb_event_handler`. It leaves the pairing mode when it has written the flash. -/
def handle (t : MaskLog) (event : NrfEsbEvt) : MaskLog :=
  let box := t.box.nrfEsbEventHandler event
  let handed := t.handed ++ t.box.eventGrants event
  { box := box
    handed := handed
    stored := if t.box.gMode = .pairing ∧ box.gMode = .normal then handed else t.stored
    shifts := t.shifts ++ t.box.eventShifts event }

/-- `ESB_EVT_IRQHandler` with the handler it calls. -/
def esbEvtIrq (t : MaskLog) : MaskLog :=
  let (events, esb) := esbEvtIrqHandler t.box.esb
  events.foldl handle { t with box := { t.box with esb := esb } }

/-- The box is switched on. -/
def boot (chipId : FixedArray 4 UInt8) (flash : BoxData) (stored : List UInt8) (shifts : List ℤ)
    (button : Bool) (picked : ChannelList) : MaskLog :=
  let box := Box.main chipId flash button picked
  { box := box
    handed := if box.gMode = .normal then stored else []
    stored := stored
    shifts := shifts ++ Box.bootShifts flash }

/-- What may happen to a box: its interrupts and power cycles. -/
inductive Action where
  | irq (a : Box.BoxStep)
  | power (button : Bool) (picked : ChannelList)

/-- One step. -/
def step (chipId : FixedArray 4 UInt8) (t : MaskLog) : Action → MaskLog
  | .irq .evtIrq => t.esbEvtIrq
  | .irq a => { t with box := t.box.step a }
  | .power button picked => boot chipId t.box.flash t.stored t.shifts button picked

/-- The radio reports packets on the pipes it listens to. -/
def Enabled (t : MaskLog) : Action → Prop
  | .irq (.radioIrq ev) => t.box.Interrupts (.radioIrq ev) ∧ t.box.esb.Hears ev
  | .irq a => t.box.Interrupts a
  | .power _ _ => True

instance (t : MaskLog) : DecidablePred t.Enabled
  | .irq (.radioIrq ev) =>
    (inferInstance : Decidable (t.box.Interrupts (.radioIrq ev) ∧ t.box.esb.Hears ev))
  | .irq .evtIrq => (inferInstance : Decidable (t.box.Interrupts .evtIrq))
  | .irq .tick => (inferInstance : Decidable (t.box.Interrupts .tick))
  | .power _ _ => (inferInstance : Decidable True)

/-- **The runs of a box** from a flash page without a record or with one whose counters are in
    range; `stored` are the indices its devices hold. -/
def machine (chipId : FixedArray 4 UInt8) : Machine MaskLog Action where
  start t := ∃ flash stored button picked,
    (flash.signature = dsSignature →
      Box.SlotsValid flash ∧ ∀ idx, idx ∈ stored ↔ idx ∈ Box.spentIdx flash) ∧
    t = boot chipId flash stored [] button picked
  enabled := Enabled
  step := step chipId

instance (chipId : FixedArray 4 UInt8) (t : MaskLog) (a : Action) :
    Decidable ((machine chipId).enabled t a) := inferInstanceAs (Decidable (t.Enabled a))

/-- The log runs beside the box. -/
theorem step_box (chipId : FixedArray 4 UInt8) (t : MaskLog) (a : Box.BoxStep) :
    (t.step chipId (.irq a)).box = t.box.step a := by
  have hfold : ∀ (events : List NrfEsbEvt) (t : MaskLog),
      (events.foldl handle t).box = events.foldl Box.nrfEsbEventHandler t.box := by
    intro events
    induction events with
    | nil => exact fun _ => rfl
    | cons event events ih => exact fun t => ih (t.handle event)
  cases a with
  | radioIrq | tick => rfl
  | evtIrq => exact hfold _ _

/-! ## §5 Every step -/

/-- **The invariant**: the box agrees with its history, and so does its flash if it holds a
    record; the pipes it uses have an address. -/
structure Inv (t : MaskLog) : Prop where
  agreed : t.box.Agreed t.handed
  flash : t.box.flash.signature = dsSignature →
    Box.SlotsValid t.box.flash ∧ ∀ idx, idx ∈ t.stored ↔ idx ∈ Box.spentIdx t.box.flash
  shifts : ∀ n ∈ t.shifts, 0 ≤ n
  esb : PipesBelow 7 t.box.esb
  beacon : t.box.gBeacon.pipe = 0

variable {t : MaskLog} {b b' : Box}

/-- The module was called, and nothing of the mask has changed. -/
theorem Inv.of_eq (h : Inv t) (hesb : PipesBelow 7 b'.esb)
    (hmask : b'.gDevsPairedMask = t.box.gDevsPairedMask) (hds : b'.gDs = t.box.gDs)
    (hflash : b'.flash = t.box.flash)
    (hbeacon : b'.gBeacon.pipe = t.box.gBeacon.pipe) : Inv { t with box := b' } where
  agreed := h.agreed.of_eq hmask hds
  flash := by
    show b'.flash.signature = dsSignature → _
    rw [hflash]
    exact h.flash
  shifts := h.shifts
  esb := hesb
  beacon := hbeacon.trans h.beacon

/-- A call of the module. -/
theorem Inv.callEsb (h : Inv t) {f : Esb → RetCode × Esb} (c : EsbCall)
    (hc : PipesGiven 7 t.box.esb c) (hf : (f t.box.esb).2 = t.box.esb.exec c) :
    Inv { t with box := t.box.callEsb f } := by
  refine h.of_eq ?_ rfl rfl rfl rfl
  show PipesBelow 7 (f t.box.esb).2
  rw [hf]
  exact h.esb.exec (by decide) c hc

theorem pipesBelow_esbInit {s : Esb} (h : PipesBelow 7 s) (isPtx : Bool) :
    PipesBelow 7 (Box.esbInit isPtx s).2 :=
  (h.exec (by decide) .disable trivial).exec (by decide) (.init (some (appEsbConfig isPtx))) trivial

/-! ### The event handler -/

theorem Inv.onTxDone (h : Inv t) : Inv { t with box := t.box.onTxDone } := by
  have hflushed := (h.callEsb .flushRx trivial (f := nrfEsbFlushRx) rfl).callEsb .flushTx trivial
    (f := nrfEsbFlushTx) rfl
  unfold Box.onTxDone
  dsimp only
  split
  · have hinit : Inv { t with box :=
        ((t.box.callEsb nrfEsbFlushRx).callEsb nrfEsbFlushTx).callEsb (Box.esbInit false) } :=
      hflushed.of_eq (pipesBelow_esbInit hflushed.esb false) rfl rfl rfl rfl
    exact hinit.callEsb .startRx trivial (f := nrfEsbStartRx) rfl
  · exact hflushed

/-- What is read has the pipe of a cell. -/
theorem Inv.readPayload (h : Inv t) (hread : t.box.readPayload = some b) :
    Inv { t with box := b } ∧ b.gMode = t.box.gMode ∧ b.rxPayload.pipe.toNat < 7 := by
  unfold Box.readPayload at hread
  have hspec := nrfEsbReadRxPayload_spec (some t.box.rxPayload) t.box.esb
  have hexec := h.esb.exec (by decide) (.readRxPayload (some t.box.rxPayload)) trivial
  dsimp only at hread
  split at hread
  case isFalse => cases hread
  case isTrue hsuccess =>
    obtain ⟨b₁, hb₁⟩ : ∃ b₁ : Box, b₁ = { t.box with
      esb := (nrfEsbReadRxPayload (some t.box.rxPayload) t.box.esb).2.2
      rxPayload := (nrfEsbReadRxPayload (some t.box.rxPayload) t.box.esb).2.1.getD
        t.box.rxPayload } := ⟨_, rfl⟩
    have hinv : Inv { t with box := b₁ } := by
      rw [hb₁]
      exact h.of_eq hexec rfl rfl rfl rfl
    have hpipe : b₁.rxPayload.pipe.toNat < 7 := by
      rw [hb₁]
      dsimp only
      unfold nrfEsbReadRxPayload at hsuccess ⊢
      cases hinit : t.box.esb.esbInitialized with
      | false => simp [hinit] at hsuccess
      | true =>
        by_cases hcount : t.box.esb.rxFifo.count = 0
        · simp [hinit, hcount] at hsuccess
        · simp only [hcount, Bool.not_true, Bool.false_eq_true, if_false]
          exact h.esb.rx _
    have hb : b = b₁.callEsb nrfEsbFlushRx := by
      rw [hb₁]
      exact (Option.some_inj.mp hread).symm
    rw [hb]
    refine ⟨hinv.callEsb .flushRx trivial (f := nrfEsbFlushRx) rfl, ?_, hpipe⟩
    rw [hb₁]
    rfl

theorem Inv.onPairReq (h : Inv t) :
    Inv { t with box := t.box.onPairReq } ∧ t.box.onPairReq.gMode = t.box.gMode := by
  have hpending : ∀ type, Inv { t with box := { t.box with gCurPairingDevType := type } } :=
    fun _ => h.of_eq h.esb rfl rfl rfl rfl
  unfold Box.onPairReq
  rcases hoffer : Box.offer t.box.gDs (t.box.rxPayload.data.get 1) with ⟨type, devIdx⟩
  dsimp only
  split
  · -- the record goes out on pipe 0
    refine ⟨?_, rfl⟩
    have hflushed := (hpending type).callEsb .flushTx trivial (f := nrfEsbFlushTx) rfl
    exact hflushed.callEsb (.writePayload _) (by show (0 : ℕ) < 7; decide)
      (f := nrfEsbWritePayload _) rfl
  · exact ⟨hpending type, rfl⟩

/-- **`ID_PAIR_INFO_GET`** hands out the index of the slot it takes. -/
theorem Inv.onPairInfoGet (h : Inv t) (hmode : t.box.gMode = .pairing) :
    Inv { box := t.box.onPairInfoGet
          handed := t.handed ++ t.box.grants
          stored := if t.box.gMode = .pairing ∧ t.box.onPairInfoGet.gMode = .normal then
            t.handed ++ t.box.grants else t.stored
          shifts := t.shifts ++ t.box.slotShifts } := by
  have hflushed := h.callEsb .flushTx trivial (f := nrfEsbFlushTx) rfl
  obtain ⟨b₁, hb₁⟩ : ∃ b₁, b₁ = Box.takeSlot (t.box.callEsb nrfEsbFlushTx) := ⟨_, rfl⟩
  obtain ⟨hesb, hmode₁, hbeacon, hflash, -⟩ := Box.takeSlot_frame (t.box.callEsb nrfEsbFlushTx)
  rw [← hb₁] at hesb hmode₁ hbeacon hflash
  have htaken : Box.Agreed b₁ (t.handed ++ t.box.grants) := hb₁ ▸ hflushed.agreed.takeSlot
  have hshifts : ∀ n ∈ t.shifts ++ t.box.slotShifts, 0 ≤ n := by
    intro n hn
    rcases List.mem_append.mp hn with hold | hnew
    · exact h.shifts n hold
    · exact t.box.slotShifts_nonneg n hnew
  have hget : t.box.onPairInfoGet =
      if b₁.gDs.controllerSlotIdx = maximumControllerDev ∧
          b₁.gDs.displaySlotIdx = maximumDisplayDev then
        Box.enterNormalMode { b₁ with gCurPairingDevType := 0, flash := b₁.gDs }
      else { b₁ with gCurPairingDevType := 0 } := by
    rw [hb₁]
    rfl
  rw [hget]
  split
  · -- all slots are taken: the record is written
    refine ⟨htaken.of_eq rfl rfl, fun _ => ⟨htaken.slots, ?_⟩, hshifts, ?_, ?_⟩
    · rw [if_pos ⟨hmode, rfl⟩]
      exact htaken.handed
    · show PipesBelow 7 b₁.esb
      rw [hesb]
      exact hflushed.esb
    · show b₁.gBeacon.pipe = 0
      rw [hbeacon]
      exact h.beacon
  · refine ⟨htaken.of_eq rfl rfl, ?_, hshifts, ?_, ?_⟩
    · have hstays : ¬ (t.box.gMode = .pairing ∧ b₁.gMode = .normal) := by
        rw [hmode₁]
        show ¬ (t.box.gMode = .pairing ∧ t.box.gMode = .normal)
        rw [hmode]
        exact fun h => nomatch h.2
      dsimp only
      rw [if_neg hstays, hflash]
      exact h.flash
    · show PipesBelow 7 b₁.esb
      rw [hesb]
      exact hflushed.esb
    · show b₁.gBeacon.pipe = 0
      rw [hbeacon]
      exact h.beacon

/-- A step that hands out nothing, shifts nothing and stays in its mode. -/
theorem inv_quiet (h : Inv { t with box := b }) (hmode : b.gMode = t.box.gMode) :
    Inv { box := b
          handed := t.handed ++ []
          stored := if t.box.gMode = .pairing ∧ b.gMode = .normal then t.handed ++ [] else t.stored
          shifts := t.shifts ++ [] } := by
  have hstays : ¬ (t.box.gMode = .pairing ∧ b.gMode = .normal) := by
    rw [hmode]
    rintro ⟨hpairing, hnormal⟩
    rw [hpairing] at hnormal
    cases hnormal
  rw [List.append_nil, List.append_nil, if_neg hstays]
  exact h

/-- **A payload**, whatever it is. -/
theorem Inv.onPayload (h : Inv t) (hpipe : t.box.rxPayload.pipe.toNat < 7) :
    Inv { box := t.box.onPayload
          handed := t.handed ++ t.box.payloadGrants
          stored := if t.box.gMode = .pairing ∧ t.box.onPayload.gMode = .normal then
            t.handed ++ t.box.payloadGrants else t.stored
          shifts := t.shifts ++ t.box.payloadShifts } := by
  unfold Box.onPayload Box.payloadGrants Box.payloadShifts
  by_cases hpairing : t.box.gMode = .pairing ∧ t.box.rxPayload.length = 2
  · rw [if_pos hpairing, if_pos hpairing]
    by_cases hreq : t.box.rxPayload.data.get 0 = idPairReq
    · have hget : ¬ (t.box.gMode = .pairing ∧ t.box.rxPayload.length = 2 ∧
          t.box.rxPayload.data.get 0 = idPairInfoGet) := by
        rw [hreq]
        exact fun h => absurd h.2.2 (by decide)
      rw [if_pos hreq, if_pos hreq, if_neg hget]
      exact inv_quiet h.onPairReq.1 h.onPairReq.2
    · rw [if_neg hreq, if_neg hreq]
      by_cases hget : t.box.rxPayload.data.get 0 = idPairInfoGet
      · rw [if_pos hget, if_pos hget, if_pos ⟨hpairing.1, hpairing.2, hget⟩]
        exact h.onPairInfoGet hpairing.1
      · have hother : ¬ (t.box.gMode = .pairing ∧ t.box.rxPayload.length = 2 ∧
            t.box.rxPayload.data.get 0 = idPairInfoGet) := fun hall => hget hall.2.2
        rw [if_neg hget, if_neg hget, if_neg hother]
        exact inv_quiet h rfl
  · have hnone : ¬ (t.box.gMode = .pairing ∧ t.box.rxPayload.length = 2 ∧
        t.box.rxPayload.data.get 0 = idPairInfoGet) := fun hall => hpairing ⟨hall.1, hall.2.1⟩
    rw [if_neg hpairing, if_neg hpairing, if_neg hnone]
    by_cases hnormal : t.box.gMode = .normal
    · rw [if_pos hnormal]
      by_cases hdata : t.box.rxPayload.pipe ≠ 0 ∧ t.box.rxPayload.length = 32
      · have hboth : t.box.gMode = .normal ∧ t.box.rxPayload.pipe ≠ 0 ∧
            t.box.rxPayload.length = 32 := ⟨hnormal, hdata⟩
        rw [if_pos hdata, if_pos hboth]
        have hmarked : Inv { t with box := { t.box with
            gDevsDataRecvMask := t.box.gDevsDataRecvMask ||| shiftBit 6 t.box.rxPayload.pipe } } :=
          h.of_eq h.esb rfl rfl rfl rfl
        have hrecv := inv_quiet hmarked rfl
        refine ⟨hrecv.agreed, hrecv.flash, ?_, hrecv.esb, hrecv.beacon⟩
        intro n hn
        rcases List.mem_append.mp hn with hold | hnew
        · exact h.shifts n hold
        · rw [List.mem_singleton.mp hnew]
          omega
      · have hother : ¬ (t.box.gMode = .normal ∧ t.box.rxPayload.pipe ≠ 0 ∧
            t.box.rxPayload.length = 32) := fun hall => hdata hall.2
        rw [if_neg hdata, if_neg hother]
        exact inv_quiet h rfl
    · have hother : ¬ (t.box.gMode = .normal ∧ t.box.rxPayload.pipe ≠ 0 ∧
          t.box.rxPayload.length = 32) := fun hall => hnormal hall.1
      rw [if_neg hnormal, if_neg hother]
      exact inv_quiet h rfl

theorem Inv.handle (h : Inv t) (event : NrfEsbEvt) : Inv (t.handle event) := by
  unfold MaskLog.handle Box.nrfEsbEventHandler Box.eventGrants Box.eventShifts
  cases event.evtId with
  | txSuccess | txFailed => exact inv_quiet h.onTxDone (Box.onTxDone_gMode _)
  | rxReceived =>
    dsimp only
    rcases t.box.onRxReceived_cases with ⟨b₁, hread, hpayload⟩ | ⟨hread, hsame⟩
    · obtain ⟨hinv, hmode, hpipe⟩ := h.readPayload hread
      rw [hread, hpayload, ← hmode]
      exact hinv.onPayload hpipe
    · rw [hread, hsame]
      exact inv_quiet h rfl

theorem Inv.esbEvtIrq (h : Inv t) : Inv t.esbEvtIrq := by
  have hrun : ∀ (events : List NrfEsbEvt) (t : MaskLog), Inv t →
      Inv (events.foldl MaskLog.handle t) := by
    intro events
    induction events with
    | nil => exact fun _ h => h
    | cons event events ih => exact fun t h => ih _ (h.handle event)
  apply hrun
  exact h.of_eq (h.esb.exec (by decide) .evtIrq trivial) rfl rfl rfl rfl

/-! ### Interrupts and power cycles -/

theorem Inv.hopChannel (h : Inv t) : Inv { t with box := t.box.hopChannel } := by
  have hidle : PipesBelow 7 (Box.stopRxWaitIdle t.box.esb) := by
    have hstop := h.esb.exec (by decide) .stopRx trivial
    unfold Box.stopRxWaitIdle
    split
    · dsimp only
      split
      · exact pipesBelow_esbInit hstop false
      · exact hstop
    · exact h.esb
  have hstopped : Inv { t with box := { t.box with
      gCurChIdx := Box.nextChIdx t.box.gCurChIdx
      esb := Box.stopRxWaitIdle t.box.esb } } :=
    h.of_eq hidle rfl rfl rfl rfl
  exact hstopped.of_eq (hidle.exec (by decide)
    (.setRfChannel (t.box.gaChlist.get (Box.nextChIdx t.box.gCurChIdx).toNat).toUInt32) trivial)
    rfl rfl rfl rfl

/-- A beacon goes out on pipe 0. -/
theorem Inv.sendBeacon (h : Inv t) : Inv { t with box := t.box.sendBeacon } := by
  have hframe : (Box.fillBeacon t.box).esb = t.box.esb ∧
      (Box.fillBeacon t.box).gDevsPairedMask = t.box.gDevsPairedMask ∧
      (Box.fillBeacon t.box).gDs = t.box.gDs ∧ (Box.fillBeacon t.box).flash = t.box.flash ∧
      (Box.fillBeacon t.box).gBeacon.pipe = t.box.gBeacon.pipe := by
    unfold Box.fillBeacon
    split <;> exact ⟨rfl, rfl, rfl, rfl, rfl⟩
  obtain ⟨hesb, hmask, hds, hflash, hbeacon⟩ := hframe
  obtain ⟨b₁, hb₁⟩ : ∃ b₁ : Box, b₁ =
    { Box.fillBeacon t.box with gBeacon := { (Box.fillBeacon t.box).gBeacon with noack := 1 } } :=
      ⟨_, rfl⟩
  have hfilled : Inv { t with box := b₁ } := by
    rw [hb₁]
    exact h.of_eq (hesb ▸ h.esb) hmask hds hflash hbeacon
  have hsend : t.box.sendBeacon = b₁.callEsb (nrfEsbWritePayload (some b₁.gBeacon)) := by
    rw [hb₁]
    rfl
  rw [hsend]
  refine hfilled.callEsb (.writePayload (some b₁.gBeacon)) ?_ rfl
  show b₁.gBeacon.pipe.toNat < 7
  rw [hfilled.beacon]
  decide

theorem Inv.tick (h : Inv t) : Inv { t with box := t.box.intervalTimerEventHandler } := by
  have hhop := h.hopChannel
  unfold Box.intervalTimerEventHandler
  dsimp only
  split
  · have hinit : Inv { t with box := t.box.hopChannel.callEsb (Box.esbInit true) } :=
      hhop.of_eq (pipesBelow_esbInit hhop.esb true) rfl rfl rfl rfl
    exact hinit.sendBeacon
  · exact hhop.callEsb .startRx trivial (f := nrfEsbStartRx) rfl
  · exact hhop

/-- `main` enables the pipes 0 to 6. -/
theorem pipesBelow_setAddresses (hesb : b.esb = Esb.reset) :
    PipesBelow 7 (Box.setAddresses b).esb := by
  have hcells : ∀ i, ((default : FixedArray 8 NrfEsbPayload).get i).pipe.toNat < 7 := by
    intro i
    rw [FixedArray.get_default]
    decide
  have hset : (Box.setAddresses b).esb =
      (nrfEsbSetPrefixes (some Box.addrPrefix) 7
        (nrfEsbSetBaseAddress1 (some b.gBaseAddr1)
          (nrfEsbSetBaseAddress0 (some defaultPairingAddress32) Esb.reset).2).2).2 := by
    unfold Box.setAddresses Box.callEsb
    rw [hesb]
  rw [hset]
  refine ⟨hcells, hcells, by show (0 : ℕ) < 7; decide, fun i hi => ?_, fun i hi => ?_⟩
  · exact testBit_bitMaskUInt8 (m := 7) (by decide) i hi
  · exact absurd hi (by show ¬ (Nat.testBit 0 i.val = true); simp)

theorem inv_setup {flash : BoxData} {stored : List UInt8} {shifts : List ℤ} (picked : ChannelList)
    (hesb : b.esb = Esb.reset) (hbeacon : b.gBeacon = Box.initialBeacon) (hb : b.flash = flash)
    (hflash : flash.signature = dsSignature →
      Box.SlotsValid flash ∧ ∀ idx, idx ∈ stored ↔ idx ∈ Box.spentIdx flash)
    (hshifts : ∀ n ∈ shifts, 0 ≤ n) :
    Inv ⟨Box.enterSetupMode picked (Box.setAddresses b), [], stored, shifts⟩ := by
  have hset := pipesBelow_setAddresses hesb
  have hinit := pipesBelow_esbInit hset false
  have hchannel := hinit.exec (by decide)
    (.setRfChannel (defaultPairingChannelList.get 0).toUInt32) trivial
  have hstart := hchannel.exec (by decide) .startRx trivial
  refine ⟨⟨?_, ⟨?_, ?_⟩, ?_⟩, ?_, hshifts, hstart, ?_⟩
  · rfl
  · show (0 : ℕ) ≤ 4
    decide
  · show (0 : ℕ) ≤ 2
    decide
  · intro idx
    unfold Box.spentIdx
    simp only [List.not_mem_nil, Set.mem_ofPred_eq, false_iff]
    show ¬ (0 < idx.toNat ∧ idx.toNat ≤ 0 ∨ 4 < idx.toNat ∧ idx.toNat ≤ 4 + 0)
    omega
  · show b.flash.signature = dsSignature →
      Box.SlotsValid b.flash ∧ ∀ idx, idx ∈ stored ↔ idx ∈ Box.spentIdx b.flash
    rw [hb]
    exact hflash
  · show b.gBeacon.pipe = 0
    rw [hbeacon]
    rfl

/-- **After a power cycle** the list of the record in flash is the valid one, or a session
    starts with no slot taken. -/
theorem inv_boot (chipId : FixedArray 4 UInt8) {flash : BoxData} {stored : List UInt8}
    {shifts : List ℤ} (button : Bool) (picked : ChannelList)
    (hflash : flash.signature = dsSignature →
      Box.SlotsValid flash ∧ ∀ idx, idx ∈ stored ↔ idx ∈ Box.spentIdx flash)
    (hshifts : ∀ n ∈ shifts, 0 ≤ n) : Inv (boot chipId flash stored shifts button picked) := by
  have hall : ∀ n ∈ shifts ++ Box.bootShifts flash, 0 ≤ n := by
    intro n hn
    rcases List.mem_append.mp hn with hold | hnew
    · exact hshifts n hold
    · exact Box.bootShifts_nonneg (fun hsig => (hflash hsig).1) n hnew
  have hmode : ∀ b : Box, (Box.enterSetupMode picked b).gMode ≠ .normal :=
    fun _ => BoxMode.noConfusion
  unfold MaskLog.boot Box.main
  dsimp only
  split
  · rw [if_neg (hmode _)]
    exact inv_setup picked rfl rfl rfl hflash hall
  case isFalse hsig =>
    obtain ⟨hslots, hstored⟩ := hflash (not_not.mp hsig)
    split
    · rw [if_neg (hmode _)]
      exact inv_setup picked rfl rfl rfl hflash hall
    · split
      · rw [if_neg (hmode _)]
        exact inv_setup picked rfl rfl rfl hflash hall
      · -- the record is taken over, with the indices of its devices
        exact ⟨⟨rfl, hslots, hstored⟩, hflash, hall, pipesBelow_setAddresses rfl, rfl⟩

/-- **Every step keeps the invariant.** -/
theorem inv_step (chipId : FixedArray 4 UInt8) (h : Inv t) {a : Action} (hen : t.Enabled a) :
    Inv (t.step chipId a) := by
  cases a with
  | irq a =>
    cases a with
    | radioIrq ev => exact h.of_eq (h.esb.exec (by decide) (.radioIrq ev) hen.2) rfl rfl rfl rfl
    | evtIrq => exact h.esbEvtIrq
    | tick => exact h.tick
  | power button picked => exact inv_boot chipId button picked h.flash h.shifts

theorem inv_of_reachable {chipId : FixedArray 4 UInt8} (h : (machine chipId).Reachable t) :
    Inv t := by
  apply h.invariant (I := Inv)
  · rintro _ ⟨flash, stored, button, picked, hflash, rfl⟩
    exact inv_boot chipId button picked hflash (fun _ hn => nomatch hn)
  · exact fun _ _ hs hen _ => inv_step chipId hs hen

/-! ## §6 The four places agree -/

/-- A device looks for the bit `6 - idx` in a beacon that asks for packets again. -/
theorem beaconRequest_resend {idx : UInt8} (hidx : IsSlot idx) {beacon : NrfEsbPayload}
    (hresend : beacon.data.get 2 = beaconByte3Resend) :
    Device.beaconRequest idx beacon = some true ↔
      (beacon.data.get 3).toBitVec.getLsbD (6 - idx.toNat) = true := by
  have hbit : ∀ m : UInt8, m &&& shiftBit 6 idx = shiftBit 6 idx ↔
      m.toBitVec.getLsbD (6 - idx.toNat) = true := by
    intro m
    have hself := getLsbD_shiftBit (n := 6) (k := idx) (j := 6 - idx.toNat) (by decide) hidx.2
      (by omega)
    constructor
    · intro heq
      have hand := congrArg (fun m => m.toBitVec.getLsbD (6 - idx.toNat)) heq
      simp only [UInt8.toBitVec_and, BitVec.getLsbD_and, Bool.and_eq_right_iff_imp] at hand
      exact hand (hself.trans (decide_eq_true rfl))
    · intro hm
      apply UInt8.eq_of_toBitVec_eq
      apply BitVec.eq_of_getLsbD_eq
      intro j hj
      rw [UInt8.toBitVec_and, BitVec.getLsbD_and, getLsbD_shiftBit (by decide) hidx.2 hj]
      by_cases hsame : j = 6 - idx.toNat
      · rw [hsame, hm, Bool.true_and]
      · have hother : decide (j = (6 : UInt8).toNat - idx.toNat) = false := decide_eq_false hsame
        rw [hother, Bool.and_false]
  unfold Device.beaconRequest
  rw [hresend, if_neg (by decide)]
  constructor
  · intro hsome
    split at hsome
    case isTrue hand => exact (hbit _).mp hand.2
    case isFalse => cases hsome
  · intro hset
    rw [if_pos ⟨rfl, (hbit _).mpr hset⟩]

/-- A data packet on pipe `idx` adds the bit `6 - idx`. -/
theorem onPayload_recvMask {b : Box} (hmode : b.gMode = .normal) (hidx : IsSlot b.rxPayload.pipe)
    (hlen : b.rxPayload.length = 32) {j : ℕ} (hj : j < 8) :
    b.onPayload.gDevsDataRecvMask.toBitVec.getLsbD j = true ↔
      b.gDevsDataRecvMask.toBitVec.getLsbD j = true ∨ j = 6 - b.rxPayload.pipe.toNat := by
  have hpipe : b.rxPayload.pipe ≠ 0 := by
    intro hzero
    have hpos := hidx.1
    rw [hzero] at hpos
    exact absurd hpos (by decide)
  have hrecv : b.onPayload.gDevsDataRecvMask =
      b.gDevsDataRecvMask ||| shiftBit 6 b.rxPayload.pipe := by
    unfold Box.onPayload
    rw [if_neg (by rw [hmode]; exact fun h => nomatch h.1), if_pos hmode, if_pos ⟨hpipe, hlen⟩]
  rw [hrecv, UInt8.toBitVec_or, BitVec.getLsbD_or, Bool.or_eq_true,
    getLsbD_shiftBit (by decide) hidx.2 hj, decide_eq_true_iff]
  exact Iff.rfl

/-- **The mask is exact**: it is the one `main` would rebuild, the counters are in range, nothing
    was shifted by a negative amount, and its bits are `6 - idx` for the indices handed out, the
    bits that a packet on pipe `idx` sets and that device `idx` looks for. -/
structure MaskExact (t : MaskLog) : Prop where
  rebuilt : t.box.gDevsPairedMask = Box.pairedMaskOf t.box.gDs
  display : t.box.gDs.displaySlotIdx ≤ maximumDisplayDev
  controller : t.box.gDs.controllerSlotIdx ≤ maximumControllerDev
  shifts : ∀ n ∈ t.shifts, 0 ≤ n
  bits : Marks t.box.gDevsPairedMask {idx | idx ∈ t.handed}
  handed : ∀ idx ∈ t.handed, 1 ≤ idx.toNat ∧ idx.toNat ≤ 6
  received : ∀ idx ∈ t.handed, ∀ b : Box, b.gMode = .normal → b.rxPayload.pipe = idx →
    b.rxPayload.length = 32 → ∀ j < 8,
      (b.onPayload.gDevsDataRecvMask.toBitVec.getLsbD j = true ↔
        b.gDevsDataRecvMask.toBitVec.getLsbD j = true ∨ j = 6 - idx.toNat)
  tested : ∀ idx ∈ t.handed, ∀ beacon : NrfEsbPayload, beacon.data.get 2 = beaconByte3Resend →
    (Device.beaconRequest idx beacon = some true ↔
      (beacon.data.get 3).toBitVec.getLsbD (6 - idx.toNat) = true)

/-- **Setup sessions, packets and power cycles** keep the mask exact. -/
theorem maskExact_of_reachable {chipId : FixedArray 4 UInt8} {t : MaskLog}
    (h : (machine chipId).Reachable t) : MaskExact t := by
  have hinv := inv_of_reachable h
  have hd := hinv.agreed.slots.display
  have hc := hinv.agreed.slots.controller
  have hslot : ∀ idx ∈ t.handed, IsSlot idx := by
    intro idx hidx
    rcases (hinv.agreed.handed idx).mp hidx with ⟨hpos, hle⟩ | ⟨hgt, hle⟩
    · exact ⟨by omega, by omega⟩
    · exact ⟨by omega, by omega⟩
  refine ⟨hinv.agreed.mask, UInt8.le_iff_toNat_le.mpr hd, UInt8.le_iff_toNat_le.mpr hc,
    hinv.shifts, hinv.agreed.marks, hslot, ?_,
    fun idx hidx _ => beaconRequest_resend (hslot idx hidx)⟩
  rintro idx hidx b hmode rfl hlen j hj
  exact onPayload_recvMask hmode (hslot _ hidx) hlen hj

/-- A display is paired and the box is switched off and on again. -/
theorem maskExact_run :
    MaskExact ((machine (.replicate _ 7)).run
      (boot (.replicate _ 7) (fullRecord.torn 0) [] [] false (.load (.replicate _ 0) [5, 40, 70]))
      [.irq (.radioIrq (.received ⟨0, 2, 2, [idPairReq, devTypeDisplay]⟩ 0x1234)),
        .irq (.radioIrq .silent), .irq .evtIrq,
        .irq (.radioIrq (.received ⟨0, 2, 4, [idPairInfoGet, 0]⟩ 0x4321)),
        .irq (.radioIrq .silent), .irq .evtIrq,
        .power false (.load (.replicate _ 0) [5, 40, 70])]) := by
  refine maskExact_of_reachable (.of_follows (.start ?_) (by decide +kernel))
  exact ⟨_, _, _, _, fun hsig => absurd hsig fullRecord.torn_zero_signature, rfl⟩

end MaskLog

end NordicEsb
