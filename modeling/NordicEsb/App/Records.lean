import NordicEsb.App.Alive
import NordicEsb.App.Flash
import NordicEsb.App.Polling
import NordicEsb.Link.Content

/-!
# Pairing Records on Their Way

A packet of the size of `pair_info_t` is a pairing record, and a device that waits for one stores
it. Nothing but the box writes payloads of that size, and the record it offers is one of a free
slot. So every packet of that size that the box or a device sends, keeps or reads is a record of
one of the six slots.

- `Box.Valid`: this holds of the box, and its flash holds no record or a full one.
- `Device.Sound`: this holds of a device.
- `Device.Outcome`: what an interrupt does to the flash of a device.
-/

namespace NordicEsb

/-! ## §1 Records of slots -/

/-- The index of one of the six slots. -/
def IsSlot (idx : UInt8) : Prop := 1 ≤ idx.toNat ∧ idx.toNat ≤ 6

/-- **Bytes of the size of a record are the record of a slot.** -/
def SlotRecord (l : List UInt8) : Prop :=
  l.length = sizeofPairInfo.toNat → ∃ info : PairInfo, l = info.bytes ∧ IsSlot info.devIdx

theorem slotRecord_of_length {l : List UInt8} (h : l.length ≠ sizeofPairInfo.toNat) :
    SlotRecord l := fun heq => absurd heq h

theorem slotRecord_nil : SlotRecord [] := slotRecord_of_length (by decide)

theorem slotRecord_bytes {info : PairInfo} (h : IsSlot info.devIdx) : SlotRecord info.bytes :=
  fun _ => ⟨info, rfl, h⟩

/-- A payload of another length is no record. -/
theorem slotRecord_message {p : NrfEsbPayload} (h : p.length ≠ sizeofPairInfo) :
    SlotRecord p.message := by
  apply slotRecord_of_length
  have hne : p.length.toNat ≠ sizeofPairInfo.toNat := mt UInt8.toNat_inj.mp h
  rw [length_message]
  show min p.length.toNat 32 ≠ 8
  change p.length.toNat ≠ 8 at hne
  omega

/-- An index that is offered is the one of a slot. -/
theorem isSlot_of_offers {ds : BoxData} {devType idx : UInt8} (h : Box.Offers ds devType idx) :
    IsSlot idx := by
  unfold IsSlot
  cases h <;> omega

/-- A payload of the right length is read as the record of a slot. -/
theorem SlotRecord.ofData {p : NrfEsbPayload} (h : SlotRecord p.message)
    (hlen : p.length = sizeofPairInfo) : IsSlot (PairInfo.ofData p.data).devIdx := by
  have hlength : p.message.length = sizeofPairInfo.toNat := by
    rw [length_message, hlen]
    rfl
  obtain ⟨info, hbytes, hslot⟩ := h hlength
  have hdata : p.data.firstN sizeofPairInfo.toNat = info.bytes := by
    rw [← hbytes, NrfEsbPayload.message, hlen]
  rw [PairInfo.ofData_eq hdata]
  exact hslot

/-- The ACK payload of the box carries the record it was made of. -/
theorem message_ofBytes (info : PairInfo) :
    (NrfEsbPayload.ofBytes 0 0 info.bytes).message = info.bytes := by
  have hcarries := Box.carries_ofBytes info 0
  unfold NrfEsbPayload.message
  exact (congrArg _ (congrArg UInt8.toNat hcarries.length)).trans hcarries.bytes

/-! ## §2 The box -/

/-- The record of a box whose six slots are taken. -/
structure BoxData.Full (ds : BoxData) : Prop where
  signature : ds.signature = dsSignature
  display : ds.displaySlotIdx = maximumDisplayDev
  controller : ds.controllerSlotIdx = maximumControllerDev

namespace Box

/-- Flash and session: the flash holds a full record, or the box is in setup mode and its flash
    has no signature or a full record. -/
structure Settled (b : Box) : Prop where
  flash : b.flash.signature = dsSignature → b.flash.Full
  session : b.flash.Full ∨ b.gMode = .pairing
  signature : b.gDs.signature = dsSignature

/-- **The box**: all that its module conveys are records of slots, if it has the size of one. -/
structure Valid (b : Box) : Prop where
  esb : Conveys SlotRecord b.esb
  ready : b.gMode ≠ .normal → b.esb.configLocal.protocol = .esbDpl
  beacon : b.gBeacon.length = 10
  settled : b.Settled

/-- A box whose module works. -/
structure Sound (b : Box) : Prop where
  esb : Works SlotRecord b.esb
  beacon : b.gBeacon.length = 10
  settled : b.Settled

variable {b b' : Box}

theorem Sound.valid (h : Sound b) : Valid b := ⟨h.esb.toConveys, fun _ => h.esb.dpl, h.beacon, h.settled⟩

theorem Settled.of_eq (h : Settled b) (hmode : b'.gMode = b.gMode) (hflash : b'.flash = b.flash)
    (hsig : b'.gDs.signature = b.gDs.signature) : Settled b' where
  flash := hflash ▸ h.flash
  session := hflash ▸ hmode ▸ h.session
  signature := hsig.trans h.signature

/-- **A call of the module.** -/
theorem Sound.call (h : Sound b) (c : EsbCall) (hc : Supplies SlotRecord b.esb c)
    (hesb : b'.esb = b.esb.exec c) (hbeacon : b'.gBeacon.length = b.gBeacon.length)
    (hsettled : Settled b') : Sound b' :=
  ⟨hesb ▸ h.esb.exec slotRecord_nil c hc, hbeacon.trans h.beacon, hsettled⟩

/-- A call through `callEsb`, which changes the module only. -/
theorem Sound.callEsb (h : Sound b) {f : Esb → RetCode × Esb} (c : EsbCall)
    (hc : Supplies SlotRecord b.esb c) (hf : (f b.esb).2 = b.esb.exec c) : Sound (b.callEsb f) :=
  h.call c hc hf rfl (h.settled.of_eq rfl rfl rfl)

/-- `esb_init` of the box. -/
theorem works_esbInit {s : Esb} (h : Conveys SlotRecord s) (isPtx : Bool) :
    Works SlotRecord (esbInit isPtx s).2 :=
  (h.exec slotRecord_nil .disable trivial).init slotRecord_nil (appEsbConfig isPtx) rfl

theorem Sound.esbInit (h : Sound b) (isPtx : Bool) : Sound (b.callEsb (esbInit isPtx)) :=
  ⟨works_esbInit h.esb.toConveys isPtx, h.beacon, h.settled.of_eq rfl rfl rfl⟩

/-! ### The event handler -/

theorem Sound.onTxDone (h : Sound b) : Sound b.onTxDone := by
  have hflushed : Sound ((b.callEsb nrfEsbFlushRx).callEsb nrfEsbFlushTx) :=
    (h.callEsb .flushRx trivial rfl).callEsb .flushTx trivial rfl
  unfold Box.onTxDone
  dsimp only
  split
  · have hinit := hflushed.esbInit false
    exact hinit.callEsb .startRx hinit.esb.dpl rfl
  · exact hflushed

/-- A record is written for a free slot only. -/
theorem Sound.onPairReq (h : Sound b) : Sound b.onPairReq := by
  have hpending : ∀ t, Sound { b with gCurPairingDevType := t } :=
    fun _ => ⟨h.esb, h.beacon, h.settled.of_eq rfl rfl rfl⟩
  unfold Box.onPairReq
  rcases offer_cases b.gDs (b.rxPayload.data.get 1) with hnone | ⟨idx, hoffer, hidx, hoffers⟩
  · rw [hnone]
    exact hpending 0
  · rw [hoffer]
    dsimp only
    rw [if_pos hidx]
    have hflushed := (hpending (b.rxPayload.data.get 1)).callEsb .flushTx trivial
      (f := nrfEsbFlushTx) rfl
    refine hflushed.callEsb (.writePayload _) ?_ rfl
    show SlotRecord (NrfEsbPayload.message _)
    rw [message_ofBytes]
    exact slotRecord_bytes (isSlot_of_offers hoffers)

theorem takeSlot_frame (b : Box) : (takeSlot b).esb = b.esb ∧ (takeSlot b).gMode = b.gMode ∧
    (takeSlot b).gBeacon = b.gBeacon ∧ (takeSlot b).flash = b.flash ∧
    (takeSlot b).gDs.signature = b.gDs.signature := by
  unfold takeSlot
  split
  · exact ⟨rfl, rfl, rfl, rfl, rfl⟩
  · split <;> exact ⟨rfl, rfl, rfl, rfl, rfl⟩

theorem onTxDone_gMode (b : Box) : b.onTxDone.gMode = b.gMode := by
  unfold Box.onTxDone
  dsimp only
  split <;> rfl

/-- **The record in flash is written when all slots are taken.** -/
theorem Sound.onPairInfoGet (h : Sound b) : Sound b.onPairInfoGet := by
  have hflushed := h.callEsb .flushTx trivial (f := nrfEsbFlushTx) rfl
  obtain ⟨hesb, hmode, hbeacon, hflash, hsig⟩ := takeSlot_frame (b.callEsb nrfEsbFlushTx)
  have htaken : Sound (takeSlot (b.callEsb nrfEsbFlushTx)) :=
    ⟨hesb ▸ hflushed.esb, hbeacon ▸ hflushed.beacon, hflushed.settled.of_eq hmode hflash hsig⟩
  unfold Box.onPairInfoGet
  dsimp only
  split
  case isTrue hall =>
    have hfull : (takeSlot (b.callEsb nrfEsbFlushTx)).gDs.Full :=
      ⟨htaken.settled.signature, hall.2, hall.1⟩
    exact ⟨htaken.esb, htaken.beacon, fun _ => hfull, .inl hfull, htaken.settled.signature⟩
  case isFalse => exact ⟨htaken.esb, htaken.beacon, htaken.settled.of_eq rfl rfl rfl⟩

theorem Sound.onPayload (h : Sound b) : Sound b.onPayload := by
  unfold Box.onPayload
  split
  · split
    · exact h.onPairReq
    · split
      · exact h.onPairInfoGet
      · exact h
  · split
    · split
      · exact ⟨h.esb, h.beacon, h.settled.of_eq rfl rfl rfl⟩
      · exact h
    · exact h

theorem Sound.onRxReceived (h : Sound b) : Sound b.onRxReceived := by
  obtain ⟨b₁, hb₁⟩ : ∃ b₁ : Box, b₁ = { b with
      esb := (nrfEsbReadRxPayload (some b.rxPayload) b.esb).2.2
      rxPayload := (nrfEsbReadRxPayload (some b.rxPayload) b.esb).2.1.getD b.rxPayload } := ⟨_, rfl⟩
  have hread : Sound b₁ := by
    refine h.call (.readRxPayload (some b.rxPayload)) trivial ?_ ?_ ?_
    · rw [hb₁]
      rfl
    · rw [hb₁]
    · rw [hb₁]
      exact h.settled.of_eq rfl rfl rfl
  unfold Box.onRxReceived
  dsimp only
  rw [← hb₁]
  split
  · exact (hread.callEsb .flushRx trivial rfl).onPayload
  · exact hread

theorem Sound.nrfEsbEventHandler (h : Sound b) (event : NrfEsbEvt) :
    Sound (b.nrfEsbEventHandler event) := by
  unfold Box.nrfEsbEventHandler
  split
  · exact h.onTxDone
  · exact h.onTxDone
  · exact h.onRxReceived

/-! ### Interrupts and start-up -/

/-- A call before the first tick, when the module may not work yet. -/
theorem Valid.call (h : Valid b) (c : EsbCall) (hc : Supplies SlotRecord b.esb c)
    (hesb : b'.esb = b.esb.exec c) (hmode : b'.gMode = b.gMode)
    (hbeacon : b'.gBeacon.length = b.gBeacon.length) (hsettled : Settled b') : Valid b' where
  esb := hesb ▸ h.esb.exec slotRecord_nil c hc
  ready hpairing := hesb ▸ dpl_exec (h.ready (hmode ▸ hpairing)) hc
  beacon := hbeacon.trans h.beacon
  settled := hsettled

theorem Valid.radioIrq (h : Valid b) {ev : RadioEvent}
    (hev : ∀ pkt, ev.packet = some pkt → ev.crcOk = true → pkt.Carries SlotRecord) :
    Valid (b.radioIrq ev) :=
  h.call (.radioIrq ev) hev rfl rfl rfl (h.settled.of_eq rfl rfl rfl)

theorem Valid.esbEvtIrq (h : Valid b) : Valid b.esbEvtIrq := by
  obtain ⟨b₁, hb₁⟩ : ∃ b₁ : Box, b₁ = { b with esb := (esbEvtIrqHandler b.esb).2 } := ⟨_, rfl⟩
  have hcollected : Valid b₁ := by
    refine h.call .evtIrq trivial ?_ ?_ ?_ ?_
    · rw [hb₁]
      rfl
    · rw [hb₁]
    · rw [hb₁]
    · rw [hb₁]
      exact h.settled.of_eq rfl rfl rfl
  have hevt : b.esbEvtIrq = (esbEvtIrqHandler b.esb).1.foldl Box.nrfEsbEventHandler b₁ := by
    rw [hb₁]
    rfl
  rw [hevt]
  rcases hcollected.esb.protocol with hdpl | huntouched
  · -- the module works, and the handler runs
    have hrun : ∀ (events : List NrfEsbEvt) (b : Box), Sound b →
        Sound (events.foldl Box.nrfEsbEventHandler b) := by
      intro events
      induction events with
      | nil => exact fun _ hb => hb
      | cons event events ih => exact fun _ hb => ih _ (hb.nrfEsbEventHandler event)
    exact (hrun _ _ ⟨⟨hcollected.esb, hdpl⟩, hcollected.beacon, hcollected.settled⟩).valid
  · have hinit : b.esb.esbInitialized = false := by
      have hcollect : b₁.esb.esbInitialized = b.esb.esbInitialized := by
        rw [hb₁]
        simp only [esbEvtIrqHandler]
        repeat' split
        all_goals rfl
      rw [← hcollect]
      exact huntouched.initialized
    have hnone : (esbEvtIrqHandler b.esb).1 = [] := by
      unfold esbEvtIrqHandler
      dsimp only
      rw [if_pos (by simp [hinit])]
    rw [hnone]
    exact hcollected

theorem conveys_stopRxWaitIdle {s : Esb} (h : Conveys SlotRecord s) :
    Conveys SlotRecord (stopRxWaitIdle s) ∧
      (s.configLocal.protocol = .esbDpl → (stopRxWaitIdle s).configLocal.protocol = .esbDpl) := by
  have hstop := h.exec slotRecord_nil .stopRx trivial
  unfold stopRxWaitIdle
  split
  · dsimp only
    split
    · have hworks := works_esbInit hstop false
      exact ⟨hworks.toConveys, fun _ => hworks.dpl⟩
    · exact ⟨hstop, fun hdpl => dpl_exec (Q := SlotRecord) (c := .stopRx) hdpl trivial⟩
  · exact ⟨h, id⟩

theorem Valid.hopChannel (h : Valid b) : Valid b.hopChannel := by
  obtain ⟨hstopped, hdpl⟩ := conveys_stopRxWaitIdle h.esb
  have hidle : Valid { b with
      gCurChIdx := nextChIdx b.gCurChIdx, esb := stopRxWaitIdle b.esb } :=
    ⟨hstopped, fun hpairing => hdpl (h.ready hpairing), h.beacon, h.settled.of_eq rfl rfl rfl⟩
  exact hidle.call
    (.setRfChannel (b.gaChlist.get (nextChIdx b.gCurChIdx).toNat).toUInt32) trivial rfl rfl rfl
    (h.settled.of_eq rfl rfl rfl)

/-- A beacon has ten bytes. -/
theorem Sound.sendBeacon (h : Sound b) : Sound b.sendBeacon := by
  obtain ⟨hesb, hmode, -, hlength⟩ := fillBeacon_frame b
  have hrest : (fillBeacon b).flash = b.flash ∧ (fillBeacon b).gDs = b.gDs := by
    unfold fillBeacon
    split <;> exact ⟨rfl, rfl⟩
  have hfilled : Sound { fillBeacon b with gBeacon := { (fillBeacon b).gBeacon with noack := 1 } } :=
    ⟨hesb ▸ h.esb, hlength.trans h.beacon,
      h.settled.of_eq hmode hrest.1 (congrArg BoxData.signature hrest.2)⟩
  refine hfilled.callEsb (.writePayload (some _)) ?_ rfl
  apply slotRecord_message
  rw [hfilled.beacon]
  decide

theorem Valid.tick (h : Valid b) : Valid b.intervalTimerEventHandler := by
  have hhop := h.hopChannel
  unfold intervalTimerEventHandler
  dsimp only
  split
  · have hinit : Sound (b.hopChannel.callEsb (Box.esbInit true)) :=
      ⟨works_esbInit hhop.esb true, hhop.beacon, hhop.settled.of_eq rfl rfl rfl⟩
    exact hinit.sendBeacon.valid
  case h_2 hpairing =>
    have hdpl := hhop.ready (by rw [hpairing]; decide)
    exact hhop.call .startRx hdpl rfl rfl rfl (hhop.settled.of_eq rfl rfl rfl)
  · exact hhop

/-- **`enter_setup_mode`** starts a session. -/
theorem sound_enterSetupMode (picked : ChannelList) {b : Box} (hesb : Conveys SlotRecord b.esb)
    (hbeacon : b.gBeacon.length = 10) (hsig : b.gDs.signature = dsSignature)
    (hflash : b.flash.signature = dsSignature → b.flash.Full) :
    Sound (enterSetupMode picked b) := by
  have hinit := works_esbInit hesb false
  have hchannel := hinit.exec slotRecord_nil
    (.setRfChannel (defaultPairingChannelList.get 0).toUInt32) trivial
  have hstart := hchannel.exec slotRecord_nil .startRx hchannel.dpl
  exact ⟨hstart, hbeacon, hflash, .inr rfl, hsig⟩

/-- The addresses that `main` sets. -/
theorem conveys_setAddresses {b : Box} (h : Conveys SlotRecord b.esb) :
    Conveys SlotRecord (setAddresses b).esb := by
  have hbase0 := h.exec slotRecord_nil (.setBaseAddress0 (some defaultPairingAddress32)) trivial
  have hbase1 := hbase0.exec slotRecord_nil (.setBaseAddress1 (some b.gBaseAddr1)) trivial
  exact hbase1.exec slotRecord_nil (.setPrefixes (some addrPrefix) 7) trivial

theorem sound_setup (picked : ChannelList) {b : Box} (hesb : b.esb = Esb.reset)
    (hbeacon : b.gBeacon = initialBeacon) (hsig : b.gDs.signature = dsSignature)
    (hflash : b.flash.signature = dsSignature → b.flash.Full) :
    Sound (enterSetupMode picked (setAddresses b)) := by
  refine sound_enterSetupMode picked (conveys_setAddresses ?_) ?_ hsig hflash
  · rw [hesb]
    exact conveys_reset slotRecord_nil
  · rw [show (setAddresses b).gBeacon = b.gBeacon from rfl, hbeacon]
    decide

/-- **After a power cycle** on a flash page with no record or a full one. -/
theorem valid_main (chipId : FixedArray 4 UInt8) {flash : BoxData} (button : Bool)
    (picked : ChannelList) (h : flash.signature = dsSignature → flash.Full) :
    Valid (Box.main chipId flash button picked) := by
  unfold Box.main
  dsimp only
  split
  · exact Sound.valid (sound_setup picked rfl rfl rfl h)
  case isFalse hsig =>
    have hvalid : flash.signature = dsSignature := not_not.mp hsig
    split
    · exact Sound.valid (sound_setup picked rfl rfl hvalid h)
    · split
      · exact Sound.valid (sound_setup picked rfl rfl hvalid h)
      · refine ⟨conveys_setAddresses (conveys_reset slotRecord_nil), fun hmode => absurd rfl hmode,
          ?_, h, .inl (h hvalid), hvalid⟩
        show initialBeacon.length = 10
        decide

/-- `main` ends in one of two modes. -/
theorem main_modes (chipId : FixedArray 4 UInt8) (flash : BoxData) (button : Bool)
    (picked : ChannelList) :
    (Box.main chipId flash button picked).gMode = .pairing ∨
      (Box.main chipId flash button picked).gMode = .normal ∧
        (Box.main chipId flash button picked).gDevsPairedMask = pairedMaskOf flash := by
  unfold Box.main
  dsimp only
  split
  · exact .inl rfl
  · split
    · exact .inl rfl
    · split
      · exact .inl rfl
      · exact .inr ⟨rfl, rfl⟩

/-- **The mask of a full record** has the bits of all slots. -/
theorem hasDevice_pairedMaskOf {flash : BoxData} (h : flash.Full) {idx : UInt8} (hidx : IsSlot idx) :
    hasDevice (pairedMaskOf flash) idx.toNat = true := by
  have htable : ∀ i : Fin 7, 1 ≤ i.val → hasDevice 0x3f i.val = true := by decide
  have hmask : pairedMaskOf flash = 0x3f := by
    unfold pairedMaskOf
    rw [h.display, h.controller]
    decide
  rw [hmask]
  exact htable ⟨idx.toNat, by have := hidx.2; omega⟩ hidx.1

end Box

/-! ## §3 A device -/

namespace Device

/-- What a device sends of its own accord is in `Q`: requests and data. -/
structure Utters (Q : List UInt8 → Prop) : Prop where
  nil : Q []
  request : ∀ x y, Q (request x y).message
  data : ∀ i, Q (initialTxDataPayload.get i).message

/-- **A device**: all that its module conveys, and all that it has read or has to send, is
    in `Q`. -/
structure Sound (Q : List UInt8 → Prop) (d : Device) : Prop where
  own : Utters Q
  esb : Works Q d.esb
  read : Q d.rxPayload.message
  data : ∀ i, Q (d.txDataPayload.get i).message

/-- The device stays in its mode and writes no flash. -/
structure Keeps (Q : List UInt8 → Prop) (d d' : Device) : Prop where
  sound : Sound Q d'
  mode : d'.gMode = d.gMode
  flash : d'.flash = d.flash

/-- The device has stored the record in a payload of `Q`. -/
def StoredFrom (Q : List UInt8 → Prop) (d : Device) : Prop :=
  ∃ p : NrfEsbPayload, Q p.message ∧ p.length = sizeofPairInfo ∧
    d.flash.devIdx = (PairInfo.ofData p.data).devIdx

/-- **What an interrupt does to the flash**: nothing, or the device leaves pairing mode with the
    record in a payload that it has received. -/
structure Outcome (Q : List UInt8 → Prop) (d d' : Device) : Prop where
  sound : Sound Q d'
  flash : (d'.gMode = d.gMode ∧ d'.flash = d.flash) ∨
    (d.gMode = .pairing ∧ d'.gMode = .normal ∧ StoredFrom Q d')

variable {Q : List UInt8 → Prop} {d d' d'' : Device}

theorem Keeps.outcome (h : Keeps Q d d') : Outcome Q d d' := ⟨h.sound, .inl ⟨h.mode, h.flash⟩⟩

theorem Keeps.trans (h : Keeps Q d d') (h' : Keeps Q d' d'') : Keeps Q d d'' :=
  ⟨h'.sound, h'.mode.trans h.mode, h'.flash.trans h.flash⟩

/-- A device leaves pairing mode once. -/
theorem Outcome.trans (h : Outcome Q d d') (h' : Outcome Q d' d'') : Outcome Q d d'' := by
  refine ⟨h'.sound, ?_⟩
  rcases h.flash with ⟨hmode, hflash⟩ | ⟨hpairing, hnormal, hslot⟩
  · rw [← hmode, ← hflash]
    exact h'.flash
  · rcases h'.flash with ⟨hmode, hflash⟩ | ⟨hpairing', -⟩
    · obtain ⟨p, hp, hlen, hidx⟩ := hslot
      exact .inr ⟨hpairing, hmode.trans hnormal, p, hp, hlen, hflash ▸ hidx⟩
    · rw [hnormal] at hpairing'
      cases hpairing'

/-- **A call of the module.** -/
theorem Sound.call (h : Sound Q d) (c : EsbCall) (hc : Supplies Q d.esb c)
    (hesb : d'.esb = d.esb.exec c) (hread : d'.rxPayload = d.rxPayload)
    (hdata : d'.txDataPayload = d.txDataPayload) : Sound Q d' :=
  ⟨h.own, hesb ▸ h.esb.exec h.own.nil c hc, hread ▸ h.read, hdata ▸ h.data⟩

/-- A call through `callEsb`, which changes the module only. -/
theorem Sound.callEsb (h : Sound Q d) {f : Esb → RetCode × Esb} (c : EsbCall)
    (hc : Supplies Q d.esb c) (hf : (f d.esb).2 = d.esb.exec c) :
    Keeps Q d (d.callEsb f) := ⟨h.call c hc hf rfl rfl, rfl, rfl⟩

/-! ### Sending -/

theorem Sound.sendPairingReq (h : Sound Q d) : Keeps Q d d.sendPairingReq :=
  have hflushed := h.callEsb .flushTx trivial (f := nrfEsbFlushTx) rfl
  hflushed.trans (hflushed.sound.callEsb (.writePayload (some (request idPairReq d.gDevType)))
    (h.own.request _ _) rfl)

theorem Sound.sendGetInfoReq (h : Sound Q d) : Keeps Q d d.sendGetInfoReq :=
  have hflushed := h.callEsb .flushTx trivial (f := nrfEsbFlushTx) rfl
  hflushed.trans (hflushed.sound.callEsb (.writePayload (some (request idPairInfoGet 0)))
    (h.own.request _ _) rfl)

theorem Sound.hopChannel (h : Sound Q d) : Keeps Q d d.hopChannel :=
  ⟨h.call (.setRfChannel (d.gaChlist.get (nextChIdx d.gCurChIdx).toNat).toUInt32) trivial rfl rfl rfl,
    rfl, rfl⟩

/-- **Data** goes out as it is. -/
theorem Sound.sendDeviceData (h : Sound Q d) (isRetransmit : Bool) :
    Keeps Q d (sendDeviceData isRetransmit d) := by
  obtain ⟨idx, hidx⟩ : ∃ idx, idx =
      if isRetransmit then otherIdx d.gCurPayloadIdx else d.gCurPayloadIdx := ⟨_, rfl⟩
  obtain ⟨p, hp⟩ : ∃ p : NrfEsbPayload, p = { d.txDataPayload.get idx.toNat with noack := 0 } :=
    ⟨_, rfl⟩
  have hpayload : Q p.message := by
    rw [hp]
    exact h.data idx.toNat
  have hdata : ∀ i, Q ((d.txDataPayload.set idx.toNat p).get i).message :=
    forall_get_set (P := fun q => Q q.message) h.data hpayload
  have hflushed := h.esb.exec h.own.nil .flushTx trivial
  have hwritten := hflushed.exec h.own.nil (.writePayload (some p)) hpayload
  rw [hp] at hwritten hdata
  rw [hidx] at hwritten hdata
  cases isRetransmit <;> exact ⟨⟨h.own, hwritten, h.read, hdata⟩, rfl, rfl⟩

theorem Sound.esbInit (h : Sound Q d) (isPtx : Bool) : Keeps Q d (d.callEsb (esbInit isPtx)) :=
  h.callEsb (.init (some (appEsbConfig isPtx))) rfl rfl

theorem Sound.listenForBeacon (h : Sound Q d) : Keeps Q d d.listenForBeacon := by
  have hscan : Sound Q { d with gScanTimeout := beaconScanShortTimeoutMs } := ⟨h.own, h.esb, h.read, h.data⟩
  have hinit := (hscan.hopChannel).trans (hscan.hopChannel.sound.esbInit false)
  have hstart := hinit.trans
    (hinit.sound.callEsb .startRx hinit.sound.esb.dpl (f := nrfEsbStartRx) rfl)
  exact ⟨⟨hstart.sound.own, hstart.sound.esb, hstart.sound.read, hstart.sound.data⟩, hstart.mode, hstart.flash⟩

/-! ### The event handler -/

theorem Sound.onTxSuccess (h : Sound Q d) : Keeps Q d d.onTxSuccess := by
  unfold Device.onTxSuccess
  split
  · split
    · have hwait : Sound Q { d with gPairState := .waitForInfo } := ⟨h.own, h.esb, h.read, h.data⟩
      obtain ⟨hsound, hmode, hflash⟩ := hwait.sendGetInfoReq
      exact ⟨hsound, hmode, hflash⟩
    · exact ⟨h, rfl, rfl⟩
    · exact ⟨h, rfl, rfl⟩
  · exact h.listenForBeacon

theorem Sound.onTxFailed (h : Sound Q d) : Keeps Q d d.onTxFailed := by
  have hflushed := h.callEsb .flushTx trivial (f := nrfEsbFlushTx) rfl
  have hhop := hflushed.trans hflushed.sound.hopChannel
  unfold Device.onTxFailed
  dsimp only
  split
  · split
    · exact hhop.trans hhop.sound.sendGetInfoReq
    · exact hhop.trans hhop.sound.sendPairingReq
  · exact hflushed.trans hflushed.sound.listenForBeacon

/-- A device before it initialises its module. -/
structure Boots (Q : List UInt8 → Prop) (d : Device) : Prop where
  own : Utters Q
  esb : Conveys Q d.esb
  read : Q d.rxPayload.message
  data : ∀ i, Q (d.txDataPayload.get i).message

theorem Boots.esbInit (h : Boots Q d) (isPtx : Bool) :
    Sound Q (d.callEsb (Device.esbInit isPtx)) :=
  ⟨h.own, h.esb.init h.own.nil (appEsbConfig isPtx) rfl, h.read, h.data⟩

theorem Boots.enterNormalMode (h : Boots Q d) : Sound Q d.enterNormalMode := by
  have hbase := (h.esbInit false).esb.exec h.own.nil
    (.setBaseAddress1 (some d.gDs.sysAddress32)) trivial
  have hpfx := hbase.exec h.own.nil (.updatePrefix 1 d.gDs.devIdx) trivial
  exact ⟨h.own, hpfx, h.read, h.data⟩

theorem Sound.enterNormalMode (h : Sound Q d) :
    Sound Q d.enterNormalMode ∧ d.enterNormalMode.flash = d.flash :=
  ⟨Boots.enterNormalMode ⟨h.own, h.esb.toConveys, h.read, h.data⟩, rfl⟩

/-- **A record is stored** only in pairing mode. -/
theorem Sound.storePairInfo (h : Sound Q d) (hmode : d.gMode = .pairing)
    (hlen : d.rxPayload.length = sizeofPairInfo) : Outcome Q d d.storePairInfo := by
  obtain ⟨d₁, hd₁⟩ : ∃ d₁ : Device, d₁ = { d with gDs := { d.gDs with
      chlist := (PairInfo.ofData d.rxPayload.data).chlist
      sysAddress32 := (PairInfo.ofData d.rxPayload.data).systemAddress32
      devIdx := (PairInfo.ofData d.rxPayload.data).devIdx } } := ⟨_, rfl⟩
  have hsound : Sound Q { d₁ with flash := d₁.gDs } := by
    rw [hd₁]
    exact ⟨h.own, h.esb, h.read, h.data⟩
  have hstore : d.storePairInfo = Device.enterNormalMode { d₁ with flash := d₁.gDs } := by
    rw [hd₁]
    rfl
  obtain ⟨hnormal, hflash⟩ := hsound.enterNormalMode
  rw [hstore]
  refine ⟨hnormal, .inr ⟨hmode, rfl, d.rxPayload, h.read, hlen, ?_⟩⟩
  rw [hflash]
  show d₁.gDs.devIdx = _
  rw [hd₁]

theorem Sound.onBeacon (h : Sound Q d) : Keeps Q d d.onBeacon := by
  obtain ⟨d₁, hd₁⟩ : ∃ d₁, d₁ = intervalTimerStop { d with gSyncTimeout := beaconScanLongTimeoutMs } :=
    ⟨_, rfl⟩
  have hstopped : Sound Q d₁ := hd₁ ▸ ⟨h.own, h.esb, h.read, h.data⟩
  have hrx := hstopped.callEsb .stopRx trivial (f := nrfEsbStopRx) rfl
  unfold Device.onBeacon
  dsimp only
  split
  · rename_i isResend _
    have hsend := (hrx.sound.esbInit true).trans ((hrx.sound.esbInit true).sound.sendDeviceData isResend)
    have hall := hrx.trans hsend
    rw [hd₁] at hall
    exact ⟨hall.sound, hall.mode, hall.flash⟩
  · have hinit := hrx.trans (hrx.sound.esbInit false)
    rw [hd₁] at hinit
    exact ⟨⟨hinit.sound.own, hinit.sound.esb, hinit.sound.read, hinit.sound.data⟩, hinit.mode, hinit.flash⟩

theorem Sound.onPayload (h : Sound Q d) : Outcome Q d d.onPayload := by
  unfold Device.onPayload
  split
  case isTrue hpairing =>
    split
    case isTrue hlen => exact h.storePairInfo hpairing.1 hlen
    case isFalse => exact ⟨h, .inl ⟨rfl, rfl⟩⟩
  case isFalse =>
    split
    · split
      · exact h.onBeacon.outcome
      · exact ⟨h, .inl ⟨rfl, rfl⟩⟩
    · exact ⟨h, .inl ⟨rfl, rfl⟩⟩

/-- What is read comes from a cell of the RX FIFO, or is the payload read before. -/
theorem Sound.onRxReceived (h : Sound Q d) : Outcome Q d d.onRxReceived := by
  obtain ⟨d₁, hd₁⟩ : ∃ d₁ : Device, d₁ = { d with
      esb := (nrfEsbReadRxPayload (some d.rxPayload) d.esb).2.2
      rxPayload := (nrfEsbReadRxPayload (some d.rxPayload) d.esb).2.1.getD d.rxPayload } := ⟨_, rfl⟩
  have hesb : Works Q d₁.esb := by
    rw [hd₁]
    exact h.esb.exec h.own.nil (.readRxPayload (some d.rxPayload)) trivial
  have hread : Q d₁.rxPayload.message := by
    have hcell := h.esb.rx d.esb.rxFifo.exitPoint
    rw [hd₁]
    unfold nrfEsbReadRxPayload
    dsimp only
    split
    · exact h.read
    · split
      · exact h.read
      · rw [Option.getD_some, message_copyRxPayload]
        exact hcell
  have hframe : d₁.gMode = d.gMode ∧ d₁.flash = d.flash := by
    rw [hd₁]
    exact ⟨rfl, rfl⟩
  have hsound : Sound Q d₁ := ⟨h.own, hesb, hread, by rw [hd₁]; exact h.data⟩
  have hkeeps : Keeps Q d d₁ := ⟨hsound, hframe.1, hframe.2⟩
  have hrx : d.onRxReceived = d₁.onPayload := by
    rw [hd₁]
    rfl
  rw [hrx]
  exact hkeeps.outcome.trans hsound.onPayload

theorem Sound.nrfEsbEventHandler (h : Sound Q d) (event : NrfEsbEvt) :
    Outcome Q d (d.nrfEsbEventHandler event) := by
  unfold Device.nrfEsbEventHandler
  split
  · exact h.onTxSuccess.outcome
  · exact h.onTxFailed.outcome
  · exact h.onRxReceived

/-! ### Interrupts and start-up -/

theorem Sound.esbEvtIrq (h : Sound Q d) : Outcome Q d d.esbEvtIrq := by
  obtain ⟨d₁, hd₁⟩ : ∃ d₁ : Device, d₁ = { d with esb := (esbEvtIrqHandler d.esb).2 } := ⟨_, rfl⟩
  have hkeeps : Keeps Q d d₁ := by
    rw [hd₁]
    exact ⟨h.call .evtIrq trivial rfl rfl rfl, rfl, rfl⟩
  have hevt : d.esbEvtIrq = (esbEvtIrqHandler d.esb).1.foldl Device.nrfEsbEventHandler d₁ := by
    rw [hd₁]
    rfl
  have hrun : ∀ (events : List NrfEsbEvt) (d : Device), Sound Q d →
      Outcome Q d (events.foldl Device.nrfEsbEventHandler d) := by
    intro events
    induction events with
    | nil => exact fun _ hd => ⟨hd, .inl ⟨rfl, rfl⟩⟩
    | cons event events ih =>
      intro d hd
      have hfirst := hd.nrfEsbEventHandler event
      exact hfirst.trans (ih _ hfirst.sound)
  rw [hevt]
  exact hkeeps.outcome.trans (hrun _ _ hkeeps.sound)

theorem Sound.radioIrq (h : Sound Q d) {ev : RadioEvent}
    (hev : ∀ pkt, ev.packet = some pkt → ev.crcOk = true → pkt.Carries Q) :
    Keeps Q d (d.radioIrq ev) := ⟨h.call (.radioIrq ev) hev rfl rfl rfl, rfl, rfl⟩

theorem Sound.tick (h : Sound Q d) : Keeps Q d d.intervalTimerEventHandler := by
  unfold intervalTimerEventHandler
  split
  · dsimp only
    split
    · obtain ⟨d₁, hd₁⟩ : ∃ d₁ : Device, d₁ = { d with
          gForceHopChannel := false
          gSyncTimeout := countDown d.gSyncTimeout
          gScanTimeout := if countDown d.gSyncTimeout = 0 then beaconScanLongTimeoutMs
            else beaconScanShortTimeoutMs } := ⟨_, rfl⟩
      have hcounted : Keeps Q d d₁ := by
        rw [hd₁]
        exact ⟨⟨h.own, h.esb, h.read, h.data⟩, rfl, rfl⟩
      have hstop := hcounted.trans (hcounted.sound.callEsb .stopRx trivial (f := nrfEsbStopRx) rfl)
      have hhop := hstop.trans hstop.sound.hopChannel
      have hstart := hhop.trans
        (hhop.sound.callEsb .startRx hhop.sound.esb.dpl (f := nrfEsbStartRx) rfl)
      exact hd₁ ▸ hstart
    · exact ⟨⟨h.own, h.esb, h.read, h.data⟩, rfl, rfl⟩
  · exact ⟨h, rfl, rfl⟩

theorem Sound.intervalTimerStart (h : Sound Q d) : Sound Q d.intervalTimerStart :=
  ⟨h.own, h.esb, h.read, h.data⟩

theorem Boots.doPairing (h : Boots Q d) : Sound Q d.doPairing := by
  have hinit := h.esbInit true
  obtain ⟨d₁, hd₁⟩ : ∃ d₁ : Device, d₁ = { d.callEsb (Device.esbInit true) with
      gaChlist := defaultPairingChannelList, gCurChIdx := 0 } := ⟨_, rfl⟩
  have hlisted : Sound Q d₁ := hd₁ ▸ ⟨hinit.own, hinit.esb, hinit.read, hinit.data⟩
  obtain ⟨d₂, hd₂⟩ : ∃ d₂ : Device, d₂ = { d₁.checkEsb (nrfEsbSetRfChannel
      (d₁.gaChlist.get d₁.gCurChIdx.toNat).toUInt32) with
        gMode := .pairing, gPairState := .sendReq } := ⟨_, rfl⟩
  have hchannel : Sound Q d₂ := by
    rw [hd₂]
    exact hlisted.call (.setRfChannel (d₁.gaChlist.get d₁.gCurChIdx.toNat).toUInt32) trivial rfl rfl
      rfl
  have hpairing : d.doPairing = d₂.sendPairingReq := by
    rw [hd₂, hd₁]
    rfl
  rw [hpairing]
  exact hchannel.sendPairingReq.sound

theorem Boots.setAddresses (h : Boots Q d) : Boots Q d.setAddresses := by
  have hbase0 := h.esb.exec h.own.nil (.setBaseAddress0 (some defaultPairingAddress32)) trivial
  have hbase1 := hbase0.exec h.own.nil (.setBaseAddress1 (some d.gDs.sysAddress32)) trivial
  have haddr := hbase1.exec h.own.nil (.setPrefixes (some (addrPrefix d.gDs))
    (if d.gDs.devIdx = 0xff then 1 else 2)) trivial
  exact ⟨h.own, haddr, h.read, h.data⟩

theorem boots_boot (h : Utters Q) (flash : DeviceData) (button2 : Bool) :
    Boots Q (boot flash button2) := by
  have hreset : ∀ d : Device, d.esb = Esb.reset → d.rxPayload = default →
      d.txDataPayload = initialTxDataPayload → Boots Q d := by
    intro d hesb hread hdata
    exact ⟨h, hesb ▸ conveys_reset h.nil, hread ▸ h.nil, hdata ▸ h.data⟩
  unfold boot
  dsimp only
  split
  · exact (hreset _ rfl rfl rfl).setAddresses
  · exact (hreset _ rfl rfl rfl).setAddresses

/-- **After a power cycle**, whatever the flash holds. -/
theorem sound_main (h : Utters Q) (flash : DeviceData) (button1 button2 : Bool) :
    Sound Q (Device.main flash button1 button2) := by
  have hboot := boots_boot h flash button2
  have hmode : Sound Q (if (boot flash button2).gDs.devIdx = 0xff ∨ button1 then
      (boot flash button2).doPairing else (boot flash button2).enterNormalMode) := by
    split
    · exact hboot.doPairing
    · exact hboot.enterNormalMode
  exact hmode.intervalTimerStart

/-- **Neither requests nor data have the size of a record.** -/
theorem utters_slotRecord : Utters SlotRecord where
  nil := slotRecord_nil
  request x y := by
    apply slotRecord_message
    show (2 : UInt8) ≠ 8
    decide
  data i := by
    have hlength : ∀ j : Fin 2, (initialTxDataPayload.get j).length ≠ sizeofPairInfo := by decide
    by_cases hi : i < 2
    · exact slotRecord_message (hlength ⟨i, hi⟩)
    · have hdefault : initialTxDataPayload.get i = default := by
        unfold FixedArray.get
        rw [dif_neg hi]
      rw [hdefault]
      exact slotRecord_nil

/-- A record that was stored from a payload that was received is the one of a slot. -/
theorem StoredFrom.isSlot (h : StoredFrom SlotRecord d) : IsSlot d.flash.devIdx := by
  obtain ⟨p, hp, hlen, hidx⟩ := h
  rw [hidx]
  exact hp.ofData hlen

/-- A power cycle leaves the flash alone. -/
theorem main_flash (flash : DeviceData) (button1 button2 : Bool) :
    (Device.main flash button1 button2).flash = flash := by
  have hboot : (boot flash button2).flash = flash := by
    unfold boot
    dsimp only
    split <;> rfl
  have hmode : (if (boot flash button2).gDs.devIdx = 0xff ∨ button1 then
      (boot flash button2).doPairing else (boot flash button2).enterNormalMode).flash =
        (boot flash button2).flash := by
    split <;> rfl
  exact hmode.trans hboot

end Device

end NordicEsb
