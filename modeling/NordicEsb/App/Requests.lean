import NordicEsb.App.Device
import NordicEsb.App.Transfer

/-!
# A Device that Wants to be Paired

One attempt of a device in pairing mode: its request goes out, the acknowledgment window
closes with or without an acknowledgment, and the events reach the handler.

- `Requests`: the device is sending its only queued payload, a request of two bytes.
- `Requests.attempt`: after the attempt the device sends the next request or rests, or it
  has stored the record that the acknowledgment carried.
-/

namespace NordicEsb

namespace Device

/-! ## §1 Sending requests -/

/-- The device is in pairing mode, and its module rests with nothing received. -/
structure Rests (d : Device) : Prop where
  mode : d.gMode = .pairing
  idle : Idle true d.esb
  rx : d.esb.rxFifo.Represents []
  flags : d.esb.interruptFlags = .clear

/-- The device is in pairing mode and sends the request `p`. -/
structure Requests (d : Device) (p : NrfEsbPayload) : Prop where
  mode : d.gMode = .pairing
  sends : Transmits d.esb .ptxTxAck p
  length : p.length = 2
  rx : d.esb.rxFifo.Represents []
  flags : d.esb.interruptFlags = .clear

/-- When the module of a pairing device is busy sending, it sends a request. -/
def Sending (d : Device) : Prop := d.esb.mainstate = .ptxTxAck → ∃ p, Requests d p

/-- A request of two bytes on pipe 0. -/
def request (x y : UInt8) : NrfEsbPayload := .ofBytes 0 0 [x, y]

/-- **A resting device sends a request.** -/
theorem Rests.send {d : Device} (h : Rests d) (x y : UInt8) :
    ∃ p, Requests { d with esb := flushWrite (request x y) d.esb } p := by
  have hlen : 0 < (request x y).length.toNat ∧
      (request x y).length.toNat ≤ nrfEsbMaxPayloadLength := by
    rw [show (request x y).length = 2 from rfl]
    decide
  obtain ⟨hsends, hrx, hflags⟩ := h.idle.flushWrite hlen
  exact ⟨_, h.mode, hsends, rfl, hrx ▸ h.rx, hflags.trans h.flags⟩

theorem sendPairingReq_eq (d : Device) :
    d.sendPairingReq = { d with esb := flushWrite (request idPairReq d.gDevType) d.esb } := rfl

theorem sendGetInfoReq_eq (d : Device) :
    d.sendGetInfoReq = { d with esb := flushWrite (request idPairInfoGet 0) d.esb } := rfl

/-- Hopping leaves a resting device at rest. -/
theorem Rests.hopChannel {d : Device} (h : Rests d) :
    Rests d.hopChannel ∧ d.hopChannel.gDevType = d.gDevType ∧
      d.hopChannel.gPairState = d.gPairState := by
  obtain ⟨addr, haddr⟩ := nrfEsbSetRfChannel_idle h.idle.mainstate
    (d.gaChlist.get (nextChIdx d.gCurChIdx).toNat)
  have hesb : d.hopChannel.esb = { d.esb with esbAddr := addr } := by
    rw [← haddr]
    rfl
  refine ⟨⟨h.mode, ?_, ?_, ?_⟩, rfl, rfl⟩
  · rw [hesb]
    exact ⟨h.idle.initialized, h.idle.config, h.idle.mainstate⟩
  · rw [hesb]
    exact h.rx
  · rw [hesb]
    exact h.flags

/-! ## §2 The event handler -/

/-- The collected events reach the handler of an initialised device. -/
theorem esbEvtIrq_eq {d : Device} {isPtx : Bool} (hinit : d.esb.esbInitialized = true)
    (hcfg : d.esb.configLocal = appEsbConfig isPtx) :
    d.esbEvtIrq = (d.esb.interruptFlags.events d.esb.lastTxAttempts).foldl nrfEsbEventHandler
      { d with esb := { d.esb with evtIrqPending := false, interruptFlags := .clear } } := by
  rw [esbEvtIrq, esbEvtIrqHandler_app hinit hcfg]

/-- **TX failed**: the device hops and sends its request again. -/
theorem Rests.onTxFailed {d : Device} (h : Rests d) :
    (∃ p, Requests d.onTxFailed p) ∧ d.onTxFailed.gDevType = d.gDevType := by
  have hflush : d.callEsb nrfEsbFlushTx = { d with esb := { d.esb with
      txFifo := d.esb.txFifo.clear } } := by
    simp [callEsb, nrfEsbFlushTx, h.idle.initialized]
  have hrests : Rests (d.callEsb nrfEsbFlushTx) := by
    rw [hflush]
    exact ⟨h.mode, ⟨h.idle.initialized, h.idle.config, h.idle.mainstate⟩, h.rx, h.flags⟩
  obtain ⟨hhop, htype, -⟩ := hrests.hopChannel
  have heq : d.onTxFailed =
      if (d.callEsb nrfEsbFlushTx).hopChannel.gPairState = .waitForInfo then
        (d.callEsb nrfEsbFlushTx).hopChannel.sendGetInfoReq
      else (d.callEsb nrfEsbFlushTx).hopChannel.sendPairingReq := by
    unfold Device.onTxFailed
    dsimp only
    rw [hrests.mode]
  rw [heq]
  split
  · exact ⟨hhop.send _ _, htype⟩
  · exact ⟨hhop.send _ _, htype⟩

/-- **TX success**: the device asks for its record, unless it has asked already. -/
theorem Rests.onTxSuccess {d : Device} (h : Rests d) :
    (d.gPairState = .sendReq ∧ d.onTxSuccess =
        sendGetInfoReq { d with gPairState := .waitForInfo }) ∨
      d.gPairState ≠ .sendReq ∧ d.onTxSuccess = d := by
  unfold Device.onTxSuccess
  rw [h.mode]
  cases hs : d.gPairState with
  | sendReq => exact .inl ⟨rfl, rfl⟩
  | none | waitForInfo => exact .inr ⟨by simp, rfl⟩

/-- The addresses of a module do not change its main state. -/
theorem nrfEsbSetBaseAddress1_mainstate (addr : Option (FixedArray 4 UInt8)) (s : Esb) :
    (nrfEsbSetBaseAddress1 addr s).2.mainstate = s.mainstate := by
  unfold nrfEsbSetBaseAddress1
  split
  · rfl
  · split <;> rfl

theorem nrfEsbUpdatePrefix_mainstate (pipe pfx : UInt8) (s : Esb) :
    (nrfEsbUpdatePrefix pipe pfx s).2.mainstate = s.mainstate := by
  unfold nrfEsbUpdatePrefix
  split
  · rfl
  · split <;> rfl

/-- `enter_normal_mode` leaves a resting module. -/
theorem enterNormalMode_mainstate (d : Device) : d.enterNormalMode.esb.mainstate = .idle := by
  have hinit := (nrfEsbInit_app false d.esb).1.mainstate
  have hesb : d.enterNormalMode.esb = (nrfEsbUpdatePrefix 1 d.gDs.devIdx (nrfEsbSetBaseAddress1
      (some d.gDs.sysAddress32) (nrfEsbInit (some (appEsbConfig false)) d.esb).2).2).2 := rfl
  rw [hesb, nrfEsbUpdatePrefix_mainstate, nrfEsbSetBaseAddress1_mainstate, hinit]

/-- A device that waits for its record stores a payload of the right length. -/
theorem onPayload_of_waitForInfo {d : Device} (hmode : d.gMode = .pairing)
    (hwait : d.gPairState = .waitForInfo) (hlen : d.rxPayload.length = sizeofPairInfo) :
    d.onPayload = d.storePairInfo := by
  unfold onPayload
  rw [if_pos ⟨hmode, hwait⟩, if_pos hlen]

/-- A record is stored by a device that waits for it; any other device ignores it. -/
theorem onRxReceived_of_record {d : Device} {e : NrfEsbPayload} {info : PairInfo}
    (hmode : d.gMode = .pairing) (hinit : d.esb.esbInitialized = true)
    (hrx : d.esb.rxFifo.Represents [e]) (hlen : e.length = sizeofPairInfo)
    (hbytes : e.data.firstN sizeofPairInfo.toNat = info.bytes) :
    (d.gPairState = .waitForInfo ∧ d.onRxReceived.gMode = .normal ∧
        d.onRxReceived.esb.mainstate = .idle ∧ d.onRxReceived.gDs.devIdx = info.devIdx ∧
        d.onRxReceived.gDevType = d.gDevType) ∨
      d.gPairState ≠ .waitForInfo ∧ d.onRxReceived =
        { d with
          esb := { d.esb with rxFifo := d.esb.rxFifo.dropHead }
          rxPayload := copyRxPayload d.rxPayload e } := by
  have hcount : d.esb.rxFifo.count ≠ 0 := by
    have := hrx.pos_iff.mpr (by simp)
    omega
  obtain ⟨d₁, hd₁⟩ : ∃ d₁ : Device, d₁ =
      { d with
        esb := { d.esb with rxFifo := d.esb.rxFifo.dropHead }
        rxPayload := copyRxPayload d.rxPayload e } := ⟨_, rfl⟩
  have hread : d.onRxReceived = onPayload d₁ := by
    unfold onRxReceived nrfEsbReadRxPayload
    simp only [hinit, Bool.not_true, Bool.false_eq_true, if_false, hcount, Option.getD_some,
      hrx.head_cons, hd₁]
  have hstate : d₁.gPairState = d.gPairState := hd₁ ▸ rfl
  have hmode₁ : d₁.gMode = .pairing := hd₁ ▸ hmode
  rw [hread]
  by_cases hwait : d.gPairState = .waitForInfo
  · left
    have hlen₁ : d₁.rxPayload.length = sizeofPairInfo := hd₁ ▸ hlen
    have hinfo : PairInfo.ofData d₁.rxPayload.data = info := by
      apply PairInfo.ofData_eq
      rw [hd₁]
      simp only [copyRxPayload]
      rw [hlen, FixedArray.firstN_copy]
      exact hbytes
    have htype : d₁.gDevType = d.gDevType := hd₁ ▸ rfl
    rw [onPayload_of_waitForInfo hmode₁ (hstate.trans hwait) hlen₁]
    exact ⟨hwait, rfl, enterNormalMode_mainstate _, congrArg PairInfo.devIdx hinfo, htype⟩
  · right
    refine ⟨hwait, ?_⟩
    unfold onPayload
    rw [if_neg (fun h => hwait (hstate.symm.trans h.2)), if_neg (by simp [hmode₁]), hd₁]

/-! ## §3 One attempt -/

/-- The request goes out, the acknowledgment window closes with `ev`, and the events reach the
    handler. -/
def attempt (ev : RadioEvent) (d : Device) : Device := ((d.radioIrq .silent).radioIrq ev).esbEvtIrq

/-- The module after an attempt that ended with `ev`. -/
abbrev attempted (ev : RadioEvent) (d : Device) : Esb :=
  radioIrqHandler ev (radioIrqHandler .silent d.esb)

/-- The device as its handler finds it. -/
abbrev collected (ev : RadioEvent) (d : Device) : Device :=
  { d with esb := { attempted ev d with evtIrqPending := false, interruptFlags := .clear } }

theorem attempt_eq {ev : RadioEvent} {d : Device} (h : Idle true (attempted ev d)) :
    d.attempt ev = ((attempted ev d).interruptFlags.events (attempted ev d).lastTxAttempts).foldl
      nrfEsbEventHandler (d.collected ev) :=
  esbEvtIrq_eq (d := { d with esb := attempted ev d }) h.initialized h.config

/-- **Without an acknowledgment** the device sends its request again. -/
theorem Requests.attempt_missed {d : Device} {p : NrfEsbPayload} (h : Requests d p) :
    (∃ q, Requests (d.attempt .silent) q) ∧ (d.attempt .silent).gDevType = d.gDevType := by
  obtain ⟨hsent, hrx, hflags⟩ := h.sends.sent
  obtain ⟨hidle, hrx', hflags'⟩ := hsent.missed
  have hrests : Rests (d.collected .silent) :=
    ⟨h.mode, ⟨hidle.initialized, hidle.config, hidle.mainstate⟩, (hrx'.trans hrx) ▸ h.rx, rfl⟩
  have hfailed : d.attempt .silent = (d.collected .silent).onTxFailed := by
    rw [attempt_eq hidle, hflags', hflags, h.flags]
    rfl
  rw [hfailed]
  exact hrests.onTxFailed

/-- **An empty acknowledgment** lets the device ask for its record, or rest. -/
theorem Requests.attempt_empty {d : Device} {p : NrfEsbPayload} (h : Requests d p)
    {pkt : AirPacket} (crc : UInt16) (hpkt : pkt.byte0 = 0) :
    Sending (d.attempt (.received pkt crc)) ∧ (d.attempt (.received pkt crc)).gMode = .pairing ∧
      (d.attempt (.received pkt crc)).gDevType = d.gDevType := by
  obtain ⟨hsent, hrx, hflags⟩ := h.sends.sent
  obtain ⟨hidle, -, hack⟩ := hsent.acked (hrx ▸ h.rx) pkt crc (by rw [hpkt]; decide)
  rw [if_pos hpkt] at hack
  have hrests : Rests (d.collected (.received pkt crc)) :=
    ⟨h.mode, ⟨hidle.initialized, hidle.config, hidle.mainstate⟩, (hack.1.trans hrx) ▸ h.rx, rfl⟩
  have hsuccess : d.attempt (.received pkt crc) = (d.collected (.received pkt crc)).onTxSuccess := by
    rw [attempt_eq hidle, hack.2, hflags, h.flags]
    rfl
  rw [hsuccess]
  rcases hrests.onTxSuccess with ⟨-, heq⟩ | ⟨-, heq⟩
  · rw [heq, sendGetInfoReq_eq]
    have hwaits : Rests { d.collected (.received pkt crc) with gPairState := .waitForInfo } :=
      ⟨hrests.mode, hrests.idle, hrests.rx, hrests.flags⟩
    exact ⟨fun _ => hwaits.send _ _, h.mode, rfl⟩
  · rw [heq]
    refine ⟨fun hbusy => ?_, h.mode, rfl⟩
    rw [hrests.idle.mainstate] at hbusy
    cases hbusy

/-- **An acknowledgment with a record**: the device stores it, or ignores it and rests. -/
theorem Requests.attempt_record {d : Device} {p : NrfEsbPayload} (h : Requests d p)
    {pkt : AirPacket} (crc : UInt16) {info : PairInfo} (hpkt : pkt.byte0 = sizeofPairInfo)
    (hbytes : pkt.data = info.bytes) :
    Sending (d.attempt (.received pkt crc)) ∧
      (d.attempt (.received pkt crc)).gDevType = d.gDevType ∧
      ((d.attempt (.received pkt crc)).gMode = .pairing ∨
        (d.attempt (.received pkt crc)).gMode = .normal ∧
          (d.attempt (.received pkt crc)).gDs.devIdx = info.devIdx) := by
  obtain ⟨hsent, hrx, hflags⟩ := h.sends.sent
  obtain ⟨hidle, -, hack⟩ := hsent.acked (hrx ▸ h.rx) pkt crc (by rw [hpkt]; decide)
  rw [if_neg (by rw [hpkt]; decide)] at hack
  obtain ⟨⟨e, hunread, hlen, hdata⟩, hraised⟩ := hack
  have hrecord : e.data.firstN sizeofPairInfo.toNat = info.bytes := by
    have hfits : info.bytes.length ≤ nrfEsbMaxPayloadLength := by
      rw [PairInfo.length_bytes]
      decide
    rw [← hpkt, hdata, hbytes, hpkt, ← PairInfo.length_bytes info]
    exact FixedArray.firstN_load _ _ hfits
  -- The acknowledgment had a payload, so both events are handled.
  have hevents : d.attempt (.received pkt crc) =
      (d.collected (.received pkt crc)).onTxSuccess.onRxReceived := by
    rw [attempt_eq hidle, hraised, hflags, h.flags]
    rfl
  have hidle' : Idle true (d.collected (.received pkt crc)).esb :=
    ⟨hidle.initialized, hidle.config, hidle.mainstate⟩
  rw [hevents]
  by_cases hstate : d.gPairState = .sendReq
  · -- the acknowledgment of the pairing request itself: the next request is under way, and dropped
    have heq : (d.collected (.received pkt crc)).onTxSuccess =
        sendGetInfoReq { d.collected (.received pkt crc) with gPairState := .waitForInfo } := by
      unfold Device.onTxSuccess
      dsimp only
      rw [h.mode, hstate]
    have hlen' : 0 < (request idPairInfoGet 0).length.toNat ∧
        (request idPairInfoGet 0).length.toNat ≤ nrfEsbMaxPayloadLength := by
      rw [show (request idPairInfoGet 0).length = 2 from rfl]
      decide
    obtain ⟨hsends, hrx₂, -⟩ := hidle'.flushWrite hlen'
    rw [heq, sendGetInfoReq_eq]
    rcases onRxReceived_of_record (d := { d.collected (.received pkt crc) with
        gPairState := .waitForInfo
        esb := flushWrite (request idPairInfoGet 0) (d.collected (.received pkt crc)).esb })
        h.mode hsends.initialized (hrx₂ ▸ hunread) (hlen.trans hpkt) hrecord with
      ⟨-, hnormal, hrests, hidx, htype⟩ | ⟨hno, -⟩
    · refine ⟨fun hbusy => ?_, htype, .inr ⟨hnormal, hidx⟩⟩
      rw [hrests] at hbusy
      cases hbusy
    · exact absurd rfl hno
  -- Otherwise the success changes nothing, and the record is stored if it was waited for.
  · have heq : (d.collected (.received pkt crc)).onTxSuccess = d.collected (.received pkt crc) := by
      unfold Device.onTxSuccess
      dsimp only
      rw [h.mode]
      cases hs : d.gPairState with
      | sendReq => exact absurd hs hstate
      | none | waitForInfo => rfl
    rw [heq]
    rcases onRxReceived_of_record (d := d.collected (.received pkt crc)) h.mode hidle'.initialized
        hunread (hlen.trans hpkt) hrecord with ⟨-, hnormal, hrests, hidx, htype⟩ | ⟨-, hignored⟩
    · refine ⟨fun hbusy => ?_, htype, .inr ⟨hnormal, hidx⟩⟩
      rw [hrests] at hbusy
      cases hbusy
    · rw [hignored]
      refine ⟨fun hbusy => ?_, rfl, .inl h.mode⟩
      exact absurd (hidle'.mainstate.symm.trans hbusy) (by decide)

/-! ## §4 Entering pairing mode -/

/-- **`do_pairing` sends the first request.** -/
theorem requests_doPairing (d : Device) : ∃ p, Requests (doPairing d) p := by
  obtain ⟨hidle, hblank, -, -⟩ := nrfEsbInit_app true d.esb
  obtain ⟨addr, haddr⟩ := nrfEsbSetRfChannel_idle hidle.mainstate
    (defaultPairingChannelList.get 0)
  have hrests : Rests { doPairing d with
      esb := { (nrfEsbInit (some (appEsbConfig true)) d.esb).2 with esbAddr := addr } } :=
    ⟨rfl, ⟨hidle.initialized, hidle.config, hidle.mainstate⟩, hblank.rx, hblank.flags⟩
  have heq : doPairing d = { doPairing d with
      esb := flushWrite (request idPairReq d.gDevType)
        { (nrfEsbInit (some (appEsbConfig true)) d.esb).2 with esbAddr := addr } } := by
    rw [← haddr]
    rfl
  rw [heq]
  exact hrests.send _ _

/-- **A device that boots into pairing mode**, and its type. -/
theorem requests_main {flash : DeviceData} {button1 button2 : Bool}
    (h : (main flash button1 button2).gMode = .pairing) :
    (∃ p, Requests (main flash button1 button2) p) ∧
      ((main flash button1 button2).gDevType = devTypeDisplay ∨
        (main flash button1 button2).gDevType = devTypeController) := by
  have htype : (boot flash button2).gDevType = devTypeDisplay ∨
      (boot flash button2).gDevType = devTypeController := by
    unfold boot
    cases button2 with
    | true => exact .inr rfl
    | false =>
      left
      dsimp only [setAddresses, callEsb]
      rw [if_neg Bool.false_ne_true]
      split <;> rfl
  unfold main at h ⊢
  dsimp only at h ⊢
  by_cases hpair : (boot flash button2).gDs.devIdx = 0xff ∨ button1
  · obtain ⟨p, hp⟩ := requests_doPairing (boot flash button2)
    rw [if_pos hpair]
    exact ⟨⟨p, hp.mode, hp.sends, hp.length, hp.rx, hp.flags⟩, htype⟩
  · rw [if_neg hpair] at h
    cases h

end Device

end NordicEsb
