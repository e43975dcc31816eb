import NordicEsb.Uart.Sending

/-!
# Receiving Through the UART

The driver receives one byte at a time. `uart_event_handler` asks for the next one only when the
FIFO has room, and sets `m_rx_ovf` when it has none; then `app_uart_get` has to ask.

- `RxSide.Armed` and `RxSide.Off` are the two states of the driver between calls
- `RxAt` says what is known where a call is, `RxInv` adds the FIFO and what has been received
- one lemma for the interrupt, one for the accesses of each function

**Main result** (`receives_of_reachable`): every byte that the driver has stored goes into the FIFO
and comes out once and in order, unless it is flushed, and receiving never stops for good.
-/

namespace NordicEsb.Uart

open Fifo

variable {n m : ℕ}

/-! ## §1 The driver -/

section Driver

variable {r : RxSide m} {pc : Pc} {rxPin : Bool}

/-- **The next byte has been asked for**, and there is room for it. -/
structure RxSide.Armed (r : RxSide m) : Prop where
  length : r.bufferLength = 1
  secondary : r.secondaryLength = 0
  counter : r.counter = 0
  inten : r.inten = true
  room : r.ledger.held.length < m

/-- **Nothing has been asked for.** -/
structure RxSide.Off (r : RxSide m) : Prop where
  length : r.bufferLength = 0
  secondary : r.secondaryLength = 0
  inten : r.inten = false

/-- Receiving goes on, or `app_uart_get` will see to it; `rxPin` tells whether there is a pin. -/
def RxSide.Settled (rxPin : Bool) (r : RxSide m) : Prop :=
  r.Armed ∧ r.rxOvf = false ∧ rxPin = true ∨ r.Off ∧ r.rxOvf = rxPin

/-- The call has seen `m_rx_ovf`. -/
def RxSide.Seen (r : RxSide m) (rxOvf : Bool) : Prop := rxOvf = true → r.Off ∧ r.rxOvf = true

/-- A request that `app_uart_get` is about to make. -/
structure RxSide.Requesting (rxPin : Bool) (r : RxSide m) : Prop where
  pin : rxPin = true
  inten : r.inten = false
  secondary : r.secondaryLength = 0
  rxOvf : r.rxOvf = false
  room : r.ledger.held.length < m

/-- What is known where a call is. -/
def RxAt (rxPin : Bool) (r : RxSide m) : Pc → Prop
  | .getGet rxOvf => r.Settled rxPin ∧ r.Seen rxOvf
  | .getAdvance rxOvf byte =>
    r.Settled rxPin ∧ r.Seen rxOvf ∧ r.ledger.held.head? = some byte
  | .getResume rxOvf _ =>
    r.Settled rxPin ∧ r.Seen rxOvf ∧ (rxOvf = true → r.ledger.held.length < m)
  | .rxMask _ | .rxTest _ | .rxLength _ => r.Requesting rxPin ∧ r.bufferLength = 0
  | .rxSecondary _ => False
  | .rxCounter _ => r.Requesting rxPin ∧ r.bufferLength = 1
  | .rxUnmask _ => r.Requesting rxPin ∧ r.bufferLength = 1 ∧ r.counter = 0
  | .flushRxStore writePos =>
    r.Settled rxPin ∧ (writePos - r.fifo.readPos).toNat ≤ r.ledger.held.length
  | _ => r.Settled rxPin

/-- The byte that a call has taken from the FIFO, before it returns. -/
def Pc.fetched : Pc → List (BitVec 8)
  | .getResume _ out | .rxMask out | .rxTest out | .rxSecondary out | .rxLength out
  | .rxCounter out | .rxUnmask out => out.toList
  | _ => []

/-- **The receiving direction** where a call is. -/
structure RxInv (rxPin : Bool) (r : RxSide m) (pc : Pc) : Prop where
  holds : r.fifo.Holds r.ledger.held
  driver : RxAt rxPin r pc
  stored : r.ledger.arrived = r.stored

/-- **The interrupt has put a byte into the FIFO.** -/
structure RxSide.Filled (rxPin : Bool) (r r' : RxSide m) (byte : BitVec 8) : Prop where
  holds : r'.fifo.Holds r'.ledger.held
  settled : r'.Settled rxPin
  held : r'.ledger.held = r.ledger.held ++ [byte]
  taken : r'.ledger.taken = r.ledger.taken
  arrived : r'.ledger.arrived = r.ledger.arrived ++ [byte]
  stored : r'.stored = r.stored ++ [byte]
  readPos : r'.fifo.readPos = r.fifo.readPos

/-- The request of the next byte. -/
theorem nrfDrvUartRx_armed (hlength : r.bufferLength = 0) (hroom : r.ledger.held.length < m) :
    (nrfDrvUartRx r 1).2.Armed ∧
      (nrfDrvUartRx r 1).2 =
        { r with bufferLength := 1, counter := 0, secondaryLength := 0, inten := true } := by
  unfold nrfDrvUartRx
  rw [if_neg (not_not.mpr hlength)]
  exact ⟨⟨rfl, rfl, rfl, rfl, hroom⟩, rfl⟩

/-- Behind `NRF_DRV_UART_EVT_RX_DONE` the next byte is asked for when there is room. -/
theorem RxSide.Off.request (next : RxSide m) (hoff : next.Off) (hovf : next.rxOvf = false)
    (hpin : rxPin = true) (hholds : next.fifo.Holds next.ledger.held) {r' : RxSide m}
    (hr' : r' = if fifoLength next.fifo ≤ next.fifo.mask then (nrfDrvUartRx next 1).2
      else { next with rxOvf := true }) :
    r'.Settled rxPin ∧ r'.fifo = next.fifo ∧ r'.ledger = next.ledger ∧ r'.stored = next.stored := by
  by_cases hmore : fifoLength next.fifo ≤ next.fifo.mask
  · rw [if_pos hmore] at hr'
    obtain ⟨harmed, hcode⟩ := nrfDrvUartRx_armed hoff.length (hholds.le_mask_iff.mp hmore)
    rw [hr']
    refine ⟨.inl ⟨harmed, ?_, hpin⟩, ?_⟩
    · rw [hcode]
      exact hovf
    · rw [hcode]
      exact ⟨rfl, rfl, rfl⟩
  · rw [if_neg hmore] at hr'
    rw [hr']
    exact ⟨.inr ⟨⟨hoff.length, hoff.secondary, hoff.inten⟩, hpin.symm⟩, rfl, rfl, rfl⟩

/-- **`NRF_DRV_UART_EVT_RX_DONE`**: the byte goes into the FIFO. -/
theorem RxSide.eventRxDone_filled (hholds : r.fifo.Holds r.ledger.held)
    (hroom : r.ledger.held.length < m) (hoff : r.Off) (hovf : r.rxOvf = false)
    (hpin : rxPin = true) {before : RxSide m} {byte : BitVec 8} (hbyte : r.buffer.get 0 = byte)
    (hledger : r.ledger = before.ledger) (hread : r.fifo.readPos = before.fifo.readPos)
    (hstored : r.stored = before.stored ++ [byte]) :
    r.eventRxDone.1 = [.dataReady] ∧ before.Filled rxPin r.eventRxDone.2 byte := by
  have hput := fifoPut_holds hholds hroom byte
  have hlen : fifoLength (fifoPut r.fifo byte) ≠ 0 := by
    rw [Ne, hput.eq_zero_iff]
    exact List.append_ne_nil_of_right_ne_nil _ (List.cons_ne_nil _ _)
  unfold RxSide.eventRxDone
  rw [hbyte, appFifoPut_room hholds hroom]
  dsimp only
  rw [if_pos rfl, if_neg (not_not.mpr rfl), if_pos hlen]
  refine ⟨rfl, ?_⟩
  obtain ⟨hsettled, hfifo', hledger', hstored'⟩ := RxSide.Off.request
    { r with fifo := fifoPut r.fifo byte, ledger := r.ledger.arrive byte }
    ⟨hoff.length, hoff.secondary, hoff.inten⟩ hovf hpin hput rfl
  refine ⟨?_, hsettled, ?_, ?_, ?_, ?_, ?_⟩
  · rw [hfifo', hledger']
    exact hput
  · rw [hledger', ← hledger]
    rfl
  · rw [hledger', ← hledger]
    rfl
  · rw [hledger', ← hledger]
    exact QueueLedger.arrived_arrive byte r.ledger
  · rw [hstored']
    exact hstored
  · rw [hfifo']
    exact hread

/-- **The interrupt** does nothing while nothing has been asked for. Else there may be an error,
    and then the byte is asked for again, or there may be a byte. -/
theorem RxSide.irqHandler_cases (hholds : r.fifo.Holds r.ledger.held)
    (hdriver : r.Armed ∧ r.rxOvf = false ∧ rxPin = true ∨ r.inten = false)
    (error : Option (BitVec 32)) (rxd : Option (BitVec 8)) :
    (∀ e ∈ (r.irqHandler error rxd).1, ∃ errorMask, e = .communicationError errorMask) ∧
      (r.irqHandler error rxd).2 = r ∨
    r.Armed ∧ ∃ byte, (r.irqHandler error rxd).1 = [.dataReady] ∧
      r.Filled rxPin (r.irqHandler error rxd).2 byte := by
  unfold RxSide.irqHandler
  by_cases hinten : r.inten = false
  · rw [if_pos hinten]
    exact .inl ⟨fun e he => absurd he List.not_mem_nil, rfl⟩
  · rw [if_neg hinten]
    obtain ⟨harmed, hovf, hpin⟩ := hdriver.resolve_right hinten
    obtain ⟨hlength, hsecondary, hcounter, -, hroom⟩ := harmed
    cases error with
    | some errorMask =>
      refine .inl ⟨fun e he => ⟨errorMask, List.mem_singleton.mp he⟩, ?_⟩
      show (nrfDrvUartRx { r with inten := false, bufferLength := 0, secondaryLength := 0 } 1).2 = r
      rw [(nrfDrvUartRx_armed
        (r := { r with inten := false, bufferLength := 0, secondaryLength := 0 }) rfl hroom).2]
      obtain ⟨fifo, buffer, rxOvf, bufferLength, secondaryLength, counter, inten, stored, ledger⟩ := r
      simp only at hlength hsecondary hcounter hinten
      rw [hlength, hsecondary, hcounter, Bool.not_eq_false inten |>.mp hinten]
    | none =>
      cases rxd with
      | none => exact .inl ⟨fun e he => absurd he List.not_mem_nil, rfl⟩
      | some byte =>
        have hbyte : r.rxByte byte =
            { r with
              buffer := r.buffer.set 0 byte, counter := 1, stored := r.stored ++ [byte] } := by
          unfold RxSide.rxByte
          rw [if_neg (by rw [hlength]; decide), hcounter]
          rfl
        dsimp only
        rw [hbyte]
        dsimp only
        rw [if_neg (not_not.mpr hlength), if_neg (not_not.mpr hsecondary)]
        refine .inr ⟨⟨hlength, hsecondary, hcounter, Bool.not_eq_false _ |>.mp hinten, hroom⟩, byte,
          ?_⟩
        apply RxSide.eventRxDone_filled
        · exact hholds
        · exact hroom
        · exact ⟨rfl, hsecondary, rfl⟩
        · exact hovf
        · exact hpin
        · exact FixedArray.get_set_self _ _ (by decide)
        · rfl
        · rfl
        · rfl

/-! ## §2 The interrupt where a call is -/

theorem RxSide.Settled.event (h : r.Settled rxPin) :
    r.Armed ∧ r.rxOvf = false ∧ rxPin = true ∨ r.inten = false :=
  h.imp_right fun hoff => hoff.1.inten

theorem RxAt.event (h : RxAt rxPin r pc) :
    r.Armed ∧ r.rxOvf = false ∧ rxPin = true ∨ r.inten = false := by
  cases pc with
  | getGet rxOvf => exact h.1.event
  | getAdvance rxOvf byte => exact h.1.event
  | getResume rxOvf out => exact h.1.event
  | rxMask out => exact .inr h.1.inten
  | rxTest out => exact .inr h.1.inten
  | rxLength out => exact .inr h.1.inten
  | rxSecondary out => exact absurd h id
  | rxCounter out => exact .inr h.1.inten
  | rxUnmask out => exact .inr h.1.inten
  | flushRxStore writePos => exact h.1.event
  | _ => exact RxSide.Settled.event h

theorem RxSide.Armed.not_off (h : r.Armed) (hlength : r.bufferLength = 0) : False := by
  rw [h.length] at hlength
  exact absurd hlength (by decide)

/-- **What is known where a call is** stays known when the interrupt puts a byte into the FIFO. -/
theorem RxAt.filled {r' : RxSide m} {byte : BitVec 8} (h : RxAt rxPin r pc) (harmed : r.Armed)
    (hfilled : r.Filled rxPin r' byte) : RxAt rxPin r' pc := by
  have hseen : ∀ {rxOvf : Bool}, r.Seen rxOvf → rxOvf ≠ true := fun hseen htrue =>
    harmed.not_off (hseen htrue).1.length
  have hnone : ∀ {rxOvf : Bool}, r.Seen rxOvf → r'.Seen rxOvf := fun h htrue =>
    absurd htrue (hseen h)
  cases pc with
  | getGet rxOvf => exact ⟨hfilled.settled, hnone h.2⟩
  | getAdvance rxOvf byte =>
    refine ⟨hfilled.settled, hnone h.2.1, ?_⟩
    rw [hfilled.held, List.head?_append, h.2.2]
    rfl
  | getResume rxOvf out =>
    exact ⟨hfilled.settled, hnone h.2.1, fun htrue => absurd htrue (hseen h.2.1)⟩
  | rxMask out => exact (harmed.not_off h.2).elim
  | rxTest out => exact (harmed.not_off h.2).elim
  | rxLength out => exact (harmed.not_off h.2).elim
  | rxSecondary out => exact h
  | rxCounter out => exact absurd (harmed.inten.symm.trans h.1.inten) (by decide)
  | rxUnmask out => exact absurd (harmed.inten.symm.trans h.1.inten) (by decide)
  | flushRxStore writePos =>
    refine ⟨hfilled.settled, ?_⟩
    rw [hfilled.readPos, hfilled.held, List.length_append]
    exact h.2.trans (Nat.le_add_right _ _)
  | _ => exact hfilled.settled

end Driver

/-! ## §3 The accesses of the calls -/

section Calls

variable {u : AppUart n m} {pc : Pc} {rxPin : Bool}

/-- The bytes that `app_uart_get` has returned. -/
def AppUart.got (u : AppUart n m) : List (BitVec 8) := u.gets.filterMap id

/-- **What holds of the receiving direction** in every state. -/
structure RecvInv (rxPin : Bool) (u : AppUart n m) (pc : Pc) : Prop where
  rx : RxInv rxPin u.rx pc
  got : u.rx.ledger.taken = u.got ++ pc.fetched
  ready : u.events.count .dataReady = u.rx.stored.length
  noError : ∀ errorCode, .fifoError errorCode ∉ u.events

/-- `app_uart_get` returns. -/
theorem RecvInv.returnGet {out : Option (BitVec 8)} (hholds : u.rx.fifo.Holds u.rx.ledger.held)
    (hsettled : u.rx.Settled rxPin) (hstored : u.rx.ledger.arrived = u.rx.stored)
    (hgot : u.rx.ledger.taken = u.got ++ out.toList)
    (hready : u.events.count .dataReady = u.rx.stored.length)
    (hnoError : ∀ errorCode, .fifoError errorCode ∉ u.events) :
    RecvInv rxPin (u.returnGet out) .idle := by
  refine ⟨⟨hholds, hsettled, hstored⟩, ?_, hready, hnoError⟩
  show u.rx.ledger.taken = (u.gets ++ [out]).filterMap id ++ []
  rw [List.filterMap_append, List.append_nil, hgot]
  cases out <;> rfl

/-- `rxPin` is true when `app_uart_get` has seen `m_rx_ovf`. -/
theorem RxSide.Settled.pin {r : RxSide m} (h : r.Settled rxPin) (hovf : r.rxOvf = true) :
    rxPin = true := by
  rcases h with ⟨-, hfalse, -⟩ | ⟨-, hpin⟩
  · rw [hovf] at hfalse
    cases hfalse
  · rw [← hpin, hovf]

/-- **An access of `app_uart_get`.** -/
theorem RecvInv.getStep (h : RecvInv rxPin u pc) (hget : pc.function = .get) :
    RecvInv rxPin (u.getStep pc) (u.getStep pc).pc := by
  obtain ⟨⟨hholds, hdriver, hstored⟩, hgot, hready, hnoError⟩ := h
  cases pc with
  | getOvf =>
    -- a flag that is set stays set, since no byte is requested before this call does so
    refine ⟨⟨hholds, ⟨hdriver, fun hovf => ?_⟩, hstored⟩, hgot, hready, hnoError⟩
    replace hovf : u.rx.rxOvf = true := hovf
    rcases hdriver with ⟨-, hfalse, -⟩ | ⟨hoff, -⟩
    · rw [hovf] at hfalse
      cases hfalse
    · exact ⟨hoff, hovf⟩
  | getGet rxOvf =>
    obtain ⟨hsettled, hseen⟩ := hdriver
    unfold AppUart.getStep
    dsimp only
    cases hheld : u.rx.ledger.held with
    | nil =>
      have hzero : fifoLength u.rx.fifo = 0 := hholds.eq_zero_iff.mpr hheld
      have hmask := hholds.mask
      have hempty : u.rx.ledger.held.length < m := by
        rw [hheld, List.length_nil]
        omega
      rw [if_neg (not_not.mpr hzero)]
      exact ⟨⟨hholds, ⟨hsettled, hseen, fun _ => hempty⟩, hstored⟩, hgot, hready, hnoError⟩
    | cons byte q =>
      have hzero : fifoLength u.rx.fifo ≠ 0 := by
        rw [Ne, hholds.eq_zero_iff, hheld]
        exact List.cons_ne_nil byte q
      rw [if_pos hzero]
      have hpeek : fifoPeek u.rx.fifo 0 = byte := by
        rw [hheld] at hholds
        exact (fifoGet_holds hholds).1
      have hhead : u.rx.ledger.held.head? = some (fifoPeek u.rx.fifo 0) := by
        rw [hheld, hpeek]
        rfl
      exact ⟨⟨hholds, ⟨hsettled, hseen, hhead⟩, hstored⟩, hgot, hready, hnoError⟩
  | getAdvance rxOvf byte =>
    -- with the oldest byte gone there is room for the one that is requested
    obtain ⟨hsettled, hseen, hhead⟩ := hdriver
    obtain ⟨q, hheld⟩ : ∃ q, u.rx.ledger.held = byte :: q := by
      cases hheld : u.rx.ledger.held with
      | nil =>
        rw [hheld] at hhead
        cases hhead
      | cons next q =>
        rw [hheld] at hhead
        exact ⟨q, by rw [Option.some.inj hhead]⟩
    have hle := hholds.ring.length_le
    have htail : u.rx.ledger.take.held.length < m := by
      show u.rx.ledger.held.tail.length < m
      rw [hheld] at hle ⊢
      rw [List.length_cons] at hle
      rw [List.tail_cons]
      omega
    refine ⟨⟨?_, ⟨?_, ?_, fun _ => htail⟩, ?_⟩, ?_, hready, hnoError⟩
    · show (fifoGet u.rx.fifo).2.Holds u.rx.ledger.held.tail
      rw [hheld] at hholds ⊢
      exact (fifoGet_holds hholds).2
    · exact hsettled.imp
        (fun ⟨harmed, hrest⟩ => ⟨⟨harmed.length, harmed.secondary, harmed.counter, harmed.inten,
          htail⟩, hrest⟩)
        fun ⟨hoff, hrest⟩ => ⟨⟨hoff.length, hoff.secondary, hoff.inten⟩, hrest⟩
    · intro hovf
      obtain ⟨hoff, hrest⟩ := hseen hovf
      exact ⟨⟨hoff.length, hoff.secondary, hoff.inten⟩, hrest⟩
    · show u.rx.ledger.take.arrived = u.rx.stored
      rw [QueueLedger.arrived_take]
      exact hstored
    · show u.rx.ledger.take.taken = u.got ++ [byte]
      rw [QueueLedger.taken_take, hgot, hheld]
      exact congrArg (· ++ [byte]) (List.append_nil _)
  | getResume rxOvf out =>
    obtain ⟨hsettled, hseen, hroom⟩ := hdriver
    unfold AppUart.getStep
    dsimp only
    split_ifs with hovf
    · obtain ⟨hoff, htrue⟩ := hseen hovf
      exact ⟨⟨hholds, ⟨⟨hsettled.pin htrue, hoff.inten, hoff.secondary, rfl, hroom hovf⟩,
        hoff.length⟩, hstored⟩, hgot, hready, hnoError⟩
    · exact RecvInv.returnGet hholds hsettled hstored hgot hready hnoError
  | rxMask out =>
    obtain ⟨hrequesting, hlength⟩ := hdriver
    exact ⟨⟨hholds, ⟨⟨hrequesting.pin, rfl, hrequesting.secondary, hrequesting.rxOvf,
      hrequesting.room⟩, hlength⟩, hstored⟩, hgot, hready, hnoError⟩
  | rxTest out =>
    unfold AppUart.getStep
    dsimp only
    rw [if_neg (not_not.mpr hdriver.2)]
    exact ⟨⟨hholds, hdriver, hstored⟩, hgot, hready, hnoError⟩
  -- the primary buffer is free, so the secondary one is never set
  | rxSecondary out => exact absurd hdriver id
  | rxLength out =>
    obtain ⟨hrequesting, -⟩ := hdriver
    exact ⟨⟨hholds, ⟨⟨hrequesting.pin, hrequesting.inten, hrequesting.secondary,
      hrequesting.rxOvf, hrequesting.room⟩, rfl⟩, hstored⟩, hgot, hready, hnoError⟩
  | rxCounter out =>
    obtain ⟨hrequesting, hlength⟩ := hdriver
    exact ⟨⟨hholds, ⟨⟨hrequesting.pin, hrequesting.inten, rfl, hrequesting.rxOvf,
      hrequesting.room⟩, hlength, rfl⟩, hstored⟩, hgot, hready, hnoError⟩
  | rxUnmask out =>
    obtain ⟨hrequesting, hlength, hcounter⟩ := hdriver
    refine RecvInv.returnGet (u := { u with rx := u.rx.setInten true }) hholds (.inl ⟨⟨hlength,
      hrequesting.secondary, hcounter, rfl, hrequesting.room⟩, hrequesting.rxOvf,
      hrequesting.pin⟩) hstored hgot hready hnoError
  | _ => cases hget

/-- An access that leaves the receiving direction alone. -/
theorem RecvInv.other {u' : AppUart n m} {pc' : Pc} (h : RecvInv rxPin u pc) (hrx : u'.rx = u.rx)
    (hgets : u'.gets = u.gets) (hevents : u'.events = u.events)
    (hat : RxAt rxPin u.rx pc → RxAt rxPin u.rx pc') (hfetched : pc'.fetched = pc.fetched) :
    RecvInv rxPin u' pc' := by
  refine ⟨?_, ?_, ?_, ?_⟩
  · rw [hrx]
    exact ⟨h.rx.holds, hat h.rx.driver, h.rx.stored⟩
  · unfold AppUart.got
    rw [hrx, hgets, hfetched]
    exact h.got
  · rw [hrx, hevents]
    exact h.ready
  · rw [hevents]
    exact h.noError

/-- **An access of `app_uart_put`** is none to the receiving direction. -/
theorem RecvInv.putStep (h : RecvInv rxPin u pc) (hput : pc.function = .put) :
    RecvInv rxPin (u.putStep pc) (u.putStep pc).pc := by
  cases pc with
  | putTest byte readPos =>
    unfold AppUart.putStep
    dsimp only
    split_ifs <;> exact h.other rfl rfl rfl id rfl
  | putInProgress byte =>
    unfold AppUart.putStep
    dsimp only
    split_ifs <;> exact h.other rfl rfl rfl id rfl
  | putGet byte =>
    unfold AppUart.putStep
    dsimp only
    split_ifs <;> exact h.other rfl rfl rfl id rfl
  | txInProgress byte =>
    unfold AppUart.putStep
    dsimp only
    split_ifs <;> exact h.other rfl rfl rfl id rfl
  | putLength byte => exact h.other rfl rfl rfl id rfl
  | putStore byte => exact h.other rfl rfl rfl id rfl
  | putAdvance byte => exact h.other rfl rfl rfl id rfl
  | putGetAdvance byte => exact h.other rfl rfl rfl id rfl
  | txLength byte => exact h.other rfl rfl rfl id rfl
  | txCounter byte => exact h.other rfl rfl rfl id rfl
  | txStart byte => exact h.other rfl rfl rfl id rfl
  | txLoad byte => exact h.other rfl rfl rfl id rfl
  | txSet byte txd => exact h.other rfl rfl rfl id rfl
  | _ => cases hput

/-- **An access of `app_uart_flush`**: what the interrupt puts behind the `write_pos` that has been
    read stays. -/
theorem RecvInv.flushStep (h : RecvInv rxPin u pc) (hflush : pc.function = .flush) :
    RecvInv rxPin (u.flushStep pc) (u.flushStep pc).pc := by
  cases pc with
  | flushRx =>
    refine h.other rfl rfl rfl (fun hsettled => ⟨hsettled, ?_⟩) rfl
    exact (length_sub h.rx.holds).le
  | flushRxStore writePos =>
    obtain ⟨⟨hholds, ⟨hsettled, hle⟩, hstored⟩, hgot, hready, hnoError⟩ := h
    have hshorter : (u.rx.ledger.discardMany (writePos - u.rx.fifo.readPos).toNat).held.length ≤
        u.rx.ledger.held.length := by
      show (u.rx.ledger.held.drop _).length ≤ _
      rw [List.length_drop]
      exact Nat.sub_le _ _
    refine ⟨⟨flushTo_holds hholds hle, ?_, ?_⟩, ?_, hready, hnoError⟩
    · exact hsettled.imp
        (fun ⟨harmed, hrest⟩ => ⟨⟨harmed.length, harmed.secondary, harmed.counter, harmed.inten,
          hshorter.trans_lt harmed.room⟩, hrest⟩)
        fun ⟨hoff, hrest⟩ => ⟨⟨hoff.length, hoff.secondary, hoff.inten⟩, hrest⟩
    · show (u.rx.ledger.discardMany _).arrived = u.rx.stored
      rw [QueueLedger.arrived_discardMany]
      exact hstored
    · show (u.rx.ledger.discardMany _).taken = u.got ++ []
      rw [QueueLedger.taken_discardMany]
      exact hgot
  | flushTx => exact h.other rfl rfl rfl id rfl
  | flushTxStore writePos => exact h.other rfl rfl rfl id rfl
  | _ => cases hflush

end Calls

/-! ## §4 Runs -/

section Runs

variable {u : AppUart n m} {pc : Pc} {rxPin : Bool}

/-- The sending direction tells the application at most that its FIFO is empty. -/
theorem TxSide.irqHandler_events (t : TxSide n) : ∀ e ∈ t.irqHandler.1, e = .txEmpty := by
  have hdone : ∀ t : TxSide n, ∀ e ∈ t.eventTxDone.1, e = .txEmpty := by
    intro t e he
    unfold TxSide.eventTxDone at he
    dsimp only at he
    split_ifs at he
    · exact List.mem_singleton.mp he
    · exact absurd he List.not_mem_nil
  unfold TxSide.irqHandler
  split_ifs
  · exact fun e he => absurd he List.not_mem_nil
  · exact fun e he => absurd he List.not_mem_nil
  · exact fun e he => absurd he List.not_mem_nil
  · exact hdone _

/-- **The interrupt**, where a call is. -/
theorem RecvInv.irqHandler (h : RecvInv rxPin u pc) (error : Option (BitVec 32))
    (rxd : Option (BitVec 8)) : RecvInv rxPin (u.irqHandler error rxd) pc := by
  obtain ⟨⟨hholds, hdriver, hstored⟩, hgot, hready, hnoError⟩ := h
  have htx := u.tx.irqHandler_events
  have hcount : u.tx.irqHandler.1.count .dataReady = 0 :=
    List.count_eq_zero.mpr fun hmem => absurd (htx _ hmem) (by decide)
  rcases RxSide.irqHandler_cases hholds hdriver.event error rxd with
    ⟨hevents, hsame⟩ | ⟨harmed, byte, hevents, hfilled⟩
  · refine ⟨?_, ?_, ?_, fun errorCode hmem => ?_⟩
    · show RxInv rxPin (u.rx.irqHandler error rxd).2 pc
      rw [hsame]
      exact ⟨hholds, hdriver, hstored⟩
    · show (u.rx.irqHandler error rxd).2.ledger.taken = _
      rw [hsame]
      exact hgot
    · have hnone : (u.rx.irqHandler error rxd).1.count .dataReady = 0 := by
        refine List.count_eq_zero.mpr fun hmem => ?_
        obtain ⟨errorMask, heq⟩ := hevents _ hmem
        cases heq
      show (u.events ++ (u.rx.irqHandler error rxd).1 ++ u.tx.irqHandler.1).count .dataReady =
        (u.rx.irqHandler error rxd).2.stored.length
      rw [List.count_append, List.count_append, hcount, hnone, hsame]
      exact hready
    · rcases List.mem_append.mp hmem with hmem | hmem
      · rcases List.mem_append.mp hmem with hmem | hmem
        · exact hnoError errorCode hmem
        · obtain ⟨errorMask, heq⟩ := hevents _ hmem
          cases heq
      · exact absurd (htx _ hmem) (by simp)
  · refine ⟨⟨hfilled.holds, hdriver.filled harmed hfilled, ?_⟩, ?_, ?_, fun errorCode hmem => ?_⟩
    · show (u.rx.irqHandler error rxd).2.ledger.arrived = (u.rx.irqHandler error rxd).2.stored
      rw [hfilled.arrived, hfilled.stored, hstored]
    · exact hfilled.taken.trans hgot
    · show (u.events ++ (u.rx.irqHandler error rxd).1 ++ u.tx.irqHandler.1).count .dataReady =
        (u.rx.irqHandler error rxd).2.stored.length
      rw [List.count_append, List.count_append, hcount, hevents, hfilled.stored,
        List.length_append, hready]
      rfl
    · rcases List.mem_append.mp hmem with hmem | hmem
      · rcases List.mem_append.mp hmem with hmem | hmem
        · exact hnoError errorCode hmem
        · rw [hevents] at hmem
          cases List.mem_singleton.mp hmem
      · exact absurd (htx _ hmem) (by simp)

/-- **Every step** keeps it. -/
theorem RecvInv.step (h : RecvInv rxPin u u.pc) (label : UartLabel) (hen : label.Enabled u) :
    RecvInv rxPin (u.step label) (u.step label).pc := by
  cases label with
  | call call =>
    have hidle : u.pc = .idle := hen
    rw [hidle] at h
    cases call <;> exact h.other rfl rfl rfl id rfl
  | main =>
    show RecvInv rxPin u.mainStep u.mainStep.pc
    unfold AppUart.mainStep
    cases hfunction : u.pc.function with
    | none => exact h
    | put => exact h.putStep hfunction
    | get => exact h.getStep hfunction
    | flush => exact h.flushStep hfunction
  | shifted => exact h.other rfl rfl rfl id rfl
  | irq error rxd => exact h.irqHandler error rxd

/-- **Receiving is right.** -/
structure Receives (rxPin : Bool) (u : AppUart n m) : Prop where
  /-- The FIFO never refuses a byte. -/
  noError : ∀ errorCode, .fifoError errorCode ∉ u.events
  /-- The application is told of every byte. -/
  ready : u.events.count .dataReady = u.rx.stored.length
  /-- What `app_uart_get` has returned has been received, each byte once and in order. -/
  order : u.pc = .idle → u.got.Sublist u.rx.stored
  /-- Unless something is flushed, what has been received is returned or waits. -/
  complete : u.pc = .idle → (∀ x ∈ u.rx.ledger.settled, x.2 = true) →
    ∃ q, u.rx.fifo.Holds q ∧ u.rx.stored = u.got ++ q
  /-- The next byte has been asked for unless `m_rx_ovf` is set. -/
  armed : rxPin = true → u.pc = .idle → u.rx.rxOvf = false → u.rx.Armed
  /-- When it is set, `app_uart_get` asks for the next byte, at the latest with its ninth access. -/
  resumes : u.pc = .idle → u.rx.rxOvf = true → ∃ k ≤ 9,
    ((uartMachine n m rxPin).run u (.call .get :: List.replicate k .main)).pc = .idle ∧
      ((uartMachine n m rxPin).run u (.call .get :: List.replicate k .main)).rx.Armed

/-- The last accesses of a call that has seen `m_rx_ovf`. -/
theorem run_getResume {out : Option (BitVec 8)} (h : RecvInv rxPin u u.pc)
    (hpc : u.pc = .getResume true out) :
    ((uartMachine n m rxPin).run u (List.replicate 6 .main)).pc = .idle ∧
      ((uartMachine n m rxPin).run u (List.replicate 6 .main)).rx.Armed := by
  have hdriver := h.rx.driver
  rw [hpc] at hdriver
  obtain ⟨-, hseen, hroom⟩ := hdriver
  have hlength := (hseen rfl).1.length
  have hrun : (uartMachine n m rxPin).run u (List.replicate 6 .main) =
      AppUart.returnGet { u with
        rx := { u.rx with
          rxOvf := false, inten := true, bufferLength := 1, counter := 0, secondaryLength := 0 } }
        out := by
    simp only [List.replicate, Machine.run_cons, Machine.run_nil, uartMachine, AppUart.step,
      AppUart.mainStep, hpc, Pc.function, AppUart.getStep, RxSide.setInten, if_true, hlength,
      not_true_eq_false, if_false, ne_eq]
    rfl
  rw [hrun]
  exact ⟨rfl, rfl, rfl, rfl, rfl, hroom rfl⟩

/-- **A call that sees `m_rx_ovf`** asks for the next byte. -/
theorem RecvInv.resumes (h : RecvInv rxPin u u.pc) (hidle : u.pc = .idle)
    (hovf : u.rx.rxOvf = true) : ∃ k ≤ 9,
    ((uartMachine n m rxPin).run u (.call .get :: List.replicate k .main)).pc = .idle ∧
      ((uartMachine n m rxPin).run u (.call .get :: List.replicate k .main)).rx.Armed := by
  have hget := (h.step (.call .get) hidle).step .main fun hnone => by
    cases hnone
  have hgetPc : ((u.step (.call .get)).step .main).pc = .getGet true := by
    show Pc.getGet u.rx.rxOvf = _
    rw [hovf]
  have hrx : ((u.step (.call .get)).step .main).rx = u.rx := rfl
  obtain ⟨t, ht⟩ : ∃ t, t = (u.step (.call .get)).step .main := ⟨_, rfl⟩
  -- `t` is the state after the flag has been read: from here the call runs alone.
  have hrun : ∀ k, (uartMachine n m rxPin).run u (.call .get :: List.replicate (k + 1) .main) =
      (uartMachine n m rxPin).run t (List.replicate k .main) := fun k => by
    rw [ht]
    rfl
  rw [← ht] at hget hgetPc hrx
  have hnext := hget.step .main fun hnone => by
    rw [hgetPc] at hnone
    cases hnone
  -- The call reads a byte first if there is one, which takes one access more.
  by_cases hempty : fifoLength u.rx.fifo = 0
  · have hpc : (t.step .main).pc = .getResume true none := by
      show t.mainStep.pc = _
      unfold AppUart.mainStep
      rw [hgetPc]
      show (t.getStep (.getGet true)).pc = _
      unfold AppUart.getStep
      dsimp only
      rw [hrx, if_neg (not_not.mpr hempty)]
    refine ⟨8, by decide, ?_⟩
    rw [hrun]
    exact run_getResume hnext hpc
  · have hpc : (t.step .main).pc = .getAdvance true (fifoPeek u.rx.fifo 0) := by
      show t.mainStep.pc = _
      unfold AppUart.mainStep
      rw [hgetPc]
      show (t.getStep (.getGet true)).pc = _
      unfold AppUart.getStep
      dsimp only
      rw [hrx, if_pos hempty]
    have hlast := hnext.step .main fun hnone => by
      rw [hpc] at hnone
      cases hnone
    have hpc' : ((t.step .main).step .main).pc =
        .getResume true (some (fifoPeek u.rx.fifo 0)) := by
      show (t.step .main).mainStep.pc = _
      unfold AppUart.mainStep
      rw [hpc]
      rfl
    refine ⟨9, le_rfl, ?_⟩
    rw [hrun]
    exact run_getResume hlast hpc'

/-- **The UART receives every byte** that it has a buffer for, wherever the interrupt comes between
    the accesses of a call. -/
theorem receives_of_reachable (h : (uartMachine n m rxPin).Reachable u) : Receives rxPin u := by
  have hinv : RecvInv rxPin u u.pc := by
    refine h.invariant (I := fun u => RecvInv rxPin u u.pc) ?_ fun u label hinv hen _ =>
      hinv.step label hen
    rintro u ⟨txFifo, rxFifo, -, hrx, rfl⟩
    have hroom : ([] : List (BitVec 8)).length < m := by
      have hmask := hrx.mask
      rw [List.length_nil]
      omega
    cases rxPin with
    -- with a pin the receiver is armed by the initialisation
    | true => exact ⟨⟨hrx, .inl ⟨⟨rfl, rfl, rfl, rfl, hroom⟩, rfl, rfl⟩, rfl⟩, rfl, rfl,
        fun errorCode hmem => absurd hmem List.not_mem_nil⟩
    | false => exact ⟨⟨hrx, .inr ⟨⟨rfl, rfl, rfl⟩, rfl⟩, rfl⟩, rfl, rfl,
        fun errorCode hmem => absurd hmem List.not_mem_nil⟩
  refine ⟨hinv.noError, hinv.ready, fun hidle => ?_, fun hidle hall => ?_,
    fun hpin hidle hovf => ?_, hinv.resumes⟩
  all_goals
    rw [hidle] at hinv
    obtain ⟨⟨hholds, hsettled, hstored⟩, hgot, -⟩ := hinv
    replace hgot : u.rx.ledger.taken = u.got := hgot.trans (List.append_nil _)
  · rw [← hgot, ← hstored]
    exact u.rx.ledger.taken_sublist
  · exact ⟨u.rx.ledger.held, hholds, by rw [← hstored, QueueLedger.arrived_eq hall, hgot]⟩
  · rcases hsettled with ⟨harmed, -⟩ | ⟨-, hset⟩
    · exact harmed
    · rw [hovf, hpin] at hset
      cases hset

end Runs

/-! ## §5 A full FIFO -/

/-- With one cell for received bytes, the first byte fills the FIFO while a call of `app_uart_get`
    has already seen that it was not full; the next call asks for the second byte. -/
theorem receives_fullFifo :
    Receives true ((uartMachine 2 1 true).run (appUartInit emptyPair emptyCell true)
      [.call .get, .main, .irq none (some 7), .main, .main, .main, .irq none (some 8), .call .get,
        .main, .main, .main, .main, .main, .main, .main, .main, .irq none (some 9)]) :=
  receives_of_reachable
    (.of_follows (.start ⟨emptyPair, emptyCell, emptyPair_holds, emptyCell_holds, rfl⟩)
      (by decide +kernel))

end NordicEsb.Uart
