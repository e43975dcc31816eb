import NordicEsb.Timer.Handler
import NordicEsb.Lib.Machine

/-!
# Calls and Interrupts

The interface of `app_timer.c` and the RTC interrupt, and the module as a machine. The interrupt is
taken one timer at a time, so that calls can come from the timeout handlers; the list handler, which
does not run before the interrupt is over, is a single step.

The counter of the RTC is read where the source does, and given with the call.
-/

namespace NordicEsb.Timer

variable {n : ℕ}

/-! ## §1 Calls -/

/-- The return codes that `app_timer.c` uses. -/
inductive TimerRet where
  | success
  | noMem
  | invalidParam
  | invalidState
deriving DecidableEq, Repr

/-- `user_op_alloc` and `user_op_enque`: one entry of the queue is never used. -/
def userOpSchedule (cfg : TimerConfig) (op : TimerUserOp n) (s : AppTimer n) :
    TimerRet × AppTimer n :=
  if s.mOpQueue.length + 1 < cfg.opQueueSize then
    (.success, { s with mOpQueue := s.mOpQueue ++ [op] })
  else
    (.noMem, s)

/-- `app_timer_start` -/
def appTimerStart (cfg : TimerConfig) (timerId : Option (Fin n)) (timeoutTicks pContext counter : ℕ)
    (s : AppTimer n) : TimerRet × AppTimer n :=
  match timerId with
  | none => (.invalidState, s)
  | some pNode =>
    if timeoutTicks < appTimerMinTimeoutTicks then (.invalidParam, s)
    else if (s.node pNode).pTimeoutHandler = none then (.invalidState, s)
    else
      let timeoutPeriodic := if (s.node pNode).mode = .repeated then timeoutTicks else 0
      userOpSchedule cfg (.start pNode ⟨counter, timeoutTicks, timeoutPeriodic, pContext⟩) s

/-- `app_timer_stop` -/
def appTimerStop (cfg : TimerConfig) (timerId : Option (Fin n)) (s : AppTimer n) :
    TimerRet × AppTimer n :=
  match timerId with
  | none => (.invalidState, s)
  | some pNode =>
    if (s.node pNode).pTimeoutHandler = none then (.invalidState, s)
    else userOpSchedule cfg (.stop pNode) (s.setNode pNode fun x => { x with isRunning := false })

/-- `app_timer_stop_all` -/
def appTimerStopAll (cfg : TimerConfig) (s : AppTimer n) : TimerRet × AppTimer n :=
  userOpSchedule cfg .stopAll s

/-- A call of the interface, with the counter that it reads. -/
inductive TimerCall (n : ℕ) where
  | start (timerId : Option (Fin n)) (timeoutTicks pContext counter : ℕ)
  | stop (timerId : Option (Fin n))
  | stopAll
deriving DecidableEq, Repr

/-- Run a call. -/
def AppTimer.call (cfg : TimerConfig) (s : AppTimer n) : TimerCall n → TimerRet × AppTimer n
  | .start timerId timeoutTicks pContext counter =>
    appTimerStart cfg timerId timeoutTicks pContext counter s
  | .stop timerId => appTimerStop cfg timerId s
  | .stopAll => appTimerStopAll cfg s

/-! ## §2 `timer_timeouts_check` -/

/-- The start of `timer_timeouts_check`. -/
def timeoutsCheckStart (counter : ℕ) (s : AppTimer n) : AppTimer n :=
  match s.mpTimerIdHead with
  | none => s
  | some head => { s with check := .checking (some head) (ticksDiffGet counter s.mTicksLatest) 0 }

/-- The end of `timer_timeouts_check`: the ticks go to the double buffer. -/
def timeoutsCheckEnd (ticksExpired : ℕ) (s : AppTimer n) : AppTimer n :=
  let writeInd :=
    if s.mTicksElapsedQReadInd = s.mTicksElapsedQWriteInd then s.mTicksElapsedQWriteInd + 1
    else s.mTicksElapsedQWriteInd
  { s with
    mTicksElapsedQWriteInd := writeInd
    mTicksElapsed := Function.update s.mTicksElapsed writeInd ticksExpired
    check := .idle }

/-- One iteration of the loop, up to the call of the timeout handler: the timer whose handler is
    called, and the state. -/
def timeoutsCheckStep (s : AppTimer n) : Option (Fin n) × AppTimer n :=
  match s.check with
  | .idle => (none, s)
  | .checking none _ ticksExpired => (none, timeoutsCheckEnd ticksExpired s)
  | .checking (some pTimer) ticksElapsed ticksExpired =>
    let ticksToExpire := (s.node pTimer).ticksToExpire
    if ticksElapsed < ticksToExpire then (none, timeoutsCheckEnd ticksExpired s)
    else
      let s : AppTimer n := { s with
        check := .checking (s.node pTimer).next (ticksElapsed - ticksToExpire)
          (ticksExpired + ticksToExpire) }
      if (s.node pTimer).isRunning = true then
        (some pTimer, s.setNode pTimer fun x => { x with isRunning := false })
      else (none, s)

/-! ## §3 The machine -/

/-- What can happen: a call, the RTC interrupt with the counter it reads, one iteration of its loop,
    and the list handler. -/
inductive TimerLabel (n : ℕ) where
  | call (c : TimerCall n)
  | rtc1 (counter : ℕ)
  | check
  | swi
deriving DecidableEq, Repr

/-- The counter has 24 bits, and the parameters have 32. -/
def TimerCall.InRange : TimerCall n → Prop
  | .start _ timeoutTicks _ counter => timeoutTicks < 2 ^ 32 ∧ counter ≤ maxRtcCounterVal
  | _ => True

instance (c : TimerCall n) : Decidable c.InRange := by
  unfold TimerCall.InRange
  split <;> infer_instance

/-- One step. -/
def AppTimer.step (cfg : TimerConfig) (s : AppTimer n) : TimerLabel n → AppTimer n
  | .call c => (s.call cfg c).2
  | .rtc1 counter => timeoutsCheckStart counter s
  | .check => (timeoutsCheckStep s).2
  | .swi => (timerListHandler cfg s).getD s

/-- Calls can come at any time, the two interrupts one after the other. After a list handler that
    does not end nothing else happens. -/
def AppTimer.Enabled (cfg : TimerConfig) (s : AppTimer n) : TimerLabel n → Prop
  | .call c => c.InRange
  | .rtc1 counter => s.check = .idle ∧ counter ≤ maxRtcCounterVal
  | .check => s.check ≠ .idle
  | .swi => s.check = .idle ∧ (timerListHandler cfg s).isSome = true

instance (cfg : TimerConfig) (s : AppTimer n) (a : TimerLabel n) : Decidable (s.Enabled cfg a) := by
  unfold AppTimer.Enabled
  split <;> infer_instance

/-- The module after `app_timer_init`: any timers, none of them started. -/
structure AppTimer.Initial (s : AppTimer n) : Prop where
  head : s.mpTimerIdHead = none
  queue : s.mOpQueue = []
  read : s.mTicksElapsedQReadInd = 0
  write : s.mTicksElapsedQWriteInd = 0
  reset : s.mRtc1Reset = false
  check : s.check = .idle
  node : ∀ i, (s.node i).isRunning = false ∧ (s.node i).ticksPeriodicInterval = 0
  latest : s.mTicksLatest ≤ maxRtcCounterVal

/-- The timer module in any order of calls and interrupts. -/
def timerMachine (cfg : TimerConfig) : Machine (AppTimer n) (TimerLabel n) where
  start := AppTimer.Initial
  enabled s a := s.Enabled cfg a
  step := AppTimer.step cfg

end NordicEsb.Timer
