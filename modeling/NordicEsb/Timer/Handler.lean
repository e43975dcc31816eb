import NordicEsb.Timer.Node

/-!
# The List Handler

`timer_list_handler` of `app_timer.c`, run by the software interrupt: deletions first, then the
timers that have expired, then the insertions.
-/

namespace NordicEsb.Timer

variable {n : ℕ}

/-! ## §1 Elapsed ticks -/

/-- `elapsed_ticks_acquire`: the ticks, and whether there were any. -/
def elapsedTicksAcquire (s : AppTimer n) : (ℕ × Bool) × AppTimer n :=
  if s.mTicksElapsedQReadInd ≠ s.mTicksElapsedQWriteInd then
    let readInd := s.mTicksElapsedQReadInd + 1
    let ticksElapsed := s.mTicksElapsed readInd
    ((ticksElapsed, true),
      { s with
        mTicksElapsedQReadInd := readInd
        mTicksLatest := (s.mTicksLatest + ticksElapsed) % (maxRtcCounterVal + 1) })
  else
    ((0, false), s)

/-! ## §2 Deletions -/

/-- The loop for `TIMER_USER_OP_TYPE_STOP_ALL`. -/
def stopAllLoop : ℕ → AppTimer n → Option (AppTimer n)
  | 0, _ => none
  | fuel + 1, s =>
    match s.mpTimerIdHead with
    | none => some s
    | some pHead =>
      let s := s.setNode pHead fun x => { x with isRunning := false }
      stopAllLoop fuel { s with mpTimerIdHead := (s.node pHead).next }

/-- One operation of `list_deletions_handler`. -/
def deleteOp (s : AppTimer n) : TimerUserOp n → Option (AppTimer n)
  | .stop pNode => timerListRemove pNode s
  | .stopAll => stopAllLoop (n + 1) s
  | .start _ _ => some s

/-- `list_deletions_handler`, which leaves the operations in the queue. -/
def listDeletionsHandler (s : AppTimer n) : Option (AppTimer n) :=
  s.mOpQueue.foldlM deleteOp s

/-! ## §3 Expired timers -/

/-- The loop of `expired_timers_handler`. The ticks never exceed those that have elapsed. -/
def expiredTimersLoop (ticksPrevious : ℕ) :
    ℕ → ℕ → ℕ → Option (Fin n) → AppTimer n → Option (Option (Fin n) × AppTimer n)
  | 0, _, _, _, _ => none
  | fuel + 1, ticksElapsed, ticksExpired, pRestartListHead, s =>
    match s.mpTimerIdHead with
    | none => some (pRestartListHead, s)
    | some pTimer =>
      let ticksToExpire := (s.node pTimer).ticksToExpire
      if ticksElapsed < ticksToExpire then
        some (pRestartListHead,
          s.setNode pTimer fun x => { x with ticksToExpire := x.ticksToExpire - ticksElapsed })
      else
        let ticksExpired := ticksExpired + ticksToExpire
        let s := s.setNode pTimer fun x => { x with ticksToExpire := 0 }
        let s := { s with mpTimerIdHead := (s.node pTimer).next }
        if (s.node pTimer).ticksPeriodicInterval ≠ 0 then
          expiredTimersLoop ticksPrevious fuel (ticksElapsed - ticksToExpire) ticksExpired
            (some pTimer) (s.setNode pTimer fun x =>
              { x with
                ticksAtStart := (ticksPrevious + ticksExpired) % (maxRtcCounterVal + 1)
                ticksFirstInterval := x.ticksPeriodicInterval
                next := pRestartListHead })
        else
          expiredTimersLoop ticksPrevious fuel (ticksElapsed - ticksToExpire) ticksExpired
            pRestartListHead s

/-- `expired_timers_handler`: the timers that are to be restarted. -/
def expiredTimersHandler (ticksElapsed ticksPrevious : ℕ) (s : AppTimer n) :
    Option (Option (Fin n) × AppTimer n) :=
  expiredTimersLoop ticksPrevious (n + 1) ticksElapsed 0 none s

/-- The call of `expired_timers_handler`, if ticks have elapsed. -/
def expirePass (ticksHaveElapsed : Bool) (ticksElapsed ticksPrevious : ℕ) (s : AppTimer n) :
    Option (Option (Fin n) × AppTimer n) :=
  if ticksHaveElapsed = true then expiredTimersHandler ticksElapsed ticksPrevious s
  else some (none, s)

/-! ## §4 Insertions -/

/-- The ticks until a timer expires, by the ticks at which it was started. -/
def insertTicks (ticksLatest ticksAtStart ticksFirstInterval : ℕ) : ℕ :=
  if ticksDiffGet ticksAtStart ticksLatest < maxRtcCounterVal / 2 then
    (ticksDiffGet ticksAtStart ticksLatest + ticksFirstInterval) % 2 ^ 32
  else
    let deltaCurrentStart := ticksDiffGet ticksLatest ticksAtStart
    if ticksFirstInterval > deltaCurrentStart then ticksFirstInterval - deltaCurrentStart else 0

/-- The end of an iteration of `list_insertions_handler`: prepare the node and insert it. -/
def insertTimer (pTimer : Fin n) (s : AppTimer n) : Option (AppTimer n) :=
  timerListInsert pTimer (s.setNode pTimer fun x =>
    { x with
      ticksToExpire := insertTicks s.mTicksLatest x.ticksAtStart x.ticksFirstInterval
      ticksAtStart := 0
      ticksFirstInterval := 0
      isRunning := true
      next := none })

/-- The iterations for the timers that are to be restarted. -/
def restartLoop : ℕ → Option (Fin n) → AppTimer n → Option (AppTimer n)
  | 0, _, _ => none
  | _ + 1, none, s => some s
  | fuel + 1, some pTimer, s =>
    (insertTimer pTimer s).bind (restartLoop fuel (s.node pTimer).next)

/-- The iteration for an operation that is taken from the queue. -/
def insertOp (s : AppTimer n) : TimerUserOp n → Option (AppTimer n)
  | .start pNode params =>
    if (s.node pNode).isRunning = true then some s
    else
      insertTimer pNode (s.setNode pNode fun x =>
        { x with
          ticksAtStart := if s.mRtc1Reset = true then 0 else params.ticksAtStart
          ticksFirstInterval := params.ticksFirstInterval
          ticksPeriodicInterval := params.ticksPeriodicInterval
          pContext := params.pContext })
  | _ => some s

/-- `list_insertions_handler`: the timers that are to be restarted, then the operations. -/
def listInsertionsHandler (pRestartListHead : Option (Fin n)) (s : AppTimer n) :
    Option (AppTimer n) := do
  let s ← restartLoop (n + 1) pRestartListHead s
  s.mOpQueue.foldlM insertOp { s with mOpQueue := [] }

/-! ## §5 `timer_list_handler` -/

/-- `compare_reg_update`: the RTC runs as long as there are timers. -/
def compareRegUpdate (cfg : TimerConfig) (s : AppTimer n) : AppTimer n :=
  match s.mpTimerIdHead with
  | some _ => { s with mRtc1Running := true }
  | none =>
    if cfg.keepsRtcActive = true then s
    else { s with mTicksLatest := 0, mRtc1Running := false }

/-- `timer_list_handler` -/
def timerListHandler (cfg : TimerConfig) (s : AppTimer n) : Option (AppTimer n) := do
  let ticksPrevious := s.mTicksLatest
  let ((ticksElapsed, ticksHaveElapsed), s) := elapsedTicksAcquire s
  let oldHead := s.mpTimerIdHead
  let s ← listDeletionsHandler s
  let compareUpdate := decide (s.mpTimerIdHead ≠ oldHead)
  let (pRestartListHead, s) ← expirePass ticksHaveElapsed ticksElapsed ticksPrevious s
  let oldHead := s.mpTimerIdHead
  let s ← listInsertionsHandler pRestartListHead s
  let compareUpdate := compareUpdate || ticksHaveElapsed || decide (s.mpTimerIdHead ≠ oldHead)
  let s := if compareUpdate then compareRegUpdate cfg s else s
  some { s with mRtc1Reset := false }

end NordicEsb.Timer
