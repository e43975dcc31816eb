import NordicEsb.Lib.FixedArray
import Mathlib.Algebra.GroupWithZero.Nat
import Mathlib.Logic.Function.Basic

/-!
# Timers and Their List

The timer nodes of `app_timer.c`, and the functions that edit the list at `mp_timer_id_head`. There
are `n` timers. A walk through the list has fuel for one step more than there are timers; it returns
nothing if that is not enough, which is to say that the loop of the source does not end.
-/

namespace NordicEsb.Timer

/-! ## §1 Data -/

/-- `MAX_RTC_COUNTER_VAL` -/
def maxRtcCounterVal : ℕ := 0x00FFFFFF

/-- `APP_TIMER_MIN_TIMEOUT_TICKS` -/
def appTimerMinTimeoutTicks : ℕ := 5

/-- `app_timer_mode_t` -/
inductive AppTimerMode where
  | singleShot
  | repeated
deriving DecidableEq, Repr

/-- `timer_node_t` -/
structure TimerNode (n : ℕ) where
  ticksToExpire : ℕ
  ticksAtStart : ℕ
  ticksFirstInterval : ℕ
  ticksPeriodicInterval : ℕ
  isRunning : Bool
  mode : AppTimerMode
  pTimeoutHandler : Option ℕ
  pContext : ℕ
  next : Option (Fin n)
deriving DecidableEq, Repr

/-- `timer_user_op_start_t` -/
structure TimerUserOpStart where
  ticksAtStart : ℕ
  ticksFirstInterval : ℕ
  ticksPeriodicInterval : ℕ
  pContext : ℕ
deriving DecidableEq, Repr

/-- `timer_user_op_t`: the operation, its node and its parameters. -/
inductive TimerUserOp (n : ℕ) where
  | start (pNode : Fin n) (params : TimerUserOpStart)
  | stop (pNode : Fin n)
  | stopAll
deriving DecidableEq, Repr

/-- What `timer_timeouts_check` is at: not running, or about to look at `p_timer`. -/
inductive TimeoutsCheck (n : ℕ) where
  | idle
  | checking (pTimer : Option (Fin n)) (ticksElapsed ticksExpired : ℕ)
deriving DecidableEq, Repr

/-- The variables of `app_timer.c`. The operations that are queued are a list, oldest first. -/
structure AppTimer (n : ℕ) where
  node : Fin n → TimerNode n
  mpTimerIdHead : Option (Fin n)
  mOpQueue : List (TimerUserOp n)
  mTicksLatest : ℕ
  mTicksElapsed : Fin 2 → ℕ
  mTicksElapsedQReadInd : Fin 2
  mTicksElapsedQWriteInd : Fin 2
  mRtc1Running : Bool
  mRtc1Reset : Bool
  check : TimeoutsCheck n

/-- What the build and `app_timer_init` set: the size of the operations queue, and whether the RTC
    goes on when there are no timers. -/
structure TimerConfig where
  opQueueSize : ℕ
  keepsRtcActive : Bool
deriving DecidableEq, Repr

variable {n : ℕ}

/-- Write one node. -/
def AppTimer.setNode (s : AppTimer n) (p : Fin n) (f : TimerNode n → TimerNode n) : AppTimer n :=
  { s with node := Function.update s.node p (f (s.node p)) }

/-- `ticks_diff_get` -/
def ticksDiffGet (ticksNow ticksOld : ℕ) : ℕ :=
  (ticksNow + (maxRtcCounterVal + 1) - ticksOld % (maxRtcCounterVal + 1)) % (maxRtcCounterVal + 1)

/-! ## §2 `timer_list_insert` -/

/-- The loop of `timer_list_insert`: the ticks that are left, `p_previous` and `p_current`. -/
def insertWalk (node : Fin n → TimerNode n) :
    ℕ → ℕ → Fin n → Option (Fin n) → Option (ℕ × Fin n × Option (Fin n))
  | 0, _, _, _ => none
  | _ + 1, ticksToExpire, pPrevious, none => some (ticksToExpire, pPrevious, none)
  | fuel + 1, ticksToExpire, pPrevious, some pCurrent =>
    if ticksToExpire > (node pCurrent).ticksToExpire then
      insertWalk node fuel (ticksToExpire - (node pCurrent).ticksToExpire) pCurrent
        (node pCurrent).next
    else
      some (ticksToExpire, pPrevious, some pCurrent)

/-- The writes after that loop. -/
def insertLink (s : AppTimer n) (pTimer : Fin n) (ticksToExpire : ℕ) (pPrevious : Fin n)
    (pCurrent : Option (Fin n)) : AppTimer n :=
  let s := match pCurrent with
    | some c => s.setNode c fun x => { x with ticksToExpire := x.ticksToExpire - ticksToExpire }
    | none => s
  let s := s.setNode pTimer fun x => { x with ticksToExpire := ticksToExpire, next := pCurrent }
  s.setNode pPrevious fun x => { x with next := some pTimer }

/-- `timer_list_insert` -/
def timerListInsert (pTimer : Fin n) (s : AppTimer n) : Option (AppTimer n) :=
  match s.mpTimerIdHead with
  | none => some { s with mpTimerIdHead := some pTimer }
  | some head =>
    let ticksToExpire := (s.node pTimer).ticksToExpire
    if ticksToExpire ≤ (s.node head).ticksToExpire then
      let s := s.setNode head fun x => { x with ticksToExpire := x.ticksToExpire - ticksToExpire }
      let s := s.setNode pTimer fun x => { x with next := some head }
      some { s with mpTimerIdHead := some pTimer }
    else
      (insertWalk s.node (n + 1) ticksToExpire head (some head)).map fun r =>
        insertLink s pTimer r.1 r.2.1 r.2.2

/-! ## §3 `timer_list_remove` -/

/-- The loop of `timer_list_remove`: `p_previous` and `p_current`. -/
def removeWalk (node : Fin n → TimerNode n) (pTimer : Fin n) :
    ℕ → Option (Fin n) → Option (Fin n) → Option (Option (Fin n) × Option (Fin n))
  | 0, _, _ => none
  | _ + 1, pPrevious, none => some (pPrevious, none)
  | fuel + 1, pPrevious, some pCurrent =>
    if pCurrent = pTimer then some (pPrevious, some pCurrent)
    else removeWalk node pTimer fuel (some pCurrent) (node pCurrent).next

/-- The first timer leaves the list. If it was the last one, the RTC is reset. -/
def removeHead (pCurrent : Fin n) (s : AppTimer n) : AppTimer n :=
  match (s.node pCurrent).next with
  | some p => { s with mpTimerIdHead := some p }
  | none => { s with mpTimerIdHead := none, mTicksLatest := 0, mRtc1Reset := true }

/-- The timer is taken out, and the next one is given its ticks. -/
def removeLink (pPrevious pCurrent : Fin n) (s : AppTimer n) : AppTimer n :=
  let timeout := (s.node pCurrent).ticksToExpire
  let pNext := (s.node pCurrent).next
  let s := s.setNode pPrevious fun x => { x with next := pNext }
  match pNext with
  | some p => s.setNode p fun x => { x with ticksToExpire := (x.ticksToExpire + timeout) % 2 ^ 32 }
  | none => s

/-- `timer_list_remove` -/
def timerListRemove (pTimer : Fin n) (s : AppTimer n) : Option (AppTimer n) :=
  (removeWalk s.node pTimer (n + 1) s.mpTimerIdHead s.mpTimerIdHead).map fun r =>
    match r with
    | (some pPrevious, some pCurrent) =>
      removeLink pPrevious pCurrent (if pPrevious = pCurrent then removeHead pCurrent s else s)
    | _ => s

end NordicEsb.Timer
