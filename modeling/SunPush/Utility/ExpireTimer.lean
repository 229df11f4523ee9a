import SunPush.Utility.Timer

/-!
# The expiring timer

`Timer` keeps the tick at which it expires, a `DWORD` that wraps with the tick
counter.  It compares that tick with the counter as the two stand, so it is on
time as long as start, deadline and poll lie in one turn of the counter, and
finds a deadline behind the wrap expired all along.
-/

namespace SunPush

open CInteger

structure Timer where
  expireTime : DWord
  intervalTime : DWord
  checkTime : Bool
  deriving DecidableEq, Repr

namespace Timer

/-- The timer as it is constructed. -/
def new : Timer :=
  { expireTime := 0, intervalTime := 0, checkTime := false }

def enableCheckTime (timer : Timer) : Timer :=
  { timer with checkTime := true }

def reset (timer : Timer) (tick : DWord) : Timer :=
  enableCheckTime { timer with expireTime := tick + timer.intervalTime }

def setTimer (timer : Timer) (tick intervalTime : DWord) : Timer :=
  reset { timer with intervalTime := intervalTime } tick

def isExpired (timer : Timer) (tick : DWord) (bReset : Bool) : Bool × Timer :=
  if timer.checkTime ∧ timer.expireTime ≤ tick then
    (true, if bReset then { timer with expireTime := tick + timer.intervalTime } else timer)
  else (false, timer)

/-- The two `CHECKZERO`s return zero. -/
def getProcessTime (timer : Timer) (tick : DWord) : DWord :=
  if ¬(0 < timer.expireTime ∧ timer.intervalTime ≤ timer.expireTime) then 0
  else if ¬timer.expireTime - timer.intervalTime ≤ tick then 0
  else if timer.expireTime ≤ tick then timer.intervalTime
  else tick - (timer.expireTime - timer.intervalTime)

def getRemainTime (timer : Timer) (tick : DWord) : DWord × Timer :=
  let polled := timer.isExpired tick false
  if ¬polled.1 then
    let process := polled.2.getProcessTime tick
    (if ¬process < polled.2.intervalTime then 0 else polled.2.intervalTime - process, polled.2)
  else (0, polled.2)

/-- The calls that ask for the time. -/
inductive Poll where
  | isExpired
  | getProcessTime
  | getRemainTime
  deriving DecidableEq

/-- The timer behind a poll. -/
def poll (timer : Timer) (tick : DWord) : Poll → Timer
  | .isExpired => (timer.isExpired tick false).2
  | .getProcessTime => timer
  | .getRemainTime => (timer.getRemainTime tick).2

/-- The timer behind polls at true times. -/
def polls (timer : Timer) (asked : List (Nat × Poll)) : Timer :=
  asked.foldl (fun timer asks => timer.poll (tickCount asks.1) asks.2) timer

/-- What the timer says at a true time is right, if it was set to `interval` at `start`. -/
structure OnTime (timer : Timer) (start : Nat) (interval : DWord) (time : Nat) : Prop where
  expired_iff :
    (timer.isExpired (tickCount time) false).1 = true ↔ start + interval.toNat ≤ time
  processTime : time < start + interval.toNat →
    (timer.getProcessTime (tickCount time)).toNat = time - start
  remainTime : time < start + interval.toNat →
    (timer.getRemainTime (tickCount time)).1.toNat = interval.toNat - (time - start)

/-- The turn of the tick counter at a true time. -/
def turn (time : Nat) : Nat :=
  time / 2 ^ 32

theorem isExpired_snd (timer : Timer) (tick : DWord) : (timer.isExpired tick false).2 = timer := by
  rw [isExpired]
  split <;> rfl

theorem getRemainTime_snd (timer : Timer) (tick : DWord) :
    (timer.getRemainTime tick).2 = timer := by
  rw [getRemainTime]
  split <;> exact isExpired_snd timer tick

/-- Asking for the time leaves the timer as it is. -/
theorem polls_eq (timer : Timer) (asked : List (Nat × Poll)) : timer.polls asked = timer := by
  induction asked with
  | nil => rfl
  | cons asks asked ih =>
      have kept : timer.poll (tickCount asks.1) asks.2 = timer := by
        cases asks.2 with
        | isExpired => exact isExpired_snd timer _
        | getProcessTime => rfl
        | getRemainTime => exact getRemainTime_snd timer _
      rw [polls, List.foldl_cons, kept]
      exact ih

/-! ## In numbers -/

theorem toNat_tickCount (time : Nat) : (tickCount time).toNat = time % 2 ^ 32 :=
  BitVec.toNat_ofNat time 32

theorem toNat_getProcessTime (timer : Timer) (tick : DWord) :
    (timer.getProcessTime tick).toNat =
      if timer.expireTime.toNat = 0 ∨ timer.expireTime.toNat < timer.intervalTime.toNat then 0
      else if tick.toNat < timer.expireTime.toNat - timer.intervalTime.toNat then 0
      else if timer.expireTime.toNat ≤ tick.toNat then timer.intervalTime.toNat
      else tick.toNat - (timer.expireTime.toNat - timer.intervalTime.toNat) := by
  rw [getProcessTime]
  by_cases accepted : 0 < timer.expireTime ∧ timer.intervalTime ≤ timer.expireTime
  · have enough : ¬(timer.expireTime.toNat = 0 ∨
        timer.expireTime.toNat < timer.intervalTime.toNat) := by bv_omega
    have started : (timer.expireTime - timer.intervalTime).toNat =
        timer.expireTime.toNat - timer.intervalTime.toNat :=
      BitVec.toNat_sub_of_le accepted.2
    rw [if_neg (not_not.mpr accepted), if_neg enough, ← started]
    by_cases running : timer.expireTime - timer.intervalTime ≤ tick
    · rw [if_neg (not_not.mpr running), if_neg (Nat.not_lt_of_le running)]
      by_cases late : timer.expireTime ≤ tick
      · rw [if_pos late, if_pos (BitVec.le_def.mp late)]
      · rw [if_neg late, if_neg (mt BitVec.le_def.mpr late)]
        exact BitVec.toNat_sub_of_le running
    · rw [if_pos running, if_pos (Nat.lt_of_not_le running)]
      rfl
  · have refused : timer.expireTime.toNat = 0 ∨
        timer.expireTime.toNat < timer.intervalTime.toNat := by bv_omega
    rw [if_pos accepted, if_pos refused]
    rfl

theorem toNat_getRemainTime (timer : Timer) (tick : DWord) :
    (timer.getRemainTime tick).1.toNat =
      if (timer.isExpired tick false).1 = true then 0
      else timer.intervalTime.toNat - (timer.getProcessTime tick).toNat := by
  rw [getRemainTime, isExpired_snd]
  by_cases expired : (timer.isExpired tick false).1 = true
  · rw [if_pos expired, if_neg (not_not.mpr expired)]
    rfl
  · rw [if_neg expired, if_pos expired]
    by_cases remains : timer.getProcessTime tick < timer.intervalTime
    · simp only [if_neg (not_not.mpr remains)]
      bv_omega
    · simp only [if_pos remains]
      bv_omega

section SetTimer

variable {timer : Timer} {start time : Nat} {interval : DWord}

theorem setTimer_eq (timer : Timer) (start : Nat) (interval : DWord) :
    timer.setTimer (tickCount start) interval =
      { expireTime := tickCount (start + interval.toNat)
        intervalTime := interval
        checkTime := true } := by
  rw [← tickCount_add]
  rfl

/-- The deadline and the poll are compared as they stand in their turns. -/
theorem isExpired_setTimer_iff :
    ((timer.setTimer (tickCount start) interval).isExpired (tickCount time) false).1 = true ↔
      (start + interval.toNat) % 2 ^ 32 ≤ time % 2 ^ 32 := by
  rw [setTimer_eq, ← toNat_tickCount, ← toNat_tickCount, ← BitVec.le_def, isExpired]
  split
  case isTrue late => simpa using late
  case isFalse early => simpa using early

/-- The timer is right exactly when the poll is in the turn of the deadline, and either that is the
turn in which the timer was set or the timer has expired. -/
theorem onTime_setTimer_iff (timer : Timer) (positive : 0 < interval)
    (short : interval.toNat < 2 ^ 31) (since : start ≤ time) (before : time < start + 2 ^ 31)
    (asked : List (Nat × Poll)) :
    ((timer.setTimer (tickCount start) interval).polls asked).OnTime start interval time ↔
      turn time = turn (start + interval.toNat) ∧
        (turn time = turn start ∨ start + interval.toNat ≤ time) := by
  rw [polls_eq]
  have expired_iff := @isExpired_setTimer_iff timer start time interval
  have process := toNat_getProcessTime (timer.setTimer (tickCount start) interval) (tickCount time)
  have remain := toNat_getRemainTime (timer.setTimer (tickCount start) interval) (tickCount time)
  rw [process] at remain
  have deadline : (timer.setTimer (tickCount start) interval).expireTime.toNat =
      (start + interval.toNat) % 2 ^ 32 := by
    rw [setTimer_eq, toNat_tickCount]
  have interval_eq : (timer.setTimer (tickCount start) interval).intervalTime = interval := rfl
  rw [deadline, interval_eq, toNat_tickCount] at process remain
  have interval_pos : 0 < interval.toNat := by bv_omega
  simp only [turn]
  constructor
  · intro onTime
    have expires := expired_iff.symm.trans onTime.expired_iff
    by_cases reached : start + interval.toNat ≤ time
    · omega
    · have elapsed := onTime.processTime (Nat.lt_of_not_le reached)
      rw [process] at elapsed
      split at elapsed <;> omega
  · rintro ⟨same, started⟩
    have expires : (start + interval.toNat) % 2 ^ 32 ≤ time % 2 ^ 32 ↔
        start + interval.toNat ≤ time := by omega
    constructor
    case expired_iff => exact expired_iff.trans expires
    case processTime =>
      intro early
      rw [process, if_neg (by omega), if_neg (by omega), if_neg (by omega)]
      omega
    case remainTime =>
      intro early
      have running := mt expired_iff.mp (mt expires.mp (Nat.not_le_of_lt early))
      rw [remain, if_neg running, if_neg (by omega), if_neg (by omega), if_neg (by omega)]
      omega

end SetTimer

/-- A timer of half a second that is asked before the deadline. -/
theorem onTime_setTimer_halfSecond :
    ((new.setTimer (tickCount 1000) 500).polls [(1200, .getRemainTime)]).OnTime 1000 500 1400 :=
  (onTime_setTimer_iff new (by decide) (by decide) (by decide) (by decide)
    [(1200, .getRemainTime)]).mpr (by decide)

/-- A timer of ten ticks, set five ticks before the wrap of the counter, has expired at once. -/
theorem not_onTime_setTimer_wrap :
    ¬((new.setTimer (tickCount 4294967291) 10).polls []).OnTime 4294967291 10 4294967291 := by
  intro onTime
  have expired := onTime.expired_iff.mp (by decide)
  exact absurd expired (by decide)

end Timer

end SunPush
