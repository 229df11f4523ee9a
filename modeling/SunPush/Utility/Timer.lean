import SunPush.Library.Integer
import SunPush.Library.Transition

/-!
# The accumulating timer

`RecvTickTimer` is polled with the tick counter of the machine, a `DWORD` that starts again from
zero every 49.7 days.  With `TimeNextTime<UseAccumulate>` the tick of the last event moves on by one
interval for each event, so that what is left over counts towards the next one.  Runs poll a timer
at true times that never go back, and count the events; a timer on schedule has one event for each
interval that its last tick moved.

The expiry test subtracts modulo `2 ^ 32`, and is right across the wrap of the counter.  The check
of `UseAccumulate` compares the two ticks as they stand, and fails for the first event after the
wrap: the event is returned, and the last tick stays where it was.
-/

namespace SunPush

open CInteger

namespace UseAccumulate

/-- The last tick and the interval after an event; both `CHECK`s leave them as they are. -/
def calRemainTick (curTick lastTick intervalTick : DWord) : DWord × DWord :=
  if ¬lastTick < curTick then (lastTick, intervalTick)
  else if intervalTick = 0 then (lastTick, intervalTick)
  else (lastTick + intervalTick, intervalTick)

end UseAccumulate

namespace TimeNextTime

/-- `ResetInterval` leaves the ticks to the accounting it is given. -/
def resetInterval (calRemainTick : DWord → DWord → DWord → DWord × DWord)
    (curTick lastTick intervalTick : DWord) : DWord × DWord :=
  calRemainTick curTick lastTick intervalTick

end TimeNextTime

structure RecvTickTimer where
  lastTick : DWord
  intervalTick : DWord
  deriving DecidableEq, Repr

namespace RecvTickTimer

/-- The timer as it is constructed. -/
def new : RecvTickTimer :=
  { lastTick := 0, intervalTick := 0 }

def init (timer : RecvTickTimer) (intervalTick curTick : DWord) : Bool × RecvTickTimer :=
  if ¬0 < intervalTick then (false, timer)
  else (true, { timer with intervalTick := intervalTick, lastTick := curTick })

/-- `TimeEvent`, for the policy that resets the interval.  Its two assertions only write to the
log. -/
def timeEvent (resetInterval : DWord → DWord → DWord → DWord × DWord) (timer : RecvTickTimer)
    (curTick : DWord) : Bool × RecvTickTimer :=
  if 0 = timer.intervalTick then (false, timer)
  else if curTick - timer.lastTick < timer.intervalTick then (false, timer)
  else
    let reset := resetInterval curTick timer.lastTick timer.intervalTick
    (true, { lastTick := reset.1, intervalTick := reset.2 })

end RecvTickTimer

/-! ## Runs -/

/-- The tick counter at a true time. -/
def tickCount (time : Nat) : DWord :=
  BitVec.ofNat 32 time

/-- The difference of two readings of the tick counter is the time between them, less the turns of
the counter. -/
theorem toNat_tickCount_sub {earlier later : Nat} (ordered : earlier ≤ later) :
    (tickCount later - tickCount earlier).toNat = (later - earlier) % 2 ^ 32 := by
  simp only [tickCount, BitVec.toNat_sub, BitVec.toNat_ofNat]
  omega

theorem tickCount_add (time : Nat) (interval : DWord) :
    tickCount time + interval = tickCount (time + interval.toNat) := by
  apply BitVec.eq_of_toNat_eq
  simp [tickCount, Nat.add_mod]

/-- A timer that is polled: the true time of the latest poll, what that poll returned, and the
events that all of them returned. -/
structure TimerRun where
  timer : RecvTickTimer
  time : Nat
  returned : Option Bool
  events : Nat
  deriving DecidableEq, Repr

namespace TimerRun

/-- `timer` initialised at the true time `start`. -/
def initialised (timer : RecvTickTimer) (start : Nat) (interval : DWord) : TimerRun :=
  { timer := (timer.init interval (tickCount start)).2
    time := start
    returned := none
    events := 0 }

def poll (run : TimerRun) (time : Nat) : TimerRun :=
  let polled := run.timer.timeEvent (TimeNextTime.resetInterval UseAccumulate.calRemainTick)
    (tickCount time)
  { timer := polled.2
    time := time
    returned := some polled.1
    events := if polled.1 then run.events + 1 else run.events }

end TimerRun

/-- A timer initialised at `start`, and polled at true times that never go back. -/
def timerSystem (start : Nat) (interval : DWord) : Transition.System TimerRun Nat where
  Initial run := ∃ timer, run = TimerRun.initialised timer start interval
  step run time := if run.time ≤ time then some (run.poll time) else none

namespace TimerRun

variable {start : Nat} {interval : DWord} {run : TimerRun} {time : Nat}

/-- The true time that the events account for. -/
def accounted (run : TimerRun) (start : Nat) (interval : DWord) : Nat :=
  start + run.events * interval.toNat

/-- No event too many, and none missing at a poll that finds no event left while less than a turn of
the tick counter is not accounted for. -/
structure Counts (run : TimerRun) (start : Nat) (interval : DWord) : Prop where
  atMost : run.events ≤ (run.time - start) / interval.toNat
  drained : run.returned = some false → run.time - run.accounted start interval < 2 ^ 32 →
    run.events = (run.time - start) / interval.toNat

/-- The expiry test of a poll finds an event. -/
def Due (run : TimerRun) (time : Nat) : Prop :=
  run.timer.intervalTick ≤ tickCount time - run.timer.lastTick

/-- A poll that finds an event finds the tick counter above the last tick. -/
def Ahead (run : TimerRun) (time : Nat) : Prop :=
  run.Due time → run.timer.lastTick < tickCount time

instance (run : TimerRun) (time : Nat) : Decidable (run.Due time) :=
  inferInstanceAs (Decidable (run.timer.intervalTick ≤ tickCount time - run.timer.lastTick))

instance (run : TimerRun) (time : Nat) : Decidable (run.Ahead time) :=
  inferInstanceAs (Decidable (run.Due time → run.timer.lastTick < tickCount time))

/-- Every event moved the last tick by one interval, and none came early. -/
structure OnSchedule (run : TimerRun) (start : Nat) (interval : DWord) : Prop where
  intervalTick : run.timer.intervalTick = interval
  lastTick : run.timer.lastTick = tickCount (run.accounted start interval)
  accounted_le : run.accounted start interval ≤ run.time
  drained : run.returned = some false → run.time - run.accounted start interval < 2 ^ 32 →
    run.time < run.accounted start interval + interval.toNat

/-! ## One poll -/

theorem poll_of_not_due (idle : ¬run.Due time) :
    run.poll time = { run with time := time, returned := some false } := by
  have early : tickCount time - run.timer.lastTick < run.timer.intervalTick :=
    BitVec.not_le.mp idle
  simp [poll, RecvTickTimer.timeEvent, early]

/-- A poll that finds an event returns it, and leaves the timer to the check of `UseAccumulate`. -/
theorem poll_of_due (positive : 0 < run.timer.intervalTick) (due : run.Due time) :
    run.poll time =
      { timer :=
          { run.timer with
            lastTick := if run.timer.lastTick < tickCount time
              then run.timer.lastTick + run.timer.intervalTick else run.timer.lastTick }
        time := time
        returned := some true
        events := run.events + 1 } := by
  have nonzero : run.timer.intervalTick ≠ 0 := by bv_omega
  have late : ¬tickCount time - run.timer.lastTick < run.timer.intervalTick :=
    BitVec.not_lt.mpr due
  simp only [poll, RecvTickTimer.timeEvent, TimeNextTime.resetInterval,
    UseAccumulate.calRemainTick, if_neg nonzero, if_neg nonzero.symm, if_neg late]
  by_cases above : run.timer.lastTick < tickCount time <;> simp [above]

theorem poll_of_ahead (positive : 0 < run.timer.intervalTick) (due : run.Due time)
    (above : run.timer.lastTick < tickCount time) :
    run.poll time =
      { timer := { run.timer with lastTick := run.timer.lastTick + run.timer.intervalTick }
        time := time
        returned := some true
        events := run.events + 1 } := by
  rw [poll_of_due positive due, if_pos above]

/-- The check of `UseAccumulate` fails: the event is returned, and the timer is as it was. -/
theorem poll_of_behind (positive : 0 < run.timer.intervalTick) (due : run.Due time)
    (behind : ¬run.timer.lastTick < tickCount time) :
    run.poll time =
      { run with time := time, returned := some true, events := run.events + 1 } := by
  rw [poll_of_due positive due, if_neg behind]

@[simp]
theorem initialised_timer (timer : RecvTickTimer) (positive : 0 < interval) :
    (initialised timer start interval).timer =
      { lastTick := tickCount start, intervalTick := interval } := by
  rw [initialised, RecvTickTimer.init, if_neg (not_not.mpr positive)]

namespace OnSchedule

theorem initialised (timer : RecvTickTimer) (positive : 0 < interval) :
    (TimerRun.initialised timer start interval).OnSchedule start interval where
  intervalTick := by rw [initialised_timer timer positive]
  lastTick := by
    rw [initialised_timer timer positive]
    simp [accounted, TimerRun.initialised]
  accounted_le := by simp [TimerRun.initialised, accounted]
  drained returned := by simp [TimerRun.initialised] at returned

theorem due_iff (schedule : run.OnSchedule start interval) (later : run.time ≤ time) :
    run.Due time ↔ interval.toNat ≤ (time - run.accounted start interval) % 2 ^ 32 := by
  have ordered : run.accounted start interval ≤ time := schedule.accounted_le.trans later
  rw [Due, schedule.intervalTick, schedule.lastTick, BitVec.le_def, toNat_tickCount_sub ordered]

theorem accounted_of_event {next : TimerRun} (event : next.events = run.events + 1) :
    next.accounted start interval = run.accounted start interval + interval.toNat := by
  rw [accounted, accounted, event, Nat.succ_mul, Nat.add_assoc]

theorem poll (schedule : run.OnSchedule start interval) (positive : 0 < interval)
    (later : run.time ≤ time) (ahead : run.Ahead time) :
    (run.poll time).OnSchedule start interval := by
  have ordered : run.accounted start interval ≤ time := schedule.accounted_le.trans later
  by_cases due : run.Due time
  · have interval_pos : 0 < run.timer.intervalTick := by rwa [schedule.intervalTick]
    have enough := (schedule.due_iff later).mp due
    have part : (time - run.accounted start interval) % 2 ^ 32 ≤
        time - run.accounted start interval := Nat.mod_le _ _
    have polled := poll_of_ahead interval_pos due (ahead due)
    have counted : (run.poll time).accounted start interval =
        run.accounted start interval + interval.toNat := by
      apply accounted_of_event
      rw [polled]
    constructor
    case intervalTick =>
      rw [polled]
      exact schedule.intervalTick
    case lastTick =>
      rw [counted, polled, ← tickCount_add, ← schedule.lastTick, schedule.intervalTick]
    case accounted_le =>
      rw [counted, polled]
      simp only
      omega
    case drained =>
      intro returned
      simp [polled] at returned
  · have few := mt (schedule.due_iff later).mpr due
    rw [poll_of_not_due due]
    constructor
    case intervalTick => exact schedule.intervalTick
    case lastTick => exact schedule.lastTick
    case accounted_le => exact ordered
    case drained =>
      intro _ within
      simp only [accounted] at few within ⊢
      rw [Nat.mod_eq_of_lt within] at few
      omega

/-- A timer on schedule has the events that the true time has intervals, but for those that are
still to be found. -/
theorem counts (schedule : run.OnSchedule start interval) (positive : 0 < interval) :
    run.Counts start interval := by
  have interval_pos : 0 < interval.toNat := by bv_omega
  have reached := schedule.accounted_le
  have atMost : run.events ≤ (run.time - start) / interval.toNat := by
    rw [Nat.le_div_iff_mul_le interval_pos]
    simp only [accounted] at reached
    omega
  constructor
  case atMost => exact atMost
  case drained =>
    intro returned within
    have next := schedule.drained returned within
    apply Nat.le_antisymm atMost
    rw [← Nat.lt_succ_iff, Nat.div_lt_iff_lt_mul interval_pos, Nat.succ_mul]
    simp only [accounted] at next reached
    omega

end OnSchedule

/-! ## Polling on at one time -/

/-- A poll keeps ahead of the last tick: what it adds to that tick, the test has found between the
two. -/
theorem Ahead.poll (positive : 0 < run.timer.intervalTick) (ahead : run.Ahead time) :
    (run.poll time).Ahead time := by
  by_cases due : run.Due time
  · have above := ahead due
    rw [poll_of_ahead positive due above]
    intro again
    simp only [Due] at due again
    simp only
    bv_omega
  · rw [poll_of_not_due due]
    intro again
    exact absurd again due

theorem poll_time (run : TimerRun) (time : Nat) : (run.poll time).time = time :=
  rfl

theorem step_eq_poll (later : run.time ≤ time) :
    (timerSystem start interval).step run time = some (run.poll time) :=
  if_pos later

/-- A timer stays on schedule while it is polled on at a time at which it is ahead. -/
theorem OnSchedule.polling (schedule : run.OnSchedule start interval) (positive : 0 < interval)
    (later : run.time ≤ time) (ahead : run.Ahead time) {polls : Nat} {next : TimerRun}
    (runs : (timerSystem start interval).run run (List.replicate polls time) = some next) :
    next.OnSchedule start interval := by
  induction polls generalizing run with
  | zero =>
      rw [List.replicate_zero, Transition.System.run_nil, Option.some.injEq] at runs
      rwa [← runs]
  | succ polls ih =>
      rw [List.replicate_succ, Transition.System.run_cons, step_eq_poll later] at runs
      have interval_pos : 0 < run.timer.intervalTick := by rwa [schedule.intervalTick]
      apply ih (schedule.poll positive later ahead)
      · rw [poll_time]
      · exact ahead.poll interval_pos
      · exact runs

/-- The event that the check of `UseAccumulate` refuses to account for is found again by every
poll. -/
theorem polling_of_behind (positive : 0 < run.timer.intervalTick) (later : run.time ≤ time)
    (due : run.Due time) (behind : ¬run.timer.lastTick < tickCount time) (polls : Nat) :
    (timerSystem start interval).run run (List.replicate (polls + 1) time) =
      some { run with
        time := time, returned := some true, events := run.events + (polls + 1) } := by
  induction polls generalizing run with
  | zero => simp [step_eq_poll later, poll_of_behind positive due behind]
  | succ polls ih =>
      have again := @ih { run with
        time := time, returned := some true, events := run.events + 1 } positive le_rfl due behind
      rw [List.replicate_succ, Transition.System.run_cons, step_eq_poll later,
        poll_of_behind positive due behind, Option.bind_some, again]
      simp only [Nat.add_assoc, Nat.add_comm 1]

/-- Polling on at a time never gives an event too many, or loses one, exactly when the timer is
ahead at that time. -/
theorem counts_polling_iff (schedule : run.OnSchedule start interval) (positive : 0 < interval)
    (later : run.time ≤ time) :
    (∀ polls next, (timerSystem start interval).run run (List.replicate polls time) = some next →
      next.Counts start interval) ↔ run.Ahead time := by
  constructor
  · intro counted due
    by_contra behind
    have interval_pos : 0 < run.timer.intervalTick := by rwa [schedule.intervalTick]
    have counts := counted _ _ (polling_of_behind interval_pos later due behind time)
    have atMost := counts.atMost.trans (Nat.div_le_self _ _)
    simp only at atMost
    omega
  · intro ahead polls next runs
    exact (schedule.polling positive later ahead runs).counts positive

/-- Polling on at a time at which the timer is ahead comes to a poll that finds no event. -/
theorem OnSchedule.drains (schedule : run.OnSchedule start interval) (positive : 0 < interval)
    (later : run.time ≤ time) (ahead : run.Ahead time) :
    ∃ polls next, (timerSystem start interval).run run (List.replicate polls time) = some next ∧
      next.time = time ∧ next.returned = some false ∧
      run.accounted start interval ≤ next.accounted start interval := by
  induction backlog : time - run.accounted start interval using Nat.strong_induction_on
    generalizing run with
  | _ left ih =>
      by_cases due : run.Due time
      · have interval_pos : 0 < run.timer.intervalTick := by rwa [schedule.intervalTick]
        have counted : (run.poll time).accounted start interval =
            run.accounted start interval + interval.toNat := by
          apply accounted_of_event
          rw [poll_of_ahead interval_pos due (ahead due)]
        have polled := schedule.poll positive later ahead
        have reached := polled.accounted_le
        rw [poll_time] at reached
        have shorter : time - (run.poll time).accounted start interval < left := by bv_omega
        rcases ih _ shorter polled le_rfl (ahead.poll interval_pos) rfl with
          ⟨polls, next, runs, ends⟩
        refine ⟨polls + 1, next, ?_, ends.1, ends.2.1, ?_⟩
        · rw [List.replicate_succ, Transition.System.run_cons, step_eq_poll later]
          exact runs
        · omega
      · refine ⟨1, run.poll time, ?_, rfl, ?_, ?_⟩
        · simp [step_eq_poll later]
        · rw [poll_of_not_due due]
        · rw [poll_of_not_due due]
          rfl

/-! ## Runs -/

theorem onSchedule_of_reachable (positive : 0 < interval)
    (reached : (timerSystem start interval).ReachableBy Ahead run) :
    run.OnSchedule start interval := by
  apply @Transition.System.ReachableBy.invariant _ _ _ _
    (fun reached => reached.OnSchedule start interval) ?_ ?_ _ reached
  · rintro state ⟨timer, rfl⟩
    exact .initialised timer positive
  · intro state label next schedule ahead enabled
    simp only [timerSystem, Option.ite_none_right_eq_some, Option.some.injEq] at enabled
    rcases enabled with ⟨later, rfl⟩
    exact schedule.poll positive later ahead

/-- While every poll that finds an event finds the tick counter above the last tick, the events are
those of the true time, and polling on comes to an end. -/
theorem counts_of_reachable (positive : 0 < interval)
    (reached : (timerSystem start interval).ReachableBy Ahead run) :
    run.Counts start interval ∧
      ∀ time, run.time ≤ time → run.Ahead time →
        time - run.accounted start interval < 2 ^ 32 →
          ∃ polls next,
            (timerSystem start interval).run run (List.replicate polls time) = some next ∧
              next.returned = some false ∧
              next.events = (time - start) / interval.toNat := by
  have schedule := onSchedule_of_reachable positive reached
  refine ⟨schedule.counts positive, ?_⟩
  intro time later ahead within
  rcases schedule.drains positive later ahead with ⟨polls, next, runs, now, empty, accounted_le⟩
  refine ⟨polls, next, runs, empty, ?_⟩
  have counts := (schedule.polling positive later ahead runs).counts positive
  have exact_count := counts.drained empty (by omega)
  rwa [now] at exact_count

/-- An event before the wrap of the tick counter, and a poll that finds no other behind it. -/
theorem counts_two_polls :
    (⟨⟨4294967291, 5⟩, 4294967293, some false, 1⟩ : TimerRun).Counts 4294967286 5 := by
  have start : (timerSystem 4294967286 5).ReachableBy Ahead
      (initialised RecvTickTimer.new 4294967286 5) := .initial ⟨_, rfl⟩
  have meets : (timerSystem 4294967286 5).RunMeets Ahead
      (initialised RecvTickTimer.new 4294967286 5) [4294967291, 4294967293] := by decide
  exact (counts_of_reachable (by decide) (start.run meets rfl)).1

/-- Thirteen ticks from ten before the wrap of the counter, three polls find an event of a timer of
five ticks each. -/
theorem not_counts_after_wrap :
    ∃ run, (timerSystem 4294967286 5).Reachable run ∧ run.events = 3 ∧
      ¬run.Counts 4294967286 5 := by
  refine ⟨⟨⟨4294967286, 5⟩, 4294967299, some true, 3⟩, ?_, rfl, ?_⟩
  · exact Transition.System.reachable_of_run ⟨RecvTickTimer.new, rfl⟩
      (rfl : (timerSystem 4294967286 5).run _ [4294967299, 4294967299, 4294967299] = _)
  · intro counts
    have atMost := counts.atMost
    simp at atMost

end TimerRun

end SunPush
