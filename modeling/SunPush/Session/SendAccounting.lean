import SunPush.Session.Bookkeeping
import SunPush.Library.SharedCounters

/-!
# Send accounting

`Session::Send` and `Session::handle_write` at the grain at which the threads of
the service interleave.  A call tests the status of its session, posts a write
or takes a completed one, and then adds to the counters of `Socket`; every
addition reads the counter and stores the sum, `InterlockedExchange` or not.

The calls that are running are in no particular order, and any of them may go on
next.  A call that `OnSend` makes is one of them.  The counters do not wrap.

When each addition has been made, `s_nTotalDataSendWait` is what the pending
writes add up to, and the three counters together are what has been accepted,
unless a store was late or a write did not succeed on an open session.
-/

namespace SunPush

/-- The counters of `Socket` that count the bytes that are sent. -/
inductive SendCounter where
  | totalDataSendWait
  | totalDataSend
  | totalDataSendDiscard
  deriving DecidableEq, Repr

/-- A session and a length in bytes. -/
structure Write where
  session : Nat
  length : Int
  deriving DecidableEq, Repr

/-- The state of the sends on all sessions. -/
structure Traffic where
  /-- `m_emSocketStatus == SS_CLOSED || m_emSocketStatus == SS_ERROR`. -/
  closed : Nat → Bool
  /-- The calls of `Send` that have tested the status and not started their write yet. -/
  sending : List Write
  /-- The writes that Boost.Asio has still to complete. -/
  writes : List Write
  /-- The counters, and the calls that have still to add to them. -/
  counters : SharedCounters.State SendCounter

/-- A step of one of the threads. -/
inductive Traffic.Label where
  /-- `Send` is called and tests the status. -/
  | send (write : Write)
  /-- `Send` starts its write. -/
  | asyncWrite (index : Nat)
  /-- A write completes, and `handle_write` tests the status. -/
  | complete (index : Nat) (failed : Bool)
  /-- A call reads or stores one of the counters. -/
  | access (access : SharedCounters.Access)
  /-- The session is closed. -/
  | close (session : Nat)

namespace Traffic

open SharedCounters

/-- What `Send` adds after it has started its write. -/
def sent (length : Int) : Adder SendCounter :=
  ⟨.totalDataSendWait, length, [], none⟩

/-- What `handle_write` adds for an open session. -/
def written (failed : Bool) (length : Int) : Adder SendCounter :=
  if failed then ⟨.totalDataSendDiscard, length, [], none⟩
  else ⟨.totalDataSendWait, -length, [(.totalDataSend, length)], none⟩

def step (traffic : Traffic) : Label → Option Traffic
  | .send write =>
      if traffic.closed write.session then some traffic
      else some { traffic with sending := traffic.sending ++ [write] }
  | .asyncWrite index =>
      match traffic.sending[index]? with
      | none => none
      | some write =>
          some { traffic with
            sending := traffic.sending.eraseIdx index
            writes := traffic.writes ++ [write]
            counters := traffic.counters.start (sent write.length) }
  | .complete index failed =>
      match traffic.writes[index]? with
      | none => none
      | some write =>
          some { traffic with
            writes := traffic.writes.eraseIdx index
            counters :=
              if traffic.closed write.session then traffic.counters
              else traffic.counters.start (written failed write.length) }
  | .access access =>
      match traffic.counters.access access with
      | none => none
      | some counters => some { traffic with counters := counters }
  | .close session =>
      some { traffic with closed := Function.update traffic.closed session true }

/-- Nothing has been sent. -/
def initial : Traffic where
  closed _ := false
  sending := []
  writes := []
  counters := { values := fun _ => 0, tasks := [] }

/-- The length of a send that a step accepts. -/
def accepts (traffic : Traffic) : Label → Int
  | .send write => if traffic.closed write.session then 0 else write.length
  | _ => 0

/-- The threads that send and complete writes. -/
def threads : Transition.System Traffic Label where
  Initial traffic := traffic = initial
  step := step

/-- The threads, with the total length of all accepted sends. -/
def accounting : Transition.System (Traffic × Int) Label :=
  threads.withHistory 0 fun accepted traffic label => accepted + traffic.accepts label

/-- No call is running. -/
def Quiescent (traffic : Traffic) : Prop :=
  traffic.sending = [] ∧ traffic.counters.tasks = []

/-- The sum of the lengths. -/
def total (writes : List Write) : Int :=
  (writes.map Write.length).sum

/-- The counters agree with the pending writes and with what has been accepted. -/
def Conserved (traffic : Traffic) (accepted : Int) : Prop :=
  traffic.counters.values .totalDataSendWait = total traffic.writes ∧
    accepted = traffic.counters.values .totalDataSendWait +
      traffic.counters.values .totalDataSend + traffic.counters.values .totalDataSendDiscard

/-- The step stores only on top of the value that it has read, and completes no write of a closed
session and none with an error, unless the write is empty. -/
def Accounts (both : Traffic × Int) : Label → Prop
  | .access access => both.1.counters.Current access
  | .complete index failed =>
      ∀ write ∈ both.1.writes[index]?,
        write.length = 0 ∨ both.1.closed write.session = false ∧ failed = false
  | _ => True

instance (both : Traffic × Int) : DecidablePred (Accounts both)
  | .access access => inferInstanceAs (Decidable (both.1.counters.Current access))
  | .complete index failed =>
      inferInstanceAs (Decidable (∀ write ∈ both.1.writes[index]?,
        write.length = 0 ∨ both.1.closed write.session = false ∧ failed = false))
  | .send _ => isTrue trivial
  | .asyncWrite _ => isTrue trivial
  | .close _ => isTrue trivial

/-- The counters will agree once the running calls have added to them. -/
structure Balanced (traffic : Traffic) (accepted : Int) : Prop where
  wait : traffic.counters.settled .totalDataSendWait = total traffic.writes
  accepted : accepted = traffic.counters.settled .totalDataSendWait +
    traffic.counters.settled .totalDataSend + traffic.counters.settled .totalDataSendDiscard +
      total traffic.sending

/-! ## The steps -/

section Steps

variable {traffic next : Traffic} {accepted : Int}

theorem total_append (writes : List Write) (write : Write) :
    total (writes ++ [write]) = total writes + write.length := by
  simp [total]

theorem total_eraseIdx {writes : List Write} {index : Nat} {write : Write}
    (found : writes[index]? = some write) :
    total writes = write.length + total (writes.eraseIdx index) :=
  (sum_map_eraseIdx found Write.length).symm

theorem settled_sent (counters : State SendCounter) (length : Int) (counter : SendCounter) :
    (counters.start (sent length)).settled counter =
      counters.settled counter + if .totalDataSendWait = counter then length else 0 := by
  rw [State.settled_start, Adder.additions, sent, added_cons]
  exact congrArg _ (Int.add_zero _)

theorem settled_written (counters : State SendCounter) (failed : Bool) (length : Int)
    (counter : SendCounter) :
    (counters.start (written failed length)).settled counter = counters.settled counter +
      match counter with
      | .totalDataSendWait => if failed then 0 else -length
      | .totalDataSend => if failed then 0 else length
      | .totalDataSendDiscard => if failed then length else 0 := by
  rw [State.settled_start]
  cases failed <;> cases counter <;> simp [Adder.additions, written, added]

theorem balanced_send {write : Write} (balanced : traffic.Balanced accepted)
    (steps : traffic.step (.send write) = some next) :
    next.Balanced (accepted + traffic.accepts (.send write)) := by
  rcases balanced with ⟨wait, sum⟩
  cases closed : traffic.closed write.session with
  | true =>
      simp only [step, accepts, closed, if_true, Option.some.injEq] at steps ⊢
      subst steps
      exact ⟨wait, by omega⟩
  | false =>
      simp only [step, accepts, closed, Bool.false_eq_true, if_false, Option.some.injEq]
        at steps ⊢
      subst steps
      refine ⟨wait, ?_⟩
      simp only [total_append]
      omega

theorem balanced_asyncWrite {index : Nat} (balanced : traffic.Balanced accepted)
    (steps : traffic.step (.asyncWrite index) = some next) : next.Balanced accepted := by
  rcases balanced with ⟨wait, sum⟩
  cases found : traffic.sending[index]? with
  | none => simp [step, found] at steps
  | some write =>
      simp only [step, found, Option.some.injEq] at steps
      subst steps
      rw [total_eraseIdx found] at sum
      constructor
      · simp only [settled_sent, total_append, if_true]
        omega
      · simp only [settled_sent, reduceCtorEq, if_true, if_false]
        omega

/-- The completion of a write keeps the balance exactly if the write succeeds on an open session,
or is empty. -/
theorem balanced_complete {index : Nat} {failed : Bool} (balanced : traffic.Balanced accepted)
    (steps : traffic.step (.complete index failed) = some next) :
    next.Balanced accepted ↔ Accounts (traffic, accepted) (.complete index failed) := by
  rcases balanced with ⟨wait, sum⟩
  cases found : traffic.writes[index]? with
  | none => simp [step, found] at steps
  | some write =>
      have taken := total_eraseIdx found
      simp only [step, found, Option.some.injEq] at steps
      subst steps
      simp only [Accounts, found, Option.mem_def, Option.some.injEq, forall_eq']
      cases closed : traffic.closed write.session with
      | true =>
          simp only [if_true, Bool.true_eq_false, false_and, or_false]
          constructor
          · intro stays
            have stillWaiting := stays.wait
            simp only at stillWaiting
            omega
          · intro empty
            exact ⟨by simp only; omega, sum⟩
      | false =>
          simp only [Bool.false_eq_true, if_false, true_and]
          cases failed with
          | true =>
              simp only [Bool.true_eq_false, or_false]
              constructor
              · intro stays
                have settles := stays.wait
                simp only [settled_written, if_true] at settles
                omega
              · intro empty
                constructor
                · simp only [settled_written, if_true]
                  omega
                · simp only [settled_written, if_true]
                  omega
          | false =>
              refine iff_of_true ?_ (.inr rfl)
              constructor
              · simp only [settled_written, Bool.false_eq_true, if_false]
                omega
              · simp only [settled_written, Bool.false_eq_true, if_false]
                omega

/-- Of the counters that a store changes, the balance determines each. -/
theorem settled_of_balanced {index : Nat} (balanced : traffic.Balanced accepted)
    (stays : next.Balanced accepted) (sending : next.sending = traffic.sending)
    (writes : next.writes = traffic.writes)
    (stores : traffic.counters.access (.store index) = some next.counters)
    (counter : SendCounter) :
    next.counters.settled counter = traffic.counters.settled counter := by
  rcases balanced with ⟨wait, sum⟩
  rcases stays with ⟨nextWait, nextSum⟩
  rcases State.exists_of_store stores with ⟨task, value, found, hasRead⟩
  have changes := State.settled_store found hasRead stores
  have waits := changes .totalDataSendWait
  have sends := changes .totalDataSend
  have discards := changes .totalDataSendDiscard
  rw [writes] at nextWait
  rw [sending] at nextSum
  rcases same : task.counter with _ | _ | _
  all_goals
    simp only [same, reduceCtorEq, if_true, if_false] at waits sends discards
    cases counter <;> omega

theorem balanced_access {access : Access} (balanced : traffic.Balanced accepted)
    (steps : traffic.step (.access access) = some next) :
    next.Balanced accepted ↔ Accounts (traffic, accepted) (.access access) := by
  cases accesses : traffic.counters.access access with
  | none => simp [step, accesses] at steps
  | some counters =>
      simp only [step, accesses, Option.some.injEq] at steps
      subst steps
      have current := State.settled_eq_iff_current accesses
      rw [Accounts, ← current]
      constructor
      · intro stays
        cases access with
        | read index => exact State.settled_read accesses
        | store index => exact settled_of_balanced balanced stays rfl rfl accesses
      · intro kept
        rcases balanced with ⟨wait, sum⟩
        constructor
        · rw [kept]
          exact wait
        · rw [kept, kept, kept]
          exact sum

/-- A step keeps the balance exactly if it accounts for what it does. -/
theorem balanced_step {label : Label} (balanced : traffic.Balanced accepted)
    (steps : traffic.step label = some next) :
    next.Balanced (accepted + traffic.accepts label) ↔ Accounts (traffic, accepted) label := by
  have same : accepted + 0 = accepted := Int.add_zero accepted
  cases label with
  | send write => exact iff_of_true (balanced_send balanced steps) trivial
  | asyncWrite index =>
      rw [accepts, same]
      · exact iff_of_true (balanced_asyncWrite balanced steps) trivial
      · exact fun _ => Label.noConfusion
  | complete index failed =>
      rw [accepts, same]
      · exact balanced_complete balanced steps
      · exact fun _ => Label.noConfusion
  | access access =>
      rw [accepts, same]
      · exact balanced_access balanced steps
      · exact fun _ => Label.noConfusion
  | close session =>
      simp only [step, Option.some.injEq] at steps
      subst steps
      rw [accepts, same]
      · exact iff_of_true ⟨balanced.wait, balanced.accepted⟩ trivial
      · exact fun _ => Label.noConfusion

end Steps

/-! ## The runs -/

theorem balanced_of_accounts {both : Traffic × Int}
    (reached : accounting.ReachableBy Accounts both) : both.1.Balanced both.2 := by
  have known (traffic : Traffic) : threads.Reachable traffic → True := fun _ => trivial
  refine reached.history_invariant (fun _ _ _ => trivial) known ?_ ?_
  · rintro traffic rfl
    exact ⟨rfl, rfl⟩
  · intro traffic accepted label next _ balanced accounts steps
    exact (balanced_step balanced steps).mpr accounts

/-- If no store is late, and every write that is not empty succeeds on an open session, then the
counters agree whenever no call is running. -/
theorem conserved_of_accounts {both : Traffic × Int}
    (reached : accounting.ReachableBy Accounts both) (quiescent : both.1.Quiescent) :
    both.1.Conserved both.2 := by
  rcases balanced_of_accounts reached with ⟨wait, sum⟩
  rcases quiescent with ⟨noneSending, idle⟩
  rw [State.settled_of_idle idle] at wait
  rw [State.settled_of_idle idle, State.settled_of_idle idle, State.settled_of_idle idle,
    noneSending] at sum
  exact ⟨wait, sum.trans (Int.add_zero _)⟩

/-- A hundred bytes are sent on one session and twenty on another, and the first write succeeds. -/
theorem conserved_after_write :
    ∃ both : Traffic × Int, both.1.Conserved both.2 ∧ both.2 = 120 ∧
      both.1.counters.values .totalDataSendWait = 20 := by
  have starts : accounting.Initial (initial, 0) := ⟨rfl, rfl⟩
  have meets : accounting.RunMeets Accounts (initial, 0)
      [.send ⟨2, 100⟩, .send ⟨3, 20⟩, .asyncWrite 0, .asyncWrite 0, .access (.read 0),
        .access (.store 1), .access (.read 0), .access (.store 0), .complete 0 false,
        .access (.read 0), .access (.store 0), .access (.read 0), .access (.store 0)] := by
    decide
  have runs : ∃ both, accounting.run (initial, 0)
      [.send ⟨2, 100⟩, .send ⟨3, 20⟩, .asyncWrite 0, .asyncWrite 0, .access (.read 0),
        .access (.store 1), .access (.read 0), .access (.store 0), .complete 0 false,
        .access (.read 0), .access (.store 0), .access (.read 0), .access (.store 0)] =
          some both ∧ both.1.Quiescent ∧ both.2 = 120 ∧
            both.1.counters.values .totalDataSendWait = 20 :=
    ⟨_, rfl, ⟨rfl, rfl⟩, rfl, by decide⟩
  rcases runs with ⟨both, runs, quiescent, accepted, wait⟩
  have reached := Transition.System.ReachableBy.run (.initial starts) meets runs
  exact ⟨both, conserved_of_accounts reached quiescent, accepted, wait⟩

/-- Two calls of `Send` read `s_nTotalDataSendWait` before either stores its sum. -/
theorem not_conserved_after_lost_update :
    ∃ both, accounting.Reachable both ∧ both.1.Quiescent ∧ ¬both.1.Conserved both.2 := by
  have starts : accounting.Initial (initial, 0) := ⟨rfl, rfl⟩
  have runs : ∃ both, accounting.run (initial, 0)
      [.send ⟨2, 100⟩, .send ⟨3, 20⟩, .asyncWrite 0, .asyncWrite 0, .access (.read 0),
        .access (.read 0), .access (.store 0), .access (.store 0)] = some both ∧
          both.1.Quiescent ∧ both.1.counters.values .totalDataSendWait = 20 ∧
            total both.1.writes = 120 :=
    ⟨_, rfl, ⟨rfl, rfl⟩, by decide, by decide⟩
  rcases runs with ⟨both, runs, quiescent, wait, pending⟩
  refine ⟨both, Transition.System.reachable_of_run starts runs, quiescent, ?_⟩
  intro conserved
  have same := conserved.1
  rw [wait, pending] at same
  contradiction

end Traffic

/-! ## The service

A step of the service is a run of the threads in which no other call interferes. -/

namespace World

open SharedCounters Traffic

variable {U : Type} {callbacks : Callbacks U}

/-- The write that a handler completes. -/
def writeOf : Handler → Option Write
  | .handleWrite session length => some ⟨session, length⟩
  | _ => none

def sendCounters (statistics : Statistics) : SendCounter → Int
  | .totalDataSendWait => statistics.totalDataSendWait
  | .totalDataSend => statistics.totalDataSend
  | .totalDataSendDiscard => statistics.totalDataSendDiscard

/-- The sends of the service between two steps. -/
def traffic (world : World U) : Traffic where
  closed session := (world.poolSession session).isClosed
  sending := []
  writes := world.pending.filterMap writeOf
  counters := { values := sendCounters world.statistics, tasks := [] }

/-- A call adds to one counter, undisturbed. -/
def addsOnce : List Traffic.Label :=
  [.access (.read 0), .access (.store 0)]

theorem run_sendSession (session : Nat) (length : Int) (world : World U) :
    threads.run world.traffic
        (.send ⟨session, length⟩ ::
          if (world.poolSession session).isClosed then [] else .asyncWrite 0 :: addsOnce) =
      some (world.sendSession session length).traffic := by
  have unused : ((world.use session).poolSession session).isClosed =
      (world.poolSession session).isClosed := rfl
  simp only [sendSession, unused]
  cases closed : (world.poolSession session).isClosed with
  | true =>
      simp only [Transition.System.run_cons, threads, Traffic.step, traffic, closed, if_true]
      rfl
  | false =>
      have adds : Function.update (sendCounters world.statistics) .totalDataSendWait
          (world.statistics.totalDataSendWait + length) =
            sendCounters { world.statistics with
              totalMsgSendCount := world.statistics.totalMsgSendCount + 1
              totalDataSendWait := world.statistics.totalDataSendWait + length } := by
        funext counter
        cases counter <;> rfl
      have started : threads.run world.traffic
          (.send ⟨session, length⟩ :: .asyncWrite 0 :: addsOnce) =
            threads.run { world.traffic with
              writes := world.traffic.writes ++ [⟨session, length⟩]
              counters := world.traffic.counters.start (sent length) } addsOnce := by
        simp [threads, Traffic.step, traffic, closed]
      have posted : (world.pending ++ [Handler.handleWrite session length]).filterMap writeOf =
          world.pending.filterMap writeOf ++ [⟨session, length⟩] := List.filterMap_append
      simp only [Bool.false_eq_true, if_false]
      rw [started]
      simp only [traffic, post, count, use, State.start, posted, ← adds]
      rfl

/-- What `handle_write` adds for an open session, undisturbed. -/
def addsWritten (failed : Bool) : List Traffic.Label :=
  if failed then addsOnce else addsOnce ++ addsOnce

/-- What `handle_write` counts for an open session. -/
def countWritten (failed : Bool) (length : Int) (statistics : Statistics) : Statistics :=
  if failed then
    { statistics with totalDataSendDiscard := statistics.totalDataSendDiscard + length }
  else
    { statistics with
      totalDataSendWait := statistics.totalDataSendWait - length
      totalDataSend := statistics.totalDataSend + length }

theorem run_addsWritten (traffic : Traffic) (statistics : Statistics) (failed : Bool)
    (length : Int) :
    threads.run { traffic with
        counters := { values := sendCounters statistics, tasks := [written failed length] } }
        (addsWritten failed) =
      some { traffic with
        counters :=
          { values := sendCounters (countWritten failed length statistics), tasks := [] } } := by
  cases failed with
  | true =>
      have adds : Function.update (sendCounters statistics) .totalDataSendDiscard
          (statistics.totalDataSendDiscard + length) =
            sendCounters (countWritten true length statistics) := by
        funext counter
        cases counter <;> rfl
      rw [← adds]
      rfl
  | false =>
      have adds : Function.update (Function.update (sendCounters statistics) .totalDataSendWait
          (statistics.totalDataSendWait + -length)) .totalDataSend
            (statistics.totalDataSend + length) =
              sendCounters (countWritten false length statistics) := by
        funext counter
        cases counter <;> rfl
      rw [← adds]
      rfl

theorem traffic_count (change : Statistics → Statistics) (world : World U) :
    (world.count change).traffic =
      { world.traffic with
        counters := { values := sendCounters (change world.statistics), tasks := [] } } :=
  rfl

theorem onSend_of_silent {session : Nat} {length : Int} (world : World U)
    (silent : ∀ owner connIndex upper, (callbacks.onSend owner connIndex length upper).2 = []) :
    (world.onSend callbacks session length).traffic = world.traffic ∧
      (world.onSend callbacks session length).statistics = world.statistics := by
  simp only [onSend]
  split
  · exact ⟨rfl, rfl⟩
  · simp only [performAll, silent]
    exact ⟨rfl, rfl⟩

/-- The completion of a write, and the test that `handle_write` makes first. -/
theorem complete_traffic {world : World U} {before after : List Handler} {session : Nat}
    {length : Int} (split : world.pending = before ++ .handleWrite session length :: after)
    (failed : Bool) :
    threads.step world.traffic (.complete (before.filterMap writeOf).length failed) =
      some { (world.take (before ++ after)).traffic with
        counters :=
          if (world.poolSession session).isClosed then world.traffic.counters
          else world.traffic.counters.start (written failed length) } := by
  have writes : world.traffic.writes =
      before.filterMap writeOf ++ ⟨session, length⟩ :: after.filterMap writeOf := by
    rw [traffic, split, List.filterMap_append]
    rfl
  have found : world.traffic.writes[(before.filterMap writeOf).length]? =
      some ⟨session, length⟩ := by
    rw [writes, List.getElem?_append_right (Nat.le_refl _), Nat.sub_self]
    rfl
  have others : world.traffic.writes.eraseIdx (before.filterMap writeOf).length =
      (before ++ after).filterMap writeOf := by
    rw [writes, List.eraseIdx_append_of_length_le (Nat.le_refl _), Nat.sub_self]
    exact List.filterMap_append.symm
  simp only [threads, Traffic.step, found, others]
  rfl

theorem run_handleWrite {world : World U} {before after : List Handler} {session : Nat}
    {length : Int} {completion : Completion}
    (split : world.pending = before ++ .handleWrite session length :: after)
    (silent : ∀ owner connIndex upper, (callbacks.onSend owner connIndex length upper).2 = []) :
    threads.run world.traffic
        (.complete (before.filterMap writeOf).length (completion.error ≠ 0) ::
          if (world.poolSession session).isClosed then []
          else addsWritten (completion.error ≠ 0)) =
      some ((world.take (before ++ after)).handleWrite callbacks session length
        completion).traffic := by
  have completes := complete_traffic split (completion.error ≠ 0)
  have unused : (((world.take (before ++ after)).use session).poolSession session).isClosed =
      (world.poolSession session).isClosed := rfl
  have counts : (fun s : Statistics =>
      if completion.error = 0 then
        { s with
          totalDataSendWait := s.totalDataSendWait - length
          totalDataSend := s.totalDataSend + length }
      else { s with totalDataSendDiscard := s.totalDataSendDiscard + length }) =
        countWritten (completion.error ≠ 0) length := by
    funext statistics
    by_cases failed : completion.error = 0 <;> simp [countWritten, failed]
  simp only [Transition.System.run_cons, completes, handleWrite, unused, counts,
    Option.bind_some]
  cases closed : (world.poolSession session).isClosed with
  | true => rfl
  | false =>
      obtain ⟨sameTraffic, sameStatistics⟩ :=
        @onSend_of_silent U callbacks session length
          ((world.take (before ++ after)).use session) silent
      simp only [Bool.false_eq_true, if_false]
      rw [traffic_count, sameTraffic, sameStatistics]
      exact run_addsWritten (world.take (before ++ after)).traffic world.statistics _ length

end World

end SunPush
