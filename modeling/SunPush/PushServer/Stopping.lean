import SunPush.PushServer.Tracking
import SunPush.Session.Shutdown

/-!
# Stopping the push server

The push server sends through `Send` only, which looks at the stop flag.  So
from the moment `StopSocketService` has set the flag the server is silent: no
message reaches a handler and none goes out, and what the sockets still report
is what was in flight.
-/

namespace SunPush

namespace Server

theorem refuses_sends (server : Server) (connectID : Int) (message : Memory) (length : UInt16) :
    (server.send connectID message length).Refuses :=
  refuses_send connectID _ length _

theorem refuses_kickUser (server : Server) (user : Nat) :
    ∀ call ∈ (server.kickUser user).2, call.Refuses := by
  intro call call_mem
  simp only [kickUser, List.mem_append, List.mem_singleton] at call_mem
  rcases call_mem with announced | rfl
  · split at announced
    · rw [List.mem_singleton.mp announced]
      exact refuses_sends _ _ _ _
    · exact absurd announced List.not_mem_nil
  · trivial

theorem refuses_parsePacketCS (server : Server) (user : Nat) (msg : Memory) (size : UInt16) :
    ∀ call ∈ (server.parsePacketCS user msg size).2, call.Refuses := by
  unfold parsePacketCS
  split
  · unfold handlerC2SUserAuthSyn
    split
    · exact refuses_kickUser server user
    · intro call call_mem
      rw [List.mem_singleton.mp call_mem]
      exact refuses_sends _ _ _ _
  · split
    · unfold handlerC2STestOrderSyn
      split
      · exact refuses_kickUser server user
      · intro call call_mem
        rw [List.mem_singleton.mp call_mem]
        exact refuses_sends _ _ _ _
    · exact fun call call_mem => absurd call_mem List.not_mem_nil

theorem refuses_parsePacketWS (server : Server) (connIndex : Int) (msg : Memory) :
    ∀ call ∈ (server.parsePacketWS connIndex msg).2, call.Refuses := by
  have none_refuses : ∀ call ∈ ([] : List ApiCall), call.Refuses :=
    fun call call_mem => absurd call_mem List.not_mem_nil
  unfold parsePacketWS
  split
  · intro call call_mem
    rw [List.mem_singleton.mp call_mem]
    exact refuses_sends _ _ _ _
  · split
    · exact none_refuses
    · split
      · intro call call_mem
        rw [List.mem_singleton.mp call_mem]
        exact refuses_sends _ _ _ _
      · exact none_refuses

theorem refuse_callbacks : callbacks.Refuse where
  onAccept := by
    intro acceptor connIndex memory server call call_mem
    simp only [callbacks, onAccept] at call_mem
    split at call_mem
    · rw [List.mem_singleton.mp call_mem]
      trivial
    · rw [List.mem_singleton.mp call_mem]
      exact refuses_sends _ _ _ _
  onConnect := fun _ _ _ _ call call_mem => absurd call_mem List.not_mem_nil
  onReadComplete := by
    intro owner connIndex msg length server call call_mem
    cases owner with
    | acceptor acceptor =>
        simp only [callbacks, onClientReadComplete] at call_mem
        split at call_mem
        · exact absurd call_mem List.not_mem_nil
        · split at call_mem
          · rw [List.mem_singleton.mp call_mem]
            trivial
          · exact refuses_parsePacketCS _ _ _ _ call call_mem
    | connector connector =>
        simp only [callbacks, onWebReadComplete] at call_mem
        split at call_mem
        · exact absurd call_mem List.not_mem_nil
        · exact refuses_parsePacketWS _ _ _ call call_mem
  onSend := fun _ _ _ _ call call_mem => absurd call_mem List.not_mem_nil

/-- From any state with the stop flag set on, no message is delivered and no call accepted for
sending, no step begins a connection attempt or reports that one has failed, and each step reports
only writes and attempts that are in flight there, and takes them out.  When the service has ended,
nothing is reported at all and the server's state stays as it is. -/
theorem silent_of_stopped {world final : World Server} (stopped : world.stopSocketFlag = true)
    {labels : List Label} (refuses : ∀ label ∈ labels, label.Refuses)
    (runs : service.run world labels = some final) :
    (∃ more, final.log = world.log ++ more ∧ (∀ event ∈ more, event.Quiet) ∧
      (more.filterMap Event.reportedWrite ++ final.pending.filterMap Handler.writeOf).Subperm
        (world.pending.filterMap Handler.writeOf) ∧
      (more.filterMap Event.reportedAttempt ++
          (final.pending.filterMap Handler.attemptOf).map Prod.snd).Subperm
        ((world.pending.filterMap Handler.attemptOf).map Prod.snd)) ∧
    (∀ early label late, labels = early ++ label :: late →
      ∃ middle next more, service.run world early = some middle ∧
        service.step middle label = some next ∧ next.log = middle.log ++ more ∧
        (more.filterMap Event.reportedWrite ++ next.pending.filterMap Handler.writeOf).Subperm
          (middle.pending.filterMap Handler.writeOf) ∧
        (more.filterMap Event.reportedAttempt ++
            (next.pending.filterMap Handler.attemptOf).map Prod.snd).Subperm
          ((middle.pending.filterMap Handler.attemptOf).map Prod.snd) ∧
        (next.pending.filterMap Handler.attemptOf).Subperm
          (middle.pending.filterMap Handler.attemptOf)) ∧
    final.statistics.totalMsgRecvCount = world.statistics.totalMsgRecvCount ∧
    final.statistics.totalMsgSendCount = world.statistics.totalMsgSendCount ∧
    ∀ early late, labels = early ++ .release :: late →
      ∃ middle, service.run world early = some middle ∧ final.Over ∧
        final.log = middle.log ∧ final.upper = middle.upper := by
  have muted := World.muted_run refuse_callbacks stopped refuses runs
  refine ⟨muted.subperm, ?_, muted.received, muted.accepted, ?_⟩
  · intro early label late split
    rcases World.muted_step_of_run refuse_callbacks stopped split refuses runs with
      ⟨middle, next, before, steps, muted⟩
    rcases muted.subperm with ⟨more, more_eq, -, writes, attempts⟩
    exact ⟨middle, next, more, before, steps, more_eq, writes, attempts,
      List.subperm_ext_iff.mpr fun attempt _ => muted.begun attempt⟩
  · intro early late split
    exact World.over_of_run split runs

/-- A client is accepted and the connector dials the web server.  While the greeting is being
written and the connection made, the server is stopped.  A message of the client comes in too late,
and another client is still accepted. -/
theorem silent_of_stopped_greeting :
    ∃ world final : World Server, world.pending.filterMap Handler.writeOf = [(2, 46)] ∧
      world.pending.filterMap Handler.attemptOf = [(0, 3)] ∧ world.log = [.onAccept 2] ∧
      final.log = [.onAccept 2, .onSend 2 46, .onConnect 3 0, .onAccept 4] ∧
      final.statistics.totalMsgRecvCount = world.statistics.totalMsgRecvCount ∧
      final.statistics.totalMsgSendCount = world.statistics.totalMsgSendCount ∧ final.Over := by
  let late : List Label :=
    [.complete 1 (.success []), .complete 0 (.success []), .complete 0 (.success [3, 0, 0, 0]),
      .complete 0 (.success []), .removeAll, .release]
  have runs : ∃ world, service.run (World.initial atStart)
      [.call (.startListen 0 true), .call (.asyncConnect 0 true), .complete 0 (.success []),
        .stop] = some world ∧
      world.stopSocketFlag = true ∧ world.pending.filterMap Handler.writeOf = [(2, 46)] ∧
      world.pending.filterMap Handler.attemptOf = [(0, 3)] ∧ world.log = [.onAccept 2] ∧
      ∃ final, service.run world late = some final ∧
        final.log = [.onAccept 2, .onSend 2 46, .onConnect 3 0, .onAccept 4] :=
    ⟨_, rfl, rfl, rfl, rfl, rfl, _, rfl, rfl⟩
  rcases runs with ⟨world, -, stopped, writes, attempts, log, final, runs, reported⟩
  have refuses : ∀ label ∈ late, label.Refuses := by
    simp [late, Label.Refuses]
  rcases silent_of_stopped stopped refuses runs with ⟨-, -, received, accepted, ends⟩
  rcases ends (late.take 5) [] rfl with ⟨_, _, ended, _⟩
  exact ⟨world, final, writes, attempts, log, reported, received, accepted, ended⟩

end Server

end SunPush
