import SunPush.Session.Refinement

/-!
# Receives that complete with an error

`handle_read_sp` never looks at its error code; it closes the session only when
it is told a byte count of zero.  `_receive_sp` binds the requested length as
that count, and every receive of an open session requests at least one byte.  So
a failed receive is treated as a filled one: the next receive is posted, and the
session stays open.
-/

namespace SunPush

open CInteger

namespace World

variable {U : Type} {callbacks : Callbacks U} {Upper : U → Prop}

/-- Between `world` and `next` the session has ended: no message was delivered, no receive is
outstanding, it is closed, and its owner has been told once. -/
structure EndsSession (session : Nat) (world next : World U) : Prop where
  undelivered : ∀ message, .onReadComplete session message ∉ next.log.drop world.log.length
  unarmed : ∀ handler ∈ next.pending, handler.session = session → handler.receives = false
  closed : (next.poolSession session).socketStatus = .closed
  told : next.log.count (.onClose session) = 1

theorem mem_pending_finishReadSp {world : World U} {session : Nat} {outcome : ReadOutcome}
    {next : Receive} (stays : outcome.exit = false) (posts : outcome.receive = some next) :
    .handleReadSp session next ∈ (world.finishReadSp callbacks session outcome).pending := by
  simp only [finishReadSp, stays, posts, Bool.false_eq_true, if_false]
  simp [receiveSp, post]

theorem mem_pending_handleReadSp {world : World U} {session : Nat} {receive : Receive}
    (completion : Completion) (running : world.stopSocketFlag = false)
    (notClosed : (world.poolSession session).isClosed = false)
    (window : ReadState.Window (world.poolSession session).readState receive) :
    ∃ next, .handleReadSp session next ∈
      (world.handleReadSp callbacks session receive completion).pending := by
  rcases ReadState.handleReadSp_window window
    (receive.msg.place receive.recvOffset completion.bytes) completion.wouldBlock with
    ⟨stays, next, posts, _⟩
  refine ⟨next, ?_⟩
  simp only [handleReadSp, count, running, use, notClosed, Bool.false_eq_true, if_false]
  exact mem_pending_finishReadSp stays posts

theorem handleReadSp_stopped {world : World U} (session : Nat) (receive : Receive)
    (completion : Completion) (stopped : world.stopSocketFlag = true) :
    (world.handleReadSp callbacks session receive completion).toLifecycle =
      world.toLifecycle := by
  simp only [handleReadSp, count, stopped, if_true]

/-- A completion of the outstanding receive of an open session, with whatever error, does not end
the session; and unless the service is being stopped, another receive is outstanding after it, so
that it may fail again. -/
theorem not_endsSession {world next : World U}
    (reached : (service callbacks Upper).Reachable world) {session index : Nat} {receive : Receive}
    {completion : Completion}
    (opened : (world.poolSession session).alive = true ∧
      (world.poolSession session).socketStatus = .connected)
    (outstanding : world.pending[index]? = some (.handleReadSp session receive))
    (_failed : completion.error ≠ 0)
    (steps : world.step callbacks (.complete index completion) = some next) :
    ¬EndsSession session world next ∧
      (world.stopSocketFlag = false →
        ∃ later, .handleReadSp session later ∈ next.pending) := by
  have sound := sound_of_reachable reached
  have window : ReadState.Window (world.poolSession session).readState receive :=
    (sound.fits _ (List.mem_of_getElem? outstanding)).2
  have notClosed : (world.poolSession session).isClosed = false := by
    simp [Session.isClosed, opened.2]
  simp only [step, outstanding, Option.ite_none_right_eq_some, Option.some.injEq] at steps
  rcases steps with ⟨_, rfl⟩
  simp only [handle]
  rcases Bool.eq_false_or_eq_true world.stopSocketFlag with stopped | running
  · refine ⟨?_, fun running => absurd (stopped.symm.trans running) (by decide)⟩
    intro ends
    have closed := ends.closed
    have skipped := @handleReadSp_stopped U callbacks
      { world with pending := world.pending.eraseIdx index } session receive completion stopped
    rw [skipped] at closed
    exact absurd (opened.2.symm.trans closed) (by decide)
  · have rearmed : ∃ later, .handleReadSp session later ∈
        ({ world with pending := world.pending.eraseIdx index }.handleReadSp callbacks session
          receive completion).pending :=
      mem_pending_handleReadSp completion running notClosed window
    refine ⟨?_, fun _ => rearmed⟩
    rcases rearmed with ⟨later, later_mem⟩
    intro ends
    exact absurd (ends.unarmed _ later_mem rfl) (by simp [Handler.receives])

theorem not_endsSession_after_reset :
    ∃ world next : World Unit, (service .silent fun _ => True).Reachable world ∧
      world.step .silent (.complete 0 (.failure 10054)) = some next ∧
      ¬EndsSession 2 world next ∧ ∃ later, .handleReadSp 2 later ∈ next.pending := by
  have runs : ∃ world next, (service .silent fun _ => True).run (initial ())
        [.call (.startListen 0 true), .complete 0 (.success [])] = some world ∧
      world.stopSocketFlag = false ∧ (world.poolSession 2).alive = true ∧
      (world.poolSession 2).socketStatus = .connected ∧
      world.pending[0]? = some (.handleReadSp 2 receiveHeader) ∧
      world.step .silent (.complete 0 (.failure 10054)) = some next :=
    ⟨_, _, rfl, rfl, rfl, rfl, rfl, rfl⟩
  rcases runs with ⟨world, next, runs, running, alive, connected, outstanding, steps⟩
  have reached : (service .silent fun _ => True).Reachable world :=
    Transition.System.reachable_of_run ⟨(), trivial, rfl⟩ runs
  have open_on := not_endsSession reached ⟨alive, connected⟩ outstanding (by decide) steps
  exact ⟨world, next, reached, steps, open_on.1, open_on.2 running⟩

/-- The client of a fresh session closes its end: the header receive completes with end-of-file
twice in a row, and nothing is closed. -/
theorem reads_on_after_endOfFile :
    ∃ world next later : World Unit, (service .silent fun _ => True).Reachable world ∧
      (world.poolSession 2).alive = true ∧ (world.poolSession 2).socketStatus = .connected ∧
      world.pending[0]? = some (.handleReadSp 2 receiveHeader) ∧
      world.step .silent (.complete 0 (.failure 2)) = some next ∧
      ¬EndsSession 2 world next ∧
      next.pending[1]? = some (.handleReadSp 2 receiveHeader) ∧
      next.step .silent (.complete 1 (.failure 2)) = some later ∧
      (later.poolSession 2).socketStatus = .connected := by
  have runs : ∃ world next later, (service .silent fun _ => True).run (initial ())
        [.call (.startListen 0 true), .complete 0 (.success [])] = some world ∧
      (world.poolSession 2).alive = true ∧ (world.poolSession 2).socketStatus = .connected ∧
      world.pending[0]? = some (.handleReadSp 2 receiveHeader) ∧
      world.step .silent (.complete 0 (.failure 2)) = some next ∧
      (next.poolSession 2).socketStatus = .connected ∧
      next.pending[1]? = some (.handleReadSp 2 receiveHeader) ∧
      next.step .silent (.complete 1 (.failure 2)) = some later ∧
      (later.poolSession 2).socketStatus = .connected :=
    ⟨_, _, _, rfl, rfl, rfl, rfl, rfl, rfl, rfl, rfl, rfl⟩
  rcases runs with ⟨world, next, later, runs, alive, connected, outstanding, fails, stays, rest⟩
  have reached : (service .silent fun _ => True).Reachable world :=
    Transition.System.reachable_of_run ⟨(), trivial, rfl⟩ runs
  refine ⟨world, next, later, reached, alive, connected, outstanding, fails, ?_, rest⟩
  intro ends
  exact absurd (stays.symm.trans ends.closed) (by decide)

end World

end SunPush
