import SunPush.Session.Refinement

/-!
# Sessions in use are alive

The completion handlers hold raw session pointers.  A session is destroyed when
its accept or its connection attempt fails, when its destroy timer ends, and by
`RemoveAllSession`.  As long as each destruction waits for the handlers that will
still use the session, no handler uses a destroyed session.

The code does not always wait: `handle_connect` itself uses the session that it
has destroyed, and neither the destroy timer nor `RemoveAllSession` looks for
other handlers.
-/

namespace SunPush

namespace Lifecycle

/-- The map leads to distinct sessions: each is found by its own identifier only. -/
theorem Sound.nodup_mapped {life : Lifecycle} (sound : life.Sound) :
    (life.mapSession.entries.map Sigma.snd).Nodup := by
  apply List.Nodup.map_on
  · rintro ⟨left, session⟩ left_mem ⟨right, other⟩ right_mem same
    simp only at same
    subst same
    have leftIndex := (sound.mapped left session (AList.mem_lookup_iff.mpr left_mem)).2.2
    have rightIndex := (sound.mapped right session (AList.mem_lookup_iff.mpr right_mem)).2.2
    rw [← leftIndex, ← rightIndex]
  · exact List.NodupKeys.nodup life.mapSession.nodupKeys

/-- The session of the handler is alive, or the handler will not use it. -/
def Serves (life : Lifecycle) (handler : Handler) : Prop :=
  (life.poolSession handler.session).alive = true ∨
    life.stopSocketFlag = true ∧ handler.receives = true

/-- No destroyed session has been used, and no pending handler will use one. -/
structure Tended (life : Lifecycle) : Prop where
  unused : life.usedAfterDestroy = false
  served : ∀ handler ∈ life.pending, life.Serves handler

namespace Tended

variable {life : Lifecycle} {session : Nat}

theorem take (tended : life.Tended) {pending : List Handler}
    (sublist : pending.Sublist life.pending) : (life.take pending).Tended where
  unused := tended.unused
  served handler handler_mem := tended.served handler (sublist.subset handler_mem)

theorem note (tended : life.Tended) (event : Event) : (life.note event).Tended where
  unused := tended.unused
  served := tended.served

theorem use (tended : life.Tended) (alive : (life.poolSession session).alive = true) :
    (life.use session).Tended := by
  have same : life.use session = life := Touched.use_eq fun _ => alive
  rwa [same]

theorem cancel (tended : life.Tended) (target : Nat) : (life.cancel target).Tended := by
  refine ⟨tended.unused, ?_⟩
  intro handler handler_mem
  simp only [Lifecycle.cancel, List.mem_map] at handler_mem
  rcases handler_mem with ⟨earlier, earlier_mem, rfl⟩
  simp only [Serves, Handler.session_cancel, Handler.receives_cancel]
  exact tended.served earlier earlier_mem

theorem queue (tended : life.Tended) {handler : Handler}
    (alive : (life.poolSession handler.session).alive = true) : (life.queue handler).Tended := by
  refine ⟨tended.unused, ?_⟩
  intro other other_mem
  simp only [Lifecycle.queue, List.mem_append, List.mem_singleton] at other_mem
  rcases other_mem with earlier_mem | rfl
  · exact tended.served other earlier_mem
  · exact .inl alive

theorem setSession (tended : life.Tended) {fields : Session}
    (kept : (life.poolSession session).alive = true →
      fields.alive = true ∨ life.Idle life.pending session) :
    (life.setSession session fields).Tended := by
  refine ⟨tended.unused, ?_⟩
  intro handler handler_mem
  rcases tended.served handler handler_mem with alive | idle
  · by_cases same : handler.session = session
    · rcases kept (same ▸ alive) with stays | idle
      · left
        simp only [Lifecycle.setSession, same, Function.update_self]
        exact stays
      · exact .inr (idle handler handler_mem same)
    · left
      simp only [Lifecycle.setSession, Function.update_of_ne same]
      exact alive
  · exact .inr idle

theorem openSession (tended : life.Tended) {fields : Session} (alive : fields.alive = true) :
    (life.openSession session fields).Tended := by
  have changed : (life.setSession session fields).Tended := tended.setSession fun _ => .inl alive
  exact ⟨changed.unused, changed.served⟩

theorem destroy (tended : life.Tended) (alive : (life.poolSession session).alive = true)
    (idle : life.Idle life.pending session) : (life.destroy session).Tended := by
  apply Tended.cancel
  apply (tended.use alive).setSession
  intro _
  exact .inr idle

theorem destroyAll (tended : life.Tended) {sessions : List Nat} (distinct : sessions.Nodup)
    (alive : ∀ session ∈ sessions, (life.poolSession session).alive = true)
    (idle : ∀ session ∈ sessions, life.Idle life.pending session) :
    (life.destroyAll sessions).Tended := by
  induction sessions generalizing life with
  | nil => exact tended
  | cons first rest ih =>
      rw [List.nodup_cons] at distinct
      have destroyed := tended.destroy (alive first List.mem_cons_self)
        (idle first List.mem_cons_self)
      apply ih destroyed distinct.2
      · intro other other_mem
        have different : other ≠ first := by
          rintro rfl
          exact distinct.1 other_mem
        simp only [Lifecycle.destroy, Lifecycle.cancel, Lifecycle.setSession, Lifecycle.use,
          Function.update_of_ne different]
        exact alive other (List.mem_cons_of_mem first other_mem)
      · intro other other_mem handler handler_mem same
        simp only [Lifecycle.destroy, Lifecycle.cancel, Lifecycle.setSession, Lifecycle.use,
          List.mem_map] at handler_mem
        rcases handler_mem with ⟨earlier, earlier_mem, rfl⟩
        rw [Handler.session_cancel] at same
        rw [Handler.receives_cancel]
        exact idle other (List.mem_cons_of_mem first other_mem) earlier earlier_mem same

theorem allocate (tended : life.Tended) (sound : life.Sound) {fields : Session}
    {handler : Handler} (next : handler.session = life.currentConnexindex + 1)
    (alive : fields.alive = true) : ((life.allocate fields).queue handler).Tended := by
  have allocated : (life.allocate fields).Tended := by
    refine ⟨tended.unused, ?_⟩
    intro other other_mem
    have different := sound.next_unused.1 other other_mem
    simp only [Serves, Lifecycle.allocate, Function.update_of_ne different]
    exact tended.served other other_mem
  apply allocated.queue
  simp only [Lifecycle.allocate, next, Function.update_self]
  exact alive

theorem exit (tended : life.Tended) (due : Int)
    (alive : (life.poolSession session).alive = true) : (life.exit session due).Tended := by
  have closes : ∀ handler, life.Serves handler → (life.exit session due).Serves handler := by
    intro handler serves
    rcases serves with handlerAlive | idle
    · left
      rw [exit_poolSession]
      by_cases same : handler.session = session
      · rw [same, Function.update_self]
        exact alive
      · rw [Function.update_of_ne same]
        exact handlerAlive
    · right
      rw [exit_stopSocketFlag]
      exact idle
  refine ⟨by rw [exit_usedAfterDestroy]; exact tended.unused, ?_⟩
  intro handler handler_mem
  rcases mem_exit_pending life session due handler_mem with
    earlier_mem | ⟨earlier, earlier_mem, rfl⟩ | rfl
  · exact closes handler (tended.served handler earlier_mem)
  · have served := closes earlier (tended.served earlier earlier_mem)
    simp only [Serves, Handler.session_cancel, Handler.receives_cancel]
    exact served
  · exact closes _ (.inl alive)

end Tended

/-- The permission of runs in which each destruction waits for the handlers that will still use the
session. -/
def carefulPermission : Permission where
  openClient := True
  closeClient := True
  useRefused := False
  destroyEarly := False
  removeEarly := False

namespace Tended

variable {life next : Lifecycle}

theorem apiMove {permission : Permission} (tended : life.Tended) (sound : life.Sound)
    (move : ApiMove permission life next) : next.Tended := by
  cases move with
  | noted event notes => exact tended.note event
  | cancelled session => exact tended.cancel session
  | queued handler queues mapped =>
      rcases mapped with ⟨connectID, found⟩
      exact tended.queue (sound.mapped connectID handler.session found).1
  | exited session due notClosed opened numbered touched permitted =>
      exact tended.exit due (touched tended.unused)
  | listening acceptor => exact tended.allocate sound rfl rfl
  | connecting connector => exact tended.allocate sound rfl rfl

theorem move (tended : life.Tended) (sound : life.Sound)
    (move : Move carefulPermission life next) : next.Tended := by
  cases move with
  | api move => exact tended.apiMove sound move
  | stopped =>
      refine ⟨tended.unused, ?_⟩
      intro handler handler_mem
      rcases tended.served handler handler_mem with alive | idle
      · exact .inl alive
      · exact .inr ⟨rfl, idle.2⟩
  | skipped split flag => exact tended.take (sublist_of_split split)
  | @taken handler before after split kind =>
      have alive : (life.poolSession handler.session).alive = true := by
        rcases tended.served handler (mem_of_split split) with alive | ⟨flag, receives⟩
        · exact alive
        · rcases kind with queues | ⟨_, running⟩
          · rw [Handler.receives_of_queues queues] at receives
            contradiction
          · rw [running] at flag
            contradiction
      exact (tended.take (sublist_of_split split)).use alive
  | accepted split permitted =>
      apply Tended.note
      exact (tended.take (sublist_of_split split)).openSession (sound.fits_of_split split).2.1
  | connected split =>
      exact (tended.take (sublist_of_split split)).openSession (sound.fits_of_split split).2.1
  | @refused acceptor session before after split =>
      have alive := (sound.fits_of_split split).2.1
      apply (tended.take (sublist_of_split split)).destroy alive
      intro handler handler_mem same
      exact absurd same (sound.alone split rfl handler handler_mem)
  | failed split permitted => exact absurd permitted id
  | @dropped acceptor session before after due split =>
      have alive := (sound.fits_of_split split).2.1
      exact (tended.take (sublist_of_split split)).exit due alive
  | reread session state quiet =>
      apply tended.setSession
      intro alive
      exact .inl alive
  | received session receive quiet window numbered touched =>
      exact tended.queue (touched tended.unused)
  | @destroyed session wait before after split permitted =>
      have alive : (life.poolSession session).alive = true := by
        rcases tended.served _ (mem_of_split split) with alive | ⟨_, receives⟩
        · exact alive
        · contradiction
      apply (tended.take (sublist_of_split split)).destroy alive
      exact permitted.resolve_left id
  | removedAll permitted clients =>
      have idle := permitted.resolve_left id
      have destroyed : (life.destroyAll (life.mapSession.entries.map Sigma.snd)).Tended := by
        apply tended.destroyAll sound.nodup_mapped
        · intro session session_mem
          rw [List.mem_map] at session_mem
          rcases session_mem with ⟨entry, entry_mem, rfl⟩
          exact (sound.mapped entry.1 entry.2 (AList.mem_lookup_iff.mpr entry_mem)).1
        · intro session session_mem
          rw [List.mem_map] at session_mem
          rcases session_mem with ⟨entry, entry_mem, rfl⟩
          exact idle entry entry_mem
      exact ⟨destroyed.unused, destroyed.served⟩
  | released clients => exact ⟨tended.unused, by simp⟩

end Tended

end Lifecycle

namespace World

variable {U : Type} {callbacks : Callbacks U} {Upper : U → Prop}

/-- The step does not destroy a session that will still be used: no connection attempt fails
outside `StopSocketService`, and the destroy timers and `RemoveAllSession` find no other handler
that will use their sessions. -/
def Careful (world : World U) : Label → Prop
  | .complete index completion =>
      ∀ handler, world.pending[index]? = some handler →
        match handler with
        | .handleConnect _ _ => completion.error = 0 ∨ world.stopSocketFlag = true
        | .handleDestory session _ =>
            world.toLifecycle.Idle (world.pending.eraseIdx index) session
        | _ => True
  | .removeAll =>
      ∀ entry ∈ world.mapSession.entries, world.toLifecycle.Idle world.pending entry.2
  | _ => True

theorem Careful.permitsStep {world : World U} {label : Label} (careful : world.Careful label) :
    world.PermitsStep callbacks Lifecycle.carefulPermission label := by
  have calls : ∀ calls, Lifecycle.carefulPermission.Calls calls := fun _ _ _ _ => trivial
  cases label with
  | complete index completion =>
      intro handler at_index
      have handlerCareful := careful handler at_index
      cases handler with
      | handleAccept acceptor session => exact fun _ _ => ⟨trivial, calls _⟩
      | handleConnect connector session =>
          refine ⟨?_, calls _⟩
          intro failed running
          rcases handlerCareful with succeeded | stopped
          · exact absurd succeeded failed
          · exact absurd (stopped.symm.trans running) (by decide)
      | handleReadSp session receive => exact fun _ _ _ _ => calls _
      | handleWrite session length => exact fun _ _ => calls _
      | handleExit session wait => exact fun _ => trivial
      | handleDestory session wait => exact .inr handlerCareful
  | call call => exact fun _ => trivial
  | removeAll => exact ⟨.inr careful, .inl trivial⟩
  | release => exact .inl trivial
  | tick seconds => trivial
  | stop => trivial

/-- In a run whose steps are all careful, no handler or callback wrapper uses a session after its
destruction. -/
theorem unused_of_careful {world : World U}
    (reached : (service callbacks Upper).ReachableBy Careful world) :
    world.usedAfterDestroy = false := by
  have refines := service_refines callbacks Upper Lifecycle.carefulPermission
  have permitted := reached.mono fun state label careful =>
    @Careful.permitsStep U callbacks state label careful
  have start : ∀ state, (service callbacks Upper).Initial state → state.toLifecycle.Tended := by
    rintro state ⟨upper, _, rfl⟩
    exact ⟨rfl, by simp [initial]⟩
  have preserved : ∀ before after, Lifecycle.Move Lifecycle.carefulPermission before after →
      before.Sound → before.Tended → after.Tended := by
    intro before after move sound tended
    exact tended.move sound move
  exact (refines.invariant start preserved permitted).unused

theorem unused_after_closeSocket :
    ∃ world : World Unit, (service .silent fun _ => True).ReachableBy Careful world ∧
      (world.poolSession 2).alive = false ∧ world.usedAfterDestroy = false := by
  let labels : List Label :=
    [.call (.startListen 0 true), .complete 0 (.success []), .call (.closeSocket 2),
      .complete 0 (.failure 995), .tick 10, .complete 1 (.success [])]
  have runs : ∃ world, (service .silent fun _ => True).run (initial ()) labels = some world ∧
      (world.poolSession 2).alive = false :=
    ⟨_, rfl, rfl⟩
  have meets : (service .silent fun _ => True).RunMeets Careful (initial ()) labels := by
    refine ⟨trivial, ?_⟩
    rintro listening ⟨⟩
    refine ⟨?_, ?_⟩
    · rintro handler ⟨⟩
      trivial
    rintro accepted ⟨⟩
    refine ⟨trivial, ?_⟩
    rintro closed ⟨⟩
    refine ⟨?_, ?_⟩
    · rintro handler ⟨⟩
      trivial
    rintro drained ⟨⟩
    refine ⟨trivial, ?_⟩
    rintro waited ⟨⟩
    refine ⟨?_, fun _ _ => trivial⟩
    rintro handler ⟨⟩
    -- only the accept of the next client is pending
    intro other other_mem same
    change other ∈ [Handler.handleAccept 0 3] at other_mem
    rw [List.mem_singleton] at other_mem
    subst other_mem
    contradiction
  rcases runs with ⟨world, runs, destroyed⟩
  have start : (service .silent fun _ => True).Initial (initial ()) := ⟨(), trivial, rfl⟩
  have reached := Transition.System.ReachableBy.run (.initial start) meets runs
  exact ⟨world, reached, destroyed, unused_of_careful reached⟩

/-- A connection attempt fails: its session is destroyed, and then its identifier is read. -/
theorem used_after_failed_connect :
    ∃ world : World Unit, (service .silent fun _ => True).Reachable world ∧
      world.usedAfterDestroy = true := by
  have runs : ∃ world, (service .silent fun _ => True).run (initial ())
      [.call (.asyncConnect 0 true), .complete 0 (.failure 10061)] = some world ∧
        world.usedAfterDestroy = true :=
    ⟨_, rfl, rfl⟩
  rcases runs with ⟨world, runs, used⟩
  exact ⟨world, Transition.System.reachable_of_run ⟨(), trivial, rfl⟩ runs, used⟩

end World

end SunPush
