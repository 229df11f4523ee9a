import SunPush.Session.Refinement

/-!
# The order of a session's callbacks

`OnClose` is the last callback of a session that its owner gets from the reader
and the writer: it is called at most once, and neither `OnReadComplete` nor
`OnSend` is called after it.

Telling the owner and forgetting it is one step, so a session that has been told
is silenced: it has no owner left to call, and nothing pending will give it one.
-/

namespace SunPush

/-- The callbacks that must not follow the `OnClose` of a session. -/
def Event.EndedByClose (session : Nat) : Event → Prop
  | onReadComplete target _ => target = session
  | onSend target _ => target = session
  | onClose target => target = session
  | onAccept _ => False
  | onConnect _ _ => False

namespace Lifecycle

/-- A session that has been allocated and has no owner, and that nothing pending will open. -/
structure Silenced (life : Lifecycle) (session : Nat) : Prop where
  allocated : session ≤ life.currentConnexindex
  unowned : (life.poolSession session).owner = none
  opened : ∀ handler ∈ life.pending, handler.session = session → handler.opens = false

namespace Silenced

variable {life : Lifecycle} {session : Nat}

theorem setSession (silenced : life.Silenced session) {target : Nat} {fields : Session}
    (unowned : (life.poolSession target).owner = none → fields.owner = none) :
    (life.setSession target fields).Silenced session := by
  refine ⟨silenced.allocated, ?_, silenced.opened⟩
  by_cases same : session = target
  · subst same
    simp only [Lifecycle.setSession, Function.update_self]
    exact unowned silenced.unowned
  · simp only [Lifecycle.setSession, Function.update_of_ne same]
    exact silenced.unowned

theorem take (silenced : life.Silenced session) {pending : List Handler}
    (sublist : pending.Sublist life.pending) : (life.take pending).Silenced session where
  allocated := silenced.allocated
  unowned := silenced.unowned
  opened handler handler_mem := silenced.opened handler (sublist.subset handler_mem)

theorem note (silenced : life.Silenced session) (event : Event) :
    (life.note event).Silenced session where
  allocated := silenced.allocated
  unowned := silenced.unowned
  opened := silenced.opened

theorem cancel (silenced : life.Silenced session) (target : Nat) :
    (life.cancel target).Silenced session := by
  refine ⟨silenced.allocated, silenced.unowned, ?_⟩
  intro handler handler_mem same
  simp only [Lifecycle.cancel, List.mem_map] at handler_mem
  rcases handler_mem with ⟨earlier, earlier_mem, rfl⟩
  rw [Handler.session_cancel] at same
  rw [Handler.opens_cancel]
  exact silenced.opened earlier earlier_mem same

theorem queue (silenced : life.Silenced session) {handler : Handler}
    (opened : handler.session = session → handler.opens = false) :
    (life.queue handler).Silenced session := by
  refine ⟨silenced.allocated, silenced.unowned, ?_⟩
  intro other other_mem same
  simp only [Lifecycle.queue, List.mem_append, List.mem_singleton] at other_mem
  rcases other_mem with earlier_mem | rfl
  · exact silenced.opened other earlier_mem same
  · exact opened same

theorem destroy (silenced : life.Silenced session) (target : Nat) :
    (life.destroy target).Silenced session := by
  apply Silenced.cancel
  have used : (life.use target).Silenced session :=
    ⟨silenced.allocated, silenced.unowned, silenced.opened⟩
  apply used.setSession
  intro _
  rfl

theorem destroyAll (silenced : life.Silenced session) (targets : List Nat) :
    (life.destroyAll targets).Silenced session := by
  induction targets generalizing life with
  | nil => exact silenced
  | cons first rest ih => exact ih (silenced.destroy first)

theorem not_of_opens {handler : Handler} (silenced : life.Silenced session)
    (mem : handler ∈ life.pending) (opens : handler.opens = true) : handler.session ≠ session := by
  intro same
  have := silenced.opened handler mem same
  rw [opens] at this
  contradiction

theorem allocate (silenced : life.Silenced session) {fields : Session} {handler : Handler}
    (next : handler.session = life.currentConnexindex + 1) :
    ((life.allocate fields).queue handler).Silenced session := by
  have different : session ≠ life.currentConnexindex + 1 := by
    have := silenced.allocated
    omega
  have allocated : (life.allocate fields).Silenced session := by
    refine ⟨Nat.le_succ_of_le silenced.allocated, ?_, silenced.opened⟩
    simp only [Lifecycle.allocate, Function.update_of_ne different]
    exact silenced.unowned
  apply allocated.queue
  intro same
  exact absurd (same.symm.trans next) different

theorem openSession (silenced : life.Silenced session) {target : Nat} {fields : Session}
    (different : target ≠ session) : (life.openSession target fields).Silenced session := by
  refine ⟨silenced.allocated, ?_, silenced.opened⟩
  simp only [Lifecycle.openSession, Lifecycle.setSession, Function.update_of_ne different.symm]
  exact silenced.unowned

theorem exit (silenced : life.Silenced session) (target : Nat) (due : Int) :
    (life.exit target due).Silenced session := by
  refine ⟨by simpa using silenced.allocated, ?_, ?_⟩
  · rw [exit_poolSession]
    by_cases same : session = target
    · subst same
      have unowned := silenced.unowned
      rw [Function.update_self]
      rcases fields : life.poolSession session with
        ⟨alive, status, connIndex, _ | acceptor, _ | connector, readState⟩
      all_goals rw [fields] at unowned
      all_goals first | rfl | contradiction
    · rw [Function.update_of_ne same]
      exact silenced.unowned
  · intro handler handler_mem same
    rcases mem_exit_pending life target due handler_mem with
      earlier_mem | ⟨earlier, earlier_mem, rfl⟩ | rfl
    · exact silenced.opened handler earlier_mem same
    · rw [Handler.session_cancel] at same
      rw [Handler.opens_cancel]
      exact silenced.opened earlier earlier_mem same
    · rfl

theorem apiMove {permission : Permission} {next : Lifecycle} (silenced : life.Silenced session)
    (move : ApiMove permission life next) : next.Silenced session := by
  cases move with
  | noted event notes => exact silenced.note event
  | cancelled target => exact silenced.cancel target
  | queued handler queues mapped =>
      apply silenced.queue
      intro _
      exact Handler.opens_of_queues queues
  | exited target due notClosed opened numbered touched permitted => exact silenced.exit target due
  | listening acceptor => exact silenced.allocate rfl
  | connecting connector => exact silenced.allocate rfl

theorem move {permission : Permission} {next : Lifecycle} (silenced : life.Silenced session)
    (move : Move permission life next) : next.Silenced session := by
  cases move with
  | api move => exact silenced.apiMove move
  | stopped => exact ⟨silenced.allocated, silenced.unowned, silenced.opened⟩
  | skipped split flag => exact silenced.take (sublist_of_split split)
  | taken split kind =>
      have taken := silenced.take (sublist_of_split split)
      exact ⟨taken.allocated, taken.unowned, taken.opened⟩
  | accepted split permitted =>
      have different := silenced.not_of_opens (mem_of_split split) rfl
      apply Silenced.note
      exact (silenced.take (sublist_of_split split)).openSession different
  | connected split =>
      have different := silenced.not_of_opens (mem_of_split split) rfl
      exact (silenced.take (sublist_of_split split)).openSession different
  | refused split => exact (silenced.take (sublist_of_split split)).destroy _
  | @failed connector target before after split permitted =>
      have errored : ((life.take (before ++ after)).setSession target
          { life.poolSession target with socketStatus := .error }).Silenced session := by
        apply (silenced.take (sublist_of_split split)).setSession
        intro unowned
        exact unowned
      have destroyed := errored.destroy target
      exact ⟨destroyed.allocated, destroyed.unowned, destroyed.opened⟩
  | dropped due split => exact (silenced.take (sublist_of_split split)).exit _ due
  | reread target state quiet =>
      apply silenced.setSession
      intro unowned
      exact unowned
  | received target receive quiet window numbered touched =>
      apply silenced.queue
      intro _
      rfl
  | destroyed split permitted => exact (silenced.take (sublist_of_split split)).destroy _
  | removedAll permitted clients =>
      have destroyed := silenced.destroyAll (life.mapSession.entries.map Sigma.snd)
      exact ⟨destroyed.allocated, destroyed.unowned, destroyed.opened⟩
  | released clients => exact ⟨silenced.allocated, rfl, by simp⟩

end Silenced

theorem silenced_exit {life : Lifecycle} {session : Nat} (sound : life.Sound) (due : Int)
    (numbered : life.Numbered session)
    (opened : ∀ handler ∈ life.pending, handler.session = session → handler.opens = false) :
    (life.exit session due).Silenced session := by
  refine ⟨by simpa using numbered.1, ?_, ?_⟩
  · rw [exit_poolSession, Function.update_self]
    have owned := sound.owned session
    rcases fields : life.poolSession session with
      ⟨alive, status, connIndex, _ | acceptor, connector, readState⟩
    · rfl
    · rw [fields] at owned
      have unconnected : connector = none := (owned rfl).2.2
      subst unconnected
      rfl
  · intro handler handler_mem same
    rcases mem_exit_pending life session due handler_mem with
      earlier_mem | ⟨earlier, earlier_mem, rfl⟩ | rfl
    · exact opened handler earlier_mem same
    · rw [Handler.session_cancel] at same
      rw [Handler.opens_cancel]
      exact opened earlier earlier_mem same
    · rfl

/-- A move makes at most one callback, none that a silenced session must not get, and silences the
session it tells of its end. -/
def Extends (life next : Lifecycle) : Prop :=
  next.log = life.log ∨ ∃ event, next.log = life.log ++ [event] ∧
    (∀ session, life.Silenced session → ¬event.EndedByClose session) ∧
      ∀ session, event = .onClose session → next.Silenced session

theorem extends_exit {life : Lifecycle} {session : Nat} (sound : life.Sound) (due : Int)
    (numbered : life.Numbered session)
    (opened : ∀ handler ∈ life.pending, handler.session = session → handler.opens = false) :
    life.Extends (life.exit session due) := by
  cases owned : (life.poolSession session).owner with
  | none => exact .inl (by simp [tell, owned])
  | some owner =>
      refine .inr ⟨.onClose session, by simp [tell, owned], ?_, ?_⟩
      · rintro other silenced rfl
        have unowned := silenced.unowned
        rw [owned] at unowned
        contradiction
      · intro other same
        simp only [Event.onClose.injEq] at same
        subst same
        exact silenced_exit sound due numbered opened

theorem extends_noted {life : Lifecycle} {event : Event} (notes : life.Notes event) :
    life.Extends (life.note event) := by
  refine .inr ⟨event, rfl, ?_, ?_⟩
  · intro session silenced ended
    cases event with
    | onReadComplete target message =>
        simp only [Event.EndedByClose] at ended
        subst ended
        simp only [Notes, silenced.unowned] at notes
        contradiction
    | onSend target length =>
        simp only [Event.EndedByClose] at ended
        subst ended
        simp only [Notes, silenced.unowned] at notes
        contradiction
    | onClose target => exact notes
    | onAccept target => exact notes
    | onConnect target errorCode => exact ended
  · rintro session rfl
    exact absurd notes id

theorem Sound.extends {permission : Permission} {life next : Lifecycle} (sound : life.Sound)
    (move : Move permission life next) : life.Extends next := by
  cases move with
  | api move =>
      cases move with
      | noted event notes => exact extends_noted notes
      | exited session due notClosed opened numbered touched permitted =>
          exact extends_exit sound due numbered opened
      | _ => exact .inl rfl
  | @accepted acceptor session before after split permitted =>
      refine .inr ⟨.onAccept session, rfl, ?_, ?_⟩
      · intro other _ ended
        exact ended
      · intro other same
        contradiction
  | @dropped acceptor session before after due split =>
      -- a session that was never opened has no owner to tell
      have fits : (life.poolSession session).alive = true ∧
          (life.poolSession session).socketStatus = .idle ∧
            (life.poolSession session).acceptor = none ∧
              (life.poolSession session).connector = none := (sound.fits_of_split split).2
      have unowned : ((life.take (before ++ after)).poolSession session).owner = none := by
        simp only [Lifecycle.take, Session.owner, fits.2.2.1, fits.2.2.2]
      refine .inl ?_
      rw [exit_log]
      simp only [tell, unowned]
      rfl
  | removedAll permitted clients => exact .inl (destroyAll_log life _)
  | _ => exact .inl rfl

/-- The order of the callbacks so far, and what it says about the sessions that have been told of
their end. -/
structure Disciplined (life : Lifecycle) : Prop where
  ordered : life.log.Pairwise fun earlier later =>
    ∀ session, earlier = .onClose session → ¬later.EndedByClose session
  silenced : ∀ session, .onClose session ∈ life.log → life.Silenced session

theorem Disciplined.move {permission : Permission} {life next : Lifecycle}
    (disciplined : life.Disciplined) (sound : life.Sound) (move : Move permission life next) :
    next.Disciplined := by
  have stays : ∀ session, .onClose session ∈ life.log → next.Silenced session := by
    intro session told
    exact (disciplined.silenced session told).move move
  rcases sound.extends move with same | ⟨event, extended, allowed, silences⟩
  · refine ⟨same ▸ disciplined.ordered, ?_⟩
    intro session told
    exact stays session (same ▸ told)
  · constructor
    · rw [extended, List.pairwise_append]
      refine ⟨disciplined.ordered, List.pairwise_singleton _ _, ?_⟩
      rintro earlier earlier_mem later later_mem session rfl
      rw [List.mem_singleton] at later_mem
      subst later_mem
      exact allowed session (disciplined.silenced session earlier_mem)
    · intro session told
      rw [extended, List.mem_append, List.mem_singleton] at told
      rcases told with earlier | now
      · exact stays session earlier
      · exact silences session now.symm

end Lifecycle

namespace World

variable {U : Type} {callbacks : Callbacks U} {Upper : U → Prop}

/-- After the `OnClose` of a session its owner gets no further `OnClose`, no `OnReadComplete` and
no `OnSend` for it. -/
theorem onClose_last {world : World U} (reached : (service callbacks Upper).Reachable world)
    {session : Nat} {before after : List Event}
    (told : world.log = before ++ .onClose session :: after) :
    .onClose session ∉ before ∧ ∀ event ∈ after, ¬event.EndedByClose session := by
  have start : ∀ upper : U, (initial upper).toLifecycle.Disciplined := by
    intro upper
    exact ⟨List.Pairwise.nil, by simp [initial]⟩
  have preserved : ∀ before after, Lifecycle.Move .all before after → before.Sound →
      before.Disciplined → after.Disciplined := by
    intro before after move sound disciplined
    exact disciplined.move sound move
  have ordered := (invariant_of_moves start preserved reached).2.ordered
  rw [told, List.pairwise_append, List.pairwise_cons] at ordered
  rcases ordered with ⟨_, ⟨later, _⟩, earlier⟩
  constructor
  · intro earlier_mem
    exact earlier _ earlier_mem _ List.mem_cons_self session rfl rfl
  · intro event event_mem
    exact later event event_mem session rfl

theorem onClose_last_of_closeSocket :
    ∃ world : World Unit, (service .silent fun _ => True).Reachable world ∧
      world.log = [.onAccept 2] ++ .onClose 2 :: [.onAccept 3] ∧
        (Event.onClose 2 ∉ [Event.onAccept 2] ∧
          ∀ event ∈ [Event.onAccept 3], ¬event.EndedByClose 2) := by
  have runs : ∃ world, (service .silent fun _ => True).run (initial ())
      [.call (.startListen 0 true), .complete 0 (.success []), .call (.closeSocket 2),
        .call (.closeSocket 2), .complete 0 (.failure 995), .complete 0 (.success [])] =
          some world ∧ world.log = [.onAccept 2] ++ .onClose 2 :: [.onAccept 3] :=
    ⟨_, rfl, rfl⟩
  rcases runs with ⟨world, runs, told⟩
  have reached : (service .silent fun _ => True).Reachable world :=
    Transition.System.reachable_of_run ⟨(), trivial, rfl⟩ runs
  exact ⟨world, reached, told, onClose_last reached told⟩

end World

end SunPush
