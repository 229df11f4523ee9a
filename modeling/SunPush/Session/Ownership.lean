import SunPush.Session.Registry
import SunPush.Session.Streams

/-!
# The owner of a session

A session gets its owner when its opening completes, and keeps it while it is
open: the acceptor that accepted it hears every message of its connection.
-/

namespace SunPush

open CInteger Lifecycle

namespace Lifecycle

/-- What does not run back: sessions are allocated, and the stop flag is set once for all. -/
structure Later (life next : Lifecycle) : Prop where
  allocated : life.currentConnexindex ≤ next.currentConnexindex
  stopped : life.stopSocketFlag = true → next.stopSocketFlag = true

theorem Later.refl (life : Lifecycle) : Later life life :=
  ⟨Nat.le_refl _, id⟩

theorem Later.trans {first second third : Lifecycle} (early : Later first second)
    (late : Later second third) : Later first third :=
  ⟨early.allocated.trans late.allocated, fun stopped => late.stopped (early.stopped stopped)⟩

theorem Later.unwrapped {life next : Lifecycle} (later : Later life next)
    (unwrapped : next.Unwrapped) : life.Unwrapped :=
  Nat.lt_of_le_of_lt later.allocated unwrapped

theorem Later.running {life next : Lifecycle} (later : Later life next)
    (running : next.stopSocketFlag = false) : life.stopSocketFlag = false := by
  cases stopped : life.stopSocketFlag with
  | false => rfl
  | true => exact absurd ((later.stopped stopped).symm.trans running) Bool.noConfusion

theorem later_exit (life : Lifecycle) (session : Nat) (due : Int) :
    Later life (life.exit session due) where
  allocated := Nat.le_of_eq (exit_currentConnexindex life session due).symm
  stopped stopped := (exit_stopSocketFlag life session due).trans stopped

theorem later_destroyAll (life : Lifecycle) (sessions : List Nat) :
    Later life (life.destroyAll sessions) := by
  induction sessions generalizing life with
  | nil => exact .refl life
  | cons session sessions ih =>
      have destroyed : Later life (life.destroy session) := ⟨Nat.le_refl _, id⟩
      exact destroyed.trans (ih _)

theorem ApiMove.later {permission : Permission} {life next : Lifecycle}
    (move : ApiMove permission life next) : Later life next := by
  cases move with
  | exited session due => exact later_exit life session due
  | listening acceptor => exact ⟨Nat.le_succ _, id⟩
  | connecting connector => exact ⟨Nat.le_succ _, id⟩
  | _ => exact ⟨Nat.le_refl _, id⟩

theorem Move.later {permission : Permission} {life next : Lifecycle}
    (move : Move permission life next) : Later life next := by
  cases move with
  | api move => exact move.later
  | stopped => exact ⟨Nat.le_refl _, fun _ => rfl⟩
  | @dropped acceptor session before after due split =>
      have exits := later_exit (life.take (before ++ after)) session due
      exact ⟨exits.allocated, exits.stopped⟩
  | removedAll permitted clients =>
      have destroyed := later_destroyAll life (life.mapSession.entries.map Sigma.snd)
      exact ⟨destroyed.allocated, destroyed.stopped⟩
  | _ => exact ⟨Nat.le_refl _, id⟩

end Lifecycle

namespace World

variable {U : Type} {callbacks : Callbacks U} {session : Nat}

theorem later_step {world next : World U} {label : Label} (sound : world.toLifecycle.Sound)
    (steps : world.step callbacks label = some next) :
    Later world.toLifecycle next.toLifecycle := by
  have permitted : world.PermitsStep callbacks .all label := permitsStep_all world label
  have moves := step_moves sound permitted steps
  exact Transition.preserved_of_moves (fun _ _ move later => later.trans move.later) moves
    (.refl world.toLifecycle)

theorem listed_of_reachable {Upper : U → Prop} {world : World U}
    (reached : (service callbacks Upper).Reachable world) : world.toLifecycle.Listed := by
  refine (invariant_of_moves ?_ ?_ reached).2
  · intro upper _ connectID session alive
    contradiction
  · intro before after move sound listed
    exact listed.move sound move

/-! ## What a session keeps -/

/-- The session was not opened anew, and if it is still open it has the same owner. -/
structure Retains (session : Nat) (before after : World U) : Prop where
  opening : after.Opening session → before.Opening session
  owner : after.IsOpen session → before.Opening session ∨ before.IsOpen session ∧
    (after.poolSession session).owner = (before.poolSession session).owner

/-- What happened posts no first receive for the session and reports nothing for it. -/
structure Passes (session : Nat) (before after : World U) : Prop extends
    Retains session before after where
  outstanding : before.outstanding session = [] → after.outstanding session = []
  messages : after.messages session = before.messages session

theorem Unheard.passes {before after : World U} (unheard : Unheard session before after) :
    Passes session before after where
  opening := unheard.opening
  owner opened := by
    rcases unheard.opened opened with opening | ⟨before_opened, owner, _⟩
    · exact .inl opening
    · exact .inr ⟨before_opened, owner⟩
  outstanding none_before := unheard.outstanding.trans none_before
  messages := unheard.messages

namespace Retains

variable {before middle after : World U}

theorem trans (first : Retains session before middle) (second : Retains session middle after) :
    Retains session before after where
  opening opening := first.opening (second.opening opening)
  owner := by
    intro opened
    rcases second.owner opened with opening | ⟨middle_opened, owner⟩
    · exact .inl (first.opening opening)
    · rcases first.owner middle_opened with opening | ⟨before_opened, first_owner⟩
      · exact .inl opening
      · exact .inr ⟨before_opened, owner.trans first_owner⟩

/-- Other fields of the session change. -/
theorem of_fields (current : after.currentConnexindex = before.currentConnexindex)
    (alive : (after.poolSession session).alive = (before.poolSession session).alive)
    (status : (after.poolSession session).isClosed = (before.poolSession session).isClosed)
    (owner : (after.poolSession session).owner = (before.poolSession session).owner)
    (pending : after.pending = before.pending) : Retains session before after where
  opening := by
    rw [Opening, Opening, current, pending]
    exact id
  owner := by
    rw [IsOpen, alive, status]
    exact fun opened => .inr ⟨opened, owner⟩

/-- A session that was not being opened has the owner it had. -/
theorem owned {owner : Option Owner} (retains : Retains session before after)
    (unopened : ¬before.Opening session)
    (owned : before.IsOpen session → (before.poolSession session).owner = owner) :
    ¬after.Opening session ∧
      (after.IsOpen session → (after.poolSession session).owner = owner) := by
  refine ⟨fun opening => unopened (retains.opening opening), ?_⟩
  intro opened
  rcases retains.owner opened with opening | ⟨before_opened, same⟩
  · exact absurd opening unopened
  · exact same.trans (owned before_opened)

end Retains

theorem retains_readState (target : Nat) (state : ReadState) (world : World U) :
    Retains session world (world.modify target fun s => { s with readState := state }) := by
  by_cases same : session = target
  · subst same
    refine .of_fields rfl ?_ ?_ ?_ rfl
    · simp [modify]
    · simp [modify, Session.isClosed]
    · simp [modify, Session.owner]
  · exact (unheard_modify_other same _ world).passes.toRetains

theorem retains_receiveSp (target : Nat) (receive : Receive) (world : World U) :
    Retains session world (world.receiveSp target receive) where
  opening opening := opening_post (fun opens => Bool.noConfusion opens) opening
  owner opened := .inr ⟨opened, rfl⟩

theorem retains_take {world : World U} {handler : Handler} {before after : List Handler}
    (split : world.pending = before ++ handler :: after) :
    Retains session world { world with pending := before ++ after } where
  opening := by
    rintro (unallocated | ⟨other, other_mem, same, opens⟩)
    · exact .inl unallocated
    · exact .inr ⟨other, (sublist_of_split split).subset other_mem, same, opens⟩
  owner opened := .inr ⟨opened, rfl⟩

theorem retains_start (target : Nat) (world : World U) :
    Retains session world (world.start target) :=
  ((unheard_use target world).passes.toRetains.trans (retains_readState target _ _)).trans
    (retains_receiveSp target receiveHeader _)

theorem retains_callback (event : Event) (result : U × List ApiCall) (world : World U) :
    Retains session world ((world.record event).performAll callbacks result) := by
  have noted : Retains session world (world.record event) := .of_fields rfl rfl rfl rfl rfl
  exact noted.trans (unheard_performAll result _).passes.toRetains

theorem retains_deliver (target : Nat) (message : Option (NetMsg × Int)) (world : World U) :
    Retains session world (world.deliver callbacks target message) := by
  rcases message with _ | ⟨msg, length⟩
  · exact (Unheard.refl world).passes.toRetains
  · have used := (unheard_count (fun s =>
      { s with totalMsgRecvCount := s.totalMsgRecvCount + 1 }) world).trans
        (@unheard_use U session target _)
    simp only [deliver, onReadComplete]
    split
    · exact used.passes.toRetains
    · exact used.passes.toRetains.trans (retains_callback _ _ _)

theorem retains_handleReadSp (target : Nat) (receive : Receive) (completion : Completion)
    (world : World U) :
    Retains session world (world.handleReadSp callbacks target receive completion) := by
  have finishes (outcome : ReadOutcome) (current : World U) :
      Retains session current (current.finishReadSp callbacks target outcome) := by
    have delivered := (@retains_readState U session target outcome.state current).trans
      (@retains_deliver U callbacks session target outcome.deliver _)
    rcases outcome with ⟨state, deliver, _ | posted, _ | _⟩
    · exact delivered
    · exact delivered.trans (unheard_handleExit target _).passes.toRetains
    · exact delivered.trans (retains_receiveSp target posted _)
    · exact (delivered.trans (retains_receiveSp target posted _)).trans
        (unheard_handleExit target _).passes.toRetains
  have counted : Unheard session world (world.count fun s =>
      { s with totalDataRecv := s.totalDataRecv + receive.recvLength }) := unheard_count _ world
  have used := counted.trans (unheard_use target _)
  simp only [handleReadSp]
  split
  · exact counted.passes.toRetains
  · split
    · exact used.passes.toRetains
    · exact used.passes.toRetains.trans (finishes _ _)

/-! ## The opening of a session -/

section Opened

variable {world : World U} {before after : List Handler} {completion : Completion}

/-- A session whose opening completes is not being opened any more. -/
theorem unopened_of_taken {handler : Handler} (sound : world.toLifecycle.Sound)
    (split : world.pending = before ++ handler :: after) (opens : handler.opens = true) :
    ¬({ world with pending := before ++ after } : World U).Opening handler.session := by
  rintro (unallocated | ⟨other, other_mem, same, _⟩)
  · have numbered := (sound.fits_of_split split).1.1
    exact absurd unallocated (Nat.not_lt.mpr numbered)
  · exact sound.alone split opens other other_mem same

/-- A client that could be accepted is not being opened any more, and belongs to its acceptor. -/
theorem owned_handleAccept {acceptor : Nat} (sound : world.toLifecycle.Sound)
    (split : world.pending = before ++ .handleAccept acceptor session :: after)
    (succeeded : completion.error = 0) (read : completion.remoteError = false) :
    ¬(({ world with pending := before ++ after } : World U).handleAccept callbacks acceptor session
        completion).Opening session ∧
      ((({ world with pending := before ++ after } : World U).handleAccept callbacks acceptor
          session completion).IsOpen session →
        ((({ world with pending := before ++ after } : World U).handleAccept callbacks acceptor
          session completion).poolSession session).owner = some (.acceptor acceptor)) := by
  let opened := ((({ world with pending := before ++ after } : World U).count fun s =>
    { s with totalConneced := s.totalConneced + 1 }).openSession session fun s =>
      { s with socketStatus := .connected, acceptor := some acceptor })
  have unopened : ¬opened.Opening session := unopened_of_taken sound split rfl
  have owner : (opened.poolSession session).owner = some (.acceptor acceptor) := by
    simp [opened, openSession, updateSession, use, modify, Session.owner]
  have told := (@unheard_onAccept U callbacks session acceptor session completion.upperMemory
    opened).passes.toRetains
  have serves := (told.trans (retains_start session _)).trans
    (unheard_acceptNext acceptor completion.memory _).passes.toRetains
  simp only [handleAccept, succeeded, read, ne_eq, not_true_eq_false, if_false, acceptClient,
    Bool.false_eq_true]
  exact serves.owned unopened fun _ => owner

/-- A client that could not be accepted hears nothing. -/
theorem unheard_handleAccept_refused {acceptor : Nat}
    (refused : completion.error ≠ 0 ∨ completion.remoteError = true) (world : World U) :
    Unheard session world (world.handleAccept callbacks acceptor session completion) := by
  simp only [handleAccept]
  split
  · exact unheard_destroySession session world
  · next succeeded =>
      have remote : completion.remoteError = true := refused.resolve_left succeeded
      have exits := (unheard_count (fun s =>
        { s with totalConneced := s.totalConneced + 1 }) world).trans
          (@unheard_handleExit U callbacks session session _)
      rw [if_pos remote]
      exact exits.trans (unheard_acceptNext acceptor completion.memory _)

/-- A session whose connection attempt completes is not being opened any more. -/
theorem unopened_handleConnect {connector : Nat} (sound : world.toLifecycle.Sound)
    (split : world.pending = before ++ .handleConnect connector session :: after) :
    ¬(({ world with pending := before ++ after } : World U).handleConnect callbacks connector
      session completion).Opening session := by
  have unopened : ¬({ world with pending := before ++ after } : World U).Opening session :=
    unopened_of_taken sound split rfl
  by_cases failed : completion.error = 0
  · have started := (@retains_start U session session
      (({ world with pending := before ++ after } : World U).openSession session fun s =>
        { s with socketStatus := .connected })).trans
          (@unheard_onConnect U callbacks session connector session 0 _).passes.toRetains
    simp only [handleConnect, failed, ne_eq, not_true_eq_false, if_false]
    exact fun opening => unopened (started.opening opening)
  · have unheard := @unheard_handleConnect_failed U callbacks session connector session completion
      failed { world with pending := before ++ after }
    exact fun opening => unopened (unheard.opening opening)

end Opened

/-! ## The steps that pass a session -/

section Passing

variable {world next : World U} {before after : List Handler} {completion : Completion}

/-- A handler of another session, or one that neither opens its session nor receives for it. -/
theorem unheard_handle {handler : Handler}
    (other : session ≠ handler.session ∨ handler.opens = false ∧ handler.receives = false)
    (world : World U) : Unheard session world (handle callbacks completion world handler) := by
  cases handler with
  | handleAccept acceptor target =>
      have different := other.resolve_right fun both => Bool.noConfusion both.1
      exact unheard_handleAccept_other different acceptor completion world
  | handleConnect connector target =>
      have different := other.resolve_right fun both => Bool.noConfusion both.1
      exact unheard_handleConnect_other different connector completion world
  | handleReadSp target receive =>
      have different := other.resolve_right fun both => Bool.noConfusion both.2
      exact unheard_handleReadSp_other different receive completion world
  | handleWrite target length => exact unheard_handleWrite target length completion world
  | handleExit target wait => exact unheard_handleExit target world
  | handleDestory target wait => exact unheard_handleDestory target world

theorem passes_release (world : World U) : Passes session world world.release where
  opening := by
    rintro (unallocated | ⟨handler, handler_mem, _⟩)
    · exact .inl unallocated
    · exact absurd handler_mem List.not_mem_nil
  owner opened := Bool.noConfusion opened.1
  outstanding _ := rfl
  messages := rfl

/-- A step that completes no operation passes every session. -/
theorem passes_step {label : Label} (incomplete : ∀ index completion,
      label ≠ .complete index completion) (steps : world.step callbacks label = some next) :
    Passes session world next := by
  cases label with
  | complete index completion => exact absurd rfl (incomplete index completion)
  | call request =>
      rcases Option.some.inj steps with rfl
      exact (unheard_perform request world).passes
  | tick seconds =>
      rcases Option.some.inj steps with rfl
      exact @Unheard.passes U session world _ (.of_same rfl rfl rfl rfl)
  | stop =>
      rcases Option.some.inj steps with rfl
      exact @Unheard.passes U session world _ (.of_same rfl rfl rfl rfl)
  | removeAll =>
      rcases Option.some.inj steps with rfl
      exact (unheard_removeAllSession world).passes
  | release =>
      simp only [step, Option.ite_none_right_eq_some, Option.some.injEq] at steps
      rcases steps with ⟨_, rfl⟩
      exact passes_release world

end Passing

end World

end SunPush
