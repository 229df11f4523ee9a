import SunPush.Session.Refinement

/-!
# The session map

`SessionManager`'s map leads from an identifier to a session exactly when the
session is alive, has that identifier and is connected.  That it leads to no
other session is part of `Lifecycle.Sound`; here is the converse, which needs
that no identifier has been given out twice: removing or replacing an entry
would otherwise take a second session of the same identifier out of the map.
-/

namespace SunPush

open CInteger

namespace Lifecycle

/-- The sessions are told apart by their identifiers: fewer than `2 ^ 32` have been allocated. -/
def Unwrapped (life : Lifecycle) : Prop :=
  life.currentConnexindex < 2 ^ 32

/-- Every live, connected session is in the map. -/
def Listed (life : Lifecycle) : Prop :=
  life.Unwrapped → ∀ connectID session, (life.poolSession session).alive = true →
    (life.poolSession session).socketStatus = .connected →
      (life.poolSession session).connIndex = connectID →
        life.mapSession.lookup connectID = some session

theorem Numbered.connIndex_ne {life : Lifecycle} {left right : Nat}
    (unwrapped : life.Unwrapped) (leftNumbered : life.Numbered left)
    (rightNumbered : life.Numbered right) (different : left ≠ right) :
    (life.poolSession left).connIndex ≠ (life.poolSession right).connIndex := by
  intro same
  rw [leftNumbered.2, rightNumbered.2] at same
  apply different
  exact toLong_injective_of_lt (Nat.lt_of_le_of_lt leftNumbered.1 unwrapped)
    (Nat.lt_of_le_of_lt rightNumbered.1 unwrapped) same

namespace Listed

variable {life : Lifecycle} {session : Nat}

theorem setSession (listed : life.Listed) {fields : Session}
    (kept : fields.alive = true → fields.socketStatus = .connected →
      (life.poolSession session).alive = true ∧
        (life.poolSession session).socketStatus = .connected ∧
          (life.poolSession session).connIndex = fields.connIndex) :
    (life.setSession session fields).Listed := by
  intro unwrapped connectID other
  by_cases same : other = session
  · subst same
    simp only [Lifecycle.setSession, Function.update_self]
    intro alive connected connIndex
    rcases kept alive connected with ⟨wasAlive, wasConnected, wasIndex⟩
    exact listed unwrapped connectID other wasAlive wasConnected (wasIndex.trans connIndex)
  · simp only [Lifecycle.setSession, Function.update_of_ne same]
    exact listed unwrapped connectID other

theorem destroy (listed : life.Listed) (session : Nat) : (life.destroy session).Listed := by
  have destroyed : (life.setSession session (life.poolSession session).destruct).Listed := by
    apply listed.setSession
    intro alive
    contradiction
  exact destroyed

theorem allocate (listed : life.Listed) {fields : Session}
    (unconnected : fields.socketStatus ≠ .connected) : (life.allocate fields).Listed := by
  intro unwrapped connectID other
  have earlier : life.Unwrapped := Nat.lt_of_succ_lt unwrapped
  by_cases same : other = life.currentConnexindex + 1
  · subst same
    simp only [Lifecycle.allocate, Function.update_self]
    intro _ connected
    exact absurd connected unconnected
  · simp only [Lifecycle.allocate, Function.update_of_ne same]
    exact listed earlier connectID other

theorem openSession (listed : life.Listed) (sound : life.Sound) {fields : Session}
    (numbered : life.Numbered session)
    (connIndex : fields.connIndex = (life.poolSession session).connIndex) :
    (life.openSession session fields).Listed := by
  intro unwrapped connectID other
  by_cases same : other = session
  · subst same
    simp only [Lifecycle.openSession, Lifecycle.setSession, Function.update_self]
    rintro _ _ rfl
    exact AList.lookup_insert life.mapSession
  · simp only [Lifecycle.openSession, Lifecycle.setSession, Function.update_of_ne same]
    rintro alive connected rfl
    have different : (life.poolSession other).connIndex ≠ fields.connIndex := by
      rw [connIndex]
      exact (sound.numbered other alive).connIndex_ne unwrapped numbered same
    rw [AList.lookup_insert_ne different]
    exact listed unwrapped _ other alive connected rfl

theorem exit (listed : life.Listed) (sound : life.Sound) (due : Int)
    (numbered : life.Numbered session) : (life.exit session due).Listed := by
  intro unwrapped connectID other
  have earlier : life.Unwrapped := by simpa [Unwrapped] using unwrapped
  rw [exit_poolSession]
  by_cases same : other = session
  · subst same
    rw [Function.update_self]
    intro _ connected
    contradiction
  · rw [Function.update_of_ne same]
    rintro alive connected rfl
    have different := (sound.numbered other alive).connIndex_ne earlier numbered same
    have found := listed earlier _ other alive connected rfl
    simp only [Lifecycle.exit, Lifecycle.leave, Lifecycle.setSession, tell]
    split
    · exact found
    · change (life.mapSession.erase _).lookup _ = _
      rw [AList.lookup_erase_ne different]
      exact found

theorem apiMove {permission : Permission} {next : Lifecycle} (listed : life.Listed)
    (sound : life.Sound) (move : ApiMove permission life next) : next.Listed := by
  cases move with
  | noted event notes => exact listed
  | cancelled session => exact listed
  | queued handler queues mapped => exact listed
  | exited session due notClosed opened numbered touched permitted =>
      exact listed.exit sound due numbered
  | listening acceptor =>
      apply listed.allocate
      simp [Session.construct]
  | connecting connector =>
      apply listed.allocate
      simp

theorem move {permission : Permission} {next : Lifecycle} (listed : life.Listed)
    (sound : life.Sound) (move : Move permission life next) : next.Listed := by
  cases move with
  | api move => exact listed.apiMove sound move
  | stopped => exact listed
  | skipped split flag => exact listed
  | taken split kind => exact listed
  | @accepted acceptor session before after split permitted =>
      have taken : (life.take (before ++ after)).Listed := listed
      have numbered := (sound.fits_of_split split).1
      exact taken.openSession (sound.take (sublist_of_split split)) numbered rfl
  | @connected connector session before after split =>
      have taken : (life.take (before ++ after)).Listed := listed
      have numbered := (sound.fits_of_split split).1
      exact taken.openSession (sound.take (sublist_of_split split)) numbered rfl
  | @refused acceptor session before after split =>
      have taken : (life.take (before ++ after)).Listed := listed
      exact taken.destroy session
  | @failed connector session before after split permitted =>
      have errored : ((life.take (before ++ after)).setSession session
          { life.poolSession session with socketStatus := .error }).Listed := by
        have taken : (life.take (before ++ after)).Listed := listed
        apply taken.setSession
        intro _ connected
        contradiction
      exact errored.destroy session
  | @dropped acceptor session before after due split =>
      have taken : (life.take (before ++ after)).Listed := listed
      exact taken.exit (sound.take (sublist_of_split split)) due (sound.fits_of_split split).1
  | reread session state quiet =>
      apply listed.setSession
      intro alive connected
      exact ⟨alive, connected, rfl⟩
  | received session receive quiet window numbered touched => exact listed
  | @destroyed session wait before after split permitted =>
      have taken : (life.take (before ++ after)).Listed := listed
      exact taken.destroy session
  | removedAll permitted clients =>
      intro unwrapped connectID session
      have earlier : life.Unwrapped := by simpa [Unwrapped] using unwrapped
      simp only [destroyAll_poolSession]
      -- a session that survives was not in the map, so it was not connected
      split
      · intro alive
        contradiction
      · next unlisted =>
          intro alive connected connIndex
          have found := listed earlier connectID session alive connected connIndex
          apply absurd _ unlisted
          rw [List.mem_map]
          exact ⟨_, AList.mem_lookup_iff.mp found, rfl⟩
  | released clients =>
      intro _ connectID session alive
      contradiction

end Listed

end Lifecycle

namespace World

variable {U : Type} {callbacks : Callbacks U} {Upper : U → Prop}

/-- As long as no identifier has been given out twice, the map leads from an identifier to a
session exactly when the session is alive, has that identifier and is connected. -/
theorem getSession_eq_some_iff {world : World U}
    (reached : (service callbacks Upper).Reachable world)
    (unwrapped : world.currentConnexindex < 2 ^ 32) (connectID : Int) (session : Nat) :
    world.getSession connectID = some session ↔
      (world.poolSession session).alive = true ∧
        (world.poolSession session).connIndex = connectID ∧
          (world.poolSession session).socketStatus = .connected := by
  have start : ∀ upper : U, (initial upper).toLifecycle.Listed := by
    intro upper _ connectID session alive
    contradiction
  have preserved : ∀ before after, Lifecycle.Move .all before after → before.Sound →
      before.Listed → after.Listed := by
    intro before after move sound listed
    exact listed.move sound move
  rcases invariant_of_moves start preserved reached with ⟨sound, listed⟩
  constructor
  · intro found
    rcases sound.mapped connectID session found with ⟨alive, connected, connIndex⟩
    exact ⟨alive, connIndex, connected⟩
  · rintro ⟨alive, connIndex, connected⟩
    exact listed unwrapped connectID session alive connected connIndex

theorem getSession_accepted :
    ∃ world : World Unit, (service .silent fun _ => True).Reachable world ∧
      world.getSession 2 = some 2 ∧ (world.poolSession 2).alive = true ∧
        (world.poolSession 2).connIndex = 2 ∧ (world.poolSession 2).socketStatus = .connected := by
  have runs : ∃ world, (service .silent fun _ => True).run (initial ())
      [.call (.startListen 0 true), .complete 0 (.success [])] = some world ∧
        world.currentConnexindex = 3 ∧ world.getSession 2 = some 2 :=
    ⟨_, rfl, rfl, by decide⟩
  rcases runs with ⟨world, runs, allocated, found⟩
  have reached : (service .silent fun _ => True).Reachable world :=
    Transition.System.reachable_of_run ⟨(), trivial, rfl⟩ runs
  have unwrapped : world.currentConnexindex < 2 ^ 32 := by
    rw [allocated]
    decide
  exact ⟨world, reached, found, (getSession_eq_some_iff reached unwrapped 2 2).mp found⟩

end World

end SunPush
