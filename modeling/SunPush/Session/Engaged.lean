import SunPush.Session.Refinement

/-!
# What the handlers are engaged for

The handler of a connection attempt finds the session of its connector, and the
handler of a delayed close a session that is open or closed already.  Every move
preserves it, those of `StopSocketService` included.
-/

namespace SunPush

namespace Handler

/-- What a pending handler finds in the fields of its session, besides what it needs. -/
def Engages (fields : Session) : Handler → Prop
  | handleConnect connector _ => fields.connector = some connector
  | handleExit _ _ => fields.socketStatus = .connected ∨ fields.socketStatus = .closed
  | _ => True

@[simp]
theorem engages_cancel (fields : Session) (target : Nat) (handler : Handler) :
    (handler.cancel target).Engages fields ↔ handler.Engages fields := by
  cases handler <;> rfl

theorem Engages.closed {fields : Session} {handler : Handler} (opens : handler.opens = false) :
    handler.Engages (Lifecycle.closed fields) := by
  cases handler with
  | handleConnect connector session => contradiction
  | handleExit session wait => exact .inr rfl
  | _ => trivial

theorem Engages.destruct {fields : Session} {handler : Handler} (engages : handler.Engages fields)
    (opens : handler.opens = false) : handler.Engages fields.destruct := by
  cases handler with
  | handleConnect connector session => contradiction
  | handleExit session wait => exact engages
  | _ => trivial

end Handler

namespace Lifecycle

/-- Every pending handler finds what it is engaged for. -/
def Engaged (life : Lifecycle) : Prop :=
  ∀ handler ∈ life.pending, handler.Engages (life.poolSession handler.session)

namespace Engaged

variable {life : Lifecycle} {session : Nat}

theorem take (engaged : life.Engaged) {pending : List Handler}
    (sublist : pending.Sublist life.pending) : (life.take pending).Engaged :=
  fun handler handler_mem => engaged handler (sublist.subset handler_mem)

theorem cancel (engaged : life.Engaged) (target : Nat) : (life.cancel target).Engaged := by
  intro handler handler_mem
  simp only [Lifecycle.cancel, List.mem_map] at handler_mem
  rcases handler_mem with ⟨earlier, earlier_mem, rfl⟩
  rw [Handler.session_cancel, Handler.engages_cancel]
  exact engaged earlier earlier_mem

theorem queue (engaged : life.Engaged) {handler : Handler}
    (engages : handler.Engages (life.poolSession handler.session)) :
    (life.queue handler).Engaged := by
  intro later later_mem
  simp only [Lifecycle.queue, List.mem_append, List.mem_singleton] at later_mem
  rcases later_mem with earlier_mem | rfl
  · exact engaged later earlier_mem
  · exact engages

theorem setSession (engaged : life.Engaged) {fields : Session}
    (engages : ∀ handler ∈ life.pending, handler.session = session → handler.Engages fields) :
    (life.setSession session fields).Engaged := by
  intro handler handler_mem
  by_cases same : handler.session = session
  · simp only [Lifecycle.setSession, same, Function.update_self]
    exact engages handler handler_mem same
  · simp only [Lifecycle.setSession, Function.update_of_ne same]
    exact engaged handler handler_mem

theorem allocate (engaged : life.Engaged) (sound : life.Sound) {fields : Session}
    {handler : Handler} (next : handler.session = life.currentConnexindex + 1)
    (engages : handler.Engages fields) : ((life.allocate fields).queue handler).Engaged := by
  have raised : Engaged { life with currentConnexindex := life.currentConnexindex + 1 } := engaged
  have allocated : (life.allocate fields).Engaged := by
    apply raised.setSession
    intro earlier earlier_mem same
    exact absurd same (sound.next_unused.1 earlier earlier_mem)
  apply allocated.queue
  rw [next]
  simp only [Lifecycle.allocate, Function.update_self]
  exact engages

theorem destroy (engaged : life.Engaged)
    (opened : ∀ handler ∈ life.pending, handler.session = session → handler.opens = false) :
    (life.destroy session).Engaged := by
  apply Engaged.cancel
  have used : (life.use session).Engaged := engaged
  apply used.setSession
  intro handler handler_mem same
  apply Handler.Engages.destruct
  · rw [← same]
    exact engaged handler handler_mem
  · exact opened handler handler_mem same

theorem destroyAll (engaged : life.Engaged) {sessions : List Nat}
    (opened : ∀ session ∈ sessions, ∀ handler ∈ life.pending,
      handler.session = session → handler.opens = false) :
    (life.destroyAll sessions).Engaged := by
  induction sessions generalizing life with
  | nil => exact engaged
  | cons first rest ih =>
      apply ih (engaged.destroy (opened first List.mem_cons_self))
      intro other other_mem handler handler_mem same
      simp only [Lifecycle.destroy, Lifecycle.cancel, List.mem_map] at handler_mem
      rcases handler_mem with ⟨earlier, earlier_mem, rfl⟩
      rw [Handler.session_cancel] at same
      rw [Handler.opens_cancel]
      exact opened other (List.mem_cons_of_mem _ other_mem) earlier earlier_mem same

theorem exit (engaged : life.Engaged) (due : Int)
    (opened : ∀ handler ∈ life.pending, handler.session = session → handler.opens = false) :
    (life.exit session due).Engaged := by
  have stays : ∀ handler ∈ life.pending,
      handler.Engages ((life.exit session due).poolSession handler.session) := by
    intro handler handler_mem
    rw [exit_poolSession]
    by_cases same : handler.session = session
    · rw [same, Function.update_self]
      exact .closed (opened handler handler_mem same)
    · rw [Function.update_of_ne same]
      exact engaged handler handler_mem
  intro handler handler_mem
  rcases mem_exit_pending life session due handler_mem with
    earlier_mem | ⟨earlier, earlier_mem, rfl⟩ | rfl
  · exact stays handler earlier_mem
  · rw [Handler.session_cancel, Handler.engages_cancel]
    exact stays earlier earlier_mem
  · trivial

theorem apiMove {permission : Permission} {next : Lifecycle} (engaged : life.Engaged)
    (sound : life.Sound) (move : ApiMove permission life next) : next.Engaged := by
  cases move with
  | noted event notes => exact engaged
  | cancelled target => exact engaged.cancel target
  | queued handler queues mapped =>
      rcases mapped with ⟨connectID, found⟩
      apply engaged.queue
      cases handler with
      | handleConnect connector session => contradiction
      | handleExit session wait => exact .inl (sound.mapped connectID session found).2.1
      | _ => trivial
  | exited target due notClosed opened numbered touched permitted => exact engaged.exit due opened
  | listening acceptor => exact engaged.allocate sound rfl trivial
  | connecting connector => exact engaged.allocate sound rfl rfl

theorem move {permission : Permission} {next : Lifecycle} (engaged : life.Engaged)
    (sound : life.Sound) (move : Move permission life next) : next.Engaged := by
  cases move with
  | api move => exact engaged.apiMove sound move
  | stopped => exact engaged
  | skipped split flag => exact engaged.take (sublist_of_split split)
  | taken split kind => exact engaged.take (sublist_of_split split)
  | accepted split permitted =>
      apply (engaged.take (sublist_of_split split)).setSession
      intro other other_mem same
      exact absurd same (sound.alone split rfl other other_mem)
  | connected split =>
      apply (engaged.take (sublist_of_split split)).setSession
      intro other other_mem same
      exact absurd same (sound.alone split rfl other other_mem)
  | refused split =>
      apply (engaged.take (sublist_of_split split)).destroy
      intro other other_mem same
      exact absurd same (sound.alone split rfl other other_mem)
  | failed split permitted =>
      have alone := sound.alone split rfl
      apply Engaged.destroy
      · apply (engaged.take (sublist_of_split split)).setSession
        intro other other_mem same
        exact absurd same (alone other other_mem)
      · intro other other_mem same
        exact absurd same (alone other other_mem)
  | dropped due split =>
      apply (engaged.take (sublist_of_split split)).exit due
      intro other other_mem same
      exact absurd same (sound.alone split rfl other other_mem)
  | reread target state quiet =>
      apply engaged.setSession
      rintro handler handler_mem rfl
      have engages := engaged handler handler_mem
      cases handler <;> exact engages
  | received target receive quiet window numbered touched => exact engaged.queue trivial
  | @destroyed target wait before after split permitted =>
      apply (engaged.take (sublist_of_split split)).destroy
      intro other other_mem same
      have compatible := sound.compatible
      rw [split, List.pairwise_middle Handler.Compatible.symm, List.pairwise_cons] at compatible
      exact (compatible.1 other other_mem same.symm).2.1
  | removedAll permitted clients =>
      apply engaged.destroyAll
      intro session session_mem
      rw [List.mem_map] at session_mem
      rcases session_mem with ⟨entry, entry_mem, rfl⟩
      exact sound.not_opens_of_mapped (AList.mem_lookup_iff.mpr entry_mem)
  | released clients => simp [Engaged]

end Engaged

end Lifecycle

namespace World

variable {U : Type} {callbacks : Callbacks U} {Upper : U → Prop}

theorem engaged_of_reachable {world : World U}
    (reached : (service callbacks Upper).Reachable world) :
    world.toLifecycle.Sound ∧ world.toLifecycle.Engaged := by
  apply invariant_of_moves _ _ reached
  · intro upper
    simp [Lifecycle.Engaged, initial]
  · intro before after move sound engaged
    exact engaged.move sound move

end World

end SunPush
