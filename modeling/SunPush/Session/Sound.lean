import SunPush.Session.Moves

/-!
# The sound states

What holds of the sessions, the map and the pending handlers together, whatever
happens: every handler fits the fields of its session, a session that is being
opened has no other handler, at most one receive of a session is outstanding,
and the map leads to open sessions only.  Every move preserves it.
-/

namespace SunPush

open CInteger

namespace Handler

/-- What a pending handler needs of the fields of its session. -/
def Fits (fields : Session) : Handler → Prop
  | handleAccept _ _ =>
      fields.alive = true ∧ fields.socketStatus = .idle ∧ fields.acceptor = none ∧
        fields.connector = none
  | handleConnect _ _ =>
      fields.alive = true ∧ fields.socketStatus = .connecting ∧ fields.acceptor = none
  | handleReadSp _ receive => ReadState.Window fields.readState receive
  | handleWrite _ _ => True
  | handleExit _ _ => True
  | handleDestory _ _ => fields.socketStatus = .closed

/-- What two pending handlers of one session must not both be. -/
def Compatible (left right : Handler) : Prop :=
  left.session = right.session →
    left.opens = false ∧ right.opens = false ∧
      ¬(left.receives = true ∧ right.receives = true)

theorem Compatible.symm {left right : Handler} (compatible : Compatible left right) :
    Compatible right left := by
  intro same
  rcases compatible same.symm with ⟨leftOpens, rightOpens, receives⟩
  exact ⟨rightOpens, leftOpens, fun both => receives both.symm⟩

@[simp]
theorem fits_cancel (fields : Session) (target : Nat) (handler : Handler) :
    (handler.cancel target).Fits fields ↔ handler.Fits fields := by
  cases handler <;> rfl

@[simp]
theorem compatible_cancel (target : Nat) (left right : Handler) :
    Compatible (left.cancel target) (right.cancel target) ↔ Compatible left right := by
  simp [Compatible]

theorem fits_of_queues {fields : Session} {handler : Handler} (queues : handler.queues = true) :
    handler.Fits fields := by
  cases handler <;> trivial

theorem opens_of_queues {handler : Handler} (queues : handler.queues = true) :
    handler.opens = false := by
  cases handler <;> first | rfl | contradiction

theorem receives_of_queues {handler : Handler} (queues : handler.queues = true) :
    handler.receives = false := by
  cases handler <;> first | rfl | contradiction

theorem Fits.of_opens {fields : Session} {handler : Handler} (fits : handler.Fits fields)
    (opens : handler.opens = true) :
    fields.alive = true ∧ fields.isClosed = false ∧ fields.socketStatus ≠ .connected ∧
      fields.acceptor = none := by
  cases handler with
  | handleAccept acceptor session =>
      rcases fits with ⟨alive, idle, acceptor_none, _⟩
      simp [Session.isClosed, idle, alive, acceptor_none]
  | handleConnect connector session =>
      rcases fits with ⟨alive, connecting, acceptor_none⟩
      simp [Session.isClosed, connecting, alive, acceptor_none]
  | handleReadSp session receive => contradiction
  | handleWrite session length => contradiction
  | handleExit session wait => contradiction
  | handleDestory session wait => contradiction

theorem Fits.closed {fields : Session} {handler : Handler} (fits : handler.Fits fields)
    (opens : handler.opens = false) : handler.Fits (Lifecycle.closed fields) := by
  cases handler with
  | handleAccept acceptor session => contradiction
  | handleConnect connector session => contradiction
  | handleReadSp session receive => exact fits
  | handleWrite session length => trivial
  | handleExit session wait => trivial
  | handleDestory session wait => rfl

end Handler

/-- A session with an acceptor is open, and has no connector. -/
def Session.Owned (fields : Session) : Prop :=
  fields.acceptor.isSome = true →
    fields.alive = true ∧ fields.socketStatus = .connected ∧ fields.connector = none

namespace Lifecycle

/-- The invariant of the service. -/
structure Sound (life : Lifecycle) : Prop where
  /-- A pending handler belongs to an allocated session and fits its fields. -/
  fits : ∀ handler ∈ life.pending, life.Numbered handler.session ∧
    handler.Fits (life.poolSession handler.session)
  compatible : life.pending.Pairwise Handler.Compatible
  /-- The map leads to live, connected sessions by their identifiers. -/
  mapped : ∀ connectID session, life.mapSession.lookup connectID = some session →
    (life.poolSession session).alive = true ∧
      (life.poolSession session).socketStatus = .connected ∧
        (life.poolSession session).connIndex = connectID
  numbered : ∀ session, (life.poolSession session).alive = true → life.Numbered session
  owned : ∀ session, (life.poolSession session).Owned

theorem mem_of_split {life : Lifecycle} {handler : Handler} {before after : List Handler}
    (split : life.pending = before ++ handler :: after) : handler ∈ life.pending := by
  simp [split]

theorem sublist_of_split {life : Lifecycle} {handler : Handler} {before after : List Handler}
    (split : life.pending = before ++ handler :: after) :
    (before ++ after).Sublist life.pending := by
  rw [split]
  exact (List.sublist_cons_self handler after).append_left before

theorem destroyAll_with_map (life : Lifecycle) (sessions : List Nat)
    (map : AList fun _ : Int => Nat) :
    { life.destroyAll sessions with mapSession := map } =
      { life with mapSession := map }.destroyAll sessions := by
  induction sessions generalizing life with
  | nil => rfl
  | cons first rest ih => exact ih (life.destroy first)

namespace Sound

variable {life : Lifecycle} {session : Nat}

/-- The other handlers of a session that is being opened: none. -/
theorem alone (sound : life.Sound) {handler : Handler} {before after : List Handler}
    (split : life.pending = before ++ handler :: after) (opens : handler.opens = true) :
    ∀ other ∈ before ++ after, other.session ≠ handler.session := by
  have compatible := sound.compatible
  rw [split, List.pairwise_middle Handler.Compatible.symm, List.pairwise_cons] at compatible
  intro other other_mem same
  have := (compatible.1 other other_mem same.symm).1
  rw [opens] at this
  contradiction

/-- The other receives of a session that has one outstanding: none. -/
theorem lone_receive (sound : life.Sound) {handler : Handler} {before after : List Handler}
    (split : life.pending = before ++ handler :: after) (receives : handler.receives = true) :
    ∀ other ∈ before ++ after, other.session = handler.session →
      other.receives = false ∧ other.opens = false := by
  have compatible := sound.compatible
  rw [split, List.pairwise_middle Handler.Compatible.symm, List.pairwise_cons] at compatible
  intro other other_mem same
  rcases compatible.1 other other_mem same.symm with ⟨_, other_opens, both⟩
  refine ⟨?_, other_opens⟩
  cases other_receives : other.receives with
  | false => rfl
  | true => exact absurd ⟨receives, other_receives⟩ both

theorem fits_of_split (sound : life.Sound) {handler : Handler} {before after : List Handler}
    (split : life.pending = before ++ handler :: after) :
    life.Numbered handler.session ∧ handler.Fits (life.poolSession handler.session) :=
  sound.fits handler (mem_of_split split)

theorem not_opens_of_mapped (sound : life.Sound) {connectID : Int}
    (found : life.mapSession.lookup connectID = some session) :
    ∀ handler ∈ life.pending, handler.session = session → handler.opens = false := by
  intro handler handler_mem same
  cases opens : handler.opens with
  | false => rfl
  | true =>
      have fits := (sound.fits handler handler_mem).2
      rw [same] at fits
      exact absurd (sound.mapped connectID session found).2.1 (fits.of_opens opens).2.2.1

theorem touched_of_mapped (sound : life.Sound) {connectID : Int}
    (found : life.mapSession.lookup connectID = some session) : life.Touched session :=
  fun _ => (sound.mapped connectID session found).1

theorem notClosed_of_mapped (sound : life.Sound) {connectID : Int}
    (found : life.mapSession.lookup connectID = some session) :
    (life.poolSession session).isClosed = false := by
  simp [Session.isClosed, (sound.mapped connectID session found).2.1]

/-! ## The parts of a move -/

theorem take (sound : life.Sound) {pending : List Handler}
    (sublist : pending.Sublist life.pending) : (life.take pending).Sound where
  fits handler handler_mem := sound.fits handler (sublist.subset handler_mem)
  compatible := sound.compatible.sublist sublist
  mapped := sound.mapped
  numbered := sound.numbered
  owned := sound.owned

theorem use (sound : life.Sound) (session : Nat) : (life.use session).Sound where
  fits := sound.fits
  compatible := sound.compatible
  mapped := sound.mapped
  numbered := sound.numbered
  owned := sound.owned

theorem note (sound : life.Sound) (event : Event) : (life.note event).Sound where
  fits := sound.fits
  compatible := sound.compatible
  mapped := sound.mapped
  numbered := sound.numbered
  owned := sound.owned

theorem cancel (sound : life.Sound) (session : Nat) : (life.cancel session).Sound where
  fits := by
    simp only [Lifecycle.cancel, List.mem_map]
    rintro handler ⟨earlier, earlier_mem, rfl⟩
    rw [Handler.session_cancel, Handler.fits_cancel]
    exact sound.fits earlier earlier_mem
  compatible := by
    simp only [Lifecycle.cancel, List.pairwise_map, Handler.compatible_cancel]
    exact sound.compatible
  mapped := sound.mapped
  numbered := sound.numbered
  owned := sound.owned

theorem queue (sound : life.Sound) {handler : Handler}
    (numbered : life.Numbered handler.session)
    (fits : handler.Fits (life.poolSession handler.session))
    (compatible : ∀ earlier ∈ life.pending, Handler.Compatible earlier handler) :
    (life.queue handler).Sound where
  fits := by
    simp only [Lifecycle.queue, List.mem_append, List.mem_singleton]
    rintro later (later_mem | rfl)
    · exact sound.fits later later_mem
    · exact ⟨numbered, fits⟩
  compatible := by
    simp only [Lifecycle.queue, List.pairwise_append]
    refine ⟨sound.compatible, List.pairwise_singleton _ _, ?_⟩
    intro earlier earlier_mem later later_mem
    rw [List.mem_singleton] at later_mem
    subst later_mem
    exact compatible earlier earlier_mem
  mapped := sound.mapped
  numbered := sound.numbered
  owned := sound.owned

theorem setSession (sound : life.Sound) {fields : Session}
    (fits : ∀ handler ∈ life.pending, handler.session = session → handler.Fits fields)
    (mapped : ∀ connectID, life.mapSession.lookup connectID = some session →
      fields.alive = true ∧ fields.socketStatus = .connected ∧ fields.connIndex = connectID)
    (connIndex : life.Numbered session → fields.connIndex = toLong session)
    (numbered : fields.alive = true →
      session ≤ life.currentConnexindex ∧ fields.connIndex = toLong session)
    (owned : fields.Owned) :
    (life.setSession session fields).Sound where
  fits := by
    intro handler handler_mem
    rcases sound.fits handler handler_mem with ⟨handlerNumbered, handlerFits⟩
    constructor
    · apply handlerNumbered.setSession
      rintro rfl
      exact connIndex handlerNumbered
    · by_cases same : handler.session = session
      · simp only [Lifecycle.setSession, same, Function.update_self]
        exact fits handler handler_mem same
      · simp only [Lifecycle.setSession, Function.update_of_ne same]
        exact handlerFits
  compatible := sound.compatible
  mapped := by
    intro connectID other found
    by_cases same : other = session
    · subst same
      simp only [Lifecycle.setSession, Function.update_self]
      exact mapped connectID found
    · simp only [Lifecycle.setSession, Function.update_of_ne same]
      exact sound.mapped connectID other found
  numbered := by
    intro other
    by_cases same : other = session
    · subst same
      intro alive
      simp only [Lifecycle.setSession, Function.update_self] at alive
      refine ⟨(numbered alive).1, ?_⟩
      simp only [Lifecycle.setSession, Function.update_self]
      exact (numbered alive).2
    · intro alive
      simp only [Lifecycle.setSession, Function.update_of_ne same] at alive
      exact (sound.numbered other alive).setSession fun equal => absurd equal same
  owned := by
    intro other
    by_cases same : other = session
    · subst same
      simp only [Lifecycle.setSession, Function.update_self]
      exact owned
    · simp only [Lifecycle.setSession, Function.update_of_ne same]
      exact sound.owned other

theorem enter (sound : life.Sound) {connectID : Int}
    (alive : (life.poolSession session).alive = true)
    (connected : (life.poolSession session).socketStatus = .connected)
    (connIndex : (life.poolSession session).connIndex = connectID) :
    Sound { life with mapSession := life.mapSession.insert connectID session } where
  fits := sound.fits
  compatible := sound.compatible
  mapped := by
    intro otherID other found
    change (life.mapSession.insert connectID session).lookup otherID = some other at found
    by_cases same : otherID = connectID
    · subst same
      rw [AList.lookup_insert, Option.some.injEq] at found
      subst found
      exact ⟨alive, connected, connIndex⟩
    · rw [AList.lookup_insert_ne same] at found
      exact sound.mapped otherID other found
  numbered := sound.numbered
  owned := sound.owned

theorem next_unused (sound : life.Sound) :
    (∀ handler ∈ life.pending, handler.session ≠ life.currentConnexindex + 1) ∧
      ∀ connectID, life.mapSession.lookup connectID ≠ some (life.currentConnexindex + 1) := by
  constructor
  · intro handler handler_mem same
    have := (sound.fits handler handler_mem).1.1
    omega
  · intro connectID found
    have := (sound.numbered _ (sound.mapped connectID _ found).1).1
    omega

theorem allocate (sound : life.Sound) {fields : Session}
    (connIndex : fields.connIndex = toLong ((life.currentConnexindex + 1 : Nat) : Int))
    (owned : fields.Owned) :
    (life.allocate fields).Sound := by
  rcases sound.next_unused with ⟨handlers, entries⟩
  have raised : Sound { life with currentConnexindex := life.currentConnexindex + 1 } :=
    { fits := fun handler handler_mem =>
        have numbered := (sound.fits handler handler_mem).1
        ⟨⟨Nat.le_succ_of_le numbered.1, numbered.2⟩, (sound.fits handler handler_mem).2⟩
      compatible := sound.compatible
      mapped := sound.mapped
      numbered := fun other alive =>
        ⟨Nat.le_succ_of_le (sound.numbered other alive).1, (sound.numbered other alive).2⟩
      owned := sound.owned }
  apply raised.setSession
  · intro handler handler_mem same
    exact absurd same (handlers handler handler_mem)
  · intro connectID found
    exact absurd found (entries connectID)
  · exact fun _ => connIndex
  · exact fun _ => ⟨Nat.le_refl _, connIndex⟩
  · exact owned

theorem allocate_queue (sound : life.Sound) {fields : Session} {handler : Handler}
    (connIndex : fields.connIndex = toLong ((life.currentConnexindex + 1 : Nat) : Int))
    (owned : fields.Owned)
    (session_eq : handler.session = life.currentConnexindex + 1) (fits : handler.Fits fields) :
    ((life.allocate fields).queue handler).Sound := by
  apply (sound.allocate connIndex owned).queue
  · rw [session_eq]
    refine ⟨Nat.le_refl _, ?_⟩
    simp only [Lifecycle.allocate, Function.update_self]
    exact connIndex
  · rw [session_eq]
    simp only [Lifecycle.allocate, Function.update_self]
    exact fits
  · intro earlier earlier_mem same
    rw [session_eq] at same
    exact absurd same (sound.next_unused.1 earlier earlier_mem)

theorem openSession (sound : life.Sound) {fields : Session}
    (handlers : ∀ handler ∈ life.pending, handler.session ≠ session)
    (unmapped : ∀ connectID, life.mapSession.lookup connectID ≠ some session)
    (numbered : session ≤ life.currentConnexindex ∧ fields.connIndex = toLong session)
    (alive : fields.alive = true) (connected : fields.socketStatus = .connected)
    (owned : fields.Owned) :
    (life.openSession session fields).Sound := by
  have changed : (life.setSession session fields).Sound := by
    apply sound.setSession
    · intro handler handler_mem same
      exact absurd same (handlers handler handler_mem)
    · intro connectID found
      exact absurd found (unmapped connectID)
    · exact fun _ => numbered.2
    · exact fun _ => numbered
    · exact owned
  apply changed.enter
  · simp only [Lifecycle.setSession, Function.update_self]
    exact alive
  · simp only [Lifecycle.setSession, Function.update_self]
    exact connected
  · simp only [Lifecycle.setSession, Function.update_self]

theorem destroy (sound : life.Sound)
    (opened : ∀ handler ∈ life.pending, handler.session = session → handler.opens = false)
    (unmapped : ∀ connectID, life.mapSession.lookup connectID ≠ some session) :
    (life.destroy session).Sound := by
  apply Sound.cancel
  apply (sound.use session).setSession
  · intro handler handler_mem same
    have fits := (sound.fits handler handler_mem).2
    have opens := opened handler handler_mem same
    rw [same] at fits
    cases handler with
    | handleAccept acceptor other => contradiction
    | handleConnect connector other => contradiction
    | handleReadSp other receive => exact fits
    | handleWrite other length => trivial
    | handleExit other wait => trivial
    | handleDestory other wait => exact fits
  · intro connectID found
    exact absurd found (unmapped connectID)
  · exact fun numbered => numbered.2
  · intro alive
    contradiction
  · intro some_acceptor
    contradiction

theorem destroyAll (sound : life.Sound) {sessions : List Nat}
    (opened : ∀ session ∈ sessions, ∀ handler ∈ life.pending,
      handler.session = session → handler.opens = false)
    (unmapped : ∀ session ∈ sessions, ∀ connectID,
      life.mapSession.lookup connectID ≠ some session) :
    (life.destroyAll sessions).Sound := by
  induction sessions generalizing life with
  | nil => exact sound
  | cons first rest ih =>
      have destroyed := sound.destroy (opened first List.mem_cons_self)
        (unmapped first List.mem_cons_self)
      apply ih destroyed
      · intro other other_mem handler handler_mem same
        simp only [Lifecycle.destroy, Lifecycle.cancel, List.mem_map] at handler_mem
        rcases handler_mem with ⟨earlier, earlier_mem, rfl⟩
        rw [Handler.session_cancel] at same
        rw [Handler.opens_cancel]
        exact opened other (List.mem_cons_of_mem _ other_mem) earlier earlier_mem same
      · intro other other_mem
        exact unmapped other (List.mem_cons_of_mem _ other_mem)

theorem exit (sound : life.Sound) (due : Int) (numbered : life.Numbered session)
    (opened : ∀ handler ∈ life.pending, handler.session = session → handler.opens = false) :
    (life.exit session due).Sound where
  fits := by
    have closedFits : ∀ handler ∈ life.pending,
        handler.Fits ((life.exit session due).poolSession handler.session) := by
      intro handler handler_mem
      have fits := (sound.fits handler handler_mem).2
      rw [exit_poolSession]
      by_cases same : handler.session = session
      · rw [same] at fits
        rw [same, Function.update_self]
        exact fits.closed (opened handler handler_mem same)
      · rwa [Function.update_of_ne same]
    intro handler handler_mem
    rcases mem_exit_pending life session due handler_mem with
      earlier_mem | ⟨earlier, earlier_mem, rfl⟩ | rfl
    · exact ⟨(sound.fits handler earlier_mem).1.exit session due, closedFits handler earlier_mem⟩
    · rw [Handler.session_cancel, Handler.fits_cancel]
      exact ⟨(sound.fits earlier earlier_mem).1.exit session due, closedFits earlier earlier_mem⟩
    · refine ⟨numbered.exit session due, ?_⟩
      simp [Handler.Fits, Handler.session, closed]
  compatible := by
    rcases exit_pending life session due with same | replaced
    · rw [same]
      exact sound.compatible
    · rw [replaced, List.pairwise_append]
      refine ⟨(sound.cancel session).compatible, List.pairwise_singleton _ _, ?_⟩
      intro earlier earlier_mem later later_mem same
      rw [List.mem_map] at earlier_mem
      rw [List.mem_singleton] at later_mem
      rcases earlier_mem with ⟨handler, handler_mem, rfl⟩
      subst later_mem
      rw [Handler.session_cancel] at same
      rw [Handler.opens_cancel]
      refine ⟨opened handler handler_mem same, rfl, ?_⟩
      rintro ⟨_, receives⟩
      contradiction
  mapped := by
    intro connectID other found
    rcases exit_lookup life session due found with ⟨earlier, different⟩
    have mapped := sound.mapped connectID other earlier
    have otherSession : other ≠ session := by
      rintro rfl
      exact different mapped.2.2.symm
    rw [exit_poolSession, Function.update_of_ne otherSession]
    exact mapped
  numbered := by
    intro other
    rw [exit_poolSession]
    by_cases same : other = session
    · subst same
      rw [Function.update_self]
      exact fun alive => (sound.numbered other alive).exit other due
    · rw [Function.update_of_ne same]
      exact fun alive => (sound.numbered other alive).exit session due
  owned := by
    intro other
    rw [exit_poolSession]
    by_cases same : other = session
    · subst same
      rw [Function.update_self]
      intro some_acceptor
      contradiction
    · rw [Function.update_of_ne same]
      exact sound.owned other

theorem apiMove {permission : Permission} {next : Lifecycle} (sound : life.Sound)
    (move : ApiMove permission life next) : next.Sound := by
  cases move with
  | noted event notes => exact sound.note event
  | cancelled session => exact sound.cancel session
  | queued handler queues mapped =>
      rcases mapped with ⟨connectID, found⟩
      have alive := (sound.mapped connectID handler.session found).1
      apply sound.queue (sound.numbered handler.session alive)
        (Handler.fits_of_queues queues)
      intro earlier earlier_mem same
      refine ⟨sound.not_opens_of_mapped found earlier earlier_mem same,
        Handler.opens_of_queues queues, ?_⟩
      rintro ⟨_, receives⟩
      rw [Handler.receives_of_queues queues] at receives
      contradiction
  | exited session due notClosed opened numbered touched permitted =>
      exact sound.exit due numbered opened
  | listening acceptor =>
      apply sound.allocate_queue
      · simp only [Session.construct]
      · intro some_acceptor
        contradiction
      · rfl
      · exact ⟨rfl, rfl, rfl, rfl⟩
  | connecting connector =>
      apply sound.allocate_queue
      · simp only [Session.construct]
      · intro some_acceptor
        contradiction
      · rfl
      · exact ⟨rfl, rfl, rfl⟩

/-- A session with no other handler whose opening has been taken is in no entry of the map. -/
theorem unmapped_of_opens (sound : life.Sound) {handler : Handler} (mem : handler ∈ life.pending)
    (opens : handler.opens = true) :
    ∀ connectID, life.mapSession.lookup connectID ≠ some handler.session := by
  intro connectID found
  have := sound.not_opens_of_mapped found handler mem rfl
  rw [opens] at this
  contradiction

/-- A handler that opens its session is the only one of the session, and is taken with that. -/
theorem opened (sound : life.Sound) {handler : Handler} {before after : List Handler}
    {fields : Session} (split : life.pending = before ++ handler :: after)
    (opens : handler.opens = true)
    (numbered : handler.session ≤ life.currentConnexindex ∧
      fields.connIndex = toLong handler.session)
    (alive : fields.alive = true) (connected : fields.socketStatus = .connected)
    (owned : fields.Owned) :
    ((life.take (before ++ after)).openSession handler.session fields).Sound := by
  apply (sound.take (sublist_of_split split)).openSession
  · exact sound.alone split opens
  · exact sound.unmapped_of_opens (mem_of_split split) opens
  · exact numbered
  · exact alive
  · exact connected
  · exact owned

theorem move {permission : Permission} {next : Lifecycle} (sound : life.Sound)
    (move : Move permission life next) : next.Sound := by
  cases move with
  | api move => exact sound.apiMove move
  | stopped => exact ⟨sound.fits, sound.compatible, sound.mapped, sound.numbered, sound.owned⟩
  | skipped split flag => exact sound.take (sublist_of_split split)
  | taken split kind => exact (sound.take (sublist_of_split split)).use _
  | @accepted acceptor session before after split permitted =>
      have fits := sound.fits_of_split split
      have numbered := sound.numbered session fits.2.1
      apply Sound.note
      apply sound.opened split
      · rfl
      · exact numbered
      · exact fits.2.1
      · rfl
      · intro _
        exact ⟨fits.2.1, rfl, fits.2.2.2.2⟩
  | @connected connector session before after split =>
      have fits := sound.fits_of_split split
      have numbered := sound.numbered session fits.2.1
      apply sound.opened split
      · rfl
      · exact numbered
      · exact fits.2.1
      · rfl
      · intro some_acceptor
        exact ⟨fits.2.1, rfl, (sound.owned session some_acceptor).2.2⟩
  | @refused acceptor session before after split =>
      apply (sound.take (sublist_of_split split)).destroy
      · intro other other_mem same
        exact absurd same (sound.alone split rfl other other_mem)
      · exact sound.unmapped_of_opens (mem_of_split split) rfl
  | @failed connector session before after split permitted =>
      have fits := sound.fits_of_split split
      have numbered := sound.numbered session fits.2.1
      have alone := sound.alone split rfl
      have unmapped := sound.unmapped_of_opens (mem_of_split split) rfl
      apply Sound.use
      apply Sound.destroy
      · apply (sound.take (sublist_of_split split)).setSession
        · intro other other_mem same
          exact absurd same (alone other other_mem)
        · intro connectID found
          exact absurd found (unmapped connectID)
        · exact fun _ => numbered.2
        · exact fun _ => numbered
        · intro some_acceptor
          have unowned : (life.poolSession session).acceptor = none := fits.2.2.2
          simp only [unowned, Option.isSome_none, Bool.false_eq_true] at some_acceptor
      · intro other other_mem same
        exact absurd same (alone other other_mem)
      · exact unmapped
  | @dropped acceptor session before after due split =>
      apply (sound.take (sublist_of_split split)).exit due
      · exact (sound.fits_of_split split).1
      · intro other other_mem same
        exact absurd same (sound.alone split rfl other other_mem)
  | reread session state quiet =>
      apply sound.setSession
      · intro handler handler_mem same
        have fits := (sound.fits handler handler_mem).2
        have receives := quiet handler handler_mem same
        rw [same] at fits
        cases handler with
        | handleReadSp other receive => contradiction
        | handleAccept acceptor other => exact fits
        | handleConnect connector other => exact fits
        | handleWrite other length => trivial
        | handleExit other wait => trivial
        | handleDestory other wait => exact fits
      · exact fun connectID found => sound.mapped connectID session found
      · exact fun numbered => numbered.2
      · exact sound.numbered session
      · exact sound.owned session
  | received session receive quiet window numbered touched =>
      apply sound.queue
      · exact numbered
      · exact window
      · intro earlier earlier_mem same
        rcases quiet earlier earlier_mem same with ⟨receives, opens⟩
        refine ⟨opens, rfl, ?_⟩
        rintro ⟨earlier_receives, _⟩
        rw [receives] at earlier_receives
        contradiction
  | @destroyed session wait before after split permitted =>
      have fits := sound.fits_of_split split
      apply (sound.take (sublist_of_split split)).destroy
      · intro other other_mem same
        have compatible := sound.compatible
        rw [split, List.pairwise_middle Handler.Compatible.symm, List.pairwise_cons] at compatible
        exact (compatible.1 other other_mem same.symm).2.1
      · intro connectID found
        have := sound.notClosed_of_mapped found
        simp only [Handler.Fits, Handler.session] at fits
        simp [Session.isClosed, fits.2] at this
  | removedAll permitted clients =>
      have emptied : Sound { life with mapSession := ∅ } :=
        ⟨sound.fits, sound.compatible, by simp, sound.numbered, sound.owned⟩
      rw [destroyAll_with_map]
      apply emptied.destroyAll
      · intro session session_mem
        rw [List.mem_map] at session_mem
        rcases session_mem with ⟨entry, entry_mem, rfl⟩
        exact sound.not_opens_of_mapped (AList.mem_lookup_iff.mpr entry_mem)
      · intro session _ connectID
        simp
  | released clients =>
      refine ⟨by simp, List.Pairwise.nil, by simp, ?_, ?_⟩
      · intro session alive
        contradiction
      · intro session some_acceptor
        contradiction

end Sound

end Lifecycle

end SunPush
