import SunPush.Session.Bookkeeping

/-!
# Scheduled destructions in the books

Before the service is stopped, a scheduled destruction waits for a session that
is closed and not destroyed, and no session has two of them.  An entry destroys
at most one session, which is alive and not open.  Every closed session has its
destruction scheduled as long as the map has the identifiers of those that are
closed.
-/

namespace SunPush

/-- What the scheduled destructions are for. -/
structure Kept (account : Nat → Session) (duties : Multiset Duty) : Prop where
  opened : ∀ session, (account session).socketStatus = .connected →
    (account session).alive = true
  scheduled : ∀ session, .destory session ∈ duties →
    (account session).alive = true ∧ (account session).socketStatus = .closed
  once : ∀ session, duties.count (.destory session) ≤ 1

namespace Kept

variable {account : Nat → Session} {duties : Multiset Duty} {session : Nat}

theorem not_scheduled (kept : Kept account duties)
    (notClosed : (account session).socketStatus ≠ .closed) : .destory session ∉ duties :=
  fun scheduled => notClosed (kept.scheduled session scheduled).2

theorem discharge (kept : Kept account duties) (duty : Duty) :
    Kept account (duties.erase duty) where
  opened := kept.opened
  scheduled session scheduled := kept.scheduled session (Multiset.mem_of_mem_erase scheduled)
  once session := (Multiset.count_le_of_le _ (Multiset.erase_le duty duties)).trans
    (kept.once session)

theorem assign (kept : Kept account duties) {duty : Duty}
    (other : ∀ session, duty ≠ .destory session) : Kept account (duties + {duty}) where
  opened := kept.opened
  scheduled := by
    intro session scheduled
    rw [Multiset.mem_add, Multiset.mem_singleton] at scheduled
    rcases scheduled with earlier | now
    · exact kept.scheduled session earlier
    · exact absurd now.symm (other session)
  once := by
    intro session
    rw [Multiset.count_add, Multiset.count_singleton, if_neg (other session).symm]
    exact kept.once session

/-- The fields of a session change that is not waiting for its destruction. -/
theorem update (kept : Kept account duties) {fields : Session}
    (unscheduled : .destory session ∉ duties)
    (opened : fields.socketStatus = .connected → fields.alive = true) :
    Kept (Function.update account session fields) duties where
  opened := by
    intro other
    by_cases same : other = session
    · subst same
      rw [Function.update_self]
      exact opened
    · rw [Function.update_of_ne same]
      exact kept.opened other
  scheduled := by
    intro other scheduled
    have different : other ≠ session := by
      rintro rfl
      exact unscheduled scheduled
    rw [Function.update_of_ne different]
    exact kept.scheduled other scheduled
  once := kept.once

/-- A closed session gets its destruction scheduled. -/
theorem schedule (kept : Kept account duties) (unscheduled : .destory session ∉ duties)
    (alive : (account session).alive = true)
    (closed : (account session).socketStatus = .closed) :
    Kept account (duties + {.destory session}) where
  opened := kept.opened
  scheduled := by
    intro other scheduled
    rw [Multiset.mem_add, Multiset.mem_singleton, Duty.destory.injEq] at scheduled
    rcases scheduled with earlier | rfl
    · exact kept.scheduled other earlier
    · exact ⟨alive, closed⟩
  once := by
    intro other
    rw [Multiset.count_add, Multiset.count_singleton]
    split
    · next same =>
        rw [same, Multiset.count_eq_zero_of_notMem unscheduled]
    · exact kept.once other

theorem exit {books : Books} (kept : Kept books.account books.duties)
    (alive : (books.account session).alive = true)
    (notClosed : (books.account session).socketStatus ≠ .closed) :
    Kept (books.exit session).account (books.exit session).duties := by
  have unscheduled := kept.not_scheduled notClosed
  have closed : Kept (books.exit session).account books.duties := by
    rw [Books.exit_account]
    apply kept.update unscheduled
    intro connected
    contradiction
  rw [Books.exit_duties]
  split
  · apply closed.schedule unscheduled
    · simpa [Lifecycle.closed] using alive
    · simp [Lifecycle.closed]
  · exact closed

end Kept

namespace Books

theorem kept_allocate {books : Books} (kept : Kept books.account books.duties)
    (fresh : books.Fresh) (change : Session → Session) (duty : Duty)
    (unconnected : ∀ fields : Session, fields.socketStatus = .idle →
      (change fields).socketStatus ≠ .connected)
    (other : ∀ session, duty ≠ .destory session) :
    Kept ((books.allocate change).assign duty).account
      ((books.allocate change).assign duty).duties := by
  have unscheduled : .destory (books.currentConnexindex + 1) ∉ books.duties := by
    intro scheduled
    have : books.currentConnexindex + 1 ≤ books.currentConnexindex := fresh.issued _ scheduled
    omega
  have allocated : Kept (books.allocate change).account books.duties := by
    apply kept.update unscheduled
    intro connected
    exact absurd connected (unconnected _ rfl)
  exact allocated.assign other

/-- Every entry before the service is stopped keeps what the scheduled destructions are for. -/
theorem kept_post {books : Books} {entry : Entry} (enables : books.Enables entry)
    (kept : Kept books.account books.duties) :
    Kept (books.post entry).account (books.post entry).duties := by
  cases entry with
  | listened acceptor =>
      apply kept_allocate kept enables id (.accept acceptor _)
      · intro fields idle
        simp [idle]
      · exact fun session => Duty.noConfusion
  | stopListened acceptor => exact kept
  | connecting connector =>
      apply kept_allocate kept enables (fun fields =>
        { fields with socketStatus := .connecting, connector := some connector })
        (.connect connector _)
      · exact fun fields idle => SocketStatus.noConfusion
      · exact fun session => Duty.noConfusion
  | unallocated connector => exact kept
  | accepted acceptor session =>
      rcases enables with ⟨opening, idle, _⟩
      have waits := kept.discharge (.accept acceptor session)
      apply waits.update (waits.not_scheduled (by simp [idle]))
      exact fun _ => opening.alive
  | dropped acceptor session =>
      rcases enables with ⟨opening, idle, _⟩
      have waits := kept.discharge (.accept acceptor session)
      have notClosed : (books.account session).socketStatus ≠ .closed := by simp [idle]
      exact @Kept.exit session ((books.discharge (.accept acceptor session)).count fun s =>
        { s with totalConneced := s.totalConneced + 1 }) waits opening.alive notClosed
  | refused acceptor session =>
      rcases enables with ⟨opening, idle, _⟩
      have waits := kept.discharge (.accept acceptor session)
      apply waits.update (waits.not_scheduled (by simp [idle]))
      intro (connected : (books.account session).socketStatus = .connected)
      rw [idle] at connected
      contradiction
  | rearmed acceptor =>
      apply kept_allocate kept enables id (.accept acceptor _)
      · intro fields idle
        simp [idle]
      · exact fun session => Duty.noConfusion
  | connected connector session =>
      rcases enables with ⟨opening, connecting, _⟩
      have waits := kept.discharge (.connect connector session)
      apply waits.update (waits.not_scheduled (by simp [connecting]))
      exact fun _ => opening.alive
  | failed connector session =>
      rcases enables with ⟨opening, connecting, _⟩
      have waits := kept.discharge (.connect connector session)
      have unscheduled := @Kept.not_scheduled _ _ session waits (by simp [connecting])
      have errored := @Kept.update _ _ session waits
        { books.account session with socketStatus := .error } unscheduled SocketStatus.noConfusion
      apply errored.update unscheduled
      intro connected
      simp [Books.setAccount, Books.count, Session.destruct] at connected
  | abandoned connector session => exact kept.discharge _
  | delayed session => exact kept.assign fun _ => Duty.noConfusion
  | exited session => exact kept.exit enables.alive (by simp [enables.connected])
  | expired session =>
      have waits := kept.discharge (.exit session)
      simp only [post]
      split
      · exact waits
      · next notClosed =>
          have connected := enables.connected_of_expired notClosed
          have stays : (books.account session).socketStatus ≠ .closed := by simp [connected]
          exact @Kept.exit session (books.discharge (.exit session)) waits
            (kept.opened session connected) stays
  | destroyed session =>
      rcases enables with ⟨issued, closed⟩
      have waits := kept.discharge (.destory session)
      have unscheduled : .destory session ∉ books.duties.erase (.destory session) := by
        rw [← Multiset.count_eq_zero, Multiset.count_erase_self]
        have := kept.once session
        omega
      apply waits.update unscheduled
      intro (connected : (books.account session).socketStatus = .connected)
      rw [closed] at connected
      contradiction
  | stopped => exact kept

end Books

/-- The session that an entry destroys. -/
def Entry.destroys : Entry → Option Nat
  | refused _ session => some session
  | failed _ session => some session
  | destroyed session => some session
  | _ => none

namespace Books

/-- Live sessions stay alive, except one that is destroyed, and a session that is not alive stays as
it is unless it is constructed. -/
structure Survives (destroyed : Option Nat) (books next : Books) : Prop where
  raised : books.currentConnexindex ≤ next.currentConnexindex
  alive : ∀ session, (books.account session).alive = true →
    (next.account session).alive = true ∨ destroyed = some session
  dead : ∀ session, (books.account session).alive = false →
    next.account session = books.account session ∨
      books.currentConnexindex < session ∧ (next.account session).alive = true

theorem Survives.trans {books middle next : Books} {destroyed : Option Nat}
    (first : Survives destroyed books middle) (second : Survives none middle next) :
    Survives destroyed books next where
  raised := first.raised.trans second.raised
  alive := by
    intro session alive
    rcases first.alive session alive with stays | now
    · exact .inl ((second.alive session stays).resolve_right (by simp))
    · exact .inr now
  dead := by
    intro session dead
    rcases first.dead session dead with same | ⟨unused, constructed⟩
    · rw [← same] at dead ⊢
      rcases second.dead session dead with stays | ⟨unused, constructed⟩
      · exact .inl stays
      · exact .inr ⟨first.raised.trans_lt unused, constructed⟩
    · exact .inr ⟨unused,
        (second.alive session constructed).resolve_right (by simp)⟩

/-- The fields of one live session change. -/
theorem survives_update {books next : Books} {destroyed : Option Nat} {session : Nat}
    {fields : Session} (alive : (books.account session).alive = true)
    (raised : next.currentConnexindex = books.currentConnexindex)
    (account : next.account = Function.update books.account session fields)
    (stays : fields.alive = true ∨ destroyed = some session) :
    Survives destroyed books next where
  raised := raised.ge
  alive := by
    intro other otherAlive
    rw [account]
    by_cases same : other = session
    · subst same
      rw [Function.update_self]
      exact stays
    · rw [Function.update_of_ne same]
      exact .inl otherAlive
  dead := by
    intro other dead
    have different : other ≠ session := by
      rintro rfl
      rw [alive] at dead
      contradiction
    rw [account, Function.update_of_ne different]
    exact .inl rfl

theorem survives_refl {books next : Books}
    (raised : next.currentConnexindex = books.currentConnexindex)
    (account : next.account = books.account) : Survives none books next where
  raised := raised.ge
  alive session alive := by
    rw [account]
    exact .inl alive
  dead session _ := .inl (congrFun account session)

theorem survives_allocate {books next : Books} {fields : Session} (fresh : books.Fresh)
    (alive : fields.alive = true)
    (raised : next.currentConnexindex = books.currentConnexindex + 1)
    (account : next.account =
      Function.update books.account (books.currentConnexindex + 1) fields) :
    Survives none books next where
  raised := by omega
  alive := by
    intro session stays
    have different : session ≠ books.currentConnexindex + 1 := by
      rintro rfl
      rw [fresh.unused] at stays
      contradiction
    rw [account, Function.update_of_ne different]
    exact .inl stays
  dead := by
    intro session dead
    rw [account]
    by_cases same : session = books.currentConnexindex + 1
    · subst same
      rw [Function.update_self]
      exact .inr ⟨Nat.lt_succ_self _, alive⟩
    · rw [Function.update_of_ne same]
      exact .inl rfl

theorem survives_post {books : Books} {entry : Entry} (enables : books.Enables entry)
    (kept : Kept books.account books.duties) :
    Survives entry.destroys books (books.post entry) := by
  cases entry with
  | listened acceptor => exact survives_allocate enables rfl rfl rfl
  | stopListened acceptor => exact survives_refl rfl rfl
  | connecting connector => exact survives_allocate enables rfl rfl rfl
  | unallocated connector => exact survives_refl rfl rfl
  | accepted acceptor session =>
      have alive := enables.1.alive
      exact survives_update alive rfl rfl (.inl alive)
  | dropped acceptor session =>
      have alive := enables.1.alive
      exact survives_update alive (exit_currentConnexindex _ session) (exit_account _ session)
        (.inl alive)
  | refused acceptor session =>
      have alive := enables.1.alive
      exact survives_update alive rfl rfl (.inr rfl)
  | rearmed acceptor => exact survives_allocate enables rfl rfl rfl
  | connected connector session =>
      have alive := enables.1.alive
      exact survives_update alive rfl rfl (.inl alive)
  | failed connector session =>
      have alive := enables.1.alive
      exact survives_update alive rfl (failed_account books connector session) (.inr rfl)
  | abandoned connector session => exact survives_refl rfl rfl
  | delayed session => exact survives_refl rfl rfl
  | exited session =>
      have alive := enables.alive
      exact survives_update alive (exit_currentConnexindex _ session) (exit_account _ session)
        (.inl alive)
  | expired session =>
      simp only [post]
      split
      · exact survives_refl rfl rfl
      · next notClosed =>
          have alive := kept.opened session (enables.connected_of_expired notClosed)
          exact survives_update alive (exit_currentConnexindex _ session) (exit_account _ session)
            (.inl alive)
  | destroyed session =>
      have alive := (kept.scheduled session enables.1.mem).1
      exact survives_update alive rfl rfl (.inr rfl)
  | stopped => exact survives_refl rfl rfl

/-- Entries that destroy no session. -/
theorem survives_postings {allow : Entry → Prop} {books next : Books}
    (spares : ∀ entry, allow entry → entry.destroys = none)
    (postings : Postings allow books next) (kept : Kept books.account books.duties) :
    Survives none books next := by
  have both : Kept next.account next.duties ∧ Survives none books next := by
    apply postings.preserved _ ⟨kept, survives_refl rfl rfl⟩
    rintro current entry allowed enables ⟨currentKept, survives⟩
    have posted := survives_post enables currentKept
    rw [spares entry allowed] at posted
    exact ⟨kept_post enables currentKept, survives.trans posted⟩
  exact both.2

end Books

namespace Books

/-- At most one session is destroyed, which is alive and not open. -/
structure Destroys (destroyed : Option Nat) (books next : Books) : Prop
    extends Survives destroyed books next where
  unopened : ∀ session, destroyed = some session → (books.account session).alive = true ∧
    (books.account session).socketStatus ≠ .connected ∧ (next.account session).alive = false

theorem Survives.destroys_none {books next : Books} (survives : Survives none books next) :
    Destroys none books next where
  toSurvives := survives
  unopened _ none := absurd none (by simp)

theorem destroys_post {books : Books} {entry : Entry} {session : Nat}
    (enables : books.Enables entry) (kept : Kept books.account books.duties)
    (destroys : entry.destroys = some session) :
    Destroys (some session) books (books.post entry) := by
  have survives := survives_post enables kept
  rw [destroys] at survives
  refine ⟨survives, ?_⟩
  intro target same
  rw [Option.some.injEq] at same
  subst same
  cases entry with
  | refused acceptor target =>
      simp only [Entry.destroys, Option.some.injEq] at destroys
      subst destroys
      rcases enables with ⟨opening, idle, _⟩
      refine ⟨opening.alive, by simp [idle], ?_⟩
      simp [post, destroy, setAccount, count, Session.destruct]
  | failed connector target =>
      simp only [Entry.destroys, Option.some.injEq] at destroys
      subst destroys
      rcases enables with ⟨opening, connecting, _⟩
      refine ⟨opening.alive, by simp [connecting], ?_⟩
      simp [post, setConnectSession, destroy, setAccount, count, Session.destruct]
  | destroyed target =>
      simp only [Entry.destroys, Option.some.injEq] at destroys
      subst destroys
      rcases enables with ⟨issued, closed⟩
      refine ⟨(kept.scheduled _ issued.mem).1, by simp [closed], ?_⟩
      simp [post, destroy, setAccount, count, Session.destruct]
  | _ => contradiction

/-- The session is destroyed first, and then entries follow that destroy nothing. -/
theorem Destroys.trans {books middle next : Books} {session : Nat}
    (first : Destroys (some session) books middle) (second : Survives none middle next)
    (numbered : session ≤ middle.currentConnexindex) : Destroys (some session) books next where
  toSurvives := first.toSurvives.trans second
  unopened := by
    intro target same
    rcases first.unopened target same with ⟨alive, notOpen, dead⟩
    refine ⟨alive, notOpen, ?_⟩
    rw [Option.some.injEq] at same
    subst same
    rcases second.dead session dead with stays | ⟨unused, _⟩
    · rw [stays, dead]
    · omega

end Books

/-- Every session that is closed and not destroyed has its destruction scheduled. -/
def Promised (account : Nat → Session) (duties : Multiset Duty) : Prop :=
  ∀ session, (account session).alive = true → (account session).socketStatus = .closed →
    .destory session ∈ duties

namespace Promised

variable {account : Nat → Session} {duties : Multiset Duty}

theorem discharge (promised : Promised account duties) {duty : Duty}
    (other : ∀ session, duty ≠ .destory session) : Promised account (duties.erase duty) := by
  intro session alive closed
  exact (Multiset.mem_erase_of_ne (other session).symm).mpr (promised session alive closed)

theorem assign (promised : Promised account duties) (duty : Duty) :
    Promised account (duties + {duty}) := by
  intro session alive closed
  exact Multiset.mem_add.mpr (.inl (promised session alive closed))

/-- The fields of a session change that is not closed, or is destroyed. -/
theorem update (promised : Promised account duties) {session : Nat} {fields : Session}
    (unclosed : fields.alive = true → fields.socketStatus ≠ .closed) :
    Promised (Function.update account session fields) duties := by
  intro other
  by_cases same : other = session
  · subst same
    rw [Function.update_self]
    exact fun alive closed => absurd closed (unclosed alive)
  · rw [Function.update_of_ne same]
    exact promised other

/-- A session is closed that the map has. -/
theorem exit {books : Books} (promised : Promised books.account books.duties) {session : Nat}
    (found : books.mapSession.lookup (books.account session).connIndex ≠ none) :
    Promised (books.exit session).account (books.exit session).duties := by
  rw [Books.exit_account, Books.exit_duties, if_pos (Option.isSome_iff_ne_none.mpr found)]
  intro other
  by_cases same : other = session
  · subst same
    intro _ _
    exact Multiset.mem_add.mpr (.inr (Multiset.mem_singleton_self _))
  · rw [Function.update_of_ne same]
    exact promised.assign _ other

end Promised

/-- The entry closes a session that the map may not have. -/
def Entry.unsure : Entry → Bool
  | dropped _ _ => true
  | expired _ => true
  | _ => false

namespace Books

theorem promised_post {books : Books} {entry : Entry} (enables : books.Enables entry)
    (sure : entry.unsure = false) (promised : Promised books.account books.duties) :
    Promised (books.post entry).account (books.post entry).duties := by
  cases entry with
  | listened acceptor =>
      apply (promised.update _).assign
      exact fun _ => SocketStatus.noConfusion
  | stopListened acceptor => exact promised
  | connecting connector =>
      apply (promised.update _).assign
      exact fun _ => SocketStatus.noConfusion
  | unallocated connector => exact promised
  | accepted acceptor session =>
      apply (promised.discharge _).update
      · exact fun _ => SocketStatus.noConfusion
      · exact fun _ => Duty.noConfusion
  | dropped acceptor session => contradiction
  | refused acceptor session =>
      apply (promised.discharge _).update
      · exact Bool.noConfusion
      · exact fun _ => Duty.noConfusion
  | rearmed acceptor =>
      apply (promised.update _).assign
      exact fun _ => SocketStatus.noConfusion
  | connected connector session =>
      apply (promised.discharge _).update
      · exact fun _ => SocketStatus.noConfusion
      · exact fun _ => Duty.noConfusion
  | failed connector session =>
      apply ((promised.discharge _).update _).update
      · exact Bool.noConfusion
      · exact fun _ => Duty.noConfusion
      · exact fun _ => SocketStatus.noConfusion
  | abandoned connector session => exact promised.discharge fun _ => Duty.noConfusion
  | delayed session => exact promised.assign _
  | exited session =>
      apply promised.exit
      rw [enables.found]
      exact Option.some_ne_none session
  | expired session => contradiction
  | destroyed session =>
      intro other
      by_cases same : other = session
      · subst same
        simp [post, destroy, setAccount, count, Session.destruct]
      · intro (alive : (Function.update books.account session _ other).alive = true)
          (closed : (Function.update books.account session _ other).socketStatus = .closed)
        rw [Function.update_of_ne same] at alive closed
        have different : Duty.destory other ≠ .destory session := by simpa using same
        exact (Multiset.mem_erase_of_ne different).mpr (promised other alive closed)
  | stopped => exact promised

end Books

namespace World

variable {U : Type} {callbacks : Callbacks U} {Upper : U → Prop}

/-- What is known of every world before the service is stopped. -/
theorem kept_of_reachable {world : World U}
    (reached : (service callbacks Upper).ReachableBy (fun _ label => BeforeShutdown label) world) :
    world.toLifecycle.Sound ∧ world.toLifecycle.Engaged ∧
      Kept world.books.account world.books.duties := by
  rcases engaged_of_reachable reached.reachable with ⟨sound, engaged⟩
  refine ⟨sound, engaged, ?_⟩
  apply @books_invariant U callbacks Upper (fun books => Kept books.account books.duties)
  · intro upper
    constructor
    · intro session connected
      contradiction
    · intro session scheduled
      contradiction
    · exact fun _ => Nat.zero_le 1
  · intro books entry enables kept
    exact Books.kept_post enables kept
  · exact reached

end World

end SunPush
