import SunPush.Session.Books
import SunPush.Session.Engaged

/-!
# The service keeps the books

Each function of the service posts entries: what it does to the books, and the
conditions under which it does it.  The functions are taken in the order of the
source.  What a step may enter is named by a predicate on the entries, so that
a run which never makes some of them is a run of postings without these.
-/

namespace SunPush

/-- Every call that the callbacks make is one of those. -/
structure Callbacks.Make {U : Type} (callbacks : Callbacks U) (P : ApiCall → Prop) : Prop where
  onAccept : ∀ acceptor connIndex memory upper,
    ∀ call ∈ (callbacks.onAccept acceptor connIndex memory upper).2, P call
  onConnect : ∀ connector connIndex errorCode upper,
    ∀ call ∈ (callbacks.onConnect connector connIndex errorCode upper).2, P call
  onReadComplete : ∀ owner connIndex msg length upper,
    ∀ call ∈ (callbacks.onReadComplete owner connIndex msg length upper).2, P call
  onSend : ∀ owner connIndex length upper,
    ∀ call ∈ (callbacks.onSend owner connIndex length upper).2, P call

theorem Callbacks.make_all {U : Type} (callbacks : Callbacks U) :
    callbacks.Make fun _ => True where
  onAccept _ _ _ _ _ _ := trivial
  onConnect _ _ _ _ _ _ := trivial
  onReadComplete _ _ _ _ _ _ _ := trivial
  onSend _ _ _ _ _ _ := trivial

/-- The entries that a call can make. -/
inductive ApiCall.Makes : ApiCall → Entry → Prop where
  | closed (connectID : Int) (session : Nat) : Makes (.closeSocket connectID) (.exited session)
  | delayed (connectID waitSeconds : Int) (session : Nat) (later : waitSeconds ≠ 0) :
      Makes (.asyncClose connectID waitSeconds) (.delayed session)
  | closedNow (connectID : Int) (session : Nat) : Makes (.asyncClose connectID 0) (.exited session)
  | listened (acceptor : Nat) : Makes (.startListen acceptor true) (.listened acceptor)
  | stopListened (acceptor : Nat) : Makes (.stopListen acceptor false) (.stopListened acceptor)
  | connecting (connector : Nat) : Makes (.asyncConnect connector true) (.connecting connector)
  | unallocated (connector : Nat) : Makes (.asyncConnect connector false) (.unallocated connector)
  | disconnected (connector session : Nat) : Makes (.disConnect connector) (.exited session)

namespace World

open Lifecycle Books

variable {U : Type} {callbacks : Callbacks U}

/-! ## The state -/

@[simp]
theorem books_use (world : World U) (session : Nat) : (world.use session).books = world.books :=
  rfl

@[simp]
theorem books_record (world : World U) (event : Event) :
    (world.record event).books = world.books :=
  rfl

@[simp]
theorem books_modify (world : World U) (session : Nat) (change : Session → Session) :
    (world.modify session change).books =
      world.books.setAccount session (change (world.poolSession session)).account := by
  have changed : (fun other => ((world.modify session change).poolSession other).account) =
      Function.update (fun other => (world.poolSession other).account) session
        (change (world.poolSession session)).account := by
    funext other
    exact Function.apply_update (fun _ => Session.account) _ _ _ _
  simp only [books, Books.setAccount, changed]
  rfl

@[simp]
theorem books_post (world : World U) (handler : Handler) :
    (world.post handler).books =
      match handler.duty with
      | none => world.books
      | some duty => world.books.assign duty := by
  cases has : handler.duty with
  | none => simp [books, post, List.filterMap_append, has]
  | some duty =>
      simp only [books, post, Books.assign, List.filterMap_append, List.filterMap_cons, has,
        List.filterMap_nil]
      rfl

@[simp]
theorem books_expiresFromNow (world : World U) (session : Nat) :
    (world.expiresFromNow session).books = world.books := by
  simp [books, expiresFromNow, List.filterMap_map]

/-- A counter of sessions or acceptors changes. -/
theorem books_count {change : Statistics → Statistics}
    (counts : ∀ statistics, (change statistics).connections = change statistics.connections)
    (world : World U) : (world.count change).books = world.books.count change := by
  simp only [books, count, Books.count, counts]

/-- A counter of the traffic changes. -/
theorem books_count_traffic {change : Statistics → Statistics}
    (same : ∀ statistics, (change statistics).connections = statistics.connections)
    (world : World U) : (world.count change).books = world.books := by
  simp only [books, count, same]

theorem books_destroySession (world : World U) (session : Nat) :
    (world.destroySession session).books = world.books.destroy session := by
  rw [destroySession, books_count, books_expiresFromNow, books_modify]
  · rfl
  · exact fun _ => rfl

theorem books_allocSession (world : World U) :
    ∃ next, world.allocSession true = some (world.books.currentConnexindex + 1, next) ∧
      next.books = world.books.allocate id ∧
        next.poolSession (world.books.currentConnexindex + 1) =
          .construct (world.books.currentConnexindex + 1) := by
  refine ⟨_, rfl, ?_, ?_⟩
  · have constructed : (fun other => (Function.update world.poolSession
        (world.currentConnexindex + 1) (.construct (world.currentConnexindex + 1)) other).account) =
          Function.update (fun other => (world.poolSession other).account)
            (world.currentConnexindex + 1) (.construct (world.currentConnexindex + 1)) := by
      funext other
      rw [Function.apply_update (fun _ => Session.account), Session.account_construct]
    simp only [books, Books.allocate, constructed, id_eq, Statistics.connections]
  · exact Function.update_self _ _ _

/-! ## Closing -/

theorem books_tellClosed (session : Nat) (world : World U) :
    (world.tellClosed callbacks session).books =
      ((world.books.tell (world.poolSession session).owner).setAccount session
        { (world.poolSession session).account with
          acceptor := none
          connector :=
            if (world.poolSession session).acceptor.isSome then
              (world.poolSession session).connector
            else none }) := by
  rcases fields : world.poolSession session with
    ⟨alive, status, connIndex, _ | acceptor, _ | connector, readState⟩
  · simp only [tellClosed, fields, Session.owner, Books.tell]
    symm
    apply Books.setAccount_same
    simp only [books, fields]
    rfl
  all_goals
    simp only [tellClosed, fields, Session.owner, books_modify, count, record]
    rfl

theorem books_leaveMap (session : Nat) (world : World U) :
    (world.leaveMap session).books =
      world.books.leave (world.poolSession session).connIndex session := by
  have same : world.books.mapSession = world.mapSession := rfl
  cases found : world.mapSession.lookup (world.poolSession session).connIndex with
  | none => simp only [leaveMap, getSession, Books.leave, same, found]
  | some other =>
      simp only [leaveMap, getSession, Books.leave, same, found, books_post, Handler.duty,
        books_expiresFromNow]
      rfl

theorem books_handleExit (session : Nat) (world : World U) :
    (world.handleExit callbacks session).books =
      if (world.poolSession session).isClosed then world.books else world.books.exit session := by
  have unused : (world.use session).poolSession = world.poolSession := rfl
  simp only [handleExit, unused]
  split
  · rfl
  · have marks : (((world.use session).modify session fun s =>
        { s with socketStatus := .closed }).count fun s =>
          { s with totalClosed := s.totalClosed + 1 }).books =
        (world.books.setAccount session
          { (world.poolSession session).account with socketStatus := .closed }).count fun s =>
            { s with totalClosed := s.totalClosed + 1 } := by
      rw [books_count, books_modify]
      · rfl
      · exact fun _ => rfl
    have fields : (((world.use session).modify session fun s =>
        { s with socketStatus := .closed }).count fun s =>
          { s with totalClosed := s.totalClosed + 1 }).poolSession session =
        { world.poolSession session with socketStatus := .closed } := by
      simp [modify, count, use]
    generalize (((world.use session).modify session fun s =>
        { s with socketStatus := .closed }).count fun s =>
          { s with totalClosed := s.totalClosed + 1 }) = marked at marks fields ⊢
    have connIndex : ((marked.tellClosed callbacks session).poolSession session).connIndex =
        (marked.poolSession session).connIndex := by
      rw [(tellClosed_toLifecycle session marked).1]
      simp [Lifecycle.setSession]
    have owner : ({ world.poolSession session with socketStatus := .closed } : Session).owner =
        (world.books.account session).owner := rfl
    rw [books_leaveMap, books_tellClosed, connIndex, fields, marks, Books.tell_setAccount, owner]
    simp only [Books.exit, Books.setAccount, Books.count, Function.update_idem]
    rfl

/-! ## Calls into the socket layer -/

/-- The entry that a call makes. -/
def entry (world : World U) : ApiCall → Option Entry
  | .send _ _ => none
  | .closeSocket connectID => (world.getSession connectID).map .exited
  | .asyncClose connectID waitSeconds =>
      (world.getSession connectID).map fun session =>
        if waitSeconds ≠ 0 then .delayed session else .exited session
  | .startListen acceptor memory =>
      if world.stopSocketFlag ∨ memory = false then none else some (.listened acceptor)
  | .stopListen acceptor failed => if failed then none else some (.stopListened acceptor)
  | .asyncConnect connector memory =>
      if world.stopSocketFlag then none
      else some (if memory then .connecting connector else .unallocated connector)
  | .disConnect connector =>
      (world.connectSession connector).bind fun target =>
        (world.getSession (world.poolSession target).connIndex).map .exited

theorem books_sendSession (session : Nat) (length : Int) (world : World U) :
    (world.sendSession session length).books = world.books := by
  simp only [sendSession]
  split
  · rfl
  · rw [books_count_traffic, books_post]
    · rfl
    · exact fun _ => rfl

theorem books_close {world : World U} {session : Nat}
    (notClosed : (world.poolSession session).isClosed = false) (waitSeconds : Int) :
    (world.close callbacks session waitSeconds).books =
      world.books.post (if waitSeconds ≠ 0 then .delayed session else .exited session) := by
  simp only [close]
  split
  · rw [books_post, books_expiresFromNow, books_use]
    rfl
  · rw [books_handleExit, notClosed]
    rfl

theorem books_closeSocket {world : World U} (sound : world.toLifecycle.Sound) (connectID : Int) :
    (world.closeSocket callbacks connectID).books =
      ((world.getSession connectID).map Entry.exited).elim world.books world.books.post := by
  cases found : world.getSession connectID with
  | none =>
      simp only [closeSocket, found]
      rfl
  | some session =>
      simp only [closeSocket, found]
      exact books_close (sound.notClosed_of_mapped found) 0

theorem books_startListen (acceptor : Nat) (memory : Bool) (world : World U) :
    (world.startListen acceptor memory).books =
      (world.entry (.startListen acceptor memory)).elim world.books world.books.post := by
  cases stopped : world.stopSocketFlag with
  | true =>
      simp only [startListen, entry, stopped]
      rfl
  | false =>
      cases memory with
      | false =>
          simp only [startListen, entry, stopped]
          rfl
      | true =>
          rcases books_allocSession world with ⟨next, allocates, allocated, _⟩
          simp only [startListen, entry, stopped, allocates, Bool.false_eq_true, if_false]
          rw [books_count, books_post, allocated]
          · rfl
          · exact fun _ => rfl

/-- The statements of `AsyncConnect` on a session it has allocated. -/
theorem books_dial (connector session : Nat) (world : World U) :
    (((({ world with connectSession :=
      Function.update world.connectSession connector (some session) }.modify session fun s =>
        { s with connector := some connector }).count fun s =>
          { s with totalConnecting := s.totalConnecting + 1 }).modify session fun s =>
            { s with socketStatus := .connecting }).books) =
      ((world.books.setAccount session
        { (world.poolSession session).account with
          socketStatus := .connecting, connector := some connector }).count fun s =>
            { s with totalConnecting := s.totalConnecting + 1 }).setConnectSession connector
              (some session) := by
  rw [books_modify, books_count, books_modify]
  · simp only [Books.setAccount, Books.count, Function.update_idem, count, modify,
      Function.update_self]
    rfl
  · exact fun _ => rfl

theorem books_asyncConnect (connector : Nat) (memory : Bool) (world : World U) :
    (world.asyncConnect connector memory).books =
      (world.entry (.asyncConnect connector memory)).elim world.books world.books.post := by
  cases stopped : world.stopSocketFlag with
  | true =>
      simp only [asyncConnect, entry, stopped]
      rfl
  | false =>
      cases memory with
      | false =>
          simp only [asyncConnect, entry, stopped]
          rfl
      | true =>
          rcases books_allocSession world with ⟨next, allocates, allocated, constructed⟩
          simp only [asyncConnect, entry, stopped, allocates, Bool.false_eq_true, if_false]
          rw [books_post, books_dial, allocated, constructed, Session.account_construct,
            Books.allocate_setAccount world.books fun fields =>
              { fields with socketStatus := .connecting, connector := some connector }]
          rfl

theorem books_perform {world : World U} (sound : world.toLifecycle.Sound) (call : ApiCall) :
    (world.perform callbacks call).books =
      (world.entry call).elim world.books world.books.post := by
  cases call with
  | send connectID encode =>
      simp only [perform]
      split
      · exact books_sendSession _ _ world
      · rfl
  | closeSocket connectID => exact books_closeSocket sound connectID
  | asyncClose connectID waitSeconds =>
      cases found : world.getSession connectID with
      | none =>
          simp only [perform, entry, found]
          rfl
      | some session =>
          simp only [perform, entry, found]
          exact books_close (sound.notClosed_of_mapped found) waitSeconds
  | startListen acceptor memory => exact books_startListen acceptor memory world
  | stopListen acceptor failed => cases failed <;> rfl
  | asyncConnect connector memory => exact books_asyncConnect connector memory world
  | disConnect connector =>
      cases target : world.connectSession connector with
      | none =>
          simp only [perform, entry, target]
          rfl
      | some session =>
          simp only [perform, entry, target]
          exact books_closeSocket sound _

/-! ## Postings -/

theorem fresh_books {world : World U} (sound : world.toLifecycle.Sound) : world.books.Fresh where
  unused := by
    have unused : ¬(world.poolSession (world.currentConnexindex + 1)).alive = true := by
      intro alive
      have := (sound.numbered _ alive).1
      omega
    exact Bool.eq_false_iff.mpr unused
  issued := by
    intro duty duty_mem
    simp only [books, Multiset.mem_coe, List.mem_filterMap] at duty_mem
    rcases duty_mem with ⟨handler, handler_mem, has⟩
    rw [← Handler.session_of_duty has]
    exact (sound.fits handler handler_mem).1.1

theorem mapped_books {world : World U} {connectID : Int} {session : Nat}
    (sound : world.toLifecycle.Sound) (found : world.getSession connectID = some session) :
    world.books.Mapped session := by
  rcases sound.mapped connectID session found with ⟨alive, connected, connIndex⟩
  refine ⟨?_, alive, connected, sound.owned session, (sound.numbered session alive).1⟩
  subst connIndex
  exact found

theorem enables_entry {world : World U} {call : ApiCall} {made : Entry}
    (sound : world.toLifecycle.Sound) (makes : world.entry call = some made) :
    world.books.Enables made := by
  have exits : ∀ connectID, (world.getSession connectID).map Entry.exited = some made →
      world.books.Enables made := by
    intro connectID closes
    rw [Option.map_eq_some_iff] at closes
    rcases closes with ⟨session, found, rfl⟩
    exact mapped_books sound found
  cases call with
  | send connectID encode => contradiction
  | closeSocket connectID => exact exits connectID makes
  | asyncClose connectID waitSeconds =>
      simp only [entry, Option.map_eq_some_iff] at makes
      rcases makes with ⟨session, found, rfl⟩
      split
      · exact mapped_books sound found
      · exact mapped_books sound found
  | startListen acceptor memory =>
      simp only [entry, Option.ite_none_left_eq_some, Option.some.injEq] at makes
      rcases makes with ⟨_, rfl⟩
      exact fresh_books sound
  | stopListen acceptor failed =>
      simp only [entry, Option.ite_none_left_eq_some, Option.some.injEq] at makes
      rcases makes with ⟨_, rfl⟩
      trivial
  | asyncConnect connector memory =>
      simp only [entry, Option.ite_none_left_eq_some, Option.some.injEq] at makes
      rcases makes with ⟨_, rfl⟩
      split
      · exact fresh_books sound
      · trivial
  | disConnect connector =>
      simp only [entry, Option.bind_eq_some_iff] at makes
      rcases makes with ⟨target, _, closes⟩
      exact exits _ closes

theorem makes_of_entry {world : World U} {call : ApiCall} {made : Entry}
    (makes : world.entry call = some made) : call.Makes made := by
  cases call with
  | send connectID encode => contradiction
  | closeSocket connectID =>
      simp only [entry, Option.map_eq_some_iff] at makes
      rcases makes with ⟨session, _, rfl⟩
      exact .closed connectID session
  | asyncClose connectID waitSeconds =>
      simp only [entry, Option.map_eq_some_iff] at makes
      rcases makes with ⟨session, _, rfl⟩
      split
      · next later => exact .delayed connectID waitSeconds session later
      · next now =>
          rw [not_not] at now
          subst now
          exact .closedNow connectID session
  | startListen acceptor memory =>
      simp only [entry, Option.ite_none_left_eq_some, Option.some.injEq] at makes
      rcases makes with ⟨permitted, rfl⟩
      rw [not_or, Bool.not_eq_false] at permitted
      rw [permitted.2]
      exact .listened acceptor
  | stopListen acceptor failed =>
      simp only [entry, Option.ite_none_left_eq_some, Option.some.injEq] at makes
      rcases makes with ⟨succeeded, rfl⟩
      rw [Bool.not_eq_true] at succeeded
      subst succeeded
      exact .stopListened acceptor
  | asyncConnect connector memory =>
      simp only [entry, Option.ite_none_left_eq_some, Option.some.injEq] at makes
      rcases makes with ⟨_, rfl⟩
      cases memory with
      | true => exact .connecting connector
      | false => exact .unallocated connector
  | disConnect connector =>
      simp only [entry, Option.bind_eq_some_iff, Option.map_eq_some_iff] at makes
      rcases makes with ⟨target, _, session, _, rfl⟩
      exact .disconnected connector session

theorem perform_postings {allow : Entry → Prop} {world : World U} {call : ApiCall}
    (sound : world.toLifecycle.Sound)
    (allowed : ∀ made, world.entry call = some made → allow made) :
    Postings allow world.books (world.perform callbacks call).books := by
  rw [books_perform sound]
  cases makes : world.entry call with
  | none => exact .refl
  | some made => exact .post (allowed made makes) (enables_entry sound makes)

/-- Every entry made while the calls are performed one after the other is allowed. -/
def Allows (callbacks : Callbacks U) (allow : Entry → Prop) : World U → List ApiCall → Prop
  | _, [] => True
  | world, call :: rest =>
      (∀ made, world.entry call = some made → allow made) ∧
        Allows callbacks allow (world.perform callbacks call) rest

theorem performAll_postings {allow : Entry → Prop} {world : World U}
    {result : U × List ApiCall} (sound : world.toLifecycle.Sound)
    (allowed : Allows callbacks allow { world with upper := result.1 } result.2) :
    Postings allow world.books (world.performAll callbacks result).books ∧
      (world.performAll callbacks result).toLifecycle.Sound := by
  rcases result with ⟨upper, calls⟩
  simp only [performAll]
  have same : { world with upper := upper }.books = world.books := rfl
  have stillSound : { world with upper := upper }.toLifecycle.Sound := sound
  simp only at allowed
  rw [← same]
  generalize { world with upper := upper } = current at allowed stillSound ⊢
  clear same
  induction calls generalizing current with
  | nil => exact ⟨.refl, stillSound⟩
  | cons call rest ih =>
      have first : Postings allow current.books (current.perform callbacks call).books :=
        perform_postings stillSound allowed.1
      have moves : Lifecycle.ApiMoves .all current.toLifecycle
          (current.perform callbacks call).toLifecycle :=
        perform_moves stillSound fun _ => trivial
      rcases ih _ allowed.2 (stillSound.apiMoves moves) with ⟨others, finallySound⟩
      exact ⟨first.trans others, finallySound⟩

section Handlers

variable {allow : Entry → Prop} {world : World U} {before after : List Handler}
  {completion : Completion}

/-- The world in which a handler runs: it is no longer pending. -/
def take (world : World U) (pending : List Handler) : World U :=
  { world with pending := pending }

theorem duties_of_split {handler : Handler} {duty : Duty}
    (split : world.pending = before ++ handler :: after) (has : handler.duty = some duty) :
    world.books.duties = duty ::ₘ (world.take (before ++ after)).books.duties := by
  simp only [books, take, split, List.filterMap_append, List.filterMap_cons, has,
    Multiset.cons_coe, Multiset.coe_eq_coe]
  exact List.perm_middle

theorem books_take {handler : Handler} {duty : Duty}
    (split : world.pending = before ++ handler :: after) (has : handler.duty = some duty) :
    (world.take (before ++ after)).books = world.books.discharge duty := by
  ext1
  case duties =>
    rw [Books.discharge, duties_of_split split has, Multiset.erase_cons_head]
  all_goals rfl

/-- Taking the handler of a receive or a send leaves the books as they are. -/
theorem books_take_of_none {handler : Handler}
    (split : world.pending = before ++ handler :: after) (none : handler.duty = none) :
    (world.take (before ++ after)).books = world.books := by
  ext1
  case duties => simp [books, take, split, List.filterMap_append, none]
  all_goals rfl

theorem issued_books {handler : Handler} {duty : Duty} (sound : world.toLifecycle.Sound)
    (split : world.pending = before ++ handler :: after) (has : handler.duty = some duty) :
    world.books.Issued duty := by
  constructor
  · rw [duties_of_split split has]
    exact Multiset.mem_cons_self duty _
  · rw [← Handler.session_of_duty has]
    exact (sound.fits_of_split split).1.1

theorem opening_books {handler : Handler} {duty : Duty} (sound : world.toLifecycle.Sound)
    (split : world.pending = before ++ handler :: after) (has : handler.duty = some duty)
    (opens : handler.opens = true) : world.books.Opening duty := by
  have same := Handler.session_of_duty has
  have fits := (sound.fits_of_split split).2.of_opens opens
  refine ⟨issued_books sound split has, ?_, ?_, ?_, ?_⟩
  · rw [duties_of_split split has, Multiset.erase_cons_head]
    intro other other_mem
    simp only [books, take, Multiset.mem_coe, List.mem_filterMap] at other_mem
    rcases other_mem with ⟨later, later_mem, later_has⟩
    rw [← Handler.session_of_duty later_has, ← same]
    exact sound.alone split opens later later_mem
  · rw [← same]
    exact sound.unmapped_of_opens (mem_of_split split) opens
  · rw [← same]
    exact fits.1
  · rw [← same]
    exact fits.2.2.2

theorem accepting_books {acceptor session : Nat} (sound : world.toLifecycle.Sound)
    (split : world.pending = before ++ .handleAccept acceptor session :: after) :
    world.books.Opening (.accept acceptor session) ∧
      (world.books.account session).socketStatus = .idle ∧
        (world.books.account session).connector = none := by
  have fits : Handler.Fits _ (.handleAccept acceptor session) := (sound.fits_of_split split).2
  exact ⟨opening_books sound split rfl rfl, fits.2.1, fits.2.2.2⟩

theorem connecting_books {connector session : Nat} (sound : world.toLifecycle.Sound)
    (engaged : world.toLifecycle.Engaged)
    (split : world.pending = before ++ .handleConnect connector session :: after) :
    world.books.Opening (.connect connector session) ∧
      (world.books.account session).socketStatus = .connecting ∧
        (world.books.account session).connector = some connector := by
  have fits : Handler.Fits _ (.handleConnect connector session) := (sound.fits_of_split split).2
  exact ⟨opening_books sound split rfl rfl, fits.2.1, engaged _ (mem_of_split split)⟩

theorem books_acceptNext (acceptor : Nat) (memory : Bool) (world : World U) :
    (world.acceptNext acceptor memory).books =
      if memory then world.books.post (.rearmed acceptor) else world.books := by
  cases memory with
  | false => rfl
  | true =>
      rcases books_allocSession world with ⟨next, allocates, allocated, _⟩
      simp only [acceptNext, allocates, if_true]
      rw [books_post, allocated]
      rfl

theorem books_start (session : Nat) (world : World U) :
    (world.start session).books = world.books := by
  simp only [start, receiveSp]
  rw [books_post, books_use, books_modify]
  apply Books.setAccount_same
  rfl

theorem books_openSession {session : Nat} (change : Session → Session) (world : World U) :
    (world.openSession session change).books =
      world.books.openSession session (change (world.poolSession session)).account := by
  have entered : (world.openSession session change).books =
      { ((world.use session).modify session change).books with
        mapSession := world.mapSession.insert
          (((world.use session).modify session change).poolSession session).connIndex session } :=
    rfl
  have fields : ((world.use session).modify session change).poolSession session =
      change (world.poolSession session) := by
    simp [modify, use]
  rw [entered, books_modify, fields]
  rfl

/-- The world in which `OnAccept` makes its calls. -/
def accepting (acceptor session : Nat) (world : World U) : World U :=
  (world.count fun s => { s with totalConneced := s.totalConneced + 1 }).announced acceptor session

theorem books_accepting {acceptor session : Nat}
    (split : world.pending = before ++ .handleAccept acceptor session :: after) :
    ((world.take (before ++ after)).accepting acceptor session).books =
      world.books.post (.accepted acceptor session) := by
  rw [accepting, announced, books_record, books_openSession]
  rw [books_count, books_take split rfl]
  · rfl
  · exact fun _ => rfl

/-- The calls of a callback make allowed entries, wherever they are made. -/
def Grants (callbacks : Callbacks U) (allow : Entry → Prop) (calls : List ApiCall) : Prop :=
  ∀ world : World U, world.Allows callbacks allow calls

theorem acceptClient_postings {acceptor session : Nat} {memory : Bool}
    (sound : world.toLifecycle.Sound)
    (split : world.pending = before ++ .handleAccept acceptor session :: after)
    (allowed : Allows callbacks allow
      { (world.take (before ++ after)).accepting acceptor session with
        upper := (callbacks.onAccept acceptor (world.poolSession session).connIndex memory
          world.upper).1 }
      (callbacks.onAccept acceptor (world.poolSession session).connIndex memory
        world.upper).2) :
    Postings allow (world.books.post (.accepted acceptor session))
        (((world.take (before ++ after)).count fun s =>
          { s with totalConneced := s.totalConneced + 1 }).acceptClient callbacks acceptor session
            memory).books ∧
      (((world.take (before ++ after)).count fun s =>
        { s with totalConneced := s.totalConneced + 1 }).acceptClient callbacks acceptor session
          memory).books.Fresh := by
  have counted : ((world.take (before ++ after)).count fun s =>
      { s with totalConneced := s.totalConneced + 1 }).toLifecycle =
        world.toLifecycle.take (before ++ after) := rfl
  have move := @Move.accepted .all world.toLifecycle acceptor session before after split trivial
  rw [← announced_toLifecycle sound split counted] at move
  rw [acceptClient_eq sound split counted, books_start, ← books_accepting split]
  rcases performAll_postings (sound.move move) allowed with ⟨postings, finallySound⟩
  exact ⟨postings, fresh_books finallySound⟩

/-- What `handle_accept` enters first when the accept has succeeded. -/
def firstEntry (completion : Completion) (acceptor session : Nat) : Entry :=
  if completion.remoteError then .dropped acceptor session else .accepted acceptor session

/-- The entries of the calls that `OnAccept` makes are allowed. -/
def GrantsOnAccept (callbacks : Callbacks U) (allow : Entry → Prop) (world : World U)
    (completion : Completion) (acceptor session : Nat) : Prop :=
  completion.remoteError = false →
    let result := callbacks.onAccept acceptor (world.poolSession session).connIndex
      completion.upperMemory world.upper
    Allows callbacks allow { world.accepting acceptor session with upper := result.1 } result.2

/-- The entries of `handle_accept` are allowed.  `world` is the world in which it runs. -/
def GrantsAccept (callbacks : Callbacks U) (allow : Entry → Prop) (world : World U)
    (completion : Completion) (acceptor session : Nat) : Prop :=
  if completion.error ≠ 0 then allow (.refused acceptor session)
  else
    allow (firstEntry completion acceptor session) ∧ allow (.rearmed acceptor) ∧
      world.GrantsOnAccept callbacks allow completion acceptor session

theorem books_dropped {acceptor session : Nat} (sound : world.toLifecycle.Sound)
    (split : world.pending = before ++ .handleAccept acceptor session :: after) :
    (((world.take (before ++ after)).count fun s =>
      { s with totalConneced := s.totalConneced + 1 }).handleExit callbacks session).books =
        world.books.post (.dropped acceptor session) := by
  have notClosed : (world.poolSession session).isClosed = false :=
    ((sound.fits_of_split split).2.of_opens rfl).2.1
  have same : ((world.take (before ++ after)).count fun s =>
      { s with totalConneced := s.totalConneced + 1 }).poolSession = world.poolSession := rfl
  rw [books_handleExit, same, notClosed, books_count, books_take split rfl]
  · rfl
  · exact fun _ => rfl

theorem books_refused {acceptor session : Nat}
    (split : world.pending = before ++ .handleAccept acceptor session :: after)
    (failed : completion.error ≠ 0) :
    ((world.take (before ++ after)).handleAccept callbacks acceptor session completion).books =
      world.books.post (.refused acceptor session) := by
  simp only [handleAccept, ne_eq, failed, not_false_eq_true, if_true]
  rw [books_destroySession, books_take split rfl]
  rfl

/-- After a successful accept the client is served, and then the next one is accepted. -/
theorem served_postings {acceptor session : Nat} (sound : world.toLifecycle.Sound)
    (split : world.pending = before ++ .handleAccept acceptor session :: after)
    (succeeded : completion.error = 0)
    (grants : (world.take (before ++ after)).GrantsOnAccept callbacks allow completion acceptor
      session) :
    ∃ served : Books,
      Postings allow (world.books.post (firstEntry completion acceptor session)) served ∧
        served.Fresh ∧
          ((world.take (before ++ after)).handleAccept callbacks acceptor session
            completion).books =
              if completion.memory then served.post (.rearmed acceptor) else served := by
  simp only [handleAccept, succeeded, ne_eq, not_true_eq_false, if_false, books_acceptNext]
  refine ⟨_, ?_, ?_, rfl⟩
  · cases remote : completion.remoteError with
    | true =>
        simp only [firstEntry, remote, if_true]
        rw [books_dropped sound split]
    | false =>
        simp only [firstEntry, remote, Bool.false_eq_true, if_false]
        exact (acceptClient_postings sound split (grants remote)).1
  · cases remote : completion.remoteError with
    | true =>
        have drops : Lifecycle.Moves .all world.toLifecycle
            (((world.take (before ++ after)).count fun s =>
              { s with totalConneced := s.totalConneced + 1 }).handleExit callbacks
                session).toLifecycle := dropped_moves sound split rfl
        simp only [if_true]
        exact fresh_books (sound.moves drops)
    | false =>
        simp only [Bool.false_eq_true, if_false]
        exact (acceptClient_postings sound split (grants remote)).2

theorem enables_firstEntry {acceptor session : Nat} (sound : world.toLifecycle.Sound)
    (split : world.pending = before ++ .handleAccept acceptor session :: after)
    (completion : Completion) :
    world.books.Enables (firstEntry completion acceptor session) := by
  simp only [firstEntry]
  split <;> exact accepting_books sound split

theorem handleAccept_postings {acceptor session : Nat} (sound : world.toLifecycle.Sound)
    (split : world.pending = before ++ .handleAccept acceptor session :: after)
    (grants : (world.take (before ++ after)).GrantsAccept callbacks allow completion acceptor
      session) :
    Postings allow world.books
      ((world.take (before ++ after)).handleAccept callbacks acceptor session
        completion).books := by
  by_cases succeeded : completion.error = 0
  · simp only [GrantsAccept, succeeded, ne_eq, not_true_eq_false, if_false] at grants
    rcases grants with ⟨first, rearmed, calls⟩
    rcases served_postings sound split succeeded calls with ⟨served, serves, fresh, rearms⟩
    have opens : Postings allow world.books _ :=
      .post first (enables_firstEntry sound split completion)
    rw [rearms]
    split
    · exact (opens.trans serves).trans (Postings.post rearmed fresh)
    · exact opens.trans serves
  · simp only [GrantsAccept, ne_eq, succeeded, not_false_eq_true, if_true] at grants
    rw [books_refused split succeeded]
    exact .post grants (accepting_books sound split)

/-- The entries of `handle_connect` are allowed. -/
def GrantsConnect (callbacks : Callbacks U) (allow : Entry → Prop) (world : World U)
    (completion : Completion) (connector session : Nat) : Prop :=
  (if completion.error ≠ 0 then
      if world.stopSocketFlag then allow (.abandoned connector session)
      else allow (.failed connector session)
    else allow (.connected connector session)) ∧
  Grants callbacks allow (callbacks.onConnect connector (world.poolSession session).connIndex
    completion.error world.upper).2

/-- What `handle_connect` does to a session whose connection attempt failed. -/
def refuse (connector session : Nat) (world : World U) : World U :=
  { ((((world.count fun s => { s with totalConnecting := s.totalConnecting - 1 }).use
      session).modify session fun s => { s with socketStatus := .error }).destroySession
        session) with
    connectSession := Function.update world.connectSession connector none }

theorem books_refuse {connector session : Nat}
    (split : world.pending = before ++ .handleConnect connector session :: after) :
    (refuse connector session (world.take (before ++ after))).books =
      world.books.post (.failed connector session) := by
  have told : (refuse connector session (world.take (before ++ after))).books =
      (((((world.take (before ++ after)).count fun s =>
        { s with totalConnecting := s.totalConnecting - 1 }).use session).modify session fun s =>
          { s with socketStatus := .error }).destroySession session).books.setConnectSession
            connector none := rfl
  rw [told, books_destroySession, books_modify, books_use, books_count, books_take split rfl]
  · rfl
  · exact fun _ => rfl

theorem refuse_toLifecycle {connector session : Nat} (sound : world.toLifecycle.Sound)
    (split : world.pending = before ++ .handleConnect connector session :: after) :
    ((refuse connector session (world.take (before ++ after))).use session).toLifecycle =
      (((world.toLifecycle.take (before ++ after)).setSession session
        { world.poolSession session with socketStatus := .error }).destroy session).use
          session := by
  have alive : (world.poolSession session).alive = true :=
    ((sound.fits_of_split split).2.of_opens rfl).1
  have unused : ((world.take (before ++ after)).count fun s =>
      { s with totalConnecting := s.totalConnecting - 1 }).use session =
        (world.take (before ++ after)).count fun s =>
          { s with totalConnecting := s.totalConnecting - 1 } :=
    use_of_touched fun _ => alive
  rw [refuse, unused]
  rfl

theorem onConnect_postings {connector session : Nat} {errorCode : Int}
    (sound : (world.use session).toLifecycle.Sound)
    (grants : Grants callbacks allow (callbacks.onConnect connector
      (world.poolSession session).connIndex errorCode world.upper).2) :
    Postings allow world.books
      (world.onConnect callbacks connector session errorCode).books := by
  have called : ((world.use session).record (.onConnect session errorCode)).toLifecycle.Sound :=
    sound.note _
  exact (performAll_postings called (grants _)).1

/-- After a connection attempt has failed, `OnConnect` makes its calls. -/
theorem failed_postings {connector session : Nat} (sound : world.toLifecycle.Sound)
    (split : world.pending = before ++ .handleConnect connector session :: after)
    (failed : completion.error ≠ 0) (running : world.stopSocketFlag = false)
    (calls : Grants callbacks allow (callbacks.onConnect connector
      (world.poolSession session).connIndex completion.error world.upper).2) :
    Postings allow (world.books.post (.failed connector session))
      ((world.take (before ++ after)).handleConnect callbacks connector session
        completion).books := by
  have flag : (world.take (before ++ after)).stopSocketFlag = false := running
  simp only [handleConnect, failed, flag, ne_eq, not_false_eq_true, if_true, Bool.false_eq_true,
    if_false]
  rw [← books_refuse split]
  apply onConnect_postings
  · rw [refuse_toLifecycle sound split]
    have move := @Move.failed .all world.toLifecycle connector session before after split trivial
    exact sound.move move
  · have fields : ((refuse connector session
        (world.take (before ++ after))).poolSession session).connIndex =
          (world.poolSession session).connIndex := by
      simp [refuse, take, destroySession, use, modify, count, expiresFromNow, Session.destruct]
    rw [fields]
    exact calls

/-- The world in which `OnConnect` makes its calls after a connection attempt has succeeded. -/
def connecting (session : Nat) (world : World U) : World U :=
  (world.openSession session fun s => { s with socketStatus := .connected }).start session

theorem books_connecting {connector session : Nat}
    (split : world.pending = before ++ .handleConnect connector session :: after) :
    ((world.take (before ++ after)).connecting session).books =
      world.books.post (.connected connector session) := by
  rw [connecting, books_start, books_openSession, books_take split rfl]
  rfl

theorem connecting_keeps (session : Nat) (world : World U) :
    ((world.connecting session).poolSession session).connIndex =
        (world.poolSession session).connIndex ∧
      (world.connecting session).upper = world.upper := by
  rcases start_keeps session (world.openSession session fun s =>
    { s with socketStatus := .connected }) with ⟨_, sameIndex, sameUpper⟩
  refine ⟨sameIndex.trans ?_, sameUpper⟩
  simp [openSession, use, modify, updateSession]

theorem handleConnect_postings {connector session : Nat} (sound : world.toLifecycle.Sound)
    (engaged : world.toLifecycle.Engaged)
    (split : world.pending = before ++ .handleConnect connector session :: after)
    (grants : (world.take (before ++ after)).GrantsConnect callbacks allow completion connector
      session) :
    Postings allow world.books
      ((world.take (before ++ after)).handleConnect callbacks connector session
        completion).books := by
  have taken : (world.take (before ++ after)).toLifecycle =
    world.toLifecycle.take (before ++ after) := rfl
  have enables := connecting_books sound engaged split
  rcases grants with ⟨opens, calls⟩
  by_cases failed : completion.error = 0
  · simp only [failed, ne_eq, not_true_eq_false, if_false] at opens
    simp only [handleConnect, failed, ne_eq, not_true_eq_false, if_false]
    have moves : Lifecycle.Moves .all world.toLifecycle
        ((world.take (before ++ after)).connecting session).toLifecycle :=
      connected_moves sound split taken
    have connected : Postings allow world.books _ := .post opens enables
    rw [← books_connecting split] at connected
    apply connected.trans
    apply onConnect_postings ((sound.moves moves).use session)
    rcases connecting_keeps session (world.take (before ++ after)) with ⟨sameIndex, sameUpper⟩
    rw [sameIndex, sameUpper]
    exact failed ▸ calls
  · simp only [ne_eq, failed, not_false_eq_true, if_true] at opens
    simp only [handleConnect, ne_eq, failed, not_false_eq_true, if_true]
    by_cases stopped : (world.take (before ++ after)).stopSocketFlag = true
    · simp only [stopped, if_true] at opens ⊢
      rw [books_take split rfl]
      exact .post opens enables
    · have running : world.stopSocketFlag = false := by simpa [take] using stopped
      simp only [stopped] at opens ⊢
      have refused : Postings allow world.books _ := .post opens enables
      have tells := @failed_postings U callbacks allow world before after completion connector
        session sound split failed running calls
      simp only [handleConnect, ne_eq, failed, not_false_eq_true, if_true, stopped] at tells
      exact refused.trans tells

/-- The calls the owner of a session makes when something is reported to it are granted. -/
def GrantsReport (callbacks : Callbacks U) (allow : Entry → Prop) (fields : Session)
    (calls : Owner → Int → List ApiCall) : Prop :=
  ∀ owner, fields.owner = some owner → Grants callbacks allow (calls owner fields.connIndex)

theorem onReadComplete_postings {session : Nat} {msg : NetMsg} {length : Int}
    (sound : world.toLifecycle.Sound)
    (grants : GrantsReport callbacks allow (world.poolSession session)
      fun owner connIndex => (callbacks.onReadComplete owner connIndex msg length world.upper).2) :
    Postings allow world.books (world.onReadComplete callbacks session msg length).books := by
  simp only [onReadComplete]
  split
  · exact .refl
  · next owner owned =>
      have called : ((world.use session).record
          (.onReadComplete session (msg.message length))).toLifecycle.Sound :=
        (sound.use session).note _
      exact (performAll_postings called (grants owner owned _)).1

theorem onSend_postings {session : Nat} {length : Int} (sound : world.toLifecycle.Sound)
    (grants : GrantsReport callbacks allow (world.poolSession session)
      fun owner connIndex => (callbacks.onSend owner connIndex length world.upper).2) :
    Postings allow world.books (world.onSend callbacks session length).books := by
  simp only [onSend]
  split
  · exact .refl
  · next owner owned =>
      have called : ((world.use session).record (.onSend session length)).toLifecycle.Sound :=
        (sound.use session).note _
      exact (performAll_postings called (grants owner owned _)).1

theorem deliver_postings {session : Nat} {message : Option (NetMsg × Int)}
    (sound : world.toLifecycle.Sound)
    (grants : ∀ msg length, GrantsReport callbacks allow (world.poolSession session)
      fun owner connIndex => (callbacks.onReadComplete owner connIndex msg length world.upper).2) :
    Postings allow world.books (world.deliver callbacks session message).books := by
  rcases message with _ | ⟨msg, length⟩
  · exact .refl
  · exact @onReadComplete_postings U callbacks allow
      (world.count fun s => { s with totalMsgRecvCount := s.totalMsgRecvCount + 1 }) session msg
      length sound (grants msg length)

theorem finishReadSp_postings {session : Nat} {state : ReadState} {outcome : ReadOutcome}
    {next : Receive} (sound : world.toLifecycle.Sound)
    (awaits : world.toLifecycle.Awaits session state) (stays : outcome.exit = false)
    (posts : outcome.receive = some next)
    (grants : ∀ msg length, GrantsReport callbacks allow (world.poolSession session)
      fun owner connIndex => (callbacks.onReadComplete owner connIndex msg length world.upper).2) :
    Postings allow world.books (world.finishReadSp callbacks session outcome).books := by
  have reread := (@reread_moves U .all world session state outcome.state awaits).1
  have unchanged : (world.modify session fun s => { s with readState := outcome.state }).books =
      world.books := by
    rw [books_modify]
    exact Books.setAccount_same rfl
  have fields : ((world.modify session fun s => { s with readState := outcome.state }).poolSession
      session) = { world.poolSession session with readState := outcome.state } := by
    simp [modify]
  have upper : (world.modify session fun s => { s with readState := outcome.state }).upper =
    world.upper := rfl
  simp only [finishReadSp, stays, posts, Bool.false_eq_true, if_false, receiveSp]
  rw [books_post, books_use, ← unchanged]
  generalize (world.modify session fun s => { s with readState := outcome.state }) = current
    at reread fields upper ⊢
  apply deliver_postings (sound.moves reread)
  rw [fields, upper]
  exact grants

theorem handleReadSp_postings {session : Nat} {receive : Receive}
    (sound : world.toLifecycle.Sound)
    (split : world.pending = before ++ .handleReadSp session receive :: after)
    (grants : ∀ msg length, GrantsReport callbacks allow (world.poolSession session)
      fun owner connIndex => (callbacks.onReadComplete owner connIndex msg length world.upper).2) :
    Postings allow world.books
      ((world.take (before ++ after)).handleReadSp callbacks session receive completion).books := by
  have counted : ((world.take (before ++ after)).countRecv receive).books = world.books :=
    books_take_of_none split rfl
  rcases @handleReadSp_cases U callbacks .all world.toLifecycle (world.take (before ++ after))
    before after completion session receive sound split rfl with
    ⟨_, unchanged⟩ | ⟨starts, ⟨_, used⟩ | ⟨outcome, next, decides, finishes⟩⟩
  · rw [unchanged, counted]
  · rw [used, books_use, counted]
  · rw [finishes, ← counted]
    exact finishReadSp_postings (sound.moves starts) decides.awaits decides.stays decides.posts
      grants

theorem handleWrite_postings {session : Nat} {length : Int} (sound : world.toLifecycle.Sound)
    (split : world.pending = before ++ .handleWrite session length :: after)
    (grants : GrantsReport callbacks allow (world.poolSession session)
      fun owner connIndex => (callbacks.onSend owner connIndex length world.upper).2) :
    Postings allow world.books
      ((world.take (before ++ after)).handleWrite callbacks session length completion).books := by
  have taken : ((world.take (before ++ after)).use session).toLifecycle.Sound :=
    (sound.take (sublist_of_split split)).use session
  have reports := @onSend_postings U callbacks allow
    ((world.take (before ++ after)).use session) session length taken grants
  rw [← books_take_of_none split rfl]
  simp only [handleWrite]
  split
  · exact .refl
  · rw [books_count_traffic]
    · exact reports
    · intro statistics
      split <;> rfl

theorem books_expired {session : Nat} {wait : Wait}
    (split : world.pending = before ++ .handleExit session wait :: after) :
    ((world.take (before ++ after)).handleExit callbacks session).books =
      world.books.post (.expired session) := by
  have same : (world.take (before ++ after)).poolSession = world.poolSession := rfl
  rw [books_handleExit, same, books_take split rfl]
  rfl

theorem expiring_books {session : Nat} {wait : Wait} (sound : world.toLifecycle.Sound)
    (engaged : world.toLifecycle.Engaged)
    (split : world.pending = before ++ .handleExit session wait :: after) :
    world.books.Enables (.expired session) :=
  ⟨issued_books sound split rfl, sound.owned session, engaged _ (mem_of_split split)⟩

theorem books_destroyed {session : Nat} {wait : Wait}
    (split : world.pending = before ++ .handleDestory session wait :: after) :
    ((world.take (before ++ after)).handleDestory session).books =
      world.books.post (.destroyed session) := by
  rw [handleDestory, books_count, books_destroySession, books_take split rfl]
  · rfl
  · exact fun _ => rfl

theorem destroying_books {session : Nat} {wait : Wait} (sound : world.toLifecycle.Sound)
    (split : world.pending = before ++ .handleDestory session wait :: after) :
    world.books.Enables (.destroyed session) :=
  ⟨issued_books sound split rfl, (sound.fits_of_split split).2⟩

/-- The entries of a handler are allowed.  `world` is the world in which it runs. -/
def GrantsHandler (callbacks : Callbacks U) (allow : Entry → Prop) (world : World U)
    (completion : Completion) : Handler → Prop
  | .handleAccept acceptor session =>
      world.GrantsAccept callbacks allow completion acceptor session
  | .handleConnect connector session =>
      world.GrantsConnect callbacks allow completion connector session
  | .handleReadSp session _ =>
      ∀ msg length, GrantsReport callbacks allow (world.poolSession session) fun owner connIndex =>
        (callbacks.onReadComplete owner connIndex msg length world.upper).2
  | .handleWrite session length =>
      GrantsReport callbacks allow (world.poolSession session) fun owner connIndex =>
        (callbacks.onSend owner connIndex length world.upper).2
  | .handleExit session _ => allow (.expired session)
  | .handleDestory session _ => allow (.destroyed session)

theorem handle_postings {handler : Handler} (sound : world.toLifecycle.Sound)
    (engaged : world.toLifecycle.Engaged)
    (split : world.pending = before ++ handler :: after)
    (grants : (world.take (before ++ after)).GrantsHandler callbacks allow completion handler) :
    Postings allow world.books
      (handle callbacks completion (world.take (before ++ after)) handler).books := by
  cases handler with
  | handleAccept acceptor session => exact handleAccept_postings sound split grants
  | handleConnect connector session => exact handleConnect_postings sound engaged split grants
  | handleReadSp session receive => exact handleReadSp_postings sound split grants
  | handleWrite session length => exact handleWrite_postings sound split grants
  | handleExit session wait =>
      simp only [handle, books_expired split]
      exact .post grants (expiring_books sound engaged split)
  | handleDestory session wait =>
      simp only [handle, books_destroyed split]
      exact .post grants (destroying_books sound split)

end Handlers

/-! ## The steps -/

/-- The entries of a step are allowed, and it does not clear the books. -/
def GrantsStep (callbacks : Callbacks U) (allow : Entry → Prop) (world : World U) : Label → Prop
  | .complete index completion =>
      ∀ handler, world.pending[index]? = some handler →
        (world.take (world.pending.eraseIdx index)).GrantsHandler callbacks allow completion handler
  | .call call => ∀ made, world.entry call = some made → allow made
  | .tick _ => True
  | .stop => allow .stopped
  | .removeAll => False
  | .release => False

theorem step_postings {allow : Entry → Prop} {world next : World U} {label : Label}
    (sound : world.toLifecycle.Sound) (engaged : world.toLifecycle.Engaged)
    (grants : world.GrantsStep callbacks allow label)
    (steps : world.step callbacks label = some next) :
    Postings allow world.books next.books := by
  cases label with
  | complete index completion =>
      rcases complete_cases steps with ⟨handler, before, after, at_index, split, others, rfl⟩
      have granted := grants handler at_index
      rw [others] at granted
      exact handle_postings sound engaged split granted
  | call call =>
      simp only [step, Option.some.injEq] at steps
      subst steps
      exact perform_postings sound grants
  | tick seconds =>
      simp only [step, Option.some.injEq] at steps
      subst steps
      exact .refl
  | stop =>
      simp only [step, Option.some.injEq] at steps
      subst steps
      exact .post grants trivial
  | removeAll => exact absurd grants id
  | release => exact absurd grants id

/-- The step is none of `StopSocketService`. -/
def BeforeShutdown : Label → Prop
  | .stop => False
  | .removeAll => False
  | .release => False
  | _ => True

theorem grants_of_forall {allow : Entry → Prop} {calls : List ApiCall}
    (allowed : ∀ (world : World U), ∀ call ∈ calls, ∀ made, world.entry call = some made →
      allow made) : Grants callbacks allow calls := by
  intro world
  induction calls generalizing world with
  | nil => trivial
  | cons call rest ih =>
      refine ⟨allowed world call List.mem_cons_self, ?_⟩
      apply ih
      intro current later later_mem
      exact allowed current later (List.mem_cons_of_mem call later_mem)

/-- The entries a handler makes itself. -/
inductive OwnEntry (world : World U) (completion : Completion) : Handler → Entry → Prop where
  | refused {acceptor session : Nat} (failed : completion.error ≠ 0) :
      OwnEntry world completion (.handleAccept acceptor session) (.refused acceptor session)
  | dropped {acceptor session : Nat} (succeeded : completion.error = 0)
      (unread : completion.remoteError = true) :
      OwnEntry world completion (.handleAccept acceptor session) (.dropped acceptor session)
  | accepted {acceptor session : Nat} (succeeded : completion.error = 0)
      (read : completion.remoteError = false) :
      OwnEntry world completion (.handleAccept acceptor session) (.accepted acceptor session)
  | rearmed {acceptor session : Nat} (succeeded : completion.error = 0) :
      OwnEntry world completion (.handleAccept acceptor session) (.rearmed acceptor)
  | abandoned {connector session : Nat} (failed : completion.error ≠ 0)
      (stopped : world.stopSocketFlag = true) :
      OwnEntry world completion (.handleConnect connector session) (.abandoned connector session)
  | failed {connector session : Nat} (failed : completion.error ≠ 0)
      (running : world.stopSocketFlag = false) :
      OwnEntry world completion (.handleConnect connector session) (.failed connector session)
  | connected {connector session : Nat} (succeeded : completion.error = 0) :
      OwnEntry world completion (.handleConnect connector session) (.connected connector session)
  | expired {session : Nat} {wait : Wait} :
      OwnEntry world completion (.handleExit session wait) (.expired session)
  | destroyed {session : Nat} {wait : Wait} :
      OwnEntry world completion (.handleDestory session wait) (.destroyed session)

theorem grantsHandler {allow : Entry → Prop} {P : ApiCall → Prop} (makes : callbacks.Make P)
    (calls : ∀ (world : World U) call, P call → ∀ made, world.entry call = some made → allow made)
    {world : World U} {completion : Completion} {handler : Handler}
    (own : ∀ entry, world.OwnEntry completion handler entry → allow entry) :
    world.GrantsHandler callbacks allow completion handler := by
  have granted : ∀ list : List ApiCall, (∀ call ∈ list, P call) →
      Grants callbacks allow list := by
    intro list made
    apply grants_of_forall
    intro current call call_mem
    exact calls current call (made call call_mem)
  cases handler with
  | handleAccept acceptor session =>
      simp only [GrantsHandler, GrantsAccept]
      split
      · next failed => exact own _ (.refused failed)
      · next succeeded =>
          rw [not_not] at succeeded
          refine ⟨?_, own _ (.rearmed succeeded), fun _ => granted _ (makes.onAccept _ _ _ _) _⟩
          cases read : completion.remoteError with
          | true =>
              simp only [firstEntry, read, if_true]
              exact own _ (.dropped succeeded read)
          | false =>
              simp only [firstEntry, read, Bool.false_eq_true, if_false]
              exact own _ (.accepted succeeded read)
  | handleConnect connector session =>
      refine ⟨?_, granted _ (makes.onConnect _ _ _ _)⟩
      split
      · next failed =>
          split
          · next stopped => exact own _ (.abandoned failed stopped)
          · next running => exact own _ (.failed failed (Bool.eq_false_iff.mpr running))
      · next succeeded => exact own _ (.connected (not_not.mp succeeded))
  | handleReadSp session receive =>
      exact fun _ _ _ _ => granted _ (makes.onReadComplete _ _ _ _ _)
  | handleWrite session length => exact fun _ _ => granted _ (makes.onSend _ _ _ _)
  | handleExit session wait => exact own _ .expired
  | handleDestory session wait => exact own _ .destroyed

theorem grantsStep_all (world : World U) {label : Label} (before : BeforeShutdown label) :
    world.GrantsStep callbacks (fun _ => True) label := by
  cases label with
  | complete index completion =>
      intro handler at_index
      exact grantsHandler (Callbacks.make_all callbacks) (fun _ _ _ _ _ => trivial)
        fun _ _ => trivial
  | call call => exact fun _ _ => trivial
  | tick seconds => trivial
  | stop => exact absurd before id
  | removeAll => exact absurd before id
  | release => exact absurd before id

/-- An invariant of the books that every entry preserves holds before the service is stopped. -/
theorem books_invariant {Upper : U → Prop} {Inv : Books → Prop}
    (start : ∀ upper : U, Inv (initial upper).books)
    (preserved : ∀ books entry, books.Enables entry → Inv books → Inv (books.post entry))
    {world : World U}
    (reached : (service callbacks Upper).ReachableBy (fun _ label => BeforeShutdown label) world) :
    Inv world.books := by
  apply reached.invariant_with (fun state => engaged_of_reachable)
  · rintro state ⟨upper, _, rfl⟩
    exact start upper
  · rintro state label next ⟨sound, engaged⟩ holds before steps
    have postings := step_postings sound engaged (grantsStep_all state before) steps
    apply postings.preserved _ holds
    intro books entry _ enables
    exact preserved books entry enables

end World

end SunPush
