import SunPush.Session.Sound
import Mathlib.Data.Multiset.Basic

/-!
# The books of the session manager

What the socket layer knows of its sessions, apart from the data they carry:
the fields of each session but its receive counters, the map, the sessions of
the connectors, the counters of `Socket` and the duties of the handlers that
Boost.Asio will call.  An entry is one event in the life of a session; posting
it is the effect that the functions of the source have on the books.

The books are kept as long as `StopSocketService` does not clear them.
-/

namespace SunPush

/-- What a pending handler will do about its session: open it, close it, or destroy it. -/
inductive Duty where
  | accept (acceptor session : Nat)
  | connect (connector session : Nat)
  | exit (session : Nat)
  | destory (session : Nat)
  deriving DecidableEq, Repr

namespace Duty

def session : Duty → Nat
  | accept _ session => session
  | connect _ session => session
  | exit session => session
  | destory session => session

end Duty

namespace Handler

/-- The duty of a handler; the handlers of receives and sends have none. -/
def duty : Handler → Option Duty
  | handleAccept acceptor session => some (.accept acceptor session)
  | handleConnect connector session => some (.connect connector session)
  | handleReadSp _ _ => none
  | handleWrite _ _ => none
  | handleExit session _ => some (.exit session)
  | handleDestory session _ => some (.destory session)

@[simp]
theorem duty_cancel (target : Nat) (handler : Handler) :
    (handler.cancel target).duty = handler.duty := by
  cases handler <;> rfl

theorem session_of_duty {handler : Handler} {duty : Duty} (has : handler.duty = some duty) :
    handler.session = duty.session := by
  cases handler <;> simp only [Handler.duty, Option.some.injEq, reduceCtorEq] at has
  all_goals
    subst has
    rfl

end Handler

/-- The fields of a session without its receive counters. -/
def Session.account (fields : Session) : Session :=
  { fields with readState := .expectHeader }

theorem Session.account_construct (number : Nat) :
    (Session.construct number).account = Session.construct number := by
  simp only [Session.account, Session.construct]

/-- The counters of sessions and acceptors, without those of the traffic. -/
def Statistics.connections (statistics : Statistics) : Statistics where
  totalSession := statistics.totalSession
  totalListening := statistics.totalListening
  totalConnecting := statistics.totalConnecting
  totalConneced := statistics.totalConneced
  totalClosed := statistics.totalClosed

structure Books where
  stopSocketFlag : Bool
  currentConnexindex : Nat
  account : Nat → Session
  mapSession : AList fun _ : Int => Nat
  connectSession : Nat → Option Nat
  duties : Multiset Duty
  statistics : Statistics

attribute [ext] Books

def World.books {U : Type} (world : World U) : Books where
  stopSocketFlag := world.stopSocketFlag
  currentConnexindex := world.currentConnexindex
  account session := (world.poolSession session).account
  mapSession := world.mapSession
  connectSession := world.connectSession
  duties := ↑(world.pending.filterMap Handler.duty)
  statistics := world.statistics.connections

/-- An event in the life of a session, or of an acceptor. -/
inductive Entry where
  /-- `StartListen` has allocated a session and accepts into it. -/
  | listened (acceptor : Nat)
  /-- `StopListen` has closed the listening socket. -/
  | stopListened (acceptor : Nat)
  /-- `AsyncConnect` has allocated a session and connects it. -/
  | connecting (connector : Nat)
  /-- `AsyncConnect` has found no memory for a session. -/
  | unallocated (connector : Nat)
  /-- A client has been accepted. -/
  | accepted (acceptor session : Nat)
  /-- A client has been accepted whose remote endpoint cannot be read. -/
  | dropped (acceptor session : Nat)
  /-- An accept has failed. -/
  | refused (acceptor session : Nat)
  /-- `handle_accept` accepts the next client. -/
  | rearmed (acceptor : Nat)
  | connected (connector session : Nat)
  /-- A connection attempt has failed. -/
  | failed (connector session : Nat)
  /-- A connection attempt has failed after the service was stopped. -/
  | abandoned (connector session : Nat)
  /-- A session is to be closed later. -/
  | delayed (session : Nat)
  /-- A session has been closed. -/
  | exited (session : Nat)
  /-- The delay of a close has ended. -/
  | expired (session : Nat)
  | destroyed (session : Nat)
  /-- The stop flag has been set. -/
  | stopped
  deriving DecidableEq, Repr

namespace Books

def setAccount (books : Books) (session : Nat) (fields : Session) : Books :=
  { books with account := Function.update books.account session fields }

def assign (books : Books) (duty : Duty) : Books :=
  { books with duties := books.duties + {duty} }

def discharge (books : Books) (duty : Duty) : Books :=
  { books with duties := books.duties.erase duty }

def count (books : Books) (change : Statistics → Statistics) : Books :=
  { books with statistics := change books.statistics }

def setConnectSession (books : Books) (connector : Nat) (session : Option Nat) : Books :=
  { books with connectSession := Function.update books.connectSession connector session }

/-- A session is constructed under the next number, with the given fields set. -/
def allocate (books : Books) (change : Session → Session) : Books :=
  let number := books.currentConnexindex + 1
  { books with
    currentConnexindex := number
    account := Function.update books.account number (change (.construct number))
    statistics := { books.statistics with totalSession := books.statistics.totalSession + 1 } }

def destroy (books : Books) (session : Nat) : Books :=
  (books.setAccount session (books.account session).destruct).count fun s =>
    { s with totalSession := s.totalSession - 1 }

/-- A session is marked as connected and entered into the map. -/
def openSession (books : Books) (session : Nat) (fields : Session) : Books :=
  { books.setAccount session fields with
    mapSession := books.mapSession.insert fields.connIndex session }

/-- The owner of a closed session takes it out of its counter. -/
def tell (books : Books) : Option Owner → Books
  | some (.acceptor _) => books.count fun s => { s with totalConneced := s.totalConneced - 1 }
  | some (.connector connector) =>
      (books.count fun s => { s with totalConnecting := s.totalConnecting - 1 }).setConnectSession
        connector none
  | none => books

/-- A session leaves the map, and its destruction is scheduled if it was there. -/
def leave (books : Books) (connIndex : Int) (session : Nat) : Books :=
  match books.mapSession.lookup connIndex with
  | none => books
  | some _ =>
      { books with mapSession := books.mapSession.erase connIndex }.assign (.destory session)

/-- `handle_exit` of a session that is not closed yet. -/
def exit (books : Books) (session : Nat) : Books :=
  let fields := books.account session
  (((books.setAccount session (Lifecycle.closed fields)).count fun s =>
    { s with totalClosed := s.totalClosed + 1 }).tell fields.owner).leave fields.connIndex session

def post (books : Books) : Entry → Books
  | .listened acceptor =>
      ((books.allocate id).assign (.accept acceptor (books.currentConnexindex + 1))).count fun s =>
        { s with totalListening := s.totalListening + 1 }
  | .stopListened _ => books.count fun s => { s with totalListening := s.totalListening - 1 }
  | .connecting connector =>
      let number := books.currentConnexindex + 1
      (((books.allocate fun fields =>
        { fields with socketStatus := .connecting, connector := some connector }).assign
          (.connect connector number)).count fun s =>
            { s with totalConnecting := s.totalConnecting + 1 }).setConnectSession connector
              (some number)
  | .unallocated connector => books.setConnectSession connector none
  | .accepted acceptor session =>
      ((books.discharge (.accept acceptor session)).openSession session
        { books.account session with
          socketStatus := .connected, acceptor := some acceptor }).count fun s =>
            { s with totalConneced := s.totalConneced + 1 }
  | .dropped acceptor session =>
      ((books.discharge (.accept acceptor session)).count fun s =>
        { s with totalConneced := s.totalConneced + 1 }).exit session
  | .refused acceptor session => (books.discharge (.accept acceptor session)).destroy session
  | .rearmed acceptor =>
      (books.allocate id).assign (.accept acceptor (books.currentConnexindex + 1))
  | .connected connector session =>
      (books.discharge (.connect connector session)).openSession session
        { books.account session with socketStatus := .connected }
  | .failed connector session =>
      ((((books.discharge (.connect connector session)).count fun s =>
        { s with totalConnecting := s.totalConnecting - 1 }).setAccount session
          { books.account session with socketStatus := .error }).destroy
            session).setConnectSession connector none
  | .abandoned connector session => books.discharge (.connect connector session)
  | .delayed session => books.assign (.exit session)
  | .exited session => books.exit session
  | .expired session =>
      if (books.account session).isClosed then books.discharge (.exit session)
      else (books.discharge (.exit session)).exit session
  | .destroyed session =>
      ((books.discharge (.destory session)).destroy session).count fun s =>
        { s with totalClosed := s.totalClosed - 1 }
  | .stopped => { books with stopSocketFlag := true }

theorem setAccount_same {books : Books} {session : Nat} {fields : Session}
    (same : books.account session = fields) : books.setAccount session fields = books := by
  subst same
  simp [Books.setAccount]

theorem tell_setAccount (books : Books) (owner : Option Owner) (session : Nat) (fields : Session) :
    (books.tell owner).setAccount session fields =
      (books.setAccount session fields).tell owner := by
  rcases owner with _ | acceptor | connector <;> rfl

theorem allocate_setAccount (books : Books) (change : Session → Session) :
    (books.allocate id).setAccount (books.currentConnexindex + 1)
        (change (.construct (books.currentConnexindex + 1))) =
      books.allocate change := by
  simp only [Books.allocate, Books.setAccount, Function.update_idem]

/-! ## The fields after an entry -/

section Fields

variable (books : Books) (owner : Option Owner) (connIndex : Int) (session : Nat)

@[simp]
theorem tell_currentConnexindex :
    (books.tell owner).currentConnexindex = books.currentConnexindex := by
  rcases owner with _ | acceptor | connector <;> rfl

@[simp]
theorem tell_account : (books.tell owner).account = books.account := by
  rcases owner with _ | acceptor | connector <;> rfl

@[simp]
theorem tell_mapSession : (books.tell owner).mapSession = books.mapSession := by
  rcases owner with _ | acceptor | connector <;> rfl

@[simp]
theorem tell_duties : (books.tell owner).duties = books.duties := by
  rcases owner with _ | acceptor | connector <;> rfl

@[simp]
theorem leave_currentConnexindex :
    (books.leave connIndex session).currentConnexindex = books.currentConnexindex := by
  simp only [leave]
  split <;> rfl

@[simp]
theorem leave_account : (books.leave connIndex session).account = books.account := by
  simp only [leave]
  split <;> rfl

@[simp]
theorem leave_statistics : (books.leave connIndex session).statistics = books.statistics := by
  simp only [leave]
  split <;> rfl

theorem leave_duties :
    (books.leave connIndex session).duties =
      if (books.mapSession.lookup connIndex).isSome then books.duties + {.destory session}
      else books.duties := by
  simp only [leave]
  split
  · next absent =>
      rw [absent]
      rfl
  · next other found =>
      rw [found]
      rfl

@[simp]
theorem exit_currentConnexindex :
    (books.exit session).currentConnexindex = books.currentConnexindex := by
  simp [exit, count, setAccount]

@[simp]
theorem exit_account :
    (books.exit session).account =
      Function.update books.account session (Lifecycle.closed (books.account session)) := by
  simp [exit, count, setAccount]

theorem exit_duties :
    (books.exit session).duties =
      if (books.mapSession.lookup (books.account session).connIndex).isSome then
        books.duties + {.destory session}
      else books.duties := by
  simp [exit, leave_duties, count, setAccount]

theorem exit_statistics :
    (books.exit session).statistics =
      ((books.count fun s => { s with totalClosed := s.totalClosed + 1 }).tell
        (books.account session).owner).statistics := by
  rcases owner : (books.account session).owner with _ | acceptor | connector
  all_goals
    simp only [exit, leave_statistics, owner]
    rfl

end Fields

/-! ## Postings -/

/-- The next number is unused. -/
structure Fresh (books : Books) : Prop where
  unused : (books.account (books.currentConnexindex + 1)).alive = false
  issued : ∀ duty ∈ books.duties, duty.session ≤ books.currentConnexindex

/-- A session that the map leads to. -/
structure Mapped (books : Books) (session : Nat) : Prop where
  found : books.mapSession.lookup (books.account session).connIndex = some session
  alive : (books.account session).alive = true
  connected : (books.account session).socketStatus = .connected
  owned : (books.account session).Owned
  numbered : session ≤ books.currentConnexindex

/-- A duty of a session that has been allocated. -/
structure Issued (books : Books) (duty : Duty) : Prop where
  mem : duty ∈ books.duties
  numbered : duty.session ≤ books.currentConnexindex

/-- A session that is being opened has no other duty, and is not in the map. -/
structure Opening (books : Books) (duty : Duty) : Prop extends books.Issued duty where
  alone : ∀ other ∈ books.duties.erase duty, other.session ≠ duty.session
  unmapped : ∀ connectID, books.mapSession.lookup connectID ≠ some duty.session
  alive : (books.account duty.session).alive = true
  unaccepted : (books.account duty.session).acceptor = none

/-- What the functions of the source have established when they make an entry. -/
def Enables (books : Books) : Entry → Prop
  | .listened _ => books.Fresh
  | .stopListened _ => True
  | .connecting _ => books.Fresh
  | .unallocated _ => True
  | .accepted acceptor session
  | .dropped acceptor session
  | .refused acceptor session =>
      books.Opening (.accept acceptor session) ∧
        (books.account session).socketStatus = .idle ∧
          (books.account session).connector = none
  | .rearmed _ => books.Fresh
  | .connected connector session
  | .failed connector session
  | .abandoned connector session =>
      books.Opening (.connect connector session) ∧
        (books.account session).socketStatus = .connecting ∧
          (books.account session).connector = some connector
  | .delayed session => books.Mapped session
  | .exited session => books.Mapped session
  | .expired session =>
      books.Issued (.exit session) ∧ (books.account session).Owned ∧
        ((books.account session).socketStatus = .connected ∨
          (books.account session).socketStatus = .closed)
  | .destroyed session =>
      books.Issued (.destory session) ∧ (books.account session).socketStatus = .closed
  | .stopped => True

/-- One of the entries that `allow` allows is posted. -/
def Posting (allow : Entry → Prop) (books next : Books) : Prop :=
  ∃ entry, allow entry ∧ books.Enables entry ∧ next = books.post entry

abbrev Postings (allow : Entry → Prop) : Books → Books → Prop :=
  Relation.ReflTransGen (Posting allow)

theorem Postings.post {allow : Entry → Prop} {books : Books} {entry : Entry}
    (allowed : allow entry) (enables : books.Enables entry) :
    Postings allow books (books.post entry) :=
  .single ⟨entry, allowed, enables, rfl⟩

/-- A property of the books that every allowed entry preserves. -/
theorem Postings.preserved {allow : Entry → Prop} {Inv : Books → Prop}
    (preserved : ∀ books entry, allow entry → books.Enables entry → Inv books →
      Inv (books.post entry))
    {books next : Books} (postings : Postings allow books next) (holds : Inv books) : Inv next := by
  apply Transition.preserved_of_moves _ postings holds
  rintro before after ⟨entry, allowed, enables, rfl⟩ beforeHolds
  exact preserved before entry allowed enables beforeHolds

/-- A session is still open when a delay that ends finds it not closed. -/
theorem Enables.connected_of_expired {books : Books} {session : Nat}
    (enables : books.Enables (.expired session))
    (notClosed : ¬(books.account session).isClosed = true) :
    (books.account session).socketStatus = .connected := by
  apply enables.2.2.resolve_right
  intro closed
  simp [Session.isClosed, closed] at notClosed

theorem failed_account (books : Books) (connector session : Nat) :
    (books.post (.failed connector session)).account =
      Function.update books.account session
        ({ books.account session with socketStatus := .error } : Session).destruct := by
  simp [post, setConnectSession, destroy, setAccount, count, discharge]

/-! ## Open sessions -/

/-- The entry does not close the session. -/
def Spares (session : Nat) (entry : Entry) : Prop :=
  entry ≠ .exited session ∧ entry ≠ .expired session

/-- An open session stays as it is until it is closed. -/
theorem account_post {books : Books} {entry : Entry} {session : Nat}
    (enables : books.Enables entry) (spares : Spares session entry)
    (alive : (books.account session).alive = true)
    (connected : (books.account session).socketStatus = .connected) :
    (books.post entry).account session = books.account session := by
  have allocated : books.Fresh → session ≠ books.currentConnexindex + 1 := by
    rintro fresh rfl
    rw [fresh.unused] at alive
    contradiction
  have other : ∀ {target : Nat} {status : SocketStatus},
      (books.account target).socketStatus = status → status ≠ .connected → session ≠ target := by
    rintro target status holds different rfl
    exact different (holds.symm.trans connected)
  cases entry with
  | listened acceptor => exact Function.update_of_ne (allocated enables) _ _
  | stopListened acceptor => rfl
  | connecting connector => exact Function.update_of_ne (allocated enables) _ _
  | unallocated connector => rfl
  | accepted acceptor target =>
      exact Function.update_of_ne (other enables.2.1 SocketStatus.noConfusion) _ _
  | dropped acceptor target =>
      have different : session ≠ target := other enables.2.1 SocketStatus.noConfusion
      simp only [post, exit_account]
      exact Function.update_of_ne different _ _
  | refused acceptor target =>
      exact Function.update_of_ne (other enables.2.1 SocketStatus.noConfusion) _ _
  | rearmed acceptor => exact Function.update_of_ne (allocated enables) _ _
  | connected connector target =>
      exact Function.update_of_ne (other enables.2.1 SocketStatus.noConfusion) _ _
  | failed connector target =>
      rw [failed_account]
      exact Function.update_of_ne (other enables.2.1 SocketStatus.noConfusion) _ _
  | abandoned connector target => rfl
  | delayed target => rfl
  | exited target =>
      have different : session ≠ target := by
        rintro rfl
        exact spares.1 rfl
      simp only [post, exit_account]
      exact Function.update_of_ne different _ _
  | expired target =>
      have different : session ≠ target := by
        rintro rfl
        exact spares.2 rfl
      simp only [post]
      split
      · rfl
      · rw [exit_account]
        exact Function.update_of_ne different _ _
  | destroyed target =>
      exact Function.update_of_ne (other enables.2 SocketStatus.noConfusion) _ _
  | stopped => rfl

theorem account_postings {books next : Books} {session : Nat}
    (postings : Postings (Spares session) books next)
    (alive : (books.account session).alive = true)
    (connected : (books.account session).socketStatus = .connected) :
    next.account session = books.account session := by
  refine @Postings.preserved _ (fun current => current.account session = books.account session)
    ?_ _ _ postings rfl
  intro current entry spares enables same
  rw [← same] at alive connected ⊢
  exact account_post enables spares alive connected

end Books

end SunPush
