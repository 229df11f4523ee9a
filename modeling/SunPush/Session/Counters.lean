import SunPush.Library.Tally
import SunPush.Session.Destruction

/-!
# The counters of sessions

Each counter of `Socket` against the sessions it counts.  Every entry keeps them
equal but that of a client whose remote endpoint cannot be read: it is counted
as connected, has no owner when it is closed, and is never taken out again.
-/

namespace SunPush

/-- The counters of `Socket` that count sessions. -/
inductive Counter where
  | totalSession
  | totalConneced
  | totalConnecting
  | totalClosed
  deriving DecidableEq, Repr

namespace Counter

def value (statistics : Statistics) : Counter → Int
  | totalSession => statistics.totalSession
  | totalConneced => statistics.totalConneced
  | totalConnecting => statistics.totalConnecting
  | totalClosed => statistics.totalClosed

/-- The sessions a counter counts: all that are allocated and not destroyed, the open ones of an
acceptor, the connecting or open ones of a connector, and the closed ones. -/
def counts : Counter → Session → Bool
  | totalSession, fields => fields.alive
  | totalConneced, fields =>
      fields.alive && fields.socketStatus = .connected && fields.acceptor.isSome
  | totalConnecting, fields =>
      fields.alive && (fields.socketStatus = .connecting || fields.socketStatus = .connected) &&
        fields.connector.isSome
  | totalClosed, fields => fields.alive && fields.socketStatus = .closed

theorem counts_account (counter : Counter) (fields : Session) :
    counter.counts fields.account = counter.counts fields := by
  cases counter <;> rfl

/-- No counter counts a session that is not constructed. -/
theorem alive_of_counts (counter : Counter) {fields : Session}
    (counted : counter.counts fields = true) : fields.alive = true := by
  cases counter with
  | totalSession => exact counted
  | totalConneced =>
      simp only [counts, Bool.and_eq_true] at counted
      exact counted.1.1
  | totalConnecting =>
      simp only [counts, Bool.and_eq_true] at counted
      exact counted.1.1
  | totalClosed =>
      simp only [counts, Bool.and_eq_true] at counted
      exact counted.1

end Counter

namespace Books

/-- Every counter is the number of the sessions it counts. -/
def Balanced (books : Books) : Prop :=
  ∀ counter : Counter, counter.value books.statistics =
    tally counter.counts books.account (books.currentConnexindex + 1)

namespace Balanced

variable {books next : Books}

theorem congr (balanced : books.Balanced)
    (raised : next.currentConnexindex = books.currentConnexindex)
    (account : next.account = books.account)
    (counted : ∀ counter : Counter, counter.value next.statistics =
      counter.value books.statistics) : next.Balanced := by
  intro counter
  rw [counted, balanced counter, raised, account]

/-- The fields of one session change, and the counters that count them follow. -/
theorem update (balanced : books.Balanced) {session : Nat} (fields : Session)
    (numbered : session ≤ books.currentConnexindex)
    (raised : next.currentConnexindex = books.currentConnexindex)
    (account : next.account = Function.update books.account session fields)
    (counted : ∀ counter : Counter, counter.value next.statistics +
        (counter.counts (books.account session)).toNat =
      counter.value books.statistics + (counter.counts fields).toNat) : next.Balanced := by
  intro counter
  have below : session < books.currentConnexindex + 1 := by omega
  have tallied := tally_update counter.counts books.account below fields
  have before := balanced counter
  have after := counted counter
  rw [raised, account]
  omega

/-- A session is constructed, and the counters that count it follow. -/
theorem allocate (balanced : books.Balanced) {fields : Session}
    (raised : next.currentConnexindex = books.currentConnexindex + 1)
    (account : next.account =
      Function.update books.account (books.currentConnexindex + 1) fields)
    (counted : ∀ counter : Counter, counter.value next.statistics =
      counter.value books.statistics + (counter.counts fields).toNat) : next.Balanced := by
  intro counter
  rw [raised, account, tally_extend, counted counter, balanced counter]
  push_cast
  rfl

/-- An open session is closed. -/
theorem exit (balanced : books.Balanced) {session : Nat}
    (numbered : session ≤ books.currentConnexindex)
    (alive : (books.account session).alive = true)
    (connected : (books.account session).socketStatus = .connected)
    (owned : (books.account session).Owned) : (books.exit session).Balanced := by
  apply balanced.update _ numbered (exit_currentConnexindex books session)
    (exit_account books session)
  intro counter
  rw [exit_statistics]
  rcases fields : books.account session with
    ⟨_, _, connIndex, _ | acceptor, _ | connector, readState⟩
  all_goals
    rw [fields] at alive connected owned
    simp only at alive connected
    subst alive connected
  · cases counter <;> simp [Counter.value, Counter.counts, Lifecycle.closed, Session.owner, tell,
      count]
  · cases counter <;> simp [Counter.value, Counter.counts, Lifecycle.closed, Session.owner, tell,
      count, setConnectSession]
  · cases counter <;> simp [Counter.value, Counter.counts, Lifecycle.closed, Session.owner, tell,
      count]
  · exact absurd (owned rfl).2.2 (by simp)

end Balanced

/-- Every entry but that of a dropped client keeps the counters of sessions right. -/
theorem balanced_post {books : Books} {entry : Entry} (enables : books.Enables entry)
    (undropped : ∀ acceptor session, entry ≠ .dropped acceptor session)
    (kept : Kept books.account books.duties) (balanced : books.Balanced) :
    (books.post entry).Balanced := by
  cases entry with
  | listened acceptor =>
      apply balanced.allocate rfl rfl
      intro counter
      cases counter <;> simp [post, count, assign, Books.allocate, Counter.value, Counter.counts,
        Session.construct]
  | stopListened acceptor => exact balanced.congr rfl rfl fun counter => by cases counter <;> rfl
  | connecting connector =>
      apply balanced.allocate rfl rfl
      intro counter
      cases counter <;> simp [post, setConnectSession, count, assign, Books.allocate,
        Counter.value, Counter.counts, Session.construct]
  | unallocated connector => exact balanced.congr rfl rfl fun _ => rfl
  | accepted acceptor session =>
      rcases enables with ⟨opening, idle, unowned⟩
      have alive : (books.account session).alive = true := opening.alive
      refine balanced.update
        { books.account session with socketStatus := .connected, acceptor := some acceptor }
        opening.numbered ?_ ?_ ?_
      · rfl
      · rfl
      intro counter
      simp only [Duty.session]
      cases counter <;> simp [post, count, openSession, setAccount, discharge, Counter.value,
        Counter.counts, idle, unowned, alive]
  | dropped acceptor session => exact absurd rfl (undropped acceptor session)
  | refused acceptor session =>
      rcases enables with ⟨opening, idle, unowned⟩
      have alive : (books.account session).alive = true := opening.alive
      refine balanced.update (books.account session).destruct
        opening.numbered ?_ ?_ ?_
      · rfl
      · rfl
      intro counter
      simp only [Duty.session]
      cases counter <;> simp [post, destroy, count, setAccount, discharge, Counter.value,
        Counter.counts, Session.destruct, idle, alive]
  | rearmed acceptor =>
      apply balanced.allocate rfl rfl
      intro counter
      cases counter <;> simp [post, assign, Books.allocate, Counter.value, Counter.counts,
        Session.construct]
  | connected connector session =>
      rcases enables with ⟨opening, connecting, owned⟩
      have alive : (books.account session).alive = true := opening.alive
      have unaccepted : (books.account session).acceptor = none := opening.unaccepted
      refine balanced.update { books.account session with socketStatus := .connected }
        opening.numbered ?_ ?_ ?_
      · rfl
      · rfl
      intro counter
      simp only [Duty.session]
      cases counter <;> simp [post, openSession, setAccount, discharge, Counter.value,
        Counter.counts, connecting, owned, alive, unaccepted]
  | failed connector session =>
      rcases enables with ⟨opening, connecting, owned⟩
      have alive : (books.account session).alive = true := opening.alive
      refine balanced.update _ opening.numbered ?_ (failed_account books connector session) ?_
      · rfl
      intro counter
      simp only [Duty.session]
      cases counter <;> simp [post, setConnectSession, destroy, count, setAccount, discharge,
        Counter.value, Counter.counts, Session.destruct, connecting, owned, alive]
  | abandoned connector session => exact balanced.congr rfl rfl fun _ => rfl
  | delayed session => exact balanced.congr rfl rfl fun _ => rfl
  | exited session =>
      exact balanced.exit enables.numbered enables.alive enables.connected enables.owned
  | expired session =>
      have waits : (books.discharge (.exit session)).Balanced :=
        balanced.congr rfl rfl fun _ => rfl
      simp only [post]
      split
      · exact waits
      · next notClosed =>
          have connected := enables.connected_of_expired notClosed
          exact waits.exit enables.1.numbered (kept.opened session connected) connected enables.2.1
  | destroyed session =>
      rcases enables with ⟨issued, closed⟩
      have alive := (kept.scheduled session issued.mem).1
      refine balanced.update (books.account session).destruct
        issued.numbered ?_ ?_ ?_
      · rfl
      · rfl
      intro counter
      simp only [Duty.session]
      cases counter <;> simp [post, destroy, count, setAccount, discharge, Counter.value,
        Counter.counts, Session.destruct, closed, alive]
  | stopped => exact balanced.congr rfl rfl fun _ => rfl

end Books

/-- What an entry adds to the counter of listening acceptors. -/
def Entry.listens : Entry → Int
  | listened _ => 1
  | stopListened _ => -1
  | _ => 0

namespace Books

theorem totalListening_exit (books : Books) (session : Nat) :
    (books.exit session).statistics.totalListening = books.statistics.totalListening := by
  rw [exit_statistics]
  rcases (books.account session).owner with _ | acceptor | connector <;> rfl

theorem totalListening_post (books : Books) (entry : Entry) :
    (books.post entry).statistics.totalListening =
      books.statistics.totalListening + entry.listens := by
  cases entry with
  | listened acceptor => rfl
  | stopListened acceptor => rfl
  | dropped acceptor session =>
      simp only [post, totalListening_exit, Entry.listens]
      exact (Int.add_zero _).symm
  | exited session =>
      simp only [post, totalListening_exit, Entry.listens]
      exact (Int.add_zero _).symm
  | expired session =>
      simp only [post, Entry.listens]
      split
      · exact (Int.add_zero _).symm
      · rw [totalListening_exit]
        exact (Int.add_zero _).symm
  | _ => exact (Int.add_zero _).symm

end Books

end SunPush
