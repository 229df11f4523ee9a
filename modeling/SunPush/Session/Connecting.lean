import SunPush.Session.Closing

/-!
# The session a connector points at

`AsyncConnect` points the connector at the session it has allocated, whatever it
pointed at before.  A failed attempt and `handle_exit` clear the pointer of the
session's connector without asking whether it is this session that it points at.

The history keeps what `AsyncConnect` has created and which attempts have failed.
A step first makes at most one entry of its own in the books, and then the calls
of at most one callback.
-/

namespace SunPush

/-- What has become of the calls of `AsyncConnect`. -/
structure Dialled where
  /-- The session that the latest call of each connector has created. -/
  latest : Nat → Option Nat
  /-- The sessions whose connection attempt has failed. -/
  failed : List Nat

namespace World

variable {U : Type} (callbacks : Callbacks U)

/-! ## The history -/

/-- A call of `AsyncConnect` creates a session, unless it returns at once or finds no memory. -/
def dials (world : World U) (dialled : Dialled) : ApiCall → Dialled
  | .asyncConnect connector memory =>
      if world.stopSocketFlag then dialled
      else { dialled with
        latest := Function.update dialled.latest connector
          (if memory then some (world.currentConnexindex + 1) else none) }
  | _ => dialled

/-- Several calls, made one after the other. -/
def dialsAll : World U → Dialled → List ApiCall → Dialled
  | _, dialled, [] => dialled
  | world, dialled, call :: rest =>
      dialsAll (world.perform callbacks call) (world.dials dialled call) rest

/-- A connection attempt completes with an error. -/
def fails (completion : Completion) (dialled : Dialled) : Handler → Dialled
  | .handleConnect _ session =>
      if completion.error ≠ 0 then { dialled with failed := session :: dialled.failed }
      else dialled
  | _ => dialled

/-- What a step does before it makes any calls. -/
def answers (world : World U) (dialled : Dialled) : Label → Dialled
  | .complete index completion =>
      match world.pending[index]? with
      | none => dialled
      | some handler => fails completion dialled handler
  | _ => dialled

/-- The service with the history of its connectors. -/
def diallingService (Upper : U → Prop) : Transition.System (World U × Dialled) Label :=
  (service callbacks Upper).withHistory ⟨fun _ => none, []⟩ fun dialled world label =>
    dialsAll callbacks (world.calls callbacks label).1 (world.answers dialled label)
      (world.calls callbacks label).2

/-- The connection attempt of the session has failed, or the session has been closed. -/
def Ended (world : World U) (dialled : Dialled) (session : Nat) : Prop :=
  session ∈ dialled.failed ∨ ¬world.IsOpen session

/-- `m_pConnectSession` is `NULL` exactly when the session of the latest `AsyncConnect` has ended or
there is none, and otherwise it is that session. -/
structure PointsAtNewest (connector : Nat) (world : World U) (dialled : Dialled) : Prop where
  null : world.connectSession connector = none ↔
    ∀ session, dialled.latest connector = some session → world.Ended dialled session
  newest : ∀ session, world.connectSession connector = some session →
    dialled.latest connector = some session

/-! ## What ends no older session -/

/-- If the session is one of the connector's and not closed, the connector does not point at
another one. -/
def EndsNewest (connector : Nat) (world : World U) (session : Nat) : Prop :=
  (world.poolSession session).isClosed = false →
    (world.poolSession session).owner = some (.connector connector) →
      ∀ newest ∈ world.connectSession connector, newest = session

/-- The session that the call closes is the newest of its connector, if it is one of this
connector's. -/
def CallEndsNewest (connector : Nat) (world : World U) : ApiCall → Prop
  | .closeSocket connectID =>
      ∀ session ∈ world.getSession connectID, world.EndsNewest connector session
  | .asyncClose connectID waitSeconds =>
      waitSeconds = 0 →
        ∀ session ∈ world.getSession connectID, world.EndsNewest connector session
  | .disConnect other =>
      ∀ target ∈ world.connectSession other,
        ∀ session ∈ world.getSession (world.poolSession target).connIndex,
          world.EndsNewest connector session
  | _ => True

/-- So are those of several calls, made one after the other. -/
def CallsEndNewest (connector : Nat) : World U → List ApiCall → Prop
  | _, [] => True
  | world, call :: rest =>
      world.CallEndsNewest connector call ∧
        CallsEndNewest connector (world.perform callbacks call) rest

/-- So is the one that a handler ends itself.  `handle_accept` closes only a session without a
connector, and `handle_read_sp` none; after the service was stopped, `handle_connect` returns
without clearing the pointer. -/
def HandlerEndsNewest (connector : Nat) (completion : Completion) (world : World U) :
    Handler → Prop
  | .handleConnect _ session =>
      completion.error ≠ 0 →
        if world.stopSocketFlag then world.connectSession connector ≠ some session
        else world.EndsNewest connector session
  | .handleExit session _ => world.EndsNewest connector session
  | _ => True

/-- So are those that a step ends, and it does not destroy the newest one with all the others. -/
def StepEndsNewest (connector : Nat) (both : World U × Dialled) (label : Label) : Prop :=
  (match label with
    | .complete index completion =>
        ∀ handler ∈ both.1.pending[index]?, both.1.HandlerEndsNewest connector completion handler
    | .removeAll =>
        ∀ entry ∈ both.1.mapSession.entries, both.1.connectSession connector ≠ some entry.2
    | .release => both.1.connectSession connector = none
    | _ => True) ∧
  CallsEndNewest callbacks connector (both.1.calls callbacks label).1
    (both.1.calls callbacks label).2

end World

/-! ## In the books -/

namespace Books

/-- The session is constructed and not closed. -/
def Open (books : Books) (session : Nat) : Prop :=
  (books.account session).alive = true ∧ (books.account session).isClosed = false

/-- What an entry adds to the history. -/
def enters (books : Books) (dialled : Dialled) : Entry → Dialled
  | .connecting connector =>
      { dialled with
        latest :=
          Function.update dialled.latest connector (some (books.currentConnexindex + 1)) }
  | .unallocated connector =>
      { dialled with latest := Function.update dialled.latest connector none }
  | .failed _ session => { dialled with failed := session :: dialled.failed }
  | .abandoned _ session => { dialled with failed := session :: dialled.failed }
  | _ => dialled

/-- If the session is one of the connector's, the connector does not point at another one. -/
def Newest (connector : Nat) (books : Books) (session : Nat) : Prop :=
  (books.account session).isClosed = false →
    (books.account session).owner = some (.connector connector) →
      ∀ newest, books.connectSession connector = some newest → newest = session

/-- The entry ends no older session of the connector. -/
def EndsNewest (connector : Nat) (books : Books) : Entry → Prop
  | .failed _ session => books.Newest connector session
  | .abandoned _ session => books.connectSession connector ≠ some session
  | .exited session => books.Newest connector session
  | .expired session => books.Newest connector session
  | _ => True

/-- The connector points at the session of the latest `AsyncConnect` as long as that is open and
its attempt has not failed. -/
structure Points (connector : Nat) (books : Books) (dialled : Dialled) : Prop where
  numbered : ∀ session, dialled.latest connector = some session →
    session ≤ books.currentConnexindex
  failed_numbered : ∀ session ∈ dialled.failed, session ≤ books.currentConnexindex
  owner : ∀ session, dialled.latest connector = some session → books.Open session →
    (books.account session).owner = some (.connector connector)
  points : ∀ session, books.connectSession connector = some session ↔
    dialled.latest connector = some session ∧ books.Open session ∧ session ∉ dialled.failed

namespace Points

variable {connector : Nat} {books next : Books} {dialled : Dialled}

/-- What neither dials nor ends a session of the connector's keeps the pointer right. -/
theorem kept (points : books.Points connector dialled)
    (counter : books.currentConnexindex ≤ next.currentConnexindex)
    (pointer : next.connectSession connector = books.connectSession connector)
    (opened : ∀ session, dialled.latest connector = some session →
      (next.Open session ↔ books.Open session))
    (owner : ∀ session, dialled.latest connector = some session → books.Open session →
      (next.account session).owner = (books.account session).owner) :
    next.Points connector dialled where
  numbered session latest := Nat.le_trans (points.numbered session latest) counter
  failed_numbered session failed := Nat.le_trans (points.failed_numbered session failed) counter
  owner := by
    intro session latest nextOpen
    have open_before := (opened session latest).mp nextOpen
    rw [owner session latest open_before]
    exact points.owner session latest open_before
  points := by
    intro session
    rw [pointer, points.points]
    constructor
    · rintro ⟨latest, open_before, notFailed⟩
      exact ⟨latest, (opened session latest).mpr open_before, notFailed⟩
    · rintro ⟨latest, nextOpen, notFailed⟩
      exact ⟨latest, (opened session latest).mp nextOpen, notFailed⟩

theorem of_account (points : books.Points connector dialled)
    (counter : books.currentConnexindex ≤ next.currentConnexindex)
    (pointer : next.connectSession connector = books.connectSession connector)
    (account : ∀ session, dialled.latest connector = some session →
      next.account session = books.account session) : next.Points connector dialled := by
  apply points.kept counter pointer
  · intro session latest
    rw [Open, Open, account session latest]
  · intro session latest _
    rw [account session latest]

/-- Allocating a session touches none that was allocated before. -/
theorem allocated (points : books.Points connector dialled) {fields : Session}
    (counter : next.currentConnexindex = books.currentConnexindex + 1)
    (pointer : next.connectSession connector = books.connectSession connector)
    (account : next.account =
      Function.update books.account (books.currentConnexindex + 1) fields) :
    next.Points connector dialled := by
  apply points.of_account (by omega) pointer
  intro session latest
  have numbered := points.numbered session latest
  rw [account]
  exact Function.update_of_ne (by omega) _ _

/-- A session that is none of the connector's may change in any way. -/
theorem other (points : books.Points connector dialled) {target : Nat} {fields : Session}
    (notOwned : books.Open target → (books.account target).owner ≠ some (.connector connector))
    (closed : ¬books.Open target →
      fields.alive = false ∨ fields.isClosed = true)
    (counter : books.currentConnexindex ≤ next.currentConnexindex)
    (pointer : next.connectSession connector = books.connectSession connector)
    (account : next.account = Function.update books.account target fields) :
    next.Points connector dialled := by
  have other : ∀ session, session ≠ target → next.account session = books.account session := by
    intro session different
    rw [account]
    exact Function.update_of_ne different _ _
  apply points.kept counter pointer
  · intro session latest
    by_cases same : session = target
    · subst same
      have notOpen : ¬books.Open session := by
        intro opened
        exact notOwned opened (points.owner session latest opened)
      refine iff_of_false ?_ notOpen
      rintro ⟨alive, notClosed⟩
      rw [account, Function.update_self] at alive notClosed
      rcases closed notOpen with dead | isClosed
      · simp [dead] at alive
      · simp [isClosed] at notClosed
    · rw [Open, Open, other session same]
  · intro session latest opened
    have different : session ≠ target := by
      rintro rfl
      exact notOwned opened (points.owner session latest opened)
    rw [other session different]

/-- Ending a session clears the pointer of its connector, which is right if it is the newest. -/
theorem ended (points : books.Points connector dialled) {later : Dialled} {target : Nat}
    {fields : Session} (notClosed : (books.account target).isClosed = false)
    (newest : books.Newest connector target)
    (closed : fields.alive = false ∨ fields.isClosed = true)
    (counter : next.currentConnexindex = books.currentConnexindex)
    (numbered : target ≤ books.currentConnexindex)
    (account : next.account = Function.update books.account target fields)
    (pointer : next.connectSession connector =
      if (books.account target).owner = some (.connector connector) then none
      else books.connectSession connector)
    (latest_eq : later.latest = dialled.latest)
    (failed_eq : later.failed = dialled.failed ∨ later.failed = target :: dialled.failed) :
    next.Points connector later := by
  have notOpen : ¬next.Open target := by
    rintro ⟨alive, notClosed⟩
    rw [account, Function.update_self] at alive notClosed
    rcases closed with dead | isClosed
    · simp [dead] at alive
    · simp [isClosed] at notClosed
  have other : ∀ session, session ≠ target → next.account session = books.account session := by
    intro session different
    rw [account]
    exact Function.update_of_ne different _ _
  have failed_iff : ∀ session, session ≠ target →
      (session ∈ later.failed ↔ session ∈ dialled.failed) := by
    intro session different
    rcases failed_eq with same | added
    · rw [same]
    · rw [added, List.mem_cons, or_iff_right different]
  constructor
  · intro session latest
    rw [latest_eq] at latest
    rw [counter]
    exact points.numbered session latest
  · intro session failed
    rw [counter]
    by_cases same : session = target
    · exact same ▸ numbered
    · exact points.failed_numbered session ((failed_iff session same).mp failed)
  · intro session latest nextOpen
    have different : session ≠ target := by
      rintro rfl
      exact notOpen nextOpen
    rw [latest_eq] at latest
    rw [Open, other session different] at nextOpen
    rw [other session different]
    exact points.owner session latest nextOpen
  · intro session
    rw [pointer, latest_eq]
    split
    · next owned =>
        refine iff_of_false (by simp) ?_
        rintro ⟨latest, nextOpen, notFailed⟩
        have different : session ≠ target := by
          rintro rfl
          exact notOpen nextOpen
        rw [Open, other session different] at nextOpen
        rw [failed_iff session different] at notFailed
        have pointed := (points.points session).mpr ⟨latest, nextOpen, notFailed⟩
        exact different (newest notClosed owned session pointed)
    · next notOwned =>
        rw [points.points]
        have different_of_latest : dialled.latest connector = some session →
            books.Open session → session ≠ target := by
          rintro latest open_before rfl
          exact notOwned (points.owner session latest open_before)
        constructor
        · rintro ⟨latest, open_before, notFailed⟩
          have different := different_of_latest latest open_before
          rw [Open, other session different, failed_iff session different]
          exact ⟨latest, open_before, notFailed⟩
        · rintro ⟨latest, nextOpen, notFailed⟩
          have different : session ≠ target := by
            rintro rfl
            exact notOpen nextOpen
          rw [Open, other session different, failed_iff session different] at *
          exact ⟨latest, nextOpen, notFailed⟩

end Points

section Entries

variable {connector : Nat} {books : Books} {dialled : Dialled} {session : Nat}

theorem exit_connectSession :
    (books.exit session).connectSession connector =
      if (books.account session).owner = some (.connector connector) then none
      else books.connectSession connector := by
  have left (current : Books) (connIndex : Int) :
      (current.leave connIndex session).connectSession = current.connectSession := by
    rw [leave]
    split <;> rfl
  simp only [exit, left]
  rcases (books.account session).owner with _ | acceptor | other
  · rfl
  · rfl
  · simp only [tell, setConnectSession, Option.some.injEq, Owner.connector.injEq]
    split
    · next same =>
        subst same
        exact Function.update_self _ _ _
    · next different => exact Function.update_of_ne (Ne.symm different) _ _

theorem failed_connectSession {other : Nat}
    (owner : (books.account session).owner = some (.connector other)) :
    (books.post (.failed other session)).connectSession connector =
      if (books.account session).owner = some (.connector connector) then none
      else books.connectSession connector := by
  by_cases same : other = connector
  · subst same
    rw [if_pos owner]
    exact Function.update_self _ _ _
  · have different : (books.account session).owner ≠ some (.connector connector) := by
      rw [owner]
      simpa using same
    rw [if_neg different]
    exact Function.update_of_ne (Ne.symm same) _ _

theorem Points.exit (points : books.Points connector dialled)
    (notClosed : (books.account session).isClosed = false)
    (newest : books.Newest connector session) (numbered : session ≤ books.currentConnexindex) :
    (books.exit session).Points connector dialled := by
  apply points.ended notClosed newest (.inr _) (exit_currentConnexindex books session) numbered
    (exit_account books session) exit_connectSession rfl (.inl rfl)
  rfl

/-- Calls of another connector's are no matter. -/
theorem Points.of_history (points : books.Points connector dialled) {later : Dialled}
    (latest : later.latest connector = dialled.latest connector)
    (failed : later.failed = dialled.failed) : books.Points connector later := by
  constructor
  · rw [latest]
    exact points.numbered
  · rw [failed]
    exact points.failed_numbered
  · rw [latest]
    exact points.owner
  · rw [latest, failed]
    exact points.points

/-- `AsyncConnect` points the connector at the session it creates. -/
theorem Points.connecting (points : books.Points connector dialled) (other : Nat) :
    (books.post (.connecting other)).Points connector
      (books.enters dialled (.connecting other)) := by
  by_cases same : other = connector
  · subst same
    have latest_iff : ∀ session,
        (books.enters dialled (.connecting other)).latest other = some session ↔
          session = books.currentConnexindex + 1 := by
      intro session
      simp [enters, eq_comm]
    have created : (books.post (.connecting other)).account (books.currentConnexindex + 1) =
        { Session.construct (books.currentConnexindex + 1) with
          socketStatus := .connecting, connector := some other } :=
      Function.update_self _ _ _
    constructor
    · intro session latest
      exact Nat.le_of_eq ((latest_iff session).mp latest)
    · intro session failed
      exact Nat.le_succ_of_le (points.failed_numbered session failed)
    · intro session latest _
      rw [(latest_iff session).mp latest, created]
      rfl
    · intro session
      rw [latest_iff]
      have pointer : (books.post (.connecting other)).connectSession other =
          some (books.currentConnexindex + 1) := Function.update_self _ _ _
      rw [pointer, Option.some.injEq]
      constructor
      · rintro rfl
        refine ⟨rfl, ?_, ?_⟩
        · rw [Open, created]
          exact ⟨rfl, rfl⟩
        · intro failed
          have numbered := points.failed_numbered _ failed
          omega
      · rintro ⟨rfl, -, -⟩
        rfl
  · have pointer : (books.post (.connecting other)).connectSession connector =
        books.connectSession connector := Function.update_of_ne (Ne.symm same) _ _
    have grown : (books.post (.connecting other)).Points connector dialled :=
      points.allocated rfl pointer rfl
    refine grown.of_history ?_ rfl
    exact Function.update_of_ne (Ne.symm same) _ _

/-- `AsyncConnect` without memory clears the pointer. -/
theorem Points.unallocated (points : books.Points connector dialled) (other : Nat) :
    (books.post (.unallocated other)).Points connector
      (books.enters dialled (.unallocated other)) := by
  by_cases same : other = connector
  · subst same
    have latest : (books.enters dialled (.unallocated other)).latest other = none :=
      Function.update_self _ _ _
    have pointer : (books.post (.unallocated other)).connectSession other = none :=
      Function.update_self _ _ _
    constructor
    · simp [latest]
    · exact points.failed_numbered
    · simp [latest]
    · simp [latest, pointer]
  · have cleared : (books.post (.unallocated other)).Points connector dialled := by
      refine points.of_account (Nat.le_refl _) ?_ fun _ _ => rfl
      exact Function.update_of_ne (Ne.symm same) _ _
    refine cleared.of_history ?_ rfl
    exact Function.update_of_ne (Ne.symm same) _ _

/-- An attempt that fails after the service was stopped leaves the pointer as it is. -/
theorem Points.abandoned (points : books.Points connector dialled) {other target : Nat}
    (numbered : target ≤ books.currentConnexindex)
    (unpointed : books.connectSession connector ≠ some target) :
    (books.post (.abandoned other target)).Points connector
      (books.enters dialled (.abandoned other target)) := by
  refine ⟨points.numbered, ?_, points.owner, ?_⟩
  · intro session failed
    rcases List.mem_cons.mp failed with rfl | earlier
    · exact numbered
    · exact points.failed_numbered session earlier
  · intro session
    change books.connectSession connector = some session ↔ _
    constructor
    · intro pointed
      rcases (points.points session).mp pointed with ⟨latest, opened, notFailed⟩
      refine ⟨latest, opened, ?_⟩
      intro failed
      rcases List.mem_cons.mp failed with rfl | earlier
      · exact unpointed pointed
      · exact notFailed earlier
    · rintro ⟨latest, opened, notFailed⟩
      refine (points.points session).mpr ⟨latest, opened, ?_⟩
      intro failed
      exact notFailed (List.mem_cons_of_mem _ failed)

/-- Destroying sessions that are not pointed at keeps the pointer right. -/
theorem Points.culled (points : books.Points connector dialled) {next : Books}
    (counter : next.currentConnexindex = books.currentConnexindex)
    (pointer : next.connectSession connector = books.connectSession connector)
    (account : ∀ session, next.account session = books.account session ∨ ¬next.Open session)
    (pointed : ∀ session, books.connectSession connector = some session →
      next.account session = books.account session) : next.Points connector dialled := by
  have open_before : ∀ session, next.Open session →
      books.Open session ∧ next.account session = books.account session := by
    intro session nextOpen
    rcases account session with same | notOpen
    · rw [Open, same] at nextOpen
      exact ⟨nextOpen, same⟩
    · exact absurd nextOpen notOpen
  constructor
  · rw [counter]
    exact points.numbered
  · rw [counter]
    exact points.failed_numbered
  · intro session latest nextOpen
    rcases open_before session nextOpen with ⟨opened, same⟩
    rw [same]
    exact points.owner session latest opened
  · intro session
    rw [pointer]
    constructor
    · intro points_at
      rcases (points.points session).mp points_at with ⟨latest, opened, notFailed⟩
      refine ⟨latest, ?_, notFailed⟩
      rw [Open, pointed session points_at]
      exact opened
    · rintro ⟨latest, nextOpen, notFailed⟩
      exact (points.points session).mpr ⟨latest, (open_before session nextOpen).1, notFailed⟩

/-- Every entry that ends no older session keeps the pointer right. -/
theorem Points.post {entry : Entry} (points : books.Points connector dialled)
    (enables : books.Enables entry) (newest : books.EndsNewest connector entry) :
    (books.post entry).Points connector (books.enters dialled entry) := by
  have unowned : ∀ {target : Nat} {acceptor : Nat},
      books.Opening (.accept acceptor target) → (books.account target).connector = none →
        (books.account target).owner ≠ some (.connector connector) := by
    intro target acceptor opening connectorless
    have acceptorless : (books.account target).acceptor = none := opening.unaccepted
    simp [Session.owner, acceptorless, connectorless]
  cases entry with
  | listened acceptor => exact points.allocated rfl rfl rfl
  | stopListened acceptor => exact points.of_account (Nat.le_refl _) rfl fun _ _ => rfl
  | connecting other => exact points.connecting other
  | unallocated other => exact points.unallocated other
  | accepted acceptor target =>
      rcases enables with ⟨opening, idle, connectorless⟩
      have opened : books.Open target := by
        refine ⟨opening.alive, ?_⟩
        simp [Session.isClosed, idle]
      exact points.other (fun _ => unowned opening connectorless)
        (fun notOpen => absurd opened notOpen) (Nat.le_refl _) rfl rfl
  | dropped acceptor target =>
      rcases enables with ⟨opening, idle, connectorless⟩
      have notOwned := unowned opening connectorless
      refine points.other (fun _ => notOwned) (fun _ => .inr ?_) ?_ ?_ (exit_account _ target)
      · rfl
      · refine Nat.le_of_eq (Eq.symm ?_)
        exact exit_currentConnexindex _ target
      · refine exit_connectSession.trans ?_
        exact if_neg notOwned
  | refused acceptor target =>
      rcases enables with ⟨opening, idle, connectorless⟩
      exact points.other (fun _ => unowned opening connectorless) (fun _ => .inl rfl)
        (Nat.le_refl _) rfl rfl
  | rearmed acceptor => exact points.allocated rfl rfl rfl
  | connected other target =>
      rcases enables with ⟨opening, connecting, owned⟩
      have opened : books.Open target := by
        refine ⟨opening.alive, ?_⟩
        simp [Session.isClosed, connecting]
      have account : (books.post (.connected other target)).account =
          Function.update books.account target
            { books.account target with socketStatus := .connected } := rfl
      refine points.kept (Nat.le_refl _) rfl ?_ ?_
      · intro session _
        by_cases same : session = target
        · subst same
          refine iff_of_true ?_ opened
          rw [Open, account, Function.update_self]
          exact ⟨opening.alive, rfl⟩
        · rw [Open, Open, account, Function.update_of_ne same]
      · intro session _ _
        by_cases same : session = target
        · subst same
          rw [account, Function.update_self]
          rfl
        · rw [account, Function.update_of_ne same]
  | failed other target =>
      rcases enables with ⟨opening, connecting, owned⟩
      have acceptorless : (books.account target).acceptor = none := opening.unaccepted
      have owner : (books.account target).owner = some (.connector other) := by
        simp [Session.owner, acceptorless, owned]
      have notClosed : (books.account target).isClosed = false := by
        simp [Session.isClosed, connecting]
      refine points.ended notClosed newest (.inl ?_) rfl opening.numbered
        (failed_account books other target) (failed_connectSession owner) rfl (.inr rfl)
      rfl
  | abandoned other target => exact points.abandoned enables.1.numbered newest
  | delayed target => exact points.of_account (Nat.le_refl _) rfl fun _ _ => rfl
  | exited target =>
      apply points.exit _ newest enables.numbered
      simp [Session.isClosed, enables.connected]
  | expired target =>
      simp only [Books.post, enters]
      split
      · exact points.of_account (Nat.le_refl _) rfl fun _ _ => rfl
      · next notClosed =>
          have discharged : (books.discharge (.exit target)).Points connector dialled :=
            points.of_account (Nat.le_refl _) rfl fun _ _ => rfl
          exact discharged.exit (Bool.eq_false_iff.mpr notClosed) newest enables.1.numbered
  | destroyed target =>
      refine points.other ?_ (fun _ => .inl rfl) (Nat.le_refl _) rfl rfl
      rintro ⟨-, notClosed⟩
      simp [Session.isClosed, enables.2] at notClosed
  | stopped => exact points.of_account (Nat.le_refl _) rfl fun _ _ => rfl

/-- Ending an older session clears the pointer to a newer one. -/
theorem Points.not_ended {next : Books} {later : Dialled} {target : Nat} {fields : Session}
    (points : books.Points connector dialled)
    (older : ¬books.Newest connector target)
    (account : next.account = Function.update books.account target fields)
    (pointer : next.connectSession connector =
      if (books.account target).owner = some (.connector connector) then none
      else books.connectSession connector)
    (latest_eq : later.latest = dialled.latest)
    (failed_eq : later.failed = dialled.failed ∨ later.failed = target :: dialled.failed) :
    ¬next.Points connector later := by
  intro nextPoints
  apply older
  intro _ owned newest pointed
  by_contra different
  rcases (points.points newest).mp pointed with ⟨latest, opened, notFailed⟩
  have nextOpen : next.Open newest := by
    rw [Open, account, Function.update_of_ne different]
    exact opened
  have nextNotFailed : newest ∉ later.failed := by
    rcases failed_eq with same | added
    · rwa [same]
    · rw [added, List.mem_cons]
      exact not_or.mpr ⟨different, notFailed⟩
  have points_at := (nextPoints.points newest).mpr ⟨latest_eq ▸ latest, nextOpen, nextNotFailed⟩
  rw [pointer, if_pos owned] at points_at
  contradiction

/-- Exactly the entries that end an older session make the pointer wrong. -/
theorem Points.post_iff {entry : Entry} (points : books.Points connector dialled)
    (enables : books.Enables entry) :
    (books.post entry).Points connector (books.enters dialled entry) ↔
      books.EndsNewest connector entry := by
  refine ⟨?_, points.post enables⟩
  intro posted
  by_contra older
  cases entry with
  | failed other target =>
      rcases enables with ⟨opening, connecting, owned⟩
      have owner : (books.account target).owner = some (.connector other) := by
        have acceptorless : (books.account target).acceptor = none := opening.unaccepted
        simp [Session.owner, acceptorless, owned]
      refine absurd posted ?_
      exact points.not_ended older (failed_account books other target)
        (failed_connectSession owner) rfl (.inr rfl)
  | abandoned other target =>
      have pointed : books.connectSession connector = some target := not_not.mp older
      exact ((posted.points target).mp pointed).2.2 List.mem_cons_self
  | exited target =>
      refine absurd posted ?_
      exact points.not_ended older (exit_account books target) exit_connectSession rfl (.inl rfl)
  | expired target =>
      by_cases closed : (books.account target).isClosed = true
      · apply older
        intro notClosed
        rw [closed] at notClosed
        contradiction
      · refine absurd posted ?_
        simp only [Books.post, closed, Bool.false_eq_true, if_false]
        exact points.not_ended older (exit_account _ target) exit_connectSession rfl (.inl rfl)
  | _ => exact older trivial

end Entries

end Books

/-! ## The steps -/

namespace World

variable {U : Type} {callbacks : Callbacks U} {connector : Nat} {world : World U}
  {dialled : Dialled}

theorem dials_eq (world : World U) (dialled : Dialled) (call : ApiCall) :
    world.dials dialled call =
      (world.entry call).elim dialled (world.books.enters dialled) := by
  cases call with
  | send connectID encode => rfl
  | closeSocket connectID =>
      simp only [dials, entry]
      cases world.getSession connectID <;> rfl
  | asyncClose connectID waitSeconds =>
      simp only [dials, entry]
      cases world.getSession connectID with
      | none => rfl
      | some session =>
          simp only [Option.map_some, Option.elim_some]
          split <;> rfl
  | startListen acceptor memory =>
      simp only [dials, entry]
      split <;> rfl
  | stopListen acceptor failed => cases failed <;> rfl
  | asyncConnect other memory =>
      simp only [dials, entry]
      split
      · rfl
      · cases memory <;> rfl
  | disConnect other =>
      simp only [dials, entry]
      cases world.connectSession other with
      | none => rfl
      | some target =>
          simp only [Option.bind_some]
          cases world.getSession (world.poolSession target).connIndex <;> rfl

/-- What a call enters ends no older session if what it closes is none. -/
theorem endsNewest_entry {call : ApiCall} (newest : world.CallEndsNewest connector call)
    {made : Entry} (makes : world.entry call = some made) :
    world.books.EndsNewest connector made := by
  cases call with
  | send connectID encode => contradiction
  | closeSocket connectID =>
      simp only [entry, Option.map_eq_some_iff] at makes
      rcases makes with ⟨session, found, rfl⟩
      exact newest session found
  | asyncClose connectID waitSeconds =>
      simp only [entry, Option.map_eq_some_iff] at makes
      rcases makes with ⟨session, found, rfl⟩
      split
      · trivial
      · next immediate => exact newest (not_not.mp immediate) session found
  | startListen acceptor memory =>
      simp only [entry, Option.ite_none_left_eq_some, Option.some.injEq] at makes
      rcases makes with ⟨-, rfl⟩
      trivial
  | stopListen acceptor failed =>
      simp only [entry, Option.ite_none_left_eq_some, Option.some.injEq] at makes
      rcases makes with ⟨-, rfl⟩
      trivial
  | asyncConnect other memory =>
      simp only [entry, Option.ite_none_left_eq_some, Option.some.injEq] at makes
      rcases makes with ⟨-, rfl⟩
      cases memory <;> trivial
  | disConnect other =>
      simp only [entry, Option.bind_eq_some_iff, Option.map_eq_some_iff] at makes
      rcases makes with ⟨target, pointed, session, found, rfl⟩
      exact newest target pointed session found

theorem points_perform {call : ApiCall} (sound : world.toLifecycle.Sound)
    (newest : world.CallEndsNewest connector call)
    (points : world.books.Points connector dialled) :
    (world.perform callbacks call).books.Points connector (world.dials dialled call) := by
  rw [books_perform sound, dials_eq]
  cases makes : world.entry call with
  | none => exact points
  | some made => exact points.post (enables_entry sound makes) (endsNewest_entry newest makes)

theorem points_performs {calls : List ApiCall} (sound : world.toLifecycle.Sound)
    (newest : CallsEndNewest callbacks connector world calls)
    (points : world.books.Points connector dialled) :
    (calls.foldl (perform callbacks) world).books.Points connector
        (dialsAll callbacks world dialled calls) := by
  induction calls generalizing world dialled with
  | nil => exact points
  | cons call rest ih =>
      have moves : Lifecycle.ApiMoves .all world.toLifecycle
          (world.perform callbacks call).toLifecycle := perform_moves sound fun _ => trivial
      exact ih (sound.apiMoves moves) newest.2 (points_perform sound newest.1 points)

/-- The entry that a handler makes before it makes any calls. -/
def ownEntry (completion : Completion) (world : World U) : Handler → Option Entry
  | .handleAccept acceptor session =>
      some (if completion.error ≠ 0 then .refused acceptor session
        else firstEntry completion acceptor session)
  | .handleConnect connector session =>
      some (if completion.error = 0 then .connected connector session
        else if world.stopSocketFlag then .abandoned connector session
        else .failed connector session)
  | .handleReadSp _ _ => none
  | .handleWrite _ _ => none
  | .handleExit session _ => some (.expired session)
  | .handleDestory session _ => some (.destroyed session)

/-- Nothing more is entered, except that the next client is to be accepted. -/
def Settles (books next : Books) : Prop :=
  next = books ∨ ∃ acceptor, books.Fresh ∧ next = books.post (.rearmed acceptor)

/-- What a handler enters: its own entry, if any, and then those of its calls. -/
structure Turn (callbacks : Callbacks U) (world : World U) (own : Option Entry)
    (made : World U × List ApiCall) (next : World U) : Prop where
  enables : ∀ entry, own = some entry → world.books.Enables entry
  settles : made.2 = [] ∧ Settles (own.elim world.books world.books.post) next.books ∨
    made.1.books = own.elim world.books world.books.post ∧
      Settles (made.2.foldl (perform callbacks) made.1).books next.books

section Handlers

variable {before after : List Handler} {completion : Completion}

theorem settles_acceptNext {current : World U} (sound : current.toLifecycle.Sound)
    (acceptor : Nat) (memory : Bool) :
    Settles current.books (current.acceptNext acceptor memory).books := by
  rw [books_acceptNext]
  split
  · exact .inr ⟨acceptor, fresh_books sound, rfl⟩
  · exact .inl rfl

theorem turn_handleAccept {acceptor session : Nat} (sound : world.toLifecycle.Sound)
    (split : world.pending = before ++ .handleAccept acceptor session :: after) :
    Turn callbacks world
      ((world.take (before ++ after)).ownEntry completion (.handleAccept acceptor session))
      ((world.take (before ++ after)).callsOf callbacks completion
        (.handleAccept acceptor session))
      ((world.take (before ++ after)).handleAccept callbacks acceptor session completion) := by
  by_cases failed : completion.error = 0
  · have counted : ((world.take (before ++ after)).count fun s =>
        { s with totalConneced := s.totalConneced + 1 }).toLifecycle =
          world.toLifecycle.take (before ++ after) := rfl
    constructor
    · rintro entry own
      simp only [ownEntry, failed, ne_eq, not_true_eq_false, if_false, Option.some.injEq] at own
      exact own ▸ enables_firstEntry sound split completion
    · cases remote : completion.remoteError with
      | true =>
          left
          have drops : Lifecycle.Moves .all world.toLifecycle _ :=
            @dropped_moves U callbacks .all _ _ before after acceptor session sound split counted
          simp only [ownEntry, callsOf, handleAccept, firstEntry, failed, remote, ne_eq,
            not_true_eq_false, if_false, or_true, if_true, Option.elim_some]
          rw [← books_dropped sound split]
          exact ⟨trivial, settles_acceptNext (sound.moves drops) acceptor _⟩
      | false =>
          right
          have serves : Lifecycle.Moves .all world.toLifecycle _ :=
            @acceptClient_moves U callbacks .all _ _ before after acceptor session
              completion.upperMemory sound split counted trivial fun _ _ _ => trivial
          simp only [ownEntry, callsOf, handleAccept, firstEntry, failed, remote, ne_eq,
            not_true_eq_false, if_false, or_self, Bool.false_eq_true, Option.elim_some]
          rw [← books_accepting split]
          refine ⟨rfl, ?_⟩
          rw [acceptClient_eq sound split counted] at serves ⊢
          have settles := settles_acceptNext (sound.moves serves) acceptor completion.memory
          rw [books_start] at settles
          exact settles
  · constructor
    · rintro entry own
      simp only [ownEntry, failed, ne_eq, not_false_eq_true, if_true, Option.some.injEq] at own
      exact own ▸ accepting_books sound split
    · left
      simp only [ownEntry, callsOf, failed, ne_eq, not_false_eq_true, true_or, if_true,
        Option.elim_some]
      exact ⟨trivial, .inl (books_refused split failed)⟩

theorem turn_handleConnect {other session : Nat} (sound : world.toLifecycle.Sound)
    (engaged : world.toLifecycle.Engaged)
    (split : world.pending = before ++ .handleConnect other session :: after) :
    Turn callbacks world
      ((world.take (before ++ after)).ownEntry completion (.handleConnect other session))
      ((world.take (before ++ after)).callsOf callbacks completion (.handleConnect other session))
      ((world.take (before ++ after)).handleConnect callbacks other session completion) := by
  constructor
  · rintro entry own
    simp only [ownEntry, Option.some.injEq] at own
    subst own
    split
    · exact connecting_books sound engaged split
    · split <;> exact connecting_books sound engaged split
  · by_cases failed : completion.error = 0
    · right
      simp only [ownEntry, callsOf, handleConnect, failed, ne_eq, not_true_eq_false, if_true,
        if_false, Option.elim_some]
      rw [← books_connecting split]
      exact ⟨rfl, .inl rfl⟩
    · by_cases stopped : (world.take (before ++ after)).stopSocketFlag = true
      · left
        simp only [ownEntry, callsOf, handleConnect, failed, ne_eq, not_false_eq_true, if_true,
          if_false, stopped, Option.elim_some]
        exact ⟨trivial, .inl (books_take split rfl)⟩
      · right
        simp only [ownEntry, callsOf, handleConnect, failed, ne_eq, not_false_eq_true, if_true,
          if_false, stopped, Bool.false_eq_true, Option.elim_some]
        rw [← books_refuse split]
        exact ⟨rfl, .inl rfl⟩

theorem settles_deliver {session : Nat} {message : Option (NetMsg × Int)} (current : World U) :
    (current.callsOnRead callbacks session message).2 = [] ∧
        (current.deliver callbacks session message).books = current.books ∨
      (current.callsOnRead callbacks session message).1.books = current.books ∧
        (current.deliver callbacks session message).books =
          ((current.callsOnRead callbacks session message).2.foldl (perform callbacks)
            (current.callsOnRead callbacks session message).1).books := by
  rcases message with _ | ⟨msg, length⟩
  · exact .inl ⟨rfl, rfl⟩
  · have owner : (((current.count fun s =>
        { s with totalMsgRecvCount := s.totalMsgRecvCount + 1 }).use session).poolSession
          session).owner = (current.poolSession session).owner := rfl
    simp only [callsOnRead, deliver, onReadComplete, owner]
    cases (current.poolSession session).owner with
    | none => exact .inl ⟨rfl, rfl⟩
    | some owner => exact .inr ⟨rfl, rfl⟩

theorem turn_handleReadSp {session : Nat} {receive : Receive} (sound : world.toLifecycle.Sound)
    (split : world.pending = before ++ .handleReadSp session receive :: after) :
    Turn callbacks world none
      ((world.take (before ++ after)).callsOf callbacks completion (.handleReadSp session receive))
      ((world.take (before ++ after)).handleReadSp callbacks session receive completion) := by
  have counted : ((world.take (before ++ after)).countRecv receive).books = world.books :=
    books_take_of_none split rfl
  have flag : (world.take (before ++ after)).stopSocketFlag =
      ((world.take (before ++ after)).countRecv receive).stopSocketFlag := rfl
  have fields : (world.take (before ++ after)).poolSession session =
      ((world.take (before ++ after)).countRecv receive).poolSession session := rfl
  refine ⟨by simp, ?_⟩
  simp only [callsOf, flag, fields, Option.elim_none]
  rcases @handleReadSp_cases U callbacks .all world.toLifecycle (world.take (before ++ after))
    before after completion session receive sound split rfl with
    ⟨stopped, unchanged⟩ | ⟨starts, ⟨closed, used⟩ | ⟨outcome, next, decides, finishes⟩⟩
  · left
    rw [unchanged, if_pos (.inl stopped)]
    exact ⟨rfl, .inl counted⟩
  · left
    rw [used, if_pos (.inr closed)]
    exact ⟨rfl, .inl counted⟩
  · rw [finishes, if_neg (by simp [decides.running, decides.notClosed])]
    have stays := decides.stays
    have posts := decides.posts
    rcases decides.decided with rfl
    simp only [finishReadSp, stays, posts, Bool.false_eq_true, if_false, receiveSp]
    rw [books_post, books_use]
    generalize storing_eq : (((world.take (before ++ after)).countRecv receive).use session).modify
      session _ = storing
    have stored : storing.books = world.books := by
      rw [← storing_eq, books_modify, ← counted]
      exact Books.setAccount_same rfl
    rw [← stored]
    subst storing_eq
    rcases @settles_deliver U callbacks session _ _ with ⟨quiet, delivers⟩ | ⟨same, delivers⟩
    · exact .inl ⟨quiet, .inl delivers⟩
    · exact .inr ⟨same, .inl delivers⟩

theorem settles_onSend {session : Nat} {length : Int} (current : World U) :
    (current.callsOnSend callbacks session length).2 = [] ∧
        (current.onSend callbacks session length).books = current.books ∨
      (current.callsOnSend callbacks session length).1.books = current.books ∧
        (current.onSend callbacks session length).books =
          ((current.callsOnSend callbacks session length).2.foldl (perform callbacks)
            (current.callsOnSend callbacks session length).1).books := by
  have owner : ((current.use session).poolSession session).owner =
      (current.poolSession session).owner := rfl
  simp only [callsOnSend, onSend, owner]
  cases (current.poolSession session).owner with
  | none => exact .inl ⟨rfl, rfl⟩
  | some owner => exact .inr ⟨rfl, rfl⟩

theorem turn_handleWrite {session : Nat} {length : Int}
    (split : world.pending = before ++ .handleWrite session length :: after) :
    Turn callbacks world none
      ((world.take (before ++ after)).callsOf callbacks completion (.handleWrite session length))
      ((world.take (before ++ after)).handleWrite callbacks session length completion) := by
  have taken : ((world.take (before ++ after)).use session).books = world.books :=
    books_take_of_none split rfl
  have fields : ((world.take (before ++ after)).use session).poolSession =
      (world.take (before ++ after)).poolSession := rfl
  refine ⟨by simp, ?_⟩
  simp only [callsOf, handleWrite, fields, Option.elim_none]
  split
  · exact .inl ⟨rfl, .inl taken⟩
  · rw [books_count_traffic, ← taken]
    · rcases @settles_onSend U callbacks session length
        ((world.take (before ++ after)).use session) with ⟨quiet, sends⟩ | ⟨same, sends⟩
      · exact .inl ⟨quiet, .inl sends⟩
      · exact .inr ⟨same, .inl sends⟩
    · intro statistics
      split <;> rfl

theorem turn_handle {handler : Handler} (sound : world.toLifecycle.Sound)
    (engaged : world.toLifecycle.Engaged)
    (split : world.pending = before ++ handler :: after) :
    Turn callbacks world ((world.take (before ++ after)).ownEntry completion handler)
      ((world.take (before ++ after)).callsOf callbacks completion handler)
      (handle callbacks completion (world.take (before ++ after)) handler) := by
  have ends : ∀ {entry : Entry} {next : World U}, world.books.Enables entry →
      next.books = world.books.post entry →
        Turn callbacks world (some entry) (world.take (before ++ after), []) next := by
    intro entry next enables posts
    refine ⟨?_, .inl ⟨rfl, .inl posts⟩⟩
    rintro other same
    rcases Option.some.inj same with rfl
    exact enables
  cases handler with
  | handleAccept acceptor session => exact turn_handleAccept sound split
  | handleConnect other session => exact turn_handleConnect sound engaged split
  | handleReadSp session receive => exact turn_handleReadSp sound split
  | handleWrite session length => exact turn_handleWrite split
  | handleExit session wait =>
      exact ends (expiring_books sound engaged split) (books_expired split)
  | handleDestory session wait =>
      exact ends (destroying_books sound split) (books_destroyed split)

theorem fails_eq (completion : Completion) (dialled : Dialled) (world : World U)
    (books : Books) (handler : Handler) :
    fails completion dialled handler =
      (world.ownEntry completion handler).elim dialled (books.enters dialled) := by
  cases handler with
  | handleAccept acceptor session =>
      simp only [fails, ownEntry, firstEntry, Option.elim_some]
      split
      · rfl
      · split <;> rfl
  | handleConnect other session =>
      simp only [fails, ownEntry, Option.elim_some, ne_eq, ite_not]
      split
      · rfl
      · split <;> rfl
  | _ => rfl

/-- What a handler enters itself ends no older session if what it ends is none. -/
theorem endsNewest_ownEntry {handler : Handler} {entry : Entry}
    (newest : world.HandlerEndsNewest connector completion handler)
    (own : world.ownEntry completion handler = some entry) :
    world.books.EndsNewest connector entry := by
  cases handler with
  | handleAccept acceptor session =>
      simp only [ownEntry, firstEntry, Option.some.injEq] at own
      subst own
      split
      · trivial
      · split <;> trivial
  | handleConnect other session =>
      simp only [ownEntry, Option.some.injEq] at own
      subst own
      split
      · trivial
      · next failed =>
          have ends := newest failed
          split
          · next stopped =>
              rw [if_pos stopped] at ends
              exact ends
          · next running =>
              rw [if_neg running] at ends
              exact ends
  | handleReadSp session receive => contradiction
  | handleWrite session length => contradiction
  | handleExit session wait =>
      simp only [ownEntry, Option.some.injEq] at own
      subst own
      exact newest
  | handleDestory session wait =>
      simp only [ownEntry, Option.some.injEq] at own
      subst own
      trivial

theorem points_handle {handler : Handler} (sound : world.toLifecycle.Sound)
    (engaged : world.toLifecycle.Engaged) (split : world.pending = before ++ handler :: after)
    (own : world.HandlerEndsNewest connector completion handler)
    (called : CallsEndNewest callbacks connector
      ((world.take (before ++ after)).callsOf callbacks completion handler).1
      ((world.take (before ++ after)).callsOf callbacks completion handler).2)
    (points : world.books.Points connector dialled) :
    (handle callbacks completion (world.take (before ++ after)) handler).books.Points connector
      (dialsAll callbacks ((world.take (before ++ after)).callsOf callbacks completion handler).1
        (fails completion dialled handler)
        ((world.take (before ++ after)).callsOf callbacks completion handler).2) := by
  have turn := @turn_handle U callbacks world before after completion handler sound engaged split
  have madeSound := (@splits_handle U callbacks 0 world before after completion handler sound
    split).sound
  have settled : ∀ {books next : Books} {dialled : Dialled}, Settles books next →
      books.Points connector dialled → next.Points connector dialled := by
    rintro books next dialled (rfl | ⟨acceptor, fresh, rfl⟩) holds
    · exact holds
    · exact holds.post fresh trivial
  have entered : ((world.take (before ++ after)).ownEntry completion handler).elim world.books
      world.books.post |>.Points connector (fails completion dialled handler) := by
    rw [fails_eq completion dialled (world.take (before ++ after)) world.books]
    have same : (world.take (before ++ after)).ownEntry completion handler =
        world.ownEntry completion handler := by cases handler <;> rfl
    rw [same] at turn ⊢
    cases made : world.ownEntry completion handler with
    | none => exact points
    | some entry =>
        exact points.post (turn.enables entry made) (endsNewest_ownEntry own made)
  rcases turn.settles with ⟨quiet, settles⟩ | ⟨opens, settles⟩
  · rw [quiet]
    exact settled settles entered
  · rw [← opens] at entered
    exact settled settles (points_performs madeSound called entered)

end Handlers

theorem points_step {next : World U} {label : Label} (sound : world.toLifecycle.Sound)
    (engaged : world.toLifecycle.Engaged) (steps : world.step callbacks label = some next)
    (newest : StepEndsNewest callbacks connector (world, dialled) label)
    (points : world.books.Points connector dialled) :
    next.books.Points connector
      (dialsAll callbacks (world.calls callbacks label).1 (world.answers dialled label)
        (world.calls callbacks label).2) := by
  rcases newest with ⟨own, called⟩
  cases label with
  | complete index completion =>
      rcases complete_cases steps with ⟨handler, before, after, at_index, split, others, rfl⟩
      simp only [calls, answers, at_index, others] at called ⊢
      exact points_handle sound engaged split (own handler at_index) called points
  | call call =>
      simp only [step, Option.some.injEq] at steps
      subst steps
      exact points_performs sound called points
  | tick seconds =>
      simp only [step, Option.some.injEq] at steps
      subst steps
      exact points
  | stop =>
      simp only [step, Option.some.injEq] at steps
      subst steps
      exact points.of_account (Nat.le_refl _) rfl fun _ _ => rfl
  | removeAll =>
      simp only [step, Option.some.injEq] at steps
      subst steps
      have life := removeAllSession_toLifecycle world
      have connectors : world.removeAllSession.connectSession = world.connectSession := by
        have folded (entries : List (Sigma fun _ : Int => Nat)) (current : World U) :
            (entries.foldl (fun world entry => world.destroySession entry.2)
              current).connectSession = current.connectSession := by
          induction entries generalizing current with
          | nil => rfl
          | cons entry rest ih => exact ih (current.destroySession entry.2)
        exact folded _ world
      have pool : ∀ session, world.removeAllSession.poolSession session =
          if session ∈ world.mapSession.entries.map Sigma.snd then
            (world.poolSession session).destruct
          else world.poolSession session := by
        intro session
        rw [life]
        exact Lifecycle.destroyAll_poolSession _ _ session
      refine points.culled ?_ ?_ ?_ ?_
      · change world.removeAllSession.currentConnexindex = world.currentConnexindex
        rw [life]
        exact Lifecycle.destroyAll_currentConnexindex _ _
      · change world.removeAllSession.connectSession connector = world.connectSession connector
        rw [connectors]
      · intro session
        simp only [books, Books.Open, pool]
        split
        · right
          rintro ⟨alive, -⟩
          exact Bool.noConfusion alive
        · exact .inl rfl
      · intro session pointed
        have unmapped : session ∉ world.mapSession.entries.map Sigma.snd := by
          intro mem
          rcases List.mem_map.mp mem with ⟨entry, entry_mem, rfl⟩
          exact own entry entry_mem pointed
        simp only [books, pool, if_neg unmapped]
  | release =>
      simp only [step, Option.ite_none_right_eq_some, Option.some.injEq] at steps
      rcases steps with ⟨_, rfl⟩
      refine points.culled rfl rfl ?_ ?_
      · intro session
        right
        rintro ⟨alive, -⟩
        exact Bool.noConfusion alive
      · intro session pointed
        have unpointed : world.connectSession connector = none := own
        have points_at : world.connectSession connector = some session := pointed
        rw [unpointed] at points_at
        contradiction

theorem PointsAtNewest.of_points (points : world.books.Points connector dialled) :
    PointsAtNewest connector world dialled where
  null := by
    have live : ∀ session, ¬world.Ended dialled session ↔
        world.books.Open session ∧ session ∉ dialled.failed := by
      intro session
      rw [Ended, not_or, not_not]
      exact And.comm
    constructor
    · intro null session latest
      by_contra alive
      rcases (live session).mp alive with ⟨opened, notFailed⟩
      have pointed := (points.points session).mpr ⟨latest, opened, notFailed⟩
      have unpointed : world.books.connectSession connector = none := null
      rw [unpointed] at pointed
      contradiction
    · intro ended
      cases pointed : world.connectSession connector with
      | none => rfl
      | some session =>
          rcases (points.points session).mp pointed with ⟨latest, opened, notFailed⟩
          exact absurd (ended session latest) ((live session).mpr ⟨opened, notFailed⟩)
  newest session pointed := ((points.points session).mp pointed).1

/-- As long as no session of a connector ends while the connector points at another one, the
connector points at the session of its latest `AsyncConnect` until that session ends. -/
theorem pointsAtNewest_of_endsNewest {Upper : U → Prop} {connector : Nat} {both : World U × Dialled}
    (reached : (diallingService callbacks Upper).ReachableBy (StepEndsNewest callbacks connector)
      both) : PointsAtNewest connector both.1 both.2 := by
  let points (world : World U) (dialled : Dialled) : Prop :=
    world.books.Points connector dialled
  have starts : ∀ world, (service callbacks Upper).Initial world →
      points world ⟨fun _ => none, []⟩ := by
    rintro world ⟨upper, _, rfl⟩
    constructor <;> simp [books, initial]
  have holds : points both.1 both.2 := by
    refine reached.history_invariant (fun _ _ _ => trivial)
      (fun _ => engaged_of_reachable) starts ?_
    rintro world dialled label next ⟨sound, engaged⟩ points newest steps
    exact points_step sound engaged steps newest points
  exact .of_points holds

/-- A connection attempt fails, and the connector's next one succeeds. -/
theorem pointsAtNewest_after_retry :
    ∃ both : World Unit × Dialled, PointsAtNewest 0 both.1 both.2 ∧
      both.1.connectSession 0 = some 3 ∧ both.2.failed = [2] := by
  have starts : (diallingService .silent fun _ => True).Initial (initial (), ⟨fun _ => none, []⟩) :=
    ⟨⟨(), trivial, rfl⟩, rfl⟩
  have meets : (diallingService .silent fun _ => True).RunMeets (StepEndsNewest .silent 0)
      (initial (), ⟨fun _ => none, []⟩)
      [.call (.asyncConnect 0 true), .complete 0 (.failure 1), .call (.asyncConnect 0 true),
        .complete 0 (.success [])] := by
    refine ⟨⟨trivial, ⟨trivial, trivial⟩⟩, ?_⟩
    intro dialling dials
    rcases Option.some.inj dials with rfl
    refine ⟨⟨?_, trivial⟩, ?_⟩
    · intro handler at_index
      rcases Option.some.inj at_index with rfl
      intro _ _ _ newest pointed
      exact (Option.some.inj pointed).symm
    · intro failed fails
      rcases Option.some.inj fails with rfl
      refine ⟨⟨trivial, ⟨trivial, trivial⟩⟩, ?_⟩
      intro redialling dials
      rcases Option.some.inj dials with rfl
      refine ⟨⟨?_, trivial⟩, fun _ _ => trivial⟩
      intro handler at_index
      rcases Option.some.inj at_index with rfl
      intro failed
      exact absurd rfl failed
  have runs : ∃ both, (diallingService .silent fun _ => True).run
      (initial (), ⟨fun _ => none, []⟩)
      [.call (.asyncConnect 0 true), .complete 0 (.failure 1), .call (.asyncConnect 0 true),
        .complete 0 (.success [])] = some both ∧ both.1.connectSession 0 = some 3 ∧
          both.2.failed = [2] :=
    ⟨_, rfl, rfl, rfl⟩
  rcases runs with ⟨both, runs, pointed, failed⟩
  have reached := Transition.System.ReachableBy.run (.initial starts) meets runs
  exact ⟨both, pointsAtNewest_of_endsNewest reached, pointed, failed⟩

/-- Two connection attempts are made at once, and the first of them fails: the connector points at
neither. -/
theorem loses_newest_when_older_fails :
    ∃ both, (diallingService .silent fun _ => True).Reachable both ∧
      ¬PointsAtNewest 0 both.1 both.2 := by
  have starts : (diallingService .silent fun _ => True).Initial (initial (), ⟨fun _ => none, []⟩) :=
    ⟨⟨(), trivial, rfl⟩, rfl⟩
  have runs : ∃ both, (diallingService .silent fun _ => True).run
      (initial (), ⟨fun _ => none, []⟩)
      [.call (.asyncConnect 0 true), .call (.asyncConnect 0 true),
        .complete 0 (.failure 1)] = some both ∧ both.1.connectSession 0 = none ∧
          both.2.latest 0 = some 3 ∧ both.2.failed = [2] ∧ both.1.IsOpen 3 :=
    ⟨_, rfl, rfl, rfl, rfl, rfl, rfl⟩
  rcases runs with ⟨both, runs, null, latest, failed, opened⟩
  refine ⟨both, Transition.System.reachable_of_run starts runs, ?_⟩
  intro points
  rcases points.null.mp null 3 latest with failedToo | closed
  · simp [failed] at failedToo
  · exact closed opened

end World

end SunPush
