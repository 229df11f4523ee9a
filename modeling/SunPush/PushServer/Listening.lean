import SunPush.PushServer.Tracking
import SunPush.Session.Counters

/-!
# Listening acceptors

Which acceptors listen, as a history of the calls of `StartListen` and
`StopListen`.  A listening acceptor has one accept pending, as long as none
completes with an error: `handle_accept` then destroys the session it accepted
into, and returns without accepting the next client.
-/

namespace SunPush

/-! ## The calls of the push server -/

/-- The calls that name a session. -/
def ApiCall.NamesSession : ApiCall → Prop
  | send _ _ => True
  | closeSocket _ => True
  | asyncClose _ _ => True
  | _ => False

namespace Server

theorem namesSession_kickUser (server : Server) (user : Nat) :
    ∀ call ∈ (server.kickUser user).2, call.NamesSession := by
  intro call call_mem
  simp only [kickUser, List.mem_append, List.mem_singleton] at call_mem
  rcases call_mem with announced | rfl
  · split at announced
    · rw [List.mem_singleton] at announced
      subst announced
      trivial
    · contradiction
  · trivial

theorem namesSession_parsePacketCS (server : Server) (user : Nat) (msg : Memory) (size : UInt16) :
    ∀ call ∈ (server.parsePacketCS user msg size).2, call.NamesSession := by
  simp only [parsePacketCS, handlerC2SUserAuthSyn, handlerC2STestOrderSyn, sendToClient, send]
  split
  · split
    · exact namesSession_kickUser server user
    · simp [ApiCall.NamesSession]
  · split
    · split
      · exact namesSession_kickUser server user
      · simp [ApiCall.NamesSession]
    · simp

theorem namesSession_parsePacketWS (server : Server) (connIndex : Int) (msg : Memory) :
    ∀ call ∈ (server.parsePacketWS connIndex msg).2, call.NamesSession := by
  simp only [parsePacketWS, handlerW2SWsConnectedCmd, handlerW2SAuthResultAck,
    handlerW2SNewOrderBrdCmd, send]
  split
  · simp [ApiCall.NamesSession]
  · split
    · simp
    · split <;> simp [ApiCall.NamesSession]

/-- The callbacks of the push server neither listen nor connect. -/
theorem make_namesSession : callbacks.Make ApiCall.NamesSession where
  onAccept acceptor connIndex memory server := by
    simp only [callbacks, onAccept, send]
    split <;> simp [ApiCall.NamesSession]
  onConnect connector connIndex errorCode server := by
    simp [callbacks, onConnect]
  onReadComplete owner connIndex msg length server := by
    cases owner with
    | acceptor acceptor =>
        simp only [callbacks, onClientReadComplete]
        split
        · simp
        · split
          · simp [ApiCall.NamesSession]
          · exact namesSession_parsePacketCS server _ msg.bufMsg _
    | connector connector =>
        simp only [callbacks, onWebReadComplete]
        split
        · simp
        · exact namesSession_parsePacketWS server connIndex msg.bufMsg
  onSend owner connIndex length server := by
    simp [callbacks]

end Server

theorem entry_of_namesSession {U : Type} {world : World U} {call : ApiCall}
    (names : call.NamesSession) {made : Entry} (makes : world.entry call = some made) :
    ∃ session, made = .delayed session ∨ made = .exited session := by
  cases World.makes_of_entry makes with
  | closed connectID session => exact ⟨session, .inr rfl⟩
  | delayed connectID waitSeconds session later => exact ⟨session, .inl rfl⟩
  | closedNow connectID session => exact ⟨session, .inr rfl⟩
  | _ => exact absurd names id

/-! ## The acceptors -/

/-- The acceptors that listen, and those whose socket `StopListen` has closed. -/
structure Listeners where
  listening : Finset Nat
  closed : Finset Nat

namespace Listeners

/-- What a step does to the acceptors.  A socket that `StopListen` has closed is not opened again,
and does not listen. -/
def update {U : Type} (listeners : Listeners) (world : World U) : Label → Listeners
  | .call (.startListen acceptor memory) =>
      if world.stopSocketFlag ∨ memory = false ∨ acceptor ∈ listeners.closed then listeners
      else { listeners with listening := insert acceptor listeners.listening }
  | .call (.stopListen acceptor failed) =>
      if failed then listeners
      else
        { listening := listeners.listening.erase acceptor
          closed := insert acceptor listeners.closed }
  | _ => listeners

end Listeners

namespace Handler

/-- The handler accepts a client of the acceptor. -/
def accepts (acceptor : Nat) : Handler → Bool
  | handleAccept other _ => other = acceptor
  | _ => false

end Handler

namespace Duty

def accepts (acceptor : Nat) : Duty → Bool
  | accept other _ => other = acceptor
  | _ => false

end Duty

/-- The acceptor whose accepts the entry adds or takes. -/
def Entry.acceptor : Entry → Option Nat
  | listened acceptor => some acceptor
  | rearmed acceptor => some acceptor
  | accepted acceptor _ => some acceptor
  | dropped acceptor _ => some acceptor
  | refused acceptor _ => some acceptor
  | _ => none

namespace Books

/-- The number of accepts that are pending for an acceptor. -/
def accepts (books : Books) (acceptor : Nat) : Nat :=
  books.duties.countP fun duty => duty.accepts acceptor = true

theorem accepts_eq {U : Type} (world : World U) (acceptor : Nat) :
    world.books.accepts acceptor = world.pending.countP (Handler.accepts acceptor) := by
  simp only [accepts, World.books, Multiset.coe_countP, List.countP_filterMap]
  apply List.countP_congr
  intro handler _
  cases handler <;> simp [Handler.duty, Duty.accepts, Handler.accepts]

theorem accepts_assign (books : Books) (duty : Duty) (acceptor : Nat) :
    (books.assign duty).accepts acceptor =
      books.accepts acceptor + (duty.accepts acceptor).toNat := by
  have same : books.duties + {duty} = duty ::ₘ books.duties := by
    rw [add_comm, Multiset.singleton_add]
  simp only [accepts, assign, same, Multiset.countP_cons]
  cases duty.accepts acceptor <;> rfl

theorem accepts_discharge {books : Books} {duty : Duty} (mem : duty ∈ books.duties)
    (acceptor : Nat) : (books.discharge duty).accepts acceptor + (duty.accepts acceptor).toNat =
      books.accepts acceptor := by
  simp only [accepts, discharge]
  conv_rhs => rw [← Multiset.cons_erase mem, Multiset.countP_cons]
  cases duty.accepts acceptor <;> rfl

theorem accepts_exit (books : Books) (session acceptor : Nat) :
    (books.exit session).accepts acceptor = books.accepts acceptor := by
  simp only [accepts, exit_duties]
  split
  · exact accepts_assign books (.destory session) acceptor
  · rfl

/-- How many accepts of an acceptor an entry adds. -/
theorem accepts_post {books : Books} {entry : Entry} {acceptor : Nat}
    (enables : books.Enables entry) (other : entry.acceptor ≠ some acceptor) :
    (books.post entry).accepts acceptor = books.accepts acceptor := by
  have spared : ∀ target session, some target ≠ some acceptor →
      ((Duty.accept target session).accepts acceptor).toNat = 0 := by
    intro target session different
    simpa [Duty.accepts] using different
  cases entry with
  | listened target =>
      have assigned := (books.allocate id).accepts_assign
        (.accept target (books.currentConnexindex + 1)) acceptor
      rw [spared target _ other] at assigned
      exact assigned
  | stopListened target => rfl
  | connecting connector =>
      exact accepts_assign _ (.connect connector (books.currentConnexindex + 1)) acceptor
  | unallocated connector => rfl
  | accepted target session =>
      have discharged := @accepts_discharge books _ enables.1.mem acceptor
      rw [spared target session other] at discharged
      exact discharged
  | dropped target session =>
      have discharged := @accepts_discharge books _ enables.1.mem acceptor
      rw [spared target session other] at discharged
      simp only [post, accepts_exit]
      exact discharged
  | refused target session =>
      have discharged := @accepts_discharge books _ enables.1.mem acceptor
      rw [spared target session other] at discharged
      exact discharged
  | rearmed target =>
      have assigned := (books.allocate id).accepts_assign
        (.accept target (books.currentConnexindex + 1)) acceptor
      rw [spared target _ other] at assigned
      exact assigned
  | connected connector session => exact @accepts_discharge books _ enables.1.mem acceptor
  | failed connector session => exact @accepts_discharge books _ enables.1.mem acceptor
  | abandoned connector session => exact @accepts_discharge books _ enables.1.mem acceptor
  | delayed session => exact books.accepts_assign (.exit session) acceptor
  | exited session => exact books.accepts_exit session acceptor
  | expired session =>
      have discharged := @accepts_discharge books _ enables.1.mem acceptor
      simp only [post]
      split
      · exact discharged
      · rw [accepts_exit]
        exact discharged
  | destroyed session => exact @accepts_discharge books _ enables.1.mem acceptor
  | stopped => rfl

theorem accepts_listened (books : Books) (acceptor : Nat) :
    (books.post (.listened acceptor)).accepts acceptor = books.accepts acceptor + 1 := by
  have assigned := (books.allocate id).accepts_assign
    (.accept acceptor (books.currentConnexindex + 1)) acceptor
  simp only [Duty.accepts, decide_true, Bool.toNat_true] at assigned
  exact assigned

theorem accepts_rearmed (books : Books) (acceptor : Nat) :
    (books.post (.rearmed acceptor)).accepts acceptor = books.accepts acceptor + 1 := by
  have assigned := (books.allocate id).accepts_assign
    (.accept acceptor (books.currentConnexindex + 1)) acceptor
  simp only [Duty.accepts, decide_true, Bool.toNat_true] at assigned
  exact assigned

/-- A successful accept is pending no more. -/
theorem accepts_firstEntry {books : Books} {acceptor session : Nat} (completion : Completion)
    (issued : books.Issued (.accept acceptor session)) :
    (books.post (World.firstEntry completion acceptor session)).accepts acceptor + 1 =
      books.accepts acceptor := by
  have discharged := @accepts_discharge books _ issued.mem acceptor
  simp only [Duty.accepts, decide_true, Bool.toNat_true] at discharged
  simp only [World.firstEntry]
  split
  · simp only [post, accepts_exit]
    exact discharged
  · exact discharged

theorem accepts_postings {allow : Entry → Prop} {books next : Books} {acceptor : Nat}
    (others : ∀ entry, allow entry → entry.acceptor ≠ some acceptor)
    (postings : Postings allow books next) : next.accepts acceptor = books.accepts acceptor :=
  @Postings.preserved allow (fun current => current.accepts acceptor = books.accepts acceptor)
    (fun _ _ allowed enables same => (accepts_post enables (others _ allowed)).trans same)
    _ _ postings rfl

end Books

namespace Server

open World Books

/-- The push server and its acceptors. -/
def listeningService : Transition.System (World Server × Listeners) Label :=
  service.withHistory ⟨∅, ∅⟩ Listeners.update

/-- `StartListen` of the acceptor is called once. -/
def StartsOnce (acceptor : Nat) (both : World Server × Listeners) : Label → Prop
  | .call (.startListen other memory) =>
      other = acceptor → both.1.stopSocketFlag = false → memory = true →
        acceptor ∉ both.2.listening ∧ acceptor ∉ both.2.closed
  | _ => True

/-- When an accept of the listening acceptor succeeds, `AllocSession` finds memory for the next. -/
def FindsMemory (acceptor : Nat) (both : World Server × Listeners) : Label → Prop
  | .complete index completion =>
      match both.1.pending[index]? with
      | some (.handleAccept other _) =>
          other = acceptor → acceptor ∈ both.2.listening → completion.error = 0 →
            completion.memory = true
      | _ => True
  | _ => True

/-- No accept of the listening acceptor completes with an error. -/
def AcceptsSucceed (acceptor : Nat) (both : World Server × Listeners) : Label → Prop
  | .complete index completion =>
      match both.1.pending[index]? with
      | some (.handleAccept other _) =>
          other = acceptor → acceptor ∈ both.2.listening → completion.error = 0
      | _ => True
  | _ => True

/-- One accept is pending, for a session that is as its constructor left it and in no entry of the
map. -/
structure Armed (world : World Server) (acceptor : Nat) : Prop where
  once : world.pending.countP (Handler.accepts acceptor) = 1
  unused : ∀ session, .handleAccept acceptor session ∈ world.pending →
    (world.poolSession session).account = .construct session ∧
      ∀ connectID, world.getSession connectID ≠ some session

section Step

variable {world next : World Server} {listeners : Listeners} {label : Label} {acceptor : Nat}

/-- A listening acceptor has one accept pending, and one that has not listened has none. -/
def Arms (acceptor : Nat) (world : World Server) (listeners : Listeners) : Prop :=
  (acceptor ∈ listeners.listening → world.books.accepts acceptor = 1) ∧
    (acceptor ∉ listeners.listening → acceptor ∉ listeners.closed →
      world.books.accepts acceptor = 0)

theorem handle_accepts {completion : Completion} {handler : Handler} {before after : List Handler}
    (sound : world.toLifecycle.Sound) (engaged : world.toLifecycle.Engaged)
    (split : world.pending = before ++ handler :: after)
    (others : handler.accepts acceptor = false) :
    (World.handle callbacks completion (world.take (before ++ after)) handler).books.accepts
      acceptor = world.books.accepts acceptor := by
  apply accepts_postings (fun _ other => other) (handle_postings sound engaged split _)
  apply grantsHandler make_namesSession
  · intro current call names made makes
    rcases entry_of_namesSession names makes with ⟨session, rfl | rfl⟩ <;> simp [Entry.acceptor]
  · have different : ∀ target session, handler = .handleAccept target session →
        some target ≠ some acceptor := by
      rintro target session rfl
      simpa [Handler.accepts] using others
    intro entry own
    cases own with
    | @refused target session failed => exact different target session rfl
    | @dropped target session succeeded unread => exact different target session rfl
    | @accepted target session succeeded read => exact different target session rfl
    | @rearmed target session succeeded => exact different target session rfl
    | _ => exact (Option.some_ne_none acceptor).symm

/-- A successful accept is replaced by the next one. -/
theorem handleAccept_accepts {completion : Completion} {session : Nat}
    {before after : List Handler} (sound : world.toLifecycle.Sound)
    (split : world.pending = before ++ .handleAccept acceptor session :: after)
    (succeeded : completion.error = 0) (memory : completion.memory = true) :
    (World.handle callbacks completion (world.take (before ++ after))
      (.handleAccept acceptor session)).books.accepts acceptor =
        world.books.accepts acceptor := by
  have grants : (world.take (before ++ after)).GrantsOnAccept callbacks
      (fun entry => entry.acceptor ≠ some acceptor) completion acceptor session := by
    intro _
    apply grants_of_forall
    intro current call call_mem made makes
    have names := make_namesSession.onAccept _ _ _ _ call call_mem
    rcases entry_of_namesSession names makes with ⟨target, rfl | rfl⟩ <;> simp [Entry.acceptor]
  rcases served_postings sound split succeeded grants with ⟨served, serves, _, rearms⟩
  have spent := accepts_firstEntry completion (accepting_books sound split).1.toIssued
  have kept := accepts_postings (fun _ other => other) serves
  simp only [World.handle, rearms, memory, if_true, accepts_rearmed]
  omega

theorem arms_of_accepts {after : Listeners} (arms : Arms acceptor world listeners)
    (same : next.books.accepts acceptor = world.books.accepts acceptor)
    (listening : acceptor ∈ after.listening ↔ acceptor ∈ listeners.listening)
    (closed : acceptor ∈ after.closed ↔ acceptor ∈ listeners.closed) :
    Arms acceptor next after := by
  simp only [Arms, same, listening, closed]
  exact arms

theorem arms_startListen {target : Nat} {memory : Bool} (sound : world.toLifecycle.Sound)
    (arms : Arms acceptor world listeners)
    (once : StartsOnce acceptor (world, listeners) (.call (.startListen target memory))) :
    Arms acceptor (world.perform callbacks (.startListen target memory))
      (listeners.update world (.call (.startListen target memory))) := by
  by_cases refused : world.stopSocketFlag = true ∨ memory = false
  · have none : world.entry (.startListen target memory) = none := by simp [entry, refused]
    have same : listeners.update world (.call (.startListen target memory)) = listeners := by
      rcases refused with stopped | full
      · simp [Listeners.update, stopped]
      · simp [Listeners.update, full]
    rw [same]
    apply arms_of_accepts arms _ Iff.rfl Iff.rfl
    rw [books_perform sound, none]
    rfl
  · have made : world.entry (.startListen target memory) = some (.listened target) := by
      simp [entry, refused]
    have posted : (world.perform callbacks (.startListen target memory)).books =
        world.books.post (.listened target) := by
      rw [books_perform sound, made]
      rfl
    rw [not_or, Bool.not_eq_true, Bool.not_eq_false] at refused
    rcases refused with ⟨running, found⟩
    by_cases equal : target = acceptor
    · subst equal
      rcases once rfl running found with ⟨unlistened, unclosed⟩
      have listens : listeners.update world (.call (.startListen target memory)) =
          { listeners with listening := insert target listeners.listening } := by
        simp [Listeners.update, running, found, unclosed]
      rw [listens]
      constructor
      · intro _
        rw [posted, accepts_listened, arms.2 unlistened unclosed]
      · intro absent
        exact absurd (Finset.mem_insert_self _ _) absent
    · apply arms_of_accepts arms
      · have enables : world.books.Enables (.listened target) := fresh_books sound
        rw [posted]
        apply accepts_post enables
        simpa [Entry.acceptor] using equal
      · simp only [Listeners.update]
        split
        · exact Iff.rfl
        · simp [Ne.symm equal]
      · simp only [Listeners.update]
        split <;> exact Iff.rfl

theorem arms_stopListen {target : Nat} {failed : Bool} (arms : Arms acceptor world listeners) :
    Arms acceptor (world.perform callbacks (.stopListen target failed))
      (listeners.update world (.call (.stopListen target failed))) := by
  cases failed with
  | true => exact arms
  | false =>
      by_cases equal : target = acceptor
      · subst equal
        constructor
        · intro listening
          exact absurd listening (Finset.notMem_erase _ _)
        · intro _ unclosed
          exact absurd (Finset.mem_insert_self _ _) unclosed
      · apply arms_of_accepts arms rfl
        · simp [Listeners.update, Ne.symm equal]
        · simp [Listeners.update, Ne.symm equal]

/-- Only `StartListen` accepts a client. -/
theorem acceptor_of_call {call : ApiCall} {made : Entry} (makes : world.entry call = some made)
    (other : ∀ target memory, call ≠ .startListen target memory) : made.acceptor = none := by
  cases makes_of_entry makes with
  | listened target => exact absurd rfl (other target true)
  | _ => rfl

theorem arms_call {call : ApiCall} (sound : world.toLifecycle.Sound)
    (arms : Arms acceptor world listeners)
    (once : StartsOnce acceptor (world, listeners) (.call call)) :
    Arms acceptor (world.perform callbacks call) (listeners.update world (.call call)) := by
  have others : (∀ target memory, call ≠ .startListen target memory) →
      (world.perform callbacks call).books.accepts acceptor = world.books.accepts acceptor := by
    intro other
    apply accepts_postings (fun _ spared => spared) (perform_postings sound _)
    intro made makes
    rw [acceptor_of_call makes other]
    exact Option.some_ne_none acceptor |>.symm
  cases call with
  | startListen target memory => exact arms_startListen sound arms once
  | stopListen target failed => exact arms_stopListen arms
  | _ => exact arms_of_accepts arms (others fun _ _ => ApiCall.noConfusion) Iff.rfl Iff.rfl

theorem arms_step (sound : world.toLifecycle.Sound) (engaged : world.toLifecycle.Engaged)
    (arms : Arms acceptor world listeners) (before : BeforeShutdown label)
    (once : StartsOnce acceptor (world, listeners) label)
    (memory : FindsMemory acceptor (world, listeners) label)
    (succeed : AcceptsSucceed acceptor (world, listeners) label)
    (steps : world.step callbacks label = some next) :
    Arms acceptor next (listeners.update world label) := by
  cases label with
  | complete index completion =>
      rcases complete_cases steps with ⟨handler, before, after, at_index, split, _, rfl⟩
      change Arms acceptor (World.handle callbacks completion (world.take (before ++ after))
        handler) listeners
      simp only [FindsMemory, AcceptsSucceed, at_index] at memory succeed
      cases concerns : handler.accepts acceptor with
      | false =>
          have same := @handle_accepts _ acceptor completion _ _ _ sound engaged split concerns
          simp only [Arms, same]
          exact arms
      | true =>
          refine ⟨?_, ?_⟩
          · intro listening
            cases handler with
            | handleAccept target session =>
                have equal : target = acceptor := by
                  simpa [Handler.accepts] using concerns
                subst equal
                have succeeded := succeed rfl listening
                rw [handleAccept_accepts sound split succeeded
                  (memory rfl listening succeeded)]
                exact arms.1 listening
            | _ => contradiction
          · intro unlistened unclosed
            have none := arms.2 unlistened unclosed
            rw [accepts_eq, List.countP_eq_zero] at none
            exact absurd concerns (none handler (Lifecycle.mem_of_split split))
  | call call =>
      simp only [World.step, Option.some.injEq] at steps
      subst steps
      exact arms_call sound arms once
  | tick seconds =>
      simp only [World.step, Option.some.injEq] at steps
      subst steps
      exact arms
  | stop => exact absurd before id
  | removeAll => exact absurd before id
  | release => exact absurd before id

end Step

/-- A listening acceptor has one accept pending, as long as its accepts complete without an
error. -/
theorem armed_of_acceptsSucceed {acceptor : Nat} {both : World Server × Listeners}
    (reached : listeningService.ReachableBy (fun both label => BeforeShutdown label ∧
      StartsOnce acceptor both label ∧ FindsMemory acceptor both label ∧
        AcceptsSucceed acceptor both label) both)
    (listening : acceptor ∈ both.2.listening) : Armed both.1 acceptor := by
  have known : ∀ world, service.ReachableBy (fun _ label => BeforeShutdown label) world →
      world.toLifecycle.Sound ∧ world.toLifecycle.Engaged := by
    intro world worldReached
    exact engaged_of_reachable worldReached.reachable
  have arms : Arms acceptor both.1 both.2 := by
    apply reached.history_invariant (fun _ _ meets => meets.1) known
    · rintro world ⟨server, _, rfl⟩
      refine ⟨?_, fun _ _ => rfl⟩
      intro listens
      exact absurd listens (Finset.notMem_empty _)
    · rintro world listeners label next ⟨sound, engaged⟩ arms ⟨running, once, memory, succeed⟩ steps
      exact arms_step sound engaged arms running once memory succeed steps
  rcases known both.1 (reached.forget fun _ _ meets => meets.1) with ⟨sound, _⟩
  constructor
  · rw [← accepts_eq]
    exact arms.1 listening
  · intro session pending
    have fits : both.1.toLifecycle.Numbered session ∧ (both.1.poolSession session).alive = true ∧
        (both.1.poolSession session).socketStatus = .idle ∧
          (both.1.poolSession session).acceptor = none ∧
            (both.1.poolSession session).connector = none := sound.fits _ pending
    refine ⟨?_, sound.unmapped_of_opens pending rfl⟩
    rcases fields : both.1.poolSession session with
      ⟨alive, status, connIndex, acceptor, connector, readState⟩
    rcases fits with ⟨numbered, rest⟩
    have index := numbered.2
    rw [fields] at rest index
    simp only at rest index
    rcases rest with ⟨rfl, rfl, rfl, rfl⟩
    simp only [Session.account, Session.construct, index]

theorem listening_atStart : listeningService.Initial (World.initial atStart, ⟨∅, ∅⟩) :=
  ⟨initial_atStart, rfl⟩

/-- The first call of `StartListen`. -/
theorem startsOnce_atStart (acceptor target : Nat) (memory : Bool) :
    StartsOnce acceptor (World.initial atStart, ⟨∅, ∅⟩) (.call (.startListen target memory)) := by
  intro _ _ _
  exact ⟨Finset.notMem_empty acceptor, Finset.notMem_empty acceptor⟩

/-- A client is accepted, and after it one whose remote endpoint cannot be read. -/
theorem armed_of_acceptsSucceed_of_accepts :
    ∃ both : World Server × Listeners,
      listeningService.ReachableBy (fun both label => BeforeShutdown label ∧
          StartsOnce 0 both label ∧ FindsMemory 0 both label ∧ AcceptsSucceed 0 both label) both ∧
        both.2.listening = {0} ∧ Armed both.1 0 := by
  have meets : listeningService.RunMeets (fun both label => BeforeShutdown label ∧
      StartsOnce 0 both label ∧ FindsMemory 0 both label ∧ AcceptsSucceed 0 both label)
      (World.initial atStart, ⟨∅, ∅⟩) [.call (.startListen 0 true), .complete 0 (.success []),
        .complete 2 { Completion.success [] with remoteError := true }] := by
    refine ⟨⟨trivial, startsOnce_atStart 0 0 true, trivial, trivial⟩, ?_⟩
    rintro listening ⟨⟩
    refine ⟨⟨trivial, trivial, fun _ _ _ => rfl, fun _ _ => rfl⟩, ?_⟩
    rintro accepted ⟨⟩
    exact ⟨⟨trivial, trivial, fun _ _ _ => rfl, fun _ _ => rfl⟩, fun _ _ => trivial⟩
  have runs : ∃ both, listeningService.run (World.initial atStart, ⟨∅, ∅⟩)
      [.call (.startListen 0 true), .complete 0 (.success []),
        .complete 2 { Completion.success [] with remoteError := true }] = some both ∧
          both.2.listening = {0} :=
    ⟨_, rfl, rfl⟩
  rcases runs with ⟨both, runs, listens⟩
  have reached := Transition.System.ReachableBy.run (.initial listening_atStart) meets runs
  refine ⟨both, reached, listens, armed_of_acceptsSucceed reached ?_⟩
  rw [listens]
  exact Finset.mem_singleton_self 0

/-- An accept that completes with an error is the last one. -/
theorem not_armed_after_error :
    ¬∀ both, listeningService.ReachableBy (fun both label => BeforeShutdown label ∧
      StartsOnce 0 both label ∧ FindsMemory 0 both label) both → 0 ∈ both.2.listening →
        Armed both.1 0 := by
  intro armed
  have meets : listeningService.RunMeets (fun both label => BeforeShutdown label ∧
      StartsOnce 0 both label ∧ FindsMemory 0 both label) (World.initial atStart, ⟨∅, ∅⟩)
        [.call (.startListen 0 true), .complete 0 (.failure 10053)] := by
    refine ⟨⟨trivial, startsOnce_atStart 0 0 true, trivial⟩, ?_⟩
    rintro listening ⟨⟩
    exact ⟨⟨trivial, trivial, fun _ _ _ => rfl⟩, fun _ _ => trivial⟩
  have runs : ∃ both, listeningService.run (World.initial atStart, ⟨∅, ∅⟩)
      [.call (.startListen 0 true), .complete 0 (.failure 10053)] = some both ∧
        both.2.listening = {0} ∧ both.1.pending.countP (Handler.accepts 0) = 0 :=
    ⟨_, rfl, rfl, rfl⟩
  rcases runs with ⟨both, runs, listens, none⟩
  have reached := Transition.System.ReachableBy.run (.initial listening_atStart) meets runs
  have listening : 0 ∈ both.2.listening := by
    rw [listens]
    exact Finset.mem_singleton_self 0
  have once := (armed both reached listening).once
  omega

end Server

end SunPush
