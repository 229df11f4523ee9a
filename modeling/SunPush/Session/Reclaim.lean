import SunPush.Session.Destruction

/-!
# Every closed session is destroyed once

That every closed session has its destruction scheduled fails in one place:
`handle_exit` schedules nothing for a session whose identifier the map does not
have.  This is so for a client whose remote endpoint cannot be read, since it is
closed before it is entered into the map.
-/

namespace SunPush

namespace World

open Books

variable {U : Type} {callbacks : Callbacks U} {Upper : U → Prop}

/-- The sessions a step destroys, in order. -/
def destroys (world : World U) : Label → List Nat
  | .complete index completion =>
      match world.pending[index]? with
      | some (.handleAccept _ session) => if completion.error ≠ 0 then [session] else []
      | some (.handleConnect _ session) =>
          if completion.error ≠ 0 ∧ world.stopSocketFlag = false then [session] else []
      | some (.handleDestory session _) => [session]
      | _ => []
  | .removeAll => world.mapSession.entries.map Sigma.snd
  | .release =>
      (List.range (world.currentConnexindex + 1)).filter fun session =>
        (world.poolSession session).alive
  | _ => []

/-- How many destructions of a session are scheduled. -/
def scheduled (world : World U) (session : Nat) : Nat :=
  world.pending.countP fun handler => handler.duty = some (.destory session)

/-- The service, with the sessions destroyed so far. -/
def reclaiming (callbacks : Callbacks U) (Upper : U → Prop) :
    Transition.System (World U × List Nat) Label :=
  (service callbacks Upper).withHistory [] fun destroyed world label =>
    destroyed ++ world.destroys label

/-- `handle_exit` closes no session whose identifier the map does not have. -/
def FindsEntry (world : World U) : Label → Prop
  | .complete index completion =>
      match world.pending[index]? with
      | some (.handleAccept _ session) =>
          completion.error = 0 → completion.remoteError = true →
            world.getSession (world.poolSession session).connIndex ≠ none
      | some (.handleExit session _) =>
          (world.poolSession session).isClosed = false →
            world.getSession (world.poolSession session).connIndex ≠ none
      | _ => True
  | _ => True

theorem scheduled_eq (world : World U) (session : Nat) :
    world.scheduled session = world.books.duties.count (.destory session) := by
  simp only [scheduled, books, Multiset.coe_count, List.count, List.countP_filterMap]
  apply List.countP_congr
  intro handler _
  cases handler.duty <;> simp

/-- No call destroys a session, or closes one that the map does not have. -/
theorem entry_of_call {world : World U} {call : ApiCall} {made : Entry}
    (makes : world.entry call = some made) : made.destroys = none ∧ made.unsure = false := by
  cases makes_of_entry makes <;> exact ⟨rfl, rfl⟩

section Step

variable {world next : World U} {label : Label}

/-- A handler whose entries destroy nothing. -/
theorem destroys_none_of_own {completion : Completion} {handler : Handler}
    {before after : List Handler} (sound : world.toLifecycle.Sound)
    (engaged : world.toLifecycle.Engaged) (kept : Kept world.books.account world.books.duties)
    (split : world.pending = before ++ handler :: after)
    (own : ∀ entry, (world.take (before ++ after)).OwnEntry completion handler entry →
      entry.destroys = none) :
    Destroys none world.books
      (handle callbacks completion (world.take (before ++ after)) handler).books := by
  apply Survives.destroys_none
  have grants := @grantsHandler U callbacks (fun entry => entry.destroys = none) _
    (Callbacks.make_all callbacks) (fun _ _ _ _ makes => (entry_of_call makes).1) _ _ _ own
  exact survives_postings (fun _ spares => spares) (handle_postings sound engaged split grants)
    kept

/-- A connection attempt that failed destroys its session, and `OnConnect` destroys none. -/
theorem destroys_failed {completion : Completion} {connector session : Nat}
    {before after : List Handler} (sound : world.toLifecycle.Sound)
    (engaged : world.toLifecycle.Engaged) (kept : Kept world.books.account world.books.duties)
    (split : world.pending = before ++ .handleConnect connector session :: after)
    (failed : completion.error ≠ 0) (running : world.stopSocketFlag = false) :
    Destroys (some session) world.books
      ((world.take (before ++ after)).handleConnect callbacks connector session
        completion).books := by
  have enables := connecting_books sound engaged split
  have posted := @destroys_post world.books (.failed connector session) session enables kept rfl
  have calls := @grants_of_forall U callbacks (fun entry => entry.destroys = none)
    (callbacks.onConnect connector (world.poolSession session).connIndex
      completion.error world.upper).2 fun _ _ _ _ makes => (entry_of_call makes).1
  have tells := failed_postings sound split failed running calls
  apply posted.trans
  · apply survives_postings (fun _ spares => spares) tells
    exact @kept_post world.books (.failed connector session) enables kept
  · exact enables.1.numbered

theorem handle_destroys {index : Nat} {completion : Completion} {handler : Handler}
    {before after : List Handler} (sound : world.toLifecycle.Sound)
    (engaged : world.toLifecycle.Engaged) (kept : Kept world.books.account world.books.duties)
    (at_index : world.pending[index]? = some handler)
    (split : world.pending = before ++ handler :: after) :
    ∃ destroyed : Option Nat, world.destroys (.complete index completion) = destroyed.toList ∧
      Destroys destroyed world.books
        (handle callbacks completion (world.take (before ++ after)) handler).books := by
  have spared := @destroys_none_of_own U callbacks world completion handler before after sound
    engaged kept split
  cases handler with
  | handleAccept acceptor session =>
      by_cases failed : completion.error = 0
      · refine ⟨none, by simp [destroys, at_index, failed], spared ?_⟩
        intro entry own
        cases own with
        | refused refuses => exact absurd failed refuses
        | _ => rfl
      · refine ⟨some session, by simp [destroys, at_index, failed], ?_⟩
        simp only [handle, books_refused split failed]
        exact destroys_post (accepting_books sound split) kept rfl
  | handleConnect connector session =>
      by_cases failed : completion.error = 0
      · refine ⟨none, by simp [destroys, at_index, failed], spared ?_⟩
        intro entry own
        cases own with
        | failed fails running => exact absurd failed fails
        | _ => rfl
      · cases running : world.stopSocketFlag with
        | true =>
            refine ⟨none, by simp [destroys, at_index, running], spared ?_⟩
            intro entry own
            cases own with
            | failed fails runs => exact absurd (running.symm.trans runs) Bool.noConfusion
            | _ => rfl
        | false =>
            refine ⟨some session, by simp [destroys, at_index, failed, running], ?_⟩
            exact destroys_failed sound engaged kept split failed running
  | handleReadSp session receive =>
      refine ⟨none, by simp [destroys, at_index], spared ?_⟩
      rintro entry ⟨⟩
  | handleWrite session length =>
      refine ⟨none, by simp [destroys, at_index], spared ?_⟩
      rintro entry ⟨⟩
  | handleExit session wait =>
      refine ⟨none, by simp [destroys, at_index], spared ?_⟩
      rintro entry ⟨⟩
      rfl
  | handleDestory session wait =>
      refine ⟨some session, by simp [destroys, at_index], ?_⟩
      simp only [handle, books_destroyed split]
      exact destroys_post (destroying_books sound split) kept rfl

theorem step_destroys (sound : world.toLifecycle.Sound) (engaged : world.toLifecycle.Engaged)
    (kept : Kept world.books.account world.books.duties) (before : BeforeShutdown label)
    (steps : world.step callbacks label = some next) :
    ∃ destroyed : Option Nat, world.destroys label = destroyed.toList ∧
      Destroys destroyed world.books next.books := by
  cases label with
  | complete index completion =>
      rcases complete_cases steps with ⟨handler, before, after, at_index, split, _, rfl⟩
      exact handle_destroys sound engaged kept at_index split
  | call call =>
      simp only [step, Option.some.injEq] at steps
      subst steps
      refine ⟨none, rfl, Survives.destroys_none ?_⟩
      have postings := @perform_postings U callbacks (fun entry => entry.destroys = none) _ call
        sound fun _ makes => (entry_of_call makes).1
      exact survives_postings (fun _ spares => spares) postings kept
  | tick seconds =>
      simp only [step, Option.some.injEq] at steps
      subst steps
      exact ⟨none, rfl, (survives_refl rfl rfl).destroys_none⟩
  | stop => exact absurd before id
  | removeAll => exact absurd before id
  | release => exact absurd before id

/-- The sure entries keep the promise, whatever else they do. -/
theorem promised_postings {allow : Entry → Prop} {books after : Books}
    (sure : ∀ entry, allow entry → entry.unsure = false)
    (postings : Postings allow books after) (promised : Promised books.account books.duties) :
    Promised after.account after.duties :=
  @Postings.preserved allow (fun books => Promised books.account books.duties)
    (fun _ entry allowed enables holds => promised_post enables (sure entry allowed) holds)
    _ _ postings promised

/-- A handler that closes no session by itself. -/
theorem promised_of_own {completion : Completion} {handler : Handler}
    {before after : List Handler} (sound : world.toLifecycle.Sound)
    (engaged : world.toLifecycle.Engaged)
    (promised : Promised world.books.account world.books.duties)
    (split : world.pending = before ++ handler :: after)
    (own : ∀ entry, (world.take (before ++ after)).OwnEntry completion handler entry →
      entry.unsure = false) :
    Promised (handle callbacks completion (world.take (before ++ after)) handler).books.account
      (handle callbacks completion (world.take (before ++ after)) handler).books.duties := by
  have grants := @grantsHandler U callbacks (fun entry => entry.unsure = false) _
    (Callbacks.make_all callbacks) (fun _ _ _ _ makes => (entry_of_call makes).2) _ _ _ own
  exact promised_postings (fun _ sure => sure) (handle_postings sound engaged split grants)
    promised

/-- An accepted session whose remote endpoint cannot be read is closed, and the next client is
accepted. -/
theorem promised_dropped {completion : Completion} {acceptor session : Nat}
    {before after : List Handler} (sound : world.toLifecycle.Sound)
    (promised : Promised world.books.account world.books.duties)
    (split : world.pending = before ++ .handleAccept acceptor session :: after)
    (succeeded : completion.error = 0) (remote : completion.remoteError = true)
    (found : world.getSession (world.poolSession session).connIndex ≠ none) :
    Promised
      ((world.take (before ++ after)).handleAccept callbacks acceptor session
        completion).books.account
      ((world.take (before ++ after)).handleAccept callbacks acceptor session
        completion).books.duties := by
  have waits : Promised world.books.account
      (world.books.duties.erase (.accept acceptor session)) :=
    promised.discharge fun _ => Duty.noConfusion
  have dropped : Promised (world.books.post (.dropped acceptor session)).account
      (world.books.post (.dropped acceptor session)).duties :=
    @Promised.exit ((world.books.discharge (.accept acceptor session)).count fun s =>
      { s with totalConneced := s.totalConneced + 1 }) waits session found
  simp only [handleAccept, succeeded, remote, ne_eq, not_true_eq_false, if_false, if_true]
  rw [books_acceptNext, books_dropped sound split]
  split
  · apply (dropped.update _).assign
    exact fun _ => SocketStatus.noConfusion
  · exact dropped

theorem handle_promised {index : Nat} {completion : Completion} {handler : Handler}
    {before after : List Handler} (sound : world.toLifecycle.Sound)
    (engaged : world.toLifecycle.Engaged)
    (promised : Promised world.books.account world.books.duties)
    (at_index : world.pending[index]? = some handler)
    (split : world.pending = before ++ handler :: after)
    (finds : world.FindsEntry (.complete index completion)) :
    Promised (handle callbacks completion (world.take (before ++ after)) handler).books.account
      (handle callbacks completion (world.take (before ++ after)) handler).books.duties := by
  have certain := @promised_of_own U callbacks world completion handler before after sound
    engaged promised split
  simp only [FindsEntry, at_index] at finds
  cases handler with
  | handleAccept acceptor session =>
      by_cases failed : completion.error = 0
      · cases remote : completion.remoteError with
        | true =>
            exact promised_dropped sound promised split failed remote (finds failed remote)
        | false =>
            apply certain
            intro entry own
            cases own with
            | dropped succeeded unread =>
                rw [remote] at unread
                contradiction
            | _ => rfl
      · apply certain
        intro entry own
        cases own with
        | dropped succeeded unread => exact absurd succeeded failed
        | _ => rfl
  | handleConnect connector session =>
      apply certain
      intro entry own
      cases own <;> rfl
  | handleReadSp session receive =>
      apply certain
      rintro entry ⟨⟩
  | handleWrite session length =>
      apply certain
      rintro entry ⟨⟩
  | handleExit session wait =>
      have waits : Promised world.books.account (world.books.duties.erase (.exit session)) :=
        promised.discharge fun _ => Duty.noConfusion
      simp only [handle, books_expired split, Books.post]
      split
      · exact waits
      · next notClosed =>
          exact @Promised.exit (world.books.discharge (.exit session)) waits session
            (finds (eq_false_of_ne_true notClosed))
  | handleDestory session wait =>
      apply certain
      rintro entry ⟨⟩
      rfl

theorem step_promised (sound : world.toLifecycle.Sound) (engaged : world.toLifecycle.Engaged)
    (promised : Promised world.books.account world.books.duties) (before : BeforeShutdown label)
    (finds : world.FindsEntry label) (steps : world.step callbacks label = some next) :
    Promised next.books.account next.books.duties := by
  cases label with
  | complete index completion =>
      rcases complete_cases steps with ⟨handler, before, after, at_index, split, _, rfl⟩
      exact handle_promised sound engaged promised at_index split finds
  | call call =>
      simp only [step, Option.some.injEq] at steps
      subst steps
      have postings := @perform_postings U callbacks (fun entry => entry.unsure = false) _ call
        sound fun _ makes => (entry_of_call makes).2
      exact promised_postings (fun _ sure => sure) postings promised
  | tick seconds =>
      simp only [step, Option.some.injEq] at steps
      subst steps
      exact promised
  | stop => exact absurd before id
  | removeAll => exact absurd before id
  | release => exact absurd before id

end Step

/-- Every closed session has its destruction scheduled once, or has been destroyed once. -/
structure Reclaims (callbacks : Callbacks U) (world : World U) (destroyed : List Nat) : Prop where
  closed : ∀ session, (world.poolSession session).socketStatus = .closed →
    (world.poolSession session).alive = true ∧ world.scheduled session = 1 ∧
        destroyed.count session = 0 ∨
      (world.poolSession session).alive = false ∧ world.scheduled session = 0 ∧
        destroyed.count session = 1
  /-- The next step before shutdown destroys no open session, and none a second time. -/
  unopened : ∀ label next, BeforeShutdown label → world.step callbacks label = some next →
    ∀ session ∈ world.destroys label, (world.poolSession session).socketStatus ≠ .connected ∧
      destroyed.count session = 0

/-- How often each session has been destroyed. -/
structure Counted (books : Books) (destroyed : List Nat) : Prop where
  alive : ∀ session, (books.account session).alive = true → destroyed.count session = 0
  unused : ∀ session, books.currentConnexindex < session → destroyed.count session = 0
  closed : ∀ session, (books.account session).alive = false →
    (books.account session).socketStatus = .closed → destroyed.count session = 1

theorem count_append_toList (destroyed : List Nat) (now : Option Nat) (session : Nat) :
    (destroyed ++ now.toList).count session =
      destroyed.count session + if now = some session then 1 else 0 := by
  cases now with
  | none => simp
  | some target =>
      rw [List.count_append, Option.toList_some, List.count_singleton]
      simp

theorem Counted.step {books next : Books} {destroyed : List Nat} {now : Option Nat}
    (counted : Counted books destroyed) (destroys : Destroys now books next)
    (numbered : ∀ session, (books.account session).alive = true →
      session ≤ books.currentConnexindex) : Counted next (destroyed ++ now.toList) := by
  have dead_of_now : ∀ session, now = some session → (books.account session).alive = true ∧
      (next.account session).alive = false := by
    intro session same
    rcases destroys.unopened session same with ⟨alive, _, dead⟩
    exact ⟨alive, dead⟩
  constructor
  · intro session alive
    have spared : now ≠ some session := by
      intro same
      rw [(dead_of_now session same).2] at alive
      contradiction
    rw [count_append_toList, if_neg spared, Nat.add_zero]
    cases before : (books.account session).alive with
    | true => exact counted.alive session before
    | false =>
        rcases destroys.dead session before with same | ⟨unused, _⟩
        · rw [same, before] at alive
          contradiction
        · exact counted.unused session unused
  · intro session unused
    have earlier : books.currentConnexindex < session := destroys.raised.trans_lt unused
    have spared : now ≠ some session := by
      intro same
      have := numbered session (dead_of_now session same).1
      omega
    rw [count_append_toList, if_neg spared, Nat.add_zero]
    exact counted.unused session earlier
  · intro session dead closed
    rw [count_append_toList]
    cases before : (books.account session).alive with
    | true =>
        have same : now = some session := by
          apply (destroys.alive session before).resolve_left
          rw [dead]
          exact Bool.false_ne_true
        rw [if_pos same, counted.alive session before]
    | false =>
        have spared : now ≠ some session := by
          intro same
          rw [(dead_of_now session same).1] at before
          contradiction
        rw [if_neg spared, Nat.add_zero]
        rcases destroys.dead session before with same | ⟨_, constructed⟩
        · exact counted.closed session before (same ▸ closed)
        · rw [dead] at constructed
          contradiction

/-- Every closed session is destroyed once, or will be. -/
structure Accounted (world : World U) (destroyed : List Nat) : Prop where
  promised : Promised world.books.account world.books.duties
  counted : Counted world.books destroyed

/-- As long as `handle_exit` closes no session whose identifier the map does not have, every closed
session is destroyed exactly once: its destruction is scheduled, or has happened. -/
theorem reclaims_of_findsEntry {both : World U × List Nat}
    (reached : (reclaiming callbacks Upper).ReachableBy
      (fun both label => BeforeShutdown label ∧ both.1.FindsEntry label) both) :
    both.1.Reclaims callbacks both.2 := by
  have before : (service callbacks Upper).ReachableBy (fun _ label => BeforeShutdown label)
      both.1 := reached.forget fun _ _ meets => meets.1
  have accounted : both.1.Accounted both.2 := by
    apply reached.history_invariant (fun _ _ meets => meets.1) fun _ => kept_of_reachable
    · rintro world ⟨upper, _, rfl⟩
      refine ⟨?_, ?_, fun _ _ => rfl, ?_⟩
      · intro session alive closed
        contradiction
      · exact fun _ _ => rfl
      · intro session dead closed
        contradiction
    · rintro world destroyed label next ⟨sound, engaged, kept⟩ ⟨promised, counted⟩
        ⟨running, finds⟩ steps
      refine ⟨step_promised sound engaged promised running finds steps, ?_⟩
      rcases step_destroys sound engaged kept running steps with ⟨now, listed, destroys⟩
      rw [listed]
      exact counted.step destroys fun session alive => (sound.numbered session alive).1
  rcases kept_of_reachable before with ⟨sound, engaged, kept⟩
  constructor
  · intro session closed
    rw [scheduled_eq]
    cases alive : (both.1.poolSession session).alive with
    | true =>
        have scheduled := accounted.promised session alive closed
        have positive := Multiset.count_pos.mpr scheduled
        have once := kept.once session
        exact .inl ⟨rfl, by omega, accounted.counted.alive session alive⟩
    | false =>
        have unscheduled : .destory session ∉ both.1.books.duties := by
          intro scheduled
          have := (kept.scheduled session scheduled).1
          rw [show (both.1.books.account session).alive = false from alive] at this
          contradiction
        exact .inr ⟨rfl, Multiset.count_eq_zero.mpr unscheduled,
          accounted.counted.closed session alive closed⟩
  · intro label next running steps session session_mem
    rcases step_destroys sound engaged kept running steps with ⟨now, listed, destroys⟩
    rw [listed, Option.mem_toList] at session_mem
    rcases destroys.unopened session session_mem with ⟨alive, notOpen, _⟩
    exact ⟨notOpen, accounted.counted.alive session alive⟩

/-- An accepted client is closed and, ten seconds later, destroyed. -/
theorem reclaims_of_findsEntry_of_closeSocket :
    ∃ both : World Unit × List Nat,
      (reclaiming .silent fun _ => True).ReachableBy
          (fun both label => BeforeShutdown label ∧ both.1.FindsEntry label) both ∧
        (both.1.poolSession 2).socketStatus = .closed ∧ both.2 = [2] ∧
          both.1.Reclaims .silent both.2 := by
  have meets : (reclaiming .silent fun _ => True).RunMeets
      (fun both label => BeforeShutdown label ∧ both.1.FindsEntry label) (initial (), [])
        [.call (.startListen 0 true), .complete 0 (.success []), .call (.closeSocket 2), .tick 10,
          .complete 2 (.success [])] := by
    refine ⟨⟨trivial, trivial⟩, ?_⟩
    rintro listening ⟨⟩
    refine ⟨⟨trivial, fun _ => Bool.noConfusion⟩, ?_⟩
    rintro accepted ⟨⟩
    refine ⟨⟨trivial, trivial⟩, ?_⟩
    rintro closed ⟨⟩
    refine ⟨⟨trivial, trivial⟩, ?_⟩
    rintro later ⟨⟩
    exact ⟨⟨trivial, trivial⟩, fun _ _ => trivial⟩
  have runs : ∃ both, (reclaiming .silent fun _ => True).run (initial (), [])
      [.call (.startListen 0 true), .complete 0 (.success []), .call (.closeSocket 2), .tick 10,
        .complete 2 (.success [])] = some both ∧
          (both.1.poolSession 2).socketStatus = .closed ∧ both.2 = [2] :=
    ⟨_, rfl, rfl, rfl⟩
  rcases runs with ⟨both, runs, closed, destroyed⟩
  have start : (reclaiming .silent fun _ => True).Initial (initial (), []) :=
    ⟨⟨(), trivial, rfl⟩, rfl⟩
  have reached := Transition.System.ReachableBy.run (.initial start) meets runs
  exact ⟨both, reached, closed, destroyed, reclaims_of_findsEntry reached⟩

/-- A client whose remote endpoint cannot be read is closed, but never destroyed. -/
theorem not_reclaims_of_remoteError :
    ¬∀ both, (reclaiming .silent fun _ => True).ReachableBy
      (fun _ label => BeforeShutdown label) both → both.1.Reclaims .silent both.2 := by
  intro reclaims
  have meets : (reclaiming .silent fun _ => True).RunMeets (fun _ label => BeforeShutdown label)
      (initial (), []) [.call (.startListen 0 true),
        .complete 0 { Completion.success [] with remoteError := true }] :=
    ⟨trivial, fun _ _ => ⟨trivial, fun _ _ => trivial⟩⟩
  have runs : ∃ both, (reclaiming .silent fun _ => True).run (initial (), [])
      [.call (.startListen 0 true),
        .complete 0 { Completion.success [] with remoteError := true }] = some both ∧
          (both.1.poolSession 2).socketStatus = .closed ∧ both.1.scheduled 2 = 0 ∧
            both.2.count 2 = 0 :=
    ⟨_, rfl, rfl, rfl, rfl⟩
  rcases runs with ⟨both, runs, closed, unscheduled, undestroyed⟩
  have start : (reclaiming .silent fun _ => True).Initial (initial (), []) :=
    ⟨⟨(), trivial, rfl⟩, rfl⟩
  have reached := Transition.System.ReachableBy.run (.initial start) meets runs
  rcases (reclaims both reached).closed 2 closed with ⟨_, scheduled, _⟩ | ⟨_, _, destroyed⟩
  · omega
  · omega

end World

end SunPush
