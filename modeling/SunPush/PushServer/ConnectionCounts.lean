import SunPush.PushServer.Listening

/-!
# The counters of connections

The five counters of `Socket` under the push server.  They are right as long as
the remote endpoint of every accepted client can be read, and `StartListen` and
`StopListen` are called in turn: the counter of listening acceptors follows the
calls, and not what becomes of the acceptors.
-/

namespace SunPush

namespace Server

open World Books

/-- The remote endpoint of a client that is accepted can be read. -/
def ReadsRemote (both : World Server × Listeners) : Label → Prop
  | .complete index completion =>
      match both.1.pending[index]? with
      | some (.handleAccept _ _) => completion.error = 0 → completion.remoteError = false
      | _ => True
  | _ => True

/-- Only an acceptor that listens is told to stop. -/
def StopsListening (both : World Server × Listeners) : Label → Prop
  | .call (.stopListen acceptor failed) => failed = false → acceptor ∈ both.2.listening
  | _ => True

/-- The counters of sessions are the numbers of the sessions they count, and that of acceptors is
the number of those that listen. -/
structure Counts (world : World Server) (listening : Finset Nat) : Prop where
  sessions : ∀ counter : Counter, counter.value world.statistics =
    {session | counter.counts (world.poolSession session) = true}.ncard
  acceptors : world.statistics.totalListening = listening.card

/-- The same in the books. -/
structure Tallied (world : World Server) (listeners : Listeners) : Prop where
  balanced : world.books.Balanced
  acceptors : world.books.statistics.totalListening = listeners.listening.card

section Step

variable {world next : World Server} {listeners : Listeners} {label : Label}

/-- The counters after a call, and what it adds to that of the acceptors. -/
theorem balanced_perform {call : ApiCall} (sound : world.toLifecycle.Sound)
    (kept : Kept world.books.account world.books.duties) (balanced : world.books.Balanced) :
    (world.perform callbacks call).books.Balanced ∧
      (world.perform callbacks call).books.statistics.totalListening =
        world.books.statistics.totalListening + (world.entry call).elim 0 Entry.listens := by
  rw [books_perform sound]
  cases makes : world.entry call with
  | none => exact ⟨balanced, (Int.add_zero _).symm⟩
  | some made =>
      refine ⟨?_, totalListening_post world.books made⟩
      apply balanced_post (enables_entry sound makes) _ kept balanced
      rintro acceptor session rfl
      cases makes_of_entry makes

/-- Only `StartListen` and `StopListen` change the number of listening acceptors. -/
theorem listens_of_call {call : ApiCall}
    (starts : ∀ target memory, call ≠ .startListen target memory)
    (stops : ∀ target failed, call ≠ .stopListen target failed) :
    (world.entry call).elim 0 Entry.listens = 0 := by
  cases makes : world.entry call with
  | none => rfl
  | some made =>
      cases makes_of_entry makes with
      | listened target => exact absurd rfl (starts target true)
      | stopListened target => exact absurd rfl (stops target false)
      | _ => rfl

/-- The listening acceptors after a call. -/
theorem card_listening {call : ApiCall}
    (once : ∀ acceptor, StartsOnce acceptor (world, listeners) (.call call))
    (stops : StopsListening (world, listeners) (.call call)) :
    ((listeners.update world (.call call)).listening.card : Int) =
      listeners.listening.card + (world.entry call).elim 0 Entry.listens := by
  cases call with
  | startListen acceptor memory =>
      have once := once acceptor rfl
      cases stopped : world.stopSocketFlag with
      | true => simp [Listeners.update, entry, stopped]
      | false =>
          cases memory with
          | false => simp [Listeners.update, entry]
          | true =>
              rcases once stopped rfl with ⟨unlistened, unclosed⟩
              simp [Listeners.update, entry, stopped, unclosed, Entry.listens,
                Finset.card_insert_of_notMem unlistened]
  | stopListen acceptor failed =>
      cases failed with
      | true => simp [Listeners.update, entry]
      | false =>
          have listening : acceptor ∈ listeners.listening := stops rfl
          have shrinks := Finset.card_erase_add_one listening
          simp only [Listeners.update, entry, Bool.false_eq_true, if_false, Option.elim_some,
            Entry.listens]
          omega
  | _ =>
      rw [listens_of_call (fun _ _ => ApiCall.noConfusion) fun _ _ => ApiCall.noConfusion]
      exact (Int.add_zero _).symm

theorem balanced_posting {acceptors : Int} (books : Books) (made : Entry)
    (allowed : made.listens = 0 ∧ ∀ acceptor session, made ≠ .dropped acceptor session)
    (enables : books.Enables made)
    (counted : Kept books.account books.duties ∧ books.Balanced ∧
      books.statistics.totalListening = acceptors) :
    Kept (books.post made).account (books.post made).duties ∧ (books.post made).Balanced ∧
      (books.post made).statistics.totalListening = acceptors := by
  rcases counted with ⟨kept, balanced, same⟩
  refine ⟨kept_post enables kept, balanced_post enables allowed.2 kept balanced, ?_⟩
  rw [totalListening_post, allowed.1, same]
  exact Int.add_zero _

/-- The books after the completion of an operation. -/
theorem balanced_complete {index : Nat} {completion : Completion}
    (sound : world.toLifecycle.Sound) (engaged : world.toLifecycle.Engaged)
    (kept : Kept world.books.account world.books.duties) (balanced : world.books.Balanced)
    (reads : ReadsRemote (world, listeners) (.complete index completion))
    (steps : world.step callbacks (.complete index completion) = some next) :
    next.books.Balanced ∧
      next.books.statistics.totalListening = world.books.statistics.totalListening := by
  have grants : world.GrantsStep callbacks (fun entry => entry.listens = 0 ∧
      ∀ acceptor session, entry ≠ .dropped acceptor session) (.complete index completion) := by
    intro handler at_index
    simp only [ReadsRemote, at_index] at reads
    apply grantsHandler make_namesSession
    · intro current call names made makes
      rcases entry_of_namesSession names makes with ⟨session, rfl | rfl⟩ <;> simp [Entry.listens]
    · intro entry own
      cases own with
      | dropped succeeded unread =>
          rw [reads succeeded] at unread
          contradiction
      | _ => exact ⟨rfl, fun _ _ => Entry.noConfusion⟩
  have counted := step_postings sound engaged grants steps |>.preserved
    (@balanced_posting world.books.statistics.totalListening) ⟨kept, balanced, rfl⟩
  exact counted.2

theorem tallied_step (sound : world.toLifecycle.Sound) (engaged : world.toLifecycle.Engaged)
    (kept : Kept world.books.account world.books.duties) (tallied : Tallied world listeners)
    (before : BeforeShutdown label) (reads : ReadsRemote (world, listeners) label)
    (once : ∀ acceptor, StartsOnce acceptor (world, listeners) label)
    (stops : StopsListening (world, listeners) label)
    (steps : world.step callbacks label = some next) :
    Tallied next (listeners.update world label) := by
  rcases tallied with ⟨balanced, acceptors⟩
  cases label with
  | complete index completion =>
      rcases balanced_complete sound engaged kept balanced reads steps with ⟨counted, same⟩
      exact ⟨counted, same.trans acceptors⟩
  | call call =>
      simp only [World.step, Option.some.injEq] at steps
      subst steps
      rcases @balanced_perform world call sound kept balanced with ⟨counted, added⟩
      refine ⟨counted, ?_⟩
      rw [added, acceptors, card_listening once stops]
  | tick seconds =>
      simp only [World.step, Option.some.injEq] at steps
      subst steps
      exact ⟨balanced, acceptors⟩
  | stop => exact absurd before id
  | removeAll => exact absurd before id
  | release => exact absurd before id

end Step

/-- Before the service is stopped the counters are right, and none is negative, as long as every
remote endpoint can be read and the acceptors are started and stopped in turn. -/
theorem counts_of_readsRemote {both : World Server × Listeners}
    (reached : listeningService.ReachableBy (fun both label => BeforeShutdown label ∧
      ReadsRemote both label ∧ (∀ acceptor, StartsOnce acceptor both label) ∧
        StopsListening both label) both) :
    Counts both.1 both.2.listening ∧
      (∀ counter : Counter, 0 ≤ counter.value both.1.statistics) ∧
        0 ≤ both.1.statistics.totalListening := by
  have tallied : Tallied both.1 both.2 := by
    apply reached.history_invariant (fun _ _ meets => meets.1) fun _ => kept_of_reachable
    · rintro world ⟨server, _, rfl⟩
      refine ⟨?_, rfl⟩
      intro counter
      cases counter <;> rfl
    · rintro world listeners label next ⟨sound, engaged, kept⟩ tallied
        ⟨before, reads, once, stops⟩ steps
      exact tallied_step sound engaged kept tallied before reads once stops steps
  rcases kept_of_reachable (reached.forget fun _ _ meets => meets.1) with ⟨sound, _, _⟩
  have sessions : ∀ counter : Counter, counter.value both.1.statistics =
      {session | counter.counts (both.1.poolSession session) = true}.ncard := by
    intro counter
    have balanced : counter.value both.1.statistics =
      tally counter.counts (fun session => (both.1.poolSession session).account)
        (both.1.currentConnexindex + 1) := tallied.balanced counter
    rw [balanced, tally_eq_ncard]
    · simp only [counter.counts_account]
    · intro session counts
      rw [counter.counts_account] at counts
      have := (sound.numbered session (counter.alive_of_counts counts)).1
      omega
  have acceptors : both.1.statistics.totalListening = both.2.listening.card := tallied.acceptors
  refine ⟨⟨sessions, acceptors⟩, ?_, ?_⟩
  · intro counter
    rw [sessions]
    exact Int.natCast_nonneg _
  · rw [acceptors]
    exact Int.natCast_nonneg _

/-- A client is accepted, the web server is connected to, and the acceptor is stopped. -/
theorem counts_of_readsRemote_of_stopListen :
    ∃ both : World Server × Listeners,
      listeningService.ReachableBy (fun both label => BeforeShutdown label ∧
          ReadsRemote both label ∧ (∀ acceptor, StartsOnce acceptor both label) ∧
            StopsListening both label) both ∧
        both.1.statistics.totalSession = 3 ∧ both.1.statistics.totalConneced = 1 ∧
          both.1.statistics.totalConnecting = 1 ∧ both.2.listening = ∅ ∧
            Counts both.1 both.2.listening := by
  have meets : listeningService.RunMeets (fun both label => BeforeShutdown label ∧
      ReadsRemote both label ∧ (∀ acceptor, StartsOnce acceptor both label) ∧
        StopsListening both label) (World.initial atStart, ⟨∅, ∅⟩)
      [.call (.startListen 0 true), .complete 0 (.success []), .call (.asyncConnect 0 true),
        .complete 3 (.success []), .call (.stopListen 0 false)] := by
    refine ⟨⟨trivial, trivial, fun acceptor => startsOnce_atStart acceptor 0 true, trivial⟩, ?_⟩
    rintro listening ⟨⟩
    refine ⟨⟨trivial, fun _ => rfl, fun _ => trivial, trivial⟩, ?_⟩
    rintro accepted ⟨⟩
    refine ⟨⟨trivial, trivial, fun _ => trivial, trivial⟩, ?_⟩
    rintro connecting ⟨⟩
    refine ⟨⟨trivial, trivial, fun _ => trivial, trivial⟩, ?_⟩
    rintro connected ⟨⟩
    refine ⟨⟨trivial, trivial, fun _ => trivial, ?_⟩, fun _ _ => trivial⟩
    exact fun _ => Finset.mem_insert_self 0 ∅
  have runs : ∃ both, listeningService.run (World.initial atStart, ⟨∅, ∅⟩)
      [.call (.startListen 0 true), .complete 0 (.success []), .call (.asyncConnect 0 true),
        .complete 3 (.success []), .call (.stopListen 0 false)] = some both ∧
          both.1.statistics.totalSession = 3 ∧ both.1.statistics.totalConneced = 1 ∧
            both.1.statistics.totalConnecting = 1 ∧ both.2.listening = ∅ :=
    ⟨_, rfl, rfl, rfl, rfl, rfl⟩
  rcases runs with ⟨both, runs, allocated, accepted, connecting, listening⟩
  have reached := Transition.System.ReachableBy.run (.initial listening_atStart) meets runs
  exact ⟨both, reached, allocated, accepted, connecting, listening,
    (counts_of_readsRemote reached).1⟩

/-- A client whose remote endpoint cannot be read is counted as connected for ever. -/
theorem not_counts_after_remoteError :
    ¬∀ both, listeningService.ReachableBy (fun both label => BeforeShutdown label ∧
      (∀ acceptor, StartsOnce acceptor both label) ∧ StopsListening both label) both →
        Counts both.1 both.2.listening := by
  intro counts
  have meets : listeningService.RunMeets (fun both label => BeforeShutdown label ∧
      (∀ acceptor, StartsOnce acceptor both label) ∧ StopsListening both label)
        (World.initial atStart, ⟨∅, ∅⟩) [.call (.startListen 0 true),
          .complete 0 { Completion.success [] with remoteError := true }] := by
    refine ⟨⟨trivial, fun acceptor => startsOnce_atStart acceptor 0 true, trivial⟩, ?_⟩
    rintro listening ⟨⟩
    exact ⟨⟨trivial, fun _ => trivial, trivial⟩, fun _ _ => trivial⟩
  have runs : ∃ both, listeningService.run (World.initial atStart, ⟨∅, ∅⟩)
      [.call (.startListen 0 true),
        .complete 0 { Completion.success [] with remoteError := true }] = some both ∧
          both.1.statistics.totalConneced = 1 ∧ both.1.currentConnexindex = 3 ∧
            ∀ session < 4, (both.1.poolSession session).socketStatus ≠ .connected :=
    ⟨_, rfl, rfl, rfl, by decide⟩
  rcases runs with ⟨both, runs, counted, current, unconnected⟩
  have reached := Transition.System.ReachableBy.run (.initial listening_atStart) meets runs
  rcases kept_of_reachable (reached.forget fun _ _ meets => meets.1) with ⟨sound, _, _⟩
  have one := (counts both reached).sessions .totalConneced
  rw [show Counter.totalConneced.value both.1.statistics = 1 from counted] at one
  have single : {session | Counter.totalConneced.counts (both.1.poolSession session) =
      true}.ncard = 1 := by omega
  rcases Set.ncard_eq_one.mp single with ⟨session, only⟩
  have counted : Counter.totalConneced.counts (both.1.poolSession session) = true :=
    (Set.ext_iff.mp only session).mpr rfl
  have numbered := (sound.numbered session (Counter.alive_of_counts _ counted)).1
  apply unconnected session (by omega)
  simp only [Counter.counts, Bool.and_eq_true, decide_eq_true_eq] at counted
  exact counted.1.2

end Server

end SunPush
