import SunPush.PushServer.ClientViews
import SunPush.PushServer.Occasions
import SunPush.Session.Ownership

/-!
# The conversation with a client

What the server puts on a client's socket is told in terms of the chunks that
the socket delivers: the client is greeted once, and every login message of the
right size that the chunks contain is acknowledged once, in order.  Whatever
other clients, the web server and the threads do meanwhile only adds
acknowledgements of orders.

Every connection has one of three kinds: nothing has been heard of it yet, it is
a client, or the service asked for it itself.
-/

namespace SunPush

open CInteger Noninterference Lifecycle

namespace Server

/-! ## The occasions of a connection -/

def Callback.connIndex : Callback → Int
  | .onAccept connIndex _ => connIndex
  | .onConnect connIndex => connIndex
  | .onReadComplete _ connIndex _ _ => connIndex

theorem connIndex_onAccept (connIndex : Int) (memory : Bool) :
    (Callback.onAccept connIndex memory).connIndex = connIndex :=
  rfl

theorem connIndex_onConnect (connIndex : Int) :
    (Callback.onConnect connIndex).connIndex = connIndex :=
  rfl

theorem connIndex_onReadComplete (owner : Owner) (connIndex : Int) (msg : NetMsg) (length : Int) :
    (Callback.onReadComplete owner connIndex msg length).connIndex = connIndex :=
  rfl

theorem callback_meeting (made : World Server) (callback : Callback) :
    (meeting made callback).callback = callback :=
  rfl

/-- The occasions on which a callback is called for the connection. -/
def ofConnection (connectID : Int) (occasions : List Occasion) : List Occasion :=
  occasions.filter fun occasion => occasion.callback.connIndex = connectID

/-- The occasion reports the message to an acceptor. -/
def Brings (connectID : Int) (occasion : Occasion) (message : List UInt8) : Prop :=
  ∃ acceptor msg length, occasion.callback = .onReadComplete (.acceptor acceptor) connectID msg
    length ∧ message = msg.message length ∧ 1 ≤ length ∧ length ≤ maxMsgSize

/-- What is sent to the connection on the occasion reaches its socket. -/
def Occasion.Reaches (connectID : Int) (occasion : Occasion) : Prop :=
  occasion.stopSocketFlag = false ∧ occasion.found connectID = true

/-- The occasions of a session's connection so far. -/
inductive Phase (session : Nat) (world : World Server) : List Occasion → Prop where
  | silent (outstanding : world.outstanding session = []) : Phase session world []
  | client {accept : Occasion} {reads : List Occasion} {memory : Bool} {acceptor : Nat}
      (accepts : accept.callback = .onAccept (toLong session) memory) (numbered : 0 < session)
      (unopened : ¬world.Opening session)
      (owner : world.IsOpen session →
        (world.poolSession session).owner = some (.acceptor acceptor))
      (brings : List.Forall₂ (Brings (toLong session)) reads (world.messages session))
      (reaches : world.stopSocketFlag = false →
        ∀ occasion ∈ accept :: reads, occasion.Reaches (toLong session)) :
      Phase session world (accept :: reads)
  | web {occasions : List Occasion} (nonempty : occasions ≠ [])
      (unopened : ¬world.Opening session)
      (unaccepted : ∀ occasion ∈ occasions, ∀ memory,
        occasion.callback ≠ .onAccept (toLong session) memory) : Phase session world occasions

/-- What is known of a session's connection. -/
structure Told (session : Nat) (world : World Server) (occasions : List Occasion) : Prop where
  opening : world.Opening session → 0 < session ∧ occasions = []
  phase : Phase session world occasions

section Step

variable {session : Nat} {world next : World Server} {occasions : List Occasion}

theorem Told.passes (told : Told session world occasions)
    (passes : World.Passes session world next)
    (later : Later world.toLifecycle next.toLifecycle) : Told session next occasions where
  opening opening := told.opening (passes.opening opening)
  phase := by
    cases told.phase with
    | silent outstanding => exact .silent (passes.outstanding outstanding)
    | client accepts numbered unopened owner brings reaches =>
        rcases passes.toRetains.owned unopened owner with ⟨next_unopened, next_owner⟩
        refine .client accepts numbered next_unopened next_owner ?_ ?_
        · rw [passes.messages]
          exact brings
        · exact fun running => reaches (later.running running)
    | web nonempty unopened unaccepted =>
        exact .web nonempty (fun opening => unopened (passes.opening opening)) unaccepted

theorem connIndex_of_callbackOf {completion : Completion} {handler : Handler}
    {callback : Callback} (made : callbackOf completion world handler = some callback) :
    callback.connIndex = (world.poolSession handler.session).connIndex := by
  cases handler with
  | handleAccept acceptor target =>
      simp only [callbackOf, Option.ite_none_left_eq_some, Option.some.injEq] at made
      rw [← made.2]
      rfl
  | handleConnect connector target =>
      simp only [callbackOf, Option.ite_none_left_eq_some, Option.some.injEq] at made
      rw [← made.2]
      rfl
  | handleReadSp target receive =>
      simp only [callbackOf, Option.ite_none_left_eq_some] at made
      rcases made with ⟨_, made⟩
      split at made
      · rw [Option.some.injEq] at made
        rw [← made]
        rfl
      · contradiction
  | handleWrite target length => contradiction
  | handleExit target wait => contradiction
  | handleDestory target wait => contradiction

theorem ofConnection_append (connectID : Int) (early late : List Occasion) :
    ofConnection connectID (early ++ late) =
      ofConnection connectID early ++ ofConnection connectID late :=
  List.filter_append ..

/-- A step whose callback is called for no session or another one. -/
theorem ofConnection_unconcerned {connectID : Int} {label : Label}
    (other : ∀ callback, stepCallback world label = some callback →
      callback.connIndex ≠ connectID) :
    ofConnection connectID (occasions ++ (occasionOf world label).toList) =
      ofConnection connectID occasions := by
  rw [ofConnection_append, occasionOf]
  cases made : stepCallback world label with
  | none => exact List.append_nil _
  | some callback =>
      have rejected : ofConnection connectID [meeting (world.calls callbacks label).1 callback] =
          [] :=
        List.filter_cons_of_neg fun own => other callback made (of_decide_eq_true own)
      simp only [Option.map_some, Option.toList_some, rejected, List.append_nil]

/-- A step whose callback is called for the session. -/
theorem ofConnection_concerned {connectID : Int} {label : Label} {callback : Callback}
    (made : stepCallback world label = some callback) (own : callback.connIndex = connectID) :
    ofConnection connectID (occasions ++ (occasionOf world label).toList) =
      ofConnection connectID occasions ++ [meeting (world.calls callbacks label).1 callback] := by
  rw [ofConnection_append, occasionOf, made]
  simp only [Option.map_some, Option.toList_some]
  refine congrArg (ofConnection connectID occasions ++ ·) ?_
  exact List.filter_cons_of_pos (decide_eq_true own)

/-! ## The handlers of the session -/

section Own

variable {before after : List Handler} {completion : Completion} {connectID : Int}

/-- The step completes the operation of `handler`, which is called for the session. -/
structure Completes (session : Nat) (world next : World Server) (index : Nat)
    (completion : Completion) (before after : List Handler) (handler : Handler) : Prop where
  at_index : world.pending[index]? = some handler
  split : world.pending = before ++ handler :: after
  others : world.pending.eraseIdx index = before ++ after
  next_eq : next = World.handle callbacks completion { world with pending := before ++ after }
    handler
  own : handler.session = session

theorem told_handleAccept {index acceptor : Nat} (sound : world.toLifecycle.Sound)
    (completes : Completes session world next index completion before after
      (.handleAccept acceptor session))
    (later : Later world.toLifecycle next.toLifecycle) (messages : next.messages session = [])
    (told : Told session world (ofConnection (toLong session) occasions)) :
    Told session next (ofConnection (toLong session)
      (occasions ++ (occasionOf world (.complete index completion)).toList)) := by
  rcases completes with ⟨at_index, split, others, rfl, -⟩
  have numbered : (world.poolSession session).connIndex = toLong session :=
    (sound.fits_of_split split).1.2
  rcases told.opening (.inr ⟨_, mem_of_split split, rfl, rfl⟩) with ⟨positive, unheard_of⟩
  by_cases refused : completion.error ≠ 0 ∨ completion.remoteError = true
  · have silent : stepCallback world (.complete index completion) = none := by
      simp only [stepCallback, at_index, Option.bind_some, callbackOf, if_pos refused]
    have taken := @World.unheard_take Server session world _ before after split rfl
    have refuses := @World.unheard_handleAccept_refused Server callbacks session completion acceptor
      refused { world with pending := before ++ after }
    have passes := (taken.trans refuses).passes
    rw [ofConnection_unconcerned (fun _ made => by rw [silent] at made; contradiction)]
    exact told.passes passes later
  · have made : stepCallback world (.complete index completion) =
        some (.onAccept (toLong session) completion.upperMemory) := by
      simp only [stepCallback, at_index, Option.bind_some, callbackOf, if_neg refused, numbered]
    rcases not_or.mp refused with ⟨succeeded, read⟩
    have owned := @World.owned_handleAccept Server callbacks session world before after completion
      acceptor sound split (not_not.mp succeeded) (Bool.eq_false_iff.mpr read)
    have reaches : world.stopSocketFlag = false → Occasion.Reaches (toLong session)
        (meeting (world.calls callbacks (.complete index completion)).1
          (.onAccept (toLong session) completion.upperMemory)) := by
      intro running
      simp only [World.calls, at_index, World.callsOf, if_neg refused]
      refine ⟨running, ?_⟩
      have entered : ((world.take (world.pending.eraseIdx index)).accepting acceptor
          session).mapSession = world.mapSession.insert (toLong session) session := by
        simp only [World.accepting, World.announced, World.openSession, World.updateSession,
          World.record, World.modify, World.use, World.count, World.take, Function.update_self,
          numbered]
      exact Option.isSome_iff_exists.mpr ⟨session, by
        change ((world.take (world.pending.eraseIdx index)).accepting acceptor
          session).mapSession.lookup (toLong session) = some session
        rw [entered, AList.lookup_insert]⟩
    have grows := @ofConnection_concerned world occasions (toLong session) _ _ made
      (connIndex_onAccept _ _)
    rw [grows, unheard_of]
    refine ⟨fun opening => absurd opening owned.1, ?_⟩
    refine .client (callback_meeting _ _) positive owned.1 owned.2 ?_ ?_
    · exact messages ▸ .nil
    · intro running occasion mem
      rcases List.mem_singleton.mp mem with rfl
      exact reaches (later.running running)

theorem told_handleConnect {index connector : Nat} (sound : world.toLifecycle.Sound)
    (completes : Completes session world next index completion before after
      (.handleConnect connector session))
    (later : Later world.toLifecycle next.toLifecycle)
    (told : Told session world (ofConnection (toLong session) occasions)) :
    Told session next (ofConnection (toLong session)
      (occasions ++ (occasionOf world (.complete index completion)).toList)) := by
  rcases completes with ⟨at_index, split, others, rfl, -⟩
  have numbered : (world.poolSession session).connIndex = toLong session :=
    (sound.fits_of_split split).1.2
  rcases told.opening (.inr ⟨_, mem_of_split split, rfl, rfl⟩) with ⟨-, unheard_of⟩
  by_cases abandoned : completion.error ≠ 0 ∧ world.stopSocketFlag = true
  · have silent : stepCallback world (.complete index completion) = none := by
      simp only [stepCallback, at_index, Option.bind_some, callbackOf, if_pos abandoned]
    have taken := @World.unheard_take Server session world _ before after split rfl
    have fails := @World.unheard_handleConnect_failed Server callbacks session connector session
      completion abandoned.1 { world with pending := before ++ after }
    have passes := (taken.trans fails).passes
    rw [ofConnection_unconcerned (fun _ made => by rw [silent] at made; contradiction)]
    exact told.passes passes later
  · have made : stepCallback world (.complete index completion) =
        some (.onConnect (toLong session)) := by
      simp only [stepCallback, at_index, Option.bind_some, callbackOf, if_neg abandoned, numbered]
    have unopened := @World.unopened_handleConnect Server callbacks session world before after
      completion connector sound split
    have grows := @ofConnection_concerned world occasions (toLong session) _ _ made
      (connIndex_onConnect _)
    rw [grows, unheard_of]
    refine ⟨fun opening => absurd opening unopened, .web (List.cons_ne_nil _ _) unopened ?_⟩
    intro occasion mem memory
    rcases List.mem_singleton.mp mem with rfl
    exact Callback.noConfusion

/-- A receive of the session is taken, and nothing is reported. -/
theorem Phase.retained (phase : Phase session world occasions)
    (retains : World.Retains session world next)
    (later : Later world.toLifecycle next.toLifecycle)
    (messages : next.messages session = world.messages session)
    (heard : world.outstanding session ≠ []) : Phase session next occasions := by
  cases phase with
  | silent outstanding => exact absurd outstanding heard
  | client accepts numbered unopened owner brings reaches =>
      rcases retains.owned unopened owner with ⟨next_unopened, next_owner⟩
      refine .client accepts numbered next_unopened next_owner ?_ ?_
      · rw [messages]
        exact brings
      · exact fun running => reaches (later.running running)
  | web nonempty unopened unaccepted =>
      exact .web nonempty (fun opening => unopened (retains.opening opening)) unaccepted

/-- A receive of the session is taken, and its message is reported. -/
theorem Phase.reported {made : World Server} {owner : Owner} {msg : NetMsg} {length : Int}
    (phase : Phase session world occasions) (retains : World.Retains session world next)
    (later : Later world.toLifecycle next.toLifecycle)
    (messages : next.messages session = world.messages session ++ [msg.message length])
    (heard : world.outstanding session ≠ [])
    (owned : (world.poolSession session).owner = some owner) (opened : world.IsOpen session)
    (positive : 1 ≤ length) (fits : length ≤ maxMsgSize)
    (reaches : ∀ acceptor, owner = .acceptor acceptor →
      (meeting made (.onReadComplete owner (toLong session) msg length)).Reaches
        (toLong session)) :
    Phase session next
      (occasions ++ [meeting made (.onReadComplete owner (toLong session) msg length)]) := by
  cases phase with
  | silent outstanding => exact absurd outstanding heard
  | @client accept reads memory acceptor accepts numbered unopened owner_of brings before_reaches =>
      rcases retains.owned unopened owner_of with ⟨next_unopened, next_owner⟩
      have same : owner = .acceptor acceptor :=
        Option.some.inj (owned.symm.trans (owner_of opened))
      subst same
      refine .client accepts numbered next_unopened next_owner ?_ ?_
      · rw [messages]
        refine List.rel_append brings (.cons ?_ .nil)
        exact ⟨acceptor, msg, length, callback_meeting _ _, rfl, positive, fits⟩
      · intro running occasion mem
        have either : occasion ∈ (accept :: reads) ++ [_] := mem
        rcases List.mem_append.mp either with earlier | last
        · exact before_reaches (later.running running) occasion earlier
        · rw [List.mem_singleton.mp last]
          exact reaches acceptor rfl
  | web nonempty unopened unaccepted =>
      refine .web ?_ (fun opening => unopened (retains.opening opening)) ?_
      · exact List.append_ne_nil_of_left_ne_nil nonempty _
      · intro occasion mem memory
        rcases List.mem_append.mp mem with earlier | last
        · exact unaccepted occasion earlier memory
        · rw [List.mem_singleton.mp last]
          exact Callback.noConfusion

/-- Between the reading of a message and the calls of its callback, the map stays as it is. -/
theorem callsOf_handleReadSp (completion : Completion) (world : World Server) (session : Nat)
    (receive : Receive) :
    (world.callsOf callbacks completion (.handleReadSp session receive)).1.stopSocketFlag =
        world.stopSocketFlag ∧
      (world.callsOf callbacks completion (.handleReadSp session receive)).1.mapSession =
        world.mapSession := by
  simp only [World.callsOf]
  split
  · exact ⟨rfl, rfl⟩
  · simp only [World.callsOnRead]
    split <;> exact ⟨rfl, rfl⟩

theorem isSome_acceptor_of_owner {fields : Session} {acceptor : Nat}
    (owned : fields.owner = some (.acceptor acceptor)) : fields.acceptor.isSome = true := by
  rw [Session.owner] at owned
  split at owned
  · next accepts => rw [accepts]; rfl
  · simp at owned
  · contradiction

theorem told_handleReadSp {index : Nat} {receive : Receive} {chunks : Nat → List (List UInt8)}
    (sound : world.toLifecycle.Sound) (listed : world.toLifecycle.Listed)
    (unwrapped : world.toLifecycle.Unwrapped)
    (follows : World.Follows (chunks session) session world)
    (followed : World.Follows (World.hears chunks world completion (.handleReadSp session receive)
      session) session next)
    (completes : Completes session world next index completion before after
      (.handleReadSp session receive))
    (later : Later world.toLifecycle next.toLifecycle)
    (told : Told session world (ofConnection (toLong session) occasions)) :
    Told session next (ofConnection (toLong session)
      (occasions ++ (occasionOf world (.complete index completion)).toList)) := by
  rcases completes with ⟨at_index, split, others, next_eq, -⟩
  have numbered : (world.poolSession session).connIndex = toLong session :=
    (sound.fits_of_split split).1.2
  have window : ReadState.Window (world.poolSession session).readState receive :=
    (sound.fits_of_split split).2
  have outstanding : receive ∈ world.outstanding session :=
    List.mem_filterMap.mpr ⟨_, mem_of_split split, if_pos rfl⟩
  have heard : world.outstanding session ≠ [] := List.ne_nil_of_mem outstanding
  have unopened : ¬world.Opening session := fun opening => heard (follows.opening opening).2
  have retains : World.Retains session world next := by
    rw [next_eq]
    exact (World.retains_take split).trans (World.retains_handleReadSp session receive _ _)
  refine ⟨fun opening => absurd (retains.opening opening) unopened, ?_⟩
  have messages := followed.messages
  rw [World.hears_self] at messages
  by_cases hearing : world.stopSocketFlag = false ∧ world.IsOpen session
  · have reads : ¬(world.stopSocketFlag = true ∨ (world.poolSession session).isClosed = true) := by
      rw [hearing.1, hearing.2.2]
      simp
    rcases follows.reads hearing.2 receive outstanding with ⟨owned, isolated⟩
    rcases Option.isSome_iff_exists.mp owned with ⟨owner, owned⟩
    let outcome := (world.poolSession session).readState.handleReadSp
      (receive.msg.place receive.recvOffset completion.bytes) (toSizeT receive.recvLength)
      completion.wouldBlock
    have decided := @World.complete_of_window (world.poolSession session).readState receive
      completion.bytes completion.wouldBlock outcome window rfl
    rw [if_pos hearing, World.complete_singleton, isolated, decided, ← follows.messages] at messages
    have made : stepCallback world (.complete index completion) =
        outcome.deliver.map fun delivered =>
          .onReadComplete owner (toLong session) delivered.1 delivered.2 := by
      simp only [stepCallback, at_index, Option.bind_some, callbackOf, if_neg reads, owned,
        numbered]
      split
      · next msg length other delivers same =>
          have delivered : outcome.deliver = some (msg, length) := delivers
          rw [delivered, Option.some.inj same]
          rfl
      · next nothing =>
          cases delivers : outcome.deliver with
          | none => rfl
          | some delivered => exact (nothing delivered.1 delivered.2 owner delivers rfl).elim
    cases delivers : outcome.deliver with
    | none =>
        rw [delivers] at made messages
        simp only [Option.map_none, Option.toList_none, List.append_nil] at messages
        rw [ofConnection_unconcerned (fun _ calls => by rw [made] at calls; contradiction)]
        exact told.phase.retained retains later messages heard
    | some delivered =>
        rcases delivered with ⟨msg, length⟩
        rw [delivers] at made messages
        simp only [Option.map_some, Option.toList_some] at messages
        have bounds := ReadState.length_of_deliver window delivers
        have grows := @ofConnection_concerned world occasions (toLong session) _ _ made
          (connIndex_onReadComplete _ _ _ _)
        rw [grows]
        refine told.phase.reported retains later messages heard owned hearing.2 bounds.1 bounds.2 ?_
        rintro acceptor rfl
        have asked : ((world.poolSession session).acceptor).isSome = true :=
          isSome_acceptor_of_owner owned
        rcases sound.owned session asked with ⟨alive, connected, -⟩
        have met := callsOf_handleReadSp completion (world.take (world.pending.eraseIdx index))
          session receive
        have found := listed unwrapped (toLong session) session alive connected numbered
        simp only [World.calls, at_index]
        refine ⟨met.1.trans hearing.1, ?_⟩
        exact Option.isSome_iff_exists.mpr ⟨session,
          (congrArg (AList.lookup (toLong session)) met.2).trans found⟩
  · have silent : stepCallback world (.complete index completion) = none := by
      simp only [stepCallback, at_index, Option.bind_some, callbackOf]
      by_cases reads : world.stopSocketFlag = true ∨ (world.poolSession session).isClosed = true
      · rw [if_pos reads]
      · rw [if_neg reads]
        rcases not_or.mp reads with ⟨running, notClosed⟩
        have dead : (world.poolSession session).alive = false := by
          cases alive : (world.poolSession session).alive with
          | false => rfl
          | true =>
              have opened : world.IsOpen session := ⟨alive, Bool.eq_false_iff.mpr notClosed⟩
              exact absurd ⟨Bool.eq_false_iff.mpr running, opened⟩ hearing
        rw [follows.forgotten dead]
        split
        · contradiction
        · rfl
    rw [if_neg hearing, ← follows.messages] at messages
    rw [ofConnection_unconcerned (fun _ calls => by rw [silent] at calls; contradiction)]
    exact told.phase.retained retains later messages heard

end Own

/-- One step of the service. -/
theorem told_step {label : Label} {chunks : Nat → List (List UInt8)}
    (sound : world.toLifecycle.Sound) (engaged : world.toLifecycle.Engaged)
    (listed : world.toLifecycle.Listed) (follows : World.Follows (chunks session) session world)
    (small : session < 2 ^ 32) (unwrapped : next.toLifecycle.Unwrapped)
    (steps : world.step callbacks label = some next)
    (told : Told session world (ofConnection (toLong session) occasions)) :
    Told session next (ofConnection (toLong session)
      (occasions ++ (occasionOf world label).toList)) := by
  have later := World.later_step sound steps
  by_cases incomplete : ∀ index completion, label ≠ .complete index completion
  · have silent : stepCallback world label = none := by
      cases label with
      | complete index completion => exact absurd rfl (incomplete index completion)
      | _ => rfl
    rw [ofConnection_unconcerned (fun _ made => by rw [silent] at made; contradiction)]
    exact told.passes (World.passes_step incomplete steps) later
  · simp only [not_forall, not_not] at incomplete
    rcases incomplete with ⟨index, completion, rfl⟩
    have followed := World.follows_step sound engaged steps follows
    rcases World.complete_cases steps with
      ⟨handler, before, after, at_index, split, others, next_eq⟩
    simp only [World.hear, at_index] at followed
    have numbered := (sound.fits_of_split split).1
    have passing (other : session ≠ handler.session ∨
          handler.opens = false ∧ handler.receives = false)
        (receives : World.receiveOf session handler = none)
        (unconcerned : ∀ callback, stepCallback world (.complete index completion) =
          some callback → callback.connIndex ≠ toLong session) :
        Told session next (ofConnection (toLong session)
          (occasions ++ (occasionOf world (.complete index completion)).toList)) := by
      have taken := @World.unheard_take Server session world _ before after split receives
      have handled := @World.unheard_handle Server callbacks session completion handler other
        { world with pending := before ++ after }
      rw [ofConnection_unconcerned unconcerned]
      rw [next_eq] at later ⊢
      exact told.passes (taken.trans handled).passes later
    by_cases own : handler.session = session
    · have completes : Completes session world next index completion before after handler :=
        ⟨at_index, split, others, next_eq, own⟩
      cases handler with
      | handleAccept acceptor target =>
          have same : target = session := own
          subst same
          have unopened := follows.opening (.inr ⟨_, mem_of_split split, rfl, rfl⟩)
          have messages := followed.messages
          change next.messages target = (Connection.start.run (chunks target)).2 at messages
          rw [unopened.1] at messages
          exact told_handleAccept sound completes later messages told
      | handleConnect connector target =>
          have same : target = session := own
          subst same
          exact told_handleConnect sound completes later told
      | handleReadSp target receive =>
          have same : target = session := own
          subst same
          exact told_handleReadSp sound listed (later.unwrapped unwrapped) follows followed
            completes later told
      | _ =>
          refine passing (.inr ⟨rfl, rfl⟩) rfl ?_
          intro callback made
          simp only [stepCallback, at_index, Option.bind_some] at made
          contradiction
    · refine passing (.inl (Ne.symm own)) ?_ ?_
      · cases receives : World.receiveOf session handler with
        | none => rfl
        | some receive =>
            rcases World.of_receiveOf receives with ⟨target, rfl, same⟩
            exact absurd same own
      · intro callback made
        simp only [stepCallback, at_index, Option.bind_some] at made
        rw [connIndex_of_callbackOf made, numbered.2]
        intro same
        have allocated := Nat.lt_of_le_of_lt numbered.1 (later.unwrapped unwrapped)
        exact own (toLong_injective_of_lt allocated small same)

end Step

/-! ## What the client is sent -/

def readyBytes : List UInt8 :=
  [10, 0, 7, 0, 8, 0, 0x9A, 0x02, 0, 0] ++ toWSAuthStr

def authAckBytes : List UInt8 := [10, 2, 1]

def orderAckBytes : List UInt8 := [10, 54, 0]

theorem read_svrReadyCmd (stack : Memory) : (svrReadyCmd stack).read 0 42 = readyBytes :=
  (determined_svrReadyCmd 0 stack .zero).trans (by decide +kernel)

theorem read_userAuthAck (stack : Memory) : (userAuthAck stack).read 0 3 = authAckBytes :=
  (determined_userAuthAck 0 stack .zero).trans (by decide +kernel)

theorem read_testOrderAck (stack : Memory) : (testOrderAck stack).read 0 3 = orderAckBytes :=
  (determined_testOrderAck 0 stack .zero).trans (by decide +kernel)

/-- A `MSG_C2S_USER_AUTH_SYN` of the size of its structure. -/
def IsLogin (message : List UInt8) : Prop :=
  message.length = 46 ∧ message.take 2 = [csLogon, 1]

instance : DecidablePred IsLogin :=
  fun _ => inferInstanceAs (Decidable (_ ∧ _))

section Machine

variable {connectID : Int}

/-- A letter to the client, when it reaches its socket. -/
theorem outputs_of_reaches {occasion : Occasion} (reaches : occasion.Reaches connectID)
    (object : Memory → Memory) (length : UInt16) (stack : Memory) :
    (Letter.mk connectID object length).outputs occasion stack =
      [(connectID, (object stack).read 0 length.toNat)] :=
  if_pos reaches

theorem client_onAccept {occasion : Occasion}
    (accepts : occasion.callback = .onAccept connectID true)
    (reaches : occasion.Reaches connectID) (stack : Memory) :
    ∃ info, client connectID none occasion stack = (some info, [(connectID, readyBytes)]) := by
  refine ⟨{ UserInfomation.construct with connectID, userStatus := .connected }, ?_⟩
  have outputs := outputs_of_reaches reaches svrReadyCmd 42 stack
  simp only [client, attend, accepts, if_true, Option.toList_some, List.flatMap_singleton, outputs]
  exact congrArg (fun bytes => (_, [(connectID, bytes)])) (read_svrReadyCmd stack)

/-- A message is a login in the buffer exactly when it is one as a list of bytes. -/
theorem isLogin_iff {msg : NetMsg} {length : Int} (positive : 1 ≤ length)
    (fits : length ≤ maxMsgSize) :
    IsLogin (msg.message length) ↔
      msg.bufMsg 0 = csLogon ∧ msg.bufMsg 1 = 1 ∧ UInt16.ofNat (toUInt16 length) = 46 := by
  rcases Int.eq_ofNat_of_zero_le (by omega : 0 ≤ length) with ⟨size, rfl⟩
  simp only [maxMsgSize] at fits
  have told : toUInt16 (size : Int) = size := by
    rw [toUInt16_natCast]
    omega
  have sized : UInt16.ofNat size = 46 ↔ size = 46 := by
    constructor
    · intro same
      have counts := congrArg UInt16.toNat same
      rw [UInt16.toNat_ofNat_of_lt' (by simp only [UInt16.size]; omega)] at counts
      exact counts
    · rintro rfl
      rfl
  have bytes : (msg.message (size : Int)).length = size := by
    simp [NetMsg.message, Memory.read]
  rw [IsLogin, told, sized, bytes]
  constructor
  · rintro ⟨rfl, start⟩
    have heads : [msg.bufMsg 0, msg.bufMsg 1] = [csLogon, 1] := start
    rw [List.cons_eq_cons, List.cons_eq_cons] at heads
    exact ⟨heads.1, heads.2.1, rfl⟩
  · rintro ⟨category, protocol, rfl⟩
    refine ⟨rfl, ?_⟩
    change [msg.bufMsg 0, msg.bufMsg 1] = [csLogon, 1]
    rw [category, protocol]

/-- A known client's message is answered if it is a login. -/
theorem client_brings {occasion : Occasion} {message : List UInt8}
    (brings : Brings connectID occasion message) (reaches : occasion.Reaches connectID)
    (info : UserInfomation) (stack : Memory) :
    ∃ changed, client connectID (some info) occasion stack =
      (some changed, if IsLogin message then [(connectID, authAckBytes)] else []) := by
  rcases brings with ⟨acceptor, msg, length, reads, rfl, positive, fits⟩
  have outputs := outputs_of_reaches reaches userAuthAck 3 stack
  have bytes : (userAuthAck stack).read 0 (3 : UInt16).toNat = authAckBytes :=
    read_userAuthAck stack
  rw [if_congr (isLogin_iff positive fits) rfl rfl]
  simp only [client, attend, reads]
  by_cases category : msg.bufMsg 0 = csLogon
  · by_cases login : msg.bufMsg 1 = 1
    · by_cases sized : UInt16.ofNat (toUInt16 length) = 46
      · refine ⟨{ info with
          accountName := (strncpyS info.accountName 20 (fun i => msg.bufMsg (2 + i)) 32).1 }, ?_⟩
        simp only [category, login, sized, ne_eq, not_true_eq_false, if_false, if_true, and_self,
          Option.toList_some, List.flatMap_singleton, outputs, bytes]
      · refine ⟨kicked info, ?_⟩
        simp only [category, login, sized, ne_eq, not_true_eq_false, not_false_eq_true, if_false,
          if_true, and_false, Option.toList_none, List.flatMap_nil]
    · simp only [category, login, ne_eq, not_true_eq_false, if_false, false_and, and_false]
      split
      · exact ⟨kicked info, rfl⟩
      · exact ⟨info, rfl⟩
  · refine ⟨info, ?_⟩
    simp only [category, ne_eq, not_false_eq_true, if_true, false_and, if_false,
      Option.toList_none, List.flatMap_nil]

theorem run_reads {reads : List Occasion} {messages : List (List UInt8)}
    (brings : List.Forall₂ (Brings connectID) reads messages)
    (reaches : ∀ occasion ∈ reads, occasion.Reaches connectID) (info : UserInfomation)
    (stack : Memory) :
    ((client connectID).run (some info) (reads.map fun occasion => (occasion, stack))).2 =
      (messages.filter fun message => IsLogin message).map fun _ => (connectID, authAckBytes) := by
  induction brings generalizing info with
  | nil => rfl
  | @cons occasion message reads messages first rest ih =>
      have head := reaches occasion List.mem_cons_self
      rcases client_brings first head info stack with ⟨changed, answered⟩
      have later := ih (fun other mem => reaches other (List.mem_cons_of_mem _ mem)) changed
      simp only [List.map_cons, Component.run, answered, later]
      by_cases login : IsLogin message
      · rw [if_pos login, List.filter_cons, if_pos (decide_eq_true login)]
        rfl
      · rw [if_neg login, List.filter_cons, if_neg fun yes => login (of_decide_eq_true yes)]
        rfl

/-- A client is greeted when it is accepted, and each of its logins is answered. -/
theorem run_client {accept : Occasion} {reads : List Occasion} {messages : List (List UInt8)}
    (accepts : accept.callback = .onAccept connectID true)
    (brings : List.Forall₂ (Brings connectID) reads messages)
    (reaches : ∀ occasion ∈ accept :: reads, occasion.Reaches connectID) (stack : Memory) :
    ((client connectID).run none ((accept :: reads).map fun occasion => (occasion, stack))).2 =
      (connectID, readyBytes) ::
        (messages.filter fun message => IsLogin message).map
          fun _ => (connectID, authAckBytes) := by
  rcases client_onAccept accepts (reaches accept List.mem_cons_self) stack with ⟨info, greeted⟩
  have answered := run_reads brings
    (fun occasion later => reaches occasion (List.mem_cons_of_mem _ later)) info stack
  rw [List.map_cons, Component.run, greeted, answered]
  rfl

/-- What the client's own callbacks have to do with what it is sent: everything but the
acknowledgements of orders. -/
def chatter (connectID : Int) :
    Share (Option UserInfomation) Occasion Memory (Int × List UInt8) (Option UserInfomation) where
  part := id
  concerns occasion := occasion.callback.connIndex = connectID
  sees entry := entry.2 ≠ orderAckBytes
  machine := client connectID

theorem outputs_eq (connectID : Int) (object : Memory → Memory) (length : UInt16)
    (occasion : Occasion) (stack : Memory) :
    ∀ frame ∈ (Letter.mk connectID object length).outputs occasion stack,
      frame.2 = (object stack).read 0 length.toNat := by
  intro frame mem
  rw [Letter.outputs] at mem
  split at mem
  · rw [List.mem_singleton.mp mem]
  · exact absurd mem List.not_mem_nil

/-- What the client's own callbacks send is no acknowledgement of an order. -/
theorem no_orderAck_of_own {callback : Callback} (apart : callback.Apart connectID)
    (own : callback.connIndex = connectID) (user : Option UserInfomation) (occasion : Occasion)
    (stack : Memory) :
    ∀ letter ∈ (attend connectID user callback).2, ∀ frame ∈ letter.outputs occasion stack,
      frame.2 ≠ orderAckBytes := by
  have ready : ∀ frame ∈ (Letter.mk connectID svrReadyCmd 42).outputs occasion stack,
      frame.2 ≠ orderAckBytes := by
    intro frame mem
    rw [outputs_eq _ _ _ _ _ frame mem]
    exact (read_svrReadyCmd stack).trans_ne (by decide)
  have answer : ∀ frame ∈ (Letter.mk connectID userAuthAck 3).outputs occasion stack,
      frame.2 ≠ orderAckBytes := by
    intro frame mem
    rw [outputs_eq _ _ _ _ _ frame mem]
    exact (read_userAuthAck stack).trans_ne (by decide)
  intro letter letter_mem
  cases callback with
  | onAccept connIndex memory =>
      cases user with
      | some info =>
          rcases Option.some.inj letter_mem with rfl
          exact ready
      | none =>
          cases memory with
          | true =>
              rcases Option.some.inj letter_mem with rfl
              exact ready
          | false => contradiction
  | onConnect connIndex => exact absurd own apart
  | onReadComplete owner connIndex msg length =>
      cases owner with
      | acceptor acceptor =>
          cases user with
          | none => contradiction
          | some info =>
              simp only [attend] at letter_mem
              repeat' split at letter_mem
              all_goals first
                | contradiction
                | rcases Option.some.inj letter_mem with rfl
                  exact answer
      | connector connector => exact absurd own apart

theorem serves_chatter (connectID : Int) :
    (client connectID).Serves (chatter connectID) (fun _ => True) fun occasion =>
      occasion.callback.concerns connectID = true ∧ occasion.callback.Apart connectID where
  known _ _ _ _ _ := trivial
  concerned := by
    rintro user occasion stack - ⟨-, apart⟩ own
    refine ⟨rfl, List.filter_eq_self.mpr ?_⟩
    intro frame mem
    rcases List.mem_flatMap.mp mem with ⟨letter, letter_mem, frame_mem⟩
    have different := no_orderAck_of_own apart (of_decide_eq_true own) user occasion stack letter
      (Option.mem_toList.mp letter_mem) frame frame_mem
    exact decide_eq_true different
  unconcerned := by
    rintro user occasion stack - ⟨concerns, -⟩ foreign
    have other : occasion.callback.connIndex ≠ connectID :=
      fun own => foreign (decide_eq_true own)
    rcases occasion with ⟨callback, stopSocketFlag, found⟩
    cases callback with
    | onAccept connIndex memory => exact absurd (of_decide_eq_true concerns) other
    | onConnect connIndex => contradiction
    | onReadComplete owner connIndex msg length =>
        cases owner with
        | acceptor acceptor => exact absurd (of_decide_eq_true concerns) other
        | connector connector =>
            refine ⟨rfl, List.filter_eq_nil_iff.mpr ?_⟩
            intro frame mem seen
            rcases List.mem_flatMap.mp mem with ⟨letter, letter_mem, frame_mem⟩
            rcases Option.some.inj (Option.mem_toList.mp letter_mem) with rfl
            have same := outputs_eq _ _ _ _ _ frame frame_mem
            exact (of_decide_eq_true seen) (same.trans (read_testOrderAck stack))

end Machine

/-! ## Runs -/

/-- The service with its course and the chunks that every session has heard. -/
def conversingService :
    Transition.System (World Server × Course × (Nat → List (List UInt8))) Label :=
  service.withHistory (⟨[], []⟩, fun _ => []) fun history world label =>
    (advance history.1 world label, World.hear history.2 world label)

/-- A client is accepted, and its receive is completed twice. -/
def twoReceives (first second : List UInt8) : List Label :=
  [.call (.startListen 0 true), .complete 0 (.success []), .complete 1 (.success first),
    .complete 2 (.success second)]

theorem initial_conversing :
    conversingService.Initial (World.initial atStart, ⟨[], []⟩, fun _ => []) :=
  ⟨initial_atStart, rfl⟩

theorem meets_twoReceives (first second : List UInt8) :
    conversingService.RunMeets (fun _ label => label.Refrains)
      (World.initial atStart, ⟨[], []⟩, fun _ => []) (twoReceives first second) := by
  refine ⟨id, ?_⟩
  intro listening listens
  rcases Option.some.inj listens with rfl
  exact ⟨trivial, fun _ _ => ⟨trivial, fun _ _ => ⟨trivial, fun _ _ => trivial⟩⟩⟩

section Runs

variable {world : World Server} {course : Course} {chunks : Nat → List (List UInt8)}
  {session : Nat}

theorem told_of_reachable
    (reached : conversingService.ReachableBy (fun _ label => label.Refrains)
      (world, course, chunks)) (small : session < 2 ^ 32) :
    World.Follows (chunks session) session world ∧
      (world.toLifecycle.Unwrapped →
        Told session world (ofConnection (toLong session) course.occasions)) := by
  let holds (world : World Server) (history : Course × (Nat → List (List UInt8))) : Prop :=
    World.Follows (history.2 session) session world ∧
      (world.toLifecycle.Unwrapped →
        Told session world (ofConnection (toLong session) history.1.occasions))
  let knows (world : World Server) : Prop :=
    (world.toLifecycle.Sound ∧ world.toLifecycle.Engaged) ∧ world.toLifecycle.Listed
  have known : ∀ world, service.Reachable world → knows world := fun _ reached =>
    ⟨World.engaged_of_reachable reached, World.listed_of_reachable reached⟩
  have starts : ∀ world, service.Initial world → holds world (⟨[], []⟩, fun _ => []) := by
    rintro world ⟨server, _, rfl⟩
    constructor
    · exact ⟨fun _ => ⟨rfl, rfl⟩, rfl, fun _ => rfl, fun opened => Bool.noConfusion opened.1⟩
    · intro _
      refine ⟨?_, .silent rfl⟩
      rintro (unallocated | ⟨handler, handler_mem, _⟩)
      · exact ⟨Nat.lt_of_le_of_lt (Nat.zero_le _) unallocated, rfl⟩
      · exact absurd handler_mem List.not_mem_nil
  refine reached.history_invariant (fun _ _ _ => trivial) known starts ?_
  rintro world ⟨course, chunks⟩ label next ⟨⟨sound, engaged⟩, listed⟩ ⟨follows, told⟩ _ steps
  refine ⟨World.follows_step sound engaged steps follows, ?_⟩
  intro unwrapped
  have before := (World.later_step sound steps).unwrapped unwrapped
  exact told_step sound engaged listed follows small unwrapped steps (told before)

theorem matches_of_conversing
    (reached : conversingService.ReachableBy (fun _ label => label.Refrains)
      (world, course, chunks)) : Matches world course := by
  have coursing := @Transition.System.ReachableBy.project _ _ _ service _ _ _ Prod.fst ⟨[], []⟩
    advance _ (fun _ label => label.Refrains) rfl (fun _ _ _ => rfl) (fun _ _ refrains => refrains)
    _ reached
  exact matches_of_reachable coursing

theorem reads_of_brings {connectID : Int} {reads : List Occasion} {messages : List (List UInt8)}
    (brings : List.Forall₂ (Brings connectID) reads messages) :
    ∀ occasion ∈ reads, ∃ acceptor msg length,
      occasion.callback = .onReadComplete (.acceptor acceptor) connectID msg length := by
  induction brings with
  | nil => exact fun _ mem => absurd mem List.not_mem_nil
  | cons first rest ih =>
      intro occasion mem
      rcases List.mem_cons.mp mem with rfl | later
      · rcases first with ⟨acceptor, msg, length, read, -⟩
        exact ⟨acceptor, msg, length, read⟩
      · exact ih occasion later

/-- The connection is that of a client, and all its messages have reached the server. -/
theorem exists_client {occasions : List Occasion} {accept : Occasion}
    (told : Told session world (ofConnection (toLong session) occasions))
    (mem : accept ∈ occasions) (accepts : accept.callback = .onAccept (toLong session) true)
    (running : world.stopSocketFlag = false) :
    0 < session ∧ ∃ reads, ofConnection (toLong session) occasions = accept :: reads ∧
      List.Forall₂ (Brings (toLong session)) reads (world.messages session) ∧
        ∀ occasion ∈ accept :: reads, occasion.Reaches (toLong session) := by
  have own : accept ∈ ofConnection (toLong session) occasions := by
    refine List.mem_filter.mpr ⟨mem, decide_eq_true ?_⟩
    rw [accepts]
    exact connIndex_onAccept _ _
  have phase := told.phase
  generalize ofConnection (toLong session) occasions = conversation at phase own ⊢
  cases phase with
  | silent outstanding => exact absurd own List.not_mem_nil
  | @client first reads memory acceptor first_accepts numbered unopened owner brings reaches =>
      rcases List.mem_cons.mp own with rfl | later
      · exact ⟨numbered, reads, rfl, brings, reaches running⟩
      · rcases reads_of_brings brings accept later with ⟨acceptor, msg, length, read⟩
        rw [accepts] at read
        contradiction
  | web nonempty unopened unaccepted => exact absurd accepts (unaccepted accept own true)

/-- The occasions of a client's connection are its acceptance and its messages. -/
theorem own_occasions {connectID : Int} {occasions reads : List Occasion} {accept : Occasion}
    {messages : List (List UInt8)} (accepts : accept.callback = .onAccept connectID true)
    (brings : List.Forall₂ (Brings connectID) reads messages)
    (own : ofConnection connectID occasions = accept :: reads) :
    (∀ occasion ∈ occasions, occasion.callback.Apart connectID) ∧
      ∀ occasion ∈ accept :: reads, occasion.callback.concerns connectID = true := by
  have kinds : ∀ occasion ∈ accept :: reads, occasion.callback.Apart connectID ∧
      occasion.callback.concerns connectID = true := by
    intro occasion mem
    rcases List.mem_cons.mp mem with rfl | later
    · rw [accepts]
      exact ⟨trivial, decide_eq_true rfl⟩
    · rcases reads_of_brings brings occasion later with ⟨acceptor, msg, length, read⟩
      rw [read]
      exact ⟨trivial, decide_eq_true rfl⟩
  refine ⟨?_, fun occasion mem => (kinds occasion mem).2⟩
  intro occasion mem
  by_cases here : occasion.callback.connIndex = connectID
  · refine (kinds occasion ?_).1
    rw [← own]
    exact List.mem_filter.mpr ⟨mem, decide_eq_true here⟩
  · cases callback : occasion.callback with
    | onAccept connIndex memory => trivial
    | onConnect connIndex =>
        rw [callback] at here
        exact here
    | onReadComplete owner connIndex msg length =>
        rw [callback] at here
        cases owner with
        | acceptor acceptor => trivial
        | connector connector => exact here

/-- What a client sees of a run, apart from acknowledgements of orders, is what its own machine
makes of the occasions of its connection. -/
theorem view_of_client {start : Server} {connectID : Int} {occasions own : List Occasion}
    (stack : Memory) (initial : start.Initial) (different : connectID ≠ 0)
    (apart : ∀ occasion ∈ occasions, occasion.callback.Apart connectID)
    (concerned : ∀ occasion ∈ own, occasion.callback.concerns connectID = true)
    (owns : ofConnection connectID occasions = own) :
    (component.run start (occasions.map fun occasion => (occasion, stack))).2.filter
        (fun frame => frame.1 = connectID ∧ frame.2 ≠ orderAckBytes) =
      ((client connectID).run none (own.map fun occasion => (occasion, stack))).2 := by
  let inputs := occasions.map fun occasion => (occasion, stack)
  have inputs_apart : ∀ entry ∈ inputs, entry.1.callback.Apart connectID := by
    intro entry mem
    rcases List.mem_map.mp mem with ⟨occasion, occasion_mem, rfl⟩
    exact apart occasion occasion_mem
  have absent : start.record connectID = none := by
    rw [record, initial.users]
    rfl
  have served := ((serves connectID).run (initial.hosts different) inputs_apart).2
  have concerning : ∀ entry ∈ Component.Share.own (share connectID) inputs,
      entry.1.callback.concerns connectID = true ∧ entry.1.callback.Apart connectID := by
    intro entry mem
    rcases List.mem_filter.mp mem with ⟨input, concerns⟩
    exact ⟨concerns, inputs_apart entry input⟩
  have chats : (client connectID).view (chatter connectID) none
      (Component.Share.own (share connectID) inputs) =
        ((client connectID).run none (Component.Share.own (chatter connectID)
          (Component.Share.own (share connectID) inputs))).2 :=
    ((serves_chatter connectID).run trivial concerning).2
  have owned : Component.Share.own (chatter connectID)
      (Component.Share.own (share connectID) inputs) =
        own.map fun occasion => (occasion, stack) := by
    rw [Component.Share.own, Component.Share.own, List.filter_filter, List.filter_map, ← owns]
    refine congrArg (List.map _) (List.filter_congr ?_)
    intro occasion mem
    rw [← owns] at concerned
    by_cases here : occasion.callback.connIndex = connectID
    · have concerns := concerned occasion (List.mem_filter.mpr ⟨mem, decide_eq_true here⟩)
      simp [chatter, share, here, concerns]
    · simp [chatter, here]
  have viewed : ((client connectID).run none (Component.Share.own (share connectID) inputs)).2 =
      (component.run start inputs).2.filter fun frame => frame.1 = connectID := by
    rw [← absent]
    exact served.symm
  rw [owned, Component.view, viewed, List.filter_filter] at chats
  rw [← chats]
  refine List.filter_congr ?_
  intro frame _
  simp [chatter, Bool.and_comm]

/-- What a client sees of a run, apart from acknowledgements of orders, is what its own machine
makes of its acceptance and of the messages that the isolated receiver makes of the chunks. -/
theorem exists_view_of_client
    (reached : conversingService.ReachableBy (fun _ label => label.Refrains)
      (world, course, chunks))
    (running : world.stopSocketFlag = false) (unwrapped : world.currentConnexindex < 2 ^ 32)
    (allocated : session ≤ world.currentConnexindex) {accept : Occasion}
    (mem : accept ∈ course.occasions)
    (accepts : accept.callback = .onAccept (toLong session) true) :
    ∃ reads stack,
      List.Forall₂ (Brings (toLong session)) reads (Connection.start.run (chunks session)).2 ∧
        (∀ occasion ∈ accept :: reads, occasion.Reaches (toLong session)) ∧
          course.sent.filter (fun frame => frame.1 = toLong session ∧ frame.2 ≠ orderAckBytes) =
            ((client (toLong session)).run none
              ((accept :: reads).map fun occasion => (occasion, stack))).2 := by
  have small : session < 2 ^ 32 := Nat.lt_of_le_of_lt allocated unwrapped
  rcases told_of_reachable reached small with ⟨follows, told⟩
  rcases exists_client (told unwrapped) mem accepts running with
    ⟨positive, reads, own, brings, reaches⟩
  rcases own_occasions accepts brings own with ⟨apart, concerned⟩
  rcases matches_of_conversing reached with ⟨start, initial, -, runs⟩
  have different : toLong session ≠ 0 := by
    rw [toLong_natCast small]
    split <;> omega
  have seen := view_of_client start.stack initial different apart concerned own
  rw [runs] at seen
  rw [follows.messages] at brings
  exact ⟨reads, start.stack, brings, reaches, seen⟩

/-- The login message of a client without a name. -/
def loginBytes : List UInt8 := csLogon :: 1 :: List.replicate 44 0

end Runs

end Server

end SunPush
