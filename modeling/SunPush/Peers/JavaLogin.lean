import SunPush.Peers.JavaFraming
import SunPush.PushServer.Conversations
import SunPush.Receiver.Segmentation

/-!
# The login of the Java client

The client answers the ready message with a packet whose length field counts the
four bytes of the header too, so four bytes of what it announces never come.  The
server does not wait for them: it takes a receive for filled however many bytes
came.  So the login is understood when the header and the start of the rest come
in receives of their own, and in no other case; a transport that fills every
receive would keep the client waiting for ever.
-/

namespace SunPush

open CInteger

/-- The bytes that `Handler_S2C_SVR_READY_CMD` of the client writes. -/
def loginPacket : List UInt8 :=
  [46, 0, 0, 0, 10, 1, 106, 97, 107, 101, 115, 117, 110] ++ List.replicate 13 0 ++
    [49, 50, 51, 52, 53, 54] ++ List.replicate 14 0

theorem writePack_ofHandler : UserAuthSyn.ofHandler.writePack = some loginPacket := by
  decide

namespace Connection

/-! ## Messages of a length that no header announces -/

/-- The next message, if its length is already known, is not of this size. -/
inductive Announces (size : Nat) : Connection → Prop where
  | skipping {connection : Connection} (skips : connection.Skipping) : Announces size connection
  | body (msg : NetMsg) (length : Nat) (positive : 0 < length) (fits : length ≤ maxMsgSize)
      (differs : length ≠ size) : Announces size (body msg length)

theorem announces_complete_start {size : Nat} {chunk : List UInt8}
    (differs : declared chunk ≠ size) : Announces size (start.complete chunk).1 := by
  rcases Nat.eq_zero_or_pos (declared chunk) with empty | positive
  · rw [complete_start_empty empty]
    exact .skipping .start
  · rcases Nat.lt_or_ge maxMsgSize (declared chunk) with oversized | fits
    · rw [complete_start_discard oversized]
      apply Announces.skipping
      apply Skipping.discard _ positive
      · rw [Nat.zero_add]
        exact oversized
      · rw [Nat.zero_add]
        exact declared_lt chunk
    · rw [complete_start_body positive fits]
      exact .body _ (declared chunk) positive fits differs

theorem length_ne_of_announces {size : Nat} {connection : Connection}
    {chunks : List (List UInt8)} (announces : Announces size connection)
    (differs : ∀ chunk ∈ chunks, declared chunk ≠ size) :
    ∀ message ∈ (connection.run chunks).2, message.length ≠ size := by
  induction chunks generalizing connection with
  | nil =>
      intro message mem
      exact absurd mem List.not_mem_nil
  | cons chunk chunks ih =>
      have later : ∀ chunk ∈ chunks, declared chunk ≠ size :=
        fun other mem => differs other (List.mem_cons_of_mem chunk mem)
      intro message mem
      rw [run, List.mem_append, Option.mem_toList] at mem
      cases announces with
      | skipping skips =>
          cases skips with
          | start =>
              rcases mem with delivered | mem
              · rw [complete_start_none] at delivered
                contradiction
              · apply ih (announces_complete_start (differs chunk List.mem_cons_self)) later
                exact mem
          | discard msg positive oversized bounded =>
              rcases Skipping.complete_discard msg chunk positive oversized bounded with
                ⟨skips, silent⟩
              rcases mem with delivered | mem
              · rw [silent] at delivered
                contradiction
              · exact ih (.skipping skips) later message mem
      | body msg length positive fits other =>
          rw [complete_body msg chunk positive fits] at mem
          rcases mem with delivered | mem
          · rcases Option.some.inj delivered with rfl
            have told : ((msg.place 0 chunk).message length).length = length := by
              simp [NetMsg.message]
            rw [told]
            exact other
          · exact ih (.skipping .start) later message mem

/-! ## The chunks of the packet -/

/-- The header and at least two bytes behind it come in receives of their own. -/
def TakesLogin : List (List UInt8) → Prop
  | header :: part :: _ => header.length = 4 ∧ 2 ≤ part.length
  | _ => False

instance : DecidablePred TakesLogin
  | [] => inferInstanceAs (Decidable False)
  | [_] => inferInstanceAs (Decidable False)
  | header :: part :: _ => inferInstanceAs (Decidable (header.length = 4 ∧ 2 ≤ part.length))

/-- Behind its first byte the packet has none that announces a message of a login's length. -/
theorem declared_ne_of_notMem {chunk : List UInt8} (absent : 46 ∉ chunk) :
    declared chunk ≠ 46 := by
  intro announced
  cases chunk with
  | nil => contradiction
  | cons first rest =>
      have low : first.toNat = 46 := by
        simp only [declared, List.getD_cons_zero] at announced
        have bound := first.toNat_lt
        omega
      have same : first = 46 := UInt8.toNat_inj.mp low
      rw [same] at absent
      exact absent List.mem_cons_self

theorem isLogin_received_iff {header more : List UInt8} {first : UInt8}
    (announced : declared header = 46) :
    Server.IsLogin (received header (first :: more)) ↔
      first = csLogon ∧ (more.head?.getD (header.getD 1 0)) = 1 := by
  have size : (received header (first :: more)).length = 46 := by
    rw [length_received, announced]
  have zero : (received header (first :: more))[0]? = some first := by
    rw [List.getElem?_eq_getElem (by rw [size]; decide), received_getElem]
    rfl
  have one : (received header (first :: more))[1]? =
      some (more.head?.getD (header.getD 1 0)) := by
    rw [List.getElem?_eq_getElem (by rw [size]; decide), received_getElem]
    cases more with
    | nil =>
        have single : ¬1 < [first].length := Nat.lt_irrefl 1
        rw [dif_neg single]
        by_cases inside : 1 < header.length
        · rw [dif_pos inside, ← List.getD_eq_getElem _ 0 inside]
          rfl
        · rw [dif_neg inside, List.head?_nil, Option.getD_none,
            List.getD_eq_default _ _ (Nat.le_of_not_lt inside)]
          rfl
    | cons second more => rfl
  rw [Server.IsLogin, and_iff_right size]
  cases bytes : received header (first :: more) with
  | nil =>
      rw [bytes] at zero
      contradiction
  | cons a rest =>
      rw [bytes] at zero one
      cases rest with
      | nil => contradiction
      | cons b rest =>
          rcases Option.some.inj zero with rfl
          change some b = _ at one
          rw [← Option.some.inj one, List.take_succ_cons, List.take_succ_cons, List.take_zero,
            List.cons_eq_cons, List.cons_eq_cons]
          simp only [and_true]

/-- The bytes in front of the message's own are zero, and so is the second byte of the header. -/
theorem second_chunk_iff {header more rest : List UInt8} {first : UInt8}
    (counts : header.length = 1 ∨ header.length = 2 ∨ header.length = 3 ∨ header.length = 4)
    (header_eq : header = loginPacket.take header.length)
    (behind : first :: more ++ rest <+: loginPacket.drop header.length) :
    (first = csLogon ∧ more.head?.getD (header.getD 1 0) = 1) ↔
      header.length = 4 ∧ 2 ≤ (first :: more).length := by
  by_cases whole : header.length = 4
  · rw [whole] at header_eq behind
    rw [and_iff_right whole]
    rcases List.cons_prefix_cons.mp behind with ⟨rfl, later⟩
    have category : (10 : UInt8) = csLogon := rfl
    rw [and_iff_right category]
    cases more with
    | nil =>
        rw [header_eq]
        decide
    | cons second more =>
        rcases List.cons_prefix_cons.mp later with ⟨rfl, -⟩
        exact iff_of_true rfl (Nat.le_add_left 2 more.length)
  · have zero : first = 0 := by
      rcases counts with count | count | count | count
      · rw [count] at behind
        exact (List.cons_prefix_cons.mp behind).1
      · rw [count] at behind
        exact (List.cons_prefix_cons.mp behind).1
      · rw [count] at behind
        exact (List.cons_prefix_cons.mp behind).1
      · contradiction
    rw [zero]
    exact iff_of_false (fun both => absurd both.1 (by decide)) fun both => whole both.1

/-- However little of it a header has, it announces the length of the packet. -/
theorem declared_of_written {header : List UInt8} (nonempty : 1 ≤ header.length)
    (written : header <+: loginPacket) : declared header = 46 := by
  rcases header with _ | ⟨first, _ | ⟨second, header⟩⟩
  · contradiction
  · rcases List.cons_prefix_cons.mp written with ⟨rfl, -⟩
    rfl
  · rcases List.cons_prefix_cons.mp written with ⟨rfl, later⟩
    rcases List.cons_prefix_cons.mp later with ⟨rfl, -⟩
    rfl

theorem complete_of_announced {header : List UInt8} (announced : declared header = 46) :
    start.complete header = (body (getPoolMessage.place 0 header) 46, none) := by
  have completes := complete_start_body (by rw [announced]; decide)
    (by rw [announced]; decide : declared header ≤ maxMsgSize)
  rw [announced] at completes
  exact completes

/-- The first receive behind the header completes a message, whatever it brings. -/
theorem run_of_announced {header : List UInt8} (announced : declared header = 46)
    (part : List UInt8) (rest : List (List UInt8)) :
    (start.run (header :: part :: rest)).2 = received header part :: (start.run rest).2 := by
  have second : (body (getPoolMessage.place 0 header) 46).complete part =
      (start, some (received header part)) := by
    rw [complete_body _ part (by decide) (by decide), received, announced]
  rw [run, complete_of_announced announced, run, second]
  rfl

theorem no_login_of_notMem {chunks : List (List UInt8)} (absent : 46 ∉ chunks.flatten) :
    ((start.run chunks).2.filter fun message => Server.IsLogin message) = [] := by
  have unannounced : ∀ chunk ∈ chunks, declared chunk ≠ 46 := by
    intro chunk chunk_mem
    apply declared_ne_of_notMem
    exact fun mem => absent (List.mem_flatten_of_mem chunk_mem mem)
  rw [List.filter_eq_nil_iff]
  intro message mem login
  exact length_ne_of_announces (.skipping .start) unannounced message mem
    (of_decide_eq_true login).1

/-- However the packet is cut, its login is understood exactly when the header and the start of the
rest come in receives of their own. -/
theorem logins_of_packet {chunks : List (List UInt8)} (fits : start.Fits chunks)
    (written : chunks.flatten <+: loginPacket) :
    ((start.run chunks).2.filter fun message => Server.IsLogin message).length =
      if TakesLogin chunks then 1 else 0 := by
  rcases chunks with _ | ⟨header, _ | ⟨part, rest⟩⟩
  · rfl
  · have announced : declared header = 46 := by
      rw [List.flatten_singleton] at written
      exact declared_of_written fits.1.1 written
    rw [run, complete_of_announced announced]
    rfl
  · rcases fits with ⟨⟨nonempty, short⟩, ⟨brings, -⟩, -⟩
    change header.length ≤ 4 at short
    rw [List.flatten_cons] at written
    have whole : header <+: loginPacket := (List.prefix_append header _).trans written
    have announced := declared_of_written nonempty whole
    have behind : (part :: rest).flatten <+: loginPacket.drop header.length := by
      have dropped := written.drop header.length
      rw [List.drop_left] at dropped
      exact dropped
    have counts : header.length = 1 ∨ header.length = 2 ∨ header.length = 3 ∨
        header.length = 4 := by
      omega
    have absent : 46 ∉ loginPacket.drop header.length := by
      rcases counts with count | count | count | count <;> rw [count] <;> decide
    rw [List.flatten_cons] at behind
    have silent := @no_login_of_notMem rest fun mem =>
      absent (behind.subset (List.mem_append_right part mem))
    rw [run_of_announced announced, List.filter_cons, silent]
    cases part with
    | nil => exact absurd brings (Nat.not_succ_le_zero 0)
    | cons first more =>
        have understood := (@isLogin_received_iff header more first announced).trans
          (second_chunk_iff counts (List.prefix_iff_eq_take.mp whole) behind)
        by_cases takes : TakesLogin (header :: (first :: more) :: rest)
        · rw [if_pos takes, if_pos (decide_eq_true (understood.mpr takes))]
          rfl
        · rw [if_neg takes, if_neg (by simpa using mt understood.mp takes)]
          rfl

/-- A transport that fills every receive never brings the login: the packet is too short for it. -/
theorem not_takesLogin_of_filled {chunks : List (List UInt8)} (filled : start.Filled chunks)
    (written : chunks.flatten <+: loginPacket) : ¬TakesLogin chunks := by
  rcases chunks with _ | ⟨header, _ | ⟨part, rest⟩⟩
  · exact id
  · exact id
  · rintro ⟨whole, -⟩
    rcases filled with ⟨⟨nonempty, -⟩, ⟨-, exact⟩, -⟩
    have announced : declared header = 46 := by
      rw [List.flatten_cons] at written
      exact declared_of_written nonempty ((List.prefix_append header _).trans written)
    rw [complete_of_announced announced, requested_body] at exact
    have short := written.length_le
    rw [List.flatten_cons, List.flatten_cons, List.length_append, List.length_append, whole,
      exact] at short
    have size : loginPacket.length = 46 := by decide
    omega

end Connection

/-! ## What the client makes of its frames -/

namespace JavaClient

/-- What a handler of the client writes to the socket. -/
def Dispatched.output : Dispatched → List UInt8
  | .svrReadyCmd _ written => written.getD []
  | .userAuthAck _ => []
  | .unhandled => []

/-- The messages the calls of the client dispatch, for which each `read` returns so much. -/
def dispatchedOf (input : List UInt8) (returned : List Nat) : List Dispatched :=
  (calls input returned).filterMap fun call => call.map Handled.dispatched

theorem dispatchedOf_wire {payloads : List (List UInt8)}
    (fit : ∀ payload ∈ payloads, payload.length ≤ maxPackLen) :
    dispatchedOf (wire payloads) (payloads.map List.length) = payloads.map fun payload =>
      dispatch (payload ++ List.replicate (maxPackLen - payload.length) 0) := by
  induction payloads with
  | nil => rfl
  | cons payload payloads ih =>
      have here := fit payload List.mem_cons_self
      have later := ih fun other mem => fit other (List.mem_cons_of_mem payload mem)
      have bounded : payload.length < 2 ^ 31 := Nat.lt_of_le_of_lt here (by decide)
      have taken := (handleMsg_eq_ofFrame_iff bounded (wire payloads) (Nat.le_refl _)).mpr
        ⟨here, rfl⟩
      rw [List.map_cons, List.map_cons, wire_cons, dispatchedOf, calls, taken]
      simp only [List.filterMap_cons, Option.map_some]
      rw [← later]
      rfl

/-- What the client makes of the frames when each `read` returns the whole of one. -/
def conversation (frames : List (List UInt8)) : List Dispatched :=
  dispatchedOf (wire frames) (frames.map List.length)

/-- The messages that reach a handler. -/
def handled (dispatched : List Dispatched) : List Dispatched :=
  dispatched.filter fun message => message ≠ .unhandled

/-- What the client writes while it makes this of its frames. -/
def outputs (dispatched : List Dispatched) : List UInt8 :=
  dispatched.flatMap Dispatched.output

theorem outputs_handled (dispatched : List Dispatched) :
    outputs (handled dispatched) = outputs dispatched := by
  induction dispatched with
  | nil => rfl
  | cons message dispatched ih =>
      simp only [handled, outputs] at ih ⊢
      rw [List.filter_cons, List.flatMap_cons]
      by_cases unhandled : message = .unhandled
      · rw [if_neg (by simpa using unhandled), ih, unhandled]
        rfl
      · rw [if_pos (by simpa using unhandled), List.flatMap_cons, ih]

open Server (readyBytes authAckBytes orderAckBytes)

/-- What the handler of the ready message makes of it. -/
def readyDispatched : Dispatched :=
  .svrReadyCmd (.readPack readyBytes 2) (some loginPacket)

theorem dispatch_readyBytes (count : Nat) :
    dispatch (readyBytes ++ List.replicate count 0) = readyDispatched := by
  change Dispatched.svrReadyCmd (.readPack (readyBytes ++ List.replicate count 0) 2)
    UserAuthSyn.ofHandler.writePack = _
  rw [writePack_ofHandler]
  rfl

theorem dispatch_authAckBytes (count : Nat) :
    dispatch (authAckBytes ++ List.replicate count 0) = .userAuthAck 1 :=
  rfl

theorem dispatch_orderAckBytes (count : Nat) :
    dispatch (orderAckBytes ++ List.replicate count 0) = .unhandled :=
  rfl

/-- If the frames, apart from acknowledgements of orders, are a greeting and so many answers, then
these are what the client handles, and it writes one packet. -/
theorem conversation_of_frames {frames : List (List UInt8)} {count : Nat}
    (told : frames.filter (fun frame => frame ≠ orderAckBytes) =
      readyBytes :: List.replicate count authAckBytes) :
    handled (conversation frames) = readyDispatched :: List.replicate count (.userAuthAck 1) ∧
      outputs (conversation frames) = loginPacket := by
  have kinds : ∀ frame ∈ frames,
      frame = orderAckBytes ∨ frame = readyBytes ∨ frame = authAckBytes := by
    intro frame mem
    by_cases order : frame = orderAckBytes
    · exact .inl order
    · have shown : frame ∈ frames.filter fun frame => frame ≠ orderAckBytes :=
        List.mem_filter.mpr ⟨mem, decide_eq_true order⟩
      rw [told] at shown
      rcases List.mem_cons.mp shown with ready | answer
      · exact .inr (.inl ready)
      · exact .inr (.inr (List.eq_of_mem_replicate answer))
  have fit : ∀ frame ∈ frames, frame.length ≤ maxPackLen := by
    intro frame mem
    rcases kinds frame mem with rfl | rfl | rfl <;> decide
  have shown : handled (conversation frames) = readyDispatched ::
      List.replicate count (.userAuthAck 1) := by
    let made (frame : List UInt8) :=
      dispatch (frame ++ List.replicate (maxPackLen - frame.length) 0)
    have ready : made readyBytes = readyDispatched := dispatch_readyBytes _
    have answer : made authAckBytes = .userAuthAck 1 := dispatch_authAckBytes _
    have same : ∀ frame ∈ frames,
        decide (made frame ≠ .unhandled) = decide (frame ≠ orderAckBytes) := by
      intro frame mem
      apply decide_eq_decide.mpr
      rcases kinds frame mem with rfl | rfl | rfl
      · exact iff_of_false (fun different => different (dispatch_orderAckBytes _))
          fun different => different rfl
      · refine iff_of_true ?_ (by decide)
        rw [ready]
        exact Dispatched.noConfusion
      · refine iff_of_true ?_ (by decide)
        rw [answer]
        exact Dispatched.noConfusion
    rw [handled, conversation, dispatchedOf_wire fit, List.filter_map]
    change (frames.filter fun frame => made frame ≠ .unhandled).map made = _
    rw [List.filter_congr same, told, List.map_cons, List.map_replicate, ready, answer]
  refine ⟨shown, ?_⟩
  rw [← outputs_handled, shown, outputs, List.flatMap_cons, List.flatMap_replicate]
  have silent : (Dispatched.userAuthAck 1).output = [] := rfl
  rw [silent]
  simp [readyDispatched, Dispatched.output]

end JavaClient

/-! ## The login -/

namespace Server

/-- The frames that a connection has been sent. -/
def Course.framesTo (course : Course) (connectID : Int) : List (List UInt8) :=
  (course.sent.filter fun frame => frame.1 = connectID).map Prod.snd

section Login

open JavaClient Connection

variable {world : World Server} {course : Course} {chunks : Nat → List (List UInt8)}
  {session : Nat}

theorem framesTo_of_client
    (reached : conversingService.ReachableBy (fun _ label => label.Refrains)
      (world, course, chunks))
    (running : world.stopSocketFlag = false) (unwrapped : world.currentConnexindex < 2 ^ 32)
    (allocated : session ≤ world.currentConnexindex) {accept : Occasion}
    (mem : accept ∈ course.occasions)
    (accepts : accept.callback = .onAccept (toLong session) true) :
    (course.framesTo (toLong session)).filter (fun frame => frame ≠ orderAckBytes) =
      readyBytes :: List.replicate
        ((start.run (chunks session)).2.filter fun message => IsLogin message).length
        authAckBytes := by
  rcases exists_view_of_client reached running unwrapped allocated mem accepts with
    ⟨reads, stack, brings, reaches, seen⟩
  rw [run_client accepts brings reaches stack] at seen
  have frames := congrArg (List.map Prod.snd) seen
  rw [List.map_cons, List.map_map, Function.comp_def, List.map_const'] at frames
  rw [← frames, Course.framesTo, List.filter_map, List.filter_filter]
  refine congrArg (List.map Prod.snd) (List.filter_congr ?_)
  intro frame _
  simp [Bool.and_comm]

end Login

end Server

end SunPush
