import SunPush.PushServer.Server

/-!
# The tables of packet handlers

`FunctionMap` of `FunctionMap.h`, and the `PacketHandler` of `MsgHandler.cpp`
that fills two such maps when it is constructed and looks the handler of a
message up in them.  The server of `SunPush.PushServer.Server` calls the handlers
directly; here its callbacks go through the tables, to which further handlers may
have been added.
-/

namespace SunPush

/-- `MAKEWORD`, widened to the `DWORD` of a key. -/
def makeWord (category protocol : UInt8) : UInt32 :=
  category.toUInt32 ||| protocol.toUInt32 <<< 8

theorem toNat_makeWord (category protocol : UInt8) :
    (makeWord category protocol).toNat = protocol.toNat * 2 ^ 8 + category.toNat := by
  have bound := category.toNat_lt
  have width : protocol.toNat * 2 ^ 8 < 2 ^ 32 := by
    have := protocol.toNat_lt
    omega
  simp only [makeWord, UInt32.toNat_or, UInt32.toNat_shiftLeft, UInt8.toNat_toUInt32]
  simp only [UInt32.reduceToNat, Nat.reduceMod, Nat.shiftLeft_eq, Nat.mod_eq_of_lt width]
  rw [Nat.or_comm, ← Nat.shiftLeft_eq, Nat.shiftLeft_add_eq_or_of_lt bound]

theorem makeWord_inj {category protocol otherCategory otherProtocol : UInt8} :
    makeWord category protocol = makeWord otherCategory otherProtocol ↔
      category = otherCategory ∧ protocol = otherProtocol := by
  constructor
  · intro same
    have value := congrArg UInt32.toNat same
    simp only [toNat_makeWord] at value
    have bound := category.toNat_lt
    have otherBound := otherCategory.toNat_lt
    constructor <;> apply UInt8.toNat_inj.mp <;> omega
  · rintro ⟨rfl, rfl⟩
    rfl

/-- `util::FunctionMap`; a `BASE_FUNC` is its key and the function `F` of the derived class. -/
structure FunctionMap (F : Type) where
  mFunction : AList fun _ : UInt32 => F

namespace FunctionMap

variable {F : Type}

def construct : FunctionMap F := ⟨∅⟩

/-- `none` is the null pointer. -/
def add (map : FunctionMap F) : Option (UInt32 × F) → Bool × FunctionMap F
  | none => (false, map)
  | some (functionKey, function) =>
      if !map.mFunction.entries.isEmpty && (map.mFunction.lookup functionKey).isSome then
        (false, map)
      else (true, ⟨map.mFunction.insert functionKey function⟩)

def find (map : FunctionMap F) (functionKey : UInt32) : Option F :=
  if map.mFunction.entries.isEmpty then none else map.mFunction.lookup functionKey

theorem find_eq_lookup (map : FunctionMap F) (functionKey : UInt32) :
    map.find functionKey = map.mFunction.lookup functionKey := by
  unfold find
  cases map with
  | mk mFunction =>
      cases mFunction with
      | mk entries distinct =>
          cases entries with
          | nil => rfl
          | cons entry entries => rfl

@[simp]
theorem find_construct (functionKey : UInt32) :
    (construct : FunctionMap F).find functionKey = none :=
  rfl

/-- A function is added exactly if its key is new. -/
theorem add_some (map : FunctionMap F) (functionKey : UInt32) (function : F) :
    map.add (some (functionKey, function)) =
      if (map.find functionKey).isSome then (false, map)
      else (true, ⟨map.mFunction.insert functionKey function⟩) := by
  simp only [add, find]
  by_cases empty : map.mFunction.entries.isEmpty = true
  · simp only [empty, Bool.not_true, Bool.false_and, if_true, Option.isSome_none,
      Bool.false_eq_true, if_false]
  · simp only [empty, Bool.not_false, Bool.true_and, Bool.false_eq_true, if_false]

theorem find_add (map : FunctionMap F) (functionKey : UInt32) (function : F) (other : UInt32) :
    (map.add (some (functionKey, function))).2.find other =
      (map.find other).or (if functionKey = other then some function else none) := by
  rw [add_some]
  cases known : map.find functionKey with
  | some earlier =>
      rw [Option.isSome_some, if_pos rfl]
      by_cases same : functionKey = other
      · subst same
        rw [known, Option.some_or]
      · rw [if_neg same, Option.or_none]
  | none =>
      rw [Option.isSome_none, if_neg Bool.false_ne_true, find_eq_lookup]
      by_cases same : functionKey = other
      · subst same
        rw [known, Option.none_or, if_pos rfl]
        exact AList.lookup_insert map.mFunction
      · rw [if_neg same, Option.or_none, find_eq_lookup]
        exact AList.lookup_insert_ne (Ne.symm same)

theorem add_fst (map : FunctionMap F) (functionKey : UInt32) (function : F) :
    (map.add (some (functionKey, function))).1 = (map.find functionKey).isNone := by
  rw [add_some]
  cases map.find functionKey <;> rfl

/-- `Add` called for one function after the other. -/
def adds (map : FunctionMap F) (functions : List (UInt32 × F)) : FunctionMap F :=
  functions.foldl (fun map function => (map.add (some function)).2) map

/-- What was found before the additions is still found, and otherwise the first function added
with the key. -/
theorem find_adds (map : FunctionMap F) (functions : List (UInt32 × F)) (functionKey : UInt32) :
    (map.adds functions).find functionKey =
      (map.find functionKey).or
        ((functions.find? fun function => function.1 = functionKey).map Prod.snd) := by
  induction functions generalizing map with
  | nil => exact (Option.or_none).symm
  | cons function functions ih =>
      rcases function with ⟨newKey, function⟩
      have first := find_add map newKey function functionKey
      have rest := ih (map.add (some (newKey, function))).2
      rw [first, Option.or_assoc] at rest
      apply rest.trans
      apply congrArg
      by_cases same : newKey = functionKey
      · simp [same]
      · simp [same]

end FunctionMap

/-- `fnHandler_CS`: what a handler does with a user and a message of a size. -/
abbrev HandlerCS := Server → (user : Nat) → (msg : Memory) → (size : UInt16) → Server × List ApiCall

/-- `fnHandler_WS`: what a handler does with a message of a size on a connection. -/
abbrev HandlerWS :=
  Server → (connIndex : Int) → (msg : Memory) → (size : UInt16) → Server × List ApiCall

structure PacketHandler where
  funcMapCS : FunctionMap HandlerCS
  funcMapWS : FunctionMap HandlerWS

namespace PacketHandler

open Server

def addHandlerCS (handler : PacketHandler) (category protocol : UInt8) (function : HandlerCS) :
    Bool × PacketHandler :=
  let (added, funcMapCS) := handler.funcMapCS.add (some (makeWord category protocol, function))
  (added, { handler with funcMapCS })

def addHandlerWS (handler : PacketHandler) (category protocol : UInt8) (function : HandlerWS) :
    Bool × PacketHandler :=
  let (added, funcMapWS) := handler.funcMapWS.add (some (makeWord category protocol, function))
  (added, { handler with funcMapWS })

/-- `RegisterHandler_CS`: it gives up at the first handler that is not added. -/
def registerHandlerCS (handler : PacketHandler) : Bool × PacketHandler :=
  let (added, handler) := handler.addHandlerCS csLogon 1 handlerC2SUserAuthSyn
  if !added then (false, handler)
  else
    let (added, handler) := handler.addHandlerCS csLogon 51 handlerC2STestOrderSyn
    if !added then (false, handler) else (true, handler)

/-- `RegisterHandler_WS`: it gives up at the first handler that is not added. -/
def registerHandlerWS (handler : PacketHandler) : Bool × PacketHandler :=
  let (added, handler) := handler.addHandlerWS wsData 0
    fun server connIndex _ _ => server.handlerW2SWsConnectedCmd connIndex
  if !added then (false, handler)
  else
    let (added, handler) := handler.addHandlerWS wsData 2
      fun server _ _ _ => server.handlerW2SAuthResultAck
    if !added then (false, handler)
    else
      let (added, handler) := handler.addHandlerWS wsData 4
        fun server _ msg _ => server.handlerW2SNewOrderBrdCmd msg
      if !added then (false, handler) else (true, handler)

/-- The constructor; it ignores what the two registrations return. -/
def construct : PacketHandler :=
  (registerHandlerWS (registerHandlerCS ⟨.construct, .construct⟩).2).2

/-- `ParsePacket_CS`: whether a handler is found, and what it does. -/
def parsePacketCS (handler : PacketHandler) (server : Server) (user : Nat) (msg : Memory)
    (size : UInt16) : Bool × Server × List ApiCall :=
  match handler.funcMapCS.find (makeWord (msg 0) (msg 1)) with
  | none => (false, server, [])
  | some function => (true, function server user msg size)

/-- `ParsePacket_WS`: whether a handler is found, and what it does. -/
def parsePacketWS (handler : PacketHandler) (server : Server) (connIndex : Int) (msg : Memory)
    (size : UInt16) : Bool × Server × List ApiCall :=
  match handler.funcMapWS.find (makeWord (msg 0) (msg 1)) with
  | none => (false, server, [])
  | some function => (true, function server connIndex msg size)

/-- The arguments of a call of `AddHandler_CS` or `AddHandler_WS`. -/
structure Addition (F : Type) where
  category : UInt8
  protocol : UInt8
  function : F

/-- A call of `AddHandler_CS` or of `AddHandler_WS`. -/
inductive AddCall where
  | addHandlerCS (added : Addition HandlerCS)
  | addHandlerWS (added : Addition HandlerWS)

namespace AddCall

def ofCS : AddCall → Option (Addition HandlerCS)
  | .addHandlerCS added => some added
  | .addHandlerWS _ => none

def ofWS : AddCall → Option (Addition HandlerWS)
  | .addHandlerCS _ => none
  | .addHandlerWS added => some added

end AddCall

/-- What the calls add to the first table, and what to the second. -/
def addedCS (calls : List AddCall) : List (Addition HandlerCS) := calls.filterMap AddCall.ofCS

def addedWS (calls : List AddCall) : List (Addition HandlerWS) := calls.filterMap AddCall.ofWS

def addHandler (handler : PacketHandler) : AddCall → PacketHandler
  | .addHandlerCS added =>
      (handler.addHandlerCS added.category added.protocol added.function).2
  | .addHandlerWS added =>
      (handler.addHandlerWS added.category added.protocol added.function).2

/-- The calls one after the other. -/
def withHandlers (handler : PacketHandler) (calls : List AddCall) : PacketHandler :=
  calls.foldl addHandler handler

/-- `ClientAcceptor::OnReadComplete` and `WebSvrConnector::OnReadComplete` as they are written:
the message goes to `ParsePacket_CS` or `ParsePacket_WS` of `g_CSPackHander`, whose answer they
ignore.  The other callbacks are those of the server. -/
def callbacks (handler : PacketHandler) : Callbacks Server :=
  { Server.callbacks with
    onReadComplete := fun owner connIndex msg length server =>
      match owner with
      | .acceptor _ =>
          if msg.bufMsg 0 ≠ csLogon then (server, [])
          else
            match server.users.findUserByConnectID connIndex with
            | none => (server, [.closeSocket connIndex])
            | some user =>
                (handler.parsePacketCS server user msg.bufMsg
                  (UInt16.ofNat (CInteger.toUInt16 length))).2
      | .connector _ =>
          if msg.bufMsg 0 ≠ wsData then (server, [])
          else
            (handler.parsePacketWS server connIndex msg.bufMsg
              (UInt16.ofNat (CInteger.toUInt16 length))).2 }

/-! ## What the tables find -/

theorem funcMapCS_construct :
    construct.funcMapCS =
      FunctionMap.construct.adds
        [(makeWord csLogon 1, handlerC2SUserAuthSyn),
          (makeWord csLogon 51, handlerC2STestOrderSyn)] :=
  rfl

theorem funcMapWS_construct :
    construct.funcMapWS =
      FunctionMap.construct.adds
        [(makeWord wsData 0, fun server connIndex _ _ => server.handlerW2SWsConnectedCmd connIndex),
          (makeWord wsData 2, fun server _ _ _ => server.handlerW2SAuthResultAck),
          (makeWord wsData 4, fun server _ msg _ => server.handlerW2SNewOrderBrdCmd msg)] :=
  rfl

/-- The entry that an addition makes. -/
def Addition.entry {F : Type} (added : Addition F) : UInt32 × F :=
  (makeWord added.category added.protocol, added.function)

/-- Whether an addition is for a category and a protocol. -/
def Addition.isFor {F : Type} (category protocol : UInt8) (added : Addition F) : Bool :=
  added.category = category ∧ added.protocol = protocol

theorem find?_entry {F : Type} (added : List (Addition F)) (category protocol : UInt8) :
    ((added.map Addition.entry).find? fun function => function.1 = makeWord category protocol).map
        Prod.snd =
      (added.find? (Addition.isFor category protocol)).map Addition.function := by
  rw [List.find?_map, Option.map_map]
  have sameTest : ((fun function : UInt32 × F => decide (function.1 = makeWord category protocol)) ∘
      Addition.entry) = Addition.isFor category protocol := by
    funext addition
    apply decide_eq_decide.mpr makeWord_inj
  rw [sameTest]
  rfl

theorem funcMapCS_withHandlers (handler : PacketHandler) (calls : List AddCall) :
    (handler.withHandlers calls).funcMapCS =
      handler.funcMapCS.adds ((addedCS calls).map Addition.entry) := by
  induction calls generalizing handler with
  | nil => rfl
  | cons call calls ih =>
      cases call with
      | addHandlerCS added => exact ih (handler.addHandler (.addHandlerCS added))
      | addHandlerWS added => exact ih (handler.addHandler (.addHandlerWS added))

theorem funcMapWS_withHandlers (handler : PacketHandler) (calls : List AddCall) :
    (handler.withHandlers calls).funcMapWS =
      handler.funcMapWS.adds ((addedWS calls).map Addition.entry) := by
  induction calls generalizing handler with
  | nil => rfl
  | cons call calls ih =>
      cases call with
      | addHandlerCS added => exact ih (handler.addHandler (.addHandlerCS added))
      | addHandlerWS added => exact ih (handler.addHandler (.addHandlerWS added))

/-- An entry for a category and a protocol in front decides what is found for them. -/
theorem find?_makeWord_cons {F : Type} (category protocol : UInt8) (function : F)
    (functions : List (UInt32 × F)) (wantedCategory wantedProtocol : UInt8) :
    (((makeWord category protocol, function) :: functions).find? fun function =>
        function.1 = makeWord wantedCategory wantedProtocol).map Prod.snd =
      if wantedCategory = category ∧ wantedProtocol = protocol then some function
      else (functions.find? fun function =>
        function.1 = makeWord wantedCategory wantedProtocol).map Prod.snd := by
  by_cases wanted : wantedCategory = category ∧ wantedProtocol = protocol
  · rw [if_pos wanted, wanted.1, wanted.2]
    simp
  · rw [if_neg wanted, List.find?_cons_of_neg]
    intro same
    have both := makeWord_inj.mp (of_decide_eq_true same)
    exact wanted ⟨both.1.symm, both.2.symm⟩

theorem find_CS (calls : List AddCall) (category protocol : UInt8) :
    (construct.withHandlers calls).funcMapCS.find (makeWord category protocol) =
      if category = csLogon ∧ protocol = 1 then some handlerC2SUserAuthSyn
      else if category = csLogon ∧ protocol = 51 then some handlerC2STestOrderSyn
      else ((addedCS calls).find? (Addition.isFor category protocol)).map Addition.function := by
  rw [funcMapCS_withHandlers, FunctionMap.find_adds, find?_entry, funcMapCS_construct,
    FunctionMap.find_adds, FunctionMap.find_construct, Option.none_or]
  simp only [find?_makeWord_cons, List.find?_nil, Option.map_none]
  split
  · rfl
  · split
    · rfl
    · rfl

theorem find_WS (calls : List AddCall) (category protocol : UInt8) :
    (construct.withHandlers calls).funcMapWS.find (makeWord category protocol) =
      if category = wsData ∧ protocol = 0 then
        some fun server connIndex _ _ => server.handlerW2SWsConnectedCmd connIndex
      else if category = wsData ∧ protocol = 2 then
        some fun server _ _ _ => server.handlerW2SAuthResultAck
      else if category = wsData ∧ protocol = 4 then
        some fun server _ msg _ => server.handlerW2SNewOrderBrdCmd msg
      else ((addedWS calls).find? (Addition.isFor category protocol)).map Addition.function := by
  rw [funcMapWS_withHandlers, FunctionMap.find_adds, find?_entry, funcMapWS_construct,
    FunctionMap.find_adds, FunctionMap.find_construct, Option.none_or]
  simp only [find?_makeWord_cons, List.find?_nil, Option.map_none]
  split
  · rfl
  · split
    · rfl
    · split
      · rfl
      · rfl

/-! ## Dispatch -/

/-- What becomes of a message for which the constructor has registered no handler: the first added
handler of its category and protocol takes it. -/
def answerAdded {F : Type} (added : List (Addition F)) (msg : Memory) (server : Server)
    (call : F → Server × List ApiCall) : Bool × Server × List ApiCall :=
  match added.find? (Addition.isFor (msg 0) (msg 1)) with
  | none => (false, server, [])
  | some addition => (true, call addition.function)

theorem parsePacketCS_withHandlers (calls : List AddCall) (server : Server) (user : Nat)
    (msg : Memory) (size : UInt16) :
    (construct.withHandlers calls).parsePacketCS server user msg size =
      if msg 0 = csLogon ∧ msg 1 = 1 then (true, server.handlerC2SUserAuthSyn user msg size)
      else if msg 0 = csLogon ∧ msg 1 = 51 then
        (true, server.handlerC2STestOrderSyn user msg size)
      else
        answerAdded (addedCS calls) msg server fun function => function server user msg size := by
  unfold parsePacketCS
  rw [find_CS]
  by_cases login : msg 0 = csLogon ∧ msg 1 = 1
  · simp only [if_pos login]
  · by_cases order : msg 0 = csLogon ∧ msg 1 = 51
    · simp only [if_neg login, if_pos order]
    · simp only [if_neg login, if_neg order, answerAdded]
      cases (addedCS calls).find? (Addition.isFor (msg 0) (msg 1)) <;> rfl

theorem parsePacketWS_withHandlers (calls : List AddCall) (server : Server) (connIndex : Int)
    (msg : Memory) (size : UInt16) :
    (construct.withHandlers calls).parsePacketWS server connIndex msg size =
      if msg 0 = wsData ∧ msg 1 = 0 then (true, server.handlerW2SWsConnectedCmd connIndex)
      else if msg 0 = wsData ∧ msg 1 = 2 then (true, server.handlerW2SAuthResultAck)
      else if msg 0 = wsData ∧ msg 1 = 4 then (true, server.handlerW2SNewOrderBrdCmd msg)
      else
        answerAdded (addedWS calls) msg server fun function =>
          function server connIndex msg size := by
  unfold parsePacketWS
  rw [find_WS]
  by_cases connected : msg 0 = wsData ∧ msg 1 = 0
  · simp only [if_pos connected]
  · by_cases result : msg 0 = wsData ∧ msg 1 = 2
    · simp only [if_neg connected, if_pos result]
    · by_cases order : msg 0 = wsData ∧ msg 1 = 4
      · simp only [if_neg connected, if_neg result, if_pos order]
      · simp only [if_neg connected, if_neg result, if_neg order, answerAdded]
        cases (addedWS calls).find? (Addition.isFor (msg 0) (msg 1)) <;> rfl

/-- No added handler takes a message of a category that none is for. -/
theorem answerAdded_of_apart {F : Type} {added : List (Addition F)} {category : UInt8}
    (apart : ∀ addition ∈ added, addition.category ≠ category) {msg : Memory}
    (ofCategory : msg 0 = category) (server : Server) (call : F → Server × List ApiCall) :
    answerAdded added msg server call = (false, server, []) := by
  have none_added : added.find? (Addition.isFor (msg 0) (msg 1)) = none := by
    apply List.find?_eq_none.mpr
    intro addition addition_mem isFor
    exact apart addition addition_mem ((of_decide_eq_true isFor).1.trans ofCategory)
  rw [answerAdded, none_added]

/-! ## The server with the tables -/

/-- The callbacks of the server, with the tables in the place of the direct calls. -/
theorem callbacks_eq {calls : List AddCall}
    (apartCS : ∀ added ∈ addedCS calls, added.category ≠ csLogon)
    (apartWS : ∀ added ∈ addedWS calls, added.category ≠ wsData) :
    (construct.withHandlers calls).callbacks = Server.callbacks := by
  have sameReads : (construct.withHandlers calls).callbacks.onReadComplete =
      Server.callbacks.onReadComplete := by
    funext owner connIndex msg length server
    cases owner with
    | acceptor acceptor =>
        simp only [callbacks, Server.callbacks, onClientReadComplete]
        by_cases category : msg.bufMsg 0 = csLogon
        · simp only [category, ne_eq, not_true_eq_false, if_false]
          cases server.users.findUserByConnectID connIndex with
          | none => rfl
          | some user =>
              simp only [parsePacketCS_withHandlers, answerAdded_of_apart apartCS category,
                Server.parsePacketCS]
              split
              · rfl
              · split <;> rfl
        · simp only [category, ne_eq, not_false_eq_true, if_true]
    | connector connector =>
        simp only [callbacks, Server.callbacks, onWebReadComplete]
        by_cases category : msg.bufMsg 0 = wsData
        · simp only [category, ne_eq, not_true_eq_false, if_false, parsePacketWS_withHandlers,
            answerAdded_of_apart apartWS category, Server.parsePacketWS]
          split
          · rfl
          · split
            · rfl
            · split <;> rfl
        · simp only [category, ne_eq, not_false_eq_true, if_true]
  exact congrArg (fun onReadComplete => { Server.callbacks with onReadComplete }) sameReads

/-! ## A packet handler to which handlers are added -/

/-- The packet handler does what the handlers of the constructor and, for other messages, the
added ones say; further ones can be added for exactly the messages that none of them is for; and
as long as none is added for the categories the server expects, the server is the one that calls
its handlers directly. -/
structure Dispatches (calls : List AddCall) (handler : PacketHandler) : Prop where
  parsesCS : ∀ server user msg size, handler.parsePacketCS server user msg size =
    if msg 0 = csLogon ∧ msg 1 = 1 then (true, server.handlerC2SUserAuthSyn user msg size)
    else if msg 0 = csLogon ∧ msg 1 = 51 then (true, server.handlerC2STestOrderSyn user msg size)
    else answerAdded (addedCS calls) msg server fun function => function server user msg size
  parsesWS : ∀ server connIndex msg size, handler.parsePacketWS server connIndex msg size =
    if msg 0 = wsData ∧ msg 1 = 0 then (true, server.handlerW2SWsConnectedCmd connIndex)
    else if msg 0 = wsData ∧ msg 1 = 2 then (true, server.handlerW2SAuthResultAck)
    else if msg 0 = wsData ∧ msg 1 = 4 then (true, server.handlerW2SNewOrderBrdCmd msg)
    else answerAdded (addedWS calls) msg server fun function => function server connIndex msg size
  addsCS : ∀ category protocol function,
    (handler.addHandlerCS category protocol function).1 = true ↔
      ¬(category = csLogon ∧ (protocol = 1 ∨ protocol = 51)) ∧
        ∀ added ∈ addedCS calls, ¬(added.category = category ∧ added.protocol = protocol)
  addsWS : ∀ category protocol function,
    (handler.addHandlerWS category protocol function).1 = true ↔
      ¬(category = wsData ∧ (protocol = 0 ∨ protocol = 2 ∨ protocol = 4)) ∧
        ∀ added ∈ addedWS calls, ¬(added.category = category ∧ added.protocol = protocol)
  serves : (∀ added ∈ addedCS calls, added.category ≠ csLogon) →
    (∀ added ∈ addedWS calls, added.category ≠ wsData) →
      World.service handler.callbacks Initial = Server.service

theorem isNone_find?_isFor {F : Type} (added : List (Addition F)) (category protocol : UInt8) :
    ((added.find? (Addition.isFor category protocol)).map Addition.function).isNone = true ↔
      ∀ addition ∈ added, ¬(addition.category = category ∧ addition.protocol = protocol) := by
  rw [Option.isNone_map, Option.isNone_iff_eq_none, List.find?_eq_none]
  simp only [Addition.isFor, decide_eq_true_eq]

theorem addHandlerCS_withHandlers (calls : List AddCall) (category protocol : UInt8)
    (function : HandlerCS) :
    ((construct.withHandlers calls).addHandlerCS category protocol function).1 = true ↔
      ¬(category = csLogon ∧ (protocol = 1 ∨ protocol = 51)) ∧
        ∀ added ∈ addedCS calls, ¬(added.category = category ∧ added.protocol = protocol) := by
  simp only [addHandlerCS, FunctionMap.add_fst, find_CS, ← isNone_find?_isFor]
  by_cases login : category = csLogon ∧ protocol = 1
  · simp [login]
  · by_cases order : category = csLogon ∧ protocol = 51
    · simp [order]
    · simp only [if_neg login, if_neg order]
      apply (and_iff_right _).symm
      rintro ⟨ofCategory, ofLogin | ofOrder⟩
      · exact login ⟨ofCategory, ofLogin⟩
      · exact order ⟨ofCategory, ofOrder⟩

theorem addHandlerWS_withHandlers (calls : List AddCall) (category protocol : UInt8)
    (function : HandlerWS) :
    ((construct.withHandlers calls).addHandlerWS category protocol function).1 = true ↔
      ¬(category = wsData ∧ (protocol = 0 ∨ protocol = 2 ∨ protocol = 4)) ∧
        ∀ added ∈ addedWS calls, ¬(added.category = category ∧ added.protocol = protocol) := by
  simp only [addHandlerWS, FunctionMap.add_fst, find_WS, ← isNone_find?_isFor]
  by_cases connected : category = wsData ∧ protocol = 0
  · simp [connected]
  · by_cases result : category = wsData ∧ protocol = 2
    · simp [result]
    · by_cases order : category = wsData ∧ protocol = 4
      · simp [order]
      · simp only [if_neg connected, if_neg result, if_neg order]
        apply (and_iff_right _).symm
        rintro ⟨ofCategory, ofConnected | ofResult | ofOrder⟩
        · exact connected ⟨ofCategory, ofConnected⟩
        · exact result ⟨ofCategory, ofResult⟩
        · exact order ⟨ofCategory, ofOrder⟩

theorem dispatches_withHandlers (calls : List AddCall) :
    Dispatches calls (construct.withHandlers calls) where
  parsesCS := parsePacketCS_withHandlers calls
  parsesWS := parsePacketWS_withHandlers calls
  addsCS := addHandlerCS_withHandlers calls
  addsWS := addHandlerWS_withHandlers calls
  serves apartCS apartWS := by
    rw [callbacks_eq apartCS apartWS]
    rfl

end PacketHandler

end SunPush
