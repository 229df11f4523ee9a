import SunPush.Library.Inspection
import SunPush.PushServer.Server

/-!
# What the handlers read of a message

The callbacks for a complete message once more, as computations that read the
message buffer byte by byte in the order of the code.  They compute what the
callbacks of the server compute; in addition they tell which offsets are read.
-/

namespace SunPush

open CInteger Inspection

namespace Reads

variable {α : Type}

/-- The bytes `strncpy_s` counts: up to the first NUL, at most `count`. -/
def strnlen (offset : Int) : Nat → Inspection Nat
  | 0 => done 0
  | count + 1 => byte offset fun first =>
      if first = 0 then done 0
      else (strnlen (offset + 1) count).bind fun length => done (length + 1)

def strncpyS (destination : Memory) (numberOfElements : Nat) (offset : Int) (count : Nat) :
    Inspection (Memory × Bool) :=
  (strnlen offset count).bind fun length =>
    if length < numberOfElements then
      (block offset length).bind fun bytes =>
        done ((destination.write 0 bytes).write length [0], false)
    else done (destination.write 0 [0], true)

def handlerC2SUserAuthSyn (server : Server) (user : Nat) (size : UInt16) :
    Inspection (Server × List ApiCall) :=
  if size ≠ 46 then done (server.kickUser user)
  else
    (strncpyS (server.info user).accountName 20 2 32).bind fun name =>
      let server := { server with
        users := server.users.modify user fun info => { info with accountName := name.1 }
        invalidParameter := server.invalidParameter || name.2 }
      done (server, [server.sendToClient user (userAuthAck server.stack) 3])

def handlerC2STestOrderSyn (server : Server) (user : Nat) (size : UInt16) :
    Inspection (Server × List ApiCall) :=
  if size ≠ 194 then done (server.kickUser user)
  else
    (block 2 1).bind fun byOrderType =>
    (block 11 4).bind fun iOrderNo =>
    (block 3 4).bind fun iUserPosX =>
    (block 7 4).bind fun iUserPosY =>
    (block 15 11).bind fun strPhone =>
      let userGID := LittleEndian.encode 4 (toSizeT (server.info user).connectID)
      done (server, [server.send server.webServerConID
        (((((((msgBase server.stack wsData 52).write 2 byOrderType).write 3 userGID).write 7
          iOrderNo).write 11 iUserPosX).write 15 iUserPosY).write 19 strPhone) 198])

/-- `ParsePacket_CS` makes its key of the first two bytes before it looks for a handler. -/
def parsePacketCS (server : Server) (user : Nat) (size : UInt16) :
    Inspection (Server × List ApiCall) :=
  byte 0 fun category => byte 1 fun protocol =>
    if category = csLogon ∧ protocol = 1 then handlerC2SUserAuthSyn server user size
    else if category = csLogon ∧ protocol = 51 then handlerC2STestOrderSyn server user size
    else done (server, [])

def handlerW2SAuthResultAck (server : Server) : Inspection (Server × List ApiCall) :=
  byte 2 fun _byResult => done (server, [])

/-- `m_iOrder` is printed before `m_iUsrConID` is used. -/
def handlerW2SNewOrderBrdCmd (server : Server) : Inspection (Server × List ApiCall) :=
  (block 6 4).bind fun _iOrder =>
  (block 2 4).bind fun iUsrConID =>
    let connectID := toLong (LittleEndian.decode iUsrConID)
    done (server, [server.send connectID (testOrderAck server.stack) 3])

def parsePacketWS (server : Server) (connIndex : Int) : Inspection (Server × List ApiCall) :=
  byte 0 fun category => byte 1 fun protocol =>
    if category = wsData ∧ protocol = 0 then done (server.handlerW2SWsConnectedCmd connIndex)
    else if category = wsData ∧ protocol = 2 then handlerW2SAuthResultAck server
    else if category = wsData ∧ protocol = 4 then handlerW2SNewOrderBrdCmd server
    else done (server, [])

def onClientReadComplete (server : Server) (connIndex : Int) (length : Int) :
    Inspection (Server × List ApiCall) :=
  byte 0 fun category =>
    if category ≠ csLogon then done (server, [])
    else
      match server.users.findUserByConnectID connIndex with
      | none => done (server, [.closeSocket connIndex])
      | some user => parsePacketCS server user (UInt16.ofNat (toUInt16 length))

def onWebReadComplete (server : Server) (connIndex : Int) : Inspection (Server × List ApiCall) :=
  byte 0 fun category =>
    if category ≠ wsData then done (server, []) else parsePacketWS server connIndex

def onReadComplete (owner : Owner) (server : Server) (connIndex : Int) (length : Int) :
    Inspection (Server × List ApiCall) :=
  match owner with
  | .acceptor _ => onClientReadComplete server connIndex length
  | .connector _ => onWebReadComplete server connIndex

/-! ## The same results -/

theorem strnlen_succ (source : Nat → UInt8) (count : Nat) :
    SunPush.strnlen source (count + 1) =
      if source 0 = 0 then 0 else SunPush.strnlen (fun i => source (i + 1)) count + 1 := by
  simp only [SunPush.strnlen, List.range_succ_eq_map, List.takeWhile_cons, List.takeWhile_map]
  by_cases nul : source 0 = 0
  · simp [nul]
  · simp [nul, Function.comp_def]

@[simp]
theorem run_strnlen (memory : Memory) (offset : Int) (count : Nat) :
    (strnlen offset count).run memory =
      SunPush.strnlen (fun i => memory (offset + i)) count := by
  induction count generalizing offset with
  | zero => rfl
  | succ count ih =>
      have later : (fun i : Nat => memory (offset + 1 + i)) =
          fun i : Nat => memory (offset + ((i + 1 : Nat) : Int)) := by
        funext i
        congr 1
        omega
      rw [strnlen_succ, ← later, ← ih]
      by_cases nul : memory offset = 0
      · simp [strnlen, nul]
      · simp [strnlen, nul]

theorem run_strncpyS (destination memory : Memory) (numberOfElements : Nat) (offset : Int)
    (count : Nat) :
    (strncpyS destination numberOfElements offset count).run memory =
      SunPush.strncpyS destination numberOfElements (fun i => memory (offset + i)) count := by
  simp only [strncpyS, run_bind, run_strnlen, SunPush.strncpyS]
  split
  · simp only [run_bind, run_block, run_done, Memory.write_read]
  · rfl

theorem run_handlerC2SUserAuthSyn (server : Server) (user : Nat) (msg : Memory) (size : UInt16) :
    (handlerC2SUserAuthSyn server user size).run msg =
      server.handlerC2SUserAuthSyn user msg size := by
  simp only [handlerC2SUserAuthSyn, Server.handlerC2SUserAuthSyn]
  split
  · rfl
  · simp only [run_bind, run_strncpyS, run_done]

theorem run_handlerC2STestOrderSyn (server : Server) (user : Nat) (msg : Memory) (size : UInt16) :
    (handlerC2STestOrderSyn server user size).run msg =
      server.handlerC2STestOrderSyn user msg size := by
  simp only [handlerC2STestOrderSyn, Server.handlerC2STestOrderSyn]
  split
  · rfl
  · simp only [run_bind, run_block, run_done, testOrderSyn]

theorem run_parsePacketCS (server : Server) (user : Nat) (msg : Memory) (size : UInt16) :
    (parsePacketCS server user size).run msg = server.parsePacketCS user msg size := by
  simp only [parsePacketCS, run_byte, Server.parsePacketCS]
  split
  · exact run_handlerC2SUserAuthSyn server user msg size
  · split
    · exact run_handlerC2STestOrderSyn server user msg size
    · rfl

theorem run_parsePacketWS (server : Server) (connIndex : Int) (msg : Memory) :
    (parsePacketWS server connIndex).run msg = server.parsePacketWS connIndex msg := by
  simp only [parsePacketWS, run_byte, Server.parsePacketWS]
  split
  · rfl
  · split
    · rfl
    · split
      · simp only [handlerW2SNewOrderBrdCmd, run_bind, run_block, run_done,
          Server.handlerW2SNewOrderBrdCmd]
      · rfl

theorem run_onReadComplete (owner : Owner) (server : Server) (connIndex : Int) (msg : NetMsg)
    (length : Int) :
    (onReadComplete owner server connIndex length).run msg.bufMsg =
      Server.callbacks.onReadComplete owner connIndex msg length server := by
  cases owner with
  | acceptor _ =>
      change (onClientReadComplete server connIndex length).run msg.bufMsg =
        server.onClientReadComplete connIndex msg.bufMsg length
      simp only [onClientReadComplete, run_byte, Server.onClientReadComplete]
      split
      · rfl
      · cases server.users.findUserByConnectID connIndex with
        | none => rfl
        | some user => exact run_parsePacketCS server user msg.bufMsg _
  | connector _ =>
      change (onWebReadComplete server connIndex).run msg.bufMsg =
        server.onWebReadComplete connIndex msg.bufMsg
      simp only [onWebReadComplete, run_byte, Server.onWebReadComplete]
      split
      · rfl
      · exact run_parsePacketWS server connIndex msg.bufMsg

/-! ## Reads inside the message -/

/-- Every byte read lies in a block. -/
def Within (inspection : Inspection α) (memory : Memory) (first last : Int) : Prop :=
  ∀ offset ∈ inspection.offsets memory, first ≤ offset ∧ offset < last

theorem strnlen_within (memory : Memory) (offset : Int) (count : Nat) :
    Within (strnlen offset count) memory offset (offset + count) := by
  induction count generalizing offset with
  | zero => simp [Within, strnlen]
  | succ count ih =>
      intro address address_mem
      by_cases nul : memory offset = 0
      · simp only [strnlen, offsets_byte, if_pos nul, offsets_done,
          List.mem_singleton] at address_mem
        omega
      · simp only [strnlen, offsets_byte, if_neg nul, offsets_bind, offsets_done, List.append_nil,
          List.mem_cons] at address_mem
        rcases address_mem with rfl | later
        · omega
        · have := ih (offset + 1) address later
          omega

theorem strncpyS_within (destination memory : Memory) (numberOfElements : Nat) (offset : Int)
    (count : Nat) :
    Within (strncpyS destination numberOfElements offset count) memory offset (offset + count) := by
  intro address address_mem
  rw [strncpyS, offsets_bind, List.mem_append] at address_mem
  rcases address_mem with counted | copied
  · exact strnlen_within memory offset count address counted
  · have bound : (strnlen offset count).run memory ≤ count := by
      rw [run_strnlen, SunPush.strnlen]
      exact (List.takeWhile_prefix _).length_le.trans (by simp)
    split at copied
    · rw [offsets_bind, offsets_done, List.append_nil, mem_offsets_block] at copied
      omega
    · simp at copied

theorem handlerC2SUserAuthSyn_reads {server : Server} {user : Nat} {msg : Memory} {size : UInt16}
    {offset : Int} (read : offset ∈ (handlerC2SUserAuthSyn server user size).offsets msg) :
    size = 46 ∧ 0 ≤ offset ∧ offset < 46 := by
  rw [handlerC2SUserAuthSyn] at read
  split at read
  · simp at read
  · rw [offsets_bind, offsets_done, List.append_nil] at read
    have within := strncpyS_within _ msg 20 2 32 offset read
    exact ⟨not_ne_iff.mp ‹_›, by omega⟩

theorem handlerC2STestOrderSyn_reads {server : Server} {user : Nat} {msg : Memory} {size : UInt16}
    {offset : Int} (read : offset ∈ (handlerC2STestOrderSyn server user size).offsets msg) :
    size = 194 ∧ 0 ≤ offset ∧ offset < 194 := by
  rw [handlerC2STestOrderSyn] at read
  split at read
  · simp at read
  · simp only [offsets_bind, offsets_done, List.append_nil, List.mem_append,
      mem_offsets_block] at read
    exact ⟨not_ne_iff.mp ‹_›, by omega⟩

/-- The `WORD` a length is converted to does not exceed it. -/
theorem toNat_size_le {length : Int} (nonneg : 0 ≤ length) :
    ((UInt16.ofNat (toUInt16 length)).toNat : Int) ≤ length := by
  rw [UInt16.toNat_ofNat', toUInt16]
  omega

theorem parsePacketCS_within {server : Server} {user : Nat} {msg : Memory} {length : Int}
    (two : 2 ≤ length) :
    Within (parsePacketCS server user (UInt16.ofNat (toUInt16 length))) msg 0 length := by
  have size_le := toNat_size_le (show 0 ≤ length by omega)
  intro offset read
  simp only [parsePacketCS, offsets_byte, List.mem_cons] at read
  rcases read with rfl | rfl | read
  · omega
  · omega
  · split at read
    · have bounds := handlerC2SUserAuthSyn_reads read
      rw [bounds.1] at size_le
      change ((46 : Nat) : Int) ≤ length at size_le
      omega
    · split at read
      · have bounds := handlerC2STestOrderSyn_reads read
        rw [bounds.1] at size_le
        change ((194 : Nat) : Int) ≤ length at size_le
        omega
      · simp at read

theorem onClientReadComplete_within_iff {server : Server} {connIndex : Int} {msg : Memory}
    {length : Int} (delivered : 1 ≤ length) :
    Within (onClientReadComplete server connIndex length) msg 0 length ↔
      (msg 0 = csLogon → (server.users.findUserByConnectID connIndex).isSome → 2 ≤ length) := by
  have category_inside : (0 : Int) ≤ 0 ∧ 0 < length := by omega
  simp only [Within, onClientReadComplete, offsets_byte, List.forall_mem_cons, category_inside,
    true_and]
  by_cases category : msg 0 = csLogon
  · rw [if_neg (not_not_intro category)]
    cases server.users.findUserByConnectID connIndex with
    | none => simp
    | some user =>
        constructor
        · intro within _ _
          have protocol := within 1 (by simp [parsePacketCS])
          omega
        · intro condition
          exact parsePacketCS_within (condition category rfl)
  · simp [category]

theorem handlerW2SNewOrderBrdCmd_within_iff {server : Server} {msg : Memory} {length : Int} :
    Within (handlerW2SNewOrderBrdCmd server) msg 0 length ↔ 10 ≤ length := by
  simp only [Within, handlerW2SNewOrderBrdCmd, offsets_bind, offsets_done, List.append_nil,
    List.mem_append, mem_offsets_block]
  constructor
  · intro within
    have last := within 9 (by omega)
    omega
  · intro enough offset read
    omega

theorem parsePacketWS_within_iff {server : Server} {connIndex : Int} {msg : Memory}
    {length : Int} (category : msg 0 = wsData) :
    Within (parsePacketWS server connIndex) msg 0 length ↔
      2 ≤ length ∧ (msg 1 = 2 → 3 ≤ length) ∧ (msg 1 = 4 → 10 ≤ length) := by
  have handler : Within (if msg 1 = 0 then done (server.handlerW2SWsConnectedCmd connIndex)
        else if msg 1 = 2 then handlerW2SAuthResultAck server
        else if msg 1 = 4 then handlerW2SNewOrderBrdCmd server
        else done (server, [])) msg 0 length ↔
      (msg 1 = 2 → 3 ≤ length) ∧ (msg 1 = 4 → 10 ≤ length) := by
    by_cases connected : msg 1 = 0
    · simp [Within, connected]
    · by_cases result : msg 1 = 2
      · simp [Within, handlerW2SAuthResultAck, result]
        omega
      · by_cases order : msg 1 = 4
        · rw [if_neg connected, if_neg result, if_pos order, handlerW2SNewOrderBrdCmd_within_iff]
          simp [order]
        · simp [Within, connected, result, order]
  simp only [Within] at handler
  simp only [Within, parsePacketWS, offsets_byte, List.forall_mem_cons, category, true_and,
    handler]
  constructor
  · rintro ⟨_, protocol_inside, fields⟩
    exact ⟨by omega, fields⟩
  · rintro ⟨two, fields⟩
    exact ⟨by omega, by omega, fields⟩

theorem onWebReadComplete_within_iff {server : Server} {connIndex : Int} {msg : Memory}
    {length : Int} (delivered : 1 ≤ length) :
    Within (onWebReadComplete server connIndex) msg 0 length ↔
      (msg 0 = wsData → 2 ≤ length ∧ (msg 1 = 2 → 3 ≤ length) ∧ (msg 1 = 4 → 10 ≤ length)) := by
  have category_inside : (0 : Int) ≤ 0 ∧ 0 < length := by omega
  simp only [Within, onWebReadComplete, offsets_byte, List.forall_mem_cons, category_inside,
    true_and]
  by_cases category : msg 0 = wsData
  · rw [if_neg (not_not_intro category)]
    exact (parsePacketWS_within_iff category).trans (by simp [category])
  · simp [category]

end Reads

/-- A delivered message of `length` bytes is treated as a message of that length. -/
structure ActsOnMessage (owner : Owner) (server : Server) (connIndex : Int) (msg : NetMsg)
    (length : Int) : Prop where
  inside : Reads.Within (Reads.onReadComplete owner server connIndex length) msg.bufMsg 0 length
  /-- A message without a byte that is read has no effect. -/
  short : ∀ offset ∈ (Reads.onReadComplete owner server connIndex length).offsets msg.bufMsg,
    length ≤ offset →
      Server.callbacks.onReadComplete owner connIndex msg length server = (server, [])
  /-- What else the buffer holds makes no difference. -/
  same : ∀ other : NetMsg,
    (∀ offset, 0 ≤ offset → offset < length → other.bufMsg offset = msg.bufMsg offset) →
      Server.callbacks.onReadComplete owner connIndex other length server =
        Server.callbacks.onReadComplete owner connIndex msg length server

/-- The message has the bytes that are read before any check of its length. -/
def LongEnough (owner : Owner) (server : Server) (connIndex : Int) (msg : NetMsg)
    (length : Int) : Prop :=
  match owner with
  | .acceptor _ => msg.bufMsg 0 = csLogon →
      (server.users.findUserByConnectID connIndex).isSome → 2 ≤ length
  | .connector _ => msg.bufMsg 0 = wsData →
      2 ≤ length ∧ (msg.bufMsg 1 = 2 → 3 ≤ length) ∧ (msg.bufMsg 1 = 4 → 10 ≤ length)

theorem onReadComplete_within_iff {owner : Owner} {server : Server} {connIndex : Int}
    {msg : NetMsg} {length : Int} (delivered : 1 ≤ length) :
    Reads.Within (Reads.onReadComplete owner server connIndex length) msg.bufMsg 0 length ↔
      LongEnough owner server connIndex msg length := by
  cases owner with
  | acceptor _ => exact Reads.onClientReadComplete_within_iff delivered
  | connector _ => exact Reads.onWebReadComplete_within_iff delivered

/-- The callbacks act on the bytes of the message alone exactly when it has the protocol byte and,
for an answer of the web server, the fields its handler uses. -/
theorem actsOnMessage_iff (owner : Owner) (server : Server) (connIndex : Int) (msg : NetMsg)
    (length : Int) (delivered : 1 ≤ length) :
    ActsOnMessage owner server connIndex msg length ↔
      LongEnough owner server connIndex msg length := by
  rw [← onReadComplete_within_iff delivered]
  constructor
  · exact ActsOnMessage.inside
  · intro inside
    refine ⟨inside, ?_, ?_⟩
    · intro offset read beyond
      have := inside offset read
      omega
    · intro other agree
      rw [← Reads.run_onReadComplete, ← Reads.run_onReadComplete]
      apply Inspection.run_congr
      intro offset read
      have bounds := inside offset read
      exact agree offset bounds.1 bounds.2

/-- A running server without users. -/
def atRest : Server where
  users := .empty
  webServerConID := 0
  serverType := .null
  stack := .zero
  invalidParameter := false

theorem actsOnMessage_connected :
    ActsOnMessage (.connector 0) atRest 1 ((getPoolMessage.place 0 [2, 0, 0, 0]).place 0 [50, 0])
      2 :=
  (actsOnMessage_iff (.connector 0) atRest 1
    ((getPoolMessage.place 0 [2, 0, 0, 0]).place 0 [50, 0]) 2 (by decide)).mpr
    (by simp only [LongEnough]; decide)

/-- The two bytes of a short answer, received over the header before them. -/
def shortAnswer (header : List UInt8) : NetMsg :=
  (getPoolMessage.place 0 header).place 0 [50, 4]

/-- The acknowledgement goes to the connection that the upper half of the header names. -/
theorem not_actsOnMessage_short_answer :
    ¬ActsOnMessage (.connector 0) atRest 1 (shortAnswer [2, 0, 5, 0]) 2 ∧
      Server.callbacks.onReadComplete (.connector 0) 1 (shortAnswer [2, 0, 5, 0]) 2 atRest =
        (atRest, [atRest.send 5 (testOrderAck .zero) 3]) ∧
      Server.callbacks.onReadComplete (.connector 0) 1 (shortAnswer [2, 0, 6, 0]) 2 atRest =
        (atRest, [atRest.send 6 (testOrderAck .zero) 3]) := by
  have five : toLong (LittleEndian.decode ((shortAnswer [2, 0, 5, 0]).bufMsg.read 2 4)) = 5 := by
    decide
  have six : toLong (LittleEndian.decode ((shortAnswer [2, 0, 6, 0]).bufMsg.read 2 4)) = 6 := by
    decide
  refine ⟨?_, ?_, ?_⟩
  · intro acts
    have read : (6 : Int) ∈ (Reads.onReadComplete (.connector 0) atRest 1 2).offsets
        (shortAnswer [2, 0, 5, 0]).bufMsg := by decide
    have bounds := acts.inside 6 read
    omega
  · rw [← five]
    rfl
  · rw [← six]
    rfl

end SunPush
