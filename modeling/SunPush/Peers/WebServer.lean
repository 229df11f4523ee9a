import SunPush.Library.Memory
import SunPush.Library.Integer

/-!
# The web server

The scripts `netcommon.php`, `msgbase.php` and `msghandler.php`, and the start
of a connection in `index.php`.  A function of the scripts maps the state of the
socket to its result and the state after it, or to `none` when the script dies.

PHP integers have 32 or 64 bits, depending on the platform.
-/

namespace SunPush

namespace WebServer

/-- `PHP_INT_SIZE`. -/
inductive IntSize where
  | four
  | eight
  deriving DecidableEq, Repr

def IntSize.bits : IntSize → Nat
  | four => 32
  | eight => 64

abbrev PhpInt (size : IntSize) : Type := BitVec size.bits

/-- A socket as the scripts use it. -/
structure Socket where
  /-- The bytes that are still to be read. -/
  input : List UInt8
  /-- The strings written, one for each `socket_write`. -/
  output : List (List UInt8)
  closed : Bool
  deriving DecidableEq, Repr

/-- `socket_read`, which yields as many of the requested bytes as there are. -/
def socketRead (socket : Socket) (length : Nat) : List UInt8 × Socket :=
  if socket.closed then ([], socket)
  else (socket.input.take length, { socket with input := socket.input.drop length })

/-- What follows `or` in `$newData=socket_read(..) or die(..)` is executed if the string is empty or
the one character `0`: as a condition both are false. -/
def orDie (read : List UInt8 × Socket) : Option (List UInt8 × Socket) :=
  if read.1 = [] ∨ read.1 = [0x30] then none else some read

def socketWrite (socket : Socket) (string : List UInt8) : Socket :=
  if socket.closed then socket else { socket with output := socket.output ++ [string] }

def socketClose (socket : Socket) : Socket :=
  { socket with closed := true }

/-- `ord($string{$offset})`. -/
def ord (size : IntSize) (string : List UInt8) (offset : Nat) : PhpInt size :=
  BitVec.ofNat size.bits (string.getD offset 0).toNat

/-! ## netcommon.php -/

def readMsgInt (size : IntSize) (socket : Socket) : Option (PhpInt size × Socket) := do
  let (newData, socket) ← orDie (socketRead socket 4)
  let intstr := ord size newData 0 ||| ord size newData 1 <<< 8 ||| ord size newData 2 <<< 16 |||
    ord size newData 3 <<< 24
  return (intstr, socket)

def readMsgByte (size : IntSize) (socket : Socket) : Option (PhpInt size × Socket) := do
  let (newData, socket) ← orDie (socketRead socket 1)
  return (ord size newData 0, socket)

/-- `readMsgStr` for a length from 1 to 8192; it is called with 11, 32 and 168. -/
def readMsgStr (socket : Socket) (strlen : Nat) : Option (List UInt8 × Socket) :=
  orDie (socketRead socket strlen)

/-! ## msgbase.php -/

/-- The characters `pack` writes for `I`. -/
def packI {size : IntSize} (value : PhpInt size) : List UInt8 :=
  LittleEndian.encode 4 value.toNat

/-- The character `pack` writes for `C`. -/
def packC {size : IntSize} (value : PhpInt size) : List UInt8 :=
  LittleEndian.encode 1 value.toNat

section Classes

variable (size : IntSize)

def wsData : PhpInt size := BitVec.ofNat _ 50

def w2sWsConnectedCmd : PhpInt size := BitVec.ofNat _ 0

def s2wPushSvrAuthSyn : PhpInt size := BitVec.ofNat _ 1

def w2sAuthResultAck : PhpInt size := BitVec.ofNat _ 2

def w2sNewOrderBrdCmd : PhpInt size := BitVec.ofNat _ 4

def s2wTestOrderSyn : PhpInt size := BitVec.ofNat _ 52

structure MsgBase where
  byMsgCategory : PhpInt size
  byMsgProtocol : PhpInt size

/-- `MsgBase::_ReadPack`. -/
def MsgBase.readPack (socket : Socket) : Option (MsgBase size × Socket) := do
  let (byMsgCategory, socket) ← readMsgByte size socket
  let (byMsgProtocol, socket) ← readMsgByte size socket
  return ({ byMsgCategory, byMsgProtocol }, socket)

/-- `MSG_W2S_WSCONNECTED_CMD::_WritePack`. -/
def WsConnectedCmd.writePack : List UInt8 :=
  packI (BitVec.ofNat size.bits 2) ++ packC (wsData size) ++ packC (w2sWsConnectedCmd size)

/-- `MSG_W2S_AUTH_RESULT_ACK::_WritePack`. -/
def AuthResultAck.writePack (byResult : PhpInt size) : List UInt8 :=
  packI (BitVec.ofNat size.bits 3) ++ packC (wsData size) ++ packC (w2sAuthResultAck size) ++
    packC byResult

/-- `MSG_W2S_NEWORDERBRD_CMD::_WritePack`. -/
def NewOrderBrdCmd.writePack (iUsrConID iOrderNo : PhpInt size) : List UInt8 :=
  packI (BitVec.ofNat size.bits 10) ++ packC (wsData size) ++ packC (w2sNewOrderBrdCmd size) ++
    packI iUsrConID ++ packI iOrderNo

/-- The class `MSG_S2W_TEST_ORDER_SYN`. -/
structure TestOrderSyn where
  byOrderType : PhpInt size
  iUsrConID : PhpInt size
  iOrderNo : PhpInt size
  iUserPosX : PhpInt size
  iUserPosY : PhpInt size
  strPhone : List UInt8
  strTest : List UInt8

/-- `MSG_S2W_TEST_ORDER_SYN::__construct`. -/
def TestOrderSyn.construct (socket : Socket) : Option (TestOrderSyn size × Socket) := do
  let (byOrderType, socket) ← readMsgByte size socket
  let (iUsrConID, socket) ← readMsgInt size socket
  let (iOrderNo, socket) ← readMsgInt size socket
  let (iUserPosX, socket) ← readMsgInt size socket
  let (iUserPosY, socket) ← readMsgInt size socket
  let (strPhone, socket) ← readMsgStr socket 11
  let (strTest, socket) ← readMsgStr socket 168
  return ({ byOrderType, iUsrConID, iOrderNo, iUserPosX, iUserPosY, strPhone, strTest }, socket)

/-! ## msghandler.php -/

/-- The string `DHF100FSKJF324XDA23K34QPZ6XVO190`. -/
def authStr : List UInt8 :=
  [0x44, 0x48, 0x46, 0x31, 0x30, 0x30, 0x46, 0x53, 0x4B, 0x4A, 0x46, 0x33, 0x32, 0x34, 0x58, 0x44,
    0x41, 0x32, 0x33, 0x4B, 0x33, 0x34, 0x51, 0x50, 0x5A, 0x36, 0x58, 0x56, 0x4F, 0x31, 0x39, 0x30]

/-- `ConfirmConnect`. -/
def confirmConnect (socket : Socket) : Socket :=
  socketWrite socket (WsConnectedCmd.writePack size)

/-- `Handler_S2W_PUSHSVRAUTH_SYN`. -/
def handlerS2WPushSvrAuthSyn (socket : Socket) : Option Socket := do
  let (szAuthKey, socket) ← readMsgStr socket 32
  let byResult : PhpInt size := if szAuthKey = authStr then BitVec.ofNat _ 1 else BitVec.ofNat _ 0
  let socket := socketWrite socket (AuthResultAck.writePack size byResult)
  return if byResult = BitVec.ofNat _ 0 then socketClose socket else socket

/-- `Handler_S2W_TEST_ORDER_SYN`. -/
def handlerS2WTestOrderSyn (socket : Socket) : Option Socket := do
  let (recvmsg, socket) ← TestOrderSyn.construct size socket
  return socketWrite socket (NewOrderBrdCmd.writePack size recvmsg.iUsrConID recvmsg.iOrderNo)

/-- `msg_handler`. -/
def msgHandler (socket : Socket) : Option Socket := do
  let (_msgLen, socket) ← readMsgInt size socket
  let (msgbase, socket) ← MsgBase.readPack size socket
  if msgbase.byMsgCategory = wsData size then
    if msgbase.byMsgProtocol = s2wPushSvrAuthSyn size then handlerS2WPushSvrAuthSyn size socket
    else if msgbase.byMsgProtocol = s2wTestOrderSyn size then handlerS2WTestOrderSyn size socket
    else return socket
  else return socket

end Classes

/-! ## Reading from a socket that has the bytes -/

/-- An open socket with some bytes to read. -/
def Socket.listening (input : List UInt8) (output : List (List UInt8)) : Socket where
  input := input
  output := output
  closed := false

theorem socketRead_append {string : List UInt8} {length : Nat} (exact : string.length = length)
    (rest : List UInt8) (output : List (List UInt8)) :
    socketRead (.listening (string ++ rest) output) length = (string, .listening rest output) := by
  subst exact
  simp [socketRead, Socket.listening]

theorem readMsgStr_append {string : List UInt8} {strlen : Nat} (exact : string.length = strlen)
    (several : 1 < strlen) (rest : List UInt8) (output : List (List UInt8)) :
    readMsgStr (.listening (string ++ rest) output) strlen =
      some (string, .listening rest output) := by
  rw [readMsgStr, socketRead_append exact, orDie, if_neg]
  rintro (rfl | rfl)
  · simp only [List.length_nil] at exact
    omega
  · simp only [List.length_singleton] at exact
    omega

variable (size : IntSize)

/-- The byte of the character `0` ends the script. -/
theorem readMsgByte_cons (byte : UInt8) (rest : List UInt8) (output : List (List UInt8)) :
    readMsgByte size (.listening (byte :: rest) output) =
      if byte = 0x30 then none
      else some (BitVec.ofNat _ byte.toNat, .listening rest output) := by
  have read : socketRead (.listening (byte :: rest) output) 1 = ([byte], .listening rest output) :=
    @socketRead_append [byte] 1 rfl rest output
  simp only [readMsgByte, read, orDie, List.cons_ne_nil, List.cons.injEq, and_true, false_or]
  by_cases zero : byte = 0x30
  · simp [zero]
  · simp [zero, ord]

theorem two_pow_le_bits : 2 ^ 32 ≤ 2 ^ size.bits := by
  cases size with
  | four => exact Nat.le_refl _
  | eight => exact Nat.pow_le_pow_right (by omega) (by change 32 ≤ 64; omega)

/-- No bit of the four bytes is lost in an integer of 32 or 64 bits. -/
theorem ord_or (first second third fourth : UInt8) :
    ord size [first, second, third, fourth] 0 |||
        ord size [first, second, third, fourth] 1 <<< 8 |||
        ord size [first, second, third, fourth] 2 <<< 16 |||
        ord size [first, second, third, fourth] 3 <<< 24 =
      BitVec.ofNat size.bits (LittleEndian.decode [first, second, third, fourth]) := by
  apply LittleEndian.ofNat_or
  cases size with
  | four => exact Nat.le_refl 32
  | eight => exact Nat.le_of_ble_eq_true rfl

theorem readMsgInt_append {word : List UInt8} (exact : word.length = 4) (rest : List UInt8)
    (output : List (List UInt8)) :
    readMsgInt size (.listening (word ++ rest) output) =
      some (BitVec.ofNat _ (LittleEndian.decode word), .listening rest output) := by
  have read := readMsgStr_append exact (by omega) rest output
  rw [readMsgStr] at read
  rcases List.length_eq_four.mp exact with ⟨first, second, third, fourth, rfl⟩
  simp only [readMsgInt, read, Option.bind_eq_bind, Option.bind_some, ord_or]
  rfl

theorem MsgBase.readPack_cons {category protocol : UInt8} (category_truthy : category ≠ 0x30)
    (protocol_truthy : protocol ≠ 0x30) (rest : List UInt8) (output : List (List UInt8)) :
    readPack size (.listening (category :: protocol :: rest) output) =
      some (⟨BitVec.ofNat _ category.toNat, BitVec.ofNat _ protocol.toNat⟩,
        .listening rest output) := by
  simp only [readPack, readMsgByte_cons, if_neg category_truthy, if_neg protocol_truthy,
    Option.bind_eq_bind, Option.bind_some]
  rfl

/-- A frame of an order goes to its handler. -/
theorem msgHandler_testOrder {header : List UInt8} (exact : header.length = 4)
    (rest : List UInt8) (output : List (List UInt8)) :
    msgHandler size (.listening (header ++ (50 :: 52 :: rest)) output) =
      handlerS2WTestOrderSyn size (.listening rest output) := by
  have other : s2wTestOrderSyn size ≠ s2wPushSvrAuthSyn size := by
    cases size <;> decide
  have base := MsgBase.readPack_cons size (show (50 : UInt8) ≠ 0x30 by decide)
    (show (52 : UInt8) ≠ 0x30 by decide) rest output
  simp only [msgHandler, readMsgInt_append size exact, base, Option.bind_eq_bind,
    Option.bind_some]
  exact (if_pos rfl).trans ((if_neg other).trans (if_pos rfl))

/-- A frame with the right key is confirmed. -/
theorem msgHandler_pushSvrAuth {header : List UInt8} (exact : header.length = 4)
    (rest : List UInt8) (output : List (List UInt8)) :
    msgHandler size (.listening (header ++ (50 :: 1 :: (authStr ++ rest))) output) =
      some (.listening rest (output ++ [[3, 0, 0, 0, 50, 2, 1]])) := by
  have base := MsgBase.readPack_cons size (show (50 : UInt8) ≠ 0x30 by decide)
    (show (1 : UInt8) ≠ 0x30 by decide) (authStr ++ rest) output
  have key := readMsgStr_append (show authStr.length = 32 from rfl) (by omega) rest output
  simp only [msgHandler, readMsgInt_append size exact, base, Option.bind_eq_bind,
    Option.bind_some]
  refine (if_pos rfl).trans ((if_pos rfl).trans ?_)
  simp only [handlerS2WPushSvrAuthSyn, key, Option.bind_eq_bind, Option.bind_some, if_true]
  cases size <;> rfl

theorem decode_word_lt {word : List UInt8} (exact : word.length = 4) :
    LittleEndian.decode word < 2 ^ 32 := by
  have bounded := LittleEndian.decode_lt word
  rwa [exact] at bounded

/-- What was read as an integer is written as the same four characters. -/
theorem packI_decode {word : List UInt8} (exact : word.length = 4) :
    packI (BitVec.ofNat size.bits (LittleEndian.decode word)) = word := by
  have bounded := decode_word_lt exact
  have wide := two_pow_le_bits size
  rw [packI, BitVec.toNat_ofNat, Nat.mod_eq_of_lt (by omega), ← exact, LittleEndian.encode_decode]

/-- Of the integers read, those of 64 bits are the unsigned ones. -/
theorem toInt_eq_toLong_iff {value : Nat} (value_lt : value < 2 ^ 32) :
    (BitVec.ofNat size.bits value).toInt = CInteger.toLong value ↔
      size = .four ∨ 0 ≤ CInteger.toLong value := by
  cases size with
  | four =>
      simp only [true_or, iff_true]
      change (BitVec.ofNat 32 value).toInt = _
      exact BitVec.toInt_ofNat' ..
  | eight =>
      simp only [reduceCtorEq, false_or]
      change (BitVec.ofNat 64 value).toInt = _ ↔ _
      have unsigned : (BitVec.ofNat 64 value).toInt = value := by
        rw [BitVec.toInt_ofNat', Int.bmod_eq_of_le (by omega) (by omega)]
      rw [unsigned]
      constructor
      · intro same
        omega
      · intro nonneg
        rw [CInteger.toLong_natCast value_lt] at nonneg ⊢
        split at nonneg
        · rw [if_pos ‹_›]
        · omega

theorem toInt_byte (byte : UInt8) : (BitVec.ofNat size.bits byte.toNat).toInt = byte.toNat := by
  have bounded := byte.toNat_lt
  have wide := two_pow_le_bits size
  rw [BitVec.toInt_ofNat', Int.bmod_eq_of_le (by omega) (by omega)]

/-- The seven reads of the constructor, of which only the first can end the script. -/
theorem TestOrderSyn.construct_append (byOrderType : UInt8)
    {con no posX posY phone test : List UInt8}
    (con_exact : con.length = 4) (no_exact : no.length = 4) (posX_exact : posX.length = 4)
    (posY_exact : posY.length = 4) (phone_exact : phone.length = 11)
    (test_exact : test.length = 168) (rest : List UInt8) (output : List (List UInt8)) :
    TestOrderSyn.construct size
        (.listening (byOrderType :: (con ++ (no ++ (posX ++ (posY ++ (phone ++ (test ++ rest)))))))
          output) =
      if byOrderType = 0x30 then none
      else
        some (⟨BitVec.ofNat _ byOrderType.toNat, BitVec.ofNat _ (LittleEndian.decode con),
          BitVec.ofNat _ (LittleEndian.decode no), BitVec.ofNat _ (LittleEndian.decode posX),
          BitVec.ofNat _ (LittleEndian.decode posY), phone, test⟩, .listening rest output) := by
  by_cases zero : byOrderType = 0x30
  · simp only [construct, readMsgByte_cons, if_pos zero, Option.bind_eq_bind, Option.bind_none]
  · simp only [construct, readMsgByte_cons, if_neg zero, Option.bind_eq_bind, Option.bind_some,
      readMsgInt_append size con_exact, readMsgInt_append size no_exact,
      readMsgInt_append size posX_exact, readMsgInt_append size posY_exact,
      readMsgStr_append phone_exact (by omega), readMsgStr_append test_exact (by omega)]
    rfl

end WebServer

end SunPush
