import SunPush.Library.Memory

/-!
# The login request of the Java client

`MSG_C2S_USER_AUTH_SYN._WritePack` of `MsgBase.java` against the packed class of
the same name in `MsgStruct_CS.h`.  A store past the end of a Java array throws,
and then nothing is written to the socket.
-/

namespace SunPush

namespace JavaClient

def MsgBase.csLogon : UInt8 := 10

def MsgBase.c2sUserAuthSyn : UInt8 := 1

def idMaxLen : Nat := 20

def passwdMaxLen : Nat := 24

/-- `array[index] = byte`; `none` is the exception of an index out of bounds. -/
def store (array : List UInt8) (index : Nat) (byte : UInt8) : Option (List UInt8) :=
  if index < array.length then some (array.set index byte) else none

/-- `for( int i = 0; i < bytes.length; ++i ) array[offset+i] = bytes[i]`. -/
def storeAll (array : List UInt8) (offset : Nat) : List UInt8 → Option (List UInt8)
  | [] => some array
  | byte :: bytes => (store array offset byte).bind fun array => storeAll array (offset + 1) bytes

/-- The cast `(byte)(val >> shift & 0xff)`. -/
def byteAt (val : BitVec 32) (shift : Nat) : UInt8 :=
  UInt8.ofBitVec ((val.sshiftRight shift &&& 0xFF#32).setWidth 8)

def writeInt (array : List UInt8) (val : BitVec 32) (off : Nat) : Option (List UInt8) := do
  let array ← store array off (byteAt val 0)
  let array ← store array (1 + off) (byteAt val 8)
  let array ← store array (2 + off) (byteAt val 16)
  store array (3 + off) (byteAt val 24)

/-- `getBytes( "utf-8" )`. -/
def getBytes (string : String) : List UInt8 :=
  string.toByteArray.data.toList

end JavaClient

open JavaClient

/-- The Java class `MSG_C2S_USER_AUTH_SYN`. -/
structure UserAuthSyn where
  szUserID : String
  szPasswd : String

namespace UserAuthSyn

def getMsgLen : Nat := 46

/-- `_WritePack`: the bytes written to the socket, unless an exception is thrown before. -/
def writePack (msg : UserAuthSyn) : Option (List UInt8) := do
  let sendbyte := List.replicate getMsgLen 0
  let sendbyte ← writeInt sendbyte (BitVec.ofNat 32 getMsgLen) 0
  let sendbyte ← store sendbyte 4 MsgBase.csLogon
  let sendbyte ← store sendbyte 5 MsgBase.c2sUserAuthSyn
  let byId := getBytes msg.szUserID
  let byPw := getBytes msg.szPasswd
  let sendbyte ← storeAll sendbyte 6 byId
  let sendbyte ← storeAll sendbyte (6 + idMaxLen) byPw
  return sendbyte.take getMsgLen

/-- `sizeof( MSG_C2S_USER_AUTH_SYN )` of the packed C++ class: `szUserID` at offset 2 and `szPasswd`
at offset 22. -/
def size : Nat := 2 + idMaxLen + passwdMaxLen

/-- A field of `width` bytes that holds `bytes` and then zeros. -/
def Holds (body : List UInt8) (offset width : Nat) (bytes : List UInt8) : Prop :=
  (body.drop offset).take width = bytes ++ List.replicate (width - bytes.length) 0

/-- The written bytes are one frame that the server takes for the login request. -/
structure WellFormed (msg : UserAuthSyn) (written : List UInt8) : Prop where
  frame : LittleEndian.decode (written.take 4) = (written.drop 4).length
  length : LittleEndian.decode (written.take 4) = size
  userID : Holds (written.drop 4) 2 idMaxLen (getBytes msg.szUserID)
  passwd : Holds (written.drop 4) (2 + idMaxLen) passwdMaxLen (getBytes msg.szPasswd)

/-- The client writes a login request that the server takes. -/
def Agrees (msg : UserAuthSyn) : Prop :=
  ∃ written, msg.writePack = some written ∧ msg.WellFormed written

end UserAuthSyn

namespace JavaClient

/-- A loop of stores fills the zeros at the end of an array, or throws. -/
theorem storeAll_zeros (front bytes : List UInt8) (zeros : Nat) :
    storeAll (front ++ List.replicate zeros 0) front.length bytes =
      if bytes.length ≤ zeros then
        some (front ++ (bytes ++ List.replicate (zeros - bytes.length) 0))
      else none := by
  induction bytes generalizing front zeros with
  | nil => simp [storeAll]
  | cons byte bytes ih =>
      cases zeros with
      | zero => simp [storeAll, store]
      | succ zeros =>
          have stored : store (front ++ List.replicate (zeros + 1) 0) front.length byte =
              some ((front ++ [byte]) ++ List.replicate zeros 0) := by
            simp [store, List.set_append_right, List.replicate_succ]
          have rest := ih (front ++ [byte]) zeros
          rw [List.length_append, List.length_singleton] at rest
          rw [storeAll, stored, Option.bind_some, rest]
          simp

end JavaClient

namespace UserAuthSyn

/-- The array of 46 bytes holds the header too, so the password has 20 of the 24 bytes of the C++
field. -/
theorem writePack_eq (msg : UserAuthSyn) (id_fits : (getBytes msg.szUserID).length ≤ 20) :
    msg.writePack =
      if (getBytes msg.szPasswd).length ≤ 20 then
        some ([46, 0, 0, 0, 10, 1] ++
          (getBytes msg.szUserID ++ List.replicate (20 - (getBytes msg.szUserID).length) 0) ++
          (getBytes msg.szPasswd ++ List.replicate (20 - (getBytes msg.szPasswd).length) 0))
      else none := by
  have stores : writePack msg =
      (storeAll ([46, 0, 0, 0, 10, 1] ++ List.replicate 40 0) 6 (getBytes msg.szUserID)).bind
        fun sendbyte => (storeAll sendbyte 26 (getBytes msg.szPasswd)).bind
          fun sendbyte => some (sendbyte.take 46) := rfl
  generalize getBytes msg.szUserID = byId at id_fits stores ⊢
  generalize getBytes msg.szPasswd = byPw at stores ⊢
  have id_stored : storeAll ([46, 0, 0, 0, 10, 1] ++ List.replicate 40 0) 6 byId =
      some ([46, 0, 0, 0, 10, 1] ++ (byId ++ List.replicate (20 - byId.length) 0) ++
        List.replicate 20 0) := by
    have zeros : 40 - byId.length = (20 - byId.length) + 20 := by omega
    have block := storeAll_zeros [46, 0, 0, 0, 10, 1] byId 40
    rw [if_pos (by omega), zeros, List.replicate_add] at block
    simpa using block
  have front : ([46, 0, 0, 0, 10, 1] ++
      (byId ++ List.replicate (20 - byId.length) 0)).length = 26 := by
    simp
    omega
  have passwd_stored := storeAll_zeros ([46, 0, 0, 0, 10, 1] ++
    (byId ++ List.replicate (20 - byId.length) 0)) byPw 20
  rw [front] at passwd_stored
  rw [stores, id_stored, Option.bind_some, passwd_stored]
  by_cases passwd_fits : byPw.length ≤ 20
  · rw [if_pos passwd_fits, Option.bind_some, List.take_of_length_le]
    simp
    omega
  · rw [if_neg passwd_fits, Option.bind_none]

/-- The header announces 46 bytes and 42 follow, or nothing is written. -/
theorem not_agrees (msg : UserAuthSyn) (id_fits : (getBytes msg.szUserID).length ≤ idMaxLen) :
    ¬msg.Agrees := by
  rintro ⟨written, completed, wellFormed⟩
  have announced := wellFormed.frame
  change _ ≤ 20 at id_fits
  rw [writePack_eq msg id_fits] at completed
  by_cases passwd_fits : (getBytes msg.szPasswd).length ≤ 20
  · rw [if_pos passwd_fits, Option.some.injEq] at completed
    subst completed
    have header : LittleEndian.decode [46, 0, 0, 0] = 46 := rfl
    simp only [List.cons_append, List.nil_append, List.take_succ_cons, List.take_zero, header,
      List.drop_succ_cons, List.drop_zero, List.length_cons, List.length_append,
      List.length_replicate] at announced
    omega
  · rw [if_neg passwd_fits] at completed
    contradiction

/-- The request that `Handler_S2C_SVR_READY_CMD` of the client sends. -/
def ofHandler : UserAuthSyn where
  szUserID := "jakesun"
  szPasswd := "123456"

theorem not_agrees_short : (getBytes ofHandler.szUserID).length ≤ idMaxLen ∧ ¬ofHandler.Agrees :=
  ⟨by decide, not_agrees ofHandler (by decide)⟩

/-- The client's own request is 46 bytes with a header that announces 46; a password of 21 bytes is
not written at all. -/
theorem not_agrees_ofHandler :
    ¬ofHandler.Agrees ∧
      (UserAuthSyn.mk "jakesun" "123456789012345678901").writePack = none := by
  refine ⟨?_, by decide⟩
  rintro ⟨written, completed, wellFormed⟩
  have sent : ofHandler.writePack = some ([46, 0, 0, 0, 10, 1, 106, 97, 107, 101, 115, 117, 110] ++
      List.replicate 13 0 ++ [49, 50, 51, 52, 53, 54] ++ List.replicate 14 0) := by decide
  rw [sent, Option.some.injEq] at completed
  subst completed
  have announced := wellFormed.frame
  revert announced
  decide

end UserAuthSyn

end SunPush
