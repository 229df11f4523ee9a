import SunPush.Library.Inspection
import SunPush.Peers.JavaFraming
import SunPush.PushServer.Server

/-!
# The server-ready message in Java

`MSG_S2C_SVR_READY_CMD` as the push server lays it out, packed and little endian,
and as `_ReadPack` of the Java class reads it.  Java's bytes are signed: what the
server sends as 255 is -1 there until it is masked.
-/

namespace SunPush

open Inspection

/-- `MSG_S2C_SVR_READY_CMD` in memory: the 42 bytes of its fields over what the stack held. -/
def packedSvrReadyCmd (stack : Memory) (sHighVer sLowVer : Int16) (iEncKey : Int32)
    (szAuthKey : List UInt8) : Memory :=
  ((((msgBase stack csLogon 0).write 2 (LittleEndian.encode 2 sHighVer.toBitVec.toNat)).write 4
    (LittleEndian.encode 2 sLowVer.toBitVec.toNat)).write 6
      (LittleEndian.encode 4 iEncKey.toBitVec.toNat)).write 10 szAuthKey

/-- The message that `OnAccept` sends. -/
theorem svrReadyCmd_eq (stack : Memory) :
    svrReadyCmd stack = packedSvrReadyCmd stack 7 8 666 toWSAuthStr :=
  rfl

namespace JavaClient

namespace Reads

/-- A Java `byte` as the `int` it is promoted to. -/
def promote (byte : UInt8) : BitVec 32 :=
  byte.toBitVec.signExtend 32

/-- `MsgBase.ReadInt` -/
def readInt (off : Int) : Inspection Int32 :=
  byte (0 + off) fun byte0 => byte (1 + off) fun byte1 => byte (2 + off) fun byte2 =>
    byte (3 + off) fun byte3 =>
      let intStr := promote byte0 &&& 0xff#32 ||| (promote byte1 &&& 0xff#32) <<< 8 |||
        (promote byte2 &&& 0xff#32) <<< 16 ||| (promote byte3 &&& 0xff#32) <<< 24
      done (.ofBitVec intStr)

/-- `MsgBase.ReadShort` -/
def readShort (off : Int) : Inspection Int16 :=
  byte (off + 0) fun byte0 => byte (off + 1) fun byte1 =>
    let shortStr := promote byte0 &&& 0xff#32 ||| (promote byte1 &&& 0xff#32) <<< 8
    done (.ofBitVec (shortStr.setWidth 16))

/-- `new String( byTemp, "UTF-8" )`; `none` where the bytes are no UTF-8 and Java puts replacement
characters into the string. -/
def newString (byTemp : List UInt8) : Option String :=
  String.fromUTF8? ⟨byTemp.toArray⟩

/-- `MsgBase.ReadString` -/
def readString (off : Int) (len : Nat) : Inspection (Option String) :=
  (block off len).bind fun byTemp => done (newString byTemp)

/-- The fields of the Java class `MSG_S2C_SVR_READY_CMD`. -/
structure SvrReadyCmd where
  sHighVer : Int16
  sLowVer : Int16
  dwEncKey : Int32
  strAuth : Option String

/-- `MSG_S2C_SVR_READY_CMD._ReadPack` -/
def readPack (off : Int) : Inspection SvrReadyCmd :=
  (readShort off).bind fun sHighVer =>
  (readShort (off + 2)).bind fun sLowVer =>
  (readInt (off + 4)).bind fun dwEncKey =>
  (readString (off + 8) 32).bind fun strAuth =>
  done ⟨sHighVer, sLowVer, dwEncKey, strAuth⟩

/-- The string whose characters are ASCII bytes. -/
def asciiString (bytes : List UInt8) : String :=
  String.ofList (bytes.map Char.ofUInt8)

/-! ## The expressions of the readers -/

/-- The mask undoes the sign extension. -/
theorem promote_and_mask (byte : UInt8) :
    promote byte &&& 0xff#32 = BitVec.ofNat 32 byte.toNat := by
  have masked : ∀ bits : BitVec 8, bits.signExtend 32 &&& 0xff#32 = bits.setWidth 32 := by decide
  rw [promote, masked, ← BitVec.ofNat_toNat]
  rfl

theorem run_readInt (memory : Memory) (off : Int) :
    (readInt off).run memory =
      .ofBitVec (BitVec.ofNat 32 (LittleEndian.decode (memory.read off 4))) := by
  have four : memory.read off 4 =
      [memory (0 + off), memory (1 + off), memory (2 + off), memory (3 + off)] := by
    simp [Memory.read, List.range_succ, Int.add_comm]
  simp only [readInt, run_byte, run_done, promote_and_mask]
  rw [four, ← LittleEndian.ofNat_or (Nat.le_refl 32)]

theorem run_readShort (memory : Memory) (off : Int) :
    (readShort off).run memory =
      .ofBitVec (BitVec.ofNat 16 (LittleEndian.decode (memory.read off 2))) := by
  have two : memory.read off 2 = [memory (off + 0), memory (off + 1)] := by
    simp [Memory.read, List.range_succ]
  have joined := LittleEndian.ofNat_or (Nat.le_refl 32) (memory (off + 0)) (memory (off + 1)) 0 0
  simp only [UInt8.toNat_zero, BitVec.zero_shiftLeft, BitVec.or_zero]
    at joined
  simp only [readShort, run_byte, run_done, promote_and_mask]
  rw [joined, two, BitVec.setWidth_ofNat_of_le (by omega)]
  rfl

theorem offsets_readPack (memory : Memory) (off : Int) :
    (readPack off).offsets memory = (List.range 40).map fun i : Nat => off + i := by
  have numbers : (List.range 8).map (fun i : Nat => off + i) =
      [off + 0, off + 1, off + 2, off + 3, off + 4, off + 5, off + 6, off + 7] := by
    simp [List.range_succ]
  have authKey : (List.range 32).map (fun i : Nat => off + 8 + i) =
      ((List.range 32).map fun i => 8 + i).map fun i : Nat => off + i := by
    rw [List.map_map]
    apply List.map_congr_left
    intro i _
    simp only [Function.comp_apply]
    omega
  rw [show (40 : Nat) = 8 + 32 from rfl, List.range_add, List.map_append, numbers, ← authKey]
  simp only [readPack, readShort, readInt, readString, offsets_bind, offsets_byte, offsets_done,
    offsets_block, List.append_nil, List.cons_append, List.nil_append]
  simp only [List.cons.injEq, and_true, true_and]
  omega

/-! ## ASCII strings -/

theorem utf8Encode_ascii {bytes : List UInt8} (ascii : ∀ byte ∈ bytes, byte < 128) :
    (bytes.map Char.ofUInt8).flatMap String.utf8EncodeChar = bytes := by
  induction bytes with
  | nil => rfl
  | cons byte rest ih =>
      have later := ih fun other other_mem => ascii other (List.mem_cons_of_mem _ other_mem)
      have small : byte.toNat < 128 := ascii byte List.mem_cons_self
      have code : (Char.ofUInt8 byte).val.toNat = byte.toNat := UInt8.toNat_toUInt32 byte
      have single : String.utf8EncodeChar (Char.ofUInt8 byte) = [byte] := by
        rw [String.utf8EncodeChar, code, if_pos (by omega), UInt8.ofNat_toNat]
      rw [List.map_cons, List.flatMap_cons, later, single]
      rfl

theorem newString_ascii {bytes : List UInt8} (ascii : ∀ byte ∈ bytes, byte < 128) :
    newString bytes = some (asciiString bytes) := by
  have encoded : (⟨bytes.toArray⟩ : ByteArray) = (asciiString bytes).toByteArray := by
    rw [asciiString, String.toByteArray_ofList, List.utf8Encode, utf8Encode_ascii ascii]
    apply ByteArray.ext
    rw [List.data_toByteArray]
  have valid : (⟨bytes.toArray⟩ : ByteArray).IsValidUTF8 := by
    rw [encoded]
    exact (asciiString bytes).isValidUTF8
  rw [newString, String.fromUTF8?, dif_pos valid, Option.some.injEq]
  apply String.toByteArray_inj.mp
  exact encoded

/-! ## The class as the receiver models it -/

/-- A Java array that is long enough for what is read of it. -/
def ofArray (array : List UInt8) : Memory :=
  fun address => array.getD address.toNat 0

theorem ofArray_natCast (array : List UInt8) (index : Nat) :
    ofArray array index = array.getD index 0 := by
  rw [ofArray, Int.toNat_natCast]

theorem read_ofArray {array : List UInt8} {off count : Nat} (fits : off + count ≤ array.length) :
    (ofArray array).read off count = (array.drop off).take count := by
  apply List.ext_getElem
  · rw [Memory.length_read, List.length_take, List.length_drop]
    omega
  · intro i left right
    rw [Memory.length_read] at left
    rw [Memory.getElem_read, List.getElem_take, List.getElem_drop, ← Int.natCast_add,
      ofArray_natCast, List.getD_eq_getElem _ _ (by omega)]

/-- The receiver's `_ReadPack` reads the same bits. -/
theorem run_readPack {array : List UInt8} {off : Nat} (fits : off + 40 ≤ array.length) :
    let read := JavaClient.SvrReadyCmd.readPack array off
    (readPack off).run (ofArray array) =
      ⟨.ofBitVec read.sHighVer, .ofBitVec read.sLowVer, .ofBitVec read.dwEncKey,
        newString read.strAuth⟩ := by
  have strAuth : (ofArray array).read ((off + 8 : Nat) : Int) 32 =
      (array.drop (off + 8)).take 32 := read_ofArray fits
  have short (index : Nat) : (readShort index).run (ofArray array) =
      .ofBitVec (JavaClient.readShort array index) := by
    simp only [readShort, run_byte, run_done, promote_and_mask]
    rfl
  have int (index : Nat) : (readInt index).run (ofArray array) =
      .ofBitVec (JavaClient.readInt array index) := by
    have first : ofArray array (0 + index) = array.getD index 0 := by
      rw [Int.zero_add, ofArray_natCast]
    have later (count : Nat) : ofArray array ((count : Int) + index) =
        array.getD (count + index) 0 := ofArray_natCast array (count + index)
    simp only [readInt, run_byte, run_done, promote_and_mask, JavaClient.readInt, intOf]
    rw [first, ← later 1, ← later 2, ← later 3]
    rfl
  simp only [readPack, readString, run_bind, run_done, run_block]
  exact congr (congr (congrArg₂ _ (short off) (short (off + 2))) (int (off + 4)))
    (congrArg newString strAuth)

/-! ## What the client decodes -/

theorem read_packedSvrReadyCmd (stack : Memory) (sHighVer sLowVer : Int16) (iEncKey : Int32)
    {szAuthKey : List UInt8} (length : szAuthKey.length = 32) :
    let array := packedSvrReadyCmd stack sHighVer sLowVer iEncKey szAuthKey
    array.read 2 2 = LittleEndian.encode 2 sHighVer.toBitVec.toNat ∧
      array.read 4 2 = LittleEndian.encode 2 sLowVer.toBitVec.toNat ∧
        array.read 6 4 = LittleEndian.encode 4 iEncKey.toBitVec.toNat ∧
          array.read 10 32 = szAuthKey := by
  have two (value : Nat) (memory : Memory) (offset : Int) :
      (memory.write offset (LittleEndian.encode 2 value)).read offset 2 =
        LittleEndian.encode 2 value := by
    simpa using Memory.read_write_self memory offset (LittleEndian.encode 2 value)
  have four (value : Nat) (memory : Memory) (offset : Int) :
      (memory.write offset (LittleEndian.encode 4 value)).read offset 4 =
        LittleEndian.encode 4 value := by
    simpa using Memory.read_write_self memory offset (LittleEndian.encode 4 value)
  have kept {memory : Memory} {offset start : Int} {bytes : List UInt8} {count : Nat}
      (before : start + count ≤ offset) :
      (memory.write offset bytes).read start count = memory.read start count :=
    Memory.read_copy_of_disjoint (.inl before)
  refine ⟨?_, ?_, ?_, ?_⟩
  · rw [packedSvrReadyCmd, kept (by decide), kept (by decide), kept (by decide), two]
  · rw [packedSvrReadyCmd, kept (by decide), kept (by decide), two]
  · rw [packedSvrReadyCmd, kept (by decide), four]
  · have whole (memory : Memory) : (memory.write 10 szAuthKey).read 10 32 = szAuthKey := by
      simpa only [length] using Memory.read_write_self memory 10 szAuthKey
    rw [packedSvrReadyCmd, whole]

theorem ofNat_decode_encode {width : Nat} (bytes : Nat) (bits : BitVec width)
    (fits : 256 ^ bytes = 2 ^ width) :
    BitVec.ofNat width (LittleEndian.decode (LittleEndian.encode bytes bits.toNat)) = bits := by
  rw [LittleEndian.decode_encode, fits, Nat.mod_eq_of_lt bits.isLt, BitVec.ofNat_toNat,
    BitVec.setWidth_eq]

/-- `_ReadPack` at offset 2 recovers the fields of every message and reads the bytes behind the
category and the protocol. -/
theorem readPack_packedSvrReadyCmd (stack : Memory) (sHighVer sLowVer : Int16) (iEncKey : Int32)
    {szAuthKey : List UInt8} (length : szAuthKey.length = 32)
    (ascii : ∀ character ∈ szAuthKey, character < 128) :
    let array := packedSvrReadyCmd stack sHighVer sLowVer iEncKey szAuthKey
    (readPack 2).run array = ⟨sHighVer, sLowVer, iEncKey, some (asciiString szAuthKey)⟩ ∧
      (asciiString szAuthKey).length = 32 ∧
        (readPack 2).offsets array = (List.range 40).map fun i : Nat => 2 + i := by
  rcases read_packedSvrReadyCmd stack sHighVer sLowVer iEncKey length with
    ⟨highVer, lowVer, encKey, authKey⟩
  refine ⟨?_, ?_, offsets_readPack _ 2⟩
  · simp only [readPack, readString, run_bind, run_done, run_block, run_readShort, run_readInt,
      Int.reduceAdd, highVer, lowVer, encKey, authKey, newString_ascii ascii]
    rw [ofNat_decode_encode 2 sHighVer.toBitVec rfl, ofNat_decode_encode 2 sLowVer.toBitVec rfl,
      ofNat_decode_encode 4 iEncKey.toBitVec rfl]
    rfl
  · rw [asciiString, String.length_ofList, List.length_map, length]

theorem readPack_svrReadyCmd :
    (readPack 2).run (svrReadyCmd .zero) = ⟨7, 8, 666, some (asciiString toWSAuthStr)⟩ := by
  have all_ascii : toWSAuthStr.all (fun character => character < 128) = true := rfl
  have ascii : ∀ character ∈ toWSAuthStr, character < 128 := by
    intro character character_mem
    exact of_decide_eq_true (List.all_eq_true.mp all_ascii character character_mem)
  rw [svrReadyCmd_eq]
  exact (readPack_packedSvrReadyCmd .zero 7 8 666 rfl ascii).1

end Reads

end JavaClient

end SunPush
