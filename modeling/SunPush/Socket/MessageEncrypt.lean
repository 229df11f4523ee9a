import Mathlib.Logic.Function.Iterate
import SunPush.Library.Memory
import SunPush.Library.StreamCipher

/-!
# The stream cipher

`MessageEncrypt` from `MessageEncrypt.h` and `MessageEncrypt.cpp`.  Each byte is
masked by a list of terms that depend on the two position counters and the two
key tables, and rotated by an amount that depends on the tables.  `Encrypt` and
`Decrypt` carry their own copies of the list; the arithmetic is that of a 32-bit
`int`, and an assignment to a byte keeps the low eight bits.
-/

namespace SunPush

/-- `MessageEncrypt`: the position counters and the key tables, of which the bytes from 0 to 255
exist. -/
structure MessageEncrypt where
  pos1 : Int32
  pos2 : Int32
  bufEncrypt1 : Memory
  bufEncrypt2 : Memory

namespace MessageEncrypt

/-! ## Construction -/

/-- A byte promoted to `int`. -/
def promote (byte : UInt8) : Int32 := Int32.ofNat byte.toNat

/-- The low byte of an `int`. -/
def lowByte (value : Int32) : UInt8 := value.toUInt32.toUInt8

/-- `nCode` after one round of a loop of `InitKey`. -/
def nextCode (a b c : UInt8) (code : UInt8) : UInt8 :=
  lowByte ((promote a * promote code * promote code + promote b * promote code + promote c) % 256)

/-- The table a loop of `InitKey` fills. -/
def codeTable (a b c fst : UInt8) : Memory := fun index =>
  (nextCode a b c)^[index.toNat] fst

/-- `for (i = 0; i < count; i++) m_bufEncrypt1[i*4+target] ^= m_bufEncrypt2[i*4+source];` -/
def mixTable (encrypt : MessageEncrypt) (count : Nat) (target source : Int) : MessageEncrypt :=
  (List.range count).foldl (fun current i =>
    { current with
      bufEncrypt1 := current.bufEncrypt1.write (i * 4 + target)
        [current.bufEncrypt1 (i * 4 + target) ^^^ current.bufEncrypt2 (i * 4 + source)] }) encrypt

def pushStack1 (encrypt : MessageEncrypt) : MessageEncrypt := encrypt.mixTable 10 1 3

def pushStack2 (encrypt : MessageEncrypt) : MessageEncrypt := encrypt.mixTable 5 50 (2 + 50)

def pushStack3 (encrypt : MessageEncrypt) : MessageEncrypt := encrypt.mixTable 5 50 (2 + 50)

def initKey (encrypt : MessageEncrypt) (a1 b1 c1 fst1 a2 b2 c2 fst2 : UInt8) : MessageEncrypt :=
  { encrypt with
    bufEncrypt1 := codeTable a1 b1 c1 fst1
    bufEncrypt2 := codeTable a2 b2 c2 fst2 }.pushStack1.pushStack2.pushStack3

/-- `MessageEncrypt::MessageEncrypt` with the keys of `MessageEncrypt.h`. -/
def construct : MessageEncrypt :=
  initKey ⟨0, 0, Memory.zero, Memory.zero⟩ 0x5a 0x24 0x11 0xfe 0xa1 0x88 0x12 0xfc

/-! ## Rotations -/

def rotateLeftChar (data : UInt8) (count : UInt32) : UInt8 :=
  let count := count % 8
  ((data.toUInt32 >>> (8 - count)) ||| (data.toUInt32 <<< count)).toUInt8

def rotateRightChar (data : UInt8) (count : UInt32) : UInt8 :=
  let count := count % 8
  ((data.toUInt32 >>> count) ||| (data.toUInt32 <<< (8 - count))).toUInt8

/-! ## Masks and positions -/

/-- `m_bufEncrypt1[m_nPos1]` -/
def key1 (encrypt : MessageEncrypt) : Int32 := promote (encrypt.bufEncrypt1 encrypt.pos1.toInt)

/-- `m_bufEncrypt2[m_nPos2]` -/
def key2 (encrypt : MessageEncrypt) : Int32 := promote (encrypt.bufEncrypt2 encrypt.pos2.toInt)

/-- The terms `Encrypt` combines with a byte, in order. -/
def encryptTerms (encrypt : MessageEncrypt) : List Int32 :=
  let pos1 := encrypt.pos1
  let pos2 := encrypt.pos2
  let key1 := encrypt.key1
  let key2 := encrypt.key2
  [key1, key1 * 0x33f, key2, key1 * key2, key1 * key2 / 0x23df, key1 + key2 + 0x34fee, pos1,
    pos2] ++
  (if pos2 &&& 0x31 ≠ 0 then
    [key1 * 0x3423f, pos1 * 2344, key1 * key2, key1 * key2 / 0x233fedf * pos2,
      key1 + key2 + 0x343fee, pos1, pos2]
  else []) ++
  (if pos1 &&& 0x3 ≠ 0 then
    [key1 * 0x3422f, pos1 + pos2 + 0x234a, key1 * key2 * 2, key1 * key2 / 0x233fedf * pos2,
      key1 + key2 + 0x343fee, pos2]
  else []) ++
  (if pos1 &&& 0x13 = 0 then
    [key1 * 0x3422f, pos1 + 33, key1 * key2 * 2, key1 * key2 / 0x233fedf * pos2,
      key1 + key2 + 0x343fee, pos2]
  else []) ++
  (if pos1 * key2 % 0x9 = 1 then
    [key1 * 0x342f, pos1 + 31, key1 * key2 * 2, key1 * key2 / 0x233fedf * pos1,
      key1 + key2 + 0x343fee, pos2]
  else [])

/-- The terms `Decrypt` combines with a byte, in order. -/
def decryptTerms (encrypt : MessageEncrypt) : List Int32 :=
  let pos1 := encrypt.pos1
  let pos2 := encrypt.pos2
  let key1 := encrypt.key1
  let key2 := encrypt.key2
  [key1, key1 * 0x33f, key2, key1 * key2, key1 * key2 / 0x23df, key1 + key2 + 0x34fee, pos1,
    pos2] ++
  (if pos2 &&& 0x31 ≠ 0 then
    [key1 * 0x3423f, pos1 * 2344, key1 * key2, key1 * key2 / 0x233fedf * pos2,
      key1 + key2 + 0x343fee, pos1, pos2]
  else []) ++
  (if pos1 &&& 0x3 ≠ 0 then
    [key1 * 0x3422f, pos1 + pos2 + 0x234a, key1 * key2 * 2, key1 * key2 / 0x233fedf * pos2,
      key1 + key2 + 0x343fee, pos2]
  else []) ++
  (if pos1 &&& 0x13 = 0 then
    [key1 * 0x3422f, pos1 + 33, key1 * key2 * 2, key1 * key2 / 0x233fedf * pos2,
      key1 + key2 + 0x343fee, pos2]
  else []) ++
  (if pos1 * key2 % 0x9 = 1 then
    [key1 * 0x342f, pos1 + 31, key1 * key2 * 2, key1 * key2 / 0x233fedf * pos1,
      key1 + key2 + 0x343fee, pos2]
  else [])

/-- `bufMsg[i] ^= term;` for each of the terms. -/
def combine (byte : UInt8) (terms : List Int32) : UInt8 :=
  terms.foldl (fun current term => current ^^^ lowByte term) byte

/-- The rotation count, the `int` sum converted to `unsigned long`. -/
def rotation (encrypt : MessageEncrypt) : UInt32 :=
  (encrypt.key1 + encrypt.key2 + 0x34fee).toUInt32

/-- What `Encrypt` makes of one byte. -/
def encryptByte (encrypt : MessageEncrypt) (byte : UInt8) : UInt8 :=
  rotateLeftChar (combine byte encrypt.encryptTerms) encrypt.rotation

/-- What `Decrypt` makes of one byte. -/
def decryptByte (encrypt : MessageEncrypt) (byte : UInt8) : UInt8 :=
  combine (rotateRightChar byte encrypt.rotation) encrypt.decryptTerms

/-- `if(++m_nPos1 >= 256) { m_nPos1 = 0; if(++m_nPos2 >= 256) m_nPos2 = 0; }` -/
def advance (encrypt : MessageEncrypt) : MessageEncrypt :=
  if 256 ≤ encrypt.pos1 + 1 then
    { encrypt with pos1 := 0, pos2 := if 256 ≤ encrypt.pos2 + 1 then 0 else encrypt.pos2 + 1 }
  else { encrypt with pos1 := encrypt.pos1 + 1 }

/-- The loop of `Encrypt` over a buffer. -/
def encryptLoop : MessageEncrypt → List UInt8 → MessageEncrypt × List UInt8
  | encrypt, [] => (encrypt, [])
  | encrypt, byte :: bytes =>
      let rest := encryptLoop encrypt.advance bytes
      (rest.1, encrypt.encryptByte byte :: rest.2)

/-- The loop of `Decrypt` over a buffer. -/
def decryptLoop : MessageEncrypt → List UInt8 → MessageEncrypt × List UInt8
  | encrypt, [] => (encrypt, [])
  | encrypt, byte :: bytes =>
      let rest := decryptLoop encrypt.advance bytes
      (rest.1, encrypt.decryptByte byte :: rest.2)

/-- `if(!bMove) { m_nPos1 = nOldPos1; m_nPos2 = nOldPos2; }` -/
def restoreUnless (move : Bool) (old new : MessageEncrypt) : MessageEncrypt :=
  if move then new else { new with pos1 := old.pos1, pos2 := old.pos2 }

/-- `Encrypt`: the object afterwards and the buffer. -/
def encrypt (object : MessageEncrypt) (bufMsg : List UInt8) (move : Bool) :
    MessageEncrypt × List UInt8 :=
  let result := object.encryptLoop bufMsg
  (restoreUnless move object result.1, result.2)

/-- `Decrypt`: the object afterwards and the buffer. -/
def decrypt (object : MessageEncrypt) (bufMsg : List UInt8) (move : Bool) :
    MessageEncrypt × List UInt8 :=
  let result := object.decryptLoop bufMsg
  (restoreUnless move object result.1, result.2)

/-! ## Sequences of calls -/

inductive Direction where
  | encrypt
  | decrypt
  deriving DecidableEq, Repr

/-- A call of `Encrypt` or `Decrypt` on a buffer. -/
structure Call where
  direction : Direction
  bufMsg : List UInt8
  move : Bool

def Call.perform (call : Call) (object : MessageEncrypt) : MessageEncrypt × List UInt8 :=
  match call.direction with
  | .encrypt => object.encrypt call.bufMsg call.move
  | .decrypt => object.decrypt call.bufMsg call.move

/-- The object after a sequence of calls, and what the moving calls leave in their buffers. -/
def perform : MessageEncrypt → List Call → MessageEncrypt × List UInt8
  | object, [] => (object, [])
  | object, call :: calls =>
      let first := call.perform object
      let rest := perform first.1 calls
      (rest.1, (if call.move then first.2 else []) ++ rest.2)

/-- The stream in the buffers of the moving calls. -/
def stream : List Call → List UInt8
  | [] => []
  | call :: calls => (if call.move then call.bufMsg else []) ++ stream calls

/-- Every moving call goes in one direction. -/
def AllMove (direction : Direction) (calls : List Call) : Prop :=
  ∀ call ∈ calls, call.move = true → call.direction = direction

/-- The object before and after each byte of a loop. -/
def loopStates : MessageEncrypt → List UInt8 → List MessageEncrypt
  | object, [] => [object]
  | object, _ :: bytes => object :: loopStates object.advance bytes

/-- The object before and after each byte of each call. -/
def states : MessageEncrypt → List Call → List MessageEncrypt
  | object, [] => [object]
  | object, call :: calls => object.loopStates call.bufMsg ++ states (call.perform object).1 calls

/-- The position counters are indices of the tables. -/
structure InRange (object : MessageEncrypt) : Prop where
  lower1 : 0 ≤ object.pos1
  upper1 : object.pos1 < 256
  lower2 : 0 ≤ object.pos2
  upper2 : object.pos2 < 256

/-- Two objects with the same tables at equal positions. -/
structure InStep (left right : MessageEncrypt) : Prop where
  pos1 : left.pos1 = right.pos1
  pos2 : left.pos2 = right.pos2
  bufEncrypt1 : left.bufEncrypt1 = right.bufEncrypt1
  bufEncrypt2 : left.bufEncrypt2 = right.bufEncrypt2

theorem InStep.eq {left right : MessageEncrypt} (inStep : InStep left right) : left = right := by
  cases left
  cases right
  rcases inStep with ⟨rfl, rfl, rfl, rfl⟩
  rfl

theorem InStep.refl (object : MessageEncrypt) : InStep object object := ⟨rfl, rfl, rfl, rfl⟩

/-! ## One byte -/

/-- A byte shifted down by one amount and up by another, together 8: the bits move in a circle. -/
theorem getLsbD_shifts (data : UInt8) {down up : UInt32} (together : down.toNat + up.toNat = 8)
    {i j : Nat} (i_lt : i < 8) (j_lt : j < 8) (moved : i = (j + up.toNat) % 8) :
    ((data.toUInt32 >>> down) ||| (data.toUInt32 <<< up)).toUInt8.toBitVec.getLsbD i =
      data.toBitVec.getLsbD j := by
  have down_mod : down.toNat % 32 = down.toNat := Nat.mod_eq_of_lt (by omega)
  have up_mod : up.toNat % 32 = up.toNat := Nat.mod_eq_of_lt (by omega)
  have within : down.toNat + i < 32 := by omega
  have index : i - up.toNat < 8 := by omega
  have bit : ((data.toUInt32 >>> down) ||| (data.toUInt32 <<< up)).toUInt8.toBitVec.getLsbD i =
      (data.toBitVec.getLsbD (down.toNat + i) ||
        (!decide (i < up.toNat) && data.toBitVec.getLsbD (i - up.toNat))) := by
    simp [i_lt, down_mod, up_mod, within, BitVec.getLsbD_eq_getElem index]
  rw [bit]
  by_cases wraps : i < up.toNat
  · simp only [wraps, decide_true, Bool.not_true, Bool.false_and, Bool.or_false]
    congr 1
    omega
  · have beyond : data.toBitVec.getLsbD (down.toNat + i) = false :=
      BitVec.getLsbD_of_ge _ _ (by omega)
    simp only [beyond, wraps, decide_false, Bool.not_false, Bool.true_and, Bool.false_or]
    congr 1
    omega

/-- The two rotations by one count undo each other. -/
theorem rotate_inverse (data : UInt8) (count : UInt32) :
    rotateRightChar (rotateLeftChar data count) count = data ∧
      rotateLeftChar (rotateRightChar data count) count = data := by
  have small : (count % 8).toNat < 8 := by
    rw [UInt32.toNat_mod]
    exact Nat.mod_lt _ (by decide)
  have rest : (8 - count % 8).toNat = 8 - (count % 8).toNat :=
    UInt32.toNat_sub_of_le 8 (count % 8) (UInt32.le_iff_toNat_le.mpr (Nat.le_of_lt small))
  constructor
  · apply UInt8.toBitVec_inj.mp
    apply BitVec.eq_of_getLsbD_eq
    intro i i_lt
    have there : (i + (count % 8).toNat) % 8 < 8 := Nat.mod_lt _ (by decide)
    rw [rotateRightChar, getLsbD_shifts _ (by omega) i_lt there (by omega), rotateLeftChar,
      getLsbD_shifts data (by omega) there i_lt (by omega)]
  · apply UInt8.toBitVec_inj.mp
    apply BitVec.eq_of_getLsbD_eq
    intro i i_lt
    have there : (i + 8 - (count % 8).toNat) % 8 < 8 := Nat.mod_lt _ (by decide)
    rw [rotateLeftChar, getLsbD_shifts _ (by omega) i_lt there (by omega), rotateRightChar,
      getLsbD_shifts data (by omega) there i_lt (by omega)]

/-- Combining a byte with the same terms twice gives it back. -/
theorem combine_combine (byte : UInt8) (terms : List Int32) :
    combine (combine byte terms) terms = byte := by
  have mask (current : UInt8) : combine current terms = current ^^^ combine 0 terms := by
    simp only [combine]
    induction terms generalizing current with
    | nil => simp
    | cons term terms ih =>
        rw [List.foldl_cons, List.foldl_cons, ih, ih (0 ^^^ lowByte term), UInt8.zero_xor,
          UInt8.xor_assoc]
  rw [mask, mask byte, UInt8.xor_assoc, UInt8.xor_self, UInt8.xor_zero]

/-- The two copies of the list of terms are the same. -/
theorem decryptTerms_eq (object : MessageEncrypt) :
    object.decryptTerms = object.encryptTerms :=
  rfl

theorem decryptByte_encryptByte (object : MessageEncrypt) :
    Function.LeftInverse object.decryptByte object.encryptByte := by
  intro byte
  rw [decryptByte, encryptByte, (rotate_inverse _ _).1, decryptTerms_eq, combine_combine]

theorem encryptByte_decryptByte (object : MessageEncrypt) :
    Function.LeftInverse object.encryptByte object.decryptByte := by
  intro byte
  rw [decryptByte, encryptByte, decryptTerms_eq, combine_combine, (rotate_inverse _ _).2]

/-! ## The position counters -/

theorem toInt_add_one {pos : Int32} (lower : 0 ≤ pos) (upper : pos < 256) :
    (pos + 1).toInt = pos.toInt + 1 := by
  rw [Int32.le_iff_toInt_le] at lower
  rw [Int32.lt_iff_toInt_lt] at upper
  change 0 ≤ pos.toInt at lower
  change pos.toInt < 256 at upper
  rw [Int32.toInt_add]
  change (pos.toInt + 1).bmod _ = _
  apply Int.bmod_eq_of_le <;> omega

/-- A counter that has not reached the end of its table after an increment is an index of it. -/
theorem add_one_bounds {pos : Int32} (lower : 0 ≤ pos) (upper : pos < 256)
    (within : ¬256 ≤ pos + 1) : 0 ≤ pos + 1 ∧ pos + 1 < 256 := by
  have next := toInt_add_one lower upper
  rw [Int32.le_iff_toInt_le] at lower
  rw [Int32.le_iff_toInt_le, Int.not_le, ← Int32.lt_iff_toInt_lt] at within
  refine ⟨?_, within⟩
  rw [Int32.le_iff_toInt_le, next]
  exact Int.le_trans lower (by omega)

theorem InRange.advance {object : MessageEncrypt} (inRange : object.InRange) :
    object.advance.InRange := by
  rcases inRange with ⟨lower1, upper1, lower2, upper2⟩
  have first : (0 : Int32) ≤ 0 ∧ (0 : Int32) < 256 := by decide
  by_cases wraps1 : 256 ≤ object.pos1 + 1
  · by_cases wraps2 : 256 ≤ object.pos2 + 1
    · simp only [MessageEncrypt.advance, if_pos wraps1, if_pos wraps2]
      exact ⟨first.1, first.2, first.1, first.2⟩
    · have next := add_one_bounds lower2 upper2 wraps2
      simp only [MessageEncrypt.advance, if_pos wraps1, if_neg wraps2]
      exact ⟨first.1, first.2, next.1, next.2⟩
  · have next := add_one_bounds lower1 upper1 wraps1
    simp only [MessageEncrypt.advance, if_neg wraps1]
    exact ⟨next.1, next.2, lower2, upper2⟩

theorem advance_tables (object : MessageEncrypt) :
    object.advance.bufEncrypt1 = object.bufEncrypt1 ∧
      object.advance.bufEncrypt2 = object.bufEncrypt2 := by
  by_cases wraps : 256 ≤ object.pos1 + 1
  · simp [advance, wraps]
  · simp [advance, wraps]

/-! ## Calls as uses of a stream cipher -/

theorem encryptLoop_eq (object : MessageEncrypt) (bufMsg : List UInt8) :
    object.encryptLoop bufMsg = StreamCipher.translate advance encryptByte object bufMsg := by
  induction bufMsg generalizing object with
  | nil => rfl
  | cons byte bytes ih =>
      simp only [encryptLoop, StreamCipher.translate]
      rw [ih object.advance]

theorem decryptLoop_eq (object : MessageEncrypt) (bufMsg : List UInt8) :
    object.decryptLoop bufMsg = StreamCipher.translate advance decryptByte object bufMsg := by
  induction bufMsg generalizing object with
  | nil => rfl
  | cons byte bytes ih =>
      simp only [decryptLoop, StreamCipher.translate]
      rw [ih object.advance]

/-- What a call makes of one byte. -/
def Direction.byte : Direction → MessageEncrypt → UInt8 → UInt8
  | .encrypt => encryptByte
  | .decrypt => decryptByte

/-- The call as a use of the stream cipher whose positions are the object's states. -/
def Call.toStreamCipher (call : Call) : StreamCipher.Call MessageEncrypt UInt8 where
  code := call.direction.byte
  symbols := call.bufMsg
  moves := call.move

/-- A loop leaves the tables, so putting the counters back restores the object. -/
theorem restoreUnless_translate (move : Bool) (code : MessageEncrypt → UInt8 → UInt8)
    (object : MessageEncrypt) (bufMsg : List UInt8) :
    restoreUnless move object (StreamCipher.translate advance code object bufMsg).1 =
      if move then (StreamCipher.translate advance code object bufMsg).1 else object := by
  cases move with
  | true => rfl
  | false =>
      have tables := @StreamCipher.translate_invariant _ _ advance code
        (fun current => current.bufEncrypt1 = object.bufEncrypt1 ∧
          current.bufEncrypt2 = object.bufEncrypt2)
        (fun current kept => ⟨(advance_tables current).1.trans kept.1,
          (advance_tables current).2.trans kept.2⟩) object ⟨rfl, rfl⟩ bufMsg
      exact InStep.eq ⟨rfl, rfl, tables.1, tables.2⟩

theorem Call.perform_eq (call : Call) (object : MessageEncrypt) :
    call.perform object = call.toStreamCipher.apply advance object := by
  rcases call with ⟨direction, bufMsg, move⟩
  cases direction with
  | encrypt =>
      simp only [Call.perform, encrypt, encryptLoop_eq, restoreUnless_translate]
      rfl
  | decrypt =>
      simp only [Call.perform, decrypt, decryptLoop_eq, restoreUnless_translate]
      rfl

theorem perform_eq (object : MessageEncrypt) (calls : List Call) :
    object.perform calls =
      StreamCipher.run advance object (calls.map Call.toStreamCipher) := by
  induction calls generalizing object with
  | nil => rfl
  | cons call calls ih =>
      simp only [perform, List.map_cons, StreamCipher.run, ih, Call.perform_eq]
      rfl

theorem stream_eq (calls : List Call) :
    stream calls = StreamCipher.carried (calls.map Call.toStreamCipher) := by
  induction calls with
  | nil => rfl
  | cons call calls ih =>
      simp only [stream, List.map_cons, StreamCipher.carried, ih]
      rfl

theorem AllMove.code {direction : Direction} {calls : List Call}
    (allMove : AllMove direction calls) :
    ∀ call ∈ calls.map Call.toStreamCipher, call.moves = true → call.code = direction.byte := by
  intro use use_mem moves
  rcases List.mem_map.mp use_mem with ⟨call, call_mem, rfl⟩
  change call.direction.byte = direction.byte
  rw [allMove call call_mem moves]

/-! ## Both directions -/

/-- However the two ends cut the stream into calls, the second gives back what the first one's
calls carried, and the objects end in step. -/
theorem perform_inverse {first second : Direction}
    (inverse : ∀ object, Function.LeftInverse (second.byte object) (first.byte object))
    (object : MessageEncrypt) {coding decoding : List Call} (codes : AllMove first coding)
    (decodes : AllMove second decoding) (received : stream decoding = (object.perform coding).2) :
    (object.perform decoding).2 = stream coding ∧
      InStep (object.perform coding).1 (object.perform decoding).1 := by
  rw [stream_eq, perform_eq] at received
  have undone := StreamCipher.run_inverse inverse codes.code decodes.code object received
  rw [perform_eq, perform_eq, stream_eq, undone]
  exact ⟨rfl, InStep.refl _⟩

theorem loopStates_inRange {object : MessageEncrypt} (inRange : object.InRange)
    (bufMsg : List UInt8) : ∀ state ∈ object.loopStates bufMsg, state.InRange := by
  induction bufMsg generalizing object with
  | nil =>
      intro state state_mem
      rw [List.mem_singleton.mp state_mem]
      exact inRange
  | cons byte bytes ih =>
      intro state state_mem
      rcases List.mem_cons.mp state_mem with rfl | later
      · exact inRange
      · exact ih inRange.advance state later

theorem states_inRange {object : MessageEncrypt} (inRange : object.InRange) (calls : List Call) :
    ∀ state ∈ object.states calls, state.InRange := by
  induction calls generalizing object with
  | nil =>
      intro state state_mem
      rw [List.mem_singleton.mp state_mem]
      exact inRange
  | cons call calls ih =>
      have next : (call.perform object).1.InRange := by
        have run := StreamCipher.run_invariant
          (fun current (good : InRange current) => good.advance) [call.toStreamCipher] inRange
        rw [Call.perform_eq]
        exact run
      intro state state_mem
      rcases List.mem_append.mp state_mem with during | after
      · exact loopStates_inRange inRange call.bufMsg state during
      · exact ih next state after

/-- What two objects in step do with one stream, whatever the division into calls on either side
and whatever the calls in between that do not move. -/
structure RoundTrips (encryptor decryptor : MessageEncrypt) : Prop where
  decrypted : ∀ coding decoding, AllMove .encrypt coding → AllMove .decrypt decoding →
    stream decoding = (encryptor.perform coding).2 →
      (decryptor.perform decoding).2 = stream coding ∧
        InStep (encryptor.perform coding).1 (decryptor.perform decoding).1
  encrypted : ∀ decoding coding, AllMove .decrypt decoding → AllMove .encrypt coding →
    stream coding = (decryptor.perform decoding).2 →
      (encryptor.perform coding).2 = stream decoding ∧
        InStep (decryptor.perform decoding).1 (encryptor.perform coding).1
  encryptor_inRange : ∀ calls, ∀ state ∈ encryptor.states calls, state.InRange
  decryptor_inRange : ∀ calls, ∀ state ∈ decryptor.states calls, state.InRange

/-- Objects with the same tables, of any content, at equal positions give back each other's
streams, stay in step and keep their positions within the tables. -/
theorem roundTrips_of_inStep {encryptor decryptor : MessageEncrypt}
    (inStep : InStep encryptor decryptor) (inRange : encryptor.InRange) :
    RoundTrips encryptor decryptor := by
  have same := inStep.eq
  subst same
  refine ⟨?_, ?_, states_inRange inRange, states_inRange inRange⟩
  · intro coding decoding codes decodes received
    exact @perform_inverse .encrypt .decrypt decryptByte_encryptByte encryptor _ _ codes decodes
      received
  · intro decoding coding decodes codes received
    exact @perform_inverse .decrypt .encrypt encryptByte_decryptByte encryptor _ _ decodes codes
      received

theorem roundTrips_construct : RoundTrips construct construct :=
  roundTrips_of_inStep (InStep.refl construct)
    ⟨by decide, by decide, by decide, by decide⟩

end MessageEncrypt

end SunPush
