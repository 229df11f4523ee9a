import SunPush.Peers.JavaClient
import SunPush.Receiver.Framing

/-!
# The receiver of the Java client

`MsgHandler.HandleMsg` of `MsgHandler.java`.  It reads the four bytes of a length
one by one and the message with a single `read`, which may return less than it is
asked for and throws if the array is too short.  What each such `read` returns
is an argument of the model.
-/

namespace SunPush

namespace JavaClient

/-- `MsgBase.MAX_PACK_LEN` -/
def maxPackLen : Nat := 4096

def MsgBase.s2cSvrReadyCmd : UInt8 := 0

def MsgBase.s2cUserAuthAck : UInt8 := 2

/-- `ReadInt`, and the sum in `ReadPackHead`. -/
def intOf (first second third fourth : UInt8) : BitVec 32 :=
  BitVec.ofNat 32 first.toNat ||| BitVec.ofNat 32 second.toNat <<< 8 |||
    BitVec.ofNat 32 third.toNat <<< 16 ||| BitVec.ofNat 32 fourth.toNat <<< 24

def readInt (array : List UInt8) (off : Nat) : BitVec 32 :=
  intOf (array.getD off 0) (array.getD (1 + off) 0) (array.getD (2 + off) 0)
    (array.getD (3 + off) 0)

def readShort (array : List UInt8) (off : Nat) : BitVec 16 :=
  (BitVec.ofNat 32 (array.getD off 0).toNat |||
    BitVec.ofNat 32 (array.getD (off + 1) 0).toNat <<< 8).setWidth 16

/-- `MSG_S2C_SVR_READY_CMD`; `strAuth` are the bytes the string is made of. -/
structure SvrReadyCmd where
  sHighVer : BitVec 16
  sLowVer : BitVec 16
  dwEncKey : BitVec 32
  strAuth : List UInt8
  deriving DecidableEq

/-- `MSG_S2C_SVR_READY_CMD._ReadPack` -/
def SvrReadyCmd.readPack (array : List UInt8) (off : Nat) : SvrReadyCmd where
  sHighVer := readShort array off
  sLowVer := readShort array (off + 2)
  dwEncKey := readInt array (off + 4)
  strAuth := (array.drop (off + 8)).take 32

/-- The handler a message goes to: the fields it prints, and what the first one writes. -/
inductive Dispatched where
  | svrReadyCmd (rcvMsg : SvrReadyCmd) (written : Option (List UInt8))
  | userAuthAck (byRes : UInt8)
  | unhandled
  deriving DecidableEq

/-- The two switches of `HandleMsg` and the handlers. -/
def dispatch (byMsgBytes : List UInt8) : Dispatched :=
  if byMsgBytes.getD 0 0 = MsgBase.csLogon then
    if byMsgBytes.getD 1 0 = MsgBase.s2cSvrReadyCmd then
      .svrReadyCmd (.readPack byMsgBytes 2) UserAuthSyn.ofHandler.writePack
    else if byMsgBytes.getD 1 0 = MsgBase.s2cUserAuthAck then .userAuthAck (byMsgBytes.getD 2 0)
    else .unhandled
  else .unhandled

/-- `read() & 0xff`: the end of the stream, which is `-1`, gives `0xff`. -/
def readByte : List UInt8 → UInt8 × List UInt8
  | [] => (0xFF, [])
  | byte :: input => (byte, input)

def readPackHead (input : List UInt8) : BitVec 32 × List UInt8 :=
  let (str0, input) := readByte input
  let (str1, input) := readByte input
  let (str2, input) := readByte input
  let (str3, input) := readByte input
  (intOf str0 str1 str2 str3, input)

/-- `read( array, 0, length )`, of which `returned` bytes come: the array and the rest of the
stream, or `none` for the exception of a length that is negative or longer than the array. -/
def readInto (array : List UInt8) (length : Int) (returned : Nat) (input : List UInt8) :
    Option (List UInt8 × List UInt8) :=
  if length < 0 ∨ (array.length : Int) < length then none
  else some (input.take returned ++ array.drop returned, input.drop returned)

/-- A call of `HandleMsg` that returns: the rest of the stream, the array and what became of it. -/
structure Handled where
  input : List UInt8
  byMsgBytes : List UInt8
  dispatched : Dispatched
  deriving DecidableEq

/-- `HandleMsg`; `none` when it throws. -/
def handleMsg (input : List UInt8) (returned : Nat) : Option Handled :=
  let (msgLen, input) := readPackHead input
  (readInto (List.replicate maxPackLen 0) msgLen.toInt returned input).map
    fun (byMsgBytes, input) => ⟨input, byMsgBytes, dispatch byMsgBytes⟩

/-- The calls of the loop in `main`, up to the first that throws; `returned` is what the `read` of
each returns. -/
def calls : List UInt8 → List Nat → List (Option Handled)
  | _, [] => []
  | input, count :: returned =>
      match handleMsg input count with
      | none => [none]
      | some handled => some handled :: calls handled.input returned

/-- A `read` of a positive length returns between one and as many bytes as it is asked for, and no
more than there are. -/
def MayReturn : List UInt8 → List Nat → Prop
  | _, [] => True
  | input, count :: returned =>
      (0 < (readPackHead input).1.toInt → 1 ≤ count ∧ count ≤ (readPackHead input).1.toInt ∧
        count ≤ (readPackHead input).2.length) ∧
      ∀ handled, handleMsg input count = some handled → MayReturn handled.input returned

/-- What the call for a frame leaves when it takes exactly the frame. -/
def Handled.ofFrame (payload rest : List UInt8) : Handled where
  input := rest
  byMsgBytes := payload ++ List.replicate (maxPackLen - payload.length) 0
  dispatched := dispatch (payload ++ List.replicate (maxPackLen - payload.length) 0)

/-- As long as frames remain, each call returns, has taken exactly the next one and dispatched on
its payload. -/
def InFrame (payloads : List (List UInt8)) (returned : List Nat) : Prop :=
  ∀ i call payload, (calls (wire payloads) returned)[i]? = some call →
    payloads[i]? = some payload →
      call = some (Handled.ofFrame payload (wire (payloads.drop (i + 1))))

/-! ## One frame -/

theorem readPackHead_frame {payload : List UInt8} (bounded : payload.length < 2 ^ 31)
    (rest : List UInt8) :
    (readPackHead (frame payload ++ rest)).1.toInt = payload.length ∧
      (readPackHead (frame payload ++ rest)).2 = payload ++ rest := by
  refine ⟨?_, rfl⟩
  have head : (readPackHead (frame payload ++ rest)).1 =
      BitVec.ofNat 32 (LittleEndian.decode (LittleEndian.encode 4 payload.length)) :=
    LittleEndian.ofNat_or (Nat.le_refl 32) _ _ _ _
  rw [head, LittleEndian.decode_encode, BitVec.toInt_ofNat']
  have small : payload.length % 256 ^ 4 = payload.length := Nat.mod_eq_of_lt (by omega)
  rw [small]
  apply Int.bmod_eq_of_le <;> omega

theorem handleMsg_frame {payload : List UInt8} (bounded : payload.length < 2 ^ 31)
    (rest : List UInt8) (count : Nat) :
    handleMsg (frame payload ++ rest) count =
      if payload.length ≤ maxPackLen then
        some ⟨(payload ++ rest).drop count,
          (payload ++ rest).take count ++ (List.replicate maxPackLen 0).drop count,
          dispatch ((payload ++ rest).take count ++ (List.replicate maxPackLen 0).drop count)⟩
      else none := by
  have head := readPackHead_frame bounded rest
  simp only [handleMsg, readInto, head, List.length_replicate]
  by_cases fits : payload.length ≤ maxPackLen
  · rw [if_neg (by omega), if_pos fits]
    rfl
  · rw [if_pos (by omega), if_neg fits]
    rfl

/-- The call for a frame takes exactly the frame when the array holds its payload and the `read`
returns all of it. -/
theorem handleMsg_eq_ofFrame_iff {payload : List UInt8} (bounded : payload.length < 2 ^ 31)
    (rest : List UInt8) {count : Nat} (count_le : count ≤ payload.length) :
    handleMsg (frame payload ++ rest) count = some (.ofFrame payload rest) ↔
      payload.length ≤ maxPackLen ∧ count = payload.length := by
  rw [handleMsg_frame bounded]
  by_cases fits : payload.length ≤ maxPackLen
  · rw [if_pos fits, Option.some.injEq]
    constructor
    · intro same
      have left := congrArg (List.length ∘ Handled.input) same
      simp only [Function.comp_apply, Handled.ofFrame, List.length_drop,
        List.length_append] at left
      exact ⟨fits, by omega⟩
    · rintro ⟨_, whole⟩
      subst whole
      simp [Handled.ofFrame, List.drop_replicate]
  · rw [if_neg fits]
    constructor
    · intro impossible
      contradiction
    · rintro ⟨small, _⟩
      exact absurd small fits

/-! ## A sequence of frames -/

theorem inFrame_cons_iff {payload : List UInt8} {payloads : List (List UInt8)} {count : Nat}
    {returned : List Nat} :
    InFrame (payload :: payloads) (count :: returned) ↔
      handleMsg (wire (payload :: payloads)) count =
          some (.ofFrame payload (wire payloads)) ∧
        InFrame payloads returned := by
  constructor
  · intro inFrame
    have first : handleMsg (wire (payload :: payloads)) count =
        some (.ofFrame payload (wire payloads)) := by
      apply inFrame 0 _ payload _ rfl
      cases handled : handleMsg (wire (payload :: payloads)) count with
      | none =>
          rw [calls, handled]
          rfl
      | some result =>
          rw [calls, handled]
          rfl
    refine ⟨first, ?_⟩
    intro i call other call_eq other_eq
    apply inFrame (i + 1) call other _ other_eq
    simp only [calls, first, List.getElem?_cons_succ]
    exact call_eq
  · rintro ⟨first, rest⟩ i call other call_eq other_eq
    simp only [calls, first] at call_eq
    cases i with
    | zero =>
        simp only [List.getElem?_cons_zero, Option.some.injEq] at call_eq other_eq
        subst call_eq
        subst other_eq
        rfl
    | succ i =>
        simp only [List.getElem?_cons_succ] at call_eq other_eq
        exact rest i call other call_eq other_eq

/-- The calls keep to the frames exactly when every payload fits in the array and every `read`
returns the whole of it. -/
theorem inFrame_iff {payloads : List (List UInt8)} {returned : List Nat}
    (bounded : ∀ payload ∈ payloads, 2 ≤ payload.length ∧ payload.length ≤ 8176)
    (mayReturn : MayReturn (wire payloads) returned) :
    InFrame payloads returned ↔
      ∀ call ∈ payloads.zip returned,
        call.1.length ≤ maxPackLen ∧ call.2 = call.1.length := by
  induction payloads generalizing returned with
  | nil =>
      refine iff_of_true ?_ (by simp)
      intro i call payload _ payload_eq
      simp at payload_eq
  | cons payload payloads ih =>
      cases returned with
      | nil =>
          refine iff_of_true ?_ (by simp)
          intro i call other call_eq _
          simp [calls] at call_eq
      | cons count returned =>
          have bound := bounded payload List.mem_cons_self
          have small : payload.length < 2 ^ 31 := by omega
          have head := readPackHead_frame small (wire payloads)
          rw [wire_cons] at mayReturn
          have count_le : count ≤ payload.length := by
            have returns := (mayReturn.1 (by rw [head.1]; omega)).2.1
            rw [head.1] at returns
            exact_mod_cast returns
          rw [inFrame_cons_iff, List.zip_cons_cons, List.forall_mem_cons, wire_cons,
            handleMsg_eq_ofFrame_iff small _ count_le]
          apply and_congr_right
          rintro ⟨fits, whole⟩
          apply ih (fun other other_mem => bounded other (List.mem_cons_of_mem payload other_mem))
          have taken := (handleMsg_eq_ofFrame_iff small (wire payloads) count_le).mpr ⟨fits, whole⟩
          exact mayReturn.2 _ taken

/-- Two frames of different sizes, the second of them read as a whole or in part. -/
theorem inFrame_iff_two_frames :
    InFrame [[10, 2], [10, 2, 1]] [2, 3] ∧ ¬InFrame [[10, 2], [10, 2, 1]] [2, 1] := by
  have first (count : Nat) (whole : 1 ≤ count ∧ count ≤ 3) :
      MayReturn (wire [[10, 2], [10, 2, 1]]) [2, count] := by
    refine ⟨fun _ => by decide, ?_⟩
    intro handled taken
    have taken_eq : handleMsg (frame [10, 2] ++ wire [[10, 2, 1]]) 2 =
        some (.ofFrame [10, 2] (wire [[10, 2, 1]])) :=
      (handleMsg_eq_ofFrame_iff (by decide) _ (by decide)).mpr ⟨by decide, rfl⟩
    rw [wire_cons, taken_eq] at taken
    rcases Option.some.inj taken with rfl
    have short : count ≤ (readPackHead (wire [[10, 2, 1]])).1.toInt :=
      Int.ofNat_le.mpr whole.2
    exact ⟨fun _ => ⟨whole.1, short, whole.2⟩, fun _ _ => trivial⟩
  constructor
  · exact (inFrame_iff (by decide) (first 3 (by decide))).mpr (by decide)
  · rw [inFrame_iff (by decide) (first 1 (by decide))]
    decide

/-- A `read` that returns one of three bytes leaves the other two for the next length, and a payload
longer than the array throws. -/
theorem not_inFrame_short_read :
    MayReturn (wire [[10, 2, 1]]) [1] ∧ ¬InFrame [[10, 2, 1]] [1] ∧
      handleMsg (wire [List.replicate 4097 0]) 4097 = none := by
  refine ⟨⟨fun _ => by decide, ?_⟩, ?_, ?_⟩
  · intro handled _
    trivial
  · intro inFrame
    have taken := (inFrame_cons_iff.mp inFrame).1
    rw [wire_cons, handleMsg_eq_ofFrame_iff (by decide) _ (by decide)] at taken
    exact absurd taken.2 (by decide)
  · have large : ¬(List.replicate 4097 (0 : UInt8)).length ≤ maxPackLen := by
      rw [List.length_replicate]
      decide
    rw [wire_cons, handleMsg_frame (by rw [List.length_replicate]; omega), if_neg large]

end JavaClient

end SunPush
