import Mathlib.Data.List.Lex
import SunPush.Library.Codec
import SunPush.Library.Memory

/-!
# The byte buffer

`ByteBuffer` of `ByteBuffer.h`: values are appended with `operator<<` and taken
out again with `operator>>`, at a read position of its own.  The types are those
the operators exist for, containers of them included; the value of an arithmetic
type is its bit pattern, and a `std::map` is the list of its entries in the order
of its keys.
-/

namespace SunPush

/-- `MAX_ARR_SIZE` -/
def maxArrSize : Nat := 1024

/-- The arithmetic types of the operators, `bool` apart. -/
inductive Fixed where
  | uint8
  | uint16
  | uint32
  | uint64
  | int8
  | int16
  | int32
  | int64
  | float
  | double
  deriving DecidableEq

def Fixed.sizeof : Fixed → Nat
  | .uint8 | .int8 => 1
  | .uint16 | .int16 => 2
  | .uint32 | .int32 | .float => 4
  | .uint64 | .int64 | .double => 8

abbrev Fixed.Val (T : Fixed) : Type := BitVec (8 * T.sizeof)

/-- `<` of IEEE numbers with a fraction of so many bits; a NaN is less than nothing and nothing is
less than it. -/
def floatLess {width : Nat} (fraction : Nat) (left right : BitVec width) : Bool :=
  let magnitude (x : BitVec width) : Nat := x.toNat % 2 ^ (width - 1)
  let infinity : Nat := (2 ^ (width - 1 - fraction) - 1) * 2 ^ fraction
  let value (x : BitVec width) : Int := if x.msb then -(magnitude x : Int) else magnitude x
  magnitude left ≤ infinity && magnitude right ≤ infinity && decide (value left < value right)

/-- `<` of the arithmetic types. -/
def Fixed.less : (T : Fixed) → T.Val → T.Val → Bool
  | .uint8, left, right | .uint16, left, right | .uint32, left, right
  | .uint64, left, right => left.ult right
  | .int8, left, right | .int16, left, right | .int32, left, right
  | .int64, left, right => left.slt right
  | .float, left, right => floatLess 23 left right
  | .double, left, right => floatLess 52 left right

/-- The types of the operators. -/
inductive Ty where
  | bool
  | fixed (T : Fixed)
  | string
  | vector (T : Ty)
  | list (T : Ty)
  | map (K V : Ty)
  deriving DecidableEq

def Ty.Val : Ty → Type
  | bool => Bool
  | fixed T => T.Val
  | string => List UInt8
  | vector T => List T.Val
  | list T => List T.Val
  | map K V => List (K.Val × V.Val)

/-- `std::lexicographical_compare` -/
def lexLess {α : Type} (less : α → α → Bool) : List α → List α → Bool
  | _, [] => false
  | [], _ :: _ => true
  | first :: left, second :: right =>
      less first second || (!less second first && lexLess less left right)

/-- `operator<` of `std::pair` -/
def pairLess {α β : Type} (less : α → α → Bool) (less' : β → β → Bool) (left right : α × β) :
    Bool :=
  less left.1 right.1 || (!less right.1 left.1 && less' left.2 right.2)

/-- `std::less`, by which a map with such keys is ordered. -/
def Ty.less : (T : Ty) → T.Val → T.Val → Bool
  | bool, left, right => !left && right
  | fixed T, left, right => T.less left right
  | string, left, right => lexLess (fun a b : UInt8 => decide (a < b)) left right
  | vector T, left, right => lexLess T.less left right
  | list T, left, right => lexLess T.less left right
  | map K V, left, right => lexLess (pairLess K.less V.less) left right

/-- `std::map::insert`: nothing happens if an equivalent key is there. -/
def mapInsert {α β : Type} (less : α → α → Bool) (m : List (α × β)) (entry : α × β) :
    List (α × β) :=
  match m with
  | [] => [entry]
  | first :: m =>
      if less entry.1 first.1 then entry :: first :: m
      else if less first.1 entry.1 then first :: mapInsert less m entry
      else first :: m

/-- `_rpos`, `_wpos` and `_storage`. -/
structure ByteBuffer where
  rpos : Nat
  wpos : Nat
  storage : List UInt8
  deriving DecidableEq

namespace ByteBuffer

/-- `ByteBuffer()` -/
def init : ByteBuffer := ⟨0, 0, []⟩

/-! ## `operator<<` -/

/-- `append(const uint8 *src, size_t cnt)` -/
def append (src : List UInt8) (b : ByteBuffer) : ByteBuffer :=
  if src.length = 0 then b
  else
    let storage :=
      if b.storage.length < b.wpos + src.length then
        b.storage ++ List.replicate (b.wpos + src.length - b.storage.length) 0
      else b.storage
    { b with
      storage := storage.take b.wpos ++ src ++ storage.drop (b.wpos + src.length)
      wpos := b.wpos + src.length }

/-- `append<T>(T value)` -/
def appendFixed (T : Fixed) (value : T.Val) (b : ByteBuffer) : ByteBuffer :=
  b.append (LittleEndian.encode T.sizeof value.toNat)

/-- `operator<<(uint32)`, behind the cast of a `size_t`. -/
def writeUInt32 (value : Nat) : ByteBuffer → ByteBuffer :=
  appendFixed .uint32 (BitVec.ofNat 32 value)

def writeBool (value : Bool) : ByteBuffer → ByteBuffer :=
  appendFixed .int8 (if value then 1 else 0)

def writeString (value : List UInt8) (b : ByteBuffer) : ByteBuffer :=
  ((b.writeUInt32 (value.length + 1)).append value).append [0]

/-- The containers: the size, then the elements one by one. -/
def writeAll {α : Type} (write : α → ByteBuffer → ByteBuffer) (v : List α) (b : ByteBuffer) :
    ByteBuffer :=
  v.foldl (fun b i => write i b) (b.writeUInt32 v.length)

/-- `operator<<` -/
def write : (T : Ty) → T.Val → ByteBuffer → ByteBuffer
  | .bool, value => writeBool value
  | .fixed T, value => appendFixed T value
  | .string, value => writeString value
  | .vector T, v => writeAll (write T) v
  | .list T, v => writeAll (write T) v
  | .map K V, m => writeAll (fun i b => write V i.2 (write K i.1 b)) m

/-! ## `operator>>` -/

/-- `read<T>(size_t pos)` -/
def readAt (T : Fixed) (pos : Nat) (b : ByteBuffer) : T.Val :=
  if b.storage.length < pos + T.sizeof then 0
  else BitVec.ofNat _ (LittleEndian.decode ((b.storage.drop pos).take T.sizeof))

/-- `read<T>()` -/
def readFixed (T : Fixed) (b : ByteBuffer) : T.Val × ByteBuffer :=
  (b.readAt T b.rpos, { b with rpos := b.rpos + T.sizeof })

/-- `operator>>(uint32&)` -/
def readUInt32 (b : ByteBuffer) : Nat × ByteBuffer :=
  let (value, b) := b.readFixed .uint32
  (value.toNat, b)

/-- `read<char>()` -/
def readChar (b : ByteBuffer) : UInt8 × ByteBuffer :=
  let (c, b) := b.readFixed .int8
  (UInt8.ofBitVec c, b)

def readBool (b : ByteBuffer) : Bool × ByteBuffer :=
  let (c, b) := b.readFixed .int8
  (decide (0 < c.toInt), b)

/-- The loop of `operator>>(std::string&)`. -/
def readChars : List UInt8 → Nat → ByteBuffer → List UInt8 × ByteBuffer
  | value, 0, b => (value, b)
  | value, len + 1, b =>
      let (c, b) := b.readChar
      if c = 0 then (value, b) else readChars (value ++ [c]) len b

def readString (b : ByteBuffer) : List UInt8 × ByteBuffer :=
  let (len, b) := b.readUInt32
  readChars [] len b

/-- The containers behind the size: unless it is too large, one element in each round. -/
def readElements {α : Type} (body : List α → ByteBuffer → List α × ByteBuffer) (vsize : Nat)
    (b : ByteBuffer) : List α × ByteBuffer :=
  if maxArrSize < vsize then ([], b) else Device.iterate body vsize [] b

def readAll {α : Type} (body : List α → ByteBuffer → List α × ByteBuffer) (b : ByteBuffer) :
    List α × ByteBuffer :=
  let (vsize, b) := b.readUInt32
  readElements body vsize b

/-- The body of the loop of a vector or a list. -/
def pushBack {α : Type} (read : ByteBuffer → α × ByteBuffer) (v : List α) (b : ByteBuffer) :
    List α × ByteBuffer :=
  let (t, b) := read b
  (v ++ [t], b)

/-- The body of the loop of a map. -/
def insertEntry {α β : Type} (less : α → α → Bool) (readKey : ByteBuffer → α × ByteBuffer)
    (readValue : ByteBuffer → β × ByteBuffer) (m : List (α × β)) (b : ByteBuffer) :
    List (α × β) × ByteBuffer :=
  let (k, b) := readKey b
  let (v, b) := readValue b
  (mapInsert less m (k, v), b)

/-- `operator>>` -/
def read : (T : Ty) → ByteBuffer → T.Val × ByteBuffer
  | .bool => readBool
  | .fixed T => readFixed T
  | .string => readString
  | .vector T => readAll (pushBack (read T))
  | .list T => readAll (pushBack (read T))
  | .map K V => readAll (insertEntry K.less (read K) (read V))

/-- `b << v1 << v2 << ...` -/
def writes (values : List (Σ T : Ty, T.Val)) (b : ByteBuffer) : ByteBuffer :=
  values.foldl (fun b value => write value.1 value.2 b) b

/-- `b >> v1 >> v2 >> ...`, at variables of the given types. -/
def reads : List Ty → ByteBuffer → List (Σ T : Ty, T.Val) × ByteBuffer
  | [], b => ([], b)
  | T :: types, b =>
      let (value, b) := read T b
      let (values, b) := reads types b
      (⟨T, value⟩ :: values, b)

end ByteBuffer

/-! ## The format -/

def EachIn {α : Type} (condition : α → Prop) (v : List α) : Prop := ∀ t ∈ v, condition t

def EachIn.decide {α : Type} {condition : α → Prop} (each : DecidablePred condition)
    (v : List α) : Decidable (EachIn condition v) :=
  inferInstanceAs (Decidable (∀ t ∈ v, condition t))

/-- The condition holds for a value and for all values in it. -/
def Ty.Every (condition : (T : Ty) → T.Val → Prop) : (T : Ty) → T.Val → Prop
  | bool, value => condition bool value
  | fixed T, value => condition (fixed T) value
  | string, value => condition string value
  | vector T, v => condition (vector T) v ∧ EachIn (T.Every condition) v
  | list T, v => condition (list T) v ∧ EachIn (T.Every condition) v
  | map K V, m =>
      condition (map K V) m ∧
        EachIn (fun entry => K.Every condition entry.1 ∧ V.Every condition entry.2) m

instance Ty.decidableEvery (condition : (T : Ty) → T.Val → Prop)
    [∀ T value, Decidable (condition T value)] : (T : Ty) → (value : T.Val) →
      Decidable (T.Every condition value)
  | bool, value => inferInstanceAs (Decidable (condition bool value))
  | fixed T, value => inferInstanceAs (Decidable (condition (fixed T) value))
  | string, value => inferInstanceAs (Decidable (condition string value))
  | vector T, v => @instDecidableAnd _ _ _ (EachIn.decide (Ty.decidableEvery condition T) v)
  | list T, v => @instDecidableAnd _ _ _ (EachIn.decide (Ty.decidableEvery condition T) v)
  | map K V, m =>
      have key := Ty.decidableEvery condition K
      have value := Ty.decidableEvery condition V
      @instDecidableAnd _ _ _ (EachIn.decide (fun entry =>
        @instDecidableAnd _ _ (key entry.1) (value entry.2)) m)

/-- A string without a NUL, or a container of at most `MAX_ARR_SIZE` elements. -/
def Ty.Plain : (T : Ty) → T.Val → Prop
  | bool, _ => True
  | fixed _, _ => True
  | string, value => EachIn (fun c : UInt8 => c ≠ 0) value
  | vector _, v => v.length ≤ maxArrSize
  | list _, v => v.length ≤ maxArrSize
  | map _ _, m => m.length ≤ maxArrSize

instance : (T : Ty) → (value : T.Val) → Decidable (T.Plain value)
  | .bool, _ | .fixed _, _ => isTrue trivial
  | .string, value => EachIn.decide (fun c : UInt8 => inferInstanceAs (Decidable (c ≠ 0))) value
  | .vector T, v => inferInstanceAs (Decidable (@List.length T.Val v ≤ maxArrSize))
  | .list T, v => inferInstanceAs (Decidable (@List.length T.Val v ≤ maxArrSize))
  | .map K V, m => inferInstanceAs (Decidable (@List.length (K.Val × V.Val) m ≤ maxArrSize))

/-- A string whose length, terminator included, is a `uint32`. -/
def Ty.Counted : (T : Ty) → T.Val → Prop
  | string, value => value.length + 1 < 2 ^ 32
  | _, _ => True

/-- A map has its entries in the order of its keys, which are distinct. -/
def Ty.Ordered : (T : Ty) → T.Val → Prop
  | map K _, m => m.Pairwise fun first second => K.less first.1 second.1
  | _, _ => True

instance : (T : Ty) → (value : T.Val) → Decidable (T.Ordered value)
  | .map K _, m => @List.instDecidablePairwise _ _ (fun first second =>
      inferInstanceAs (Decidable (K.less first.1 second.1 = true))) m
  | .bool, _ | .fixed _, _ | .string, _ | .vector _, _ | .list _, _ => isTrue trivial

def uint32Code (value : Nat) : List UInt8 := LittleEndian.encode 4 (value % 2 ^ 32)

/-- The elements of a container behind their number. -/
def countedCode {α : Type} (code : α → List UInt8) (v : List α) : List UInt8 :=
  uint32Code v.length ++ v.flatMap code

def boolCode (value : Bool) : List UInt8 := [if value then 1 else 0]

def stringCode (value : List UInt8) : List UInt8 :=
  uint32Code (value.length + 1) ++ (value ++ [0])

/-- The bytes of a value. -/
def Ty.code : (T : Ty) → T.Val → List UInt8
  | bool, value => boolCode value
  | fixed T, value => LittleEndian.encode T.sizeof value.toNat
  | string, value => stringCode value
  | vector T, v => countedCode T.code v
  | list T, v => countedCode T.code v
  | map K V, m => countedCode (fun entry => K.code entry.1 ++ V.code entry.2) m

namespace ByteBuffer

def device : Device ByteBuffer UInt8 := ⟨storage, rpos, wpos⟩

/-! ## Writing -/

theorem append_appends (src : List UInt8) : device.Appends (append src) src := by
  intro b atEnd
  change b.wpos = b.storage.length at atEnd
  simp only [device, Device.AtEnd, append]
  by_cases empty : src.length = 0
  · have none := List.length_eq_zero_iff.mp empty
    simp [none, atEnd]
  · have grows : b.storage.length < b.wpos + src.length := by omega
    rw [if_neg empty, if_pos grows, atEnd]
    simp

theorem appendFixed_appends (T : Fixed) (value : T.Val) :
    device.Appends (appendFixed T value) (LittleEndian.encode T.sizeof value.toNat) :=
  append_appends _

theorem writeUInt32_appends (value : Nat) :
    device.Appends (writeUInt32 value) (uint32Code value) := by
  have appends := appendFixed_appends .uint32 (BitVec.ofNat 32 value)
  have bits : (BitVec.ofNat 32 value).toNat = value % 2 ^ 32 := BitVec.toNat_ofNat value 32
  rw [uint32Code, ← bits]
  exact appends

theorem writeBool_appends (value : Bool) :
    device.Appends (writeBool value) (boolCode value) := by
  have appends := appendFixed_appends .int8 (if value then 1 else 0)
  cases value <;> exact appends

theorem writeString_appends (value : List UInt8) :
    device.Appends (writeString value) (stringCode value) := by
  have length := writeUInt32_appends (value.length + 1)
  exact length.comp ((append_appends value).comp (append_appends [0]))

theorem writeAll_appends {α : Type} {write : α → ByteBuffer → ByteBuffer}
    {code : α → List UInt8} {v : List α}
    (each : ∀ i ∈ v, device.Appends (write i) (code i)) :
    device.Appends (writeAll write v) (countedCode code v) :=
  (writeUInt32_appends v.length).comp (Device.Appends.foldl each)

theorem write_appends (T : Ty) (value : T.Val) :
    device.Appends (write T value) (T.code value) := by
  induction T with
  | bool => exact writeBool_appends value
  | fixed T => exact appendFixed_appends T value
  | string => exact writeString_appends value
  | vector T ih => exact writeAll_appends fun t _ => ih t
  | list T ih => exact writeAll_appends fun t _ => ih t
  | map K V ihKey ihValue =>
      apply writeAll_appends
      intro entry _
      exact (ihKey entry.1).comp (ihValue entry.2)

/-! ## Reading -/

/-- A value of a fixed width that lies ahead is read, whatever it is read as. -/
theorem readFixed_ahead {T : Fixed} {bytes : List UInt8} (width : bytes.length = T.sizeof)
    {b : ByteBuffer} (ahead : device.Ahead bytes b) :
    (b.readFixed T).1 = BitVec.ofNat _ (LittleEndian.decode bytes) := by
  rcases ahead with ⟨rest, whole⟩
  change bytes ++ rest = b.storage.drop b.rpos at whole
  have within : b.rpos + T.sizeof ≤ b.storage.length := by
    have lengths := congrArg List.length whole
    simp only [List.length_append, List.length_drop] at lengths
    by_cases inside : b.rpos ≤ b.storage.length
    · omega
    · have positive : 0 < T.sizeof := by cases T <;> decide
      omega
  have taken : (b.storage.drop b.rpos).take T.sizeof = bytes := by
    rw [← whole, ← width, List.take_left]
  change readAt T b.rpos b = _
  rw [readAt, if_neg (Nat.not_lt.mpr within), taken]

theorem readFixed_recovers (T : Fixed) (value : T.Val) :
    device.Recovers (readFixed T) (LittleEndian.encode T.sizeof value.toNat) value := by
  intro b ahead
  refine ⟨?_, rfl, ?_⟩
  · rw [readFixed_ahead (by simp) ahead, LittleEndian.decode_encode]
    have width : 256 ^ T.sizeof = 2 ^ (8 * T.sizeof) := (Nat.pow_mul 2 8 T.sizeof).symm
    rw [width, Nat.mod_eq_of_lt value.isLt, BitVec.ofNat_toNat, BitVec.setWidth_eq]
  · change b.rpos + T.sizeof = b.rpos + _
    rw [LittleEndian.length_encode]

theorem readUInt32_recovers (value : Nat) :
    device.Recovers readUInt32 (uint32Code value) (value % 2 ^ 32) := by
  have recovers := (readFixed_recovers .uint32 (BitVec.ofNat 32 value)).map fun bits => bits.toNat
  have bits : (BitVec.ofNat 32 value).toNat = value % 2 ^ 32 := BitVec.toNat_ofNat value 32
  rw [uint32Code, ← bits]
  exact recovers

theorem readBool_recovers (value : Bool) :
    device.Recovers readBool (boolCode value) value := by
  have recovers := (readFixed_recovers .int8 (if value then 1 else 0)).map
    fun c : BitVec 8 => decide (0 < c.toInt)
  cases value <;> exact recovers

theorem readChar_recovers (c : UInt8) : device.Recovers readChar [c] c := by
  have recovers := (readFixed_recovers .int8 c.toBitVec).map UInt8.ofBitVec
  have code : LittleEndian.encode 1 c.toNat = [c] := by simp [LittleEndian.encode]
  rw [← code]
  exact recovers

theorem readChars_succ {b : ByteBuffer} {c : UInt8} (read : (readChar b).1 = c) (len : Nat)
    (value : List UInt8) :
    readChars value (len + 1) b =
      if c = 0 then (value, (readChar b).2) else readChars (value ++ [c]) len (readChar b).2 := by
  rw [← read]
  rfl

/-- The loop stops behind the terminator it finds. -/
theorem readChars_recovers {rest : List UInt8} (plain : EachIn (fun c : UInt8 => c ≠ 0) rest)
    {len : Nat} (enough : rest.length < len) (value : List UInt8) :
    device.Recovers (readChars value len) (rest ++ [0]) (value ++ rest) := by
  cases len with
  | zero => exact absurd enough (Nat.not_lt_zero _)
  | succ len =>
      induction rest generalizing len value with
      | nil =>
          intro b ahead
          rcases readChar_recovers 0 b ahead with ⟨nul, passed⟩
          rw [readChars_succ nul, if_pos rfl, List.append_nil]
          exact ⟨rfl, passed⟩
      | cons c rest ih =>
          have more : rest.length < len := Nat.lt_of_succ_lt_succ enough
          rcases Nat.exists_eq_add_one_of_ne_zero (Nat.ne_zero_of_lt more) with ⟨shorter, rfl⟩
          intro b ahead
          have ahead : device.Ahead ([c] ++ (rest ++ [0])) b := ahead
          rcases readChar_recovers c b ahead.left with ⟨read, passed⟩
          have later := ih (fun next next_mem => plain next (List.mem_cons_of_mem c next_mem))
            (value ++ [c]) shorter more
          rcases later _ (ahead.right passed) with ⟨returned, behind⟩
          rw [readChars_succ read, if_neg (plain c List.mem_cons_self), returned]
          refine ⟨List.append_assoc value [c] rest, ?_⟩
          have total := passed.trans behind
          rwa [← List.length_append] at total

theorem readString_recovers {value : List UInt8} (plain : EachIn (fun c : UInt8 => c ≠ 0) value)
    (counted : value.length + 1 < 2 ^ 32) :
    device.Recovers readString (stringCode value) value := by
  have length := readUInt32_recovers (value.length + 1)
  rw [Nat.mod_eq_of_lt counted] at length
  exact length.bind (readChars_recovers plain (Nat.lt_succ_self value.length) [])

/-- A container that is read whole: its loop recovers the elements it goes through. -/
theorem readAll_recovers {α : Type} {body : List α → ByteBuffer → List α × ByteBuffer}
    {code : α → List UInt8} {push : List α → α → List α} {v : List α}
    (small : v.length ≤ maxArrSize)
    (each : ∀ t ∈ v, ∀ result, device.Recovers (body result) (code t) (push result t)) :
    device.Recovers (readAll body) (countedCode code v) (v.foldl push []) := by
  have size := readUInt32_recovers v.length
  rw [Nat.mod_eq_of_lt (by simp only [maxArrSize] at small; omega)] at size
  have elements : device.Recovers (readElements body v.length) (v.flatMap code)
      (v.foldl push []) := by
    intro b
    rw [readElements, if_neg (Nat.not_lt.mpr small)]
    exact Device.Recovers.iterate each [] b
  exact size.bind elements

end ByteBuffer

/-! ## Keys -/

theorem lexLess_asymm {α : Type} {less : α → α → Bool}
    (asymm : ∀ a b, less a b = true → less b a = false) (left right : List α)
    (before : lexLess less left right = true) : lexLess less right left = false := by
  induction left generalizing right with
  | nil => cases right <;> rfl
  | cons first left ih =>
      cases right with
      | nil => exact absurd before Bool.false_ne_true
      | cons second right =>
          simp only [lexLess, Bool.or_eq_true, Bool.and_eq_true, Bool.not_eq_true'] at before
          rcases before with smaller | ⟨same, rest⟩
          · simp [lexLess, smaller, asymm first second smaller]
          · simp [lexLess, same, ih right rest]

theorem pairLess_asymm {α β : Type} {less : α → α → Bool} {less' : β → β → Bool}
    (asymm : ∀ a b, less a b = true → less b a = false)
    (asymm' : ∀ a b, less' a b = true → less' b a = false) (left right : α × β)
    (before : pairLess less less' left right = true) : pairLess less less' right left = false := by
  simp only [pairLess, Bool.or_eq_true, Bool.and_eq_true, Bool.not_eq_true'] at before
  rcases before with smaller | ⟨same, rest⟩
  · simp [pairLess, smaller, asymm left.1 right.1 smaller]
  · simp [pairLess, same, asymm' left.2 right.2 rest]

theorem floatLess_asymm {width fraction : Nat} {left right : BitVec width}
    (before : floatLess fraction left right = true) : floatLess fraction right left = false := by
  simp only [floatLess, Bool.and_eq_true, decide_eq_true_eq] at before
  simp only [floatLess, Bool.and_eq_false_imp, decide_eq_false_iff_not]
  intro _
  exact Int.lt_asymm before.2

theorem Fixed.less_asymm (T : Fixed) (left right : T.Val) (before : T.less left right = true) :
    T.less right left = false := by
  cases T with
  | uint8 | uint16 | uint32 | uint64 =>
      simp only [less, BitVec.ult, decide_eq_true_eq, decide_eq_false_iff_not] at before ⊢
      exact Nat.lt_asymm before
  | int8 | int16 | int32 | int64 =>
      simp only [less, BitVec.slt, decide_eq_true_eq, decide_eq_false_iff_not] at before ⊢
      exact Int.lt_asymm before
  | float | double => exact floatLess_asymm before

theorem boolLess_asymm :
    ∀ left right : Bool, (!left && right) = true → (!right && left) = false := by
  decide

theorem Ty.less_asymm (T : Ty) (left right : T.Val) (before : T.less left right = true) :
    T.less right left = false := by
  induction T with
  | bool => exact boolLess_asymm left right before
  | fixed T => exact T.less_asymm left right before
  | string =>
      refine lexLess_asymm (fun a b smaller => ?_) left right before
      simp only [decide_eq_true_eq, decide_eq_false_iff_not] at smaller ⊢
      exact UInt8.lt_asymm smaller
  | vector T ih | list T ih => exact lexLess_asymm ih left right before
  | map K V ihKey ihValue =>
      exact lexLess_asymm (pairLess_asymm ihKey ihValue) left right before

/-- An entry behind all others goes to the end. -/
theorem mapInsert_last {α β : Type} {less : α → α → Bool}
    (asymm : ∀ a b, less a b = true → less b a = false) {m : List (α × β)} {entry : α × β}
    (last : ∀ earlier ∈ m, less earlier.1 entry.1 = true) :
    mapInsert less m entry = m ++ [entry] := by
  induction m with
  | nil => rfl
  | cons first m ih =>
      have earlier := last first List.mem_cons_self
      have rest := ih fun later later_mem => last later (List.mem_cons_of_mem first later_mem)
      simp [mapInsert, earlier, asymm first.1 entry.1 earlier, rest]

/-- Entries that come in the order of their keys are all kept. -/
theorem foldl_mapInsert {α β : Type} {less : α → α → Bool}
    (asymm : ∀ a b, less a b = true → less b a = false) {rest start : List (α × β)}
    (ordered : (start ++ rest).Pairwise fun first second => less first.1 second.1 = true) :
    rest.foldl (mapInsert less) start = start ++ rest := by
  induction rest generalizing start with
  | nil => simp
  | cons entry rest ih =>
      have parts := List.pairwise_append.mp ordered
      have last : mapInsert less start entry = start ++ [entry] := by
        apply mapInsert_last asymm
        intro earlier earlier_mem
        exact parts.2.2 earlier earlier_mem entry List.mem_cons_self
      have shifted : start ++ entry :: rest = start ++ [entry] ++ rest :=
        List.append_cons start entry rest
      rw [List.foldl_cons, last, ih (shifted ▸ ordered), shifted]

theorem foldl_push {α : Type} (rest start : List α) :
    rest.foldl (fun v t => v ++ [t]) start = start ++ rest := by
  induction rest generalizing start with
  | nil => simp
  | cons t rest ih => simp [ih]

namespace ByteBuffer

theorem pushBack_recovers {α : Type} {read : ByteBuffer → α × ByteBuffer} {code : List UInt8}
    {t : α} (recovers : device.Recovers read code t) (v : List α) :
    device.Recovers (pushBack read v) code (v ++ [t]) :=
  recovers.map fun t => v ++ [t]

theorem insertEntry_recovers {α β : Type} {less : α → α → Bool}
    {readKey : ByteBuffer → α × ByteBuffer} {readValue : ByteBuffer → β × ByteBuffer}
    {keyCode valueCode : List UInt8} {entry : α × β}
    (key : device.Recovers readKey keyCode entry.1)
    (value : device.Recovers readValue valueCode entry.2) (m : List (α × β)) :
    device.Recovers (insertEntry less readKey readValue m) (keyCode ++ valueCode)
      (mapInsert less m entry) := by
  have inserted (k : α) := value.map fun v => mapInsert less m (k, v)
  have both : device.Recovers (fun b => (mapInsert less m (entry.1, (readValue b).1),
      (readValue b).2)) valueCode (mapInsert less m entry) := inserted entry.1
  intro b ahead
  rcases key b ahead.left with ⟨read, passed⟩
  rcases both _ (ahead.right passed) with ⟨result, behind⟩
  rw [← read] at result
  rw [List.length_append]
  exact ⟨result, passed.trans behind⟩

/-- A vector or a list of elements that are read back. -/
theorem readSequence_recovers {α : Type} {read : ByteBuffer → α × ByteBuffer}
    {code : α → List UInt8} {v : List α} (small : v.length ≤ maxArrSize)
    (each : ∀ t ∈ v, device.Recovers read (code t) t) :
    device.Recovers (readAll (pushBack read)) (countedCode code v) v := by
  have whole := readAll_recovers small fun t t_mem => pushBack_recovers (each t t_mem)
  rwa [foldl_push] at whole

/-- A map whose keys and values are read back. -/
theorem readMap_recovers {α β : Type} {less : α → α → Bool}
    (asymm : ∀ a b, less a b = true → less b a = false)
    {readKey : ByteBuffer → α × ByteBuffer} {readValue : ByteBuffer → β × ByteBuffer}
    {code : α → List UInt8} {code' : β → List UInt8} {m : List (α × β)}
    (small : m.length ≤ maxArrSize)
    (ordered : m.Pairwise fun first second => less first.1 second.1 = true)
    (each : ∀ entry ∈ m, device.Recovers readKey (code entry.1) entry.1 ∧
      device.Recovers readValue (code' entry.2) entry.2) :
    device.Recovers (readAll (insertEntry less readKey readValue))
      (countedCode (fun entry => code entry.1 ++ code' entry.2) m) m := by
  have round : ∀ entry ∈ m, ∀ result, device.Recovers (insertEntry less readKey readValue result)
      (code entry.1 ++ code' entry.2) (mapInsert less result entry) := by
    intro entry entry_mem
    exact insertEntry_recovers (each entry entry_mem).1 (each entry entry_mem).2
  have whole := readAll_recovers small round
  rwa [foldl_mapInsert asymm ordered] at whole

/-- Every value that no reader cuts is read back where its bytes lie. -/
theorem read_recovers {T : Ty} {value : T.Val} (plain : T.Every Ty.Plain value)
    (counted : T.Every Ty.Counted value) (ordered : T.Every Ty.Ordered value) :
    device.Recovers (read T) (T.code value) value := by
  induction T with
  | bool => exact readBool_recovers value
  | fixed T => exact readFixed_recovers T value
  | string => exact readString_recovers plain counted
  | vector T ih | list T ih =>
      apply readSequence_recovers plain.1
      intro t t_mem
      exact ih (plain.2 t t_mem) (counted.2 t t_mem) (ordered.2 t t_mem)
  | map K V ihKey ihValue =>
      apply readMap_recovers K.less_asymm plain.1 ordered.1
      intro entry entry_mem
      rcases plain.2 entry entry_mem with ⟨plainKey, plainValue⟩
      rcases counted.2 entry entry_mem with ⟨countedKey, countedValue⟩
      rcases ordered.2 entry entry_mem with ⟨orderedKey, orderedValue⟩
      exact ⟨ihKey plainKey countedKey orderedKey, ihValue plainValue countedValue orderedValue⟩

/-! ## Sequences of values -/

theorem writes_appends (values : List (Σ T : Ty, T.Val)) :
    device.Appends (writes values) (values.flatMap fun value => value.1.code value.2) :=
  Device.Appends.foldl fun value _ => write_appends value.1 value.2

theorem reads_recovers {values : List (Σ T : Ty, T.Val)}
    (each : ∀ value ∈ values, device.Recovers (read value.1) (value.1.code value.2) value.2) :
    device.Recovers (reads (values.map Sigma.fst))
      (values.flatMap fun value => value.1.code value.2) values := by
  induction values with
  | nil => exact Device.Recovers.nothing []
  | cons value values ih =>
      have rest := ih fun later later_mem => each later (List.mem_cons_of_mem value later_mem)
      intro b ahead
      rcases each value List.mem_cons_self b ahead.left with ⟨first, passed⟩
      rcases rest _ (ahead.right passed) with ⟨others, behind⟩
      refine ⟨?_, ?_⟩
      · change Sigma.mk value.1 (read value.1 b).1 ::
          (reads (values.map Sigma.fst) (read value.1 b).2).1 = _
        rw [first, others]
      · rw [List.flatMap_cons, List.length_append]
        exact passed.trans behind

theorem length_code_le {α : Type} {code : α → List UInt8} {v : List α} {t : α} (t_mem : t ∈ v) :
    (code t).length ≤ (countedCode code v).length := by
  rcases List.append_of_mem t_mem with ⟨before, after, rfl⟩
  simp only [countedCode, List.flatMap_append, List.flatMap_cons, List.length_append]
  omega

theorem length_stringCode (value : List UInt8) :
    (stringCode value).length = 4 + (value.length + 1) := by
  simp [stringCode, uint32Code]

/-- The strings in a value are no longer than its bytes. -/
theorem counted_of_length_lt {T : Ty} {value : T.Val} (short : (T.code value).length < 2 ^ 32) :
    T.Every Ty.Counted value := by
  induction T with
  | bool | fixed => trivial
  | string =>
      have length := length_stringCode value
      change (stringCode value).length < 2 ^ 32 at short
      change List.length value + 1 < 2 ^ 32
      omega
  | vector T ih | list T ih =>
      refine ⟨trivial, fun t t_mem => ih ?_⟩
      exact Nat.lt_of_le_of_lt (length_code_le t_mem) short
  | map K V ihKey ihValue =>
      refine ⟨trivial, fun entry entry_mem => ?_⟩
      have within := Nat.lt_of_le_of_lt (length_code_le entry_mem) short
      rw [List.length_append] at within
      exact ⟨ihKey (Nat.lt_of_add_right_lt within), ihValue (Nat.lt_of_add_left_lt within)⟩

/-- Values written to a fresh buffer are read back at the same types. -/
theorem reads_writes (values : List (Σ T : Ty, T.Val))
    (plain : ∀ value ∈ values, value.1.Every Ty.Plain value.2)
    (ordered : ∀ value ∈ values, value.1.Every Ty.Ordered value.2)
    (small : (writes values init).storage.length < 10000000) :
    (reads (values.map Sigma.fst) (writes values init)).1 = values := by
  have appends := writes_appends values
  have whole : (writes values init).storage = values.flatMap fun value => value.1.code value.2 :=
    (appends init rfl).2.1
  have recovers : device.Recovers (reads (values.map Sigma.fst))
      (values.flatMap fun value => value.1.code value.2) values := by
    apply reads_recovers
    intro value value_mem
    have part : (value.1.code value.2).length ≤ (writes values init).storage.length := by
      rcases List.append_of_mem value_mem with ⟨before, after, rfl⟩
      rw [whole]
      simp only [List.flatMap_append, List.flatMap_cons, List.length_append]
      omega
    exact read_recovers (plain value value_mem) (counted_of_length_lt (by omega))
      (ordered value value_mem)
  have fresh : device.AtEnd init := rfl
  exact (recovers.roundTrip appends fresh rfl).1

/-- A string, and a vector of two maps from `uint16` to `bool`. -/
def nestedValues : List (Σ T : Ty, T.Val) :=
  let first : BitVec 16 × Bool := (1, true)
  let second : BitVec 16 × Bool := (2, false)
  let maps : List (List (BitVec 16 × Bool)) := [[first, second], []]
  [⟨.string, ([0x68, 0x69] : List UInt8)⟩, ⟨.vector (.map (.fixed .uint16) .bool), maps⟩]

theorem reads_writes_nestedValues :
    (reads (nestedValues.map Sigma.fst) (writes nestedValues init)).1 = nestedValues :=
  reads_writes nestedValues (by decide) (by decide) (by decide)

end ByteBuffer

end SunPush
