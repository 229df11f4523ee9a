import SunPush.Library.Transition
import SunPush.Utility.ParserCell
import Mathlib.Logic.Function.Basic

/-!
# `nString`

The strings of `Nstring.h`: up to 13 characters lie in the object, longer ones in
a block of the heap.  A call is `none` when it fails an assertion, writes outside
the block it writes to or into the literal that `Get` returns for an empty string,
or reads outside what its arguments and the string hold, a freed block included.

`safe_cast<ushort>` is not part of the repository.  It is a parameter, of which
nothing is known but that it keeps a value the type can hold.
-/

namespace SunPush

/-! ## The functions of the C library -/

namespace CBlock

/-- The block that `malloc` returns; `heap` is what the memory holds. -/
def malloc (heap : Nat → UInt8) (size : Nat) : List UInt8 := (List.range size).map heap

/-- Bytes written to a block from a position on. -/
def store (block : List UInt8) (position : Nat) (bytes : List UInt8) : Option (List UInt8) :=
  if position + bytes.length ≤ block.length then
    some (block.take position ++ bytes ++ block.drop (position + bytes.length))
  else none

def strcpy (block : List UInt8) (str : List UInt8) : Option (List UInt8) :=
  store block 0 (str ++ [0])

/-- At most `numChars` characters of `str` behind the string in the block. -/
def strncat (block : List UInt8) (str : List UInt8) (numChars : Nat) : Option (List UInt8) :=
  store block (cStr block).chars.length (str.take numChars ++ [0])

end CBlock

/-- A pointer into a string. -/
def NulString.drop (str : NulString) (index : Nat) : NulString where
  chars := str.chars.drop index
  noNul mem := str.noNul (List.mem_of_mem_drop mem)

/-! ## The string -/

/-- `LOCALSTRINGSIZE` -/
def localStringSize : Nat := 14

/-- `safe_cast<ushort>`, `none` where it does not return. -/
structure SafeCast where
  cast : Nat → Option UInt16
  keeps : ∀ value, value < 2 ^ 16 → cast value = some (UInt16.ofNat value)

instance : Inhabited SafeCast where
  default := ⟨fun value => some (UInt16.ofNat value), fun _ _ => rfl⟩

/-- A pointer that a string is given: to memory which is not its own, or so many characters behind
what its own `Get` returns. -/
inductive CharPtr where
  | elsewhere (str : NulString)
  | own (index : Nat)

structure NString where
  /-- The block that `string` points at; `none` is the null pointer. -/
  string : Option (List UInt8)
  localString : List UInt8
  strLen : UInt16

namespace NString

open CBlock

/-- `nString::nString`; the object lies where `heap` was. -/
def construct (heap : Nat → UInt8) : NString where
  string := none
  localString := (malloc heap localStringSize).set 0 0
  strLen := 0

/-- `Delete`, which keeps `strLen`. -/
def delete (this : NString) : NString :=
  { this with string := none, localString := this.localString.set 0 0 }

/-- `Get`; for an empty string without a block of its own a literal. -/
def get (this : NString) : NulString :=
  match this.string with
  | some block => cStr block
  | none => cStr this.localString

/-- Whether `localString[0]` is not NUL. -/
def isLocal (this : NString) : Bool := this.localString.getD 0 0 ≠ 0

/-- What a pointer points at. -/
def pointee (this : NString) : CharPtr → NulString
  | .elsewhere str => str
  | .own index => this.get.drop index

/-- What may be read behind a pointer once the string is deleted: a block of its own has been freed,
and the first character in the object is NUL. -/
def behind (this : NString) : CharPtr → List UInt8
  | .elsewhere str => str.chars ++ [0]
  | .own index =>
      match this.string with
      | some _ => []
      | none => if this.isLocal then this.delete.localString.drop index else [0].drop index

section SafeCast

variable (safeCast : SafeCast)

/-- `Set(const char*, int)`, `none` for a null pointer.  Characters of the object itself are copied
towards its front, the first one first. -/
def setRange (this : NString) (heap : Nat → UInt8) (str : Option CharPtr) (length : Nat) :
    Option NString :=
  match str with
  | none => some this.delete
  | some str => do
      let strLen ← safeCast.cast length
      let source := this.behind str
      let this := { this.delete with strLen }
      if source.length < strLen.toNat then none
      else if localStringSize ≤ strLen.toNat then
        (store (malloc heap (strLen.toNat + 1)) 0 (source.take strLen.toNat ++ [0])).map
          fun block => { this with string := some block }
      else
        (store this.localString 0 (source.take strLen.toNat ++ [0])).map fun block =>
          { this with localString := block }

/-- `Set(const char*)`, and `operator=(const char*)`. -/
def set (this : NString) (heap : Nat → UInt8) (str : Option CharPtr) : Option NString :=
  match str with
  | none => this.setRange safeCast heap none 0
  | some str => this.setRange safeCast heap (some str) (this.pointee str).chars.length

/-- `operator=` of another string, with `Copy`. -/
def assign (this : NString) (heap : Nat → UInt8) (rhs : NString) : Option NString :=
  this.delete.set safeCast heap (some (.elsewhere rhs.get))

def length (this : NString) : UInt16 := this.strLen

def isEmpty (this : NString) : Bool :=
  match this.string with
  | some block => block.getD 0 0 = 0 && !this.isLocal
  | none => !this.isLocal

/-- `strncat` to the characters in the object, which is undefined for characters of its own. -/
def strncatLocal (this : NString) (str : CharPtr) (numChars : Nat) : Option (List UInt8) :=
  match str with
  | .elsewhere str => strncat this.localString str.chars numChars
  | .own _ => none

def appendRange (this : NString) (heap : Nat → UInt8) (str : CharPtr) (numChars : Nat) :
    Option NString :=
  if numChars = 0 then some this
  else do
    let rlen ← safeCast.cast numChars
    let tlen := this.strLen + rlen
    match this.string with
    | some block =>
        let ptr ← strcpy (malloc heap (tlen.toNat + 1)) (cStr block).chars
        let ptr ← strncat ptr (this.pointee str).chars numChars
        return { this with string := some ptr, strLen := tlen }
    | none =>
        if this.isLocal then
          if localStringSize ≤ tlen.toNat then
            let ptr ← strcpy (malloc heap (tlen.toNat + 1)) (cStr this.localString).chars
            let ptr ← strncat ptr (this.pointee str).chars numChars
            return { string := some ptr, localString := this.localString.set 0 0, strLen := tlen }
          else
            let block ← this.strncatLocal str numChars
            return { this with localString := block, strLen := tlen }
        else this.setRange safeCast heap (some str) numChars

/-- `Append(const char*)`, and `operator+=`. -/
def append (this : NString) (heap : Nat → UInt8) (str : CharPtr) : Option NString := do
  let rlen ← safeCast.cast (this.pointee str).chars.length
  this.appendRange safeCast heap str rlen.toNat

/-! ### Strings made from others -/

/-- The loop of `Substitute`, with at most so many rounds; `ptr` is the string from there on, and
every allocation has its own memory. -/
def substituteLoop (matchStr substStr : NulString) (heap : Nat → Nat → UInt8) (dest : NString)
    (ptr : NulString) : Nat → Option NString
  | 0 => none
  | rounds + 1 =>
      match Substrings.occurrence matchStr.chars ptr.chars with
      | some occur => do
          let dest ← dest.appendRange safeCast (heap 0) (.elsewhere ptr) occur
          let dest ← dest.append safeCast (heap 1) (.elsewhere substStr)
          substituteLoop matchStr substStr (fun allocation => heap (allocation + 2)) dest
            (ptr.drop (occur + matchStr.chars.length)) rounds
      | none => dest.append safeCast (heap 0) (.elsewhere ptr)

/-- `Substitute`, with at most so many rounds; the new string lies where `place` was. -/
def substitute (this : NString) (place : Nat → UInt8) (heap : Nat → Nat → UInt8)
    (matchStr substStr : NulString) (rounds : Nat) : Option NString :=
  substituteLoop safeCast matchStr substStr heap (construct place) this.get rounds

end SafeCast

/-! ### Changes in place

They write through the pointer that `Get` returns. -/

/-- The block behind `Get`, unless it is the literal. -/
def buffer (this : NString) : Option (List UInt8) :=
  match this.string with
  | some block => some block
  | none => if this.isLocal then some this.localString else none

def withBuffer (this : NString) (block : List UInt8) : NString :=
  match this.string with
  | some _ => { this with string := some block }
  | none => { this with localString := block }

/-- The character at an index behind `Get`. -/
def peek (this : NString) (index : Nat) : Option UInt8 :=
  match this.buffer with
  | some block => block[index]?
  | none => if index = 0 then some 0 else none

/-- An assignment to the character at an index behind `Get`. -/
def poke (this : NString) (index : Nat) (c : UInt8) : Option NString := do
  let block ← this.buffer
  let block ← store block index [c]
  return this.withBuffer block

def strip (this : NString) (charSet : NulString) : Option NString :=
  match this.get.chars.findIdx? fun c => c ∈ charSet.chars with
  | some index => this.poke index 0
  | none => some this

def terminateAtIndex (this : NString) (index : Int) : Option NString :=
  if 0 ≤ index ∧ index < this.length.toNat then this.poke index.toNat 0 else none

def isSlash (c : UInt8) : Bool := c = 47 || c = 92

def stripTrailingSlash (this : NString) : Option NString :=
  if this.strLen = 0 then some this
  else do
    let pos := this.strLen.toNat - 1
    let c ← this.peek pos
    if isSlash c then this.poke pos 0 else return this

/-- One round of the loop of `ConvertBackslashes`. -/
def convertRound (this : NString) (i : Nat) : Option NString := do
  let c ← this.peek i
  if c = 92 then this.poke i 47 else return this

/-- The loop of `ConvertBackslashes`, with so many rounds to go. -/
def convertLoop (this : NString) (i : Nat) : Nat → Option NString
  | 0 => some this
  | rounds + 1 => do
      let this ← this.convertRound i
      this.convertLoop (i + 1) rounds

def convertBackslashes (this : NString) : Option NString :=
  this.convertLoop 0 (this.strLen.toNat + 1)

/-- Where the last occurrence of a character begins, as `strrchr` finds it. -/
def lastIndex (c : UInt8) (str : List UInt8) : Option Nat :=
  (str.reverse.findIdx? fun other => other = c).map fun behind => str.length - 1 - behind

/-- `GetExtension`: the index behind the last dot, if anything stands there. -/
def getExtension (this : NString) : Option Nat :=
  match lastIndex 46 this.get.chars with
  | some dot => if dot + 1 < this.get.chars.length then some (dot + 1) else none
  | none => none

def stripExtension (this : NString) : Option NString :=
  match this.getExtension with
  | some ext => this.poke (ext - 1) 0
  | none => some this

/-- `'?'` -/
def questionMark : UInt8 := 63

/-- The branches of `UTF8toANSI` for a byte in front of `src`: the character it becomes, and where
the next one begins. -/
def utf8Char (block : List UInt8) (c : UInt8) (src : Nat) : Option (UInt8 × Nat) :=
  if 0x80 ≤ c then
    if c &&& 0xE0 = 0xC0 then do
      let next ← block[src]?
      let wide := (c &&& 0x1F).toUInt16 <<< 6 ||| (next &&& 0x3F).toUInt16
      return (if 0xFF < wide then questionMark else wide.toUInt8, src + 1)
    else if c &&& 0xF0 = 0xE0 then some (questionMark, src + 2)
    else if c &&& 0xF8 = 0xF0 then some (questionMark, src + 3)
    else if c &&& 0xFC = 0xF8 then some (questionMark, src + 4)
    else if c &&& 0xFE = 0xFC then some (questionMark, src + 5)
    else some (c, src)
  else some (c, src)

/-- The loop of `UTF8toANSI`, with `src` and `dst` indices and at most so many rounds. -/
def utf8Loop (block : List UInt8) (src dst : Nat) : Nat → Option (List UInt8)
  | 0 => none
  | rounds + 1 => do
      let c ← block[src]?
      if c = 0 then store block dst [0]
      else
        let (c, src) ← utf8Char block c (src + 1)
        let block ← store block dst [c]
        utf8Loop block src (dst + 1) rounds

/-- `UTF8toANSI`; every round reads further on in the block. -/
def utf8ToAnsi (this : NString) : Option NString := do
  let block ← this.buffer
  let block ← utf8Loop block 0 0 (block.length + 1)
  return this.withBuffer block

/-- The loop of `ANSItoUTF8` for the rest of the string, with `dstPtr` an index. -/
def ansiLoop (buffer : List UInt8) (dstPtr : Nat) : List UInt8 → Option (List UInt8)
  | [] => store buffer dstPtr [0]
  | c :: srcPtr =>
      if c < 128 then do
        let buffer ← store buffer dstPtr [c]
        ansiLoop buffer (dstPtr + 1) srcPtr
      else do
        let buffer ← store buffer dstPtr [192 + c / 64]
        let buffer ← store buffer (dstPtr + 1) [128 + c % 64]
        ansiLoop buffer (dstPtr + 2) srcPtr

def ansiToUtf8 (safeCast : SafeCast) (this : NString) (heap : Nat → UInt8) : Option NString :=
  if this.isEmpty then none
  else do
    let bufSize := this.length.toNat * 2 + 1
    let buffer ← ansiLoop (malloc heap bufSize) 0 this.get.chars
    this.set safeCast heap (some (.elsewhere (cStr buffer)))

end NString

end SunPush
