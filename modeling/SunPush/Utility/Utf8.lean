import Mathlib.Data.List.Basic
import Mathlib.Data.Fintype.Basic

/-!
# The conversions between UTF-8 and 8-bit characters

What `UTF8toANSI` and `ANSItoUTF8` of `Nstring.h` make of a text, apart from where
it lies.  The first reads every UTF-8 text character by character, keeps those
below 256 and puts a question mark for every other; the second writes the UTF-8
text of its characters.
-/

namespace SunPush

/-- How many bytes `UTF8toANSI` takes with a first byte. -/
def sequenceTail (c : UInt8) : Nat :=
  if 0x80 ≤ c then
    if c &&& 0xE0 = 0xC0 then 1
    else if c &&& 0xF0 = 0xE0 then 2
    else if c &&& 0xF8 = 0xF0 then 3
    else if c &&& 0xFC = 0xF8 then 4
    else if c &&& 0xFE = 0xFC then 5
    else 0
  else 0

/-- The character that `UTF8toANSI` writes for a first byte and the byte behind it. -/
def ansiChar (c next : UInt8) : UInt8 :=
  match sequenceTail c with
  | 0 => c
  | 1 =>
      let wide := (c &&& 0x1F).toUInt16 <<< 6 ||| (next &&& 0x3F).toUInt16
      if 0xFF < wide then 63 else wide.toUInt8
  | _ => 63

/-- What `UTF8toANSI` writes for a text, `none` if the text ends within a sequence. -/
def ansiOfUtf8 : List UInt8 → Option (List UInt8)
  | [] => some []
  | c :: text =>
      if sequenceTail c ≤ text.length then
        (ansiOfUtf8 (text.drop (sequenceTail c))).map (ansiChar c (text.getD 0 0) :: ·)
      else none
termination_by text => text.length
decreasing_by
  rw [List.length_drop, List.length_cons]
  omega

/-- What `ANSItoUTF8` writes for a character. -/
def utf8OfChar (c : UInt8) : List UInt8 :=
  if c < 128 then [c] else [192 + c / 64, 128 + c % 64]

def utf8OfAnsi (text : List UInt8) : List UInt8 := text.flatMap utf8OfChar

/-! ## Against Unicode -/

/-- The character of an 8-bit code. -/
def latinChar (c : UInt8) : Char := Char.ofNat c.toNat

/-- The 8-bit code of a character, a question mark if it has none. -/
def latinCode (ch : Char) : UInt8 := if ch.toNat ≤ 0xFF then UInt8.ofNat ch.toNat else 63

theorem latinCode_latinChar (c : UInt8) : latinCode (latinChar c) = c := by
  have all : ∀ code : Fin 256, latinCode (latinChar (UInt8.ofFin code)) = UInt8.ofFin code := by
    decide +kernel
  exact all c.toFin

theorem utf8OfChar_eq (c : UInt8) : utf8OfChar c = String.utf8EncodeChar (latinChar c) := by
  have all : ∀ code : Fin 256, utf8OfChar (UInt8.ofFin code) =
      String.utf8EncodeChar (latinChar (UInt8.ofFin code)) := by
    decide +kernel
  exact all c.toFin

/-- `ANSItoUTF8` writes the UTF-8 text of its characters. -/
theorem utf8OfAnsi_eq (text : List UInt8) :
    utf8OfAnsi text = (text.map latinChar).flatMap String.utf8EncodeChar := by
  rw [utf8OfAnsi, List.flatMap_map]
  exact List.flatMap_congr fun c _ => utf8OfChar_eq c

/-- A sequence of two bytes gives the character of its eleven bits. -/
theorem ansiChar_two {high low : Nat} (highBits : high < 32) (lowBits : low < 64) :
    sequenceTail (UInt8.ofNat (high + 0xC0)) = 1 ∧
      ansiChar (UInt8.ofNat (high + 0xC0)) (UInt8.ofNat (low + 0x80)) =
        if high * 64 + low ≤ 0xFF then UInt8.ofNat (high * 64 + low) else 63 := by
  have all : ∀ (high : Fin 32) (low : Fin 64),
      sequenceTail (UInt8.ofNat (high + 0xC0)) = 1 ∧
        ansiChar (UInt8.ofNat (high + 0xC0)) (UInt8.ofNat (low + 0x80)) =
          if high.val * 64 + low.val ≤ 0xFF then UInt8.ofNat (high.val * 64 + low.val) else 63 := by
    decide +kernel
  exact all ⟨high, highBits⟩ ⟨low, lowBits⟩

theorem ansiChar_single {c : UInt8} (ascii : c < 0x80) (next : UInt8) :
    sequenceTail c = 0 ∧ ansiChar c next = c := by
  have short : sequenceTail c = 0 := by
    rw [sequenceTail, if_neg (UInt8.not_le.mpr ascii)]
  refine ⟨short, ?_⟩
  rw [ansiChar, short]
  rfl

theorem ansiChar_long {c : UInt8} (long : 2 ≤ sequenceTail c) (next : UInt8) :
    ansiChar c next = 63 := by
  rw [ansiChar]
  split
  · omega
  · omega
  · rfl

theorem sequenceTail_three {high : Nat} (bits : high < 16) :
    sequenceTail (UInt8.ofNat (high + 0xE0)) = 2 := by
  have all : ∀ high : Fin 16, sequenceTail (UInt8.ofNat (high + 0xE0)) = 2 := by
    decide +kernel
  exact all ⟨high, bits⟩

theorem sequenceTail_four {high : Nat} (bits : high < 8) :
    sequenceTail (UInt8.ofNat (high + 0xF0)) = 3 := by
  have all : ∀ high : Fin 8, sequenceTail (UInt8.ofNat (high + 0xF0)) = 3 := by
    decide +kernel
  exact all ⟨high, bits⟩

/-- A whole sequence in front becomes one character. -/
theorem ansiOfUtf8_sequence {c : UInt8} (tail : List UInt8) (whole : sequenceTail c = tail.length)
    (text : List UInt8) :
    ansiOfUtf8 (c :: (tail ++ text)) =
      (ansiOfUtf8 text).map (ansiChar c ((tail ++ text).getD 0 0) :: ·) := by
  rw [ansiOfUtf8, whole, if_pos (by simp), List.drop_left]

/-- The UTF-8 bytes of a character become its 8-bit code. -/
theorem ansiOfUtf8_utf8EncodeChar (ch : Char) (text : List UInt8) :
    ansiOfUtf8 (String.utf8EncodeChar ch ++ text) = (ansiOfUtf8 text).map (latinCode ch :: ·) := by
  have code : ch.val.toNat = ch.toNat := rfl
  simp only [String.utf8EncodeChar, code]
  split
  case isTrue ascii =>
    have small : UInt8.ofNat ch.toNat < 0x80 := by
      rw [UInt8.lt_iff_toNat_lt, UInt8.toNat_ofNat']
      change ch.toNat % 256 < 128
      omega
    have single := ansiChar_single small
    apply (ansiOfUtf8_sequence [] (single 0).1 text).trans
    rw [(single _).2, latinCode, if_pos (Nat.le_trans ascii (by decide))]
  case isFalse notAscii =>
    split
    case isTrue two =>
      have sequence := ansiChar_two (Nat.mod_lt (ch.toNat / 64) (by decide : 0 < 32))
        (Nat.mod_lt ch.toNat (by decide : 0 < 64))
      apply (ansiOfUtf8_sequence [_] sequence.1 text).trans
      have bits : ch.toNat / 64 % 32 * 64 + ch.toNat % 64 = ch.toNat := by omega
      rw [List.cons_append, List.getD_cons_zero, sequence.2, bits]
      rfl
    case isFalse notTwo =>
      have wide : latinCode ch = 63 := by
        rw [latinCode, if_neg (by omega)]
      split
      case isTrue three =>
        have tail := sequenceTail_three (Nat.mod_lt (ch.toNat / 4096) (by decide : 0 < 16))
        apply (ansiOfUtf8_sequence [_, _] tail text).trans
        rw [ansiChar_long (by omega), wide]
      case isFalse notThree =>
        have tail := sequenceTail_four (Nat.mod_lt (ch.toNat / 262144) (by decide : 0 < 8))
        apply (ansiOfUtf8_sequence [_, _, _] tail text).trans
        rw [ansiChar_long (by omega), wide]

/-- `UTF8toANSI` of a UTF-8 text gives the codes of its characters. -/
theorem ansiOfUtf8_eq (text : List Char) :
    ansiOfUtf8 (text.flatMap String.utf8EncodeChar) = some (text.map latinCode) := by
  induction text with
  | nil =>
      rw [List.flatMap_nil, ansiOfUtf8]
      rfl
  | cons ch text ih =>
      rw [List.flatMap_cons, ansiOfUtf8_utf8EncodeChar, ih]
      rfl

/-- What `ANSItoUTF8` writes `UTF8toANSI` reads back. -/
theorem ansiOfUtf8_utf8OfAnsi (text : List UInt8) : ansiOfUtf8 (utf8OfAnsi text) = some text := by
  rw [utf8OfAnsi_eq, ansiOfUtf8_eq, List.map_map]
  apply congrArg
  apply List.map_id''
  exact latinCode_latinChar

end SunPush
