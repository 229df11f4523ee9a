import SunPush.Utility.NStringChanges

/-!
# The encoding of an `nString`

`UTF8toANSI` writes over the text that it reads: what it writes never gets ahead
of what it has read.  `ANSItoUTF8` writes into a buffer that two bytes for every
character of `Length` fit into.
-/

namespace SunPush

namespace NString

open CBlock

/-- A character written in front of what is to be read. -/
theorem store_front (written front rest : List UInt8) (nonempty : front ≠ [])
    (c : UInt8) :
    store (written ++ front ++ rest) written.length [c] =
      some (written ++ [c] ++ front.tail ++ rest) := by
  cases front with
  | nil => contradiction
  | cons old front =>
      rw [store_singleton (by simp), List.append_assoc,
        List.set_append_right _ _ (Nat.le_refl _), Nat.sub_self]
      simp

theorem utf8Char_eq {block : List UInt8} {c next : UInt8} {src : Nat}
    (reads : sequenceTail c = 1 → block[src]? = some next) :
    utf8Char block c src = some (ansiChar c next, src + sequenceTail c) := by
  rw [utf8Char, ansiChar]
  rw [sequenceTail] at reads ⊢
  split
  case isFalse => rfl
  case isTrue high =>
    rw [if_pos high] at reads
    split
    case isTrue two =>
      rw [if_pos two] at reads
      rw [reads rfl]
      rfl
    case isFalse =>
      split
      · rfl
      · split
        · rfl
        · split
          · rfl
          · split <;> rfl

theorem length_le_of_ansiOfUtf8 {chars ansi : List UInt8} (decodes : ansiOfUtf8 chars = some ansi) :
    ansi.length ≤ chars.length := by
  induction chars using ansiOfUtf8.induct generalizing ansi with
  | case1 =>
      rw [ansiOfUtf8] at decodes
      rcases Option.some.inj decodes with rfl
      exact Nat.le_refl 0
  | case2 c text whole ih =>
      rw [ansiOfUtf8, if_pos whole] at decodes
      rcases Option.map_eq_some_iff.mp decodes with ⟨later, laterDecodes, rfl⟩
      have shorter := ih laterDecodes
      rw [List.length_drop] at shorter
      rw [List.length_cons, List.length_cons]
      omega
  | case3 c text cut =>
      rw [ansiOfUtf8, if_neg cut] at decodes
      contradiction

/-- What was written stays, and what is still to be read has not been written over. -/
theorem utf8Loop_eq (written gap rest : List UInt8) {chars ansi : List UInt8} {rounds : Nat}
    (noNul : 0 ∉ chars) (enough : chars.length < rounds) (decodes : ansiOfUtf8 chars = some ansi) :
    ∃ behind, utf8Loop (written ++ gap ++ (chars ++ 0 :: rest)) (written.length + gap.length)
        written.length rounds = some (written ++ ansi ++ 0 :: behind) ∧
      (written ++ ansi ++ 0 :: behind).length =
        (written ++ gap ++ (chars ++ 0 :: rest)).length := by
  induction rounds generalizing written gap chars ansi with
  | zero => contradiction
  | succ rounds ih =>
      have reads (index : Nat) :
          (written ++ gap ++ (chars ++ 0 :: rest))[written.length + gap.length + index]? =
            (chars ++ 0 :: rest)[index]? := by
        rw [← List.length_append, List.getElem?_append_right (Nat.le_add_right _ _),
          Nat.add_sub_cancel_left]
      cases chars with
      | nil =>
          rw [ansiOfUtf8] at decodes
          rcases Option.some.inj decodes with rfl
          have ending : (written ++ gap ++ ([] ++ 0 :: rest))[written.length + gap.length]? =
              some 0 :=
            reads 0
          have split : written ++ gap ++ ([] ++ 0 :: rest) = written ++ (gap ++ [0]) ++ rest := by
            simp
          rw [utf8Loop, ending, Option.bind_eq_bind, Option.bind_some, if_pos rfl, split,
            store_front written _ rest (by simp)]
          refine ⟨(gap ++ [0]).tail ++ rest, ?_, ?_⟩
          · simp
          · simp
            omega
      | cons c text =>
          have nonzero : c ≠ 0 := by
            rintro rfl
            exact noNul List.mem_cons_self
          rw [ansiOfUtf8] at decodes
          split at decodes
          case isFalse => contradiction
          case isTrue whole =>
            rcases Option.map_eq_some_iff.mp decodes with ⟨later, laterDecodes, rfl⟩
            have head : (written ++ gap ++ (c :: text ++ 0 :: rest))[written.length + gap.length]? =
                some c :=
              reads 0
            have next : sequenceTail c = 1 → (written ++ gap ++ (c :: text ++ 0 :: rest))[
                written.length + gap.length + 1]? = some (text.getD 0 0) := by
              intro one
              cases text with
              | nil =>
                  rw [one] at whole
                  contradiction
              | cons second text => exact reads 1
            have split : written ++ gap ++ (c :: text ++ 0 :: rest) =
                written ++ (gap ++ c :: text.take (sequenceTail c)) ++
                  (text.drop (sequenceTail c) ++ 0 :: rest) := by
              calc
                written ++ gap ++ (c :: text ++ 0 :: rest) = written ++ gap ++
                    (c :: (text.take (sequenceTail c) ++ text.drop (sequenceTail c)) ++
                      0 :: rest) := by
                  rw [List.take_append_drop]
                _ = written ++ (gap ++ c :: text.take (sequenceTail c)) ++
                    (text.drop (sequenceTail c) ++ 0 :: rest) := by
                  simp only [List.append_assoc, List.cons_append]
            have tail_length : (gap ++ c :: text.take (sequenceTail c)).tail.length =
                gap.length + sequenceTail c := by
              rw [List.length_tail, List.length_append, List.length_cons,
                List.length_take_of_le whole]
              omega
            have noNulLater : 0 ∉ text.drop (sequenceTail c) :=
              fun mem => noNul (List.mem_cons_of_mem c (List.mem_of_mem_drop mem))
            have shorter : (text.drop (sequenceTail c)).length < rounds := by
              rw [List.length_drop]
              rw [List.length_cons] at enough
              omega
            rcases ih (written ++ [ansiChar c (text.getD 0 0)])
              (gap ++ c :: text.take (sequenceTail c)).tail noNulLater shorter laterDecodes
              with ⟨behind, loop, size⟩
            have position : (written ++ [ansiChar c (text.getD 0 0)]).length +
                (gap ++ c :: text.take (sequenceTail c)).tail.length =
                  written.length + gap.length + 1 + sequenceTail c := by
              rw [tail_length, List.length_append, List.length_singleton]
              omega
            rw [position, List.length_append, List.length_singleton] at loop
            refine ⟨behind, ?_, ?_⟩
            · simp only [utf8Loop, head, Option.bind_eq_bind, Option.bind_some, if_neg nonzero,
                utf8Char_eq next]
              rw [split, store_front written _ _ (by simp), Option.bind_some, loop]
              simp
            · rw [split]
              simp only [List.length_append, List.length_cons, tail_length] at size ⊢
              rw [List.length_take_of_le whole]
              omega

/-! ## Of a string -/

namespace Shows

variable {this : NString} {text : StringText}

theorem utf8ToAnsi (shows_ : Shows this text) (notLiteral : text.isLiteral = false)
    {ansi : List UInt8} (decodes : ansiOfUtf8 text.chars = some ansi) :
    ∃ after, this.utf8ToAnsi = some after ∧
      Shows after { text with chars := ansi.takeWhile (· ≠ 0) } := by
  rcases shows_.buffer_of_notLiteral notLiteral with ⟨block, buffer_eq, holds, size, writes⟩
  have enough : text.chars.length < block.length + 1 := Nat.lt_succ_of_lt holds.length_lt
  rcases holds.exists_rest with ⟨rest, block_eq⟩
  rcases utf8Loop_eq [] [] rest holds.1 enough decodes with
    ⟨behind, loop, same⟩
  simp only [List.nil_append, List.length_nil, Nat.add_zero, ← block_eq] at loop same
  rw [NString.utf8ToAnsi, buffer_eq, Option.bind_eq_bind, Option.bind_some, loop]
  refine ⟨_, rfl, writes (terminated_takeWhile ansi behind) same ?_⟩
  exact Nat.le_trans (List.takeWhile_prefix _).length_le (length_le_of_ansiOfUtf8 decodes)

theorem utf8ToAnsi_eq_none (shows_ : Shows this text) (literal : text.isLiteral = true) :
    this.utf8ToAnsi = none := by
  rw [NString.utf8ToAnsi, shows_.buffer_of_isLiteral literal]
  rfl

end Shows

theorem utf8OfChar_ne_zero {c : UInt8} (nonzero : c ≠ 0) : 0 ∉ utf8OfChar c := by
  have all : ∀ code : Fin 256, UInt8.ofFin code ≠ 0 → 0 ∉ utf8OfChar (UInt8.ofFin code) := by
    decide +kernel
  exact all c.toFin nonzero

theorem zero_notMem_utf8OfAnsi {chars : List UInt8} (noNul : 0 ∉ chars) :
    0 ∉ utf8OfAnsi chars := by
  rw [utf8OfAnsi, List.mem_flatMap]
  rintro ⟨c, mem, zero⟩
  refine utf8OfChar_ne_zero ?_ zero
  rintro rfl
  exact noNul mem

theorem length_utf8OfAnsi_le (chars : List UInt8) :
    (utf8OfAnsi chars).length ≤ chars.length * 2 := by
  induction chars with
  | nil => exact Nat.le_refl 0
  | cons c chars ih =>
      have two : (utf8OfChar c).length ≤ 2 := by
        rw [utf8OfChar]
        split
        · exact Nat.le_succ 1
        · exact Nat.le_refl 2
      rw [utf8OfAnsi, List.flatMap_cons, List.length_append, List.length_cons]
      rw [utf8OfAnsi] at ih
      omega

/-- The bytes of each character behind those of the characters in front of it. -/
theorem ansiLoop_eq (written room : List UInt8) {chars : List UInt8}
    (fits : (utf8OfAnsi chars).length < room.length) :
    ∃ behind, ansiLoop (written ++ room) written.length chars =
      some (written ++ utf8OfAnsi chars ++ 0 :: behind) := by
  induction chars generalizing written room with
  | nil =>
      have front := store_front written room [] (List.ne_nil_of_length_pos fits) 0
      rw [List.append_nil, List.append_nil] at front
      refine ⟨room.tail, ?_⟩
      rw [ansiLoop, front]
      simp [utf8OfAnsi]
  | cons c chars ih =>
      rw [utf8OfAnsi, List.flatMap_cons, List.length_append, ← utf8OfAnsi] at fits
      rw [utf8OfAnsi, List.flatMap_cons, ← utf8OfAnsi, ansiLoop]
      rw [utf8OfChar] at fits ⊢
      split
      case isTrue ascii =>
        rw [if_pos ascii, List.length_singleton] at fits
        have front := store_front written room [] (List.ne_nil_of_length_pos (by omega)) c
        rw [List.append_nil, List.append_nil] at front
        rcases ih (written ++ [c]) room.tail (by
          rw [List.length_tail]
          omega) with ⟨behind, loop⟩
        rw [List.length_append, List.length_singleton] at loop
        refine ⟨behind, ?_⟩
        rw [front, Option.bind_eq_bind, Option.bind_some, loop]
        simp
      case isFalse wide =>
        rw [if_neg wide, List.length_cons, List.length_singleton] at fits
        have first := store_front written room [] (List.ne_nil_of_length_pos (by omega))
          (192 + c / 64)
        have second := store_front (written ++ [192 + c / 64]) room.tail []
          (List.ne_nil_of_length_pos (by rw [List.length_tail]; omega)) (128 + c % 64)
        rw [List.append_nil, List.append_nil] at first second
        rw [List.length_append, List.length_singleton] at second
        rcases ih (written ++ [192 + c / 64] ++ [128 + c % 64]) room.tail.tail (by
          rw [List.length_tail, List.length_tail]
          omega) with ⟨behind, loop⟩
        simp only [List.length_append, List.length_singleton] at loop
        refine ⟨behind, ?_⟩
        rw [first, Option.bind_eq_bind, Option.bind_some, second, Option.bind_some, loop]
        simp

namespace Shows

variable {this : NString} {text : StringText}

theorem ansiLoop_malloc (shows_ : Shows this text) (heap : Nat → UInt8) :
    ∃ buffer, ansiLoop (malloc heap (this.length.toNat * 2 + 1)) 0 this.get.chars = some buffer ∧
      (cStr buffer).chars = utf8OfAnsi text.chars := by
  have fits : (utf8OfAnsi text.chars).length <
      (malloc heap (this.length.toNat * 2 + 1)).length := by
    have encoded := length_utf8OfAnsi_le text.chars
    have shorter := shows_.length_le
    rw [length_malloc, shows_.length_eq]
    omega
  rcases ansiLoop_eq [] _ fits with ⟨behind, loop⟩
  rw [shows_.get_chars]
  exact ⟨_, loop, cStr_append (zero_notMem_utf8OfAnsi shows_.noNul) behind⟩

theorem ansiToUtf8 (shows_ : Shows this text) (safeCast : SafeCast) (heap : Nat → UInt8)
    (nonempty : text.chars ≠ []) (small : (utf8OfAnsi text.chars).length < 2 ^ 16) :
    ∃ after, this.ansiToUtf8 safeCast heap = some after ∧
      Shows after (.stored (utf8OfAnsi text.chars)) := by
  have notEmpty : this.isEmpty = false := by
    rw [shows_.isEmpty_eq]
    exact List.isEmpty_eq_false_iff.mpr nonempty
  rcases shows_.ansiLoop_malloc heap with ⟨buffer, loop, encoded⟩
  rw [NString.ansiToUtf8, notEmpty]
  simp only [Bool.false_eq_true, if_false, loop, Option.bind_eq_bind, Option.bind_some]
  rw [← encoded] at small ⊢
  exact set_elsewhere safeCast shows_.localSize heap small

theorem ansiToUtf8_eq_none (shows_ : Shows this text) (safeCast : SafeCast) (heap : Nat → UInt8)
    (empty : text.chars = []) : this.ansiToUtf8 safeCast heap = none := by
  rw [NString.ansiToUtf8, shows_.isEmpty_eq, empty]
  rfl

end Shows

/-! ## Against Unicode -/

theorem zero_mem_utf8EncodeChar {ch : Char} (zero : latinCode ch = 0) :
    0 ∈ String.utf8EncodeChar ch := by
  rw [latinCode] at zero
  split at zero
  case isTrue small =>
    have zero_nat : (UInt8.ofNat ch.toNat).toNat = 0 := congrArg UInt8.toNat zero
    rw [UInt8.toNat_ofNat', Nat.mod_eq_of_lt (Nat.lt_succ_of_le small)] at zero_nat
    have nul : ch = Char.ofNat 0 := Char.toNat_inj.mp zero_nat
    rw [nul]
    decide
  case isFalse => contradiction

theorem zero_notMem_latinCode {text : List Char}
    (noNul : 0 ∉ text.flatMap String.utf8EncodeChar) : 0 ∉ text.map latinCode := by
  rw [List.mem_map]
  rintro ⟨ch, mem, zero⟩
  exact noNul (List.mem_flatMap.mpr ⟨ch, mem, zero_mem_utf8EncodeChar zero⟩)

namespace Shows

variable {this : NString} {text : StringText}

theorem notLiteral_of_nonempty (nonempty : text.chars ≠ []) : text.isLiteral = false :=
  notLiteral_of_length_pos (List.length_pos_of_ne_nil nonempty)

/-- `UTF8toANSI` of a UTF-8 text leaves the codes of its characters. -/
theorem utf8ToAnsi_get (shows_ : Shows this text) (nonempty : text.chars ≠ []) {unicode : List Char}
    (encoded : text.chars = unicode.flatMap String.utf8EncodeChar) :
    ∃ after, this.utf8ToAnsi = some after ∧ after.get.chars = unicode.map latinCode := by
  have decodes : ansiOfUtf8 text.chars = some (unicode.map latinCode) := by
    rw [encoded]
    exact ansiOfUtf8_eq unicode
  rcases shows_.utf8ToAnsi (notLiteral_of_nonempty nonempty) decodes with
    ⟨after, converts, shows_after⟩
  refine ⟨after, converts, shows_after.get_chars.trans (takeWhile_of_noNul ?_)⟩
  apply zero_notMem_latinCode
  rw [← encoded]
  exact shows_.noNul

/-- `UTF8toANSI` takes back what `ANSItoUTF8` has done. -/
theorem utf8ToAnsi_ansiToUtf8 (shows_ : Shows this text) (safeCast : SafeCast)
    (heap : Nat → UInt8) (nonempty : text.chars ≠ [])
    (small : (utf8OfAnsi text.chars).length < 2 ^ 16) :
    ∃ encoded decoded, this.ansiToUtf8 safeCast heap = some encoded ∧
      encoded.get.chars = (text.chars.map latinChar).flatMap String.utf8EncodeChar ∧
        encoded.utf8ToAnsi = some decoded ∧ decoded.get.chars = text.chars := by
  rcases shows_.ansiToUtf8 safeCast heap nonempty small with ⟨encoded, encodes, shows_encoded⟩
  have some_bytes : (StringText.stored (utf8OfAnsi text.chars)).chars ≠ [] := by
    intro none_written
    have back := ansiOfUtf8_utf8OfAnsi text.chars
    change utf8OfAnsi text.chars = [] at none_written
    rw [none_written, ansiOfUtf8] at back
    exact nonempty (Option.some.inj back).symm
  rcases shows_encoded.utf8ToAnsi (notLiteral_of_nonempty some_bytes)
    (ansiOfUtf8_utf8OfAnsi text.chars) with ⟨decoded, decodes, shows_decoded⟩
  refine ⟨encoded, decoded, encodes, ?_, decodes, ?_⟩
  · rw [shows_encoded.get_chars, ← utf8OfAnsi_eq]
    rfl
  · rw [shows_decoded.get_chars]
    exact takeWhile_of_noNul shows_.noNul

end Shows

end NString

end SunPush
