import SunPush.Utility.NString
import SunPush.Utility.Utf8

/-!
# The texts of `nString`

A string as its user sees it: the characters that `Get` returns, what `Length`
returns, and whether the string has a block of its own.  `Length` counts
characters that were cut off in place, and a call that appends goes by it; so a
string stays sound as long as no such count reaches 16 bits.
-/

namespace SunPush

namespace CBlock

/-- A block that holds a string in front. -/
def Terminated (block chars : List UInt8) : Prop :=
  0 ∉ chars ∧ chars ++ [0] <+: block

theorem cStr_append {chars : List UInt8} (noNul : 0 ∉ chars) (rest : List UInt8) :
    (cStr (chars ++ 0 :: rest)).chars = chars := by
  have nonzero : ∀ c ∈ chars, decide (c ≠ 0) = true := by
    intro c c_mem
    apply decide_eq_true
    rintro rfl
    exact noNul c_mem
  change (chars ++ 0 :: rest).takeWhile (fun c => decide (c ≠ 0)) = chars
  rw [List.takeWhile_append_of_pos nonzero]
  simp

namespace Terminated

variable {block chars : List UInt8}

theorem exists_rest (terminated : Terminated block chars) :
    ∃ rest, block = chars ++ 0 :: rest := by
  rcases terminated.2 with ⟨rest, rest_eq⟩
  exact ⟨rest, by rw [← rest_eq, List.append_assoc, List.singleton_append]⟩

theorem of_append (noNul : 0 ∉ chars) (rest : List UInt8) :
    Terminated (chars ++ 0 :: rest) chars := by
  refine ⟨noNul, rest, ?_⟩
  rw [List.append_assoc, List.singleton_append]

theorem cStr_eq (terminated : Terminated block chars) : (cStr block).chars = chars := by
  rcases terminated.exists_rest with ⟨rest, rfl⟩
  exact cStr_append terminated.1 rest

theorem length_lt (terminated : Terminated block chars) : chars.length < block.length := by
  have shorter := terminated.2.length_le
  rw [List.length_append, List.length_singleton] at shorter
  exact shorter

theorem getElem?_lt (terminated : Terminated block chars) {index : Nat}
    (inside : index < chars.length) : block[index]? = chars[index]? := by
  rcases terminated.exists_rest with ⟨rest, rfl⟩
  exact List.getElem?_append_left inside

theorem getElem?_length (terminated : Terminated block chars) :
    block[chars.length]? = some 0 := by
  rcases terminated.exists_rest with ⟨rest, rfl⟩
  simp

/-- The first character is NUL exactly if there is no other. -/
theorem getD_zero (terminated : Terminated block chars) : block.getD 0 0 = 0 ↔ chars = [] := by
  rcases terminated.exists_rest with ⟨rest, rfl⟩
  cases chars with
  | nil => simp
  | cons c chars =>
      have nonzero : c ≠ 0 := by
        rintro rfl
        exact terminated.1 List.mem_cons_self
      simp [nonzero]

/-- A NUL ends the string, unless it already ended before. -/
theorem set_zero (terminated : Terminated block chars) {index : Nat}
    (inside : index < block.length) : Terminated (block.set index 0) (chars.take index) := by
  rcases terminated.exists_rest with ⟨rest, rfl⟩
  have noNul : 0 ∉ chars.take index := fun mem => terminated.1 (List.mem_of_mem_take mem)
  by_cases within : index < chars.length
  · have split : (chars ++ 0 :: rest).set index 0 =
        chars.take index ++ 0 :: (chars.drop (index + 1) ++ 0 :: rest) := by
      rw [List.set_append_left _ _ within, List.set_eq_take_append_cons_drop, if_pos within,
        List.append_assoc, List.cons_append]
    rw [split]
    exact of_append noNul _
  · rw [List.take_of_length_le (Nat.le_of_not_lt within)] at noNul ⊢
    rw [List.set_append_right _ _ (Nat.le_of_not_lt within)]
    cases index - chars.length with
    | zero => exact of_append noNul rest
    | succ behind => exact of_append noNul (rest.set behind 0)

/-- Another character in a place that is not the end. -/
theorem set (terminated : Terminated block chars) {c : UInt8} (nonzero : c ≠ 0) {index : Nat}
    (notEnd : index ≠ chars.length) : Terminated (block.set index c) (chars.set index c) := by
  rcases terminated.exists_rest with ⟨rest, rfl⟩
  have noNul : 0 ∉ chars.set index c := by
    intro mem
    rcases List.mem_or_eq_of_mem_set mem with old | new
    · exact terminated.1 old
    · exact nonzero new.symm
  by_cases within : index < chars.length
  · rw [List.set_append_left _ _ within]
    exact of_append noNul rest
  · rw [List.set_append_right _ _ (Nat.le_of_not_lt within),
      List.set_eq_of_length_le (Nat.le_of_not_lt within)]
    rcases Nat.exists_eq_add_of_lt (Nat.lt_of_le_of_ne (Nat.le_of_not_lt within) notEnd.symm) with
      ⟨behind, rfl⟩
    rw [Nat.add_assoc, Nat.add_sub_cancel_left]
    exact of_append terminated.1 (rest.set behind c)

end Terminated

/-- A NUL in front makes the string empty. -/
theorem terminated_set_zero {block : List UInt8} (inside : 0 < block.length) :
    Terminated (block.set 0 0) [] := by
  cases block with
  | nil => contradiction
  | cons c block => exact Terminated.of_append List.not_mem_nil block

theorem length_malloc (heap : Nat → UInt8) (size : Nat) : (malloc heap size).length = size := by
  rw [malloc, List.length_map, List.length_range]

theorem store_of_le {block bytes : List UInt8} {position : Nat}
    (inside : position + bytes.length ≤ block.length) :
    store block position bytes =
      some (block.take position ++ bytes ++ block.drop (position + bytes.length)) :=
  if_pos inside

theorem store_singleton {block : List UInt8} {position : Nat} (inside : position < block.length)
    (c : UInt8) : store block position [c] = some (block.set position c) := by
  have fits : position + [c].length ≤ block.length := inside
  rw [store_of_le fits, List.set_eq_take_append_cons_drop, if_pos inside,
    List.append_assoc, List.singleton_append, List.length_singleton]

theorem store_eq_none {block bytes : List UInt8} {position : Nat}
    (outside : block.length < position + bytes.length) : store block position bytes = none :=
  if_neg (Nat.not_le.mpr outside)

theorem terminated_takeWhile (str rest : List UInt8) :
    Terminated (str ++ 0 :: rest) (str.takeWhile (· ≠ 0)) := by
  refine ⟨notMem_takeWhile_ne str, ?_⟩
  induction str with
  | nil => exact List.prefix_append [0] rest
  | cons c str ih =>
      by_cases ends : c = 0
      · subst ends
        exact List.prefix_append [0] (str ++ 0 :: rest)
      · rw [List.takeWhile_cons_of_pos (by simpa using ends), List.cons_append, List.cons_append]
        exact (List.prefix_cons_inj c).mpr ih

theorem takeWhile_of_noNul {chars : List UInt8} (noNul : 0 ∉ chars) :
    chars.takeWhile (· ≠ 0) = chars := by
  rw [List.takeWhile_eq_self_iff]
  intro c mem
  apply decide_eq_true
  rintro rfl
  exact noNul mem

/-- What bytes and a NUL make of a block that is long enough. -/
theorem store_of_lt (block : List UInt8) {bytes : List UInt8}
    (inside : bytes.length < block.length) :
    ∃ stored, store block 0 (bytes ++ [0]) = some stored ∧
      Terminated stored (bytes.takeWhile (· ≠ 0)) ∧ stored.length = block.length := by
  have fits : 0 + (bytes ++ [0]).length ≤ block.length := by
    rw [List.length_append, List.length_singleton]
    omega
  refine ⟨_, store_of_le fits, ?_, ?_⟩
  · rw [List.take_zero, List.nil_append, List.append_assoc, List.singleton_append]
    exact terminated_takeWhile bytes _
  · simp only [List.length_append, List.length_take, List.length_drop, List.length_singleton]
    omega

/-- What `strcpy` makes of a block that is long enough. -/
theorem strcpy_of_lt (block : List UInt8) {str : List UInt8} (noNul : 0 ∉ str)
    (inside : str.length < block.length) :
    ∃ copied, strcpy block str = some copied ∧ Terminated copied str ∧
      copied.length = block.length := by
  rcases store_of_lt block inside with ⟨copied, copies, copy, size⟩
  rw [takeWhile_of_noNul noNul] at copy
  exact ⟨copied, copies, copy, size⟩

theorem strcpy_eq_none {block str : List UInt8} (outside : block.length ≤ str.length) :
    strcpy block str = none := by
  apply store_eq_none
  rw [List.length_append, List.length_singleton]
  omega

/-- What `strncat` makes of a block that is long enough. -/
theorem strncat_of_lt {block chars str : List UInt8} (terminated : Terminated block chars)
    (noNul : 0 ∉ str) (numChars : Nat)
    (inside : chars.length + (str.take numChars).length < block.length) :
    ∃ appended, strncat block str numChars = some appended ∧
      Terminated appended (chars ++ str.take numChars) ∧ appended.length = block.length := by
  have begins : block.take chars.length = chars := by
    rcases terminated.exists_rest with ⟨rest, rfl⟩
    exact List.take_left
  have fits : chars.length + (str.take numChars ++ [0]).length ≤ block.length := by
    rw [List.length_append, List.length_singleton]
    omega
  rw [strncat, terminated.cStr_eq]
  refine ⟨_, store_of_le fits, ?_, ?_⟩
  · rw [begins, ← List.append_assoc, List.append_assoc, List.singleton_append]
    apply Terminated.of_append
    rw [List.mem_append, not_or]
    exact ⟨terminated.1, fun mem => noNul (List.mem_of_mem_take mem)⟩
  · simp only [List.length_append, List.length_take, List.length_drop, List.length_singleton] at *
    omega

theorem strncat_eq_none {block chars str : List UInt8} (terminated : Terminated block chars)
    {numChars : Nat} (outside : block.length ≤ chars.length + (str.take numChars).length) :
    strncat block str numChars = none := by
  rw [strncat, terminated.cStr_eq]
  apply store_eq_none
  rw [List.length_append, List.length_singleton]
  omega

end CBlock

/-- A string as its user sees it. -/
structure StringText where
  chars : List UInt8
  /-- What `Length` returns. -/
  length : Nat
  /-- Whether the string has a block of its own. -/
  onHeap : Bool

namespace StringText

/-- The text that `Set` leaves. -/
def stored (chars : List UInt8) : StringText where
  chars := chars
  length := chars.length
  onHeap := localStringSize ≤ chars.length

def deleted (text : StringText) : StringText := { text with chars := [], onHeap := false }

/-- Whether `Get` returns the literal. -/
def isLiteral (text : StringText) : Bool := !text.onHeap && text.chars.isEmpty

theorem isLiteral_inObject (chars : List UInt8) (length : Nat) :
    isLiteral ⟨chars, length, false⟩ = chars.isEmpty :=
  rfl

/-- What a pointer that is given to the string points at. -/
def pointee (text : StringText) : CharPtr → List UInt8
  | .elsewhere str => str.chars
  | .own index => text.chars.drop index

/-- The text that `Set` leaves; characters of its own have lost the first one in the object. -/
def replaced (text : StringText) (str : CharPtr) (length : Nat) : StringText :=
  match str with
  | .elsewhere str => stored (str.chars.take length)
  | .own index =>
      { chars := if index = 0 then [] else (text.chars.drop index).take length
        length := length
        onHeap := false }

/-- What `Set` reads is not in the block that it has freed. -/
def Lasts (text : StringText) (str : CharPtr) (length : Nat) : Prop :=
  match str with
  | .elsewhere _ => True
  | .own _ => text.onHeap = false ∨ length = 0

/-- Characters of the string's own are not appended within the object. -/
def Apart (text : StringText) (str : CharPtr) (numChars : Nat) : Prop :=
  match str with
  | .elsewhere _ => True
  | .own _ => numChars = 0 ∨ text.onHeap = true ∨ localStringSize ≤ text.length + numChars

theorem apart_of_or {text : StringText} {str : CharPtr} {numChars : Nat}
    (moves : numChars = 0 ∨ text.onHeap = true ∨ localStringSize ≤ text.length + numChars) :
    text.Apart str numChars := by
  cases str with
  | elsewhere str => trivial
  | own index => exact moves

/-- An empty string has no characters of its own to point at. -/
theorem length_pointee_own (text : StringText) (index : Nat) :
    (text.pointee (.own index)).length ≤ text.chars.length := by
  rw [pointee, List.length_drop]
  exact Nat.sub_le _ _

/-- More characters behind a text; a literal takes nothing of its length with it. -/
def appended (text : StringText) (more : List UInt8) : StringText :=
  if more = [] then text
  else if text.isLiteral then stored more
  else
    { chars := text.chars ++ more
      length := text.length + more.length
      onHeap := text.onHeap || localStringSize ≤ text.length + more.length }

/-- Appending so many characters does not take the count beyond 16 bits. -/
def HasRoom (text : StringText) (numChars : Nat) : Prop :=
  numChars = 0 ∨ text.isLiteral = true ∨ text.length + numChars < 2 ^ 16

/-- The number of characters there is room for, the NUL included. -/
def capacity (text : StringText) : Nat :=
  if text.onHeap then text.length + 1 else localStringSize

end StringText

namespace NString

open CBlock

/-- The text of a string. -/
inductive Shows : NString → StringText → Prop where
  | inHeap {block localString chars : List UInt8} {strLen : UInt16}
      (size : block.length = strLen.toNat + 1) (holds : Terminated block chars)
      (localSize : localString.length = localStringSize)
      (localEmpty : Terminated localString []) :
      Shows ⟨some block, localString, strLen⟩ ⟨chars, strLen.toNat, true⟩
  | inObject {localString chars : List UInt8} {strLen : UInt16}
      (localSize : localString.length = localStringSize) (holds : Terminated localString chars)
      (counted : chars.length ≤ strLen.toNat)
      (fits : chars ≠ [] → strLen.toNat < localStringSize) :
      Shows ⟨none, localString, strLen⟩ ⟨chars, strLen.toNat, false⟩

theorem toNat_ofNat {value : Nat} (small : value < 2 ^ 16) :
    (UInt16.ofNat value).toNat = value := by
  rw [UInt16.toNat_ofNat']
  exact Nat.mod_eq_of_lt small

theorem terminated_cleared {localString : List UInt8}
    (localSize : localString.length = localStringSize) : Terminated (localString.set 0 0) [] := by
  apply terminated_set_zero
  rw [localSize]
  decide

theorem isLocal_eq (this : NString) {chars : List UInt8}
    (holds : Terminated this.localString chars) : this.isLocal = !chars.isEmpty := by
  rw [isLocal, Bool.eq_iff_iff]
  simp only [decide_eq_true_eq, Bool.not_eq_true', List.isEmpty_eq_false_iff]
  exact not_congr holds.getD_zero

namespace Shows

variable {this : NString} {text : StringText}

theorem localSize (shows_ : Shows this text) : this.localString.length = localStringSize := by
  cases shows_ with
  | inHeap _ _ localSize _ => exact localSize
  | inObject localSize _ _ _ => exact localSize

theorem get_chars (shows_ : Shows this text) : this.get.chars = text.chars := by
  cases shows_ with
  | inHeap _ holds _ _ => exact holds.cStr_eq
  | inObject _ holds _ _ => exact holds.cStr_eq

theorem noNul (shows_ : Shows this text) : 0 ∉ text.chars := by
  rw [← shows_.get_chars]
  exact this.get.noNul

theorem length_eq (shows_ : Shows this text) : this.length.toNat = text.length := by
  cases shows_ <;> rfl

theorem length_lt (shows_ : Shows this text) : text.length < 2 ^ 16 := by
  rw [← shows_.length_eq]
  exact this.length.toNat_lt

theorem length_le (shows_ : Shows this text) : text.chars.length ≤ text.length := by
  cases shows_ with
  | inHeap size holds _ _ =>
      have shorter := holds.length_lt
      rw [size] at shorter
      exact Nat.le_of_lt_succ shorter
  | inObject _ _ counted _ => exact counted

theorem isEmpty_eq (shows_ : Shows this text) : this.isEmpty = text.chars.isEmpty := by
  cases shows_ with
  | @inHeap block localString chars strLen size holds localSize localEmpty =>
      have local_eq : (⟨some block, localString, strLen⟩ : NString).isLocal = false :=
        isLocal_eq ⟨some block, localString, strLen⟩ localEmpty
      rw [isEmpty, local_eq]
      simp only [Bool.not_false, Bool.and_true]
      rw [Bool.eq_iff_iff, decide_eq_true_eq, List.isEmpty_iff]
      exact holds.getD_zero
  | @inObject localString chars strLen localSize holds counted fits =>
      have local_eq : (⟨none, localString, strLen⟩ : NString).isLocal = !chars.isEmpty :=
        isLocal_eq ⟨none, localString, strLen⟩ holds
      rw [isEmpty, local_eq, Bool.not_not]

/-! ### Storing -/

theorem delete (shows_ : Shows this text) : Shows this.delete text.deleted := by
  have size : (this.localString.set 0 0).length = localStringSize := by
    rw [List.length_set, shows_.localSize]
  have deleted_eq : text.deleted = ⟨[], this.strLen.toNat, false⟩ := by
    rw [StringText.deleted, ← shows_.length_eq]
    rfl
  rw [deleted_eq]
  exact inObject size (terminated_cleared shows_.localSize) (Nat.zero_le _)
    fun nonempty => absurd rfl nonempty

end Shows

theorem shows_construct (heap : Nat → UInt8) : Shows (construct heap) (.stored []) := by
  have size : (malloc heap localStringSize).length = localStringSize :=
    length_malloc heap localStringSize
  apply Shows.inObject
  · rw [List.length_set, size]
  · exact terminated_cleared size
  · exact Nat.le_refl 0
  · exact fun nonempty => absurd rfl nonempty

section Storing

variable {safeCast : SafeCast} {this : NString} {str : CharPtr} {length : Nat} {strLen : UInt16}

/-- `Set` stores what may be read behind the pointer, up to the first NUL. -/
theorem shows_setRange (localSize : this.localString.length = localStringSize)
    (heap : Nat → UInt8) (casts : safeCast.cast length = some strLen)
    (readable : strLen.toNat ≤ (this.behind str).length) :
    ∃ after, this.setRange safeCast heap (some str) length = some after ∧
      Shows after ⟨((this.behind str).take strLen.toNat).takeWhile (· ≠ 0), strLen.toNat,
        localStringSize ≤ strLen.toNat⟩ := by
  have count : ((this.behind str).take strLen.toNat).length = strLen.toNat :=
    List.length_take_of_le readable
  simp only [setRange, casts, Option.bind_eq_bind, Option.bind_some,
    if_neg (Nat.not_lt.mpr readable)]
  by_cases long : localStringSize ≤ strLen.toNat
  · rcases store_of_lt (malloc heap (strLen.toNat + 1)) (by rw [count, length_malloc]; omega) with
      ⟨block, stores, holds, size⟩
    rw [length_malloc] at size
    rw [if_pos long, stores, Option.map_some, decide_eq_true long]
    refine ⟨_, rfl, Shows.inHeap size holds ?_ (terminated_cleared localSize)⟩
    rw [delete, List.length_set, localSize]
  · have cleared : this.delete.localString.length = localStringSize := by
      rw [delete, List.length_set, localSize]
    rcases store_of_lt this.delete.localString (by rw [count, cleared]; omega) with
      ⟨block, stores, holds, size⟩
    rw [if_neg long, stores, Option.map_some, decide_eq_false long]
    refine ⟨_, rfl, Shows.inObject (size.trans cleared) holds ?_ fun _ => Nat.lt_of_not_le long⟩
    exact ((List.takeWhile_prefix _).length_le).trans count.le

theorem setRange_eq_none (this : NString) (heap : Nat → UInt8)
    (casts : safeCast.cast length = some strLen)
    (outside : (this.behind str).length < strLen.toNat) :
    this.setRange safeCast heap (some str) length = none := by
  simp only [setRange, casts, Option.bind_eq_bind, Option.bind_some, if_pos outside]

/-- A call of `Set` that succeeds leaves a string that can be used. -/
theorem shows_of_set {text : StringText} (shows_ : Shows this text) {heap : Nat → UInt8}
    {str : Option CharPtr} {after : NString} (sets : this.set safeCast heap str = some after) :
    ∃ text, Shows after text := by
  cases str with
  | none =>
      rcases Option.some.inj sets with rfl
      exact ⟨_, shows_.delete⟩
  | some str =>
      rw [set] at sets
      cases casts : safeCast.cast (this.pointee str).chars.length with
      | none =>
          rw [setRange, casts] at sets
          contradiction
      | some strLen =>
          by_cases readable : strLen.toNat ≤ (this.behind str).length
          · rcases shows_setRange shows_.localSize heap casts readable with
              ⟨_, stores, shows_after⟩
            rcases Option.some.inj (sets.symm.trans stores) with rfl
            exact ⟨_, shows_after⟩
          · rw [this.setRange_eq_none heap casts (Nat.lt_of_not_le readable)] at sets
            contradiction

theorem setRange_elsewhere (safeCast : SafeCast)
    (localSize : this.localString.length = localStringSize) (heap : Nat → UInt8)
    {str : NulString} (within : length ≤ str.chars.length) (small : length < 2 ^ 16) :
    ∃ after, this.setRange safeCast heap (some (.elsewhere str)) length = some after ∧
      Shows after (.stored (str.chars.take length)) := by
  have count : (UInt16.ofNat length).toNat = length := toNat_ofNat small
  have readable : (UInt16.ofNat length).toNat ≤ (this.behind (.elsewhere str)).length := by
    rw [count, behind, List.length_append]
    omega
  rcases shows_setRange localSize heap (safeCast.keeps length small) readable with
    ⟨after, sets, shows_after⟩
  rw [count, behind, List.take_append_of_le_length within,
    takeWhile_of_noNul fun mem => str.noNul (List.mem_of_mem_take mem)] at shows_after
  refine ⟨after, sets, ?_⟩
  rw [StringText.stored, List.length_take_of_le within]
  exact shows_after

theorem set_elsewhere (safeCast : SafeCast)
    (localSize : this.localString.length = localStringSize) (heap : Nat → UInt8)
    {str : NulString} (small : str.chars.length < 2 ^ 16) :
    ∃ after, this.set safeCast heap (some (.elsewhere str)) = some after ∧
      Shows after (.stored str.chars) := by
  have sets := setRange_elsewhere safeCast localSize heap (Nat.le_refl str.chars.length) small
  rw [List.take_length] at sets
  exact sets

end Storing

theorem toNat_tlen {strLen : UInt16} {numChars : Nat} :
    (strLen + UInt16.ofNat numChars).toNat = (strLen.toNat + numChars) % 2 ^ 16 := by
  rw [UInt16.toNat_add, UInt16.toNat_ofNat', Nat.add_mod_mod]

namespace Shows

variable {this : NString} {text : StringText} {str : CharPtr}

theorem pointee_chars (shows_ : Shows this text) (str : CharPtr) :
    (this.pointee str).chars = text.pointee str := by
  cases str with
  | elsewhere str => rfl
  | own index =>
      change this.get.chars.drop index = text.chars.drop index
      rw [shows_.get_chars]

theorem chars_lt (shows_ : Shows this text) (notHeap : text.onHeap = false) :
    text.chars.length < localStringSize := by
  cases shows_ with
  | inHeap => contradiction
  | inObject localSize holds _ _ =>
      rw [← localSize]
      exact holds.length_lt

/-- Of the characters in the object `Delete` takes only the first one away. -/
theorem behind_own (shows_ : Shows this text) (notHeap : text.onHeap = false) {index length : Nat}
    (within : length ≤ (text.chars.drop index).length) :
    length ≤ (this.behind (.own index)).length ∧
      ((this.behind (.own index)).take length).takeWhile (· ≠ 0) =
        if index = 0 then [] else (text.chars.drop index).take length := by
  cases shows_ with
  | inHeap => contradiction
  | @inObject localString chars strLen localSize holds counted fits =>
      change length ≤ (chars.drop index).length at within
      simp only [behind]
      rw [isLocal_eq ⟨none, localString, strLen⟩ holds]
      have noNul := holds.1
      rcases holds.exists_rest with ⟨rest, rfl⟩
      cases chars with
      | nil =>
          rw [List.drop_nil, List.length_nil, Nat.le_zero] at within
          subst within
          simp
      | cons c chars =>
          cases index with
          | zero =>
              refine ⟨?_, ?_⟩
              · simp only [List.drop_zero, List.length_cons] at within
                simp [NString.delete]
                omega
              · cases length with
                | zero => rfl
                | succ length => simp [NString.delete]
          | succ index =>
              have noNulBehind : 0 ∉ (chars.drop index).take length := fun mem =>
                noNul (List.mem_cons_of_mem c (List.mem_of_mem_drop (List.mem_of_mem_take mem)))
              have later : (if (!(c :: chars).isEmpty) = true then
                  (NString.delete ⟨none, c :: chars ++ 0 :: rest, strLen⟩).localString.drop
                    (index + 1) else [0].drop (index + 1)) =
                  chars.drop index ++ (0 :: rest).drop (index - chars.length) :=
                List.drop_append
              rw [List.drop_succ_cons] at within
              rw [later, List.drop_succ_cons, List.take_append_of_le_length within,
                takeWhile_of_noNul noNulBehind, if_neg (Nat.succ_ne_zero index),
                List.length_append]
              exact ⟨Nat.le_add_right_of_le within, rfl⟩

/-- `Set` of so many characters, of the string's own as well. -/
theorem setRange (shows_ : Shows this text) (safeCast : SafeCast) (heap : Nat → UInt8)
    {length : Nat} (within : length ≤ (text.pointee str).length) (small : length < 2 ^ 16)
    (lasts : text.Lasts str length) :
    ∃ after, this.setRange safeCast heap (some str) length = some after ∧
      Shows after (text.replaced str length) := by
  cases str with
  | elsewhere str => exact setRange_elsewhere safeCast shows_.localSize heap within small
  | own index =>
      have count : (UInt16.ofNat length).toNat = length := toNat_ofNat small
      have read : length < localStringSize ∧ length ≤ (this.behind (.own index)).length ∧
          ((this.behind (.own index)).take length).takeWhile (· ≠ 0) =
            if index = 0 then [] else (text.chars.drop index).take length := by
        rcases lasts with notHeap | rfl
        · have short := shows_.chars_lt notHeap
          change length ≤ (text.chars.drop index).length at within
          rw [List.length_drop] at within
          exact ⟨by omega, shows_.behind_own notHeap (by rw [List.length_drop]; exact within)⟩
        · simp [localStringSize]
      have readable : (UInt16.ofNat length).toNat ≤ (this.behind (.own index)).length := by
        rw [count]
        exact read.2.1
      rcases shows_setRange shows_.localSize heap (safeCast.keeps length small) readable with
        ⟨after, sets, shows_after⟩
      rw [count, read.2.2, decide_eq_false (Nat.not_le.mpr read.1)] at shows_after
      exact ⟨after, sets, shows_after⟩

theorem setRange_eq_none (shows_ : Shows this text) (safeCast : SafeCast) (heap : Nat → UInt8)
    {length : Nat} (small : length < 2 ^ 16) (freed : ¬text.Lasts str length) :
    this.setRange safeCast heap (some str) length = none := by
  cases str with
  | elsewhere str => exact absurd trivial freed
  | own index =>
      rcases not_or.mp freed with ⟨onHeap, some_read⟩
      apply NString.setRange_eq_none this heap (safeCast.keeps length small)
      rw [toNat_ofNat small]
      cases shows_ with
      | inHeap => exact Nat.pos_of_ne_zero some_read
      | inObject => contradiction

/-- Another string is always taken over: its text is no longer than its `Length`. -/
theorem assign (shows_ : Shows this text) (safeCast : SafeCast) (heap : Nat → UInt8)
    {rhs : NString} {rhsText : StringText} (rhsShows : Shows rhs rhsText) :
    ∃ after, this.assign safeCast heap rhs = some after ∧
      Shows after (.stored rhsText.chars) := by
  have small : rhs.get.chars.length < 2 ^ 16 := by
    rw [rhsShows.get_chars]
    exact Nat.lt_of_le_of_lt rhsShows.length_le rhsShows.length_lt
  rw [← rhsShows.get_chars]
  exact set_elsewhere safeCast shows_.delete.localSize heap small

/-- Copying a string into a larger block and appending to it there. -/
theorem moveToHeap {block chars : List UInt8} (holds : Terminated block chars)
    (heap : Nat → UInt8) (strLen : UInt16) {str : NulString} {numChars : Nat}
    (fits : chars.length + (str.chars.take numChars).length ≤ strLen.toNat) :
    ∃ copied ptr, strcpy (malloc heap (strLen.toNat + 1)) (cStr block).chars = some copied ∧
      strncat copied str.chars numChars = some ptr ∧ ptr.length = strLen.toNat + 1 ∧
        Terminated ptr (chars ++ str.chars.take numChars) := by
  rw [holds.cStr_eq]
  have room : chars.length < (malloc heap (strLen.toNat + 1)).length := by
    rw [length_malloc]
    omega
  rcases strcpy_of_lt _ holds.1 room with ⟨copied, copies, copy, size⟩
  rw [length_malloc] at size
  rcases strncat_of_lt copy str.noNul numChars (by rw [size]; omega) with
    ⟨ptr, appends, appended, same⟩
  exact ⟨copied, ptr, copies, appends, same.trans size, appended⟩

theorem set (shows_ : Shows this text) (safeCast : SafeCast) (heap : Nat → UInt8)
    (small : (text.pointee str).length < 2 ^ 16)
    (lasts : text.Lasts str (text.pointee str).length) :
    ∃ after, this.set safeCast heap (some str) = some after ∧
      Shows after (text.replaced str (text.pointee str).length) := by
  rw [NString.set, shows_.pointee_chars]
  exact shows_.setRange safeCast heap (Nat.le_refl _) small lasts

theorem set_eq_none (shows_ : Shows this text) (safeCast : SafeCast) (heap : Nat → UInt8)
    (small : (text.pointee str).length < 2 ^ 16)
    (freed : ¬text.Lasts str (text.pointee str).length) :
    this.set safeCast heap (some str) = none := by
  rw [NString.set, shows_.pointee_chars]
  exact shows_.setRange_eq_none safeCast heap small freed

/-- `AppendRange` of so many characters, of the string's own as well. -/
theorem appendRange (shows_ : Shows this text) (safeCast : SafeCast) (heap : Nat → UInt8)
    {numChars : Nat} (within : numChars ≤ (text.pointee str).length) (small : numChars < 2 ^ 16)
    (fits : text.HasRoom numChars) (apart : text.Apart str numChars) :
    ∃ after, this.appendRange safeCast heap str numChars = some after ∧
      Shows after (text.appended ((text.pointee str).take numChars)) := by
  by_cases none_more : numChars = 0
  · subst none_more
    refine ⟨this, if_pos rfl, ?_⟩
    rw [List.take_zero, StringText.appended, if_pos rfl]
    exact shows_
  · have count : ((text.pointee str).take numChars).length = numChars :=
      List.length_take_of_le within
    have more : (text.pointee str).take numChars ≠ [] := by
      intro none_taken
      rw [none_taken] at count
      exact none_more count.symm
    have pointed := shows_.pointee_chars str
    simp only [NString.appendRange, if_neg none_more, safeCast.keeps numChars small,
      Option.bind_eq_bind, Option.bind_some, StringText.appended, if_neg more]
    rw [← pointed] at count ⊢
    cases shows_ with
    | @inHeap block localString chars strLen size holds localSize localEmpty =>
        have room : strLen.toNat + numChars < 2 ^ 16 := by
          rcases fits with zero | literal | room
          · contradiction
          · contradiction
          · exact room
        have tlen : (strLen + UInt16.ofNat numChars).toNat = strLen.toNat + numChars :=
          toNat_tlen.trans (Nat.mod_eq_of_lt room)
        have shorter := holds.length_lt
        rcases moveToHeap holds heap (strLen + UInt16.ofNat numChars)
            (by rw [tlen, count]; omega) with ⟨copied, ptr, copies, appends, size, appended⟩
        simp only [copies, appends, Option.bind_some]
        refine ⟨_, rfl, ?_⟩
        have text_eq := inHeap size appended localSize localEmpty
        rw [tlen] at text_eq
        rw [if_neg (by simp [StringText.isLiteral]), count]
        exact text_eq
    | @inObject localString chars strLen localSize holds counted localFits =>
        have local_eq : (⟨none, localString, strLen⟩ : NString).isLocal = !chars.isEmpty :=
          isLocal_eq ⟨none, localString, strLen⟩ holds
        rw [StringText.HasRoom, StringText.isLiteral_inObject] at fits
        rw [StringText.isLiteral_inObject]
        simp only [local_eq]
        by_cases empty : chars = []
        · subst empty
          cases str with
          | own index =>
              have empty := within.trans (StringText.length_pointee_own _ index)
              exact absurd (Nat.le_zero.mp empty) none_more
          | elsewhere str =>
              exact setRange_elsewhere safeCast localSize heap within small
        · have nonempty : chars.isEmpty = false := List.isEmpty_eq_false_iff.mpr empty
          have room : strLen.toNat + numChars < 2 ^ 16 := by
            rcases fits with zero | literal | room
            · contradiction
            · rw [nonempty] at literal
              contradiction
            · exact room
          have tlen : (strLen + UInt16.ofNat numChars).toNat = strLen.toNat + numChars :=
            toNat_tlen.trans (Nat.mod_eq_of_lt room)
          rw [nonempty, count]
          simp only [Bool.not_false, if_true, tlen, Bool.false_or, Bool.false_eq_true, if_false]
          by_cases long : localStringSize ≤ strLen.toNat + numChars
          · rcases moveToHeap holds heap (strLen + UInt16.ofNat numChars)
                (by rw [tlen, count]; omega) with ⟨copied, ptr, copies, appends, size, appended⟩
            rw [tlen] at copies
            simp only [if_pos long, copies, appends, Option.bind_some]
            refine ⟨_, rfl, ?_⟩
            rw [decide_eq_true long, ← tlen]
            exact inHeap size appended (List.length_set.trans localSize)
              (terminated_cleared localSize)
          · cases str with
            | own index =>
                rcases apart with zero | onHeap | moves
                · contradiction
                · contradiction
                · exact absurd moves long
            | elsewhere str =>
                change (str.chars.take numChars).length = numChars at count
                have inside :
                    chars.length + (str.chars.take numChars).length < localString.length := by
                  rw [count, localSize]
                  omega
                rcases strncat_of_lt holds str.noNul numChars inside with
                  ⟨block, appends, appended, size⟩
                simp only [if_neg long, strncatLocal, appends, Option.bind_some]
                refine ⟨_, rfl, ?_⟩
                rw [decide_eq_false long, ← tlen]
                apply inObject (size.trans localSize) appended
                · rw [List.length_append, count, tlen]
                  omega
                · rw [tlen]
                  exact fun _ => Nat.lt_of_not_le long

/-- A count beyond 16 bits makes the new block, or the object, too small for the text; and within
the object the string's own characters overlap with where they go. -/
theorem appendRange_eq_none (shows_ : Shows this text) (safeCast : SafeCast) (heap : Nat → UInt8)
    {numChars : Nat} (within : numChars ≤ (text.pointee str).length) (small : numChars < 2 ^ 16)
    (fails : ¬(text.HasRoom numChars ∧ text.Apart str numChars)) :
    this.appendRange safeCast heap str numChars = none := by
  have some_more : numChars ≠ 0 := by
    rintro rfl
    exact fails ⟨.inl rfl, StringText.apart_of_or (.inl rfl)⟩
  have count : ((text.pointee str).take numChars).length = numChars :=
    List.length_take_of_le within
  have pointed := shows_.pointee_chars str
  have length_lt := shows_.length_lt
  rw [NString.appendRange, if_neg some_more]
  simp only [safeCast.keeps numChars small, Option.bind_eq_bind, Option.bind_some]
  rw [← pointed] at count
  cases shows_ with
  | @inHeap block localString chars strLen size holds localSize localEmpty =>
      have exceeds : 2 ^ 16 ≤ strLen.toNat + numChars := by
        by_contra room
        refine fails ⟨.inr (.inr (Nat.lt_of_not_le room)), ?_⟩
        exact StringText.apart_of_or (.inr (.inl rfl))
      have tlen : (strLen + UInt16.ofNat numChars).toNat + 2 ^ 16 = strLen.toNat + numChars := by
        change strLen.toNat < 2 ^ 16 at length_lt
        rw [toNat_tlen]
        omega
      simp only
      rw [holds.cStr_eq]
      by_cases room : chars.length < (strLen + UInt16.ofNat numChars).toNat + 1
      · rcases strcpy_of_lt (malloc heap ((strLen + UInt16.ofNat numChars).toNat + 1)) holds.1
          (by rw [length_malloc]; exact room) with ⟨copied, copies, copy, size⟩
        have outside : copied.length ≤ chars.length +
            ((pointee ⟨some block, localString, strLen⟩ str).chars.take numChars).length := by
          change strLen.toNat < 2 ^ 16 at length_lt
          rw [size, length_malloc, count]
          omega
        rw [copies, Option.bind_some, strncat_eq_none copy outside, Option.bind_none]
      · rw [strcpy_eq_none (by rw [length_malloc]; exact Nat.le_of_not_lt room),
          Option.bind_none]
  | @inObject localString chars strLen localSize holds counted localFits =>
      have nonempty : chars.isEmpty = false := by
        rw [List.isEmpty_eq_false_iff]
        rintro rfl
        refine fails ⟨.inr (.inl rfl), ?_⟩
        cases str with
        | elsewhere str => trivial
        | own index =>
            have empty := within.trans (StringText.length_pointee_own _ index)
            exact .inl (Nat.le_zero.mp empty)
      have local_eq : (⟨none, localString, strLen⟩ : NString).isLocal = true := by
        rw [isLocal_eq ⟨none, localString, strLen⟩ holds, nonempty]
        rfl
      have short := localFits (List.isEmpty_eq_false_iff.mp nonempty)
      have bound : localStringSize = 14 := rfl
      have length_tlen := @toNat_tlen strLen numChars
      simp only [local_eq, if_true]
      by_cases moves : localStringSize ≤ (strLen + UInt16.ofNat numChars).toNat
      · have room : strLen.toNat + numChars < 2 ^ 16 := by omega
        have longer : localStringSize ≤ strLen.toNat + numChars := by omega
        exact absurd ⟨.inr (.inr room), StringText.apart_of_or (.inr (.inr longer))⟩ fails
      · rw [if_neg moves]
        cases str with
        | own index => rfl
        | elsewhere str =>
            have exceeds : 2 ^ 16 ≤ strLen.toNat + numChars := by
              by_contra room
              exact fails ⟨.inr (.inr (Nat.lt_of_not_le room)), trivial⟩
            have outside :
                localString.length ≤ chars.length + (str.chars.take numChars).length := by
              change (str.chars.take numChars).length = numChars at count
              rw [localSize, count]
              omega
            rw [strncatLocal, strncat_eq_none holds outside, Option.bind_none]

theorem append (shows_ : Shows this text) (safeCast : SafeCast) (heap : Nat → UInt8)
    (small : (text.pointee str).length < 2 ^ 16) (fits : text.HasRoom (text.pointee str).length)
    (apart : text.Apart str (text.pointee str).length) :
    ∃ after, this.append safeCast heap str = some after ∧
      Shows after (text.appended (text.pointee str)) := by
  have appends := shows_.appendRange safeCast heap (Nat.le_refl _) small fits apart
  rw [List.take_length] at appends
  rw [NString.append, shows_.pointee_chars, safeCast.keeps _ small, Option.bind_eq_bind,
    Option.bind_some, toNat_ofNat small]
  exact appends

theorem append_eq_none (shows_ : Shows this text) (safeCast : SafeCast) (heap : Nat → UInt8)
    (small : (text.pointee str).length < 2 ^ 16)
    (fails : ¬(text.HasRoom (text.pointee str).length ∧
      text.Apart str (text.pointee str).length)) : this.append safeCast heap str = none := by
  rw [NString.append, shows_.pointee_chars, safeCast.keeps _ small, Option.bind_eq_bind,
    Option.bind_some, toNat_ofNat small]
  exact shows_.appendRange_eq_none safeCast heap (Nat.le_refl _) small fails

end Shows

end NString

end SunPush
