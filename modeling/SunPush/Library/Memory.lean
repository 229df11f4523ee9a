import Mathlib.Algebra.Ring.Nat
import Mathlib.Data.List.Basic
import Mathlib.Data.List.GetD
import Mathlib.Tactic.Common

/-!
# Byte memory and little-endian integers

A memory is a total map from integer offsets to bytes, so a copy that runs past
the end of an array is still described.  The file gives block copies, block
reads, what a copy changes and leaves alone, and the little-endian encoding of
fixed-width unsigned integers.
-/

/-- Bytes at every offset from some base address. -/
abbrev Memory : Type := Int → UInt8

namespace Memory

/-- The memory in which every byte is zero. -/
def zero : Memory := fun _ => 0

instance : Inhabited Memory := ⟨zero⟩

/-- Copy `count` bytes of `source` to `offset`. -/
def copy (memory : Memory) (offset : Int) (source : Nat → UInt8) (count : Nat) : Memory :=
  fun address =>
    if offset ≤ address ∧ address < offset + count then source (address - offset).toNat
    else memory address

/-- Store the bytes of a list from `offset` on. -/
def write (memory : Memory) (offset : Int) (bytes : List UInt8) : Memory :=
  memory.copy offset (fun i => bytes.getD i 0) bytes.length

/-- The `count` bytes from `offset` on. -/
def read (memory : Memory) (offset : Int) (count : Nat) : List UInt8 :=
  (List.range count).map fun i : Nat => memory (offset + i)

@[simp]
theorem length_read (memory : Memory) (offset : Int) (count : Nat) :
    (memory.read offset count).length = count := by
  simp [read]

@[simp]
theorem read_zero_count (memory : Memory) (offset : Int) : memory.read offset 0 = [] := by
  simp [read]

theorem getElem_read {memory : Memory} {offset : Int} {count i : Nat}
    (within : i < (memory.read offset count).length) :
    (memory.read offset count)[i] = memory (offset + i) := by
  simp [read]

/-- A block splits into the blocks of its first and of its remaining bytes. -/
theorem read_add (memory : Memory) (offset : Int) (first rest : Nat) :
    memory.read offset (first + rest) =
      memory.read offset first ++ memory.read (offset + first) rest := by
  simp [read, List.range_add, Int.add_assoc]

theorem read_succ (memory : Memory) (offset : Int) (count : Nat) :
    memory.read offset (count + 1) = memory offset :: memory.read (offset + 1) count := by
  rw [Nat.add_comm, read_add]
  simp [read]

/-- Blocks agree when the memories agree on every byte of the block. -/
theorem read_congr {left right : Memory} {offset : Int} {count : Nat}
    (agree : ∀ i : Nat, i < count → left (offset + i) = right (offset + i)) :
    left.read offset count = right.read offset count := by
  simp only [read]
  apply List.map_congr_left
  intro i i_mem
  exact agree i (List.mem_range.mp i_mem)

theorem copy_inside {memory : Memory} {offset : Int} {source : Nat → UInt8} {count i : Nat}
    (inside : i < count) : memory.copy offset source count (offset + i) = source i := by
  have bounds : offset ≤ offset + (i : Int) ∧ offset + (i : Int) < offset + count := by omega
  simp only [copy, if_pos bounds]
  congr 1
  omega

theorem copy_outside {memory : Memory} {offset address : Int} {source : Nat → UInt8}
    {count : Nat} (outside : address < offset ∨ offset + count ≤ address) :
    memory.copy offset source count address = memory address := by
  have bounds : ¬(offset ≤ address ∧ address < offset + count) := by omega
  simp only [copy, if_neg bounds]

/-- Reading back exactly the block that was copied. -/
theorem read_copy_self (memory : Memory) (offset : Int) (source : Nat → UInt8) (count : Nat) :
    (memory.copy offset source count).read offset count = (List.range count).map source := by
  simp only [read]
  apply List.map_congr_left
  intro i i_mem
  exact copy_inside (List.mem_range.mp i_mem)

/-- A block apart from the copied one keeps its bytes. -/
theorem read_copy_of_disjoint {memory : Memory} {offset start : Int} {source : Nat → UInt8}
    {count length : Nat} (disjoint : start + length ≤ offset ∨ offset + count ≤ start) :
    (memory.copy offset source count).read start length = memory.read start length := by
  apply read_congr
  intro i i_lt
  apply copy_outside
  omega

/-- Reading back the bytes of a list. -/
@[simp]
theorem read_write_self (memory : Memory) (offset : Int) (bytes : List UInt8) :
    (memory.write offset bytes).read offset bytes.length = bytes := by
  rw [write, read_copy_self]
  apply List.ext_getElem
  · simp
  · intro i i_lt _
    simp only [List.length_map, List.length_range] at i_lt
    simp [List.getD_eq_getElem?_getD, List.getElem?_eq_getElem i_lt]

/-- A block that is written is copied from where it was read. -/
theorem write_read (destination memory : Memory) (start offset : Int) (length : Nat) :
    destination.write start (memory.read offset length) =
      destination.copy start (fun i => memory (offset + i)) length := by
  funext address
  simp only [write, length_read, copy]
  split
  · have within : (address - start).toNat < (memory.read offset length).length := by
      rw [length_read]
      omega
    rw [List.getD_eq_getElem _ _ within, getElem_read within]
  · rfl

/-- The first bytes of a block are a shorter block. -/
theorem eq_read_of_prefix {memory : Memory} {offset : Int} {count : Nat} {bytes : List UInt8}
    (first : bytes <+: memory.read offset count) : bytes = memory.read offset bytes.length := by
  have bounded := first.length_le
  rw [length_read] at bounded
  rcases Nat.exists_eq_add_of_le bounded with ⟨rest, rfl⟩
  rw [read_add] at first
  apply List.IsPrefix.eq_of_length
  · apply List.prefix_of_prefix_length_le first (List.prefix_append _ _)
    rw [length_read]
  · rw [length_read]

theorem write_inside {memory : Memory} {offset : Int} {bytes : List UInt8} {i : Nat}
    (inside : i < bytes.length) : memory.write offset bytes (offset + i) = bytes[i] := by
  rw [write, copy_inside inside]
  simp [List.getD_eq_getElem?_getD, List.getElem?_eq_getElem inside]

theorem write_outside {memory : Memory} {offset address : Int} {bytes : List UInt8}
    (outside : address < offset ∨ offset + bytes.length ≤ address) :
    memory.write offset bytes address = memory address :=
  copy_outside outside

/-- Storing a list is storing its first part and then the rest behind it. -/
theorem write_append (memory : Memory) (offset : Int) (first rest : List UInt8) :
    memory.write offset (first ++ rest) =
      (memory.write offset first).write (offset + first.length) rest := by
  funext address
  by_cases within : offset ≤ address ∧ address < offset + (first ++ rest).length
  · obtain ⟨i, rfl⟩ : ∃ i : Nat, address = offset + i := ⟨(address - offset).toNat, by omega⟩
    have i_lt : i < (first ++ rest).length := by omega
    rw [write_inside i_lt]
    rw [List.length_append] at i_lt
    by_cases inFirst : i < first.length
    · have before : (offset : Int) + i < offset + first.length := by omega
      rw [write_outside (.inl before), write_inside inFirst, List.getElem_append_left inFirst]
    · rcases Nat.exists_eq_add_of_le (Nat.le_of_not_lt inFirst) with ⟨k, rfl⟩
      have k_lt : k < rest.length := by omega
      have position : offset + ((first.length + k : Nat) : Int) =
          offset + first.length + (k : Nat) := by omega
      rw [position, write_inside k_lt, List.getElem_append_right (Nat.le_add_right _ _)]
      simp
  · rw [List.length_append] at within
    have outside : address < offset ∨ offset + first.length ≤ address := by omega
    rw [write_outside (by rw [List.length_append]; omega), write_outside (by omega),
      write_outside (by omega)]

@[simp]
theorem write_nil (memory : Memory) (offset : Int) : memory.write offset [] = memory := by
  funext address
  apply write_outside
  rw [List.length_nil]
  omega

/-- Storing a list is storing its first byte and then the others. -/
theorem write_cons (memory : Memory) (offset : Int) (byte : UInt8) (bytes : List UInt8) :
    memory.write offset (byte :: bytes) =
      (memory.write offset [byte]).write (offset + 1) bytes :=
  write_append memory offset [byte] bytes

/-- Memories that agree on a block agree on the longer one once the same bytes are stored right
behind it. -/
theorem read_write_behind {left right : Memory} {offset : Int} {count : Nat}
    (same : left.read offset count = right.read offset count) (bytes : List UInt8) :
    (left.write (offset + count) bytes).read offset (count + bytes.length) =
      (right.write (offset + count) bytes).read offset (count + bytes.length) := by
  have before (memory : Memory) : (memory.write (offset + count) bytes).read offset count =
      memory.read offset count :=
    read_copy_of_disjoint (.inl (Int.le_refl _))
  rw [read_add, read_add, read_write_self, read_write_self, before, before, same]

end Memory

namespace LittleEndian

/-- The `width` low bytes of a natural number, least significant first. -/
def encode : (width : Nat) → Nat → List UInt8
  | 0, _ => []
  | width + 1, value => UInt8.ofNat value :: encode width (value / 256)

/-- The number a byte list stands for, least significant byte first. -/
def decode : List UInt8 → Nat
  | [] => 0
  | byte :: bytes => byte.toNat + 256 * decode bytes

@[simp]
theorem length_encode (width value : Nat) : (encode width value).length = width := by
  induction width generalizing value with
  | zero => rfl
  | succ width ih => simp [encode, ih]

theorem decode_encode (width value : Nat) :
    decode (encode width value) = value % 256 ^ width := by
  induction width generalizing value with
  | zero => simp [encode, decode, Nat.mod_one]
  | succ width ih =>
      have byte : (UInt8.ofNat value).toNat = value % 256 := by simp
      rw [encode, decode, ih, byte, Nat.pow_succ, Nat.mul_comm (256 ^ width) 256, Nat.mod_mul]

theorem encode_decode (bytes : List UInt8) : encode bytes.length (decode bytes) = bytes := by
  induction bytes with
  | nil => rfl
  | cons byte bytes ih =>
      have bounded := byte.toNat_lt
      have low : UInt8.ofNat (byte.toNat + 256 * decode bytes) = byte := by
        apply UInt8.toNat_inj.mp
        simp only [UInt8.toNat_ofNat']
        omega
      have high : (byte.toNat + 256 * decode bytes) / 256 = decode bytes := by omega
      rw [List.length_cons, decode, encode, low, high, ih]

theorem decode_lt (bytes : List UInt8) : decode bytes < 256 ^ bytes.length := by
  induction bytes with
  | nil => simp [decode]
  | cons byte bytes ih =>
      have bounded := byte.toNat_lt
      rw [List.length_cons, decode, Nat.pow_succ]
      omega

theorem or_shiftLeft {low shift : Nat} (low_lt : low < 2 ^ shift) (high : Nat) :
    low ||| high <<< shift = low + 2 ^ shift * high := by
  rw [Nat.or_comm, ← Nat.shiftLeft_add_eq_or_of_lt low_lt, Nat.shiftLeft_eq, Nat.add_comm,
    Nat.mul_comm]

/-- The number four bytes stand for, as it is put together with shifts. -/
theorem or_eq_decode (first second third fourth : UInt8) :
    first.toNat ||| second.toNat <<< 8 ||| third.toNat <<< 16 ||| fourth.toNat <<< 24 =
      decode [first, second, third, fourth] := by
  have first_lt := first.toNat_lt
  have second_lt := second.toNat_lt
  have third_lt := third.toNat_lt
  rw [@or_shiftLeft first.toNat 8 first_lt,
    @or_shiftLeft (first.toNat + 2 ^ 8 * second.toNat) 16 (by omega),
    @or_shiftLeft (first.toNat + 2 ^ 8 * second.toNat + 2 ^ 16 * third.toNat) 24 (by omega)]
  simp only [decode]
  omega

/-- No bit of the four bytes is lost in an integer of at least 32 bits. -/
theorem ofNat_or {width : Nat} (wide : 32 ≤ width) (first second third fourth : UInt8) :
    BitVec.ofNat width first.toNat ||| BitVec.ofNat width second.toNat <<< 8 |||
        BitVec.ofNat width third.toNat <<< 16 ||| BitVec.ofNat width fourth.toNat <<< 24 =
      BitVec.ofNat width (decode [first, second, third, fourth]) := by
  have large : 2 ^ 32 ≤ 2 ^ width := Nat.pow_le_pow_right (by omega) wide
  have first_lt := first.toNat_lt
  have second_lt := second.toNat_lt
  have third_lt := third.toNat_lt
  have fourth_lt := fourth.toNat_lt
  have joined := or_eq_decode first second third fourth
  have whole_lt : decode [first, second, third, fourth] < 2 ^ 32 := by
    have bound := decode_lt [first, second, third, fourth]
    have width_eq : 256 ^ [first, second, third, fourth].length = 2 ^ 32 :=
      (Nat.pow_mul 2 8 4).symm
    rwa [width_eq] at bound
  have small (value : Nat) (value_lt : value < 2 ^ 32) : value % 2 ^ width = value :=
    Nat.mod_eq_of_lt (by omega)
  have shifted (byte shift : Nat) (byte_lt : byte < 2 ^ 8) (shift_le : shift ≤ 24) :
      byte <<< shift < 2 ^ 32 := by
    rw [Nat.shiftLeft_eq]
    have bound : byte * 2 ^ shift < 2 ^ 8 * 2 ^ shift :=
      Nat.mul_lt_mul_of_pos_right byte_lt (Nat.two_pow_pos shift)
    rw [← Nat.pow_add] at bound
    exact Nat.lt_of_lt_of_le bound (Nat.pow_le_pow_right (by omega) (by omega))
  apply BitVec.eq_of_toNat_eq
  simp only [BitVec.toNat_or, BitVec.toNat_shiftLeft, BitVec.toNat_ofNat]
  rw [small first.toNat (by omega), small second.toNat (by omega), small third.toNat (by omega),
    small fourth.toNat (by omega), small _ (shifted _ 8 second_lt (by omega)),
    small _ (shifted _ 16 third_lt (by omega)), small _ (shifted _ 24 fourth_lt (by omega)),
    small _ whole_lt, joined]

end LittleEndian
