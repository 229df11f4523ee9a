import SunPush.Library.Integer
import SunPush.Utility.Decoding

/-!
# Dumping a byte buffer

`hexlike` prints the storage sixteen bytes to a line, and behind each line the
same bytes as characters.  For these it takes the read position back by sixteen,
as reading them would have moved it forwards; but they are read at a position of
their own.
-/

namespace SunPush

open CInteger

/-- The variables of `hexlike` and what it has printed. -/
structure HexDump where
  buffer : ByteBuffer
  j : DWord
  k : DWord
  printed : String

namespace ByteBuffer

/-- `%X` -/
def hexadecimal (value : Nat) : String :=
  String.ofList ((Nat.toDigits 16 value).map Char.toUpper)

/-- `%0X` and a blank, behind a zero for what is smaller than `0x0F`. -/
def hexByte (before : String) (value : BitVec 8) : String :=
  if value.toNat < 0x0F then before ++ "0" ++ hexadecimal value.toNat ++ " "
  else before ++ hexadecimal value.toNat ++ " "

/-- One round of the loop of `hexlike`. -/
def hexRound (dump : HexDump) (i : DWord) : HexDump :=
  let byte := dump.buffer.readAt .uint8 i.toNat
  if i = dump.j * 8 ∧ i ≠ dump.k * 16 then
    { dump with
      printed := dump.printed ++ hexByte "| " byte
      j := dump.j + 1 }
  else if i = dump.k * 16 then
    -- the read pointer is moved 16 places back
    let buffer := { dump.buffer with rpos := (dump.buffer.rpos + 2 ^ 32 - 16) % 2 ^ 32 }
    let characters := (List.range 16).map fun x =>
      Char.ofNat (buffer.readAt .uint8 (i - 16 + BitVec.ofNat 32 x).toNat).toNat
    { buffer := buffer
      printed := dump.printed ++ " | " ++ String.ofList characters ++ hexByte "\n" byte
      k := dump.k + 1
      j := dump.j + 1 }
  else { dump with printed := dump.printed ++ hexByte "" byte }

/-- The text that is printed, and the buffer behind it. -/
def hexlike (b : ByteBuffer) : String × ByteBuffer :=
  let start : HexDump :=
    { buffer := b
      j := 1
      k := 1
      printed := "STORAGE_SIZE: " ++ toString b.storage.length ++ "\n" }
  let dump := (List.range b.storage.length).foldl (fun dump i => hexRound dump (BitVec.ofNat 32 i))
    start
  (dump.printed ++ "\n", dump.buffer)

/-- So many rounds of the loop have gone back by sixteen for each line that is behind them. -/
structure Dumped (b : ByteBuffer) (rounds : Nat) (dump : HexDump) : Prop where
  storage_eq : dump.buffer.storage = b.storage
  wpos_eq : dump.buffer.wpos = b.wpos
  k_eq : dump.k.toNat = (rounds - 1) / 16 + 1
  stays : rounds ≤ 16 → dump.buffer.rpos = b.rpos
  wraps : 16 < rounds → dump.buffer.rpos < 2 ^ 32
  rpos_mod : (dump.buffer.rpos + 16 * ((rounds - 1) / 16)) % 2 ^ 32 = b.rpos % 2 ^ 32

theorem hexRound_of_ne {dump : HexDump} {i : DWord} (within : i ≠ dump.k * 16) :
    (hexRound dump i).buffer = dump.buffer ∧ (hexRound dump i).k = dump.k := by
  rw [hexRound]
  by_cases eighth : i = dump.j * 8 ∧ i ≠ dump.k * 16
  · simp only [if_pos eighth, and_self]
  · simp only [if_neg eighth, if_neg within, and_self]

/-- A round that begins a line goes back by sixteen. -/
theorem hexRound_of_eq {dump : HexDump} {i : DWord} (begins : i = dump.k * 16) :
    (hexRound dump i).buffer =
        { dump.buffer with rpos := (dump.buffer.rpos + 2 ^ 32 - 16) % 2 ^ 32 } ∧
      (hexRound dump i).k = dump.k + 1 := by
  rw [hexRound]
  have lines : ¬(i = dump.j * 8 ∧ i ≠ dump.k * 16) := fun eighth => eighth.2 begins
  simp only [if_neg lines, if_pos begins, and_self]

theorem Dumped.hexRound {b : ByteBuffer} {rounds : Nat} {dump : HexDump}
    (dumped : b.Dumped rounds dump) (addressable : rounds + 2 ^ 16 ≤ 2 ^ 32) :
    b.Dumped (rounds + 1) (ByteBuffer.hexRound dump (BitVec.ofNat 32 rounds)) := by
  have k_eq := dumped.k_eq
  have rpos_mod := dumped.rpos_mod
  have index : (BitVec.ofNat 32 rounds).toNat = rounds := by
    rw [BitVec.toNat_ofNat]
    omega
  have line : (dump.k * 16).toNat = dump.k.toNat * 16 := by
    have width : (16 : DWord).toNat = 16 := rfl
    rw [BitVec.toNat_mul, width]
    exact Nat.mod_eq_of_lt (by omega)
  by_cases begins : BitVec.ofNat 32 rounds = dump.k * 16
  · rcases hexRound_of_eq begins with ⟨buffer, next⟩
    have position := congrArg BitVec.toNat begins
    rw [index, line, k_eq] at position
    constructor
    case storage_eq =>
      rw [buffer]
      exact dumped.storage_eq
    case wpos_eq =>
      rw [buffer]
      exact dumped.wpos_eq
    case k_eq =>
      rw [next]
      bv_omega
    case stays =>
      intro few
      omega
    case wraps =>
      intro _
      rw [buffer]
      exact Nat.mod_lt _ (by decide)
    case rpos_mod =>
      rw [buffer]
      simp only
      omega
  · rcases hexRound_of_ne begins with ⟨buffer, same⟩
    have position : rounds ≠ dump.k.toNat * 16 := by
      rw [← line, ← index]
      exact fun equal => begins (BitVec.eq_of_toNat_eq equal)
    rw [k_eq] at position
    have lines : rounds / 16 = (rounds - 1) / 16 := by omega
    constructor
    case storage_eq => rw [buffer, dumped.storage_eq]
    case wpos_eq => rw [buffer, dumped.wpos_eq]
    case k_eq => rw [same, k_eq, Nat.add_sub_cancel, lines]
    case stays =>
      intro few
      rw [buffer]
      exact dumped.stays (by omega)
    case wraps =>
      intro many
      rw [buffer]
      exact dumped.wraps (by omega)
    case rpos_mod => rw [buffer, Nat.add_sub_cancel, lines, rpos_mod]

/-- What `hexlike` leaves behind. -/
theorem dumped_hexlike (b : StoredBuffer) :
    ∃ dump, b.toByteBuffer.hexlike.2 = dump.buffer ∧
      b.toByteBuffer.Dumped b.storage.length dump := by
  refine ⟨_, rfl, ?_⟩
  have loop : ∀ rounds ≤ b.storage.length, ∀ start, b.toByteBuffer.Dumped 0 start →
      b.toByteBuffer.Dumped rounds
        ((List.range rounds).foldl (fun dump i => hexRound dump (BitVec.ofNat 32 i)) start) := by
    intro rounds
    induction rounds with
    | zero => exact fun _ start dumped => dumped
    | succ rounds ih =>
        intro within start dumped
        rw [List.range_succ, List.foldl_append]
        have addressable := b.addressable
        exact (ih (by omega) start dumped).hexRound (by omega)
  apply loop _ le_rfl
  constructor
  case storage_eq => rfl
  case wpos_eq => rfl
  case k_eq => rfl
  case stays => exact fun _ => rfl
  case wraps => exact fun many => absurd many (by decide)
  case rpos_mod => rfl

/-- A dump leaves the buffer as it is exactly when there is no more than one line of it. -/
theorem hexlike_undisturbed_iff (b : StoredBuffer) :
    b.toByteBuffer.hexlike.2 = b.toByteBuffer ↔ b.storage.length ≤ 16 := by
  rcases dumped_hexlike b with ⟨dump, dump_eq, dumped⟩
  rw [dump_eq]
  constructor
  · intro same
    by_contra long
    have wraps := dumped.wraps (by omega)
    have rpos_mod := dumped.rpos_mod
    have addressable := b.addressable
    rw [same] at wraps rpos_mod
    omega
  · intro short
    have stays := dumped.stays short
    have storage_eq := dumped.storage_eq
    have wpos_eq := dumped.wpos_eq
    cases read : dump.buffer
    rw [read] at stays storage_eq wpos_eq
    simp only at stays storage_eq wpos_eq
    rw [stays, storage_eq, wpos_eq]

/-- A buffer of seventeen bytes of which sixteen have been read: they are to be read again. -/
theorem hexlike_rereads :
    (ByteBuffer.hexlike ⟨16, 17, List.replicate 17 0⟩).2 ≠ ⟨16, 17, List.replicate 17 0⟩ := by
  intro same
  have rpos := congrArg ByteBuffer.rpos same
  exact absurd rpos (by decide +kernel)

end ByteBuffer

end SunPush
