import SunPush.PushServer.Server
import Mathlib.Data.List.TakeWhile

/-!
# The name of a login

`Handler_C2S_USER_AUTH_SYN` gives `strncpy_s` a destination of `ID_MAX_LEN = 20`
elements and the size of `m_szAccountName`, 32, as the count.  The source is
`szUserID` with its 20 bytes, so the search for the terminator runs on into
`szPasswd`.
-/

namespace SunPush

/-- The characters of a field up to its first NUL. -/
def cString (field : List UInt8) : List UInt8 :=
  field.takeWhile fun character => character ≠ 0

theorem cString_isPrefix (field : List UInt8) : cString field <+: field :=
  List.takeWhile_prefix _

theorem length_cString_lt {field : List UInt8} (terminated : 0 ∈ field) :
    (cString field).length < field.length := by
  apply lt_of_le_of_ne (cString_isPrefix field).length_le
  intro whole
  have same : cString field = field := (cString_isPrefix field).eq_of_length whole
  rw [← same] at terminated
  have nonzero := List.mem_takeWhile_imp terminated
  simp at nonzero

theorem cString_append_of_mem {field : List UInt8} (terminated : 0 ∈ field) (rest : List UInt8) :
    cString (field ++ rest) = cString field := by
  have shorter := length_cString_lt terminated
  rw [cString] at shorter ⊢
  rw [List.takeWhile_append, if_neg (Nat.ne_of_lt shorter), cString]

theorem cString_of_notMem {field : List UInt8} (unterminated : 0 ∉ field) :
    cString field = field := by
  apply List.takeWhile_eq_self_iff.mpr
  intro character character_mem
  simp only [decide_eq_true_eq]
  rintro rfl
  exact unterminated character_mem

theorem le_length_cString_append {field : List UInt8} (unterminated : 0 ∉ field)
    (rest : List UInt8) : field.length ≤ (cString (field ++ rest)).length := by
  have whole := cString_of_notMem unterminated
  rw [cString] at whole
  rw [cString, List.takeWhile_append, whole, if_pos rfl, List.length_append]
  omega

theorem strnlen_eq (memory : Memory) (offset : Int) (count : Nat) :
    strnlen (fun i => memory (offset + i)) count =
      (cString (memory.read offset count)).length := by
  simp only [strnlen, cString, Memory.read, List.takeWhile_map, List.length_map]
  rfl

namespace Server

/-- `szUserID` of the message. -/
def userID (msg : Memory) : List UInt8 :=
  msg.read 2 20

/-- `m_szAccountName` after the handler. -/
def storedName (server : Server) (user : Nat) (msg : Memory) : Memory :=
  ((server.handlerC2SUserAuthSyn user msg 46).1.info user).accountName

/-- The login is accepted: `strncpy_s` has not called the invalid-parameter handler, and the name is
that of `szUserID`, with its terminator and whatever `szPasswd` is. -/
structure AcceptsLogin (server : Server) (user : Nat) (msg : Memory) : Prop where
  completes : server.invalidParameter = false →
    (server.handlerC2SUserAuthSyn user msg 46).1.invalidParameter = false
  stored : cString (userID msg) ++ [0] <+: (server.storedName user msg).read 0 32
  independent : ∀ other, userID other = userID msg →
    server.storedName user other = server.storedName user msg

theorem storedName_eq (server : Server) (user : Nat) (msg : Memory) :
    server.storedName user msg =
      (strncpyS (server.info user).accountName 20 (fun i => msg (2 + i)) 32).1 := by
  simp [storedName, handlerC2SUserAuthSyn, info, UserInfoManager.modify]

theorem invalidParameter_eq (server : Server) (user : Nat) (msg : Memory) :
    (server.handlerC2SUserAuthSyn user msg 46).1.invalidParameter =
      (server.invalidParameter ||
        (strncpyS (server.info user).accountName 20 (fun i => msg (2 + i)) 32).2) := by
  simp [handlerC2SUserAuthSyn]

/-- The bytes `strncpy_s` searches for a NUL: the whole of `szUserID` and the first twelve bytes of
`szPasswd`. -/
theorem searched (msg : Memory) : msg.read 2 32 = userID msg ++ msg.read 22 12 :=
  Memory.read_add msg 2 20 12

/-- A user id with a terminator is copied up to and with it. -/
theorem strncpyS_of_terminated {msg : Memory} (terminated : 0 ∈ userID msg)
    (destination : Memory) :
    strncpyS destination 20 (fun i => msg (2 + i)) 32 =
      ((destination.write 0 (cString (userID msg))).write (cString (userID msg)).length [0],
        false) := by
  have length : strnlen (fun i => msg (2 + i)) 32 = (cString (userID msg)).length := by
    rw [strnlen_eq, searched, cString_append_of_mem terminated]
  have shorter : (cString (userID msg)).length < 20 := by
    have bound := length_cString_lt terminated
    simpa only [userID, Memory.length_read] using bound
  have copied : destination.write 0 (cString (userID msg)) =
      destination.copy 0 (fun i => msg (2 + i)) (cString (userID msg)).length := by
    rw [← Memory.write_read, ← Memory.eq_read_of_prefix (cString_isPrefix (userID msg))]
  simp only [strncpyS, length, if_pos shorter, copied]

theorem strncpyS_of_unterminated {msg : Memory} (unterminated : 0 ∉ userID msg)
    (destination : Memory) :
    strncpyS destination 20 (fun i => msg (2 + i)) 32 = (destination.write 0 [0], true) := by
  have long : ¬strnlen (fun i => msg (2 + i)) 32 < 20 := by
    rw [strnlen_eq, searched, not_lt]
    have bound := le_length_cString_append unterminated (msg.read 22 12)
    simpa only [userID, Memory.length_read] using bound
  simp only [strncpyS, if_neg long]

/-- The stored name does not depend on what the record or the password held. -/
theorem acceptsLogin_of_terminated (server : Server) (user : Nat) {msg : Memory}
    (terminated : 0 ∈ userID msg) : server.AcceptsLogin user msg where
  completes := by
    intro running
    rw [invalidParameter_eq, running, strncpyS_of_terminated terminated]
    rfl
  stored := by
    have shorter : (cString (userID msg)).length < 20 := by
      have bound := length_cString_lt terminated
      simpa only [userID, Memory.length_read] using bound
    obtain ⟨rest, split⟩ : ∃ rest, 32 = (cString (userID msg)).length + 1 + rest :=
      ⟨31 - (cString (userID msg)).length, by omega⟩
    have terminator (memory : Memory) (offset : Int) :
        (memory.write offset [0]).read offset 1 = [0] := Memory.read_write_self memory offset [0]
    rw [storedName_eq, strncpyS_of_terminated terminated, split, Memory.read_add, Memory.read_add]
    dsimp only
    rw [Int.zero_add, terminator, Memory.write, Memory.read_copy_of_disjoint (.inl (by omega)),
      Memory.read_write_self]
    exact List.prefix_append _ _
  independent := by
    intro other same
    have other_terminated : 0 ∈ userID other := same ▸ terminated
    rw [storedName_eq, storedName_eq, strncpyS_of_terminated terminated,
      strncpyS_of_terminated other_terminated, same]

theorem not_acceptsLogin_of_unterminated (server : Server) (user : Nat) {msg : Memory}
    (unterminated : 0 ∉ userID msg) : ¬server.AcceptsLogin user msg := by
  intro accepts
  have first : msg 2 ≠ 0 := by
    rintro nul
    apply unterminated
    rw [userID, Memory.read_succ, nul]
    exact List.mem_cons_self
  -- the name has become empty, and the user id is not
  have emptied : (server.storedName user msg).read 0 32 =
      0 :: (server.storedName user msg).read 1 31 := by
    rw [Memory.read_succ, storedName_eq, strncpyS_of_unterminated unterminated]
    rfl
  have stored := accepts.stored
  rw [cString_of_notMem unterminated, emptied, userID, Memory.read_succ, List.cons_append,
    List.cons_prefix_cons] at stored
  exact first stored.1

/-- The handler accepts a login exactly when the user id has a terminator. -/
theorem acceptsLogin_iff (server : Server) (user : Nat) (msg : Memory) :
    server.AcceptsLogin user msg ↔ 0 ∈ userID msg := by
  constructor
  · intro accepts
    by_contra unterminated
    exact not_acceptsLogin_of_unterminated server user unterminated accepts
  · exact acceptsLogin_of_terminated server user

/-- Twenty characters and no terminator end the process. -/
theorem not_acceptsLogin_full_name :
    ∃ server : Server, server.invalidParameter = false ∧
      (server.handlerC2SUserAuthSyn 0 (fun _ => 65) 46).1.invalidParameter = true ∧
        ¬server.AcceptsLogin 0 fun _ => 65 := by
  have unterminated : 0 ∉ userID fun _ => 65 := by decide
  refine ⟨⟨.empty, 0, .null, .zero, false⟩, rfl, ?_, ?_⟩
  · rw [invalidParameter_eq, strncpyS_of_unterminated unterminated]
    rfl
  · exact not_acceptsLogin_of_unterminated _ 0 unterminated

end Server

end SunPush
