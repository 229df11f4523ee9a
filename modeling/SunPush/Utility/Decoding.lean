import SunPush.Utility.ByteBuffer

/-!
# Decoding bytes that may be anything

`operator>>` with the read position as the 32-bit `size_t` that it is, and with
`none` for a read of a byte outside the storage.  The counts that drive the loops
are taken from the data.  A read behind the end returns zero and still moves the
position: a string ends there, and a container that starts there is empty.
-/

namespace SunPush

/-- A buffer whose storage lies in memory, of which the lowest 64 KiB hold no object. -/
structure StoredBuffer extends ByteBuffer where
  addressable : storage.length + 2 ^ 16 ≤ 2 ^ 32

/-- A scalar or a string. -/
def Ty.Leaf : Ty → Prop
  | bool | fixed _ | string => True
  | _ => False

/-- A string, or a container of scalars or strings. -/
def Ty.Flat : Ty → Prop
  | string => True
  | vector T | list T => T.Leaf
  | map K V => K.Leaf ∧ V.Leaf
  | _ => False

/-- A string of at most as many bytes as are unread, a container of at most `MAX_ARR_SIZE`. -/
def Ty.Bounded (unread : Nat) : (T : Ty) → T.Val → Prop
  | string, value => value.length ≤ unread
  | vector _, v | list _, v => v.length ≤ maxArrSize
  | map _ _, m => m.length ≤ maxArrSize
  | bool, _ | fixed _, _ => True

namespace ByteBuffer

/-! ## Reading at a `size_t` -/

/-- `read<T>(size_t pos)` -/
def loadAt (T : Fixed) (pos : Nat) (b : ByteBuffer) : Option T.Val :=
  if b.storage.length < (pos + T.sizeof) % 2 ^ 32 then some 0
  else if pos + T.sizeof ≤ b.storage.length then
    some (BitVec.ofNat _ (LittleEndian.decode ((b.storage.drop pos).take T.sizeof)))
  else none

/-- `read<T>()` -/
def loadFixed (T : Fixed) (b : ByteBuffer) : Option (T.Val × ByteBuffer) := do
  let r ← b.loadAt T b.rpos
  return (r, { b with rpos := (b.rpos + T.sizeof) % 2 ^ 32 })

/-- `operator>>(uint32&)` -/
def loadUInt32 (b : ByteBuffer) : Option (Nat × ByteBuffer) := do
  let (value, b) ← b.loadFixed .uint32
  return (value.toNat, b)

/-- `read<char>()` -/
def loadChar (b : ByteBuffer) : Option (UInt8 × ByteBuffer) := do
  let (c, b) ← b.loadFixed .int8
  return (UInt8.ofBitVec c, b)

def loadBool (b : ByteBuffer) : Option (Bool × ByteBuffer) := do
  let (c, b) ← b.loadFixed .int8
  return (decide (0 < c.toInt), b)

/-- The loop of `operator>>(std::string&)`. -/
def loadChars : List UInt8 → Nat → ByteBuffer → Option (List UInt8 × ByteBuffer)
  | value, 0, b => some (value, b)
  | value, len + 1, b => do
      let (c, b) ← b.loadChar
      if c = 0 then return (value, b) else loadChars (value ++ [c]) len b

def loadString (b : ByteBuffer) : Option (List UInt8 × ByteBuffer) := do
  let (len, b) ← b.loadUInt32
  loadChars [] len b

/-- The loop of a container. -/
def loadRounds {α : Type} (body : List α → ByteBuffer → Option (List α × ByteBuffer)) :
    Nat → List α → ByteBuffer → Option (List α × ByteBuffer)
  | 0, v, b => some (v, b)
  | vsize + 1, v, b => do
      let (v, b) ← body v b
      loadRounds body vsize v b

def loadAll {α : Type} (body : List α → ByteBuffer → Option (List α × ByteBuffer))
    (b : ByteBuffer) : Option (List α × ByteBuffer) := do
  let (vsize, b) ← b.loadUInt32
  if maxArrSize < vsize then return ([], b) else loadRounds body vsize [] b

/-- The body of the loop of a vector or a list. -/
def loadElement {α : Type} (load : ByteBuffer → Option (α × ByteBuffer)) (v : List α)
    (b : ByteBuffer) : Option (List α × ByteBuffer) := do
  let (t, b) ← load b
  return (v ++ [t], b)

/-- The body of the loop of a map. -/
def loadEntry {α β : Type} (less : α → α → Bool)
    (loadKey : ByteBuffer → Option (α × ByteBuffer))
    (loadValue : ByteBuffer → Option (β × ByteBuffer)) (m : List (α × β)) (b : ByteBuffer) :
    Option (List (α × β) × ByteBuffer) := do
  let (k, b) ← loadKey b
  let (v, b) ← loadValue b
  return (mapInsert less m (k, v), b)

/-- `operator>>` -/
def load : (T : Ty) → ByteBuffer → Option (T.Val × ByteBuffer)
  | .bool => loadBool
  | .fixed T => loadFixed T
  | .string => loadString
  | .vector T => loadAll (loadElement (load T))
  | .list T => loadAll (loadElement (load T))
  | .map K V => loadAll (loadEntry K.less (load K) (load V))

/-! ## How far a reader gets -/

def unread (b : ByteBuffer) : Nat := b.storage.length - b.rpos

/-- The position has moved on, at most so many bytes behind where it was and the storage ends. -/
structure Advances (b after : ByteBuffer) (most : Nat) : Prop where
  storage_eq : after.storage = b.storage
  forwards : b.rpos ≤ after.rpos
  bounded : after.rpos ≤ max b.rpos b.storage.length + most

/-- Below the limit of `size_t` the loading reader stays within the storage and does what the other
one does; that moves on and returns what it should. -/
def Decodes {α : Type} (load : ByteBuffer → Option (α × ByteBuffer))
    (read : ByteBuffer → α × ByteBuffer) (most unread : Nat) (good : α → Prop) : Prop :=
  ∀ b : ByteBuffer, max b.rpos b.storage.length + most < 2 ^ 32 → b.unread ≤ unread →
    load b = some (read b) ∧ b.Advances (read b).2 most ∧ good (read b).1

namespace Advances

variable {b between after : ByteBuffer} {first rest most : Nat}

theorem trans (here : b.Advances between first) (there : between.Advances after rest) :
    b.Advances after (first + rest) := by
  have bounded := there.bounded
  have reached := here.bounded
  rw [here.storage_eq] at bounded
  refine ⟨there.storage_eq.trans here.storage_eq, Nat.le_trans here.forwards there.forwards, ?_⟩
  omega

theorem mono (moves : b.Advances after first) (le : first ≤ most) : b.Advances after most :=
  ⟨moves.storage_eq, moves.forwards, Nat.le_trans moves.bounded (Nat.add_le_add_left le _)⟩

theorem unread_le (moves : b.Advances after most) : after.unread ≤ b.unread := by
  have forwards := moves.forwards
  rw [unread, unread, moves.storage_eq]
  omega

theorem room (moves : b.Advances after first)
    (below : max b.rpos b.storage.length + (first + rest) < 2 ^ 32) :
    max after.rpos after.storage.length + rest < 2 ^ 32 := by
  have bounded := moves.bounded
  rw [moves.storage_eq]
  omega

end Advances

namespace Decodes

variable {α β : Type} {load : ByteBuffer → Option (α × ByteBuffer)}
  {read : ByteBuffer → α × ByteBuffer} {most more unread : Nat} {good : α → Prop}

theorem mono (decodes : Decodes load read most unread good) (le : most ≤ more) :
    Decodes load read more unread good := by
  intro b below few
  rcases decodes b (by omega) few with ⟨same, moves, holds⟩
  exact ⟨same, moves.mono le, holds⟩

theorem bind {load' : α → ByteBuffer → Option (β × ByteBuffer)}
    {read' : α → ByteBuffer → β × ByteBuffer} {good' : β → Prop}
    (first : Decodes load read most unread good)
    (rest : ∀ value, good value → Decodes (load' value) (read' value) more unread good') :
    Decodes (fun b => load b >>= fun result => load' result.1 result.2)
      (fun b => read' (read b).1 (read b).2) (most + more) unread good' := by
  intro b below few
  rcases first b (by omega) few with ⟨same, moves, holds⟩
  rcases rest _ holds (read b).2 (moves.room below) (Nat.le_trans moves.unread_le few) with
    ⟨same', moves', holds'⟩
  refine ⟨?_, moves.trans moves', holds'⟩
  simp only [same]
  exact same'

theorem map {good' : β → Prop} (decodes : Decodes load read most unread good) (change : α → β)
    (holds : ∀ value, good value → good' (change value)) :
    Decodes (fun b => load b >>= fun result => some (change result.1, result.2))
      (fun b => (change (read b).1, (read b).2)) most unread good' := by
  intro b below few
  rcases decodes b below few with ⟨same, moves, good⟩
  refine ⟨?_, moves, holds _ good⟩
  simp only [same]
  rfl

end Decodes

/-! ## Scalars and strings -/

variable {limit : Nat}

theorem loadFixed_decodes (T : Fixed) :
    Decodes (loadFixed T) (readFixed T) T.sizeof limit fun _ => True := by
  intro b below _
  have whole : (b.rpos + T.sizeof) % 2 ^ 32 = b.rpos + T.sizeof := Nat.mod_eq_of_lt (by omega)
  have loads : b.loadAt T b.rpos = some (b.readAt T b.rpos) := by
    rw [loadAt, readAt, whole]
    by_cases behind : b.storage.length < b.rpos + T.sizeof
    · rw [if_pos behind, if_pos behind]
    · rw [if_neg behind, if_neg behind, if_pos (Nat.le_of_not_lt behind)]
  refine ⟨?_, ⟨rfl, Nat.le_add_right _ _, ?_⟩, trivial⟩
  · rw [loadFixed, loads, whole]
    rfl
  · exact Nat.add_le_add_right (Nat.le_max_left _ _) _

theorem loadUInt32_decodes : Decodes loadUInt32 readUInt32 4 limit fun _ => True :=
  (loadFixed_decodes .uint32).map BitVec.toNat fun _ _ => trivial

theorem loadChar_decodes : Decodes loadChar readChar 1 limit fun _ => True :=
  (loadFixed_decodes .int8).map UInt8.ofBitVec fun _ _ => trivial

theorem loadBool_decodes : Decodes loadBool readBool 1 limit fun _ => True :=
  (loadFixed_decodes .int8).map (fun c => decide (0 < c.toInt)) fun _ _ => trivial

/-- Behind the end every read returns zero. -/
theorem readAt_behind {T : Fixed} {b : ByteBuffer}
    (behind : b.storage.length < b.rpos + T.sizeof) : b.readAt T b.rpos = 0 := by
  rw [readAt, if_pos behind]

/-- The loop of a string stops one byte behind the end at the latest. -/
theorem loadChars_eq (value : List UInt8) (len : Nat) (b : ByteBuffer)
    (below : max b.rpos b.storage.length + 1 < 2 ^ 32) :
    loadChars value len b = some (readChars value len b) ∧
      b.Advances (readChars value len b).2 1 ∧
      (readChars value len b).1.length ≤ value.length + b.unread := by
  induction len generalizing value b with
  | zero =>
      refine ⟨rfl, ⟨rfl, Nat.le_refl _, ?_⟩, Nat.le_add_right _ _⟩
      exact Nat.le_trans (Nat.le_max_left _ _) (Nat.le_add_right _ _)
  | succ len ih =>
      rcases loadChar_decodes b below (Nat.le_refl _) with ⟨same, moves, -⟩
      have moved : (readChar b).2.rpos = b.rpos + 1 := rfl
      have storage : (readChar b).2.storage = b.storage := rfl
      rw [loadChars, same, readChars_succ rfl, Option.bind_eq_bind, Option.bind_some]
      by_cases nul : (readChar b).1 = 0
      · simp only [if_pos nul]
        exact ⟨rfl, moves, Nat.le_add_right _ _⟩
      · -- a character that is no NUL lies within the storage
        have inside : b.rpos + 1 ≤ b.storage.length := by
          by_contra behind
          apply nul
          change UInt8.ofBitVec (b.readAt .int8 b.rpos) = 0
          rw [readAt_behind (Nat.lt_of_not_le behind)]
          rfl
        have room : max (readChar b).2.rpos (readChar b).2.storage.length + 1 < 2 ^ 32 := by
          rw [moved, storage]
          omega
        rcases ih (value ++ [(readChar b).1]) (readChar b).2 room with ⟨same', moves', short⟩
        simp only [if_neg nul]
        refine ⟨same', ⟨moves'.storage_eq, ?_, ?_⟩, ?_⟩
        · exact Nat.le_trans moves.forwards moves'.forwards
        · have bounded := moves'.bounded
          rw [moved, storage] at bounded
          omega
        · rw [unread, moved, storage, List.length_append, List.length_singleton] at short
          rw [unread]
          omega

theorem readUInt32_behind {b : ByteBuffer} (behind : b.storage.length < b.rpos + 4) :
    (readUInt32 b).1 = 0 := by
  change (b.readAt .uint32 b.rpos).toNat = 0
  rw [@readAt_behind .uint32 b behind]
  rfl

theorem loadString_decodes :
    Decodes loadString readString 4 limit fun value => value.length ≤ limit := by
  intro b below few
  rcases (@loadUInt32_decodes limit) b below few with ⟨same, moves, -⟩
  have moved : (readUInt32 b).2.rpos = b.rpos + 4 := rfl
  have storage : (readUInt32 b).2.storage = b.storage := rfl
  have loads : loadString b = loadChars [] (readUInt32 b).1 (readUInt32 b).2 := by
    rw [loadString, same]
    rfl
  have reads : readString b = readChars [] (readUInt32 b).1 (readUInt32 b).2 := rfl
  rw [loads, reads]
  by_cases behind : b.storage.length < b.rpos + 4
  · rw [readUInt32_behind behind]
    exact ⟨rfl, moves, Nat.zero_le _⟩
  · have room : max (readUInt32 b).2.rpos (readUInt32 b).2.storage.length + 1 < 2 ^ 32 := by
      rw [moved, storage]
      omega
    rcases loadChars_eq [] (readUInt32 b).1 (readUInt32 b).2 room with ⟨same', moves', short⟩
    have bounded := moves'.bounded
    have fewer := moves.unread_le
    rw [moved, storage] at bounded
    rw [List.length_nil, Nat.zero_add] at short
    refine ⟨same', ⟨moves'.storage_eq, Nat.le_trans moves.forwards moves'.forwards, ?_⟩, ?_⟩
    · omega
    · omega

theorem load_leaf_decodes {T : Ty} (leaf : T.Leaf) :
    Decodes (load T) (read T) 8 limit (T.Every (Ty.Bounded limit)) := by
  cases T with
  | bool => exact loadBool_decodes.mono (by omega)
  | fixed T =>
      apply (loadFixed_decodes T).mono
      cases T <;> decide
  | string => exact loadString_decodes.mono (by omega)
  | vector T | list T => exact absurd leaf id
  | map K V => exact absurd leaf id

/-! ## Containers -/

section Containers

variable {α β : Type} {most : Nat} {good : α → Prop}

/-- A round adds at most one element, and the elements are as they should be. -/
def Grows (good : α → Prop) (v v' : List α) : Prop :=
  v'.length ≤ v.length + 1 ∧ EachIn good v'

theorem loadRounds_decodes {body : List α → ByteBuffer → Option (List α × ByteBuffer)}
    {body' : List α → ByteBuffer → List α × ByteBuffer}
    (each : ∀ v, EachIn good v → Decodes (body v) (body' v) most limit (Grows good v))
    (vsize : Nat) {v : List α} (start : EachIn good v) :
    Decodes (loadRounds body vsize v) (Device.iterate body' vsize v) (vsize * most) limit
      fun v' => v'.length ≤ v.length + vsize ∧ EachIn good v' := by
  induction vsize generalizing v with
  | zero =>
      intro b _ _
      refine ⟨rfl, ⟨rfl, Nat.le_refl _, ?_⟩, Nat.le_refl _, start⟩
      exact Nat.le_trans (Nat.le_max_left _ _) (Nat.le_add_right _ _)
  | succ vsize ih =>
      rw [Nat.succ_mul, Nat.add_comm (vsize * most)]
      refine @Decodes.bind _ _ _ _ most (vsize * most) limit _ (loadRounds body vsize)
        (Device.iterate body' vsize) _ (each v start) ?_
      rintro v' ⟨longer, good'⟩ b below few
      rcases ih good' b below few with ⟨same, moves, length, holds⟩
      exact ⟨same, moves, by omega, holds⟩

/-- A container whose number lies in the storage ends at most one pass behind it, and any other is
empty. -/
theorem loadAll_eq {body : List α → ByteBuffer → Option (List α × ByteBuffer)}
    {body' : List α → ByteBuffer → List α × ByteBuffer} (small : most ≤ 16) {b : ByteBuffer}
    (addressable : b.storage.length + 2 ^ 16 ≤ 2 ^ 32) (below : b.rpos + 8 ≤ 2 ^ 32)
    (each : ∀ v, EachIn good v → Decodes (body v) (body' v) most b.unread (Grows good v)) :
    loadAll body b = some (readAll body' b) ∧ b.Advances (readAll body' b).2 (2 ^ 14) ∧
      (readAll body' b).1.length ≤ maxArrSize ∧ EachIn good (readAll body' b).1 := by
  rcases (@loadUInt32_decodes b.unread) b (by omega) (Nat.le_refl _) with ⟨same, moves, -⟩
  have moved : (readUInt32 b).2.rpos = b.rpos + 4 := rfl
  have storage : (readUInt32 b).2.storage = b.storage := rfl
  have empty : EachIn good [] := fun t t_mem => absurd t_mem List.not_mem_nil
  have loads : loadAll body b = if maxArrSize < (readUInt32 b).1 then some ([], (readUInt32 b).2)
      else loadRounds body (readUInt32 b).1 [] (readUInt32 b).2 := by
    rw [loadAll, same]
    rfl
  have reads : readAll body' b = if maxArrSize < (readUInt32 b).1 then ([], (readUInt32 b).2)
      else Device.iterate body' (readUInt32 b).1 [] (readUInt32 b).2 := rfl
  rw [loads, reads]
  by_cases rejected : maxArrSize < (readUInt32 b).1
  · rw [if_pos rejected, if_pos rejected]
    exact ⟨rfl, moves.mono (by omega), Nat.zero_le _, empty⟩
  · rw [if_neg rejected, if_neg rejected]
    by_cases behind : b.storage.length < b.rpos + 4
    · rw [readUInt32_behind behind]
      exact ⟨rfl, moves.mono (by omega), Nat.zero_le _, empty⟩
    · have pass : (readUInt32 b).1 * most ≤ maxArrSize * 16 :=
        Nat.mul_le_mul (Nat.le_of_not_lt rejected) small
      simp only [maxArrSize] at pass rejected ⊢
      obtain ⟨same', moves', length, holds⟩ := loadRounds_decodes each (readUInt32 b).1 empty
        (readUInt32 b).2 (by rw [moved, storage]; omega) moves.unread_le
      have bounded := moves'.bounded
      rw [moved, storage] at bounded
      rw [List.length_nil, Nat.zero_add] at length
      have forwards := Nat.le_trans moves.forwards moves'.forwards
      refine ⟨same', ⟨moves'.storage_eq, forwards, ?_⟩, ?_, holds⟩
      · omega
      · omega

theorem loadElement_decodes {load : ByteBuffer → Option (α × ByteBuffer)}
    {read : ByteBuffer → α × ByteBuffer} (decodes : Decodes load read most limit good)
    {v : List α} (each : EachIn good v) :
    Decodes (loadElement load v) (pushBack read v) most limit (Grows good v) := by
  apply decodes.map (fun t => v ++ [t])
  intro t holds
  refine ⟨Nat.le_of_eq (List.length_append ..), fun t' t'_mem => ?_⟩
  rcases List.mem_append.mp t'_mem with old | new
  · exact each t' old
  · rw [List.mem_singleton.mp new]
    exact holds

theorem length_mapInsert_le (less : α → α → Bool) (m : List (α × β)) (entry : α × β) :
    (mapInsert less m entry).length ≤ m.length + 1 := by
  induction m with
  | nil => exact Nat.le_refl _
  | cons first m ih =>
      rw [mapInsert]
      split
      · exact Nat.le_refl _
      · split
        · exact Nat.succ_le_succ ih
        · exact Nat.le_succ _

theorem eachIn_mapInsert {condition : α × β → Prop} (less : α → α → Bool) {m : List (α × β)}
    {entry : α × β} (each : EachIn condition m) (holds : condition entry) :
    EachIn condition (mapInsert less m entry) := by
  induction m with
  | nil => exact fun other other_mem => List.mem_singleton.mp other_mem ▸ holds
  | cons first m ih =>
      have rest : EachIn condition m := fun other other_mem =>
        each other (List.mem_cons_of_mem first other_mem)
      rw [mapInsert]
      split
      · exact List.forall_mem_cons.mpr ⟨holds, each⟩
      · split
        · exact List.forall_mem_cons.mpr ⟨each first List.mem_cons_self, ih rest⟩
        · exact each

theorem loadEntry_decodes {loadKey : ByteBuffer → Option (α × ByteBuffer)}
    {readKey : ByteBuffer → α × ByteBuffer} {loadValue : ByteBuffer → Option (β × ByteBuffer)}
    {readValue : ByteBuffer → β × ByteBuffer} {good' : β → Prop} (less : α → α → Bool)
    (key : Decodes loadKey readKey most limit good)
    (value : Decodes loadValue readValue most limit good') {m : List (α × β)}
    (each : EachIn (fun entry => good entry.1 ∧ good' entry.2) m) :
    Decodes (loadEntry less loadKey loadValue m) (insertEntry less readKey readValue m)
      (most + most) limit (Grows (fun entry => good entry.1 ∧ good' entry.2) m) := by
  refine @Decodes.bind _ _ _ _ most most limit _
    (fun k b => loadValue b >>= fun v => some (mapInsert less m (k, v.1), v.2))
    (fun k b => (mapInsert less m (k, (readValue b).1), (readValue b).2)) _ key ?_
  intro k goodKey
  apply value.map (fun v => mapInsert less m (k, v))
  intro v goodValue
  exact ⟨length_mapInsert_le less m (k, v), eachIn_mapInsert less each ⟨goodKey, goodValue⟩⟩

end Containers

/-! ## Values -/

/-- Whatever the storage holds, a value is decoded with no byte read from outside of it.  The read
position moves forwards and at most 16 KiB behind the end, strings have at most as many bytes as
were unread, and containers at most `MAX_ARR_SIZE` elements. -/
theorem load_flat (b : StoredBuffer) (below : b.rpos + 8 ≤ 2 ^ 32) {T : Ty} (flat : T.Flat) :
    load T b.toByteBuffer = some (read T b.toByteBuffer) ∧
      b.Advances (read T b.toByteBuffer).2 (2 ^ 14) ∧
      T.Every (Ty.Bounded b.unread) (read T b.toByteBuffer).1 := by
  have addressable := b.addressable
  cases T with
  | bool | fixed T => exact absurd flat id
  | string =>
      rcases loadString_decodes b.toByteBuffer (by omega) (Nat.le_refl _) with ⟨same, moves, short⟩
      exact ⟨same, moves.mono (by omega), short⟩
  | vector T | list T =>
      obtain ⟨same, moves, short, each⟩ := loadAll_eq (by omega) addressable below
        fun v => loadElement_decodes (load_leaf_decodes flat)
      exact ⟨same, moves, short, each⟩
  | map K V =>
      rcases flat with ⟨key, value⟩
      obtain ⟨same, moves, short, each⟩ := loadAll_eq (by omega) addressable below
        fun m => loadEntry_decodes K.less (load_leaf_decodes key) (load_leaf_decodes value)
      exact ⟨same, moves, short, each⟩

/-- One character behind the largest length there is. -/
def lyingBuffer : StoredBuffer := ⟨⟨0, 5, [0xff, 0xff, 0xff, 0xff, 0x41]⟩, by decide⟩

theorem load_flat_lyingBuffer :
    load .string lyingBuffer.toByteBuffer = some (read .string lyingBuffer.toByteBuffer) ∧
      lyingBuffer.Advances (read .string lyingBuffer.toByteBuffer).2 (2 ^ 14) ∧
      Ty.string.Every (Ty.Bounded 5) (read .string lyingBuffer.toByteBuffer).1 :=
  @load_flat lyingBuffer (by decide) .string trivial

end ByteBuffer

end SunPush
