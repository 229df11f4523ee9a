import SunPush.Utility.ByteBuffer

/-!
# Where the readers of the byte buffer stop

The reader of a string leaves its loop at the first NUL, and the reader of a
container returns behind the size when the size is above `MAX_ARR_SIZE`.  Where
a reader stops is compared with where the writer of the same value stopped: for
the values of a sequence, and inside containers for every value their loops read.
-/

namespace SunPush

namespace ByteBuffer

/-- Behind each value of the sequence the reader stands where the writer stood. -/
def InStep (values : List (Σ T : Ty, T.Val)) : Prop :=
  ∀ count ≤ values.length,
    (reads ((values.take count).map Sigma.fst) (writes values init)).2.rpos =
      (writes (values.take count) init).wpos

/-- The buffer in which the loop of a container comes to its element `i`. -/
def elementReader {α : Type} (body : List α → ByteBuffer → List α × ByteBuffer)
    (b : ByteBuffer) (i : Nat) : ByteBuffer :=
  (Device.iterate body i [] (readUInt32 b).2).2

/-- The buffer in which a container of so many elements is written up to the given ones. -/
def elementWriter {α : Type} (write : α → ByteBuffer → ByteBuffer) (w : ByteBuffer) (size : Nat)
    (earlier : List α) : ByteBuffer :=
  earlier.foldl (fun b i => write i b) (w.writeUInt32 size)

/-- The condition for each element of a container, in the buffers it is read and written in. -/
def AtElements {α : Type} (condition : α → ByteBuffer → ByteBuffer → Prop)
    (body : List α → ByteBuffer → List α × ByteBuffer) (write : α → ByteBuffer → ByteBuffer)
    (v : List α) (b w : ByteBuffer) : Prop :=
  ∀ i t, v[i]? = some t →
    condition t (elementReader body b i) (elementWriter write w v.length (v.take i))

/-- The reader that starts in `b` stops where the writer that started in `w` stopped, and so does
the reader of every value inside. -/
def InStepWithin : (T : Ty) → T.Val → (b w : ByteBuffer) → Prop
  | .bool, value, b, w => (read .bool b).2.rpos = (write .bool value w).wpos
  | .fixed T, value, b, w => (read (.fixed T) b).2.rpos = (write (.fixed T) value w).wpos
  | .string, value, b, w => (read .string b).2.rpos = (write .string value w).wpos
  | .vector T, v, b, w =>
      (read (.vector T) b).2.rpos = (write (.vector T) v w).wpos ∧
        AtElements (InStepWithin T) (pushBack (read T)) (write T) v b w
  | .list T, v, b, w =>
      (read (.list T) b).2.rpos = (write (.list T) v w).wpos ∧
        AtElements (InStepWithin T) (pushBack (read T)) (write T) v b w
  | .map K V, m, b, w =>
      (read (.map K V) b).2.rpos = (write (.map K V) m w).wpos ∧
        AtElements
          (fun entry b w => InStepWithin K entry.1 b w ∧
            InStepWithin V entry.2 (read K b).2 (write K entry.1 w))
          (insertEntry K.less (read K) (read V))
          (fun entry w => write V entry.2 (write K entry.1 w)) m b w

/-- In step behind each value of the sequence and inside each of them. -/
def InStepThroughout (values : List (Σ T : Ty, T.Val)) : Prop :=
  InStep values ∧ ∀ i value, values[i]? = some value →
    InStepWithin value.1 value.2
      (reads ((values.take i).map Sigma.fst) (writes values init)).2 (writes (values.take i) init)

end ByteBuffer

/-- No reader cuts the value or one inside it. -/
def Ty.Whole (T : Ty) (value : T.Val) : Prop :=
  T.Every Ty.Plain value ∧ T.Every Ty.Counted value

/-- No reader cuts a value inside this one. -/
def Ty.WholeInside : (T : Ty) → T.Val → Prop
  | vector T, v => EachIn T.Whole v
  | list T, v => EachIn T.Whole v
  | map K V, m => EachIn (fun entry => K.Whole entry.1 ∧ V.Whole entry.2) m
  | bool, _ => True
  | fixed _, _ => True
  | string, _ => True

namespace ByteBuffer

/-! ## Where a string ends -/

theorem readChars_rpos_le (value : List UInt8) (len : Nat) (b : ByteBuffer) :
    (readChars value len b).2.rpos ≤ b.rpos + len := by
  induction len generalizing value b with
  | zero => exact Nat.le_refl _
  | succ len ih =>
      have moved : (readChar b).2.rpos = b.rpos + 1 := rfl
      rw [readChars_succ rfl]
      by_cases nul : (readChar b).1 = 0
      · rw [if_pos nul, moved]
        omega
      · rw [if_neg nul]
        have bound := ih (value ++ [(readChar b).1]) (readChar b).2
        omega

/-- A string whose reader stops where its code ends has no NUL and a length that was counted. -/
theorem whole_of_readString {value : List UInt8} {b : ByteBuffer}
    (ahead : device.Ahead (stringCode value) b)
    (ends : (readString b).2.rpos = b.rpos + (stringCode value).length) :
    EachIn (fun c : UInt8 => c ≠ 0) value ∧ value.length + 1 < 2 ^ 32 := by
  rcases readUInt32_recovers (value.length + 1) b ahead.left with ⟨len, passed⟩
  have start : (readUInt32 b).2.rpos = b.rpos + 4 := rfl
  have stops : (readString b).2 = (readChars [] (readUInt32 b).1 (readUInt32 b).2).2 := rfl
  rw [stops, len, length_stringCode] at ends
  have counted : value.length + 1 < 2 ^ 32 := by
    have bound := readChars_rpos_le [] ((value.length + 1) % 2 ^ 32) (readUInt32 b).2
    omega
  refine ⟨?_, counted⟩
  rw [Nat.mod_eq_of_lt counted] at ends
  intro c c_mem zero
  rcases List.eq_append_cons_of_mem c_mem with ⟨before, after, split, first⟩
  subst zero
  have plain : EachIn (fun c : UInt8 => c ≠ 0) before := fun c c_mem zero => first (zero ▸ c_mem)
  have length : value.length = before.length + (after.length + 1) := by
    rw [split, List.length_append, List.length_cons]
  have behind : device.Ahead (before ++ [0]) (readUInt32 b).2 := by
    have chars : device.Ahead (value ++ [0]) (readUInt32 b).2 := ahead.right passed
    have shape : value ++ [0] = before ++ [0] ++ (after ++ [0]) := by simp [split]
    rw [shape] at chars
    exact chars.left
  -- the loop leaves at the first NUL, which is not the terminator
  have early := (readChars_recovers plain (by omega : before.length < value.length + 1) [] _
    behind).2.2
  rw [List.length_append] at early
  change (readChars [] (value.length + 1) (readUInt32 b).2).2.rpos = b.rpos + 4 + _ at early
  rw [ends, length] at early
  simp only [List.length_cons, List.length_nil] at early
  omega

/-! ## Where a container ends -/

/-- What an element has if all elements before it have it, all elements have. -/
theorem forall_mem_of_earlier {α : Type*} {condition : α → Prop} {v : List α}
    (step : ∀ i t, v[i]? = some t → (∀ earlier ∈ v.take i, condition earlier) → condition t) :
    ∀ t ∈ v, condition t := by
  have upTo : ∀ i ≤ v.length, ∀ t ∈ v.take i, condition t := by
    intro i
    induction i with
    | zero => simp
    | succ i ih =>
        intro i_lt t t_mem
        have earlier := ih (Nat.le_of_succ_le i_lt)
        rw [List.take_succ_eq_append_getElem i_lt, List.mem_append, List.mem_singleton] at t_mem
        rcases t_mem with before | rfl
        · exact earlier t before
        · exact step i v[i] (List.getElem?_eq_getElem i_lt) earlier
  have all := upTo v.length (Nat.le_refl _)
  rwa [List.take_length] at all

section Containers

variable {α : Type} {body : List α → ByteBuffer → List α × ByteBuffer} {code : α → List UInt8}
  {write : α → ByteBuffer → ByteBuffer}

/-- The loop of a container comes to element `i` where the code of that element lies, if the
rounds before followed their elements. -/
theorem elementReader_passed {v : List α} {b : ByteBuffer} {i : Nat} (i_le : i ≤ v.length)
    (ahead : device.Ahead (countedCode code v) b)
    (earlier : ∀ t ∈ v.take i, ∀ result, device.Follows (body result) (code t)) :
    device.Passed (4 + ((v.take i).flatMap code).length) b (elementReader body b i) ∧
      device.Ahead ((v.drop i).flatMap code) (elementReader body b i) := by
  have size := (readUInt32_recovers v.length b ahead.left).2
  have elements : device.Ahead (v.flatMap code) (readUInt32 b).2 := ahead.right size
  rw [← List.take_append_drop i v, List.flatMap_append] at elements
  have rounds := Device.Follows.iterate earlier [] (readUInt32 b).2 elements.left
  rw [List.length_take, Nat.min_eq_left i_le] at rounds
  refine ⟨?_, elements.right rounds⟩
  have width : (uint32Code v.length).length = 4 := by simp [uint32Code]
  rw [width] at size
  exact size.trans rounds

theorem elementWriter_wpos (appends : ∀ t, device.Appends (write t) (code t)) (size : Nat)
    (earlier : List α) {w : ByteBuffer} (atEnd : device.AtEnd w) :
    device.AtEnd (elementWriter write w size earlier) ∧
      (elementWriter write w size earlier).wpos = w.wpos + 4 + (earlier.flatMap code).length := by
  have both := (writeUInt32_appends size).comp
    (Device.Appends.foldl fun (t : α) (_ : t ∈ earlier) => appends t)
  rcases both w atEnd with ⟨atEnd', tape, _⟩
  refine ⟨atEnd', ?_⟩
  change (elementWriter write w size earlier).wpos = _ at atEnd'
  change w.wpos = w.storage.length at atEnd
  rw [atEnd', atEnd]
  change (elementWriter write w size earlier).storage = _ at tape
  change (elementWriter write w size earlier).storage.length = _
  rw [tape]
  simp [device, uint32Code, Nat.add_assoc]

/-- An element is read where it was written if the rounds before followed their elements. -/
theorem element_reached {v : List α} {b w : ByteBuffer} {i : Nat} {t : α}
    (element : v[i]? = some t) (appends : ∀ t, device.Appends (write t) (code t))
    (ahead : device.Ahead (countedCode code v) b) (same : b.rpos = w.wpos)
    (atEnd : device.AtEnd w)
    (earlier : ∀ t ∈ v.take i, ∀ result, device.Follows (body result) (code t)) :
    device.Ahead (code t) (elementReader body b i) ∧
      (elementReader body b i).rpos = (elementWriter write w v.length (v.take i)).wpos ∧
      device.AtEnd (elementWriter write w v.length (v.take i)) := by
  rcases List.getElem?_eq_some_iff.mp element with ⟨i_lt, rfl⟩
  rcases elementReader_passed (Nat.le_of_lt i_lt) ahead earlier with ⟨passed, here⟩
  rcases elementWriter_wpos appends v.length (v.take i) atEnd with ⟨atEnd', reached⟩
  rw [List.drop_eq_getElem_cons i_lt, List.flatMap_cons] at here
  refine ⟨here.left, ?_, atEnd'⟩
  have position : (elementReader body b i).rpos = b.rpos + _ := passed.2
  rw [position, reached, same, Nat.add_assoc]

/-- Elements that are in step where they are read are all whole: each is read where it was written
because the ones before are whole. -/
theorem whole_of_atElements {whole : α → Prop} {condition : α → ByteBuffer → ByteBuffer → Prop}
    {v : List α} {b w : ByteBuffer} (appends : ∀ t, device.Appends (write t) (code t))
    (follows : ∀ t, whole t → ∀ result, device.Follows (body result) (code t))
    (each : ∀ t ∈ v, ∀ b w, device.Ahead (code t) b → b.rpos = w.wpos → device.AtEnd w →
      condition t b w → whole t)
    (ahead : device.Ahead (countedCode code v) b) (same : b.rpos = w.wpos)
    (atEnd : device.AtEnd w) (inStep : AtElements condition body write v b w) :
    ∀ t ∈ v, whole t := by
  apply forall_mem_of_earlier
  intro i t element earlier
  obtain ⟨here, same', atEnd'⟩ := element_reached element appends ahead same atEnd
    fun t t_mem => follows t (earlier t t_mem)
  exact each t (List.mem_of_getElem? element) _ _ here same' atEnd' (inStep i t element)

theorem atElements_of_follows {condition : α → ByteBuffer → ByteBuffer → Prop} {v : List α}
    {b w : ByteBuffer} (appends : ∀ t, device.Appends (write t) (code t))
    (follows : ∀ t ∈ v, ∀ result, device.Follows (body result) (code t))
    (each : ∀ t ∈ v, ∀ b w, device.Ahead (code t) b → b.rpos = w.wpos → device.AtEnd w →
      condition t b w)
    (ahead : device.Ahead (countedCode code v) b) (same : b.rpos = w.wpos)
    (atEnd : device.AtEnd w) : AtElements condition body write v b w := by
  intro i t element
  obtain ⟨here, same', atEnd'⟩ := element_reached element appends ahead same atEnd
    fun t t_mem => follows t (List.mem_of_mem_take t_mem)
  exact each t (List.mem_of_getElem? element) _ _ here same' atEnd'

/-- A container of whole elements whose reader stops where its code ends is not too large. -/
theorem small_of_readAll {v : List α} {b : ByteBuffer} (nonempty : ∀ t, code t ≠ [])
    (follows : ∀ t ∈ v, ∀ result, device.Follows (body result) (code t))
    (ahead : device.Ahead (countedCode code v) b)
    (ends : (readAll body b).2.rpos = b.rpos + (countedCode code v).length) :
    v.length ≤ maxArrSize := by
  have atLeast (rest : List α) : rest.length ≤ (rest.flatMap code).length := by
    induction rest with
    | nil => simp
    | cons t rest ih =>
        have positive := List.length_pos_iff.mpr (nonempty t)
        rw [List.length_cons, List.flatMap_cons, List.length_append]
        omega
  have total : (countedCode code v).length = 4 + (v.flatMap code).length := by
    simp [countedCode, uint32Code]
  rcases readUInt32_recovers v.length b ahead.left with ⟨size, _⟩
  have stops : readAll body b = readElements body (readUInt32 b).1 (readUInt32 b).2 := rfl
  rw [stops, size, total, readElements] at ends
  by_contra large
  by_cases rejected : maxArrSize < v.length % 2 ^ 32
  · rw [if_pos rejected] at ends
    change b.rpos + 4 = _ at ends
    have some := atLeast v
    omega
  · -- so many elements that the size wraps: the loop ends before the last one
    rw [if_neg rejected] at ends
    have fewer : v.length % 2 ^ 32 < v.length := by omega
    have rounds := (elementReader_passed (Nat.le_of_lt fewer) ahead fun t t_mem =>
      follows t (List.mem_of_mem_take t_mem)).1.2
    change (elementReader body b (v.length % 2 ^ 32)).rpos = _ + _ at rounds
    change (elementReader body b (v.length % 2 ^ 32)).rpos = _ at ends
    have rest := atLeast (v.drop (v.length % 2 ^ 32))
    have parts : (v.flatMap code).length = ((v.take (v.length % 2 ^ 32)).flatMap code).length +
        ((v.drop (v.length % 2 ^ 32)).flatMap code).length := by
      rw [← List.length_append, ← List.flatMap_append, List.take_append_drop]
    rw [List.length_drop] at rest
    change _ = b.rpos + _ at rounds
    omega

theorem readAll_follows {v : List α} (small : v.length ≤ maxArrSize)
    (follows : ∀ t ∈ v, ∀ result, device.Follows (body result) (code t)) :
    device.Follows (readAll body) (countedCode code v) := by
  intro b ahead
  rcases readUInt32_recovers v.length b ahead.left with ⟨size, _⟩
  have exactly : v.length % 2 ^ 32 = v.length :=
    Nat.mod_eq_of_lt (by simp only [maxArrSize] at small; omega)
  have rounds := (elementReader_passed (Nat.le_refl _) ahead fun t t_mem =>
    follows t (List.mem_of_mem_take t_mem)).1
  have stops : (readAll body b).2 = elementReader body b v.length := by
    change (readElements body (readUInt32 b).1 (readUInt32 b).2).2 = _
    rw [size, exactly, readElements, if_neg (Nat.not_lt.mpr small)]
    rfl
  have total : (countedCode code v).length = 4 + ((v.take v.length).flatMap code).length := by
    simp [countedCode, uint32Code]
  rwa [stops, total]

end Containers

/-! ## Values -/

theorem whole_vector_iff {T : Ty} {v : List T.Val} :
    (Ty.vector T).Whole v ↔ v.length ≤ maxArrSize ∧ EachIn T.Whole v := by
  constructor
  · rintro ⟨⟨small, plain⟩, _, counted⟩
    exact ⟨small, fun t t_mem => ⟨plain t t_mem, counted t t_mem⟩⟩
  · rintro ⟨small, whole⟩
    exact ⟨⟨small, fun t t_mem => (whole t t_mem).1⟩, trivial, fun t t_mem => (whole t t_mem).2⟩

theorem whole_map_iff {K V : Ty} {m : List (K.Val × V.Val)} :
    (Ty.map K V).Whole m ↔
      m.length ≤ maxArrSize ∧ EachIn (fun entry => K.Whole entry.1 ∧ V.Whole entry.2) m := by
  constructor
  · rintro ⟨⟨small, plain⟩, _, counted⟩
    refine ⟨small, fun entry entry_mem => ?_⟩
    rcases plain entry entry_mem with ⟨plainKey, plainValue⟩
    rcases counted entry entry_mem with ⟨countedKey, countedValue⟩
    exact ⟨⟨plainKey, countedKey⟩, plainValue, countedValue⟩
  · rintro ⟨small, whole⟩
    refine ⟨⟨small, fun entry entry_mem => ?_⟩, trivial, fun entry entry_mem => ?_⟩
    · exact ⟨(whole entry entry_mem).1.1, (whole entry entry_mem).2.1⟩
    · exact ⟨(whole entry entry_mem).1.2, (whole entry entry_mem).2.2⟩

theorem code_ne_nil (T : Ty) (value : T.Val) : T.code value ≠ [] := by
  have counted {α : Type} (code : α → List UInt8) (v : List α) : countedCode code v ≠ [] := by
    simp [countedCode, uint32Code, LittleEndian.encode]
  cases T with
  | bool => exact List.cons_ne_nil _ _
  | fixed T => cases T <;> exact List.cons_ne_nil _ _
  | string => exact List.cons_ne_nil _ _
  | vector T | list T => exact counted T.code value
  | map K V => exact counted _ value

theorem insertEntry_follows {α β : Type} {less : α → α → Bool}
    {readKey : ByteBuffer → α × ByteBuffer} {readValue : ByteBuffer → β × ByteBuffer}
    {keyCode valueCode : List UInt8} (key : device.Follows readKey keyCode)
    (value : device.Follows readValue valueCode) (m : List (α × β)) :
    device.Follows (insertEntry less readKey readValue m) (keyCode ++ valueCode) := by
  intro b ahead
  have passed := key b ahead.left
  have behind := value _ (ahead.right passed)
  rw [List.length_append]
  exact passed.trans behind

/-- A whole value is passed over, also in a map whose keys are out of order. -/
theorem read_follows {T : Ty} {value : T.Val} (whole : T.Whole value) :
    device.Follows (read T) (T.code value) := by
  induction T with
  | bool => exact (readBool_recovers value).follows
  | fixed T => exact (readFixed_recovers T value).follows
  | string => exact (readString_recovers whole.1 whole.2).follows
  | vector T ih | list T ih =>
      rcases whole_vector_iff.mp whole with ⟨small, each⟩
      apply readAll_follows small
      intro t t_mem _ b ahead
      exact ih (each t t_mem) b ahead
  | map K V ihKey ihValue =>
      rcases whole_map_iff.mp whole with ⟨small, each⟩
      apply readAll_follows small
      intro entry entry_mem
      exact insertEntry_follows (ihKey (each entry entry_mem).1) (ihValue (each entry entry_mem).2)

/-- The reader of a value with whole values inside stops in step only if the value is whole. -/
theorem whole_of_read {T : Ty} {value : T.Val} {b : ByteBuffer} (inside : T.WholeInside value)
    (ahead : device.Ahead (T.code value) b)
    (ends : (read T b).2.rpos = b.rpos + (T.code value).length) : T.Whole value := by
  cases T with
  | bool | fixed T => exact ⟨trivial, trivial⟩
  | string => exact whole_of_readString ahead ends
  | vector T | list T =>
      refine whole_vector_iff.mpr ⟨?_, inside⟩
      refine small_of_readAll (code_ne_nil T) ?_ ahead ends
      intro t t_mem _ b ahead
      exact read_follows (inside t t_mem) b ahead
  | map K V =>
      refine whole_map_iff.mpr ⟨?_, inside⟩
      refine small_of_readAll (fun entry => ?_) ?_ ahead ends
      · exact List.append_ne_nil_of_left_ne_nil (code_ne_nil K entry.1) _
      · intro entry entry_mem
        exact insertEntry_follows (read_follows (inside entry entry_mem).1)
          (read_follows (inside entry entry_mem).2)

theorem write_wpos {T : Ty} (value : T.Val) {w : ByteBuffer} (atEnd : device.AtEnd w) :
    device.AtEnd (write T value w) ∧
      (write T value w).wpos = w.wpos + (T.code value).length := by
  rcases write_appends T value w atEnd with ⟨atEnd', tape, _⟩
  refine ⟨atEnd', ?_⟩
  change (write T value w).wpos = _ at atEnd'
  change w.wpos = w.storage.length at atEnd
  rw [atEnd', atEnd, tape, List.length_append]
  rfl

/-- A value that is in step where it was written is whole, with all values inside. -/
theorem whole_of_inStepWithin {T : Ty} {value : T.Val} {b w : ByteBuffer}
    (ahead : device.Ahead (T.code value) b) (same : b.rpos = w.wpos) (atEnd : device.AtEnd w)
    (inStep : InStepWithin T value b w) : T.Whole value := by
  have ends (here : (read T b).2.rpos = (write T value w).wpos) :
      (read T b).2.rpos = b.rpos + (T.code value).length := by
    rw [here, (write_wpos value atEnd).2, same]
  induction T generalizing b w with
  | bool | fixed T => exact ⟨trivial, trivial⟩
  | string => exact whole_of_readString ahead (ends inStep)
  | vector T ih | list T ih =>
      refine whole_of_read ?_ ahead (ends inStep.1)
      refine whole_of_atElements (write_appends T)
        (fun t whole _ b ahead => read_follows whole b ahead) ?_ ahead same atEnd inStep.2
      intro t _ b w ahead same atEnd inStep
      exact ih ahead same atEnd inStep fun here => by rw [here, (write_wpos t atEnd).2, same]
  | map K V ihKey ihValue =>
      refine whole_of_read ?_ ahead (ends inStep.1)
      refine whole_of_atElements
        (fun entry => (write_appends K entry.1).comp (write_appends V entry.2))
        (fun entry whole => insertEntry_follows (read_follows whole.1) (read_follows whole.2))
        ?_ ahead same atEnd inStep.2
      intro entry _ b w ahead same atEnd inStep
      have key := ihKey ahead.left same atEnd inStep.1 fun here => by
        rw [here, (write_wpos entry.1 atEnd).2, same]
      have passed := read_follows key b ahead.left
      rcases write_wpos entry.1 atEnd with ⟨atEnd', reached⟩
      have same' : (read K b).2.rpos = (write K entry.1 w).wpos := by
        rw [reached, ← same]
        exact passed.2
      exact ⟨key, ihValue (ahead.right passed) same' atEnd' inStep.2 fun here => by
        rw [here, (write_wpos entry.2 atEnd').2, same']⟩

theorem inStepWithin_of_whole {T : Ty} {value : T.Val} {b w : ByteBuffer}
    (ahead : device.Ahead (T.code value) b) (same : b.rpos = w.wpos) (atEnd : device.AtEnd w)
    (whole : T.Whole value) : InStepWithin T value b w := by
  have ends : (read T b).2.rpos = (write T value w).wpos := by
    rw [(write_wpos value atEnd).2, ← same]
    exact (read_follows whole b ahead).2
  induction T generalizing b w with
  | bool | fixed T | string => exact ends
  | vector T ih | list T ih =>
      rcases whole_vector_iff.mp whole with ⟨_, each⟩
      refine ⟨ends, atElements_of_follows (write_appends T) ?_ ?_ ahead same atEnd⟩
      · exact fun t t_mem _ b ahead => read_follows (each t t_mem) b ahead
      · intro t t_mem b w ahead same atEnd
        apply ih ahead same atEnd (each t t_mem)
        rw [(write_wpos t atEnd).2, ← same]
        exact (read_follows (each t t_mem) b ahead).2
  | map K V ihKey ihValue =>
      rcases whole_map_iff.mp whole with ⟨_, each⟩
      refine ⟨ends, atElements_of_follows
        (fun entry => (write_appends K entry.1).comp (write_appends V entry.2)) ?_ ?_
        ahead same atEnd⟩
      · exact fun entry entry_mem => insertEntry_follows (read_follows (each entry entry_mem).1)
          (read_follows (each entry entry_mem).2)
      · intro entry entry_mem b w ahead same atEnd
        rcases each entry entry_mem with ⟨key, value⟩
        have passed := read_follows key b ahead.left
        rcases write_wpos entry.1 atEnd with ⟨atEnd', reached⟩
        have same' : (read K b).2.rpos = (write K entry.1 w).wpos := by
          rw [reached, ← same]
          exact passed.2
        refine ⟨ihKey ahead.left same atEnd key same',
          ihValue (ahead.right passed) same' atEnd' value ?_⟩
        rw [(write_wpos entry.2 atEnd').2, ← same']
        exact (read_follows value _ (ahead.right passed)).2

/-! ## Sequences -/

theorem reads_append (types : List Ty) (T : Ty) (b : ByteBuffer) :
    (reads (types ++ [T]) b).2 = (read T (reads types b).2).2 := by
  induction types generalizing b with
  | nil => rfl
  | cons first types ih => exact ih (read first b).2

theorem writes_append (values : List (Σ T : Ty, T.Val)) (value : Σ T : Ty, T.Val)
    (b : ByteBuffer) :
    writes (values ++ [value]) b = write value.1 value.2 (writes values b) := by
  rw [writes, List.foldl_append]
  rfl

theorem reads_follows {values : List (Σ T : Ty, T.Val)}
    (each : ∀ value ∈ values, value.1.Whole value.2) :
    device.Follows (reads (values.map Sigma.fst))
      (values.flatMap fun value => value.1.code value.2) := by
  induction values with
  | nil => exact fun _ _ => ⟨rfl, rfl⟩
  | cons value values ih =>
      intro b ahead
      have first := read_follows (each value List.mem_cons_self) b ahead.left
      have rest := ih (fun later later_mem => each later (List.mem_cons_of_mem value later_mem))
        _ (ahead.right first)
      rw [List.flatMap_cons, List.length_append]
      exact first.trans rest

/-- The readers of the first values stop where these were written if they are whole, and the next
value lies ahead. -/
theorem value_reached {values : List (Σ T : Ty, T.Val)} {count : Nat}
    (earlier : ∀ value ∈ values.take count, value.1.Whole value.2) :
    (reads ((values.take count).map Sigma.fst) (writes values init)).2.rpos =
        (writes (values.take count) init).wpos ∧
      device.AtEnd (writes (values.take count) init) ∧
      ∀ value, values[count]? = some value → device.Ahead (value.1.code value.2)
        (reads ((values.take count).map Sigma.fst) (writes values init)).2 := by
  have fresh : device.AtEnd init := rfl
  have ahead := (writes_appends values).ahead fresh rfl
  rw [← List.take_append_drop count values, List.flatMap_append,
    List.take_append_drop count values] at ahead
  have passed := reads_follows earlier _ ahead.left
  have start : (writes values init).rpos = 0 := (writes_appends values init fresh).2.2
  rcases writes_appends (values.take count) init fresh with ⟨atEnd, tape, _⟩
  refine ⟨?_, atEnd, ?_⟩
  · change (writes (values.take count) init).wpos = _ at atEnd
    rw [atEnd, tape]
    have position := passed.2
    change (reads _ _).2.rpos = (writes values init).rpos + _ at position
    rw [position, start, List.length_append]
    rfl
  · intro value element
    rcases List.getElem?_eq_some_iff.mp element with ⟨count_lt, rfl⟩
    have here := ahead.right passed
    rw [List.drop_eq_getElem_cons count_lt, List.flatMap_cons] at here
    exact here.left

/-- The readers are in step with the writers, inside containers too, exactly if every string is
free of NULs, its counted length is a `uint32`, and every container is within `MAX_ARR_SIZE`.  When
only values of the sequence itself may be cut, that is so already for the positions between them. -/
theorem inStep_iff (values : List (Σ T : Ty, T.Val)) :
    (InStepThroughout values ↔ ∀ value ∈ values, value.1.Whole value.2) ∧
      ((∀ value ∈ values, value.1.WholeInside value.2) →
        (InStep values ↔ ∀ value ∈ values, value.1.Whole value.2)) := by
  have positions (whole : ∀ value ∈ values, value.1.Whole value.2) : InStep values :=
    fun count _ => (value_reached fun value value_mem =>
      whole value (List.mem_of_mem_take value_mem)).1
  refine ⟨⟨?_, ?_⟩, fun inside => ⟨?_, positions⟩⟩
  · rintro ⟨_, within⟩
    apply forall_mem_of_earlier
    intro i value element earlier
    rcases value_reached earlier with ⟨same, atEnd, here⟩
    exact whole_of_inStepWithin (here value element) same atEnd (within i value element)
  · intro whole
    refine ⟨positions whole, fun i value element => ?_⟩
    rcases value_reached fun value value_mem => whole value (List.mem_of_mem_take value_mem) with
      ⟨same, atEnd, here⟩
    exact inStepWithin_of_whole (here value element) same atEnd
      (whole value (List.mem_of_getElem? element))
  · intro inStep
    apply forall_mem_of_earlier
    intro i value element earlier
    rcases value_reached earlier with ⟨same, atEnd, here⟩
    rcases List.getElem?_eq_some_iff.mp element with ⟨i_lt, rfl⟩
    apply whole_of_read (inside _ (List.getElem_mem i_lt)) (here _ element)
    have next := inStep (i + 1) i_lt
    rw [List.take_succ_eq_append_getElem i_lt, List.map_append, List.map_singleton, reads_append,
      writes_append] at next
    rw [next, same]
    exact (write_wpos values[i].2 atEnd).2

/-- A string with a NUL inside, read back with the `uint32` behind it. -/
theorem not_inStep_nul :
    ¬InStep [⟨.string, ([0x61, 0, 0x62] : List UInt8)⟩, ⟨.fixed .uint32, (7 : BitVec 32)⟩] := by
  intro inStep
  exact absurd (inStep 1 (by decide)) (by decide)

end ByteBuffer

end SunPush
