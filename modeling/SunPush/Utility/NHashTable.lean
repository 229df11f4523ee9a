import Mathlib.Tactic.Linarith
import Mathlib.Tactic.Ring
import SunPush.Library.Integer
import SunPush.Utility.NListChains
import SunPush.Utility.NStringTexts

/-!
# The hash table

`nStrNode`, `nStrList` and `nHashTable`: named nodes in an array of lists, where
a name picks the list.  Nodes are added at the head of a list, so the table is
searched as one list of all its nodes would be, the last one added first.
-/

namespace SunPush

open CInteger NodePointer

/-- `nHashTable`, its array of lists, and the nodes there are, with their names. -/
structure NHashTable (N : Type) where
  htableSize : Int
  heap : NodeHeap Nat N
  /-- The `name` of each node. -/
  strings : N → NString

namespace NHashTable

variable {N : Type}

def construct (size : Int) (strings : N → NString) : NHashTable N where
  htableSize := size
  heap := .construct
  strings := strings

/-- The loop of `hash`, whose `int`s wrap around. -/
def hashLoop : Int → Int → List UInt8 → Int
  | i, _, [] => i
  | i, j, c :: str => hashLoop (toLong (i + c.toNat * j)) (toLong (j + 1)) str

def hash (str : NulString) (htableSize : Int) : Int :=
  (hashLoop 0 1 str.chars).tmod htableSize

/-- The list that a name picks, `none` where it is not in the array. -/
def bucket (table : NHashTable N) (str : NulString) : Option Nat :=
  let index := hash str table.htableSize
  if 0 ≤ index ∧ index < table.htableSize then some index.toNat else none

/-- The name that a node has, the empty one included. -/
def name (table : NHashTable N) (n : N) : NulString := (table.strings n).get

/-- `nStrNode::GetName`, `none` for null. -/
def getName (table : NHashTable N) (n : N) : Option NulString :=
  if (table.strings n).isEmpty then none else some (table.name n)

/-- `nStrNode::SetName`; a pointer into the name of another node is one to memory elsewhere. -/
def setName [DecidableEq N] (table : NHashTable N) (safeCast : SafeCast) (n : N)
    (heap : Nat → UInt8) (str : Option CharPtr) : Option (NHashTable N) := do
  let string ← (table.strings n).set safeCast heap str
  return { table with strings := Function.update table.strings n string }

/-- The loop of `nStrList::Find`, `none` where it fails an assertion or takes so many turns or
more. -/
def findLoop (table : NHashTable N) (str : NulString) :
    Nat → Option (NodePointer Nat N) → Option (Option N)
  | 0, _ => none
  | _ + 1, none => some none
  | turns + 1, some (.node n) => do
      let nodeName ← table.getName n
      if str.chars = nodeName.chars then return some n
      else findLoop table str turns (← table.heap.getSucc (.node n))
  | _ + 1, some _ => none

def find (table : NHashTable N) (turns : Nat) (str : NulString) : Option (Option N) := do
  let index ← table.bucket str
  findLoop table str turns (← table.heap.getHead index)

section Changes

variable [DecidableEq N]

def add (table : NHashTable N) (n : N) : Option (NHashTable N) := do
  let name ← table.getName n
  let index ← table.bucket name
  return { table with heap := ← table.heap.addHead index (.node n) }

/-- `nNode::Remove` of a node of the table. -/
def remove (table : NHashTable N) (n : N) : Option (NHashTable N) := do
  return { table with heap := ← table.heap.remove (.node n) }

end Changes

end NHashTable

inductive HashCall (N : Type) where
  | add (n : N)
  | remove (n : N)
  /-- `heap` is what the memory holds that the name is put into. -/
  | setName (n : N) (heap : Nat → UInt8) (str : Option CharPtr)

namespace NHashTable

variable {N : Type}

section Calls

variable [DecidableEq N]

def call (safeCast : SafeCast) (table : NHashTable N) : HashCall N → Option (NHashTable N)
  | .add n => table.add n
  | .remove n => table.remove n
  | .setName n heap str => table.setName safeCast n heap str

/-- An empty table, with nodes that have just been constructed with any names. -/
def calls (N : Type) [DecidableEq N] (safeCast : SafeCast) (size : Int) :
    Transition.System (NHashTable N) (HashCall N) where
  Initial table := ∃ strings, table = construct size strings ∧
    ∀ n, ∃ place heap, ∃ str : Option NulString,
      (NString.construct place).set safeCast heap (str.map .elsewhere) = some (strings n)
  step := call safeCast

/-- The nodes in the table, the last one added first. -/
def entriesAfter (entries : List N) : HashCall N → List N
  | .add n => n :: entries
  | .remove n => entries.erase n
  | .setName _ _ _ => entries

/-- The calls, with the nodes in the table. -/
def recorded (N : Type) [DecidableEq N] (safeCast : SafeCast) (size : Int) :
    Transition.System (NHashTable N × List N) (HashCall N) :=
  (calls N safeCast size).withHistory [] fun entries _ call => entriesAfter entries call

/-- No node is given another name while it is in the table, and a name that begins within the node's
own one does not begin behind its end. -/
def KeepsNames (both : NHashTable N × List N) : HashCall N → Prop
  | .setName n _ (some (.own index)) => n ∉ both.2 ∧ index ≤ (both.1.name n).chars.length
  | .setName n _ _ => n ∉ both.2
  | _ => True

instance decidableKeepsNames (both : NHashTable N × List N) :
    (call : HashCall N) → Decidable (KeepsNames both call)
  | .setName n _ (some (.own index)) =>
      inferInstanceAs (Decidable (n ∉ both.2 ∧ index ≤ (both.1.name n).chars.length))
  | .setName n _ none | .setName n _ (some (.elsewhere _)) =>
      inferInstanceAs (Decidable (n ∉ both.2))
  | .add _ | .remove _ => inferInstanceAs (Decidable True)

end Calls

/-! ## Names that stay in the array -/

/-- As long as the sum cannot reach the sign bit, nothing wraps around. -/
theorem hashLoop_nonneg {i j : Nat} {str : List UInt8}
    (fits : 2 * i + 255 * str.length * (2 * j + str.length) < 2 ^ 32) :
    0 ≤ hashLoop i j str := by
  induction str generalizing i j with
  | nil => exact Int.natCast_nonneg i
  | cons c str ih =>
      rw [List.length_cons] at fits
      have char : c.toNat * j ≤ 255 * j := Nat.mul_le_mul_right j (Nat.le_of_lt_succ c.toNat_lt)
      have step : 2 * (i + 255 * j) + 255 * str.length * (2 * (j + 1) + str.length) + 255 =
          2 * i + 255 * (str.length + 1) * (2 * j + (str.length + 1)) := by
        ring
      have sum : toLong (i + c.toNat * j) = ((i + c.toNat * j : Nat) : Int) := by
        push_cast
        apply toLong_of_mem_range
        · omega
        · have below : i + c.toNat * j < 2 ^ 31 := by omega
          exact_mod_cast below
      have next : toLong (j + 1) = ((j + 1 : Nat) : Int) := by
        have below : j + 1 < 2 ^ 31 := by
          have factor : 2 * j + 1 ≤ 255 * (str.length + 1) * (2 * j + (str.length + 1)) := by
            nlinarith
          omega
        push_cast
        exact toLong_of_mem_range (by omega) (by exact_mod_cast below)
      rw [hashLoop, sum, next]
      apply ih
      have less : 2 * (i + c.toNat * j) ≤ 2 * (i + 255 * j) := by omega
      omega

/-- Every name of at most 4103 characters picks a list of the array. -/
theorem isSome_bucket {table : NHashTable N} (positive : 0 < table.htableSize) {str : NulString}
    (short : str.chars.length ≤ 4103) : (table.bucket str).isSome := by
  have fits : 2 * 0 + 255 * str.chars.length * (2 * 1 + str.chars.length) < 2 ^ 32 := by
    have bound : 255 * str.chars.length * (2 * 1 + str.chars.length) ≤
        255 * 4103 * (2 * 1 + 4103) :=
      Nat.mul_le_mul (Nat.mul_le_mul_left 255 short) (Nat.add_le_add_left short _)
    omega
  have nonneg : 0 ≤ hashLoop 0 1 str.chars := hashLoop_nonneg (i := 0) (j := 1) fits
  have inside : 0 ≤ hash str table.htableSize ∧ hash str table.htableSize < table.htableSize :=
    ⟨Int.tmod_nonneg _ nonneg, Int.tmod_lt_of_pos _ positive⟩
  rw [bucket, if_pos inside]
  rfl

/-! ## The table is searched as one list -/

theorem chars_injective {one two : NulString} (same : one.chars = two.chars) : one = two := by
  cases one
  cases two
  cases same
  rfl

theorem lt_of_bucket {table : NHashTable N} {str : NulString} {index : Nat}
    (picks : table.bucket str = some index) : (index : Int) < table.htableSize := by
  rw [bucket] at picks
  split at picks
  · next inside =>
      rcases Option.some.inj picks with rfl
      rw [Int.toNat_of_nonneg inside.1]
      exact inside.2
  · contradiction

/-- The array is the list of the nodes, divided by the lists that their names pick. -/
structure Represents (table : NHashTable N) (entries : List N) : Prop where
  lists : ∃ contents, table.heap.Represents contents ∧
    ∀ list, contents list = entries.filter fun n => table.bucket (table.name n) = some list
  placed : ∀ n ∈ entries, (table.name n).chars ≠ [] ∧ (table.bucket (table.name n)).isSome
  nodup : entries.Nodup
  texts : ∀ n, ∃ text, (table.strings n).Shows text

section Steps

variable {table next : NHashTable N} {entries : List N} {n : N} {str : NulString}

theorem getName_eq {text : StringText} (shows_ : (table.strings n).Shows text) :
    table.getName n = if (table.name n).chars = [] then none else some (table.name n) := by
  rw [getName, shows_.isEmpty_eq, ← shows_.get_chars, ← name]
  by_cases empty : (table.name n).chars = []
  · rw [if_pos empty, if_pos (List.isEmpty_iff.mpr empty)]
  · rw [if_neg empty, if_neg (mt List.isEmpty_iff.mp empty)]

theorem Represents.getName_eq (represents : table.Represents entries) (n : N) :
    table.getName n = if (table.name n).chars = [] then none else some (table.name n) := by
  rcases represents.texts n with ⟨text, shows_⟩
  exact NHashTable.getName_eq shows_

theorem Represents.linked_iff (represents : table.Represents entries)
    {contents : Nat → List N}
    (lists : ∀ list, contents list =
      entries.filter fun n => table.bucket (table.name n) = some list) :
    NodeLists.Linked contents n ↔ n ∈ entries := by
  constructor
  · rintro ⟨list, n_mem⟩
    rw [lists, List.mem_filter] at n_mem
    exact n_mem.1
  · intro n_mem
    rcases Option.isSome_iff_exists.mp (represents.placed n n_mem).2 with ⟨list, picks⟩
    refine ⟨list, ?_⟩
    rw [lists, List.mem_filter]
    exact ⟨n_mem, by simp [picks]⟩

/-- A call of the heap that is made is allowed, and leaves what it should. -/
theorem called {heap after : NodeHeap Nat N} {contents : Nat → List N} [DecidableEq N]
    (represents : heap.Represents contents) {call : NodeCall Nat N}
    {result : Option (NodePointer Nat N)} (made : heap.call call = some (result, after)) :
    NodeLists.Legal contents call ∧ after.Represents (NodeLists.after contents call) := by
  by_cases legal : NodeLists.Legal contents call
  · rcases represents.call legal with ⟨next, made', represents'⟩
    rcases Prod.mk.inj (Option.some.inj (made.symm.trans made')) with ⟨-, rfl⟩
    exact ⟨legal, represents'⟩
  · rw [represents.not_call legal] at made
    contradiction

/-- Both a node that is found and one that is not are found in turns enough for all the nodes. -/
theorem findLoop_of_visits {nodes : List N} {first : Option (NodePointer Nat N)}
    (visits : NodeHeap.Visits table.heap.getSucc first nodes)
    (named : ∀ n ∈ nodes, table.getName n = some (table.name n)) {turns : Nat}
    (enough : nodes.length < turns) :
    table.findLoop str turns first =
      some (nodes.find? fun n => str.chars = (table.name n).chars) := by
  induction nodes generalizing first turns with
  | nil =>
      rcases visits with rfl
      cases turns with
      | zero => exact absurd enough (Nat.not_lt_zero _)
      | succ turns => rfl
  | cons n nodes ih =>
      rcases visits with ⟨rfl, second, goes, visits⟩
      have here := named n List.mem_cons_self
      cases turns with
      | zero => exact absurd enough (Nat.not_lt_zero _)
      | succ turns =>
          have later := ih visits
            (fun other other_mem => named other (List.mem_cons_of_mem n other_mem))
            (Nat.lt_of_succ_lt_succ enough)
          by_cases same : str.chars = (table.name n).chars
          · simp [findLoop, here, same]
          · simp [findLoop, here, same, goes, later]

theorem Represents.find (represents : table.Represents entries) (picks : (table.bucket str).isSome)
    {turns : Nat} (enough : entries.length < turns) :
    table.find turns str = some (entries.find? fun n => str.chars = (table.name n).chars) := by
  rcases represents.lists with ⟨contents, heap, lists⟩
  rcases Option.isSome_iff_exists.mp picks with ⟨index, index_eq⟩
  have visits := heap.visits_getSucc (List.nil_append (contents index)).symm
  have shorter : (contents index).length ≤ entries.length := by
    rw [lists]
    exact List.length_filter_le _ _
  have named : ∀ n ∈ contents index, table.getName n = some (table.name n) := by
    intro n n_mem
    rw [lists] at n_mem
    rw [represents.getName_eq, if_neg (represents.placed n (List.mem_of_mem_filter n_mem)).1]
  have looped := @findLoop_of_visits N table str _ _ visits named turns (shorter.trans_lt enough)
  rw [NHashTable.find, index_eq, Option.bind_eq_bind, Option.bind_some, heap.getHead_eq,
    Option.bind_eq_bind, Option.bind_some, looped, lists,
    List.find?_filter]
  apply congrArg some
  apply congrArg (entries.find? ·)
  funext n
  by_cases same : str.chars = (table.name n).chars
  · have equal : table.name n = str := chars_injective same.symm
    simp [equal, index_eq]
  · simp [same]

variable [DecidableEq N]

theorem Represents.add_eq_some_iff (represents : table.Represents entries) :
    table.add n = some next ↔
    (table.name n).chars ≠ [] ∧ ∃ index after, table.bucket (table.name n) = some index ∧
      table.heap.call (.addHead index n) = some (none, after) ∧
        { table with heap := after } = next := by
  by_cases empty : (table.name n).chars = []
  · simp [NHashTable.add, represents.getName_eq, empty]
  · simp [NHashTable.add, represents.getName_eq, empty, NodeHeap.call, Option.bind_eq_some_iff]

theorem remove_eq_some_iff : table.remove n = some next ↔
    ∃ after, table.heap.call (.remove n) = some (none, after) ∧
      { table with heap := after } = next := by
  simp [NHashTable.remove, NodeHeap.call, Option.bind_eq_some_iff]

theorem Represents.add (represents : table.Represents entries) (steps : table.add n = some next) :
    next.Represents (n :: entries) := by
  rcases represents.lists with ⟨contents, heap, lists⟩
  rcases represents.add_eq_some_iff.mp steps with ⟨nonempty, index, after, picks, made, rfl⟩
  rcases called heap made with ⟨fresh, then_heap⟩
  have absent : n ∉ entries := fun member => fresh ((represents.linked_iff lists).mpr member)
  refine ⟨⟨_, then_heap, ?_⟩, ?_, List.nodup_cons.mpr ⟨absent, represents.nodup⟩,
    represents.texts⟩
  · intro list
    change Function.update contents index (n :: contents index) list = (n :: entries).filter
      fun n => table.bucket (table.name n) = some list
    by_cases same : list = index
    · subst same
      rw [Function.update_self, lists, List.filter_cons_of_pos (by simp [picks])]
    · rw [Function.update_of_ne same, lists, List.filter_cons_of_neg]
      simpa [picks] using Ne.symm same
  · intro other other_mem
    rcases List.mem_cons.mp other_mem with rfl | other_mem
    · exact ⟨nonempty, Option.isSome_iff_exists.mpr ⟨index, picks⟩⟩
    · exact represents.placed other other_mem

theorem Represents.remove (represents : table.Represents entries)
    (steps : table.remove n = some next) : next.Represents (entries.erase n) := by
  rcases represents.lists with ⟨contents, heap, lists⟩
  rcases remove_eq_some_iff.mp steps with ⟨after, made, rfl⟩
  rcases called heap made with ⟨linked, then_heap⟩
  refine ⟨⟨_, then_heap, ?_⟩, ?_, represents.nodup.erase n, represents.texts⟩
  · intro list
    change (contents list).erase n = (entries.erase n).filter
      fun n => table.bucket (table.name n) = some list
    rw [lists, List.erase_filter]
  · exact fun other other_mem => represents.placed other (List.mem_of_mem_erase other_mem)

theorem setName_eq_some_iff {safeCast : SafeCast} {heap : Nat → UInt8} {str : Option CharPtr} :
    table.setName safeCast n heap str = some next ↔
      ∃ string, (table.strings n).set safeCast heap str = some string ∧
        { table with strings := Function.update table.strings n string } = next := by
  simp [NHashTable.setName, Option.bind_eq_some_iff]

theorem Represents.setName (represents : table.Represents entries) (absent : n ∉ entries)
    {safeCast : SafeCast} {heap : Nat → UInt8} {str : Option CharPtr}
    (steps : table.setName safeCast n heap str = some next) : next.Represents entries := by
  rcases setName_eq_some_iff.mp steps with ⟨string, sets, rfl⟩
  have same : ∀ other ∈ entries,
      (Function.update table.strings n string other).get = table.name other := by
    intro other other_mem
    have different : other ≠ n := fun equal => absent (equal ▸ other_mem)
    rw [Function.update_of_ne different, name]
  rcases represents.lists with ⟨contents, heap, lists⟩
  refine ⟨⟨contents, heap, ?_⟩, ?_, represents.nodup, ?_⟩
  · intro list
    rw [lists]
    apply List.filter_congr
    intro other other_mem
    rw [← same other other_mem]
    rfl
  · intro other other_mem
    change (Function.update table.strings n string other).get.chars ≠ [] ∧
      (table.bucket (Function.update table.strings n string other).get).isSome
    rw [same other other_mem]
    exact represents.placed other other_mem
  · intro other
    by_cases changed : other = n
    · subst changed
      rcases represents.texts other with ⟨text, shows_⟩
      change ∃ text, (Function.update table.strings other string other).Shows text
      rw [Function.update_self]
      exact NString.shows_of_set shows_ sets
    · change ∃ text, (Function.update table.strings n string other).Shows text
      rw [Function.update_of_ne changed]
      exact represents.texts other

end Steps

/-! ## Runs -/

section Runs

theorem represents_construct (size : Int) {strings : N → NString}
    (texts : ∀ n, ∃ text, (strings n).Shows text) : (construct size strings).Represents [] where
  texts := texts
  lists := ⟨fun _ => [], NodeHeap.represents_construct, fun _ => rfl⟩
  placed _ n_mem := absurd n_mem List.not_mem_nil
  nodup := List.nodup_nil

theorem notMem_of_keepsNames {table : NHashTable N} {entries : List N} {n : N}
    {heap : Nat → UInt8} {str : Option CharPtr}
    (keeps : KeepsNames (table, entries) (.setName n heap str)) : n ∉ entries := by
  cases str with
  | none => exact keeps
  | some str =>
      cases str with
      | elsewhere str => exact keeps
      | own index => exact keeps.1

variable [DecidableEq N]

theorem htableSize_call {safeCast : SafeCast} {table next : NHashTable N} {call : HashCall N}
    (steps : NHashTable.call safeCast table call = some next) :
    next.htableSize = table.htableSize := by
  cases call with
  | add n =>
      simp only [NHashTable.call, NHashTable.add, Option.bind_eq_bind,
        Option.bind_eq_some_iff] at steps
      rcases steps with ⟨_, -, _, -, _, -, made⟩
      rcases Option.some.inj made with rfl
      rfl
  | remove n =>
      rcases remove_eq_some_iff.mp steps with ⟨_, -, rfl⟩
      rfl
  | setName n heap str =>
      rcases setName_eq_some_iff.mp steps with ⟨_, -, rfl⟩
      rfl

theorem represents_of_keepsNames {safeCast : SafeCast} {size : Int} {both : NHashTable N × List N}
    (reached : (recorded N safeCast size).ReachableBy KeepsNames both) :
    both.1.Represents both.2 ∧ both.1.htableSize = size := by
  have begins : ∀ table : NHashTable N, (calls N safeCast size).Initial table →
      table.Represents [] ∧ table.htableSize = size := by
    rintro table ⟨strings, rfl, constructed⟩
    refine ⟨represents_construct size fun n => ?_, rfl⟩
    rcases constructed n with ⟨place, heap, str, sets⟩
    exact NString.shows_of_set (NString.shows_construct place) sets
  have preserved : ∀ (table : NHashTable N) (entries : List N) (call : HashCall N) next,
      True → table.Represents entries ∧ table.htableSize = size →
        KeepsNames (table, entries) call → (calls N safeCast size).step table call = some next →
          next.Represents (entriesAfter entries call) ∧ next.htableSize = size := by
    rintro table entries call next - ⟨represents, fixed⟩ keeps steps
    refine ⟨?_, (htableSize_call steps).trans fixed⟩
    cases call with
    | add n => exact represents.add steps
    | remove n => exact represents.remove steps
    | setName n heap str => exact represents.setName (notMem_of_keepsNames keeps) steps
  have known (table : NHashTable N) : (calls N safeCast size).Reachable table → True :=
    fun _ => trivial
  exact reached.history_invariant (fun _ _ _ => trivial) known begins preserved

/-- After any calls that rename no node in the table, a name of at most 4103 characters finds the
node of that name that was added last, or none.  A node that has such a name can be added exactly
when the name is not empty and the node is not in the table, a node can be removed exactly when it
is in the table, every name that 16 bits can count can be given to a node, and the table can be
destroyed exactly when no node is in it. -/
theorem find_of_keepsNames {safeCast : SafeCast} {size : Int} (positive : 0 < size)
    {table : NHashTable N} {entries : List N}
    (reached : (recorded N safeCast size).ReachableBy KeepsNames (table, entries)) :
    (∀ str : NulString, str.chars.length ≤ 4103 → ∀ turns, entries.length < turns →
      table.find turns str = some (entries.find? fun n => str.chars = (table.name n).chars)) ∧
    (∀ n, (table.name n).chars.length ≤ 4103 →
      ((table.add n).isSome ↔ (table.name n).chars ≠ [] ∧ n ∉ entries)) ∧
    (∀ n, (table.remove n).isSome ↔ n ∈ entries) ∧
    (∀ n heap str, str.chars.length < 2 ^ 16 → ∃ next,
      table.setName safeCast n heap (some (.elsewhere str)) = some next ∧ next.name n = str) ∧
    ((∀ index : Nat, index < size → table.heap.listDestructs index = some true) ↔
      entries = []) := by
  rcases represents_of_keepsNames reached with ⟨represents, fixed⟩
  change table.htableSize = size at fixed
  rcases represents.lists with ⟨contents, heap, lists⟩
  rw [← fixed] at positive
  refine ⟨?_, ?_, ?_, ?_, ?_⟩
  · intro str short turns enough
    exact represents.find (isSome_bucket positive short) enough
  · intro n short
    rw [← represents.linked_iff lists]
    constructor
    · intro added
      rcases Option.isSome_iff_exists.mp added with ⟨next, steps⟩
      rcases represents.add_eq_some_iff.mp steps with ⟨nonempty, _, _, -, made, -⟩
      exact ⟨nonempty, (called heap made).1⟩
    · rintro ⟨nonempty, fresh⟩
      rcases Option.isSome_iff_exists.mp (isSome_bucket positive short) with ⟨index, picks⟩
      rcases heap.call (show NodeLists.Legal contents (.addHead index n) from fresh) with
        ⟨after, made, -⟩
      rw [represents.add_eq_some_iff.mpr ⟨nonempty, index, after, picks, made, rfl⟩]
      rfl
  · intro n
    rw [← represents.linked_iff lists]
    constructor
    · intro removed
      rcases Option.isSome_iff_exists.mp removed with ⟨next, steps⟩
      rcases remove_eq_some_iff.mp steps with ⟨_, made, -⟩
      exact (called heap made).1
    · intro linked
      rcases heap.call (show NodeLists.Legal contents (.remove n) from linked) with ⟨after, made, -⟩
      rw [remove_eq_some_iff.mpr ⟨after, made, rfl⟩]
      rfl
  · intro n place str small
    rcases represents.texts n with ⟨text, shows_⟩
    rcases NString.set_elsewhere safeCast shows_.localSize place small with
      ⟨string, sets, shows_string⟩
    refine ⟨_, setName_eq_some_iff.mpr ⟨string, sets, rfl⟩, ?_⟩
    apply chars_injective
    change (Function.update table.strings n string n).get.chars = str.chars
    rw [Function.update_self]
    exact shows_string.get_chars
  · constructor
    · intro empty
      by_contra nonempty
      rcases List.exists_mem_of_ne_nil entries nonempty with ⟨n, n_mem⟩
      rcases Option.isSome_iff_exists.mp (represents.placed n n_mem).2 with ⟨index, picks⟩
      have inside : (index : Int) < size := by
        rw [← fixed]
        exact lt_of_bucket picks
      have destructs := empty index inside
      rw [show table.heap.listDestructs index = table.heap.isEmpty index from rfl,
        heap.isEmpty_eq, lists, Option.some.injEq, List.isEmpty_iff, List.filter_eq_nil_iff]
        at destructs
      exact destructs n n_mem (by simp [picks])
    · rintro rfl index -
      rw [show table.heap.listDestructs index = table.heap.isEmpty index from rfl,
        heap.isEmpty_eq, lists]
      rfl

/-- The names of three nodes, the first and the third of them the same. -/
def threeNames (n : Nat) : NulString :=
  if n = 2 then ⟨[98, 99], by decide⟩ else ⟨[97], by decide⟩

def threeStrings (n : Nat) : NString :=
  ((NString.construct fun _ => 0).set default (fun _ => 0) (some (.elsewhere (threeNames n)))).getD
    (.construct fun _ => 0)

/-- The last node of a name is taken out, given another name and added again. -/
def renamingCalls : List (HashCall Nat) :=
  [.add 1, .add 2, .add 3, .remove 3,
    .setName 3 (fun _ => 0) (some (.elsewhere ⟨[99], by decide⟩)), .add 3]

/-- So the name it had finds the first node again. -/
theorem find_of_keepsNames_renamed :
    ∃ table entries, (recorded Nat default 4).ReachableBy KeepsNames (table, entries) ∧
      entries = [3, 2, 1] ∧ table.find 4 ⟨[97], by decide⟩ = some (some 1) ∧
      table.find 4 ⟨[99], by decide⟩ = some (some 3) ∧
      table.find 4 ⟨[100], by decide⟩ = some none ∧ (table.add 1).isSome = false := by
  have constructed : ∀ n, ∃ place heap, ∃ str : Option NulString,
      (NString.construct place).set default heap (str.map .elsewhere) =
        some (threeStrings n) := by
    intro n
    refine ⟨fun _ => 0, fun _ => 0, some (threeNames n), ?_⟩
    rw [threeStrings, threeNames]
    split <;> rfl
  have starts : (recorded Nat default 4).Initial (construct 4 threeStrings, []) :=
    ⟨⟨threeStrings, rfl, constructed⟩, rfl⟩
  have runs : ∃ both, (recorded Nat default 4).run (construct 4 threeStrings, []) renamingCalls =
      some both ∧ both.2 = [3, 2, 1] ∧ (both.1.name 1).chars = [97] ∧
        (both.1.name 2).chars = [98, 99] ∧ (both.1.name 3).chars = [99] :=
    ⟨_, rfl, rfl, rfl, rfl, rfl⟩
  have meets : (recorded Nat default 4).RunMeets KeepsNames (construct 4 threeStrings, [])
      renamingCalls := by
    decide
  rcases runs with ⟨⟨table, entries⟩, runs, three, one_name, two_name, three_name⟩
  change entries = [3, 2, 1] at three
  have reached := Transition.System.ReachableBy.run (.initial starts) meets runs
  rcases find_of_keepsNames (by decide) reached with ⟨finds, adds, -, -⟩
  have found (str : NulString) (short : str.chars.length ≤ 4103) : table.find 4 str =
      some ([3, 2, 1].find? fun n => str.chars = (table.name n).chars) := by
    rw [finds str short 4 (by rw [three]; decide), three]
  refine ⟨table, entries, reached, three, ?_, ?_, ?_, ?_⟩
  · rw [found _ (by decide)]
    simp [one_name, two_name, three_name]
  · rw [found _ (by decide)]
    simp [three_name]
  · rw [found _ (by decide)]
    simp [one_name, two_name, three_name]
  · have added := (adds 1 (by rw [one_name]; decide)).not
    rw [Bool.not_eq_true] at added
    rw [added, three]
    simp

end Runs

end NHashTable

end SunPush
