import Mathlib.Data.List.Basic
import Mathlib.Data.List.Infix

/-!
# Sequential codecs

A device keeps a tape, writes behind what it has written and reads from a head
of its own.  A writer appends a code; a reader follows a code when, wherever the
code lies ahead of the head, it moves the head exactly over it, and recovers a
value when it also returns that value.  Both notions are kept by running one
reader or writer after another and by loops over lists, so a round trip comes
down to the codes of single items.
-/

universe u v w x

/-- What can be seen of the states of a device: its tape, the position of its head and the position
it writes at. -/
structure Device (σ : Type u) (β : Type v) where
  tape : σ → List β
  head : σ → Nat
  tail : σ → Nat

namespace Device

variable {σ : Type u} {β : Type v} {α : Type w} {γ : Type x} (device : Device σ β)

/-- The symbols lie on the tape from the head on. -/
def Ahead (symbols : List β) (state : σ) : Prop :=
  symbols <+: (device.tape state).drop (device.head state)

/-- The state after passing over `count` symbols. -/
def Passed (count : Nat) (before after : σ) : Prop :=
  device.tape after = device.tape before ∧ device.head after = device.head before + count

/-- The reader moves over the code, wherever the code lies ahead. -/
def Follows (read : σ → α × σ) (code : List β) : Prop :=
  ∀ state, device.Ahead code state → device.Passed code.length state (read state).2

/-- The reader moves over the code and returns the value. -/
def Recovers (read : σ → α × σ) (code : List β) (value : α) : Prop :=
  ∀ state, device.Ahead code state →
    (read state).1 = value ∧ device.Passed code.length state (read state).2

/-- Writing goes on where the tape ends. -/
def AtEnd (state : σ) : Prop :=
  device.tail state = (device.tape state).length

/-- The writer adds the code to the tape and leaves the head where it is. -/
def Appends (write : σ → σ) (code : List β) : Prop :=
  ∀ state, device.AtEnd state →
    device.AtEnd (write state) ∧ device.tape (write state) = device.tape state ++ code ∧
      device.head (write state) = device.head state

/-- The loop of a reader: `count` rounds on an accumulator. -/
def iterate (body : α → σ → α × σ) : Nat → α → σ → α × σ
  | 0, result, state => (result, state)
  | count + 1, result, state =>
      let (result, state) := body result state
      iterate body count result state

/-! ## Positions -/

theorem ahead_append {first rest : List β} {state : σ} :
    device.Ahead (first ++ rest) state ↔
      device.Ahead first state ∧
        rest <+: (device.tape state).drop (device.head state + first.length) := by
  simp only [Ahead, ← List.drop_drop]
  constructor
  · rintro ⟨beyond, whole⟩
    rw [← whole, List.append_assoc]
    refine ⟨List.prefix_append _ _, ?_⟩
    rw [List.drop_left]
    exact List.prefix_append _ _
  · rintro ⟨⟨beyond, whole⟩, within⟩
    rw [← whole, List.drop_left] at within
    rw [← whole]
    exact (List.prefix_append_right_inj first).mpr within

variable {device}

theorem Ahead.left {first rest : List β} {state : σ} (ahead : device.Ahead (first ++ rest) state) :
    device.Ahead first state :=
  (device.ahead_append.mp ahead).1

/-- What lay behind the first part lies ahead once that part is passed. -/
theorem Ahead.right {first rest : List β} {before after : σ}
    (ahead : device.Ahead (first ++ rest) before)
    (passed : device.Passed first.length before after) : device.Ahead rest after := by
  rw [Ahead, passed.1, passed.2]
  exact (device.ahead_append.mp ahead).2

theorem Passed.trans {first second : Nat} {before middle after : σ}
    (earlier : device.Passed first before middle) (later : device.Passed second middle after) :
    device.Passed (first + second) before after := by
  refine ⟨later.1.trans earlier.1, ?_⟩
  rw [later.2, earlier.2, Nat.add_assoc]

/-! ## Readers -/

theorem Recovers.follows {read : σ → α × σ} {code : List β} {value : α}
    (recovers : device.Recovers read code value) : device.Follows read code :=
  fun state ahead => (recovers state ahead).2

/-- A reader that goes on with what the first one returned. -/
theorem Recovers.bind {read : σ → α × σ} {next : α → σ → γ × σ} {first rest : List β}
    {value : α} {result : γ} (recovers : device.Recovers read first value)
    (goesOn : device.Recovers (next value) rest result) :
    device.Recovers (fun state => next (read state).1 (read state).2) (first ++ rest) result := by
  intro state ahead
  rcases recovers state ahead.left with ⟨rfl, passed⟩
  rcases goesOn _ (ahead.right passed) with ⟨final, behind⟩
  refine ⟨final, ?_⟩
  rw [List.length_append]
  exact passed.trans behind

theorem Recovers.map {read : σ → α × σ} {code : List β} {value : α} (convert : α → γ)
    (recovers : device.Recovers read code value) :
    device.Recovers (fun state => (convert (read state).1, (read state).2)) code
      (convert value) := by
  intro state ahead
  rcases recovers state ahead with ⟨returned, passed⟩
  exact ⟨congrArg convert returned, passed⟩

theorem Recovers.nothing (value : α) :
    device.Recovers (fun state => (value, state)) [] value :=
  fun _ _ => ⟨rfl, rfl, rfl⟩

/-- A loop whose every round recovers one item. -/
theorem Recovers.iterate {ι : Type*} {body : α → σ → α × σ} {code : ι → List β}
    {push : α → ι → α} {items : List ι}
    (each : ∀ item ∈ items, ∀ result, device.Recovers (body result) (code item) (push result item))
    (start : α) :
    device.Recovers (Device.iterate body items.length start) (items.flatMap code)
      (items.foldl push start) := by
  induction items generalizing start with
  | nil => exact Recovers.nothing start
  | cons item items ih =>
      have first := each item List.mem_cons_self start
      have rest := ih (fun later later_mem => each later (List.mem_cons_of_mem item later_mem))
      exact first.bind (rest _)

/-- The rounds of a loop may return anything as long as they follow their items' codes. -/
theorem Follows.iterate {ι : Type*} {body : α → σ → α × σ} {code : ι → List β}
    {items : List ι}
    (each : ∀ item ∈ items, ∀ result, device.Follows (body result) (code item)) (start : α) :
    device.Follows (Device.iterate body items.length start) (items.flatMap code) := by
  induction items generalizing start with
  | nil => exact fun _ _ => ⟨rfl, rfl⟩
  | cons item items ih =>
      intro state ahead
      have first := each item List.mem_cons_self start state ahead.left
      have rest := ih (fun later later_mem => each later (List.mem_cons_of_mem item later_mem))
        (body start state).1 (body start state).2 (ahead.right first)
      rw [List.flatMap_cons, List.length_append]
      exact first.trans rest

/-! ## Writers -/

theorem Appends.comp {first second : σ → σ} {code rest : List β}
    (earlier : device.Appends first code) (later : device.Appends second rest) :
    device.Appends (fun state => second (first state)) (code ++ rest) := by
  intro state atEnd
  rcases earlier state atEnd with ⟨atEnd, tape, head⟩
  rcases later _ atEnd with ⟨atEnd', tape', head'⟩
  refine ⟨atEnd', ?_, head'.trans head⟩
  rw [tape', tape, List.append_assoc]

theorem Appends.foldl {ι : Type*} {write : ι → σ → σ} {code : ι → List β} {items : List ι}
    (each : ∀ item ∈ items, device.Appends (write item) (code item)) :
    device.Appends (fun state => items.foldl (fun state item => write item state) state)
      (items.flatMap code) := by
  induction items with
  | nil =>
      intro state atEnd
      exact ⟨atEnd, (List.append_nil _).symm, rfl⟩
  | cons item items ih =>
      have first := each item List.mem_cons_self
      have rest := ih fun later later_mem => each later (List.mem_cons_of_mem item later_mem)
      exact first.comp rest

/-! ## Round trips -/

/-- What a writer has put on an empty device lies ahead of its head. -/
theorem Appends.ahead {write : σ → σ} {code : List β} (appends : device.Appends write code)
    {state : σ} (atEnd : device.AtEnd state) (unread : device.head state = device.tail state) :
    device.Ahead code (write state) := by
  rcases appends state atEnd with ⟨_, tape, head⟩
  rw [Ahead, tape, head, unread, atEnd, List.drop_left]

/-- Reading back what was written on a device that had been read to its end. -/
theorem Recovers.roundTrip {write : σ → σ} {read : σ → α × σ} {code : List β} {value : α}
    (recovers : device.Recovers read code value) (appends : device.Appends write code)
    {state : σ} (atEnd : device.AtEnd state) (unread : device.head state = device.tail state) :
    (read (write state)).1 = value ∧
      device.head (read (write state)).2 = device.tail (write state) := by
  rcases recovers _ (appends.ahead atEnd unread) with ⟨returned, passed⟩
  rcases appends state atEnd with ⟨atEnd', tape, head⟩
  refine ⟨returned, ?_⟩
  rw [passed.2, head, atEnd', tape, List.length_append, unread, atEnd]

end Device
