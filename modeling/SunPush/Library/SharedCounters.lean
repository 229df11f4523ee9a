import Mathlib.Algebra.BigOperators.Group.List.Basic
import Mathlib.Data.List.Perm.Basic
import Mathlib.Tactic.Linarith

/-!
# Counters that tasks share without a lock

Several tasks add amounts to counters that they share.  An addition takes two
steps: the task reads the counter, and later stores the sum of what it has read
and the amount.  If another task has stored in between, its addition is lost.

The settled value of a counter is the value it has once every addition that is
still to be made has been made.  Reading keeps it, and storing changes it by
exactly what is lost.
-/

namespace SharedCounters

universe u

/-- What a task has still to add, and what it has read for the first of its additions. -/
structure Adder (Counter : Type u) where
  counter : Counter
  amount : Int
  later : List (Counter × Int)
  value : Option Int

/-- The values of the counters, and the tasks in no particular order. -/
structure State (Counter : Type u) where
  values : Counter → Int
  tasks : List (Adder Counter)

/-- The task at an index reads its counter, or stores the sum. -/
inductive Access where
  | read (index : Nat)
  | store (index : Nat)

variable {Counter : Type u}

namespace Adder

/-- The task once its first addition has been made, if there is another one. -/
def rest (task : Adder Counter) : List (Adder Counter) :=
  match task.later with
  | [] => []
  | (counter, amount) :: later => [⟨counter, amount, later, none⟩]

/-- The additions that are still to be made. -/
def additions (task : Adder Counter) : List (Counter × Int) :=
  (task.counter, task.amount) :: task.later

end Adder

variable [DecidableEq Counter]

/-- What the additions add to a counter. -/
def added (counter : Counter) (additions : List (Counter × Int)) : Int :=
  (additions.map fun addition => if addition.1 = counter then addition.2 else 0).sum

theorem added_cons (counter target : Counter) (amount : Int) (later : List (Counter × Int)) :
    added counter ((target, amount) :: later) =
      (if target = counter then amount else 0) + added counter later :=
  List.sum_cons

theorem added_rest (counter : Counter) (task : Adder Counter) :
    (task.rest.map fun rest => added counter rest.additions).sum = added counter task.later := by
  rcases task with ⟨_, _, _ | ⟨⟨_, _⟩, _⟩, _⟩
  · rfl
  · exact List.sum_singleton

namespace State

variable {state next : State Counter} {counter : Counter}

def start (state : State Counter) (task : Adder Counter) : State Counter :=
  { state with tasks := state.tasks ++ [task] }

def access (state : State Counter) : Access → Option (State Counter)
  | .read index =>
      match state.tasks[index]? with
      | none => none
      | some task =>
          if task.value.isSome then none
          else
            some { state with
              tasks := state.tasks.eraseIdx index ++
                [{ task with value := some (state.values task.counter) }] }
  | .store index =>
      match state.tasks[index]? with
      | none => none
      | some task =>
          match task.value with
          | none => none
          | some value =>
              some
                { values := Function.update state.values task.counter (value + task.amount)
                  tasks := state.tasks.eraseIdx index ++ task.rest }

/-- The value of the counter once every addition has been made. -/
def settled (state : State Counter) (counter : Counter) : Int :=
  state.values counter + (state.tasks.map fun task => added counter task.additions).sum

/-- A task that stores has read the value that the counter still has. -/
def Current (state : State Counter) : Access → Prop
  | .read _ => True
  | .store index =>
      ∀ task ∈ state.tasks[index]?, ∀ value ∈ task.value, value = state.values task.counter

instance (state : State Counter) : DecidablePred state.Current
  | .read _ => isTrue trivial
  | .store index =>
      inferInstanceAs (Decidable (∀ task ∈ state.tasks[index]?, ∀ value ∈ task.value,
        value = state.values task.counter))

theorem settled_of_idle (idle : state.tasks = []) :
    state.settled counter = state.values counter := by
  rw [settled, idle]
  exact Int.add_zero _

theorem settled_start (state : State Counter) (task : Adder Counter) :
    (state.start task).settled counter =
      state.settled counter + added counter task.additions := by
  simp only [settled, start, List.map_append, List.map_singleton, List.sum_append,
    List.sum_singleton]
  exact (Int.add_assoc _ _ _).symm

end State

theorem sum_map_eraseIdx {α : Type u} {list : List α} {index : Nat} {element : α}
    (found : list[index]? = some element) (amount : α → Int) :
    amount element + ((list.eraseIdx index).map amount).sum = (list.map amount).sum := by
  rcases List.getElem?_eq_some_iff.mp found with ⟨bound, rfl⟩
  exact ((List.getElem_cons_eraseIdx_perm bound).map amount).sum_eq

namespace State

variable {state next : State Counter} {index : Nat}

theorem settled_read (reads : state.access (.read index) = some next) (counter : Counter) :
    next.settled counter = state.settled counter := by
  cases found : state.tasks[index]? with
  | none => simp [access, found] at reads
  | some task =>
      simp only [access, found, Option.ite_none_left_eq_some, Option.some.injEq] at reads
      rcases reads with ⟨-, rfl⟩
      have taken := sum_map_eraseIdx found fun task => added counter task.additions
      simp only [settled, List.map_append, List.sum_append, List.map_singleton, List.sum_singleton]
      rw [← taken, Int.add_comm (added counter task.additions)]
      rfl

/-- Storing changes the settled value of the counter by what has been stored in between. -/
theorem settled_store {task : Adder Counter} {value : Int} (found : state.tasks[index]? = some task)
    (hasRead : task.value = some value) (stores : state.access (.store index) = some next)
    (counter : Counter) :
    next.settled counter = state.settled counter +
      if task.counter = counter then value - state.values counter else 0 := by
  simp only [access, found, hasRead, Option.some.injEq] at stores
  subst stores
  have taken := sum_map_eraseIdx found fun task => added counter task.additions
  simp only [settled, List.map_append, List.sum_append, added_rest]
  rw [← taken, Adder.additions, added_cons]
  by_cases same : task.counter = counter
  · subst same
    rw [Function.update_self, if_pos rfl, if_pos rfl]
    omega
  · rw [Function.update_of_ne (Ne.symm same), if_neg same, if_neg same]
    omega

theorem exists_of_store (stores : state.access (.store index) = some next) :
    ∃ task value, state.tasks[index]? = some task ∧ task.value = some value := by
  cases found : state.tasks[index]? with
  | none => simp [access, found] at stores
  | some task =>
      cases hasRead : task.value with
      | none => simp [access, found, hasRead] at stores
      | some value => exact ⟨task, value, rfl, hasRead⟩

/-- Every settled value is kept exactly if the access is current. -/
theorem settled_eq_iff_current {access : Access} (accesses : state.access access = some next) :
    (∀ counter, next.settled counter = state.settled counter) ↔ state.Current access := by
  cases access with
  | read index => exact iff_of_true (settled_read accesses) trivial
  | store index =>
      rcases exists_of_store accesses with ⟨task, value, found, hasRead⟩
      have changes := settled_store found hasRead accesses
      constructor
      · intro kept other otherFound otherValue otherRead
        obtain rfl : task = other := Option.some.inj (found.symm.trans otherFound)
        obtain rfl : value = otherValue := Option.some.inj (hasRead.symm.trans otherRead)
        have change := changes task.counter
        rw [kept, if_pos rfl] at change
        omega
      · intro current counter
        rw [changes, current task found value hasRead]
        split
        · next same =>
            subst same
            omega
        · exact Int.add_zero _

end State

end SharedCounters
