import Mathlib.Data.List.Basic
import Mathlib.Tactic.Common

/-!
# Messages in flight

Any number of FIFO channels as one list of messages, oldest first, each with the
tag of its channel.  The message received next on a channel is the first one
with its tag, so the order on each channel is kept and that of messages on
different channels is not observed.
-/

namespace Channels

universe u v

variable {Tag : Type u} {Message : Type v} [DecidableEq Tag]

/-- The oldest message of a channel, and the messages in flight without it. -/
def take (tag : Tag) : List (Tag × Message) → Option (Message × List (Tag × Message))
  | [] => none
  | (other, message) :: later =>
      if other = tag then some (message, later)
      else (take tag later).map fun found => (found.1, (other, message) :: found.2)

theorem take_cons_of_ne {tag other : Tag} (different : other ≠ tag) {head message : Message}
    {later rest : List (Tag × Message)}
    (taken : take tag ((other, head) :: later) = some (message, rest)) :
    ∃ others, take tag later = some (message, others) ∧ rest = (other, head) :: others := by
  rw [take, if_neg different, Option.map_eq_some_iff] at taken
  rcases taken with ⟨⟨found, others⟩, found_eq, same⟩
  rcases Prod.mk.inj same with ⟨rfl, rfl⟩
  exact ⟨others, found_eq, rfl⟩

/-- Receiving takes one message out of those in flight and keeps the others. -/
theorem perm_of_take {tag : Tag} {flight rest : List (Tag × Message)} {message : Message}
    (taken : take tag flight = some (message, rest)) : flight.Perm ((tag, message) :: rest) := by
  induction flight generalizing rest with
  | nil => contradiction
  | cons head later ih =>
      rcases head with ⟨other, first⟩
      by_cases same : other = tag
      · subst same
        rw [take, if_pos rfl, Option.some.injEq, Prod.mk.injEq] at taken
        rw [taken.1, taken.2]
      · rcases take_cons_of_ne same taken with ⟨others, taken_later, rfl⟩
        exact ((ih taken_later).cons (other, first)).trans (List.Perm.swap _ _ others)

/-- What is counted in flight before is what is counted afterwards and of the message itself. -/
theorem countP_take {tag : Tag} {flight rest : List (Tag × Message)} {message : Message}
    (taken : take tag flight = some (message, rest)) (counted : Tag × Message → Bool) :
    flight.countP counted = rest.countP counted + if counted (tag, message) then 1 else 0 := by
  rw [(perm_of_take taken).countP_eq]
  exact List.countP_cons

theorem mem_of_take {tag : Tag} {flight rest : List (Tag × Message)} {message : Message}
    (taken : take tag flight = some (message, rest)) :
    (tag, message) ∈ flight ∧ ∀ entry ∈ rest, entry ∈ flight := by
  have permuted := perm_of_take taken
  refine ⟨permuted.mem_iff.mpr List.mem_cons_self, ?_⟩
  intro entry entry_mem
  exact permuted.mem_iff.mpr (List.mem_cons_of_mem _ entry_mem)

/-- A channel with a message in flight has an oldest one. -/
theorem exists_take_of_mem {tag : Tag} {message : Message} {flight : List (Tag × Message)}
    (entry_mem : (tag, message) ∈ flight) : ∃ taken, take tag flight = some taken := by
  induction flight with
  | nil => contradiction
  | cons head later ih =>
      rcases head with ⟨other, first⟩
      by_cases same : other = tag
      · exact ⟨_, if_pos same⟩
      · rcases List.mem_cons.mp entry_mem with here | there
        · exact absurd (congrArg Prod.fst here).symm same
        · rcases ih there with ⟨taken, taken_eq⟩
          refine ⟨(taken.1, (other, first) :: taken.2), ?_⟩
          rw [take, if_neg same, taken_eq, Option.map_some]

end Channels
