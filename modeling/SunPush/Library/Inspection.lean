import SunPush.Library.Memory

/-!
# Which bytes a computation looks at

An inspection is a computation that reads a memory byte by byte, as a decision
tree: what it reads next depends on the bytes it has read.  It cannot depend on
a byte that it has not read, so two memories that agree on the bytes read give
the same result.
-/

universe u v

/-- A computation that reads single bytes of a memory. -/
inductive Inspection (α : Type u) where
  | done (value : α)
  | byte (offset : Int) (next : UInt8 → Inspection α)

namespace Inspection

variable {α : Type u} {β : Type v}

/-- The result on a memory. -/
def run : Inspection α → Memory → α
  | done value, _ => value
  | byte offset next, memory => (next (memory offset)).run memory

/-- The offsets read, in order. -/
def offsets : Inspection α → Memory → List Int
  | done _, _ => []
  | byte offset next, memory => offset :: (next (memory offset)).offsets memory

def bind : Inspection α → (α → Inspection β) → Inspection β
  | done value, continuation => continuation value
  | byte offset next, continuation => byte offset fun value => (next value).bind continuation

/-- Read the `count` bytes from `offset` on. -/
def block (offset : Int) : Nat → Inspection (List UInt8)
  | 0 => done []
  | count + 1 => byte offset fun first =>
      (block (offset + 1) count).bind fun rest => done (first :: rest)

@[simp]
theorem run_done (value : α) (memory : Memory) : (done value).run memory = value := rfl

@[simp]
theorem offsets_done (value : α) (memory : Memory) : (done value).offsets memory = [] := rfl

@[simp]
theorem run_byte (offset : Int) (next : UInt8 → Inspection α) (memory : Memory) :
    (byte offset next).run memory = (next (memory offset)).run memory := rfl

@[simp]
theorem offsets_byte (offset : Int) (next : UInt8 → Inspection α) (memory : Memory) :
    (byte offset next).offsets memory = offset :: (next (memory offset)).offsets memory := rfl

@[simp]
theorem run_bind (inspection : Inspection α) (continuation : α → Inspection β)
    (memory : Memory) :
    (inspection.bind continuation).run memory =
      (continuation (inspection.run memory)).run memory := by
  induction inspection with
  | done value => rfl
  | byte offset next ih => exact ih (memory offset)

@[simp]
theorem offsets_bind (inspection : Inspection α) (continuation : α → Inspection β)
    (memory : Memory) :
    (inspection.bind continuation).offsets memory =
      inspection.offsets memory ++ (continuation (inspection.run memory)).offsets memory := by
  induction inspection with
  | done value => rfl
  | byte offset next ih => exact congrArg (offset :: ·) (ih (memory offset))

@[simp]
theorem run_block (memory : Memory) (offset : Int) (count : Nat) :
    (block offset count).run memory = memory.read offset count := by
  induction count generalizing offset with
  | zero => simp [block]
  | succ count ih => simp [block, ih, Memory.read_succ]

theorem offsets_block (memory : Memory) (offset : Int) (count : Nat) :
    (block offset count).offsets memory = (List.range count).map fun i : Nat => offset + i := by
  induction count generalizing offset with
  | zero => rfl
  | succ count ih =>
      simp only [block, offsets_byte, offsets_bind, offsets_done, List.append_nil, ih,
        List.range_succ_eq_map, List.map_cons, List.map_map, List.cons.injEq]
      refine ⟨by omega, ?_⟩
      apply List.map_congr_left
      intro i _
      simp only [Function.comp_apply]
      omega

theorem mem_offsets_block {memory : Memory} {offset address : Int} {count : Nat} :
    address ∈ (block offset count).offsets memory ↔
      offset ≤ address ∧ address < offset + count := by
  induction count generalizing offset with
  | zero => simp [block]
  | succ count ih =>
      simp only [block, offsets_byte, offsets_bind, offsets_done, List.append_nil,
        List.mem_cons, ih]
      omega

/-- A computation does not depend on bytes it does not read. -/
theorem run_congr {inspection : Inspection α} {left right : Memory}
    (agree : ∀ offset ∈ inspection.offsets left, right offset = left offset) :
    inspection.run right = inspection.run left := by
  induction inspection with
  | done value => rfl
  | byte offset next ih =>
      have first : right offset = left offset := agree offset List.mem_cons_self
      rw [run_byte, run_byte, first]
      apply ih
      intro later later_mem
      exact agree later (List.mem_cons_of_mem _ later_mem)

end Inspection
