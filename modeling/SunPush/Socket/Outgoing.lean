import SunPush.Socket.Send
import SunPush.Library.Transition
import Mathlib.Logic.Function.Basic

/-!
# The outgoing stream of a connection

`Send` hands the address of its stack buffer to `async_write` and returns.  What
the transport takes later are the bytes the buffer's memory holds by then, and
nothing orders the pending writes of one connection.  The model has any number
of threads, each with the stack memory its `SendBuf` occupies.  Its steps are a
call of `Send`, one partial write of a pending operation, and any other use of a
thread's stack.

The stream keeps the frames as they were accepted as long as every write takes
from the oldest pending operation and no stack is reused under a pending write.
-/

namespace SunPush

namespace Outgoing

/-- A pending `async_write`: the thread whose `SendBuf` it reads, the next byte to take and the
number of bytes that remain. -/
structure Write (Thread : Type) where
  thread : Thread
  position : Nat
  remaining : Nat

/-- An open connection and the threads that send on it. -/
structure State (Thread : Type) where
  /-- The memory each thread's `SendBuf` occupies. -/
  sendBuf : Thread → Memory
  /-- The pending operations in the order of acceptance. -/
  pending : List (Write Thread)
  /-- The bytes put on the socket. -/
  wire : List UInt8
  /-- The frames of the accepted calls in the order of acceptance. -/
  accepted : List (List UInt8)

/-- What can happen on the connection. -/
inductive Label (Thread : Type) where
  /-- `Send` is called. -/
  | send (thread : Thread) (data : Nat → UInt8) (length : UInt16) (beyond : Nat → UInt8)
  /-- The pending operation at `index` puts `count` more bytes on the socket. -/
  | write (index count : Nat)
  /-- The thread uses its stack for something else. -/
  | reuse (thread : Thread) (memory : Memory)

/-- The complete frame of a call: the header `Send` copies, then the payload. -/
def frame (data : Nat → UInt8) (length : UInt16) (beyond : Nat → UInt8) : List UInt8 :=
  (List.range 4).map (wordBytes length.toNat beyond) ++ (List.range length.toNat).map data

variable {Thread : Type}

/-- The bytes an operation has still to put on the socket, as the buffer holds them now. -/
def Write.rest (write : Write Thread) (sendBuf : Thread → Memory) : List UInt8 :=
  (sendBuf write.thread).read write.position write.remaining

/-- The operation after `count` bytes; it is finished when none remain. -/
def Write.advance (write : Write Thread) (count : Nat) : Option (Write Thread) :=
  if count < write.remaining then
    some { write with position := write.position + count, remaining := write.remaining - count }
  else none

section System

variable [DecidableEq Thread]

def step (state : State Thread) : Label Thread → Option (State Thread)
  | .send thread data length beyond =>
      let call := SunPush.send false true data length beyond
      match call.sent with
      | none => some state
      | some sent =>
          some { state with
            sendBuf := Function.update state.sendBuf thread (call.sendBuf (state.sendBuf thread))
            pending := state.pending ++ [⟨thread, 0, sent.toNat⟩]
            accepted := state.accepted ++ [frame data length beyond] }
  | .write index count =>
      match state.pending[index]? with
      | none => none
      | some write =>
          if 1 ≤ count ∧ count ≤ write.remaining then
            some { state with
              pending :=
                state.pending.take index ++ (write.advance count).toList ++
                  state.pending.drop (index + 1)
              wire := state.wire ++ (write.rest state.sendBuf).take count }
          else none
  | .reuse thread memory =>
      some { state with sendBuf := Function.update state.sendBuf thread memory }

/-- Nothing is sent yet; the stacks hold anything. -/
def system (Thread : Type) [DecidableEq Thread] :
    Transition.System (State Thread) (Label Thread) where
  Initial state := state.pending = [] ∧ state.wire = [] ∧ state.accepted = []
  step := step

/-- The thread's buffer is not in use by a pending operation. -/
def Unused (state : State Thread) (thread : Thread) : Prop :=
  ∀ write ∈ state.pending, write.thread ≠ thread

/-- A write takes from the oldest pending operation, and a stack is not reused, by an accepted call
or otherwise, while a pending operation reads it. -/
def Orderly (state : State Thread) : Label Thread → Prop
  | .send thread data length beyond =>
      (SunPush.send false true data length beyond).sent = none ∨ Unused state thread
  | .write index _ => index = 0
  | .reuse thread _ => Unused state thread

instance (state : State Thread) (thread : Thread) : Decidable (Unused state thread) :=
  inferInstanceAs (Decidable (∀ write ∈ state.pending, write.thread ≠ thread))

instance decidableOrderly (state : State Thread) :
    (label : Label Thread) → Decidable (Orderly state label)
  | .send thread data length beyond =>
      inferInstanceAs (Decidable
        ((SunPush.send false true data length beyond).sent = none ∨ Unused state thread))
  | .write index _ => inferInstanceAs (Decidable (index = 0))
  | .reuse thread _ => inferInstanceAs (Decidable (Unused state thread))

/-- What is on the socket is a prefix of the accepted frames. -/
def Intact (state : State Thread) : Prop :=
  state.wire <+: state.accepted.flatten

/-- The bytes on the socket and those the pending operations will take are the accepted frames. -/
def Complete (state : State Thread) : Prop :=
  state.wire ++ state.pending.flatMap (fun write => write.rest state.sendBuf) =
    state.accepted.flatten

end System

theorem Complete.intact {state : State Thread} (complete : Complete state) : Intact state :=
  ⟨_, complete⟩

theorem read_sendBuf {data : Nat → UInt8} {length : UInt16} {beyond : Nat → UInt8} {sent : Int}
    (accepted : (SunPush.send false true data length beyond).sent = some sent) (stack : Memory) :
    ((SunPush.send false true data length beyond).sendBuf stack).read 0 sent.toNat =
      frame data length beyond := by
  have bounded := length.toNat_lt
  by_cases tooBig : maxMsgSize < length.toNat
  · simp [SunPush.send, tooBig, SendCall.refused] at accepted
  · simp only [SunPush.send, if_neg tooBig, Bool.not_true, Bool.false_eq_true, if_false,
      Option.some.injEq] at accepted ⊢
    subst accepted
    have size : CInteger.toSizeT (length.toNat : Int) = length.toNat := by
      rw [CInteger.toSizeT_of_nonneg (by omega) (by omega), Int.toNat_natCast]
    have total : ((length.toNat : Int) + 4).toNat = 4 + length.toNat := by omega
    simp only [SendCall.sendBuf, List.foldl_cons, List.foldl_nil, size]
    rw [total, Memory.read_add, Int.zero_add]
    change _ ++ Memory.read _ 4 _ = _
    rw [Memory.read_copy_self, Memory.read_copy_of_disjoint (by omega), Memory.read_copy_self]
    rfl

theorem Write.rest_eq (write : Write Thread) (sendBuf : Thread → Memory) {count : Nat}
    (fits : count ≤ write.remaining) :
    write.rest sendBuf = (write.rest sendBuf).take count ++
      (write.advance count).toList.flatMap (fun later => later.rest sendBuf) := by
  have split : write.rest sendBuf = (sendBuf write.thread).read write.position count ++
      (sendBuf write.thread).read (write.position + count) (write.remaining - count) := by
    rw [← Memory.read_add, Nat.add_sub_cancel' fits]
    rfl
  have taken : (write.rest sendBuf).take count =
      (sendBuf write.thread).read write.position count := by
    rw [split]
    exact List.take_left' (by simp)
  rw [taken, split]
  by_cases more : count < write.remaining
  · simp [advance, more, rest]
  · have none : write.remaining - count = 0 := by omega
    simp [advance, more, none]

section Runs

variable [DecidableEq Thread]

theorem flatMap_rest_update {state : State Thread} {thread : Thread}
    (unused : Unused state thread) (memory : Memory) :
    state.pending.flatMap
        (fun write => write.rest (Function.update state.sendBuf thread memory)) =
      state.pending.flatMap (fun write => write.rest state.sendBuf) := by
  apply List.flatMap_congr
  intro write write_mem
  simp only [Write.rest]
  rw [Function.update_of_ne (unused write write_mem)]

theorem Complete.step {state next : State Thread} {label : Label Thread}
    (complete : Complete state) (orderly : Orderly state label)
    (enabled : step state label = some next) : Complete next := by
  cases label with
  | send thread data length beyond =>
      simp only [Outgoing.step] at enabled
      cases accepted : (SunPush.send false true data length beyond).sent with
      | none =>
          simp only [accepted, Option.some.injEq] at enabled
          subst enabled
          exact complete
      | some sent =>
          have unused : Unused state thread := by
            rcases orderly with refused | unused
            · rw [accepted] at refused
              contradiction
            · exact unused
          simp only [accepted, Option.some.injEq] at enabled
          subst enabled
          simp only [Complete, List.flatMap_append, List.flatten_append, List.flatMap_singleton,
            List.flatten_singleton] at complete ⊢
          rw [flatMap_rest_update unused, ← List.append_assoc, complete]
          simp only [Write.rest, Function.update_self]
          rw [Nat.cast_zero, read_sendBuf accepted]
  | write index count =>
      change index = 0 at orderly
      subst orderly
      simp only [Outgoing.step] at enabled
      cases pending : state.pending with
      | nil => simp [pending] at enabled
      | cons write later =>
          simp only [pending, List.getElem?_cons_zero] at enabled
          by_cases bounds : 1 ≤ count ∧ count ≤ write.remaining
          · rw [if_pos bounds, Option.some.injEq] at enabled
            subst enabled
            simp only [Complete, pending, List.flatMap_cons, List.take_zero, List.nil_append,
              Nat.zero_add, List.drop_succ_cons, List.drop_zero, List.flatMap_append,
              List.append_assoc] at complete ⊢
            rw [← complete]
            congr 1
            rw [← List.append_assoc, ← Write.rest_eq write state.sendBuf bounds.2]
          · rw [if_neg bounds] at enabled
            contradiction
  | reuse thread memory =>
      simp only [Outgoing.step, Option.some.injEq] at enabled
      subst enabled
      change Unused state thread at orderly
      simp only [Complete] at complete ⊢
      rw [flatMap_rest_update orderly]
      exact complete

/-- In every run whose steps are all orderly, the socket carries a prefix of the accepted
frames. -/
theorem intact_of_orderly {state : State Thread}
    (reached : (system Thread).ReachableBy Orderly state) : Intact state := by
  have complete : Complete state := by
    apply reached.invariant
    · rintro initial ⟨pending, wire, accepted⟩
      simp [Complete, pending, wire, accepted]
    · intro before label after complete orderly enabled
      exact complete.step orderly enabled
  exact complete.intact

end Runs

/-- A connection nothing has been sent on. -/
def idle : State Unit where
  sendBuf _ := Memory.zero
  pending := []
  wire := []
  accepted := []

/-- A connection that two threads are going to send on. -/
def bothIdle : State Bool where
  sendBuf _ := Memory.zero
  pending := []
  wire := []
  accepted := []

/-- Both threads have sent, the first frame has gone out in two parts, and the second as far as its
first byte of payload; meanwhile the first thread has used its stack again. -/
theorem intact_after_partial_writes :
    ∃ state, (system Bool).run bothIdle
        [.send false (fun _ => 65) 1 (fun _ => 0), .send true (fun _ => 66) 2 (fun _ => 0),
          .write 0 3, .write 0 2, .reuse false Memory.zero, .write 0 5] = some state ∧
      state.wire = [1, 0, 0, 0, 65, 2, 0, 0, 0, 66] ∧ state.pending = [⟨true, 5, 1⟩] ∧
      Intact state := by
  have meets : (system Bool).RunMeets Orderly bothIdle
      [.send false (fun _ => 65) 1 (fun _ => 0), .send true (fun _ => 66) 2 (fun _ => 0),
        .write 0 3, .write 0 2, .reuse false Memory.zero, .write 0 5] := by
    decide
  have starts : (system Bool).Initial bothIdle := ⟨rfl, rfl, rfl⟩
  have reached := Transition.System.ReachableBy.run (.initial starts) meets rfl
  exact ⟨_, rfl, by decide, rfl, intact_of_orderly reached⟩

/-- A second call of `Send` reuses the buffer before the first is written: the payload of the
second call goes out in the frame of the first. -/
theorem not_intact_reused :
    ∃ state, (system Unit).Reachable state ∧ ¬Intact state := by
  have runs : ∃ state, (system Unit).run idle
      [.send () (fun _ => 65) 1 (fun _ => 0), .send () (fun _ => 66) 1 (fun _ => 0),
        .write 0 5] = some state ∧ ¬Intact state :=
    ⟨_, rfl, by rw [Intact]; decide⟩
  rcases runs with ⟨state, run, altered⟩
  exact ⟨state, Transition.System.reachable_of_run ⟨rfl, rfl, rfl⟩ run, altered⟩

end Outgoing

end SunPush
