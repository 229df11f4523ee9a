import SunPush.Library.Noninterference

/-!
# Components that serve several parties

What a component does for one of its parties may be all there is to see for that
party.  A share names the part of the state that is kept for the party, the
inputs that concern it, the outputs it sees and the machine it believes to talk
to.  Where every reaction of the component agrees with the share, the party sees
a run of its own machine on its own inputs: it can tell nothing about the others.
-/

namespace Noninterference

universe u v w x y

variable {State : Type u} {Input : Type v} {Secret : Type w} {Output : Type x} {Part : Type y}

/-- What a component looks like to one of the parties it serves. -/
structure Share (State : Type u) (Input : Type v) (Secret : Type w) (Output : Type x)
    (Part : Type y) where
  part : State → Part
  concerns : Input → Bool
  sees : Output → Bool
  machine : Component Part Input Secret Output

namespace Component

variable (component : Component State Input Secret Output)

/-- The component serves the share: an input that concerns the party moves its part and shows it
outputs as its machine says, and any other input does neither. -/
structure Serves (share : Share State Input Secret Output Part) (Known : State → Prop)
    (Admissible : Input → Prop) : Prop where
  known : ∀ state input secret, Known state → Admissible input →
    Known (component state input secret).1
  concerned : ∀ state input secret, Known state → Admissible input → share.concerns input →
    share.part (component state input secret).1 =
        (share.machine (share.part state) input secret).1 ∧
      (component state input secret).2.filter share.sees =
        (share.machine (share.part state) input secret).2
  unconcerned : ∀ state input secret, Known state → Admissible input → ¬share.concerns input →
    share.part (component state input secret).1 = share.part state ∧
      (component state input secret).2.filter share.sees = []

/-- The outputs a run shows to the party. -/
def view (share : Share State Input Secret Output Part) (state : State)
    (inputs : List (Input × Secret)) : List Output :=
  (component.run state inputs).2.filter share.sees

/-- The inputs of a run that concern the party. -/
def Share.own (share : Share State Input Secret Output Part) (inputs : List (Input × Secret)) :
    List (Input × Secret) :=
  inputs.filter fun entry => share.concerns entry.1

variable {component} {share : Share State Input Secret Output Part} {Known : State → Prop}
  {Admissible : Input → Prop}

/-- The party sees a run of its own machine on the inputs that concern it. -/
theorem Serves.run (serves : component.Serves share Known Admissible) {state : State}
    {inputs : List (Input × Secret)} (known : Known state)
    (admissible : ∀ entry ∈ inputs, Admissible entry.1) :
    share.part (component.run state inputs).1 =
        (share.machine.run (share.part state) (Share.own share inputs)).1 ∧
      component.view share state inputs =
        (share.machine.run (share.part state) (Share.own share inputs)).2 := by
  induction inputs generalizing state with
  | nil => exact ⟨rfl, rfl⟩
  | cons first rest ih =>
      rcases first with ⟨input, secret⟩
      have head := admissible (input, secret) List.mem_cons_self
      have later := @ih (component state input secret).1
        (serves.known state input secret known head)
        fun entry entry_mem => admissible entry (List.mem_cons_of_mem _ entry_mem)
      have seen : component.view share state ((input, secret) :: rest) =
          (component state input secret).2.filter share.sees ++
            component.view share (component state input secret).1 rest := List.filter_append ..
      rw [seen]
      by_cases concerned : share.concerns input
      · have reaction := serves.concerned state input secret known head concerned
        have own : Share.own share ((input, secret) :: rest) =
            (input, secret) :: Share.own share rest := List.filter_cons_of_pos concerned
        rw [reaction.1] at later
        rw [own, reaction.2, later.2]
        exact ⟨later.1, rfl⟩
      · have reaction := serves.unconcerned state input secret known head concerned
        have own : Share.own share ((input, secret) :: rest) = Share.own share rest :=
          List.filter_cons_of_neg concerned
        rw [reaction.1] at later
        rw [own, reaction.2, List.nil_append]
        exact later

end Component

end Noninterference
