import Mathlib.Logic.Relation

/-!
# Guarded transition systems

A system is a set of initial states and a guarded, executable step function:
`step state label` is `none` when `label` cannot happen in `state`.  The file
gives finite runs, the states reachable by runs whose steps all meet a side
condition, the induction rule for invariants of those states, properties that
hold throughout a run, history variables, and the transfer of invariants along
an abstraction whose concrete steps are sequences of abstract moves.
-/

namespace Transition

universe u v w x

/-- A transition system with an executable, guarded step function. -/
structure System (State : Type u) (Label : Type v) where
  /-- The states a run may start from. -/
  Initial : State → Prop
  /-- The state after `label`, if `label` is enabled. -/
  step : State → Label → Option State

namespace System

variable {State : Type u} {Label : Type v} (system : System State Label)

/-- The states reached by runs in which every step meets `admissible`. -/
inductive ReachableBy (admissible : State → Label → Prop) : State → Prop where
  | initial {state : State} (start : system.Initial state) : ReachableBy admissible state
  | step {state next : State} {label : Label} (reached : ReachableBy admissible state)
      (meets : admissible state label) (enabled : system.step state label = some next) :
      ReachableBy admissible next

/-- The states reached by any run. -/
def Reachable (state : State) : Prop :=
  system.ReachableBy (fun _ _ => True) state

/-- Perform `labels` in order; `none` as soon as one of them is not enabled. -/
def run (state : State) (labels : List Label) : Option State :=
  labels.foldlM system.step state

/-- Every step of performing `labels` meets `admissible`. -/
def RunMeets (admissible : State → Label → Prop) : State → List Label → Prop
  | _, [] => True
  | state, label :: labels =>
      admissible state label ∧ ∀ next, system.step state label = some next →
        RunMeets admissible next labels

instance decidableRunMeets (admissible : State → Label → Prop)
    [∀ state, DecidablePred (admissible state)] :
    (labels : List Label) → (state : State) → Decidable (system.RunMeets admissible state labels)
  | [], _ => isTrue trivial
  | label :: labels, state =>
      have : DecidablePred fun next => system.RunMeets admissible next labels :=
        decidableRunMeets admissible labels
      inferInstanceAs (Decidable (admissible state label ∧
        ∀ next ∈ system.step state label, system.RunMeets admissible next labels))

/-- Every state of performing `labels` satisfies `Holds`, the first one included. -/
def Throughout (Holds : State → Prop) : State → List Label → Prop
  | state, [] => Holds state
  | state, label :: labels =>
      Holds state ∧ ∀ next, system.step state label = some next → Throughout Holds next labels

variable {system}

/-- A run whose steps meet one side condition is a run whose steps meet any it implies. -/
theorem ReachableBy.mono {admissible weaker : State → Label → Prop} {state : State}
    (reached : system.ReachableBy admissible state)
    (implies : ∀ state label, admissible state label → weaker state label) :
    system.ReachableBy weaker state := by
  induction reached with
  | initial start => exact .initial start
  | step _ meets enabled ih => exact .step ih (implies _ _ meets) enabled

/-- Dropping the side condition keeps a state reachable. -/
theorem ReachableBy.reachable {admissible : State → Label → Prop} {state : State}
    (reached : system.ReachableBy admissible state) : system.Reachable state :=
  reached.mono fun _ _ _ => trivial

/-- The invariant rule for runs whose steps all meet a side condition. -/
theorem ReachableBy.invariant {admissible : State → Label → Prop} {Inv : State → Prop}
    (start : ∀ state, system.Initial state → Inv state)
    (preserved : ∀ state label next, Inv state → admissible state label →
      system.step state label = some next → Inv next)
    {state : State} (reached : system.ReachableBy admissible state) : Inv state := by
  induction reached with
  | initial initial => exact start _ initial
  | step _ meets enabled ih => exact preserved _ _ _ ih meets enabled

/-- The invariant rule that may use what is already known of every reachable state. -/
theorem ReachableBy.invariant_with {admissible : State → Label → Prop} {Known Inv : State → Prop}
    (known : ∀ state, system.Reachable state → Known state)
    (start : ∀ state, system.Initial state → Inv state)
    (preserved : ∀ state label next, Known state → Inv state → admissible state label →
      system.step state label = some next → Inv next)
    {state : State} (reached : system.ReachableBy admissible state) : Inv state := by
  induction reached with
  | initial initial => exact start _ initial
  | step before meets enabled ih =>
      exact preserved _ _ _ (known _ before.reachable) ih meets enabled

@[simp]
theorem run_nil (state : State) : system.run state [] = some state :=
  rfl

@[simp]
theorem run_cons (state : State) (label : Label) (labels : List Label) :
    system.run state (label :: labels) =
      (system.step state label).bind fun next => system.run next labels :=
  rfl

/-- The second part of a run starts where the first one ends. -/
theorem run_append (state : State) (early late : List Label) :
    system.run state (early ++ late) =
      (system.run state early).bind fun middle => system.run middle late :=
  List.foldlM_append

/-- A run that never blocks and whose steps meet a side condition stays within it. -/
theorem ReachableBy.run {admissible : State → Label → Prop} {state final : State}
    {labels : List Label} (reached : system.ReachableBy admissible state)
    (meets : system.RunMeets admissible state labels)
    (runs : system.run state labels = some final) : system.ReachableBy admissible final := by
  induction labels generalizing state with
  | nil =>
      simp only [run_nil, Option.some.injEq] at runs
      subst runs
      exact reached
  | cons label labels ih =>
      rw [run_cons, Option.bind_eq_some_iff] at runs
      rcases runs with ⟨next, enabled, rest⟩
      exact ih (.step reached meets.1 enabled) (meets.2 next enabled) rest

theorem runMeets_true (state : State) (labels : List Label) :
    system.RunMeets (fun _ _ => True) state labels := by
  induction labels generalizing state with
  | nil => trivial
  | cons label labels ih => exact ⟨trivial, fun next _ => ih next⟩

/-- A run from a reachable state ends in a reachable state. -/
theorem Reachable.of_run {state final : State} {labels : List Label}
    (reached : system.Reachable state) (runs : system.run state labels = some final) :
    system.Reachable final :=
  ReachableBy.run reached (runMeets_true state labels) runs

theorem reachable_of_run {state final : State} {labels : List Label}
    (start : system.Initial state) (runs : system.run state labels = some final) :
    system.Reachable final :=
  Reachable.of_run (.initial start) runs

/-- Where a side condition is met exactly by the steps that keep a property, and a property lost is
never regained, a run keeps the property exactly when all of its steps meet the condition. -/
theorem runMeets_iff_of_exact {admissible : State → Label → Prop} {Known Holds : State → Prop}
    (known : ∀ state label next, Known state → system.step state label = some next → Known next)
    (earlier : ∀ state label next, Known state → system.step state label = some next →
      Holds next → Holds state)
    (exact : ∀ state label next, Known state → Holds state →
      system.step state label = some next → (Holds next ↔ admissible state label))
    {state final : State} {labels : List Label} (start : Known state) (holds : Holds state)
    (runs : system.run state labels = some final) :
    Holds final ↔ system.RunMeets admissible state labels := by
  have lost : ∀ (labels : List Label) (state : State), Known state →
      system.run state labels = some final → Holds final → Holds state := by
    intro labels
    induction labels with
    | nil =>
        intro state _ runs kept
        rw [run_nil, Option.some.injEq] at runs
        rwa [runs]
    | cons label labels ih =>
        intro state start runs kept
        rw [run_cons, Option.bind_eq_some_iff] at runs
        rcases runs with ⟨next, enabled, rest⟩
        exact earlier state label next start enabled
          (ih next (known state label next start enabled) rest kept)
  induction labels generalizing state with
  | nil =>
      rw [run_nil, Option.some.injEq] at runs
      rw [← runs]
      exact iff_of_true holds trivial
  | cons label labels ih =>
      rw [run_cons, Option.bind_eq_some_iff] at runs
      rcases runs with ⟨next, enabled, rest⟩
      have next_known := known state label next start enabled
      have step_iff := exact state label next start holds enabled
      constructor
      · intro kept
        have next_holds := lost labels next next_known rest kept
        refine ⟨step_iff.mp next_holds, ?_⟩
        intro other other_enabled
        rw [enabled, Option.some.injEq] at other_enabled
        subst other_enabled
        exact (ih next_known next_holds rest).mp kept
      · rintro ⟨meets, later⟩
        exact (ih next_known (step_iff.mpr meets) rest).mpr (later next enabled)

/-- Where a side condition is met exactly by the steps that keep a property, a run has the property
throughout exactly when all of its steps meet the condition. -/
theorem throughout_iff_runMeets {admissible : State → Label → Prop} {Known Holds : State → Prop}
    (known : ∀ state label next, Known state → system.step state label = some next → Known next)
    (exact : ∀ state label next, Known state → Holds state →
      system.step state label = some next → (Holds next ↔ admissible state label))
    (enabled : ∀ state label, ∃ next, system.step state label = some next)
    {state : State} (labels : List Label) (start : Known state) (holds : Holds state) :
    system.Throughout Holds state labels ↔ system.RunMeets admissible state labels := by
  induction labels generalizing state with
  | nil => exact iff_of_true holds trivial
  | cons label labels ih =>
      rcases enabled state label with ⟨next, steps⟩
      have next_known := known state label next start steps
      have step_iff := exact state label next start holds steps
      have later : ∀ other, system.step state label = some other → other = next := by
        intro other other_steps
        rw [steps, Option.some.injEq] at other_steps
        exact other_steps.symm
      constructor
      · rintro ⟨-, throughout⟩
        have rest := throughout next steps
        have next_holds : Holds next := by
          cases labels with
          | nil => exact rest
          | cons => exact rest.1
        refine ⟨step_iff.mp next_holds, ?_⟩
        intro other other_steps
        rcases later other other_steps with rfl
        exact (ih next_known next_holds).mp rest
      · rintro ⟨meets, rest⟩
        refine ⟨holds, ?_⟩
        intro other other_steps
        rcases later other other_steps with rfl
        exact (ih next_known (step_iff.mpr meets)).mpr (rest other other_steps)

/-! ## History variables -/

section History

variable {History : Type w}

/-- `system` with a history variable: every step updates it, and none depends on it. -/
def withHistory (system : System State Label) (start : History)
    (update : History → State → Label → History) : System (State × History) Label where
  Initial both := system.Initial both.1 ∧ both.2 = start
  step both label := (system.step both.1 label).map fun next => (next, update both.2 both.1 label)

variable {system : System State Label} {start : History}
  {update : History → State → Label → History}

/-- Forgetting the history leaves a run of the system. -/
theorem ReachableBy.forget {admissible : State × History → Label → Prop}
    {weaker : State → Label → Prop} {both : State × History}
    (reached : (system.withHistory start update).ReachableBy admissible both)
    (implies : ∀ both label, admissible both label → weaker both.1 label) :
    system.ReachableBy weaker both.1 := by
  induction reached with
  | initial begins => exact .initial begins.1
  | step _ meets enabled ih =>
      simp only [withHistory, Option.map_eq_some_iff] at enabled
      rcases enabled with ⟨next, steps, rfl⟩
      exact .step ih (implies _ _ meets) steps

/-- A part of the history that is updated by itself is a history. -/
theorem ReachableBy.project {Part : Type x} {part : History → Part} {begin : Part}
    {change : Part → State → Label → Part} {admissible : State × History → Label → Prop}
    {weaker : State × Part → Label → Prop} (starts : part start = begin)
    (changes : ∀ history state label, part (update history state label) =
      change (part history) state label)
    (implies : ∀ both label, admissible both label → weaker (both.1, part both.2) label)
    {both : State × History}
    (reached : (system.withHistory start update).ReachableBy admissible both) :
    (system.withHistory begin change).ReachableBy weaker (both.1, part both.2) := by
  induction reached with
  | initial begins =>
      refine .initial ⟨begins.1, ?_⟩
      rw [begins.2, starts]
  | @step earlier next label _ meets enabled ih =>
      simp only [withHistory, Option.map_eq_some_iff] at enabled
      rcases enabled with ⟨state, steps, rfl⟩
      refine .step ih (implies earlier label meets) ?_
      simp only [withHistory, steps, Option.map_some, changes]

/-- The invariant rule for a system with a history, which may use what is known of the states. -/
theorem ReachableBy.history_invariant {admissible : State × History → Label → Prop}
    {weaker : State → Label → Prop} {Known : State → Prop} {Inv : State → History → Prop}
    (implies : ∀ both label, admissible both label → weaker both.1 label)
    (known : ∀ state, system.ReachableBy weaker state → Known state)
    (begins : ∀ state, system.Initial state → Inv state start)
    (preserved : ∀ state history label next, Known state → Inv state history →
      admissible (state, history) label → system.step state label = some next →
        Inv next (update history state label))
    {both : State × History}
    (reached : (system.withHistory start update).ReachableBy admissible both) :
    Inv both.1 both.2 := by
  induction reached with
  | initial initial =>
      rw [initial.2]
      exact begins _ initial.1
  | step before meets enabled ih =>
      simp only [withHistory, Option.map_eq_some_iff] at enabled
      rcases enabled with ⟨next, steps, rfl⟩
      exact preserved _ _ _ _ (known _ (before.forget implies)) ih meets steps

end History

end System

/-- A predicate preserved by single moves is preserved by finite sequences of them. -/
theorem preserved_of_moves {State : Type u} {Move : State → State → Prop} {Inv : State → Prop}
    (preserved : ∀ before after, Move before after → Inv before → Inv after)
    {before after : State} (moves : Relation.ReflTransGen Move before after)
    (holds : Inv before) : Inv after := by
  induction moves with
  | refl => exact holds
  | tail _ move ih => exact preserved _ _ move ih

/-- `system` refines the moves: along `abstraction`, each of its admissible steps from a state of
which `Known` holds is a finite sequence of abstract moves, and the moves preserve `Known`. -/
structure Refines {State : Type u} {Label : Type v} {Abstract : Type w}
    (system : System State Label) (abstraction : State → Abstract)
    (admissible : State → Label → Prop) (Known : Abstract → Prop)
    (Move : Abstract → Abstract → Prop) : Prop where
  start : ∀ state, system.Initial state → Known (abstraction state)
  step : ∀ state label next, Known (abstraction state) → admissible state label →
    system.step state label = some next →
      Relation.ReflTransGen Move (abstraction state) (abstraction next)
  preserved : ∀ before after, Move before after → Known before → Known after

namespace Refines

variable {State : Type u} {Label : Type v} {Abstract : Type w} {system : System State Label}
  {abstraction : State → Abstract} {admissible : State → Label → Prop} {Known : Abstract → Prop}
  {Move : Abstract → Abstract → Prop}

/-- What is known holds of the abstraction of every state reached. -/
theorem known (refines : Refines system abstraction admissible Known Move) {state : State}
    (reached : system.ReachableBy admissible state) : Known (abstraction state) := by
  induction reached with
  | initial initial => exact refines.start _ initial
  | step _ meets enabled ih =>
      exact preserved_of_moves refines.preserved (refines.step _ _ _ ih meets enabled) ih

/-- An invariant of the abstract moves, which may use what is known, holds of the abstraction of
every state reached. -/
theorem invariant (refines : Refines system abstraction admissible Known Move)
    {Inv : Abstract → Prop} (start : ∀ state, system.Initial state → Inv (abstraction state))
    (preserved : ∀ before after, Move before after → Known before → Inv before → Inv after)
    {state : State} (reached : system.ReachableBy admissible state) : Inv (abstraction state) := by
  induction reached with
  | initial initial => exact start _ initial
  | step before meets enabled ih =>
      have known := refines.known before
      have both : ∀ earlier later, Move earlier later → Known earlier ∧ Inv earlier →
          Known later ∧ Inv later := by
        intro earlier later move holds
        exact ⟨refines.preserved _ _ move holds.1, preserved _ _ move holds.1 holds.2⟩
      exact (preserved_of_moves both (refines.step _ _ _ known meets enabled) ⟨known, ih⟩).2

end Refines

end Transition
