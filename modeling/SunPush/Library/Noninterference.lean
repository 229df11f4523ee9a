import Mathlib.Data.List.Basic

/-!
# Outputs that do not depend on secrets

A component reacts to an input with a next state and some outputs, and can look
at a secret, chosen anew for every reaction.  A run discloses nothing when its
outputs are the same whatever the secrets were.  Where no secret decides the
next state or the number of outputs, the reactions can be checked one by one.
-/

namespace Noninterference

universe u v w x

variable {State : Type u} {Input : Type v} {Secret : Type w} {Output : Type x}

/-- How a component reacts to an input in the presence of a secret. -/
abbrev Component (State : Type u) (Input : Type v) (Secret : Type w) (Output : Type x) :=
  State → Input → Secret → State × List Output

namespace Component

variable (component : Component State Input Secret Output)

/-- The state after a sequence of inputs, each with a secret, and the outputs on the way. -/
def run : State → List (Input × Secret) → State × List Output
  | state, [] => (state, [])
  | state, (input, secret) :: rest =>
      let first := component state input secret
      let later := run first.1 rest
      (later.1, first.2 ++ later.2)

/-- The second part of a run starts where the first one ends. -/
theorem run_append (state : State) (early late : List (Input × Secret)) :
    component.run state (early ++ late) =
      ((component.run (component.run state early).1 late).1,
        (component.run state early).2 ++
          (component.run (component.run state early).1 late).2) := by
  induction early generalizing state with
  | nil => rfl
  | cons first early ih => simp only [List.cons_append, run, ih, List.append_assoc]

/-- Whatever the secrets are, the outputs are the same. -/
def Undisclosed (state : State) (inputs : List Input) : Prop :=
  ∀ left right : List (Input × Secret), left.map Prod.fst = inputs →
    right.map Prod.fst = inputs → (component.run state left).2 = (component.run state right).2

/-- The outputs of one reaction depend on the secret. -/
def Discloses (state : State) (input : Input) : Prop :=
  ∃ secret other, (component state input secret).2 ≠ (component state input other).2

/-- The secret decides neither the next state, which is `next`, nor the number of outputs. -/
structure Blind (next : State → Input → State) : Prop where
  state : ∀ state input secret, (component state input secret).1 = next state input
  count : ∀ state input secret other,
    (component state input secret).2.length = (component state input other).2.length

variable {component} {next : State → Input → State}

theorem Undisclosed.nil (state : State) : component.Undisclosed state [] := by
  intro left right left_inputs right_inputs
  rw [List.map_eq_nil_iff.mp left_inputs, List.map_eq_nil_iff.mp right_inputs]

theorem map_fst_default [Inhabited Secret] (inputs : List Input) :
    (inputs.map fun input => (input, (default : Secret))).map Prod.fst = inputs := by
  rw [List.map_map]
  exact List.map_id inputs

/-- The first reaction discloses nothing, nor do those that follow it. -/
theorem undisclosed_cons [Inhabited Secret] (blind : component.Blind next) {state : State}
    {input : Input} {inputs : List Input} :
    component.Undisclosed state (input :: inputs) ↔
      ¬component.Discloses state input ∧ component.Undisclosed (next state input) inputs := by
  constructor
  · intro undisclosed
    constructor
    · rintro ⟨secret, other, different⟩
      have rest := congrArg (input :: ·) (@map_fst_default Input Secret _ inputs)
      have same := undisclosed ((input, secret) :: inputs.map fun later => (later, default))
        ((input, other) :: inputs.map fun later => (later, default)) rest rest
      simp only [run, blind.state] at same
      exact different (List.append_inj same (blind.count state input secret other)).1
    · intro left right left_inputs right_inputs
      have same := undisclosed ((input, default) :: left) ((input, default) :: right)
        (congrArg (input :: ·) left_inputs) (congrArg (input :: ·) right_inputs)
      simp only [run, blind.state] at same
      exact List.append_cancel_left same
  · rintro ⟨first, later⟩ left right left_inputs right_inputs
    rw [List.map_eq_cons_iff] at left_inputs right_inputs
    rcases left_inputs with ⟨⟨leftInput, secret⟩, left, rfl, left_input, left_inputs⟩
    rcases right_inputs with ⟨⟨rightInput, other⟩, right, rfl, right_input, right_inputs⟩
    simp only at left_input right_input
    subst left_input right_input
    simp only [run, blind.state]
    rw [later left right left_inputs right_inputs]
    by_cases outputs : (component state rightInput secret).2 = (component state rightInput other).2
    · rw [outputs]
    · exact absurd ⟨secret, other, outputs⟩ first

/-- A run discloses nothing exactly when none of its reactions does. -/
theorem undisclosed_iff_forall [Inhabited Secret] (blind : component.Blind next) {state : State}
    {inputs : List Input} :
    component.Undisclosed state inputs ↔
      ∀ before input after, inputs = before ++ input :: after →
        ¬component.Discloses (before.foldl next state) input := by
  induction inputs generalizing state with
  | nil =>
      refine iff_of_true (.nil state) ?_
      intro before input after split
      simp at split
  | cons first rest ih =>
      rw [undisclosed_cons blind, ih]
      constructor
      · rintro ⟨first_undisclosed, later⟩ before input after split
        cases before with
        | nil =>
            rw [List.nil_append, List.cons_eq_cons] at split
            rw [← split.1]
            exact first_undisclosed
        | cons head before =>
            rw [List.cons_append, List.cons_eq_cons] at split
            rw [List.foldl_cons, ← split.1]
            exact later before input after split.2
      · intro all
        refine ⟨all [] first rest rfl, ?_⟩
        intro before input after split
        exact all (first :: before) input after (by rw [split]; rfl)

end Component

end Noninterference
