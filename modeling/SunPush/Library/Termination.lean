import SunPush.Library.Transition

/-!
# Systems that come to rest

Some of the labels of a system are its own work, others arrive from outside.
Where each step of its own work decreases a measure, the system left to itself
works for a bounded number of steps, and it then rests in a state where none of
that work is enabled.
-/

namespace Transition.System

universe u v

variable {State : Type u} {Label : Type v} (system : System State Label)

/-- No step with a label of the given kind is enabled. -/
def AtRest (Works : Label → Prop) (state : State) : Prop :=
  ∀ label, Works label → system.step state label = none

/-- A run of steps of the given kind. -/
structure Working (Works : Label → Prop) (state : State) (labels : List Label) (final : State) :
    Prop where
  works : ∀ label ∈ labels, Works label
  runs : system.run state labels = some final

/-- Steps of the given kind keep what is known and decrease the measure. -/
structure Decreases (Works : Label → Prop) (Known : State → Prop) (measure : State → Nat) :
    Prop where
  known : ∀ state label next, Known state → Works label →
    system.step state label = some next → Known next
  less : ∀ state label next, Known state → Works label →
    system.step state label = some next → measure next < measure state

variable {system} {Works : Label → Prop} {Known : State → Prop} {measure : State → Nat}

theorem Working.nil (state : State) : system.Working Works state [] state where
  works := by simp
  runs := rfl

theorem Working.cons {state next final : State} {label : Label} {labels : List Label}
    (works : Works label) (enabled : system.step state label = some next)
    (rest : system.Working Works next labels final) :
    system.Working Works state (label :: labels) final where
  works := by
    intro other other_mem
    rcases List.mem_cons.mp other_mem with rfl | later
    · exact works
    · exact rest.works other later
  runs := by
    rw [run_cons, enabled]
    exact rest.runs

/-- The first step of a run that works, and what follows it. -/
theorem Working.of_cons {state final : State} {label : Label} {labels : List Label}
    (working : system.Working Works state (label :: labels) final) :
    Works label ∧ ∃ next, system.step state label = some next ∧
      system.Working Works next labels final := by
  have runs := working.runs
  rw [run_cons, Option.bind_eq_some_iff] at runs
  rcases runs with ⟨next, enabled, rest⟩
  refine ⟨working.works label List.mem_cons_self, next, enabled, ?_⟩
  exact
    { works := fun other other_mem => working.works other (List.mem_cons_of_mem _ other_mem)
      runs := rest }

/-- An invariant of the working steps holds at the end of a run of them. -/
theorem Working.preserved {Inv : State → Prop} {state final : State} {labels : List Label}
    (working : system.Working Works state labels final)
    (preserved : ∀ before label after, Inv before → Works label →
      system.step before label = some after → Inv after)
    (holds : Inv state) : Inv final := by
  induction labels generalizing state with
  | nil =>
      have same := working.runs
      rw [run_nil, Option.some.injEq] at same
      rwa [← same]
  | cons label labels ih =>
      rcases working.of_cons with ⟨works, next, enabled, rest⟩
      exact ih rest (preserved state label next holds works enabled)

/-- What is left of the measure bounds the length of a run. -/
theorem Decreases.length_le (decreases : system.Decreases Works Known measure)
    {state final : State} {labels : List Label} (known : Known state)
    (working : system.Working Works state labels final) :
    labels.length + measure final ≤ measure state := by
  induction labels generalizing state with
  | nil =>
      have same := working.runs
      rw [run_nil, Option.some.injEq] at same
      simp [same]
  | cons label labels ih =>
      rcases working.of_cons with ⟨works, next, enabled, rest⟩
      have less := decreases.less state label next known works enabled
      have later := ih (decreases.known state label next known works enabled) rest
      rw [List.length_cons]
      omega

/-- The system left to itself comes to rest. -/
theorem Decreases.exists_atRest (decreases : system.Decreases Works Known measure)
    {state : State} (known : Known state) :
    ∃ labels final, system.Working Works state labels final ∧ system.AtRest Works final := by
  generalize left : measure state = count
  induction count using Nat.strongRecOn generalizing state with
  | ind count ih =>
      by_cases rests : system.AtRest Works state
      · exact ⟨[], state, .nil state, rests⟩
      · simp only [AtRest, Classical.not_forall] at rests
        rcases rests with ⟨label, works, enabled⟩
        rcases Option.ne_none_iff_exists'.mp enabled with ⟨next, steps⟩
        have less := decreases.less state label next known works steps
        have next_known := decreases.known state label next known works steps
        rcases ih (measure next) (left ▸ less) next_known rfl with
          ⟨labels, final, working, final_rests⟩
        exact ⟨label :: labels, final, .cons works steps working, final_rests⟩

end Transition.System
