import Mathlib.Data.List.Basic

/-!
# Effects and their causes in a log

A log is the list of what has happened so far, oldest first.  `Preceded` says
that every effect in it has a cause of the same key before it.  The file gives
what the log may be extended by.
-/

namespace Precedence

universe u v

variable {Key : Type u} {Entry : Type v}

/-- Before every effect in the log there is a cause of the same key. -/
def Preceded (cause effect : Key → Entry → Prop) (log : List Entry) : Prop :=
  ∀ before entry after key, log = before ++ entry :: after → effect key entry →
    ∃ earlier ∈ before, cause key earlier

variable {cause effect : Key → Entry → Prop} {log : List Entry}

@[simp]
theorem preceded_nil : Preceded cause effect [] := by
  intro before entry after key split
  simp at split

/-- What a log has happened in it, its beginnings have too. -/
theorem Preceded.of_append {more : List Entry} (preceded : Preceded cause effect (log ++ more)) :
    Preceded cause effect log := by
  rintro before entry after key rfl happens
  apply preceded before entry (after ++ more) key _ happens
  simp only [List.append_assoc, List.cons_append]

/-- One more entry: its causes are in the log. -/
theorem preceded_concat {last : Entry} :
    Preceded cause effect (log ++ [last]) ↔
      Preceded cause effect log ∧
        ∀ key, effect key last → ∃ earlier ∈ log, cause key earlier := by
  constructor
  · intro preceded
    exact ⟨preceded.of_append, fun key => preceded log last [] key rfl⟩
  · rintro ⟨preceded, caused⟩ before entry after key split happens
    rcases List.eq_nil_or_concat after with rfl | ⟨init, final, rfl⟩
    · have whole := List.append_inj' split rfl
      rw [← whole.1]
      rw [← List.head_eq_of_cons_eq whole.2] at happens
      exact caused key happens
    · have whole : log ++ [last] = (before ++ entry :: init) ++ [final] := by
        rw [split]
        simp
      exact preceded before entry init key (List.append_inj' whole rfl).1 happens

/-- Entries that are no effects need no causes. -/
theorem Preceded.append {more : List Entry} (preceded : Preceded cause effect log)
    (none : ∀ entry ∈ more, ∀ key, ¬effect key entry) : Preceded cause effect (log ++ more) := by
  induction more generalizing log with
  | nil => rwa [List.append_nil]
  | cons first rest ih =>
      have extended : Preceded cause effect (log ++ [first]) := by
        refine preceded_concat.mpr ⟨preceded, ?_⟩
        intro key happens
        exact absurd happens (none first List.mem_cons_self key)
      rw [List.append_cons]
      apply ih extended
      intro entry entry_mem
      exact none entry (List.mem_cons_of_mem first entry_mem)

end Precedence
