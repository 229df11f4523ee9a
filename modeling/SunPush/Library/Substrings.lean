import Mathlib.Algebra.BigOperators.Group.List.Basic
import Mathlib.Algebra.GroupWithZero.Nat
import Mathlib.Data.List.Infix
import Mathlib.Tactic.Common

/-!
# Searching and replacing in a list

Searches that give positions, as those of `std::string` do, and the replacement
of every occurrence of one list by another in a single pass from the left.  Where
a search finds an occurrence the pass makes its next replacement, and goes on
behind it; a weight that a replacement lowers is lowered by the pass.  The
occurrences beside the places of a replacement are counted with an element in
these places that keeps their sides apart.
-/

namespace Substrings

universe u

variable {α : Type u} [DecidableEq α]

/-- Where the first occurrence of `pattern` begins. -/
def occurrence (pattern : List α) : List α → Option Nat
  | [] => if pattern = [] then some 0 else none
  | first :: text =>
      if pattern <+: first :: text then some 0 else (occurrence pattern text).map (· + 1)

/-- Where the first occurrence of `pattern` from `pos` on begins. -/
def find (text pattern : List α) (pos : Nat) : Option Nat :=
  if pos ≤ text.length then (occurrence pattern (text.drop pos)).map (pos + ·) else none

/-- Where the first element from `pos` on stands that is one of `set`. -/
def findFirstOf (text set : List α) (pos : Nat) : Option Nat :=
  ((text.drop pos).findIdx? fun element => decide (element ∈ set)).map (pos + ·)

omit [DecidableEq α] in
/-- The elements from `pos` on, at most `count`. -/
def substr (text : List α) (pos count : Nat) : List α :=
  (text.drop pos).take count

omit [DecidableEq α] in
/-- `new` in the place of `count` elements from `pos` on. -/
def replace (text : List α) (pos count : Nat) (new : List α) : List α :=
  text.take pos ++ new ++ text.drop (pos + count)

/-- `new` in the place of every occurrence of `old`, in one pass from the left; the empty list is
not replaced. -/
def replaceAll (old new : List α) : List α → List α
  | [] => []
  | first :: text =>
      if old ≠ [] ∧ old <+: first :: text then
        new ++ replaceAll old new (text.drop (old.length - 1))
      else first :: replaceAll old new text
termination_by text => text.length
decreasing_by
  · rw [List.length_drop, List.length_cons]
    omega
  · exact Nat.lt_succ_self _

variable {pattern old new left right text : List α} {pos : Nat}

/-! ## Occurrences -/

/-- A prefix occurs at once. -/
theorem occurrence_of_isPrefix (first : pattern <+: text) : occurrence pattern text = some 0 := by
  cases text with
  | nil => rw [occurrence, if_pos (List.prefix_nil.mp first)]
  | cons _ _ => rw [occurrence, if_pos first]

theorem occurrence_cons_of_not_isPrefix {first : α} (later : ¬pattern <+: first :: text) :
    occurrence pattern (first :: text) = (occurrence pattern text).map (· + 1) := by
  rw [occurrence, if_neg later]

/-- Around an occurrence that is found. -/
theorem exists_of_occurrence (found : occurrence pattern text = some pos) :
    ∃ left right, text = left ++ pattern ++ right ∧ left.length = pos := by
  induction text generalizing pos with
  | nil =>
      rw [occurrence] at found
      split at found
      case isTrue empty =>
        cases found
        exact ⟨[], [], by simp [empty], rfl⟩
      case isFalse => contradiction
  | cons first text ih =>
      by_cases at_once : pattern <+: first :: text
      · rw [occurrence_of_isPrefix at_once] at found
        cases found
        rcases at_once with ⟨right, right_eq⟩
        exact ⟨[], right, right_eq.symm, rfl⟩
      · rw [occurrence_cons_of_not_isPrefix at_once, Option.map_eq_some_iff] at found
        rcases found with ⟨before, found, rfl⟩
        rcases ih found with ⟨left, right, rfl, rfl⟩
        exact ⟨first :: left, right, rfl, rfl⟩

/-- Around an occurrence that is found from a position on. -/
theorem exists_of_find {next : Nat} (found : find text pattern pos = some next) :
    ∃ done left right, text = done ++ (left ++ pattern ++ right) ∧ done.length = pos ∧
      next = pos + left.length ∧
      occurrence pattern (left ++ pattern ++ right) = some left.length := by
  rw [find] at found
  split at found
  case isTrue within =>
    rw [Option.map_eq_some_iff] at found
    rcases found with ⟨before, found, rfl⟩
    rcases exists_of_occurrence found with ⟨left, right, rest, rfl⟩
    rw [rest] at found
    refine ⟨text.take pos, left, right, ?_, ?_, rfl, found⟩
    · rw [← rest, List.take_append_drop]
    · rw [List.length_take, Nat.min_eq_left within]
  case isFalse => contradiction

/-- Where nothing is found from a position on. -/
theorem occurrence_of_find (none : find text pattern pos = none) (within : pos ≤ text.length) :
    occurrence pattern (text.drop pos) = Option.none := by
  rwa [find, if_pos within, Option.map_eq_none_iff] at none

theorem find_zero (text pattern : List α) : find text pattern 0 = occurrence pattern text := by
  rw [find, if_pos (Nat.zero_le _), List.drop_zero]
  simp

/-- What occurs is found, if not elsewhere before. -/
theorem exists_occurrence (left pattern right : List α) :
    ∃ pos, occurrence pattern (left ++ pattern ++ right) = some pos := by
  induction left with
  | nil => exact ⟨0, occurrence_of_isPrefix (List.prefix_append pattern right)⟩
  | cons first left ih =>
      rcases ih with ⟨pos, found⟩
      by_cases at_once : pattern <+: first :: (left ++ pattern ++ right)
      · exact ⟨0, occurrence_of_isPrefix at_once⟩
      · refine ⟨pos + 1, ?_⟩
        simp only [List.cons_append]
        rw [occurrence_cons_of_not_isPrefix at_once, found]
        rfl

/-- Behind elements that the pattern does not begin with it is found. -/
theorem occurrence_append {head : α} {tail : List α} (absent : head ∉ left) :
    occurrence (head :: tail) (left ++ (head :: tail) ++ right) = some left.length := by
  induction left with
  | nil => exact occurrence_of_isPrefix (List.prefix_append (head :: tail) right)
  | cons first left ih =>
      rw [List.mem_cons, not_or] at absent
      have later : ¬head :: tail <+: (first :: left) ++ (head :: tail) ++ right := by
        intro begins
        exact absent.1 (List.cons_prefix_cons.mp begins).1
      have rest := ih absent.2
      simp only [List.cons_append] at later rest ⊢
      rw [occurrence_cons_of_not_isPrefix later, rest]
      rfl

/-- The first element of a set behind those that are not in it. -/
theorem findIdx?_append {set : List α} {element : α} (absent : ∀ other ∈ left, other ∉ set)
    (present : element ∈ set) :
    (left ++ element :: right).findIdx? (fun element => decide (element ∈ set)) =
      some left.length := by
  induction left with
  | nil => simp [List.findIdx?_cons, present]
  | cons first left ih =>
      have later := absent first List.mem_cons_self
      have rest := ih fun other other_mem => absent other (List.mem_cons_of_mem first other_mem)
      simp [List.findIdx?_cons, later, rest]

/-- Around the element of a set that is found. -/
theorem exists_of_findIdx? {set : List α}
    (found : (text.findIdx? fun element => decide (element ∈ set)) = some pos) :
    ∃ left element right, text = left ++ element :: right ∧ left.length = pos ∧
      element ∈ set ∧ ∀ other ∈ left, other ∉ set := by
  induction text generalizing pos with
  | nil => contradiction
  | cons first text ih =>
      rw [List.findIdx?_cons] at found
      by_cases present : first ∈ set
      · rw [if_pos (decide_eq_true present)] at found
        cases found
        refine ⟨[], first, text, rfl, rfl, present, ?_⟩
        intro other other_mem
        contradiction
      · rw [if_neg (mt of_decide_eq_true present), Option.map_eq_some_iff] at found
        rcases found with ⟨before, found, rfl⟩
        rcases ih found with ⟨left, element, right, rfl, rfl, element_mem, absent⟩
        refine ⟨first :: left, element, right, rfl, rfl, element_mem, ?_⟩
        exact List.forall_mem_cons.mpr ⟨present, absent⟩

omit [DecidableEq α] in
theorem substr_append (left middle right : List α) :
    substr (left ++ middle ++ right) left.length middle.length = middle := by
  rw [substr, List.append_assoc, List.drop_left, List.take_left]

/-! ## Replacing -/

omit [DecidableEq α] in
theorem replace_append :
    replace (left ++ old ++ right) left.length old.length new = left ++ new ++ right := by
  rw [replace, List.append_assoc left old right, List.take_left, ← List.append_assoc,
    ← List.length_append, List.drop_left]

theorem replaceAll_of_isPrefix (nonempty : old ≠ []) :
    replaceAll old new (old ++ right) = new ++ replaceAll old new right := by
  cases old with
  | nil => contradiction
  | cons head tail =>
      rw [List.cons_append, replaceAll, if_pos ⟨nonempty, right, rfl⟩]
      simp

/-- Where nothing is found nothing is replaced. -/
theorem replaceAll_of_none (none : occurrence old text = none) :
    replaceAll old new text = text := by
  induction text with
  | nil => rw [replaceAll]
  | cons first text ih =>
      by_cases at_once : old <+: first :: text
      · rw [occurrence_of_isPrefix at_once] at none
        contradiction
      · rw [occurrence_cons_of_not_isPrefix at_once, Option.map_eq_none_iff] at none
        rw [replaceAll, if_neg fun both => at_once both.2, ih none]

/-- Up to the occurrence that is found nothing is replaced. -/
theorem replaceAll_of_found (nonempty : old ≠ [])
    (found : occurrence old (left ++ old ++ right) = some left.length) :
    replaceAll old new (left ++ old ++ right) = left ++ new ++ replaceAll old new right := by
  induction left with
  | nil => exact replaceAll_of_isPrefix nonempty
  | cons first left ih =>
      have later : ¬old <+: first :: (left ++ old ++ right) := by
        intro at_once
        have same := (occurrence_of_isPrefix at_once).symm.trans found
        simp at same
      simp only [List.cons_append] at found ⊢
      rw [occurrence_cons_of_not_isPrefix later, Option.map_eq_some_iff] at found
      rcases found with ⟨before, found, before_eq⟩
      rw [List.length_cons, Nat.add_right_cancel_iff] at before_eq
      rw [before_eq] at found
      rw [replaceAll, if_neg fun both => later both.2, ih found]

omit [DecidableEq α] in
/-- What a replacement goes on with. -/
theorem drop_of_isPrefix {first : α} (nonempty : old ≠ []) (begins : old <+: first :: text) :
    first :: text = old ++ text.drop (old.length - 1) := by
  rcases begins with ⟨right, right_eq⟩
  cases old with
  | nil => contradiction
  | cons head tail =>
      have tail_eq : tail ++ right = text := (List.cons.inj right_eq).2
      rw [← right_eq, ← tail_eq]
      simp

theorem replaceAll_empty (new text : List α) : replaceAll [] new text = text := by
  induction text with
  | nil => rw [replaceAll]
  | cons first text ih => rw [replaceAll, if_neg fun both => both.1 rfl, ih]

/-- Nothing changes when the occurrences are replaced by what they are. -/
theorem replaceAll_self (old text : List α) : replaceAll old old text = text := by
  induction text using replaceAll.induct old with
  | case1 => rw [replaceAll]
  | case2 first text begins ih =>
      rw [replaceAll, if_pos begins, ih, ← drop_of_isPrefix begins.1 begins.2]
  | case3 first text later ih => rw [replaceAll, if_neg later, ih]

/-! ## Weights -/

omit [DecidableEq α] in
/-- The weights of the elements, added up. -/
def weigh (weight : α → Nat) (text : List α) : Nat := (text.map weight).sum

omit [DecidableEq α] in
@[simp]
theorem weigh_nil (weight : α → Nat) : weigh weight [] = 0 :=
  rfl

omit [DecidableEq α] in
@[simp]
theorem weigh_cons (weight : α → Nat) (element : α) (text : List α) :
    weigh weight (element :: text) = weight element + weigh weight text := by
  rw [weigh, weigh, List.map_cons, List.sum_cons]

omit [DecidableEq α] in
@[simp]
theorem weigh_append (weight : α → Nat) (left right : List α) :
    weigh weight (left ++ right) = weigh weight left + weigh weight right := by
  rw [weigh, weigh, weigh, List.map_append, List.sum_append]

/-- Replacing by something lighter makes nothing heavier. -/
theorem weigh_replaceAll_le {weight : α → Nat} (lighter : weigh weight new ≤ weigh weight old)
    (text : List α) : weigh weight (replaceAll old new text) ≤ weigh weight text := by
  induction text using replaceAll.induct old with
  | case1 => rw [replaceAll]
  | case2 first text begins ih =>
      rw [replaceAll, if_pos begins, weigh_append]
      rw [drop_of_isPrefix begins.1 begins.2, weigh_append]
      exact Nat.add_le_add lighter ih
  | case3 first text later ih =>
      rw [replaceAll, if_neg later, weigh_cons, weigh_cons]
      exact Nat.add_le_add_left ih _

/-- Replacing an occurrence that is found by something lighter makes the whole lighter. -/
theorem weigh_replaceAll_lt {weight : α → Nat} (lighter : weigh weight new < weigh weight old)
    (found : occurrence old text = some pos) :
    weigh weight (replaceAll old new text) < weigh weight text := by
  have nonempty : old ≠ [] := by
    rintro rfl
    rw [weigh_nil] at lighter
    exact absurd lighter (Nat.not_lt_zero _)
  rcases exists_of_occurrence found with ⟨left, right, rfl, rfl⟩
  have rest := weigh_replaceAll_le lighter.le right
  rw [replaceAll_of_found nonempty found]
  simp only [weigh_append]
  omega

/-! ## Counting -/

/-- At how many positions `pattern` occurs, overlapping occurrences included. -/
def occurrences (pattern : List α) : List α → Nat
  | [] => 0
  | first :: text => (if pattern <+: first :: text then 1 else 0) + occurrences pattern text

theorem occurrences_pos (nonempty : pattern ≠ []) (right : List α) :
    0 < occurrences pattern (pattern ++ right) := by
  cases pattern with
  | nil => contradiction
  | cons head tail =>
      rw [List.cons_append, occurrences, if_pos ⟨right, rfl⟩]
      omega

/-- What occurs in a part occurs in the whole. -/
theorem occurrences_append_le (pattern left right : List α) :
    occurrences pattern left + occurrences pattern right ≤
      occurrences pattern (left ++ right) := by
  induction left with
  | nil => simp [occurrences]
  | cons first left ih =>
      have kept : (if pattern <+: first :: left then 1 else 0) ≤
          if pattern <+: first :: (left ++ right) then 1 else 0 := by
        by_cases begins : pattern <+: first :: left
        · have longer : pattern <+: first :: (left ++ right) :=
            begins.trans (List.prefix_append (first :: left) right)
          rw [if_pos begins, if_pos longer]
        · rw [if_neg begins]
          exact Nat.zero_le _
      simp only [List.cons_append, occurrences]
      omega

omit [DecidableEq α] in
/-- A prefix that an element is not in ends in front of it. -/
theorem isPrefix_of_notMem {element : α} (absent : element ∉ pattern)
    (begins : pattern <+: left ++ element :: right) : pattern <+: left := by
  induction left generalizing pattern with
  | nil =>
      cases pattern with
      | nil => exact List.nil_prefix
      | cons head tail =>
          rcases List.cons_prefix_cons.mp begins with ⟨rfl, -⟩
          exact absurd List.mem_cons_self absent
  | cons first left ih =>
      cases pattern with
      | nil => exact List.nil_prefix
      | cons head tail =>
          rcases List.cons_prefix_cons.mp begins with ⟨rfl, later⟩
          rw [List.mem_cons, not_or] at absent
          exact List.cons_prefix_cons.mpr ⟨rfl, ih absent.2 later⟩

/-- An element that the pattern does not have keeps the occurrences on its sides apart. -/
theorem occurrences_separated {element : α} (nonempty : pattern ≠ [])
    (absent : element ∉ pattern) (left right : List α) :
    occurrences pattern (left ++ element :: right) =
      occurrences pattern left + occurrences pattern right := by
  induction left with
  | nil =>
      have later : ¬pattern <+: element :: right := by
        intro begins
        exact nonempty (List.prefix_nil.mp (@isPrefix_of_notMem _ _ [] right _ absent begins))
      simp only [List.nil_append, occurrences, if_neg later]
  | cons first left ih =>
      have same : pattern <+: first :: (left ++ element :: right) ↔ pattern <+: first :: left :=
        ⟨fun begins => @isPrefix_of_notMem _ _ (first :: left) right _ absent begins,
          fun begins => begins.trans (List.prefix_append (first :: left) (element :: right))⟩
      rw [List.cons_append, occurrences, occurrences, ih, if_congr same rfl rfl, Nat.add_assoc]

/-- What begins a text in which an element that it does not have stands for `old`, begins the text
itself. -/
theorem isPrefix_of_isPrefix_replaceAll {element : α} (absent : element ∉ pattern)
    (begins : pattern <+: replaceAll old [element] text) : pattern <+: text := by
  induction text using replaceAll.induct old generalizing pattern with
  | case1 =>
      rw [replaceAll] at begins
      exact begins
  | case2 first text replaced _ =>
      rw [replaceAll, if_pos replaced] at begins
      have short := @isPrefix_of_notMem _ _ [] _ _ absent begins
      rw [List.prefix_nil.mp short]
      exact List.nil_prefix
  | case3 first text later ih =>
      rw [replaceAll, if_neg later] at begins
      cases pattern with
      | nil => exact List.nil_prefix
      | cons head tail =>
          rcases List.cons_prefix_cons.mp begins with ⟨rfl, rest⟩
          rw [List.mem_cons, not_or] at absent
          exact List.cons_prefix_cons.mpr ⟨rfl, ih absent.2 rest⟩

/-- What occurs beside the places of `old` occurs in the text. -/
theorem occurrences_replaceAll_le {element : α} (nonempty : pattern ≠ [])
    (absent : element ∉ pattern) (old text : List α) :
    occurrences pattern (replaceAll old [element] text) ≤ occurrences pattern text := by
  induction text using replaceAll.induct old with
  | case1 => rw [replaceAll]
  | case2 first text replaced ih =>
      have split := drop_of_isPrefix replaced.1 replaced.2
      have parts := occurrences_append_le pattern old (text.drop (old.length - 1))
      have apart := occurrences_separated nonempty absent []
        (replaceAll old [element] (text.drop (old.length - 1)))
      rw [replaceAll, if_pos replaced, List.singleton_append, split]
      rw [List.nil_append, occurrences] at apart
      omega
  | case3 first text later ih =>
      have kept : (if pattern <+: first :: replaceAll old [element] text then 1 else 0) ≤
          if pattern <+: first :: text then 1 else 0 := by
        by_cases begins : pattern <+: first :: replaceAll old [element] text
        · have whole := @isPrefix_of_isPrefix_replaceAll _ _ _ old (first :: text) _ absent
          rw [replaceAll, if_neg later] at whole
          rw [if_pos begins, if_pos (whole begins)]
        · rw [if_neg begins]
          exact Nat.zero_le _
      rw [replaceAll, if_neg later, occurrences, occurrences]
      omega

/-- Beside the places of something in which the pattern occurs it occurs less often than in all. -/
theorem occurrences_replaceAll_lt {element : α} (nonempty : pattern ≠ [])
    (absent : element ∉ pattern) (occurs : 0 < occurrences pattern old)
    (found : occurrence old text = some pos) :
    occurrences pattern (replaceAll old [element] text) < occurrences pattern text := by
  have some_old : old ≠ [] := by
    rintro rfl
    exact absurd occurs (Nat.not_lt_zero _)
  rcases exists_of_occurrence found with ⟨left, right, rfl, rfl⟩
  have apart := occurrences_separated nonempty absent left (replaceAll old [element] right)
  have rest := occurrences_replaceAll_le nonempty absent old right
  have front := occurrences_append_le pattern left old
  have whole := occurrences_append_le pattern (left ++ old) right
  rw [replaceAll_of_found some_old found, List.append_assoc, List.singleton_append]
  omega

end Substrings
