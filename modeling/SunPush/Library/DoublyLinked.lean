import Mathlib.Data.List.Induction
import Mathlib.Data.List.Nodup
import Mathlib.Logic.Function.Basic

/-!
# Doubly linked cells

Cells of any kind, each with a link to the one before and one to the one behind.
A list of cells is linked between two ends when both links of every cell are
those of its place.  The file says how linked lists fall apart, which cells the
links are found by, and what has to be written to put a cell in or to take one
out.
-/

universe u

/-- The links of all cells there are. -/
@[ext]
structure Links (α : Type u) where
  prev : α → Option α
  next : α → Option α

/-- The cells that are found from the first one on. -/
def Follows {α : Type u} (step : α → Option α) : Option α → List α → Prop
  | first, [] => first = none
  | first, cell :: cells => first = some cell ∧ Follows step (step cell) cells

theorem Follows.tail {α : Type u} {step : α → Option α} {first : α} {cells : List α}
    (follows : Follows step (some first) cells) :
    ∃ rest, cells.length = rest.length + 1 ∧ Follows step (step first) rest := by
  cases cells with
  | nil => exact absurd follows (Option.some_ne_none first)
  | cons cell rest =>
      rcases follows with ⟨same, follows⟩
      rcases Option.some.inj same with rfl
      exact ⟨rest, rfl, follows⟩

/-- Nothing is found in a circle, for there is no end. -/
theorem not_follows_circle {α : Type u} {step : α → Option α} {first second third : α}
    (one : step first = some second) (two : step second = some third)
    (back : step third = some first) (cells : List α) : ¬Follows step (some first) cells := by
  have shorter : ∀ bound (cells : List α), cells.length < bound →
      ¬Follows step (some first) cells := by
    intro bound
    induction bound with
    | zero => exact fun cells none_shorter => absurd none_shorter (Nat.not_lt_zero _)
    | succ bound ih =>
        intro cells length_lt follows
        rcases follows.tail with ⟨behindFirst, firstLength, follows⟩
        rcases (one ▸ follows).tail with ⟨behindSecond, secondLength, follows⟩
        rcases (two ▸ follows).tail with ⟨behindThird, thirdLength, follows⟩
        exact ih behindThird (by omega) (back ▸ follows)
  exact shorter (cells.length + 1) cells (Nat.lt_succ_self _)

namespace Links

variable {α : Type u}

/-- The cells are linked to each other in this order, and at the ends to what is given. -/
def Segment (links : Links α) : Option α → List α → Option α → Prop
  | _, [], _ => True
  | before, cell :: cells, after =>
      links.prev cell = before ∧ links.next cell = cells.head?.or after ∧
        links.Segment (some cell) cells after

variable {links other : Links α} {before after : Option α} {cells left right : List α}

theorem segment_append :
    links.Segment before (left ++ right) after ↔
      links.Segment before left (right.head?.or after) ∧
        links.Segment (left.getLast?.or before) right after := by
  induction left generalizing before with
  | nil => simp [Segment]
  | cons cell left ih =>
      have last : (cell :: left).getLast?.or before = left.getLast?.or (some cell) := by
        cases left with
        | nil => rfl
        | cons next left => simp [List.getLast?_cons]
      rw [List.cons_append, Segment, Segment, ih, last, List.head?_append, Option.or_assoc]
      simp only [and_assoc]

/-- The first cell is linked to what is given in front. -/
theorem Segment.prev_head? (linked : links.Segment before cells after) :
    ∀ cell ∈ cells.head?, links.prev cell = before := by
  intro cell cell_mem
  cases cells with
  | nil => contradiction
  | cons first cells =>
      rw [List.head?_cons, Option.mem_some_iff] at cell_mem
      subst cell_mem
      exact linked.1

/-- The last cell is linked to what is given behind. -/
theorem Segment.next_getLast? (linked : links.Segment before cells after) :
    ∀ cell ∈ cells.getLast?, links.next cell = after := by
  intro cell cell_mem
  induction cells using List.reverseRecOn with
  | nil => contradiction
  | append_singleton cells last _ =>
      rw [List.getLast?_concat, Option.mem_some_iff] at cell_mem
      subst cell_mem
      exact (segment_append.mp linked).2.2.1

/-- Where linked cells fall apart, the two next to the gap are linked to each other. -/
theorem Segment.gap (linked : links.Segment before (left ++ right) after) :
    (∀ cell ∈ left.getLast?, links.next cell = right.head?.or after) ∧
      ∀ cell ∈ right.head?, links.prev cell = left.getLast?.or before :=
  ⟨(segment_append.mp linked).1.next_getLast?, (segment_append.mp linked).2.prev_head?⟩

/-- Only the links of the cells themselves count. -/
theorem Segment.congr (linked : links.Segment before cells after)
    (prev : ∀ cell ∈ cells, other.prev cell = links.prev cell)
    (next : ∀ cell ∈ cells, other.next cell = links.next cell) :
    other.Segment before cells after := by
  induction cells generalizing before with
  | nil => trivial
  | cons cell cells ih =>
      rcases linked with ⟨before_eq, after_eq, rest⟩
      refine ⟨?_, ?_, ih rest ?_ ?_⟩
      · rw [prev cell List.mem_cons_self, before_eq]
      · rw [next cell List.mem_cons_self, after_eq]
      · exact fun later later_mem => prev later (List.mem_cons_of_mem cell later_mem)
      · exact fun later later_mem => next later (List.mem_cons_of_mem cell later_mem)

/-- The cells in their order are found along the one link. -/
theorem Segment.follows_next (linked : links.Segment before cells none) :
    Follows links.next cells.head? cells := by
  induction cells generalizing before with
  | nil => rfl
  | cons cell cells ih =>
      rcases linked with ⟨-, after_eq, rest⟩
      refine ⟨rfl, ?_⟩
      rw [after_eq, Option.or_none]
      exact ih rest

/-- The cells in the opposite order are found along the other link. -/
theorem Segment.follows_prev (linked : links.Segment none cells after) :
    Follows links.prev cells.getLast? cells.reverse := by
  induction cells using List.reverseRecOn generalizing after with
  | nil => rfl
  | append_singleton cells cell ih =>
      rcases segment_append.mp linked with ⟨rest, before_eq, -⟩
      rw [List.reverse_append, List.getLast?_append]
      refine ⟨rfl, ?_⟩
      rw [before_eq, Option.or_none]
      exact ih rest

/-- What is found from the last cell on goes on in front of the first one. -/
theorem Segment.follows_through (linked : links.Segment before cells after) {found : List α}
    (follows : Follows links.prev (cells.getLast?.or before) found) :
    ∃ rest, Follows links.prev before rest := by
  induction cells using List.reverseRecOn generalizing after found with
  | nil => exact ⟨found, follows⟩
  | append_singleton cells cell ih =>
      rcases segment_append.mp linked with ⟨earlier, before_eq, -⟩
      have last : (cells ++ [cell]).getLast?.or before = some cell := by simp
      rw [last] at follows
      rcases follows.tail with ⟨rest, -, follows⟩
      rw [before_eq] at follows
      exact ih earlier follows

theorem head?_apart (apart : ∀ l ∈ left, ∀ r ∈ right, l ≠ r) : ∀ c ∈ right.head?, c ∉ left :=
  fun c c_mem c_left => apart c c_left c (List.mem_of_mem_head? c_mem) rfl

theorem getLast?_apart (apart : ∀ l ∈ left, ∀ r ∈ right, l ≠ r) :
    ∀ c ∈ left.getLast?, c ∉ right :=
  fun c c_mem c_right => apart c (List.mem_of_mem_getLast? c_mem) c c_right rfl

/-! ## Writing links -/

section Writing

variable [DecidableEq α]

def setPrev (links : Links α) (cell : α) (link : Option α) : Links α :=
  { links with prev := Function.update links.prev cell link }

def setNext (links : Links α) (cell : α) (link : Option α) : Links α :=
  { links with next := Function.update links.next cell link }

/-- The two kinds of links are written apart from each other. -/
theorem setNext_setPrev (links : Links α) (cell other : α) (link link' : Option α) :
    (links.setPrev cell link).setNext other link' = (links.setNext other link').setPrev cell link :=
  rfl

@[simp]
theorem setPrev_setPrev (links : Links α) (cell : α) (link link' : Option α) :
    (links.setPrev cell link).setPrev cell link' = links.setPrev cell link' := by
  simp [setPrev]

@[simp]
theorem setNext_setNext (links : Links α) (cell : α) (link link' : Option α) :
    (links.setNext cell link).setNext cell link' = links.setNext cell link' := by
  simp [setNext]

/-- Nothing is written where there is no cell. -/
def setPrev? (links : Links α) : Option α → Option α → Links α
  | none, _ => links
  | some cell, link => links.setPrev cell link

def setNext? (links : Links α) : Option α → Option α → Links α
  | none, _ => links
  | some cell, link => links.setNext cell link

@[simp]
theorem next_setPrev? (links : Links α) (cell link : Option α) :
    (links.setPrev? cell link).next = links.next := by
  cases cell <;> rfl

@[simp]
theorem prev_setNext? (links : Links α) (cell link : Option α) :
    (links.setNext? cell link).prev = links.prev := by
  cases cell <;> rfl

theorem prev_setPrev?_of_ne {cell : Option α} {other : α} (differ : cell ≠ some other)
    (link : Option α) : (links.setPrev? cell link).prev other = links.prev other := by
  cases cell with
  | none => rfl
  | some cell => exact Function.update_of_ne (fun same => differ (congrArg some same.symm)) ..

theorem next_setNext?_of_ne {cell : Option α} {other : α} (differ : cell ≠ some other)
    (link : Option α) : (links.setNext? cell link).next other = links.next other := by
  cases cell with
  | none => rfl
  | some cell => exact Function.update_of_ne (fun same => differ (congrArg some same.symm)) ..

/-- The first cell is linked to something else in front. -/
theorem Segment.setPrev_head? (linked : links.Segment before cells after) (nodup : cells.Nodup)
    (link : Option α) : (links.setPrev? cells.head? link).Segment link cells after := by
  cases cells with
  | nil => trivial
  | cons cell cells =>
      rcases linked with ⟨-, after_eq, rest⟩
      have others := (List.nodup_cons.mp nodup).1
      refine ⟨Function.update_self .., after_eq, rest.congr ?_ fun _ _ => rfl⟩
      intro later later_mem
      apply Function.update_of_ne
      rintro rfl
      exact others later_mem

/-- The last cell is linked to something else behind. -/
theorem Segment.setNext_getLast? (linked : links.Segment before cells after)
    (nodup : cells.Nodup) (link : Option α) :
    (links.setNext? cells.getLast? link).Segment before cells link := by
  induction cells using List.reverseRecOn with
  | nil => trivial
  | append_singleton cells cell _ =>
      rcases segment_append.mp linked with ⟨rest, before_eq, after_eq, -⟩
      have others := (List.nodup_append.mp nodup).2.2
      rw [List.getLast?_append]
      refine segment_append.mpr ⟨rest.congr (fun _ _ => rfl) ?_, before_eq, ?_, trivial⟩
      · intro earlier earlier_mem
        exact Function.update_of_ne (others earlier earlier_mem cell List.mem_cons_self) ..
      · exact Function.update_self ..

/-- Links of cells elsewhere may be written. -/
theorem Segment.setPrev? (linked : links.Segment before cells after) {cell : Option α}
    (elsewhere : ∀ c ∈ cell, c ∉ cells) (link : Option α) :
    (links.setPrev? cell link).Segment before cells after := by
  apply linked.congr
  · intro other other_mem
    exact prev_setPrev?_of_ne (fun same => elsewhere other same other_mem) link
  · intro other _
    rw [next_setPrev?]

theorem Segment.setNext? (linked : links.Segment before cells after) {cell : Option α}
    (elsewhere : ∀ c ∈ cell, c ∉ cells) (link : Option α) :
    (links.setNext? cell link).Segment before cells after := by
  apply linked.congr
  · intro other _
    rw [prev_setNext?]
  · intro other other_mem
    exact next_setNext?_of_ne (fun same => elsewhere other same other_mem) link

/-- A cell between two others: its own links, then that of the right and that of the left one. -/
def insert (links : Links α) (cell : α) (left right : Option α) : Links α :=
  (((links.setPrev cell left).setNext cell right).setPrev? right (some cell)).setNext? left
    (some cell)

/-- The cells on both sides of one that is taken out: the link of the right, then of the left
one. -/
def remove (links : Links α) (left right : Option α) : Links α :=
  (links.setPrev? right left).setNext? left right

theorem Segment.insert {cell : α} (linked : links.Segment none (left ++ right) none)
    (nodup : (left ++ right).Nodup) (fresh : cell ∉ left ++ right) :
    (links.insert cell left.getLast? right.head?).Segment none (left ++ cell :: right) none := by
  rcases List.nodup_append.mp nodup with ⟨leftNodup, rightNodup, apart⟩
  have notLeft : cell ∉ left := fun inLeft => fresh (List.mem_append_left right inLeft)
  have notRight : cell ∉ right := fun inRight => fresh (List.mem_append_right left inRight)
  -- the links of the new cell concern no other cell
  have own : ((links.setPrev cell left.getLast?).setNext cell right.head?).Segment none
      (left ++ right) none := by
    apply linked.congr
    · intro other other_mem
      apply Function.update_of_ne
      rintro rfl
      exact fresh other_mem
    · intro other other_mem
      apply Function.update_of_ne
      rintro rfl
      exact fresh other_mem
  rcases segment_append.mp own with ⟨leftLinked, rightLinked⟩
  refine segment_append.mpr ⟨?_, ?_, ?_, ?_⟩
  · exact (leftLinked.setPrev? (head?_apart apart) (some cell)).setNext_getLast? leftNodup
      (some cell)
  · have differ : right.head? ≠ some cell := fun same => notRight (List.mem_of_mem_head? same)
    rw [Links.insert, prev_setNext?, prev_setPrev?_of_ne differ, Option.or_none]
    exact Function.update_self ..
  · have differ : left.getLast? ≠ some cell := fun same => notLeft (List.mem_of_mem_getLast? same)
    rw [Links.insert, next_setNext?_of_ne differ, next_setPrev?, Option.or_none]
    exact Function.update_self ..
  · exact (rightLinked.setPrev_head? rightNodup (some cell)).setNext? (getLast?_apart apart)
      (some cell)

theorem Segment.remove {cell : α} (linked : links.Segment none (left ++ cell :: right) none)
    (nodup : (left ++ cell :: right).Nodup) :
    (links.remove left.getLast? right.head?).Segment none (left ++ right) none := by
  rcases segment_append.mp linked with ⟨leftLinked, -, -, rightLinked⟩
  rcases List.nodup_append.mp nodup with ⟨leftNodup, rightNodup, apart⟩
  have apart : ∀ l ∈ left, ∀ r ∈ right, l ≠ r := fun l l_mem r r_mem =>
    apart l l_mem r (List.mem_cons_of_mem cell r_mem)
  refine segment_append.mpr ⟨?_, ?_⟩
  · rw [Option.or_none]
    exact (leftLinked.setPrev? (head?_apart apart) _).setNext_getLast? leftNodup _
  · rw [Option.or_none]
    exact (rightLinked.setPrev_head? (List.nodup_cons.mp rightNodup).2 _).setNext?
      (getLast?_apart apart) _

/-- Putting a cell in concerns the cell and the two it is put between. -/
theorem Segment.insert_elsewhere (linked : links.Segment before cells after) {cell : α}
    {left right : Option α} (fresh : cell ∉ cells) (notLeft : ∀ c ∈ left, c ∉ cells)
    (notRight : ∀ c ∈ right, c ∉ cells) :
    (links.insert cell left right).Segment before cells after := by
  have own : ((links.setPrev cell left).setNext cell right).Segment before cells after := by
    apply linked.congr
    · intro other other_mem
      apply Function.update_of_ne
      rintro rfl
      exact fresh other_mem
    · intro other other_mem
      apply Function.update_of_ne
      rintro rfl
      exact fresh other_mem
  exact (own.setPrev? notRight _).setNext? notLeft _

theorem Segment.remove_elsewhere (linked : links.Segment before cells after)
    {left right : Option α} (notLeft : ∀ c ∈ left, c ∉ cells) (notRight : ∀ c ∈ right, c ∉ cells) :
    (links.remove left right).Segment before cells after :=
  (linked.setPrev? notRight _).setNext? notLeft _

end Writing

end Links
