import SunPush.Utility.ListNodes

/-!
# The linked list as a sequence

Calls are made on a linked list and, next to it, on a sequence.  The list shows
the sequence along the links in both directions as long as `InsertpAfter` is
called with the last index only, which it hands to `AddTail`, and `DeleteAt` with
the first or the last one, or where the element behind is the same: elsewhere it
takes that one out.  A call that does not return leaves no list.
-/

namespace SunPush

/-- The calls on a list, with the node that the pool hands out where one is needed. -/
inductive ListCall (T : Type) where
  | addHead (pElement : T) (newNode : NodePtr)
  | addTail (pElement : T) (newNode : NodePtr)
  | deleteHead
  | deleteTail
  | insertBefore (pElement : T) (index : Nat) (newNode : NodePtr)
  | insertpAfter (pElement : T) (index : Nat) (newNode : NodePtr)
  | deletePos (index : Nat)
  | deleteAt (index : Nat)

namespace ListCall

variable {T : Type}

/-- Indices are below `GetCount()`, and the pool hands out no node that it has handed out
already. -/
def permitted (list : CList T) : ListCall T → Bool
  | addHead _ newNode | addTail _ newNode => newNode ∉ list.outstanding
  | deleteHead | deleteTail => true
  | insertBefore _ index newNode | insertpAfter _ index newNode =>
      index < list.nCount ∧ newNode ∉ list.outstanding
  | deletePos index | deleteAt index => index < list.nCount

/-- The element that is returned, if the call returns one, and the list behind it. -/
def perform [Zero T] (list : CList T) : ListCall T → Option (Option T × CList T)
  | addHead pElement newNode => some (none, list.addHead pElement newNode)
  | addTail pElement newNode => some (none, list.addTail pElement newNode)
  | deleteHead => do
      let (pElement, list) ← list.deleteHead
      return (some pElement, list)
  | deleteTail => do
      let (pElement, list) ← list.deleteTail
      return (some pElement, list)
  | insertBefore pElement index newNode => do
      let list ← list.insertBefore pElement index newNode
      return (none, list)
  | insertpAfter pElement index newNode => do
      let list ← list.insertpAfter pElement index newNode
      return (none, list)
  | deletePos index => do
      let pos ← list.getIndexPos index
      let ((pElement, _), list) ← list.deletePos pos
      return (some pElement, list)
  | deleteAt index => do
      let (pElement, list) ← list.deleteAt index
      return (some pElement, list)

/-- The same on a sequence. -/
def performOn [Zero T] (items : List T) : ListCall T → Option T × List T
  | addHead pElement _ => (none, pElement :: items)
  | addTail pElement _ => (none, items ++ [pElement])
  | deleteHead => (some (items.head?.getD 0), items.tail)
  | deleteTail => (some (items.getLast?.getD 0), items.dropLast)
  | insertBefore pElement index _ => (none, items.insertIdx index pElement)
  | insertpAfter pElement index _ => (none, items.insertIdx (index + 1) pElement)
  | deletePos index | deleteAt index => (items[index]?, items.eraseIdx index)

/-- Insertion behind the last element, and deletion at the ends or of one of two equal elements. -/
def KeepsOrder (items : List T) : ListCall T → Prop
  | insertpAfter _ index _ => index + 1 = items.length
  | deleteAt index => index = 0 ∨ index + 1 = items.length ∨
      index + 2 < items.length ∧ items[index]? = items[index + 1]?
  | _ => True

end ListCall

/-- A list, the sequence, what the last call has returned and should have, and how many calls have
been made. -/
structure ListRun (T : Type) where
  list : Option (CList T)
  items : List T
  returned : Option T
  expected : Option T
  calls : Nat

def ListRun.start (T : Type) [Zero T] : ListRun T := ⟨some .construct, [], none, none, 0⟩

def listSystem (T : Type) [Zero T] : Transition.System (ListRun T) (ListCall T) where
  Initial run := run = .start T
  step run call := do
    let list ← run.list
    if call.permitted list then
      let result := call.perform list
      let (expected, items) := call.performOn run.items
      return ⟨result.map Prod.snd, items, result.bind Prod.fst, expected, run.calls + 1⟩
    else none

/-- Along the links behind, from the first node on, lie the elements of the sequence, along those in
front, from the last node on, they lie in the opposite order, and `m_nCount` is their number. -/
structure CList.Shows {T : Type} (list : CList T) (items : List T) : Prop where
  forwards : ∃ cells, Follows list.links.next list.head cells ∧ cells.map list.element = items
  backwards : ∃ cells, Follows list.links.prev list.tail cells ∧
    cells.map list.element = items.reverse
  count : list.nCount = items.length

/-- There is a list, it shows the sequence, and the last call has returned what it should. -/
def ListRun.Refines {T : Type} (run : ListRun T) : Prop :=
  ∃ list, run.list = some list ∧ list.Shows run.items ∧ run.returned = run.expected

namespace CList

variable {T : Type} {list : CList T} {items : List T}

theorem Holds.shows (holds : list.Holds items) : list.Shows items := by
  rcases holds with ⟨cells, inOrder, rfl⟩
  refine ⟨⟨cells, ?_, rfl⟩, ⟨cells.reverse, ?_, List.map_reverse ..⟩, ?_⟩
  · rw [inOrder.head_eq]
    exact inOrder.linked.follows_next
  · rw [inOrder.tail_eq]
    exact inOrder.linked.follows_prev
  · rw [inOrder.count_eq, List.length_map]

theorem holds_construct [Zero T] : (construct : CList T).Holds [] := by
  refine ⟨[], ⟨List.nodup_nil, trivial, rfl, rfl, List.Perm.refl [], rfl⟩, rfl⟩

/-- A call that keeps the order does to the list what it does to the sequence. -/
theorem Holds.perform [Zero T] (holds : list.Holds items) (small : items.length + 1 < 2 ^ 15)
    {call : ListCall T} (permits : call.permitted list = true) (keeps : call.KeepsOrder items) :
    ∃ after, call.perform list = some ((call.performOn items).1, after) ∧
      after.Holds (call.performOn items).2 := by
  have count : list.nCount = items.length := holds.shows.count
  cases call with
  | addHead pElement newNode =>
      have fresh : newNode ∉ list.outstanding := of_decide_eq_true permits
      exact ⟨_, rfl, holds.addHead small fresh pElement⟩
  | addTail pElement newNode =>
      have fresh : newNode ∉ list.outstanding := of_decide_eq_true permits
      exact ⟨_, rfl, holds.addTail small fresh pElement⟩
  | deleteHead =>
      rcases holds.deleteHead (by omega) with ⟨after, deletes, held⟩
      exact ⟨after, by simp [ListCall.perform, ListCall.performOn, deletes], held⟩
  | deleteTail =>
      rcases holds.deleteTail (by omega) with ⟨after, deletes, held⟩
      exact ⟨after, by simp [ListCall.perform, ListCall.performOn, deletes], held⟩
  | insertBefore pElement index newNode =>
      obtain ⟨index_lt, fresh⟩ : index < list.nCount ∧ newNode ∉ list.outstanding :=
        of_decide_eq_true permits
      rcases holds.insertBefore small fresh pElement (by omega : index < items.length) with
        ⟨after, inserts, held⟩
      exact ⟨after, by simp [ListCall.perform, ListCall.performOn, inserts], held⟩
  | insertpAfter pElement index newNode =>
      obtain ⟨-, fresh⟩ : index < list.nCount ∧ newNode ∉ list.outstanding :=
        of_decide_eq_true permits
      rcases holds.insertpAfter_last small fresh pElement keeps with ⟨after, inserts, held⟩
      exact ⟨after, by simp [ListCall.perform, ListCall.performOn, inserts], held⟩
  | deletePos index =>
      have index_lt : index < list.nCount := of_decide_eq_true permits
      rcases holds.deletePos (by omega) (by omega : index < items.length) with
        ⟨pos, pElement, next, after, found, deletes, element, held⟩
      exact ⟨after, by simp [ListCall.perform, ListCall.performOn, found, deletes, element], held⟩
  | deleteAt index =>
      have index_lt : index < list.nCount := of_decide_eq_true permits
      rcases holds.deleteAt (by omega) (by omega : index < items.length) keeps with
        ⟨pElement, after, deletes, element, held⟩
      exact ⟨after, by simp [ListCall.perform, ListCall.performOn, deletes, element], held⟩

end CList

namespace ListRun

variable {T : Type} [Zero T]

/-- As long as the calls can be counted, the list holds the sequence. -/
structure Sound (run : ListRun T) : Prop where
  length_le : run.items.length ≤ run.calls
  holds : run.calls < 32768 →
    ∃ list, run.list = some list ∧ list.Holds run.items ∧ run.returned = run.expected

theorem length_performOn_le (items : List T) (call : ListCall T) :
    (call.performOn items).2.length ≤ items.length + 1 := by
  cases call with
  | addHead pElement newNode => exact Nat.le_refl _
  | addTail pElement newNode => exact Nat.le_of_eq (List.length_append ..)
  | deleteHead => simp [ListCall.performOn]; omega
  | deleteTail => simp [ListCall.performOn]; omega
  | insertBefore pElement index newNode | insertpAfter pElement index newNode =>
      simp only [ListCall.performOn, List.length_insertIdx]
      split <;> omega
  | deletePos index | deleteAt index =>
      simp only [ListCall.performOn, List.length_eraseIdx]
      split <;> omega

theorem Sound.step {run next : ListRun T} (sound : run.Sound) {call : ListCall T}
    (keeps : call.KeepsOrder run.items) (steps : (listSystem T).step run call = some next) :
    next.Sound := by
  simp only [listSystem, Option.bind_eq_bind, Option.bind_eq_some_iff] at steps
  rcases steps with ⟨list, is_some, steps⟩
  by_cases permits : call.permitted list = true
  · rw [if_pos permits] at steps
    rcases Option.some.inj steps with rfl
    have longer := length_performOn_le run.items call
    have length_le := sound.length_le
    refine ⟨by simp only; omega, fun few => ?_⟩
    simp only at few
    rcases sound.holds (by omega) with ⟨_, same, holds, -⟩
    rcases Option.some.inj (is_some.symm.trans same) with rfl
    rcases holds.perform (by omega) permits keeps with ⟨after, performs, held⟩
    refine ⟨after, ?_, held, ?_⟩
    · simp only [performs, Option.map_some]
    · simp only [performs, Option.bind_some]
  · rw [if_neg permits] at steps
    contradiction

/-- A call that does not keep the order leaves no list, or one that does not show the sequence, or
it returns another element. -/
theorem keepsOrder_of_perform {list after : CList T} {items : List T} (holds : list.Holds items)
    (small : items.length < 2 ^ 15) {call : ListCall T} {pElement : Option T}
    (permits : call.permitted list = true) (performs : call.perform list = some (pElement, after))
    (shows : after.Shows (call.performOn items).2) (returns : pElement = (call.performOn items).1) :
    call.KeepsOrder items := by
  have count : list.nCount = items.length := holds.shows.count
  cases call with
  | addHead | addTail | deleteHead | deleteTail | insertBefore | deletePos => trivial
  | insertpAfter inserted index newNode =>
      obtain ⟨index_lt, fresh⟩ : index < list.nCount ∧ newNode ∉ list.outstanding :=
        of_decide_eq_true permits
      by_contra middle
      have middle : index + 1 ≠ items.length := middle
      rcases holds with ⟨cells, inOrder, rfl⟩
      rw [List.length_map] at count middle
      rcases CList.split_at (by omega : index < cells.length) with ⟨left, current, right, rfl, rfl⟩
      cases right with
      | nil => simp at middle
      | cons next right =>
          rcases List.eq_nil_or_concat' left with rfl | ⟨before, behind, rfl⟩
          · have crashes := inOrder.insertpAfter_first inserted newNode
            rw [ListCall.perform, List.length_nil, crashes] at performs
            contradiction
          · rcases inOrder.insertpAfter_middle fresh inserted with ⟨broken, inserts, endless⟩
            rw [ListCall.perform, inserts] at performs
            obtain ⟨-, rfl⟩ : none = pElement ∧ broken = after := by simpa using performs
            rcases shows.backwards with ⟨cells, follows, -⟩
            exact endless cells follows
  | deleteAt index =>
      have index_lt : index < list.nCount := of_decide_eq_true permits
      by_contra wrong
      simp only [ListCall.KeepsOrder, not_or] at wrong
      rcases wrong with ⟨notFirst, notLast, differ⟩
      rcases holds with ⟨cells, inOrder, rfl⟩
      rw [List.length_map] at small count notLast differ
      by_cases beforeLast : index + 2 = cells.length
      · rcases CList.split_at (by omega : index < cells.length) with ⟨left, behind, rest, rfl, rfl⟩
        obtain ⟨current, rfl⟩ : ∃ current, rest = [current] := by
          apply List.length_eq_one_iff.mp
          simp at beforeLast
          omega
        have whole : left ++ behind :: [current] = left ++ [behind] ++ [current] := by simp
        have crashes := (whole ▸ inOrder).deleteAt_beforeLast fun empty =>
          notFirst (empty ▸ rfl)
        rw [ListCall.perform, crashes] at performs
        contradiction
      · rcases CList.split_middle (by omega : index + 2 < cells.length) with
          ⟨left, behind, current, next, right, rfl, rfl⟩
        rcases inOrder.deleteAt_middle small fun empty => notFirst (empty ▸ rfl) with
          ⟨deleted, deletes, -⟩
        rw [ListCall.perform, deletes] at performs
        obtain ⟨rfl, -⟩ : some (list.element current) = pElement ∧ deleted = after := by
          simpa using performs
        apply differ
        refine ⟨by simp, ?_⟩
        have same : some (list.element current) = ((left ++ [behind] ++
            current :: next :: right).map list.element)[left.length]? := returns
        rw [← same]
        simp

/-- For as long as the calls can be counted, exactly the calls that keep the order leave a list that
refines the sequence. -/
theorem Sound.step_iff {run next : ListRun T} (sound : run.Sound) (few : run.calls + 1 < 32768)
    {call : ListCall T} (steps : (listSystem T).step run call = some next) :
    next.Refines ↔ call.KeepsOrder run.items := by
  constructor
  · rintro ⟨after, is_some, shows, returns⟩
    rcases sound.holds (by omega) with ⟨list, list_eq, holds, -⟩
    have length_le := sound.length_le
    simp only [listSystem, list_eq, Option.bind_eq_bind, Option.bind_some] at steps
    by_cases permits : call.permitted list = true
    · rw [if_pos permits] at steps
      rcases Option.some.inj steps with rfl
      rcases Option.map_eq_some_iff.mp is_some with ⟨⟨pElement, _⟩, performs, rfl⟩
      simp only [performs, Option.bind_some] at returns
      exact keepsOrder_of_perform holds (by omega) permits performs shows returns
    · rw [if_neg permits] at steps
      contradiction
  · intro keeps
    have counted : next.calls = run.calls + 1 := by
      simp only [listSystem, Option.bind_eq_bind, Option.bind_eq_some_iff] at steps
      rcases steps with ⟨list, -, steps⟩
      by_cases permits : call.permitted list = true
      · rw [if_pos permits] at steps
        rcases Option.some.inj steps with rfl
        rfl
      · rw [if_neg permits] at steps
        contradiction
    rcases (sound.step keeps steps).holds (by omega) with ⟨list, is_some, holds, returns⟩
    exact ⟨list, is_some, holds.shows, returns⟩

/-- In every run whose calls keep the order, the list refines the sequence. -/
theorem refines_of_reachable {run : ListRun T}
    (reached : (listSystem T).ReachableBy (fun run call => call.KeepsOrder run.items) run)
    (few : run.calls < 32768) : run.Refines := by
  have sound : run.Sound := by
    refine reached.invariant ?_ ?_
    · rintro _ rfl
      exact ⟨Nat.le_refl 0, fun _ => ⟨_, rfl, CList.holds_construct, rfl⟩⟩
    · intro run call next sound keeps steps
      exact sound.step keeps steps
  rcases sound.holds few with ⟨list, is_some, holds, returns⟩
  exact ⟨list, is_some, holds.shows, returns⟩

/-- Two numbers are added, and a third is inserted behind the first: the call does not return. -/
theorem not_refines_insertpAfter :
    ¬∀ run : ListRun Nat, (listSystem Nat).Reachable run → run.calls < 32768 → run.Refines := by
  intro refines
  have reached : (listSystem Nat).Reachable _ := Transition.System.reachable_of_run rfl
    (rfl : (listSystem Nat).run (.start Nat) [.addTail 1 ⟨0, 9⟩, .addTail 2 ⟨0, 8⟩,
      .insertpAfter 3 0 ⟨0, 7⟩] = _)
  rcases refines _ reached (by decide) with ⟨list, is_some, -⟩
  contradiction

/-- Two numbers are added, and the second is deleted. -/
theorem refines_addTail_deleteAt :
    ∃ run : ListRun Nat, (listSystem Nat).run (.start Nat)
        [.addTail 1 ⟨0, 9⟩, .addTail 2 ⟨0, 8⟩, .deleteAt 1] = some run ∧ run.Refines := by
  have start : (listSystem Nat).ReachableBy (fun run call => call.KeepsOrder run.items)
      (.start Nat) := .initial rfl
  have one := start.step (by trivial : ListCall.KeepsOrder _ (.addTail 1 ⟨0, 9⟩)) rfl
  have two := one.step (by trivial : ListCall.KeepsOrder _ (.addTail 2 ⟨0, 8⟩)) rfl
  have keeps : ListCall.KeepsOrder [1, 2] (.deleteAt 1) := .inr (.inl rfl)
  exact ⟨_, rfl, refines_of_reachable (two.step keeps rfl) (by decide)⟩

end ListRun

end SunPush
