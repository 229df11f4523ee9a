import SunPush.Utility.CList

/-!
# The nodes of a linked list

A list is in order when its nodes are linked to each other in both directions,
the ends are the first and the last one, and it counts them.  What each call
does to a list in order is told by the node that is put in or taken out.
-/

namespace SunPush

namespace CList

variable {T : Type}

def links (list : CList T) : Links NodePtr :=
  ⟨fun node => (list.nodes node).pPrev, fun node => (list.nodes node).pNext⟩

def element (list : CList T) (node : NodePtr) : T := (list.nodes node).pElement

/-- The nodes of the list are these, in this order. -/
structure InOrder (list : CList T) (cells : List NodePtr) : Prop where
  nodup : cells.Nodup
  linked : list.links.Segment none cells none
  head_eq : list.head = cells.head?
  tail_eq : list.tail = cells.getLast?
  outstanding : list.outstanding.Perm cells
  count_eq : list.nCount = cells.length

/-! ## Fields -/

section Fields

variable (list : CList T) (node : NodePtr) (link : Option NodePtr) (content : ListNode T)

@[simp]
theorem links_setPrev : (list.setPrev node link).links = list.links.setPrev node link := by
  ext other : 2 <;> by_cases same : other = node <;> simp [links, setPrev, Links.setPrev, same]

@[simp]
theorem links_setNext : (list.setNext node link).links = list.links.setNext node link := by
  ext other : 2 <;> by_cases same : other = node <;> simp [links, setNext, Links.setNext, same]

@[simp]
theorem links_allocNode : (list.allocNode node content).links =
    (list.links.setPrev node content.pPrev).setNext node content.pNext := by
  ext other : 2 <;> by_cases same : other = node <;>
    simp [links, allocNode, Links.setPrev, Links.setNext, same]

@[simp]
theorem element_setPrev : (list.setPrev node link).element = list.element := by
  funext other
  by_cases same : other = node <;> simp [element, setPrev, same]

@[simp]
theorem element_setNext : (list.setNext node link).element = list.element := by
  funext other
  by_cases same : other = node <;> simp [element, setNext, same]

@[simp]
theorem element_allocNode : (list.allocNode node content).element =
    Function.update list.element node content.pElement := by
  funext other
  by_cases same : other = node <;> simp [element, allocNode, same]

end Fields

@[simp]
theorem links_freeNode (list : CList T) (node : NodePtr) :
    (list.freeNode node).links = list.links :=
  rfl

/-! ## One node more, one node less -/

/-- A list in order whose nodes have these elements. -/
def Holds (list : CList T) (items : List T) : Prop :=
  ∃ cells, list.InOrder cells ∧ cells.map list.element = items

theorem toShort_of_lt {value : Int} (nonneg : 0 ≤ value) (small : value < 2 ^ 15) :
    toShort value = value :=
  Int.bmod_eq_of_le (by omega) (by omega)

namespace InOrder

variable {list body : CList T} {cells left right : List NodePtr} {node : NodePtr}
  {head tail : Option NodePtr} {nCount : Int}

theorem holds (inOrder : list.InOrder cells) : list.Holds (cells.map list.element) :=
  ⟨cells, inOrder, rfl⟩

theorem mem_outstanding (inOrder : list.InOrder cells) :
    node ∈ list.outstanding ↔ node ∈ cells :=
  inOrder.outstanding.mem_iff

theorem toShort_succ (inOrder : list.InOrder cells) (small : cells.length + 1 < 2 ^ 15) :
    toShort (list.nCount + 1) = list.nCount + 1 := by
  have count := inOrder.count_eq
  exact toShort_of_lt (by omega) (by omega)

theorem toShort_pred (inOrder : list.InOrder cells) (nonempty : cells ≠ [])
    (small : cells.length < 2 ^ 15) : toShort (list.nCount - 1) = list.nCount - 1 := by
  have count := inOrder.count_eq
  have positive := List.length_pos_iff.mpr nonempty
  exact toShort_of_lt (by omega) (by omega)

theorem not_last (inOrder : list.InOrder cells) {index : Nat} (inside : index + 1 < cells.length) :
    ¬(index : Int) = list.nCount - 1 := by
  rw [inOrder.count_eq]
  omega

theorem head_ne (inOrder : list.InOrder (left ++ node :: right)) (behind : left ≠ []) :
    list.head ≠ some node := by
  intro same
  rw [inOrder.head_eq, List.head?_append_of_ne_nil _ behind] at same
  have inFront := List.mem_of_mem_head? same
  exact (List.nodup_append.mp inOrder.nodup).2.2 node inFront node List.mem_cons_self rfl

theorem tail_ne (inOrder : list.InOrder (left ++ node :: right)) (before : right ≠ []) :
    list.tail ≠ some node := by
  intro same
  rcases List.exists_cons_of_ne_nil before with ⟨next, rest, rfl⟩
  rw [inOrder.tail_eq, List.getLast?_append_cons, List.getLast?_cons_cons] at same
  have nodup := (List.nodup_append.mp inOrder.nodup).2.1
  exact (List.nodup_cons.mp nodup).1 (List.mem_of_mem_getLast? same)

/-- Where the loops over the nodes set out. -/
theorem exists_head (inOrder : list.InOrder ((left ++ [node]) ++ right)) :
    ∃ first, list.head = some first ∧ (left ++ node :: right).head? = some first ∧
      list.links.Segment none (left ++ node :: right) none := by
  have whole : left ++ [node] ++ right = left ++ node :: right := by simp
  have head := inOrder.head_eq
  have linked := inOrder.linked
  rw [whole] at head linked
  cases left with
  | nil => exact ⟨node, head, rfl, linked⟩
  | cons first left => exact ⟨first, head, rfl, linked⟩

theorem insert {newNode : NodePtr} {pElement : T} (inOrder : list.InOrder (left ++ right))
    (fresh : newNode ∉ list.outstanding)
    (writes : body.links = list.links.insert newNode left.getLast? right.head?)
    (sets : body.element = Function.update list.element newNode pElement)
    (takes : body.outstanding = newNode :: list.outstanding)
    (first : head = (left ++ newNode :: right).head?)
    (last : tail = (left ++ newNode :: right).getLast?) (counts : nCount = list.nCount + 1) :
    Holds { body with head, tail, nCount }
      (left.map list.element ++ pElement :: right.map list.element) := by
  have absent : newNode ∉ left ++ right :=
    fun present => fresh (inOrder.mem_outstanding.mpr present)
  have places : (left ++ newNode :: right).Perm (newNode :: (left ++ right)) := List.perm_middle
  refine ⟨left ++ newNode :: right, ⟨?_, ?_, first, last, ?_, ?_⟩, ?_⟩
  · exact places.nodup_iff.mpr (List.nodup_cons.mpr ⟨absent, inOrder.nodup⟩)
  · change body.links.Segment none _ none
    rw [writes]
    exact inOrder.linked.insert inOrder.nodup absent
  · change body.outstanding.Perm _
    rw [takes]
    exact (inOrder.outstanding.cons newNode).trans places.symm
  · have count := inOrder.count_eq
    have length := places.length_eq
    rw [List.length_cons] at length
    change nCount = _
    omega
  · change List.map body.element _ = _
    have others {part : List NodePtr} (absent : newNode ∉ part) :
        part.map body.element = part.map list.element := by
      apply List.map_congr_left
      intro node node_mem
      rw [sets]
      apply Function.update_of_ne
      rintro rfl
      exact absent node_mem
    have own : body.element newNode = pElement := by
      rw [sets]
      exact Function.update_self ..
    rw [List.map_append, List.map_cons, own,
      others fun inLeft => absent (List.mem_append_left right inLeft),
      others fun inRight => absent (List.mem_append_right left inRight)]

theorem remove (inOrder : list.InOrder (left ++ node :: right))
    (writes : body.links = list.links.remove left.getLast? right.head?)
    (keeps : body.element = list.element)
    (frees : body.outstanding = list.outstanding.erase node)
    (first : head = (left ++ right).head?) (last : tail = (left ++ right).getLast?)
    (counts : nCount = list.nCount - 1) :
    Holds { body with head, tail, nCount }
      (left.map list.element ++ right.map list.element) := by
  have places : (left ++ node :: right).Perm (node :: (left ++ right)) := List.perm_middle
  refine ⟨left ++ right, ⟨?_, ?_, first, last, ?_, ?_⟩, ?_⟩
  · exact (List.nodup_cons.mp (places.nodup_iff.mp inOrder.nodup)).2
  · change body.links.Segment none _ none
    rw [writes]
    exact inOrder.linked.remove inOrder.nodup
  · change body.outstanding.Perm _
    rw [frees]
    have erased := (inOrder.outstanding.trans places).erase node
    rwa [List.erase_cons_head] at erased
  · have count := inOrder.count_eq
    have length := places.length_eq
    rw [List.length_cons] at length
    change nCount = _
    omega
  · change List.map body.element _ = _
    rw [keeps, List.map_append]

end InOrder

/-! ## Adding -/

section Adding

variable {list : CList T} {items : List T} {newNode : NodePtr}

theorem Holds.addHead (holds : list.Holds items) (small : items.length + 1 < 2 ^ 15)
    (fresh : newNode ∉ list.outstanding) (pElement : T) :
    (list.addHead pElement newNode).Holds (pElement :: items) := by
  rcases holds with ⟨cells, inOrder, rfl⟩
  rw [List.length_map] at small
  have counts := inOrder.toShort_succ small
  cases cells with
  | nil =>
      have head : list.head = none := inOrder.head_eq
      have adds : list.addHead pElement newNode =
          { (list.allocNode newNode ⟨pElement, none, none⟩).setNext newNode none with
            head := some newNode, tail := some newNode, nCount := toShort (list.nCount + 1) } := by
        simp only [CList.addHead, allocNode, head]
      rw [adds]
      apply @InOrder.insert _ _ _ [] [] _ _ _ newNode pElement inOrder fresh
      · simp [Links.insert, Links.setNext?, Links.setPrev?]
      · simp
      · rfl
      · rfl
      · rfl
      · exact counts
  | cons first cells =>
      have head : list.head = some first := inOrder.head_eq
      have adds : list.addHead pElement newNode =
          { ((list.allocNode newNode ⟨pElement, none, none⟩).setPrev first (some newNode)).setNext
              newNode (some first) with
            head := some newNode, nCount := toShort (list.nCount + 1) } := by
        simp only [CList.addHead, allocNode, head]
      rw [adds]
      apply @InOrder.insert _ _ _ [] (first :: cells) _ _ _ newNode pElement inOrder fresh
      · simp [Links.insert, Links.setNext?, Links.setPrev?, Links.setNext_setPrev]
      · simp
      · rfl
      · rfl
      · change list.tail = _
        rw [inOrder.tail_eq]
        rfl
      · exact counts

theorem Holds.addTail (holds : list.Holds items) (small : items.length + 1 < 2 ^ 15)
    (fresh : newNode ∉ list.outstanding) (pElement : T) :
    (list.addTail pElement newNode).Holds (items ++ [pElement]) := by
  rcases holds with ⟨cells, inOrder, rfl⟩
  rw [List.length_map] at small
  have counts := inOrder.toShort_succ small
  rcases List.eq_nil_or_concat' cells with rfl | ⟨before, last, rfl⟩
  · have tail : list.tail = none := inOrder.tail_eq
    have adds : list.addTail pElement newNode =
        { list.allocNode newNode ⟨pElement, none, none⟩ with
          head := some newNode, tail := some newNode, nCount := toShort (list.nCount + 1) } := by
      simp only [CList.addTail, allocNode, tail]
    rw [adds]
    apply @InOrder.insert _ _ _ [] [] _ _ _ newNode pElement inOrder fresh
    · simp [Links.insert, Links.setNext?, Links.setPrev?]
    · simp
    · rfl
    · rfl
    · rfl
    · exact counts
  · have tail : list.tail = some last := inOrder.tail_eq.trans (by simp)
    have whole : list.InOrder ((before ++ [last]) ++ []) := by rwa [List.append_nil]
    have adds : list.addTail pElement newNode =
        { ((list.allocNode newNode ⟨pElement, none, none⟩).setNext last (some newNode)).setPrev
            newNode (some last) with
          tail := some newNode, nCount := toShort (list.nCount + 1) } := by
      simp only [CList.addTail, allocNode, tail]
    rw [adds]
    apply @InOrder.insert _ _ _ (before ++ [last]) [] _ _ _ newNode pElement whole fresh
    · simp [Links.insert, Links.setNext?, Links.setPrev?, Links.setNext_setPrev]
    · simp
    · rfl
    · change list.head = _
      rw [inOrder.head_eq]
      simp
    · simp
    · exact counts

theorem pNext_eq {cell : NodePtr} {cells : List NodePtr} {before : Option NodePtr}
    (linked : list.links.Segment before (cell :: cells) none) :
    (list.nodes cell).pNext = cells.head? :=
  linked.2.1.trans Option.or_none

theorem walk_eq {left right : List NodePtr} {before : Option NodePtr}
    (linked : list.links.Segment before (left ++ right) none) :
    list.walk left.length before (left ++ right).head? =
      (left.getLast?.or before, right.head?) := by
  induction left generalizing before with
  | nil => rfl
  | cons cell left ih =>
      have goes : (list.nodes cell).pNext = (left ++ right).head? := pNext_eq linked
      have rest := linked.2.2
      have last : (cell :: left).getLast?.or before = left.getLast?.or (some cell) := by
        simp [List.getLast?_cons]
      rw [List.length_cons, List.cons_append, List.head?_cons, walk, goes, ih rest, last]

theorem insertIdx_length {α : Type} (left right : List α) (value : α) :
    (left ++ right).insertIdx left.length value = left ++ value :: right := by
  induction left with
  | nil => simp
  | cons first left ih => simp [ih]

/-- The nodes of a list in order fall into those before an index and those from it on. -/
theorem split_at {cells : List NodePtr} {index : Nat} (index_lt : index < cells.length) :
    ∃ left node right, cells = left ++ node :: right ∧ left.length = index := by
  refine ⟨cells.take index, cells[index], cells.drop (index + 1), ?_, ?_⟩
  · rw [← List.drop_eq_getElem_cons index_lt, List.take_append_drop]
  · rw [List.length_take]
    omega

theorem Holds.insertBefore (holds : list.Holds items) (small : items.length + 1 < 2 ^ 15)
    (fresh : newNode ∉ list.outstanding) (pElement : T) {index : Nat}
    (index_lt : index < items.length) :
    ∃ after, list.insertBefore pElement index newNode = some after ∧
      after.Holds (items.insertIdx index pElement) := by
  by_cases first : index = 0
  · subst first
    exact ⟨_, if_pos rfl, holds.addHead small fresh pElement⟩
  · rcases holds with ⟨cells, inOrder, rfl⟩
    rw [List.length_map] at small index_lt
    rcases split_at index_lt with ⟨left, current, right, rfl, rfl⟩
    have counts := inOrder.toShort_succ small
    rcases (List.eq_nil_or_concat' left).resolve_left fun empty => first (empty ▸ rfl) with
      ⟨before, after, rfl⟩
    have walks := walk_eq inOrder.linked
    rw [← inOrder.head_eq] at walks
    have back : (list.nodes current).pPrev = some after := by
      rcases Links.segment_append.mp inOrder.linked with ⟨-, prev, -⟩
      exact prev.trans (by simp)
    have inserts : list.insertBefore pElement (before ++ [after]).length newNode =
        some { ((list.allocNode newNode ⟨pElement, some after, some current⟩).setPrev current
            (some newNode)).setNext after (some newNode) with
          nCount := toShort (list.nCount + 1) } := by
      rw [CList.insertBefore, if_neg first, walks]
      simp [back, allocNode, CList.setPrev, CList.setNext]
    refine ⟨_, inserts, ?_⟩
    rw [List.map_append, ← List.length_map, insertIdx_length]
    apply @InOrder.insert _ _ _ (before ++ [after]) (current :: right) _ _ _ newNode pElement
      inOrder fresh
    · simp [Links.insert, Links.setNext?, Links.setPrev?]
    · simp
    · rfl
    · change list.head = _
      rw [inOrder.head_eq]
      simp
    · change list.tail = _
      rw [inOrder.tail_eq]
      simp
    · exact counts

/-- Behind the last element the new one is added at the end. -/
theorem Holds.insertpAfter_last (holds : list.Holds items) (small : items.length + 1 < 2 ^ 15)
    (fresh : newNode ∉ list.outstanding) (pElement : T) {index : Nat}
    (last : index + 1 = items.length) :
    ∃ after, list.insertpAfter pElement index newNode = some after ∧
      after.Holds (items.insertIdx (index + 1) pElement) := by
  rcases holds with ⟨cells, inOrder, rfl⟩
  have count := inOrder.count_eq
  have at_end : (index : Int) = list.nCount - 1 := by
    rw [List.length_map] at last
    omega
  refine ⟨_, if_pos at_end, ?_⟩
  rw [last, List.insertIdx_length_self]
  exact inOrder.holds.addTail small fresh pElement

end Adding

/-! ## Deleting -/

section Deleting

variable {list : CList T} {items : List T}

/-- The only node is taken out. -/
theorem InOrder.clear {node : NodePtr} (inOrder : list.InOrder [node]) :
    Holds { list.freeNode node with head := none, tail := none, nCount := 0 } [] := by
  have count := inOrder.count_eq
  apply @InOrder.remove _ _ _ [] [] node _ _ _ inOrder
  · rfl
  · rfl
  · rfl
  · rfl
  · rfl
  · rw [count]
    rfl

theorem Holds.deleteHead [Zero T] (holds : list.Holds items) (small : items.length < 2 ^ 15) :
    ∃ after, list.deleteHead = some (items.head?.getD 0, after) ∧ after.Holds items.tail := by
  rcases holds with ⟨cells, inOrder, rfl⟩
  rw [List.length_map] at small
  match cells, inOrder with
  | [], inOrder =>
      have head : list.head = none := inOrder.head_eq
      refine ⟨list, ?_, inOrder.holds⟩
      simp only [CList.deleteHead, head]
      rfl
  | [first], inOrder =>
      have head : list.head = some first := inOrder.head_eq
      have tail : list.tail = some first := inOrder.tail_eq
      refine ⟨_, ?_, inOrder.clear⟩
      simp only [CList.deleteHead, head, if_pos tail]
      rfl
  | first :: second :: rest, inOrder =>
      have head : list.head = some first := inOrder.head_eq
      have tail : list.tail ≠ some first :=
        @InOrder.tail_ne _ _ [] _ _ inOrder (List.cons_ne_nil second rest)
      have next : (list.nodes first).pNext = some second := inOrder.linked.2.1
      have counts := inOrder.toShort_pred (List.cons_ne_nil _ _) small
      refine ⟨{ (list.setPrev second none).freeNode first with
        head := some second, nCount := toShort (list.nCount - 1) }, ?_, ?_⟩
      · simp only [CList.deleteHead, head, if_neg tail, next]
        rfl
      · apply @InOrder.remove _ _ _ [] (second :: rest) first _ _ _ inOrder
        · simp [Links.remove, Links.setNext?, Links.setPrev?]
        · exact element_setPrev list second none
        · rfl
        · rfl
        · change list.tail = _
          rw [inOrder.tail_eq]
          rfl
        · exact counts

theorem exists_first (left right : List NodePtr) (node : NodePtr) :
    ∃ first, (left ++ node :: right).head? = some first := by
  cases left with
  | nil => exact ⟨node, rfl⟩
  | cons first left => exact ⟨first, rfl⟩

/-- The loop of `DeleteTail` ends at the last two nodes. -/
theorem lastTwo_eq {left : List NodePtr} {after current : NodePtr} {before : Option NodePtr}
    (linked : list.links.Segment before (left ++ [after, current]) none) {steps : Nat}
    (enough : left.length < steps) {first : NodePtr}
    (starts : (left ++ [after, current]).head? = some first) :
    list.lastTwo steps first = some (after, current) := by
  induction left generalizing before steps first with
  | nil =>
      obtain rfl : after = first := Option.some.inj starts
      rcases Nat.exists_eq_add_of_lt enough with ⟨steps, rfl⟩
      have next : (list.nodes after).pNext = some current := linked.2.1
      have ends : (list.nodes current).pNext = none := linked.2.2.2.1
      simp [lastTwo, next, ends]
  | cons cell left ih =>
      obtain rfl : cell = first := Option.some.inj starts
      have rest : list.links.Segment (some cell) (left ++ [after, current]) none := linked.2.2
      rcases exists_first left [current] after with ⟨second, second_eq⟩
      have goes : (list.nodes cell).pNext = some second := second_eq ▸ pNext_eq linked
      obtain ⟨steps, rfl⟩ : ∃ more, steps = more + 1 := ⟨steps - 1, by omega⟩
      have more : (list.nodes second).pNext ≠ none := by
        cases left with
        | nil =>
            obtain rfl : after = second := Option.some.inj second_eq
            rw [show (list.nodes after).pNext = some current from rest.2.1]
            exact Option.some_ne_none current
        | cons second' left =>
            obtain rfl : second' = second := Option.some.inj second_eq
            rw [show (list.nodes second').pNext = _ from rest.2.1]
            cases left <;> simp
      rw [List.length_cons] at enough
      have later := ih rest (by omega : left.length < steps) second_eq
      simp [lastTwo, goes, more, later]

theorem Holds.deleteTail [Zero T] (holds : list.Holds items) (small : items.length < 2 ^ 15) :
    ∃ after, list.deleteTail = some (items.getLast?.getD 0, after) ∧
      after.Holds items.dropLast := by
  rcases holds with ⟨cells, inOrder, rfl⟩
  rw [List.length_map] at small
  rcases List.eq_nil_or_concat' cells with rfl | ⟨cells, last, rfl⟩
  · have tail : list.tail = none := inOrder.tail_eq
    refine ⟨list, ?_, inOrder.holds⟩
    simp only [CList.deleteTail, tail]
    rfl
  · rcases List.eq_nil_or_concat' cells with rfl | ⟨before, after, rfl⟩
    · have head : list.head = some last := inOrder.head_eq
      have tail : list.tail = some last := inOrder.tail_eq
      refine ⟨_, ?_, inOrder.clear⟩
      simp only [CList.deleteTail, tail, if_pos head]
      rfl
    · have tail : list.tail = some last := inOrder.tail_eq.trans (by simp)
      rcases inOrder.exists_head with ⟨first, head, first_eq, linked⟩
      have apart : list.head ≠ some last := inOrder.head_ne (by simp)
      have length := inOrder.outstanding.length_eq
      have steps : before.length < list.outstanding.length := by
        rw [length]
        simp
      have finds := lastTwo_eq linked steps first_eq
      have counts := inOrder.toShort_pred (by simp) small
      refine ⟨{ (list.setNext after none).freeNode last with
        tail := some after, nCount := toShort (list.nCount - 1) }, ?_, ?_⟩
      · simp only [CList.deleteTail, tail, if_neg apart]
        rw [head]
        simp [finds, element]
      · rw [← List.map_dropLast, List.dropLast_concat]
        have removed := @InOrder.remove _ list ((list.setNext after none).freeNode last)
          (before ++ [after]) [] last list.head (some after) (toShort (list.nCount - 1)) inOrder
          (by simp [Links.remove, Links.setNext?, Links.setPrev?]) (element_setNext list after none)
          rfl (by rw [inOrder.head_eq]; simp) (by simp) counts
        rw [List.map_nil, List.append_nil] at removed
        exact removed

theorem eraseIdx_length {α : Type} (left right : List α) (value : α) :
    (left ++ value :: right).eraseIdx left.length = left ++ right := by
  rw [List.eraseIdx_append_of_length_le (Nat.le_refl _), Nat.sub_self, List.eraseIdx_zero,
    List.tail_cons]

/-- A node between two others is taken out. -/
theorem InOrder.unlink {left right : List NodePtr} {after current next : NodePtr}
    (inOrder : list.InOrder ((left ++ [after]) ++ current :: next :: right))
    (small : ((left ++ [after]) ++ current :: next :: right).length < 2 ^ 15) :
    ∃ unlinked, list.unlink after current = some (list.element current, unlinked) ∧
      unlinked.Holds ((left ++ [after]).map list.element ++ (next :: right).map list.element) := by
  have goes : (list.nodes current).pNext = some next :=
    pNext_eq (Links.segment_append.mp inOrder.linked).2
  have counts := inOrder.toShort_pred (by simp) small
  refine ⟨{ ((list.setPrev next (some after)).setNext after (some next)).freeNode current with
    nCount := toShort (list.nCount - 1) }, ?_, ?_⟩
  · have kept :=
      congrFun (element_setNext (list.setPrev next (some after)) after (some next)) current
    rw [element_setPrev] at kept
    simp only [CList.unlink, goes, Option.bind_eq_bind, Option.bind_some]
    rw [← kept]
    rfl
  · apply @InOrder.remove _ _ _ (left ++ [after]) (next :: right) current _ _ _ inOrder
    · simp [Links.remove, Links.setNext?, Links.setPrev?]
    · exact (element_setNext _ _ _).trans (element_setPrev _ _ _)
    · rfl
    · change list.head = _
      rw [inOrder.head_eq]
      simp
    · change list.tail = _
      rw [inOrder.tail_eq]
      simp
    · exact counts

/-- The loop of `DeletePos` ends in front of the node. -/
theorem findAfter_eq {left right : List NodePtr} {after pos : NodePtr} {before : Option NodePtr}
    (linked : list.links.Segment before (left ++ after :: pos :: right) none)
    (other : pos ∉ left ++ [after]) {steps : Nat} (enough : left.length < steps) {first : NodePtr}
    (starts : (left ++ after :: pos :: right).head? = some first) :
    list.findAfter pos steps first (list.nodes first).pNext = some after := by
  induction left generalizing before steps first with
  | nil =>
      obtain rfl : after = first := Option.some.inj starts
      obtain ⟨steps, rfl⟩ : ∃ more, steps = more + 1 := ⟨steps - 1, by omega⟩
      have next : (list.nodes after).pNext = some pos := pNext_eq linked
      rw [next, findAfter, if_pos rfl]
  | cons cell left ih =>
      obtain rfl : cell = first := Option.some.inj starts
      obtain ⟨steps, rfl⟩ : ∃ more, steps = more + 1 := ⟨steps - 1, by omega⟩
      rw [List.length_cons] at enough
      obtain ⟨second, second_eq, differs⟩ :
          ∃ second, (left ++ after :: pos :: right).head? = some second ∧ second ≠ pos := by
        cases left with
        | nil => exact ⟨after, rfl, fun same => other (by simp [same])⟩
        | cons second left => exact ⟨second, rfl, fun same => other (by simp [same])⟩
      have goes : (list.nodes cell).pNext = some second := second_eq ▸ pNext_eq linked
      rw [goes, findAfter, if_neg differs]
      apply ih linked.2.2 (fun inRest => other (List.mem_cons_of_mem cell inRest))
      · omega
      · exact second_eq

/-- The loop of `DeleteAt` makes its steps from the second node on. -/
theorem advance_eq {left right : List NodePtr} {after current : NodePtr} {before : Option NodePtr}
    (linked : list.links.Segment before (left ++ after :: current :: right) none) {first : NodePtr}
    (starts : (left ++ after :: current :: right).head? = some first) :
    list.advance left.length first (list.nodes first).pNext = some (after, current) := by
  induction left generalizing before first with
  | nil =>
      obtain rfl : after = first := Option.some.inj starts
      have next : (list.nodes after).pNext = some current := pNext_eq linked
      rw [next]
      rfl
  | cons cell left ih =>
      obtain rfl : cell = first := Option.some.inj starts
      rcases exists_first left (current :: right) after with ⟨second, second_eq⟩
      have goes : (list.nodes cell).pNext = some second := second_eq ▸ pNext_eq linked
      rw [goes, List.length_cons, advance]
      exact ih linked.2.2 second_eq

/-- A node between two others, by its index. -/
theorem split_middle {cells : List NodePtr} {index : Nat} (inside : index + 2 < cells.length) :
    ∃ left after current next right,
      cells = (left ++ [after]) ++ current :: next :: right ∧ left.length = index := by
  rcases split_at (by omega : index < cells.length) with ⟨left, after, rest, rfl, rfl⟩
  match rest with
  | [] => simp at inside
  | [current] => simp at inside
  | current :: next :: right => exact ⟨left, after, current, next, right, by simp, rfl⟩

theorem Holds.deletePos [Zero T] (holds : list.Holds items) (small : items.length < 2 ^ 15)
    {index : Nat} (index_lt : index < items.length) :
    ∃ pos pElement next after, list.getIndexPos index = some pos ∧
      list.deletePos pos = some ((pElement, next), after) ∧ items[index]? = some pElement ∧
      after.Holds (items.eraseIdx index) := by
  rcases holds with ⟨cells, inOrder, rfl⟩
  have length : (cells.map list.element).length = cells.length := List.length_map _
  have index_lt' : index < cells.length := length ▸ index_lt
  rcases split_at index_lt' with ⟨left, pos, right, rfl, rfl⟩
  have found : list.getIndexPos left.length = some pos := by
    rw [getIndexPos, inOrder.head_eq, walk_eq inOrder.linked]
    rfl
  have at_index : ((left ++ pos :: right).map list.element)[left.length]? =
      some (list.element pos) := by
    simp
  have erased : ((left ++ pos :: right).map list.element).eraseIdx left.length =
      left.map list.element ++ right.map list.element := by
    rw [List.map_append, List.map_cons, ← List.length_map, eraseIdx_length]
  rw [at_index, erased]
  rcases List.eq_nil_or_concat' left with rfl | ⟨before, after, rfl⟩
  · -- the first node
    have head : list.head = some pos := inOrder.head_eq
    rcases inOrder.holds.deleteHead small with ⟨deleted, deletes, holds⟩
    refine ⟨pos, list.element pos, deleted.head, deleted, found, ?_, rfl, holds⟩
    rw [CList.deletePos, if_pos head, deletes]
    rfl
  · have front : list.head ≠ some pos := inOrder.head_ne (by simp)
    cases right with
    | nil =>
        -- the last one
        have tail : list.tail = some pos := inOrder.tail_eq.trans (by simp)
        rcases inOrder.holds.deleteTail small with ⟨deleted, deletes, holds⟩
        refine ⟨pos, list.element pos, deleted.tail, deleted, found, ?_, rfl, ?_⟩
        · rw [CList.deletePos, if_neg front, if_pos tail, deletes]
          simp
        · simpa using holds
    | cons next right =>
        have back : list.tail ≠ some pos := inOrder.tail_ne (List.cons_ne_nil next right)
        rcases inOrder.exists_head with ⟨first, head, first_eq, linked⟩
        have other : pos ∉ before ++ [after] := fun inFront =>
          (List.nodup_append.mp inOrder.nodup).2.2 pos inFront pos List.mem_cons_self rfl
        have steps : before.length < list.outstanding.length := by
          rw [inOrder.outstanding.length_eq]
          simp
        have finds := findAfter_eq linked other steps first_eq
        rcases inOrder.unlink (length ▸ small) with ⟨deleted, deletes, holds⟩
        refine ⟨pos, list.element pos, some after, deleted, found, ?_, rfl, holds⟩
        rw [CList.deletePos, if_neg front, if_neg back]
        simp [head, finds, deletes]

/-- `DeleteAt` between the ends takes out the node behind the one it is to take out. -/
theorem InOrder.deleteAt_middle [Zero T] {left right : List NodePtr} {after current next : NodePtr}
    (inOrder : list.InOrder ((left ++ [after]) ++ current :: next :: right))
    (small : ((left ++ [after]) ++ current :: next :: right).length < 2 ^ 15)
    (inside : left ≠ []) :
    ∃ deleted, list.deleteAt left.length = some (list.element current, deleted) ∧
      deleted.Holds ((left ++ [after]).map list.element ++ (next :: right).map list.element) := by
  rcases inOrder.unlink small with ⟨deleted, deletes, holds⟩
  refine ⟨deleted, ?_, holds⟩
  have positive := List.length_pos_iff.mpr inside
  have notLast : ¬(left.length : Int) = list.nCount - 1 := inOrder.not_last (by simp)
  rcases inOrder.exists_head with ⟨first, head, first_eq, linked⟩
  have goes := advance_eq linked first_eq
  rw [CList.deleteAt, if_neg (by omega), if_neg notLast]
  simp [head, goes, deletes]

/-- The right element goes at the ends, and in between if it is the same as the one behind it. -/
theorem Holds.deleteAt [Zero T] (holds : list.Holds items) (small : items.length < 2 ^ 15)
    {index : Nat} (index_lt : index < items.length)
    (condition : index = 0 ∨ index + 1 = items.length ∨
      index + 2 < items.length ∧ items[index]? = items[index + 1]?) :
    ∃ pElement after, list.deleteAt index = some (pElement, after) ∧
      items[index]? = some pElement ∧ after.Holds (items.eraseIdx index) := by
  by_cases first : index = 0
  · subst first
    rcases holds.deleteHead small with ⟨deleted, deletes, held⟩
    refine ⟨items[0], deleted, ?_, List.getElem?_eq_getElem index_lt, ?_⟩
    · rw [CList.deleteAt, if_pos rfl, deletes, List.head?_eq_getElem?,
        List.getElem?_eq_getElem index_lt]
      rfl
    · rw [List.eraseIdx_zero]
      exact held
  · by_cases last : index + 1 = items.length
    · rcases holds.deleteTail small with ⟨deleted, deletes, held⟩
      have at_end : (index : Int) = list.nCount - 1 := by
        rcases holds with ⟨cells, inOrder, rfl⟩
        rw [List.length_map] at last
        rw [inOrder.count_eq]
        omega
      have last_index : items.length - 1 = index := by omega
      refine ⟨items[index], deleted, ?_, List.getElem?_eq_getElem index_lt, ?_⟩
      · rw [CList.deleteAt, if_neg first, if_pos at_end, deletes, List.getLast?_eq_getElem?,
          last_index, List.getElem?_eq_getElem index_lt]
        rfl
      · rw [← last_index, List.eraseIdx_length_sub_one]
        exact held
    · rcases (condition.resolve_left first).resolve_left last with ⟨inside, same⟩
      rcases holds with ⟨cells, inOrder, rfl⟩
      rw [List.length_map] at small inside
      rcases split_middle inside with ⟨left, after, current, next, right, rfl, rfl⟩
      have nonempty : left ≠ [] := fun empty => first (empty ▸ rfl)
      rcases inOrder.deleteAt_middle small nonempty with ⟨deleted, deletes, held⟩
      have equal : list.element after = list.element current := by simpa using same
      refine ⟨list.element current, deleted, deletes, ?_, ?_⟩
      · simp [equal]
      · have whole : ((left ++ [after]) ++ current :: next :: right).map list.element =
            left.map list.element ++ list.element after ::
              (current :: next :: right).map list.element := by
          simp
        rw [whole, ← List.length_map, eraseIdx_length, List.map_cons, ← equal]
        simpa using held

/-- In front of the last node `DeleteAt` follows the null pointer behind it. -/
theorem InOrder.deleteAt_beforeLast [Zero T] {left : List NodePtr} {after current : NodePtr}
    (inOrder : list.InOrder ((left ++ [after]) ++ [current])) (inside : left ≠ []) :
    list.deleteAt left.length = none := by
  have positive := List.length_pos_iff.mpr inside
  have notLast : ¬(left.length : Int) = list.nCount - 1 := inOrder.not_last (by simp)
  rcases inOrder.exists_head with ⟨first, head, first_eq, linked⟩
  have goes := advance_eq linked first_eq
  have ends : (list.nodes current).pNext = none :=
    pNext_eq (Links.segment_append.mp inOrder.linked).2
  rw [CList.deleteAt, if_neg (by omega), if_neg notLast]
  simp [head, goes, CList.unlink, ends]

/-- Behind the first node `InsertpAfter` follows the null pointer in front of it. -/
theorem InOrder.insertpAfter_first {first second : NodePtr} {rest : List NodePtr}
    (inOrder : list.InOrder (first :: second :: rest)) (pElement : T) (newNode : NodePtr) :
    list.insertpAfter pElement 0 newNode = none := by
  have notLast : ¬((0 : Nat) : Int) = list.nCount - 1 := inOrder.not_last (by simp)
  have head : list.head = some first := inOrder.head_eq
  rw [CList.insertpAfter, if_neg notLast, head]
  rfl

/-- Between the ends `InsertpAfter` links the nodes in front of the new one to a circle. -/
theorem InOrder.insertpAfter_middle {left right : List NodePtr}
    {after current next newNode : NodePtr}
    (inOrder : list.InOrder ((left ++ [after]) ++ current :: next :: right))
    (fresh : newNode ∉ list.outstanding) (pElement : T) :
    ∃ inserted, list.insertpAfter pElement (left ++ [after]).length newNode = some inserted ∧
      ∀ cells, ¬Follows inserted.links.prev inserted.tail cells := by
  have notLast : ¬((left ++ [after]).length : Int) = list.nCount - 1 :=
    inOrder.not_last (by simp; omega)
  have walks := walk_eq inOrder.linked
  rw [← inOrder.head_eq] at walks
  have goes : (list.nodes current).pNext = some next :=
    pNext_eq (Links.segment_append.mp inOrder.linked).2
  obtain ⟨body, body_eq⟩ : ∃ body, body = ((list.allocNode newNode
    ⟨pElement, some current, some next⟩).setPrev after (some newNode)).setNext current
      (some newNode) := ⟨_, rfl⟩
  have inserts : list.insertpAfter pElement (left ++ [after]).length newNode =
      some { body with nCount := toShort (list.nCount + 1) } := by
    rw [CList.insertpAfter, if_neg notLast, walks, body_eq]
    simp [goes, allocNode, CList.setPrev, CList.setNext]
  refine ⟨_, inserts, ?_⟩
  intro cells follows
  have absent : newNode ∉ left ++ [after] ++ current :: next :: right := fun present =>
    fresh (inOrder.mem_outstanding.mpr present)
  have apart := (List.nodup_append.mp inOrder.nodup).2.2 after (by simp)
  -- the links in front as they are now
  let prev := Function.update (Function.update list.links.prev newNode (some current)) after
    (some newNode)
  have written : body.links.prev = prev := by
    simp only [body_eq, links_setNext, links_setPrev, links_allocNode]
    rfl
  have last : body.tail = (next :: right).getLast?.or (some current) := by
    have same : body.tail = list.tail := by
      rw [body_eq]
      rfl
    rw [same, inOrder.tail_eq]
    simp [List.getLast?_cons]
  change Follows body.links.prev body.tail cells at follows
  rw [written, last] at follows
  have kept : ∀ cell ∈ current :: next :: right, prev cell = list.links.prev cell := by
    intro cell cell_mem
    refine (Function.update_of_ne (apart cell cell_mem).symm ..).trans (Function.update_of_ne ?_ ..)
    rintro rfl
    exact absent (List.mem_append_right _ cell_mem)
  rcases Links.segment_append.mp inOrder.linked with ⟨-, back, -, behind⟩
  have linked : Links.Segment ⟨prev, list.links.next⟩ (some current) (next :: right) none :=
    behind.congr (fun cell cell_mem => kept cell (List.mem_cons_of_mem current cell_mem))
      fun _ _ => rfl
  rcases linked.follows_through follows with ⟨rest, circle⟩
  have one : prev current = some after := by
    rw [kept current List.mem_cons_self, back]
    simp
  have two : prev after = some newNode := Function.update_self ..
  have three : prev newNode = some current := by
    refine (Function.update_of_ne ?_ ..).trans (Function.update_self ..)
    rintro rfl
    exact absent (by simp)
  exact not_follows_circle one two three rest circle

end Deleting

end CList

end SunPush
