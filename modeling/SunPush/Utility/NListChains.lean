import SunPush.Utility.NList

/-!
# Intrusive lists refine lists

Any number of lists over any number of nodes.  A list of nodes is represented by
a chain of pointers from the head of its `nList` over the nodes to its tail.
The assertions of the functions are exact: a call passes them exactly when a
node that is added is in no list and a node that is removed, or added next to,
is in one.  So after every run of calls the chains are those of the lists of
nodes that the calls describe, in both directions, and no node is in two.
-/

namespace SunPush

/-! ## The lists of nodes that calls describe -/

namespace NodeLists

variable {L N : Type} [DecidableEq L] [DecidableEq N]

/-- Put a node in front of another one. -/
def putBefore (this succ : N) : List N → List N
  | [] => []
  | node :: nodes =>
      if node = succ then this :: node :: nodes else node :: putBefore this succ nodes

/-- Put a node behind another one. -/
def putAfter (this pred : N) : List N → List N
  | [] => []
  | node :: nodes => if node = pred then node :: this :: nodes else node :: putAfter this pred nodes

/-- The nodes of every list after a call. -/
def after (contents : L → List N) : NodeCall L N → L → List N
  | .addHead list n => Function.update contents list (n :: contents list)
  | .addTail list n => Function.update contents list (contents list ++ [n])
  | .remHead list => Function.update contents list (contents list).tail
  | .remTail list => Function.update contents list (contents list).dropLast
  | .insertBefore this succ => fun list => putBefore this succ (contents list)
  | .insertAfter this pred => fun list => putAfter this pred (contents list)
  | .remove this => fun list => (contents list).erase this

/-- The node that a call returns. -/
def returned (contents : L → List N) : NodeCall L N → Option N
  | .remHead list => (contents list).head?
  | .remTail list => (contents list).getLast?
  | _ => none

/-- The node is in a list. -/
def Linked (contents : L → List N) (n : N) : Prop :=
  ∃ list, n ∈ contents list

/-- What a call demands of the nodes it is given. -/
def Legal (contents : L → List N) : NodeCall L N → Prop
  | .addHead _ n => ¬Linked contents n
  | .addTail _ n => ¬Linked contents n
  | .remHead _ => True
  | .remTail _ => True
  | .insertBefore this succ => Linked contents succ ∧ ¬Linked contents this
  | .insertAfter this pred => Linked contents pred ∧ ¬Linked contents this
  | .remove this => Linked contents this

section Putting

variable {this other : N} {left right nodes : List N}

theorem putBefore_of_notMem (absent : other ∉ nodes) : putBefore this other nodes = nodes := by
  induction nodes with
  | nil => rfl
  | cons node nodes ih =>
      rw [List.mem_cons, not_or] at absent
      rw [putBefore, if_neg (Ne.symm absent.1), ih absent.2]

theorem putBefore_append (absent : other ∉ left) :
    putBefore this other (left ++ other :: right) = left ++ this :: other :: right := by
  induction left with
  | nil => exact if_pos rfl
  | cons node left ih =>
      rw [List.mem_cons, not_or] at absent
      rw [List.cons_append, putBefore, if_neg (Ne.symm absent.1), ih absent.2]
      rfl

theorem putAfter_of_notMem (absent : other ∉ nodes) : putAfter this other nodes = nodes := by
  induction nodes with
  | nil => rfl
  | cons node nodes ih =>
      rw [List.mem_cons, not_or] at absent
      rw [putAfter, if_neg (Ne.symm absent.1), ih absent.2]

theorem putAfter_append (absent : other ∉ left) :
    putAfter this other (left ++ other :: right) = left ++ other :: this :: right := by
  induction left with
  | nil => exact if_pos rfl
  | cons node left ih =>
      rw [List.mem_cons, not_or] at absent
      rw [List.cons_append, putAfter, if_neg (Ne.symm absent.1), ih absent.2]
      rfl

end Putting

/-- No node is in two places. -/
structure Apart (contents : L → List N) : Prop where
  nodup : ∀ list, (contents list).Nodup
  apart : ∀ list other n, n ∈ contents list → n ∈ contents other → list = other

section Changes

variable {contents : L → List N} {list : L} {left right : List N} {n : N}

omit [DecidableEq N]

theorem mem_insert (split : contents list = left ++ right) (other : L) (key : N) :
    key ∈ Function.update contents list (left ++ n :: right) other ↔
      (key = n ∧ other = list) ∨ key ∈ contents other := by
  by_cases same : other = list
  · subst same
    rw [Function.update_self, split, List.mem_append, List.mem_append, List.mem_cons]
    constructor
    · rintro (inLeft | rfl | inRight)
      · exact .inr (.inl inLeft)
      · exact .inl ⟨rfl, rfl⟩
      · exact .inr (.inr inRight)
    · rintro (⟨rfl, -⟩ | inLeft | inRight)
      · exact .inr (.inl rfl)
      · exact .inl inLeft
      · exact .inr (.inr inRight)
  · rw [Function.update_of_ne same]
    exact (or_iff_right fun both => same both.2).symm

theorem linked_insert (split : contents list = left ++ right) (key : N) :
    Linked (Function.update contents list (left ++ n :: right)) key ↔
      key = n ∨ Linked contents key := by
  simp only [Linked, mem_insert split]
  constructor
  · rintro ⟨other, ⟨rfl, -⟩ | member⟩
    · exact .inl rfl
    · exact .inr ⟨other, member⟩
  · rintro (rfl | ⟨other, member⟩)
    · exact ⟨list, .inl ⟨rfl, rfl⟩⟩
    · exact ⟨other, .inr member⟩

theorem Apart.insert (apart : Apart contents) (split : contents list = left ++ right)
    (fresh : ¬Linked contents n) :
    Apart (Function.update contents list (left ++ n :: right)) where
  nodup := by
    intro other
    by_cases same : other = list
    · subst same
      have nodup := apart.nodup other
      have absent : n ∉ contents other := fun member => fresh ⟨other, member⟩
      rw [split] at nodup absent
      rw [Function.update_self]
      exact List.nodup_middle.mpr (List.nodup_cons.mpr ⟨absent, nodup⟩)
    · rw [Function.update_of_ne same]
      exact apart.nodup other
  apart := by
    intro one two key one_mem two_mem
    rw [mem_insert split] at one_mem two_mem
    rcases one_mem with ⟨rfl, rfl⟩ | one_mem
    · rcases two_mem with ⟨-, rfl⟩ | two_mem
      · rfl
      · exact absurd ⟨two, two_mem⟩ fresh
    · rcases two_mem with ⟨rfl, -⟩ | two_mem
      · exact absurd ⟨one, one_mem⟩ fresh
      · exact apart.apart one two key one_mem two_mem

omit [DecidableEq L] in
/-- A node that the contents are split around is among them, and not in front of itself. -/
theorem Apart.around (apart : Apart contents) (split : contents list = left ++ n :: right) :
    n ∈ contents list ∧ n ∉ left := by
  have nodup := apart.nodup list
  rw [split] at nodup ⊢
  have absent := (List.nodup_cons.mp (List.nodup_middle.mp nodup)).1
  refine ⟨List.mem_append_right _ List.mem_cons_self, ?_⟩
  exact fun inLeft => absent (List.mem_append_left right inLeft)

theorem mem_remove (apart : Apart contents) (split : contents list = left ++ n :: right)
    (other : L) (key : N) :
    key ∈ Function.update contents list (left ++ right) other ↔
      key ≠ n ∧ key ∈ contents other := by
  have n_mem := (apart.around split).1
  by_cases same : other = list
  · subst same
    have nodup := apart.nodup other
    rw [split] at nodup
    have absent := (List.nodup_cons.mp (List.nodup_middle.mp nodup)).1
    rw [Function.update_self, split, List.mem_append, List.mem_append, List.mem_cons]
    rw [List.mem_append, not_or] at absent
    constructor
    · rintro (inLeft | inRight)
      · refine ⟨?_, .inl inLeft⟩
        rintro rfl
        exact absent.1 inLeft
      · refine ⟨?_, .inr (.inr inRight)⟩
        rintro rfl
        exact absent.2 inRight
    · rintro ⟨differs, inLeft | rfl | inRight⟩
      · exact .inl inLeft
      · exact absurd rfl differs
      · exact .inr inRight
  · rw [Function.update_of_ne same]
    constructor
    · intro member
      refine ⟨?_, member⟩
      rintro rfl
      exact same (apart.apart other list key member n_mem)
    · exact And.right

theorem linked_remove (apart : Apart contents) (split : contents list = left ++ n :: right)
    (key : N) :
    Linked (Function.update contents list (left ++ right)) key ↔
      key ≠ n ∧ Linked contents key := by
  simp only [Linked, mem_remove apart split]
  exact exists_and_left

theorem Apart.remove (apart : Apart contents) (split : contents list = left ++ n :: right) :
    Apart (Function.update contents list (left ++ right)) where
  nodup := by
    intro other
    by_cases same : other = list
    · subst same
      have nodup := apart.nodup other
      rw [split] at nodup
      rw [Function.update_self]
      exact (List.nodup_cons.mp (List.nodup_middle.mp nodup)).2
    · rw [Function.update_of_ne same]
      exact apart.nodup other
  apart := by
    intro one two key one_mem two_mem
    rw [mem_remove apart split] at one_mem two_mem
    exact apart.apart one two key one_mem.2 two_mem.2

variable [DecidableEq N]

theorem after_insertBefore (apart : Apart contents) {this succ : N}
    (split : contents list = left ++ succ :: right) :
    after contents (.insertBefore this succ) =
      Function.update contents list (left ++ this :: succ :: right) := by
  rcases apart.around split with ⟨succ_mem, notLeft⟩
  funext other
  by_cases same : other = list
  · subst same
    rw [Function.update_self, after]
    change putBefore this succ (contents other) = _
    rw [split]
    exact putBefore_append notLeft
  · rw [Function.update_of_ne same, after]
    exact putBefore_of_notMem fun member =>
      same (apart.apart other list succ member succ_mem)

theorem after_insertAfter (apart : Apart contents) {this pred : N}
    (split : contents list = left ++ pred :: right) :
    after contents (.insertAfter this pred) =
      Function.update contents list (left ++ pred :: this :: right) := by
  rcases apart.around split with ⟨pred_mem, notLeft⟩
  funext other
  by_cases same : other = list
  · subst same
    rw [Function.update_self, after]
    change putAfter this pred (contents other) = _
    rw [split]
    exact putAfter_append notLeft
  · rw [Function.update_of_ne same, after]
    exact putAfter_of_notMem fun member =>
      same (apart.apart other list pred member pred_mem)

theorem after_remove (apart : Apart contents) {this : N}
    (split : contents list = left ++ this :: right) :
    after contents (.remove this) = Function.update contents list (left ++ right) := by
  rcases apart.around split with ⟨this_mem, notLeft⟩
  funext other
  by_cases same : other = list
  · subst same
    rw [Function.update_self, after]
    change (contents other).erase this = _
    rw [split, List.erase_append_right _ notLeft, List.erase_cons_head]
  · rw [Function.update_of_ne same, after]
    exact List.erase_of_not_mem fun member =>
      same (apart.apart other list this member this_mem)

end Changes

end NodeLists

/-! ## The links of a heap -/

namespace NodeHeap

open NodePointer NodeLists

variable {L N : Type}

def links (heap : NodeHeap L N) : Links (NodePointer L N) :=
  ⟨heap.pred, heap.succ⟩

/-- The pointers from the head of a list over nodes to its tail. -/
def chain (list : L) (nodes : List N) : List (NodePointer L N) :=
  head list :: (nodes.map node ++ [tail list])

/-- The heap represents lists of nodes. -/
structure Represents (heap : NodeHeap L N) (contents : L → List N) : Prop where
  apart : Apart contents
  linked : ∀ list, heap.links.Segment none (chain list (contents list)) none
  unlinked : ∀ n, ¬Linked contents n → heap.links.Segment none [node n] none

section Chains

variable {list other : L} {nodes left right : List N} {n : N}

theorem head_mem_chain : head list ∈ chain other nodes ↔ list = other := by
  simp [chain]

theorem tail_mem_chain : tail list ∈ chain other nodes ↔ list = other := by
  simp [chain]

theorem node_mem_chain : node n ∈ chain list nodes ↔ n ∈ nodes := by
  simp [chain]

theorem chain_append :
    chain list (left ++ right) =
      (head list :: left.map node) ++ (right.map node ++ [tail list]) := by
  simp [chain]

theorem nodup_chain (nodup : nodes.Nodup) : (chain list nodes).Nodup := by
  have mapped : (nodes.map (node : N → NodePointer L N)).Nodup :=
    nodup.map fun first second same => NodePointer.node.inj same
  simp [chain, List.nodup_append, mapped]

end Chains

section Links

variable [DecidableEq L] [DecidableEq N] (heap : NodeHeap L N) (link : Option (NodePointer L N))

/-- Writing a successor writes one link, except where it would write a list's null pointer. -/
theorem links_setSucc {this : NodePointer L N} (inner : ∀ list, this ≠ tail list) :
    (heap.setSucc this link).links = heap.links.setNext this link := by
  apply Links.ext
  · funext other
    cases this with
    | head list =>
        cases other with
        | head key =>
            by_cases same : key = list
            · subst same
              simp [links, setSucc, setList, pred, Links.setNext]
            · simp [links, setSucc, setList, pred, Links.setNext, same]
        | tail key =>
            by_cases same : key = list
            · subst same
              simp [links, setSucc, setList, pred, Links.setNext]
            · simp [links, setSucc, setList, pred, Links.setNext, same]
        | node key => rfl
    | tail list => exact absurd rfl (inner list)
    | node n =>
        cases other with
        | head key => rfl
        | tail key => rfl
        | node key =>
            by_cases same : key = n
            · subst same
              simp [links, setSucc, setNode, pred, Links.setNext]
            · simp [links, setSucc, setNode, pred, Links.setNext, same]
  · funext other
    cases this with
    | head list =>
        cases other with
        | head key =>
            by_cases same : key = list
            · subst same
              simp [links, setSucc, setList, succ, Links.setNext]
            · simp [links, setSucc, setList, succ, Links.setNext, same, Function.update]
        | tail key =>
            by_cases same : key = list
            · subst same
              simp [links, setSucc, setList, succ, Links.setNext, Function.update]
            · simp [links, setSucc, setList, succ, Links.setNext, same, Function.update]
        | node key => simp [links, setSucc, setList, succ, Links.setNext, Function.update]
    | tail list => exact absurd rfl (inner list)
    | node n =>
        cases other with
        | head key => simp [links, setSucc, setNode, succ, Links.setNext, Function.update]
        | tail key => simp [links, setSucc, setNode, succ, Links.setNext, Function.update]
        | node key =>
            by_cases same : key = n
            · subst same
              simp [links, setSucc, setNode, succ, Links.setNext]
            · simp [links, setSucc, setNode, succ, Links.setNext, same, Function.update]

theorem links_setPred {this : NodePointer L N} (inner : ∀ list, this ≠ head list) :
    (heap.setPred this link).links = heap.links.setPrev this link := by
  apply Links.ext
  · funext other
    cases this with
    | head list => exact absurd rfl (inner list)
    | tail list =>
        cases other with
        | head key =>
            by_cases same : key = list
            · subst same
              simp [links, setPred, setList, pred, Links.setPrev, Function.update]
            · simp [links, setPred, setList, pred, Links.setPrev, same, Function.update]
        | tail key =>
            by_cases same : key = list
            · subst same
              simp [links, setPred, setList, pred, Links.setPrev]
            · simp [links, setPred, setList, pred, Links.setPrev, same, Function.update]
        | node key => simp [links, setPred, setList, pred, Links.setPrev, Function.update]
    | node n =>
        cases other with
        | head key => simp [links, setPred, setNode, pred, Links.setPrev, Function.update]
        | tail key => simp [links, setPred, setNode, pred, Links.setPrev, Function.update]
        | node key =>
            by_cases same : key = n
            · subst same
              simp [links, setPred, setNode, pred, Links.setPrev]
            · simp [links, setPred, setNode, pred, Links.setPrev, same, Function.update]
  · funext other
    cases this with
    | head list => exact absurd rfl (inner list)
    | tail list =>
        cases other with
        | head key =>
            by_cases same : key = list
            · subst same
              simp [links, setPred, setList, succ, Links.setPrev]
            · simp [links, setPred, setList, succ, Links.setPrev, same]
        | tail key =>
            by_cases same : key = list
            · subst same
              simp [links, setPred, setList, succ, Links.setPrev]
            · simp [links, setPred, setList, succ, Links.setPrev, same]
        | node key => rfl
    | node n =>
        cases other with
        | head key => rfl
        | tail key => rfl
        | node key =>
            by_cases same : key = n
            · subst same
              simp [links, setPred, setNode, succ, Links.setPrev]
            · simp [links, setPred, setNode, succ, Links.setPrev, same]

/-- The writes of `InsertBefore` and `InsertAfter`. -/
theorem links_insert (n : N) {before after : NodePointer L N} (notTail : ∀ list, before ≠ tail list)
    (notHead : ∀ list, after ≠ head list) :
    ((((heap.setPred (node n) (some before)).setSucc (node n) (some after)).setSucc before
      (some (node n))).setPred after (some (node n))).links =
        heap.links.insert (node n) (some before) (some after) := by
  rw [links_setPred _ _ notHead, links_setSucc _ _ notTail, links_setSucc _ _ (by simp),
    links_setPred _ _ (by simp)]
  rfl

/-- The writes of `Remove`. -/
theorem links_remove (n : N) {before after : NodePointer L N} (notTail : ∀ list, before ≠ tail list)
    (notHead : ∀ list, after ≠ head list) :
    ((((heap.setPred after (some before)).setSucc before (some after)).setSucc (node n)
      none).setPred (node n) none).links =
        ((heap.links.remove (some before) (some after)).setNext? (some (node n)) none).setPrev?
          (some (node n)) none := by
  rw [links_setPred _ _ (by simp), links_setSucc _ _ (by simp), links_setSucc _ _ notTail,
    links_setPred _ _ notHead]
  rfl

end Links

/-! ## What a heap represents after a change -/

section Changes

variable {heap next : NodeHeap L N} {contents : L → List N} {list : L} {left right : List N} {n : N}

theorem segment_singleton {heap : NodeHeap L N} :
    heap.links.Segment none [node n] none ↔
      heap.succ (node n) = none ∧ heap.pred (node n) = none := by
  simp [Links.Segment, links, and_comm]

/-- The pointers on the left of a gap in a chain, and on its right. -/
def before (list : L) (left : List N) : List (NodePointer L N) :=
  head list :: left.map node

def behind (list : L) (right : List N) : List (NodePointer L N) :=
  right.map node ++ [tail list]

theorem exists_before (list : L) (left : List N) :
    ∃ pointer : NodePointer L N, (before list left).getLast? = some pointer ∧
      (∀ other, pointer ≠ tail other) ∧ pointer ∈ before list left := by
  have member := List.getLast_mem (List.cons_ne_nil (head list) (left.map (node (L := L))))
  refine ⟨_, List.getLast?_eq_some_getLast (List.cons_ne_nil _ _), ?_, member⟩
  intro other same
  rw [same] at member
  simp at member

theorem exists_behind (list : L) (right : List N) :
    ∃ pointer : NodePointer L N, (behind list right).head? = some pointer ∧
      (∀ other, pointer ≠ head other) ∧ pointer ∈ behind list right := by
  cases right with
  | nil => exact ⟨tail list, rfl, by simp, by simp [behind]⟩
  | cons n right => exact ⟨node n, rfl, by simp, by simp [behind]⟩

/-- The pointers next to a gap are linked to each other. -/
theorem Represents.gap (represents : heap.Represents contents)
    (split : contents list = left ++ right) {pred succ : NodePointer L N}
    (pred_eq : (before list left).getLast? = some pred)
    (succ_eq : (behind list right).head? = some succ) :
    heap.succ pred = some succ ∧ heap.pred succ = some pred := by
  have linked := represents.linked list
  rw [split, chain_append] at linked
  have gap := linked.gap
  have forth := gap.1 pred pred_eq
  have back := gap.2 succ succ_eq
  change heap.succ pred = ((behind list right).head?).or none at forth
  change heap.pred succ = ((before list left).getLast?).or none at back
  rw [succ_eq] at forth
  rw [pred_eq] at back
  exact ⟨forth, back⟩

/-- The field `tail` of a list is null. -/
theorem Represents.ends (represents : heap.Represents contents) (list : L) :
    heap.succ (tail list) = none ∧ heap.pred (head list) = none := by
  have linked := represents.linked list
  constructor
  · have last : tail list ∈ (chain list (contents list)).getLast? := by
      rw [chain, ← List.cons_append, List.getLast?_concat]
      rfl
    exact linked.next_getLast? (tail list) last
  · exact linked.1

theorem Represents.linked_iff (represents : heap.Represents contents) :
    (heap.succ (node n)).isSome ↔ Linked contents n := by
  constructor
  · intro has
    by_contra unlinked
    rw [(segment_singleton.mp (represents.unlinked n unlinked)).1] at has
    contradiction
  · rintro ⟨list, n_mem⟩
    rcases List.append_of_mem n_mem with ⟨left, right, split⟩
    rcases exists_behind list right with ⟨succ, succ_eq, -, -⟩
    have last : (before list (left ++ [n])).getLast? = some (node n) := by
      rw [before, List.map_append, ← List.cons_append]
      exact List.getLast?_concat
    have split' : contents list = (left ++ [n]) ++ right := by
      rw [split, List.append_assoc]
      rfl
    rw [(represents.gap split' last succ_eq).1]
    rfl

/-- A pointer next to a gap of one list is not in the chain of another. -/
theorem Represents.elsewhere (represents : heap.Represents contents) {other : L}
    (different : other ≠ list) {pointer : NodePointer L N}
    (pointer_mem : pointer ∈ chain list (contents list)) :
    pointer ∉ chain other (contents other) := by
  intro also
  cases pointer with
  | head key =>
      rw [head_mem_chain] at pointer_mem also
      exact different (also.symm.trans pointer_mem)
  | tail key =>
      rw [tail_mem_chain] at pointer_mem also
      exact different (also.symm.trans pointer_mem)
  | node key =>
      rw [node_mem_chain] at pointer_mem also
      exact different (represents.apart.apart other list key also pointer_mem)

/-- The pointers on both sides of a gap, and where else they are not. -/
theorem Represents.exists_gap (represents : heap.Represents contents)
    (split : contents list = left ++ right) :
    ∃ pred succ : NodePointer L N, (before list left).getLast? = some pred ∧
      (behind list right).head? = some succ ∧
      (∀ other, pred ≠ tail other) ∧ (∀ other, succ ≠ head other) ∧
      (∀ other, other ≠ list → pred ∉ chain other (contents other) ∧
        succ ∉ chain other (contents other)) ∧
      ∀ n, ¬Linked contents n → pred ≠ node n ∧ succ ≠ node n := by
  rcases exists_before list left with ⟨pred, pred_eq, pred_tail, pred_mem⟩
  rcases exists_behind list right with ⟨succ, succ_eq, succ_head, succ_mem⟩
  have chain_eq : chain list (contents list) = before list left ++ behind list right := by
    rw [split, chain_append]
    rfl
  have pred_chain : pred ∈ chain list (contents list) := by
    rw [chain_eq]
    exact List.mem_append_left _ pred_mem
  have succ_chain : succ ∈ chain list (contents list) := by
    rw [chain_eq]
    exact List.mem_append_right _ succ_mem
  refine ⟨pred, succ, pred_eq, succ_eq, pred_tail, succ_head, ?_, ?_⟩
  · intro other different
    exact ⟨represents.elsewhere different pred_chain, represents.elsewhere different succ_chain⟩
  · intro n unlinked
    constructor
    · rintro rfl
      exact unlinked ⟨list, node_mem_chain.mp pred_chain⟩
    · rintro rfl
      exact unlinked ⟨list, node_mem_chain.mp succ_chain⟩

variable [DecidableEq L] [DecidableEq N]

/-- A node that is in no list is put into a gap. -/
theorem Represents.insert (represents : heap.Represents contents)
    (split : contents list = left ++ right) (fresh : ¬Linked contents n)
    (links_eq : next.links =
      heap.links.insert (node n) (before list left).getLast? (behind list right).head?) :
    next.Represents (Function.update contents list (left ++ n :: right)) where
  apart := represents.apart.insert split fresh
  linked := by
    rcases represents.exists_gap split with ⟨pred, succ, pred_eq, succ_eq, -, -, elsewhere, -⟩
    intro other
    have absent : node n ∉ chain other (contents other) := by
      rw [node_mem_chain]
      exact fun member => fresh ⟨other, member⟩
    by_cases same : other = list
    · subst same
      have linked := represents.linked other
      have nodup := @nodup_chain L N other _ (represents.apart.nodup other)
      rw [split, chain_append] at linked nodup absent
      rw [Function.update_self, chain_append, links_eq]
      exact linked.insert nodup absent
    · rw [Function.update_of_ne same, links_eq, pred_eq, succ_eq]
      apply (represents.linked other).insert_elsewhere absent
      · rintro pointer ⟨⟩
        exact (elsewhere other same).1
      · rintro pointer ⟨⟩
        exact (elsewhere other same).2
  unlinked := by
    rcases represents.exists_gap split with ⟨pred, succ, pred_eq, succ_eq, -, -, -, others⟩
    intro key unlinked
    rw [linked_insert split, not_or] at unlinked
    rw [links_eq, pred_eq, succ_eq]
    apply (represents.unlinked key unlinked.2).insert_elsewhere
    · simpa using Ne.symm unlinked.1
    · rintro pointer ⟨⟩
      simpa using (others key unlinked.2).1
    · rintro pointer ⟨⟩
      simpa using (others key unlinked.2).2

/-- A node is taken out of its list. -/
theorem Represents.remove (represents : heap.Represents contents)
    (split : contents list = left ++ n :: right)
    (links_eq : next.links =
      ((heap.links.remove (before list left).getLast? (behind list right).head?).setNext?
        (some (node n)) none).setPrev? (some (node n)) none) :
    next.Represents (Function.update contents list (left ++ right)) where
  apart := represents.apart.remove split
  linked := by
    have split' : contents list = (left ++ [n]) ++ right := by
      rw [split, List.append_assoc]
      rfl
    rcases represents.exists_gap split with ⟨pred, _, pred_eq, -, -, -, predElsewhere, -⟩
    rcases represents.exists_gap split' with ⟨_, succ, -, succ_eq, -, -, succElsewhere, -⟩
    intro other
    have absent : node n ∉ chain other (Function.update contents list (left ++ right) other) := by
      rw [node_mem_chain, mem_remove represents.apart split]
      exact fun both => both.1 rfl
    have taken : (heap.links.remove (before list left).getLast? (behind list right).head?).Segment
        none (chain other (Function.update contents list (left ++ right) other)) none := by
      by_cases same : other = list
      · subst same
        have linked := represents.linked other
        have nodup := @nodup_chain L N other _ (represents.apart.nodup other)
        rw [split, chain_append] at linked nodup
        rw [Function.update_self, chain_append]
        exact linked.remove nodup
      · rw [Function.update_of_ne same, pred_eq, succ_eq]
        apply (represents.linked other).remove_elsewhere
        · rintro pointer ⟨⟩
          exact (predElsewhere other same).1
        · rintro pointer ⟨⟩
          exact (succElsewhere other same).2
    rw [links_eq]
    apply (taken.setNext? _ _).setPrev?
    · rintro pointer ⟨⟩
      exact absent
    · rintro pointer ⟨⟩
      exact absent
  unlinked := by
    have split' : contents list = (left ++ [n]) ++ right := by
      rw [split, List.append_assoc]
      rfl
    rcases represents.exists_gap split with ⟨pred, _, pred_eq, -, -, -, -, predOthers⟩
    rcases represents.exists_gap split' with ⟨_, succ, -, succ_eq, -, -, -, succOthers⟩
    intro key unlinked
    rw [linked_remove represents.apart split] at unlinked
    rw [links_eq]
    by_cases same : key = n
    · subst same
      exact ⟨Function.update_self .., Function.update_self .., trivial⟩
    · have still : ¬Linked contents key := fun linked => unlinked ⟨same, linked⟩
      rw [pred_eq, succ_eq]
      have taken : (heap.links.remove (some pred) (some succ)).Segment none [node key] none := by
        apply (represents.unlinked key still).remove_elsewhere
        · rintro pointer ⟨⟩
          simpa using (predOthers key still).1
        · rintro pointer ⟨⟩
          simpa using (succOthers key still).2
      apply (taken.setNext? _ _).setPrev?
      · rintro pointer ⟨⟩
        simpa using Ne.symm same
      · rintro pointer ⟨⟩
        simpa using Ne.symm same

/-- Both insertions put the node into the gap in front of or behind which it is inserted. -/
theorem Represents.insertBefore (represents : heap.Represents contents)
    (split : contents list = left ++ right) (fresh : ¬Linked contents n)
    {pred succ : NodePointer L N} (pred_eq : (before list left).getLast? = some pred)
    (succ_eq : (behind list right).head? = some succ) :
    ∃ next, heap.insertBefore (node n) succ = some next ∧
      heap.insertAfter (node n) pred = some next ∧
      next.Represents (Function.update contents list (left ++ n :: right)) := by
  rcases represents.exists_gap split with ⟨_, _, pred_eq', succ_eq', notTail, notHead, -, -⟩
  rw [pred_eq, Option.some.injEq] at pred_eq'
  rw [succ_eq, Option.some.injEq] at succ_eq'
  subst pred_eq' succ_eq'
  rcases represents.gap split pred_eq succ_eq with ⟨forth, back⟩
  have free := (segment_singleton.mp (represents.unlinked n fresh)).1
  let next := (((heap.setPred (node n) (some pred)).setSucc (node n) (some succ)).setSucc pred
    (some (node n))).setPred succ (some (node n))
  refine ⟨next, ?_, ?_, represents.insert split fresh ?_⟩
  · simp only [NodeHeap.insertBefore, back, free, Option.isNone_none, if_true]
    rfl
  · simp only [NodeHeap.insertAfter, forth, free, Option.isNone_none, if_true]
    rfl
  · rw [links_insert heap n notTail notHead, pred_eq, succ_eq]

theorem Represents.removeNode (represents : heap.Represents contents)
    (split : contents list = left ++ n :: right) :
    ∃ next, heap.remove (node n) = some next ∧
      next.Represents (Function.update contents list (left ++ right)) := by
  have split' : contents list = (left ++ [n]) ++ right := by
    rw [split, List.append_assoc]
    rfl
  have last : (before list (left ++ [n])).getLast? = some (node n) := by
    rw [before, List.map_append, ← List.cons_append]
    exact List.getLast?_concat
  rcases represents.exists_gap split with ⟨pred, _, pred_eq, -, notTail, -, -, -⟩
  rcases represents.exists_gap split' with ⟨_, succ, -, succ_eq, -, notHead, -, -⟩
  have back := (represents.gap split pred_eq (show (behind list (n :: right)).head? = _ from rfl)).2
  have forth := (represents.gap split' last succ_eq).1
  let next := (((heap.setPred succ (some pred)).setSucc pred (some succ)).setSucc (node n)
    none).setPred (node n) none
  refine ⟨next, ?_, represents.remove split ?_⟩
  · simp only [NodeHeap.remove, forth, back]
    rfl
  · rw [links_remove heap n notTail notHead, pred_eq, succ_eq]

/-- A call that passes its assertions returns what it should, and leaves what it should. -/
theorem Represents.call (represents : heap.Represents contents) {call : NodeCall L N}
    (legal : Legal contents call) :
    ∃ next, heap.call call = some ((returned contents call).map node, next) ∧
      next.Represents (after contents call) := by
  cases call with
  | addHead list n =>
      rcases represents.exists_gap (List.nil_append (contents list)).symm with
        ⟨pred, succ, pred_eq, succ_eq, -⟩
      have here : pred = head list := (Option.some.inj pred_eq).symm
      rcases represents.insertBefore (List.nil_append (contents list)).symm legal pred_eq succ_eq
        with ⟨next, -, inserted, then_represents⟩
      rw [here] at inserted
      exact ⟨next, by simp [NodeHeap.call, addHead, inserted, returned], then_represents⟩
  | addTail list n =>
      rcases represents.exists_gap (List.append_nil (contents list)).symm with
        ⟨pred, succ, pred_eq, succ_eq, -⟩
      have here : succ = tail list := (Option.some.inj succ_eq).symm
      rcases represents.insertBefore (List.append_nil (contents list)).symm legal pred_eq succ_eq
        with ⟨next, inserted, -, then_represents⟩
      rw [here] at inserted
      exact ⟨next, by simp [NodeHeap.call, addTail, inserted, returned], then_represents⟩
  | remHead list =>
      cases contents_eq : contents list with
      | nil =>
          have gap := represents.gap (contents_eq.trans (List.nil_append []).symm)
            (show (before list []).getLast? = some (head list) from rfl)
            (show (behind list []).head? = some (tail list) from rfl)
          have first : (heap.lists list).head = some (tail list) := gap.1
          have unchanged : after contents (.remHead list) = contents := by
            rw [after, contents_eq, List.tail_nil, ← contents_eq, Function.update_eq_self]
          refine ⟨heap, ?_, ?_⟩
          · simp [NodeHeap.call, remHead, first, (represents.ends list).1, returned, contents_eq]
          · rw [unchanged]
            exact represents
      | cons n right =>
          have gap := represents.gap (contents_eq.trans (List.nil_append _).symm)
            (show (before list []).getLast? = some (head list) from rfl)
            (show (behind list (n :: right)).head? = some (node n) from rfl)
          have first : (heap.lists list).head = some (node n) := gap.1
          have linked : (heap.succ (node n)).isSome :=
            represents.linked_iff.mpr ⟨list, by simp [contents_eq]⟩
          rcases represents.removeNode (contents_eq.trans (List.nil_append _).symm) with
            ⟨next, removed, then_represents⟩
          refine ⟨next, ?_, ?_⟩
          · simp [NodeHeap.call, remHead, first, linked, removed, returned, contents_eq]
          · rw [after, contents_eq]
            exact then_represents
  | remTail list =>
      cases contents_eq : (contents list).getLast? with
      | none =>
          rw [List.getLast?_eq_none_iff] at contents_eq
          have gap := represents.gap (contents_eq.trans (List.nil_append []).symm)
            (show (before list []).getLast? = some (head list) from rfl)
            (show (behind list []).head? = some (tail list) from rfl)
          have last : (heap.lists list).tailpred = some (head list) := gap.2
          have unchanged : after contents (.remTail list) = contents := by
            rw [after, contents_eq, List.dropLast_nil, ← contents_eq, Function.update_eq_self]
          refine ⟨heap, ?_, ?_⟩
          · simp [NodeHeap.call, remTail, last, (represents.ends list).2, returned, contents_eq]
          · rw [unchanged]
            exact represents
      | some n =>
          rcases List.getLast?_eq_some_iff.mp contents_eq with ⟨left, split⟩
          have last_eq : (before list (left ++ [n])).getLast? = some (node n) := by
            rw [before, List.map_append, ← List.cons_append]
            exact List.getLast?_concat
          have gap := represents.gap (split.trans (List.append_nil _).symm) last_eq
            (show (behind list []).head? = some (tail list) from rfl)
          have last : (heap.lists list).tailpred = some (node n) := gap.2
          have linked : (heap.pred (node n)).isSome := by
            rcases represents.exists_gap split with ⟨pred, _, pred_eq, -⟩
            have back := (represents.gap split pred_eq
              (show (behind list [n]).head? = some (node n) from rfl)).2
            rw [back]
            rfl
          rcases represents.removeNode split with ⟨next, removed, then_represents⟩
          refine ⟨next, ?_, ?_⟩
          · simp [NodeHeap.call, remTail, last, linked, removed, returned, contents_eq]
          · rw [after, split, List.dropLast_concat]
            rwa [List.append_nil] at then_represents
  | insertBefore this succ =>
      rcases legal with ⟨⟨list, succ_mem⟩, fresh⟩
      rcases List.append_of_mem succ_mem with ⟨left, right, split⟩
      rcases represents.exists_gap split with ⟨pred, _, pred_eq, -⟩
      rcases represents.insertBefore split fresh pred_eq
        (show (behind list (succ :: right)).head? = some (node succ) from rfl) with
        ⟨next, inserted, -, then_represents⟩
      refine ⟨next, by simp [NodeHeap.call, inserted, returned], ?_⟩
      rw [after_insertBefore represents.apart split]
      exact then_represents
  | insertAfter this pred =>
      rcases legal with ⟨⟨list, pred_mem⟩, fresh⟩
      rcases List.append_of_mem pred_mem with ⟨left, right, split⟩
      have split' : contents list = (left ++ [pred]) ++ right := by
        rw [split, List.append_assoc]
        rfl
      have last : (before list (left ++ [pred])).getLast? = some (node pred) := by
        rw [before, List.map_append, ← List.cons_append]
        exact List.getLast?_concat
      rcases represents.exists_gap split' with ⟨_, succ, -, succ_eq, -⟩
      rcases represents.insertBefore split' fresh last succ_eq with
        ⟨next, -, inserted, then_represents⟩
      refine ⟨next, by simp [NodeHeap.call, inserted, returned], ?_⟩
      rw [after_insertAfter represents.apart split]
      rwa [List.append_assoc] at then_represents
  | remove this =>
      rcases legal with ⟨list, this_mem⟩
      rcases List.append_of_mem this_mem with ⟨left, right, split⟩
      rcases represents.removeNode split with ⟨next, removed, then_represents⟩
      refine ⟨next, by simp [NodeHeap.call, removed, returned], ?_⟩
      rw [after_remove represents.apart split]
      exact then_represents

/-- A call that should fail an assertion does. -/
theorem Represents.not_call (represents : heap.Represents contents) {call : NodeCall L N}
    (illegal : ¬Legal contents call) : heap.call call = none := by
  have unlinked {n : N} (absent : ¬Linked contents n) :
      heap.succ (node n) = none ∧ heap.pred (node n) = none :=
    segment_singleton.mp (represents.unlinked n absent)
  cases call with
  | addHead list n =>
      have linked := represents.linked_iff.mpr (not_not.mp illegal)
      simp [NodeHeap.call, addHead, insertAfter, Option.isSome_iff_ne_none.mp linked]
  | addTail list n =>
      have linked := represents.linked_iff.mpr (not_not.mp illegal)
      simp [NodeHeap.call, addTail, NodeHeap.insertBefore, Option.isSome_iff_ne_none.mp linked]
  | remHead list => exact absurd trivial illegal
  | remTail list => exact absurd trivial illegal
  | insertBefore this succ =>
      by_cases target : Linked contents succ
      · have linked := represents.linked_iff.mpr
          (not_not.mp fun fresh => illegal ⟨target, fresh⟩)
        simp [NodeHeap.call, NodeHeap.insertBefore, Option.isSome_iff_ne_none.mp linked]
      · simp [NodeHeap.call, NodeHeap.insertBefore, (unlinked target).2]
  | insertAfter this pred =>
      by_cases target : Linked contents pred
      · have linked := represents.linked_iff.mpr
          (not_not.mp fun fresh => illegal ⟨target, fresh⟩)
        simp [NodeHeap.call, insertAfter, Option.isSome_iff_ne_none.mp linked]
      · simp [NodeHeap.call, insertAfter, (unlinked target).1]
  | remove this => simp [NodeHeap.call, NodeHeap.remove, (unlinked illegal).1]

end Changes

/-! ## Walking along a list -/

section Walks

variable {heap : NodeHeap L N} {contents : L → List N} {list : L} {left right : List N}

/-- The nodes that are visited from the first one on, and then no further one. -/
def Visits (step : NodePointer L N → Option (Option (NodePointer L N))) :
    Option (NodePointer L N) → List N → Prop
  | first, [] => first = none
  | first, n :: nodes =>
      first = some (node n) ∧ ∃ second, step (node n) = some second ∧ Visits step second nodes

theorem Represents.head_eq (represents : heap.Represents contents) (list : L) :
    (heap.lists list).head = (behind list (contents list)).head? := by
  rcases exists_behind list (contents list) with ⟨succ, succ_eq, -⟩
  rw [succ_eq]
  exact (represents.gap (List.nil_append _).symm
    (show (before list []).getLast? = some (head list) from rfl) succ_eq).1

theorem Represents.tailpred_eq (represents : heap.Represents contents) (list : L) :
    (heap.lists list).tailpred = (before list (contents list)).getLast? := by
  rcases exists_before list (contents list) with ⟨pred, pred_eq, -⟩
  rw [pred_eq]
  exact (represents.gap (List.append_nil _).symm pred_eq
    (show (behind list []).head? = some (tail list) from rfl)).2

/-- What stands behind a gap has a successor exactly when it is a node. -/
theorem Represents.isSome_succ (represents : heap.Represents contents)
    (split : contents list = left ++ right) {pointer : NodePointer L N}
    (pointer_eq : (behind list right).head? = some pointer) :
    (if (heap.succ pointer).isSome then some pointer else none) = right.head?.map node := by
  cases right with
  | nil =>
      rcases Option.some.inj pointer_eq with rfl
      rw [(represents.ends list).1]
      rfl
  | cons n right =>
      rcases Option.some.inj pointer_eq with rfl
      have n_mem : n ∈ contents list := by
        rw [split]
        exact List.mem_append_right _ List.mem_cons_self
      exact if_pos (represents.linked_iff.mpr ⟨list, n_mem⟩)

theorem Represents.isSome_pred (represents : heap.Represents contents)
    (split : contents list = left ++ right) {pointer : NodePointer L N}
    (pointer_eq : (before list left).getLast? = some pointer) :
    (if (heap.pred pointer).isSome then some pointer else none) = left.getLast?.map node := by
  cases left using List.reverseRecOn with
  | nil =>
      have here : head list = pointer := Option.some.inj pointer_eq
      rw [← here, (represents.ends list).2]
      rfl
  | append_singleton left n =>
      rw [before, List.map_append, ← List.cons_append] at pointer_eq
      rcases Option.some.inj (List.getLast?_concat.symm.trans pointer_eq) with rfl
      rw [List.append_assoc] at split
      rcases exists_before list left with ⟨pred, pred_eq, -⟩
      have back := (represents.gap split pred_eq
        (show (behind list (n :: right)).head? = some (node n) from rfl)).2
      rw [back, List.getLast?_concat]
      rfl

theorem Represents.visits_getSucc (represents : heap.Represents contents)
    (split : contents list = left ++ right) :
    Visits heap.getSucc (right.head?.map node) right := by
  induction right generalizing left with
  | nil => rfl
  | cons n right ih =>
      have split' : contents list = (left ++ [n]) ++ right := by
        rw [split, List.append_assoc]
        rfl
      have last : (before list (left ++ [n])).getLast? = some (node n) := by
        rw [before, List.map_append, ← List.cons_append]
        exact List.getLast?_concat
      rcases exists_behind list right with ⟨succ, succ_eq, -⟩
      refine ⟨rfl, right.head?.map node, ?_, ih split'⟩
      rw [getSucc, (represents.gap split' last succ_eq).1]
      exact congrArg some (represents.isSome_succ split' succ_eq)

theorem Represents.visits_getPred (represents : heap.Represents contents)
    (split : contents list = left ++ right) :
    Visits heap.getPred (left.getLast?.map node) left.reverse := by
  induction left using List.reverseRecOn generalizing right with
  | nil => rfl
  | append_singleton left n ih =>
      rw [List.append_assoc] at split
      rcases exists_before list left with ⟨pred, pred_eq, -⟩
      have back := (represents.gap split pred_eq
        (show (behind list (n :: right)).head? = some (node n) from rfl)).2
      rw [List.getLast?_concat, List.reverse_append]
      refine ⟨rfl, left.getLast?.map node, ?_, ih split⟩
      rw [getPred, back]
      exact congrArg some (represents.isSome_pred split pred_eq)

theorem Represents.getHead_eq (represents : heap.Represents contents) (list : L) :
    heap.getHead list = some ((contents list).head?.map node) := by
  rcases exists_behind list (contents list) with ⟨succ, succ_eq, -⟩
  rw [getHead, represents.head_eq, succ_eq]
  exact congrArg some (represents.isSome_succ (List.nil_append _).symm succ_eq)

theorem Represents.getTail_eq (represents : heap.Represents contents) (list : L) :
    heap.getTail list = some ((contents list).getLast?.map node) := by
  rcases exists_before list (contents list) with ⟨pred, pred_eq, -⟩
  rw [getTail, represents.tailpred_eq, pred_eq]
  exact congrArg some (represents.isSome_pred (List.append_nil _).symm pred_eq)

theorem Represents.isEmpty_eq (represents : heap.Represents contents) (list : L) :
    heap.isEmpty list = some (contents list).isEmpty := by
  rcases exists_behind list (contents list) with ⟨succ, succ_eq, -⟩
  rw [isEmpty, represents.head_eq, succ_eq]
  cases contents_eq : contents list with
  | nil =>
      rw [contents_eq] at succ_eq
      rcases Option.some.inj succ_eq with rfl
      simp [(represents.ends list).1]
  | cons n nodes =>
      rw [contents_eq] at succ_eq
      rcases Option.some.inj succ_eq with rfl
      have linked : (heap.succ (node n)).isSome :=
        represents.linked_iff.mpr ⟨list, by simp [contents_eq]⟩
      simpa using linked

end Walks

/-! ## Runs -/

section Runs

theorem represents_construct : (construct : NodeHeap L N).Represents fun _ => [] where
  apart := ⟨fun _ => List.nodup_nil, fun _ _ _ n_mem => absurd n_mem List.not_mem_nil⟩
  linked _ := ⟨rfl, rfl, rfl, rfl, trivial⟩
  unlinked _ _ := ⟨rfl, rfl, trivial⟩

variable [DecidableEq L] [DecidableEq N]

/-- The calls, with the lists of nodes that they describe. -/
def recorded (L N : Type) [DecidableEq L] [DecidableEq N] :
    Transition.System (NodeHeap L N × (L → List N)) (NodeCall L N) :=
  calls.withHistory (fun _ => []) fun contents _ call => after contents call

theorem represents_of_reachable {heap : NodeHeap L N} {contents : L → List N}
    (reached : (recorded L N).Reachable (heap, contents)) : heap.Represents contents := by
  have begins : ∀ heap : NodeHeap L N, calls.Initial heap → heap.Represents fun _ => [] := by
    rintro heap rfl
    exact represents_construct
  have preserved : ∀ (heap : NodeHeap L N) (contents : L → List N) (call : NodeCall L N) next,
      True → heap.Represents contents → True → calls.step heap call = some next →
        next.Represents (after contents call) := by
    intro heap contents call next _ represents _ enabled
    rcases Option.map_eq_some_iff.mp enabled with ⟨⟨result, after⟩, called, rfl⟩
    by_cases legal : Legal contents call
    · rcases represents.call legal with ⟨next, called', then_represents⟩
      rcases Prod.mk.inj (Option.some.inj (called.symm.trans called')) with ⟨-, rfl⟩
      exact then_represents
    · rw [represents.not_call legal] at called
      contradiction
  have known (heap : NodeHeap L N) : calls.Reachable heap → True := fun _ => trivial
  exact reached.history_invariant (fun _ _ _ => trivial) known begins preserved

/-- After any run of calls the pointers spell the lists that the calls describe. -/
theorem lists_of_calls {heap : NodeHeap L N} {contents : L → List N}
    (reached : (recorded L N).Reachable (heap, contents)) :
    Apart contents ∧
      (∀ list, ∃ first last,
        heap.getHead list = some first ∧ Visits heap.getSucc first (contents list) ∧
        heap.getTail list = some last ∧ Visits heap.getPred last (contents list).reverse) ∧
      (∀ list, heap.isEmpty list = some (contents list).isEmpty ∧
        heap.listDestructs list = some (contents list).isEmpty) ∧
      (∀ n, (heap.isLinked (node n) ↔ Linked contents n) ∧
        (heap.nodeDestructs (node n) ↔ ¬Linked contents n)) ∧
      ∀ call, (Legal contents call → ∃ next,
          heap.call call = some ((returned contents call).map node, next)) ∧
        (¬Legal contents call → heap.call call = none) := by
  have represents := represents_of_reachable reached
  refine ⟨represents.apart, ?_, ?_, ?_, ?_⟩
  · intro list
    exact ⟨_, _, represents.getHead_eq list, represents.visits_getSucc (List.nil_append _).symm,
      represents.getTail_eq list, represents.visits_getPred (List.append_nil _).symm⟩
  · intro list
    exact ⟨represents.isEmpty_eq list, represents.isEmpty_eq list⟩
  · intro n
    refine ⟨represents.linked_iff, ?_⟩
    rw [nodeDestructs, Option.isNone_iff_eq_none, ← Option.not_isSome_iff_eq_none,
      represents.linked_iff]
  · intro call
    refine ⟨?_, represents.not_call⟩
    intro legal
    rcases represents.call legal with ⟨next, called, -⟩
    exact ⟨next, called⟩

/-- Two nodes are moved from one list to another, one of them next to a third. -/
theorem lists_of_calls_moved :
    ∃ heap contents, (recorded Bool Nat).Reachable (heap, contents) ∧
      contents true = [5, 4, 6] ∧ contents false = [3] ∧ Apart contents ∧
      (∃ first, heap.getHead true = some first ∧ Visits heap.getSucc first [5, 4, 6]) ∧
      heap.isEmpty false = some false ∧ heap.isLinked (node 4) ∧
      heap.call (.addTail false 4) = none := by
  have runs : ∃ both, (recorded Bool Nat).run (construct, fun _ => [])
      [.addTail false 4, .addHead false 3, .addTail false 5, .remTail false, .addHead true 5,
        .insertAfter 6 5, .remove 4, .insertBefore 4 6] = some both ∧
      both.2 true = [5, 4, 6] ∧ both.2 false = [3] :=
    ⟨_, rfl, rfl, rfl⟩
  rcases runs with ⟨⟨heap, contents⟩, runs, moved, left⟩
  have starts : (recorded Bool Nat).Initial (construct, fun _ => []) := ⟨rfl, rfl⟩
  have reached := Transition.System.reachable_of_run starts runs
  rcases lists_of_calls reached with ⟨apart, walks, empty, linked, calls⟩
  have member : Linked contents 4 := ⟨true, by simp [show contents true = _ from moved]⟩
  rcases walks true with ⟨first, _, first_eq, forth, -⟩
  rw [show contents true = _ from moved] at forth
  refine ⟨heap, contents, reached, moved, left, apart, ⟨first, first_eq, forth⟩, ?_, ?_, ?_⟩
  · rw [(empty false).1, show contents false = _ from left]
    rfl
  · exact (linked 4).1.mpr member
  · exact (calls (.addTail false 4)).2 (not_not.mpr member)

end Runs

end NodeHeap

end SunPush
