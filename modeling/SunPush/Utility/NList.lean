import SunPush.Library.DoublyLinked
import SunPush.Library.Transition

/-!
# Intrusive lists

`nNode` and `nList` from `nnode.h` and `nlist.h`.  A list has three links and no
nodes of its own: its fields `head` and `tail`, read as a node, stand in front of
the first and behind the last node, and the field `tail`, which is always null,
is the predecessor of the one and the successor of the other.

Lists and nodes are objects of any kind.  A function is `none` where it fails an
assertion or would follow a null pointer.
-/

namespace SunPush

/-- What an `nNode *` can point to: a node, or one of two fields of a list. -/
inductive NodePointer (L N : Type) where
  | head (list : L)
  | tail (list : L)
  | node (node : N)
  deriving DecidableEq

structure NNode (L N : Type) where
  succ : Option (NodePointer L N)
  pred : Option (NodePointer L N)

structure NList (L N : Type) where
  head : Option (NodePointer L N)
  tail : Option (NodePointer L N)
  tailpred : Option (NodePointer L N)

/-- The lists and nodes there are. -/
structure NodeHeap (L N : Type) where
  lists : L → NList L N
  nodes : N → NNode L N

namespace NodeHeap

variable {L N : Type}

/-- Every list and every node has been constructed. -/
def construct : NodeHeap L N where
  lists list := ⟨some (.tail list), none, some (.head list)⟩
  nodes _ := ⟨none, none⟩

/-! ## Fields -/

/-- `this->succ`, the first field. -/
def succ (heap : NodeHeap L N) : NodePointer L N → Option (NodePointer L N)
  | .head list => (heap.lists list).head
  | .tail list => (heap.lists list).tail
  | .node node => (heap.nodes node).succ

/-- `this->pred`, the second field. -/
def pred (heap : NodeHeap L N) : NodePointer L N → Option (NodePointer L N)
  | .head list => (heap.lists list).tail
  | .tail list => (heap.lists list).tailpred
  | .node node => (heap.nodes node).pred

section Fields

variable [DecidableEq L] [DecidableEq N]

def setList (heap : NodeHeap L N) (list : L) (fields : NList L N) : NodeHeap L N :=
  { heap with lists := Function.update heap.lists list fields }

def setNode (heap : NodeHeap L N) (node : N) (fields : NNode L N) : NodeHeap L N :=
  { heap with nodes := Function.update heap.nodes node fields }

def setSucc (heap : NodeHeap L N) (this : NodePointer L N) (link : Option (NodePointer L N)) :
    NodeHeap L N :=
  match this with
  | .head list => heap.setList list { heap.lists list with head := link }
  | .tail list => heap.setList list { heap.lists list with tail := link }
  | .node node => heap.setNode node { heap.nodes node with succ := link }

def setPred (heap : NodeHeap L N) (this : NodePointer L N) (link : Option (NodePointer L N)) :
    NodeHeap L N :=
  match this with
  | .head list => heap.setList list { heap.lists list with tail := link }
  | .tail list => heap.setList list { heap.lists list with tailpred := link }
  | .node node => heap.setNode node { heap.nodes node with pred := link }

end Fields

/-! ## `nNode` -/

def getSucc (heap : NodeHeap L N) (this : NodePointer L N) : Option (Option (NodePointer L N)) :=
  do
    let succ ← heap.succ this
    return if (heap.succ succ).isSome then some succ else none

def getPred (heap : NodeHeap L N) (this : NodePointer L N) : Option (Option (NodePointer L N)) :=
  do
    let pred ← heap.pred this
    return if (heap.pred pred).isSome then some pred else none

def isLinked (heap : NodeHeap L N) (this : NodePointer L N) : Bool :=
  (heap.succ this).isSome

/-- `nNode::~nNode` passes its assertion. -/
def nodeDestructs (heap : NodeHeap L N) (this : NodePointer L N) : Bool :=
  (heap.succ this).isNone

section Changes

variable [DecidableEq L] [DecidableEq N]

def insertBefore (heap : NodeHeap L N) (this succ : NodePointer L N) : Option (NodeHeap L N) := do
  let pred ← heap.pred succ
  if (heap.succ this).isNone then
    return (((heap.setPred this (some pred)).setSucc this (some succ)).setSucc pred
      (some this)).setPred succ (some this)
  else none

def insertAfter (heap : NodeHeap L N) (this pred : NodePointer L N) : Option (NodeHeap L N) := do
  let succ ← heap.succ pred
  if (heap.succ this).isNone then
    return (((heap.setPred this (some pred)).setSucc this (some succ)).setSucc pred
      (some this)).setPred succ (some this)
  else none

def remove (heap : NodeHeap L N) (this : NodePointer L N) : Option (NodeHeap L N) := do
  let succ ← heap.succ this
  let pred ← heap.pred this
  return (((heap.setPred succ (some pred)).setSucc pred (some succ)).setSucc this none).setPred this
    none

end Changes

/-! ## `nList` -/

/-- `nList::~nList` passes its assertion. -/
def listDestructs (heap : NodeHeap L N) (list : L) : Option Bool := do
  let head ← (heap.lists list).head
  return (heap.succ head).isNone

def isEmpty (heap : NodeHeap L N) (list : L) : Option Bool := do
  let head ← (heap.lists list).head
  return (heap.succ head).isNone

def getHead (heap : NodeHeap L N) (list : L) : Option (Option (NodePointer L N)) := do
  let head ← (heap.lists list).head
  return if (heap.succ head).isSome then some head else none

def getTail (heap : NodeHeap L N) (list : L) : Option (Option (NodePointer L N)) := do
  let tailpred ← (heap.lists list).tailpred
  return if (heap.pred tailpred).isSome then some tailpred else none

section Changes

variable [DecidableEq L] [DecidableEq N]

def addHead (heap : NodeHeap L N) (list : L) (n : NodePointer L N) : Option (NodeHeap L N) :=
  heap.insertAfter n (.head list)

def addTail (heap : NodeHeap L N) (list : L) (n : NodePointer L N) : Option (NodeHeap L N) :=
  heap.insertBefore n (.tail list)

def remHead (heap : NodeHeap L N) (list : L) :
    Option (Option (NodePointer L N) × NodeHeap L N) := do
  let n ← (heap.lists list).head
  if (heap.succ n).isSome then return (some n, ← heap.remove n)
  else return (none, heap)

def remTail (heap : NodeHeap L N) (list : L) :
    Option (Option (NodePointer L N) × NodeHeap L N) := do
  let n ← (heap.lists list).tailpred
  if (heap.pred n).isSome then return (some n, ← heap.remove n)
  else return (none, heap)

end Changes

end NodeHeap

/-! ## Calls -/

inductive NodeCall (L N : Type) where
  | addHead (list : L) (n : N)
  | addTail (list : L) (n : N)
  | remHead (list : L)
  | remTail (list : L)
  | insertBefore (this succ : N)
  | insertAfter (this pred : N)
  | remove (this : N)

namespace NodeHeap

variable {L N : Type} [DecidableEq L] [DecidableEq N]

/-- What a call returns, and the heap it leaves. -/
def call (heap : NodeHeap L N) :
    NodeCall L N → Option (Option (NodePointer L N) × NodeHeap L N)
  | .addHead list n => (heap.addHead list (.node n)).map (none, ·)
  | .addTail list n => (heap.addTail list (.node n)).map (none, ·)
  | .remHead list => heap.remHead list
  | .remTail list => heap.remTail list
  | .insertBefore this succ => (heap.insertBefore (.node this) (.node succ)).map (none, ·)
  | .insertAfter this pred => (heap.insertAfter (.node this) (.node pred)).map (none, ·)
  | .remove this => (heap.remove (.node this)).map (none, ·)

/-- Any calls on the lists and nodes, none of which fails an assertion. -/
def calls : Transition.System (NodeHeap L N) (NodeCall L N) where
  Initial heap := heap = construct
  step heap call := (heap.call call).map Prod.snd

end NodeHeap

end SunPush
