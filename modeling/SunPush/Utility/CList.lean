import Mathlib.Algebra.Group.Defs
import SunPush.Library.DoublyLinked
import SunPush.Library.Transition
import SunPush.Utility.MemBand

/-!
# The linked list

`CList` from `List.h`.  A node is given by the address that the node pool hands
out for it, and what a node holds by a memory of all nodes.  A call is `none`
where it would follow a null pointer or would never return.
-/

namespace SunPush

/-- A `NODE *` that is not null. -/
abbrev NodePtr : Type := PoolObject

/-- `NODE` -/
structure ListNode (T : Type) where
  pElement : T
  pPrev : Option NodePtr
  pNext : Option NodePtr

/-- `CList`: the nodes, the two ends, `m_nCount`, and which nodes the pool has handed out. -/
structure CList (T : Type) where
  nodes : NodePtr → ListNode T
  head : Option NodePtr
  tail : Option NodePtr
  nCount : Int
  outstanding : List NodePtr

namespace CList

variable {T : Type}

/-! ## Nodes -/

def setPrev (list : CList T) (node : NodePtr) (link : Option NodePtr) : CList T :=
  { list with nodes := Function.update list.nodes node { list.nodes node with pPrev := link } }

def setNext (list : CList T) (node : NodePtr) (link : Option NodePtr) : CList T :=
  { list with nodes := Function.update list.nodes node { list.nodes node with pNext := link } }

/-- `m_pNodePool->Alloc()` has handed out the node, and its fields have been set. -/
def allocNode (list : CList T) (node : NodePtr) (content : ListNode T) : CList T :=
  { list with
    nodes := Function.update list.nodes node content
    outstanding := node :: list.outstanding }

/-- `m_pNodePool->Free` -/
def freeNode (list : CList T) (node : NodePtr) : CList T :=
  { list with outstanding := list.outstanding.erase node }

/-- The value as a `short`. -/
def toShort (value : Int) : Int := value.bmod (2 ^ 16)

/-! ## Adding -/

def addHead (list : CList T) (pElement : T) (newNode : NodePtr) : CList T :=
  let list := list.allocNode newNode ⟨pElement, none, none⟩
  match list.head with
  | none =>
      { list.setNext newNode none with
        head := some newNode, tail := some newNode, nCount := toShort (list.nCount + 1) }
  | some head =>
      { (list.setPrev head (some newNode)).setNext newNode (some head) with
        head := some newNode, nCount := toShort (list.nCount + 1) }

def addTail (list : CList T) (pElement : T) (newNode : NodePtr) : CList T :=
  let list := list.allocNode newNode ⟨pElement, none, none⟩
  match list.tail with
  | none =>
      { list with
        head := some newNode, tail := some newNode, nCount := toShort (list.nCount + 1) }
  | some tail =>
      { (list.setNext tail (some newNode)).setPrev newNode (some tail) with
        tail := some newNode, nCount := toShort (list.nCount + 1) }

/-- `while (0 < index-- && pCurrent)`: `pAfter` and `pCurrent`. -/
def walk (list : CList T) : Nat → Option NodePtr → Option NodePtr →
    Option NodePtr × Option NodePtr
  | index + 1, _, some current => list.walk index (some current) (list.nodes current).pNext
  | _, pAfter, pCurrent => (pAfter, pCurrent)

def insertBefore (list : CList T) (pElement : T) (index : Nat) (newNode : NodePtr) :
    Option (CList T) :=
  if index = 0 then some (list.addHead pElement newNode)
  else
    match list.walk index none list.head with
    | (some after, some current) =>
        let list := list.allocNode newNode ⟨pElement, (list.nodes current).pPrev, some current⟩
        let list := (list.setPrev current (some newNode)).setNext after (some newNode)
        some { list with nCount := toShort (list.nCount + 1) }
    | _ => none

/-- It is `pAfter` whose link is set back to the new node, and not the node behind it. -/
def insertpAfter (list : CList T) (pElement : T) (index : Nat) (newNode : NodePtr) :
    Option (CList T) :=
  if index = list.nCount - 1 then some (list.addTail pElement newNode)
  else
    match list.walk index none list.head with
    | (some after, some current) =>
        let list := list.allocNode newNode ⟨pElement, some current, (list.nodes current).pNext⟩
        let list := (list.setPrev after (some newNode)).setNext current (some newNode)
        some { list with nCount := toShort (list.nCount + 1) }
    | _ => none

/-! ## Deleting -/

section Deleting

variable [Zero T]

def deleteHead (list : CList T) : Option (T × CList T) :=
  match list.head with
  | none => some (0, list)
  | some head =>
      if list.tail = some head then
        some ((list.nodes head).pElement,
          { list.freeNode head with head := none, tail := none, nCount := 0 })
      else do
        let next ← (list.nodes head).pNext
        return ((list.nodes head).pElement,
          { (list.setPrev next none).freeNode head with
            head := some next, nCount := toShort (list.nCount - 1) })

/-- The loop of `DeleteTail`: `pAfter` and `pCurrent`, which has no next node.  Behind more steps
than there are nodes it goes round in circles. -/
def lastTwo (list : CList T) : Nat → NodePtr → Option (NodePtr × NodePtr)
  | 0, _ => none
  | steps + 1, after => do
      let current ← (list.nodes after).pNext
      if (list.nodes current).pNext = none then return (after, current)
      else list.lastTwo steps current

def deleteTail (list : CList T) : Option (T × CList T) :=
  match list.tail with
  | none => some (0, list)
  | some tail =>
      if list.head = some tail then
        some ((list.nodes tail).pElement,
          { list.freeNode tail with head := none, tail := none, nCount := 0 })
      else do
        let head ← list.head
        let (after, current) ← list.lastTwo list.outstanding.length head
        return ((list.nodes current).pElement,
          { (list.setNext after none).freeNode current with
            tail := some after, nCount := toShort (list.nCount - 1) })

/-- The lines that take `pCurrent` out behind `pAfter`. -/
def unlink (list : CList T) (after current : NodePtr) : Option (T × CList T) := do
  let next ← (list.nodes current).pNext
  let list := (list.setPrev next (some after)).setNext after (some next)
  return ((list.nodes current).pElement,
    { list.freeNode current with nCount := toShort (list.nCount - 1) })

def getIndexPos (list : CList T) (index : Nat) : Option NodePtr :=
  (list.walk index none list.head).2

/-- The loop of `DeletePos`: `pAfter` where `pCurrent` is the node looked for. -/
def findAfter (list : CList T) (pos : NodePtr) : Nat → NodePtr → Option NodePtr → Option NodePtr
  | steps + 1, after, some current =>
      if current = pos then some after
      else list.findAfter pos steps current (list.nodes current).pNext
  | _, _, _ => none

/-- What is returned, what the position is set to, and the list. -/
def deletePos (list : CList T) (pos : NodePtr) : Option ((T × Option NodePtr) × CList T) :=
  if list.head = some pos then do
    let (pElement, list) ← list.deleteHead
    return ((pElement, list.head), list)
  else if list.tail = some pos then do
    let (pElement, list) ← list.deleteTail
    return ((pElement, list.tail), list)
  else do
    let head ← list.head
    let after ← list.findAfter pos list.outstanding.length head (list.nodes head).pNext
    let (pElement, list) ← list.unlink after pos
    return ((pElement, some after), list)

/-- `while( index-- )`: `pAfter` and `pCurrent`. -/
def advance (list : CList T) : Nat → NodePtr → Option NodePtr → Option (NodePtr × NodePtr)
  | 0, after, some current => some (after, current)
  | index + 1, _, some current => list.advance index current (list.nodes current).pNext
  | _, _, none => none

/-- The walk starts behind the first node, and makes as many steps as if it started there. -/
def deleteAt (list : CList T) (index : Nat) : Option (T × CList T) :=
  if index = 0 then list.deleteHead
  else if index = list.nCount - 1 then list.deleteTail
  else do
    let head ← list.head
    let (after, current) ← list.advance index head (list.nodes head).pNext
    list.unlink after current

end Deleting

/-- `CList::CList` -/
def construct [Zero T] : CList T := ⟨fun _ => ⟨0, none, none⟩, none, none, 0, []⟩

end CList

end SunPush
