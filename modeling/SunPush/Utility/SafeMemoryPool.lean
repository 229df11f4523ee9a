import SunPush.Utility.MemoryPool

/-!
# The thread-safe memory pool

`SafeMemoryPoolFactory` is a copy of `CMemoryPoolFactory` with a lock around its
calls.  Its default growth is computed from the growth itself and not from the
basic size, and its counters leave out the first band.  Where the growth is
given, the two pools do the same and report different numbers.
-/

namespace SunPush

open CInteger

/-- `SafeMemoryPoolFactory` behind `Initialize`, which has the fields of `CMemoryPoolFactory`. -/
structure SafeMemoryPool extends MemoryPool

namespace SafeMemoryPool

def initialized (poolBasicSize poolExtendSize : DWord) : SafeMemoryPool where
  newer := []
  freeBand := .allocBand 0 poolBasicSize
  older := []
  poolExtendSize := if poolExtendSize = 0 then poolExtendSize / 2 + 1 else poolExtendSize

/-- The lines of `CMemoryPoolFactory::Alloc`, within the lock. -/
def alloc (pool : SafeMemoryPool) : Option (Option PoolObject × SafeMemoryPool) := do
  let (pn, after) ← pool.toMemoryPool.alloc
  return (pn, ⟨after⟩)

/-- `none` where it calls a null pointer, or stops at `int 3`. -/
def free (pool : SafeMemoryPool) (pNode : PoolObject) : Option SafeMemoryPool :=
  match pool.freeBand.freeObject pNode, pool.older with
  | some freeBand, _ => some { pool with freeBand }
  | none, [] => none
  | none, next :: older => do
      let band ← next.freeObject pNode
      return { pool with newer := pool.freeBand :: pool.newer, freeBand := band, older }

/-- `pHead` is moved on before the first band is counted. -/
def getNumberOfBands (pool : SafeMemoryPool) : DWord :=
  pool.bands.tail.foldl (fun total _ => total + 1) 0

def getAvailableNumberOfTypes (pool : SafeMemoryPool) : DWord :=
  pool.bands.tail.foldl (fun total band => total + band.freeIdx) 0

end SafeMemoryPool

/-! ## Both pools at once -/

/-- The two pools, and what each has handed out that has not been freed, the latest first. -/
structure PoolPair where
  plain : MemoryPool
  plainHeld : List PoolObject
  safe : SafeMemoryPool
  safeHeld : List PoolObject

/-- `free k` frees the `k`-th of the outstanding objects. -/
inductive PairCall where
  | alloc
  | free (k : Nat)

namespace PoolPair

def initialized (poolBasicSize poolExtendSize : DWord) : PoolPair where
  plain := .initialized poolBasicSize poolExtendSize
  plainHeld := []
  safe := .initialized poolBasicSize poolExtendSize
  safeHeld := []

/-- The pools have grown as often, have handed out the same objects and report the same numbers. -/
structure Agrees (pair : PoolPair) : Prop where
  grown : pair.plain.bands.length = pair.safe.bands.length
  held : pair.plainHeld = pair.safeHeld
  extendSize : pair.plain.poolExtendSize = pair.safe.poolExtendSize
  numberOfBands : pair.plain.getNumberOfBands = pair.safe.getNumberOfBands
  available : pair.plain.getAvailableNumberOfTypes = pair.safe.getAvailableNumberOfTypes

end PoolPair

/-- Every call is made on both pools. -/
def poolPairSystem (poolBasicSize poolExtendSize : DWord) :
    Transition.System PoolPair PairCall where
  Initial pair := pair = .initialized poolBasicSize poolExtendSize
  step pair
    | .alloc => do
        let (plainNode, plain) ← pair.plain.alloc
        let (safeNode, safe) ← pair.safe.alloc
        return ⟨plain, plainNode.toList ++ pair.plainHeld, safe, safeNode.toList ++ pair.safeHeld⟩
    | .free k => do
        let plainNode ← pair.plainHeld[k]?
        let safeNode ← pair.safeHeld[k]?
        let safe ← pair.safe.free safeNode
        return ⟨(pair.plain.free plainNode).2, pair.plainHeld.eraseIdx k, safe,
          pair.safeHeld.eraseIdx k⟩

namespace PoolPair

/-! ## What differs -/

theorem foldl_succ (bands : List MemTypeBand) (start : DWord) :
    bands.foldl (fun total _ => total + 1) start = start + BitVec.ofNat 32 bands.length := by
  induction bands generalizing start with
  | nil => simp
  | cons band bands ih =>
      rw [List.foldl_cons, ih, List.length_cons, BitVec.ofNat_add, BitVec.add_assoc,
        BitVec.add_comm 1]
      rfl

/-- Of equally many bands the thread-safe pool reports one less. -/
theorem differ_everywhere (pair : PoolPair) : ¬pair.Agrees := by
  intro agrees
  have grown := agrees.grown
  have same := congrArg BitVec.toNat agrees.numberOfBands
  have first : pair.safe.bands ≠ [] := List.append_ne_nil_of_right_ne_nil _ (List.cons_ne_nil _ _)
  have positive := List.length_pos_iff.mpr first
  rw [MemoryPool.getNumberOfBands, SafeMemoryPool.getNumberOfBands, foldl_succ, foldl_succ,
    List.length_tail] at same
  simp only [BitVec.toNat_add, BitVec.toNat_ofNat] at same
  omega

/-- Behind no `Initialize` do the pools agree throughout any calls: they do in no state. -/
theorem not_agrees_throughout (poolBasicSize poolExtendSize : DWord) (calls : List PairCall) :
    ¬(poolPairSystem poolBasicSize poolExtendSize).Throughout Agrees
      (initialized poolBasicSize poolExtendSize) calls := by
  cases calls with
  | nil => exact differ_everywhere _
  | cons call calls => exact fun throughout => differ_everywhere _ throughout.1

/-- Two objects and the default growth, which is 2 in the one pool and 1 in the other; one object is
taken. -/
theorem differ_after_alloc :
    ¬(poolPairSystem 2 0).Throughout Agrees (initialized 2 0) [.alloc] := by
  intro throughout
  have taken : Agrees _ := throughout.2 _ rfl
  exact absurd taken.extendSize (by decide)

/-! ## What is the same -/

/-- The pools are the same and have handed out the same objects. -/
structure Same (pair : PoolPair) : Prop where
  pool : pair.safe.toMemoryPool = pair.plain
  held : pair.safeHeld = pair.plainHeld
  settled : pair.plain.Settled pair.plainHeld

/-- Where the one pool takes an object back, so does the other. -/
theorem safe_free_eq {pool : MemoryPool} {pNode : PoolObject}
    (accepted : (pool.free pNode).1 = true) :
    SafeMemoryPool.free ⟨pool⟩ pNode = some ⟨(pool.free pNode).2⟩ := by
  simp only [MemoryPool.free, SafeMemoryPool.free] at accepted ⊢
  cases takes : pool.freeBand.freeObject pNode with
  | some freeBand => simp only
  | none =>
      cases ahead : pool.older with
      | nil =>
          simp only [takes, ahead] at accepted
          contradiction
      | cons next older =>
          cases last : next.freeObject pNode with
          | none =>
              simp only [takes, ahead, last] at accepted
              contradiction
          | some band => simp only [last, Option.bind_eq_bind, Option.bind_some]; rfl

/-- Which of the outstanding objects are listed first makes no difference. -/
theorem settled_perm {pool : MemoryPool} {held other : List PoolObject}
    (settled : pool.Settled held) (perm : held.Perm other) : pool.Settled other :=
  { settled with
    accounted := fun object => perm.count_eq object ▸ settled.accounted object }

/-- If the growth is given, or the basic size is one, the two pools stay the same. -/
theorem same_of_reachable {poolBasicSize poolExtendSize : DWord} (positive : 0 < poolBasicSize)
    (given : poolExtendSize ≠ 0 ∨ poolBasicSize = 1) {pair : PoolPair}
    (reached : (poolPairSystem poolBasicSize poolExtendSize).Reachable pair) : pair.Same := by
  refine @Transition.System.ReachableBy.invariant _ _ _ _ Same ?_ ?_ _ reached
  · rintro _ rfl
    refine ⟨?_, rfl, MemoryPool.settled_initialized positive poolExtendSize⟩
    rcases given with given | rfl
    · simp only [initialized, SafeMemoryPool.initialized, MemoryPool.initialized, if_neg given]
    · by_cases default : poolExtendSize = 0
      · subst default
        rfl
      · simp only [initialized, SafeMemoryPool.initialized, MemoryPool.initialized, if_neg default]
  · rintro ⟨plain, plainHeld, ⟨safe⟩, safeHeld⟩ call next ⟨pool, held, settled⟩ - steps
    simp only at pool held settled
    subst pool held
    cases call with
    | alloc =>
        simp only [poolPairSystem, SafeMemoryPool.alloc, Option.bind_eq_bind,
          Option.bind_eq_some_iff] at steps
        rcases steps with ⟨result, returns, _, ⟨_, again, safe⟩, steps⟩
        rcases Option.some.inj (returns.symm.trans again) with rfl
        rcases settled.alloc returns with ⟨pn, is_some, -, -, kept⟩
        cases safe
        cases steps
        refine ⟨rfl, rfl, ?_⟩
        simp only [is_some]
        exact kept
    | free k =>
        simp only [poolPairSystem, Option.bind_eq_bind, Option.bind_eq_some_iff] at steps
        rcases steps with ⟨pNode, at_k, _, again, safe, frees, steps⟩
        rcases Option.some.inj (at_k.symm.trans again) with rfl
        rcases settled.free (List.mem_of_getElem? at_k) with ⟨accepted, kept⟩
        rcases Option.some.inj ((safe_free_eq accepted).symm.trans frees) with rfl
        cases steps
        rcases List.getElem?_eq_some_iff.mp at_k with ⟨k_lt, rfl⟩
        refine ⟨rfl, rfl, settled_perm kept ?_⟩
        have erased := List.perm_cons_erase (List.getElem_mem k_lt)
        exact (erased.symm.trans (List.getElem_cons_eraseIdx_perm k_lt).symm).cons_inv

/-- The counters then differ by the first band. -/
theorem counters_of_same {pair : PoolPair} (same : pair.Same) {head : MemTypeBand}
    {rest : List MemTypeBand} (split : pair.plain.bands = head :: rest) :
    pair.plain.getNumberOfBands = pair.safe.getNumberOfBands + 1 ∧
      pair.plain.getAvailableNumberOfTypes =
        pair.safe.getAvailableNumberOfTypes + head.freeIdx := by
  have sums (bands : List MemTypeBand) (start : DWord) :
      bands.foldl (fun total band => total + band.freeIdx) start =
        bands.foldl (fun total band => total + band.freeIdx) 0 + start := by
    induction bands generalizing start with
    | nil => simp
    | cons band bands ih =>
        rw [List.foldl_cons, ih, List.foldl_cons, ih (0 + band.freeIdx)]
        bv_omega
  rw [MemoryPool.getNumberOfBands, SafeMemoryPool.getNumberOfBands,
    MemoryPool.getAvailableNumberOfTypes, SafeMemoryPool.getAvailableNumberOfTypes, same.pool,
    split, List.tail_cons, List.foldl_cons, List.foldl_cons, sums, foldl_succ, foldl_succ]
  constructor
  · bv_omega
  · bv_omega

end PoolPair

end SunPush
