import Mathlib.Algebra.BigOperators.Group.List.Basic
import Mathlib.Data.List.Count
import SunPush.Library.Transition
import SunPush.Utility.MemBand

/-!
# The memory pool

`CMemoryPoolFactory` from `MemoryPoolFactory.h`.  Its bands are linked from the
newest to the oldest, and `m_pFreeBand` walks along them: towards the newer ones
when it runs out of objects, towards the older ones when it is full.  So all
bands on its one side are full and all on the other are empty.
-/

namespace SunPush

open CInteger

/-- `CMemoryPoolFactory` behind `Initialize`: the bands from `m_pFreeBand` along `pPrev`, the band
itself, and those along `pNext`. -/
structure MemoryPool where
  newer : List MemTypeBand
  freeBand : MemTypeBand
  older : List MemTypeBand
  poolExtendSize : DWord

namespace MemoryPool

/-- The bands from `m_pBandHead` on along `pNext`. -/
def bands (pool : MemoryPool) : List MemTypeBand :=
  pool.newer.reverse ++ pool.freeBand :: pool.older

/-- How many objects there are. -/
def capacity (pool : MemoryPool) : Nat := (pool.bands.map MemTypeBand.capacity).sum

/-- `Initialize` of a pool that has no bands. -/
def initialized (poolBasicSize poolExtendSize : DWord) : MemoryPool where
  newer := []
  freeBand := .allocBand 0 poolBasicSize
  older := []
  poolExtendSize := if poolExtendSize = 0 then poolBasicSize / 2 + 1 else poolExtendSize

/-- What is returned, and the pool behind it; `none` when there is no memory for a band, for all
objects have addresses of their own and none is null. -/
def alloc (pool : MemoryPool) : Option (Option PoolObject × MemoryPool) :=
  match pool.freeBand.alloObject, pool.newer with
  | (some pn, freeBand), _ => some (some pn, { pool with freeBand })
  | (none, freeBand), [] =>
      if pool.capacity + pool.poolExtendSize.toNat < 2 ^ 32 then
        let (pn, band) := (MemTypeBand.allocBand pool.bands.length pool.poolExtendSize).alloObject
        some (pn, { pool with freeBand := band, older := freeBand :: pool.older })
      else none
  | (none, freeBand), prev :: newer =>
      let (pn, band) := prev.alloObject
      some (pn, { pool with newer, freeBand := band, older := freeBand :: pool.older })

/-- Whether a band has taken the object back, and the pool behind the call. -/
def free (pool : MemoryPool) (pNode : PoolObject) : Bool × MemoryPool :=
  match pool.freeBand.freeObject pNode, pool.older with
  | some freeBand, _ => (true, { pool with freeBand })
  | none, [] => (false, pool)
  | none, next :: older =>
      match next.freeObject pNode with
      | some band =>
          (true, { pool with newer := pool.freeBand :: pool.newer, freeBand := band, older })
      | none => (false, { pool with newer := pool.freeBand :: pool.newer, freeBand := next, older })

def getNumberOfBands (pool : MemoryPool) : DWord :=
  pool.bands.foldl (fun total _ => total + 1) 0

def getAvailableNumberOfTypes (pool : MemoryPool) : DWord :=
  pool.bands.foldl (fun total band => total + band.freeIdx) 0

end MemoryPool

/-! ## Runs -/

/-- A pool, and the objects that have been handed out and not been freed since. -/
structure HeldPool where
  pool : MemoryPool
  outstanding : List PoolObject

inductive PoolCall where
  | alloc
  | free (pNode : PoolObject)

/-- A pool in use.  Only outstanding objects are freed. -/
def memoryPoolSystem (poolBasicSize poolExtendSize : DWord) :
    Transition.System HeldPool PoolCall where
  Initial held := held = ⟨.initialized poolBasicSize poolExtendSize, []⟩
  step held
    | .alloc => do
        let (pn, pool) ← held.pool.alloc
        return ⟨pool, pn.toList ++ held.outstanding⟩
    | .free pNode =>
        if pNode ∈ held.outstanding then
          some ⟨(held.pool.free pNode).2, held.outstanding.erase pNode⟩
        else none

namespace MemoryPool

/-- The objects of all bands. -/
def objects (pool : MemoryPool) : List PoolObject := pool.bands.flatMap MemTypeBand.objects

/-- The objects that are free. -/
def available (pool : MemoryPool) : List PoolObject := pool.bands.flatMap MemTypeBand.free

/-- The next call does what it should, and every object is either free or outstanding, once. -/
structure Conserves (pool : MemoryPool) (outstanding : List PoolObject) : Prop where
  alloc_returns : pool.alloc = none → 2 ^ 32 ≤ pool.capacity + pool.poolExtendSize.toNat
  alloc_fresh : ∀ result, pool.alloc = some result →
    ∃ pn, result.1 = some pn ∧ pn ∈ result.2.objects ∧ pn ∉ outstanding
  free_accepted : ∀ pNode ∈ outstanding, (pool.free pNode).1 = true
  total_eq : pool.getAvailableNumberOfTypes.toNat + outstanding.length = pool.capacity
  complete : (pool.available ++ outstanding).Perm pool.objects
  distinct : pool.objects.Nodup

/-- `Alloc` fails only where there is no memory for another band. -/
theorem le_of_alloc_none {pool : MemoryPool} (fails : pool.alloc = none) :
    2 ^ 32 ≤ pool.capacity + pool.poolExtendSize.toNat := by
  cases takes : pool.freeBand.alloObject with
  | mk pn freeBand =>
      rw [alloc, takes] at fails
      cases pn with
      | some pn => contradiction
      | none =>
          cases behind : pool.newer with
          | nil =>
              rw [behind] at fails
              by_cases room : pool.capacity + pool.poolExtendSize.toNat < 2 ^ 32
              · simp only [if_pos room] at fails
                contradiction
              · exact Nat.le_of_not_lt room
          | cons prev newer =>
              rw [behind] at fails
              contradiction

/-! ## Sums over the bands -/

/-- A number for each band, added up. -/
def total (pool : MemoryPool) (number : MemTypeBand → Nat) : Nat := (pool.bands.map number).sum

theorem total_eq (pool : MemoryPool) (number : MemTypeBand → Nat) :
    pool.total number =
      (pool.newer.map number).sum + number pool.freeBand + (pool.older.map number).sum := by
  simp only [total, bands, List.map_append, List.sum_append, List.map_reverse, List.sum_reverse,
    List.map_cons, List.sum_cons]
  omega

theorem total_congr {pool after : MemoryPool} (same : after.bands = pool.bands)
    (number : MemTypeBand → Nat) : after.total number = pool.total number := by
  rw [total, total, same]

theorem count_available (pool : MemoryPool) (object : PoolObject) :
    pool.available.count object = pool.total fun band => band.free.count object :=
  List.count_flatMap

theorem count_objects (pool : MemoryPool) (object : PoolObject) :
    pool.objects.count object = pool.total fun band => band.objects.count object :=
  List.count_flatMap

theorem length_available (pool : MemoryPool) :
    pool.available.length = pool.total fun band => band.free.length :=
  List.length_flatMap

theorem length_objects (pool : MemoryPool) : pool.objects.length = pool.capacity := by
  rw [objects, List.length_flatMap, capacity]
  simp only [MemTypeBand.length_objects]

/-- Another band in the place of `m_pFreeBand`. -/
def withFreeBand (pool : MemoryPool) (band : MemTypeBand) : MemoryPool :=
  { pool with freeBand := band }

theorem map_withFreeBand {α : Type} {pool : MemoryPool} {band : MemTypeBand}
    {value : MemTypeBand → α} (same : value band = value pool.freeBand) :
    (pool.withFreeBand band).bands.map value = pool.bands.map value := by
  simp only [bands, withFreeBand, List.map_append, List.map_cons, same]

theorem total_withFreeBand (pool : MemoryPool) (band : MemTypeBand) (number : MemTypeBand → Nat) :
    (pool.withFreeBand band).total number + number pool.freeBand =
      pool.total number + number band := by
  rw [total_eq, total_eq]
  simp only [withFreeBand]
  omega

/-! ## The invariant -/

/-- The bands on the one side of `m_pFreeBand` are full, those on the other side are empty, and
every object is accounted for. -/
structure Settled (pool : MemoryPool) (outstanding : List PoolObject) : Prop where
  newer_full : ∀ band ∈ pool.newer, band.free.length = band.capacity
  older_empty : ∀ band ∈ pool.older, band.free = []
  numbered : pool.bands.map MemTypeBand.pDeleteArray = (List.range pool.bands.length).reverse
  positive : ∀ size ∈ pool.bands.map MemTypeBand.capacity, 0 < size
  extend_pos : 0 < pool.poolExtendSize.toNat
  addressable : pool.capacity < 2 ^ 32
  accounted : ∀ object, (pool.total fun band => band.free.count object) +
    outstanding.count object = pool.total fun band => band.objects.count object

namespace Settled

variable {pool : MemoryPool} {outstanding : List PoolObject}

/-- Bands have different arrays, so no object lies in two. -/
theorem distinct (settled : pool.Settled outstanding) : pool.objects.Nodup := by
  have arrays : (pool.bands.map MemTypeBand.pDeleteArray).Nodup := by
    rw [settled.numbered]
    exact List.nodup_reverse.mpr List.nodup_range
  refine List.nodup_flatMap.mpr ⟨fun band _ => ?_, ?_⟩
  · refine List.nodup_range.map fun i k same => ?_
    exact congrArg PoolObject.index same
  · refine (List.pairwise_map.mp arrays).imp ?_
    intro left right differ object inLeft inRight
    rcases List.mem_map.mp inLeft with ⟨_, _, rfl⟩
    rcases List.mem_map.mp inRight with ⟨_, _, same⟩
    exact differ (congrArg PoolObject.array same).symm

theorem complete (settled : pool.Settled outstanding) :
    (pool.available ++ outstanding).Perm pool.objects := by
  refine List.perm_iff_count.mpr fun object => ?_
  rw [List.count_append, count_available, count_objects]
  exact settled.accounted object

theorem length_eq (settled : pool.Settled outstanding) :
    (pool.total fun band => band.free.length) + outstanding.length = pool.capacity := by
  rw [← length_available, ← length_objects, ← List.length_append]
  exact settled.complete.length_eq

theorem not_outstanding (settled : pool.Settled outstanding) {object : PoolObject}
    (isFree : object ∈ pool.available) : object ∉ outstanding := by
  have nodup := settled.complete.nodup_iff.mpr settled.distinct
  exact fun held => (List.nodup_append.mp nodup).2.2 object isFree object held rfl

/-- `m_pFreeBand` at another one of the same bands. -/
theorem walked {after : MemoryPool} (settled : pool.Settled outstanding)
    (bands_eq : after.bands = pool.bands) (extend_eq : after.poolExtendSize = pool.poolExtendSize)
    (full : ∀ band ∈ after.newer, band.free.length = band.capacity)
    (empty : ∀ band ∈ after.older, band.free = []) : after.Settled outstanding := by
  refine ⟨full, empty, ?_, ?_, ?_, ?_, ?_⟩
  · rw [bands_eq]
    exact settled.numbered
  · rw [bands_eq]
    exact settled.positive
  · rw [extend_eq]
    exact settled.extend_pos
  · rw [capacity, bands_eq]
    exact settled.addressable
  · intro object
    rw [total_congr bands_eq, total_congr bands_eq]
    exact settled.accounted object

theorem toNewer (settled : pool.Settled outstanding) {prev : MemTypeBand}
    {newer : List MemTypeBand} (behind : pool.newer = prev :: newer)
    (empty : pool.freeBand.free = []) :
    Settled { pool with newer, freeBand := prev, older := pool.freeBand :: pool.older }
      outstanding := by
  apply settled.walked
  · simp [bands, behind]
  · rfl
  · intro band band_mem
    exact settled.newer_full band (behind ▸ List.mem_cons_of_mem prev band_mem)
  · exact List.forall_mem_cons.mpr ⟨empty, settled.older_empty⟩

theorem toOlder (settled : pool.Settled outstanding) {next : MemTypeBand}
    {older : List MemTypeBand} (ahead : pool.older = next :: older)
    (full : pool.freeBand.free.length = pool.freeBand.capacity) :
    Settled { pool with newer := pool.freeBand :: pool.newer, freeBand := next, older }
      outstanding := by
  apply settled.walked
  · simp [bands, ahead]
  · rfl
  · exact List.forall_mem_cons.mpr ⟨full, settled.newer_full⟩
  · intro band band_mem
    exact settled.older_empty band (ahead ▸ List.mem_cons_of_mem next band_mem)

/-- A new band at the head, all of it free. -/
theorem grow (settled : pool.Settled outstanding) (atHead : pool.newer = [])
    (empty : pool.freeBand.free = [])
    (room : pool.capacity + pool.poolExtendSize.toNat < 2 ^ 32) :
    Settled { pool with
      newer := []
      freeBand := .allocBand pool.bands.length pool.poolExtendSize
      older := pool.freeBand :: pool.older } outstanding := by
  have bands_eq : bands { pool with
      newer := []
      freeBand := .allocBand pool.bands.length pool.poolExtendSize
      older := pool.freeBand :: pool.older } =
        .allocBand pool.bands.length pool.poolExtendSize :: pool.bands := by
    simp [bands, atHead]
  refine ⟨?_, ?_, ?_, ?_, settled.extend_pos, ?_, ?_⟩
  · exact fun band band_mem => absurd band_mem List.not_mem_nil
  · exact List.forall_mem_cons.mpr ⟨empty, settled.older_empty⟩
  · rw [bands_eq, List.map_cons, settled.numbered, List.length_cons, List.range_succ,
      List.reverse_append]
    rfl
  · rw [bands_eq]
    exact List.forall_mem_cons.mpr ⟨settled.extend_pos, settled.positive⟩
  · rw [capacity, bands_eq, List.map_cons, List.sum_cons, Nat.add_comm]
    exact room
  · intro object
    have accounted := settled.accounted object
    simp only [total, bands_eq, List.map_cons, List.sum_cons, MemTypeBand.free_allocBand]
      at accounted ⊢
    omega

/-- A band from which an object has been taken or to which one has been given in the place of
`m_pFreeBand`. -/
theorem withFreeBand {band : MemTypeBand} {held : List PoolObject}
    (settled : pool.Settled outstanding)
    (array_eq : band.pDeleteArray = pool.freeBand.pDeleteArray)
    (max_eq : band.nMaxBandObjectNum = pool.freeBand.nMaxBandObjectNum)
    (moved : ∀ object, band.free.count object + held.count object =
      pool.freeBand.free.count object + outstanding.count object) :
    (pool.withFreeBand band).Settled held := by
  have capacity_eq : band.capacity = pool.freeBand.capacity := congrArg BitVec.toNat max_eq
  have objects_eq : band.objects = pool.freeBand.objects := by
    rw [MemTypeBand.objects, MemTypeBand.objects, array_eq, max_eq]
  have length_eq : (pool.withFreeBand band).bands.length = pool.bands.length := by
    simp [bands, MemoryPool.withFreeBand]
  refine ⟨settled.newer_full, settled.older_empty, ?_, ?_, settled.extend_pos, ?_, ?_⟩
  · rw [map_withFreeBand array_eq, length_eq]
    exact settled.numbered
  · rw [map_withFreeBand capacity_eq]
    exact settled.positive
  · rw [capacity, map_withFreeBand capacity_eq]
    exact settled.addressable
  · intro object
    have accounted := settled.accounted object
    have freed := total_withFreeBand pool band fun band => band.free.count object
    have whole := total_withFreeBand pool band fun band => band.objects.count object
    have step := moved object
    simp only [objects_eq] at freed whole
    omega

theorem pop (settled : pool.Settled outstanding) {pn : PoolObject} {band : MemTypeBand}
    (pushes : band.Pushes pn pool.freeBand) :
    (pool.withFreeBand band).Settled (pn :: outstanding) ∧
      pn ∈ (pool.withFreeBand band).objects ∧ pn ∉ outstanding := by
  have kept : (pool.withFreeBand band).Settled (pn :: outstanding) := by
    apply settled.withFreeBand pushes.array_eq.symm pushes.max_eq.symm
    intro object
    rw [pushes.free_eq, List.count_append, List.count_cons, List.count_singleton]
    omega
  refine ⟨kept, ?_, ?_⟩
  · apply kept.complete.mem_iff.mp
    exact List.mem_append_right _ List.mem_cons_self
  · apply settled.not_outstanding
    refine List.mem_flatMap.mpr ⟨pool.freeBand, ?_, ?_⟩
    · exact List.mem_append_right _ List.mem_cons_self
    · rw [pushes.free_eq]
      exact List.mem_append_right _ (List.mem_singleton_self pn)

theorem push (settled : pool.Settled outstanding) {pNode : PoolObject} {band : MemTypeBand}
    (held : pNode ∈ outstanding) (pushes : pool.freeBand.Pushes pNode band) :
    (pool.withFreeBand band).Settled (outstanding.erase pNode) := by
  apply settled.withFreeBand pushes.array_eq pushes.max_eq
  intro object
  have erased := (List.perm_cons_erase held).count_eq object
  rw [List.count_cons] at erased
  rw [pushes.free_eq, List.count_append, List.count_singleton]
  omega

/-- `Alloc` hands out an object that nobody has. -/
theorem alloc (settled : pool.Settled outstanding) {result : Option PoolObject × MemoryPool}
    (returns : pool.alloc = some result) :
    ∃ pn, result.1 = some pn ∧ pn ∈ result.2.objects ∧ pn ∉ outstanding ∧
      result.2.Settled (pn :: outstanding) := by
  by_cases empty : pool.freeBand.free = []
  · have none_left := MemTypeBand.alloObject_of_nil empty
    cases behind : pool.newer with
    | nil =>
        by_cases room : pool.capacity + pool.poolExtendSize.toNat < 2 ^ 32
        · have grown := settled.grow behind empty room
          have more : (MemTypeBand.allocBand pool.bands.length pool.poolExtendSize).free ≠ [] := by
            rw [MemTypeBand.free_allocBand, ← List.length_pos_iff, MemTypeBand.length_objects]
            exact settled.extend_pos
          rcases MemTypeBand.alloObject_of_ne_nil more with ⟨pn, band, takes, pushes⟩
          rcases grown.pop pushes with ⟨kept, known, fresh⟩
          rw [MemoryPool.alloc, none_left, behind] at returns
          simp only [if_pos room, takes, Option.some.injEq] at returns
          subst returns
          exact ⟨pn, rfl, known, fresh, kept⟩
        · rw [MemoryPool.alloc, none_left, behind] at returns
          simp only [if_neg room] at returns
          contradiction
    | cons prev newer =>
        have walked := settled.toNewer behind empty
        have full := settled.newer_full prev (behind ▸ List.mem_cons_self)
        have size := walked.positive prev.capacity
          (List.mem_map_of_mem (List.mem_append_right _ List.mem_cons_self))
        have more : prev.free ≠ [] := by
          rw [← List.length_pos_iff, full]
          exact size
        rcases MemTypeBand.alloObject_of_ne_nil more with ⟨pn, band, takes, pushes⟩
        rcases walked.pop pushes with ⟨kept, known, fresh⟩
        rw [MemoryPool.alloc, none_left, behind] at returns
        simp only [takes, Option.some.injEq] at returns
        subst returns
        exact ⟨pn, rfl, known, fresh, kept⟩
  · rcases MemTypeBand.alloObject_of_ne_nil empty with ⟨pn, band, takes, pushes⟩
    rcases settled.pop pushes with ⟨kept, known, fresh⟩
    rw [MemoryPool.alloc, takes] at returns
    simp only [Option.some.injEq] at returns
    subst returns
    exact ⟨pn, rfl, known, fresh, kept⟩

/-- If every band is full, no object is outstanding. -/
theorem not_full (settled : pool.Settled outstanding) {pNode : PoolObject}
    (held : pNode ∈ outstanding) (last : pool.older = []) :
    pool.freeBand.free.length ≠ pool.freeBand.capacity := by
  intro full
  have length := settled.length_eq
  have some_held := List.length_pos_of_mem held
  have newer : pool.newer.map (fun band => band.free.length) =
      pool.newer.map MemTypeBand.capacity := List.map_congr_left settled.newer_full
  have whole : pool.capacity = pool.total MemTypeBand.capacity := rfl
  rw [whole, total_eq, total_eq, newer, full, last] at length
  simp only [List.map_nil] at length
  omega

/-- `Free` takes an outstanding object back. -/
theorem free (settled : pool.Settled outstanding) {pNode : PoolObject}
    (held : pNode ∈ outstanding) :
    (pool.free pNode).1 = true ∧ (pool.free pNode).2.Settled (outstanding.erase pNode) := by
  by_cases full : pool.freeBand.free.length = pool.freeBand.capacity
  · have refused := MemTypeBand.freeObject_of_full full pNode
    cases ahead : pool.older with
    | nil => exact absurd full (settled.not_full held ahead)
    | cons next older =>
        have walked := settled.toOlder ahead full
        have empty := settled.older_empty next (ahead ▸ List.mem_cons_self)
        have size := walked.positive next.capacity
          (List.mem_map_of_mem (List.mem_append_right _ List.mem_cons_self))
        have room : next.free.length < next.capacity := by
          rw [empty]
          exact size
        rcases MemTypeBand.freeObject_of_lt room pNode with ⟨band, takes, pushes⟩
        have kept := walked.push held pushes
        rw [MemoryPool.free, refused, ahead]
        simp only [takes]
        exact ⟨trivial, kept⟩
  · have room := Nat.lt_of_le_of_ne pool.freeBand.length_free_le full
    rcases MemTypeBand.freeObject_of_lt room pNode with ⟨band, takes, pushes⟩
    have kept := settled.push held pushes
    rw [MemoryPool.free, takes]
    exact ⟨rfl, kept⟩

end Settled

/-! ## Conservation -/

theorem settled_initialized {poolBasicSize : DWord} (positive : 0 < poolBasicSize)
    (poolExtendSize : DWord) : (initialized poolBasicSize poolExtendSize).Settled [] := by
  have size : 0 < poolBasicSize.toNat := positive
  have bound := poolBasicSize.isLt
  refine ⟨?_, ?_, rfl, ?_, ?_, ?_, ?_⟩
  · exact fun band band_mem => absurd band_mem List.not_mem_nil
  · exact fun band band_mem => absurd band_mem List.not_mem_nil
  · exact List.forall_mem_singleton.mpr size
  · by_cases default : poolExtendSize = 0
    · simp only [initialized, if_pos default, BitVec.toNat_add, BitVec.toNat_udiv]
      change 0 < (poolBasicSize.toNat / 2 + 1) % 2 ^ 32
      omega
    · simp only [initialized, if_neg default]
      bv_omega
  · exact bound
  · intro object
    simp [total, bands, initialized]

/-- The counter adds up what the bands have, for the sum is no more than there are objects. -/
theorem Settled.getAvailableNumberOfTypes {pool : MemoryPool} {outstanding : List PoolObject}
    (settled : pool.Settled outstanding) :
    pool.getAvailableNumberOfTypes.toNat = pool.total fun band => band.free.length := by
  have sums (bands : List MemTypeBand) (start : DWord) :
      (bands.foldl (fun total band => total + band.freeIdx) start).toNat =
        (start.toNat + (bands.map fun band => band.free.length).sum) % 2 ^ 32 := by
    induction bands generalizing start with
    | nil =>
        have bound := start.isLt
        simp only [List.foldl_nil, List.map_nil, List.sum_nil]
        omega
    | cons band bands ih =>
        rw [List.foldl_cons, ih, BitVec.toNat_add, List.map_cons, List.sum_cons,
          MemTypeBand.length_free]
        omega
  have whole := settled.length_eq
  have addressable := settled.addressable
  rw [MemoryPool.getAvailableNumberOfTypes, sums]
  change (0 + pool.total fun band => band.free.length) % 2 ^ 32 = _
  omega

theorem Settled.conserves {pool : MemoryPool} {outstanding : List PoolObject}
    (settled : pool.Settled outstanding) : pool.Conserves outstanding where
  alloc_returns := le_of_alloc_none
  alloc_fresh := by
    intro result returns
    rcases settled.alloc returns with ⟨pn, is_some, known, fresh, -⟩
    exact ⟨pn, is_some, known, fresh⟩
  free_accepted := fun pNode held => (settled.free held).1
  total_eq := by
    rw [settled.getAvailableNumberOfTypes]
    exact settled.length_eq
  complete := settled.complete
  distinct := settled.distinct

theorem settled_of_reachable {poolBasicSize poolExtendSize : DWord}
    (positive : 0 < poolBasicSize) {held : HeldPool}
    (reached : (memoryPoolSystem poolBasicSize poolExtendSize).Reachable held) :
    held.pool.Settled held.outstanding := by
  refine @Transition.System.ReachableBy.invariant _ _ _ _
    (fun held : HeldPool => held.pool.Settled held.outstanding) ?_ ?_ _ reached
  · rintro _ rfl
    exact settled_initialized positive poolExtendSize
  · rintro ⟨pool, outstanding⟩ call next settled - steps
    cases call with
    | alloc =>
        simp only [memoryPoolSystem, Option.bind_eq_bind, Option.bind_eq_some_iff] at steps
        rcases steps with ⟨result, returns, steps⟩
        rcases settled.alloc returns with ⟨pn, is_some, -, -, kept⟩
        cases steps
        simp only [is_some]
        exact kept
    | free pNode =>
        simp only [memoryPoolSystem] at steps
        by_cases held : pNode ∈ outstanding
        · rw [if_pos held, Option.some.injEq] at steps
          subst steps
          exact (settled.free held).2
        · rw [if_neg held] at steps
          contradiction

/-- In every run of a pool, objects are conserved. -/
theorem conserves_of_reachable {poolBasicSize poolExtendSize : DWord}
    (positive : 0 < poolBasicSize) {held : HeldPool}
    (reached : (memoryPoolSystem poolBasicSize poolExtendSize).Reachable held) :
    held.pool.Conserves held.outstanding :=
  (settled_of_reachable positive reached).conserves

/-- A pool of one object grows twice, is given everything back, so that it walks to its oldest band,
and walks back to its newest one. -/
theorem conserves_after_growth :
    ∃ held, (memoryPoolSystem 1 0).run ⟨initialized 1 0, []⟩
        [.alloc, .alloc, .alloc, .free ⟨0, 0⟩, .free ⟨1, 0⟩, .free ⟨2, 0⟩, .alloc, .alloc, .alloc,
          .free ⟨1, 0⟩] = some held ∧
      held.pool.bands.length = 3 ∧ held.outstanding.length = 2 ∧
      held.pool.Conserves held.outstanding :=
  ⟨_, rfl, rfl, rfl, @conserves_of_reachable 1 0 (by decide) _
    (Transition.System.reachable_of_run rfl
      (rfl : (memoryPoolSystem 1 0).run ⟨initialized 1 0, []⟩
        [.alloc, .alloc, .alloc, .free ⟨0, 0⟩, .free ⟨1, 0⟩, .free ⟨2, 0⟩, .alloc, .alloc, .alloc,
          .free ⟨1, 0⟩] = _))⟩

end MemoryPool

end SunPush
