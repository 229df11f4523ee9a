import Mathlib.Data.List.Nodup
import SunPush.Library.Integer

/-!
# A band of pooled objects

`CMemTypeBand` from `MemBand.h`: an array of objects and a stack of pointers to
the free ones.  The stack takes back any object, whichever band it is from.  An
object is given by the array it lies in and its index there.
-/

namespace SunPush

open CInteger

/-- A `DataType *` that is not null. -/
structure PoolObject where
  array : Nat
  index : Nat
  deriving DecidableEq, Repr

/-- `CMemTypeBand`; `pDeleteArray` is the number of the array. -/
structure MemTypeBand where
  ppDataType : List PoolObject
  pDeleteArray : Nat
  nMaxBandObjectNum : DWord
  freeIdx : DWord
  length_eq : ppDataType.length = nMaxBandObjectNum.toNat
  freeIdx_le : freeIdx ≤ nMaxBandObjectNum

namespace MemTypeBand

/-- The band that `AllocBand` puts at the head, with an array of its own. -/
def allocBand (array : Nat) (nMaxObject : DWord) : MemTypeBand where
  ppDataType := (List.range nMaxObject.toNat).map (PoolObject.mk array)
  pDeleteArray := array
  nMaxBandObjectNum := nMaxObject
  freeIdx := nMaxObject
  length_eq := by simp
  freeIdx_le := BitVec.le_refl _

/-- The index in front of the first one is the largest `DWORD`. -/
theorem pred_le {freeIdx max : DWord} (le : freeIdx ≤ max) (more : freeIdx - 1 ≠ -1) :
    freeIdx - 1 ≤ max := by
  bv_omega

/-- `none` for a null pointer. -/
def alloObject (band : MemTypeBand) : Option PoolObject × MemTypeBand :=
  if more : band.freeIdx - 1 ≠ -1 then
    (band.ppDataType[(band.freeIdx - 1).toNat]?,
      { band with freeIdx := band.freeIdx - 1, freeIdx_le := pred_le band.freeIdx_le more })
  else (none, { band with freeIdx := 0, freeIdx_le := Nat.zero_le _ })

theorem succ_le {freeIdx max : DWord} (lt : freeIdx < max) : freeIdx + 1 ≤ max := by
  bv_omega

/-- `none` when it returns `false`. -/
def freeObject (band : MemTypeBand) (data : PoolObject) : Option MemTypeBand :=
  if room : band.freeIdx < band.nMaxBandObjectNum then
    some { band with
      ppDataType := band.ppDataType.set band.freeIdx.toNat data
      freeIdx := band.freeIdx + 1
      length_eq := (List.length_set ..).trans band.length_eq
      freeIdx_le := succ_le room }
  else none

/-! ## The stack -/

/-- The free objects, the next one last. -/
def free (band : MemTypeBand) : List PoolObject := band.ppDataType.take band.freeIdx.toNat

/-- The objects of the band's own array. -/
def objects (band : MemTypeBand) : List PoolObject :=
  (List.range band.nMaxBandObjectNum.toNat).map (PoolObject.mk band.pDeleteArray)

def capacity (band : MemTypeBand) : Nat := band.nMaxBandObjectNum.toNat

theorem length_free (band : MemTypeBand) : band.free.length = band.freeIdx.toNat := by
  have le : band.freeIdx.toNat ≤ band.nMaxBandObjectNum.toNat := band.freeIdx_le
  rw [free, List.length_take, band.length_eq]
  omega

theorem length_free_le (band : MemTypeBand) : band.free.length ≤ band.capacity := by
  rw [length_free]
  exact band.freeIdx_le

@[simp]
theorem length_objects (band : MemTypeBand) : band.objects.length = band.capacity := by
  simp [objects, capacity]

@[simp]
theorem free_allocBand (array : Nat) (nMaxObject : DWord) :
    (allocBand array nMaxObject).free = (allocBand array nMaxObject).objects := by
  apply List.take_of_length_le
  simp [allocBand]

/-- The object has been pushed on the stack, and nothing else has changed. -/
structure Pushes (band : MemTypeBand) (data : PoolObject) (after : MemTypeBand) : Prop where
  free_eq : after.free = band.free ++ [data]
  array_eq : after.pDeleteArray = band.pDeleteArray
  max_eq : after.nMaxBandObjectNum = band.nMaxBandObjectNum

theorem alloObject_of_nil {band : MemTypeBand} (empty : band.free = []) :
    band.alloObject = (none, band) := by
  have length := band.length_free
  rw [empty, List.length_nil] at length
  have zero : band.freeIdx = 0 := by bv_omega
  cases band
  simp only at zero
  subst zero
  rfl

theorem alloObject_of_ne_nil {band : MemTypeBand} (more : band.free ≠ []) :
    ∃ data after, band.alloObject = (some data, after) ∧ after.Pushes data band := by
  have length := band.length_free
  have positive := List.length_pos_iff.mpr more
  have le : band.freeIdx.toNat ≤ band.nMaxBandObjectNum.toNat := band.freeIdx_le
  have length_eq := band.length_eq
  have decrements : band.freeIdx - 1 ≠ -1 := by bv_omega
  have pred : (band.freeIdx - 1).toNat = band.freeIdx.toNat - 1 := by bv_omega
  have within : band.freeIdx.toNat - 1 < band.ppDataType.length := by omega
  have pops : band.alloObject = (band.ppDataType[(band.freeIdx - 1).toNat]?,
      { band with
        freeIdx := band.freeIdx - 1, freeIdx_le := pred_le band.freeIdx_le decrements }) :=
    dif_pos decrements
  rw [pops, pred, List.getElem?_eq_getElem within]
  refine ⟨_, _, rfl, ?_, rfl, rfl⟩
  simp only [free, pred]
  rw [List.take_append_getElem within]
  congr 1
  omega

theorem freeObject_of_full {band : MemTypeBand} (full : band.free.length = band.capacity)
    (data : PoolObject) : band.freeObject data = none := by
  rw [length_free, capacity] at full
  rw [freeObject, dif_neg]
  bv_omega

theorem freeObject_of_lt {band : MemTypeBand} (room : band.free.length < band.capacity)
    (data : PoolObject) : ∃ after, band.freeObject data = some after ∧ band.Pushes data after := by
  rw [length_free, capacity] at room
  have lt : band.freeIdx < band.nMaxBandObjectNum := by bv_omega
  have succ : (band.freeIdx + 1).toNat = band.freeIdx.toNat + 1 := by bv_omega
  have within : band.freeIdx.toNat < (band.ppDataType.set band.freeIdx.toNat data).length := by
    rw [List.length_set, band.length_eq]
    exact room
  refine ⟨_, dif_pos lt, ?_, rfl, rfl⟩
  simp only [free, succ]
  rw [List.take_succ_eq_append_getElem within, List.take_set_of_le (Nat.le_refl _),
    List.getElem_set_self]

end MemTypeBand

end SunPush
