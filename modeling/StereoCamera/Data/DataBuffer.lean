import StereoCamera.Common.Types
import StereoCamera.Lib.Assoc

/-! `RingBuffer` and `DataBuffer` (`data/DataBuffer.h`, `DataBuffer.cpp`). A null
`shared_ptr` is `none`; each call runs under the buffer's mutex. -/

namespace StereoCamera

structure BufferSlotKey where
  cameraId : String
  type : DataType
  deriving DecidableEq

structure RingBuffer (T : Type) where
  capacity : UInt64
  mask : UInt64
  ring : List (Option T)
  writeIdx : UInt64
  readIdx : UInt64

namespace RingBuffer
variable {T : Type}

def nextPowerOfTwo (v : UInt64) : UInt64 :=
  if v = 0 then 1
  else
    let v := v - 1
    let v := v ||| v >>> 1
    let v := v ||| v >>> 2
    let v := v ||| v >>> 4
    let v := v ||| v >>> 8
    let v := v ||| v >>> 16
    v + 1

def mk' (capacity : UInt64) : RingBuffer T :=
  let capacity := nextPowerOfTwo capacity
  ⟨capacity, capacity - 1, List.replicate capacity.toNat none, 0, 0⟩

def push (r : RingBuffer T) (item : T) : RingBuffer T :=
  let idx := r.writeIdx
  { r with
    ring := r.ring.set (idx &&& r.mask).toNat (some item)
    writeIdx := idx + 1
    readIdx := if idx + 1 - r.readIdx > r.capacity then idx + 1 - r.capacity else r.readIdx }

def getLatest (r : RingBuffer T) : Option T :=
  if r.writeIdx = r.readIdx then none
  else (r.ring[((r.writeIdx - 1) &&& r.mask).toNat]?).join

def getLatestN (r : RingBuffer T) (count : UInt64) : List (Option T) :=
  let available := r.writeIdx - r.readIdx
  let n := if count ≤ available then count else available
  (List.range n.toNat).map fun k =>
    (r.ring[((r.writeIdx - UInt64.ofNat (n.toNat - k)) &&& r.mask).toNat]?).join

def size (r : RingBuffer T) : UInt64 := r.writeIdx - r.readIdx

def clear (r : RingBuffer T) : RingBuffer T :=
  { r with writeIdx := 0, readIdx := 0, ring := r.ring.map fun _ => none }

theorem getLatest_push {r : RingBuffer T} {item item' : T}
    (h : (r.push item).getLatest = some item') : item' = item := by
  have hback : r.writeIdx + 1 - 1 = r.writeIdx := by grind
  have hcell : ((r.ring.set (r.writeIdx &&& r.mask).toNat (some item))[
      (r.writeIdx &&& r.mask).toNat]?).join = some item' := by
    unfold getLatest at h
    split at h
    · cases h
    · change ((r.ring.set _ _)[((r.writeIdx + 1 - 1) &&& r.mask).toNat]?).join = _ at h
      rwa [hback] at h
  generalize (r.writeIdx &&& r.mask).toNat = i at hcell
  rw [List.getElem?_set_self'] at hcell
  cases hi : r.ring[i]? with
  | none => simp [hi] at hcell
  | some old => simpa [hi] using hcell.symm

end RingBuffer

/-- `B` is what a `shared_ptr<DataBundle>` points to. -/
structure DataBuffer (B : Type) where
  maxFramesPerSlot : UInt64
  slots : AList fun _ : BufferSlotKey => RingBuffer B

namespace DataBuffer
variable {B : Type}

def mk' (maxFramesPerSlot : UInt64) : DataBuffer B := ⟨maxFramesPerSlot, ∅⟩

def push (d : DataBuffer B) (cameraId : String) (type : DataType) (bundle : B) : DataBuffer B :=
  let key : BufferSlotKey := ⟨cameraId, type⟩
  match d.slots.lookup key with
  | some r => { d with slots := d.slots.replace key (r.push bundle) }
  | none =>
    { d with slots := d.slots.insert key ((RingBuffer.mk' d.maxFramesPerSlot).push bundle) }

def createSlot (d : DataBuffer B) (cameraId : String) (type : DataType) : DataBuffer B :=
  let key : BufferSlotKey := ⟨cameraId, type⟩
  match d.slots.lookup key with
  | some _ => d
  | none => { d with slots := d.slots.insert key (RingBuffer.mk' d.maxFramesPerSlot) }

def getLatest (d : DataBuffer B) (cameraId : String) (type : DataType) : Option B :=
  match d.slots.lookup ⟨cameraId, type⟩ with
  | none => none
  | some r => r.getLatest

def getLatestN (d : DataBuffer B) (cameraId : String) (type : DataType) (count : UInt64) :
    List (Option B) :=
  match d.slots.lookup ⟨cameraId, type⟩ with
  | none => []
  | some r => r.getLatestN count

def removeSlot (d : DataBuffer B) (cameraId : String) (type : DataType) : DataBuffer B :=
  { d with slots := d.slots.erase ⟨cameraId, type⟩ }

def removeAllSlots (d : DataBuffer B) (cameraId : String) : DataBuffer B :=
  { d with slots := d.slots.filterKeys fun key => key.cameraId ≠ cameraId }

def slotSize (d : DataBuffer B) (cameraId : String) (type : DataType) : UInt64 :=
  match d.slots.lookup ⟨cameraId, type⟩ with
  | none => 0
  | some r => r.size

def clear (d : DataBuffer B) : DataBuffer B := { d with slots := ∅ }

def clearSlot (d : DataBuffer B) (cameraId : String) (type : DataType) : DataBuffer B :=
  let key : BufferSlotKey := ⟨cameraId, type⟩
  match d.slots.lookup key with
  | some r => { d with slots := d.slots.replace key r.clear }
  | none => d

def activeSlots (d : DataBuffer B) : List BufferSlotKey := d.slots.keys

variable {d : DataBuffer B} {cameraId : String} {type : DataType} {bundle : B}

theorem getLatest_push {bundle' : B}
    (h : (d.push cameraId type bundle).getLatest cameraId type = some bundle') :
    bundle' = bundle := by
  unfold push getLatest at h
  dsimp only at h
  cases hr : d.slots.lookup ⟨cameraId, type⟩ with
  | none =>
    rw [hr] at h
    dsimp only at h
    rw [AList.lookup_insert] at h
    exact RingBuffer.getLatest_push h
  | some r =>
    have hmem : (⟨cameraId, type⟩ : BufferSlotKey) ∈ d.slots := by
      apply AList.lookup_isSome.mp
      rw [hr]
      rfl
    rw [hr] at h
    dsimp only at h
    rw [AList.lookup_replace_self _ hmem] at h
    exact RingBuffer.getLatest_push h

theorem lookup_push_ne {key : BufferSlotKey} (hne : key ≠ ⟨cameraId, type⟩) :
    (d.push cameraId type bundle).slots.lookup key = d.slots.lookup key := by
  unfold push
  dsimp only
  cases d.slots.lookup ⟨cameraId, type⟩ with
  | none => exact AList.lookup_insert_ne hne
  | some r => exact AList.lookup_replace_ne _ hne

theorem lookup_createSlot_ne {key : BufferSlotKey} (hne : key ≠ ⟨cameraId, type⟩) :
    (d.createSlot cameraId type).slots.lookup key = d.slots.lookup key := by
  unfold createSlot
  dsimp only
  cases d.slots.lookup ⟨cameraId, type⟩ with
  | none => exact AList.lookup_insert_ne hne
  | some r => rfl

theorem lookup_removeSlot (d : DataBuffer B) (cameraId : String) (type : DataType)
    (key : BufferSlotKey) :
    (d.removeSlot cameraId type).slots.lookup key =
      if key = ⟨cameraId, type⟩ then none else d.slots.lookup key := by
  split_ifs with hkey
  · rw [hkey]
    exact AList.lookup_erase _ _
  · exact AList.lookup_erase_ne hkey

theorem lookup_createSlots_of_not_named {types : List DataType} {key : BufferSlotKey}
    (hkey : ¬(key.cameraId = cameraId ∧ key.type ∈ types)) :
    (types.foldl (fun b t => b.createSlot cameraId t) d).slots.lookup key =
      d.slots.lookup key := by
  induction types generalizing d with
  | nil => rfl
  | cons t types ih =>
    rw [List.mem_cons] at hkey
    have hne : key ≠ ⟨cameraId, t⟩ := by
      rintro rfl
      exact hkey ⟨rfl, .inl rfl⟩
    have hrest : ¬(key.cameraId = cameraId ∧ key.type ∈ types) :=
      fun h => hkey ⟨h.1, .inr h.2⟩
    rw [List.foldl_cons, ih hrest, lookup_createSlot_ne hne]

theorem lookup_removeSlots (d : DataBuffer B) (cameraId : String) (types : List DataType)
    (key : BufferSlotKey) :
    (types.foldl (fun b t => b.removeSlot cameraId t) d).slots.lookup key =
      if key.cameraId = cameraId ∧ key.type ∈ types then none else d.slots.lookup key := by
  induction types generalizing d with
  | nil => simp
  | cons t types ih =>
    have hhead : key = ⟨cameraId, t⟩ ↔ key.cameraId = cameraId ∧ key.type = t := by
      rw [← BufferSlotKey.mk.injEq]
    rw [List.foldl_cons, ih, lookup_removeSlot]
    simp only [hhead, List.mem_cons]
    split_ifs <;> grind

theorem getLatest_push_of_ne {cameraId' : String} {type' : DataType}
    (hne : (⟨cameraId', type'⟩ : BufferSlotKey) ≠ ⟨cameraId, type⟩) :
    (d.push cameraId type bundle).getLatest cameraId' type' = d.getLatest cameraId' type' := by
  unfold push getLatest
  dsimp only
  cases hr : d.slots.lookup ⟨cameraId, type⟩ with
  | none =>
    dsimp only
    rw [AList.lookup_insert_ne hne]
  | some r =>
    dsimp only
    rw [AList.lookup_replace_ne _ hne]

theorem getLatest_clear (d : DataBuffer B) (cameraId : String) (type : DataType) :
    d.clear.getLatest cameraId type = none := rfl

end DataBuffer

end StereoCamera
