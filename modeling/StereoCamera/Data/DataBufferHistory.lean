import Mathlib.Data.List.DropRight
import StereoCamera.Data.DataBuffer
import StereoCamera.Lib.PowerOfTwo

/-! What a `DataBuffer` remembers: for each key the most recent of the bundles that were
pushed to it since its slot was created or cleared. -/

namespace StereoCamera

namespace RingBuffer
variable {T : Type}

theorem nextPowerOfTwo_smeared {v : UInt64} (hv : v ≠ 0) :
    ∃ w : UInt64, PowerOfTwo.SmearedBy 32 (v.toNat - 1) w.toNat ∧ nextPowerOfTwo v = w + 1 := by
  -- One more than what is set in the 32 places from each bit on; the shifts do not reach further.
  have hpos : 0 < v.toNat := Nat.pos_of_ne_zero fun h => hv (UInt64.toNat_inj.mp h)
  have hsub : (v - 1).toNat = v.toNat - 1 :=
    UInt64.toNat_sub_of_le _ _ (UInt64.le_iff_toNat_le.mpr hpos)
  have h₁ : PowerOfTwo.SmearedBy 1 (v.toNat - 1) (v - 1).toNat := by
    rw [hsub]
    exact PowerOfTwo.smearedBy_one _
  have h₂ := h₁.or_shiftRight_uint64 1 rfl
  have h₄ := h₂.or_shiftRight_uint64 2 rfl
  have h₈ := h₄.or_shiftRight_uint64 4 rfl
  have h₁₆ := h₈.or_shiftRight_uint64 8 rfl
  have h₃₂ := h₁₆.or_shiftRight_uint64 16 rfl
  exact ⟨_, h₃₂, if_neg hv⟩

theorem toNat_nextPowerOfTwo {v : UInt64} (hv : v.toNat ≤ 2 ^ 32) :
    (nextPowerOfTwo v).toNat = 2 ^ (v.toNat - 1).size := by
  by_cases hzero : v = 0
  · subst hzero
    rfl
  · obtain ⟨w, hsmeared, hnext⟩ := nextPowerOfTwo_smeared hzero
    have hlt : v.toNat - 1 < 2 ^ 32 := by omega
    have hones := hsmeared.eq_two_pow_sub_one hlt
    have hle : 2 ^ (v.toNat - 1).size ≤ 2 ^ 32 :=
      Nat.pow_le_pow_right (by decide) (Nat.size_le.mpr hlt)
    have hone : 1 ≤ 2 ^ (v.toNat - 1).size := Nat.one_le_two_pow
    have hsucc : 2 ^ (v.toNat - 1).size - 1 + 1 = 2 ^ (v.toNat - 1).size := Nat.sub_add_cancel hone
    rw [hnext, UInt64.toNat_add, hones]
    change (2 ^ (v.toNat - 1).size - 1 + 1) % 2 ^ 64 = _
    rw [hsucc]
    exact Nat.mod_eq_of_lt (hle.trans_lt (by decide))

/-- The ring holds the most recent of the items in `hist`, the newest just behind `writeIdx`,
and nothing else. -/
structure Keeps (r : RingBuffer T) (hist : List T) : Prop where
  powerOfTwo : ∃ k, r.capacity.toNat = 2 ^ k
  mask : r.mask = r.capacity - 1
  length : r.ring.length = r.capacity.toNat
  size : r.size.toNat = min hist.length r.capacity.toNat
  recent : ∀ i < r.capacity.toNat,
    r.ring[((r.writeIdx - UInt64.ofNat (i + 1)) &&& r.mask).toNat]? = some hist.reverse[i]?

theorem keeps_mk' {n : UInt64} (hn : ∃ k, (nextPowerOfTwo n).toNat = 2 ^ k) :
    (mk' n : RingBuffer T).Keeps [] where
  powerOfTwo := hn
  mask := rfl
  length := List.length_replicate
  size := by simp [size, mk']
  recent := by
    obtain ⟨k, hk⟩ := hn
    intro i hi
    exact List.getElem?_replicate_of_lt (PowerOfTwo.toNat_and_mask_lt hk rfl _)

theorem Keeps.clear {r : RingBuffer T} {hist : List T} (h : r.Keeps hist) : r.clear.Keeps [] where
  powerOfTwo := h.powerOfTwo
  mask := h.mask
  length := by
    change (r.ring.map _).length = r.capacity.toNat
    rw [List.length_map, h.length]
  size := by simp [RingBuffer.size, RingBuffer.clear]
  recent := by
    obtain ⟨k, hk⟩ := h.powerOfTwo
    intro i hi
    have hlt := PowerOfTwo.toNat_and_mask_lt hk h.mask (0 - UInt64.ofNat (i + 1))
    change (r.ring.map fun _ => none)[((0 - UInt64.ofNat (i + 1)) &&& r.mask).toNat]? = some none
    rw [List.getElem?_map, List.getElem?_eq_getElem (h.length ▸ hlt), Option.map_some]

variable {r : RingBuffer T} {hist : List T}

theorem Keeps.capacity_lt (h : r.Keeps hist) : r.capacity.toNat + 1 < 2 ^ 64 := by
  obtain ⟨k, hk⟩ := h.powerOfTwo
  have hlt := r.capacity.toNat_lt
  rw [hk] at hlt ⊢
  have hk63 : k ≤ 63 := Nat.lt_succ_iff.mp ((Nat.pow_lt_pow_iff_right (by decide)).mp hlt)
  have := Nat.pow_le_pow_right (show 0 < 2 by decide) hk63
  omega

theorem Keeps.size_push (h : r.Keeps hist) (item : T) :
    (r.push item).size.toNat = min (hist.length + 1) r.capacity.toNat := by
  have hsize := h.size
  have hcap := h.capacity_lt
  have hnext : (r.writeIdx + 1 - r.readIdx).toNat = r.size.toNat + 1 := by
    have hsum : r.writeIdx + 1 - r.readIdx = r.size + 1 := by
      unfold RingBuffer.size
      grind
    rw [hsum, UInt64.toNat_add]
    apply Nat.mod_eq_of_lt
    change r.size.toNat + 1 < 2 ^ 64
    omega
  unfold push
  by_cases hfull : r.writeIdx + 1 - r.readIdx > r.capacity
  · have hkeep : r.writeIdx + 1 - (r.writeIdx + 1 - r.capacity) = r.capacity := by grind
    have hlt := UInt64.lt_iff_toNat_lt.mp hfull
    simp only [RingBuffer.size, if_pos hfull, hkeep]
    omega
  · have hle := UInt64.le_iff_toNat_le.mp (UInt64.not_lt.mp hfull)
    simp only [RingBuffer.size, if_neg hfull]
    omega

theorem Keeps.push (h : r.Keeps hist) (item : T) : (r.push item).Keeps (hist ++ [item]) where
  powerOfTwo := h.powerOfTwo
  mask := h.mask
  length := by
    change (r.ring.set _ _).length = _
    rw [List.length_set]
    exact h.length
  size := by
    rw [h.size_push item, List.length_append]
    rfl
  recent := by
    obtain ⟨k, hk⟩ := h.powerOfTwo
    intro i hi
    change i < r.capacity.toNat at hi
    change (r.ring.set (r.writeIdx &&& r.mask).toNat (some item))[
      ((r.writeIdx + 1 - UInt64.ofNat (i + 1)) &&& r.mask).toNat]? = _
    rw [List.reverse_append, List.reverse_singleton, List.singleton_append]
    cases i with
    | zero =>
      have hpos : r.writeIdx + 1 - UInt64.ofNat (0 + 1) = r.writeIdx := by
        change r.writeIdx + 1 - 1 = r.writeIdx
        grind
      have hlt := PowerOfTwo.toNat_and_mask_lt hk h.mask r.writeIdx
      rw [hpos, List.getElem?_set_self (by rw [h.length]; exact hlt)]
      rfl
    | succ i =>
      have hpos : r.writeIdx + 1 - UInt64.ofNat (i + 1 + 1) =
          r.writeIdx - UInt64.ofNat (i + 1) := by
        rw [UInt64.ofNat_add (i + 1) 1]
        grind
      have hback : (r.writeIdx - (r.writeIdx - UInt64.ofNat (i + 1))).toNat = i + 1 := by
        have hsub : r.writeIdx - (r.writeIdx - UInt64.ofNat (i + 1)) = UInt64.ofNat (i + 1) := by
          grind
        rw [hsub]
        apply UInt64.toNat_ofNat_of_lt'
        have := r.capacity.toNat_lt
        change i + 1 < 2 ^ 64
        omega
      -- The cell written is none of those that stay in the ring.
      have hne := PowerOfTwo.and_mask_ne hk h.mask (a := r.writeIdx)
        (b := r.writeIdx - UInt64.ofNat (i + 1)) (by omega) (by omega)
      rw [hpos, List.getElem?_set_ne hne, h.recent i (by omega), List.getElem?_cons_succ]

theorem Keeps.getLatest (h : r.Keeps hist) : r.getLatest = hist.getLast? := by
  have hsize := h.size
  obtain ⟨k, hk⟩ := h.powerOfTwo
  have hcap : 0 < r.capacity.toNat := hk ▸ Nat.two_pow_pos k
  unfold RingBuffer.getLatest
  by_cases hempty : r.writeIdx = r.readIdx
  · have hzero : r.size.toNat = 0 := by
      unfold RingBuffer.size
      rw [hempty, UInt64.sub_self]
      rfl
    have hnil : hist = [] := by
      apply List.length_eq_zero_iff.mp
      omega
    rw [if_pos hempty, hnil]
    rfl
  · have hne : r.size.toNat ≠ 0 := by
      intro hzero
      apply hempty
      have hsub : r.writeIdx - r.readIdx = 0 := UInt64.toNat_inj.mp hzero
      grind
    have hnewest := h.recent 0 (by omega)
    change r.ring[((r.writeIdx - 1) &&& r.mask).toNat]? = _ at hnewest
    rw [if_neg hempty, hnewest, ← List.head?_eq_getElem?, List.head?_reverse]
    rfl

theorem Keeps.getLatestN (h : r.Keeps hist) (count : UInt64) :
    r.getLatestN count =
      (hist.rtake (min count.toNat (min hist.length r.capacity.toNat))).map some := by
  have hn : (if count ≤ r.writeIdx - r.readIdx then count else r.writeIdx - r.readIdx).toNat =
      min count.toNat (min hist.length r.capacity.toNat) := by
    rw [← h.size]
    split_ifs with hle
    · exact (min_eq_left (UInt64.le_iff_toNat_le.mp hle)).symm
    · have hlt := UInt64.lt_iff_toNat_lt.mp (UInt64.not_le.mp hle)
      exact (min_eq_right hlt.le).symm
  unfold RingBuffer.getLatestN
  dsimp only
  rw [hn]
  have hm : min count.toNat (min hist.length r.capacity.toNat) ≤
      min hist.length r.capacity.toNat := min_le_right _ _
  generalize min count.toNat (min hist.length r.capacity.toNat) = m at hm
  unfold List.rtake
  apply List.ext_getElem
  · simp only [List.length_map, List.length_range, List.length_drop]
    omega
  · intro k hk _
    simp only [List.length_map, List.length_range] at hk
    have hold := h.recent (m - k - 1) (by omega)
    have hsum : m - k - 1 + 1 = m - k := by omega
    rw [hsum, List.getElem?_reverse (by omega)] at hold
    have hnew : hist.length - 1 - (m - k - 1) = hist.length - m + k := by omega
    simp only [List.getElem_map, List.getElem_range, List.getElem_drop, hold, Option.join_some,
      hnew]
    exact List.getElem?_eq_getElem _

theorem Keeps.exists_recent (h : r.Keeps hist) {c : ℕ} (hc : c < r.capacity.toNat) :
    ∃ i < r.capacity.toNat, ((r.writeIdx - UInt64.ofNat (i + 1)) &&& r.mask).toNat = c := by
  -- Each cell is read at some distance behind `writeIdx`.
  obtain ⟨k, hk⟩ := h.powerOfTwo
  have hc64 : (UInt64.ofNat c).toNat = c :=
    UInt64.toNat_ofNat_of_lt' (hc.trans r.capacity.toNat_lt)
  refine ⟨((r.writeIdx - 1 - UInt64.ofNat c) &&& r.mask).toNat,
    PowerOfTwo.toNat_and_mask_lt hk h.mask _, ?_⟩
  have hround := PowerOfTwo.toNat_round_add_and_mask hk h.mask
    (r.writeIdx - 1 - UInt64.ofNat c) (c := UInt64.ofNat c) (hc64.trans_lt hc)
  rw [hc64] at hround
  have hpos : r.writeIdx - UInt64.ofNat
      (((r.writeIdx - 1 - UInt64.ofNat c) &&& r.mask).toNat + 1) =
        r.writeIdx - 1 - UInt64.ofNat c -
          ((r.writeIdx - 1 - UInt64.ofNat c) &&& r.mask) + UInt64.ofNat c := by
    rw [UInt64.ofNat_add, UInt64.ofNat_toNat]
    grind
  rw [hpos, hround]

theorem Keeps.mem_ring (h : r.Keeps hist) {item : T} (hmem : some item ∈ r.ring) :
    item ∈ hist.rtake r.capacity.toNat := by
  obtain ⟨c, hc⟩ := List.mem_iff_getElem?.mp hmem
  have hlt : c < r.capacity.toNat := h.length ▸ (List.getElem?_eq_some_iff.mp hc).1
  obtain ⟨i, hi, rfl⟩ := h.exists_recent hlt
  have hitem : hist.reverse[i]? = some item := Option.some.inj ((h.recent i hi).symm.trans hc)
  rw [List.rtake_eq_reverse_take_reverse, List.mem_reverse, List.mem_iff_getElem?]
  exact ⟨i, by rw [List.getElem?_take_of_lt hi, hitem]⟩

end RingBuffer

/-! ## The buffer as a map of histories -/

/-- For each key that has a slot, what was pushed since the slot was created or cleared. -/
abbrev Histories (B : Type) := BufferSlotKey → Option (List B)

namespace DataBuffer
variable {B : Type}

inductive Call (B : Type)
  | push (cameraId : String) (bundle : B)
  | createSlot (cameraId : String) (type : DataType)
  | removeSlot (cameraId : String) (type : DataType)
  | removeAllSlots (cameraId : String)
  | clearSlot (cameraId : String) (type : DataType)
  | clear

section
variable (type : B → DataType)

def call (d : DataBuffer B) : Call B → DataBuffer B
  | .push cameraId bundle => d.push cameraId (type bundle) bundle
  | .createSlot cameraId t => d.createSlot cameraId t
  | .removeSlot cameraId t => d.removeSlot cameraId t
  | .removeAllSlots cameraId => d.removeAllSlots cameraId
  | .clearSlot cameraId t => d.clearSlot cameraId t
  | .clear => d.clear

def record (h : Histories B) : Call B → Histories B
  | .push cameraId bundle =>
    Function.update h ⟨cameraId, type bundle⟩
      (some ((h ⟨cameraId, type bundle⟩).getD [] ++ [bundle]))
  | .createSlot cameraId t =>
    Function.update h ⟨cameraId, t⟩ (some ((h ⟨cameraId, t⟩).getD []))
  | .removeSlot cameraId t => Function.update h ⟨cameraId, t⟩ none
  | .removeAllSlots cameraId => fun key => if key.cameraId = cameraId then none else h key
  | .clearSlot cameraId t =>
    Function.update h ⟨cameraId, t⟩ ((h ⟨cameraId, t⟩).map fun _ => [])
  | .clear => fun _ => none

def Call.touches : Call B → BufferSlotKey → Prop
  | .push cameraId bundle, key => key = ⟨cameraId, type bundle⟩
  | .createSlot cameraId t, key | .removeSlot cameraId t, key | .clearSlot cameraId t, key =>
    key = ⟨cameraId, t⟩
  | .removeAllSlots cameraId, key => key.cameraId = cameraId
  | .clear, _ => True

end

def SlotKeeps (capacity : ℕ) : Option (RingBuffer B) → Option (List B) → Prop
  | none, none => True
  | some r, some hist => r.Keeps hist ∧ r.capacity.toNat = capacity
  | _, _ => False

theorem SlotKeeps.cases {capacity : ℕ} {r? : Option (RingBuffer B)} {hist? : Option (List B)}
    (h : SlotKeeps capacity r? hist?) :
    (r? = none ∧ hist? = none) ∨
      ∃ r hist, r? = some r ∧ hist? = some hist ∧ r.Keeps hist ∧ r.capacity.toNat = capacity := by
  cases r? with
  | none =>
    cases hist? with
    | none => exact .inl ⟨rfl, rfl⟩
    | some hist => exact h.elim
  | some r =>
    cases hist? with
    | none => exact h.elim
    | some hist => exact .inr ⟨r, hist, rfl, rfl, h⟩

structure Keeps (capacity : ℕ) (d : DataBuffer B) (h : Histories B) : Prop where
  powerOfTwo : ∃ k, capacity = 2 ^ k
  capacity_eq : capacity = (RingBuffer.nextPowerOfTwo d.maxFramesPerSlot).toNat
  slots : ∀ key, SlotKeeps capacity (d.slots.lookup key) (h key)

variable {capacity : ℕ} {d : DataBuffer B} {h : Histories B}

theorem keeps_mk' {n : UInt64} {k : ℕ} (hn : (RingBuffer.nextPowerOfTwo n).toNat = 2 ^ k) :
    Keeps (2 ^ k) (mk' n : DataBuffer B) fun _ => none where
  powerOfTwo := ⟨k, rfl⟩
  capacity_eq := hn.symm
  slots := fun _ => trivial

theorem Keeps.fresh (hd : d.Keeps capacity h) :
    SlotKeeps capacity (some (.mk' d.maxFramesPerSlot)) (some ([] : List B)) := by
  obtain ⟨k, hk⟩ := hd.powerOfTwo
  exact ⟨RingBuffer.keeps_mk' ⟨k, hd.capacity_eq.symm.trans hk⟩, hd.capacity_eq.symm⟩

theorem Keeps.update (hd : d.Keeps capacity h) {key : BufferSlotKey}
    {slots : AList fun _ : BufferSlotKey => RingBuffer B} {hist : Option (List B)}
    (hself : SlotKeeps capacity (slots.lookup key) hist)
    (hne : ∀ key', key' ≠ key → slots.lookup key' = d.slots.lookup key') :
    Keeps capacity { d with slots := slots } (Function.update h key hist) where
  powerOfTwo := hd.powerOfTwo
  capacity_eq := hd.capacity_eq
  slots := by
    intro key'
    by_cases hkey : key' = key
    · rw [hkey, Function.update_self]
      exact hself
    · rw [Function.update_of_ne hkey]
      change SlotKeeps capacity (slots.lookup key') (h key')
      rw [hne key' hkey]
      exact hd.slots key'

theorem lookup_replace_of_lookup {key : BufferSlotKey} {r : RingBuffer B}
    (hr : d.slots.lookup key = some r) (r' : RingBuffer B) :
    (d.slots.replace key r').lookup key = some r' := by
  apply AList.lookup_replace_self
  apply AList.lookup_isSome.mp
  rw [hr]
  rfl

theorem Keeps.push (hd : d.Keeps capacity h) (cameraId : String) (t : DataType) (bundle : B) :
    Keeps capacity (d.push cameraId t bundle)
      (Function.update h ⟨cameraId, t⟩ (some ((h ⟨cameraId, t⟩).getD [] ++ [bundle]))) := by
  unfold DataBuffer.push
  dsimp only
  rcases (hd.slots ⟨cameraId, t⟩).cases with ⟨hr, hh⟩ | ⟨r, hist, hr, hh, hkeeps, hcap⟩
  · rw [hr, hh]
    refine hd.update ?_ fun key' hne => AList.lookup_insert_ne hne
    rw [AList.lookup_insert]
    obtain ⟨hkeeps, hcap⟩ := hd.fresh
    exact ⟨hkeeps.push bundle, hcap⟩
  · rw [hr, hh]
    refine hd.update ?_ fun key' hne => AList.lookup_replace_ne _ hne
    rw [lookup_replace_of_lookup hr]
    exact ⟨hkeeps.push bundle, hcap⟩

theorem Keeps.createSlot (hd : d.Keeps capacity h) (cameraId : String) (t : DataType) :
    Keeps capacity (d.createSlot cameraId t)
      (Function.update h ⟨cameraId, t⟩ (some ((h ⟨cameraId, t⟩).getD []))) := by
  unfold DataBuffer.createSlot
  dsimp only
  rcases (hd.slots ⟨cameraId, t⟩).cases with ⟨hr, hh⟩ | ⟨r, hist, hr, hh, -⟩
  · rw [hr, hh]
    refine hd.update ?_ fun key' hne => AList.lookup_insert_ne hne
    rw [AList.lookup_insert]
    exact hd.fresh
  · have hsame : Function.update h ⟨cameraId, t⟩ (some ((h ⟨cameraId, t⟩).getD [])) = h := by
      rw [hh, Option.getD_some, ← hh, Function.update_eq_self]
    rw [hr, hsame]
    exact hd

theorem Keeps.removeSlot (hd : d.Keeps capacity h) (cameraId : String) (t : DataType) :
    Keeps capacity (d.removeSlot cameraId t) (Function.update h ⟨cameraId, t⟩ none) := by
  refine hd.update ?_ fun key' hne => AList.lookup_erase_ne hne
  rw [AList.lookup_erase]
  trivial

theorem Keeps.clearSlot (hd : d.Keeps capacity h) (cameraId : String) (t : DataType) :
    Keeps capacity (d.clearSlot cameraId t)
      (Function.update h ⟨cameraId, t⟩ ((h ⟨cameraId, t⟩).map fun _ => [])) := by
  unfold DataBuffer.clearSlot
  dsimp only
  rcases (hd.slots ⟨cameraId, t⟩).cases with ⟨hr, hh⟩ | ⟨r, hist, hr, hh, hkeeps, hcap⟩
  · have hsame : Function.update h ⟨cameraId, t⟩ ((h ⟨cameraId, t⟩).map fun _ => []) = h := by
      rw [hh, Option.map_none, ← hh, Function.update_eq_self]
    rw [hr, hsame]
    exact hd
  · rw [hr, hh]
    refine hd.update ?_ fun key' hne => AList.lookup_replace_ne _ hne
    rw [lookup_replace_of_lookup hr]
    exact ⟨hkeeps.clear, hcap⟩

theorem lookup_removeAllSlots (d : DataBuffer B) (cameraId : String) (key : BufferSlotKey) :
    (d.removeAllSlots cameraId).slots.lookup key =
      if key.cameraId = cameraId then none else d.slots.lookup key := by
  unfold DataBuffer.removeAllSlots
  dsimp only
  rw [AList.lookup_filterKeys]
  by_cases hkey : key.cameraId = cameraId
  · simp [hkey]
  · simp [hkey]

theorem Keeps.removeAllSlots (hd : d.Keeps capacity h) (cameraId : String) :
    Keeps capacity (d.removeAllSlots cameraId)
      (fun key => if key.cameraId = cameraId then none else h key) where
  powerOfTwo := hd.powerOfTwo
  capacity_eq := hd.capacity_eq
  slots := by
    intro key
    rw [lookup_removeAllSlots]
    split_ifs
    · trivial
    · exact hd.slots key

theorem Keeps.clear (hd : d.Keeps capacity h) : Keeps capacity d.clear fun _ => none where
  powerOfTwo := hd.powerOfTwo
  capacity_eq := hd.capacity_eq
  slots := fun _ => trivial

theorem Keeps.call (hd : d.Keeps capacity h) (type : B → DataType) (c : Call B) :
    Keeps capacity (d.call type c) (record type h c) := by
  cases c with
  | push cameraId bundle => exact hd.push cameraId (type bundle) bundle
  | createSlot cameraId t => exact hd.createSlot cameraId t
  | removeSlot cameraId t => exact hd.removeSlot cameraId t
  | removeAllSlots cameraId => exact hd.removeAllSlots cameraId
  | clearSlot cameraId t => exact hd.clearSlot cameraId t
  | clear => exact hd.clear

theorem Keeps.calls (hd : d.Keeps capacity h) (type : B → DataType) (cs : List (Call B)) :
    Keeps capacity (cs.foldl (DataBuffer.call type) d) (cs.foldl (record type) h) := by
  induction cs generalizing d h with
  | nil => exact hd
  | cons c cs ih => exact ih (hd.call type c)

theorem lookup_call_of_not_touches (type : B → DataType) (c : Call B) {key : BufferSlotKey}
    (hkey : ¬c.touches type key) :
    (d.call type c).slots.lookup key = d.slots.lookup key := by
  cases c with
  | push cameraId bundle => exact DataBuffer.lookup_push_ne hkey
  | createSlot cameraId t => exact DataBuffer.lookup_createSlot_ne hkey
  | removeSlot cameraId t => exact AList.lookup_erase_ne hkey
  | removeAllSlots cameraId =>
    change (d.removeAllSlots cameraId).slots.lookup key = _
    rw [lookup_removeAllSlots]
    exact if_neg hkey
  | clearSlot cameraId t =>
    unfold DataBuffer.call DataBuffer.clearSlot
    dsimp only
    cases d.slots.lookup ⟨cameraId, t⟩ with
    | none => rfl
    | some r => exact AList.lookup_replace_ne _ hkey
  | clear => exact absurd trivial hkey

structure Recalls (capacity : ℕ) (d : DataBuffer B) (h : Histories B) : Prop where
  slotSize : ∀ cameraId t, (d.slotSize cameraId t).toNat =
    min ((h ⟨cameraId, t⟩).getD []).length capacity
  getLatest : ∀ cameraId t, d.getLatest cameraId t = ((h ⟨cameraId, t⟩).getD []).getLast?
  getLatestN : ∀ cameraId t count, d.getLatestN cameraId t count =
    (((h ⟨cameraId, t⟩).getD []).rtake
      (min count.toNat (d.slotSize cameraId t).toNat)).map some
  activeSlots_nodup : d.activeSlots.Nodup
  mem_activeSlots : ∀ key, key ∈ d.activeSlots ↔ (h key).isSome

theorem Keeps.recalls (hd : d.Keeps capacity h) : Recalls capacity d h where
  slotSize := by
    intro cameraId t
    unfold DataBuffer.slotSize
    rcases (hd.slots ⟨cameraId, t⟩).cases with ⟨hr, hh⟩ | ⟨r, hist, hr, hh, hkeeps, hcap⟩
    · rw [hr, hh]
      exact (Nat.zero_min _).symm
    · rw [hr, hh, ← hcap]
      exact hkeeps.size
  getLatest := by
    intro cameraId t
    unfold DataBuffer.getLatest
    rcases (hd.slots ⟨cameraId, t⟩).cases with ⟨hr, hh⟩ | ⟨r, hist, hr, hh, hkeeps, hcap⟩
    · rw [hr, hh]
      rfl
    · rw [hr, hh]
      exact hkeeps.getLatest
  getLatestN := by
    intro cameraId t count
    unfold DataBuffer.getLatestN DataBuffer.slotSize
    rcases (hd.slots ⟨cameraId, t⟩).cases with ⟨hr, hh⟩ | ⟨r, hist, hr, hh, hkeeps, hcap⟩
    · rw [hr, hh]
      simp
    · rw [hr, hh]
      change r.getLatestN count = (hist.rtake (min count.toNat r.size.toNat)).map some
      rw [hkeeps.size]
      exact hkeeps.getLatestN count
  activeSlots_nodup := d.slots.keys_nodup
  mem_activeSlots := by
    intro key
    change key ∈ d.slots.keys ↔ _
    rw [← AList.mem_keys, ← AList.lookup_isSome]
    rcases (hd.slots key).cases with ⟨hr, hh⟩ | ⟨r, hist, hr, hh, -⟩
    · rw [hr, hh]
      rfl
    · rw [hr, hh]
      rfl

/-- After any calls, a buffer of depth `n` answers from the most recent `P` bundles of each
key, where `P` is the least power of two from `n` on, and a call is only about its own keys. -/
theorem recalls_calls (type : B → DataType) {n : UInt64} (hn : n.toNat ≤ 2 ^ 32)
    (cs : List (Call B)) :
    ∃ P, IsLeast {p | p.isPowerOfTwo ∧ max n.toNat 1 ≤ p} P ∧
      Recalls P (cs.foldl (DataBuffer.call type) (mk' n)) (cs.foldl (record type) fun _ => none) ∧
      ∀ c key, ¬c.touches type key →
        ((cs ++ [c]).foldl (DataBuffer.call type) (mk' n)).slots.lookup key =
          (cs.foldl (DataBuffer.call type) (mk' n)).slots.lookup key := by
  refine ⟨_, PowerOfTwo.isLeast_two_pow_size n.toNat, ?_, ?_⟩
  · exact ((keeps_mk' (RingBuffer.toNat_nextPowerOfTwo hn)).calls type cs).recalls
  · intro c key hkey
    rw [List.foldl_append]
    exact lookup_call_of_not_touches type c hkey

/-- Three bundles in a buffer for two. -/
theorem recalls_calls_two :
    let cs : List (Call ℕ) := [.push "cam1" 7, .push "cam1" 8, .push "cam1" 9]
    let d := cs.foldl (DataBuffer.call fun _ => DataType.imu) (mk' 2)
    d.slotSize "cam1" .imu = 2 ∧ d.getLatestN "cam1" .imu 5 = [some 8, some 9] ∧
      ∃ P, IsLeast {p | p.isPowerOfTwo ∧ max (UInt64.toNat 2) 1 ≤ p} P ∧
        Recalls P d (cs.foldl (record fun _ => DataType.imu) fun _ => none) ∧
        ∀ c key, ¬c.touches (fun _ => DataType.imu) key →
          ((cs ++ [c]).foldl (DataBuffer.call fun _ => DataType.imu) (mk' 2)).slots.lookup key =
            d.slots.lookup key :=
  ⟨rfl, rfl, recalls_calls (fun _ => DataType.imu) (by decide) _⟩

end DataBuffer

end StereoCamera
