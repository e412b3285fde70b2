import StereoCamera.Common.Std
import StereoCamera.Data.ConfigManager
import StereoCamera.Lib.BigEndian
import StereoCamera.Lib.PartialIO

/-! Bundles in files (`data/DataStorage.cpp`): the length of a JSON header in four bytes, the
header, and the payload. Memory for what is resized is there, up to the size that a `vector`
can have. -/

namespace StereoCamera

open PartialIO

/-- `j[key].get<T>()`, where `get` makes a `T` of what is found. -/
def Json.indexAs {α : Type} (get : Json → Except JsonException α) (j : Json) (key : String) :
    Except StdException α := do
  let v ← (j.indexKey key).mapError .json
  (get v).mapError .json

structure FileStorage where
  baseDir : String

namespace FileStorage

def fullPath (storage : FileStorage) (path : String) : String := storage.baseDir ++ "/" ++ path

def header (bundle : DataBundle) : Json :=
  .object [("data_type", .string (bytes (dataTypeToChannel bundle.type))),
    ("payload_size", .integer bundle.payload.length),
    ("timestamp_nsec", .integer bundle.timestamp.nsec.toInt),
    ("timestamp_sec", .integer bundle.timestamp.sec.toInt)]

def sizeBytes (n : UInt32) : Bytes := (BigEndian.toBytes 4 n.toNat).reverse

def sizeOfBytes (bs : Bytes) : ℕ := BigEndian.ofBytes bs.reverse

/-- The directories that the path needs can be created. -/
def save (print : Json → Bytes) (storage : FileStorage) (fs : FileSystem) (path : String)
    (bundle : DataBundle) : Except JsonException Bool × FileSystem :=
  if ¬fs.writable (storage.fullPath path) then (.ok false, fs)
  else
    match (header bundle).dump print with
    | .error e => (.error e, fs.write (storage.fullPath path) [])
    | .ok jsonStr =>
      let jsonSize := UInt32.ofNat jsonStr.length
      (.ok true, fs.write (storage.fullPath path)
        (sizeBytes jsonSize ++ jsonStr.take jsonSize.toNat ++ bundle.payload))

abbrev LoadM := ExceptT StdException (StateM DataBundle)

/-- The largest `std::vector<uint8_t>`. -/
def maxSize : ℕ := 2 ^ 63 - 1

/-- `payload.resize(n)`: what was there stays, and what is new is 0. -/
def resize (payload : Bytes) (n : ℕ) : Except StdException Bytes :=
  if maxSize < n then .error .lengthError
  else .ok (payload.take n ++ List.replicate (n - payload.length) 0)

/-- What follows once there is a header; the fields are assigned one by one. -/
def readBundle (j : Json) (file : InputStream UInt8) : LoadM Bool := do
  let sec ← j.indexAs Json.getInt64 "timestamp_sec"
  modify fun bundle => { bundle with timestamp.sec := sec }
  let nsec ← j.asObject.indexAs Json.getInt64 "timestamp_nsec"
  modify fun bundle => { bundle with timestamp.nsec := nsec }
  let type ← j.asObject.indexAs (fun v => .ok v.getDataType) "data_type"
  modify fun bundle => { bundle with type := type }
  let payloadSize ← j.asObject.indexAs Json.getSize "payload_size"
  let payload ← resize (← get).payload payloadSize.toNat
  modify fun bundle =>
    { bundle with payload := overwrite payload (file.read payloadSize.toNat).1 }
  return true

/-- `garbage` is in `json_size` before it is read. -/
def jsonSize (garbage : Vector UInt8 4) (content : Bytes) : ℕ :=
  sizeOfBytes (overwrite garbage.toList ((InputStream.opened content).read 4).1)

/-- `json_str`, which is filled with zeros before it is read. -/
def jsonStr (garbage : Vector UInt8 4) (content : Bytes) : Bytes :=
  overwrite (List.replicate (jsonSize garbage content) 0)
    (((InputStream.opened content).read 4).2.read (jsonSize garbage content)).1

def load (parse : Bytes → Except JsonException Json) (garbage : Vector UInt8 4)
    (storage : FileStorage) (fs : FileSystem) (path : String) (bundle : DataBundle) :
    Except StdException Bool × DataBundle :=
  match fs.contents (storage.fullPath path) with
  | none => (.ok false, bundle)
  | some content =>
    let file := (((InputStream.opened content).read 4).2.read (jsonSize garbage content)).2
    match parse (jsonStr garbage content) with
    | .error _ => (.ok false, bundle)
    | .ok j => (readBundle j file).run.run bundle

/-! ### What is read of a file -/

theorem length_sizeBytes (n : UInt32) : (sizeBytes n).length = 4 := by
  rw [sizeBytes, List.length_reverse, BigEndian.length_toBytes]

theorem sizeOfBytes_sizeBytes (n : UInt32) : sizeOfBytes (sizeBytes n) = n.toNat := by
  rw [sizeOfBytes, sizeBytes, List.reverse_reverse, BigEndian.ofBytes_toBytes]
  exact Nat.mod_eq_of_lt n.toNat_lt

section
variable {j : Json} {file : InputStream UInt8}

theorem exists_object_of_item {α : Type} {get : Json → Except JsonException α} {key : String}
    {v : α} (hnull : ∀ v, get .null ≠ .ok v) (h : get (j.item key) = .ok v) :
    ∃ members, j = .object members := by
  cases j with
  | object members => exact ⟨members, rfl⟩
  | _ => exact absurd h (hnull v)

theorem indexAs_ok_iff {α : Type} {get : Json → Except JsonException α} {key : String} {v : α}
    (hnull : ∀ v, get .null ≠ .ok v) :
    j.indexAs get key = .ok v ↔ get (j.item key) = .ok v := by
  -- A key that is missing is a null, and so is every key of what is no object.
  have hget : ∀ w : Json, (get w).mapError StdException.json = .ok v ↔ get w = .ok v := by
    intro w
    cases get w <;> simp [Except.mapError]
  cases j with
  | object members => exact hget _
  | null => exact hget .null
  | _ => exact iff_of_false nofun (hnull v)

theorem getInt64_null (v : Int64) : Json.getInt64 .null ≠ .ok v := nofun

theorem getSize_null (v : UInt64) : Json.getSize .null ≠ .ok v := nofun

/-- The header gives a time, and a size that a `vector` can have. -/
structure Gives (j : Json) (sec nsec : Int64) (n : UInt64) : Prop where
  sec : (j.item "timestamp_sec").getInt64 = .ok sec
  nsec : (j.item "timestamp_nsec").getInt64 = .ok nsec
  size : (j.item "payload_size").getSize = .ok n
  le : n.toNat ≤ maxSize

theorem run_readBundle_of_gives {sec nsec : Int64} {n : UInt64} (h : Gives j sec nsec n)
    (bundle : DataBundle) :
    (readBundle j file).run.run bundle = (.ok true,
      ⟨⟨sec, nsec⟩, (j.item "data_type").getDataType,
        overwrite (bundle.payload.take n.toNat ++
          List.replicate (n.toNat - bundle.payload.length) 0) (file.left.take n.toNat)⟩) := by
  obtain ⟨members, rfl⟩ := exists_object_of_item getInt64_null h.sec
  have hsec := (indexAs_ok_iff getInt64_null).mpr h.sec
  have hnsec := (indexAs_ok_iff getInt64_null).mpr h.nsec
  have hsize := (indexAs_ok_iff getSize_null).mpr h.size
  have htype : (Json.object members).indexAs (fun v => .ok v.getDataType) "data_type" =
      .ok ((Json.object members).item "data_type").getDataType := rfl
  have hresize : resize bundle.payload n.toNat = .ok (bundle.payload.take n.toNat ++
      List.replicate (n.toNat - bundle.payload.length) 0) := if_neg (Nat.not_lt.mpr h.le)
  unfold readBundle
  rw [hsec, run_liftM_ok_bind, run_modify_bind]
  dsimp only [Json.asObject]
  rw [hnsec, run_liftM_ok_bind, run_modify_bind, htype, run_liftM_ok_bind, run_modify_bind, hsize,
    run_liftM_ok_bind, run_get_bind]
  dsimp only
  rw [hresize, run_liftM_ok_bind, run_modify_bind, InputStream.read_fst]
  rfl

theorem run_readBundle_of_not (h : ∀ sec nsec n, ¬Gives j sec nsec n) (bundle : DataBundle) :
    ∃ e bundle', (readBundle j file).run.run bundle = (.error e, bundle') := by
  unfold readBundle
  rcases hsec : j.indexAs Json.getInt64 "timestamp_sec" with e | sec
  · exact ⟨e, _, rfl⟩
  rw [run_liftM_ok_bind, run_modify_bind]
  obtain ⟨members, rfl⟩ :=
    exists_object_of_item getInt64_null ((indexAs_ok_iff getInt64_null).mp hsec)
  dsimp only [Json.asObject]
  rcases hnsec : (Json.object members).indexAs Json.getInt64 "timestamp_nsec" with e | nsec
  · exact ⟨e, _, rfl⟩
  rw [run_liftM_ok_bind, run_modify_bind]
  have htype : (Json.object members).indexAs (fun v => .ok v.getDataType) "data_type" =
      .ok ((Json.object members).item "data_type").getDataType := rfl
  rw [htype, run_liftM_ok_bind, run_modify_bind]
  rcases hsize : (Json.object members).indexAs Json.getSize "payload_size" with e | n
  · exact ⟨e, _, rfl⟩
  rw [run_liftM_ok_bind]
  -- The last that can go wrong is the size itself.
  have hlarge : maxSize < n.toNat := by
    by_contra hle
    exact h sec nsec n ⟨(indexAs_ok_iff getInt64_null).mp hsec,
      (indexAs_ok_iff getInt64_null).mp hnsec, (indexAs_ok_iff getSize_null).mp hsize,
      Nat.le_of_not_lt hle⟩
  have hresize : ∀ payload, resize payload n.toNat = .error .lengthError :=
    fun payload => if_pos hlarge
  rw [run_get_bind, hresize]
  exact ⟨.lengthError, _, rfl⟩

end

/-! ### Saving and loading -/

theorem gives_header {bundle : DataBundle} (h : bundle.payload.length < 2 ^ 63) :
    Gives (header bundle) bundle.timestamp.sec bundle.timestamp.nsec
      (UInt64.ofNat bundle.payload.length) where
  sec := congrArg Except.ok (Int64.ofInt_toInt _)
  nsec := congrArg Except.ok (Int64.ofInt_toInt _)
  size := by
    have hmod : (bundle.payload.length : ℤ) % 2 ^ 64 = bundle.payload.length :=
      Int.emod_eq_of_lt (Int.natCast_nonneg _) (by omega)
    refine congrArg Except.ok ?_
    rw [UInt64.ofInt, hmod, Int.toNat_natCast]
  le := by
    have hlt : bundle.payload.length < UInt64.size := h.trans (by decide)
    rw [UInt64.toNat_ofNat_of_lt' hlt]
    exact Nat.le_sub_one_of_lt h

section
variable {garbage : Vector UInt8 4} {text payload : Bytes}

theorem jsonSize_append (htext : text.length < 2 ^ 32) :
    jsonSize garbage (sizeBytes (UInt32.ofNat text.length) ++ text ++ payload) = text.length := by
  have hread : (sizeBytes (UInt32.ofNat text.length) ++ text ++ payload).take 4 =
      sizeBytes (UInt32.ofNat text.length) := by
    rw [List.append_assoc]
    exact List.take_left' (length_sizeBytes _)
  rw [jsonSize, InputStream.read_fst, InputStream.left_opened, hread,
    overwrite_of_length_le (garbage.length_toList.trans (length_sizeBytes _).symm).le,
    sizeOfBytes_sizeBytes]
  exact UInt32.toNat_ofNat_of_lt' htext

theorem drop_sizeBytes (n : UInt32) :
    (sizeBytes n ++ text ++ payload).drop 4 = text ++ payload := by
  rw [List.append_assoc]
  exact List.drop_left' (length_sizeBytes n)

theorem jsonStr_append (htext : text.length < 2 ^ 32) :
    jsonStr garbage (sizeBytes (UInt32.ofNat text.length) ++ text ++ payload) = text := by
  rw [jsonStr, jsonSize_append htext, InputStream.read_fst, InputStream.left_read,
    InputStream.left_opened, drop_sizeBytes, List.take_left]
  exact overwrite_of_length_le (by rw [List.length_replicate])

end

theorem load_eq {parse : Bytes → Except JsonException Json} {garbage : Vector UInt8 4}
    {storage : FileStorage} {fs : FileSystem} {path : String} {content : Bytes} {j : Json}
    (hfile : fs.contents (storage.fullPath path) = some content)
    (hparse : parse (jsonStr garbage content) = .ok j) (bundle : DataBundle) :
    ∃ file : InputStream UInt8, file.left = content.drop (4 + jsonSize garbage content) ∧
      storage.load parse garbage fs path bundle = (readBundle j file).run.run bundle := by
  refine ⟨(((InputStream.opened content).read 4).2.read (jsonSize garbage content)).2, ?_, ?_⟩
  · rw [InputStream.left_read, InputStream.left_read, InputStream.left_opened, List.drop_drop]
  · unfold load
    rw [hfile]
    dsimp only
    rw [hparse]

/-- What is saved is loaded, whatever the bundle held that it is loaded into. -/
theorem load_of_save {parse : Bytes → Except JsonException Json} {print : Json → Bytes}
    (storage : FileStorage) {fs : FileSystem} {path : String} {bundle : DataBundle}
    (hpayload : bundle.payload.length < 2 ^ 63)
    (hlossless : parse (print (header bundle)) = .ok (header bundle))
    (hshort : (print (header bundle)).length < 2 ^ 32)
    (hwritable : fs.writable (storage.fullPath path) = true)
    (garbage : Vector UInt8 4) (target : DataBundle) :
    ∃ fs', storage.save print fs path bundle = (.ok true, fs') ∧
      storage.load parse garbage fs' path target = (.ok true, bundle) := by
  have hvalid : (header bundle).ValidUtf8 :=
    ⟨Utf8.valid_encode _, trivial, trivial, trivial, trivial⟩
  have hdump : (header bundle).dump print = .ok (print (header bundle)) := if_pos hvalid
  have hopens : ¬¬fs.writable (storage.fullPath path) = true := not_not_intro hwritable
  have hwhole : (print (header bundle)).take (UInt32.ofNat (print (header bundle)).length).toNat =
      print (header bundle) := by
    rw [UInt32.toNat_ofNat_of_lt' hshort, List.take_length]
  have hparse := hlossless
  rw [← @jsonStr_append garbage _ bundle.payload hshort] at hparse
  let content := sizeBytes (UInt32.ofNat (print (header bundle)).length) ++ print (header bundle) ++
    bundle.payload
  have hfile : (fs.write (storage.fullPath path) content).contents (storage.fullPath path) =
      some content := Function.update_self _ _ _
  refine ⟨fs.write (storage.fullPath path) content, ?_, ?_⟩
  · unfold save
    rw [if_neg hopens, hdump]
    dsimp only
    rw [hwhole]
  · obtain ⟨file, hleft, hload⟩ := load_eq hfile hparse target
    rw [jsonSize_append hshort, ← List.drop_drop, drop_sizeBytes, List.drop_left] at hleft
    have hsize : (UInt64.ofNat bundle.payload.length).toNat = bundle.payload.length :=
      UInt64.toNat_ofNat_of_lt' (hpayload.trans (by decide))
    have hfill : ∀ old : Bytes, overwrite (old.take bundle.payload.length ++
        List.replicate (bundle.payload.length - old.length) 0) bundle.payload = bundle.payload := by
      intro old
      refine overwrite_of_length_le ?_
      rw [List.length_append, List.length_take, List.length_replicate]
      omega
    refine hload.trans ?_
    rw [run_readBundle_of_gives (gives_header hpayload), hsize, hleft, List.take_length, hfill]
    congr 3
    exact Json.getDataType_channel bundle.type

def imuBundle : DataBundle := ⟨⟨5, 7⟩, .imu, [1, 2, 3]⟩

def imuHeader : Bytes :=
  bytes ("\x7b\"data_type\":\"imu\",\"payload_size\":3,\"timestamp_nsec\":7," ++
    "\"timestamp_sec\":5\x7d")

/-- The library on the header of that bundle, and on nothing else. -/
def parseImuHeader (text : Bytes) : Except JsonException Json :=
  if text = imuHeader then .ok (header imuBundle) else .error (.parseError text)

theorem load_of_save_imu :
    ∃ fs', (⟨"data"⟩ : FileStorage).save (fun _ => imuHeader) ⟨fun _ => none, fun _ => true⟩
        "imu.bin" imuBundle = (.ok true, fs') ∧
      (⟨"data"⟩ : FileStorage).load parseImuHeader #v[9, 9, 9, 9] fs' "imu.bin"
        ⟨⟨0, 0⟩, .stereoImage, [4, 4, 4, 4, 4]⟩ = (.ok true, imuBundle) :=
  load_of_save ⟨"data"⟩ (by decide) (if_pos rfl) (by decide) rfl _ _

end FileStorage

end StereoCamera
