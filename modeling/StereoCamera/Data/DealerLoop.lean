import StereoCamera.Common.Std
import StereoCamera.Data.DataBuffer
import Mathlib.Control.Monad.Basic

/-! What `dealer_loop` (`data/SDKSlotManager.cpp`) makes of one multipart message. The three
groups are handled alike. `data_callback_`, which nothing sets, is left out. -/

namespace StereoCamera

/-- An exception ends the message; what was pushed before it stays. -/
abbrev BufferM := ExceptT JsonException (StateM (DataBuffer DataBundle))

/-- The loop over the parts of a header, from part `j` on, and over the payload frames; the
subscriber of the loopback has the same one. -/
def receiveParts (cameraId : String) (timestamp : Timestamp) (parts : Json) :
    ℕ → List Bytes → BufferM (List DataBundle)
  | _, [] => return []
  | j, payload :: payloads =>
    if j < parts.size then do
      let part ← parts.index j
      let id ← part.value "id" []
      let bundle : DataBundle := ⟨timestamp, Json.getDataType (.string id), payload⟩
      modify fun buffer => buffer.push cameraId bundle.type bundle
      return bundle :: (← receiveParts cameraId timestamp parts (j + 1) payloads)
    else return []

def NamesTypes (parts : List Json) (types : List DataType) : Prop :=
  List.Forall₂ (fun part t => part.value "id" [] = .ok (bytes (dataTypeToChannel t))) parts types

def pushAll (cameraId : String) (bundles : List DataBundle) (buffer : DataBuffer DataBundle) :
    DataBuffer DataBundle :=
  bundles.foldl (fun buffer b => buffer.push cameraId b.type b) buffer

/-- The `id` of part `j`; it is read outside of the inner `try`. -/
def partId (parts : Json) (j : ℕ) : Except JsonException Bytes := do
  let part ← parts.index j
  part.value "id" []

/-- The ids that the loop reads, with their payload frames, and what it throws. -/
def readParts (parts : Json) : ℕ → List Bytes → List (Bytes × Bytes) × Option JsonException
  | _, [] => ([], none)
  | j, payload :: payloads =>
    if j < parts.size then
      match partId parts j with
      | .error e => ([], some e)
      | .ok id =>
        let rest := readParts parts (j + 1) payloads
        ((id, payload) :: rest.1, rest.2)
    else ([], none)

def partBundle (timestamp : Timestamp) (part : Bytes × Bytes) : DataBundle :=
  ⟨timestamp, Json.getDataType (.string part.1), part.2⟩

def endsWith {ε α : Type} (a : α) : Option ε → Except ε α
  | none => .ok a
  | some e => .error e

section
variable {σ : Type} {parts : Json} {timestamp : Timestamp} {publish : σ → DataBundle → σ}
  {loop : ℕ → List Bytes → ExceptT JsonException (StateM σ) (List DataBundle)}

theorem run_partsLoop (hnil : ∀ j, loop j [] = pure [])
    (hcons : ∀ j payload payloads, loop j (payload :: payloads) =
      if j < parts.size then do
        let part ← parts.index j
        let id ← part.value "id" []
        modify fun s => publish s (partBundle timestamp (id, payload))
        return partBundle timestamp (id, payload) :: (← loop (j + 1) payloads)
      else pure []) (j : ℕ) (payloads : List Bytes) (s : σ) :
    (loop j payloads).run.run s =
      (endsWith ((readParts parts j payloads).1.map (partBundle timestamp))
          (readParts parts j payloads).2,
        ((readParts parts j payloads).1.map (partBundle timestamp)).foldl publish s) := by
  induction payloads generalizing j s with
  | nil =>
    rw [hnil]
    rfl
  | cons payload payloads ih =>
    rw [hcons]
    unfold readParts
    by_cases hj : j < parts.size
    · rw [if_pos hj, if_pos hj]
      rcases hpart : parts.index j with e | part
      · rw [partId, hpart]
        rfl
      · rcases hid : part.value "id" [] with e | id
        · rw [partId, hpart, ok_bind, hid, run_liftM_ok_bind, hid]
          rfl
        · rw [partId, hpart, ok_bind, hid, run_liftM_ok_bind, hid, run_liftM_ok_bind]
          dsimp only
          rw [run_modify_bind]
          have hnext := ih (j + 1) (publish s (partBundle timestamp (id, payload)))
          rcases hthrown : (readParts parts (j + 1) payloads).2 with _ | e
          · rw [hthrown] at hnext
            rw [run_bind_of_ok hnext]
            rfl
          · rw [hthrown] at hnext
            rw [run_bind_of_error hnext]
            rfl
    · rw [if_neg hj, if_neg hj]
      rfl

end

theorem run_receiveParts_eq (cameraId : String) (timestamp : Timestamp) (parts : Json) (j : ℕ)
    (payloads : List Bytes) (buffer : DataBuffer DataBundle) :
    (receiveParts cameraId timestamp parts j payloads).run.run buffer =
      (endsWith ((readParts parts j payloads).1.map (partBundle timestamp))
          (readParts parts j payloads).2,
        pushAll cameraId ((readParts parts j payloads).1.map (partBundle timestamp)) buffer) :=
  run_partsLoop (fun _ => rfl) (fun _ _ _ => rfl) j payloads buffer

theorem readParts_of_namesTypes (earlier : List Json) {parts : List Json} {types : List DataType}
    {payloads : List Bytes} (hparts : NamesTypes parts types)
    (hlength : payloads.length = types.length) :
    readParts (.array (earlier ++ parts)) earlier.length payloads =
      ((types.map fun t => bytes (dataTypeToChannel t)).zip payloads, none) := by
  induction hparts generalizing earlier payloads with
  | nil =>
    rw [List.length_eq_zero_iff.mp hlength]
    rfl
  | @cons part t parts types hid hrest ih =>
    obtain ⟨payload, payloads, rfl⟩ := List.exists_cons_of_length_eq_add_one hlength
    have hj : earlier.length < (Json.array (earlier ++ part :: parts)).size := by
      simp [Json.size]
    have hpart : partId (.array (earlier ++ part :: parts)) earlier.length =
        .ok (bytes (dataTypeToChannel t)) := by
      have hindex : (Json.array (earlier ++ part :: parts)).index earlier.length = .ok part := by
        simp [Json.index]
      rw [partId, hindex, ok_bind, hid]
    have hnext := ih (earlier ++ [part]) (Nat.succ.inj hlength)
    rw [List.append_assoc, List.length_append, List.singleton_append] at hnext
    change readParts _ (earlier.length + 1) payloads = _ at hnext
    rw [readParts, if_pos hj, hpart]
    dsimp only
    rw [hnext]
    rfl

theorem run_receiveParts (cameraId : String) (timestamp : Timestamp) (earlier : List Json)
    {parts : List Json} (bundles : List DataBundle)
    (hts : ∀ b ∈ bundles, b.timestamp = timestamp)
    (hparts : NamesTypes parts (bundles.map (·.type))) (buffer : DataBuffer DataBundle) :
    (receiveParts cameraId timestamp (.array (earlier ++ parts)) earlier.length
      (bundles.map (·.payload))).run.run buffer =
        (.ok bundles, pushAll cameraId bundles buffer) := by
  have hlength : (bundles.map (·.payload)).length = (bundles.map (·.type)).length := by
    rw [List.length_map, List.length_map]
  have hread := readParts_of_namesTypes earlier hparts hlength
  have hbundles : ((readParts (.array (earlier ++ parts)) earlier.length
      (bundles.map (·.payload))).1.map (partBundle timestamp)) = bundles := by
    rw [hread]
    dsimp only
    rw [List.map_map, List.zip_map', List.map_map]
    conv_rhs => rw [← List.map_id bundles]
    apply List.map_congr_left
    intro b hb
    simp [partBundle, Json.getDataType_channel, ← hts b hb]
  rw [run_receiveParts_eq, hbundles, hread]
  rfl

/-- The sockets whose messages go on to the pipeline, by the name of their channel. -/
def socketGroup (grp : String) : Option DataGroup :=
  if grp = "visual_2d" then some .visualGeometric2D
  else if grp = "visual_3d" then some .visualGeometric3D
  else if grp = "sensor_data" then some .sensorTracking
  else none

/-- The frame, and the queue of the pipeline that it is pushed into. -/
def dealerReceive (parse : Bytes → Except JsonException Json) (cameraId grp : String)
    (zparts : List Bytes) : BufferM (Option (DataGroup × ChannelFrame)) :=
  match zparts with
  | [] => return none
  | hdrStr :: payloads => do
    let hdr ← parse hdrStr
    let active ← hdr.valueWith Json.getBool "active" true
    if !active then return none
    let parts ← hdr.indexKey "parts"
    match socketGroup grp with
    | none => return none
    | some group =>
      -- The default is the `int` zero, so both are read as `int`.
      let sec ← hdr.valueWith Json.getInt "ts_sec" 0
      let nsec ← hdr.valueWith Json.getInt "ts_nsec" 0
      let timestamp : Timestamp := ⟨sec.toInt64, nsec.toInt64⟩
      let bundles ← receiveParts cameraId timestamp parts 0 payloads
      if bundles.isEmpty then return none
      else return some (group, ⟨cameraId, timestamp, bundles⟩)

/-- What the dealer takes from the first frame before it goes through the parts; nothing of an
inactive message, or on another socket. -/
def readHeader (parse : Bytes → Except JsonException Json) (grp : String) (hdrStr : Bytes) :
    Except JsonException (Option (DataGroup × Timestamp × Json)) := do
  let hdr ← parse hdrStr
  let active ← hdr.valueWith Json.getBool "active" true
  if !active then return none
  let parts ← hdr.indexKey "parts"
  match socketGroup grp with
  | none => return none
  | some group =>
    let sec ← hdr.valueWith Json.getInt "ts_sec" 0
    let nsec ← hdr.valueWith Json.getInt "ts_nsec" 0
    return some (group, ⟨sec.toInt64, nsec.toInt64⟩, parts)

end StereoCamera
