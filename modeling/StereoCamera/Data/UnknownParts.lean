import StereoCamera.Data.DealerMessage

/-! Names that are none of the nine, in the parts of a message. `get<DataType>` does not fail on
them, so they are taken for the first type. -/

namespace StereoCamera

namespace Json

def IsTypeName (j : Json) : Prop := ∃ t, j = .string (bytes (dataTypeToChannel t))

theorem getDataType_of_not_typeName {j : Json} (h : ¬j.IsTypeName) :
    getDataType j = .stereoImage := by
  cases j with
  | string s =>
    have hnone : ([.stereoImage, .depthMap, .pointCloud, .imu, .disparityMap, .confidenceMap,
        .temperature, .magnetometer, .barometer].find?
          fun t => bytes (dataTypeToChannel t) = s) = none := by
      rw [List.find?_eq_none]
      intro t _ ht
      rw [decide_eq_true_eq] at ht
      exact h ⟨t, congrArg Json.string ht.symm⟩
    rw [getDataType, hnone]
    rfl
  | _ => rfl

theorem isTypeName_string_iff {id : Bytes} :
    IsTypeName (.string id) ↔ bytes (dataTypeToChannel (getDataType (.string id))) = id := by
  constructor
  · rintro ⟨t, ht⟩
    rw [ht, getDataType_channel]
    exact (Json.string.inj ht).symm
  · intro h
    exact ⟨_, congrArg Json.string h.symm⟩

end Json

namespace DealerSide

/-- The bundle of a part whose id is one of the nine names. -/
def knownBundle (timestamp : Timestamp) (part : Bytes × Bytes) : Option DataBundle :=
  if bytes (dataTypeToChannel (Json.getDataType (.string part.1))) = part.1 then
    some (partBundle timestamp part)
  else none

/-- What handling the message does if the parts with other ids are skipped. -/
def handleKnown (parse : Bytes → Except JsonException Json) (cameraId grp : String)
    (s : DealerSide) : List Bytes → DealerSide
  | [] => s
  | hdrStr :: payloads =>
    match readHeader parse grp hdrStr with
    | .ok (some (group, timestamp, parts)) =>
      let read := readParts parts 0 payloads
      let known := read.1.filterMap (knownBundle timestamp)
      let s := s.publish cameraId known
      match read.2 with
      | some _ => s
      | none => s.queueFrame group ⟨cameraId, timestamp, known⟩
    | _ => s

def PartsKnown (parse : Bytes → Except JsonException Json) (grp : String) : List Bytes → Prop
  | [] => True
  | hdrStr :: payloads =>
    ∀ group timestamp parts, readHeader parse grp hdrStr = .ok (some (group, timestamp, parts)) →
      ∀ part ∈ (readParts parts 0 payloads).1, (Json.string part.1).IsTypeName

theorem knownBundle_of_typeName {timestamp : Timestamp} {part : Bytes × Bytes}
    (h : (Json.string part.1).IsTypeName) :
    knownBundle timestamp part = some (partBundle timestamp part) :=
  if_pos (Json.isTypeName_string_iff.mp h)

theorem knownBundle_of_not_typeName {timestamp : Timestamp} {part : Bytes × Bytes}
    (h : ¬(Json.string part.1).IsTypeName) : knownBundle timestamp part = none :=
  if_neg fun hname => h (Json.isTypeName_string_iff.mpr hname)

theorem filterMap_knownBundle_iff {timestamp : Timestamp} {read : List (Bytes × Bytes)} :
    read.filterMap (knownBundle timestamp) = read.map (partBundle timestamp) ↔
      ∀ part ∈ read, (Json.string part.1).IsTypeName := by
  induction read with
  | nil => simp
  | cons part read ih =>
    rw [List.map_cons, List.forall_mem_cons, ← ih]
    by_cases hname : (Json.string part.1).IsTypeName
    · rw [List.filterMap_cons_some (knownBundle_of_typeName hname), List.cons_inj_right,
        and_iff_right hname]
    · rw [List.filterMap_cons_none (knownBundle_of_not_typeName hname)]
      apply iff_of_false
      · intro heq
        have hlen := congrArg List.length heq
        have hle := List.length_filterMap_le (knownBundle timestamp) read
        rw [List.length_cons, List.length_map] at hlen
        omega
      · exact fun h => hname h.1

section
variable {parse : Bytes → Except JsonException Json} {cameraId grp : String} {hdrStr : Bytes}
  {payloads : List Bytes} {s : DealerSide} {group : DataGroup} {timestamp : Timestamp}
  {parts : Json}

theorem handleKnown_of_header
    (h : readHeader parse grp hdrStr = .ok (some (group, timestamp, parts))) :
    let known := (readParts parts 0 payloads).1.filterMap (knownBundle timestamp)
    handleKnown parse cameraId grp s (hdrStr :: payloads) =
      match (readParts parts 0 payloads).2 with
      | some _ => s.publish cameraId known
      | none => (s.publish cameraId known).queueFrame group ⟨cameraId, timestamp, known⟩ := by
  unfold handleKnown
  dsimp only
  rw [h]

theorem pushed_handleKnown
    (h : readHeader parse grp hdrStr = .ok (some (group, timestamp, parts))) :
    (handleKnown parse cameraId grp s (hdrStr :: payloads)).pushed =
      s.pushed ++ (readParts parts 0 payloads).1.filterMap (knownBundle timestamp) := by
  rw [handleKnown_of_header h]
  cases (readParts parts 0 payloads).2 with
  | none => exact (queueFrame_pushed _ _ _).trans (publish_pushed _ _ _)
  | some e => exact publish_pushed _ _ _

end

theorem handleMessage_eq_handleKnown_iff (parse : Bytes → Except JsonException Json)
    (cameraId grp : String) (zparts : List Bytes) (s : DealerSide) :
    ((handleMessage parse cameraId grp zparts).run.run s).2 =
        handleKnown parse cameraId grp s zparts ↔
      PartsKnown parse grp zparts := by
  rcases zparts with _ | ⟨hdrStr, payloads⟩
  · exact iff_of_true rfl trivial
  unfold PartsKnown
  rcases hheader : readHeader parse grp hdrStr with e | _ | ⟨group, timestamp, parts⟩
  · rw [run_handleMessage_of_bad_header hheader, handleKnown, hheader]
    exact iff_of_true rfl fun _ _ _ h => nomatch hheader.symm.trans h
  · rw [run_handleMessage_of_ignored hheader, handleKnown, hheader]
    exact iff_of_true rfl fun _ _ _ h => nomatch hheader.symm.trans h
  have hbundles : messageBundles parse grp (hdrStr :: payloads) =
      (readParts parts 0 payloads).1.map (partBundle timestamp) := by
    rw [messageBundles, hheader]
  constructor
  · intro heq group' timestamp' parts' hheader'
    cases hheader.symm.trans hheader'
    have hpushed := congrArg DealerSide.pushed heq
    rw [(handleMessage_effect _).1, pushed_handleKnown hheader, hbundles,
      List.append_cancel_left_eq] at hpushed
    exact filterMap_knownBundle_iff.mp hpushed.symm
  · intro hknown
    have hsame : (readParts parts 0 payloads).1.filterMap (knownBundle timestamp) =
        (readParts parts 0 payloads).1.map (partBundle timestamp) :=
      filterMap_knownBundle_iff.mpr (hknown group timestamp parts hheader)
    rw [run_handleMessage_of_header hheader, handleKnown_of_header hheader, hbundles, hsame]
    cases (readParts parts 0 payloads).2 with
    | none => rfl
    | some e => rfl

end DealerSide

end StereoCamera
