import StereoCamera.Data.DataPipeline
import StereoCamera.Data.DealerLoop
import StereoCamera.Data.SPSCQueueCalls

/-! Everything that `dealer_loop` does with one multipart message, and what is left of it when
the handling ends in the `catch` branch. -/

namespace StereoCamera

/-- The pipeline, as one call of the dealer sees it; waking `pub_loop` is left out. -/
structure PipelineSide where
  queues : DataGroup → DataPipeline.FrameQ
  totalPushed : UInt64
  totalDropped : UInt64

namespace PipelineSide

def tryPush (p : PipelineSide) (group : DataGroup) (frame : ChannelFrame) : PipelineSide :=
  let (queue, pushed) := (p.queues group).callTryPush frame
  { queues := Function.update p.queues group queue
    totalPushed := if pushed then p.totalPushed + 1 else p.totalPushed
    totalDropped := if pushed then p.totalDropped else p.totalDropped + 1 }

end PipelineSide

/-- What the dealer of a camera reaches, with the calls made so far. -/
structure DealerSide where
  buffer : DataBuffer DataBundle
  pipeline : Option PipelineSide
  hasCallback : Bool
  pushed : List DataBundle
  /-- What `data_callback_` was given. -/
  called : List DataBundle

abbrev DealerM := ExceptT JsonException (StateM DealerSide)

namespace DealerSide

def push (s : DealerSide) (cameraId : String) (b : DataBundle) : DealerSide :=
  { s with buffer := s.buffer.push cameraId b.type b, pushed := s.pushed ++ [b] }

def callBack (s : DealerSide) (b : DataBundle) : DealerSide :=
  if s.hasCallback then { s with called := s.called ++ [b] } else s

def queueFrame (s : DealerSide) (group : DataGroup) (frame : ChannelFrame) : DealerSide :=
  if frame.bundles.isEmpty then s
  else { s with pipeline := s.pipeline.map fun p => p.tryPush group frame }

def handleParts (cameraId : String) (timestamp : Timestamp) (parts : Json) :
    ℕ → List Bytes → DealerM (List DataBundle)
  | _, [] => return []
  | j, payload :: payloads =>
    if j < parts.size then do
      let part ← parts.index j
      let id ← part.value "id" []
      let b : DataBundle := ⟨timestamp, Json.getDataType (.string id), payload⟩
      modify fun s => (s.push cameraId b).callBack b
      return b :: (← handleParts cameraId timestamp parts (j + 1) payloads)
    else return []

/-- The body of the `try` block. -/
def handleMessage (parse : Bytes → Except JsonException Json) (cameraId grp : String)
    (zparts : List Bytes) : DealerM Unit :=
  match zparts with
  | [] => return ()
  | hdrStr :: payloads => do
    match ← readHeader parse grp hdrStr with
    | none => return ()
    | some (group, timestamp, parts) =>
      let bundles ← handleParts cameraId timestamp parts 0 payloads
      modify fun s => s.queueFrame group ⟨cameraId, timestamp, bundles⟩

def publish (s : DealerSide) (cameraId : String) (bundles : List DataBundle) : DealerSide :=
  bundles.foldl (fun s b => (s.push cameraId b).callBack b) s

section
variable (s : DealerSide) (cameraId : String) (bundles : List DataBundle)

theorem queueFrame_buffer (group : DataGroup) (frame : ChannelFrame) :
    (s.queueFrame group frame).buffer = s.buffer := by
  unfold queueFrame
  split_ifs <;> rfl

theorem queueFrame_pushed (group : DataGroup) (frame : ChannelFrame) :
    (s.queueFrame group frame).pushed = s.pushed := by
  unfold queueFrame
  split_ifs <;> rfl

@[simp] theorem callBack_buffer (b : DataBundle) : (s.callBack b).buffer = s.buffer := by
  unfold callBack
  split_ifs <;> rfl

@[simp] theorem callBack_pushed (b : DataBundle) : (s.callBack b).pushed = s.pushed := by
  unfold callBack
  split_ifs <;> rfl

@[simp] theorem callBack_pipeline (b : DataBundle) : (s.callBack b).pipeline = s.pipeline := by
  unfold callBack
  split_ifs <;> rfl

theorem publish_buffer :
    (s.publish cameraId bundles).buffer = pushAll cameraId bundles s.buffer := by
  unfold publish
  induction bundles generalizing s with
  | nil => rfl
  | cons b bundles ih =>
    rw [List.foldl_cons, ih, callBack_buffer]
    rfl

theorem publish_pushed : (s.publish cameraId bundles).pushed = s.pushed ++ bundles := by
  unfold publish
  induction bundles generalizing s with
  | nil => exact (List.append_nil _).symm
  | cons b bundles ih =>
    rw [List.foldl_cons, ih, callBack_pushed, push, List.append_assoc, List.singleton_append]

theorem run_handleParts (timestamp : Timestamp) (parts : Json) (j : ℕ) (payloads : List Bytes) :
    (handleParts cameraId timestamp parts j payloads).run.run s =
      (endsWith ((readParts parts j payloads).1.map (partBundle timestamp))
          (readParts parts j payloads).2,
        s.publish cameraId ((readParts parts j payloads).1.map (partBundle timestamp))) :=
  run_partsLoop (fun _ => rfl) (fun _ _ _ => rfl) j payloads s

end

/-- The `id` of part `j` cannot be read: it is no string, say, or the part no object. -/
def PartThrows (parts : Json) (j : ℕ) : Prop := ∃ e, partId parts j = .error e

def messageBundles (parse : Bytes → Except JsonException Json) (grp : String) :
    List Bytes → List DataBundle
  | [] => []
  | hdrStr :: payloads =>
    match readHeader parse grp hdrStr with
    | .ok (some (_, timestamp, parts)) =>
      (readParts parts 0 payloads).1.map (partBundle timestamp)
    | _ => []

section
variable {parse : Bytes → Except JsonException Json} {cameraId grp : String} {hdrStr : Bytes}
  {payloads : List Bytes} {s : DealerSide} {e : JsonException} {group : DataGroup}
  {timestamp : Timestamp} {parts : Json}

theorem run_handleMessage_of_bad_header (h : readHeader parse grp hdrStr = .error e) :
    (handleMessage parse cameraId grp (hdrStr :: payloads)).run.run s = (.error e, s) := by
  unfold handleMessage
  dsimp only
  rw [h]
  rfl

theorem run_handleMessage_of_ignored (h : readHeader parse grp hdrStr = .ok none) :
    (handleMessage parse cameraId grp (hdrStr :: payloads)).run.run s = (.ok (), s) := by
  unfold handleMessage
  dsimp only
  rw [h]
  rfl

theorem run_handleMessage_of_header
    (h : readHeader parse grp hdrStr = .ok (some (group, timestamp, parts))) :
    let bundles := messageBundles parse grp (hdrStr :: payloads)
    (handleMessage parse cameraId grp (hdrStr :: payloads)).run.run s =
      match (readParts parts 0 payloads).2 with
      | some e => (.error e, s.publish cameraId bundles)
      | none =>
        (.ok (), (s.publish cameraId bundles).queueFrame group ⟨cameraId, timestamp, bundles⟩) := by
  have hloop := run_handleParts s cameraId timestamp parts 0 payloads
  unfold handleMessage messageBundles
  dsimp only
  rw [h, run_liftM_ok_bind]
  dsimp only
  rcases hthrown : (readParts parts 0 payloads).2 with _ | e
  · rw [hthrown] at hloop
    rw [run_bind_of_ok hloop]
    rfl
  · rw [hthrown] at hloop
    rw [run_bind_of_error hloop]

theorem handleMessage_effect (zparts : List Bytes) :
    let s' := ((handleMessage parse cameraId grp zparts).run.run s).2
    s'.pushed = s.pushed ++ messageBundles parse grp zparts ∧
      s'.buffer = pushAll cameraId (messageBundles parse grp zparts) s.buffer := by
  dsimp only
  rcases zparts with _ | ⟨hdrStr, payloads⟩
  · exact ⟨(List.append_nil _).symm, rfl⟩
  · rcases hheader : readHeader parse grp hdrStr with e | _ | ⟨group, timestamp, parts⟩
    · rw [run_handleMessage_of_bad_header hheader, messageBundles, hheader]
      exact ⟨(List.append_nil _).symm, rfl⟩
    · rw [run_handleMessage_of_ignored hheader, messageBundles, hheader]
      exact ⟨(List.append_nil _).symm, rfl⟩
    · rw [run_handleMessage_of_header hheader]
      split
      · exact ⟨publish_pushed _ _ _, publish_buffer _ _ _⟩
      · dsimp only
        rw [queueFrame_pushed, queueFrame_buffer]
        exact ⟨publish_pushed _ _ _, publish_buffer _ _ _⟩

/-- The dealer of the relay does the same to the buffer. -/
theorem buffer_dealerReceive (zparts : List Bytes) (buffer : DataBuffer DataBundle) :
    ((dealerReceive parse cameraId grp zparts).run.run buffer).2 =
      pushAll cameraId (messageBundles parse grp zparts) buffer := by
  rcases zparts with _ | ⟨hdrStr, payloads⟩
  · rfl
  unfold dealerReceive messageBundles readHeader
  dsimp only
  rcases parse hdrStr with e | hdr
  · rfl
  rw [run_liftM_ok_bind, ok_bind]
  rcases hdr.valueWith Json.getBool "active" true with e | _ | _
  · rfl
  · rfl
  rw [run_liftM_ok_bind, ok_bind, if_neg (by decide), if_neg (by decide)]
  rcases hdr.indexKey "parts" with e | parts
  · rfl
  rw [run_liftM_ok_bind, ok_bind]
  rcases socketGroup grp with _ | group
  · rfl
  dsimp only
  rcases hdr.valueWith Json.getInt "ts_sec" 0 with e | sec
  · rfl
  rw [run_liftM_ok_bind, ok_bind]
  rcases hdr.valueWith Json.getInt "ts_nsec" 0 with e | nsec
  · rfl
  rw [run_liftM_ok_bind, ok_bind]
  have hloop := run_receiveParts_eq cameraId ⟨sec.toInt64, nsec.toInt64⟩ parts 0 payloads buffer
  rcases hthrown : (readParts parts 0 payloads).2 with _ | e
  · rw [hthrown] at hloop
    rw [run_bind_of_ok hloop]
    split_ifs <;> rfl
  · rw [hthrown] at hloop
    rw [run_bind_of_error hloop]
    rfl

theorem readParts_throws_iff {j : ℕ} :
    (∃ e, (readParts parts j payloads).2 = some e) ↔
      ∃ i, i < payloads.length ∧ j + i < parts.size ∧ PartThrows parts (j + i) := by
  induction payloads generalizing j with
  | nil =>
    constructor
    · rintro ⟨e, he⟩
      cases he
    · rintro ⟨i, hi, -⟩
      exact absurd hi (Nat.not_lt_zero i)
  | cons payload payloads ih =>
    unfold readParts
    split_ifs with hj
    · rcases hid : partId parts j with e | id
      · apply iff_of_true
        · exact ⟨e, rfl⟩
        · exact ⟨0, Nat.succ_pos _, hj, e, hid⟩
      · dsimp only
        rw [ih]
        constructor
        · rintro ⟨i, hi, hsize, hthrows⟩
          rw [Nat.add_right_comm] at hsize hthrows
          exact ⟨i + 1, Nat.succ_lt_succ hi, hsize, hthrows⟩
        · rintro ⟨i, hi, hsize, e, he⟩
          rcases i with _ | i
          · cases hid.symm.trans he
          · rw [← Nat.add_assoc, Nat.add_right_comm] at hsize he
            exact ⟨i, Nat.lt_of_succ_lt_succ hi, hsize, e, he⟩
    · constructor
      · rintro ⟨e, he⟩
        cases he
      · rintro ⟨i, hi, hsize, -⟩
        omega

theorem readParts_eq_nil_iff {j : ℕ} (hthrown : (readParts parts j payloads).2 = some e) :
    (readParts parts j payloads).1 = [] ↔ PartThrows parts j := by
  rcases payloads with _ | ⟨payload, payloads⟩
  · cases hthrown
  · unfold readParts at hthrown ⊢
    split_ifs at hthrown ⊢ with hj
    rcases hid : partId parts j with e | id
    · exact iff_of_true rfl ⟨e, hid⟩
    · apply iff_of_false
      · exact List.cons_ne_nil _ _
      · rintro ⟨e, he⟩
        cases hid.symm.trans he

end

/-- A message whose handling is given up leaves everything as it was. -/
def TakenWhole (parse : Bytes → Except JsonException Json) (cameraId grp : String)
    (zparts : List Bytes) (s : DealerSide) : Prop :=
  ∀ e s', (handleMessage parse cameraId grp zparts).run.run s = (.error e, s') → s' = s

/-- If the loop meets a part that throws, the very first part does. -/
def ThrowsAtFirst (parse : Bytes → Except JsonException Json) (grp : String) : List Bytes → Prop
  | [] => True
  | hdrStr :: payloads =>
    ∀ group timestamp parts, readHeader parse grp hdrStr = .ok (some (group, timestamp, parts)) →
      ∀ j, j < payloads.length → j < parts.size → PartThrows parts j → PartThrows parts 0

theorem takenWhole_iff (parse : Bytes → Except JsonException Json) (cameraId grp : String)
    (zparts : List Bytes) (s : DealerSide) :
    TakenWhole parse cameraId grp zparts s ↔ ThrowsAtFirst parse grp zparts := by
  rcases zparts with _ | ⟨hdrStr, payloads⟩
  · apply iff_of_true
    · intro e s' hrun
      cases hrun
    · trivial
  constructor
  · intro hwhole group timestamp parts hheader j hj hsize hthrows
    rw [← Nat.zero_add j] at hsize hthrows
    obtain ⟨e, he⟩ := readParts_throws_iff.mpr ⟨j, hj, hsize, hthrows⟩
    have hrun : (handleMessage parse cameraId grp (hdrStr :: payloads)).run.run s =
        (.error e, s.publish cameraId (messageBundles parse grp (hdrStr :: payloads))) := by
      rw [run_handleMessage_of_header hheader, he]
    have hpushed := congrArg DealerSide.pushed (hwhole _ _ hrun)
    rw [publish_pushed, List.append_right_eq_self, messageBundles, hheader] at hpushed
    exact (readParts_eq_nil_iff he).mp (List.map_eq_nil_iff.mp hpushed)
  · intro hfirst e s' hrun
    rcases hheader : readHeader parse grp hdrStr with e' | _ | ⟨group, timestamp, parts⟩
    · rw [run_handleMessage_of_bad_header hheader] at hrun
      exact (congrArg Prod.snd hrun).symm
    · rw [run_handleMessage_of_ignored hheader] at hrun
      cases hrun
    · rw [run_handleMessage_of_header hheader] at hrun
      rcases hthrown : (readParts parts 0 payloads).2 with _ | e'
      · rw [hthrown] at hrun
        cases hrun
      · -- The loop stopped at its first part, so there was nothing to publish.
        obtain ⟨j, hj, hsize, hthrows⟩ := readParts_throws_iff.mp ⟨e', hthrown⟩
        rw [Nat.zero_add] at hsize hthrows
        have hnil := (readParts_eq_nil_iff hthrown).mpr
          (hfirst group timestamp parts hheader j hj hsize hthrows)
        have hbundles : messageBundles parse grp (hdrStr :: payloads) = [] := by
          rw [messageBundles, hheader]
          exact List.map_eq_nil_iff.mpr hnil
        rw [hthrown, hbundles] at hrun
        exact (congrArg Prod.snd hrun).symm

/-- A reading of the IMU, followed by a part that is not an object. -/
def brokenHeader : Json :=
  .object [("parts", .array [.object [("id", .string (bytes "imu"))], .integer 5])]

def freshDealer : DealerSide where
  buffer := DataBuffer.mk' 3
  pipeline := some ⟨fun _ => SPSCQueue.Queue.init fun _ => ⟨"", ⟨0, 0⟩, []⟩, 0, 0⟩
  hasCallback := true
  pushed := []
  called := []

/-- The reading is out when the second part gives the message up. -/
theorem half_message_published :
    ¬TakenWhole (fun _ => .ok brokenHeader) "cam1" "sensor_data" [[], [1], [2]] freshDealer := by
  intro hwhole
  have hpushed := congrArg DealerSide.pushed (hwhole _ _ rfl)
  exact absurd hpushed (List.cons_ne_nil _ _)

end DealerSide

end StereoCamera
