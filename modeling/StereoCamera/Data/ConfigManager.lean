import StereoCamera.Common.Parameter

/-! The files that the parameters are kept in (`data/ConfigManager.cpp`). -/

namespace StereoCamera

/-- What a file that opens for reading holds, and which files open for writing. -/
structure FileSystem where
  contents : String → Option Bytes
  writable : String → Bool

def FileSystem.write (fs : FileSystem) (path : String) (text : Bytes) : FileSystem :=
  { fs with contents := Function.update fs.contents path (some text) }

structure ConfigManager where
  configDir : String
  paramMgr : Option ParameterManager

namespace ConfigManager

def fullPath (cfg : ConfigManager) (filename : String) : String :=
  cfg.configDir ++ "/" ++ filename

/-- Every exception is caught, and what was read before it stays. -/
def load (parse : Bytes → Except JsonException Json) (garbage : ParameterType)
    (cfg : ConfigManager) (fs : FileSystem) (filename : String) : Bool × ConfigManager :=
  match fs.contents (cfg.fullPath filename) with
  | none => (false, cfg)
  | some text =>
    match parse text with
    | .error _ => (false, cfg)
    | .ok j =>
      match cfg.paramMgr with
      | none => (true, cfg)
      | some m =>
        match m.fromJson garbage j with
        | (.ok _, m) => (true, { cfg with paramMgr := some m })
        | (.error _, m) => (false, { cfg with paramMgr := some m })

/-- Opening the file empties it, also when `dump` throws after that. -/
def save (print : Json → Bytes) (cfg : ConfigManager) (fs : FileSystem) (filename : String) :
    Except JsonException Bool × FileSystem :=
  match cfg.paramMgr with
  | none => (.ok false, fs)
  | some m =>
    if ¬fs.writable (cfg.fullPath filename) then (.ok false, fs)
    else
      match m.toJson.dump print with
      | .error e => (.error e, fs.write (cfg.fullPath filename) [])
      | .ok text => (.ok true, fs.write (cfg.fullPath filename) text)

theorem save_of_validUtf8 {print : Json → Bytes} {cfg : ConfigManager} {m : ParameterManager}
    {fs : FileSystem} {filename : String} (hmgr : cfg.paramMgr = some m) (hvalid : m.ValidUtf8)
    (hwritable : fs.writable (cfg.fullPath filename) = true) :
    cfg.save print fs filename =
      (.ok true, fs.write (cfg.fullPath filename) (print m.toJson)) := by
  have hdump : m.toJson.dump print = .ok (print m.toJson) := if_pos hvalid.toJson
  have hopens : ¬¬fs.writable (cfg.fullPath filename) = true := not_not_intro hwritable
  unfold save
  rw [hmgr]
  dsimp only
  rw [if_neg hopens, hdump]

/-- Saving the parameters and loading the file into a fresh manager succeeds, and the fresh
manager has the same names, and for each name the same type, flags and selected value. -/
theorem load_save {parse : Bytes → Except JsonException Json} {print : Json → Bytes}
    (cfg : ConfigManager) {m : ParameterManager} {fs : FileSystem} {filename : String}
    (hmgr : cfg.paramMgr = some m) (hreach : m.Reachable) (hvalid : m.ValidUtf8)
    (hfinite : m.FiniteFloats)
    (hlossless : m.FiniteFloats → parse (print m.toJson) = .ok m.toJson)
    (hwritable : fs.writable (cfg.fullPath filename) = true) (garbage : ParameterType) :
    ∃ fs' loaded, cfg.save print fs filename = (.ok true, fs') ∧
      { cfg with paramMgr := some .empty }.load parse garbage fs' filename =
        (true, { cfg with paramMgr := some loaded }) ∧
      ∀ name, Option.Rel Parameter.Agrees (m.params.lookup name) (loaded.params.lookup name) := by
  obtain ⟨loaded, hread, hagree⟩ := ParameterManager.fromJson_toJson hreach.named garbage
  refine ⟨_, loaded, save_of_validUtf8 hmgr hvalid hwritable, ?_, hagree⟩
  have hfile : (fs.write (cfg.fullPath filename) (print m.toJson)).contents
      (cfg.fullPath filename) = some (print m.toJson) := Function.update_self _ _ _
  unfold load
  dsimp only [fullPath] at hfile ⊢
  rw [hfile]
  dsimp only
  rw [hlossless hfinite]
  dsimp only
  rw [hread]

/-- A parameter that was set to 60 by a value with another tag. -/
def fpsManager : ParameterManager :=
  ⟨⟨[⟨bytes "fps", ⟨bytes "fps", .integer, { intVal := 60, type := .enum }, false, true⟩⟩],
    List.nodupKeys_singleton _⟩⟩

theorem fpsManager_reachable : fpsManager.Reachable := by
  have hdefine := ParameterManager.Step.define .empty
    ⟨bytes "fps", .integer, { intVal := 30 }, false, true⟩
  have hset : (ParameterManager.empty.define
      ⟨bytes "fps", .integer, { intVal := 30 }, false, true⟩).set (bytes "fps")
        { intVal := 60, type := .enum } = some fpsManager := by
    with_unfolding_all rfl
  exact (Relation.ReflTransGen.single hdefine).tail (.set hset)

def gain : Parameter :=
  ⟨bytes "gain", .float, { floatVal := 0.5, type := .float }, false, true⟩

def resolution : Parameter :=
  ⟨bytes "resolution", .enum, { enumVal := bytes "HD720", type := .enum }, true, true⟩

def cameraManager : ParameterManager := (fpsManager.define gain).define resolution

def cameraText : Bytes :=
  bytes ("[\n    \x7b\n        \"is_available\": true,\n        \"is_readonly\": true,\n" ++
    "        \"name\": \"resolution\",\n        \"type\": \"enum\",\n" ++
    "        \"value\": \"HD720\"\n    \x7d,\n" ++
    "    \x7b\n        \"is_available\": true,\n        \"is_readonly\": false,\n" ++
    "        \"name\": \"gain\",\n        \"type\": \"float\",\n        \"value\": 0.5\n" ++
    "    \x7d,\n" ++
    "    \x7b\n        \"is_available\": true,\n        \"is_readonly\": false,\n" ++
    "        \"name\": \"fps\",\n        \"type\": \"integer\",\n        \"value\": 60\n" ++
    "    \x7d\n]")

theorem load_save_camera :
    ∃ fs' loaded, (⟨"config", some cameraManager⟩ : ConfigManager).save (fun _ => cameraText)
        ⟨fun _ => none, fun _ => true⟩ "parameters.json" = (.ok true, fs') ∧
      (⟨"config", some .empty⟩ : ConfigManager).load (fun text => if text = cameraText then
          .ok cameraManager.toJson else .error (.parseError text)) .integer fs'
            "parameters.json" = (true, ⟨"config", some loaded⟩) ∧
      ∀ name, Option.Rel Parameter.Agrees (cameraManager.params.lookup name)
        (loaded.params.lookup name) := by
  have hreach : cameraManager.Reachable :=
    (fpsManager_reachable.tail (.define _ gain)).tail (.define _ resolution)
  have hlist : cameraManager.list = [resolution, gain,
      ⟨bytes "fps", .integer, { intVal := 60, type := .enum }, false, true⟩] := by
    with_unfolding_all rfl
  refine load_save ⟨"config", some cameraManager⟩ rfl hreach ?_ ?_ (fun _ => if_pos rfl) rfl
    .integer
  · unfold ParameterManager.ValidUtf8
    rw [hlist]
    simp only [List.forall_mem_cons]
    refine ⟨⟨Utf8.valid_encode _, fun _ => Utf8.valid_encode _⟩, ⟨Utf8.valid_encode _, ?_⟩,
      ⟨Utf8.valid_encode _, ?_⟩, by simp⟩
    · exact fun htype => ParameterType.noConfusion htype
    · exact fun htype => ParameterType.noConfusion htype
  · unfold ParameterManager.FiniteFloats
    rw [hlist]
    simp only [List.forall_mem_cons]
    refine ⟨?_, fun _ => by decide, ?_, by simp⟩
    · exact fun htype => ParameterType.noConfusion htype
    · exact fun htype => ParameterType.noConfusion htype

end ConfigManager

end StereoCamera
