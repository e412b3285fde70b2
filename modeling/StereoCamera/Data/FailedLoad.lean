import StereoCamera.Data.ConfigManager

/-! What a parameter file that cannot be read to its end leaves in the manager. `from_json`
installs the entries one by one, and `load` undoes nothing. -/

namespace StereoCamera

namespace ParameterManager
variable {m : ParameterManager} {garbage : ParameterType} {name : Bytes}

def readable (garbage : ParameterType) : List Json → List Parameter
  | [] => []
  | item :: items =>
    match Parameter.fromJson garbage item with
    | .error _ => []
    | .ok p => p :: readable garbage items

def lastNamed (name : Bytes) (ps : List Parameter) : Option Parameter :=
  ps.reverse.find? (·.name = name)

def Same (m m' : ParameterManager) : Prop :=
  ∀ name, m'.params.lookup name = m.params.lookup name

theorem readItems_snd (items : List Json) :
    (m.readItems garbage items).2 = (readable garbage items).foldl define m := by
  induction items generalizing m with
  | nil => rfl
  | cons item items ih =>
    unfold readItems readable
    cases Parameter.fromJson garbage item with
    | error e => rfl
    | ok p => exact ih

theorem lastNamed_cons (p : Parameter) (ps : List Parameter) :
    lastNamed name (p :: ps) =
      (lastNamed name ps).or (if p.name = name then some p else none) := by
  unfold lastNamed
  rw [List.reverse_cons, List.find?_append, List.find?_singleton]
  simp only [decide_eq_true_eq]

theorem lookup_define (p : Parameter) :
    (m.define p).params.lookup name = if p.name = name then some p else m.params.lookup name := by
  unfold define
  split_ifs with h
  · rw [← h]
    exact AList.lookup_insert _
  · exact AList.lookup_insert_ne fun hname => h hname.symm

theorem lookup_foldl_define (ps : List Parameter) :
    (ps.foldl define m).params.lookup name = (lastNamed name ps).or (m.params.lookup name) := by
  induction ps generalizing m with
  | nil => rfl
  | cons p ps ih =>
    rw [List.foldl_cons, ih, lastNamed_cons, lookup_define, Option.or_assoc]
    split_ifs <;> rfl

theorem same_foldl_define_iff (ps : List Parameter) :
    Same m (ps.foldl define m) ↔
      ∀ name p, lastNamed name ps = some p → m.params.lookup name = some p := by
  unfold Same
  refine forall_congr' fun name => ?_
  rw [lookup_foldl_define]
  cases lastNamed name ps with
  | none => simp
  | some p => simp [eq_comm]

end ParameterManager

namespace ConfigManager
open ParameterManager

/-- Where an entry of the file cannot be read, the manager has the entries in front of it
already. -/
def LeavesNoTrace (parse : Bytes → Except JsonException Json) (garbage : ParameterType)
    (cfg : ConfigManager) (fs : FileSystem) (filename : String) : Prop :=
  ∀ text j m e, fs.contents (cfg.fullPath filename) = some text → parse text = .ok j →
    cfg.paramMgr = some m → (m.fromJson garbage j).1 = .error e →
      ∀ name p, lastNamed name (readable garbage j.elements) = some p →
        m.params.lookup name = some p

/-- A load that fails leaves the manager as it was if and only if no entry in front of the
first unreadable one is news. -/
theorem failed_load_unchanged_iff (parse : Bytes → Except JsonException Json)
    (garbage : ParameterType) (cfg : ConfigManager) (fs : FileSystem) (filename : String) :
    ((cfg.load parse garbage fs filename).1 = false →
      Option.Rel Same cfg.paramMgr (cfg.load parse garbage fs filename).2.paramMgr) ↔
        LeavesNoTrace parse garbage cfg fs filename := by
  have hrefl : ∀ o : Option ParameterManager, Option.Rel Same o o := by
    rintro (_ | m)
    · exact .none
    · exact .some fun name => rfl
  unfold LeavesNoTrace load
  -- Only a load that gets as far as the entries changes the manager.
  rcases hfile : fs.contents (cfg.fullPath filename) with _ | text
  · exact iff_of_true (fun _ => hrefl _) nofun
  rcases hparse : parse text with e | j
  · simp only [hparse]
    exact iff_of_true (fun _ => hrefl _) fun _ j m e ht hj => by cases ht; cases hparse ▸ hj
  rcases hmgr : cfg.paramMgr with _ | m
  · simp only [hparse, hmgr]
    exact iff_of_true (fun _ => hrefl _) nofun
  rcases hread : m.fromJson garbage j with ⟨e | _, m'⟩
  · simp only [hparse, hread, forall_const]
    -- What was installed before the exception stays.
    have hm' : m' = (readable garbage j.elements).foldl define m := by
      rw [← readItems_snd]
      exact (congrArg Prod.snd hread).symm
    rw [Option.rel_some_some, hm', same_foldl_define_iff]
    constructor
    · rintro h _ j' m'' e' ⟨⟩ hj ⟨⟩ -
      cases hparse.symm.trans hj
      exact h
    · intro h
      exact h text j m e rfl hparse rfl (congrArg Prod.fst hread)
  · simp only [hparse, hread]
    refine iff_of_true (fun h => absurd h nofun) ?_
    rintro _ j' m'' e' ⟨⟩ hj ⟨⟩ he
    cases hparse.symm.trans hj
    rw [hread] at he
    cases he

/-- The file raises the frame rate and then holds something that is no parameter. -/
def damagedFile : Json :=
  .array [Parameter.toJson ⟨bytes "fps", .integer, { intVal := 120 }, false, true⟩, .null]

def damagedText : Bytes :=
  bytes ("[\x7b\"is_available\": true, \"is_readonly\": false, \"name\": \"fps\"," ++
    " \"type\": \"integer\", \"value\": 120\x7d, null]")

def parseDamaged (text : Bytes) : Except JsonException Json :=
  if text = damagedText then .ok damagedFile else .error (.parseError text)

def frameRate (cfg : ConfigManager) : Option Int32 :=
  (cfg.paramMgr.bind fun m => m.params.lookup (bytes "fps")).map (·.value.intVal)

theorem frameRate_of_same {cfg cfg' : ConfigManager}
    (h : Option.Rel Same cfg.paramMgr cfg'.paramMgr) : cfg'.frameRate = cfg.frameRate := by
  unfold frameRate
  generalize cfg.paramMgr = o at h ⊢
  generalize cfg'.paramMgr = o' at h ⊢
  cases h with
  | none => rfl
  | some hsame => rw [Option.bind_some, Option.bind_some, hsame]

theorem damaged_file_half_applied :
    let cfg : ConfigManager := ⟨"config", some fpsManager⟩
    let loaded := cfg.load parseDamaged .integer ⟨fun _ => some damagedText, fun _ => true⟩
      "parameters.json"
    loaded.1 = false ∧ ¬Option.Rel Same cfg.paramMgr loaded.2.paramMgr ∧
      cfg.frameRate = some 60 ∧ loaded.2.frameRate = some 120 := by
  intro cfg loaded
  have hparse : parseDamaged damagedText = .ok damagedFile := if_pos rfl
  have hloaded : loaded.1 = false ∧ loaded.2.frameRate = some 120 := by
    simp only [loaded, load, hparse]
    with_unfolding_all exact ⟨rfl, rfl⟩
  have hcfg : cfg.frameRate = some 60 := by with_unfolding_all rfl
  refine ⟨hloaded.1, fun h => ?_, hcfg, hloaded.2⟩
  have hsame := frameRate_of_same h
  rw [hcfg, hloaded.2] at hsame
  exact absurd hsame (by decide)

end ConfigManager

end StereoCamera
