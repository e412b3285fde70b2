import StereoCamera.Data.AppConfigLayout
import StereoCamera.Lib.Throwing

/-! What a reading of `config.json` that does not throw has assigned. The sections are read one
after the other, so the nested conditions are turned into one path for each of them. -/

namespace StereoCamera.AppConfig

open Throwing

section
variable {α β : Type} {value : Except JsonException α} {set : α → AppConfig → AppConfig}
  {c c' : AppConfig} {u : Unit}

theorem returns_assign_iff :
    Returns (assign value set) c u c' ↔ ∃ v, value = .ok v ∧ set v c = c' := by
  unfold assign
  rw [returns_bind_iff]
  constructor
  · rintro ⟨v, c₁, hvalue, hset⟩
    obtain ⟨rfl, rfl⟩ := returns_liftM_iff.mp hvalue
    exact ⟨v, rfl, returns_modify_iff.mp hset⟩
  · rintro ⟨v, hvalue, hset⟩
    exact ⟨v, c, returns_liftM_iff.mpr ⟨hvalue, rfl⟩, returns_modify_iff.mpr hset⟩

theorem keeps_assign {g : AppConfig → β} (hset : ∀ v c, g (set v c) = g c) :
    Keeps g (assign value set) :=
  (keeps_liftM value).bind fun v => keeps_modify (hset v)

theorem keepsIfThrows_assign {g : AppConfig → β} : KeepsIfThrows g (assign value set) := by
  intro c e c' h
  cases value with
  | error e' =>
    cases h
    rfl
  | ok v => cases h

theorem total_assign {v : α} (h : value = .ok v) : Total (assign value set) :=
  fun c => ⟨(), set v c, returns_assign_iff.mpr ⟨v, h, rfl⟩⟩

end

/-! ### One value -/

def EndpointsRead (found : Option Json) (dflt m : Endpoints) : Prop :=
  match found with
  | some (.object members) => ∀ name, (m.lookup name).map Json.string = members.lookup name
  | _ => m = dflt

def FieldValue.ReadFrom (s : Json) (key : String) (dflt v : FieldValue) : Prop :=
  match dflt, v with
  | .text dflt, .text v => s.value key dflt = .ok v
  | .number (some dflt), .number (some n) => valueInt s key dflt = .ok n
  | .endpoints dflt, .endpoints m => EndpointsRead (s.follow [key]) dflt m
  | _, _ => False

section
variable {members : List (String × Json)} {key : String}

theorem value_eq_ok_iff {dflt v : Bytes} :
    (Json.object members).value key dflt = .ok v ↔
      FieldValue.Holds (.text dflt) (members.lookup key) (.text v) := by
  unfold Json.value Json.valueWith
  dsimp only
  cases members.lookup key with
  | none =>
    rw [Except.ok.injEq, FieldValue.Holds, FieldValue.text.injEq]
    exact eq_comm
  | some w => exact Json.getString_eq_ok_iff

theorem valueInt_eq_ok_iff {dflt n : Int32} :
    valueInt (.object members) key dflt = .ok n ↔
      match members.lookup key with
      | none => dflt = n
      | some w => w.getInt = .ok n := by
  unfold valueInt Json.valueWith
  dsimp only
  cases members.lookup key with
  | none => exact ⟨Except.ok.inj, congrArg Except.ok⟩
  | some w => exact Iff.rfl

theorem FieldValue.ReadFrom.holds_iff {dflt v : FieldValue}
    (h : ReadFrom (.object members) key dflt v) :
    dflt.Holds (members.lookup key) v ↔ ∀ w, members.lookup key = some w → dflt.Fits w := by
  match dflt, v with
  | .text d, .text v =>
    have hholds := value_eq_ok_iff.mp h
    refine iff_of_true hholds ?_
    intro w hw
    rw [hw] at hholds
    exact ⟨v, hholds⟩
  | .number (some d), .number (some n) =>
    have hread := valueInt_eq_ok_iff.mp h
    cases hlookup : members.lookup key with
    | none =>
      rw [hlookup] at hread
      refine iff_of_true ?_ nofun
      rw [Holds, hread]
    | some w =>
      rw [hlookup] at hread
      constructor
      · rintro hdenotes _ ⟨⟩
        exact ⟨n, hread, hdenotes⟩
      · intro hfits
        obtain ⟨n', hread', hdenotes⟩ := hfits w rfl
        cases hread.symm.trans hread'
        exact hdenotes
  | .endpoints d, .endpoints m =>
    change EndpointsRead ((Json.object members).follow [key]) d m at h
    rw [Json.follow_singleton] at h
    cases hlookup : members.lookup key with
    | none =>
      rw [hlookup] at h
      exact iff_of_true (congrArg _ h) nofun
    | some w =>
      rw [hlookup] at h
      match w with
      | .object inner =>
        refine iff_of_true h ?_
        rintro _ ⟨⟩
        refine ⟨inner, rfl, ?_⟩
        intro name e he
        obtain ⟨s, -, hs⟩ := Option.map_eq_some_iff.mp ((h name).trans he)
        exact ⟨s, hs.symm⟩
      | .null | .bool _ | .integer _ | .float _ | .string _ | .array _ =>
        refine iff_of_false id ?_
        intro hfits
        obtain ⟨inner, hobject, -⟩ := hfits _ rfl
        cases hobject

/-! ### Reading does not throw -/

theorem exists_value_of_fits {dflt : Bytes}
    (h : ∀ w, members.lookup key = some w → FieldValue.Fits (.text dflt) w) :
    ∃ v, (Json.object members).value key dflt = .ok v := by
  cases hlookup : members.lookup key with
  | none => exact ⟨dflt, value_eq_ok_iff.mpr (hlookup ▸ rfl)⟩
  | some w =>
    obtain ⟨s, hs⟩ := h w hlookup
    exact ⟨s, value_eq_ok_iff.mpr (hlookup ▸ hs)⟩

theorem exists_valueInt_of_fits {dflt : Int32}
    (h : ∀ w, members.lookup key = some w → FieldValue.Fits (.number (some dflt)) w) :
    ∃ n, valueInt (.object members) key dflt = .ok n := by
  cases hlookup : members.lookup key with
  | none => exact ⟨dflt, valueInt_eq_ok_iff.mpr (hlookup ▸ rfl)⟩
  | some w =>
    obtain ⟨n, hn, -⟩ := h w hlookup
    exact ⟨n, valueInt_eq_ok_iff.mpr (hlookup ▸ hn)⟩

theorem lookup_of_mem_items {kv : String × Json} (h : kv ∈ (Json.object members).items) :
    members.lookup kv.1 = some kv.2 := by
  obtain ⟨name, hname, rfl⟩ := List.mem_map.mp h
  obtain ⟨kv, hkv, rfl⟩ := List.mem_map.mp (List.mem_dedup.mp hname)
  have hsome : (members.lookup kv.1).isSome = true :=
    List.lookup_isSome_iff.mpr ⟨kv, hkv, beq_self_eq_true _⟩
  obtain ⟨v, hv⟩ := Option.isSome_iff_exists.mp hsome
  dsimp only
  rw [Json.item, hv, Option.getD_some]

theorem item_of_lookup {w : Json} (h : members.lookup key = some w) :
    (Json.object members).item key = w := by
  rw [Json.item, h, Option.getD_some]

theorem lookup_of_item {w : Json} (h : (Json.object members).item key = w) (hw : w ≠ .null) :
    members.lookup key = some w := by
  cases hlookup : members.lookup key with
  | none =>
    rw [Json.item, hlookup] at h
    exact absurd h.symm hw
  | some v => rw [← h, item_of_lookup hlookup]

theorem total_readEndpoints {dflt : Endpoints} {set : String → Bytes → AppConfig → AppConfig}
    (h : ∀ w, members.lookup key = some w → FieldValue.Fits (.endpoints dflt) w) :
    Total (readEndpoints (.object members) key set) := by
  unfold readEndpoints
  split_ifs with hobject
  · obtain ⟨w, hw⟩ := Option.isSome_iff_exists.mp hobject.1
    obtain ⟨inner, rfl, hstrings⟩ := h w hw
    rw [item_of_lookup hw]
    refine total_forM ?_
    intro kv hkv
    obtain ⟨s, hs⟩ := hstrings kv.1 kv.2 (lookup_of_mem_items hkv)
    exact total_assign (Json.getString_eq_ok_iff.mpr hs)
  · exact total_pure _

end

/-! ### What is assigned -/

section
variable {update : (Endpoints → Endpoints) → AppConfig → AppConfig} {c c' : AppConfig} {u : Unit}

theorem returns_forM_insert
    (hupdate : ∀ f g c, update f (update g c) = update (fun m => f (g m)) c)
    (hid : ∀ c, update (fun m => m) c = c) {inner : List (String × Json)} {names : List String}
    (h : Returns ((names.map fun name => (name, (Json.object inner).item name)).forM
      fun (name, val) => assign val.getString fun v => update (AList.insert name v)) c u c') :
    ∃ add : Endpoints → Endpoints, c' = update add c ∧
      (∀ m, ∀ name ∈ names, ((add m).lookup name).map Json.string = inner.lookup name) ∧
      ∀ m name, name ∉ names → (add m).lookup name = m.lookup name := by
  induction names generalizing c with
  | nil =>
    obtain ⟨-, rfl⟩ := returns_pure_iff.mp h
    exact ⟨fun m => m, (hid c).symm, fun _ _ => nofun, fun _ _ _ => rfl⟩
  | cons name names ih =>
    obtain ⟨u₁, c₁, hfirst, hrest⟩ := returns_bind_iff.mp h
    change Returns (assign ((Json.object inner).item name).getString fun v =>
      update (AList.insert name v)) c u₁ c₁ at hfirst
    obtain ⟨s, hs, rfl⟩ := returns_assign_iff.mp hfirst
    obtain ⟨add, rfl, hin, hout⟩ := ih hrest
    refine ⟨fun m => add (m.insert name s), hupdate _ _ _, ?_, ?_⟩
    · intro m name' hmem
      by_cases hlater : name' ∈ names
      · exact hin _ name' hlater
      · cases (List.mem_cons.mp hmem).resolve_right hlater
        rw [hout _ _ hlater, AList.lookup_insert]
        exact (lookup_of_item (Json.getString_eq_ok_iff.mp hs) nofun).symm
    · intro m name' hmem
      obtain ⟨hne, hlater⟩ := not_or.mp (mt List.mem_cons.mpr hmem)
      rw [hout _ _ hlater, AList.lookup_insert_ne hne]

theorem endpointsRead_of_no_object {d : Json} {key : String} {dflt : Endpoints}
    (h : ¬(d.contains key = true ∧ (d.item key).isObject = true)) :
    EndpointsRead (d.follow [key]) dflt dflt := by
  match d with
  | .object members =>
    rw [Json.follow_singleton]
    cases hlookup : members.lookup key with
    | none => rfl
    | some w =>
      match w with
      | .object inner =>
        refine absurd ⟨Option.isSome_iff_exists.mpr ⟨_, hlookup⟩, ?_⟩ h
        rw [item_of_lookup hlookup]
        rfl
      | .null | .bool _ | .integer _ | .float _ | .string _ | .array _ => rfl
  | .null | .bool _ | .integer _ | .float _ | .string _ | .array _ => rfl

theorem returns_readEndpoints {d : Json} {key : String}
    (hupdate : ∀ f g c, update f (update g c) = update (fun m => f (g m)) c)
    (hid : ∀ c, update (fun m => m) c = c)
    (h : Returns (readEndpoints d key fun name v => update (AList.insert name v)) c u c') :
    ∃ add : Endpoints → Endpoints, c' = update add c ∧
      EndpointsRead (d.follow [key]) ∅ (add ∅) := by
  unfold readEndpoints at h
  split_ifs at h with hobject
  · match d with
    | .object members =>
      obtain ⟨w, hw⟩ := Option.isSome_iff_exists.mp hobject.1
      rw [item_of_lookup hw] at h hobject
      match w with
      | .object inner =>
        obtain ⟨add, hadd, hin, hout⟩ := returns_forM_insert hupdate hid h
        refine ⟨add, hadd, ?_⟩
        rw [Json.follow_singleton, hw]
        intro name
        by_cases hname : name ∈ (inner.map Prod.fst).dedup
        · exact hin ∅ name hname
        · have hnone : inner.lookup name = none := by
            refine List.lookup_eq_none_iff.mpr ?_
            intro kv hkv
            refine bne_iff_ne.mpr ?_
            rintro rfl
            exact hname (List.mem_dedup.mpr (List.mem_map_of_mem hkv))
          rw [hout ∅ name hname, AList.lookup_empty, hnone]
          rfl
  · obtain ⟨-, rfl⟩ := returns_pure_iff.mp h
    exact ⟨fun m => m, (hid c).symm, endpointsRead_of_no_object hobject⟩

end

/-! ### Sections one after the other -/

def atPlace (j : Json) (place : List String) (read : Json → LoadM Unit) : LoadM Unit :=
  match j.follow place with
  | none => return ()
  | some s => read s

section
variable {j : Json} {place rest : List String} {read : Json → LoadM Unit}

theorem inSection_eq_atPlace (key : String) : inSection j key read = atPlace j [key] read := by
  cases j with
  | object members =>
    unfold inSection atPlace
    rw [Json.follow_singleton]
    cases hlookup : members.lookup key with
    | none =>
      have hnot : ¬(Json.object members).contains key = true := by
        rw [Json.contains, hlookup]
        exact nofun
      exact if_neg hnot
    | some s =>
      have hcontains : (Json.object members).contains key = true := by
        rw [Json.contains, hlookup]
        rfl
      have hitem : (Json.object members).item key = s := by
        rw [Json.item, hlookup]
        rfl
      rw [if_pos hcontains, hitem]
  | _ => rfl

theorem atPlace_bind (x y : Json → LoadM Unit) :
    atPlace j place (fun s => x s >>= fun _ => y s) =
      atPlace j place x >>= fun _ => atPlace j place y := by
  unfold atPlace
  cases j.follow place <;> rfl

theorem atPlace_atPlace :
    atPlace j place (fun s => atPlace s rest read) = atPlace j (place ++ rest) read := by
  unfold atPlace
  rw [Json.follow_append]
  cases j.follow place <;> rfl

def readHwm (d : Json) : LoadM Unit :=
  assign (valueInt d "zmq_hwm" 1) fun v c => { c with api3.data.zmqHwm := v }

def readSubEndpoints (d : Json) : LoadM Unit :=
  readEndpoints d "sub_endpoints" fun name v c =>
    { c with api3.data.subEndpoints := c.api3.data.subEndpoints.insert name v }

theorem readAppConfig_eq (j : Json) : readAppConfig j = (do
    atPlace j ["api1", "camera_sdk"] readCameraSdk
    atPlace j ["api1", "data"] readApi1Data
    atPlace j ["api2", "server"] (readServer api2ServerDefaults updateApi2Server)
    atPlace j ["api2", "data"] readApi2Data
    atPlace j ["api3", "admin_server"] (readServer adminServerDefaults updateAdminServer)
    atPlace j ["api3", "data"] readHwm
    atPlace j ["api3", "data", "wss_server"] (readServer wssServerDefaults updateWssServer)
    atPlace j ["api3", "data"] readSubEndpoints
    assign (j.value "log_level" (bytes "info")) fun v c => { c with logLevel := v }) := by
  have hdata : readApi3Data = fun d => (do
      readHwm d
      atPlace d ["wss_server"] (readServer wssServerDefaults updateWssServer)
      readSubEndpoints d) := by
    funext d
    rw [← inSection_eq_atPlace]
    rfl
  unfold readAppConfig
  simp only [inSection_eq_atPlace, hdata, atPlace_bind, atPlace_atPlace, bind_assoc,
    List.cons_append, List.nil_append]

theorem keeps_atPlace {β : Type} {g : AppConfig → β} (h : ∀ s, Keeps g (read s)) :
    Keeps g (atPlace j place read) := by
  unfold atPlace
  cases j.follow place with
  | none => exact keeps_pure _
  | some s => exact h s

theorem total_atPlace (h : ∀ s, j.follow place = some s → Total (read s)) :
    Total (atPlace j place read) := by
  unfold atPlace
  cases hfollow : j.follow place with
  | none => exact total_pure _
  | some s => exact h s hfollow

end

end StereoCamera.AppConfig
