import StereoCamera.Data.AppConfigReading

/-! Which files `load_app_config` gives every field its value from. The members of an
`AppConfig` have no defaults of their own, apart from a few; the others have one only where their
section is read. -/

namespace StereoCamera.AppConfig

open Throwing

/-! ### Sections -/

def EntriesRead {Part : Type} (entries : List (Entry Part)) (s : Json) (a : Part) : Prop :=
  ∀ e ∈ entries, e.dflt.ReadFrom s e.key (e.get a)

section
variable {s : Json} {c c' : AppConfig} {u : Unit}

theorem returns_readCameraSdk (h : Returns (readCameraSdk s) c u c') :
    ∃ a : Api1Config, EntriesRead cameraSdkEntries s a ∧ c' =
      { c with api1 := { a with transport := c.api1.transport, channels := c.api1.channels } } := by
  unfold readCameraSdk at h
  simp only [returns_bind_iff, returns_assign_iff] at h
  obtain ⟨-, _, ⟨host, hhost, rfl⟩, -, _, ⟨port, hport, rfl⟩, -, _, ⟨certPath, hcert, rfl⟩,
    timeoutMs, htimeout, rfl⟩ := h
  refine ⟨⟨host, some port, certPath, some timeoutMs, [], ∅⟩, ?_, rfl⟩
  simp only [EntriesRead, cameraSdkEntries, List.forall_mem_cons]
  exact ⟨hhost, hport, hcert, htimeout, nofun⟩

theorem returns_readApi1Data (hempty : c.api1.channels = ∅)
    (h : Returns (readApi1Data s) c u c') :
    ∃ a : Api1Config, EntriesRead api1DataEntries s a ∧
      c' = { c with api1.transport := a.transport, api1.channels := a.channels } := by
  unfold readApi1Data at h
  simp only [returns_bind_iff, returns_assign_iff] at h
  obtain ⟨-, _, ⟨transport, htransport, rfl⟩, hchannels⟩ := h
  obtain ⟨add, rfl, hadd⟩ := @returns_readEndpoints
    (fun f c => { c with api1.channels := f c.api1.channels }) _ _ _ _ _ (fun _ _ _ => rfl)
    (fun _ => rfl) hchannels
  refine ⟨{ transport := transport, channels := add ∅ }, ?_, ?_⟩
  · simp only [EntriesRead, api1DataEntries, List.forall_mem_cons]
    exact ⟨htransport, hadd, nofun⟩
  · rw [← hempty]

theorem returns_readServer {dflt : ServerDefaults}
    {update : (ServerConfig → ServerConfig) → AppConfig → AppConfig}
    (hupdate : ∀ f g c, update f (update g c) = update (fun s => f (g s)) c)
    (h : Returns (readServer dflt update s) c u c') :
    ∃ srv : ServerConfig, EntriesRead (serverEntries dflt) s srv ∧
      c' = update (fun _ => srv) c := by
  unfold readServer at h
  simp only [returns_bind_iff, returns_assign_iff] at h
  obtain ⟨-, _, ⟨host, hhost, rfl⟩, -, _, ⟨port, hport, rfl⟩, -, _, ⟨certPath, hcert, rfl⟩, -, _,
    ⟨keyPath, hkey, rfl⟩, -, _, ⟨strategy, hstrategy, rfl⟩, workers, hworkers, rfl⟩ := h
  refine ⟨⟨host, some port, certPath, keyPath, strategy, some workers⟩, ?_, ?_⟩
  · simp only [EntriesRead, serverEntries, List.forall_mem_cons]
    exact ⟨hhost, hport, hcert, hkey, hstrategy, hworkers, nofun⟩
  · simp only [hupdate]

theorem returns_readApi2Data (hempty : c.api2.data.pubEndpoints = ∅)
    (h : Returns (readApi2Data s) c u c') :
    ∃ a : Api2DataConfig, EntriesRead api2DataEntries s a ∧ c' = { c with api2.data := a } := by
  unfold readApi2Data at h
  simp only [returns_bind_iff, returns_assign_iff] at h
  obtain ⟨-, _, ⟨transport, htransport, rfl⟩, -, _, ⟨hwm, hhwm, rfl⟩, hendpoints⟩ := h
  obtain ⟨add, rfl, hadd⟩ := @returns_readEndpoints
    (fun f c => { c with api2.data.pubEndpoints := f c.api2.data.pubEndpoints }) _ _ _ _ _
    (fun _ _ _ => rfl) (fun _ => rfl) hendpoints
  refine ⟨⟨transport, hwm, add ∅⟩, ?_, ?_⟩
  · simp only [EntriesRead, api2DataEntries, List.forall_mem_cons]
    exact ⟨htransport, hhwm, hadd, nofun⟩
  · rw [← hempty]

theorem returns_readHwm (h : Returns (readHwm s) c u c') :
    ∃ hwm : Int32, valueInt s "zmq_hwm" 1 = .ok hwm ∧ c' = { c with api3.data.zmqHwm := hwm } := by
  obtain ⟨hwm, hhwm, rfl⟩ := returns_assign_iff.mp h
  exact ⟨hwm, hhwm, rfl⟩

theorem returns_readSubEndpoints (hempty : c.api3.data.subEndpoints = ∅)
    (h : Returns (readSubEndpoints s) c u c') :
    ∃ m : Endpoints, EndpointsRead (s.follow ["sub_endpoints"]) ∅ m ∧
      c' = { c with api3.data.subEndpoints := m } := by
  obtain ⟨add, rfl, hadd⟩ := @returns_readEndpoints
    (fun f c => { c with api3.data.subEndpoints := f c.api3.data.subEndpoints }) _ _ _ _ _
    (fun _ _ _ => rfl) (fun _ => rfl) h
  exact ⟨add ∅, hadd, by rw [← hempty]⟩

def PartRead {Part : Type} (j : Json) (place : List String) (Good : Json → Part → Prop)
    (old a : Part) : Prop :=
  match j.follow place with
  | none => a = old
  | some s => Good s a

theorem returns_atPlace {Part : Type} {j : Json} {place : List String} {read : Json → LoadM Unit}
    {Good : Json → Part → Prop} (put : Part → AppConfig → AppConfig) (old : Part)
    (h : Returns (atPlace j place read) c u c') (hput : put old c = c)
    (hread : ∀ s, Returns (read s) c u c' → ∃ a, Good s a ∧ c' = put a c) :
    ∃ a, PartRead j place Good old a ∧ c' = put a c := by
  unfold atPlace at h
  unfold PartRead
  cases hfollow : j.follow place with
  | none =>
    rw [hfollow] at h
    obtain ⟨-, rfl⟩ := returns_pure_iff.mp h
    exact ⟨old, rfl, hput.symm⟩
  | some s =>
    rw [hfollow] at h
    exact hread s h

def Section.Read (p : Section) (j : Json) (c : AppConfig) : Prop :=
  ∀ e ∈ p.entries,
    match j.follow p.place with
    | none => e.get (p.part c) = e.get (p.part {})
    | some s => e.dflt.ReadFrom s e.key (e.get (p.part c))

theorem Section.read_of_partRead {p : Section} {j : Json} {old a : p.Part}
    (h : PartRead j p.place (EntriesRead p.entries) old a)
    (hold : p.entries.map (·.get old) = p.entries.map (·.get (p.part {})))
    (hlast : p.entries.map (·.get (p.part c)) = p.entries.map (·.get a)) : p.Read j c := by
  intro e he
  rw [List.map_inj_left.mp hlast e he]
  unfold PartRead at h
  cases hfollow : j.follow p.place with
  | none =>
    rw [hfollow] at h
    dsimp only at h ⊢
    rw [h]
    exact List.map_inj_left.mp hold e he
  | some s =>
    rw [hfollow] at h
    exact h e he

/-- This section is read in two goes, with the server that is inside it in between. -/
theorem read_api3Data {j : Json}
    (hhwm : PartRead j ["api3", "data"] (fun s n => valueInt s "zmq_hwm" 1 = .ok n) 1
      c.api3.data.zmqHwm)
    (hsub : PartRead j ["api3", "data"] (fun s m => EndpointsRead (s.follow ["sub_endpoints"]) ∅ m)
      ∅ c.api3.data.subEndpoints) : api3Data.Read j c := by
  unfold Section.Read api3Data api3DataEntries
  unfold PartRead at hhwm hsub
  dsimp only
  cases hfollow : j.follow ["api3", "data"] with
  | none =>
    rw [hfollow] at hhwm hsub
    simp only [List.forall_mem_cons]
    exact ⟨congrArg (fun n => FieldValue.number (some n)) hhwm, congrArg _ hsub, nofun⟩
  | some s =>
    rw [hfollow] at hhwm hsub
    simp only [List.forall_mem_cons]
    exact ⟨hhwm, hsub, nofun⟩

theorem read_of_returns {j : Json} (h : Returns (readAppConfig j) {} u c) :
    (∀ p ∈ readSections, p.Read j c) ∧ c.spsc = {} ∧ c.dataBufferDepth = 3 := by
  -- What a whole reading has assigned; the sections do not touch each other.
  rw [readAppConfig_eq] at h
  simp only [returns_bind_iff] at h
  obtain ⟨_, _, h₁, _, _, h₂, _, _, h₃, _, _, h₄, _, _, h₅, _, _, h₆, _, _, h₇, _, _, h₈, h₉⟩ := h
  -- Every section is put into what the ones before it have left, so at the end each part of the
  -- configuration can be traced back to the section that it is read from.
  obtain ⟨sdk, hsdk, rfl⟩ := returns_atPlace (fun (a : Api1Config) c =>
    { c with api1 := { a with transport := c.api1.transport, channels := c.api1.channels } })
    {} h₁ rfl fun _ => returns_readCameraSdk
  obtain ⟨api1, hapi1, rfl⟩ := returns_atPlace (fun (a : Api1Config) c =>
    { c with api1.transport := a.transport, api1.channels := a.channels })
    {} h₂ rfl fun _ => returns_readApi1Data rfl
  obtain ⟨server, hserver, rfl⟩ := returns_atPlace (fun a => updateApi2Server fun _ => a)
    {} h₃ rfl fun _ => returns_readServer fun _ _ _ => rfl
  obtain ⟨api2, hapi2, rfl⟩ := returns_atPlace (fun a c => { c with api2.data := a })
    {} h₄ rfl fun _ => returns_readApi2Data rfl
  obtain ⟨admin, hadmin, rfl⟩ := returns_atPlace (fun a => updateAdminServer fun _ => a)
    {} h₅ rfl fun _ => returns_readServer fun _ _ _ => rfl
  obtain ⟨hwm, hhwm, rfl⟩ := returns_atPlace (fun a c => { c with api3.data.zmqHwm := a })
    1 h₆ rfl fun _ => returns_readHwm
  obtain ⟨wss, hwss, rfl⟩ := returns_atPlace (fun a => updateWssServer fun _ => a)
    {} h₇ rfl fun _ => returns_readServer fun _ _ _ => rfl
  obtain ⟨sub, hsub, rfl⟩ := returns_atPlace (fun a c => { c with api3.data.subEndpoints := a })
    ∅ h₈ rfl fun _ => returns_readSubEndpoints rfl
  obtain ⟨log, hlog, rfl⟩ := returns_assign_iff.mp h₉
  refine ⟨?_, rfl, rfl⟩
  simp only [readSections, List.forall_mem_cons]
  refine ⟨Section.read_of_partRead hsdk rfl rfl, Section.read_of_partRead hapi1 rfl rfl,
    Section.read_of_partRead hserver rfl rfl, Section.read_of_partRead hapi2 rfl rfl,
    Section.read_of_partRead hadmin rfl rfl, ?_, Section.read_of_partRead hwss rfl rfl, ?_, nofun⟩
  · exact read_api3Data hhwm hsub
  · exact List.forall_mem_singleton.mpr hlog

end

/-! ### A reading that throws -/

section
variable {s d j : Json}

theorem keeps_readEndpoints {key : String} {set : String → Bytes → AppConfig → AppConfig}
    (hset : ∀ name v c, (set name v c).logLevel = c.logLevel) :
    Keeps AppConfig.logLevel (readEndpoints d key set) := by
  unfold readEndpoints
  split_ifs
  · exact keeps_forM fun kv _ => keeps_assign (hset kv.1)
  · exact keeps_pure _

theorem keeps_readCameraSdk : Keeps AppConfig.logLevel (readCameraSdk s) := by
  unfold readCameraSdk
  refine .bind (keeps_assign fun _ _ => rfl) fun _ => ?_
  refine .bind (keeps_assign fun _ _ => rfl) fun _ => ?_
  refine .bind (keeps_assign fun _ _ => rfl) fun _ => ?_
  exact keeps_assign fun _ _ => rfl

theorem keeps_readApi1Data : Keeps AppConfig.logLevel (readApi1Data s) := by
  unfold readApi1Data
  refine .bind (keeps_assign fun _ _ => rfl) fun _ => ?_
  exact keeps_readEndpoints fun _ _ _ => rfl

theorem keeps_readServer {dflt : ServerDefaults}
    {update : (ServerConfig → ServerConfig) → AppConfig → AppConfig}
    (hupdate : ∀ f c, (update f c).logLevel = c.logLevel) :
    Keeps AppConfig.logLevel (readServer dflt update s) := by
  unfold readServer
  refine .bind (keeps_assign fun _ => hupdate _) fun _ => ?_
  refine .bind (keeps_assign fun _ => hupdate _) fun _ => ?_
  refine .bind (keeps_assign fun _ => hupdate _) fun _ => ?_
  refine .bind (keeps_assign fun _ => hupdate _) fun _ => ?_
  refine .bind (keeps_assign fun _ => hupdate _) fun _ => ?_
  exact keeps_assign fun _ => hupdate _

theorem keeps_readApi2Data : Keeps AppConfig.logLevel (readApi2Data s) := by
  unfold readApi2Data
  refine .bind (keeps_assign fun _ _ => rfl) fun _ => ?_
  refine .bind (keeps_assign fun _ _ => rfl) fun _ => ?_
  exact keeps_readEndpoints fun _ _ _ => rfl

theorem keeps_readHwm : Keeps AppConfig.logLevel (readHwm s) := by
  unfold readHwm
  exact keeps_assign fun _ _ => rfl

theorem keeps_readSubEndpoints : Keeps AppConfig.logLevel (readSubEndpoints s) := by
  unfold readSubEndpoints
  exact keeps_readEndpoints fun _ _ _ => rfl

theorem logLevel_of_throws {c c' : AppConfig} {e : JsonException}
    (h : (readAppConfig j).run.run c = (.error e, c')) : c'.logLevel = c.logLevel := by
  -- The level of the log is assigned last.
  have hkeeps : KeepsIfThrows AppConfig.logLevel (readAppConfig j) := by
    rw [readAppConfig_eq]
    refine .bind_of_keeps (keeps_atPlace fun _ => keeps_readCameraSdk) fun _ => ?_
    refine .bind_of_keeps (keeps_atPlace fun _ => keeps_readApi1Data) fun _ => ?_
    refine .bind_of_keeps (keeps_atPlace fun _ => keeps_readServer fun _ _ => rfl) fun _ => ?_
    refine .bind_of_keeps (keeps_atPlace fun _ => keeps_readApi2Data) fun _ => ?_
    refine .bind_of_keeps (keeps_atPlace fun _ => keeps_readServer fun _ _ => rfl) fun _ => ?_
    refine .bind_of_keeps (keeps_atPlace fun _ => keeps_readHwm) fun _ => ?_
    refine .bind_of_keeps (keeps_atPlace fun _ => keeps_readServer fun _ _ => rfl) fun _ => ?_
    refine .bind_of_keeps (keeps_atPlace fun _ => keeps_readSubEndpoints) fun _ => ?_
    exact keepsIfThrows_assign
  exact hkeeps c e c' h

end

/-! ### A reading that does not -/

section
variable {members : List (String × Json)} {j : Json}

theorem total_readCameraSdk (h : EntriesFit cameraSdkEntries members) :
    Total (readCameraSdk (.object members)) := by
  simp only [EntriesFit, cameraSdkEntries, List.forall_mem_cons] at h
  obtain ⟨hhost, hport, hcert, htimeout, -⟩ := h
  obtain ⟨_, hhost⟩ := exists_value_of_fits hhost
  obtain ⟨_, hport⟩ := exists_valueInt_of_fits hport
  obtain ⟨_, hcert⟩ := exists_value_of_fits hcert
  obtain ⟨_, htimeout⟩ := exists_valueInt_of_fits htimeout
  unfold readCameraSdk
  refine .bind (total_assign hhost) fun _ => ?_
  refine .bind (total_assign hport) fun _ => ?_
  refine .bind (total_assign hcert) fun _ => ?_
  exact total_assign htimeout

theorem total_readApi1Data (h : EntriesFit api1DataEntries members) :
    Total (readApi1Data (.object members)) := by
  simp only [EntriesFit, api1DataEntries, List.forall_mem_cons] at h
  obtain ⟨htransport, hchannels, -⟩ := h
  obtain ⟨_, htransport⟩ := exists_value_of_fits htransport
  unfold readApi1Data
  refine .bind (total_assign htransport) fun _ => ?_
  exact total_readEndpoints hchannels

theorem total_readServer {dflt : ServerDefaults}
    {update : (ServerConfig → ServerConfig) → AppConfig → AppConfig}
    (h : EntriesFit (serverEntries dflt) members) :
    Total (readServer dflt update (.object members)) := by
  simp only [EntriesFit, serverEntries, List.forall_mem_cons] at h
  obtain ⟨hhost, hport, hcert, hkey, hstrategy, hworkers, -⟩ := h
  obtain ⟨_, hhost⟩ := exists_value_of_fits hhost
  obtain ⟨_, hport⟩ := exists_valueInt_of_fits hport
  obtain ⟨_, hcert⟩ := exists_value_of_fits hcert
  obtain ⟨_, hkey⟩ := exists_value_of_fits hkey
  obtain ⟨_, hstrategy⟩ := exists_value_of_fits hstrategy
  obtain ⟨_, hworkers⟩ := exists_valueInt_of_fits hworkers
  unfold readServer
  refine .bind (total_assign hhost) fun _ => ?_
  refine .bind (total_assign hport) fun _ => ?_
  refine .bind (total_assign hcert) fun _ => ?_
  refine .bind (total_assign hkey) fun _ => ?_
  refine .bind (total_assign hstrategy) fun _ => ?_
  exact total_assign hworkers

theorem total_readApi2Data (h : EntriesFit api2DataEntries members) :
    Total (readApi2Data (.object members)) := by
  simp only [EntriesFit, api2DataEntries, List.forall_mem_cons] at h
  obtain ⟨htransport, hhwm, hendpoints, -⟩ := h
  obtain ⟨_, htransport⟩ := exists_value_of_fits htransport
  obtain ⟨_, hhwm⟩ := exists_valueInt_of_fits hhwm
  unfold readApi2Data
  refine .bind (total_assign htransport) fun _ => ?_
  refine .bind (total_assign hhwm) fun _ => ?_
  exact total_readEndpoints hendpoints

theorem total_readHwm (h : EntriesFit api3DataEntries members) :
    Total (readHwm (.object members)) := by
  simp only [EntriesFit, api3DataEntries, List.forall_mem_cons] at h
  obtain ⟨_, hhwm⟩ := exists_valueInt_of_fits h.1
  exact total_assign hhwm

theorem total_readSubEndpoints (h : EntriesFit api3DataEntries members) :
    Total (readSubEndpoints (.object members)) := by
  simp only [EntriesFit, api3DataEntries, List.forall_mem_cons] at h
  exact total_readEndpoints h.2.1

theorem Section.Readable.total_atPlace {p : Section} {read : Json → LoadM Unit}
    (h : p.Readable j)
    (hread : ∀ members, EntriesFit p.entries members → Total (read (.object members))) :
    Total (atPlace j p.place read) := by
  obtain ⟨members, hobject, hfit⟩ := h
  refine AppConfig.total_atPlace ?_
  intro s hs
  cases hobject.symm.trans hs
  exact hread members hfit

theorem Complete.total (h : Complete j) : Total (readAppConfig j) := by
  have hsections := h.1
  simp only [readSections, List.forall_mem_cons] at hsections
  obtain ⟨hsdk, hapi1, hserver, hapi2, hadmin, hapi3, hwss, hlog, -⟩ := hsections
  rw [readAppConfig_eq]
  refine .bind (hsdk.total_atPlace fun _ => total_readCameraSdk) fun _ => ?_
  refine .bind (hapi1.total_atPlace fun _ => total_readApi1Data) fun _ => ?_
  refine .bind (hserver.total_atPlace fun _ => total_readServer) fun _ => ?_
  refine .bind (hapi2.total_atPlace fun _ => total_readApi2Data) fun _ => ?_
  refine .bind (hadmin.total_atPlace fun _ => total_readServer) fun _ => ?_
  refine .bind (hapi3.total_atPlace fun _ => total_readHwm) fun _ => ?_
  refine .bind (hwss.total_atPlace fun _ => total_readServer) fun _ => ?_
  refine .bind (hapi3.total_atPlace fun _ => total_readSubEndpoints) fun _ => ?_
  obtain ⟨members, hobject, hfit⟩ := hlog
  cases hobject
  obtain ⟨_, hlevel⟩ := exists_value_of_fits (List.forall_mem_singleton.mp hfit)
  exact total_assign hlevel

end

/-! ### Every field -/

section
variable {p : Section} {j : Json} {c : AppConfig} {members : List (String × Json)}

theorem Section.Read.holds_iff (h : p.Read j c)
    (hobject : j.follow p.place = some (.object members)) :
    p.Holds (some j) c ↔ EntriesFit p.entries members := by
  refine forall₂_congr ?_
  intro e he
  have hread := h e he
  rw [hobject] at hread
  rw [Option.bind_some, Json.follow_append, hobject, Option.bind_some, Json.follow_singleton]
  exact hread.holds_iff

theorem Section.Read.exists_object (h : p.Read j c) (hholds : p.Holds (some j) c) {e : Entry p.Part}
    (he : e ∈ p.entries) {dflt : Bytes} (htext : e.dflt = .text dflt)
    (hunset : e.get (p.part {}) ≠ e.dflt) :
    ∃ members, j.follow p.place = some (.object members) := by
  have hread := h e he
  cases hfollow : j.follow p.place with
  | none =>
    have hheld := hholds e he
    rw [Option.bind_some, Json.follow_append, hfollow] at hheld
    rw [hfollow] at hread
    exact absurd (hread.symm.trans hheld) hunset
  | some s =>
    rw [hfollow, htext] at hread
    cases s with
    | object members => exact ⟨members, rfl⟩
    | _ => cases hheld : e.get (p.part c) <;> rw [hheld] at hread <;> cases hread

theorem exists_object_of_append {place rest : List String} {key : String} {v : Json}
    (h : j.follow (place ++ key :: rest) = some v) :
    ∃ members, j.follow place = some (.object members) := by
  rw [Json.follow_append] at h
  obtain ⟨s, hs, hrest⟩ := Option.bind_eq_some_iff.mp h
  cases s with
  | object members => exact ⟨members, hs⟩
  | _ => cases hrest

theorem Section.holds_congr {c' : AppConfig} {loaded : Option Json}
    (h : p.entries.map (·.get (p.part c)) = p.entries.map (·.get (p.part c'))) :
    p.Holds loaded c ↔ p.Holds loaded c' := by
  refine forall₂_congr ?_
  intro e he
  rw [List.map_inj_left.mp h e he]

theorem holds_unread_iff (hspsc : c.spsc = {}) (hdepth : c.dataBufferDepth = 3)
    {loaded : Option Json} :
    (∀ p ∈ unreadSections, p.Holds loaded c) ↔ ∀ p ∈ unreadSections, p.Holds loaded {} := by
  have heach : ∀ p ∈ unreadSections, (p.Holds loaded c ↔ p.Holds loaded {}) := by
    simp only [unreadSections, List.forall_mem_cons]
    exact ⟨Section.holds_congr (congrArg (fun s => spscQueues.entries.map (·.get s)) hspsc),
      Section.holds_congr (congrArg (fun n => [FieldValue.number (some n)]) hdepth), nofun⟩
  exact forall₂_congr heach

theorem exists_objects (hread : ∀ p ∈ readSections, p.Read j c)
    (hholds : ∀ p ∈ readSections, p.Holds (some j) c) :
    ∀ p ∈ readSections, ∃ members, j.follow p.place = some (.object members) := by
  simp only [readSections, List.forall_mem_cons] at hread hholds ⊢
  obtain ⟨rsdk, rapi1, rserver, rapi2, radmin, -, rwss, rlog, -⟩ := hread
  obtain ⟨hsdk, hapi1, hserver, hapi2, hadmin, -, hwss, hlog, -⟩ := hholds
  -- The first field of a section tells whether the section was there.
  have first {p : Section} {e : Entry p.Part} {entries : List (Entry p.Part)} {dflt : Bytes}
      (hread : p.Read j c) (hholds : p.Holds (some j) c) (hentries : p.entries = e :: entries)
      (htext : e.dflt = .text dflt) (hunset : e.get (p.part {}) ≠ e.dflt) :=
    hread.exists_object hholds (hentries ▸ List.mem_cons_self) htext hunset
  obtain ⟨wss, hwssObject⟩ := first rwss hwss rfl rfl nofun
  exact ⟨first rsdk hsdk rfl rfl nofun, first rapi1 hapi1 rfl rfl nofun,
    first rserver hserver rfl rfl nofun, first rapi2 hapi2 rfl rfl nofun,
    first radmin hadmin rfl rfl nofun, @exists_object_of_append _ ["api3", "data"] _ _ _ hwssObject,
    ⟨wss, hwssObject⟩, first rlog hlog rfl rfl nofun, nofun⟩

theorem holds_iff_complete {u : Unit} (h : Returns (readAppConfig j) {} u c) :
    (∀ p ∈ readSections ++ unreadSections, p.Holds (some j) c) ↔ Complete j := by
  obtain ⟨hread, hspsc, hdepth⟩ := read_of_returns h
  rw [List.forall_mem_append, holds_unread_iff hspsc hdepth, Complete]
  refine and_congr_left' ?_
  constructor
  · intro hholds
    have hobject := exists_objects hread hholds
    intro p hp
    obtain ⟨members, hmembers⟩ := hobject p hp
    exact ⟨members, hmembers, ((hread p hp).holds_iff hmembers).mp (hholds p hp)⟩
  · intro hreadable p hp
    obtain ⟨members, hmembers, hfit⟩ := hreadable p hp
    exact ((hread p hp).holds_iff hmembers).mpr hfit

theorem not_holds_of_logLevel (h : c.logLevel = []) :
    ¬∀ p ∈ readSections ++ unreadSections, p.Holds none c := by
  intro hholds
  have hmem : logging ∈ readSections ++ unreadSections := by simp [readSections]
  have hheld : FieldValue.text c.logLevel = .text (bytes "info") :=
    hholds logging hmem _ (List.mem_singleton_self _)
  rw [h] at hheld
  cases hheld

end

/-- Every field has its value exactly if the file can be read and is complete. -/
theorem determinate_iff (parse : Bytes → Except JsonException Json) (cfg : ConfigManager)
    (fs : FileSystem) :
    Determinate parse cfg fs ↔ ∃ text j, fs.contents (cfg.fullPath "config.json") = some text ∧
      parse text = .ok j ∧ Complete j := by
  unfold Determinate ConfigManager.loadAppConfig
  cases hfile : fs.contents (cfg.fullPath "config.json") with
  | none =>
    refine iff_of_false (not_holds_of_logLevel rfl) ?_
    rintro ⟨text, j, h, -⟩
    cases h
  | some text =>
    dsimp only
    cases hparse : parse text with
    | error e =>
      refine iff_of_false (not_holds_of_logLevel rfl) ?_
      rintro ⟨_, j, ⟨⟩, h, -⟩
      cases hparse.symm.trans h
    | ok j =>
      dsimp only
      rcases hrun : (readAppConfig j).run.run {} with ⟨e | u, c⟩
      · refine iff_of_false (not_holds_of_logLevel (logLevel_of_throws hrun)) ?_
        rintro ⟨_, j', ⟨⟩, h, hcomplete⟩
        cases hparse.symm.trans h
        obtain ⟨u, c', hreturns⟩ := hcomplete.total {}
        cases hrun.symm.trans hreturns
      · dsimp only
        constructor
        · rintro ⟨_, j', ⟨⟩, h, hholds⟩
          cases hparse.symm.trans h
          exact ⟨text, j, rfl, hparse, (holds_iff_complete hrun).mp hholds⟩
        · rintro ⟨_, j', ⟨⟩, h, hcomplete⟩
          cases hparse.symm.trans h
          exact ⟨text, j, rfl, hparse, (holds_iff_complete hrun).mpr hcomplete⟩

/-- It is enough that the sections are there; all they leave out is the default. -/
example : Complete (.object [("api1", .object [("camera_sdk", .object []), ("data", .object [])]),
    ("api2", .object [("server", .object []), ("data", .object [])]),
    ("api3", .object [("admin_server", .object []),
      ("data", .object [("wss_server", .object [])])])]) := by
  have hdata : EntriesFit api3DataEntries [("wss_server", .object [])] := by
    simp only [EntriesFit, api3DataEntries, List.forall_mem_cons]
    exact ⟨nofun, nofun, nofun⟩
  have hspsc : ∀ e ∈ spscEntries, e.dflt.Holds none (e.get {}) := by
    simp only [spscEntries, List.forall_mem_cons]
    exact ⟨rfl, rfl, rfl, rfl, rfl, nofun⟩
  simp only [Complete, readSections, unreadSections, List.forall_mem_cons]
  exact ⟨⟨⟨_, rfl, nofun⟩, ⟨_, rfl, nofun⟩, ⟨_, rfl, nofun⟩, ⟨_, rfl, nofun⟩, ⟨_, rfl, nofun⟩,
    ⟨_, rfl, hdata⟩, ⟨_, rfl, nofun⟩, ⟨_, rfl, List.forall_mem_singleton.mpr nofun⟩, nofun⟩,
    hspsc, List.forall_mem_singleton.mpr rfl, nofun⟩

/-- Without the file nothing is assigned, and the log says that the defaults are used. -/
theorem missing_file_unset :
    (⟨"config", none⟩ : ConfigManager).loadAppConfig parseNothing
        ⟨fun _ => none, fun _ => true⟩ {} = (false, {}) ∧
      ({} : AppConfig).api1.host = [] ∧ ({} : AppConfig).api1.port = none ∧
      ¬Determinate parseNothing ⟨"config", none⟩ ⟨fun _ => none, fun _ => true⟩ := by
  refine ⟨rfl, rfl, rfl, ?_⟩
  exact not_holds_of_logLevel rfl

end StereoCamera.AppConfig
