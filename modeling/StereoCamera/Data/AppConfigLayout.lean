import StereoCamera.Data.AppConfig

/-! The layout of `config.json`, with the default of each field, and what the configuration
holds after a load. -/

namespace StereoCamera

/-- The value that the keys lead to, one inside the other. -/
def Json.follow : List String → Json → Option Json
  | [], j => some j
  | key :: place, .object members => (members.lookup key).bind (follow place)
  | _ :: _, _ => none

theorem Json.follow_append (place rest : List String) (j : Json) :
    j.follow (place ++ rest) = (j.follow place).bind (follow rest) := by
  induction place generalizing j with
  | nil => rfl
  | cons key place ih =>
    cases j with
    | object members =>
      change (members.lookup key).bind (follow (place ++ rest)) = _
      rw [follow, Option.bind_assoc]
      exact congrArg _ (funext ih)
    | _ => rfl

theorem Json.follow_singleton (members : List (String × Json)) (key : String) :
    (object members).follow [key] = members.lookup key := by
  rw [follow]
  cases members.lookup key <;> rfl

namespace AppConfig

inductive FieldValue
  | text (s : Bytes)
  | number (n : Option Int32)
  | endpoints (m : Endpoints)

def FieldValue.Is : FieldValue → Json → Prop
  | .text s, v => v = .string s
  | .number (some n), v => v.Denotes n.toInt
  | .endpoints m, .object members =>
    ∀ name, (m.lookup name).map Json.string = members.lookup name
  | _, _ => False

def FieldValue.Fits (dflt : FieldValue) (v : Json) : Prop :=
  match dflt with
  | .text _ => ∃ s, v = .string s
  | .number _ => ∃ n, v.getInt = .ok n ∧ v.Denotes n.toInt
  | .endpoints _ => ∃ members, v = .object members ∧
      ∀ name w, members.lookup name = some w → ∃ s, w = .string s

def FieldValue.Holds (dflt : FieldValue) (found : Option Json) (held : FieldValue) : Prop :=
  match found with
  | none => held = dflt
  | some v => held.Is v

structure Entry (Part : Type) where
  key : String
  dflt : FieldValue
  get : Part → FieldValue

structure Section where
  {Part : Type}
  place : List String
  part : AppConfig → Part
  entries : List (Entry Part)

def cameraSdkEntries : List (Entry Api1Config) :=
  [⟨"host", .text (bytes "127.0.0.1"), fun a => .text a.host⟩,
    ⟨"port", .number (some 8443), fun a => .number a.port⟩,
    ⟨"cert_path", .text [], fun a => .text a.certPath⟩,
    ⟨"timeout_ms", .number (some 5000), fun a => .number a.timeoutMs⟩]

def cameraSdk : Section where
  place := ["api1", "camera_sdk"]
  part := AppConfig.api1
  entries := cameraSdkEntries

def api1DataEntries : List (Entry Api1Config) :=
  [⟨"transport", .text (bytes "ipc"), fun a => .text a.transport⟩,
    ⟨"channels", .endpoints ∅, fun a => .endpoints a.channels⟩]

def api1Data : Section where
  place := ["api1", "data"]
  part := AppConfig.api1
  entries := api1DataEntries

def serverEntries (dflt : ServerDefaults) : List (Entry ServerConfig) :=
  [⟨"host", .text dflt.host, fun s => .text s.host⟩,
    ⟨"port", .number (some dflt.port), fun s => .number s.port⟩,
    ⟨"cert_path", .text dflt.certPath, fun s => .text s.certPath⟩,
    ⟨"key_path", .text dflt.keyPath, fun s => .text s.keyPath⟩,
    ⟨"thread_strategy", .text dflt.threadStrategy, fun s => .text s.threadStrategy⟩,
    ⟨"worker_threads", .number (some dflt.workerThreads), fun s => .number s.workerThreads⟩]

def api2Server : Section where
  place := ["api2", "server"]
  part c := c.api2.server
  entries := serverEntries api2ServerDefaults

def api2DataEntries : List (Entry Api2DataConfig) :=
  [⟨"transport", .text (bytes "ipc"), fun d => .text d.transport⟩,
    ⟨"zmq_hwm", .number (some 2), fun d => .number (some d.zmqHwm)⟩,
    ⟨"pub_endpoints", .endpoints ∅, fun d => .endpoints d.pubEndpoints⟩]

def api2Data : Section where
  place := ["api2", "data"]
  part c := c.api2.data
  entries := api2DataEntries

def adminServer : Section where
  place := ["api3", "admin_server"]
  part c := c.api3.adminServer
  entries := serverEntries adminServerDefaults

def api3DataEntries : List (Entry Api3DataConfig) :=
  [⟨"zmq_hwm", .number (some 1), fun d => .number (some d.zmqHwm)⟩,
    ⟨"sub_endpoints", .endpoints ∅, fun d => .endpoints d.subEndpoints⟩]

def api3Data : Section where
  place := ["api3", "data"]
  part c := c.api3.data
  entries := api3DataEntries

def wssServer : Section where
  place := ["api3", "data", "wss_server"]
  part c := c.api3.data.wssServer
  entries := serverEntries wssServerDefaults

def logging : Section where
  place := []
  part c := c
  entries := [⟨"log_level", .text (bytes "info"), fun c => .text c.logLevel⟩]

def spscEntries : List (Entry SpscConfig) :=
  [⟨"queue_size", .number (some 4), fun s => .number (some s.queueSize)⟩,
    ⟨"drop_policy", .text (bytes "newest"), fun s => .text s.dropPolicy⟩,
    ⟨"publish_cv_timeout_ms", .number (some 10), fun s => .number (some s.publishCvTimeoutMs)⟩,
    ⟨"encode_cv_timeout_ms", .number (some 10), fun s => .number (some s.encodeCvTimeoutMs)⟩,
    ⟨"send_cv_timeout_ms", .number (some 10), fun s => .number (some s.sendCvTimeoutMs)⟩]

def spscQueues : Section where
  place := ["spsc"]
  part := AppConfig.spsc
  entries := spscEntries

def buffering : Section where
  place := []
  part c := c
  entries := [⟨"data_buffer_depth", .number (some 3), fun c => .number (some c.dataBufferDepth)⟩]

def readSections : List Section :=
  [cameraSdk, api1Data, api2Server, api2Data, adminServer, api3Data, wssServer, logging]

/-- These have a place in the file, and `load_app_config` does not look there. -/
def unreadSections : List Section := [spscQueues, buffering]

/-- Each field holds what is at its place, or its default where nothing is. -/
def Section.Holds (p : Section) (loaded : Option Json) (c : AppConfig) : Prop :=
  ∀ e ∈ p.entries, e.dflt.Holds (loaded.bind (Json.follow (p.place ++ [e.key]))) (e.get (p.part c))

/-- After the first load every field has a value: where the load succeeded the one in the file,
as far as it is there, and otherwise the default. -/
def Determinate (parse : Bytes → Except JsonException Json) (cfg : ConfigManager)
    (fs : FileSystem) : Prop :=
  match cfg.loadAppConfig parse fs {} with
  | (true, c) => ∃ text j, fs.contents (cfg.fullPath "config.json") = some text ∧
      parse text = .ok j ∧ ∀ p ∈ readSections ++ unreadSections, p.Holds (some j) c
  | (false, c) => ∀ p ∈ readSections ++ unreadSections, p.Holds none c

def EntriesFit {Part : Type} (entries : List (Entry Part)) (members : List (String × Json)) :
    Prop :=
  ∀ e ∈ entries, ∀ v, members.lookup e.key = some v → e.dflt.Fits v

def Section.Readable (p : Section) (j : Json) : Prop :=
  ∃ members, j.follow p.place = some (.object members) ∧ EntriesFit p.entries members

/-- All sections are there that are read, and nothing but the default is in the others. -/
def Complete (j : Json) : Prop :=
  (∀ p ∈ readSections, p.Readable j) ∧ ∀ p ∈ unreadSections, p.Holds (some j) {}

end AppConfig

end StereoCamera
