import StereoCamera.Common.Std
import StereoCamera.Data.ConfigManager

/-! `config.json` (`load_app_config` of `data/ConfigManager.cpp`). An `int` without an
initializer is `none` until something is assigned to it. -/

namespace StereoCamera

/-- The members of an object; a key is there once. -/
def Json.items : Json → List (String × Json)
  | .object members => (members.map Prod.fst).dedup.map fun key => (key, item (.object members) key)
  | _ => []

def Json.isObject : Json → Bool
  | .object _ => true
  | _ => false

abbrev Endpoints := AList fun _ : String => Bytes

structure Api1Config where
  host : Bytes := []
  port : Option Int32 := none
  certPath : Bytes := []
  timeoutMs : Option Int32 := none
  transport : Bytes := []
  channels : Endpoints := ∅

/-- The three servers are configured alike. -/
structure ServerConfig where
  host : Bytes := []
  port : Option Int32 := none
  certPath : Bytes := []
  keyPath : Bytes := []
  threadStrategy : Bytes := []
  workerThreads : Option Int32 := none

abbrev Api2ServerConfig := ServerConfig

structure Api2DataConfig where
  transport : Bytes := []
  zmqHwm : Int32 := 2
  pubEndpoints : Endpoints := ∅

structure Api2Config where
  server : Api2ServerConfig := {}
  data : Api2DataConfig := {}

abbrev Api3AdminConfig := ServerConfig

abbrev Api3WssConfig := ServerConfig

structure Api3DataConfig where
  wssServer : Api3WssConfig := {}
  zmqHwm : Int32 := 1
  subEndpoints : Endpoints := ∅

structure Api3Config where
  adminServer : Api3AdminConfig := {}
  data : Api3DataConfig := {}

structure SpscConfig where
  queueSize : Int32 := 4
  dropPolicy : Bytes := bytes "newest"
  publishCvTimeoutMs : Int32 := 10
  encodeCvTimeoutMs : Int32 := 10
  sendCvTimeoutMs : Int32 := 10

structure AppConfig where
  api1 : Api1Config := {}
  api2 : Api2Config := {}
  api3 : Api3Config := {}
  spsc : SpscConfig := {}
  dataBufferDepth : Int32 := 3
  logLevel : Bytes := []

structure ServerDefaults where
  host : Bytes
  port : Int32
  certPath : Bytes := []
  keyPath : Bytes := []
  threadStrategy : Bytes
  workerThreads : Int32

namespace AppConfig

abbrev LoadM := ExceptT JsonException (StateM AppConfig)

/-- A field is assigned unless reading its value throws. -/
def assign {α : Type} (value : Except JsonException α) (set : α → AppConfig → AppConfig) :
    LoadM Unit := do
  let v ← value
  modify (set v)

def valueInt (j : Json) (key : String) (dflt : Int32) : Except JsonException Int32 :=
  j.valueWith Json.getInt key dflt

/-- `if (j.contains(key)) { auto& s = j[key]; .. }`. -/
def inSection (j : Json) (key : String) (read : Json → LoadM Unit) : LoadM Unit :=
  if j.contains key then read (j.item key) else return ()

/-- The loop over an object of strings; what is no object is passed over. -/
def readEndpoints (j : Json) (key : String) (set : String → Bytes → AppConfig → AppConfig) :
    LoadM Unit :=
  if j.contains key ∧ (j.item key).isObject then
    (j.item key).items.forM fun (name, val) => assign val.getString (set name)
  else return ()

def readCameraSdk (cs : Json) : LoadM Unit := do
  assign (cs.value "host" (bytes "127.0.0.1")) fun v c => { c with api1.host := v }
  assign (valueInt cs "port" 8443) fun v c => { c with api1.port := some v }
  assign (cs.value "cert_path" []) fun v c => { c with api1.certPath := v }
  assign (valueInt cs "timeout_ms" 5000) fun v c => { c with api1.timeoutMs := some v }

def readApi1Data (d : Json) : LoadM Unit := do
  assign (d.value "transport" (bytes "ipc")) fun v c => { c with api1.transport := v }
  readEndpoints d "channels" fun name v c =>
    { c with api1.channels := c.api1.channels.insert name v }

/-- `update` changes the configuration of the server that is read. -/
def readServer (dflt : ServerDefaults)
    (update : (ServerConfig → ServerConfig) → AppConfig → AppConfig) (s : Json) : LoadM Unit := do
  assign (s.value "host" dflt.host) fun v => update fun c => { c with host := v }
  assign (valueInt s "port" dflt.port) fun v => update fun c => { c with port := some v }
  assign (s.value "cert_path" dflt.certPath) fun v => update fun c => { c with certPath := v }
  assign (s.value "key_path" dflt.keyPath) fun v => update fun c => { c with keyPath := v }
  assign (s.value "thread_strategy" dflt.threadStrategy) fun v =>
    update fun c => { c with threadStrategy := v }
  assign (valueInt s "worker_threads" dflt.workerThreads) fun v =>
    update fun c => { c with workerThreads := some v }

def api2ServerDefaults : ServerDefaults where
  host := bytes "0.0.0.0"
  port := 8444
  threadStrategy := bytes "hybrid"
  workerThreads := 4

def adminServerDefaults : ServerDefaults where
  host := bytes "127.0.0.1"
  port := 9443
  threadStrategy := bytes "hybrid"
  workerThreads := 4

def wssServerDefaults : ServerDefaults where
  host := bytes "127.0.0.1"
  port := 9444
  threadStrategy := bytes "one_loop_per_thread"
  workerThreads := 2

def updateApi2Server (f : ServerConfig → ServerConfig) (c : AppConfig) : AppConfig :=
  { c with api2.server := f c.api2.server }

def updateAdminServer (f : ServerConfig → ServerConfig) (c : AppConfig) : AppConfig :=
  { c with api3.adminServer := f c.api3.adminServer }

def updateWssServer (f : ServerConfig → ServerConfig) (c : AppConfig) : AppConfig :=
  { c with api3.data.wssServer := f c.api3.data.wssServer }

def readApi2Data (d : Json) : LoadM Unit := do
  assign (d.value "transport" (bytes "ipc")) fun v c => { c with api2.data.transport := v }
  assign (valueInt d "zmq_hwm" 2) fun v c => { c with api2.data.zmqHwm := v }
  readEndpoints d "pub_endpoints" fun name v c =>
    { c with api2.data.pubEndpoints := c.api2.data.pubEndpoints.insert name v }

def readApi3Data (d : Json) : LoadM Unit := do
  assign (valueInt d "zmq_hwm" 1) fun v c => { c with api3.data.zmqHwm := v }
  inSection d "wss_server" (readServer wssServerDefaults updateWssServer)
  readEndpoints d "sub_endpoints" fun name v c =>
    { c with api3.data.subEndpoints := c.api3.data.subEndpoints.insert name v }

def readAppConfig (j : Json) : LoadM Unit := do
  inSection j "api1" fun a1 => do
    inSection a1 "camera_sdk" readCameraSdk
    inSection a1 "data" readApi1Data
  inSection j "api2" fun a2 => do
    inSection a2 "server" (readServer api2ServerDefaults updateApi2Server)
    inSection a2 "data" readApi2Data
  inSection j "api3" fun a3 => do
    inSection a3 "admin_server" (readServer adminServerDefaults updateAdminServer)
    inSection a3 "data" readApi3Data
  assign (j.value "log_level" (bytes "info")) fun v c => { c with logLevel := v }

end AppConfig

/-- `app` is `app_config_`, which nothing else in the class uses. -/
def ConfigManager.loadAppConfig (parse : Bytes → Except JsonException Json) (cfg : ConfigManager)
    (fs : FileSystem) (app : AppConfig) : Bool × AppConfig :=
  match fs.contents (cfg.fullPath "config.json") with
  | none => (false, app)
  | some text =>
    match parse text with
    | .error _ => (false, app)
    | .ok j =>
      match (AppConfig.readAppConfig j).run.run app with
      | (.ok _, app) => (true, app)
      | (.error _, app) => (false, app)

end StereoCamera
