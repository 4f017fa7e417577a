import CamReverse.Http.Saving
import CamReverse.Http.Service

/-!
# Processes and files

The `http_server` subcommand loads a configuration file, if it is given one, and serves what is in it. Requests save the
configuration and read it again, and a target that is to be remembered is saved with it. The process may end at any
time, and be launched again; the files stay.
-/

namespace CamReverse

open Effect

variable {Text : Type}

/-! ### Files -/

/-- What `yaml` makes of the text of a file, and of a configuration. -/
structure Yaml (Text : Type) where
  safeLoad : Text → Except ConfigErr PyVal
  safeDump : Config → Text

/-- A mapping that is loaded has no key twice, and one that was dumped is loaded as it was. -/
structure Yaml.Lawful (y : Yaml Text) : Prop where
  unique : ∀ {text : Text} {kvs : List (String × PyVal)}, y.safeLoad text = .ok (.dict kvs) → (kvs.map Prod.fst).Nodup
  load_dump : ∀ {config : Config}, (config.map Prod.fst).Nodup → y.safeLoad (y.safeDump config) = .ok (.dict config)

namespace Writing

def outcome : Writing Text → Except ConfigErr Unit
  | .whole => .ok ()
  | .refused text => .error (.osError text)
  | .broken _ text => .error (.osError text)

def leave (w : Writing Text) (path : String) (text : Text) (files : Table String Text) : Table String Text :=
  match w with
  | .whole => files.insert path text
  | .refused _ => files
  | .broken left _ => files.insert path left

end Writing

/-- A running process and the files around it. -/
structure Machine (Text : Type) where
  files : Table String Text
  configPath : Option String
  service : Service

namespace Machine

def settings (m : Machine Text) : Settings := ⟨m.service.server.web.config, m.configPath⟩

def setConfig (m : Machine Text) (config : Config) : Machine Text :=
  { m with service := { m.service with server := m.service.server.step (.configure config) } }

def setSettings (s : Settings) (m : Machine Text) : Machine Text :=
  { m.setConfig s.config with configPath := s.configPath }

def path (m : Machine Text) : String := m.settings.target.getD defaultConfigFile

end Machine

abbrev MachineM (Text : Type) := EStateM ConfigErr (Machine Text)

def inSettings {α : Type} (m : EStateM ConfigErr Settings α) : MachineM Text α :=
  onPart Machine.settings Machine.setSettings m

def inService {α : Type} (p : EStateM PyErr Service α) : MachineM Text α :=
  onPart Machine.service (fun svc m => { m with service := svc }) (p.adaptExcept ConfigErr.other)

/-- A computation of the program itself. -/
def inPython {α : Type} (x : Except PyErr α) : MachineM Text α := lift (x.mapError ConfigErr.other)

/-- `save_config`, with the file. -/
def saveConfigFile (y : Yaml Text) (w : Writing Text) : MachineM Text String := do
  let m ← get
  set { m with files := w.leave m.path (y.safeDump m.settings.config) m.files }
  inSettings (saveConfig w.outcome)

/-! ### Requests -/

/-- `_handle_config_post`, with the file. -/
def handlePost (y : Yaml Text) (body : Option PyVal) (w : Writing Text) : MachineM Text ConfigReply :=
  configPostBy (fun new => inSettings (inConfig (applyConfig new))) (saveConfigFile y w) body

/-- The configuration file, if there is one; opening it may be denied. -/
def Machine.fileRead (y : Yaml Text) (denied : Option String) (m : Machine Text) : Option (Except ConfigErr PyVal) :=
  (m.files.find? m.path).map fun text =>
    match denied with
    | some reason => .error (.osError reason)
    | none => y.safeLoad text

/-- `_handle_config_reload`. -/
def handleReload (y : Yaml Text) (denied : Option String) : MachineM Text ConfigReply := do
  let m ← get
  inSettings (configReload (m.fileRead y denied))

def handleCameraSave (y : Yaml Text) (devId : String) (w : Writing Text) : MachineM Text ConfigReply := do
  let m ← get
  let cameras ← inPython (configCameras m.settings.config)
  if ← inPython (cameras.contains devId) then
    tryCatch (do return .saved (← saveConfigFile y w)) fun
      | .osError text => return .error 500 ("could not write config: " ++ text)
      | e => throw e
  else
    return .error 404 "unknown camera"

/-- `str(v)`, where `repr` is that of numbers with a point and of collections. -/
def PyVal.toStr (repr : PyVal → String) : PyVal → String
  | .none => "None"
  | .bool b => if b then "True" else "False"
  | .int i => toString i
  | .str s => s
  | v => repr v

/-- `c.isspace()`. -/
def isSpace (c : Char) : Bool :=
  (9 ≤ c.toNat && c.toNat ≤ 13) || (28 ≤ c.toNat && c.toNat ≤ 32) || (0x2000 ≤ c.toNat && c.toNat ≤ 0x200A) ||
    [0x85, 0xA0, 0x1680, 0x2028, 0x2029, 0x202F, 0x205F, 0x3000].contains c.toNat

/-- `s.strip()`. -/
def strip (s : String) : String :=
  String.ofList ((s.toList.dropWhile isSpace).reverse.dropWhile isSpace).reverse

/-- `settings.config["discovery_ips"]`. -/
def configIps (config : Config) : Except PyErr PyVal :=
  match config.lookup "discovery_ips" with
  | some ips => .ok ips
  | none => .error .keyError

/-- `settings.config["discovery_ips"].append(ip)`. -/
def appendIp (ip : String) (config : Config) : Except PyErr Config := do
  match ← configIps config with
  | .list ips => return Table.put config "discovery_ips" (.list (ips ++ [.str ip]))
  | _ => throw .attributeError

/-- The response of `_handle_discover`. -/
inductive DiscoverReply where
  | error (status : ℕ) (text : String)
  | added (ip : String) (saved : Option String)

/-- `_discovery_ev.emit("add_target", ip)`. -/
def emitAddTarget (now : ℚ) (ip : String) (result : Sendto) : MachineM Text Unit :=
  inService (inDiscovery (Discovery.emitAddTarget now ip result))

def handleDiscover (y : Yaml Text) (repr : PyVal → String) (now : ℚ) (result : Sendto) (body : Option PyVal)
    (w : Writing Text) : MachineM Text DiscoverReply := do
  let body := (body.getD (.dict [])).orEmpty
  let ip := strip ((← inPython (body.get "ip" (.str ""))).toStr repr)
  let remember := (← inPython (body.get "remember" .none)).truthy
  if ip = "" then
    return .error 400 "ip is required"
  else
    emitAddTarget now ip result
    if remember then
      let m ← get
      if ← inPython ((← inPython (configIps m.settings.config)).contains ip) then
        return .added ip none
      else
        let config ← inPython (appendIp ip m.settings.config)
        modify fun m => m.setConfig config
        tryCatch (do return .added ip (some (← saveConfigFile y w))) fun
          | .osError _ => return .added ip none
          | e => throw e
    else
      return .added ip none

/-! ### Launching -/

structure Options where
  configFile : Option String
  port : Option ℤ
  color : Option Bool
  logLevel : Option String
  discoveryIp : Option String

/-- `settings.config[k][k'] = v`. -/
def setItem (k k' : String) (v : PyVal) (config : Config) : Except PyErr Config :=
  match config.lookup k with
  | some (.dict kvs) => .ok (Table.put config k (.dict (Table.put kvs k' v)))
  | some _ => .error .typeError
  | none => .error .keyError

/-- `settings.config[k][k']`. -/
def getItem (k k' : String) (config : Config) : Except PyErr PyVal :=
  match config.lookup k with
  | some (.dict kvs) =>
    match kvs.lookup k' with
    | some v => .ok v
    | none => .error .keyError
  | some _ => .error .typeError
  | none => .error .keyError

/-- An element of a sequence that `dict.update` goes through: a key and a value. -/
def PyVal.pair (v : PyVal) : Except PyErr (Option (String × PyVal)) := do
  match ← v.items with
  | [k, value] =>
    match ← k.key with
    | .str k => return some (k, value)
    | _ => return .none
  | _ => throw .valueError

/-- What `dict.update` takes over from its argument. -/
def PyVal.updates : PyVal → Except PyErr (List (String × PyVal))
  | .dict kvs => .ok kvs
  | v => do return (← (← v.items).mapM PyVal.pair).filterMap id

/-- `load_config`. -/
def loadConfigFile (y : Yaml Text) (denied : Option String) (files : Table String Text) (path : String) :
    Except ConfigErr Settings := do
  match denied, files.find? path with
  | some reason, _ => throw (.osError reason)
  | none, none => throw (.osError path)
  | none, some text =>
    let parsed ← (← y.safeLoad text).orEmpty.updates.mapError ConfigErr.other
    return ⟨loadConfig parsed, some path⟩

/-- What an argument does to the configuration, if it is given. -/
def setOption {α : Type} (arg : Option α) (f : α → Config → Except PyErr Config) (config : Config) :
    Except PyErr Config :=
  match arg with
  | some a => f a config
  | none => .ok config

/-- The branch of `main` for the subcommand, before it serves: what it does to the configuration. -/
def mainConfig (o : Options) (config : Config) : Except PyErr Config := do
  let config ← setOption (o.port.filter (· ≠ 0)) (fun port => setItem "http_server" "port" (.int port)) config
  let config ← setOption o.color (fun color => setItem "logging" "use_color" (.bool color)) config
  let config ← setOption o.logLevel (fun level => setItem "logging" "level" (.str level)) config
  let config ← setOption o.discoveryIp
    (fun ip config => .ok (Table.put config "discovery_ips" (.list [.str ip]))) config
  let level ← getItem "logging" "level" config
  let _port ← getItem "http_server" "port" config
  -- `_LEVELS.get(level)`
  let _level ← level.key
  return config

def startSettings (y : Yaml Text) (denied : Option String) (files : Table String Text) :
    Option String → Except ConfigErr Settings
  | some path => loadConfigFile y denied files path
  | none => .ok ⟨defaultConfig, none⟩

/-- `main` and `serve_http`, as far as the server. -/
def launch (y : Yaml Text) (denied : Option String) (o : Options) (files : Table String Text) :
    Except ConfigErr (Machine Text) := do
  let settings ← startSettings y denied files o.configFile
  let config ← (mainConfig o settings.config).mapError ConfigErr.other
  let discoveryIps ← (configIps config).mapError ConfigErr.other
  return ⟨files, settings.configPath, .start config discoveryIps⟩

/-! ### The host -/

/-- Where the server runs, or does not. -/
inductive Host (Text : Type) where
  | down (files : Table String Text)
  | running (m : Machine Text)

def Host.files : Host Text → Table String Text
  | .down files => files
  | .running m => m.files

/-- A callback of the event loop that changes no configuration file and comes from no request for the configuration.
Nobody closes the discovery of the server. -/
def ServiceEvent.outside : ServiceEvent → Bool
  | .punch _ _ => true
  | .reconnect _ _ _ => true
  | .search (.ready _ _) => true
  | .search (.blast _ _ _) => true
  | .search .connectionLost => true
  | .search (.addTarget _ _ _) => false
  | .search .close => false
  | .serve step _ => !step.configures

/-- What happens on a host: the server is launched or ends, somebody writes or removes a file, or the server handles a
callback or a request. -/
inductive HostStep (Text : Type) where
  | launch (o : Options) (denied : Option String)
  | kill
  | edit (path : String) (text : Option Text)
  | event (ev : ServiceEvent) (hev : ev.outside = true)
  | rotate (devId : String)
  | mirror (devId : String)
  | post (body : Option PyVal) (w : Writing Text)
  | reload (denied : Option String)
  | cameraSave (devId : String) (w : Writing Text)
  | discover (now : ℚ) (result : Sendto) (body : Option PyVal) (w : Writing Text)

def editFile (files : Table String Text) (path : String) : Option Text → Table String Text
  | some text => files.insert path text
  | none => files.erase path

def Machine.step (y : Yaml Text) (repr : PyVal → String) (m : Machine Text) : HostStep Text → Machine Text
  | .event ev _ => { m with service := m.service.step ev }
  | .rotate devId => m.setConfig (final (handleRotate devId) m.settings.config)
  | .mirror devId => m.setConfig (final (handleMirror devId) m.settings.config)
  | .post body w => final (handlePost y body w) m
  | .reload denied => final (handleReload y denied) m
  | .cameraSave devId w => final (handleCameraSave y devId w) m
  | .discover now result body w => final (handleDiscover y repr now result body w) m
  | _ => m

def Host.step (y : Yaml Text) (repr : PyVal → String) : Host Text → HostStep Text → Host Text
  | .down files, .launch o denied =>
    match CamReverse.launch y denied o files with
    | .ok m => .running m
    | .error _ => .down files
  | .running m, .kill => .down m.files
  | .down files, .edit path text => .down (editFile files path text)
  | .running m, .edit path text => .running { m with files := editFile m.files path text }
  | .running m, step => .running (m.step y repr step)
  | .down files, _ => .down files

def Host.run (y : Yaml Text) (repr : PyVal → String) (h : Host Text) (steps : List (HostStep Text)) : Host Text :=
  steps.foldl (Host.step y repr) h

end CamReverse
