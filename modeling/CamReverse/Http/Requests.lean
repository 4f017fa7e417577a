import CamReverse.Http.Effects

/-!
# Requests that change the configuration

The configuration is read from a file at the start, and later overlaid with what is posted or read again,
camera by camera, and changed in place by the buttons of the web UI. A program that raises leaves behind what
it has written until then. `Server.serve` is the server whose configuration only these requests change.
-/

namespace CamReverse

open Effect

/-! ### `settings` -/

/-- `load_config`, for a file with this mapping. -/
def loadConfig (parsed : List (String × PyVal)) : Config := Table.overlay defaultConfig parsed

/-- `v or {}`. -/
def PyVal.orEmpty (v : PyVal) : PyVal := if v.truthy then v else .dict []

/-- `{**v, **w}`. -/
def PyVal.merge : PyVal → PyVal → Except PyErr PyVal
  | .dict kvs, .dict kvs' => .ok (.dict (Table.overlay kvs kvs'))
  | _, _ => .error .typeError

def updateConfig (f : Config → Except PyErr Config) : EStateM PyErr Config Unit := do
  set (← f (← get))

/-- `config.setdefault(k, v)`. -/
def setDefault (k : String) (v : PyVal) (config : Config) : Config :=
  if (config.lookup k).isSome then config else Table.put config k v

/-- `cams[cid] = {**cams.get(cid, {}), **(cfg or {})}`. -/
def overlayCamera (cid : String) (cfg : PyVal) (config : Config) : Except PyErr Config := do
  let merged ← (← cameraConfig config cid).merge cfg.orEmpty
  setCameraConfig config cid merged

/-- The body of the loop of `apply_config`. -/
def applyItem (key : String) (value : PyVal) : EStateM PyErr Config Unit :=
  match key, value with
  | "cameras", .dict cams => do
    modify (setDefault "cameras" (.dict []))
    cams.forM fun cam => updateConfig (overlayCamera cam.1 cam.2)
  | key, value => modify fun config => Table.put config key value

def applyConfig (new : List (String × PyVal)) : EStateM PyErr Config Unit :=
  new.forM fun item => applyItem item.1 item.2

/-- `reload_config`; there may be no file. -/
def reloadConfig (file : Option PyVal) : EStateM PyErr Config Unit :=
  match file with
  | none => return
  | some parsed =>
    match parsed.orEmpty with
    | .dict new => applyConfig new
    | _ => throw .attributeError

theorem overlayCamera_ok {config config' : Config} {cid : String} {cfg : PyVal}
    (h : overlayCamera cid cfg config = .ok config') :
    ∃ cameras old kvs, config.lookup "cameras" = some (.dict cameras) ∧
      cameraConfig config cid = .ok (.dict old) ∧ cfg.orEmpty = .dict kvs ∧
      config' = putEntry config cameras cid (Table.overlay old kvs) := by
  unfold overlayCamera at h
  obtain ⟨cam, hcam, h⟩ := except_bind_eq_ok h
  obtain ⟨merged, hmerged, h⟩ := except_bind_eq_ok h
  unfold PyVal.merge at hmerged
  split at hmerged
  · rename_i old kvs hkvs
    cases hmerged
    obtain ⟨cameras, hcameras, hconfig⟩ := setCameraConfig_ok h
    exact ⟨cameras, old, kvs, hcameras, hcam, hkvs, hconfig⟩
  · cases hmerged

/-! ### `http_server` -/

/-- `_handle_config_post`, with the value of the request's body unless that is no JSON. -/
def handleConfigPost (body : Option PyVal) : EStateM PyErr Config Unit :=
  match body with
  | some (.dict new) => applyConfig new
  | _ => return

/-- `settings.config["cameras"][dev_id]`. -/
def cameraEntry (config : Config) (devId : String) : Except PyErr PyVal := do
  match ← configCameras config with
  | .dict cameras =>
    match cameras.lookup devId with
    | some cam => return cam
    | none => throw .keyError
  | _ => throw .typeError

/-- `settings.config["cameras"][dev_id][k] = v`. -/
def setCameraField (config : Config) (devId k : String) (v : PyVal) : Except PyErr Config := do
  match ← cameraEntry config devId with
  | .dict kvs => setCameraConfig config devId (.dict (Table.put kvs k v))
  | _ => throw .typeError

/-- `(cur + 1) % 4`. -/
def nextRotation : PyVal → Except PyErr PyVal
  | .int i => .ok (.int ((i + 1) % 4))
  | .bool b => .ok (.int (if b then 2 else 1))
  | .float q => .ok (.float (q + 1 - 4 * ((q + 1) / 4).floor))
  | _ => .error .typeError

def handleRotate (devId : String) : EStateM PyErr Config Unit :=
  updateConfig fun config => do
    let cur ← (← cameraConfig config devId).get "rotate" (.int 0)
    let nxt ← nextRotation cur
    setCameraField config devId "rotate" nxt

def handleMirror (devId : String) : EStateM PyErr Config Unit :=
  updateConfig fun config => do
    let cam ← cameraEntry config devId
    let mirror ← cam.get "mirror" .none
    setCameraField config devId "mirror" (.bool !mirror.truthy)

def cameraName (config : Config) (devId : String) : Except PyErr PyVal := do
  let cameraAlias ← (← cameraConfig config devId).get "alias" .none
  return if cameraAlias.truthy then cameraAlias else .str devId

/-- A request that may change the configuration. -/
inductive ConfigRequest where
  | configPost (body : Option PyVal)
  | configReload (file : Option PyVal)
  | rotate (devId : String)
  | mirror (devId : String)

def ConfigRequest.handle : ConfigRequest → EStateM PyErr Config Unit
  | .configPost body => handleConfigPost body
  | .configReload file => reloadConfig file
  | .rotate devId => handleRotate devId
  | .mirror devId => handleMirror devId

/-- The overlay a request applies. -/
def ConfigRequest.overlaid : ConfigRequest → List (String × PyVal)
  | .configPost (some (.dict new)) => new
  | .configReload (some parsed) =>
    match parsed.orEmpty with
    | .dict new => new
    | _ => []
  | _ => []

/-! ### The server -/

/-- A step that sets the configuration to anything. -/
def ServerStep.configures : ServerStep → Bool
  | .configure _ => true
  | _ => false

/-- A request for the configuration, or any other step of the server. -/
inductive ServiceStep where
  | request (r : ConfigRequest)
  | other (step : ServerStep) (hstep : step.configures = false)

def Server.serve (srv : Server) : ServiceStep → Server
  | .request r => srv.step (.configure (final r.handle srv.web.config))
  | .other step _ => srv.step step

end CamReverse
