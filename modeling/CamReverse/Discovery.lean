import CamReverse.Impl
import CamReverse.Settings
import Mathlib.Data.List.Infix

/-!
# Searching for cameras

`_run_discovery` sends a LanSearch to every target once every three seconds, one task a target. It goes through the
configured targets when its endpoint is ready, and listens to `add_target` behind that, unless one of them raised. A
PunchPkt that comes back, from an address that is not blacklisted, is handed to the `discover` listener as what it says
about the camera.
-/

namespace CamReverse

open Effect

/-! ### Probes -/

def createLanSearch : Except PyErr DV := bareHeader .lanSearch 0 4

example : createLanSearch = .ok (.ofBytes [0xF1, 0x30, 0, 0]) := by decide

/-- How a `sendto` goes. An `OSError` is logged; whatever else is raised below it makes asyncio close the transport. -/
inductive Sendto where
  | sent
  | failed
  | fatal
  deriving DecidableEq, Repr

/-- The datagram transport of a discovery. One that is closing gets no more datagrams, but can send until the event
loop has taken its socket away. -/
inductive Endpoint where
  | absent
  | opened
  | closing
  | closed
  deriving DecidableEq, Repr

/-- A LanSearch that was handed to `sendto`. `nudge` tells those for a target that was searched already from the
rounds of the tasks. -/
structure Probe where
  time : ℚ
  ip : PyKey
  nudge : Bool
  result : Sendto
  deriving DecidableEq

/-- A task `_blast`: its target, and when its sleep is over. -/
structure Blast where
  ip : PyKey
  wakeAt : ℚ
  deriving DecidableEq

/-- What `_run_discovery` works on. A task that was cancelled or has raised is no longer listed. `listening` says
whether it came as far as `ee.on`. -/
structure Discovery where
  discoveryIps : PyVal
  transport : Endpoint
  listening : Bool
  active : List PyKey
  tasks : List Blast
  probes : List Probe

namespace Discovery

/-- `discover_devices`. -/
def start (discoveryIps : PyVal) : Discovery where
  discoveryIps := discoveryIps
  transport := .absent
  listening := false
  active := []
  tasks := []
  probes := []

/-- A LanSearch to what is no string is no `OSError`. -/
def sendsTo (ip : PyKey) (result : Sendto) : Sendto :=
  match ip with
  | .str _ => result
  | _ => .fatal

/-- The discovery after a `sendto` of a transport that has its socket. -/
def probed (d : Discovery) (now : ℚ) (ip : PyKey) (nudge : Bool) (result : Sendto) : Discovery :=
  { d with
    probes := d.probes ++ [⟨now, ip, nudge, sendsTo ip result⟩]
    transport := if sendsTo ip result = .fatal then .closing else d.transport }

def probe (now : ℚ) (ip : PyKey) (nudge : Bool) (result : Sendto) : EStateM PyErr Discovery Unit := do
  let d ← get
  if d.transport = .closed then
    -- a transport without its socket raises no `OSError`
    throw .attributeError
  else
    set (d.probed now ip nudge result)

/-- `_add_target`: a new task takes its first step as soon as the loop is free. -/
def addTarget (now : ℚ) (v : PyVal) (result : Sendto) : EStateM PyErr Discovery Unit := do
  let ip ← v.key
  let d ← get
  if ip ∈ d.active then
    probe now ip true result
  else
    set { d with active := d.active ++ [ip], tasks := d.tasks ++ [Blast.mk ip now] }

/-- The loop over `discovery_ips`; `results` says how its calls of `sendto` go. -/
def addTargets (now : ℚ) (results : ℕ → Sendto) (ips : List PyVal) : EStateM PyErr Discovery Unit :=
  ips.zipIdx.forM fun item => addTarget now item.1 (results item.2)

/-- `_run_discovery`, once the transport is there. -/
def ready (now : ℚ) (results : ℕ → Sendto) : EStateM PyErr Discovery Unit := do
  modify fun d => { d with transport := .opened }
  let d ← get
  let ips ← d.discoveryIps.items
  addTargets now results ips
  modify fun d => { d with listening := true }

/-- `ee.emit("add_target", ip)`. -/
def emitAddTarget (now : ℚ) (ip : String) (result : Sendto) : EStateM PyErr Discovery Unit := do
  let d ← get
  if d.listening then
    addTarget now (.str ip) result

/-- A round of `_blast`. What `_probe` raises ends the task. -/
def blast (d : Discovery) (now : ℚ) (i : ℕ) (result : Sendto) : Discovery :=
  match d.tasks[i]? with
  | none => d
  | some task =>
    -- `await asyncio.sleep(3)` does not return earlier
    if task.wakeAt ≤ now then
      match probe now task.ip false result d with
      | .ok _ d => { d with tasks := d.tasks.set i { task with wakeAt := now + 3000 } }
      | .error _ d => { d with tasks := d.tasks.eraseIdx i }
    else d

def onClose (d : Discovery) : Discovery :=
  { d with tasks := [], transport := if d.transport = .opened then .closing else d.transport }

end Discovery

/-- A callback of the event loop on the discovery: its endpoint is ready, somebody emits `add_target` or `close`, the
`i`-th task goes on after its sleep, or a transport that is closing loses its socket. -/
inductive DiscoveryStep where
  | ready (now : ℚ) (results : ℕ → Sendto)
  | addTarget (now : ℚ) (ip : String) (result : Sendto)
  | blast (now : ℚ) (i : ℕ) (result : Sendto)
  | close
  | connectionLost

def Discovery.step (d : Discovery) : DiscoveryStep → Discovery
  | .ready now results => if d.transport = .absent then final (ready now results) d else d
  | .addTarget now ip result => final (emitAddTarget now ip result) d
  | .blast now i result => d.blast now i result
  | .close => if d.listening then d.onClose else d
  | .connectionLost => if d.transport = .closing then { d with transport := .closed } else d

def Discovery.run (d : Discovery) (steps : List DiscoveryStep) : Discovery := steps.foldl Discovery.step d

/-! ### Answers -/

/-- `s in v`. -/
def PyVal.contains (v : PyVal) (s : String) : Except PyErr Bool :=
  match v with
  | .list xs => .ok (xs.any fun x => match x with
    | .str t => t == s
    | _ => false)
  | .dict kvs => .ok (kvs.lookup s).isSome
  | .str t => .ok (decide (s.toList <:+: t.toList))
  | _ => .error .typeError

/-- `ip in settings.config["blacklisted_ips"]`. -/
def blacklisted (config : Config) (ip : String) : Except PyErr Bool :=
  match config.lookup "blacklisted_ips" with
  | some v => v.contains ip
  | none => .error .keyError

/-- `_handle_incoming_punch`, with the `discover` listener. -/
def handleIncomingPunch {σ : Type} (config : σ → Config) (discover : String × ℕ → DevSerial → EStateM PyErr σ Unit)
    (msg : Bytes) (rinfo : String × ℕ) : EStateM PyErr σ Unit := do
  let dv := DV.ofBytes msg
  let cmdId ← dv.readU16
  if cmdId ≠ Command.punchPkt.code then
    return
  else
    let s ← get
    if ← blacklisted (config s) rinfo.1 then
      return
    else
      let dev ← parsePunchPkt dv
      discover rinfo dev

end CamReverse
