import CamReverse.Http.Media
import CamReverse.Lifecycle
import Mathlib.Logic.Function.Basic

/-!
# The HTTP server

The state of `http_server` is what its module holds (`Web`), the sessions it has made, and the handlers of
its open `/camera/{devId}` and `/audio/{devId}` requests. `sessions` and the queue lists refer to session
and queue objects by the order of their making. A step is a callback of the event loop: a discovery, a
callback of some session, or a stretch of some handler between two of its awaits.
-/

namespace CamReverse

open Effect

/-- The two kinds of stream, `/camera/{devId}` and `/audio/{devId}`. -/
inductive Media where
  | video
  | audio
  deriving DecidableEq, Repr

/-- An `asyncio.Queue`, with every chunk it was offered so far. -/
structure ChunkQueue where
  maxsize : ℕ
  items : List Bytes
  offered : List Bytes
  deriving DecidableEq

def ChunkQueue.made (media : Media) : ChunkQueue where
  maxsize :=
    match media with
    | .video => 10
    | .audio => 200
  items := []
  offered := []

/-- `put_nowait`, whose `QueueFull` its callers swallow. -/
def ChunkQueue.putNowait (chunk : Bytes) (q : ChunkQueue) : ChunkQueue :=
  { q with
    items := if q.items.length < q.maxsize then q.items ++ [chunk] else q.items
    offered := q.offered ++ [chunk] }

/-- The state of the module; `queues .video` is `video_queues` and `queues .audio` is `audio_queues`. -/
structure Web where
  config : Config
  sessions : Table String ℕ
  queues : Media → Table String (List ℕ)
  cameraIps : Table String String
  chunks : List ChunkQueue

/-! ### The listeners of a session -/

/-- The loop over the queues of a camera. -/
def offer (media : Media) (devId : String) (chunk : Bytes) : EStateM PyErr Web Unit := do
  let web ← get
  match (web.queues media).find? devId with
  | none => throw .keyError
  | some qs =>
    qs.forM fun q => modify fun web => { web with chunks := web.chunks.modify q (·.putNowait chunk) }

def onFrame (devId : String) (curImage : List Bytes) : EStateM PyErr Web Unit := do
  let web ← get
  let assembled ← assembleFrame web.config devId curImage
  offer .video devId (frameChunk assembled)

def onAudio (devId : String) (data : Bytes) : EStateM PyErr Web Unit :=
  offer .audio devId (audioChunk data)

/-- `on_disconnect`. -/
def dropSession (devId : String) (web : Web) : Web := { web with sessions := web.sessions.erase devId }

/-- A session the server made, with the listeners `_on_discover` has attached: those for frames and
disconnects, and the one for audio. -/
structure Camera where
  session : Session
  events : List Event
  attached : Bool
  audioAttached : Bool

def Camera.made (rinfo : String × ℕ) (dev : DevSerial) : Camera where
  session := .init dev rinfo 5000
  events := []
  attached := false
  audioAttached := false

def Camera.world (cam : Camera) (web : Web) : World Web := ⟨cam.session, web, cam.events⟩

def Camera.devId (cam : Camera) : String := cam.session.dev.devId

/-- The listeners of a session of the server. -/
def Camera.listeners (cam : Camera) (now : ℚ) : Listeners Web where
  frame image := if cam.attached then onFrame cam.devId image else return
  audio data := if cam.audioAttached then onAudio cam.devId data else return
  disconnect web := if cam.attached then dropSession cam.devId web else web
  login := startVideoStream now
  listWifi _ := return

/-! ### The handlers of streams -/

/-- Where the handler of a stream is: in `await resp.prepare(request)`, in the loop with its queue, or over,
with what its access to the queue list raised. -/
inductive Phase where
  | preparing
  | streaming (q : ℕ)
  | left (raised : Option PyErr)
  deriving DecidableEq

structure Client where
  media : Media
  devId : String
  phase : Phase
  deriving DecidableEq

structure Server where
  web : Web
  cameras : List Camera
  clients : List Client

def Server.start (config : Config) : Server where
  web :=
    { config := config
      sessions := Table.empty
      queues := fun _ => Table.empty
      cameraIps := Table.empty
      chunks := [] }
  cameras := []
  clients := []

/-- One callback of a session. -/
def Server.onSession (srv : Server) (k : ℕ) (now : ℚ) (c : Callback) : Server :=
  match srv.cameras[k]? with
  | none => srv
  | some cam =>
    let w := callback (cam.listeners now) now (cam.world srv.web) c
    { srv with
      web := w.app
      cameras := srv.cameras.set k { cam with session := w.session, events := w.events } }

def onDiscover (rinfo : String × ℕ) (dev : DevSerial) : EStateM PyErr Server Unit := do
  let srv ← get
  if (srv.web.sessions.find? dev.devId).isSome then
    return
  else
    let s := srv.cameras.length
    set { srv with
      web := { srv.web with
        cameraIps := srv.web.cameraIps.insert dev.devId rinfo.1
        queues := fun media => (srv.web.queues media).insert dev.devId []
        sessions := srv.web.sessions.insert dev.devId s }
      cameras := srv.cameras ++ [Camera.made rinfo dev] }
    let config ← withCameraDefaults srv.web.config dev.devId
    modify fun srv => { srv with
      web := { srv.web with config := config }
      cameras := srv.cameras.modify s fun cam => { cam with attached := true } }
    if ← cameraAudio config dev.devId then
      modify fun srv => { srv with
        cameras := srv.cameras.modify s fun cam => { cam with audioAttached := true } }

/-- `_handle_camera_reconnect`. -/
def Server.reconnect (srv : Server) (devId : String) : Server :=
  match srv.web.sessions.find? devId with
  | none => srv
  | some k => srv.onSession k 0 .close

/-- `_handle_camera` and `_handle_audio` up to `await resp.prepare(request)`. -/
def Server.openStream (srv : Server) (media : Media) (devId : String) : Server :=
  match (srv.web.sessions.find? devId).bind fun k => srv.cameras[k]? with
  | none => srv
  | some cam =>
    if cam.session.connected then { srv with clients := srv.clients ++ [⟨media, devId, .preparing⟩] }
    else srv

def Server.setPhase (srv : Server) (i : ℕ) (phase : Phase) : Server :=
  { srv with clients := srv.clients.modify i fun c => { c with phase := phase } }

/-- The handler appends its queue to the list of its camera. -/
def Server.appendQueue (srv : Server) (i : ℕ) (c : Client) : Server :=
  match (srv.web.queues c.media).find? c.devId with
  | none => srv.setPhase i (.left (some .keyError))
  | some qs =>
    let q := srv.web.chunks.length
    { srv with web := { srv.web with
        chunks := srv.web.chunks ++ [ChunkQueue.made c.media]
        queues := Function.update srv.web.queues c.media
          ((srv.web.queues c.media).insert c.devId (qs ++ [q])) } }.setPhase i (.streaming q)

/-- The `finally` block of a handler. -/
def Server.removeQueue (srv : Server) (i : ℕ) (c : Client) (q : ℕ) : Server :=
  match (srv.web.queues c.media).find? c.devId with
  | none => srv.setPhase i (.left (some .keyError))
  | some qs =>
    if q ∈ qs then
      { srv with web := { srv.web with
        queues := Function.update srv.web.queues c.media
          ((srv.web.queues c.media).insert c.devId (qs.erase q)) } }.setPhase i (.left none)
    else srv.setPhase i (.left (some .valueError))

/-- `await resp.prepare(request)` returns. -/
def Server.prepared (srv : Server) (i : ℕ) : Server :=
  match srv.clients[i]? with
  | none => srv
  | some c => if c.phase = .preparing then srv.appendQueue i c else srv

/-- `await q.get()` returns. -/
def Server.take (srv : Server) (i : ℕ) : Server :=
  match srv.clients[i]? with
  | some ⟨_, _, .streaming q⟩ =>
    { srv with web := { srv.web with
      chunks := srv.web.chunks.modify q fun queue => { queue with items := queue.items.tail } } }
  | _ => srv

/-- The handler is cancelled or its connection is gone. -/
def Server.leave (srv : Server) (i : ℕ) : Server :=
  match srv.clients[i]? with
  | none => srv
  | some c =>
    match c.phase with
    | .preparing => srv.setPhase i (.left none)
    | .streaming q => srv.removeQueue i c q
    | .left _ => srv

/-! ### The steps -/

/-- A callback of the event loop; `configure` is whatever changes the configuration. -/
inductive ServerStep where
  | discover (rinfo : String × ℕ) (dev : DevSerial)
  | ready (k : ℕ) (now : ℚ)
  | datagram (k : ℕ) (now : ℚ) (msg : Bytes)
  | sessTick (k : ℕ) (now : ℚ)
  | resendTick (k : ℕ) (now : ℚ)
  | reconnect (devId : String)
  | configure (config : Config)
  | openStream (media : Media) (devId : String)
  | prepared (i : ℕ)
  | take (i : ℕ)
  | leave (i : ℕ)

def ServerStep.discovers : ServerStep → Option DevSerial
  | .discover _ dev => some dev
  | _ => none

def Server.step (srv : Server) : ServerStep → Server
  | .discover rinfo dev => final (onDiscover rinfo dev) srv
  | .ready k now => srv.onSession k now .ready
  | .datagram k now msg => srv.onSession k now (.datagram srv.web.config msg)
  | .sessTick k now => srv.onSession k now .sessTick
  | .resendTick k now => srv.onSession k now .resendTick
  | .reconnect devId => srv.reconnect devId
  | .configure config => { srv with web := { srv.web with config := config } }
  | .openStream media devId => srv.openStream media devId
  | .prepared i => srv.prepared i
  | .take i => srv.take i
  | .leave i => srv.leave i

def Server.run (srv : Server) (steps : List ServerStep) : Server := steps.foldl Server.step srv

end CamReverse
