import CamReverse.EventEmitter
import CamReverse.Http.Server
import CamReverse.Unseen

/-!
# Snapshots

`/snapshot/{devId}` attaches a listener of its own to the session's emitter, behind `on_frame`, and waits for the first
frame it sees. The sessions, the streams and the configuration do the same with these handlers and without
(`snapshots_unseen`).
-/

namespace CamReverse

open Effect

inductive SnapshotReply where
  | notDiscovered
  | offline
  | image (data : Bytes)
  | frameError (e : PyErr)
  | noFrame
  deriving DecidableEq

/-- Where `_handle_snapshot` is: it waits for its future, which `on_frame_once` sets at a frame of the session `k`; it
has answered; or it was cancelled. -/
inductive SnapshotPhase where
  | waiting (k : ℕ) (since : ℚ) (fut : Option (Except PyErr Bytes))
  | answered (reply : SnapshotReply)
  | cancelled
  deriving DecidableEq

/-- A request for a snapshot. -/
structure Snapshot where
  devId : String
  phase : SnapshotPhase
  deriving DecidableEq

/-- The requests so far, and the `on_frame_once` of each of them on the emitter of its session. -/
structure Snapshots where
  emitters : ℕ → EventEmitter ℕ
  handlers : List Snapshot

/-! ### The listener -/

/-- `on_frame_once`: a future that is done stays as it is. -/
def Snapshot.onFrameOnce (config : Config) (curImage : List Bytes) (snap : Snapshot) : Snapshot :=
  match snap.phase with
  | .waiting k since none =>
    { snap with phase := .waiting k since (some (assembleFrame config snap.devId curImage)) }
  | _ => snap

def onFrameOnce (curImage : List Bytes) (i : ℕ) : EStateM PyErr (Web × Snapshots) Unit :=
  modify fun app => (app.1, { app.2 with handlers := app.2.handlers.modify i (·.onFrameOnce app.1.config curImage) })

/-- The listeners of the snapshots on the emitter of the session `k`. -/
def emitOnce (k : ℕ) (curImage : List Bytes) : EStateM PyErr (Web × Snapshots) Unit := do
  let app ← get
  let _ ← (app.2.emitters k).emit (onFrameOnce curImage) "frame"

/-- The listeners of the session `k` of the server, with those of the snapshots. -/
def Camera.snapListeners (cam : Camera) (k : ℕ) (now : ℚ) : Listeners (Web × Snapshots) where
  frame image := do
    -- `on_frame` was attached before any of the others
    onPart Prod.fst (fun web app => (web, app.2)) ((cam.listeners now).frame image)
    emitOnce k image
  audio data := onPart Prod.fst (fun web app => (web, app.2)) ((cam.listeners now).audio data)
  disconnect app := ((cam.listeners now).disconnect app.1, app.2)
  login := startVideoStream now
  listWifi _ := return

/-! ### The server -/

/-- The server with the handlers of snapshots. -/
structure SnapServer where
  server : Server
  snaps : Snapshots

def SnapServer.start (config : Config) : SnapServer where
  server := .start config
  snaps := ⟨fun _ => .init, []⟩

def SnapServer.onSession (s : SnapServer) (k : ℕ) (now : ℚ) (c : Callback) : SnapServer :=
  match s.server.cameras[k]? with
  | none => s
  | some cam =>
    let w := callback (cam.snapListeners k now) now ⟨cam.session, (s.server.web, s.snaps), cam.events⟩ c
    { server := { s.server with
        web := w.app.1
        cameras := s.server.cameras.set k { cam with session := w.session, events := w.events } }
      snaps := w.app.2 }

def SnapServer.serve (s : SnapServer) : ServerStep → SnapServer
  | .ready k now => s.onSession k now .ready
  | .datagram k now msg => s.onSession k now (.datagram s.server.web.config msg)
  | .sessTick k now => s.onSession k now .sessTick
  | .resendTick k now => s.onSession k now .resendTick
  | .reconnect devId =>
    match s.server.web.sessions.find? devId with
    | none => s
    | some k => s.onSession k 0 .close
  | step => { s with server := s.server.step step }

/-- The handler of a request, up to its `await`. -/
def SnapServer.snapshot (s : SnapServer) (now : ℚ) (devId : String) : SnapServer :=
  let asked (phase : SnapshotPhase) : Snapshots := { s.snaps with handlers := s.snaps.handlers ++ [⟨devId, phase⟩] }
  match s.server.web.sessions.find? devId with
  | none => { s with snaps := asked (.answered .notDiscovered) }
  | some k =>
    if (s.server.cameras[k]?.map fun cam => cam.session.connected) = some true then
      { s with snaps := { asked (.waiting k now none) with
          emitters := Function.update s.snaps.emitters k ((s.snaps.emitters k).on "frame" s.snaps.handlers.length) } }
    else { s with snaps := asked (.answered .offline) }

/-- The end of the handler `i`, with its `finally` block. -/
def SnapServer.finish (s : SnapServer) (i k : ℕ) (phase : SnapshotPhase) : SnapServer :=
  { s with snaps :=
    { emitters := Function.update s.snaps.emitters k ((s.snaps.emitters k).off "frame" i)
      handlers := s.snaps.handlers.modify i fun snap => { snap with phase := phase } } }

/-- What the handler answers when its future is done. -/
def SnapshotReply.ofResult : Except PyErr Bytes → SnapshotReply
  | .ok data => .image data
  | .error e => .frameError e

/-- What can happen: a step of the server, a request, a handler that goes on because its future is done, one whose
timeout is over, or one that is cancelled. When a frame and the timeout come together, either may win. -/
inductive SnapStep where
  | serve (step : ServerStep)
  | snapshot (now : ℚ) (devId : String)
  | resume (i : ℕ)
  | expire (i : ℕ) (now : ℚ)
  | cancel (i : ℕ)

def SnapServer.step (s : SnapServer) : SnapStep → SnapServer
  | .serve step => s.serve step
  | .snapshot now devId => s.snapshot now devId
  | .resume i =>
    match s.snaps.handlers[i]? with
    | some ⟨_, .waiting k _ (some result)⟩ => s.finish i k (.answered (.ofResult result))
    | _ => s
  | .expire i now =>
    match s.snaps.handlers[i]? with
    | some ⟨_, .waiting k since _⟩ => if since + 10000 ≤ now then s.finish i k (.answered .noFrame) else s
    | _ => s
  | .cancel i =>
    match s.snaps.handlers[i]? with
    | some ⟨_, .waiting k _ _⟩ => s.finish i k .cancelled
    | _ => s

def SnapServer.run (s : SnapServer) (steps : List SnapStep) : SnapServer := steps.foldl SnapServer.step s

def SnapStep.ofServer : SnapStep → Option ServerStep
  | .serve step => some step
  | _ => none

/-! ### Nothing else sees them -/

/-- Calling the listeners of the snapshots leaves the module's state alone, and none of them raises. -/
theorem emit_unseen (ee : EventEmitter ℕ) (image : List Bytes) :
    Mirrors Prod.fst (ee.emit (onFrameOnce image) "frame") (pure (!(ee.attached "frame").isEmpty)) := by
  have hcalls : ∀ is : List ℕ, Mirrors Prod.fst (is.forM (onFrameOnce image)) (pure ()) := by
    intro is
    induction is with
    | nil => exact Mirrors.pure ()
    | cons i is ih =>
      have hcall : Mirrors Prod.fst (onFrameOnce image i) (pure ()) := fun _ => rfl
      exact hcall.bind fun _ => ih
  exact (hcalls _).bind fun _ => Mirrors.pure _

theorem emitOnce_unseen (k : ℕ) (image : List Bytes) : Mirrors Prod.fst (emitOnce k image) (pure ()) := fun app =>
  ((emit_unseen (app.2.emitters k) image).bind fun _ => Mirrors.pure ()) app

theorem mirror_onFst (m : EStateM PyErr Web Unit) :
    Mirrors Prod.fst (onPart Prod.fst (fun web (app : Web × Snapshots) => (web, app.2)) m) m := fun app => by
  unfold onPart
  cases m app.1 <;> rfl

theorem mirror_snapListeners (cam : Camera) (k : ℕ) (now : ℚ) :
    (cam.snapListeners k now).Mirror Prod.fst (cam.listeners now) where
  frame image := by
    have hboth := (mirror_onFst ((cam.listeners now).frame image)).bind fun _ => emitOnce_unseen k image
    rwa [bind_pure_unit] at hboth
  audio data := mirror_onFst ((cam.listeners now).audio data)
  disconnect _ := rfl
  login := Through.startVideoStream _ now
  listWifi _ := Mirrors.pure _

theorem server_onSession (s : SnapServer) (k : ℕ) (now : ℚ) (c : Callback) :
    (s.onSession k now c).server = s.server.onSession k now c := by
  unfold SnapServer.onSession Server.onSession
  cases s.server.cameras[k]? with
  | none => rfl
  | some cam =>
    have hcallback := callback_through (mirror_snapListeners cam k now) now
      ⟨cam.session, (s.server.web, s.snaps), cam.events⟩ c
    dsimp only
    rw [show cam.world s.server.web =
        World.through Prod.fst ⟨cam.session, (s.server.web, s.snaps), cam.events⟩ from rfl,
      hcallback]
    rfl

theorem server_serve (s : SnapServer) (step : ServerStep) : (s.serve step).server = s.server.step step := by
  cases step with
  | ready k now => exact server_onSession s k now _
  | datagram k now msg => exact server_onSession s k now _
  | sessTick k now => exact server_onSession s k now _
  | resendTick k now => exact server_onSession s k now _
  | reconnect devId =>
    show SnapServer.server (match s.server.web.sessions.find? devId with
      | none => s
      | some k => s.onSession k 0 .close) = s.server.reconnect devId
    unfold Server.reconnect
    cases s.server.web.sessions.find? devId with
    | none => rfl
    | some k => exact server_onSession s k 0 .close
  | _ => rfl

theorem server_step (s : SnapServer) (step : SnapStep) :
    (s.step step).server = s.server.run step.ofServer.toList := by
  cases step with
  | serve step => exact server_serve s step
  | snapshot now devId =>
    show (s.snapshot now devId).server = s.server
    unfold SnapServer.snapshot
    dsimp only
    split
    · rfl
    · split_ifs <;> rfl
  | resume i =>
    show (s.step (.resume i)).server = s.server
    unfold SnapServer.step
    dsimp only
    split <;> rfl
  | expire i now =>
    show (s.step (.expire i now)).server = s.server
    unfold SnapServer.step
    dsimp only
    split
    · split_ifs <;> rfl
    · rfl
  | cancel i =>
    show (s.step (.cancel i)).server = s.server
    unfold SnapServer.step
    dsimp only
    split <;> rfl

/-- **Snapshots disturb nothing.** In every run, whatever is asked for and answered in between, the sessions, the streams
and the configuration are those of the run without the snapshots. -/
theorem snapshots_unseen (s : SnapServer) (steps : List SnapStep) :
    (s.run steps).server = s.server.run (steps.filterMap SnapStep.ofServer) := by
  induction steps generalizing s with
  | nil => rfl
  | cons step steps ih =>
    rw [show s.run (step :: steps) = (s.step step).run steps from rfl, ih, server_step]
    cases hstep : step.ofServer with
    | none =>
      rw [List.filterMap_cons_none hstep]
      rfl
    | some step' =>
      rw [List.filterMap_cons_some hstep]
      rfl

end CamReverse
