import CamReverse.Http.Alone
import CamReverse.Http.Service
import CamReverse.Http.Snapshots

/-!
# The answer to a snapshot

What the listeners of the snapshots get are the frames their sessions emit (`foldl_snaps_hear`), and each of them is
attached as long as its handler waits (`SnapInv`). So a handler answers with the first frame its session emits after the
request, or that there was none for ten seconds (`snapshot_next_frame`).
-/

namespace CamReverse

open Effect

/-! ### What a snapshot sees -/

/-- What `on_frame_once` gets of an event. A frame that cannot be assembled already raises in `on_frame`, if that is
attached, and goes no further. -/
def Camera.shotOf (cam : Camera) (config : Config) : Event → Option (Except PyErr Bytes)
  | .frame image =>
    match assembleFrame config cam.devId image with
    | .ok data => some (.ok data)
    | .error e => if cam.attached then none else some (.error e)
  | _ => none

def SnapshotPhase.see (shots : List (Except PyErr Bytes)) : SnapshotPhase → SnapshotPhase
  | .waiting k since fut => .waiting k since (fut.or shots.head?)
  | phase => phase

def Snapshot.see (shots : List (Except PyErr Bytes)) (snap : Snapshot) : Snapshot :=
  { snap with phase := snap.phase.see shots }

/-- The handlers after these pictures of the session `k`. -/
def Snapshots.see (snaps : Snapshots) (k : ℕ) (shots : List (Except PyErr Bytes)) : Snapshots :=
  { snaps with handlers := snaps.handlers.mapIdx fun i snap =>
    if i ∈ (snaps.emitters k).attached "frame" then snap.see shots else snap }

theorem Snapshot.see_nil (snap : Snapshot) : snap.see [] = snap := by
  obtain ⟨devId, phase⟩ := snap
  cases phase with
  | waiting k since fut => exact congrArg (fun fut => Snapshot.mk devId (.waiting k since fut)) Option.or_none
  | _ => rfl

theorem Snapshot.see_see (snap : Snapshot) (shots shots' : List (Except PyErr Bytes)) :
    (snap.see shots).see shots' = snap.see (shots ++ shots') := by
  obtain ⟨devId, phase⟩ := snap
  cases phase with
  | waiting k since fut =>
    refine congrArg (fun fut => Snapshot.mk devId (.waiting k since fut)) ?_
    rw [Option.or_assoc, List.head?_append]
  | _ => rfl

theorem onFrameOnce_eq (config : Config) (image : List Bytes) (snap : Snapshot) :
    snap.onFrameOnce config image = snap.see [assembleFrame config snap.devId image] := by
  obtain ⟨devId, phase⟩ := snap
  cases phase with
  | waiting k since fut => cases fut <;> rfl
  | _ => rfl

theorem Snapshots.see_see (snaps : Snapshots) (k : ℕ) (shots shots' : List (Except PyErr Bytes)) :
    (snaps.see k shots).see k shots' = snaps.see k (shots ++ shots') := by
  unfold Snapshots.see
  dsimp only
  rw [List.mapIdx_mapIdx]
  congr 2
  funext i snap
  dsimp only [Function.comp_apply]
  split_ifs
  · exact snap.see_see shots shots'
  · rfl

theorem Snapshots.see_nil (snaps : Snapshots) (k : ℕ) : snaps.see k [] = snaps := by
  have hsame : (fun i (snap : Snapshot) => if i ∈ (snaps.emitters k).attached "frame" then snap.see [] else snap) =
      fun _ snap => snap := by
    funext i snap
    rw [Snapshot.see_nil, ite_self]
  unfold Snapshots.see
  rw [hsame, List.mapIdx_eq_iff.2 fun i => Option.map_id'.symm]

/-! ### The listeners of a session -/

theorem foldl_modify {α : Type} {f : α → α} (hf : ∀ a, f (f a) = f a) (is : List ℕ) (as : List α) :
    is.foldl (fun as i => as.modify i f) as = as.mapIdx fun j a => if j ∈ is then f a else a := by
  induction is generalizing as with
  | nil => exact (List.mapIdx_eq_iff.2 fun i => by simp).symm
  | cons i is ih =>
    rw [List.foldl_cons, ih]
    refine List.ext_getElem? fun j => ?_
    rw [List.getElem?_mapIdx, List.getElem?_mapIdx, List.getElem?_modify]
    cases as[j]? with
    | none => rfl
    | some a =>
      simp only [Option.map_some, List.mem_cons]
      by_cases hij : i = j <;> by_cases hj : j ∈ is <;> simp [hij, hj, hf, eq_comm]

theorem final_emitOnce (k : ℕ) (image : List Bytes) (web : Web) (snaps : Snapshots) :
    final (emitOnce k image) (web, snaps) = (web, { snaps with
      handlers := snaps.handlers.mapIdx fun i snap =>
        if i ∈ (snaps.emitters k).attached "frame" then snap.onFrameOnce web.config image else snap }) := by
  have hcalls : ∀ (is : List ℕ) (snaps : Snapshots),
      is.forM (onFrameOnce image) (web, snaps) = EStateM.Result.ok () (web, { snaps with
        handlers := is.foldl (fun as i => as.modify i (·.onFrameOnce web.config image)) snaps.handlers }) := by
    intro is
    induction is with
    | nil => exact fun _ => rfl
    | cons i is ih => exact fun snaps => ih _
  have honce : ∀ snap : Snapshot, (snap.onFrameOnce web.config image).onFrameOnce web.config image =
      snap.onFrameOnce web.config image := by
    intro snap
    obtain ⟨devId, phase⟩ := snap
    cases phase with
    | waiting k since fut => cases fut <;> rfl
    | _ => rfl
  have hemit := hcalls ((snaps.emitters k).attached "frame") snaps
  rw [foldl_modify honce] at hemit
  unfold emitOnce EventEmitter.emit
  rw [final, get_bind_apply]
  simp only [bind_assoc]
  rw [bind_ok hemit]
  rfl

theorem offer_listed {media : Media} {devId : String} {web : Web}
    (h : ((web.queues media).find? devId).isSome) (chunk : Bytes) :
    outcome (offer media devId chunk) web = .ok () := by
  let put (q : ℕ) : EStateM PyErr Web Unit :=
    modify fun web => { web with chunks := web.chunks.modify q (·.putNowait chunk) }
  have hputs : ∀ (qs : List ℕ) (web : Web), outcome (qs.forM put) web = .ok () := by
    intro qs
    induction qs with
    | nil => exact fun _ => rfl
    | cons q qs ih => exact fun web => ih _
  obtain ⟨qs, hqs⟩ := Option.isSome_iff_exists.1 h
  have hoffer : offer media devId chunk web = qs.forM put web := by
    unfold offer
    rw [get_bind_apply, hqs]
  rw [outcome, hoffer]
  exact hputs qs web

/-- The handlers attached to the session `k` are requests for this camera. -/
def Snapshots.Of (snaps : Snapshots) (k : ℕ) (devId : String) : Prop :=
  ∀ i ∈ (snaps.emitters k).attached "frame", ∀ snap ∈ snaps.handlers[i]?, snap.devId = devId

theorem Snapshots.Of.see {snaps : Snapshots} {k : ℕ} {devId : String} (h : snaps.Of k devId)
    (shots : List (Except PyErr Bytes)) : (snaps.see k shots).Of k devId := by
  intro i hi snap hsnap
  unfold Snapshots.see at hsnap
  rw [List.getElem?_mapIdx, Option.mem_map] at hsnap
  obtain ⟨snap, hmem, rfl⟩ := hsnap
  rw [if_pos (show i ∈ (snaps.emitters k).attached "frame" from hi)]
  exact h i hi snap hmem

theorem outcome_frame (cam : Camera) (now : ℚ) {web : Web} (hlisted : ((web.queues .video).find? cam.devId).isSome)
    (image : List Bytes) : outcome ((cam.listeners now).frame image) web =
      if cam.attached then (assembleFrame web.config cam.devId image).map fun _ => () else .ok () := by
  show outcome (if cam.attached then onFrame cam.devId image else return) web = _
  split_ifs
  · unfold onFrame
    rw [outcome, get_bind_apply]
    cases assembleFrame web.config cam.devId image with
    | error e => rfl
    | ok assembled => exact offer_listed hlisted (frameChunk assembled)
  · rfl

theorem snaps_hear (cam : Camera) {k : ℕ} (now : ℚ) {web : Web} {snaps : Snapshots}
    (hlisted : ((web.queues .video).find? cam.devId).isSome) (hof : snaps.Of k cam.devId) (ev : Event) :
    (cam.snapListeners k now).hear (web, snaps) ev =
      (cam.heard web [ev], snaps.see k (cam.shotOf web.config ev).toList) := by
  have hweb := hear_web cam now web ev
  cases ev with
  | frame image =>
    have hheard : final ((cam.listeners now).frame image) web = cam.heard web [.frame image] := hweb
    have hrest : final (emitOnce k image) (cam.heard web [.frame image], snaps) =
        (cam.heard web [.frame image], snaps.see k [assembleFrame web.config cam.devId image]) := by
      rw [final_emitOnce]
      refine congrArg (fun handlers => (cam.heard web [.frame image], { snaps with handlers := handlers })) ?_
      refine List.ext_getElem? fun i => ?_
      rw [List.getElem?_mapIdx, List.getElem?_mapIdx]
      refine Option.map_congr fun snap hsnap => if_ctx_congr Iff.rfl (fun hi => ?_) fun _ => rfl
      rw [onFrameOnce_eq, hof i hi snap hsnap]
      rfl
    have hframe : final (onPart Prod.fst (fun web (app : Web × Snapshots) => (web, app.2))
        ((cam.listeners now).frame image)) (web, snaps) = (cam.heard web [.frame image], snaps) := by
      rw [final_onPart, ← hheard]
    have houtcome : outcome (onPart Prod.fst (fun web (app : Web × Snapshots) => (web, app.2))
        ((cam.listeners now).frame image)) (web, snaps) = outcome ((cam.listeners now).frame image) web := by
      unfold outcome onPart
      cases (cam.listeners now).frame image web <;> rfl
    show final (onPart Prod.fst (fun web app => (web, app.2)) ((cam.listeners now).frame image) >>= fun _ =>
      emitOnce k image)
      (web, snaps) = _
    rw [final_bind, hframe, houtcome, outcome_frame cam now hlisted, hrest]
    unfold Camera.shotOf
    dsimp only
    cases assembleFrame web.config cam.devId image with
    | ok data => split_ifs <;> rfl
    | error e =>
      split_ifs
      · exact Prod.ext rfl (snaps.see_nil k).symm
      · rfl
  | audio data =>
    show final (onPart Prod.fst (fun web app => (web, app.2)) ((cam.listeners now).audio data)) (web, snaps) = _
    rw [final_onPart, show (cam.shotOf web.config (.audio data)).toList = [] from rfl, Snapshots.see_nil, ← hweb]
    rfl
  | _ => exact Prod.ext hweb (snaps.see_nil k).symm

theorem foldl_snaps_hear (cam : Camera) {k : ℕ} (now : ℚ) {web : Web} {snaps : Snapshots}
    (hlisted : ((web.queues .video).find? cam.devId).isSome) (hof : snaps.Of k cam.devId) (evs : List Event) :
    evs.foldl (cam.snapListeners k now).hear (web, snaps) =
      (cam.heard web evs, snaps.see k (evs.filterMap (cam.shotOf web.config))) := by
  induction evs generalizing web snaps with
  | nil => rw [List.foldl_nil, heard_nil, List.filterMap_nil, Snapshots.see_nil]
  | cons ev evs ih =>
    rw [List.foldl_cons, snaps_hear cam now hlisted hof, @ih (cam.heard web [ev]) _ hlisted (hof.see _), heard_heard,
      Snapshots.see_see, List.filterMap_cons]
    refine Prod.ext rfl (congrArg (snaps.see k) ?_)
    cases cam.shotOf web.config ev <;> rfl

theorem orderly_snapListeners (cam : Camera) (k : ℕ) (now : ℚ) : (cam.snapListeners k now).Orderly :=
  ⟨ByEvents.of_onlySends (quiet_onlySends.startVideoStream now), fun _ => Along.pure _⟩

theorem snaps_onSession {s : SnapServer} {k : ℕ} {cam : Camera} (hcam : s.server.cameras[k]? = some cam)
    (hlisted : ((s.server.web.queues .video).find? cam.devId).isSome) (hof : s.snaps.Of k cam.devId) (now : ℚ)
    (c : Callback) : (s.onSession k now c).snaps = s.snaps.see k
      ((s.server.emitted (s.server.onSession k now c) k).filterMap (cam.shotOf s.server.web.config)) := by
  obtain ⟨evs, hevs, happ, -⟩ := callback_heard (orderly_snapListeners cam k now) now
    ⟨cam.session, (s.server.web, s.snaps), cam.events⟩ c
  obtain ⟨hk, -⟩ := List.getElem?_eq_some_iff.1 hcam
  have hemitted : s.server.emitted (s.server.onSession k now c) k = evs := by
    rw [← server_onSession]
    unfold SnapServer.onSession Server.emitted
    rw [hcam]
    simp only [List.getElem?_set_self hk, hevs]
    exact List.drop_left
  rw [hemitted]
  unfold SnapServer.onSession
  rw [hcam]
  simp only [happ, foldl_snaps_hear cam now hlisted hof]

/-! ### A step -/

/-- What the listeners of the snapshots get of the session `k` in a step. -/
def Server.shotsOf (srv : Server) (k : ℕ) (step : ServerStep) : List (Except PyErr Bytes) :=
  match srv.cameras[k]? with
  | none => []
  | some cam => (srv.emitted (srv.step step) k).filterMap (cam.shotOf srv.web.config)

theorem step_camera_other (srv : Server) {step : ServerStep} {k : ℕ} {cam : Camera}
    (hcam : srv.cameras[k]? = some cam) (hother : srv.sessionOf step ≠ some k) :
    (srv.step step).cameras[k]? = some cam := by
  rcases step_cases srv step with hclient | ⟨rinfo, dev, rfl⟩ | ⟨config, rfl⟩ | ⟨-, hsame⟩ | ⟨k', now, c, hof, hstep⟩
  · rwa [(client_keeps srv hclient).1]
  · show (final (onDiscover rinfo dev) srv).cameras[k]? = some cam
    cases hknown : srv.web.sessions.find? dev.devId with
    | some k' => rwa [discover_known (by rw [hknown]; rfl)]
    | none =>
      obtain ⟨config, audioAttached, hnew⟩ := discover_new hknown rinfo
      rw [hnew, getElem?_discovered, if_neg (List.getElem?_eq_some_iff.1 hcam).1.ne]
      exact hcam
  · exact hcam
  · rwa [hsame]
  · have hne : k ≠ k' := fun h => hother (h ▸ hof)
    rwa [hstep, (onSession_keeps srv k' now c).2.2 k hne]

theorem shotsOf_other {srv : Server} {step : ServerStep} {k : ℕ} (hother : srv.sessionOf step ≠ some k) :
    srv.shotsOf k step = [] := by
  unfold Server.shotsOf
  cases hcam : srv.cameras[k]? with
  | none => rfl
  | some cam =>
    dsimp only
    rw [emitted_same ((step_camera_other srv hcam hother).trans hcam.symm), List.filterMap_nil]

theorem step_camera (srv : Server) (step : ServerStep) {k : ℕ} {cam : Camera} (hcam : srv.cameras[k]? = some cam) :
    ∃ cam' : Camera, (srv.step step).cameras[k]? = some cam' ∧ cam'.devId = cam.devId ∧
      cam'.attached = cam.attached := by
  by_cases hother : srv.sessionOf step = some k
  · rcases step_cases srv step with hclient | ⟨rinfo, dev, rfl⟩ | ⟨config, rfl⟩ | ⟨hnone, -⟩ | ⟨k', now, c, -, hstep⟩
    · exact ⟨cam, (client_keeps srv hclient).1 ▸ hcam, rfl, rfl⟩
    · cases hother
    · cases hother
    · exact nomatch hnone.symm.trans hother
    · rw [hstep]
      exact (onSession_keeps srv k' now c).1 k cam hcam
  · exact ⟨cam, step_camera_other srv hcam hother, rfl, rfl⟩

theorem serve_cases (s : SnapServer) (step : ServerStep) :
    s.server.sessionOf step = none ∧ (s.serve step).snaps = s.snaps ∨
      ∃ k now c, s.server.sessionOf step = some k ∧ s.serve step = s.onSession k now c ∧
        s.server.step step = s.server.onSession k now c := by
  cases step with
  | ready k now => exact .inr ⟨k, now, _, rfl, rfl, rfl⟩
  | datagram k now msg => exact .inr ⟨k, now, _, rfl, rfl, rfl⟩
  | sessTick k now => exact .inr ⟨k, now, _, rfl, rfl, rfl⟩
  | resendTick k now => exact .inr ⟨k, now, _, rfl, rfl, rfl⟩
  | reconnect devId =>
    cases hfind : s.server.web.sessions.find? devId with
    | none =>
      refine .inl ⟨hfind, ?_⟩
      unfold SnapServer.serve
      dsimp only
      rw [hfind]
    | some k =>
      refine .inr ⟨k, 0, .close, hfind, ?_, ?_⟩
      · unfold SnapServer.serve
        dsimp only
        rw [hfind]
      · show s.server.reconnect devId = _
        unfold Server.reconnect
        rw [hfind]
  | _ => exact .inl ⟨rfl, rfl⟩

/-! ### The invariant -/

/-- Every camera that was discovered has its list of video queues. -/
def Server.EachListed (srv : Server) : Prop := ∀ dev ∈ srv.devs, ((srv.web.queues .video).find? dev.devId).isSome

theorem Server.EachListed.step {srv : Server} (h : srv.EachListed) (step : ServerStep) :
    (srv.step step).EachListed := by
  rcases step_cases srv step with hclient | ⟨rinfo, dev, rfl⟩ | ⟨config, rfl⟩ | ⟨-, hsame⟩ | ⟨k, now, c, -, hstep⟩
  · have hqueues : ∀ srv : Server, ∀ devId, ((srv.web.queues .video).find? devId).isSome =
        ((srv.bare.web.queues .video).find? devId).isSome := fun srv devId => by
      rw [show (srv.bare.web.queues .video).find? devId = _ from Table.find?_map _ _ _, Option.isSome_map]
    intro dev hdev
    rw [hqueues, bare_step_client srv hclient, ← hqueues]
    refine h dev ?_
    rwa [Server.devs, (client_keeps srv hclient).1] at hdev
  · show (final (onDiscover rinfo dev) srv).EachListed
    cases hknown : srv.web.sessions.find? dev.devId with
    | some k => rwa [discover_known (by rw [hknown]; rfl)]
    | none =>
      obtain ⟨config, audioAttached, hnew⟩ := discover_new hknown rinfo
      rw [hnew]
      intro dev' hdev'
      have hmem : dev' ∈ srv.devs ∨ dev' = dev := by
        obtain ⟨cam, hcam, rfl⟩ := List.mem_map.1 hdev'
        obtain hcam | hcam := List.mem_append.1 hcam
        · exact .inl (List.mem_map_of_mem hcam)
        · exact .inr (List.mem_singleton.1 hcam ▸ rfl)
      show (((srv.web.queues .video).insert dev.devId []).find? dev'.devId).isSome
      rw [Table.find?_insert]
      split_ifs with hsame
      · rfl
      · exact h dev' (hmem.resolve_right fun heq => hsame (congrArg DevSerial.devId heq))
  · exact h
  · rwa [hsame]
  · unfold Server.EachListed
    rw [hstep, onSession_devs, (onSession_leaves srv k now c).1]
    exact h

theorem Server.EachListed.of_camera {srv : Server} (h : srv.EachListed) {k : ℕ} {cam : Camera}
    (hcam : srv.cameras[k]? = some cam) : ((srv.web.queues .video).find? cam.devId).isSome :=
  h cam.session.dev (List.mem_map_of_mem (List.mem_of_getElem? hcam))

/-- The handler `i` waits for a frame of the session `k`. -/
def Snapshots.Waits (snaps : Snapshots) (i k : ℕ) : Prop :=
  ∃ devId since fut, snaps.handlers[i]? = some ⟨devId, .waiting k since fut⟩

/-- The listener of a snapshot is attached to one session, as long as its handler waits for a frame of it. -/
structure SnapInv (s : SnapServer) : Prop where
  server : AloneInv s.server
  listed : s.server.EachListed
  attached : ∀ i k, i ∈ (s.snaps.emitters k).attached "frame" ↔ s.snaps.Waits i k
  nodup : ∀ k, ((s.snaps.emitters k).attached "frame").Nodup
  named : ∀ (i : ℕ) devId k since fut, s.snaps.handlers[i]? = some ⟨devId, .waiting k since fut⟩ →
    ∃ cam, s.server.cameras[k]? = some cam ∧ cam.devId = devId

theorem snapInv_start (config : Config) : SnapInv (.start config) where
  server := aloneInv_start config
  listed _ h := (List.not_mem_nil h).elim
  attached _ _ := iff_of_false List.not_mem_nil fun ⟨_, _, _, h⟩ => nomatch h
  nodup _ := List.nodup_nil
  named _ _ _ _ _ h := nomatch h

theorem SnapInv.of {s : SnapServer} (h : SnapInv s) {k : ℕ} {cam : Camera} (hcam : s.server.cameras[k]? = some cam) :
    s.snaps.Of k cam.devId := by
  intro i hi snap hsnap
  obtain ⟨devId, since, fut, hwaiting⟩ := (h.attached i k).1 hi
  obtain ⟨cam', hcam', hdev⟩ := h.named i devId k since fut hwaiting
  rw [hcam] at hcam'
  obtain rfl := Option.some.inj hcam'
  rw [Option.mem_def.1 hsnap] at hwaiting
  rw [Option.some.inj hwaiting]
  exact hdev.symm

/-- The handler after a step of the server. -/
def SnapshotPhase.served (srv : Server) (step : ServerStep) : SnapshotPhase → SnapshotPhase
  | .waiting k since fut => .waiting k since (fut.or (srv.shotsOf k step).head?)
  | phase => phase

def Snapshot.served (srv : Server) (step : ServerStep) (snap : Snapshot) : Snapshot :=
  { snap with phase := snap.phase.served srv step }

theorem served_of_unseen {srv : Server} {step : ServerStep} {snap : Snapshot}
    (h : ∀ k since fut, snap.phase = .waiting k since fut → srv.shotsOf k step = []) : snap.served srv step = snap := by
  obtain ⟨devId, phase⟩ := snap
  cases phase with
  | waiting k since fut =>
    unfold Snapshot.served
    dsimp only
    rw [SnapshotPhase.served, h k since fut rfl, List.head?_nil, Option.or_none]
  | _ => rfl

/-- **A step of the server** shows every handler that waits the frames of its session. -/
theorem SnapInv.serve_handlers {s : SnapServer} (h : SnapInv s) (step : ServerStep) :
    (s.serve step).snaps.emitters = s.snaps.emitters ∧
      ∀ i : ℕ, (s.serve step).snaps.handlers[i]? = s.snaps.handlers[i]?.map (·.served s.server step) := by
  have hnothing (hsnaps : (s.serve step).snaps = s.snaps) (hshots : ∀ k, s.server.shotsOf k step = []) :
      (s.serve step).snaps.emitters = s.snaps.emitters ∧
        ∀ i : ℕ, (s.serve step).snaps.handlers[i]? = s.snaps.handlers[i]?.map (·.served s.server step) := by
    rw [hsnaps]
    refine ⟨rfl, fun i => ?_⟩
    rw [Option.map_congr fun snap _ => served_of_unseen fun k _ _ _ => hshots k, Option.map_id']
  rcases serve_cases s step with ⟨hof, hsnaps⟩ | ⟨k, now, c, hof, hserve, hstep⟩
  · exact hnothing hsnaps fun k => shotsOf_other (hof ▸ nofun)
  · cases hcam : s.server.cameras[k]? with
    | none =>
      refine hnothing ?_ fun k' => ?_
      · rw [hserve]
        unfold SnapServer.onSession
        rw [hcam]
      · by_cases hk : k = k'
        · subst hk
          unfold Server.shotsOf
          rw [hcam]
        · exact shotsOf_other fun heq => hk (Option.some.inj (hof.symm.trans heq))
    | some cam =>
      have hshots : s.server.shotsOf k step =
          (s.server.emitted (s.server.onSession k now c) k).filterMap (cam.shotOf s.server.web.config) := by
        unfold Server.shotsOf
        rw [hcam, hstep]
      rw [hserve, snaps_onSession hcam (h.listed.of_camera hcam) (h.of hcam), ← hshots]
      refine ⟨rfl, fun i => ?_⟩
      show (s.snaps.handlers.mapIdx _)[i]? = _
      rw [List.getElem?_mapIdx]
      refine Option.map_congr fun snap hsnap => ?_
      obtain ⟨devId, phase⟩ := snap
      split_ifs with hi
      · obtain ⟨devId', since, fut, hwaiting⟩ := (h.attached i k).1 hi
        obtain ⟨rfl, rfl⟩ := Snapshot.mk.inj (Option.some.inj (hsnap.symm.trans hwaiting))
        rfl
      · refine (served_of_unseen fun k' since fut hphase => shotsOf_other fun heq => hi ?_).symm
        obtain rfl := Option.some.inj (hof.symm.trans heq)
        obtain rfl : phase = .waiting k since fut := hphase
        exact (h.attached i k).2 ⟨devId, since, fut, hsnap⟩

theorem SnapInv.finish {s : SnapServer} (h : SnapInv s) {i k : ℕ} (hwaits : s.snaps.Waits i k) {phase : SnapshotPhase}
    (hover : ∀ k since fut, phase ≠ .waiting k since fut) : SnapInv (s.finish i k phase) := by
  obtain ⟨devId, since, fut, hi⟩ := hwaits
  have hhandler : ∀ j : ℕ, (s.finish i k phase).snaps.handlers[j]? =
      if j = i then some ⟨devId, phase⟩ else s.snaps.handlers[j]? := by
    intro j
    show (s.snaps.handlers.modify i _)[j]? = _
    split_ifs with hji
    · rw [hji, List.getElem?_modify_eq, hi]
      rfl
    · rw [List.getElem?_modify_ne _ _ (Ne.symm hji)]
  have hemitter : ∀ k', ((s.finish i k phase).snaps.emitters k').attached "frame" =
      if k' = k then ((s.snaps.emitters k).attached "frame").erase i else (s.snaps.emitters k').attached "frame" := by
    intro k'
    show (Function.update s.snaps.emitters k _ k').attached "frame" = _
    split_ifs with hk
    · rw [hk, Function.update_self, EventEmitter.attached_off]
    · rw [Function.update_of_ne hk]
  refine ⟨h.server, h.listed, fun j k' => ?_, fun k' => ?_, fun j devId' k' since' fut' hj => ?_⟩
  · unfold Snapshots.Waits
    rw [hemitter]
    simp only [hhandler]
    by_cases hji : j = i
    · subst hji
      refine iff_of_false ?_ ?_
      · split_ifs with hk
        · exact fun hmem => (List.Nodup.mem_erase_iff (h.nodup k)).1 hmem |>.1 rfl
        · intro hmem
          obtain ⟨devId', since', fut', hj⟩ := (h.attached j k').1 hmem
          obtain ⟨-, hphase⟩ := Snapshot.mk.inj (Option.some.inj (hi.symm.trans hj))
          exact hk (SnapshotPhase.waiting.inj hphase).1.symm
      · rintro ⟨devId', since', fut', hj⟩
        rw [if_pos rfl] at hj
        exact hover _ _ _ (Snapshot.mk.inj (Option.some.inj hj)).2
    · simp only [if_neg hji]
      rw [← Snapshots.Waits, ← h.attached]
      split_ifs with hk
      · rw [hk, List.mem_erase_of_ne hji]
      · exact Iff.rfl
  · rw [hemitter]
    split_ifs
    · exact (h.nodup k).erase i
    · exact h.nodup k'
  · rw [hhandler] at hj
    split_ifs at hj with hji
    · exact absurd (Snapshot.mk.inj (Option.some.inj hj)).2 (hover _ _ _)
    · exact h.named j devId' k' since' fut' hj

theorem served_waiting {srv : Server} {step : ServerStep} {snap : Snapshot} {devId : String} {k : ℕ} {since : ℚ}
    {fut : Option (Except PyErr Bytes)} (h : snap.served srv step = ⟨devId, .waiting k since fut⟩) :
    ∃ fut', snap = ⟨devId, .waiting k since fut'⟩ := by
  obtain ⟨devId', phase⟩ := snap
  cases phase with
  | waiting k' since' fut' =>
    obtain ⟨rfl, hphase⟩ := Snapshot.mk.inj h
    obtain ⟨rfl, rfl, -⟩ := SnapshotPhase.waiting.inj hphase
    exact ⟨fut', rfl⟩
  | answered reply => exact nomatch (Snapshot.mk.inj h).2
  | cancelled => exact nomatch (Snapshot.mk.inj h).2

theorem SnapInv.serve {s : SnapServer} (h : SnapInv s) (step : ServerStep) : SnapInv (s.serve step) := by
  obtain ⟨hemitters, hhandlers⟩ := h.serve_handlers step
  have hwaits : ∀ i k, (s.serve step).snaps.Waits i k ↔ s.snaps.Waits i k := by
    intro i k
    unfold Snapshots.Waits
    rw [hhandlers]
    constructor
    · rintro ⟨devId, since, fut, hi⟩
      obtain ⟨snap, hsnap, hserved⟩ := Option.map_eq_some_iff.1 hi
      obtain ⟨fut', rfl⟩ := served_waiting hserved
      exact ⟨devId, since, fut', hsnap⟩
    · rintro ⟨devId, since, fut, hi⟩
      rw [hi]
      exact ⟨devId, since, _, rfl⟩
  refine ⟨?_, ?_, fun i k => ?_, fun k => ?_, fun i devId k since fut hi => ?_⟩
  · rw [server_serve]
    exact h.server.step step
  · rw [server_serve]
    exact h.listed.step step
  · rw [hemitters, hwaits]
    exact h.attached i k
  · rw [hemitters]
    exact h.nodup k
  · rw [hhandlers] at hi
    obtain ⟨snap, hsnap, hserved⟩ := Option.map_eq_some_iff.1 hi
    obtain ⟨fut', rfl⟩ := served_waiting hserved
    obtain ⟨cam, hcam, hdev⟩ := h.named i devId k since fut' hsnap
    obtain ⟨cam', hcam', hdev', -⟩ := step_camera s.server step hcam
    rw [server_serve]
    exact ⟨cam', hcam', hdev'.trans hdev⟩

def SnapServer.asked (s : SnapServer) (now : ℚ) (devId : String) : SnapshotPhase :=
  match s.server.web.sessions.find? devId with
  | none => .answered .notDiscovered
  | some k =>
    if (s.server.cameras[k]?.map fun cam => cam.session.connected) = some true then .waiting k now none
    else .answered .offline

theorem snapshot_handlers (s : SnapServer) (now : ℚ) (devId : String) :
    (s.snapshot now devId).snaps.handlers = s.snaps.handlers ++ [⟨devId, s.asked now devId⟩] := by
  unfold SnapServer.snapshot SnapServer.asked
  dsimp only
  cases s.server.web.sessions.find? devId with
  | none => rfl
  | some k =>
    dsimp only
    split_ifs <;> rfl

theorem snapshot_attached (s : SnapServer) (now : ℚ) (devId : String) (k : ℕ) :
    ((s.snapshot now devId).snaps.emitters k).attached "frame" = (s.snaps.emitters k).attached "frame" ++
      if s.asked now devId = .waiting k now none then [s.snaps.handlers.length] else [] := by
  unfold SnapServer.snapshot SnapServer.asked
  dsimp only
  cases s.server.web.sessions.find? devId with
  | none => exact (List.append_nil _).symm
  | some k' =>
    dsimp only
    split_ifs with hconnected hk hk
    · obtain rfl := (SnapshotPhase.waiting.inj hk).1
      dsimp only
      rw [Function.update_self, EventEmitter.attached_on]
    · have hne : k ≠ k' := fun heq => hk (by rw [heq])
      dsimp only
      rw [Function.update_of_ne hne, List.append_nil]
    · cases hk
    · exact (List.append_nil _).symm

theorem server_snapshot (s : SnapServer) (now : ℚ) (devId : String) : (s.snapshot now devId).server = s.server :=
  server_step s (.snapshot now devId)

theorem SnapInv.snapshot {s : SnapServer} (h : SnapInv s) (now : ℚ) (devId : String) :
    SnapInv (s.snapshot now devId) := by
  have hnew : ∀ k, s.snaps.handlers.length ∉ (s.snaps.emitters k).attached "frame" := by
    intro k hmem
    obtain ⟨devId', since, fut, hi⟩ := (h.attached _ k).1 hmem
    exact (List.getElem?_eq_some_iff.1 hi).1.ne rfl
  -- a handler that waits after the request waited before, or is the one of the request
  have hwaiting : ∀ (i : ℕ) snap, (s.snapshot now devId).snaps.handlers[i]? = some snap →
      s.snaps.handlers[i]? = some snap ∨ i = s.snaps.handlers.length ∧ snap = ⟨devId, s.asked now devId⟩ := by
    intro i snap hi
    rw [snapshot_handlers] at hi
    exact (getElem?_concat_cases hi).imp id fun hlast => ⟨hlast.1, hlast.2.symm⟩
  have hasked : ∀ {k since fut}, s.asked now devId = .waiting k since fut →
      s.asked now devId = .waiting k now none ∧ ∃ cam, s.server.cameras[k]? = some cam ∧ cam.devId = devId := by
    intro k since fut hphase
    have hlookup := h.server.valid devId
    unfold SnapServer.asked at hphase ⊢
    cases hfind : s.server.web.sessions.find? devId with
    | none =>
      rw [hfind] at hphase
      cases hphase
    | some k' =>
      rw [hfind] at hphase
      dsimp only at hphase ⊢
      split_ifs at hphase with hconnected
      obtain ⟨rfl, -, -⟩ := SnapshotPhase.waiting.inj hphase
      rw [if_pos hconnected]
      exact ⟨rfl, hlookup k' hfind⟩
  refine ⟨?_, ?_, fun i k => ?_, fun k => ?_, fun i devId' k since fut hi => ?_⟩
  · rw [server_snapshot]
    exact h.server
  · rw [server_snapshot]
    exact h.listed
  · rw [snapshot_attached, List.mem_append, h.attached]
    constructor
    · rintro (⟨devId', since, fut, hi⟩ | hi)
      · refine ⟨devId', since, fut, ?_⟩
        rw [snapshot_handlers, List.getElem?_append_left (List.getElem?_eq_some_iff.1 hi).1]
        exact hi
      · split_ifs at hi with hphase
        · obtain rfl := List.mem_singleton.1 hi
          refine ⟨devId, now, none, ?_⟩
          rw [snapshot_handlers, List.getElem?_append_right le_rfl, Nat.sub_self, hphase]
          rfl
        · exact absurd hi List.not_mem_nil
    · rintro ⟨devId', since, fut, hi⟩
      obtain hold | ⟨rfl, hsnap⟩ := hwaiting i _ hi
      · exact .inl ⟨devId', since, fut, hold⟩
      · refine .inr ?_
        rw [if_pos (hasked (Snapshot.mk.inj hsnap).2.symm).1]
        exact List.mem_singleton_self _
  · rw [snapshot_attached]
    split_ifs
    · exact (h.nodup k).append (List.nodup_singleton _) (List.disjoint_singleton.2 (hnew k))
    · rw [List.append_nil]
      exact h.nodup k
  · rw [server_snapshot]
    obtain hold | ⟨-, hsnap⟩ := hwaiting i _ hi
    · exact h.named i devId' k since fut hold
    · obtain ⟨rfl, hphase⟩ := Snapshot.mk.inj hsnap
      exact (hasked hphase.symm).2

/-! ### The end of a handler -/

/-- What the listeners of the snapshots get of the session `k` in a step, and in a run. -/
def SnapServer.shotsOf (s : SnapServer) (k : ℕ) : SnapStep → List (Except PyErr Bytes)
  | .serve step => s.server.shotsOf k step
  | _ => []

def SnapServer.shots (s : SnapServer) (k : ℕ) (steps : List SnapStep) : List (Except PyErr Bytes) :=
  Runs.outputs SnapServer.step (fun s step => s.shotsOf k step) s steps

/-- The step that ends the handler `i`, which has waited since then and whose future is `fut`. -/
inductive Ends (i : ℕ) (since : ℚ) (fut : Option (Except PyErr Bytes)) : SnapStep → SnapshotPhase → Prop
  | resume {result : Except PyErr Bytes} (hfut : fut = some result) :
    Ends i since fut (.resume i) (.answered (.ofResult result))
  | expire {now : ℚ} (hlate : since + 10000 ≤ now) : Ends i since fut (.expire i now) (.answered .noFrame)
  | cancel : Ends i since fut (.cancel i) .cancelled

theorem Ends.answered {i : ℕ} {since : ℚ} {fut : Option (Except PyErr Bytes)} {step : SnapStep} {phase : SnapshotPhase}
    (h : Ends i since fut step phase) (k : ℕ) (since' : ℚ) (fut' : Option (Except PyErr Bytes)) :
    phase ≠ .waiting k since' fut' := by
  cases h <;> nofun

/-- **What a step can be**: one of the server, a request, the end of a handler, or nothing. -/
theorem snapStep_cases (s : SnapServer) (step : SnapStep) :
    (∃ step', step = .serve step') ∨ (∃ now devId, step = .snapshot now devId) ∨
      (s.step step = s ∧ ∀ k, s.shotsOf k step = []) ∨
      ∃ (i k : ℕ) (devId : String) (since : ℚ) (fut : Option (Except PyErr Bytes)) (phase : SnapshotPhase),
        s.snaps.handlers[i]? = some ⟨devId, .waiting k since fut⟩ ∧ Ends i since fut step phase ∧
          s.step step = s.finish i k phase := by
  cases step with
  | serve step => exact .inl ⟨step, rfl⟩
  | snapshot now devId => exact .inr (.inl ⟨now, devId, rfl⟩)
  | resume i =>
    refine .inr (.inr ?_)
    unfold SnapServer.step
    dsimp only
    split
    · exact .inr ⟨i, _, _, _, _, _, ‹_›, .resume rfl, rfl⟩
    · exact .inl ⟨rfl, fun _ => rfl⟩
  | expire i now =>
    refine .inr (.inr ?_)
    unfold SnapServer.step
    dsimp only
    split
    · split_ifs with hlate
      · exact .inr ⟨i, _, _, _, _, _, ‹_›, .expire hlate, rfl⟩
      · exact .inl ⟨rfl, fun _ => rfl⟩
    · exact .inl ⟨rfl, fun _ => rfl⟩
  | cancel i =>
    refine .inr (.inr ?_)
    unfold SnapServer.step
    dsimp only
    split
    · exact .inr ⟨i, _, _, _, _, _, ‹_›, .cancel, rfl⟩
    · exact .inl ⟨rfl, fun _ => rfl⟩

theorem SnapInv.step {s : SnapServer} (h : SnapInv s) (step : SnapStep) : SnapInv (s.step step) := by
  rcases snapStep_cases s step with ⟨step', rfl⟩ | ⟨now, devId, rfl⟩ | ⟨hsame, -⟩ |
    ⟨i, k, devId, since, fut, phase, hi, hends, hstep⟩
  · exact h.serve step'
  · exact h.snapshot now devId
  · rwa [hsame]
  · rw [hstep]
    exact h.finish ⟨devId, since, fut, hi⟩ hends.answered

theorem snapInv_run (config : Config) (steps : List SnapStep) : SnapInv ((SnapServer.start config).run steps) :=
  Runs.invariant (snapInv_start config) (fun _ step h => h.step step) steps

theorem handlers_finish (s : SnapServer) {i j : ℕ} (hij : j ≠ i) (k : ℕ) (phase : SnapshotPhase) :
    (s.finish i k phase).snaps.handlers[j]? = s.snaps.handlers[j]? :=
  List.getElem?_modify_ne _ _ hij.symm

theorem Ends.step {s : SnapServer} {i k : ℕ} {devId : String} {since : ℚ} {fut : Option (Except PyErr Bytes)}
    {step : SnapStep} {phase : SnapshotPhase} (h : Ends i since fut step phase)
    (hi : s.snaps.handlers[i]? = some ⟨devId, .waiting k since fut⟩) : s.step step = s.finish i k phase := by
  cases h with
  | resume hfut =>
    subst hfut
    unfold SnapServer.step
    dsimp only
    rw [hi]
  | expire hlate =>
    unfold SnapServer.step
    dsimp only
    rw [hi]
    exact if_pos hlate
  | cancel =>
    unfold SnapServer.step
    dsimp only
    rw [hi]

theorem SnapInv.step_waiting {s : SnapServer} (h : SnapInv s) (step : SnapStep) {i k : ℕ} {devId : String} {since : ℚ}
    {fut : Option (Except PyErr Bytes)} (hi : s.snaps.handlers[i]? = some ⟨devId, .waiting k since fut⟩) :
    (∃ phase, Ends i since fut step phase ∧ (s.step step).snaps.handlers[i]? = some ⟨devId, phase⟩) ∨
      (∀ phase, ¬Ends i since fut step phase) ∧
        (s.step step).snaps.handlers[i]? = some ⟨devId, .waiting k since (fut.or (s.shotsOf k step).head?)⟩ := by
  by_cases hends : ∃ phase, Ends i since fut step phase
  · obtain ⟨phase, hends⟩ := hends
    refine .inl ⟨phase, hends, ?_⟩
    rw [hends.step hi]
    show (s.snaps.handlers.modify i _)[i]? = _
    rw [List.getElem?_modify_eq, hi]
    rfl
  refine .inr ⟨fun phase h => hends ⟨phase, h⟩, ?_⟩
  rcases snapStep_cases s step with ⟨step', rfl⟩ | ⟨now, devId', rfl⟩ | ⟨hsame, hshots⟩ |
    ⟨j, k', devId', since', fut', phase, hj, hends', hstep⟩
  · show (s.serve step').snaps.handlers[i]? = _
    rw [(h.serve_handlers step').2, hi]
    rfl
  · show (s.snapshot now devId').snaps.handlers[i]? = _
    rw [snapshot_handlers, List.getElem?_append_left (List.getElem?_eq_some_iff.1 hi).1, hi,
      show s.shotsOf k (.snapshot now devId') = [] from rfl, List.head?_nil, Option.or_none]
  · rw [hsame, hi, hshots, List.head?_nil, Option.or_none]
  · have hij : i ≠ j := by
      rintro rfl
      obtain ⟨-, hphase⟩ := Snapshot.mk.inj (Option.some.inj (hi.symm.trans hj))
      obtain ⟨-, rfl, rfl⟩ := SnapshotPhase.waiting.inj hphase
      exact hends ⟨phase, hends'⟩
    have hnone : (s.shotsOf k step).head? = none := by cases hends' <;> rfl
    rw [hstep, handlers_finish s hij, hi, hnone, Option.or_none]

theorem SnapInv.step_over {s : SnapServer} (h : SnapInv s) (step : SnapStep) {i : ℕ} {snap : Snapshot}
    (hi : s.snaps.handlers[i]? = some snap) (hover : ∀ k since fut, snap.phase ≠ .waiting k since fut) :
    (s.step step).snaps.handlers[i]? = some snap := by
  rcases snapStep_cases s step with ⟨step', rfl⟩ | ⟨now, devId', rfl⟩ | ⟨hsame, -⟩ |
    ⟨j, k', devId', since', fut', phase, hj, hends, hstep⟩
  · show (s.serve step').snaps.handlers[i]? = _
    rw [(h.serve_handlers step').2, hi, Option.map_some, served_of_unseen fun k since fut hphase =>
      absurd hphase (hover k since fut)]
  · show (s.snapshot now devId').snaps.handlers[i]? = _
    rw [snapshot_handlers, List.getElem?_append_left (List.getElem?_eq_some_iff.1 hi).1, hi]
  · rwa [hsame]
  · have hij : i ≠ j := by
      rintro rfl
      obtain rfl := Option.some.inj (hi.symm.trans hj)
      exact hover _ _ _ rfl
    rwa [hstep, handlers_finish s hij]

theorem shots_concat (s : SnapServer) (k : ℕ) (steps : List SnapStep) (step : SnapStep) :
    s.shots k (steps ++ [step]) = s.shots k steps ++ (s.run steps).shotsOf k step :=
  (Runs.outputs_append SnapServer.step _ s steps [step]).trans (congrArg (s.shots k steps ++ ·) (List.append_nil _))

/-- In these steps the handler `i` came to an end. -/
def SnapServer.Ended (s : SnapServer) (i k : ℕ) (since : ℚ) (steps : List SnapStep) : Prop :=
  ∃ before step after phase, steps = before ++ step :: after ∧ Ends i since (s.shots k before).head? step phase

/-- What becomes of the handler `i`, which waits for the session `k`: its future is the first picture of the session,
until a step ends it. -/
inductive SnapServer.Fate (s : SnapServer) (i k : ℕ) (since : ℚ) (steps : List SnapStep) : SnapshotPhase → Prop
  | waits (hopen : ¬s.Ended i k since steps) : s.Fate i k since steps (.waiting k since (s.shots k steps).head?)
  | settled {before after : List SnapStep} {step : SnapStep} {phase : SnapshotPhase}
    (hsteps : steps = before ++ step :: after) (hfirst : ¬s.Ended i k since before)
    (hends : Ends i since (s.shots k before).head? step phase) : s.Fate i k since steps phase

theorem fate_run {s : SnapServer} (h : SnapInv s) {i k : ℕ} {devId : String} {since : ℚ}
    (hi : s.snaps.handlers[i]? = some ⟨devId, .waiting k since none⟩) (steps : List SnapStep) :
    ∃ phase, (s.run steps).snaps.handlers[i]? = some ⟨devId, phase⟩ ∧ s.Fate i k since steps phase := by
  have hrun : SnapInv (s.run steps) ∧ s.run steps = s.run steps ∧
      ∃ phase, (s.run steps).snaps.handlers[i]? = some ⟨devId, phase⟩ ∧ s.Fate i k since steps phase := by
    refine Runs.history (P := fun seen t => SnapInv t ∧ t = s.run seen ∧
      ∃ phase, t.snaps.handlers[i]? = some ⟨devId, phase⟩ ∧ s.Fate i k since seen phase) ⟨h, rfl, _, hi, ?_⟩ ?_ steps
    · refine .waits ?_
      rintro ⟨before, step, after, phase, hnil, -⟩
      exact List.append_ne_nil_of_right_ne_nil _ (List.cons_ne_nil _ _) hnil.symm
    rintro seen t step ⟨hinv, rfl, phase, hphase, hfate⟩
    refine ⟨hinv.step step, by rw [SnapServer.run, SnapServer.run, List.foldl_append]; rfl, ?_⟩
    cases hfate with
    | waits hopen =>
      obtain ⟨phase, hends, hover⟩ | ⟨hno, hwaits⟩ := hinv.step_waiting step hphase
      · exact ⟨phase, hover, .settled rfl hopen hends⟩
      · refine ⟨_, hwaits, ?_⟩
        rw [← List.head?_append, ← shots_concat]
        refine .waits ?_
        rintro ⟨before, step', after, phase, hsteps, hends⟩
        obtain rfl | ⟨after, last, rfl⟩ := List.eq_nil_or_concat' after
        · obtain ⟨rfl, hlast⟩ := List.append_inj' hsteps rfl
          obtain rfl := (List.cons.inj hlast).1
          exact hno phase hends
        · rw [← List.cons_append, ← List.append_assoc] at hsteps
          exact hopen ⟨before, step', after, phase, (List.append_inj' hsteps rfl).1, hends⟩
    | settled hsteps hfirst hends =>
      refine ⟨phase, hinv.step_over step hphase hends.answered, ?_⟩
      rw [hsteps, List.append_assoc]
      exact .settled rfl hfirst hends
  exact hrun.2.2

/-! ### The frame of the streams -/

/-- The chunks the session `k` offers to the viewers of its camera in a step, and in a run. -/
def SnapServer.offeredOf (s : SnapServer) (k : ℕ) (devId : String) : SnapStep → List Bytes
  | .serve step => s.server.chunksBy (s.server.step step) k .video devId
  | _ => []

def SnapServer.offered (s : SnapServer) (k : ℕ) (devId : String) (steps : List SnapStep) : List Bytes :=
  Runs.outputs SnapServer.step (fun s step => s.offeredOf k devId step) s steps

theorem shotOf_frame {cam : Camera} (hattached : cam.attached = true) (config : Config) (image : List Bytes) :
    (∃ data, cam.shotOf config (.frame image) = some (.ok data) ∧
      cam.chunkOf config (.frame image) = some (.video, frameChunk data)) ∨
    cam.shotOf config (.frame image) = none ∧ cam.chunkOf config (.frame image) = none := by
  unfold Camera.shotOf Camera.chunkOf
  dsimp only
  cases assembleFrame config cam.devId image with
  | ok data => exact .inl ⟨data, rfl, if_pos hattached⟩
  | error e => exact .inr ⟨if_pos hattached, if_pos hattached⟩

theorem shotsOf_attached {srv : Server} {k : ℕ} {cam : Camera} (hcam : srv.cameras[k]? = some cam)
    (hattached : cam.attached = true) (step : ServerStep) :
    ∃ datas : List Bytes, srv.shotsOf k step = datas.map .ok ∧
      srv.chunksBy (srv.step step) k .video cam.devId = datas.map frameChunk := by
  unfold Server.shotsOf Server.chunksBy Camera.chunksFor
  rw [hcam]
  dsimp only
  induction srv.emitted (srv.step step) k with
  | nil => exact ⟨[], rfl, rfl⟩
  | cons ev evs ih =>
    obtain ⟨datas, hshots, hchunks⟩ := ih
    cases ev with
    | frame image =>
      obtain ⟨data, hshot, hchunk⟩ | ⟨hshot, hchunk⟩ := shotOf_frame hattached srv.web.config image
      · refine ⟨data :: datas, ?_, ?_⟩
        · rw [List.filterMap_cons_some hshot, hshots, List.map_cons]
        · rw [List.filterMap_cons_some hchunk, List.flatMap_cons, if_pos ⟨rfl, rfl⟩, hchunks]
          rfl
      · rw [List.filterMap_cons_none hshot, List.filterMap_cons_none hchunk]
        exact ⟨datas, hshots, hchunks⟩
    | audio data =>
      refine ⟨datas, hshots, ?_⟩
      rw [List.filterMap_cons, show cam.chunkOf srv.web.config (.audio data) = if cam.audioAttached then
        some (.audio, audioChunk data) else none from rfl]
      split_ifs
      · rw [List.flatMap_cons, if_neg fun h => nomatch h.1]
        exact hchunks
      · exact hchunks
    | _ => exact ⟨datas, hshots, hchunks⟩

theorem snapStep_camera (s : SnapServer) (step : SnapStep) {k : ℕ} {cam : Camera}
    (hcam : s.server.cameras[k]? = some cam) : ∃ cam' : Camera, (s.step step).server.cameras[k]? = some cam' ∧
      cam'.devId = cam.devId ∧ cam'.attached = cam.attached := by
  rw [server_step]
  cases step.ofServer with
  | none => exact ⟨cam, hcam, rfl, rfl⟩
  | some step' => exact step_camera s.server step' hcam

theorem shots_attached {s : SnapServer} {k : ℕ} {cam : Camera} (hcam : s.server.cameras[k]? = some cam)
    (hattached : cam.attached = true) (steps : List SnapStep) :
    ∃ datas : List Bytes, s.shots k steps = datas.map .ok ∧ s.offered k cam.devId steps = datas.map frameChunk := by
  induction steps generalizing s cam with
  | nil => exact ⟨[], rfl, rfl⟩
  | cons step steps ih =>
    obtain ⟨cam', hcam', hdev, hattached'⟩ := snapStep_camera s step hcam
    obtain ⟨datas', hshots', hoffered'⟩ := ih hcam' (hattached'.trans hattached)
    have hfirst : ∃ datas : List Bytes, s.shotsOf k step = datas.map .ok ∧
        s.offeredOf k cam.devId step = datas.map frameChunk := by
      cases step with
      | serve step => exact shotsOf_attached hcam hattached step
      | _ => exact ⟨[], rfl, rfl⟩
    obtain ⟨datas, hshots, hoffered⟩ := hfirst
    rw [hdev] at hoffered'
    refine ⟨datas ++ datas', ?_, ?_⟩
    · rw [List.map_append, ← hshots, ← hshots']
      rfl
    · rw [List.map_append, ← hoffered, ← hoffered']
      rfl

theorem Fate.attached_reply {s : SnapServer} {k : ℕ} {cam : Camera} (hcam : s.server.cameras[k]? = some cam)
    (hattached : cam.attached = true) {i : ℕ} {since : ℚ} {steps : List SnapStep} {reply : SnapshotReply}
    (h : s.Fate i k since steps (.answered reply)) :
    reply = .noFrame ∨ ∃ data, reply = .image data ∧ (s.offered k cam.devId steps).head? = some (frameChunk data) := by
  cases h with
  | @settled before after step _ hsteps hfirst hends =>
    cases hends with
    | expire hlate => exact .inl rfl
    | @resume result hfut =>
      obtain ⟨datas, hshots, hoffered⟩ := shots_attached hcam hattached before
      have hsplit : s.offered k cam.devId steps = s.offered k cam.devId before ++
          (s.run before).offered k cam.devId (.resume i :: after) :=
        hsteps ▸ Runs.outputs_append SnapServer.step _ s before _
      rw [hshots] at hfut
      cases datas with
      | nil => cases hfut
      | cons data datas =>
        obtain rfl := Option.some.inj hfut
        refine .inr ⟨data, rfl, ?_⟩
        rw [hsplit, hoffered]
        rfl

/-! ### The answer -/

/-- What becomes of a request for a snapshot of this camera. -/
def SnapServer.Answers (s : SnapServer) (now : ℚ) (devId : String) (steps : List SnapStep) (phase : SnapshotPhase) :
    Prop :=
  match s.server.web.sessions.find? devId with
  | none => phase = .answered .notDiscovered
  | some k => ∃ cam, s.server.cameras[k]? = some cam ∧ cam.devId = devId ∧
    if cam.session.connected then
      (s.snapshot now devId).Fate s.snaps.handlers.length k now steps phase ∧
      (cam.attached = true → ∀ reply, phase = .answered reply → reply = .noFrame ∨
        ∃ data, reply = .image data ∧ ((s.snapshot now devId).offered k devId steps).head? = some (frameChunk data))
    else phase = .answered .offline

theorem answered_run {s : SnapServer} (h : SnapInv s) {i : ℕ} {snap : Snapshot} (hi : s.snaps.handlers[i]? = some snap)
    (hover : ∀ k since fut, snap.phase ≠ .waiting k since fut) (steps : List SnapStep) :
    (s.run steps).snaps.handlers[i]? = some snap := by
  have hkeeps : ∀ (t : SnapServer) (step : SnapStep), (SnapInv t ∧ t.snaps.handlers[i]? = some snap) →
      SnapInv (t.step step) ∧ (t.step step).snaps.handlers[i]? = some snap :=
    fun _ step ht => ⟨ht.1.step step, ht.1.step_over step ht.2 hover⟩
  exact (Runs.invariant (I := fun t => SnapInv t ∧ t.snaps.handlers[i]? = some snap) ⟨h, hi⟩ hkeeps steps).2

/-- **A snapshot is the next frame.** In every run a request for a snapshot is refused at once if its camera has no
session, or one that is not connected. Otherwise it is answered with the first frame the session emits after it, or that
there was none for ten seconds, and its listener is attached exactly as long as it waits; if the session has its own
listeners, it gets the very frame that is the next one offered to the viewers. -/
theorem snapshot_next_frame (config : Config) (seen steps : List SnapStep) (now : ℚ) (devId : String) :
    ∃ phase, (((SnapServer.start config).run seen).snapshot now devId |>.run steps).snaps.handlers[
        ((SnapServer.start config).run seen).snaps.handlers.length]? = some ⟨devId, phase⟩ ∧
      (∀ k, ((SnapServer.start config).run seen).snaps.handlers.length ∈
        (((((SnapServer.start config).run seen).snapshot now devId).run steps).snaps.emitters k).attached "frame" ↔
          ∃ since fut, phase = .waiting k since fut) ∧
      ((SnapServer.start config).run seen).Answers now devId steps phase := by
  have h := snapInv_run config seen
  set s := (SnapServer.start config).run seen
  have hinv : SnapInv (s.snapshot now devId) := h.snapshot now devId
  have hi : (s.snapshot now devId).snaps.handlers[s.snaps.handlers.length]? = some ⟨devId, s.asked now devId⟩ := by
    rw [snapshot_handlers, List.getElem?_append_right le_rfl, Nat.sub_self]
    rfl
  suffices hphase : ∃ phase, ((s.snapshot now devId).run steps).snaps.handlers[s.snaps.handlers.length]? =
      some ⟨devId, phase⟩ ∧ s.Answers now devId steps phase by
    obtain ⟨phase, hphase, hanswers⟩ := hphase
    refine ⟨phase, hphase, fun k => ?_, hanswers⟩
    have hrun : SnapInv ((s.snapshot now devId).run steps) :=
      Runs.invariant hinv (fun _ step h => h.step step) steps
    rw [hrun.attached]
    constructor
    · rintro ⟨devId', since, fut, hwaiting⟩
      exact ⟨since, fut, (Snapshot.mk.inj (Option.some.inj (hphase.symm.trans hwaiting))).2⟩
    · rintro ⟨since, fut, rfl⟩
      exact ⟨devId, since, fut, hphase⟩
  unfold SnapServer.Answers
  cases hfind : s.server.web.sessions.find? devId with
  | none =>
    have hasked : s.asked now devId = .answered .notDiscovered := by
      unfold SnapServer.asked
      rw [hfind]
    rw [hasked] at hi
    exact ⟨_, answered_run hinv hi nofun steps, rfl⟩
  | some k =>
    obtain ⟨cam, hcam, rfl⟩ := h.server.valid devId k hfind
    have hasked : s.asked now cam.devId =
        if cam.session.connected then .waiting k now none else .answered .offline := by
      unfold SnapServer.asked
      rw [hfind]
      dsimp only
      rw [hcam]
      exact if_congr Option.some_inj rfl rfl
    dsimp only
    split_ifs at hasked with hconnected
    · rw [hasked] at hi
      obtain ⟨phase, hphase, hfate⟩ := fate_run hinv hi steps
      refine ⟨phase, hphase, cam, hcam, rfl, ?_⟩
      rw [if_pos hconnected]
      refine ⟨hfate, fun hattached reply hreply => ?_⟩
      subst hreply
      exact Fate.attached_reply (by rw [server_snapshot]; exact hcam) hattached hfate
    · rw [hasked] at hi
      refine ⟨_, answered_run hinv hi nofun steps, cam, hcam, rfl, ?_⟩
      rw [if_neg hconnected]

end CamReverse
