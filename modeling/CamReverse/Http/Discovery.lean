import CamReverse.Http.Sessions

/-!
# Discoveries that raise

`_on_discover` makes and registers the session of a new camera before it merges the camera's defaults into
its configuration. Where the merge raises, the session stays registered, without listeners, and the camera
counts as discovered from then on. So a discovery is all or nothing exactly if it is of a known camera or
there are only mappings to merge (`discovery_all_or_nothing_iff`).
-/

namespace CamReverse

open Effect

/-- The discovery registers a new session with its listeners, and completes the camera's entry. -/
structure Server.Registers (srv srv' : Server) (rinfo : String × ℕ) (dev : DevSerial) : Prop where
  sessions : srv'.web.sessions = srv.web.sessions.insert dev.devId srv.cameras.length
  camera : ∃ cam : Camera, srv'.cameras[srv.cameras.length]? = some cam ∧
    cam.session = .init dev rinfo 5000 ∧ cam.attached = true
  entry : CompletedEntry srv.web.config srv'.web.config dev.devId

/-- A discovery is ignored, or registers a session, or raises and leaves no trace in the sessions and queue
lists. -/
inductive Server.AllOrNothing (srv : Server) (rinfo : String × ℕ) (dev : DevSerial) : Prop where
  | ignored (hknown : (srv.web.sessions.find? dev.devId).isSome) (h : onDiscover rinfo dev srv = .ok () srv)
  | registered (hnew : srv.web.sessions.find? dev.devId = none) (srv' : Server)
      (h : onDiscover rinfo dev srv = .ok () srv') (hregisters : srv.Registers srv' rinfo dev)
  | refused (e : PyErr) (srv' : Server) (h : onDiscover rinfo dev srv = .error e srv')
      (hsessions : srv'.web.sessions = srv.web.sessions) (hqueues : srv'.web.queues = srv.web.queues)
      (hcameras : srv'.cameras = srv.cameras)

/-- **A discovery is all or nothing** exactly if the camera has a session already, or the configuration has
a mapping of cameras in which the camera's entry, if there is one, is a mapping. -/
theorem discovery_all_or_nothing_iff (srv : Server) (rinfo : String × ℕ) (dev : DevSerial) :
    srv.AllOrNothing rinfo dev ↔
      (srv.web.sessions.find? dev.devId).isSome ∨ mergeable srv.web.config dev.devId := by
  cases hfind : srv.web.sessions.find? dev.devId with
  | some k =>
    have hknown : (srv.web.sessions.find? dev.devId).isSome := by rw [hfind]; rfl
    have hignored : onDiscover rinfo dev srv = .ok () srv := by
      unfold onDiscover
      rw [get_bind_apply, if_pos hknown]
      rfl
    exact ⟨fun _ => .inl rfl, fun _ => .ignored hknown hignored⟩
  | none =>
    simp only [Option.isSome_none, Bool.false_eq_true, false_or]
    by_cases hmergeable : mergeable srv.web.config dev.devId = true
    · obtain ⟨config, hconfig, hcompleted⟩ := withCameraDefaults_ok hmergeable
      obtain ⟨given, kvs, -, hentry, -⟩ := id hcompleted
      obtain ⟨audio, haudio⟩ := hentry.cameraAudio
      refine ⟨fun _ => hmergeable, fun _ => .registered hfind _ (discover_ok hfind hconfig haudio rinfo) ?_⟩
      exact ⟨rfl, ⟨_, List.getElem?_concat_length, rfl, rfl⟩, hcompleted⟩
    · obtain ⟨e, hconfig⟩ := withCameraDefaults_error hmergeable
      have herror := discover_error hfind hconfig rinfo
      refine ⟨fun h => ?_, fun h => absurd h hmergeable⟩
      cases h with
      | ignored hknown h =>
        rw [hfind] at hknown
        cases hknown
      | registered hnew srv' h hregisters =>
        rw [herror] at h
        cases h
      | refused e' srv' h hsessions hqueues hcameras =>
        rw [herror] at h
        cases h
        -- the session that was made is still among the cameras
        have hlength := congrArg List.length hcameras
        simp [Server.discovered] at hlength

/-- The configuration read from a file in which the entry of a camera is empty. -/
def emptyEntry (devId : String) : Config := Table.put defaultConfig "cameras" (.dict [(devId, .none)])

/-- An empty entry is no mapping, so the session stays behind. -/
theorem discovery_leaves_session :
    ¬(Server.start (emptyEntry aCamera.devId)).AllOrNothing ("192.168.1.5", 32108) aCamera := by
  intro h
  have hnew : (Server.start (emptyEntry aCamera.devId)).web.sessions.find? aCamera.devId = none := rfl
  have hmerge : withCameraDefaults (emptyEntry aCamera.devId) aCamera.devId = .error .typeError := rfl
  have herror := discover_error hnew hmerge ("192.168.1.5", 32108)
  cases h with
  | ignored hknown h => cases hknown
  | registered _ srv' h hregisters =>
    rw [herror] at h
    cases h
  | refused e' srv' h hsessions hqueues hcameras =>
    rw [herror] at h
    cases h
    cases hcameras

end CamReverse
