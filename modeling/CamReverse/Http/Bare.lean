import CamReverse.Http.Effects
import CamReverse.Unseen

/-!
# The server without its clients

`Server.bare` forgets the handlers of streams and their queues. What the sessions, the discoveries and the
configuration do is the same with them and without (`bare_step`), and what the handlers do is nothing without them
(`bare_step_client`).
-/

namespace CamReverse

open Effect

/-- The module's state without queues; the lists of them are there, and empty. -/
def Web.bare (web : Web) : Web where
  config := web.config
  sessions := web.sessions
  queues media := (web.queues media).map fun _ => []
  cameraIps := web.cameraIps
  chunks := []

def Server.bare (srv : Server) : Server where
  web := srv.web.bare
  cameras := srv.cameras
  clients := []

/-! ### The listeners -/

theorem commutes_offer (media : Media) (devId : String) (chunk : Bytes) :
    Commutes Web.bare (offer media devId chunk) := fun web => by
  unfold offer
  rw [get_bind_apply, get_bind_apply, show (web.bare.queues media).find? devId = _ from Table.find?_map _ _ _]
  cases (web.queues media).find? devId with
  | none => rfl
  | some qs =>
    -- with an empty list the loop does nothing
    show EStateM.Result.ok () web.bare = changed Web.bare ((qs.forM fun q => modify fun web =>
      { web with chunks := web.chunks.modify q (·.putNowait chunk) } : EStateM PyErr Web Unit) web)
    induction qs generalizing web with
    | nil => rfl
    | cons q qs ih => exact ih { web with chunks := web.chunks.modify q (·.putNowait chunk) }

theorem ignore_listeners (cam : Camera) (now : ℚ) : (cam.listeners now).Ignore Web.bare where
  frame image := by
    refine Commutes.ite (Commutes.get_bind (fun _ => rfl) fun web => ?_) (Commutes.pure _)
    exact (Commutes.lift _).bind fun _ => commutes_offer .video cam.devId _
  audio data := Commutes.ite (commutes_offer .audio cam.devId _) (Commutes.pure _)
  disconnect web := by
    show (if cam.attached then dropSession cam.devId web.bare else web.bare) =
      Web.bare (if cam.attached then dropSession cam.devId web else web)
    split_ifs <;> rfl
  login := Unseen.startVideoStream _ now
  listWifi _ := Commutes.pure _

/-! ### The steps -/

/-- The steps of the handlers of streams. -/
def ServerStep.ofClient : ServerStep → Bool
  | .openStream _ _ => true
  | .prepared _ => true
  | .take _ => true
  | .leave _ => true
  | _ => false

theorem bare_onSession (srv : Server) (k : ℕ) (now : ℚ) (c : Callback) :
    (srv.onSession k now c).bare = srv.bare.onSession k now c := by
  unfold Server.onSession
  rw [show srv.bare.cameras[k]? = srv.cameras[k]? from rfl]
  cases srv.cameras[k]? with
  | none => rfl
  | some cam =>
    have hcallback := callback_mapApp (ignore_listeners cam now) now (cam.world srv.web) c
    simp only [show cam.world srv.bare.web = (cam.world srv.web).mapApp Web.bare from rfl, hcallback]
    rfl

theorem bare_discovered (srv : Server) (rinfo : String × ℕ) (dev : DevSerial) (config : Config)
    (attached audioAttached : Bool) :
    (srv.discovered rinfo dev config attached audioAttached).bare =
      srv.bare.discovered rinfo dev config attached audioAttached := by
  have hqueues : (fun media => ((srv.web.queues media).insert dev.devId []).map fun _ => ([] : List ℕ)) =
      fun media => ((srv.web.queues media).map fun _ => []).insert dev.devId [] :=
    funext fun media => Table.map_insert _ _ _ _
  unfold Server.bare Server.discovered Web.bare
  simp only [hqueues]

theorem bare_discover (srv : Server) (rinfo : String × ℕ) (dev : DevSerial) :
    (final (onDiscover rinfo dev) srv).bare = final (onDiscover rinfo dev) srv.bare := by
  cases hknown : srv.web.sessions.find? dev.devId with
  | some k =>
    rw [discover_known (by rw [hknown]; rfl),
      discover_known (show (srv.bare.web.sessions.find? dev.devId).isSome from by
        rw [show srv.bare.web.sessions = srv.web.sessions from rfl, hknown]; rfl)]
  | none =>
    by_cases hmergeable : mergeable srv.web.config dev.devId = true
    · obtain ⟨config, hconfig, -, kvs, -, hentry, -⟩ := withCameraDefaults_ok hmergeable
      obtain ⟨audio, haudio⟩ := hentry.cameraAudio
      rw [final, discover_ok hknown hconfig haudio, final,
        discover_ok (show srv.bare.web.sessions.find? dev.devId = none from hknown) hconfig haudio]
      exact bare_discovered srv rinfo dev config true audio
    · obtain ⟨e, hconfig⟩ := withCameraDefaults_error hmergeable
      rw [final, discover_error hknown hconfig, final,
        discover_error (show srv.bare.web.sessions.find? dev.devId = none from hknown) hconfig]
      exact bare_discovered srv rinfo dev srv.web.config false false

theorem bare_step (srv : Server) {step : ServerStep} (h : step.ofClient = false) :
    (srv.step step).bare = srv.bare.step step := by
  cases step with
  | discover rinfo dev => exact bare_discover srv rinfo dev
  | ready k now => exact bare_onSession srv k now _
  | datagram k now msg => exact bare_onSession srv k now _
  | sessTick k now => exact bare_onSession srv k now _
  | resendTick k now => exact bare_onSession srv k now _
  | reconnect devId =>
    show (srv.reconnect devId).bare = srv.bare.reconnect devId
    unfold Server.reconnect
    rw [show srv.bare.web.sessions = srv.web.sessions from rfl]
    cases srv.web.sessions.find? devId with
    | none => rfl
    | some k => exact bare_onSession srv k 0 .close
  | configure config => rfl
  | openStream media devId => cases h
  | prepared i => cases h
  | take i => cases h
  | leave i => cases h

theorem bare_queues {srv : Server} {media : Media} {devId : String} {qs : List ℕ}
    (hqs : (srv.web.queues media).find? devId = some qs) (qs' : List ℕ) (chunks : List ChunkQueue)
    (clients : List Client) :
    Server.bare { srv with
      web := { srv.web with
        chunks := chunks
        queues := Function.update srv.web.queues media ((srv.web.queues media).insert devId qs') }
      clients := clients } = srv.bare := by
  have hsame : ((srv.web.queues media).map fun _ => ([] : List ℕ)).insert devId [] =
      (srv.web.queues media).map fun _ => [] :=
    Table.insert_of_find? ((Table.find?_map _ _ _).trans (congrArg (Option.map fun _ => []) hqs))
  have hqueues : (fun media' => (Function.update srv.web.queues media ((srv.web.queues media).insert devId qs')
      media').map fun _ => ([] : List ℕ)) = fun media' => (srv.web.queues media').map fun _ => [] := by
    funext media'
    by_cases hmedia : media' = media
    · subst hmedia
      rw [Function.update_self, Table.map_insert, hsame]
    · rw [Function.update_of_ne hmedia]
  unfold Server.bare Web.bare
  simp only [hqueues]

theorem bare_step_client (srv : Server) {step : ServerStep} (h : step.ofClient = true) :
    (srv.step step).bare = srv.bare := by
  cases step with
  | openStream media devId =>
    show (srv.openStream media devId).bare = srv.bare
    unfold Server.openStream
    split
    · rfl
    · split_ifs <;> rfl
  | prepared i =>
    show (srv.prepared i).bare = srv.bare
    unfold Server.prepared
    split
    · rfl
    · rename_i c hc
      split_ifs
      · unfold Server.appendQueue
        split
        · rfl
        · rename_i qs hqs
          exact bare_queues hqs _ _ _
      · rfl
  | take i =>
    show (srv.take i).bare = srv.bare
    unfold Server.take
    split <;> rfl
  | leave i =>
    show (srv.leave i).bare = srv.bare
    unfold Server.leave
    split
    · rfl
    · rename_i c hc
      split
      · rfl
      · unfold Server.removeQueue
        split
        · rfl
        · rename_i qs hqs
          split_ifs
          · exact bare_queues hqs _ _ _
          · rfl
      · rfl
  | _ => cases h

theorem client_keeps (srv : Server) {step : ServerStep} (h : step.ofClient = true) :
    (srv.step step).cameras = srv.cameras ∧ (srv.step step).web.cameraIps = srv.web.cameraIps ∧
      (srv.step step).web.sessions = srv.web.sessions ∧ (srv.step step).web.config = srv.web.config := by
  have hbare := bare_step_client srv h
  have hcameras := congrArg Server.cameras hbare
  have hips := congrArg (fun srv => srv.web.cameraIps) hbare
  have hsessions := congrArg (fun srv => srv.web.sessions) hbare
  have hconfig := congrArg (fun srv => srv.web.config) hbare
  exact ⟨hcameras, hips, hsessions, hconfig⟩

/-- **A run without the clients** is the run of the other steps. -/
theorem bare_run (srv : Server) (steps : List ServerStep) :
    (srv.run steps).bare = srv.bare.run (steps.filter (!·.ofClient)) := by
  induction steps generalizing srv with
  | nil => rfl
  | cons step steps ih =>
    have hrun := ih (srv.step step)
    rw [Server.run, List.foldl_cons, ← Server.run, hrun]
    cases hstep : step.ofClient with
    | false =>
      rw [bare_step srv hstep, List.filter_cons_of_pos (by rw [hstep]; rfl)]
      rfl
    | true => rw [bare_step_client srv hstep, List.filter_cons_of_neg (by rw [hstep]; decide)]

end CamReverse
