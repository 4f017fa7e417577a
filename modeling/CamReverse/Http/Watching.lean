import CamReverse.Frames.DataStream
import CamReverse.Http.Alone
import CamReverse.Http.EachSession
import CamReverse.Http.Service
import CamReverse.Http.Streams

/-!
# From the camera to the browser

Every session of the server is watched (`watched_run`). So
everything a browser decodes of a stream came from the camera: a frame is made of data packets whose ids go up by one, and
a piece of audio is what one audio packet brought (`browser_decodes_received`).
-/

namespace CamReverse

open Effect Collector

/-! ### The data packets of a session -/

/-- The data packets a step brings to the session `k`. -/
def Server.dataOf (srv : Server) (k : ℕ) (step : ServerStep) : List Delivery :=
  match srv.callbackOf step, srv.cameras[k]? with
  | some (k', now, c), some cam => if k' = k then c.data now cam.session else []
  | _, _ => []

def Server.data (srv : Server) (k : ℕ) (steps : List ServerStep) : List Delivery :=
  Runs.outputs Server.step (fun srv step => srv.dataOf k step) srv steps

theorem data_concat (srv : Server) (k : ℕ) (seen : List ServerStep) (step : ServerStep) :
    srv.data k (seen ++ [step]) = srv.data k seen ++ (srv.run seen).dataOf k step := by
  rw [Server.data, Runs.outputs_append, Runs.outputs, Runs.outputs, List.append_nil]
  rfl

theorem data_append (srv : Server) (k : ℕ) (seen steps : List ServerStep) :
    srv.data k (seen ++ steps) = srv.data k seen ++ (srv.run seen).data k steps :=
  Runs.outputs_append _ _ srv seen steps

theorem keepStream_listeners (cam : Camera) (now : ℚ) : (cam.listeners now).KeepStream where
  login := sameStream_startVideoStream now
  listWifi _ := Along.pure _

/-- **Every session is watched**, in every run. -/
theorem watched_run (config : Config) (steps : List ServerStep) :
    ((Server.start config).run steps).EachSession fun k s evs => Watched ((Server.start config).data k steps) s evs := by
  refine eachSession_run (J := fun seen k s evs => Watched ((Server.start config).data k seen) s evs) ?_ ?_ ?_ ?_ steps
  · rintro k cam ⟨⟩
  · intro seen rinfo dev
    exact ⟨⟨[], [], List.nil_sublist _, rfl, rfl⟩, by rintro payload ⟨⟩, rfl⟩
  · intro seen step k s evs _ h
    rw [data_concat]
    exact h.mono _
  · intro seen step k now c cam hof hcam h
    have hdata : ((Server.start config).run seen).dataOf k step = c.data now cam.session := by
      unfold Server.dataOf
      rw [hof, hcam]
      exact if_pos rfl
    rw [data_concat, hdata]
    have hwatched : Watched ((Server.start config).data k seen) (cam.world ((Server.start config).run seen).web).session
      (cam.world ((Server.start config).run seen).web).events := h
    exact hwatched.callback (keepStream_listeners cam now) (keepName_listeners cam now) (orderly_camera cam now) c

/-! ### What is emitted -/

def Server.Unrepaired (devId : String) (srv : Server) (_ : ServerStep) : Prop :=
  fixPacketLoss srv.web.config devId ≠ .ok true

instance (devId : String) (srv : Server) (step : ServerStep) : Decidable (srv.Unrepaired devId step) :=
  inferInstanceAs (Decidable (_ ≠ _))

/-- The run brought a session of this camera what a stream carries: the data packets of a frame, with ids going up by
one, or the packet of a piece of audio. -/
def Server.Received (srv : Server) (steps : List ServerStep) (media : Media) (devId : String) (payload : Bytes) : Prop :=
  ∃ (k : ℕ) (dev : DevSerial), (srv.run steps).devs[k]? = some dev ∧ dev.devId = devId ∧
    match media with
    | .video => ∃ config image last, assembleFrame config devId image = .ok payload ∧
        Assembled ((srv.data k steps).map Delivery.msg) image last
    | .audio => ∃ d ∈ srv.data k steps, dataPktOf d.msg = .audio payload

theorem getElem?_devs_step {srv : Server} {k : ℕ} {dev : DevSerial} (h : srv.devs[k]? = some dev) (step : ServerStep) :
    (srv.step step).devs[k]? = some dev := by
  by_cases hstep : step.discovers = none
  · rw [(step_devs srv hstep).1, h]
  · cases step with
    | discover rinfo dev' =>
      rcases discover_devs srv rinfo dev' with hsame | ⟨-, hdevs, -⟩
      · exact (congrArg (fun srv => srv.devs[k]?) hsame).trans h
      · rw [show (srv.step (.discover rinfo dev')).devs = _ from hdevs,
          List.getElem?_append_left (List.getElem?_eq_some_iff.1 h).1, h]
    | _ => exact absurd rfl hstep

theorem getElem?_devs_run {srv : Server} {k : ℕ} {dev : DevSerial} (h : srv.devs[k]? = some dev)
    (steps : List ServerStep) : (srv.run steps).devs[k]? = some dev :=
  Runs.invariant (I := fun srv' : Server => srv'.devs[k]? = some dev) h (fun _ step h => getElem?_devs_step h step) steps

theorem exists_callbackOf {srv : Server} {step : ServerStep} {k : ℕ} (h : srv.sessionOf step = some k) :
    ∃ now c, srv.callbackOf step = some (k, now, c) := by
  cases step with
  | reconnect devId =>
    change srv.web.sessions.find? devId = some k at h
    exact ⟨0, .close, congrArg (Option.map _) h⟩
  | ready k' now => exact ⟨now, .ready, congrArg (Option.map fun k => (k, now, _)) h⟩
  | datagram k' now msg => exact ⟨now, .datagram srv.web.config msg, congrArg (Option.map fun k => (k, now, _)) h⟩
  | sessTick k' now => exact ⟨now, .sessTick, congrArg (Option.map fun k => (k, now, _)) h⟩
  | resendTick k' now => exact ⟨now, .resendTick, congrArg (Option.map fun k => (k, now, _)) h⟩
  | _ => cases h

theorem config_of_dataOf {srv : Server} {k : ℕ} {step : ServerStep} {d : Delivery} (h : d ∈ srv.dataOf k step) :
    d.config = srv.web.config := by
  have hdata : ∀ call cam, srv.callbackOf step = some call → srv.cameras[k]? = some cam →
      d ∈ call.2.2.data call.2.1 cam.session → d.config = srv.web.config := by
    intro call cam hof _ hd
    cases step with
    | datagram k' now msg =>
      obtain rfl := Option.some.inj hof
      simp only [Callback.data] at hd
      split_ifs at hd
      · rw [List.mem_singleton.1 hd]
      · cases hd
    | reconnect devId =>
      obtain ⟨k', -, rfl⟩ := Option.map_eq_some_iff.1 hof
      cases hd
    | ready k' now =>
      obtain rfl := Option.some.inj hof
      cases hd
    | sessTick k' now =>
      obtain rfl := Option.some.inj hof
      cases hd
    | resendTick k' now =>
      obtain rfl := Option.some.inj hof
      cases hd
    | _ => cases hof
  unfold Server.dataOf at h
  cases hof : srv.callbackOf step with
  | none =>
    rw [hof] at h
    cases h
  | some call =>
    cases hcam : srv.cameras[k]? with
    | none =>
      rw [hof, hcam] at h
      cases h
    | some cam =>
      simp only [hof, hcam] at h
      split_ifs at h
      · exact hdata call cam hof hcam h
      · cases h

theorem unrepaired_data {srv : Server} {devId : String} {steps : List ServerStep}
    (hoff : Runs.Guarded Server.step (Server.Unrepaired devId) srv steps) (k : ℕ) :
    ∀ d ∈ srv.data k steps, fixPacketLoss d.config devId ≠ .ok true := by
  intro d hd
  obtain ⟨before, step, after, rfl, hmem⟩ := Runs.mem_outputs hd
  rw [config_of_dataOf hmem]
  exact hoff.step_of

theorem payloadOf_cases {cam : Camera} {config : Config} {ev : Event} {media : Media} {payload : Bytes}
    (h : cam.payloadOf config ev = some (media, payload)) :
    (media = .video ∧ ∃ image, ev = .frame image ∧ assembleFrame config cam.devId image = .ok payload) ∨
      media = .audio ∧ ev = .audio payload := by
  unfold Camera.payloadOf at h
  cases ev with
  | frame image =>
    cases hassemble : assembleFrame config cam.devId image with
    | ok assembled =>
      simp only [hassemble] at h
      split_ifs at h
      · obtain ⟨rfl, rfl⟩ := Prod.mk.inj (Option.some.inj h)
        exact .inl ⟨rfl, image, rfl, hassemble⟩
    | error e =>
      simp only [hassemble, ite_self] at h
      cases h
  | audio data =>
    dsimp only at h
    split_ifs at h
    · obtain ⟨rfl, rfl⟩ := Prod.mk.inj (Option.some.inj h)
      exact .inr ⟨rfl, rfl⟩
  | _ => cases h

theorem mem_payloadsOf {srv : Server} {media : Media} {devId : String} {step : ServerStep} {payload : Bytes}
    (h : payload ∈ srv.payloadsOf media devId step) :
    ∃ (k : ℕ) (cam cam' : Camera) (ev : Event), srv.cameras[k]? = some cam ∧
      (srv.step step).cameras[k]? = some cam' ∧ cam.devId = devId ∧ cam'.devId = devId ∧ ev ∈ cam'.events ∧
      cam.payloadOf srv.web.config ev = some (media, payload) := by
  unfold Server.payloadsOf at h
  cases hof : srv.sessionOf step with
  | none =>
    rw [hof] at h
    cases h
  | some k =>
    obtain ⟨now, c, hcall⟩ := exists_callbackOf hof
    cases hcam : srv.cameras[k]? with
    | none =>
      simp only [hof, hcam] at h
      cases h
    | some cam =>
      obtain ⟨cam', hcam', hdevId, -⟩ := (onSession_keeps srv k now c).1 k cam hcam
      rw [← step_of_callback hcall] at hcam'
      simp only [hof, hcam, List.mem_flatMap, List.mem_filterMap] at h
      obtain ⟨⟨media', payload'⟩, ⟨ev, hev, hpayload⟩, hmem⟩ := h
      split_ifs at hmem with hmine
      · obtain ⟨rfl, hdev⟩ := hmine
        obtain rfl := List.mem_singleton.1 hmem
        have hemitted : ev ∈ cam'.events := by
          unfold Server.emitted at hev
          rw [hcam, hcam'] at hev
          exact List.mem_of_mem_drop hev
        exact ⟨k, cam, cam', ev, hcam, hcam', hdev, hdevId.trans hdev, hemitted, hpayload⟩
      · cases hmem

theorem received_of_payload (config : Config) {devId : String} {before after : List ServerStep} {step : ServerStep}
    {media : Media} (hoff : media = .video →
      Runs.Guarded Server.step (Server.Unrepaired devId) (.start config) (before ++ step :: after))
    {payload : Bytes} (h : payload ∈ ((Server.start config).run before).payloadsOf media devId step) :
    (Server.start config).Received (before ++ step :: after) media devId payload := by
  obtain ⟨k, cam, cam', ev, hcam, hcam', hdev, hdev', hev, hpayload⟩ := mem_payloadsOf h
  have hrun : before ++ step :: after = (before ++ [step]) ++ after := List.append_cons before step after
  have hnow : (Server.start config).run (before ++ [step]) = ((Server.start config).run before).step step := by
    rw [Server.run, Server.run, List.foldl_append]
    rfl
  have hwatched : Watched ((Server.start config).data k (before ++ step :: after)) cam'.session cam'.events := by
    rw [hrun, data_append]
    exact (watched_run config (before ++ [step]) k cam' (hnow ▸ hcam')).mono _
  have hlater : ((Server.start config).run (before ++ step :: after)).devs[k]? = some cam'.session.dev := by
    rw [hrun, Server.run, List.foldl_append, ← Server.run, ← Server.run, hnow]
    refine getElem?_devs_run ?_ after
    rw [Server.devs, List.getElem?_map, hcam']
    rfl
  refine ⟨k, cam'.session.dev, hlater, hdev', ?_⟩
  rcases payloadOf_cases hpayload with ⟨rfl, image, rfl, hassemble⟩ | ⟨rfl, rfl⟩
  · have himage : image ∈ frames cam'.events := List.mem_filterMap.2 ⟨_, hev, rfl⟩
    have hunrepaired := unrepaired_data (hoff rfl) k
    rw [← hdev', show cam'.devId = _ from hwatched.named.symm] at hunrepaired
    obtain ⟨last, hassembled⟩ := hwatched.assembled hunrepaired himage
    rw [hdev] at hassemble
    exact ⟨_, image, last, hassemble, hassembled⟩
  · exact hwatched.audio payload (List.mem_filterMap.2 ⟨_, hev, rfl⟩)

/-- **From the camera to the browser.** While the session of a camera stays, whatever a browser decodes from any part of
a stream of its frames or its audio that has arrived was received from this camera: a frame is what the server made of
data packets of one session with ids going up by one, if `fix_packet_loss` was off, and a piece of audio is what one
audio packet brought. -/
theorem browser_decodes_received (config : Config) {seen steps : List ServerStep} {i k : ℕ} {media : Media}
    {devId : String} (hclient : ((Server.start config).run seen).clients[i]? = some ⟨media, devId, .preparing⟩)
    (hplace : Runs.Guarded Server.step (Server.InPlace devId k) ((Server.start config).run seen) steps)
    (hoff : media = .video → Runs.Guarded Server.step (Server.Unrepaired devId) (.start config) (seen ++ steps)) :
    ∀ body, body <+: (((Server.start config).run seen).taken i steps).flatten →
      ∀ payload ∈ (media.reader.readAll body).1, (Server.start config).Received (seen ++ steps) media devId payload := by
  obtain ⟨got, hgot, htaken⟩ := taken_payloads config hclient hplace
  intro body hbody payload hpayload
  rw [htaken, ← List.flatMap_def] at hbody
  have hread := ((framing_media media).readAll_arrived hbody).1
  obtain ⟨before, step, after, rfl, hmem⟩ := Runs.mem_outputs (hgot.subset (hread.subset hpayload))
  rw [← List.append_assoc] at hoff ⊢
  refine received_of_payload config hoff ?_
  rw [Server.run, List.foldl_append]
  exact hmem

/-- What the first client decodes of both frames. -/
theorem browser_decodes_received_twoFrames :
    ∃ payload ∈ (readPart.readAll (((Server.start defaultConfig).run twoClients).taken 0 bothWatch).flatten).1,
      (Server.start defaultConfig).Received (twoClients ++ bothWatch) .video aCamera.devId payload := by
  have hclient : ((Server.start defaultConfig).run twoClients).clients[0]? =
      some ⟨.video, aCamera.devId, .preparing⟩ := by decide +kernel
  have hplace : Runs.Guarded Server.step (Server.InPlace aCamera.devId 0)
      ((Server.start defaultConfig).run twoClients) bothWatch := by decide +kernel
  have hoff : Runs.Guarded Server.step (Server.Unrepaired aCamera.devId) (Server.start defaultConfig)
      (twoClients ++ bothWatch) := by decide +kernel
  have hdecoded : 0 < (readPart.readAll
      (((Server.start defaultConfig).run twoClients).taken 0 bothWatch).flatten).1.length := by decide +kernel
  obtain ⟨payload, hpayload⟩ := List.exists_mem_of_length_pos hdecoded
  exact ⟨payload, hpayload,
    browser_decodes_received defaultConfig hclient hplace (fun _ => hoff) _ List.prefix_rfl payload hpayload⟩

end CamReverse
