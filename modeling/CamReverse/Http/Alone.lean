import CamReverse.Http.Clients
import CamReverse.Lib.Filtered
import CamReverse.OwnConfig

/-!
# Each camera on its own

`Server.alone` is what a server has of one camera: its sessions, its entries and its part of the configuration. A run of
the server is, for each of its cameras, a run of a server that only this camera talks to (`camera_alone`): whatever the
others send, its sessions do the same, and its viewers are offered the same.
-/

namespace CamReverse

open Effect

/-! ### The configuration of one camera -/

/-- The configuration without the entries of other cameras. -/
def onlyCamera (devId : String) (config : Config) : Config :=
  match config.lookup "cameras" with
  | some (.dict cameras) => Table.put config "cameras" (.dict (cameras.filter fun kv => kv.1 = devId))
  | _ => config

theorem onlyCamera_of_dict {config : Config} {cameras : List (String × PyVal)}
    (h : config.lookup "cameras" = some (.dict cameras)) (devId : String) :
    onlyCamera devId config = Table.put config "cameras" (.dict (cameras.filter fun kv => kv.1 = devId)) := by
  unfold onlyCamera
  rw [h]

theorem onlyCamera_cases (devId : String) (config : Config) :
    (∃ cameras, config.lookup "cameras" = some (.dict cameras) ∧
      (onlyCamera devId config).lookup "cameras" = some (.dict (cameras.filter fun kv => kv.1 = devId))) ∨
    onlyCamera devId config = config := by
  unfold onlyCamera
  split
  · rename_i cameras hcameras
    exact .inl ⟨cameras, hcameras, Table.lookup_put_self _ _ _⟩
  · exact .inr rfl

theorem cameraConfig_only (devId : String) (config : Config) :
    cameraConfig (onlyCamera devId config) devId = cameraConfig config devId := by
  obtain ⟨cameras, hcameras, honly⟩ | hsame := onlyCamera_cases devId config
  · unfold cameraConfig configCameras
    rw [hcameras, honly]
    simp only [except_ok_bind, PyVal.get, Table.lookup_filter_self]
  · rw [hsame]

theorem fixPacketLoss_only (devId : String) (config : Config) :
    fixPacketLoss (onlyCamera devId config) devId = fixPacketLoss config devId := by
  unfold fixPacketLoss
  rw [cameraConfig_only]

theorem assembleFrame_only (devId : String) (config : Config) (image : List Bytes) :
    assembleFrame (onlyCamera devId config) devId image = assembleFrame config devId image := by
  unfold assembleFrame
  rw [cameraConfig_only]

theorem cameraAudio_only (devId : String) (config : Config) :
    cameraAudio (onlyCamera devId config) devId = cameraAudio config devId := by
  obtain ⟨cameras, hcameras, honly⟩ | hsame := onlyCamera_cases devId config
  · unfold cameraAudio configCameras
    rw [hcameras, honly]
    simp only [except_ok_bind, Table.lookup_filter_self]
  · rw [hsame]

theorem mergeable_only (devId : String) (config : Config) :
    mergeable (onlyCamera devId config) devId = mergeable config devId := by
  obtain ⟨cameras, hcameras, honly⟩ | hsame := onlyCamera_cases devId config
  · unfold mergeable
    rw [hcameras, honly]
    simp only [Table.lookup_filter_self]
  · rw [hsame]

theorem withCameraDefaults_only {config config' : Config} {devId : String}
    (h : withCameraDefaults config devId = .ok config') :
    withCameraDefaults (onlyCamera devId config) devId = .ok (onlyCamera devId config') := by
  have hmergeable : mergeable config devId = true := by
    by_contra hno
    obtain ⟨e, he⟩ := withCameraDefaults_error hno
    rw [h] at he
    cases he
  obtain ⟨cameras, given, hcameras, hgiven⟩ := cameraConfig_of_mergeable hmergeable
  rw [withCameraDefaults_eq hcameras hgiven] at h
  obtain rfl := Except.ok.inj h
  have honly := onlyCamera_of_dict hcameras devId
  have hrest : (onlyCamera devId config).lookup "cameras" = some (.dict (cameras.filter fun kv => kv.1 = devId)) := by
    rw [honly]
    exact Table.lookup_put_self _ _ _
  rw [withCameraDefaults_eq hrest ((cameraConfig_only devId config).trans hgiven)]
  unfold putEntry
  rw [onlyCamera_of_dict (Table.lookup_put_self _ _ _), honly, Table.put_put, Table.put_put, Table.filter_put_self]

theorem onlyCamera_putEntry {config : Config} {cameras : List (String × PyVal)}
    (hcameras : config.lookup "cameras" = some (.dict cameras)) {devId devId' : String} (h : devId' ≠ devId)
    (kvs : List (String × PyVal)) : onlyCamera devId (putEntry config cameras devId' kvs) = onlyCamera devId config := by
  unfold putEntry
  rw [onlyCamera_of_dict (Table.lookup_put_self _ _ _), onlyCamera_of_dict hcameras, Table.put_put,
    Table.filter_put_ne _ h]

theorem onlyCamera_withCameraDefaults {config config' : Config} {devId devId' : String} (hne : devId' ≠ devId)
    (h : withCameraDefaults config devId' = .ok config') : onlyCamera devId config' = onlyCamera devId config := by
  have hmergeable : mergeable config devId' = true := by
    by_contra hno
    obtain ⟨e, he⟩ := withCameraDefaults_error hno
    rw [h] at he
    cases he
  obtain ⟨cameras, given, hcameras, hgiven⟩ := cameraConfig_of_mergeable hmergeable
  rw [withCameraDefaults_eq hcameras hgiven] at h
  obtain rfl := Except.ok.inj h
  exact onlyCamera_putEntry hcameras hne _

/-! ### One camera of a server -/

def Camera.is (devId : String) (cam : Camera) : Bool := cam.devId = devId

/-- The number of a session among those of this camera. -/
def Server.place (srv : Server) (devId : String) (k : ℕ) : ℕ := Filtered.rank (Camera.is devId) srv.cameras k

/-- What the module's state has of one camera, whose sessions are renumbered. -/
def Web.alone (devId : String) (place : ℕ → ℕ) (web : Web) : Web where
  config := onlyCamera devId web.config
  sessions := (web.sessions.only devId).map place
  queues media := ((web.queues media).only devId).map fun _ => []
  cameraIps := web.cameraIps.only devId
  chunks := []

/-- What a server has of one camera. -/
def Server.alone (devId : String) (srv : Server) : Server where
  web := srv.web.alone devId (srv.place devId)
  cameras := srv.cameras.filter (Camera.is devId)
  clients := []

/-- What holds of a server: a session is named after its camera, and an entry of `sessions` is one of its camera. -/
structure AloneInv (srv : Server) : Prop where
  named : ∀ cam ∈ srv.cameras, cam.session.devName = cam.devId
  valid : ∀ devId k, srv.web.sessions.find? devId = some k → ∃ cam, srv.cameras[k]? = some cam ∧ cam.devId = devId

/-! ### A callback of a session -/

theorem alone_offer (media : Media) (devId : String) (chunk : Bytes) (place : ℕ → ℕ) :
    Commutes (Web.alone devId place) (offer media devId chunk) := fun web => by
  have hqueues : ((web.alone devId place).queues media).find? devId =
      ((web.queues media).find? devId).map fun _ => [] := by
    show (((web.queues media).only devId).map _).find? devId = _
    rw [Table.find?_map, Table.find?_only]
  unfold offer
  rw [get_bind_apply, get_bind_apply, hqueues]
  cases (web.queues media).find? devId with
  | none => rfl
  | some qs =>
    show EStateM.Result.ok () (web.alone devId place) = changed (Web.alone devId place)
      ((qs.forM fun q => modify fun web =>
        { web with chunks := web.chunks.modify q (·.putNowait chunk) } : EStateM PyErr Web Unit) web)
    clear hqueues
    induction qs generalizing web with
    | nil => rfl
    | cons q qs ih => exact ih { web with chunks := web.chunks.modify q (·.putNowait chunk) }

theorem ignore_alone (cam : Camera) (now : ℚ) (place : ℕ → ℕ) :
    (cam.listeners now).Ignore (Web.alone cam.devId place) where
  frame image := by
    refine Commutes.ite (Commutes.get_bind (fun web => ?_) fun web => ?_) (Commutes.pure _)
    · rw [show (web.alone cam.devId place).config = onlyCamera cam.devId web.config from rfl, assembleFrame_only]
    · exact (Commutes.lift _).bind fun _ => alone_offer .video cam.devId _ place
  audio data := Commutes.ite (alone_offer .audio cam.devId _ place) (Commutes.pure _)
  disconnect web := by
    have hdrop : dropSession cam.devId (web.alone cam.devId place) =
        (dropSession cam.devId web).alone cam.devId place := by
      unfold dropSession Web.alone
      simp only [Table.only_erase_self, Table.map_erase]
    show (if cam.attached then dropSession cam.devId _ else _) =
      Web.alone cam.devId place (if cam.attached then dropSession cam.devId web else web)
    split_ifs
    · exact hdrop
    · rfl
  login := Unseen.startVideoStream _ now
  listWifi _ := Commutes.pure _

theorem keepName_listeners (cam : Camera) (now : ℚ) : (cam.listeners now).KeepName where
  login := sameName_startVideoStream now
  listWifi _ := Along.pure _

def Callback.only (devId : String) : Callback → Callback
  | .datagram config msg => .datagram (onlyCamera devId config) msg
  | c => c

theorem alone_onSession {srv : Server} (h : AloneInv srv) {k : ℕ} {cam : Camera} (hcam : srv.cameras[k]? = some cam)
    (now : ℚ) (c : Callback) :
    (srv.onSession k now c).alone cam.devId =
      (srv.alone cam.devId).onSession (srv.place cam.devId k) now (c.only cam.devId) := by
  have hmem : cam ∈ srv.cameras := List.mem_of_getElem? hcam
  have his : cam.is cam.devId = true := decide_eq_true rfl
  have hget : (srv.alone cam.devId).cameras[srv.place cam.devId k]? = some cam := Filtered.getElem?_rank hcam his
  have hconfig : callback (cam.listeners now) now (cam.world srv.web) (c.only cam.devId) =
      callback (cam.listeners now) now (cam.world srv.web) c := by
    cases c with
    | datagram config msg =>
      refine callback_config _ now ?_ msg
      show fixPacketLoss (onlyCamera cam.devId config) cam.session.devName = fixPacketLoss config cam.session.devName
      rw [h.named cam hmem, fixPacketLoss_only]
    | _ => rfl
  have hcallback : callback (cam.listeners now) now (cam.world (srv.alone cam.devId).web) (c.only cam.devId) =
      (callback (cam.listeners now) now (cam.world srv.web) c).mapApp (Web.alone cam.devId (srv.place cam.devId)) := by
    rw [← hconfig, ← callback_mapApp (ignore_alone cam now _)]
    rfl
  have hdev := callback_dev (orderly_camera cam now) now (cam.world srv.web) c
  unfold Server.onSession
  rw [hcam, hget]
  simp only [hcallback]
  set w := callback (cam.listeners now) now (cam.world srv.web) c
  have hsame : Camera.is cam.devId { cam with session := w.session, events := w.events } = cam.is cam.devId :=
    congrArg (fun dev : DevSerial => decide (dev.devId = cam.devId)) hdev
  have hplace : Filtered.rank (Camera.is cam.devId)
      (srv.cameras.set k { cam with session := w.session, events := w.events }) =
      Filtered.rank (Camera.is cam.devId) srv.cameras := funext fun j => Filtered.rank_set hcam hsame j
  have hcameras := Filtered.filter_set hcam hsame
  rw [if_pos his] at hcameras
  unfold Server.alone Server.place
  simp only [hplace, hcameras]
  rfl

theorem alone_onSession_other {srv : Server} {k : ℕ} {cam : Camera} (hcam : srv.cameras[k]? = some cam)
    {devId : String} (hne : cam.devId ≠ devId) (now : ℚ) (c : Callback) :
    (srv.onSession k now c).alone devId = srv.alone devId := by
  have hset : ∀ s evs, s.dev = cam.session.dev → (srv.setSession k cam s evs).alone devId = srv.alone devId := by
    intro s evs hdev
    have hsame : Camera.is devId { cam with session := s, events := cam.events ++ evs } = cam.is devId :=
      congrArg (fun dev : DevSerial => decide (dev.devId = devId)) hdev
    have hcameras := Filtered.filter_set hcam hsame
    have hother : ¬cam.is devId = true := fun his => hne (of_decide_eq_true his)
    rw [if_neg hother] at hcameras
    have hplace : Filtered.rank (Camera.is devId) (srv.cameras.set k
        { cam with session := s, events := cam.events ++ evs }) = Filtered.rank (Camera.is devId) srv.cameras :=
      funext fun j => Filtered.rank_set hcam hsame j
    unfold Server.setSession Server.alone Server.place
    simp only [hplace, hcameras]
  have hheard : ∀ s evs, Server.alone devId { srv.setSession k cam s evs with web := cam.heard srv.web evs } =
      (srv.setSession k cam s evs).alone devId := by
    intro s evs
    have hsessions : (cam.heard srv.web evs).sessions.only devId = srv.web.sessions.only devId := by
      unfold Camera.heard
      dsimp only
      split_ifs
      · exact Table.only_erase_ne _ hne
      · rfl
    unfold Server.alone Web.alone
    simp only [hsessions]
    rfl
  rcases onSession_cases srv k now c with hsame | ⟨cam', evs, s, running, hcam', -, -, -, hlife, hstep⟩ |
    ⟨cam', evs, s, hcam', -, -, hends, hstep⟩
  · rw [hsame]
  · obtain rfl := Option.some.inj (hcam.symm.trans hcam')
    rw [hstep]
    exact hset s evs (congrArg Life.dev hlife)
  · obtain rfl := Option.some.inj (hcam.symm.trans hcam')
    rw [hstep, hheard]
    exact hset s evs (hends.dev.trans (wanes_hear cam.session.life evs).dev)

/-! ### The invariant -/

theorem aloneInv_start (config : Config) : AloneInv (.start config) where
  named _ h := (List.not_mem_nil h).elim
  valid _ _ h := nomatch h

theorem AloneInv.onSession {srv : Server} (h : AloneInv srv) (k : ℕ) (now : ℚ) (c : Callback) :
    AloneInv (srv.onSession k now c) := by
  obtain ⟨hcameras, hsessions, -⟩ := onSession_keeps srv k now c
  constructor
  · cases hcam : srv.cameras[k]? with
    | none =>
      rw [onSession_none hcam]
      exact h.named
    | some cam =>
      unfold Server.onSession
      rw [hcam]
      intro cam' hcam'
      obtain hold | rfl := List.mem_or_eq_of_mem_set hcam'
      · exact h.named cam' hold
      · have hname : (callback (cam.listeners now) now (cam.world srv.web) c).session.devName = cam.session.devName :=
          (keepName_listeners cam now).callback now (cam.world srv.web) c
        have hdev := callback_dev (orderly_camera cam now) now (cam.world srv.web) c
        show _ = (callback (cam.listeners now) now (cam.world srv.web) c).session.dev.devId
        rw [hname, hdev, h.named cam (List.mem_of_getElem? hcam)]
        rfl
  · intro devId k' hk'
    obtain ⟨cam, hcam, hdev⟩ := h.valid devId k' (hsessions devId k' hk')
    obtain ⟨cam', hcam', hdev', -⟩ := hcameras k' cam hcam
    exact ⟨cam', hcam', hdev'.trans hdev⟩

theorem AloneInv.discover {srv : Server} (h : AloneInv srv) (rinfo : String × ℕ) (dev : DevSerial) :
    AloneInv (final (onDiscover rinfo dev) srv) := by
  cases hknown : srv.web.sessions.find? dev.devId with
  | some k =>
    rw [discover_known (by rw [hknown]; rfl)]
    exact h
  | none =>
    obtain ⟨config, audioAttached, hnew⟩ := discover_new hknown rinfo
    rw [hnew]
    constructor
    · intro cam hcam
      obtain hcam | hcam := List.mem_append.1 hcam
      · exact h.named cam hcam
      · obtain rfl := List.mem_singleton.1 hcam
        rfl
    · intro devId k hk
      change (srv.web.sessions.insert dev.devId srv.cameras.length).find? devId = some k at hk
      rw [getElem?_discovered]
      rw [Table.find?_insert] at hk
      split_ifs at hk with hdev
      · obtain rfl := Option.some.inj hk
        rw [if_pos rfl]
        exact ⟨_, rfl, hdev.symm⟩
      · obtain ⟨cam, hcam, hcamDev⟩ := h.valid devId k hk
        rw [if_neg (List.getElem?_eq_some_iff.1 hcam).1.ne]
        exact ⟨cam, hcam, hcamDev⟩

theorem AloneInv.of_same {srv srv' : Server} (h : AloneInv srv) (hcameras : srv'.cameras = srv.cameras)
    (hsessions : srv'.web.sessions = srv.web.sessions) : AloneInv srv' where
  named := hcameras.symm ▸ h.named
  valid := by
    rw [hcameras, hsessions]
    exact h.valid

theorem AloneInv.step {srv : Server} (h : AloneInv srv) (step : ServerStep) : AloneInv (srv.step step) := by
  rcases step_cases srv step with hclient | ⟨rinfo, dev, rfl⟩ | ⟨config, rfl⟩ | ⟨-, hsame⟩ | ⟨k, now, c, -, hstep⟩
  · obtain ⟨hcameras, -, hsessions, -⟩ := client_keeps srv hclient
    exact h.of_same hcameras hsessions
  · exact h.discover rinfo dev
  · exact h.of_same rfl rfl
  · rwa [hsame]
  · rw [hstep]
    exact h.onSession k now c

/-! ### A discovery -/

theorem AloneInv.sessions_append {srv : Server} (h : AloneInv srv) (devId : String) (cam : Camera) :
    (srv.web.sessions.only devId).map (Filtered.rank (Camera.is devId) (srv.cameras ++ [cam])) =
      (srv.web.sessions.only devId).map (srv.place devId) := by
  refine Table.map_congr fun devId' k hk => ?_
  obtain ⟨cam', hcam', -⟩ := h.valid devId k (Table.find?_of_only hk).2
  exact Filtered.rank_append (List.getElem?_eq_some_iff.1 hcam').1.le [cam]

theorem alone_discovered_self {srv : Server} (h : AloneInv srv) (rinfo : String × ℕ) (dev : DevSerial) (config : Config)
    (attached audioAttached : Bool) :
    (srv.discovered rinfo dev config attached audioAttached).alone dev.devId =
      (srv.alone dev.devId).discovered rinfo dev (onlyCamera dev.devId config) attached audioAttached := by
  have hsessions := h.sessions_append dev.devId { Camera.made rinfo dev with attached, audioAttached }
  have hlast : Filtered.rank (Camera.is dev.devId)
      (srv.cameras ++ [{ Camera.made rinfo dev with attached, audioAttached }]) srv.cameras.length =
      (srv.cameras.filter (Camera.is dev.devId)).length := Filtered.rank_length _ _
  have hfilter : (srv.cameras ++ [{ Camera.made rinfo dev with attached, audioAttached }]).filter
      (Camera.is dev.devId) = srv.cameras.filter (Camera.is dev.devId) ++
        [{ Camera.made rinfo dev with attached, audioAttached }] := by
    rw [List.filter_append]
    exact congrArg _ (List.filter_cons_of_pos (decide_eq_true rfl))
  unfold Server.discovered Server.alone Web.alone Server.place
  simp only [hfilter, Table.only_insert_self, Table.map_insert, hsessions, hlast]
  rfl

theorem alone_discovered_other {srv : Server} (h : AloneInv srv) (rinfo : String × ℕ) {dev : DevSerial}
    {devId : String} (hne : dev.devId ≠ devId) {config : Config}
    (hconfig : onlyCamera devId config = onlyCamera devId srv.web.config) (attached audioAttached : Bool) :
    (srv.discovered rinfo dev config attached audioAttached).alone devId = srv.alone devId := by
  have hsessions := h.sessions_append devId { Camera.made rinfo dev with attached, audioAttached }
  have hfilter : (srv.cameras ++ [{ Camera.made rinfo dev with attached, audioAttached }]).filter (Camera.is devId) =
      srv.cameras.filter (Camera.is devId) := by
    have hother : Camera.is devId { Camera.made rinfo dev with attached, audioAttached } = false :=
      decide_eq_false hne
    rw [List.filter_append, List.filter_singleton, hother]
    exact List.append_nil _
  unfold Server.discovered Server.alone Web.alone Server.place
  simp only [hfilter, Table.only_insert_ne _ hne, hconfig, hsessions]
  rfl

theorem find?_alone (srv : Server) (devId : String) :
    (srv.alone devId).web.sessions.find? devId = (srv.web.sessions.find? devId).map (srv.place devId) := by
  show ((srv.web.sessions.only devId).map (srv.place devId)).find? devId = _
  rw [Table.find?_map, Table.find?_only]

theorem alone_discover_self {srv : Server} (h : AloneInv srv) (rinfo : String × ℕ) (dev : DevSerial) :
    (final (onDiscover rinfo dev) srv).alone dev.devId = final (onDiscover rinfo dev) (srv.alone dev.devId) := by
  have hfind := find?_alone srv dev.devId
  cases hknown : srv.web.sessions.find? dev.devId with
  | some k =>
    rw [hknown] at hfind
    rw [discover_known (by rw [hknown]; rfl), discover_known (by rw [hfind]; rfl)]
  | none =>
    rw [hknown] at hfind
    by_cases hmergeable : mergeable srv.web.config dev.devId = true
    · obtain ⟨config, hconfig, -, kvs, -, hentry, -⟩ := withCameraDefaults_ok hmergeable
      obtain ⟨audio, haudio⟩ := hentry.cameraAudio
      have hconfig' : withCameraDefaults (srv.alone dev.devId).web.config dev.devId =
          .ok (onlyCamera dev.devId config) := withCameraDefaults_only hconfig
      rw [final, discover_ok hknown hconfig haudio, final,
        discover_ok hfind hconfig' ((cameraAudio_only dev.devId config).trans haudio)]
      exact alone_discovered_self h rinfo dev config true audio
    · obtain ⟨e, hconfig⟩ := withCameraDefaults_error hmergeable
      have hno : ¬mergeable (srv.alone dev.devId).web.config dev.devId = true := by
        rw [show (srv.alone dev.devId).web.config = onlyCamera dev.devId srv.web.config from rfl, mergeable_only]
        exact hmergeable
      obtain ⟨e', hconfig'⟩ := withCameraDefaults_error hno
      rw [final, discover_error hknown hconfig, final, discover_error hfind hconfig']
      exact alone_discovered_self h rinfo dev srv.web.config false false

theorem alone_discover_other {srv : Server} (h : AloneInv srv) (rinfo : String × ℕ) {dev : DevSerial} {devId : String}
    (hne : dev.devId ≠ devId) : (final (onDiscover rinfo dev) srv).alone devId = srv.alone devId := by
  cases hknown : srv.web.sessions.find? dev.devId with
  | some k => rw [discover_known (by rw [hknown]; rfl)]
  | none =>
    by_cases hmergeable : mergeable srv.web.config dev.devId = true
    · obtain ⟨config, hconfig, -, kvs, -, hentry, -⟩ := withCameraDefaults_ok hmergeable
      obtain ⟨audio, haudio⟩ := hentry.cameraAudio
      rw [final, discover_ok hknown hconfig haudio]
      exact alone_discovered_other h rinfo hne (onlyCamera_withCameraDefaults hne hconfig) true audio
    · obtain ⟨e, hconfig⟩ := withCameraDefaults_error hmergeable
      rw [final, discover_error hknown hconfig]
      exact alone_discovered_other h rinfo hne rfl false false

/-! ### The steps -/

/-- The number of a session among those of this camera, if it is one of them. -/
def Server.placeOf (srv : Server) (devId : String) (k : ℕ) : Option ℕ :=
  match srv.cameras[k]? with
  | some cam => if cam.devId = devId then some (srv.place devId k) else none
  | none => none

/-- What a step is for one camera. -/
def Server.sees (srv : Server) (devId : String) : ServerStep → Option ServerStep
  | .discover rinfo dev => if dev.devId = devId then some (.discover rinfo dev) else none
  | .ready k now => (srv.placeOf devId k).map fun j => .ready j now
  | .datagram k now msg => (srv.placeOf devId k).map fun j => .datagram j now msg
  | .sessTick k now => (srv.placeOf devId k).map fun j => .sessTick j now
  | .resendTick k now => (srv.placeOf devId k).map fun j => .resendTick j now
  | .reconnect devId' => if devId' = devId then some (.reconnect devId) else none
  | .configure config => some (.configure (onlyCamera devId config))
  | .openStream _ _ => none
  | .prepared _ => none
  | .take _ => none
  | .leave _ => none

theorem alone_callback {srv : Server} (h : AloneInv srv) (devId : String) (k : ℕ) (now : ℚ) (c : Callback) :
    match srv.placeOf devId k with
    | none => (srv.onSession k now c).alone devId = srv.alone devId ∧
        ∀ media, srv.chunksBy (srv.onSession k now c) k media devId = []
    | some j => (srv.onSession k now c).alone devId = (srv.alone devId).onSession j now (c.only devId) ∧
        ∀ media, srv.chunksBy (srv.onSession k now c) k media devId =
          (srv.alone devId).chunksBy ((srv.alone devId).onSession j now (c.only devId)) j media devId := by
  unfold Server.placeOf Server.chunksBy
  cases hcam : srv.cameras[k]? with
  | none =>
    rw [onSession_none hcam]
    exact ⟨rfl, fun _ => rfl⟩
  | some cam =>
    dsimp only
    split_ifs with hdev
    · subst hdev
      have halone := alone_onSession h hcam now c
      refine ⟨halone, fun media => ?_⟩
      have his : cam.is cam.devId = true := decide_eq_true rfl
      have hget : (srv.alone cam.devId).cameras[srv.place cam.devId k]? = some cam := Filtered.getElem?_rank hcam his
      -- the session has the same number after the callback
      obtain ⟨cam', hcam', hdev', -⟩ := (onSession_keeps srv k now c).1 k cam hcam
      have hplace : (srv.onSession k now c).place cam.devId k = srv.place cam.devId k := by
        unfold Server.onSession Server.place
        rw [hcam]
        refine Filtered.rank_set hcam ?_ k
        exact congrArg (fun dev : DevSerial => decide (dev.devId = cam.devId))
          (callback_dev (orderly_camera cam now) now (cam.world srv.web) c)
      have hget' : ((srv.alone cam.devId).onSession (srv.place cam.devId k) now
          (c.only cam.devId)).cameras[srv.place cam.devId k]? = some cam' := by
        rw [← halone, ← hplace]
        exact Filtered.getElem?_rank hcam' (decide_eq_true hdev')
      have hemitted : srv.emitted (srv.onSession k now c) k = (srv.alone cam.devId).emitted
          ((srv.alone cam.devId).onSession (srv.place cam.devId k) now (c.only cam.devId))
          (srv.place cam.devId k) := by
        unfold Server.emitted
        rw [hcam, hcam', hget, hget']
      have hchunks : cam.chunkOf (srv.alone cam.devId).web.config = cam.chunkOf srv.web.config := by
        funext ev
        cases ev with
        | frame image =>
          unfold Camera.chunkOf
          dsimp only
          rw [show (srv.alone cam.devId).web.config = onlyCamera cam.devId srv.web.config from rfl,
            assembleFrame_only]
        | _ => rfl
      rw [hget]
      dsimp only
      unfold Camera.chunksFor
      rw [hemitted, hchunks]
    · refine ⟨alone_onSession_other hcam hdev now c, fun media => ?_⟩
      unfold Camera.chunksFor
      refine List.flatMap_eq_nil_iff.2 fun offered _ => if_neg fun hsame => hdev hsame.2

def Server.emits (srv : Server) (media : Media) (devId : String) (steps : List ServerStep) : List Bytes :=
  Runs.outputs Server.step (fun srv step => srv.chunksOf media devId step) srv steps

/-- A step of the server is for one camera what this camera sees of it. -/
def AloneStep (srv : Server) (devId : String) (step : ServerStep) (seen : Option ServerStep) : Prop :=
  (srv.step step).alone devId = (srv.alone devId).run seen.toList ∧
    ∀ media, srv.chunksOf media devId step = (srv.alone devId).emits media devId seen.toList

theorem alone_step_callback {srv : Server} (h : AloneInv srv) {devId : String} {k : ℕ} {now : ℚ} {c : Callback}
    {step : ServerStep} (hstep : srv.step step = srv.onSession k now c) (hof : srv.sessionOf step = some k)
    {mk : ℕ → ServerStep}
    (hmk : ∀ j, (srv.alone devId).step (mk j) = (srv.alone devId).onSession j now (c.only devId))
    (hmkOf : ∀ j, (srv.alone devId).sessionOf (mk j) = some j) :
    AloneStep srv devId step ((srv.placeOf devId k).map mk) := by
  have hcallback := alone_callback h devId k now c
  unfold AloneStep Server.chunksOf
  rw [hof, hstep]
  cases hplace : srv.placeOf devId k with
  | none =>
    rw [hplace] at hcallback
    exact hcallback
  | some j =>
    rw [hplace] at hcallback
    refine ⟨hcallback.1.trans (hmk j).symm, fun media => (hcallback.2 media).trans ?_⟩
    show _ = (srv.alone devId).chunksOf media devId (mk j) ++ []
    unfold Server.chunksOf
    rw [hmkOf, hmk, List.append_nil]

theorem alone_step_client (srv : Server) (devId : String) {step : ServerStep} (hstep : step.ofClient = true)
    (hnone : srv.sessionOf step = none) : AloneStep srv devId step none := by
  refine ⟨?_, fun media => ?_⟩
  · have hbare := bare_step_client srv hstep
    have hqueues : (fun media => (((srv.step step).web.queues media).only devId).map fun _ => ([] : List ℕ)) =
        fun media => ((srv.web.queues media).only devId).map fun _ => [] := by
      funext media
      have hmedia := congrArg (fun srv : Server => (srv.web.queues media).only devId) hbare
      rw [← Table.only_map, ← Table.only_map]
      exact hmedia
    obtain ⟨hcameras, hips, hsessions, hconfig⟩ := client_keeps srv hstep
    show (srv.step step).alone devId = srv.alone devId
    unfold Server.alone Web.alone Server.place
    rw [hcameras, hqueues, hconfig, hsessions, hips]
  · unfold Server.chunksOf
    rw [hnone]
    rfl

theorem alone_step_discover {srv : Server} (h : AloneInv srv) (devId : String) (rinfo : String × ℕ) (dev : DevSerial) :
    AloneStep srv devId (.discover rinfo dev) (srv.sees devId (.discover rinfo dev)) := by
  show AloneStep srv devId (.discover rinfo dev) (if dev.devId = devId then some (.discover rinfo dev) else none)
  split_ifs with hdev
  · subst hdev
    exact ⟨alone_discover_self h rinfo dev, fun _ => rfl⟩
  · exact ⟨alone_discover_other h rinfo hdev, fun _ => rfl⟩

theorem alone_step_reconnect {srv : Server} (h : AloneInv srv) (devId devId' : String) :
    AloneStep srv devId (.reconnect devId') (srv.sees devId (.reconnect devId')) := by
  have hfind := find?_alone srv devId
  show AloneStep srv devId (.reconnect devId') (if devId' = devId then some (.reconnect devId) else none)
  cases hk : srv.web.sessions.find? devId' with
  | none =>
    have hof : srv.sessionOf (.reconnect devId') = none := hk
    have hsame : srv.step (.reconnect devId') = srv := by
      show srv.reconnect devId' = srv
      unfold Server.reconnect
      rw [hk]
    unfold AloneStep Server.chunksOf
    rw [hof, hsame]
    split_ifs with hdev
    · subst hdev
      rw [hk] at hfind
      have halone : (srv.alone devId').step (.reconnect devId') = srv.alone devId' := by
        show (srv.alone devId').reconnect devId' = _
        unfold Server.reconnect
        rw [hfind]
        rfl
      refine ⟨halone.symm, fun media => ?_⟩
      show [] = (srv.alone devId').chunksOf media devId' (.reconnect devId') ++ []
      unfold Server.chunksOf
      rw [show (srv.alone devId').sessionOf (.reconnect devId') = none from hfind]
      rfl
    · exact ⟨rfl, fun _ => rfl⟩
  | some k =>
    obtain ⟨cam, hcam, hcamDev⟩ := h.valid devId' k hk
    have hstep : srv.step (.reconnect devId') = srv.onSession k 0 .close := by
      show srv.reconnect devId' = _
      unfold Server.reconnect
      rw [hk]
    split_ifs with hdev
    · subst hdev
      rw [hk] at hfind
      have hplace : srv.placeOf devId' k = some (srv.place devId' k) := by
        unfold Server.placeOf
        rw [hcam]
        exact if_pos hcamDev
      have halone : (srv.alone devId').step (.reconnect devId') =
          (srv.alone devId').onSession (srv.place devId' k) 0 .close := by
        show (srv.alone devId').reconnect devId' = _
        unfold Server.reconnect
        rw [hfind]
        rfl
      have hcallback := alone_callback h devId' k 0 .close
      rw [hplace] at hcallback
      refine ⟨(congrArg (Server.alone devId') hstep).trans (hcallback.1.trans halone.symm), fun media => ?_⟩
      show _ = (srv.alone devId').chunksOf media devId' (.reconnect devId') ++ []
      unfold Server.chunksOf
      rw [show srv.sessionOf (.reconnect devId') = some k from hk, hstep,
        show (srv.alone devId').sessionOf (.reconnect devId') = some (srv.place devId' k) from hfind, halone,
        List.append_nil]
      exact hcallback.2 media
    · have hplace : srv.placeOf devId k = none := by
        unfold Server.placeOf
        rw [hcam]
        exact if_neg fun heq => hdev (hcamDev.symm.trans heq)
      have hcallback := alone_callback h devId k 0 .close
      rw [hplace] at hcallback
      refine ⟨(congrArg (Server.alone devId) hstep).trans hcallback.1, fun media => ?_⟩
      unfold Server.chunksOf
      rw [show srv.sessionOf (.reconnect devId') = some k from hk, hstep]
      exact hcallback.2 media

/-- **A step of the server** is for one camera what this camera sees of it. -/
theorem alone_step {srv : Server} (h : AloneInv srv) (devId : String) (step : ServerStep) :
    AloneStep srv devId step (srv.sees devId step) := by
  cases step with
  | discover rinfo dev => exact alone_step_discover h devId rinfo dev
  | ready k now => exact alone_step_callback h (c := .ready) rfl rfl (fun _ => rfl) fun _ => rfl
  | datagram k now msg =>
    exact alone_step_callback h (c := .datagram srv.web.config msg) rfl rfl (fun _ => rfl) fun _ => rfl
  | sessTick k now => exact alone_step_callback h (c := .sessTick) rfl rfl (fun _ => rfl) fun _ => rfl
  | resendTick k now => exact alone_step_callback h (c := .resendTick) rfl rfl (fun _ => rfl) fun _ => rfl
  | reconnect devId' => exact alone_step_reconnect h devId devId'
  | configure config => exact ⟨rfl, fun _ => rfl⟩
  | openStream media devId' => exact alone_step_client srv devId rfl rfl
  | prepared i => exact alone_step_client srv devId rfl rfl
  | take i => exact alone_step_client srv devId rfl rfl
  | leave i => exact alone_step_client srv devId rfl rfl

/-! ### Runs -/

def Server.views (srv : Server) (devId : String) (steps : List ServerStep) : List ServerStep :=
  Runs.outputs Server.step (fun srv step => (srv.sees devId step).toList) srv steps

theorem emits_append (srv : Server) (media : Media) (devId : String) (steps steps' : List ServerStep) :
    srv.emits media devId (steps ++ steps') =
      srv.emits media devId steps ++ (srv.run steps).emits media devId steps' :=
  Runs.outputs_append Server.step _ srv steps steps'

theorem alone_run {srv : Server} (h : AloneInv srv) (devId : String) (steps : List ServerStep) :
    (srv.run steps).alone devId = (srv.alone devId).run (srv.views devId steps) ∧
      ∀ media, srv.emits media devId steps = (srv.alone devId).emits media devId (srv.views devId steps) := by
  induction steps generalizing srv with
  | nil => exact ⟨rfl, fun _ => rfl⟩
  | cons step steps ih =>
    obtain ⟨hstate, hchunks⟩ := alone_step h devId step
    obtain ⟨hrun, hemits⟩ := ih (h.step step)
    have hviews : srv.views devId (step :: steps) =
        (srv.sees devId step).toList ++ (srv.step step).views devId steps := rfl
    rw [hviews]
    constructor
    · show ((srv.step step).run steps).alone devId = List.foldl Server.step _ _
      rw [List.foldl_append, hrun, hstate]
      rfl
    · intro media
      show srv.chunksOf media devId step ++ (srv.step step).emits media devId steps = _
      rw [emits_append, hchunks, hemits, hstate]

/-- **Each camera is on its own.** For every camera, a run of the server is the run of a server that only this camera
talks to, with its own part of the configuration and without the handlers of streams: the sessions of the camera do the
same in both, and the same chunks are emitted for its viewers. -/
theorem camera_alone (config : Config) (steps : List ServerStep) (devId : String) :
    ((Server.start config).run steps).alone devId =
      (Server.start (onlyCamera devId config)).run ((Server.start config).views devId steps) ∧
    ∀ media, (Server.start config).emits media devId steps =
      (Server.start (onlyCamera devId config)).emits media devId ((Server.start config).views devId steps) :=
  alone_run (aloneInv_start config) devId steps

end CamReverse
