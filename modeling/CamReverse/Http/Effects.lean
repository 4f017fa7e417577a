import CamReverse.Http.Entries
import CamReverse.Http.Server
import CamReverse.Lib.Runs

/-!
# What a step does to the server

The listeners of a session only offer chunks and drop the session's own entry (`hear_web`). So a callback of
a session is told by the events it emits: `Camera.heard` is what becomes of the module's state
(`onSession_events`), and `onSession_ready` and `discover_new` are the two steps by which a session comes to
life.
-/

namespace CamReverse

open Effect

/-! ### Listeners -/

def Web.registered (web : Web) (media : Media) (devId : String) : List ℕ :=
  ((web.queues media).find? devId).getD []

def offerAll (qs : List ℕ) (chunk : Bytes) (chunks : List ChunkQueue) : List ChunkQueue :=
  qs.foldl (fun chunks q => chunks.modify q (·.putNowait chunk)) chunks

theorem offer_final (media : Media) (devId : String) (chunk : Bytes) (web : Web) :
    final (offer media devId chunk) web =
      { web with chunks := offerAll (web.registered media devId) chunk web.chunks } := by
  unfold offer Web.registered
  rw [final, get_bind_apply]
  cases (web.queues media).find? devId with
  | none => rfl
  | some qs =>
    show final (qs.forM fun q => modify fun web => { web with
      chunks := web.chunks.modify q (·.putNowait chunk) }) web = _
    rw [Option.getD_some]
    induction qs generalizing web with
    | nil => rfl
    | cons q qs ih => exact ih _

/-- What a session's listeners offer at an event; a frame that cannot be assembled is not offered. -/
def Camera.chunkOf (cam : Camera) (config : Config) : Event → Option (Media × Bytes)
  | .frame image =>
    if cam.attached then
      match assembleFrame config cam.devId image with
      | .ok assembled => some (.video, frameChunk assembled)
      | .error _ => none
    else none
  | .audio data => if cam.audioAttached then some (.audio, audioChunk data) else none
  | .disconnect => none
  | .sent _ => none
  | .login => none
  | .listWifi _ => none

/-- The module's state after a session's listeners have heard these events. -/
def Camera.heard (cam : Camera) (web : Web) (evs : List Event) : Web :=
  { web with
    sessions := if cam.attached = true ∧ .disconnect ∈ evs then web.sessions.erase cam.devId else web.sessions
    chunks := (evs.filterMap (cam.chunkOf web.config)).foldl
      (fun chunks offered => offerAll (web.registered offered.1 cam.devId) offered.2 chunks) web.chunks }

theorem heard_nil (cam : Camera) (web : Web) : cam.heard web [] = web := by
  simp [Camera.heard]

/-- The queue with these chunks put into it. -/
def ChunkQueue.putAll (queue : ChunkQueue) (chunks : List Bytes) : ChunkQueue :=
  chunks.foldl (fun queue chunk => queue.putNowait chunk) queue

theorem offered_putAll (queue : ChunkQueue) (chunks : List Bytes) :
    (queue.putAll chunks).offered = queue.offered ++ chunks := by
  unfold ChunkQueue.putAll
  induction chunks generalizing queue with
  | nil => exact (List.append_nil _).symm
  | cons chunk chunks ih => rw [List.foldl_cons, ih, ChunkQueue.putNowait, List.append_assoc, List.singleton_append]

theorem getElem?_offerAll (qs : List ℕ) (chunk : Bytes) (chunks : List ChunkQueue) (q : ℕ) :
    (offerAll qs chunk chunks)[q]? =
      chunks[q]?.map fun queue => queue.putAll (List.replicate (qs.count q) chunk) := by
  unfold offerAll
  induction qs generalizing chunks with
  | nil => exact Option.map_id'.symm
  | cons p qs ih =>
    rw [List.foldl_cons, ih, List.count_cons]
    by_cases hp : p = q
    · subst hp
      rw [List.getElem?_modify_eq, beq_self_eq_true, if_pos rfl, List.replicate_succ]
      exact Option.map_map _ _ _
    · rw [List.getElem?_modify_ne _ _ hp, beq_false_of_ne hp]
      rfl

theorem getElem?_heard (cam : Camera) (web : Web) (evs : List Event) (q : ℕ) :
    (cam.heard web evs).chunks[q]? = web.chunks[q]?.map fun queue =>
      queue.putAll ((evs.filterMap (cam.chunkOf web.config)).flatMap fun offered =>
        List.replicate ((web.registered offered.1 cam.devId).count q) offered.2) := by
  unfold Camera.heard
  generalize evs.filterMap (cam.chunkOf web.config) = offered
  show (offered.foldl _ web.chunks)[q]? = _
  generalize web.chunks = chunks
  induction offered generalizing chunks with
  | nil => exact Option.map_id'.symm
  | cons o offered ih =>
    rw [List.foldl_cons, ih, getElem?_offerAll, Option.map_map]
    simp only [List.flatMap_cons, ChunkQueue.putAll, List.foldl_append]
    rfl

theorem find?_heard (cam : Camera) (web : Web) (evs : List Event) (devId : String) :
    (cam.heard web evs).sessions.find? devId =
      if devId = cam.devId ∧ cam.attached = true ∧ .disconnect ∈ evs then none
      else web.sessions.find? devId := by
  simp only [Camera.heard]
  by_cases hdrop : cam.attached = true ∧ .disconnect ∈ evs
  · rw [if_pos hdrop, Table.find?_erase]
    simp only [hdrop, and_true]
  · rw [if_neg hdrop, if_neg fun h => hdrop h.2]

theorem heard_offer (cam : Camera) (web : Web) (ev : Event) (hev : ev ≠ .disconnect) :
    cam.heard web [ev] = { web with
      chunks := (cam.chunkOf web.config ev).toList.foldl
        (fun chunks offered => offerAll (web.registered offered.1 cam.devId) offered.2 chunks)
        web.chunks } := by
  have hno : ¬(cam.attached = true ∧ Event.disconnect ∈ [ev]) := fun h => hev (List.mem_singleton.1 h.2).symm
  unfold Camera.heard
  rw [if_neg hno]
  cases h : cam.chunkOf web.config ev <;> simp [h]

theorem hear_web (cam : Camera) (now : ℚ) (web : Web) (ev : Event) :
    (cam.listeners now).hear web ev = cam.heard web [ev] := by
  cases ev with
  | disconnect =>
    show (if cam.attached then dropSession cam.devId web else web) = _
    unfold Camera.heard
    by_cases h : cam.attached = true
    · rw [if_pos h, if_pos ⟨h, List.mem_singleton.2 rfl⟩]
      rfl
    · rw [if_neg h, if_neg fun hand => h hand.1]
      rfl
  | audio data =>
    rw [heard_offer cam web (.audio data) (by simp)]
    show final (if cam.audioAttached then onAudio cam.devId data else return) web = _
    rw [show cam.chunkOf web.config (.audio data) = if cam.audioAttached then _ else none from rfl]
    split_ifs
    · exact offer_final .audio cam.devId (audioChunk data) web
    · rfl
  | frame image =>
    rw [heard_offer cam web (.frame image) (by simp)]
    show final (if cam.attached then onFrame cam.devId image else return) web = _
    rw [show cam.chunkOf web.config (.frame image) = if cam.attached then _ else none from rfl]
    split_ifs
    · unfold onFrame
      rw [final, get_bind_apply]
      cases assembleFrame web.config cam.devId image with
      | error e => rfl
      | ok assembled => exact offer_final .video cam.devId (frameChunk assembled) web
    · rfl
  | sent msg => exact (heard_offer cam web (.sent msg) (by simp)).symm
  | login => exact (heard_offer cam web .login (by simp)).symm
  | listWifi items => exact (heard_offer cam web (.listWifi items) (by simp)).symm

theorem heard_heard (cam : Camera) (web : Web) (evs evs' : List Event) :
    cam.heard (cam.heard web evs) evs' = cam.heard web (evs ++ evs') := by
  have hsessions : (if cam.attached = true ∧ Event.disconnect ∈ evs ++ evs' then web.sessions.erase cam.devId
      else web.sessions) = (cam.heard (cam.heard web evs) evs').sessions := by
    unfold Camera.heard
    simp only [List.mem_append, and_or_left]
    split_ifs <;> simp_all
  have hchunks : ((evs ++ evs').filterMap (cam.chunkOf web.config)).foldl
      (fun chunks offered => offerAll (web.registered offered.1 cam.devId) offered.2 chunks) web.chunks =
      (cam.heard (cam.heard web evs) evs').chunks := by
    rw [List.filterMap_append, List.foldl_append]
    rfl
  rw [show cam.heard web (evs ++ evs') = { web with
    sessions := _, chunks := _ } from rfl, hsessions, hchunks]
  rfl

/-- **A session's listeners** only offer chunks to the queues of its camera and drop the camera's entry. -/
theorem foldl_hear_web (cam : Camera) (now : ℚ) (web : Web) (evs : List Event) :
    evs.foldl (cam.listeners now).hear web = cam.heard web evs := by
  induction evs generalizing web with
  | nil => exact (heard_nil cam web).symm
  | cons ev evs ih => rw [List.foldl_cons, hear_web, ih, heard_heard, List.singleton_append]

theorem orderly_camera (cam : Camera) (now : ℚ) : (cam.listeners now).Orderly :=
  ⟨ByEvents.of_onlySends (quiet_onlySends.startVideoStream now), fun _ => Along.pure _⟩

/-! ### Callbacks of a session -/

theorem onSession_none {srv : Server} {k : ℕ} (h : srv.cameras[k]? = none) (now : ℚ) (c : Callback) :
    srv.onSession k now c = srv := by
  unfold Server.onSession
  rw [h]

/-- The session `k` is now `s`, and has emitted these events. -/
def Server.setSession (srv : Server) (k : ℕ) (cam : Camera) (s : Session) (evs : List Event) : Server :=
  { srv with cameras := srv.cameras.set k { cam with session := s, events := cam.events ++ evs } }

/-- The events the session `k` emitted between two states. -/
def Server.emitted (srv srv' : Server) (k : ℕ) : List Event :=
  match srv.cameras[k]?, srv'.cameras[k]? with
  | some cam, some cam' => cam'.events.drop cam.events.length
  | _, _ => []

theorem getElem?_setSession {srv : Server} {k : ℕ} {cam : Camera} (hcam : srv.cameras[k]? = some cam)
    (s : Session) (evs : List Event) (k' : ℕ) :
    (srv.setSession k cam s evs).cameras[k']? =
      if k' = k then some { cam with session := s, events := cam.events ++ evs } else srv.cameras[k']? := by
  obtain ⟨hk, -⟩ := List.getElem?_eq_some_iff.1 hcam
  unfold Server.setSession
  split_ifs with hkk
  · rw [hkk]
    exact List.getElem?_set_self hk
  · exact List.getElem?_set_ne (Ne.symm hkk)

theorem emitted_setSession {srv : Server} {k : ℕ} {cam : Camera} (hcam : srv.cameras[k]? = some cam)
    (s : Session) (evs : List Event) (web : Web) :
    srv.emitted { srv.setSession k cam s evs with web := web } k = evs := by
  unfold Server.emitted
  rw [hcam, show ({ srv.setSession k cam s evs with web := web } : Server).cameras[k]? = _ from
    (getElem?_setSession hcam s evs k).trans (if_pos rfl)]
  exact List.drop_left

theorem emitted_same {srv srv' : Server} {k : ℕ} (h : srv'.cameras[k]? = srv.cameras[k]?) :
    srv.emitted srv' k = [] := by
  unfold Server.emitted
  rw [h]
  cases srv.cameras[k]? with
  | none => rfl
  | some cam => exact List.drop_length

theorem onSession_of_not_due {srv : Server} {k : ℕ} {cam : Camera} (hcam : srv.cameras[k]? = some cam)
    {c : Callback} (h : c.due cam.session = false) (now : ℚ) : srv.onSession k now c = srv := by
  unfold Server.onSession
  rw [hcam]
  have hsame : srv.cameras.set k cam = srv.cameras := by
    obtain ⟨hk, rfl⟩ := List.getElem?_eq_some_iff.1 hcam
    exact List.set_getElem_self hk
  simp only [callback_of_not_due (show c.due (cam.world srv.web).session = false from h)]
  show { srv with cameras := srv.cameras.set k cam } = srv
  rw [hsame]

/-- **A callback of a session** is told by the events it emits. -/
theorem onSession_events {srv : Server} {k : ℕ} {cam : Camera} (hcam : srv.cameras[k]? = some cam) (now : ℚ)
    {c : Callback} (hc : c ≠ .ready) :
    ∃ evs s, (evs.foldl Life.hear cam.session.life).EndsTasks s.life ∧
      srv.onSession k now c = { srv.setSession k cam s evs with web := cam.heard srv.web evs } := by
  obtain ⟨evs, hevs, happ, hends, -⟩ :=
    callback_events (orderly_camera cam now) now (cam.world srv.web) hc
  refine ⟨evs, _, hends, ?_⟩
  unfold Server.onSession Server.setSession
  rw [hcam]
  simp only [hevs, happ, foldl_hear_web]
  rfl

theorem onSession_ready {srv : Server} {k : ℕ} {cam : Camera} (hcam : srv.cameras[k]? = some cam)
    (h : cam.session.transport = .absent) (now : ℚ) :
    ∃ evs s running, (∀ ev ∈ evs, ∃ m, ev = .sent m) ∧
      s.life = { cam.session.life with
        transport := .opened
        started := cam.session.started || running
        sessTimer := cam.session.sessTimer || running
        resendTimer := cam.session.resendTimer || running } ∧
      srv.onSession k now .ready = srv.setSession k cam s evs := by
  obtain ⟨evs, running, hsent, hevs, happ, hlife⟩ :=
    callback_ready (w := cam.world srv.web) h (cam.listeners now) now
  refine ⟨evs, _, running, hsent, hlife, ?_⟩
  unfold Server.onSession Server.setSession
  rw [hcam]
  simp only [hevs, happ]
  rfl

/-- **What a callback of a session can do**: nothing, open the session's endpoint, or what the events it
emits tell. -/
theorem onSession_cases (srv : Server) (k : ℕ) (now : ℚ) (c : Callback) :
    srv.onSession k now c = srv ∨
    (∃ cam evs s running, srv.cameras[k]? = some cam ∧ c = .ready ∧ cam.session.transport = .absent ∧
      (∀ ev ∈ evs, ∃ m, ev = .sent m) ∧
      s.life = { cam.session.life with
        transport := .opened
        started := cam.session.started || running
        sessTimer := cam.session.sessTimer || running
        resendTimer := cam.session.resendTimer || running } ∧
      srv.onSession k now c = srv.setSession k cam s evs) ∨
    ∃ cam evs s, srv.cameras[k]? = some cam ∧ c ≠ .ready ∧ c.due cam.session = true ∧
      (evs.foldl Life.hear cam.session.life).EndsTasks s.life ∧
      srv.onSession k now c = { srv.setSession k cam s evs with web := cam.heard srv.web evs } := by
  cases hcam : srv.cameras[k]? with
  | none => exact .inl (onSession_none hcam now c)
  | some cam =>
    cases hdue : c.due cam.session with
    | false => exact .inl (onSession_of_not_due hcam hdue now)
    | true =>
      by_cases hready : c = .ready
      · subst hready
        have habsent := of_decide_eq_true hdue
        obtain ⟨evs, s, running, hsent, hlife, hstep⟩ := onSession_ready hcam habsent now
        exact .inr (.inl ⟨cam, evs, s, running, rfl, rfl, habsent, hsent, hlife, hstep⟩)
      · obtain ⟨evs, s, hends, hstep⟩ := onSession_events hcam now hready
        exact .inr (.inr ⟨cam, evs, s, rfl, hready, hdue, hends, hstep⟩)

theorem onSession_keeps (srv : Server) (k : ℕ) (now : ℚ) (c : Callback) :
    (∀ (k' : ℕ) (cam : Camera), srv.cameras[k']? = some cam →
      ∃ cam' : Camera, (srv.onSession k now c).cameras[k']? = some cam' ∧ cam'.devId = cam.devId ∧
        cam'.attached = cam.attached) ∧
    (∀ devId k', (srv.onSession k now c).web.sessions.find? devId = some k' →
      srv.web.sessions.find? devId = some k') ∧
    ∀ k' : ℕ, k' ≠ k → (srv.onSession k now c).cameras[k']? = srv.cameras[k']? := by
  have hset : ∀ cam s evs, srv.cameras[k]? = some cam → s.dev = cam.session.dev →
      (∀ (k' : ℕ) (cam₀ : Camera), srv.cameras[k']? = some cam₀ → ∃ cam' : Camera,
        (srv.setSession k cam s evs).cameras[k']? = some cam' ∧ cam'.devId = cam₀.devId ∧
          cam'.attached = cam₀.attached) ∧
      ∀ k' : ℕ, k' ≠ k → (srv.setSession k cam s evs).cameras[k']? = srv.cameras[k']? := by
    intro cam s evs hcam hdev
    refine ⟨fun k' cam₀ hcam₀ => ?_, fun k' hkk => (getElem?_setSession hcam s evs k').trans (if_neg hkk)⟩
    rw [getElem?_setSession hcam]
    split_ifs with hkk
    · rw [hkk, hcam] at hcam₀
      obtain rfl := Option.some.inj hcam₀
      exact ⟨_, rfl, congrArg DevSerial.devId hdev, rfl⟩
    · exact ⟨cam₀, hcam₀, rfl, rfl⟩
  rcases onSession_cases srv k now c with hsame | ⟨cam, evs, s, running, hcam, -, -, -, hlife, hstep⟩ |
    ⟨cam, evs, s, hcam, -, -, hends, hstep⟩
  · rw [hsame]
    exact ⟨fun k' cam h => ⟨cam, h, rfl, rfl⟩, fun _ _ => id, fun _ _ => rfl⟩
  · obtain ⟨hcameras, hothers⟩ := hset cam s evs hcam (congrArg Life.dev hlife)
    rw [hstep]
    exact ⟨hcameras, fun _ _ => id, hothers⟩
  · obtain ⟨hcameras, hothers⟩ := hset cam s evs hcam (hends.dev.trans (wanes_hear cam.session.life evs).dev)
    rw [hstep]
    refine ⟨hcameras, fun devId k' hk' => ?_, hothers⟩
    change (cam.heard srv.web evs).sessions.find? devId = some k' at hk'
    rw [find?_heard] at hk'
    split_ifs at hk'
    exact hk'

theorem onSession_leaves (srv : Server) (k : ℕ) (now : ℚ) (c : Callback) :
    (srv.onSession k now c).web.queues = srv.web.queues ∧ (srv.onSession k now c).web.config = srv.web.config ∧
      (srv.onSession k now c).web.cameraIps = srv.web.cameraIps := by
  rcases onSession_cases srv k now c with hsame | ⟨cam, evs, s, running, -, -, -, -, -, hstep⟩ |
    ⟨cam, evs, s, -, -, -, -, hstep⟩
  · rw [hsame]
    exact ⟨rfl, rfl, rfl⟩
  · rw [hstep]
    exact ⟨rfl, rfl, rfl⟩
  · rw [hstep]
    exact ⟨rfl, rfl, rfl⟩

/-! ### Discoveries -/

theorem discover_known {srv : Server} {dev : DevSerial} (h : (srv.web.sessions.find? dev.devId).isSome)
    (rinfo : String × ℕ) : final (onDiscover rinfo dev) srv = srv := by
  unfold onDiscover
  rw [final, get_bind_apply, if_pos h]
  rfl

/-- The server with a session for a discovered camera; `attached` and `audioAttached` say which listeners
the session got. -/
def Server.discovered (srv : Server) (rinfo : String × ℕ) (dev : DevSerial) (config : Config)
    (attached audioAttached : Bool) : Server :=
  { srv with
    web := { srv.web with
      config := config
      cameraIps := srv.web.cameraIps.insert dev.devId rinfo.1
      queues := fun media => (srv.web.queues media).insert dev.devId []
      sessions := srv.web.sessions.insert dev.devId srv.cameras.length }
    cameras := srv.cameras ++ [{ Camera.made rinfo dev with attached, audioAttached }] }

theorem modify_length_append {α : Type} (l : List α) (a : α) (f : α → α) :
    (l ++ [a]).modify l.length f = l ++ [f a] := by
  induction l with
  | nil => rfl
  | cons b l ih => rw [List.cons_append, List.length_cons, List.modify_succ_cons, ih, List.cons_append]

/-- A discovery whose merge raises has made and registered a session all the same. -/
theorem discover_error {srv : Server} {dev : DevSerial}
    (h : srv.web.sessions.find? dev.devId = none) {e : PyErr}
    (hconfig : withCameraDefaults srv.web.config dev.devId = .error e) (rinfo : String × ℕ) :
    onDiscover rinfo dev srv = .error e (srv.discovered rinfo dev srv.web.config false false) := by
  unfold onDiscover
  rw [get_bind_apply, if_neg (by rw [h]; decide), hconfig]
  rfl

theorem discover_ok {srv : Server} {dev : DevSerial} (h : srv.web.sessions.find? dev.devId = none)
    {config : Config} (hconfig : withCameraDefaults srv.web.config dev.devId = .ok config) {audio : Bool}
    (haudio : cameraAudio config dev.devId = .ok audio) (rinfo : String × ℕ) :
    onDiscover rinfo dev srv = .ok () (srv.discovered rinfo dev config true audio) := by
  let attach : Camera → Camera := fun cam => { cam with attached := true }
  have hattach := modify_length_append srv.cameras (Camera.made rinfo dev) attach
  unfold onDiscover
  rw [get_bind_apply, if_neg (by rw [h]; decide), hconfig]
  simp only [liftM_eq_lift, lift_ok_bind, haudio]
  cases audio with
  | false =>
    show EStateM.Result.ok () (Server.mk _ ((srv.cameras ++ [Camera.made rinfo dev]).modify srv.cameras.length
      attach) _) = _
    rw [hattach]
    rfl
  | true =>
    show EStateM.Result.ok () (Server.mk _ (((srv.cameras ++ [Camera.made rinfo dev]).modify
      srv.cameras.length attach).modify srv.cameras.length fun cam => { cam with audioAttached := true }) _) = _
    rw [hattach, modify_length_append]
    rfl

/-- **A camera without an entry in `sessions`** gets a session; its listeners are attached unless the
configuration of the camera is no mapping. -/
theorem discover_new {srv : Server} {dev : DevSerial} (h : srv.web.sessions.find? dev.devId = none)
    (rinfo : String × ℕ) :
    ∃ config audioAttached, final (onDiscover rinfo dev) srv = srv.discovered rinfo dev config
      (withCameraDefaults srv.web.config dev.devId).isOk audioAttached := by
  by_cases hmergeable : mergeable srv.web.config dev.devId = true
  · obtain ⟨config, hconfig, -, kvs, -, hentry, -⟩ := withCameraDefaults_ok hmergeable
    obtain ⟨audio, haudio⟩ := hentry.cameraAudio
    rw [final, discover_ok h hconfig haudio, hconfig]
    exact ⟨config, audio, rfl⟩
  · obtain ⟨e, hconfig⟩ := withCameraDefaults_error hmergeable
    rw [final, discover_error h hconfig, hconfig]
    exact ⟨srv.web.config, false, rfl⟩

end CamReverse
