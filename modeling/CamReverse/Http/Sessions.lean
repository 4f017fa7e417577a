import CamReverse.Http.Effects

/-!
# One live session per camera

The server keeps the session of a camera in `sessions` until that session disconnects, and makes no second
one before. This holds as long as no endpoint becomes ready after its session was closed
(`one_live_session`). A reconnect request can close a session that early; then `connection_made` starts the
timers of a session the server has forgotten, and its timeout drops the camera's next session
(`forgotten_session`).
-/

namespace CamReverse

open Effect

/-- A session that something can still happen to. -/
def Life.Live (l : Life) : Prop :=
  l.connected = true ∨ l.sessTimer = true ∨ l.resendTimer = true ∨ l.transport = .opened

instance (l : Life) : Decidable l.Live := inferInstanceAs (Decidable (_ ∨ _ ∨ _ ∨ _))

theorem live_of_endsTasks {l l' : Life} (h : l.EndsTasks l') (hl : l'.Live) : l.Live := by
  rcases hl with hl | hl | hl | hl
  · exact .inl (h.connected ▸ hl)
  · exact .inr (.inl (h.sessTimer hl))
  · exact .inr (.inr (.inl (h.resendTimer hl)))
  · exact .inr (.inr (.inr (h.transport ▸ hl)))

theorem not_live_disconnected {l : Life} (h : l.Live → l.connected = true) : ¬l.disconnected.Live := by
  unfold Life.disconnected
  cases hc : l.connected with
  | false =>
    intro hl
    rw [h hl] at hc
    cases hc
  | true => by_cases ht : l.transport = .absent <;> simp [Life.Live, ht]

/-! ### One session, held and dropped -/

/-- At most one session of a camera is live. -/
def Server.OneLive (srv : Server) : Prop :=
  ∀ (k k' : ℕ) (cam cam' : Camera), srv.cameras[k]? = some cam → srv.cameras[k']? = some cam' →
    cam.devId = cam'.devId → cam.session.life.Live → cam'.session.life.Live → k = k'

/-- A connected session is the one `sessions` holds for its camera. -/
def Server.Held (srv : Server) : Prop :=
  ∀ (k : ℕ) (cam : Camera), srv.cameras[k]? = some cam → cam.session.connected = true →
    srv.web.sessions.find? cam.devId = some k

/-- An entry of `sessions` only goes when its own session disconnects. -/
def Server.DropsOwn (srv srv' : Server) : Prop :=
  ∀ devId k, srv.web.sessions.find? devId = some k → srv'.web.sessions.find? devId ≠ some k →
    .disconnect ∈ srv.emitted srv' k

/-- The session whose endpoint becomes ready in this step. -/
def ServerStep.readies : ServerStep → Option ℕ
  | .ready k _ => some k
  | _ => none

/-- If an endpoint becomes ready in this step, its session has not been closed. -/
def Server.ReadyInTime (srv : Server) (step : ServerStep) : Prop :=
  ∀ k ∈ step.readies, ∀ cam ∈ srv.cameras[k]?, cam.session.transport = .absent → cam.session.connected = true

instance (srv : Server) (step : ServerStep) : Decidable (srv.ReadyInTime step) :=
  inferInstanceAs (Decidable (∀ k ∈ step.readies, ∀ cam ∈ srv.cameras[k]?, _ → _))

/-! ### The invariant -/

/-- What holds of the sessions of a server. -/
structure SessionsInv (srv : Server) : Prop where
  live : ∀ (k : ℕ) (cam : Camera), srv.cameras[k]? = some cam → cam.session.life.Live →
    cam.session.connected = true
  held : srv.Held
  valid : ∀ devId k, srv.web.sessions.find? devId = some k →
    ∃ cam : Camera, srv.cameras[k]? = some cam ∧ cam.devId = devId

theorem sessionsInv_start (config : Config) : SessionsInv (.start config) where
  live _ _ h := nomatch h
  held _ _ h := nomatch h
  valid _ _ h := nomatch h

theorem SessionsInv.oneLive {srv : Server} (h : SessionsInv srv) : srv.OneLive := by
  intro k k' cam cam' hcam hcam' hdev hlive hlive'
  have hk := h.held k cam hcam (h.live k cam hcam hlive)
  have hk' := h.held k' cam' hcam' (h.live k' cam' hcam' hlive')
  rw [hdev, hk'] at hk
  exact (Option.some.inj hk).symm

theorem SessionsInv.congr {srv srv' : Server} (h : SessionsInv srv) (hcameras : srv'.cameras = srv.cameras)
    (hsessions : srv'.web.sessions = srv.web.sessions) : SessionsInv srv' where
  live := by rw [hcameras]; exact h.live
  held := by unfold Server.Held; rw [hcameras, hsessions]; exact h.held
  valid := by rw [hcameras, hsessions]; exact h.valid

theorem live_of_due {c : Callback} {s : Session} (h : c.due s = true) (hready : c ≠ .ready)
    (hclose : c ≠ .close) : s.life.Live := by
  cases c with
  | ready => exact absurd rfl hready
  | datagram config msg => exact .inr (.inr (.inr (of_decide_eq_true h)))
  | sessTick => exact .inr (.inl h)
  | resendTick => exact .inr (.inr (.inl h))
  | close => exact absurd rfl hclose

theorem SessionsInv.setSession {srv : Server} (h : SessionsInv srv) {k : ℕ} {cam : Camera}
    (hcam : srv.cameras[k]? = some cam) {s : Session} {evs : List Event} {web : Web}
    (hdev : s.dev = cam.session.dev) (hlive : s.life.Live → s.connected = true)
    (hheld : s.connected = true → web.sessions.find? cam.devId = some k)
    (hothers : ∀ devId k', k' ≠ k → srv.web.sessions.find? devId = some k' →
      web.sessions.find? devId = some k')
    (hshrinks : ∀ devId k', web.sessions.find? devId = some k' → srv.web.sessions.find? devId = some k') :
    SessionsInv { srv.setSession k cam s evs with web := web } := by
  have hget : ∀ k' : ℕ, ({ srv.setSession k cam s evs with web := web } : Server).cameras[k']? =
      if k' = k then some { cam with session := s, events := cam.events ++ evs } else srv.cameras[k']? :=
    getElem?_setSession hcam s evs
  refine ⟨fun k' cam' hcam' hl => ?_, fun k' cam' hcam' hconn => ?_, fun devId k' hk' => ?_⟩
  · rw [hget] at hcam'
    split_ifs at hcam' with hkk
    · obtain rfl := Option.some.inj hcam'
      exact hlive hl
    · exact h.live k' cam' hcam' hl
  · rw [hget] at hcam'
    split_ifs at hcam' with hkk
    · obtain rfl := Option.some.inj hcam'
      show web.sessions.find? s.dev.devId = some k'
      rw [hdev, hkk]
      exact hheld hconn
    · exact hothers cam'.devId k' hkk (h.held k' cam' hcam' hconn)
  · obtain ⟨cam', hcam', hdev'⟩ := h.valid devId k' (hshrinks devId k' hk')
    rw [hget]
    split_ifs with hkk
    · rw [hkk, hcam] at hcam'
      obtain rfl := Option.some.inj hcam'
      exact ⟨_, rfl, (congrArg DevSerial.devId hdev).trans hdev'⟩
    · exact ⟨cam', hcam', hdev'⟩

/-- **A callback of the session `k`** keeps the invariant, if `sessions` holds `k` whenever it emits
`disconnect`. -/
theorem SessionsInv.events {srv : Server} (h : SessionsInv srv) {k : ℕ} {cam : Camera}
    (hcam : srv.cameras[k]? = some cam) {evs : List Event} {s : Session}
    (hends : (evs.foldl Life.hear cam.session.life).EndsTasks s.life)
    (hheld : .disconnect ∈ evs → srv.web.sessions.find? cam.devId = some k) :
    SessionsInv { srv.setSession k cam s evs with web := cam.heard srv.web evs } := by
  have hlive : s.life.Live → cam.session.connected = true ∧ .disconnect ∉ evs := by
    intro hl
    have hl := live_of_endsTasks hends hl
    by_cases hd : .disconnect ∈ evs
    · rw [foldl_hear, if_pos hd] at hl
      exact absurd hl (not_live_disconnected (h.live k cam hcam))
    · rw [foldl_hear, if_neg hd] at hl
      exact ⟨h.live k cam hcam hl, hd⟩
  have hconnected : .disconnect ∉ evs → s.connected = cam.session.connected := by
    intro hd
    rw [foldl_hear, if_neg hd] at hends
    exact hends.connected
  refine h.setSession hcam (hends.dev.trans (wanes_hear cam.session.life evs).dev) ?_ ?_ ?_ ?_
  · intro hl
    obtain ⟨hconn, hd⟩ := hlive hl
    rw [hconnected hd, hconn]
  · intro hconn
    obtain ⟨hconn, hd⟩ := hlive (.inl hconn)
    rw [find?_heard, if_neg fun hdrop => hd hdrop.2.2]
    exact h.held k cam hcam hconn
  · intro devId k' hkk hk'
    rw [find?_heard]
    split_ifs with hdrop
    · -- a disconnect of `k` drops the entry of its own camera, which holds `k`
      rw [hdrop.1, hheld hdrop.2.2] at hk'
      exact absurd (Option.some.inj hk').symm hkk
    · exact hk'
  · intro devId k' hk'
    rw [find?_heard] at hk'
    split_ifs at hk'
    exact hk'

theorem SessionsInv.held_of_due {srv : Server} (h : SessionsInv srv) {k : ℕ} {cam : Camera}
    (hcam : srv.cameras[k]? = some cam) {c : Callback} (hready : c ≠ .ready) (hdue : c.due cam.session = true)
    (hclose : c = .close → srv.web.sessions.find? cam.devId = some k) :
    srv.web.sessions.find? cam.devId = some k := by
  by_cases hc : c = .close
  · exact hclose hc
  · exact h.held k cam hcam (h.live k cam hcam (live_of_due hdue hready hc))

theorem SessionsInv.onSession {srv : Server} (h : SessionsInv srv) (k : ℕ) (now : ℚ) {c : Callback}
    (hready : c ≠ .ready)
    (hclose : c = .close → ∀ cam : Camera, srv.cameras[k]? = some cam →
      srv.web.sessions.find? cam.devId = some k) :
    SessionsInv (srv.onSession k now c) := by
  rcases onSession_cases srv k now c with hsame | ⟨cam, evs, s, running, -, hc, -⟩ |
    ⟨cam, evs, s, hcam, -, hdue, hends, hstep⟩
  · rw [hsame]
    exact h
  · exact absurd hc hready
  · rw [hstep]
    exact h.events hcam hends fun _ => h.held_of_due hcam hready hdue fun hc => hclose hc cam hcam

theorem SessionsInv.ready {srv : Server} (h : SessionsInv srv) {k : ℕ} {now : ℚ}
    (hready : srv.ReadyInTime (.ready k now)) : SessionsInv (srv.onSession k now .ready) := by
  rcases onSession_cases srv k now .ready with hsame |
    ⟨cam, evs, s, running, hcam, -, habsent, -, hlife, hstep⟩ | ⟨cam, evs, s, -, hc, -⟩
  · rw [hsame]
    exact h
  · have hconn : cam.session.connected = true := hready k rfl cam hcam habsent
    rw [hstep]
    exact h.setSession hcam (congrArg Life.dev hlife)
      (fun _ => (congrArg Life.connected hlife).trans hconn) (fun _ => h.held k cam hcam hconn)
      (fun _ _ _ => id) fun _ _ => id
  · exact absurd rfl hc

theorem getElem?_discovered (srv : Server) (rinfo : String × ℕ) (dev : DevSerial) (config : Config)
    (attached audioAttached : Bool) (k : ℕ) :
    (srv.discovered rinfo dev config attached audioAttached).cameras[k]? =
      if k = srv.cameras.length then some { Camera.made rinfo dev with attached, audioAttached }
      else srv.cameras[k]? := by
  unfold Server.discovered
  split_ifs with hk
  · rw [hk]
    exact List.getElem?_concat_length
  · rcases Nat.lt_or_ge k srv.cameras.length with hlt | hge
    · exact List.getElem?_append_left hlt
    · rw [List.getElem?_eq_none hge]
      refine List.getElem?_eq_none ?_
      rw [List.length_append, List.length_singleton]
      omega

theorem SessionsInv.discover {srv : Server} (h : SessionsInv srv) (rinfo : String × ℕ) (dev : DevSerial) :
    SessionsInv (final (onDiscover rinfo dev) srv) := by
  cases hknown : srv.web.sessions.find? dev.devId with
  | some k =>
    rw [discover_known (by rw [hknown]; rfl)]
    exact h
  | none =>
    obtain ⟨config, audioAttached, hnew⟩ := discover_new hknown rinfo
    rw [hnew]
    refine ⟨fun k cam hcam hl => ?_, fun k cam hcam hconn => ?_, fun devId k hk => ?_⟩
    · rw [getElem?_discovered] at hcam
      split_ifs at hcam with hkk
      · obtain rfl := Option.some.inj hcam
        rfl
      · exact h.live k cam hcam hl
    · rw [getElem?_discovered] at hcam
      show (srv.web.sessions.insert dev.devId srv.cameras.length).find? cam.devId = some k
      split_ifs at hcam with hkk
      · obtain rfl := Option.some.inj hcam
        rw [hkk]
        exact Table.find?_insert_self _ _ _
      · have hheld := h.held k cam hcam hconn
        rw [Table.find?_insert_ne]
        · exact hheld
        · intro hsame
          rw [hsame, hknown] at hheld
          cases hheld
    · rw [getElem?_discovered]
      rw [show (srv.discovered rinfo dev config _ audioAttached).web.sessions =
        srv.web.sessions.insert dev.devId srv.cameras.length from rfl, Table.find?_insert] at hk
      split_ifs at hk with hsame
      · rw [if_pos (Option.some.inj hk).symm, hsame]
        exact ⟨_, rfl, rfl⟩
      · obtain ⟨cam, hcam, hdev⟩ := h.valid devId k hk
        rw [if_neg (List.getElem?_eq_some_iff.1 hcam).1.ne]
        exact ⟨cam, hcam, hdev⟩

/-! ### Runs -/

/-- Only clients and queues differ, as they do in the steps of the handlers of streams. -/
structure Server.SameCameras (srv srv' : Server) : Prop where
  cameras : srv'.cameras = srv.cameras
  sessions : srv'.web.sessions = srv.web.sessions
  config : srv'.web.config = srv.web.config

theorem Server.SameCameras.refl (srv : Server) : srv.SameCameras srv := ⟨rfl, rfl, rfl⟩

theorem sameCameras_setPhase (srv : Server) (i : ℕ) (phase : Phase) : srv.SameCameras (srv.setPhase i phase) :=
  ⟨rfl, rfl, rfl⟩

theorem sameCameras_appendQueue (srv : Server) (i : ℕ) (c : Client) : srv.SameCameras (srv.appendQueue i c) := by
  unfold Server.appendQueue
  split <;> exact ⟨rfl, rfl, rfl⟩

theorem sameCameras_removeQueue (srv : Server) (i : ℕ) (c : Client) (q : ℕ) :
    srv.SameCameras (srv.removeQueue i c q) := by
  unfold Server.removeQueue
  split
  · exact sameCameras_setPhase srv i _
  · split_ifs <;> exact ⟨rfl, rfl, rfl⟩

theorem sameCameras_openStream (srv : Server) (media : Media) (devId : String) :
    srv.SameCameras (srv.openStream media devId) := by
  unfold Server.openStream
  split
  · exact .refl srv
  · split_ifs <;> exact ⟨rfl, rfl, rfl⟩

theorem sameCameras_prepared (srv : Server) (i : ℕ) : srv.SameCameras (srv.prepared i) := by
  unfold Server.prepared
  split
  · exact .refl srv
  · split_ifs
    · exact sameCameras_appendQueue srv i _
    · exact .refl srv

theorem sameCameras_take (srv : Server) (i : ℕ) : srv.SameCameras (srv.take i) := by
  unfold Server.take
  split <;> exact ⟨rfl, rfl, rfl⟩

theorem sameCameras_leave (srv : Server) (i : ℕ) : srv.SameCameras (srv.leave i) := by
  unfold Server.leave
  split
  · exact .refl srv
  · split
    · exact sameCameras_setPhase srv i _
    · exact sameCameras_removeQueue srv i _ _
    · exact .refl srv

theorem SessionsInv.closes_held {srv : Server} (h : SessionsInv srv) {devId : String} {k : ℕ}
    (hfind : srv.web.sessions.find? devId = some k) :
    ∀ cam : Camera, srv.cameras[k]? = some cam → srv.web.sessions.find? cam.devId = some k := by
  intro cam hcam
  obtain ⟨cam', hcam', hdev⟩ := h.valid devId k hfind
  rw [hcam] at hcam'
  obtain rfl := Option.some.inj hcam'
  rw [hdev, hfind]

theorem SessionsInv.reconnect {srv : Server} (h : SessionsInv srv) (devId : String) :
    SessionsInv (srv.reconnect devId) := by
  unfold Server.reconnect
  cases hfind : srv.web.sessions.find? devId with
  | none => exact h
  | some k => exact h.onSession k 0 (c := .close) Callback.noConfusion fun _ => h.closes_held hfind

/-- **One step** whose endpoint, if any, becomes ready in time. -/
theorem SessionsInv.step {srv : Server} (h : SessionsInv srv) {step : ServerStep}
    (hready : srv.ReadyInTime step) : SessionsInv (srv.step step) := by
  cases step with
  | discover rinfo dev => exact h.discover rinfo dev
  | ready k now => exact h.ready hready
  | datagram k now msg => exact h.onSession k now (by simp) (by simp)
  | sessTick k now => exact h.onSession k now (by simp) (by simp)
  | resendTick k now => exact h.onSession k now (by simp) (by simp)
  | reconnect devId => exact h.reconnect devId
  | configure config => exact h.congr rfl rfl
  | openStream media devId =>
    exact h.congr (sameCameras_openStream srv media devId).cameras (sameCameras_openStream srv media devId).sessions
  | prepared i => exact h.congr (sameCameras_prepared srv i).cameras (sameCameras_prepared srv i).sessions
  | take i => exact h.congr (sameCameras_take srv i).cameras (sameCameras_take srv i).sessions
  | leave i => exact h.congr (sameCameras_leave srv i).cameras (sameCameras_leave srv i).sessions

/-! ### Entries that go -/

theorem dropsOwn_of_sessions {srv srv' : Server} (h : srv'.web.sessions = srv.web.sessions) :
    srv.DropsOwn srv' := by
  intro devId k hk hgone
  rw [h] at hgone
  exact absurd hk hgone

theorem SessionsInv.dropsOwn_onSession {srv : Server} (h : SessionsInv srv) (k : ℕ) (now : ℚ) {c : Callback}
    (hclose : c = .close → ∀ cam : Camera, srv.cameras[k]? = some cam →
      srv.web.sessions.find? cam.devId = some k) :
    srv.DropsOwn (srv.onSession k now c) := by
  rcases onSession_cases srv k now c with hsame | ⟨cam, evs, s, running, -, -, -, -, -, hstep⟩ |
    ⟨cam, evs, s, hcam, hready, hdue, -, hstep⟩
  · rw [hsame]
    exact dropsOwn_of_sessions rfl
  · rw [hstep]
    exact dropsOwn_of_sessions rfl
  · have hheld := h.held_of_due hcam hready hdue fun hc => hclose hc cam hcam
    rw [hstep]
    intro devId k' hk' hgone
    change (cam.heard srv.web evs).sessions.find? devId ≠ some k' at hgone
    rw [find?_heard] at hgone
    split_ifs at hgone with hdrop
    · -- the entry that went is the one of this camera, and it held this session
      rw [hdrop.1, hheld] at hk'
      obtain rfl := Option.some.inj hk'
      rw [emitted_setSession hcam]
      exact hdrop.2.2
    · exact absurd hk' hgone

/-- **An entry of `sessions` only goes** when its own session disconnects. -/
theorem SessionsInv.dropsOwn {srv : Server} (h : SessionsInv srv) (step : ServerStep) :
    srv.DropsOwn (srv.step step) := by
  cases step with
  | discover rinfo dev =>
    show srv.DropsOwn (final (onDiscover rinfo dev) srv)
    cases hknown : srv.web.sessions.find? dev.devId with
    | some k =>
      rw [discover_known (by rw [hknown]; rfl)]
      exact dropsOwn_of_sessions rfl
    | none =>
      obtain ⟨config, audioAttached, hnew⟩ := discover_new hknown rinfo
      rw [hnew]
      intro devId k hk hgone
      refine absurd ?_ hgone
      refine (Table.find?_insert_ne _ (fun hsame => ?_) _).trans hk
      rw [hsame, hknown] at hk
      cases hk
  | ready k now => exact h.dropsOwn_onSession k now (by simp)
  | datagram k now msg => exact h.dropsOwn_onSession k now (by simp)
  | sessTick k now => exact h.dropsOwn_onSession k now (by simp)
  | resendTick k now => exact h.dropsOwn_onSession k now (by simp)
  | reconnect devId =>
    show srv.DropsOwn (srv.reconnect devId)
    unfold Server.reconnect
    cases hfind : srv.web.sessions.find? devId with
    | none => exact dropsOwn_of_sessions rfl
    | some k =>
      exact h.dropsOwn_onSession k 0 (c := .close) fun _ => h.closes_held hfind
  | configure config => exact dropsOwn_of_sessions rfl
  | openStream media devId => exact dropsOwn_of_sessions (sameCameras_openStream srv media devId).sessions
  | prepared i => exact dropsOwn_of_sessions (sameCameras_prepared srv i).sessions
  | take i => exact dropsOwn_of_sessions (sameCameras_take srv i).sessions
  | leave i => exact dropsOwn_of_sessions (sameCameras_leave srv i).sessions

theorem sessionsInv_run (config : Config) {steps : List ServerStep}
    (hready : Runs.Guarded Server.step Server.ReadyInTime (.start config) steps) :
    SessionsInv ((Server.start config).run steps) :=
  Runs.guarded (sessionsInv_start config) (fun _ _ h hC => h.step hC) hready

/-- **One live session per camera**, in every state of a run in which no endpoint becomes ready after its
session was closed; and whatever comes next, an entry of `sessions` only goes when its own session
disconnects. -/
theorem one_live_session (config : Config) (steps : List ServerStep)
    (hready : Runs.Guarded Server.step Server.ReadyInTime (.start config) steps) :
    ((Server.start config).run steps).OneLive ∧ ((Server.start config).run steps).Held ∧
      ∀ step, ((Server.start config).run steps).DropsOwn (((Server.start config).run steps).step step) :=
  have h := sessionsInv_run config hready
  ⟨h.oneLive, h.held, h.dropsOwn⟩

/-- What a camera says about itself. -/
def aCamera : DevSerial := ⟨"FTYC", "000001", "ABCDE", 1, "FTYC000001ABCDE"⟩

def aDiscovery : ServerStep := .discover ("192.168.1.5", 32108) aCamera

/-- A session that is closed once its endpoint is ready. -/
theorem one_live_session_closed :
    ((Server.start defaultConfig).run [aDiscovery, .ready 0 7000, .reconnect aCamera.devId]).OneLive :=
  (one_live_session defaultConfig _ (by decide +kernel)).1

/-- A session that is closed before its endpoint is ready: a reconnect request comes right after the
discovery, then the camera is discovered again, and both endpoints become ready. -/
def forgotten : List ServerStep :=
  [aDiscovery, .reconnect aCamera.devId, aDiscovery, .ready 0 1704067200000, .ready 1 1704067200000]

/-- Behind that both sessions are live, and the timeout of the first drops the entry of the second. -/
theorem forgotten_session :
    ¬((Server.start defaultConfig).run forgotten).OneLive ∧
      ¬((Server.start defaultConfig).run forgotten).DropsOwn
        (((Server.start defaultConfig).run forgotten).step (.sessTick 0 1704067200400)) := by
  constructor
  · intro hone
    obtain ⟨cam, hcam, hdev, hlive⟩ : ∃ cam ∈ ((Server.start defaultConfig).run forgotten).cameras[0]?,
        cam.devId = aCamera.devId ∧ cam.session.life.Live := by decide +kernel
    obtain ⟨cam', hcam', hdev', hlive'⟩ : ∃ cam ∈ ((Server.start defaultConfig).run forgotten).cameras[1]?,
        cam.devId = aCamera.devId ∧ cam.session.life.Live := by decide +kernel
    exact absurd (hone 0 1 cam cam' hcam hcam' (hdev.trans hdev'.symm) hlive hlive') (by decide)
  · intro hdrops
    have hheld : ((Server.start defaultConfig).run forgotten).web.sessions.find? aCamera.devId = some 1 := by
      decide +kernel
    have hgone : (((Server.start defaultConfig).run forgotten).step
        (.sessTick 0 1704067200400)).web.sessions.find? aCamera.devId = none := by decide +kernel
    have hquiet : ((Server.start defaultConfig).run forgotten).emitted
        (((Server.start defaultConfig).run forgotten).step (.sessTick 0 1704067200400)) 1 = [] := by
      decide +kernel
    have hmem := hdrops aCamera.devId 1 hheld (by rw [hgone]; nofun)
    rw [hquiet] at hmem
    exact absurd hmem List.not_mem_nil

end CamReverse
