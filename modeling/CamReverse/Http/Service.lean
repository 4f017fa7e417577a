import CamReverse.Control.Identity
import CamReverse.Http.Clients
import CamReverse.Http.Sessions
import CamReverse.Searching

/-!
# The server and its discovery

`serve_http` listens to the discovery it starts. A PunchPkt on the discovery's socket makes a session, and that is the
only way a session is made (`session_origin`). A reconnect request closes the session of a camera and asks the
discovery for the camera's last address; the camera's next PunchPkt makes a new session (`reconnect_recovers`).
-/

namespace CamReverse

open Effect

/-- What `serve_http` runs. -/
structure Service where
  server : Server
  discovery : Discovery

def Service.start (config : Config) (discoveryIps : PyVal) : Service :=
  ⟨.start config, .start discoveryIps⟩

def inDiscovery {α : Type} (m : EStateM PyErr Discovery α) : EStateM PyErr Service α :=
  onPart Service.discovery (fun d svc => { svc with discovery := d }) m

def Service.punch (svc : Service) (msg : Bytes) (rinfo : String × ℕ) : Service :=
  if svc.discovery.transport = .opened then
    { svc with server := final (handleIncomingPunch (fun srv => srv.web.config) onDiscover msg rinfo) svc.server }
  else svc

inductive ReconnectReply where
  | unknownCamera
  | reconnecting (ip : Option String)
  deriving DecidableEq

/-- `_handle_camera_reconnect`. -/
def handleReconnect (now : ℚ) (devId : String) (result : Sendto) : EStateM PyErr Service ReconnectReply := do
  let svc ← get
  let ip := svc.server.web.cameraIps.find? devId
  let s := svc.server.web.sessions.find? devId
  if s = none ∧ ip = none then
    return .unknownCamera
  else
    set { svc with server := svc.server.reconnect devId }
    match ip with
    | some address =>
      if address ≠ "" then
        inDiscovery (Discovery.emitAddTarget now address result)
    | none => pure ()
    return .reconnecting ip

def ServerStep.elsewhere : ServerStep → Bool
  | .discover _ _ => true
  | .reconnect _ => true
  | _ => false

inductive ServiceEvent where
  | punch (msg : Bytes) (rinfo : String × ℕ)
  | reconnect (now : ℚ) (devId : String) (result : Sendto)
  | search (step : DiscoveryStep)
  | serve (step : ServerStep) (hstep : step.elsewhere = false)

def Service.step (svc : Service) : ServiceEvent → Service
  | .punch msg rinfo => svc.punch msg rinfo
  | .reconnect now devId result => final (handleReconnect now devId result) svc
  | .search step => { svc with discovery := svc.discovery.step step }
  | .serve step _ => { svc with server := svc.server.step step }

def Service.run (svc : Service) (evs : List ServiceEvent) : Service := evs.foldl Service.step svc

/-! ### Announcements -/

/-- The datagram is a PunchPkt of this camera, from an address that is not blacklisted. -/
structure Announces (config : Config) (msg : Bytes) (rinfo : String × ℕ) (dev : DevSerial) : Prop where
  code : (DV.ofBytes msg).readU16 = .ok Command.punchPkt.code
  listed : blacklisted config rinfo.1 = .ok false
  parsed : parsePunchPkt (DV.ofBytes msg) = .ok dev

theorem Announces.discovers {σ : Type} {s : σ} {msg : Bytes} {rinfo : String × ℕ} {dev : DevSerial}
    (config : σ → Config) (h : Announces (config s) msg rinfo dev)
    (discover : String × ℕ → DevSerial → EStateM PyErr σ Unit) :
    handleIncomingPunch config discover msg rinfo s = discover rinfo dev s := by
  unfold handleIncomingPunch
  rw [h.code, liftM_eq_lift, lift_ok_bind, if_neg (not_not.2 rfl), get_bind_apply, h.listed, liftM_eq_lift, lift_ok_bind,
    if_neg Bool.false_ne_true, h.parsed, liftM_eq_lift, lift_ok_bind]

theorem handleIncomingPunch_cases {σ : Type} (config : σ → Config)
    (discover : String × ℕ → DevSerial → EStateM PyErr σ Unit) (msg : Bytes) (rinfo : String × ℕ) (s : σ) :
    (∃ dev, Announces (config s) msg rinfo dev) ∨
      final (handleIncomingPunch config discover msg rinfo) s = s := by
  unfold handleIncomingPunch
  dsimp only
  cases hcode : (DV.ofBytes msg).readU16 with
  | error e => exact .inr rfl
  | ok cmdId =>
    rw [liftM_eq_lift, lift_ok_bind]
    split_ifs with hpunch
    · exact .inr rfl
    · rw [final, get_bind_apply]
      cases hlisted : blacklisted (config s) rinfo.1 with
      | error e => exact .inr rfl
      | ok listed =>
        rw [liftM_eq_lift, lift_ok_bind]
        cases listed with
        | true => exact .inr rfl
        | false =>
          cases hparsed : parsePunchPkt (DV.ofBytes msg) with
          | error e => exact .inr rfl
          | ok dev => exact .inl ⟨dev, not_not.1 hpunch ▸ hcode, hlisted, hparsed⟩

/-! ### Sessions come from announcements -/

/-- The cameras the sessions were made for, in the order of their making. -/
def Server.devs (srv : Server) : List DevSerial := srv.cameras.map fun cam => cam.session.dev

theorem devs_setSession {srv : Server} {k : ℕ} {cam : Camera} (hcam : srv.cameras[k]? = some cam) {s : Session}
    (hdev : s.dev = cam.session.dev) (evs : List Event) : (srv.setSession k cam s evs).devs = srv.devs := by
  obtain ⟨hk, rfl⟩ := List.getElem?_eq_some_iff.1 hcam
  show (srv.cameras.set k _).map _ = srv.cameras.map _
  rw [List.map_set]
  dsimp only
  rw [hdev, ← List.getElem_map (fun cam : Camera => cam.session.dev) (h := by simpa using hk), List.set_getElem_self]

theorem onSession_devs (srv : Server) (k : ℕ) (now : ℚ) (c : Callback) : (srv.onSession k now c).devs = srv.devs := by
  rcases onSession_cases srv k now c with hsame | ⟨cam, evs, s, running, hcam, -, -, -, hlife, hstep⟩ |
    ⟨cam, evs, s, hcam, -, -, hends, hstep⟩
  · rw [hsame]
  · rw [hstep]
    exact devs_setSession hcam (congrArg Life.dev hlife) evs
  · rw [hstep]
    exact devs_setSession hcam (hends.dev.trans (wanes_hear cam.session.life evs).dev) evs

theorem step_devs (srv : Server) {step : ServerStep} (hstep : step.discovers = none) :
    (srv.step step).devs = srv.devs ∧ (srv.step step).web.cameraIps = srv.web.cameraIps ∧
      ∀ devId k, (srv.step step).web.sessions.find? devId = some k → srv.web.sessions.find? devId = some k := by
  rcases step_cases srv step with hclient | ⟨rinfo, dev, rfl⟩ | ⟨config, rfl⟩ | ⟨-, hsame⟩ | ⟨k, now, c, -, hsession⟩
  · obtain ⟨hcameras, hips, hsessions, -⟩ := client_keeps srv hclient
    refine ⟨congrArg (List.map _) hcameras, hips, fun devId k hk => ?_⟩
    rw [hsessions] at hk
    exact hk
  · cases hstep
  · exact ⟨rfl, rfl, fun _ _ => id⟩
  · rw [hsame]
    exact ⟨rfl, rfl, fun _ _ => id⟩
  · rw [hsession]
    exact ⟨onSession_devs srv k now c, (onSession_leaves srv k now c).2.2, (onSession_keeps srv k now c).2.1⟩

theorem discover_devs (srv : Server) (rinfo : String × ℕ) (dev : DevSerial) :
    final (onDiscover rinfo dev) srv = srv ∨
      srv.web.sessions.find? dev.devId = none ∧
      (final (onDiscover rinfo dev) srv).devs = srv.devs ++ [dev] ∧
      (final (onDiscover rinfo dev) srv).web.cameraIps = srv.web.cameraIps.insert dev.devId rinfo.1 ∧
      (final (onDiscover rinfo dev) srv).web.sessions = srv.web.sessions.insert dev.devId srv.devs.length := by
  cases hknown : srv.web.sessions.find? dev.devId with
  | some k => exact .inl (discover_known (by rw [hknown]; rfl) rinfo)
  | none =>
    obtain ⟨config, audioAttached, hnew⟩ := discover_new hknown rinfo
    refine .inr ⟨rfl, ?_⟩
    rw [hnew, Server.devs, Server.devs, List.length_map]
    exact ⟨List.map_append, rfl, rfl⟩

theorem length_cameras_step (srv : Server) (step : ServerStep) :
    srv.cameras.length ≤ (srv.step step).cameras.length := by
  suffices h : srv.devs.length ≤ (srv.step step).devs.length by
    simpa only [Server.devs, List.length_map] using h
  by_cases hstep : step.discovers = none
  · rw [(step_devs srv hstep).1]
  · cases step with
    | discover rinfo dev =>
      show srv.devs.length ≤ (final (onDiscover rinfo dev) srv).devs.length
      rcases discover_devs srv rinfo dev with hsame | ⟨-, hdevs, -⟩
      · rw [hsame]
      · rw [hdevs, List.length_append]
        omega
    | _ => exact absurd rfl hstep

theorem length_cameras_append (srv : Server) (before after : List ServerStep) :
    (srv.run before).cameras.length ≤ (srv.run (before ++ after)).cameras.length := by
  rw [show srv.run (before ++ after) = (srv.run before).run after from List.foldl_append]
  exact Runs.invariant (I := fun srv' : Server => (srv.run before).cameras.length ≤ srv'.cameras.length) le_rfl
    (fun srv' step h => h.trans (length_cameras_step srv' step)) after

theorem punch_server (svc : Service) (msg : Bytes) (rinfo : String × ℕ) :
    (svc.punch msg rinfo).server = svc.server ∨
      svc.discovery.transport = .opened ∧ ∃ dev, Announces svc.server.web.config msg rinfo dev ∧
        (svc.punch msg rinfo).server = final (onDiscover rinfo dev) svc.server := by
  unfold Service.punch
  split_ifs with hopened
  · rcases handleIncomingPunch_cases (fun srv : Server => srv.web.config) onDiscover msg rinfo svc.server with
      ⟨dev, hannounces⟩ | hsame
    · refine .inr ⟨hopened, dev, hannounces, ?_⟩
      show final (handleIncomingPunch _ onDiscover msg rinfo) svc.server = _
      rw [final, hannounces.discovers (fun srv : Server => srv.web.config), ← final]
    · exact .inl hsame
  · exact .inl rfl

theorem handleReconnect_stranger {svc : Service} {devId : String} (hs : svc.server.web.sessions.find? devId = none)
    (hip : svc.server.web.cameraIps.find? devId = none) (now : ℚ) (result : Sendto) :
    handleReconnect now devId result svc = .ok .unknownCamera svc := by
  unfold handleReconnect
  rw [get_bind_apply]
  dsimp only
  rw [if_pos ⟨hs, hip⟩]
  rfl

theorem handleReconnect_known {svc : Service} {devId address : String}
    (hip : svc.server.web.cameraIps.find? devId = some address) (now : ℚ) (result : Sendto) :
    handleReconnect now devId result svc =
      if address ≠ "" ∧ svc.discovery.Lost address then
        .error .attributeError { svc with server := svc.server.reconnect devId }
      else .ok (.reconnecting (some address))
        ⟨svc.server.reconnect devId,
          if address = "" then svc.discovery else svc.discovery.step (.addTarget now address result)⟩ := by
  unfold handleReconnect
  rw [get_bind_apply]
  dsimp only
  rw [hip, if_neg fun h => nomatch h.2]
  dsimp only
  by_cases haddress : address = ""
  · rw [if_neg (not_not.2 haddress), if_neg fun h => h.1 haddress, if_pos haddress]
    rfl
  · rw [if_pos haddress, if_neg haddress]
    have hemit : inDiscovery (Discovery.emitAddTarget now address result)
        { svc with server := svc.server.reconnect devId } =
          if svc.discovery.Lost address then .error .attributeError { svc with server := svc.server.reconnect devId }
          else .ok ⟨⟩ ⟨svc.server.reconnect devId, svc.discovery.step (.addTarget now address result)⟩ := by
      unfold inDiscovery onPart
      rw [Discovery.emitAddTarget_apply]
      split_ifs <;> rfl
    by_cases hlost : svc.discovery.Lost address
    · rw [if_pos ⟨haddress, hlost⟩]
      rw [if_pos hlost] at hemit
      exact bind_error hemit _
    · rw [if_neg fun h => hlost h.2]
      rw [if_neg hlost] at hemit
      exact bind_ok hemit _

/-- A reconnect closes a session at most, and asks for a target at most. -/
theorem reconnect_cases (svc : Service) (now : ℚ) (devId : String) (result : Sendto) :
    ((final (handleReconnect now devId result) svc).server = svc.server ∨
      (final (handleReconnect now devId result) svc).server = svc.server.reconnect devId) ∧
    ((final (handleReconnect now devId result) svc).discovery = svc.discovery ∨
      ∃ address, (final (handleReconnect now devId result) svc).discovery =
        svc.discovery.step (.addTarget now address result)) := by
  rw [final]
  cases hip : svc.server.web.cameraIps.find? devId with
  | some address =>
    rw [handleReconnect_known hip]
    split_ifs
    · exact ⟨.inr rfl, .inl rfl⟩
    · exact ⟨.inr rfl, .inl rfl⟩
    · exact ⟨.inr rfl, .inr ⟨address, rfl⟩⟩
  | none =>
    unfold handleReconnect
    rw [get_bind_apply]
    dsimp only
    rw [hip]
    split_ifs
    · exact ⟨.inl rfl, .inl rfl⟩
    · exact ⟨.inr rfl, .inl rfl⟩

/-- **A step of the service** makes at most one session, and only at an announcement. -/
theorem Service.step_devs (svc : Service) (ev : ServiceEvent) :
    ((svc.step ev).server.devs = svc.server.devs ∧
      (svc.step ev).server.web.cameraIps = svc.server.web.cameraIps ∧
      ∀ devId k, (svc.step ev).server.web.sessions.find? devId = some k →
        svc.server.web.sessions.find? devId = some k) ∨
    ∃ msg rinfo dev, ev = .punch msg rinfo ∧ svc.discovery.transport = .opened ∧
      Announces svc.server.web.config msg rinfo dev ∧ svc.server.web.sessions.find? dev.devId = none ∧
      (svc.step ev).server.devs = svc.server.devs ++ [dev] ∧
      (svc.step ev).server.web.cameraIps = svc.server.web.cameraIps.insert dev.devId rinfo.1 ∧
      (svc.step ev).server.web.sessions = svc.server.web.sessions.insert dev.devId svc.server.devs.length := by
  cases ev with
  | search step => exact .inl ⟨rfl, rfl, fun _ _ => id⟩
  | serve step hstep =>
    refine .inl (CamReverse.step_devs svc.server ?_)
    cases step with
    | discover rinfo dev => cases hstep
    | _ => rfl
  | reconnect now devId result =>
    refine .inl ?_
    rw [Service.step]
    obtain hsame | hserver := (reconnect_cases svc now devId result).1
    · rw [hsame]
      exact ⟨rfl, rfl, fun _ _ => id⟩
    · rw [hserver]
      exact @CamReverse.step_devs svc.server (.reconnect devId) rfl
  | punch msg rinfo =>
    rw [Service.step]
    rcases punch_server svc msg rinfo with hsame | ⟨hopened, dev, hannounces, hpunch⟩
    · rw [hsame]
      exact .inl ⟨rfl, rfl, fun _ _ => id⟩
    · rw [hpunch]
      rcases discover_devs svc.server rinfo dev with hsame | ⟨hnew, hmade⟩
      · rw [hsame]
        exact .inl ⟨rfl, rfl, fun _ _ => id⟩
      · exact .inr ⟨msg, rinfo, dev, rfl, hopened, hannounces, hnew, hmade⟩

/-- The datagram that made the `k`-th session: a PunchPkt of a camera that had no session, from an address that was not
blacklisted then. -/
def Service.Makes (svc : Service) (evs : List ServiceEvent) (k : ℕ) (dev : DevSerial) (rinfo : String × ℕ) : Prop :=
  ∃ before msg after, evs = before ++ .punch msg rinfo :: after ∧ (svc.run before).server.devs.length = k ∧
    (svc.run before).server.web.sessions.find? dev.devId = none ∧
    Announces (svc.run before).server.web.config msg rinfo dev

theorem Service.Makes.append {svc : Service} {evs : List ServiceEvent} {k : ℕ} {dev : DevSerial} {rinfo : String × ℕ}
    (h : svc.Makes evs k dev rinfo) (evs' : List ServiceEvent) : svc.Makes (evs ++ evs') k dev rinfo := by
  obtain ⟨before, msg, after, rfl, hrest⟩ := h
  exact ⟨before, msg, after ++ evs', by rw [List.append_assoc, List.cons_append], hrest⟩

/-- No session was made for this camera after the `k`-th. -/
def Server.NoneAfter (srv : Server) (k : ℕ) (devId : String) : Prop :=
  ∀ (j : ℕ) dev, k < j → srv.devs[j]? = some dev → dev.devId ≠ devId

/-- What the entries of a service say about the sessions it has made. -/
structure OriginInv (start : Service) (seen : List ServiceEvent) (svc : Service) : Prop where
  run : svc = start.run seen
  origin : ∀ (k : ℕ) dev, svc.server.devs[k]? = some dev → ∃ rinfo, start.Makes seen k dev rinfo ∧
    (svc.server.NoneAfter k dev.devId → svc.server.web.cameraIps.find? dev.devId = some rinfo.1)
  entry : ∀ devId k, svc.server.web.sessions.find? devId = some k →
    (∃ dev, svc.server.devs[k]? = some dev ∧ dev.devId = devId) ∧ svc.server.NoneAfter k devId
  stranger : ∀ devId, (∀ dev ∈ svc.server.devs, dev.devId ≠ devId) → svc.server.web.cameraIps.find? devId = none

theorem getElem?_concat_cases {α : Type} {l : List α} {a b : α} {k : ℕ} (h : (l ++ [a])[k]? = some b) :
    l[k]? = some b ∨ k = l.length ∧ a = b := by
  rw [List.getElem?_append] at h
  split_ifs at h with hk
  · exact .inl h
  · obtain ⟨hzero, hab⟩ := List.getElem?_eq_some_iff.1 h
    rw [List.length_singleton, Nat.lt_one_iff] at hzero
    exact .inr ⟨by omega, by simpa [hzero] using hab⟩

theorem OriginInv.step {start : Service} {seen : List ServiceEvent} {svc : Service} (h : OriginInv start seen svc)
    (ev : ServiceEvent) : OriginInv start (seen ++ [ev]) (svc.step ev) := by
  have hrun : svc.step ev = start.run (seen ++ [ev]) := by
    rw [h.run, Service.run, Service.run, List.foldl_append]
    rfl
  rcases svc.step_devs ev with ⟨hdevs, hips, hsessions⟩ |
    ⟨msg, rinfo, dev, rfl, -, hannounces, hnone, hdevs, hips, hsessions⟩
  · refine ⟨hrun, fun k dev hdev => ?_, fun devId k hk => ?_, fun devId hno => ?_⟩
    · rw [hdevs] at hdev
      obtain ⟨rinfo, hmakes, hip⟩ := h.origin k dev hdev
      rw [Server.NoneAfter, hdevs, hips]
      exact ⟨rinfo, hmakes.append [ev], hip⟩
    · rw [Server.NoneAfter, hdevs]
      exact h.entry devId k (hsessions devId k hk)
    · rw [hdevs] at hno
      rw [hips]
      exact h.stranger devId hno
  · have hlast : (svc.server.devs ++ [dev])[svc.server.devs.length]? = some dev := by
      rw [List.getElem?_append_right le_rfl, Nat.sub_self]
      rfl
    have hearlier : ∀ {k : ℕ} {dev'}, svc.server.devs[k]? = some dev' → k < svc.server.devs.length := fun hk =>
      (List.getElem?_eq_some_iff.1 hk).1
    refine ⟨hrun, fun k dev' hdev => ?_, fun devId k hk => ?_, fun devId hno => ?_⟩
    · rw [Server.NoneAfter, hdevs, hips]
      rw [hdevs] at hdev
      obtain hold | ⟨rfl, rfl⟩ := getElem?_concat_cases hdev
      · obtain ⟨rinfo', hmakes, hip⟩ := h.origin k dev' hold
        refine ⟨rinfo', hmakes.append _, fun hnewest => ?_⟩
        rw [Table.find?_insert_ne _ (hnewest _ dev (hearlier hold) hlast).symm]
        refine hip fun j dev'' hj hdev'' => hnewest j dev'' hj ?_
        rw [List.getElem?_append_left (hearlier hdev'')]
        exact hdev''
      · refine ⟨rinfo, ⟨seen, msg, [], rfl, h.run ▸ rfl, h.run ▸ hnone, h.run ▸ hannounces⟩, fun _ => ?_⟩
        exact Table.find?_insert_self _ _ _
    · rw [Server.NoneAfter, hdevs]
      rw [hsessions, Table.find?_insert] at hk
      split_ifs at hk with hsame
      · obtain rfl := Option.some.inj hk
        refine ⟨⟨dev, hlast, hsame.symm⟩, fun j dev' hj hdev => ?_⟩
        rw [List.getElem?_eq_none (by rw [List.length_append]; exact hj)] at hdev
        cases hdev
      · obtain ⟨⟨dev', hdev, hdevId⟩, hafter⟩ := h.entry devId k hk
        refine ⟨⟨dev', by rw [List.getElem?_append_left (hearlier hdev)]; exact hdev, hdevId⟩,
          fun j dev'' hj hdev'' => ?_⟩
        obtain hold | ⟨-, rfl⟩ := getElem?_concat_cases hdev''
        · exact hafter j dev'' hj hold
        · exact fun heq => hsame heq.symm
    · rw [hdevs] at hno
      rw [hips, Table.find?_insert_ne _ (hno dev (by simp)).symm]
      exact h.stranger devId fun dev' hdev => hno dev' (List.mem_append_left _ hdev)

theorem originInv_run (config : Config) (discoveryIps : PyVal) (evs : List ServiceEvent) :
    OriginInv (.start config discoveryIps) evs ((Service.start config discoveryIps).run evs) :=
  Runs.history (P := OriginInv (.start config discoveryIps))
    ⟨rfl, (fun _ _ h => nomatch h), (fun _ _ h => nomatch h), fun _ _ => rfl⟩ (fun _ _ ev h => h.step ev) evs

/-- **Sessions come from announcements.** In every run, whatever the configuration becomes, the `k`-th session was made
when a PunchPkt of its camera came from an address that was not blacklisted then, while the camera had no session. -/
theorem session_origin (config : Config) (discoveryIps : PyVal) (evs : List ServiceEvent) {k : ℕ} {dev : DevSerial}
    (hk : ((Service.start config discoveryIps).run evs).server.devs[k]? = some dev) :
    ∃ rinfo, (Service.start config discoveryIps).Makes evs k dev rinfo := by
  obtain ⟨rinfo, hmakes, -⟩ := (originInv_run config discoveryIps evs).origin k dev hk
  exact ⟨rinfo, hmakes⟩

/-- A camera announces itself once before the endpoint of the discovery is ready, and twice after. -/
def announced : List ServiceEvent :=
  [.punch (punchA 12 [0x42]) ("192.168.1.5", 32108), .search (.ready 0 fun _ => .sent),
    .punch (punchA 12 [0x42]) ("192.168.1.5", 32108), .punch (punchA 12 [0x42]) ("192.168.1.6", 32108)]

theorem session_origin_announced :
    ∃ rinfo, (Service.start defaultConfig Discovery.broadcast).Makes announced 0 (punchSerial (punchA 12 [0x42])) rinfo :=
  session_origin defaultConfig Discovery.broadcast announced (by decide +kernel)

/-! ### Reconnects -/

/-- The `k`-th session is the newest of its camera. -/
def Server.Newest (srv : Server) (k : ℕ) (dev : DevSerial) : Prop :=
  srv.devs[k]? = some dev ∧ srv.NoneAfter k dev.devId

theorem newest_or_stranger (srv : Server) (devId : String) :
    (∀ dev ∈ srv.devs, dev.devId ≠ devId) ∨ ∃ k dev, srv.Newest k dev ∧ dev.devId = devId := by
  unfold Server.Newest Server.NoneAfter
  induction srv.devs using List.reverseRecOn with
  | nil => exact .inl fun dev hdev => (List.not_mem_nil hdev).elim
  | append_singleton devs dev ih =>
    by_cases hdev : dev.devId = devId
    · refine .inr ⟨devs.length, dev, ⟨by simp, fun j dev' hj hdev' => ?_⟩, hdev⟩
      rw [List.getElem?_eq_none (by rw [List.length_append]; exact hj)] at hdev'
      cases hdev'
    · obtain hno | ⟨k, dev', ⟨hk, hafter⟩, hdev'⟩ := ih
      · refine .inl fun dev' hmem => ?_
        obtain hmem | hmem := List.mem_append.1 hmem
        · exact hno dev' hmem
        · exact List.mem_singleton.1 hmem ▸ hdev
      · refine .inr ⟨k, dev', ⟨?_, fun j dev'' hj hdev'' => ?_⟩, hdev'⟩
        · rw [List.getElem?_append_left (List.getElem?_eq_some_iff.1 hk).1]
          exact hk
        · obtain hold | ⟨-, rfl⟩ := getElem?_concat_cases hdev''
          · exact hafter j dev'' hj hold
          · exact fun heq => hdev (heq.trans hdev')

theorem onSession_close {srv : Server} {k : ℕ} {cam : Camera} (hcam : srv.cameras[k]? = some cam) :
    srv.onSession k 0 .close = { srv.setSession k cam (onDisconnect cam.session) [.disconnect] with
      web := cam.heard srv.web [.disconnect] } := by
  rw [← hear_web cam 0]
  unfold Server.onSession
  rw [hcam]
  rfl

theorem reconnect_entry {srv : Server} {devId : String} {k : ℕ} (hk : srv.web.sessions.find? devId = some k)
    {dev : DevSerial} (hdev : srv.devs[k]? = some dev) (hdevId : dev.devId = devId) :
    (∀ devId', devId' ≠ devId → (srv.reconnect devId).web.sessions.find? devId' = srv.web.sessions.find? devId') ∧
    (∀ j : ℕ, j ≠ k → (srv.reconnect devId).cameras[j]? = srv.cameras[j]?) ∧
    (∀ cam, srv.cameras[k]? = some cam → (srv.reconnect devId).cameras[k]? =
      some { cam with session := onDisconnect cam.session, events := cam.events ++ [.disconnect] }) ∧
    ((∀ cam ∈ srv.cameras[k]?, cam.attached = true) → (srv.reconnect devId).web.sessions.find? devId = none) := by
  rw [Server.devs, List.getElem?_map, Option.map_eq_some_iff] at hdev
  obtain ⟨cam, hcam, rfl⟩ := hdev
  have hreconnect : srv.reconnect devId = srv.onSession k 0 .close := by
    unfold Server.reconnect
    rw [hk]
  rw [hreconnect, onSession_close hcam]
  refine ⟨fun devId' hne => ?_, fun j hj => (getElem?_setSession hcam _ _ j).trans (if_neg hj), fun cam' hcam' => ?_,
    fun hattached => ?_⟩
  · show (cam.heard srv.web [.disconnect]).sessions.find? devId' = _
    rw [find?_heard, if_neg fun h => hne (h.1.trans hdevId)]
  · obtain rfl := Option.some.inj (hcam.symm.trans hcam')
    exact (getElem?_setSession hcam _ _ k).trans (if_pos rfl)
  · show (cam.heard srv.web [.disconnect]).sessions.find? devId = none
    rw [find?_heard, if_pos ⟨hdevId.symm, hattached cam hcam, List.mem_singleton.2 rfl⟩]

theorem Service.run_silent {svc : Service} {devId : String} (h : svc.server.web.sessions.find? devId = none)
    (evs : List ServiceEvent) :
    ∃ made, (svc.run evs).server.devs = svc.server.devs ++ made ∧
      ((svc.run evs).server.web.sessions.find? devId = none ∨ ∃ dev ∈ made, dev.devId = devId) := by
  refine Runs.invariant (I := fun (svc' : Service) => ∃ made, svc'.server.devs = svc.server.devs ++ made ∧
    (svc'.server.web.sessions.find? devId = none ∨ ∃ dev ∈ made, dev.devId = devId))
    ⟨[], (List.append_nil _).symm, .inl h⟩ ?_ evs
  rintro svc' ev ⟨made, hmade, hnone⟩
  rcases svc'.step_devs ev with ⟨hdevs, -, hsessions⟩ | ⟨msg, rinfo, dev, -, -, -, -, hdevs, -, hsessions⟩
  · refine ⟨made, hdevs.trans hmade, hnone.imp_left fun hnone => ?_⟩
    by_contra hsome
    obtain ⟨k, hk⟩ := Option.ne_none_iff_exists'.1 hsome
    rw [hsessions devId k hk] at hnone
    cases hnone
  · refine ⟨made ++ [dev], by rw [hdevs, hmade, List.append_assoc], ?_⟩
    by_cases hdev : dev.devId = devId
    · exact .inr ⟨dev, by simp, hdev⟩
    · refine hnone.imp (fun hnone => ?_) fun ⟨dev', hmem, hdev'⟩ => ⟨dev', List.mem_append_left _ hmem, hdev'⟩
      rw [hsessions, Table.find?_insert_ne _ (Ne.symm hdev)]
      exact hnone

/-- The service has a new session for this camera. -/
def Service.Renews (svc svc' : Service) (dev : DevSerial) (rinfo : String × ℕ) : Prop :=
  svc'.server.web.sessions.find? dev.devId = some svc.server.cameras.length ∧
  ∃ cam : Camera, svc'.server.cameras[svc.server.cameras.length]? = some cam ∧ cam.session = .init dev rinfo 5000 ∧
    (cam.attached = true ↔ mergeable svc.server.web.config dev.devId = true)

theorem Service.punch_new {svc : Service} {msg : Bytes} {rinfo : String × ℕ} {dev : DevSerial}
    (hopened : svc.discovery.transport = .opened) (hannounces : Announces svc.server.web.config msg rinfo dev)
    (hnone : svc.server.web.sessions.find? dev.devId = none) : svc.Renews (svc.punch msg rinfo) dev rinfo := by
  obtain ⟨config, audioAttached, hnew⟩ := discover_new hnone rinfo
  have hserver : (svc.punch msg rinfo).server = svc.server.discovered rinfo dev config
      (withCameraDefaults svc.server.web.config dev.devId).isOk audioAttached := by
    unfold Service.punch
    rw [if_pos hopened]
    show final (handleIncomingPunch _ onDiscover msg rinfo) svc.server = _
    rw [final, hannounces.discovers (fun srv : Server => srv.web.config), ← final, hnew]
  unfold Service.Renews
  rw [hserver]
  refine ⟨Table.find?_insert_self _ _ _, _, (getElem?_discovered ..).trans (if_pos rfl), rfl, ?_⟩
  show (withCameraDefaults svc.server.web.config dev.devId).isOk = true ↔ _
  by_cases hmergeable : mergeable svc.server.web.config dev.devId = true
  · obtain ⟨config, hconfig, -⟩ := withCameraDefaults_ok hmergeable
    rw [hconfig]
    exact iff_of_true rfl hmergeable
  · obtain ⟨e, hconfig⟩ := withCameraDefaults_error hmergeable
    rw [hconfig]
    exact iff_of_false Bool.false_ne_true hmergeable

theorem Discovery.addTarget_asks {d : Discovery} (hlistening : d.listening = true) (hopened : d.transport ≠ .closed)
    (now : ℚ) (ip : String) (result : Sendto) :
    if PyKey.str ip ∈ d.active then
      (d.step (.addTarget now ip result)).probes = d.probes ++ [⟨now, .str ip, true, result⟩]
    else ⟨.str ip, now⟩ ∈ (d.step (.addTarget now ip result)).tasks := by
  have hstep : d.step (.addTarget now ip result) = d.added now (.str ip) result := by
    show final (emitAddTarget now ip result) d = _
    unfold emitAddTarget
    rw [final, get_bind_apply, if_pos hlistening, ← final]
    exact final_addTarget rfl now result d
  rw [hstep]
  unfold Discovery.added
  split_ifs
  · rfl
  · exact List.mem_append_right _ (List.mem_singleton.2 rfl)

/-- No endpoint becomes ready after its session was closed. -/
def Service.InTime (svc : Service) : ServiceEvent → Prop
  | .serve step _ => svc.server.ReadyInTime step
  | _ => True

theorem Service.sessionsInv_step {svc : Service} (h : SessionsInv svc.server) {ev : ServiceEvent} (htime : svc.InTime ev) :
    SessionsInv (svc.step ev).server := by
  cases ev with
  | search step => exact h
  | serve step hstep => exact h.step htime
  | reconnect now devId result =>
    rw [Service.step]
    obtain hsame | hserver := (reconnect_cases svc now devId result).1
    · rwa [hsame]
    · rw [hserver]
      exact h.reconnect devId
  | punch msg rinfo =>
    rw [Service.step]
    rcases punch_server svc msg rinfo with hsame | ⟨-, dev, -, hpunch⟩
    · rwa [hsame]
    · rw [hpunch]
      exact h.discover rinfo dev

/-- A reconnect leaves no session of the camera that is live, if those before it were held. -/
theorem SessionsInv.reconnect_ends {srv : Server} (h : SessionsInv srv) {devId : String} {j : ℕ} {cam : Camera}
    (hcam : (srv.reconnect devId).cameras[j]? = some cam) (hdevId : cam.devId = devId) : ¬cam.session.life.Live := by
  intro hlive
  have hafter := h.reconnect devId
  have hconnected := hafter.live j cam hcam hlive
  cases hfind : srv.web.sessions.find? devId with
  | none =>
    have hsame : srv.reconnect devId = srv := by
      unfold Server.reconnect
      rw [hfind]
    rw [hsame] at hcam
    have hheld := h.held j cam hcam hconnected
    rw [hdevId, hfind] at hheld
    cases hheld
  | some k =>
    obtain ⟨old, hold, hdev⟩ := h.valid devId k hfind
    have hdevs : srv.devs[k]? = some old.session.dev := by
      rw [Server.devs, List.getElem?_map, hold]
      rfl
    obtain ⟨-, hothers, hclosed, -⟩ := reconnect_entry hfind hdevs hdev
    by_cases hj : j = k
    · subst hj
      rw [hclosed old hold] at hcam
      obtain rfl := Option.some.inj hcam
      have hend : (onDisconnect old.session).connected = false := connected_onDisconnect old.session
      rw [hend] at hconnected
      cases hconnected
    · rw [hothers j hj] at hcam
      have hheld := h.held j cam hcam hconnected
      rw [hdevId, hfind] at hheld
      exact hj (Option.some.inj hheld).symm

/-- From `svc` to `svc'` the session of a camera was closed, and the camera is searched at this address. -/
structure Service.Recovers (svc svc' : Service) (now : ℚ) (k : ℕ) (devId address : String) (result : Sendto) :
    Prop where
  closed : ∀ k', svc.server.web.sessions.find? devId = some k' → k' = k ∧
    ∀ cam, svc.server.cameras[k]? = some cam → svc'.server.cameras[k]? =
      some { cam with session := onDisconnect cam.session, events := cam.events ++ [.disconnect] }
  unheld : svc.server.web.sessions.find? devId = none → svc'.server = svc.server
  others : ∀ devId', devId' ≠ devId →
    svc'.server.web.sessions.find? devId' = svc.server.web.sessions.find? devId'
  untouched : ∀ j : ℕ, j ≠ k → svc'.server.cameras[j]? = svc.server.cameras[j]?
  searched : address ≠ "" → svc.discovery.listening = true → svc.discovery.transport ≠ .closed →
    if .str address ∈ svc.discovery.active then
      svc'.discovery.probes = svc.discovery.probes ++ [⟨now, .str address, true, result⟩]
    else ⟨.str address, now⟩ ∈ svc'.discovery.tasks
  renewed : (∀ cam ∈ svc.server.cameras[k]?, cam.attached = true) → ∀ evs, ∃ made,
    (svc'.run evs).server.devs = svc.server.devs ++ made ∧ ((∀ dev ∈ made, dev.devId ≠ devId) →
      (svc'.run evs).server.web.sessions.find? devId = none ∧
      ∀ msg rinfo dev, dev.devId = devId → (svc'.run evs).discovery.transport = .opened →
        Announces (svc'.run evs).server.web.config msg rinfo dev →
          (svc'.run evs).Renews ((svc'.run evs).step (.punch msg rinfo)) dev rinfo)

theorem OriginInv.entry_newest {start : Service} {seen : List ServiceEvent} {svc : Service} (h : OriginInv start seen svc)
    {k : ℕ} {dev : DevSerial} (hnewest : svc.server.Newest k dev) {k' : ℕ}
    (hk' : svc.server.web.sessions.find? dev.devId = some k') : k' = k := by
  obtain ⟨⟨dev', hdev', hdevId'⟩, hafter⟩ := h.entry dev.devId k' hk'
  by_contra hne
  obtain hlt | hlt := Nat.lt_or_gt_of_ne hne
  · exact hafter k dev hlt hnewest.1 rfl
  · exact hnewest.2 k' dev' hlt hdev' hdevId'

theorem OriginInv.recovers {start : Service} {seen : List ServiceEvent} {svc : Service} (h : OriginInv start seen svc)
    {k : ℕ} {dev : DevSerial} (hnewest : svc.server.Newest k dev) {address : String}
    (hip : svc.server.web.cameraIps.find? dev.devId = some address) (now : ℚ) (result : Sendto) :
    (final (handleReconnect now dev.devId result) svc).server = svc.server.reconnect dev.devId ∧
      svc.Recovers (final (handleReconnect now dev.devId result) svc) now k dev.devId address result := by
  have hknown := handleReconnect_known hip now result
  have hserver : (final (handleReconnect now dev.devId result) svc).server = svc.server.reconnect dev.devId := by
    rw [final, hknown]
    split_ifs <;> rfl
  have hunheld : svc.server.web.sessions.find? dev.devId = none → svc.server.reconnect dev.devId = svc.server := by
    intro hnone
    unfold Server.reconnect
    rw [hnone]
  have hheld : ∀ k', svc.server.web.sessions.find? dev.devId = some k' →
      k' = k ∧ svc.server.web.sessions.find? dev.devId = some k := by
    intro k' hk'
    obtain rfl := h.entry_newest hnewest hk'
    exact ⟨rfl, hk'⟩
  have hgone : (∀ cam ∈ svc.server.cameras[k]?, cam.attached = true) →
      (svc.server.reconnect dev.devId).web.sessions.find? dev.devId = none := by
    intro hattached
    cases hfind : svc.server.web.sessions.find? dev.devId with
    | none => rwa [hunheld hfind]
    | some k' => exact (reconnect_entry (hheld k' hfind).2 hnewest.1 rfl).2.2.2 hattached
  refine ⟨hserver, ?_⟩
  constructor
  case closed =>
    intro k' hk'
    rw [hserver]
    exact ⟨(hheld k' hk').1, (reconnect_entry (hheld k' hk').2 hnewest.1 rfl).2.2.1⟩
  case unheld =>
    intro hnone
    exact hserver.trans (hunheld hnone)
  case others =>
    intro devId' hne
    rw [hserver]
    cases hfind : svc.server.web.sessions.find? dev.devId with
    | none => rw [hunheld hfind]
    | some k' => exact (reconnect_entry (hheld k' hfind).2 hnewest.1 rfl).1 devId' hne
  case untouched =>
    intro j hj
    rw [hserver]
    cases hfind : svc.server.web.sessions.find? dev.devId with
    | none => rw [hunheld hfind]
    | some k' => exact (reconnect_entry (hheld k' hfind).2 hnewest.1 rfl).2.1 j hj
  case searched =>
    intro haddress hlistening hopened
    have hdiscovery : (final (handleReconnect now dev.devId result) svc).discovery =
        svc.discovery.step (.addTarget now address result) := by
      rw [final, hknown, if_neg fun hlost => hopened hlost.2.2.2, if_neg haddress]
    rw [hdiscovery]
    exact Discovery.addTarget_asks hlistening hopened now address result
  case renewed =>
    intro hattached evs
    obtain ⟨made, hmade, hnone⟩ := Service.run_silent (hserver ▸ hgone hattached) evs
    have hdevs : (svc.server.reconnect dev.devId).devs = svc.server.devs :=
      (@step_devs svc.server (.reconnect dev.devId) rfl).1
    rw [hserver, hdevs] at hmade
    refine ⟨made, hmade, fun hnew => ?_⟩
    have hsilent := hnone.resolve_right (by rintro ⟨dev', hmem, hdev'⟩; exact hnew dev' hmem hdev')
    refine ⟨hsilent, fun msg rinfo dev' hdevId hopened hannounces => ?_⟩
    exact Service.punch_new hopened hannounces (hdevId ▸ hsilent)

/-- **A reconnect recovers a camera.** In every run a reconnect of a camera that never had a session is refused and
changes nothing. Any other closes the newest session of the camera, if `sessions` holds it, without touching another one,
and asks for the address it was made from; in a run in which no endpoint became ready after its session was closed, none
of the camera's sessions goes on. If that session had its listeners, the camera has no entry from then on until it is
announced again, and gets a new session when it is. -/
theorem reconnect_recovers (config : Config) (discoveryIps : PyVal) (evs : List ServiceEvent) (now : ℚ)
    (devId : String) (result : Sendto) :
    let svc := (Service.start config discoveryIps).run evs
    let svc' := final (handleReconnect now devId result) svc
    ((∀ dev ∈ svc.server.devs, dev.devId ≠ devId) ∧ handleReconnect now devId result svc = .ok .unknownCamera svc) ∨
    ∃ k dev rinfo, dev.devId = devId ∧ svc.server.Newest k dev ∧
      (Service.start config discoveryIps).Makes evs k dev rinfo ∧
      outcome (handleReconnect now devId result) svc =
        (if rinfo.1 ≠ "" ∧ svc.discovery.Lost rinfo.1 then .error .attributeError
        else .ok (.reconnecting (some rinfo.1))) ∧
      svc.Recovers svc' now k devId rinfo.1 result ∧
      (Runs.Guarded Service.step Service.InTime (.start config discoveryIps) evs →
        ∀ (j : ℕ) (cam : Camera), svc'.server.cameras[j]? = some cam → cam.devId = devId → ¬cam.session.life.Live) := by
  have hinv := originInv_run config discoveryIps evs
  intro svc svc'
  change OriginInv _ evs svc at hinv
  obtain hno | ⟨k, dev, hnewest, rfl⟩ := newest_or_stranger svc.server devId
  · refine .inl ⟨hno, ?_⟩
    have hentry : svc.server.web.sessions.find? devId = none := by
      by_contra hsome
      obtain ⟨k, hk⟩ := Option.ne_none_iff_exists'.1 hsome
      obtain ⟨⟨dev, hdev, hdevId⟩, -⟩ := hinv.entry devId k hk
      exact hno dev (List.mem_of_getElem? hdev) hdevId
    exact handleReconnect_stranger hentry (hinv.stranger devId hno) now result
  · obtain ⟨rinfo, hmakes, hip⟩ := hinv.origin k dev hnewest.1
    obtain ⟨hserver, hrecovers⟩ := hinv.recovers hnewest (hip hnewest.2) now result
    refine .inr ⟨k, dev, rinfo, rfl, hnewest, hmakes, ?_, hrecovers, ?_⟩
    · rw [outcome, handleReconnect_known (hip hnewest.2) now result]
      split_ifs <;> rfl
    · intro htime j cam hcam hdevId
      have hsessions : SessionsInv svc.server :=
        Runs.guarded (I := fun svc : Service => SessionsInv svc.server) (sessionsInv_start config)
          (fun _ _ h htime => Service.sessionsInv_step h htime) htime
      rw [hserver] at hcam
      exact hsessions.reconnect_ends hcam hdevId

end CamReverse
