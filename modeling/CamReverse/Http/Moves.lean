import CamReverse.Http.Clients
import CamReverse.Http.Launch
import CamReverse.Http.Overlay
import CamReverse.Http.Usable
import CamReverse.Lib.Written

/-!
# What a process keeps

A step of the server loses no target: the configuration lists those it listed, and the discovery searches those it
searched. What a step saves is a configuration of this process (`moves_step`). Targets are lost where a list without
them is overlaid, and a file may be where a write of it breaks off.
-/

namespace CamReverse

open Effect Edits

variable {Text : Type}

/-! ### What is written to the configuration -/

/-- A write to the cameras. -/
def ToCameras (k : String) (_ : PyVal) : Prop := k = "cameras"

theorem along_updateConfig {R : Config → Config → Prop} [IsPreorder Config R] {f : Config → Except PyErr Config}
    (hf : ∀ config config', f config = .ok config' → R config config') : Along (ε := PyErr) R (updateConfig f) := by
  refine Along.get_bind fun config => ?_
  cases hconfig : f config with
  | ok config' =>
    rw [liftM_eq_lift, lift_ok_bind]
    exact hf config config' hconfig
  | error e => exact refl_of R config

theorem written_setCameraConfig {config config' : Config} {devId : String} {v : PyVal}
    (h : setCameraConfig config devId v = .ok config') : Table.Written ToCameras config config' := by
  unfold setCameraConfig at h
  obtain ⟨cameras, -, h⟩ := except_bind_eq_ok h
  cases cameras with
  | dict cams =>
    obtain rfl := Except.ok.inj h
    exact Table.Written.put (P := ToCameras) rfl config
  | _ => cases h

theorem written_setCameraField {config config' : Config} {devId k : String} {v : PyVal}
    (h : setCameraField config devId k v = .ok config') : Table.Written ToCameras config config' := by
  unfold setCameraField at h
  obtain ⟨cam, -, h⟩ := except_bind_eq_ok h
  cases cam with
  | dict kvs => exact written_setCameraConfig h
  | _ => cases h

theorem written_rotate (devId : String) : Along (ε := PyErr) (Table.Written ToCameras) (handleRotate devId) := by
  refine along_updateConfig fun config config' h => ?_
  obtain ⟨cam, -, h⟩ := except_bind_eq_ok h
  obtain ⟨cur, -, h⟩ := except_bind_eq_ok h
  obtain ⟨nxt, -, h⟩ := except_bind_eq_ok h
  exact written_setCameraField h

theorem written_mirror (devId : String) : Along (ε := PyErr) (Table.Written ToCameras) (handleMirror devId) := by
  refine along_updateConfig fun config config' h => ?_
  obtain ⟨cam, -, h⟩ := except_bind_eq_ok h
  obtain ⟨mirror, -, h⟩ := except_bind_eq_ok h
  exact written_setCameraField h

/-- A write to the cameras, or one of an overlay. -/
def OfOverlay (new : List (String × PyVal)) (k : String) (v : PyVal) : Prop := k = "cameras" ∨ (k, v) ∈ new

theorem written_applyConfig (new : List (String × PyVal)) :
    Along (ε := PyErr) (Table.Written (OfOverlay new)) (applyConfig new) := by
  refine Along.forM fun item hitem => ?_
  obtain ⟨key, value⟩ := item
  show Along _ (applyItem key value)
  unfold applyItem
  split
  · rename_i cams
    refine Along.bind (Along.modify fun config => ?_) fun _ => Along.forM fun cam _ => ?_
    · unfold setDefault
      split_ifs
      · exact refl_of (Table.Written (OfOverlay new)) config
      · exact Table.Written.put (.inl rfl) config
    · refine along_updateConfig fun config config' h => ?_
      obtain ⟨cfg, -, h⟩ := except_bind_eq_ok h
      obtain ⟨merged, -, h⟩ := except_bind_eq_ok h
      exact (written_setCameraConfig h).mono fun _ _ => .inl
  · exact Along.modify fun config => Table.Written.put (.inr hitem) config

theorem written_reloadConfig (file : Option PyVal) :
    Along (ε := PyErr) (Table.Written (OfOverlay (ConfigRequest.configReload file).overlaid)) (reloadConfig file) := by
  unfold reloadConfig
  cases file with
  | none => exact Along.pure _
  | some parsed =>
    dsimp only [ConfigRequest.overlaid]
    split
    · exact written_applyConfig _
    · exact Along.lift (.error _)

theorem written_discover (srv : Server) (rinfo : String × ℕ) (dev : DevSerial) :
    Table.Written ToCameras srv.web.config (final (onDiscover rinfo dev) srv).web.config := by
  cases hknown : srv.web.sessions.find? dev.devId with
  | some k =>
    rw [discover_known (by rw [hknown]; rfl)]
    exact refl_of (Table.Written ToCameras) _
  | none =>
    by_cases hmergeable : mergeable srv.web.config dev.devId = true
    · obtain ⟨cameras, given, hcameras, hgiven⟩ := cameraConfig_of_mergeable hmergeable
      obtain ⟨audio, haudio⟩ := (hasEntry_put srv.web.config cameras dev.devId _).cameraAudio
      rw [final, discover_ok hknown (withCameraDefaults_eq hcameras hgiven) haudio]
      exact Table.Written.put (P := ToCameras) rfl srv.web.config
    · obtain ⟨e, hconfig⟩ := withCameraDefaults_error hmergeable
      rw [final, discover_error hknown hconfig]
      exact refl_of (Table.Written ToCameras) _

theorem written_step (srv : Server) {step : ServerStep} (hstep : step.configures = false) :
    Table.Written ToCameras srv.web.config (srv.step step).web.config := by
  rcases step_cases srv step with hclient | ⟨rinfo, dev, rfl⟩ | ⟨config, rfl⟩ | ⟨-, hsame⟩ | ⟨k, now, c, -, hsession⟩
  · rw [(client_keeps srv hclient).2.2.2]
    exact refl_of (Table.Written ToCameras) _
  · exact written_discover srv rinfo dev
  · cases hstep
  · rw [hsame]
    exact refl_of (Table.Written ToCameras) _
  · rw [hsession, (onSession_leaves srv k now c).2.1]
    exact refl_of (Table.Written ToCameras) _

theorem written_event (svc : Service) {ev : ServiceEvent} (hev : ev.outside = true) :
    Table.Written ToCameras svc.server.web.config (svc.step ev).server.web.config := by
  have hsame : Table.Written ToCameras svc.server.web.config svc.server.web.config :=
    refl_of (Table.Written ToCameras) _
  cases ev with
  | punch msg rinfo =>
    rw [Service.step]
    rcases punch_server svc msg rinfo with h | ⟨-, dev, -, h⟩
    · rw [h]
      exact hsame
    · rw [h]
      exact written_discover svc.server rinfo dev
  | reconnect now devId result =>
    rw [Service.step]
    rcases (reconnect_cases svc now devId result).1 with h | h
    · rw [h]
      exact hsame
    · rw [h]
      exact @written_step svc.server (.reconnect devId) rfl
  | search step => exact hsame
  | serve step hstep =>
    refine written_step svc.server ?_
    simpa [ServiceEvent.outside] using hev

/-! ### What is searched -/

namespace Discovery

/-- Every target has its task as long as the transport is open, which only a LanSearch has ended. -/
structure Tracks (d : Discovery) : Prop where
  idle : d.transport = .absent → d.tasks = [] ∧ d.active = [] ∧ d.listening = false
  tracked : d.transport = .opened → ∀ ip ∈ d.active, ip ∈ d.tasks.map Blast.ip
  lost : d.transport = .closing ∨ d.transport = .closed → ∃ p ∈ d.probes, p.result = .fatal

/-- The target has a task, or will get one when the endpoint is ready, unless a LanSearch raised what is no `OSError`. -/
def Searches (d : Discovery) (ip : String) : Prop :=
  match d.transport with
  | .absent => .str ip ∈ configured d.discoveryIps
  | .opened => .str ip ∈ d.tasks.map Blast.ip
  | .closing => ∃ p ∈ d.probes, p.result = .fatal
  | .closed => ∃ p ∈ d.probes, p.result = .fatal

theorem Tracks.searches {d : Discovery} (h : d.Tracks) {ip : String}
    (habsent : d.transport = .absent → .str ip ∈ configured d.discoveryIps)
    (hopened : d.transport = .opened → .str ip ∈ d.tasks.map Blast.ip) : d.Searches ip := by
  unfold Searches
  cases htransport : d.transport with
  | absent => exact habsent htransport
  | opened => exact hopened htransport
  | closing => exact h.lost (.inl htransport)
  | closed => exact h.lost (.inr htransport)

theorem tracks_start (discoveryIps : PyVal) : (Discovery.start discoveryIps).Tracks where
  idle _ := ⟨rfl, rfl, rfl⟩
  tracked := by rintro ⟨⟩
  lost := by rintro (⟨⟨⟩⟩ | ⟨⟨⟩⟩)

/-- From `d` to `d'`, whose endpoint is there, no task is lost as long as the transport is open. -/
structure Keeps (d d' : Discovery) : Prop where
  tracks : d'.Tracks
  there : d'.transport ≠ .absent
  tasks : d'.transport = .opened → d.transport = .opened ∧ d.tasks.map Blast.ip ⊆ d'.tasks.map Blast.ip

theorem Keeps.searches {d d' : Discovery} (h : d.Keeps d') {ip : String} (hip : d.Searches ip) : d'.Searches ip := by
  refine h.tracks.searches (fun habsent => absurd habsent h.there) fun hopened => ?_
  obtain ⟨hwas, htasks⟩ := h.tasks hopened
  unfold Searches at hip
  rw [hwas] at hip
  exact htasks hip

theorem Tracks.keeps {d : Discovery} (h : d.Tracks) (hthere : d.transport ≠ .absent) : d.Keeps d :=
  ⟨h, hthere, fun hopened => ⟨hopened, List.Subset.refl _⟩⟩

theorem Tracks.probed {d : Discovery} (h : d.Tracks) (hthere : d.transport ≠ .absent) (now : ℚ) (ip : PyKey)
    (nudge : Bool) (result : Sendto) : d.Keeps (d.probed now ip nudge result) := by
  rcases probed_transport d now ip nudge result with hsame | ⟨hclosing, hfatal⟩
  · refine ⟨⟨fun habsent => absurd (hsame.symm.trans habsent) hthere, fun hopened => h.tracked (hsame ▸ hopened),
      fun hlost => ?_⟩, hsame ▸ hthere, fun hopened => ⟨hsame ▸ hopened, List.Subset.refl _⟩⟩
    rw [hsame] at hlost
    obtain ⟨p, hp, hresult⟩ := h.lost hlost
    exact ⟨p, List.mem_append_left _ hp, hresult⟩
  · refine ⟨⟨fun habsent => ?_, fun hopened => ?_, fun _ => ?_⟩, ?_, fun hopened => ?_⟩
    · cases hclosing.symm.trans habsent
    · cases hclosing.symm.trans hopened
    · exact ⟨_, List.mem_append_right _ (List.mem_singleton_self _), hfatal⟩
    · rw [hclosing]
      rintro ⟨⟩
    · cases hclosing.symm.trans hopened

theorem Tracks.added {d : Discovery} (h : d.Tracks) (hthere : d.transport ≠ .absent) (now : ℚ) (ip : PyKey)
    (result : Sendto) : d.Keeps (d.added now ip result) ∧
      ((d.added now ip result).transport = .opened → ip ∈ (d.added now ip result).tasks.map Blast.ip) := by
  unfold Discovery.added
  split_ifs with hip hclosed
  · exact ⟨h.keeps hthere, fun hopened => h.tracked hopened ip hip⟩
  · have hprobed := h.probed hthere now ip true result
    exact ⟨hprobed, fun hopened => (hprobed.tasks hopened).2 (h.tracked (hprobed.tasks hopened).1 ip hip)⟩
  · have hmap : (d.tasks ++ [(⟨ip, now⟩ : Blast)]).map Blast.ip = d.tasks.map Blast.ip ++ [ip] := List.map_append
    refine ⟨⟨⟨fun habsent => absurd habsent hthere, fun hopened ip' hip' => ?_, h.lost⟩, hthere,
      fun hopened => ⟨hopened, ?_⟩⟩, fun _ => ?_⟩
    · rw [hmap]
      exact (List.mem_append.1 hip').elim (fun hold => List.mem_append_left _ (h.tracked hopened ip' hold))
        (List.mem_append_right _)
    · rw [hmap]
      exact List.subset_append_left _ _
    · rw [hmap]
      exact List.mem_append_right _ (List.mem_singleton_self ip)

theorem Tracks.ready {d : Discovery} (h : d.Tracks) (habsent : d.transport = .absent) (now : ℚ) (results : ℕ → Sendto) :
    (final (ready now results) d).Tracks ∧ (final (ready now results) d).transport ≠ .absent ∧
      ((final (ready now results) d).transport = .opened →
        ∀ ip ∈ configured d.discoveryIps, ip ∈ (final (ready now results) d).tasks.map Blast.ip) := by
  have hopened : Tracks { d with transport := .opened } := by
    refine ⟨by rintro ⟨⟩, fun _ ip hip => ?_, by rintro (⟨⟨⟩⟩ | ⟨⟨⟩⟩)⟩
    change ip ∈ d.active at hip
    rw [(h.idle habsent).2.1] at hip
    cases hip
  have hrule := ready_rule (P := fun asks d => d.Tracks ∧
      (d.transport = .opened → ∀ ask ∈ asks, ask.2 ∈ d.tasks.map Blast.ip)) now results
    (fun asks d ip result hthere hd => ?_) (fun asks d hthere hd => ?_) ⟨hopened, fun _ => List.forall_mem_nil _⟩
  · obtain ⟨⟨htracks, hasks⟩, hthere⟩ := hrule
    refine ⟨htracks, hthere, fun hopened ip hip => hasks hopened (now, ip) ?_⟩
    rw [List.nil_append]
    exact List.mem_map_of_mem hip
  · obtain ⟨hkeeps, hmem⟩ := hd.1.added hthere now ip result
    refine ⟨hkeeps.tracks, fun hopened ask hask => ?_⟩
    obtain hask | hask := List.mem_append.1 hask
    · exact (hkeeps.tasks hopened).2 (hd.2 (hkeeps.tasks hopened).1 ask hask)
    · rw [List.mem_singleton.1 hask]
      exact hmem hopened
  · exact ⟨⟨fun habsent => absurd habsent hthere, hd.1.tracked, hd.1.lost⟩, hd.2⟩

theorem Tracks.blast {d : Discovery} (h : d.Tracks) (hthere : d.transport ≠ .absent) (now : ℚ) (i : ℕ)
    (result : Sendto) : d.Keeps (d.blast now i result) := by
  rcases blast_cases d now i result with hsame | ⟨task, htask, -, ⟨hclosed, hblast⟩ | ⟨-, hblast⟩⟩
  · rw [hsame]
    exact h.keeps hthere
  · rw [hblast]
    refine ⟨⟨fun habsent => absurd habsent hthere, fun hopened => ?_, h.lost⟩, hthere, fun hopened => ?_⟩
    · cases hclosed.symm.trans hopened
    · cases hclosed.symm.trans hopened
  · have hprobed := h.probed hthere now task.ip false result
    have hips := ips_set htask (now + 3000)
    rw [hblast]
    refine ⟨⟨fun habsent => absurd habsent hprobed.there, fun hopened ip hip => ?_, hprobed.tracks.lost⟩, hprobed.there,
      fun hopened => ?_⟩
    · show ip ∈ (d.tasks.set i { task with wakeAt := now + 3000 }).map Blast.ip
      rw [hips]
      exact hprobed.tracks.tracked hopened ip hip
    · refine ⟨(hprobed.tasks hopened).1, ?_⟩
      show _ ⊆ (d.tasks.set i { task with wakeAt := now + 3000 }).map Blast.ip
      rw [hips]
      exact List.Subset.refl _

theorem Tracks.addTarget {d : Discovery} (h : d.Tracks) (hlistening : d.listening = true) (now : ℚ) (ip : String)
    (result : Sendto) : d.Keeps (d.step (.addTarget now ip result)) ∧
      (d.step (.addTarget now ip result)).Searches ip := by
  have hthere : d.transport ≠ .absent := fun habsent => by
    rw [(h.idle habsent).2.2] at hlistening
    cases hlistening
  have hstep : d.step (.addTarget now ip result) = d.added now (.str ip) result := by
    rw [Discovery.step, emitAddTarget, final, get_bind_apply, if_pos hlistening, ← final, final_addTarget rfl]
  obtain ⟨hkeeps, hmem⟩ := h.added hthere now (.str ip) result
  rw [hstep]
  exact ⟨hkeeps, hkeeps.tracks.searches (fun habsent => absurd habsent hkeeps.there) hmem⟩

/-- **One step**, of those the server makes. -/
theorem Tracks.step {d : Discovery} (h : d.Tracks) {step : DiscoveryStep} (hstep : step ≠ .close) :
    (d.step step).Tracks ∧ ∀ ip, d.Searches ip → (d.step step).Searches ip := by
  have hsame : d.Tracks ∧ ∀ ip, d.Searches ip → d.Searches ip := ⟨h, fun _ => id⟩
  cases step with
  | close => exact absurd rfl hstep
  | ready now results =>
    rw [Discovery.step]
    split_ifs with habsent
    · obtain ⟨htracks, hthere, hips⟩ := h.ready habsent now results
      refine ⟨htracks, fun ip hip => htracks.searches (fun habsent' => absurd habsent' hthere) fun hopened => ?_⟩
      unfold Searches at hip
      rw [habsent] at hip
      exact hips hopened _ hip
    · exact hsame
  | addTarget now ip result =>
    by_cases hlistening : d.listening = true
    · have hkeeps := (h.addTarget hlistening now ip result).1
      exact ⟨hkeeps.tracks, fun _ => hkeeps.searches⟩
    · have hignored : d.step (.addTarget now ip result) = d := by
        rw [Discovery.step, emitAddTarget, final, get_bind_apply, if_neg hlistening]
        rfl
      rw [hignored]
      exact hsame
  | blast now i result =>
    rw [Discovery.step]
    by_cases habsent : d.transport = .absent
    · rw [blast_idle (h.idle habsent).1]
      exact hsame
    · have hkeeps := h.blast habsent now i result
      exact ⟨hkeeps.tracks, fun _ => hkeeps.searches⟩
  | connectionLost =>
    rw [Discovery.step]
    split_ifs with hclosing
    · have hfatal := h.lost (.inl hclosing)
      have htracks : Tracks { d with transport := .closed } :=
        ⟨by rintro ⟨⟩, by rintro ⟨⟩, fun _ => hfatal⟩
      exact ⟨htracks, fun ip _ => htracks.searches (by rintro ⟨⟩) (by rintro ⟨⟩)⟩
    · exact hsame

end Discovery

/-! ### What is listed -/

/-- A value of `discovery_ips` whose targets have this one. -/
def PyVal.Lists (v : PyVal) (ip : String) : Prop := .str ip ∈ Discovery.configured v

def ListsIp (config : Config) (ip : String) : Prop := ∃ v, config.lookup "discovery_ips" = some v ∧ v.Lists ip

/-- From `config` to `config'` none of these targets is lost. -/
structure Held (T : String → Prop) (config config' : Config) : Prop where
  written : Table.Written (fun _ _ => True) config config'
  targets : ∀ ip, T ip → ListsIp config ip → ListsIp config' ip

variable {T : String → Prop}

instance : IsPreorder Config (Held T) where
  refl config := ⟨refl_of (Table.Written fun _ _ => True) config, fun _ _ => id⟩
  trans _ _ _ h h' := ⟨trans_of (Table.Written fun _ _ => True) h.written h'.written,
    fun ip hip hlists => h'.targets ip hip (h.targets ip hip hlists)⟩

theorem Held.of_written {P : String → PyVal → Prop} {config config' : Config} (h : Table.Written P config config')
    (hP : ∀ ip, T ip → ∀ v, P "discovery_ips" v → v.Lists ip) : Held T config config' where
  written := h.mono fun _ _ _ => trivial
  targets ip hip hlists := h.keeps (hP ip hip) hlists

theorem Held.of_cameras {config config' : Config} (h : Table.Written ToCameras config config') :
    Held T config config' :=
  .of_written h fun _ _ _ hkey => absurd hkey (show "discovery_ips" ≠ "cameras" by decide)

/-- The overlay lists these targets, if it lists any. -/
def Lists (T : String → Prop) (new : List (String × PyVal)) : Prop :=
  ∀ ip, T ip → ∀ v, ("discovery_ips", v) ∈ new → v.Lists ip

theorem Held.of_overlay {new : List (String × PyVal)} (hnew : Lists T new) {config config' : Config}
    (h : Table.Written (OfOverlay new) config config') : Held T config config' :=
  .of_written h fun ip hip v hv => hnew ip hip v (hv.resolve_left (by decide))

theorem appendIp_ok {ip : String} {config config' : Config} (h : appendIp ip config = .ok config') :
    ∃ ips, config.lookup "discovery_ips" = some (.list ips) ∧
      config' = Table.put config "discovery_ips" (.list (ips ++ [.str ip])) := by
  unfold appendIp configIps at h
  cases hlookup : config.lookup "discovery_ips" with
  | none =>
    rw [hlookup] at h
    cases h
  | some v =>
    rw [hlookup, except_ok_bind] at h
    cases v with
    | list ips => exact ⟨ips, rfl, (Except.ok.inj h).symm⟩
    | _ => cases h

theorem Discovery.targets_append (vs vs' : List PyVal) : targets vs <+: targets (vs ++ vs') := by
  induction vs with
  | nil => exact List.nil_prefix
  | cons v vs ih =>
    rw [List.cons_append, targets, targets]
    cases v.key with
    | error e => exact List.nil_prefix
    | ok ip => exact List.cons_prefix_cons.2 ⟨rfl, ih⟩

theorem Discovery.mem_targets {vs : List PyVal} (h : ∀ v ∈ vs, ∃ ip, v.key = .ok ip) {v : PyVal} {ip : PyKey}
    (hv : v ∈ vs) (hip : v.key = .ok ip) : ip ∈ targets vs := by
  induction vs with
  | nil => cases hv
  | cons v' vs ih =>
    rw [List.forall_mem_cons] at h
    obtain ⟨ip', hip'⟩ := h.1
    rw [targets, hip']
    obtain rfl | hv := List.mem_cons.1 hv
    · obtain rfl := Except.ok.inj (hip'.symm.trans hip)
      exact List.mem_cons_self
    · exact List.mem_cons_of_mem _ (ih h.2 hv)

theorem held_appendIp {ip : String} {config config' : Config} (h : appendIp ip config = .ok config') :
    Held T config config' := by
  obtain ⟨ips, hips, rfl⟩ := appendIp_ok h
  refine ⟨Table.Written.put trivial config, fun ip' _ hlists => ?_⟩
  obtain ⟨v, hv, hmem⟩ := hlists
  obtain rfl := Option.some.inj (hips.symm.trans hv)
  exact ⟨_, Table.lookup_put_self config "discovery_ips" _, (Discovery.targets_append ips [.str ip]).subset hmem⟩

/-- The entries of `discovery_ips` can be keys. -/
def KeysOnly (config : Config) : Prop :=
  ∀ ips, config.lookup "discovery_ips" = some (.list ips) → ∀ v ∈ ips, ∃ ip, v.key = .ok ip

theorem lists_appendIp {ip : String} {config config' : Config} (h : appendIp ip config = .ok config')
    (hkeys : KeysOnly config) : ListsIp config' ip := by
  obtain ⟨ips, hips, rfl⟩ := appendIp_ok h
  have hall : ∀ v ∈ ips ++ [.str ip], ∃ ip, v.key = .ok ip := by
    intro v hv
    obtain hv | hv := List.mem_append.1 hv
    · exact hkeys ips hips v hv
    · exact ⟨.str ip, by rw [List.mem_singleton.1 hv]; rfl⟩
  exact ⟨_, Table.lookup_put_self config "discovery_ips" _, Discovery.mem_targets hall (v := .str ip) (by simp) rfl⟩

/-! ### What a process does -/

/-- The file at this path lists this target. -/
def FileLists (y : Yaml Text) (files : Table String Text) (path ip : String) : Prop :=
  ∃ text parsed, files.find? path = some text ∧ y.safeLoad text = .ok (.dict parsed) ∧ ListsIp parsed ip

/-- From `m` to `m'` a process lost none of these targets; what it saved, if it may, is a configuration it had in
between, unless a write may break off. -/
structure Machine.Moves (y : Yaml Text) (T : String → Prop) (S B : Prop) (m m' : Machine Text) : Prop where
  config : Held T m.settings.config m'.settings.config
  discovery : m.service.discovery.Tracks → m'.service.discovery.Tracks ∧
    ∀ ip, m.service.discovery.Searches ip → m'.service.discovery.Searches ip
  path : m'.path = m.path
  other : ∀ path ≠ m.path, m'.files.find? path = m.files.find? path
  file : m'.files.find? m.path = m.files.find? m.path ∨
    (S ∧ ∃ config, Held T m.settings.config config ∧ m'.files.find? m.path = some (y.safeDump config)) ∨ B

variable {y : Yaml Text} {S B : Prop}

instance : IsPreorder (Machine Text) (Machine.Moves y T S B) where
  refl m := ⟨refl_of (Held T) _, fun h => ⟨h, fun _ => id⟩, rfl, fun _ _ => rfl, .inl rfl⟩
  trans m m' m'' h h' := by
    refine ⟨trans_of (Held T) h.config h'.config, fun htracks => ?_, h'.path.trans h.path, fun path hpath => ?_, ?_⟩
    · obtain ⟨htracks', hsearches⟩ := h.discovery htracks
      obtain ⟨htracks'', hsearches'⟩ := h'.discovery htracks'
      exact ⟨htracks'', fun ip hip => hsearches' ip (hsearches ip hip)⟩
    · exact (h'.other path (h.path.symm ▸ hpath)).trans (h.other path hpath)
    · rcases h'.file with hsame | ⟨hS, config, hheld, hsaved⟩ | hB
      · rw [h.path] at hsame
        refine h.file.imp hsame.trans (Or.imp_left ?_)
        rintro ⟨hS, config, hheld, hsaved⟩
        exact ⟨hS, config, hheld, hsame.trans hsaved⟩
      · rw [h.path] at hsaved
        exact .inr (.inl ⟨hS, config, trans_of (Held T) h.config hheld, hsaved⟩)
      · exact .inr (.inr hB)

theorem moves_setConfig {m : Machine Text} {config : Config} (h : Held T m.settings.config config) :
    m.Moves y T S B (m.setConfig config) :=
  ⟨h, fun htracks => ⟨htracks, fun _ => id⟩, rfl, fun _ _ => rfl, .inl rfl⟩

theorem moves_service {m : Machine Text} {svc : Service}
    (hconfig : Held T m.settings.config svc.server.web.config)
    (hdiscovery : m.service.discovery.Tracks → svc.discovery.Tracks ∧
      ∀ ip, m.service.discovery.Searches ip → svc.discovery.Searches ip) :
    m.Moves y T S B { m with service := svc } :=
  ⟨hconfig, hdiscovery, rfl, fun _ _ => rfl, .inl rfl⟩

theorem final_inConfig (p : EStateM PyErr Config Unit) (s : Settings) :
    final (inConfig p) s = { s with config := final p s.config } := by
  cases h : p s.config with
  | ok a config => rw [final, inConfig_ok h, final, h]
  | error e config => rw [final, inConfig_error h, final, h]

theorem moves_inConfig {p : EStateM PyErr Config Unit} (h : Along (Held T) p) :
    Along (Machine.Moves y T S B) (inSettings (inConfig p)) := fun m => by
  rw [inSettings, final_onPart, final_inConfig]
  exact moves_setConfig (h m.settings.config)

theorem target_ne (s : Settings) : s.target.getD defaultConfigFile ≠ "" := by
  cases htarget : s.target with
  | none => decide
  | some path =>
    have hpath := (Option.filter_eq_some_iff.1 htarget).2
    exact bne_iff_ne.1 hpath

theorem Machine.path_eq {m : Machine Text} {path : String} (h : m.configPath = some path) (hpath : path ≠ "") :
    m.path = path := by
  have htarget : m.settings.target = some path := Option.filter_eq_some_iff.2 ⟨h, bne_iff_ne.2 hpath⟩
  rw [Machine.path, htarget]
  rfl

theorem saveConfigFile_apply (w : Writing Text) (m : Machine Text) :
    saveConfigFile y w m =
      match w with
      | .whole => .ok m.path
          { m with files := m.files.insert m.path (y.safeDump m.settings.config), configPath := some m.path }
      | .refused text => .error (.osError text) m
      | .broken left text => .error (.osError text) { m with files := m.files.insert m.path left } := by
  cases w <;> rfl

def Writing.Breaks (w : Writing Text) : Prop := ∃ left text, w = .broken left text

theorem moves_save {w : Writing Text} (hS : w = .whole → S) (hB : w.Breaks → B) :
    Along (Machine.Moves y T S B) (saveConfigFile y w) := fun m => by
  rw [final, saveConfigFile_apply]
  cases w with
  | whole =>
    have hpath : Machine.path { m with configPath := some m.path } = m.path :=
      Machine.path_eq rfl (target_ne m.settings)
    exact ⟨refl_of (Held T) _, fun h => ⟨h, fun _ => id⟩, hpath, fun path hne => Table.find?_insert_ne _ hne _,
      .inr (.inl ⟨hS rfl, _, refl_of (Held T) _, Table.find?_insert_self _ _ _⟩)⟩
  | refused text => exact refl_of (Machine.Moves y T S B) m
  | broken left text =>
    exact ⟨refl_of (Held T) _, fun h => ⟨h, fun _ => id⟩, rfl, fun path hne => Table.find?_insert_ne _ hne _,
      .inr (.inr (hB ⟨left, text, rfl⟩))⟩

/-! ### Requests -/

theorem moves_trySave {α : Type} {w : Writing Text} (hS : w = .whole → S) (hB : w.Breaks → B) (k : String → α)
    {handle : ConfigErr → MachineM Text α} (hh : ∀ e, Along (Machine.Moves y T S B) (handle e)) :
    Along (Machine.Moves y T S B) (tryCatch (do return k (← saveConfigFile y w)) handle) :=
  Along.tryCatch (Along.bind (moves_save hS hB) fun _ => Along.pure _) hh

theorem moves_handlePost {body : Option PyVal} {w : Writing Text} (hS : w = .whole → S) (hB : w.Breaks → B)
    (hbody : Lists T (ConfigRequest.configPost body).overlaid) :
    Along (Machine.Moves y T S B) (handlePost y body w) := by
  unfold handlePost configPostBy
  split
  · exact Along.pure _
  · rename_i new
    refine Along.bind (moves_inConfig fun config => ?_) fun _ => moves_trySave hS hB _ fun e => ?_
    · exact Held.of_overlay hbody (written_applyConfig new config)
    · cases e with
      | osError text => exact Along.pure _
      | _ => exact Along.lift (.error _)
  · exact Along.pure _

theorem moves_handleCameraSave {devId : String} {w : Writing Text} (hS : w = .whole → S) (hB : w.Breaks → B) :
    Along (Machine.Moves y T S B) (handleCameraSave y devId w) := by
  refine Along.get_bind fun m => ?_
  refine Along.bind (Along.lift _) (fun cameras => Along.bind (Along.lift _) fun known =>
    Along.ite (fun _ => ?_) fun _ => ?_) m
  · refine moves_trySave hS hB _ fun e => ?_
    cases e with
    | osError text => exact Along.pure _
    | _ => exact Along.lift (.error _)
  · exact Along.pure _

/-- The machine once a target was asked for. -/
def Machine.asked (m : Machine Text) (now : ℚ) (ip : String) (result : Sendto) : Machine Text :=
  { m with service := { m.service with discovery := m.service.discovery.step (.addTarget now ip result) } }

theorem emitAddTarget_cases (now : ℚ) (ip : String) (result : Sendto) (m : Machine Text) :
    (∃ e, emitAddTarget now ip result m = .error e m) ∨
      emitAddTarget now ip result m = .ok ⟨⟩ (m.asked now ip result) := by
  have happly := Discovery.emitAddTarget_apply now ip result m.service.discovery
  unfold emitAddTarget inService inDiscovery onPart EStateM.adaptExcept
  dsimp only
  rw [happly]
  split_ifs
  · exact .inl ⟨_, rfl⟩
  · exact .inr rfl

theorem moves_emitAddTarget (now : ℚ) (ip : String) (result : Sendto) :
    Along (Machine.Moves y T S B) (emitAddTarget now ip result) := fun m => by
  rcases emitAddTarget_cases now ip result m with ⟨e, h⟩ | h
  · rw [final, h]
    exact refl_of (Machine.Moves y T S B) m
  · rw [final, h]
    exact moves_service (refl_of (Held T) _) fun htracks =>
      htracks.step (show DiscoveryStep.addTarget now ip result ≠ .close by rintro ⟨⟩)

theorem moves_inPython {α β : Type} {x : Except PyErr α} {k : α → MachineM Text β} {m : Machine Text}
    (hk : ∀ a, x = .ok a → m.Moves y T S B (final (k a) m)) : m.Moves y T S B (final (inPython x >>= k) m) := by
  cases x with
  | ok a => exact hk a rfl
  | error e => exact refl_of (Machine.Moves y T S B) m

theorem moves_remember {ip : String} {w : Writing Text} (hS : w = .whole → S) (hB : w.Breaks → B) {m : Machine Text}
    {config : Config} (hconfig : appendIp ip m.settings.config = .ok config) {α : Type} (k : String → α)
    {handle : ConfigErr → MachineM Text α} (hh : ∀ e, Along (Machine.Moves y T S B) (handle e)) :
    m.Moves y T S B (final (tryCatch (do return k (← saveConfigFile y w)) handle) (m.setConfig config)) :=
  trans_of (Machine.Moves y T S B) (moves_setConfig (held_appendIp hconfig)) (moves_trySave hS hB k hh _)

theorem moves_handleDiscover {repr : PyVal → String} {now : ℚ} {result : Sendto} {body : Option PyVal}
    {w : Writing Text} (hS : w = .whole → S) (hB : w.Breaks → B) :
    Along (Machine.Moves y T S B) (handleDiscover y repr now result body w) := by
  refine Along.bind (Along.lift _) fun ip => Along.bind (Along.lift _) fun remember =>
    Along.ite (fun _ => Along.pure _) fun _ => Along.bind (moves_emitAddTarget now _ result) fun _ =>
      Along.ite (fun _ => Along.get_bind fun m => ?_) fun _ => Along.pure _
  refine moves_inPython fun ips _ => moves_inPython fun known _ => ?_
  cases known with
  | true => exact refl_of (Machine.Moves y T S B) m
  | false =>
    refine moves_inPython fun config hconfig => moves_remember hS hB hconfig _ fun e => ?_
    cases e with
    | osError text => exact Along.pure _
    | _ => exact Along.lift (.error _)

theorem fileRead_ok {denied : Option String} {m : Machine Text} {parsed : PyVal}
    (h : m.fileRead y denied = some (.ok parsed)) :
    ∃ text, m.files.find? m.path = some text ∧ y.safeLoad text = .ok parsed := by
  obtain ⟨text, htext, hload⟩ := Option.map_eq_some_iff.1 h
  cases denied with
  | none => exact ⟨text, htext, hload⟩
  | some reason => cases hload

theorem lists_of_file (hy : y.Lawful) {files : Table String Text} {path : String}
    (hfile : ∀ ip, T ip → FileLists y files path ip) {text : Text} (htext : files.find? path = some text)
    {parsed : PyVal} (hparsed : y.safeLoad text = .ok parsed) :
    Lists T (ConfigRequest.configReload (some parsed)).overlaid := by
  intro ip hip v hv
  obtain ⟨text', kvs, htext', hload, v', hlookup, hlists⟩ := hfile ip hip
  obtain rfl := Option.some.inj (htext.symm.trans htext')
  obtain rfl := Except.ok.inj (hparsed.symm.trans hload)
  have hkvs : ("discovery_ips", v) ∈ kvs := by
    simpa only [ConfigRequest.overlaid, PyVal.orEmpty_dict] using hv
  rw [Table.lookup_of_mem (hy.unique hload) hkvs] at hlookup
  exact Option.some.inj hlookup ▸ hlists

theorem moves_handleReload (hy : y.Lawful) {m : Machine Text} (hfile : ∀ ip, T ip → FileLists y m.files m.path ip)
    (denied : Option String) : m.Moves y T S B (final (handleReload y denied) m) := by
  have hreload : final (handleReload y denied) m =
      m.setSettings (final (configReload (m.fileRead y denied)) m.settings) := by
    unfold handleReload
    rw [final, get_bind_apply, ← final, inSettings, final_onPart]
  rw [hreload]
  cases hparsed : ConfigChange.fileRead m.settings (m.fileRead y denied) with
  | none =>
    have hsame : final (configReload (m.fileRead y denied)) m.settings = m.settings := by
      rcases configReload_unread hparsed with ⟨status, text, h⟩ | ⟨e, h⟩ <;> rw [final, h]
    rw [hsame]
    exact refl_of (Machine.Moves y T S B) m
  | some parsed =>
    obtain ⟨path, hpath, hread⟩ := ConfigChange.fileRead_eq_some.1 hparsed
    obtain ⟨text, htext, hload⟩ := fileRead_ok hread
    have hfinal : final (configReload (m.fileRead y denied)) m.settings =
        { m.settings with config := final (reloadConfig (some parsed)) m.settings.config } := by
      rw [hread, final, configReload_read hpath, final]
      cases reloadConfig (some parsed) m.settings.config <;> rfl
    rw [hfinal]
    have hlists := lists_of_file hy hfile htext hload
    exact moves_setConfig (Held.of_overlay hlists (written_reloadConfig _ m.settings.config))

/-! ### What was saved -/

theorem inPython_eq_ok {α : Type} {x : Except PyErr α} {m m' : Machine Text} {a : α} (h : inPython x m = .ok a m') :
    x = .ok a ∧ m' = m := by
  cases x with
  | ok b =>
    obtain ⟨rfl, rfl⟩ := EStateM.Result.ok.inj h
    exact ⟨rfl, rfl⟩
  | error e => cases h

def Machine.savedAt (y : Yaml Text) (m : Machine Text) : Machine Text :=
  { m with files := m.files.insert m.path (y.safeDump m.settings.config), configPath := some m.path }

theorem trySave_eq_ok {α : Type} {w : Writing Text} {k : String → α} {handle : ConfigErr → MachineM Text α}
    {m m' : Machine Text} {a : α} (h : tryCatch (do return k (← saveConfigFile y w)) handle m = .ok a m')
    (hhandle : ∀ e t t', handle e t ≠ .ok a t') : a = k m.path ∧ m' = m.savedAt y := by
  change EStateM.tryCatch _ _ m = _ at h
  unfold EStateM.tryCatch at h
  cases w with
  | whole =>
    rw [bind_ok (saveConfigFile_apply .whole m)] at h
    obtain ⟨rfl, rfl⟩ := EStateM.Result.ok.inj h
    exact ⟨rfl, rfl⟩
  | refused text =>
    rw [bind_error (saveConfigFile_apply (.refused text) m)] at h
    exact absurd h (hhandle _ _ _)
  | broken left text =>
    rw [bind_error (saveConfigFile_apply (.broken left text) m)] at h
    exact absurd h (hhandle _ _ _)

theorem handleDiscover_saved {repr : PyVal → String} {now : ℚ} {result : Sendto} {body : Option PyVal}
    {w : Writing Text} {m m' : Machine Text} {ip path : String}
    (h : handleDiscover y repr now result body w m = .ok (.added ip (some path)) m') :
    path = m.path ∧ ∃ config, appendIp ip m.settings.config = .ok config ∧
      m' = ((m.asked now ip result).setConfig config).savedAt y := by
  unfold handleDiscover at h
  obtain ⟨target, m₁, htarget, h₁⟩ := bind_eq_ok h
  obtain ⟨-, rfl⟩ := inPython_eq_ok htarget
  dsimp only at h₁
  obtain ⟨remember, m₂, hremember, h₂⟩ := bind_eq_ok h₁
  obtain ⟨-, rfl⟩ := inPython_eq_ok hremember
  split_ifs at h₂
  · cases h₂
  · obtain ⟨_, m₃, hemit, h₃⟩ := bind_eq_ok h₂
    obtain rfl : m₃ = m₂.asked now _ result := by
      rcases emitAddTarget_cases now _ result m₂ with ⟨e, herror⟩ | hok
      · cases herror.symm.trans hemit
      · exact (EStateM.Result.ok.inj (hok.symm.trans hemit)).2.symm
    rw [get_bind_apply] at h₃
    obtain ⟨ips, m₄, hips, h₄⟩ := bind_eq_ok h₃
    obtain ⟨-, rfl⟩ := inPython_eq_ok hips
    obtain ⟨known, m₅, hknown, h₅⟩ := bind_eq_ok h₄
    obtain ⟨-, rfl⟩ := inPython_eq_ok hknown
    cases known with
    | true => cases h₅
    | false =>
      obtain ⟨config, m₆, hconfig, h₆⟩ := bind_eq_ok h₅
      obtain ⟨happend, rfl⟩ := inPython_eq_ok hconfig
      rw [modify_bind_apply] at h₆
      obtain ⟨hreply, rfl⟩ := trySave_eq_ok h₆ fun e t t' hhandle => by
        cases e <;> cases hhandle
      obtain ⟨rfl, hpath⟩ := DiscoverReply.added.inj hreply
      exact ⟨Option.some.inj hpath, config, happend, rfl⟩
  · obtain ⟨_, m₃, -, h₃⟩ := bind_eq_ok h₂
    cases h₃

/-! ### Steps -/

theorem discovery_event (svc : Service) {ev : ServiceEvent} (hev : ev.outside = true) :
    (svc.step ev).discovery = svc.discovery ∨
      ∃ step : DiscoveryStep, step ≠ .close ∧ (svc.step ev).discovery = svc.discovery.step step := by
  cases ev with
  | punch msg rinfo =>
    refine .inl ?_
    show (svc.punch msg rinfo).discovery = _
    unfold Service.punch
    split_ifs <;> rfl
  | reconnect now devId result =>
    refine (reconnect_cases svc now devId result).2.imp_right ?_
    rintro ⟨address, haddress⟩
    exact ⟨.addTarget now address result, by rintro ⟨⟩, haddress⟩
  | search step =>
    refine .inr ⟨step, ?_, rfl⟩
    rintro rfl
    cases hev
  | serve step hstep => exact .inl rfl

theorem moves_event (m : Machine Text) {ev : ServiceEvent} (hev : ev.outside = true) :
    m.Moves y T S B { m with service := m.service.step ev } := by
  refine moves_service (Held.of_cameras (written_event m.service hev)) fun htracks => ?_
  rcases discovery_event m.service hev with hsame | ⟨step, hstep, hdiscovery⟩
  · rw [hsame]
    exact ⟨htracks, fun _ => id⟩
  · rw [hdiscovery]
    exact htracks.step hstep

def HostStep.writing : HostStep Text → Option (Writing Text)
  | .post _ w => some w
  | .cameraSave _ w => some w
  | .discover _ _ _ w => some w
  | _ => none

def HostStep.posted : HostStep Text → List (String × PyVal)
  | .post body _ => (ConfigRequest.configPost body).overlaid
  | _ => []

/-- **A step of a process.** -/
theorem moves_step (hy : y.Lawful) (repr : PyVal → String) {m : Machine Text} {step : HostStep Text}
    (hposted : Lists T step.posted) (hfile : ∀ ip, T ip → FileLists y m.files m.path ip) :
    m.Moves y T (.whole ∈ step.writing) (∃ w ∈ step.writing, w.Breaks) (m.step y repr step) := by
  have hS : ∀ w, step.writing = some w → w = .whole → Writing.whole ∈ step.writing := by
    rintro w hwriting rfl
    exact hwriting
  have hB : ∀ w, step.writing = some w → w.Breaks → ∃ w ∈ step.writing, w.Breaks := fun w hwriting hbreaks =>
    ⟨w, hwriting, hbreaks⟩
  cases step with
  | launch o denied => exact refl_of (Machine.Moves y T _ _) m
  | kill => exact refl_of (Machine.Moves y T _ _) m
  | edit path text => exact refl_of (Machine.Moves y T _ _) m
  | event ev hev => exact moves_event m hev
  | rotate devId => exact moves_setConfig (Held.of_cameras (written_rotate devId m.settings.config))
  | mirror devId => exact moves_setConfig (Held.of_cameras (written_mirror devId m.settings.config))
  | post body w => exact moves_handlePost (hS w rfl) (hB w rfl) hposted m
  | reload denied => exact moves_handleReload hy hfile denied
  | cameraSave devId w => exact moves_handleCameraSave (hS w rfl) (hB w rfl) m
  | discover now result body w => exact moves_handleDiscover (hS w rfl) (hB w rfl) m

end CamReverse
