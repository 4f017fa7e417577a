import CamReverse.Http.Requests
import CamReverse.Http.Sessions

/-!
# The configuration of the cameras in use

A packet of a camera reads the camera's entry of the configuration, and fails when the cameras or the entry
are no mapping or `rotate` is no place in `oMap`. Nothing that writes the configuration checks this:
`apply_config` puts in whatever stands under `cameras` unless that is a mapping, and `rotate` comes from the
file or the request as it is. As long as no request and no discovery brings such a value for a camera with a
session, every camera in `sessions` keeps an entry its packets can use (`camera_config_usable`).
-/

namespace CamReverse

open Effect

/-! ### Usable entries -/

/-- The value is an index of `oMap` and of `oMapMirror`, from either end. -/
def PyVal.rotates (v : PyVal) : Bool :=
  match v.asIndex with
  | .ok i => decide (-4 ≤ i ∧ i < 4)
  | .error _ => false

/-- The entry of a camera is a mapping with a `rotate` that is a place in `oMap`. -/
def UsableEntry (config : Config) (devId : String) : Prop :=
  ∃ kvs v, HasEntry config devId kvs ∧ kvs.lookup "rotate" = some v ∧ v.rotates

theorem listIndex_ok {α : Type} (xs : List α) (hxs : xs.length = 4) {v : PyVal} (hv : v.rotates) :
    ∃ x, listIndex xs v = .ok x := by
  unfold PyVal.rotates at hv
  unfold listIndex
  cases hindex : v.asIndex with
  | error e =>
    rw [hindex] at hv
    cases hv
  | ok i =>
    rw [hindex] at hv
    have hi := of_decide_eq_true hv
    rw [except_ok_bind, hxs]
    have hk : 0 ≤ (if i < 0 then i + (4 : ℕ) else i) ∧ (if i < 0 then i + (4 : ℕ) else i) < 4 := by
      split_ifs <;> omega
    rw [if_neg (by omega)]
    have hlt : (if i < 0 then i + (4 : ℕ) else i).toNat < xs.length := by omega
    rw [List.getElem?_eq_getElem hlt]
    exact ⟨_, rfl⟩

/-- What a packet reads of the configuration, and the name of the camera. -/
structure Serves (config : Config) (devId : String) : Prop where
  entry : UsableEntry config devId
  orientation : ∃ cam orientation, cameraConfig config devId = .ok cam ∧ frameOrientation cam = .ok orientation
  fixPacketLoss : ∃ b, fixPacketLoss config devId = .ok b
  name : ∃ name, cameraName config devId = .ok name

theorem UsableEntry.serves {config : Config} {devId : String} (h : UsableEntry config devId) :
    Serves config devId := by
  obtain ⟨kvs, v, hentry, hrotate, hv⟩ := id h
  have hcam := hentry.cameraConfig
  refine ⟨h, ⟨.dict kvs, ?_⟩, ?_, ?_⟩
  · obtain ⟨plain, hplain⟩ := listIndex_ok oMap rfl hv
    obtain ⟨mirrored, hmirrored⟩ := listIndex_ok oMapMirror rfl hv
    unfold frameOrientation
    simp only [PyVal.get, hrotate, Option.getD_some, except_ok_bind, hplain, hmirrored]
    cases ((kvs.lookup "mirror").getD .none).truthy
    · exact ⟨plain, hcam, rfl⟩
    · exact ⟨mirrored, hcam, rfl⟩
  · unfold CamReverse.fixPacketLoss
    rw [hcam]
    exact ⟨_, rfl⟩
  · unfold cameraName
    rw [hcam]
    exact ⟨_, rfl⟩

/-! ### Writers -/

theorem UsableEntry.put_other {config : Config} {devId : String} (h : UsableEntry config devId) {k : String}
    (hk : k ≠ "cameras") (v : PyVal) : UsableEntry (Table.put config k v) devId := by
  obtain ⟨kvs, r, ⟨cameras, hcameras, hentry⟩, hr⟩ := h
  exact ⟨kvs, r, ⟨cameras, (Table.lookup_put_ne config (Ne.symm hk) v).trans hcameras, hentry⟩, hr⟩

theorem UsableEntry.put_ne {config : Config} {devId : String} (h : UsableEntry config devId)
    {cameras : List (String × PyVal)} (hcameras : config.lookup "cameras" = some (.dict cameras))
    {devId' : String} (hne : devId ≠ devId') (kvs : List (String × PyVal)) :
    UsableEntry (putEntry config cameras devId' kvs) devId := by
  obtain ⟨kvs', r, hentry, hr⟩ := h
  exact ⟨kvs', r, hentry.put_ne hcameras hne kvs, hr⟩

/-- The values a mapping has under `rotate` are places in `oMap`. -/
def fitsRotate (kvs : List (String × PyVal)) : Bool := kvs.all fun kv => kv.1 != "rotate" || kv.2.rotates

theorem rotates_overlay {kvs kvs' : List (String × PyVal)} {v : PyVal} (hv : kvs.lookup "rotate" = some v)
    (hrotates : v.rotates) (hfits : fitsRotate kvs') :
    ∃ v', (Table.overlay kvs kvs').lookup "rotate" = some v' ∧ v'.rotates := by
  rcases Table.lookup_overlay kvs kvs' "rotate" with ⟨v', hmem, hlookup⟩ | ⟨-, hlookup⟩
  · have hfit := List.all_eq_true.1 hfits _ hmem
    exact ⟨v', hlookup, by simpa using hfit⟩
  · exact ⟨v, hlookup.trans hv, hrotates⟩

/-- Every run of a program keeps the entry of a camera usable. -/
def Spared (devId : String) (config config' : Config) : Prop :=
  UsableEntry config devId → UsableEntry config' devId

instance (devId : String) : IsPreorder Config (Spared devId) where
  refl _ := id
  trans _ _ _ h h' := h' ∘ h

theorem spared_updateConfig {devId : String} {f : Config → Except PyErr Config}
    (hf : ∀ config config', f config = .ok config' → UsableEntry config devId → UsableEntry config' devId) :
    Along (ε := PyErr) (Spared devId) (updateConfig f) := by
  refine Along.get_bind fun config h => ?_
  cases hconfig : f config with
  | error e => exact h
  | ok config' => exact hf config config' hconfig h

/-! ### Overlays -/

/-- A camera's part of an overlay brings no `rotate` that does not fit. -/
def PyVal.fits : PyVal → Bool
  | .dict kvs => fitsRotate kvs
  | _ => true

theorem PyVal.fits_orEmpty {cfg : PyVal} (h : cfg.fits) {kvs : List (String × PyVal)}
    (hkvs : cfg.orEmpty = .dict kvs) : fitsRotate kvs := by
  unfold PyVal.orEmpty at hkvs
  split at hkvs
  · rw [hkvs] at h
    exact h
  · cases hkvs
    rfl

theorem spared_overlayCamera {devId cid : String} {cfg : PyVal} (h : cid = devId → cfg.fits) :
    Along (ε := PyErr) (Spared devId) (updateConfig (overlayCamera cid cfg)) := by
  refine spared_updateConfig fun config config' hconfig husable => ?_
  obtain ⟨cameras, old, kvs, hcameras, hold, hkvs, rfl⟩ := overlayCamera_ok hconfig
  by_cases hcid : cid = devId
  · subst hcid
    obtain ⟨kvs₀, v, hentry, hrotate, hv⟩ := husable
    obtain rfl : kvs₀ = old := by
      rw [hentry.cameraConfig] at hold
      cases hold
      rfl
    obtain ⟨v', hrotate', hv'⟩ := rotates_overlay hrotate hv (PyVal.fits_orEmpty (h rfl) hkvs)
    exact ⟨_, v', hasEntry_put config cameras cid _, hrotate', hv'⟩
  · exact husable.put_ne hcameras (Ne.symm hcid) _

theorem spared_setDefault (devId : String) :
    Along (ε := PyErr) (Spared devId) (modify (setDefault "cameras" (.dict []))) := by
  refine Along.modify fun config husable => ?_
  obtain ⟨kvs, v, ⟨cameras, hcameras, hentry⟩, hv⟩ := id husable
  rw [setDefault, if_pos (by rw [hcameras]; rfl)]
  exact husable

/-- The overlay leaves the cameras a mapping, and brings this camera no `rotate` that does not fit. -/
def spares (devId : String) (new : List (String × PyVal)) : Bool :=
  new.all fun item => item.1 != "cameras" ||
    match item.2 with
    | .dict cams => cams.all fun cam => cam.1 != devId || cam.2.fits
    | _ => false

theorem spared_applyConfig {devId : String} {new : List (String × PyVal)} (h : spares devId new) :
    Along (ε := PyErr) (Spared devId) (applyConfig new) := by
  refine Along.forM fun item hitem => ?_
  have hspares := List.all_eq_true.1 h item hitem
  obtain ⟨key, value⟩ := item
  show Along (Spared devId) (applyItem key value)
  unfold applyItem
  split
  · rename_i cams
    refine Along.bind (spared_setDefault devId) fun _ => Along.forM fun cam hcam => ?_
    refine spared_overlayCamera fun hcid => ?_
    have hcams : cams.all (fun cam => cam.1 != devId || cam.2.fits) = true := by simpa using hspares
    simpa [hcid] using List.all_eq_true.1 hcams cam hcam
  · rename_i hother
    refine Along.modify fun config husable => husable.put_other (fun hkey => ?_) value
    subst hkey
    cases value with
    | dict cams => exact hother cams rfl rfl
    | _ => simp at hspares

/-! ### Changes in place -/

theorem cameraEntry_ok {config : Config} {devId : String} {kvs : List (String × PyVal)}
    (h : cameraEntry config devId = .ok (.dict kvs)) : HasEntry config devId kvs := by
  unfold cameraEntry configCameras at h
  cases hlookup : config.lookup "cameras" with
  | none =>
    rw [hlookup] at h
    cases h
  | some v =>
    rw [hlookup, except_ok_bind] at h
    cases v with
    | dict cameras =>
      refine ⟨cameras, hlookup, ?_⟩
      cases hentry : cameras.lookup devId with
      | none =>
        simp only [hentry] at h
        cases h
      | some cam =>
        simp only [hentry] at h
        cases h
        rfl
    | _ => cases h

theorem setCameraField_ok {config config' : Config} {devId k : String} {v : PyVal}
    (h : setCameraField config devId k v = .ok config') :
    ∃ cameras kvs, config.lookup "cameras" = some (.dict cameras) ∧ HasEntry config devId kvs ∧
      config' = putEntry config cameras devId (Table.put kvs k v) := by
  unfold setCameraField at h
  obtain ⟨cam, hcam, h⟩ := except_bind_eq_ok h
  cases cam with
  | dict kvs =>
    obtain ⟨cameras, hcameras, hconfig⟩ := setCameraConfig_ok h
    exact ⟨cameras, kvs, hcameras, cameraEntry_ok hcam, hconfig⟩
  | _ => cases h

theorem HasEntry.unique {config : Config} {devId : String} {kvs kvs' : List (String × PyVal)}
    (h : HasEntry config devId kvs) (h' : HasEntry config devId kvs') : kvs = kvs' := by
  have heq := h.cameraConfig.symm.trans h'.cameraConfig
  cases heq
  rfl

theorem rotates_next {cur nxt : PyVal} (hcur : cur.rotates) (h : nextRotation cur = .ok nxt) : nxt.rotates := by
  unfold nextRotation at h
  split at h
  · cases h
    refine decide_eq_true ⟨?_, ?_⟩ <;> omega
  · rename_i b
    cases h
    cases b <;> rfl
  · cases hcur
  · cases h

theorem spared_handleRotate (devId devId' : String) :
    Along (ε := PyErr) (Spared devId) (handleRotate devId') := by
  refine spared_updateConfig fun config config' hconfig husable => ?_
  obtain ⟨cam, hcam, hconfig⟩ := except_bind_eq_ok hconfig
  obtain ⟨cur, hcur, hconfig⟩ := except_bind_eq_ok hconfig
  obtain ⟨nxt, hnxt, hconfig⟩ := except_bind_eq_ok hconfig
  obtain ⟨cameras, kvs, hcameras, hentry, rfl⟩ := setCameraField_ok hconfig
  by_cases hdev : devId' = devId
  · subst hdev
    obtain ⟨kvs₀, v, hentry₀, hrotate, hv⟩ := husable
    obtain rfl := hentry₀.unique hentry
    refine ⟨_, nxt, hasEntry_put config cameras devId' _, Table.lookup_put_self _ _ _, ?_⟩
    rw [hentry.cameraConfig] at hcam
    cases hcam
    rw [PyVal.get, hrotate] at hcur
    cases hcur
    exact rotates_next hv hnxt
  · exact husable.put_ne hcameras (Ne.symm hdev) _

theorem spared_handleMirror (devId devId' : String) :
    Along (ε := PyErr) (Spared devId) (handleMirror devId') := by
  refine spared_updateConfig fun config config' hconfig husable => ?_
  obtain ⟨cam, hcam, hconfig⟩ := except_bind_eq_ok hconfig
  obtain ⟨mirror, hmirror, hconfig⟩ := except_bind_eq_ok hconfig
  obtain ⟨cameras, kvs, hcameras, hentry, rfl⟩ := setCameraField_ok hconfig
  by_cases hdev : devId' = devId
  · subst hdev
    obtain ⟨kvs₀, v, hentry₀, hrotate, hv⟩ := husable
    obtain rfl := hentry₀.unique hentry
    exact ⟨_, v, hasEntry_put config cameras devId' _,
      (Table.lookup_put_ne kvs₀ (by decide) _).trans hrotate, hv⟩
  · exact husable.put_ne hcameras (Ne.symm hdev) _

/-- **What a request does to the entry of a camera** that its overlay spares. -/
theorem spared_handle {devId : String} {r : ConfigRequest} (h : spares devId r.overlaid) :
    Along (Spared devId) r.handle := by
  cases r with
  | configPost body =>
    show Along (Spared devId) (handleConfigPost body)
    unfold handleConfigPost
    split
    · exact spared_applyConfig h
    · exact Along.pure _
  | configReload file =>
    cases file with
    | none => exact Along.pure _
    | some parsed =>
      show Along (Spared devId) (reloadConfig (some parsed))
      simp only [ConfigRequest.overlaid] at h
      simp only [reloadConfig]
      split
      · rename_i new hnew
        rw [hnew] at h
        exact spared_applyConfig h
      · exact Along.lift (.error _)
  | rotate devId' => exact spared_handleRotate devId devId'
  | mirror devId' => exact spared_handleMirror devId devId'

/-! ### The server -/

/-- Every camera in `sessions` has a usable entry. -/
def Server.Usable (srv : Server) : Prop :=
  ∀ devId ∈ srv.web.sessions.keys, UsableEntry srv.web.config devId

/-- What the configuration says about a camera brings no `rotate` that does not fit. -/
def entryFits (config : Config) (devId : String) : Bool :=
  match cameraConfig config devId with
  | .ok cam => cam.fits
  | .error _ => true

/-- The condition on a step: a request spares the cameras in `sessions`, and a discovery that makes a session
finds mappings to merge, without a `rotate` that does not fit. -/
def Server.Spares (srv : Server) : ServiceStep → Prop
  | .request r => ∀ devId ∈ srv.web.sessions.keys, spares devId r.overlaid
  | .other step _ => ∀ dev ∈ step.discovers, dev.devId ∉ srv.web.sessions.keys →
    mergeable srv.web.config dev.devId ∧ entryFits srv.web.config dev.devId

instance (srv : Server) (step : ServiceStep) : Decidable (srv.Spares step) :=
  match step with
  | .request r => inferInstanceAs (Decidable (∀ devId ∈ srv.web.sessions.keys, spares devId r.overlaid = true))
  | .other step _ => inferInstanceAs (Decidable (∀ dev ∈ step.discovers, _ → _))

theorem Server.Usable.of_same {srv srv' : Server} (h : srv.Usable) (hconfig : srv'.web.config = srv.web.config)
    (hsessions : ∀ devId k, srv'.web.sessions.find? devId = some k → srv.web.sessions.find? devId = some k) :
    srv'.Usable := by
  intro devId hdevId
  rw [hconfig]
  obtain ⟨k, hk⟩ := Option.isSome_iff_exists.1 (Table.find?_isSome.2 hdevId)
  exact h devId (Table.find?_isSome.1 (Option.isSome_iff_exists.2 ⟨k, hsessions devId k hk⟩))

theorem Server.Usable.of_sameCameras {srv srv' : Server} (h : srv.Usable) (hsame : srv.SameCameras srv') :
    srv'.Usable :=
  h.of_same hsame.config fun _ _ hk => hsame.sessions ▸ hk

theorem Server.Usable.onSession {srv : Server} (h : srv.Usable) (k : ℕ) (now : ℚ) (c : Callback) :
    (srv.onSession k now c).Usable :=
  h.of_same (onSession_leaves srv k now c).2.1 (onSession_keeps srv k now c).2.1

theorem Server.Usable.discover {srv : Server} (h : srv.Usable) {rinfo : String × ℕ} {dev : DevSerial}
    (hspares : dev.devId ∉ srv.web.sessions.keys →
      mergeable srv.web.config dev.devId ∧ entryFits srv.web.config dev.devId) :
    (final (onDiscover rinfo dev) srv).Usable := by
  cases hfind : srv.web.sessions.find? dev.devId with
  | some k =>
    rw [discover_known (by rw [hfind]; rfl)]
    exact h
  | none =>
    obtain ⟨hmergeable, hfits⟩ := hspares (Table.find?_eq_none.1 hfind)
    obtain ⟨cameras, given, hcameras, hgiven⟩ := cameraConfig_of_mergeable hmergeable
    rw [entryFits, hgiven] at hfits
    have hconfig := withCameraDefaults_eq hcameras hgiven
    obtain ⟨audio, haudio⟩ := (hasEntry_put srv.web.config cameras dev.devId _).cameraAudio
    rw [final, discover_ok hfind hconfig haudio]
    intro devId hdevId
    rcases Table.mem_keys_insert.1 hdevId with rfl | hold
    · have hdefault : cameraDefaults.lookup "rotate" = some (.int 0) := rfl
      obtain ⟨v, hrotate, hv⟩ := rotates_overlay hdefault rfl hfits
      exact ⟨_, v, hasEntry_put srv.web.config cameras dev.devId _, hrotate, hv⟩
    · refine (h devId hold).put_ne hcameras (fun hsame => ?_) _
      rw [hsame] at hold
      exact Table.find?_eq_none.1 hfind hold

/-- **One step** that spares the cameras in `sessions`. -/
theorem Server.Usable.serve {srv : Server} (h : srv.Usable) {step : ServiceStep} (hspares : srv.Spares step) :
    (srv.serve step).Usable := by
  cases step with
  | request r => exact fun devId hdevId => spared_handle (hspares devId hdevId) srv.web.config (h devId hdevId)
  | other step hstep =>
    cases step with
    | discover rinfo dev => exact h.discover (hspares dev rfl)
    | ready k now => exact h.onSession k now _
    | datagram k now msg => exact h.onSession k now _
    | sessTick k now => exact h.onSession k now _
    | resendTick k now => exact h.onSession k now _
    | reconnect devId =>
      show (srv.reconnect devId).Usable
      unfold Server.reconnect
      split
      · exact h
      · exact h.onSession _ 0 .close
    | configure config => cases hstep
    | openStream media devId => exact h.of_sameCameras (sameCameras_openStream srv media devId)
    | prepared i => exact h.of_sameCameras (sameCameras_prepared srv i)
    | take i => exact h.of_sameCameras (sameCameras_take srv i)
    | leave i => exact h.of_sameCameras (sameCameras_leave srv i)

/-- **The configuration stays usable** in every run from a configuration file in which no request brings a
camera in `sessions` a `rotate` that does not fit, or no mapping as the cameras, and no discovery finds
such an entry. -/
theorem camera_config_usable (parsed : List (String × PyVal)) (steps : List ServiceStep)
    (hspares : Runs.Guarded Server.serve Server.Spares (.start (loadConfig parsed)) steps) :
    ∀ devId ∈ (steps.foldl Server.serve (.start (loadConfig parsed))).web.sessions.keys,
      Serves (steps.foldl Server.serve (.start (loadConfig parsed))).web.config devId := by
  have husable : (steps.foldl Server.serve (.start (loadConfig parsed))).Usable :=
    Runs.guarded (I := Server.Usable) (by rintro devId ⟨⟩) (fun srv step h hC => h.serve hC) hspares
  exact fun devId hdevId => (husable devId hdevId).serves

/-- A camera whose entry is in the file, mirrored by a posted configuration and turned. -/
def mirroredCamera : List ServiceStep :=
  [.other aDiscovery rfl,
    .request (.configPost (some (.dict [("cameras", .dict [(aCamera.devId, .dict [("mirror", .bool true)])])]))),
    .request (.rotate aCamera.devId)]

theorem camera_config_usable_mirrored :
    Serves (mirroredCamera.foldl Server.serve (.start (loadConfig
      [("cameras", .dict [(aCamera.devId, .dict [("rotate", .int 3)])])]))).web.config aCamera.devId :=
  camera_config_usable _ mirroredCamera (by decide +kernel) aCamera.devId (by decide +kernel)

/-- A camera, and a posted configuration whose `cameras` are `null`. -/
def camerasOverwritten : List ServiceStep :=
  [.other aDiscovery rfl, .request (.configPost (some (.dict [("cameras", .none)])))]

/-- No frame of the camera can be assembled any more. -/
theorem cameras_overwritten :
    aCamera.devId ∈ (camerasOverwritten.foldl Server.serve (.start (loadConfig []))).web.sessions.keys ∧
      ¬UsableEntry (camerasOverwritten.foldl Server.serve (.start (loadConfig []))).web.config aCamera.devId ∧
      ¬∃ image jpeg, assembleFrame
        (camerasOverwritten.foldl Server.serve (.start (loadConfig []))).web.config aCamera.devId image =
          .ok jpeg := by
  have hcameras : (camerasOverwritten.foldl Server.serve (.start (loadConfig []))).web.config.lookup "cameras" =
      some .none := rfl
  refine ⟨by decide +kernel, ?_, ?_⟩
  · rintro ⟨kvs, v, ⟨cameras, hlookup, -⟩, -⟩
    rw [hcameras] at hlookup
    cases hlookup
  · rintro ⟨image, jpeg, h⟩
    unfold assembleFrame cameraConfig configCameras at h
    rw [hcameras] at h
    cases h

end CamReverse
