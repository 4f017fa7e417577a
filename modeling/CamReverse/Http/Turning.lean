import CamReverse.Http.Clients
import CamReverse.Http.Usable
import CamReverse.Lib.Exif

/-!
# Turning and mirroring

The buttons of the web UI turn a camera's pictures and mirror them, by the orientation in the EXIF segment of its frames.
Where the settings of a camera count `n` quarter turns to the left, its pictures are shown after these and one more for
each press of the one button, and every press of the other button mirrors them or takes that back, whatever else happens
in between (`frames_turned`). With a `rotate` that counts none, such as 4, no frame is assembled.
-/

namespace CamReverse

open Effect

/-! ### The orientation of a frame -/

/-- **The segment is read back**, and nothing of the file is lost. -/
theorem read_addExifToJpeg {jpeg : Bytes} (hstart : [0xFF, 0xD8] <+: jpeg) (hplain : ¬[0xFF, 0xE1] <:+: jpeg)
    {orientation : ℕ} (hlt : orientation < 256) :
    ∃ oriented, addExifToJpeg jpeg (createExifOrientation orientation) = .ok oriented ∧
      ∀ rest, Exif.read (oriented ++ rest) = some (orientation, jpeg ++ rest) := by
  obtain ⟨tail, rfl⟩ := hstart
  refine ⟨_, if_neg hplain, fun rest => ?_⟩
  have hvalue : (UInt8.ofNat (orientation &&& 0xFF)).toNat = orientation := by
    rw [UInt8.toNat_ofNat', show (0xFF : ℕ) = 2 ^ 8 - 1 from rfl, Nat.and_two_pow_sub_one_eq_mod]
    omega
  have hread : ∀ behind : Bytes,
      Exif.read ([0xFF, 0xD8] ++ createExifOrientation orientation ++ behind) =
        some ((UInt8.ofNat (orientation &&& 0xFF)).toNat, [0xFF, 0xD8] ++ behind) := by
    intro behind
    simp [Exif.read, createExifOrientation, Exif.tiffOrientation, Exif.byteOrder, Exif.numberAt, Exif.entriesAt,
      Exif.orientationOf, Bytes.field, Bytes.ofLE, Bytes.ofBE]
  simp only [hvalue] at hread
  rw [List.append_assoc _ _ rest, List.append_assoc [0xFF, 0xD8] tail rest]
  exact hread (tail ++ rest)

/-- The orientations of `oMap` and `oMapMirror` mean what the buttons say. -/
theorem shown_oMap {n : ℕ} (hn : n < 4) (mirrored : Bool) :
    ∃ o, (if mirrored then oMapMirror else oMap)[n]? = some o ∧ o < 256 ∧
      ∀ (α : Type) (p : Picture α), p.shown o = some (p.turned n mirrored) := by
  obtain rfl | rfl | rfl | rfl : n = 0 ∨ n = 1 ∨ n = 2 ∨ n = 3 := by omega
  all_goals
    cases mirrored <;> refine ⟨_, rfl, by decide, fun α p => ?_⟩ <;>
      simp [Picture.shown, Picture.turned, Picture.turnLeft, Picture.flip]

/-! ### The entry of a camera -/

/-- The value counts `n` quarter turns, from either end of `oMap`. -/
def PyVal.Quarters (v : PyVal) (n : ℕ) : Prop := ∃ i, v.asIndex = .ok i ∧ -4 ≤ i ∧ i < 4 ∧ i % 4 = n % 4

theorem PyVal.Quarters.listIndex {v : PyVal} {n : ℕ} (h : v.Quarters n) {α : Type} {xs : List α}
    (hxs : xs.length = 4) {x : α} (hx : xs[n % 4]? = some x) : listIndex xs v = .ok x := by
  obtain ⟨i, hi, hlow, hhigh, hmod⟩ := h
  have hplace : (if i < 0 then i + (xs.length : ℤ) else i) = (n % 4 : ℕ) := by
    rw [hxs]
    split <;> omega
  unfold CamReverse.listIndex
  rw [hi, except_ok_bind]
  simp only [hplace]
  rw [if_neg (by omega), Int.toNat_natCast, hx]

theorem PyVal.Quarters.next {v : PyVal} {n : ℕ} (h : v.Quarters n) :
    ∃ nxt, nextRotation v = .ok nxt ∧ nxt.Quarters (n + 1) := by
  obtain ⟨i, hi, hlow, hhigh, hmod⟩ := h
  cases v with
  | int j =>
    cases hi
    exact ⟨_, rfl, _, rfl, by omega, by omega, by omega⟩
  | bool b =>
    cases hi
    cases b with
    | false => exact ⟨_, rfl, 1, rfl, by omega, by omega, by simp at hmod; omega⟩
    | true => exact ⟨_, rfl, 2, rfl, by omega, by omega, by simp at hmod; omega⟩
  | _ => cases hi

/-- The settings of a camera whose frames are shown after `n` quarter turns, and mirrored or not. -/
structure Turns (n : ℕ) (mirrored : Bool) (kvs : List (String × PyVal)) : Prop where
  unique : (kvs.map Prod.fst).Nodup
  rotate : ((kvs.lookup "rotate").getD (.int 0)).Quarters n
  mirror : ((kvs.lookup "mirror").getD .none).truthy = mirrored

/-- Frames of the camera are shown after `n` quarter turns, and mirrored or not. -/
def Turned (devId : String) (n : ℕ) (mirrored : Bool) (config : Config) : Prop :=
  ∃ kvs, HasEntry config devId kvs ∧ Turns n mirrored kvs

section Turned

variable {devId : String} {n : ℕ} {mirrored : Bool}

theorem Turned.assembleFrame {config : Config} (h : Turned devId n mirrored config) {first : Bytes}
    (hstart : [0xFF, 0xD8] <+: first) (hplain : ¬[0xFF, 0xE1] <:+: first) (rest : List Bytes) :
    ∃ jpeg o, assembleFrame config devId (first :: rest) = .ok jpeg ∧
      Exif.read jpeg = some (o, (first :: rest).flatten) ∧
      ∀ (α : Type) (p : Picture α), p.shown o = some (p.turned n mirrored) := by
  obtain ⟨kvs, hentry, hturns⟩ := h
  obtain ⟨o, ho, hlt, hshown⟩ := shown_oMap (Nat.mod_lt n (by decide)) mirrored
  obtain ⟨oriented, hadd, hread⟩ := read_addExifToJpeg hstart hplain hlt
  have horientation : frameOrientation (.dict kvs) = .ok o := by
    unfold frameOrientation
    simp only [PyVal.get, except_ok_bind, hturns.mirror]
    cases mirrored with
    | false => exact hturns.rotate.listIndex rfl ho
    | true => exact hturns.rotate.listIndex rfl ho
  refine ⟨oriented ++ rest.flatten, o, ?_, hread rest.flatten, fun α p => ?_⟩
  · unfold CamReverse.assembleFrame
    rw [hentry.cameraConfig, except_ok_bind, horientation, except_ok_bind]
    simp only [hadd, except_ok_bind]
    rfl
  · rw [hshown, p.turned_congr (Nat.mod_mod n 4)]

/-! ### Writes to the entry -/

theorem Turned.put_other {config : Config} (h : Turned devId n mirrored config) {k : String} (hk : k ≠ "cameras")
    (v : PyVal) : Turned devId n mirrored (Table.put config k v) := by
  obtain ⟨kvs, ⟨cameras, hcameras, hentry⟩, hturns⟩ := h
  exact ⟨kvs, ⟨cameras, (Table.lookup_put_ne config (Ne.symm hk) v).trans hcameras, hentry⟩, hturns⟩

theorem Turned.put_ne {config : Config} (h : Turned devId n mirrored config) {cameras : List (String × PyVal)}
    (hcameras : config.lookup "cameras" = some (.dict cameras)) {devId' : String} (hne : devId ≠ devId')
    (kvs : List (String × PyVal)) : Turned devId n mirrored (putEntry config cameras devId' kvs) := by
  obtain ⟨kvs', hentry, hturns⟩ := h
  exact ⟨kvs', hentry.put_ne hcameras hne kvs, hturns⟩

theorem Turns.put_rotate {kvs : List (String × PyVal)} (h : Turns n mirrored kvs) {v : PyVal} {n' : ℕ}
    (hv : v.Quarters n') : Turns n' mirrored (Table.put kvs "rotate" v) where
  unique := Table.put_nodup h.unique "rotate" v
  rotate := by
    rw [Table.lookup_put_self]
    exact hv
  mirror := by
    rw [Table.lookup_put_ne kvs (by decide)]
    exact h.mirror

theorem Turns.put_mirror {kvs : List (String × PyVal)} (h : Turns n mirrored kvs) (v : PyVal) :
    Turns n v.truthy (Table.put kvs "mirror" v) where
  unique := Table.put_nodup h.unique "mirror" v
  rotate := by
    rw [Table.lookup_put_ne kvs (by decide)]
    exact h.rotate
  mirror := by
    rw [Table.lookup_put_self]
    rfl

theorem Turns.overlay_defaults {kvs : List (String × PyVal)} (h : Turns n mirrored kvs) :
    Turns n mirrored (Table.overlay cameraDefaults kvs) where
  unique := Table.overlay_nodup (by decide) kvs
  rotate := by
    have hdefault : cameraDefaults.lookup "rotate" = some (.int 0) := rfl
    rw [Table.lookup_overlay_of_nodup cameraDefaults h.unique, hdefault, Option.or_some, Option.getD_some]
    exact h.rotate
  mirror := by
    have hdefault : cameraDefaults.lookup "mirror" = some (.bool false) := rfl
    rw [Table.lookup_overlay_of_nodup cameraDefaults h.unique, hdefault, Option.or_some, Option.getD_some, ← h.mirror]
    cases kvs.lookup "mirror" <;> rfl

/-! ### Requests -/

theorem keeps_updateConfig {f : Config → Except PyErr Config}
    (hf : ∀ config config', f config = .ok config' → Turned devId n mirrored config → Turned devId n mirrored config') :
    Along (ε := PyErr) (Keeps (Turned devId n mirrored)) (updateConfig f) := by
  refine Along.get_bind fun config h => ?_
  cases hconfig : f config with
  | error e => exact h
  | ok config' => exact hf config config' hconfig h

/-- A camera's part of an overlay says nothing about turning. -/
def PyVal.leavesTurn : PyVal → Bool
  | .dict kvs => kvs.all fun kv => kv.1 != "rotate" && kv.1 != "mirror"
  | _ => true

/-- An overlay leaves the cameras a mapping, and says nothing about turning this one. -/
def leavesTurn (devId : String) (new : List (String × PyVal)) : Bool :=
  new.all fun item => item.1 != "cameras" ||
    match item.2 with
    | .dict cams => cams.all fun cam => cam.1 != devId || cam.2.leavesTurn
    | _ => false

theorem PyVal.leavesTurn_orEmpty {cfg : PyVal} (h : cfg.leavesTurn) {kvs : List (String × PyVal)}
    (hkvs : cfg.orEmpty = .dict kvs) : "rotate" ∉ kvs.map Prod.fst ∧ "mirror" ∉ kvs.map Prod.fst := by
  have hall : ∀ kv ∈ kvs, kv.1 ≠ "rotate" ∧ kv.1 ≠ "mirror" := by
    unfold PyVal.orEmpty at hkvs
    split at hkvs
    · subst hkvs
      simpa [PyVal.leavesTurn] using h
    · cases hkvs
      simp
  constructor
  · intro hmem
    obtain ⟨kv, hkv, hkey⟩ := List.mem_map.1 hmem
    exact (hall kv hkv).1 hkey
  · intro hmem
    obtain ⟨kv, hkv, hkey⟩ := List.mem_map.1 hmem
    exact (hall kv hkv).2 hkey

theorem keeps_overlayCamera {cid : String} {cfg : PyVal} (h : cid = devId → cfg.leavesTurn) :
    Along (ε := PyErr) (Keeps (Turned devId n mirrored)) (updateConfig (overlayCamera cid cfg)) := by
  refine keeps_updateConfig fun config config' hconfig hturned => ?_
  obtain ⟨cameras, old, kvs, hcameras, hold, hkvs, rfl⟩ := overlayCamera_ok hconfig
  by_cases hcid : cid = devId
  · subst hcid
    obtain ⟨kvs₀, hentry, hturns⟩ := hturned
    obtain rfl : kvs₀ = old := by
      rw [hentry.cameraConfig] at hold
      cases hold
      rfl
    obtain ⟨hrotate, hmirror⟩ := PyVal.leavesTurn_orEmpty (h rfl) hkvs
    refine ⟨_, hasEntry_put config cameras cid _, Table.overlay_nodup hturns.unique kvs, ?_, ?_⟩
    · rw [Table.lookup_overlay_of_notMem kvs₀ hrotate]
      exact hturns.rotate
    · rw [Table.lookup_overlay_of_notMem kvs₀ hmirror]
      exact hturns.mirror
  · exact hturned.put_ne hcameras (Ne.symm hcid) _

theorem keeps_applyConfig {new : List (String × PyVal)} (h : leavesTurn devId new) :
    Along (ε := PyErr) (Keeps (Turned devId n mirrored)) (applyConfig new) := by
  refine Along.forM fun item hitem => ?_
  have hleaves := List.all_eq_true.1 h item hitem
  obtain ⟨key, value⟩ := item
  show Along (Keeps (Turned devId n mirrored)) (applyItem key value)
  unfold applyItem
  split
  · rename_i cams
    have hcams : cams.all (fun cam => cam.1 != devId || cam.2.leavesTurn) = true := by simpa using hleaves
    refine Along.bind (Along.modify fun config hturned => ?_) fun _ => Along.forM fun cam hcam => ?_
    · obtain ⟨kvs, ⟨cameras, hcameras, hentry⟩, hturns⟩ := id hturned
      rw [setDefault, if_pos (by rw [hcameras]; rfl)]
      exact hturned
    · refine keeps_overlayCamera fun hcid => ?_
      simpa [hcid] using List.all_eq_true.1 hcams cam hcam
  · rename_i hother
    refine Along.modify fun config hturned => hturned.put_other (fun hkey => ?_) value
    subst hkey
    cases value with
    | dict cams => exact hother cams rfl rfl
    | _ => simp at hleaves

theorem keeps_handleConfigPost {body : Option PyVal} (h : leavesTurn devId (ConfigRequest.configPost body).overlaid) :
    Along (Keeps (Turned devId n mirrored)) (handleConfigPost body) := by
  unfold handleConfigPost
  split
  · exact keeps_applyConfig h
  · exact Along.pure _

theorem keeps_reloadConfig {file : Option PyVal} (h : leavesTurn devId (ConfigRequest.configReload file).overlaid) :
    Along (Keeps (Turned devId n mirrored)) (reloadConfig file) := by
  unfold reloadConfig
  cases file with
  | none => exact Along.pure _
  | some parsed =>
    dsimp only
    dsimp only [ConfigRequest.overlaid] at h
    split
    · rename_i new hnew
      rw [hnew] at h
      exact keeps_applyConfig h
    · exact Along.lift (.error _)

/-! ### The buttons -/

theorem final_updateConfig {f : Config → Except PyErr Config} {config config' : Config} (h : f config = .ok config') :
    final (updateConfig f) config = config' := by
  unfold updateConfig
  rw [final, get_bind_apply, h]
  rfl

theorem HasEntry.cameraEntry {config : Config} {kvs : List (String × PyVal)} (h : HasEntry config devId kvs) :
    cameraEntry config devId = .ok (.dict kvs) := by
  obtain ⟨cameras, hcameras, hentry⟩ := h
  rw [CamReverse.cameraEntry, configCameras, hcameras, except_ok_bind]
  simp only [hentry]
  rfl

theorem HasEntry.setCameraField {config : Config} {kvs : List (String × PyVal)} (h : HasEntry config devId kvs)
    (k : String) (v : PyVal) : ∃ cameras, config.lookup "cameras" = some (.dict cameras) ∧
      setCameraField config devId k v = .ok (putEntry config cameras devId (Table.put kvs k v)) := by
  rw [CamReverse.setCameraField, h.cameraEntry, except_ok_bind]
  obtain ⟨cameras, hcameras, hentry⟩ := h
  refine ⟨cameras, hcameras, ?_⟩
  simp only [setCameraConfig, configCameras, hcameras, except_ok_bind]
  rfl

theorem Turned.handleRotate {config : Config} (h : Turned devId n mirrored config) :
    Turned devId (n + 1) mirrored (final (handleRotate devId) config) := by
  obtain ⟨kvs, hentry, hturns⟩ := h
  obtain ⟨nxt, hnxt, hquarters⟩ := hturns.rotate.next
  obtain ⟨cameras, -, hset⟩ := hentry.setCameraField "rotate" nxt
  have hfinal : final (CamReverse.handleRotate devId) config =
      putEntry config cameras devId (Table.put kvs "rotate" nxt) := by
    refine final_updateConfig ?_
    simp only [hentry.cameraConfig, except_ok_bind, PyVal.get, hnxt, hset]
  rw [hfinal]
  exact ⟨_, hasEntry_put config cameras devId _, hturns.put_rotate hquarters⟩

theorem Turned.handleMirror {config : Config} (h : Turned devId n mirrored config) :
    Turned devId n (!mirrored) (final (handleMirror devId) config) := by
  obtain ⟨kvs, hentry, hturns⟩ := h
  obtain ⟨cameras, hcameras, hset⟩ := hentry.setCameraField "mirror" (.bool !mirrored)
  have hfinal : final (CamReverse.handleMirror devId) config =
      putEntry config cameras devId (Table.put kvs "mirror" (.bool !mirrored)) := by
    refine final_updateConfig ?_
    simp only [hentry.cameraEntry, except_ok_bind, PyVal.get, hturns.mirror, hset]
  rw [hfinal]
  exact ⟨_, hasEntry_put config cameras devId _, hturns.put_mirror (.bool !mirrored)⟩

theorem keeps_handleRotate {devId' : String} (hne : devId' ≠ devId) :
    Along (ε := PyErr) (Keeps (Turned devId n mirrored)) (CamReverse.handleRotate devId') := by
  refine keeps_updateConfig fun config config' hconfig hturned => ?_
  obtain ⟨cam, hcam, hconfig⟩ := except_bind_eq_ok hconfig
  obtain ⟨cur, hcur, hconfig⟩ := except_bind_eq_ok hconfig
  obtain ⟨nxt, hnxt, hconfig⟩ := except_bind_eq_ok hconfig
  obtain ⟨cameras, kvs, hcameras, hentry, rfl⟩ := setCameraField_ok hconfig
  exact hturned.put_ne hcameras hne.symm _

theorem keeps_handleMirror {devId' : String} (hne : devId' ≠ devId) :
    Along (ε := PyErr) (Keeps (Turned devId n mirrored)) (CamReverse.handleMirror devId') := by
  refine keeps_updateConfig fun config config' hconfig hturned => ?_
  obtain ⟨cam, hcam, hconfig⟩ := except_bind_eq_ok hconfig
  obtain ⟨mirror, hmirror, hconfig⟩ := except_bind_eq_ok hconfig
  obtain ⟨cameras, kvs, hcameras, hentry, rfl⟩ := setCameraField_ok hconfig
  exact hturned.put_ne hcameras hne.symm _

/-! ### The server -/

def ServiceStep.rotates (devId : String) : ServiceStep → Bool
  | .request (.rotate devId') => devId' == devId
  | _ => false

def ServiceStep.mirrors (devId : String) : ServiceStep → Bool
  | .request (.mirror devId') => devId' == devId
  | _ => false

/-- A step that brings no configuration that says something about turning this camera. -/
def ServiceStep.leavesTurn (devId : String) : ServiceStep → Bool
  | .request r => CamReverse.leavesTurn devId r.overlaid
  | .other _ _ => true

theorem Turned.discover {srv : Server} (h : Turned devId n mirrored srv.web.config) (rinfo : String × ℕ)
    (dev : DevSerial) : Turned devId n mirrored (final (onDiscover rinfo dev) srv).web.config := by
  cases hknown : srv.web.sessions.find? dev.devId with
  | some k =>
    rw [discover_known (by rw [hknown]; rfl)]
    exact h
  | none =>
    by_cases hmergeable : mergeable srv.web.config dev.devId = true
    · obtain ⟨cameras, given, hcameras, hgiven⟩ := cameraConfig_of_mergeable hmergeable
      have hconfig := withCameraDefaults_eq hcameras hgiven
      obtain ⟨audio, haudio⟩ := (hasEntry_put srv.web.config cameras dev.devId _).cameraAudio
      rw [final, discover_ok hknown hconfig haudio]
      show Turned devId n mirrored (putEntry srv.web.config cameras dev.devId _)
      by_cases hdev : dev.devId = devId
      · subst hdev
        obtain ⟨kvs, hentry, hturns⟩ := h
        rw [hentry.cameraConfig] at hgiven
        cases hgiven
        exact ⟨_, hasEntry_put srv.web.config cameras dev.devId _, hturns.overlay_defaults⟩
      · exact h.put_ne hcameras (Ne.symm hdev) _
    · obtain ⟨e, hconfig⟩ := withCameraDefaults_error hmergeable
      rw [final, discover_error hknown hconfig]
      exact h

theorem Turned.step {srv : Server} (h : Turned devId n mirrored srv.web.config) {step : ServerStep}
    (hstep : step.configures = false) : Turned devId n mirrored (srv.step step).web.config := by
  rcases step_cases srv step with hclient | ⟨rinfo, dev, rfl⟩ | ⟨config, rfl⟩ | ⟨-, hsame⟩ | ⟨k, now, c, -, hsession⟩
  · rw [(client_keeps srv hclient).2.2.2]
    exact h
  · exact h.discover rinfo dev
  · cases hstep
  · rwa [hsame]
  · rw [hsession, (onSession_leaves srv k now c).2.1]
    exact h

/-- **One step** counts the presses of the camera's buttons. -/
theorem Turned.serve {srv : Server} (h : Turned devId n mirrored srv.web.config) {step : ServiceStep}
    (hleaves : step.leavesTurn devId) :
    Turned devId (n + (step.rotates devId).toNat) (mirrored ^^ step.mirrors devId) (srv.serve step).web.config := by
  cases step with
  | other step hstep =>
    show Turned devId n (mirrored ^^ false) (srv.step step).web.config
    rw [Bool.xor_false]
    exact h.step hstep
  | request r =>
    cases r with
    | configPost body =>
      show Turned devId n (mirrored ^^ false) (final (handleConfigPost body) srv.web.config)
      rw [Bool.xor_false]
      exact keeps_handleConfigPost hleaves srv.web.config h
    | configReload file =>
      show Turned devId n (mirrored ^^ false) (final (reloadConfig file) srv.web.config)
      rw [Bool.xor_false]
      exact keeps_reloadConfig hleaves srv.web.config h
    | rotate devId' =>
      show Turned devId (n + (devId' == devId).toNat) (mirrored ^^ false) (final (CamReverse.handleRotate devId') _)
      rw [Bool.xor_false]
      by_cases hdev : devId' = devId
      · subst hdev
        rw [beq_self_eq_true]
        exact h.handleRotate
      · rw [beq_false_of_ne hdev]
        exact keeps_handleRotate hdev srv.web.config h
    | mirror devId' =>
      show Turned devId n (mirrored ^^ (devId' == devId)) (final (CamReverse.handleMirror devId') _)
      by_cases hdev : devId' = devId
      · subst hdev
        rw [beq_self_eq_true, Bool.xor_true]
        exact h.handleMirror
      · rw [beq_false_of_ne hdev, Bool.xor_false]
        exact keeps_handleMirror hdev srv.web.config h

theorem Turned.run {srv : Server} {steps : List ServiceStep} (h : Turned devId n mirrored srv.web.config)
    (hleaves : ∀ step ∈ steps, step.leavesTurn devId) :
    Turned devId (n + steps.countP (·.rotates devId)) (mirrored ^^ (steps.countP (·.mirrors devId)).bodd)
      (steps.foldl Server.serve srv).web.config := by
  induction steps generalizing srv n mirrored with
  | nil =>
    rwa [List.countP_nil, List.countP_nil, Nat.bodd_zero, Bool.xor_false]
  | cons step steps ih =>
    have hstep := h.serve (hleaves step List.mem_cons_self)
    have hrun := ih hstep fun step' hmem => hleaves step' (List.mem_cons_of_mem _ hmem)
    have hturns : n + (step :: steps).countP (·.rotates devId) =
        n + (step.rotates devId).toNat + steps.countP (·.rotates devId) := by
      rw [List.countP_cons]
      cases step.rotates devId with
      | false => rfl
      | true =>
        show n + (steps.countP (·.rotates devId) + 1) = n + 1 + steps.countP (·.rotates devId)
        omega
    have hmirror : (mirrored ^^ ((step :: steps).countP (·.mirrors devId)).bodd) =
        (mirrored ^^ step.mirrors devId ^^ (steps.countP (·.mirrors devId)).bodd) := by
      rw [List.countP_cons, Nat.bodd_add]
      cases step.mirrors devId <;> simp
    rw [hturns, hmirror]
    exact hrun

end Turned

/-- **Frames are shown as the buttons say.** From any state in which the settings of a camera count `n` quarter turns,
and along any run whose configurations say nothing else about them, a frame that starts like a picture file and has no
EXIF segment is given one that makes of it the picture after these turns and one more for each press, mirrored if the
settings and the presses of the other button say so; and without the segment it is the frame of the camera. -/
theorem frames_turned {devId : String} {n : ℕ} {mirrored : Bool} {srv : Server}
    (h : Turned devId n mirrored srv.web.config) {steps : List ServiceStep}
    (hleaves : ∀ step ∈ steps, step.leavesTurn devId) {first : Bytes} (hstart : [0xFF, 0xD8] <+: first)
    (hplain : ¬[0xFF, 0xE1] <:+: first) (rest : List Bytes) :
    ∃ jpeg o, assembleFrame (steps.foldl Server.serve srv).web.config devId (first :: rest) = .ok jpeg ∧
      Exif.read jpeg = some (o, (first :: rest).flatten) ∧
      ∀ (α : Type) (p : Picture α), p.shown o =
        some (p.turned (n + steps.countP (·.rotates devId)) (mirrored ^^ (steps.countP (·.mirrors devId)).bodd)) :=
  (h.run hleaves).assembleFrame hstart hplain rest

/-- A camera that was turned three times already is discovered, turned, mirrored and told to be silent, and another one is
turned. -/
def pressed : List ServiceStep :=
  [.other (.discover ("192.168.1.7", 32108) aCamera) rfl, .request (.rotate aCamera.devId), .request (.mirror aCamera.devId),
    .request (.configPost (some (.dict [("cameras", .dict [(aCamera.devId, .dict [("audio", .bool false)])])]))),
    .request (.rotate "PPPP000002FGHIJ")]

/-- The pictures of that camera are shown as they are stored, but mirrored. -/
theorem frames_turned_pressed :
    ∃ jpeg o, assembleFrame (pressed.foldl Server.serve (.start (loadConfig
        [("cameras", .dict [(aCamera.devId, .dict [("rotate", .int (-1))])])]))).web.config aCamera.devId
          [JPEG_HEADER, [0x42]] = .ok jpeg ∧
      Exif.read jpeg = some (o, JPEG_HEADER ++ [0x42]) ∧
      ∀ (α : Type) (p : Picture α), p.shown o = some (p.turned 4 true) := by
  have hturned : Turned aCamera.devId 3 false (Server.start (loadConfig
      [("cameras", .dict [(aCamera.devId, .dict [("rotate", .int (-1))])])])).web.config :=
    ⟨[("rotate", .int (-1))], ⟨_, rfl, rfl⟩, by decide, ⟨-1, rfl, by decide, by decide, by decide⟩, rfl⟩
  have hleaves : ∀ step ∈ pressed, step.leavesTurn aCamera.devId := by decide
  have hstart : [0xFF, 0xD8] <+: JPEG_HEADER := by decide
  have hplain : ¬[0xFF, 0xE1] <:+: JPEG_HEADER := by decide
  have hcounts : pressed.countP (·.rotates aCamera.devId) = 1 ∧ pressed.countP (·.mirrors aCamera.devId) = 1 := by
    decide
  have h := frames_turned hturned hleaves hstart hplain [[0x42]]
  rw [hcounts.1, hcounts.2] at h
  exact h

end CamReverse
