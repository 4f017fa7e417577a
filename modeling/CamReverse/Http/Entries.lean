import CamReverse.Http.Media
import CamReverse.Lib.Effect

/-!
# Entries of cameras in the configuration

`settings.config["cameras"]` should map the name of a camera to its settings, but whoever writes the
configuration file may put any value in either place. A discovery completes the entry of its camera exactly
if the two are mappings, as far as they are there (`withCameraDefaults_ok`, `withCameraDefaults_error`).
-/

namespace CamReverse

open Effect

/-- The defaults of a discovered camera. -/
def cameraDefaults : List (String × PyVal) :=
  [("rotate", .int 0), ("mirror", .bool false), ("audio", .bool true)]

/-- The cameras are a mapping, and the entry of this camera, if it has one, is a mapping. -/
def mergeable (config : Config) (devId : String) : Bool :=
  match config.lookup "cameras" with
  | some (.dict cameras) =>
    match cameras.lookup devId with
    | none => true
    | some (.dict _) => true
    | some _ => false
  | _ => false

/-- `settings.config["cameras"][dev_id]` is the mapping `kvs`. -/
def HasEntry (config : Config) (devId : String) (kvs : List (String × PyVal)) : Prop :=
  ∃ cameras, config.lookup "cameras" = some (.dict cameras) ∧ cameras.lookup devId = some (.dict kvs)

theorem HasEntry.cameraConfig {config : Config} {devId : String} {kvs : List (String × PyVal)}
    (h : HasEntry config devId kvs) : cameraConfig config devId = .ok (.dict kvs) := by
  obtain ⟨cameras, hcameras, hentry⟩ := h
  unfold CamReverse.cameraConfig configCameras
  rw [hcameras]
  simp only [except_ok_bind, PyVal.get, hentry, Option.getD_some]

theorem cameraConfig_ok {config : Config} {devId : String} {cam : PyVal} (h : cameraConfig config devId = .ok cam) :
    ∃ cameras, config.lookup "cameras" = some (.dict cameras) ∧ (cameras.lookup devId).getD (.dict []) = cam := by
  unfold cameraConfig configCameras at h
  cases hlookup : config.lookup "cameras" with
  | none =>
    rw [hlookup] at h
    cases h
  | some v =>
    rw [hlookup, except_ok_bind] at h
    cases v with
    | dict cameras => exact ⟨cameras, rfl, Except.ok.inj h⟩
    | _ => cases h

theorem HasEntry.cameraAudio {config : Config} {devId : String} {kvs : List (String × PyVal)}
    (h : HasEntry config devId kvs) : ∃ audio, cameraAudio config devId = .ok audio := by
  obtain ⟨cameras, hcameras, hentry⟩ := h
  unfold CamReverse.cameraAudio configCameras
  rw [hcameras]
  simp only [except_ok_bind, hentry]
  exact ⟨_, rfl⟩

/-- The entry of a camera holds, under each key, what the configuration said or else the default. -/
def CompletedEntry (config config' : Config) (devId : String) : Prop :=
  ∃ given kvs, cameraConfig config devId = .ok (.dict given) ∧ HasEntry config' devId kvs ∧
    ∀ k, (∃ v, (k, v) ∈ given ∧ kvs.lookup k = some v) ∨
      (k ∉ given.map Prod.fst ∧ kvs.lookup k = cameraDefaults.lookup k)

theorem cameraConfig_of_mergeable {config : Config} {devId : String} (h : mergeable config devId) :
    ∃ cameras given, config.lookup "cameras" = some (.dict cameras) ∧
      cameraConfig config devId = .ok (.dict given) := by
  unfold mergeable at h
  split at h
  · rename_i cameras hcameras
    unfold cameraConfig configCameras
    rw [hcameras]
    simp only [except_ok_bind, PyVal.get]
    split at h
    · exact ⟨cameras, [], rfl, by simp [*]⟩
    · exact ⟨cameras, _, rfl, by simp [*]; rfl⟩
    · cases h
  · cases h

/-- The configuration after `settings.config["cameras"][dev_id] = kvs`, where `cameras` are the cameras. -/
def putEntry (config : Config) (cameras : List (String × PyVal)) (devId : String)
    (kvs : List (String × PyVal)) : Config :=
  Table.put config "cameras" (.dict (Table.put cameras devId (.dict kvs)))

theorem hasEntry_put (config : Config) (cameras : List (String × PyVal)) (devId : String)
    (kvs : List (String × PyVal)) : HasEntry (putEntry config cameras devId kvs) devId kvs :=
  ⟨_, Table.lookup_put_self _ _ _, Table.lookup_put_self _ _ _⟩

theorem HasEntry.put_ne {config : Config} {cameras : List (String × PyVal)} {devId : String}
    {kvs : List (String × PyVal)} (h : HasEntry config devId kvs)
    (hcameras : config.lookup "cameras" = some (.dict cameras)) {devId' : String} (hne : devId ≠ devId')
    (kvs' : List (String × PyVal)) : HasEntry (putEntry config cameras devId' kvs') devId kvs := by
  obtain ⟨cameras', hcameras', hentry⟩ := h
  obtain rfl : cameras = cameras' := by
    rw [hcameras] at hcameras'
    cases hcameras'
    rfl
  exact ⟨_, Table.lookup_put_self _ _ _, (Table.lookup_put_ne cameras hne _).trans hentry⟩

theorem setCameraConfig_ok {config config' : Config} {devId : String} {kvs : List (String × PyVal)}
    (h : setCameraConfig config devId (.dict kvs) = .ok config') :
    ∃ cameras, config.lookup "cameras" = some (.dict cameras) ∧ config' = putEntry config cameras devId kvs := by
  unfold setCameraConfig configCameras at h
  cases hlookup : config.lookup "cameras" with
  | none =>
    rw [hlookup] at h
    cases h
  | some v =>
    rw [hlookup, except_ok_bind] at h
    cases v with
    | dict cameras => exact ⟨cameras, rfl, (Except.ok.inj h).symm⟩
    | _ => cases h

theorem withCameraDefaults_eq {config : Config} {cameras given : List (String × PyVal)} {devId : String}
    (hcameras : config.lookup "cameras" = some (.dict cameras))
    (hgiven : cameraConfig config devId = .ok (.dict given)) :
    withCameraDefaults config devId =
      .ok (putEntry config cameras devId (Table.overlay cameraDefaults given)) := by
  unfold withCameraDefaults setCameraConfig configCameras
  rw [hgiven, hcameras]
  rfl

theorem withCameraDefaults_ok {config : Config} {devId : String} (h : mergeable config devId) :
    ∃ config', withCameraDefaults config devId = .ok config' ∧ CompletedEntry config config' devId := by
  obtain ⟨cameras, given, hcameras, hgiven⟩ := cameraConfig_of_mergeable h
  exact ⟨_, withCameraDefaults_eq hcameras hgiven, given, _, hgiven, hasEntry_put config cameras devId _,
    Table.lookup_overlay cameraDefaults given⟩

theorem withCameraDefaults_error {config : Config} {devId : String} (h : ¬mergeable config devId) :
    ∃ e, withCameraDefaults config devId = .error e := by
  unfold mergeable at h
  unfold withCameraDefaults cameraConfig configCameras
  split at h
  · rename_i cameras hcameras
    rw [hcameras]
    simp only [except_ok_bind, PyVal.get]
    split at h
    · simp at h
    · simp at h
    · rename_i v hv hentry
      rw [hentry]
      cases v <;> first | exact ⟨_, rfl⟩ | exact absurd rfl (hv _)
  · rename_i hcameras
    cases hlookup : config.lookup "cameras" with
    | none => exact ⟨_, rfl⟩
    | some v => cases v <;> first | exact ⟨_, rfl⟩ | exact absurd hlookup (hcameras _)

theorem mergeable_of_cameraConfig {config : Config} {cameras given : List (String × PyVal)} {devId : String}
    (hcameras : config.lookup "cameras" = some (.dict cameras))
    (hgiven : cameraConfig config devId = .ok (.dict given)) : mergeable config devId := by
  refine Decidable.byContradiction fun h => ?_
  obtain ⟨e, he⟩ := withCameraDefaults_error h
  rw [withCameraDefaults_eq hcameras hgiven] at he
  cases he

end CamReverse
