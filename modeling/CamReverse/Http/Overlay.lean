import CamReverse.Http.Saving

/-!
# What an overlay leaves

Where the cameras are mappings, an overlay says under each key, and in each field of each camera, what it brings,
and the rest stays (`Overlaid`). What it brings is found behind the run as no other write is to that place, and
what it does not bring is written by none of its writes.
-/

namespace CamReverse

open Effect Edits

/-! ### Cameras and fields -/

/-- `config["cameras"][cid]`, if it is there. -/
def cameraAt (config : Config) (cid : String) : Option PyVal :=
  match config.lookup "cameras" with
  | some (.dict cameras) => cameras.lookup cid
  | _ => none

/-- `config["cameras"][cid][k]`, if it is there. -/
def cameraField (config : Config) (cid k : String) : Option PyVal :=
  match cameraAt config cid with
  | some (.dict kvs) => kvs.lookup k
  | _ => none

/-- `cameras` maps ids to mappings. -/
def MapsCameras (config : Config) : Prop :=
  ∃ cameras, config.lookup "cameras" = some (.dict cameras) ∧ ∀ cam ∈ cameras, cam.2.isDict = true

/-- `cameras`, if present, maps ids to mappings or null. -/
def OverlaysCameras (new : List (String × PyVal)) : Prop :=
  ∀ v, new.lookup "cameras" = some v →
    ∃ cams, v = .dict cams ∧ ∀ cam ∈ cams, cam.2.isDict = true ∨ cam.2 = .none

/-- What an overlay makes of a configuration. -/
structure Overlaid (config new config' : Config) : Prop where
  others : ∀ k, k ≠ "cameras" → config'.lookup k = (new.lookup k).or (config.lookup k)
  cameras : ∀ cid, (cameraAt config' cid).isSome = ((cameraAt new cid).isSome || (cameraAt config cid).isSome)
  fields : ∀ cid k, cameraField config' cid k = (cameraField new cid k).or (cameraField config cid k)

theorem hasEntry_iff {config : Config} {cid : String} {kvs : List (String × PyVal)} :
    HasEntry config cid kvs ↔ cameraAt config cid = some (.dict kvs) := by
  unfold HasEntry cameraAt
  constructor
  · rintro ⟨cameras, hcameras, hlookup⟩
    rw [hcameras]
    exact hlookup
  · intro h
    split at h
    · rename_i cameras hcameras
      exact ⟨cameras, hcameras, h⟩
    · cases h

theorem HasEntry.cameraField {config : Config} {cid : String} {kvs : List (String × PyVal)}
    (h : HasEntry config cid kvs) (k : String) : cameraField config cid k = kvs.lookup k := by
  simp only [CamReverse.cameraField, hasEntry_iff.1 h]

theorem cameraField_of_cameraConfig {config : Config} {cid : String} {kvs : List (String × PyVal)}
    (h : cameraConfig config cid = .ok (.dict kvs)) (k : String) : cameraField config cid k = kvs.lookup k := by
  obtain ⟨cameras, hcameras, hcam⟩ := cameraConfig_ok h
  simp only [cameraField, cameraAt, hcameras]
  cases hlookup : cameras.lookup cid with
  | none =>
    rw [hlookup] at hcam
    cases hcam
    rfl
  | some cam =>
    rw [hlookup] at hcam
    cases hcam
    rfl

theorem PyVal.orEmpty_dict (kvs : List (String × PyVal)) : (PyVal.dict kvs).orEmpty = .dict kvs := by
  cases kvs <;> rfl

/-! ### What a write leaves -/

theorem cameraAt_congr {config config' : Config} (h : config'.lookup "cameras" = config.lookup "cameras")
    (cid : String) : cameraAt config' cid = cameraAt config cid := by
  simp only [cameraAt, h]

theorem cameraAt_setDefault (config : Config) (cid : String) :
    cameraAt (setDefault "cameras" (.dict []) config) cid = cameraAt config cid := by
  simp only [cameraAt, lookup_setDefault]
  cases config.lookup "cameras" <;> rfl

theorem cameraAt_putEntry_ne {config : Config} {cameras : List (String × PyVal)}
    (hcameras : config.lookup "cameras" = some (.dict cameras)) {cid cid' : String} (hne : cid' ≠ cid)
    (kvs : List (String × PyVal)) : cameraAt (putEntry config cameras cid kvs) cid' = cameraAt config cid' := by
  simp only [cameraAt, putEntry, Table.lookup_put_self, hcameras, Table.lookup_put_ne cameras hne]

/-- A write that is not for this camera, and keeps the cameras a mapping. -/
def ConfigEdit.Spares (cid : String) : ConfigEdit → Prop
  | .put key _ => key ≠ "cameras"
  | .makeCameras => True
  | .camera cid' _ => cid ≠ cid'

theorem cameraAt_apply {config config' : Config} {cid : String} {e : ConfigEdit} (hspares : e.Spares cid)
    (h : e.apply config = .ok config') : cameraAt config' cid = cameraAt config cid := by
  cases e with
  | put key value => exact cameraAt_congr (lookup_apply_ne h (Ne.symm hspares)) cid
  | makeCameras =>
    cases h
    exact cameraAt_setDefault config cid
  | camera cid' cfg =>
    obtain ⟨cameras, old, kvs, hcameras, -, -, rfl⟩ := overlayCamera_ok h
    rw [cameraAt_putEntry_ne hcameras hspares, cameraAt_setDefault]

theorem cameraField_apply {config config' : Config} {cid : String} {cfg : PyVal}
    (h : ConfigEdit.apply (.camera cid cfg) config = .ok config') {k : String}
    (hk : ∀ given, cfg.orEmpty = .dict given → given.lookup k = none) :
    cameraField config' cid k = cameraField config cid k := by
  obtain ⟨cameras, old, given, hcameras, hold, hgiven, rfl⟩ := overlayCamera_ok h
  rw [(hasEntry_put _ cameras cid _).cameraField]
  rw [Table.lookup_overlay_of_notMem old (Table.notMem_of_lookup (hk given hgiven)),
    ← cameraField_of_cameraConfig hold]
  simp only [cameraField, cameraAt_setDefault]

/-! ### The overlay -/

section Overlay

variable {config : Config} {new : List (String × PyVal)}

theorem OverlaysCameras.cams (hnew : OverlaysCameras new) (hkeys : UniqueKeys new) {v : PyVal}
    (h : ("cameras", v) ∈ new) : ∃ cams, v = .dict cams ∧ ∀ cam ∈ cams, cam.2.isDict = true ∨ cam.2 = .none :=
  hnew v (Table.lookup_of_mem hkeys.keys h)

theorem spares_or_camera (hnew : OverlaysCameras new) (hkeys : UniqueKeys new) (cid : String) {e : ConfigEdit}
    (he : e ∈ edits new) : e.Spares cid ∨ ∃ cfg, e = .camera cid cfg ∧ cameraAt new cid = some cfg := by
  rcases mem_edits he with ⟨key, value, rfl, hitem, hother⟩ | ⟨cams, hcams, rfl | ⟨⟨cid', cfg⟩, hcam, rfl⟩⟩
  · refine .inl fun hkey => ?_
    rw [hkey] at hitem
    obtain ⟨cams, rfl, -⟩ := hnew.cams hkeys hitem
    exact hother cams hkey rfl
  · exact .inl trivial
  · by_cases hcid : cid = cid'
    · subst hcid
      refine .inr ⟨cfg, rfl, ?_⟩
      simp only [cameraAt, Table.lookup_of_mem hkeys.keys hcams]
      exact Table.lookup_of_mem (hkeys.cameras cams hcams) hcam
    · exact .inl hcid

theorem camera_mem {cid : String} {cfg : PyVal} (h : cameraAt new cid = some cfg) :
    .camera cid cfg ∈ edits new := by
  unfold cameraAt at h
  split at h
  · rename_i cams hcams
    exact camera_mem_edits (Table.mem_of_lookup hcams) (Table.mem_of_lookup h)
  · cases h

theorem fails_edits (hconfig : MapsCameras config) (hnew : OverlaysCameras new) (hkeys : UniqueKeys new) :
    ∀ e ∈ edits new, e.fails config = false := by
  intro e he
  rcases mem_edits he with ⟨key, value, rfl, -, -⟩ | ⟨cams, hcams, rfl | ⟨cam, hcam, rfl⟩⟩
  · rfl
  · rfl
  · obtain ⟨cameras, hcameras, hdicts⟩ := hconfig
    have hmergeable : mergeable config cam.1 = true := by
      simp only [mergeable, hcameras]
      cases hlookup : cameras.lookup cam.1 with
      | none => rfl
      | some old =>
        obtain ⟨kvs, rfl⟩ := PyVal.isDict_iff.1 (hdicts _ (Table.mem_of_lookup hlookup))
        rfl
    have hdict : cam.2.orEmpty.isDict = true := by
      obtain ⟨cams', hsame, hvalues⟩ := hnew.cams hkeys hcams
      cases hsame
      rcases hvalues cam hcam with hisDict | hnone
      · obtain ⟨kvs, hkvs⟩ := PyVal.isDict_iff.1 hisDict
        rw [hkvs, PyVal.orEmpty_dict]
        rfl
      · rw [hnone]
        rfl
    rw [ConfigEdit.fails, setDefault_of_hasCameras (hasCameras_of_lookup hcameras), hmergeable, hdict]
    rfl

theorem holds_edits (hconfig : MapsCameras config) (hnew : OverlaysCameras new) (hkeys : UniqueKeys new) :
    ∀ e ∈ edits new, e.Holds (final (applyConfig new) config) := by
  intro e he
  rw [applyConfig_eq]
  refine mergeLaws.holds_made (apart_edits hkeys) (proper_edits hkeys) config e ?_
  rwa [mergeLaws.made_of_returns (fails_edits hconfig hnew hkeys)]

theorem cameraAt_applyConfig (hnew : OverlaysCameras new) (hkeys : UniqueKeys new) {cid : String}
    (h : cameraAt new cid = none) : cameraAt (final (applyConfig new) config) cid = cameraAt config cid := by
  rw [applyConfig_eq]
  refine final_run_frame (f := fun config => cameraAt config cid) (fun e he s t happly => ?_) config
  rcases spares_or_camera hnew hkeys cid he with hspares | ⟨cfg, -, hcfg⟩
  · exact cameraAt_apply hspares happly
  · rw [h] at hcfg
    cases hcfg

theorem cameraField_applyConfig (hnew : OverlaysCameras new) (hkeys : UniqueKeys new) {cid k : String}
    (h : cameraField new cid k = none) :
    cameraField (final (applyConfig new) config) cid k = cameraField config cid k := by
  rw [applyConfig_eq]
  refine final_run_frame (f := fun config => cameraField config cid k) (fun e he s t happly => ?_) config
  rcases spares_or_camera hnew hkeys cid he with hspares | ⟨cfg, rfl, hcfg⟩
  · simp only [cameraField, cameraAt_apply hspares happly]
  · refine cameraField_apply happly fun given hgiven => ?_
    rcases PyVal.of_orEmpty hgiven with rfl | rfl
    · rwa [(hasEntry_iff.2 hcfg).cameraField] at h
    · rfl

/-- **The overlay, place by place.** -/
theorem overlaid_applyConfig (hconfig : MapsCameras config) (hnew : OverlaysCameras new) (hkeys : UniqueKeys new) :
    Overlaid config new (final (applyConfig new) config) := by
  have hholds := holds_edits hconfig hnew hkeys
  refine ⟨fun k hk => ?_, fun cid => ?_, fun cid k => ?_⟩
  · cases hlookup : new.lookup k with
    | some v => exact hholds _ (put_mem_edits (Table.mem_of_lookup hlookup) hk)
    | none =>
      rw [Option.none_or, applyConfig_eq]
      refine final_run_frame (f := fun config => config.lookup k) (fun e he s t happly => ?_) config
      refine lookup_apply_ne happly fun hkey => ?_
      obtain ⟨item, hitem, he⟩ := List.mem_flatMap.1 he
      rw [key_of_mem_editsOf he] at hkey
      exact Table.notMem_of_lookup hlookup (hkey ▸ List.mem_map_of_mem hitem)
  · cases hcam : cameraAt new cid with
    | none =>
      rw [cameraAt_applyConfig hnew hkeys hcam]
      rfl
    | some cfg =>
      obtain ⟨given, kvs, -, hentry, -⟩ := hholds _ (camera_mem hcam)
      rw [hasEntry_iff.1 hentry]
      rfl
  · cases hfield : cameraField new cid k with
    | none => exact cameraField_applyConfig hnew hkeys hfield
    | some v =>
      unfold cameraField at hfield
      split at hfield
      · rename_i kvs hcam
        obtain ⟨given, kvs', hgiven, hentry, hgives⟩ := hholds _ (camera_mem hcam)
        rw [PyVal.orEmpty_dict] at hgiven
        cases hgiven
        rw [hentry.cameraField, hgives _ (Table.mem_of_lookup hfield)]
        rfl
      · cases hfield

end Overlay

theorem holds_self {config : Config} (hconfig : MapsCameras config) (hkeys : UniqueKeys config) :
    ∀ e ∈ edits config, e.Holds config := by
  obtain ⟨cameras, hcameras, hdicts⟩ := hconfig
  intro e he
  rcases mem_edits he with ⟨key, value, rfl, hitem, -⟩ | ⟨cams, hcams, rfl | ⟨cam, hcam, rfl⟩⟩
  · exact Table.lookup_of_mem hkeys.keys hitem
  · exact hasCameras_of_lookup hcameras
  · have hlookup := Table.lookup_of_mem hkeys.keys hcams
    rw [hcameras] at hlookup
    cases hlookup
    obtain ⟨cid, cfg⟩ := cam
    obtain ⟨kvs, rfl⟩ : ∃ kvs, cfg = .dict kvs := PyVal.isDict_iff.1 (hdicts _ hcam)
    refine ⟨kvs, kvs, PyVal.orEmpty_dict kvs, ⟨cameras, hcameras, ?_⟩, fun p hp => ?_⟩
    · exact Table.lookup_of_mem (hkeys.cameras cameras hcams) hcam
    · exact Table.lookup_of_mem (hkeys.fields cameras hcams _ hcam kvs rfl) hp

theorem applyConfig_ok {config : Config} {new : List (String × PyVal)} (hconfig : MapsCameras config)
    (hnew : OverlaysCameras new) (hkeys : UniqueKeys new) :
    applyConfig new config = .ok ⟨⟩ (final (applyConfig new) config) :=
  ((returns_applyConfig hkeys config).2 (fails_edits hconfig hnew hkeys)).run_eq

theorem applyConfig_twice {config : Config} {new : List (String × PyVal)} (hconfig : MapsCameras config)
    (hnew : OverlaysCameras new) (hkeys : UniqueKeys new) :
    (do applyConfig new; applyConfig new) config = applyConfig new config := by
  have hrun := applyConfig_ok hconfig hnew hkeys
  rw [bind_ok hrun, hrun, applyConfig_eq]
  exact mergeLaws.run_run (apart_edits hkeys) (proper_edits hkeys) (fails_edits hconfig hnew hkeys)

theorem applyConfig_self {config : Config} (hconfig : MapsCameras config) (hkeys : UniqueKeys config) :
    applyConfig config config = .ok ⟨⟩ config := by
  rw [applyConfig_eq]
  exact mergeLaws.run_of_holds (holds_self hconfig hkeys)

/-- What is saved and read again overlays nothing new. -/
theorem reload_saved {config : Config} (hconfig : MapsCameras config) (hkeys : UniqueKeys config)
    (path : Option String) :
    ∃ path', (do let _ ← saveConfig (.ok ⟨⟩); reloadConfigFile (some (.ok (.dict config)))) ⟨config, path⟩ =
      .ok (some path') ⟨config, some path'⟩ := by
  have hpath : ∃ path', (Settings.target ⟨config, path⟩).getD defaultConfigFile = path' ∧
      Settings.target ⟨config, some path'⟩ = some path' := by
    refine ⟨_, rfl, ?_⟩
    unfold Settings.target
    cases path with
    | none => rfl
    | some path =>
      by_cases h : path = ""
      · subst h
        rfl
      · have hfilter : (some path).filter (fun path => path != "") = some path := by simp [h]
        rw [hfilter]
        exact hfilter
  obtain ⟨path', hpath, htarget⟩ := hpath
  have hsave : saveConfig (.ok ⟨⟩) ⟨config, path⟩ = .ok path' ⟨config, some path'⟩ := by
    rw [← hpath]
    rfl
  refine ⟨path', (bind_ok hsave _).trans ?_⟩
  have hreload : reloadConfig (some (.dict config)) = applyConfig config := by
    simp only [reloadConfig, PyVal.orEmpty_dict]
  rw [reloadConfigFile_read htarget, hreload, applyConfig_self hconfig hkeys]

/-- **The overlay law.** An overlay goes through and leaves each place as it brings it, or else as it was; made
twice it is the same as made once; and a configuration overlaid with itself, as by a reload behind a save,
stays. -/
theorem config_overlay {config : Config} {new : List (String × PyVal)} (hconfig : MapsCameras config)
    (hkeys : UniqueKeys config) (hnew : OverlaysCameras new) (hnewKeys : UniqueKeys new) :
    (∃ config', applyConfig new config = .ok ⟨⟩ config' ∧ Overlaid config new config') ∧
    (do applyConfig new; applyConfig new) config = applyConfig new config ∧
    applyConfig config config = .ok ⟨⟩ config ∧
    ∀ path, ∃ path',
      (do let _ ← saveConfig (.ok ⟨⟩); reloadConfigFile (some (.ok (.dict config)))) ⟨config, path⟩ =
        .ok (some path') ⟨config, some path'⟩ :=
  ⟨⟨_, applyConfig_ok hconfig hnew hnewKeys, overlaid_applyConfig hconfig hnew hnewKeys⟩,
    applyConfig_twice hconfig hnew hnewKeys, applyConfig_self hconfig hkeys, reload_saved hconfig hkeys⟩

/-- A camera with two settings. -/
def doorCamera : Config :=
  [("blacklisted_ips", .list []),
    ("cameras", .dict [("FTYC000001ABCDE", .dict [("rotate", .int 3), ("alias", .str "door")])])]

/-- One of the settings, and a second camera without any. -/
def turnedDoor : List (String × PyVal) :=
  [("cameras", .dict [("PPPP000002FGHIJ", .none), ("FTYC000001ABCDE", .dict [("rotate", .int 1)])])]

/-- The setting and the second camera are new, and what was there besides stays. -/
theorem config_overlay_turnedDoor :
    ∃ config', applyConfig turnedDoor doorCamera = .ok ⟨⟩ config' ∧
      config'.lookup "blacklisted_ips" = some (.list []) ∧
      (cameraAt config' "PPPP000002FGHIJ").isSome = true ∧
      cameraField config' "FTYC000001ABCDE" "rotate" = some (.int 1) ∧
      cameraField config' "FTYC000001ABCDE" "alias" = some (.str "door") := by
  have hconfig : MapsCameras doorCamera := ⟨_, rfl, by simp [PyVal.isDict]⟩
  have hkeys : UniqueKeys doorCamera := by
    refine .of_lookup (by decide) rfl (by decide) (List.forall_mem_singleton.2 fun kvs h => ?_)
    cases h
    decide
  have hnew : OverlaysCameras turnedDoor := by
    rintro v ⟨⟩
    exact ⟨_, rfl, by simp [PyVal.isDict]⟩
  have hnewKeys : UniqueKeys turnedDoor := by
    refine .of_lookup (by decide) rfl (by decide) (List.forall_mem_cons.2 ⟨fun kvs h => ?_, ?_⟩)
    · cases h
    · refine List.forall_mem_singleton.2 fun kvs h => ?_
      cases h
      decide
  obtain ⟨⟨config', hrun, hoverlaid⟩, -⟩ := config_overlay hconfig hkeys hnew hnewKeys
  exact ⟨config', hrun, (hoverlaid.others "blacklisted_ips" (by decide)).trans rfl,
    (hoverlaid.cameras "PPPP000002FGHIJ").trans rfl,
    (hoverlaid.fields "FTYC000001ABCDE" "rotate").trans rfl,
    (hoverlaid.fields "FTYC000001ABCDE" "alias").trans rfl⟩

end CamReverse
