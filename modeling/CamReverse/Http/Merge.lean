import CamReverse.Http.Requests
import CamReverse.Lib.Edits

/-!
# The writes of `apply_config`

`apply_config` is two nested loops over what it overlays. Each of their rounds is one write to the live
configuration, and the only one that can fail is that of a camera. `edits` lists the writes, and `mergeLaws` says
what each of them does: a run of them is a run of edits that can fail (`applyConfig_eq`).
-/

namespace CamReverse

open Effect Edits

/-- One write of `apply_config`. -/
inductive ConfigEdit where
  | put (key : String) (value : PyVal)
  | makeCameras
  | camera (cid : String) (cfg : PyVal)

namespace ConfigEdit

def key : ConfigEdit → String
  | .put key _ => key
  | .makeCameras => "cameras"
  | .camera _ _ => "cameras"

def apply : ConfigEdit → Config → Except PyErr Config
  | .put key value, config => .ok (Table.put config key value)
  | .makeCameras, config => .ok (setDefault "cameras" (.dict []) config)
  | .camera cid cfg, config => overlayCamera cid cfg (setDefault "cameras" (.dict []) config)

end ConfigEdit

/-- The writes of one round of the outer loop. -/
def editsOf (key : String) (value : PyVal) : List ConfigEdit :=
  match key, value with
  | "cameras", .dict cams => .makeCameras :: cams.map fun cam => .camera cam.1 cam.2
  | key, value => [.put key value]

def edits (new : List (String × PyVal)) : List ConfigEdit := new.flatMap fun item => editsOf item.1 item.2

/-! ### The loops -/

/-- The configuration has a `cameras`, whatever it is. -/
def HasCameras (config : Config) : Prop := (config.lookup "cameras").isSome = true

theorem setDefault_of_hasCameras {config : Config} (h : HasCameras config) (v : PyVal) :
    setDefault "cameras" v config = config := if_pos h

theorem lookup_setDefault (config : Config) (v : PyVal) :
    (setDefault "cameras" v config).lookup "cameras" = some ((config.lookup "cameras").getD v) := by
  unfold setDefault
  cases h : config.lookup "cameras" with
  | none => exact Table.lookup_put_self config "cameras" v
  | some v' => exact h

theorem hasCameras_of_lookup {config : Config} {v : PyVal} (h : config.lookup "cameras" = some v) :
    HasCameras config := by
  rw [HasCameras, h]
  rfl

theorem hasCameras_setDefault (config : Config) (v : PyVal) : HasCameras (setDefault "cameras" v config) :=
  hasCameras_of_lookup (lookup_setDefault config v)

theorem HasEntry.hasCameras {config : Config} {cid : String} {kvs : List (String × PyVal)}
    (h : HasEntry config cid kvs) : HasCameras config := by
  obtain ⟨cameras, hcameras, -⟩ := h
  exact hasCameras_of_lookup hcameras

theorem apply_camera {config : Config} (h : HasCameras config) (cid : String) (cfg : PyVal) :
    ConfigEdit.apply (.camera cid cfg) config = overlayCamera cid cfg config :=
  congrArg (overlayCamera cid cfg) (setDefault_of_hasCameras h _)

theorem updateConfig_eq (f : Config → Except PyErr Config) : updateConfig f = edit f := by
  funext config
  unfold updateConfig edit
  rw [get_bind_apply]
  cases f config <;> rfl

theorem run_cameras (cams : List (String × PyVal)) {config : Config} (h : HasCameras config) :
    (cams.forM fun cam => updateConfig (overlayCamera cam.1 cam.2)) config =
      run ConfigEdit.apply (cams.map fun cam => .camera cam.1 cam.2) config := by
  induction cams generalizing config with
  | nil => rfl
  | cons cam cams ih =>
    have hsame := apply_camera h cam.1 cam.2
    rw [List.forM, List.map_cons, run, List.forM, updateConfig_eq]
    cases hrun : overlayCamera cam.1 cam.2 config with
    | error e => rw [bind_error (edit_error hrun), bind_error (edit_error (hsame.trans hrun))]
    | ok config' =>
      rw [bind_ok (edit_ok hrun), bind_ok (edit_ok (hsame.trans hrun))]
      obtain ⟨cameras, old, kvs, -, -, -, rfl⟩ := overlayCamera_ok hrun
      exact ih (hasEntry_put config cameras cam.1 _).hasCameras

theorem editsOf_other {key : String} {value : PyVal} (h : ∀ cams, key = "cameras" → value ≠ .dict cams) :
    editsOf key value = [.put key value] := by
  unfold editsOf
  split
  · exact absurd rfl (h _ rfl)
  · rfl

theorem applyItem_eq (key : String) (value : PyVal) :
    applyItem key value = run ConfigEdit.apply (editsOf key value) := by
  unfold applyItem
  split
  · rename_i cams
    funext config
    exact run_cameras cams (hasCameras_setDefault config _)
  · rename_i hother
    rw [editsOf_other fun cams hkey hvalue => hother cams hkey hvalue]
    rfl

/-- **`apply_config` makes its writes in turn.** -/
theorem applyConfig_eq (new : List (String × PyVal)) : applyConfig new = run ConfigEdit.apply (edits new) := by
  induction new with
  | nil => rfl
  | cons item new ih =>
    have hedits : edits (item :: new) = editsOf item.1 item.2 ++ edits new := List.flatMap_cons
    rw [hedits, run_append, ← ih, ← applyItem_eq]
    rfl

/-! ### What a write does -/

theorem lookup_apply_ne {config config' : Config} {e : ConfigEdit} (h : e.apply config = .ok config') {k : String}
    (hk : k ≠ e.key) : config'.lookup k = config.lookup k := by
  have hdefault : k ≠ "cameras" → (setDefault "cameras" (.dict []) config).lookup k = config.lookup k := by
    intro hne
    unfold setDefault
    split_ifs
    · rfl
    · exact Table.lookup_put_ne config hne _
  cases e with
  | put key value =>
    cases h
    exact Table.lookup_put_ne config hk value
  | makeCameras =>
    cases h
    exact hdefault hk
  | camera cid cfg =>
    obtain ⟨cameras, old, kvs, -, -, -, rfl⟩ := overlayCamera_ok h
    exact (Table.lookup_put_ne _ hk _).trans (hdefault hk)

theorem mergeable_congr {config config' : Config} (h : config.lookup "cameras" = config'.lookup "cameras")
    (cid : String) : mergeable config cid = mergeable config' cid := by
  unfold mergeable
  rw [h]

theorem HasEntry.congr {config config' : Config} (h : config'.lookup "cameras" = config.lookup "cameras")
    {cid : String} {kvs : List (String × PyVal)} (hentry : HasEntry config cid kvs) : HasEntry config' cid kvs := by
  obtain ⟨cameras, hcameras, hlookup⟩ := hentry
  exact ⟨cameras, h.trans hcameras, hlookup⟩

/-- A write that raises: the cameras, the camera's entry or what should go into it are no mappings. -/
def ConfigEdit.fails (config : Config) : ConfigEdit → Bool
  | .put _ _ => false
  | .makeCameras => false
  | .camera cid cfg => !(mergeable (setDefault "cameras" (.dict []) config) cid && cfg.orEmpty.isDict)

theorem overlayCamera_isOk {config : Config} {cid : String} {cfg : PyVal} :
    (overlayCamera cid cfg config).isOk = true ↔ mergeable config cid ∧ cfg.orEmpty.isDict := by
  rw [isOk_iff]
  constructor
  · rintro ⟨config', h⟩
    obtain ⟨cameras, old, kvs, hcameras, hold, hkvs, -⟩ := overlayCamera_ok h
    exact ⟨mergeable_of_cameraConfig hcameras hold, by rw [hkvs]; rfl⟩
  · rintro ⟨hmergeable, hdict⟩
    obtain ⟨cameras, old, hcameras, hold⟩ := cameraConfig_of_mergeable hmergeable
    obtain ⟨kvs, hkvs⟩ := PyVal.isDict_iff.1 hdict
    unfold overlayCamera setCameraConfig configCameras
    rw [hold, hkvs, hcameras]
    exact ⟨_, rfl⟩

theorem apply_isOk {config : Config} {e : ConfigEdit} : (e.apply config).isOk = true ↔ e.fails config = false := by
  cases e with
  | put key value => exact iff_of_true rfl rfl
  | makeCameras => exact iff_of_true rfl rfl
  | camera cid cfg =>
    refine overlayCamera_isOk.trans ?_
    rw [ConfigEdit.fails, Bool.not_eq_false', Bool.and_eq_true]

namespace ConfigEdit

/-- The configuration is as the write leaves it. -/
def Holds (config : Config) : ConfigEdit → Prop
  | .put key value => config.lookup key = some value
  | .makeCameras => HasCameras config
  | .camera cid cfg => ∃ given kvs, cfg.orEmpty = .dict given ∧ HasEntry config cid kvs ∧
    ∀ p ∈ given, kvs.lookup p.1 = some p.2

/-- What is written for a camera has no key twice. -/
def Proper : ConfigEdit → Prop
  | .camera _ cfg => ∀ given, cfg.orEmpty = .dict given → (given.map Prod.fst).Nodup
  | _ => True

/-- The two write to different places, or the first only makes the `cameras` that the second writes to. -/
def Apart : ConfigEdit → ConfigEdit → Prop
  | .put key _, e => key ≠ e.key
  | .makeCameras, .put key _ => key ≠ "cameras"
  | .makeCameras, _ => True
  | .camera _ _, .put key _ => key ≠ "cameras"
  | .camera _ _, .makeCameras => False
  | .camera cid _, .camera cid' _ => cid ≠ cid'

end ConfigEdit

theorem holds_apply {config config' : Config} {e : ConfigEdit} (he : e.Proper) (h : e.apply config = .ok config') :
    e.Holds config' := by
  cases e with
  | put key value =>
    cases h
    exact Table.lookup_put_self config key value
  | makeCameras =>
    cases h
    exact hasCameras_setDefault config _
  | camera cid cfg =>
    obtain ⟨cameras, old, given, -, -, hgiven, rfl⟩ := overlayCamera_ok h
    exact ⟨given, _, hgiven, hasEntry_put _ cameras cid _,
      fun p hp => Table.lookup_overlay_of_mem old (he given hgiven) hp⟩

theorem apply_of_holds {config : Config} {e : ConfigEdit} (h : e.Holds config) : e.apply config = .ok config := by
  cases e with
  | put key value => exact congrArg Except.ok (Table.put_of_lookup h)
  | makeCameras => exact congrArg Except.ok (setDefault_of_hasCameras h _)
  | camera cid cfg =>
    obtain ⟨given, kvs, hgiven, hentry, hgives⟩ := h
    obtain ⟨cameras, hcameras, hlookup⟩ := id hentry
    rw [apply_camera hentry.hasCameras, overlayCamera, hentry.cameraConfig, hgiven]
    show setCameraConfig config cid (.dict (Table.overlay kvs given)) = _
    rw [Table.overlay_of_lookup hgives, setCameraConfig, configCameras, hcameras]
    show Except.ok (Table.put config "cameras" (.dict (Table.put cameras cid (.dict kvs)))) = _
    rw [Table.put_of_lookup hlookup, Table.put_of_lookup hcameras]

theorem mergeable_putEntry_ne {config : Config} {cameras : List (String × PyVal)}
    (hcameras : config.lookup "cameras" = some (.dict cameras)) {cid cid' : String} (hne : cid' ≠ cid)
    (kvs : List (String × PyVal)) : mergeable (putEntry config cameras cid kvs) cid' = mergeable config cid' := by
  unfold mergeable putEntry
  simp only [Table.lookup_put_self, hcameras, Table.lookup_put_ne cameras hne]

theorem holds_apart {config config' : Config} {e e' : ConfigEdit} (hapart : e.Apart e')
    (h : e'.apply config = .ok config') (hs : e.Holds config) : e.Holds config' := by
  cases e with
  | put key value => exact (lookup_apply_ne h hapart).trans hs
  | makeCameras =>
    cases e' with
    | put key value =>
      show (config'.lookup "cameras").isSome = true
      rw [lookup_apply_ne h (Ne.symm hapart)]
      exact hs
    | makeCameras =>
      cases h
      exact hasCameras_setDefault config _
    | camera cid cfg =>
      obtain ⟨cameras, old, kvs, -, -, -, rfl⟩ := overlayCamera_ok h
      exact (hasEntry_put _ cameras cid _).hasCameras
  | camera cid cfg =>
    obtain ⟨given, kvs, hgiven, hentry, hgives⟩ := hs
    refine ⟨given, kvs, hgiven, ?_, hgives⟩
    cases e' with
    | put key value => exact hentry.congr (lookup_apply_ne h (Ne.symm hapart))
    | makeCameras => exact absurd hapart id
    | camera cid' cfg' =>
      rw [apply_camera hentry.hasCameras] at h
      obtain ⟨cameras, old, kvs', hcameras, -, -, rfl⟩ := overlayCamera_ok h
      exact hentry.put_ne hcameras hapart _

theorem fails_apart {config config' : Config} {e e' : ConfigEdit} (hapart : e.Apart e')
    (h : e.apply config = .ok config') : e'.fails config' = e'.fails config := by
  cases e' with
  | put key' value' => rfl
  | makeCameras => rfl
  | camera cid' cfg' =>
    have hmergeable : mergeable (setDefault "cameras" (.dict []) config') cid' =
        mergeable (setDefault "cameras" (.dict []) config) cid' := by
      cases e with
      | put key value =>
        have hlookup : config'.lookup "cameras" = config.lookup "cameras" := lookup_apply_ne h (Ne.symm hapart)
        exact mergeable_congr (by rw [lookup_setDefault, lookup_setDefault, hlookup]) cid'
      | makeCameras =>
        cases h
        rw [setDefault_of_hasCameras (hasCameras_setDefault config _)]
      | camera cid cfg =>
        obtain ⟨cameras, old, kvs, hcameras, -, -, rfl⟩ := overlayCamera_ok h
        rw [setDefault_of_hasCameras (hasEntry_put _ cameras cid _).hasCameras]
        exact mergeable_putEntry_ne hcameras (Ne.symm hapart) _
    rw [ConfigEdit.fails, ConfigEdit.fails, hmergeable]

/-- The writes of `apply_config` are edits of the configuration. -/
def mergeLaws : Laws ConfigEdit.apply where
  fails := ConfigEdit.fails
  Holds := ConfigEdit.Holds
  Apart := ConfigEdit.Apart
  Proper := ConfigEdit.Proper
  isOk_iff := apply_isOk
  holds_apply := holds_apply
  apply_of_holds := apply_of_holds
  holds_apart := holds_apart
  fails_apart := fails_apart

/-! ### What is overlaid -/

/-- No mapping in Python has a key twice. Here are the mappings that `apply_config` loops over. -/
structure UniqueKeys (new : List (String × PyVal)) : Prop where
  keys : (new.map Prod.fst).Nodup
  cameras : ∀ cams, ("cameras", .dict cams) ∈ new → (cams.map Prod.fst).Nodup
  fields : ∀ cams, ("cameras", .dict cams) ∈ new → ∀ cam ∈ cams, ∀ kvs, cam.2 = .dict kvs →
    (kvs.map Prod.fst).Nodup

theorem UniqueKeys.of_lookup {new cams : List (String × PyVal)} (hkeys : (new.map Prod.fst).Nodup)
    (hlookup : new.lookup "cameras" = some (.dict cams)) (hcams : (cams.map Prod.fst).Nodup)
    (hfields : ∀ cam ∈ cams, ∀ kvs, cam.2 = .dict kvs → (kvs.map Prod.fst).Nodup) : UniqueKeys new := by
  have hsame : ∀ cams', ("cameras", .dict cams') ∈ new → cams' = cams := by
    intro cams' hmem
    have h := Table.lookup_of_mem hkeys hmem
    rw [hlookup] at h
    cases h
    rfl
  refine ⟨hkeys, fun cams' hmem => ?_, fun cams' hmem => ?_⟩
  · rwa [hsame cams' hmem]
  · rwa [hsame cams' hmem]

theorem mem_editsOf {key : String} {value : PyVal} {e : ConfigEdit} (h : e ∈ editsOf key value) :
    (e = .put key value ∧ ∀ cams, key = "cameras" → value ≠ .dict cams) ∨
      ∃ cams, key = "cameras" ∧ value = .dict cams ∧
        (e = .makeCameras ∨ ∃ cam ∈ cams, e = .camera cam.1 cam.2) := by
  unfold editsOf at h
  split at h
  · rename_i cams
    rcases List.mem_cons.1 h with rfl | h
    · exact .inr ⟨cams, rfl, rfl, .inl rfl⟩
    · obtain ⟨cam, hcam, rfl⟩ := List.mem_map.1 h
      exact .inr ⟨cams, rfl, rfl, .inr ⟨cam, hcam, rfl⟩⟩
  · rename_i hother
    exact .inl ⟨List.mem_singleton.1 h, fun cams hkey hvalue => hother cams hkey hvalue⟩

theorem key_of_mem_editsOf {key : String} {value : PyVal} {e : ConfigEdit} (h : e ∈ editsOf key value) :
    e.key = key := by
  rcases mem_editsOf h with ⟨rfl, -⟩ | ⟨cams, rfl, -, rfl | ⟨cam, -, rfl⟩⟩ <;> rfl

theorem mem_edits {new : List (String × PyVal)} {e : ConfigEdit} (h : e ∈ edits new) :
    (∃ key value, e = .put key value ∧ (key, value) ∈ new ∧ ∀ cams, key = "cameras" → value ≠ .dict cams) ∨
      ∃ cams, ("cameras", .dict cams) ∈ new ∧ (e = .makeCameras ∨ ∃ cam ∈ cams, e = .camera cam.1 cam.2) := by
  obtain ⟨⟨key, value⟩, hitem, he⟩ := List.mem_flatMap.1 h
  rcases mem_editsOf he with ⟨rfl, hother⟩ | ⟨cams, rfl, rfl, hfrom⟩
  · exact .inl ⟨key, value, rfl, hitem, hother⟩
  · exact .inr ⟨cams, hitem, hfrom⟩

theorem put_mem_edits {new : List (String × PyVal)} {key : String} {value : PyVal} (h : (key, value) ∈ new)
    (hkey : key ≠ "cameras") : .put key value ∈ edits new := by
  refine List.mem_flatMap.2 ⟨(key, value), h, ?_⟩
  rw [editsOf_other fun cams hcameras => absurd hcameras hkey]
  exact List.mem_singleton_self _

theorem camera_mem_edits {new cams : List (String × PyVal)} {cid : String} {cfg : PyVal}
    (h : ("cameras", .dict cams) ∈ new) (hcam : (cid, cfg) ∈ cams) : .camera cid cfg ∈ edits new :=
  List.mem_flatMap.2 ⟨("cameras", .dict cams), h, List.mem_cons_of_mem _ (List.mem_map.2 ⟨(cid, cfg), hcam, rfl⟩)⟩

theorem ConfigEdit.apart_of_key {e e' : ConfigEdit} (h : e.key ≠ e'.key) : e.Apart e' := by
  cases e with
  | put key value => exact h
  | makeCameras =>
    cases e' with
    | put key value => exact Ne.symm h
    | makeCameras => trivial
    | camera cid cfg => trivial
  | camera cid cfg =>
    cases e' with
    | put key value => exact Ne.symm h
    | makeCameras => exact h rfl
    | camera cid' cfg' => exact absurd rfl h

theorem apart_editsOf {key : String} {value : PyVal}
    (h : ∀ cams, key = "cameras" → value = .dict cams → (cams.map Prod.fst).Nodup) :
    (editsOf key value).Pairwise ConfigEdit.Apart := by
  unfold editsOf
  split
  · rename_i cams
    have hne : cams.Pairwise fun cam cam' => cam.1 ≠ cam'.1 := List.pairwise_map.1 (h cams rfl rfl)
    refine List.pairwise_cons.2 ⟨fun e he => ?_, List.pairwise_map.2 hne⟩
    obtain ⟨cam, -, rfl⟩ := List.mem_map.1 he
    trivial
  · exact List.pairwise_singleton _ _

/-- **Different writes are to different places**, as no key comes twice. -/
theorem apart_edits {new : List (String × PyVal)} (h : UniqueKeys new) : (edits new).Pairwise ConfigEdit.Apart := by
  refine List.pairwise_flatMap.2 ⟨fun item hitem => apart_editsOf fun cams hkey hvalue => ?_, ?_⟩
  · exact h.cameras cams (by rw [← hkey, ← hvalue]; exact hitem)
  · refine (List.pairwise_map.1 h.keys).imp fun hne e he e' he' => ConfigEdit.apart_of_key ?_
    rwa [key_of_mem_editsOf he, key_of_mem_editsOf he']

theorem PyVal.of_orEmpty {cfg : PyVal} {given : List (String × PyVal)} (h : cfg.orEmpty = .dict given) :
    cfg = .dict given ∨ given = [] := by
  unfold PyVal.orEmpty at h
  split at h
  · exact .inl h
  · exact .inr (PyVal.dict.inj h).symm

theorem proper_edits {new : List (String × PyVal)} (h : UniqueKeys new) : ∀ e ∈ edits new, e.Proper := by
  intro e he
  rcases mem_edits he with ⟨key, value, rfl, -, -⟩ | ⟨cams, hitem, rfl | ⟨cam, hcam, rfl⟩⟩
  · trivial
  · trivial
  · intro given hgiven
    rcases PyVal.of_orEmpty hgiven with hcfg | rfl
    · exact h.fields cams hitem cam hcam given hcfg
    · exact List.nodup_nil

theorem returns_applyConfig {new : List (String × PyVal)} (h : UniqueKeys new) (config : Config) :
    Returns (applyConfig new) config ↔ ∀ e ∈ edits new, e.fails config = false := by
  rw [applyConfig_eq]
  exact mergeLaws.returns_run_iff (apart_edits h) config

/-- **An overlay changes nothing** exactly if what it writes, up to the first camera that cannot be merged, is
there already. -/
theorem final_applyConfig_eq_iff {new : List (String × PyVal)} (h : UniqueKeys new) (config : Config) :
    final (applyConfig new) config = config ↔ ∀ e ∈ mergeLaws.made config (edits new), e.Holds config := by
  rw [applyConfig_eq]
  exact mergeLaws.final_run_eq_iff (apart_edits h) (proper_edits h) config

theorem overlayCamera_raises {config : Config} {cid : String} {cfg : PyVal} {e : PyErr}
    (h : overlayCamera cid cfg config = .error e) : e ∈ [.keyError, .attributeError, .typeError] := by
  unfold overlayCamera cameraConfig setCameraConfig configCameras at h
  cases hlookup : config.lookup "cameras" with
  | none =>
    rw [hlookup] at h
    cases h
    simp
  | some cams =>
    rw [hlookup, except_ok_bind] at h
    unfold PyVal.get PyVal.merge at h
    split at h
    · rw [except_ok_bind] at h
      split at h
      · cases h
      · cases h
        simp
    · cases h
      simp

/-- `apply_config` never raises a `ValueError`. -/
theorem applyConfig_raises {new : List (String × PyVal)} {config config' : Config} {e : PyErr}
    (h : applyConfig new config = .error e config') : e ∈ [.keyError, .attributeError, .typeError] := by
  rw [applyConfig_eq] at h
  obtain ⟨edit, -, config, hedit⟩ := run_error h
  cases edit with
  | put key value => cases hedit
  | makeCameras => cases hedit
  | camera cid cfg => exact overlayCamera_raises hedit

end CamReverse
