import CamReverse.Http.Saving

/-!
# Refused changes of the configuration

`load_config` merges into a copy, and a body that is no object is refused before anything is written. But
`apply_config` writes to the live configuration right away, and the file is written behind it. So what comes
before a camera that cannot be merged stays, and all of an overlay stays if the file cannot be written. Such a
request changes nothing exactly if what it wrote was there already (`refused_unchanged_iff`).
-/

namespace CamReverse

open Effect Edits

namespace ConfigChange

/-- The file of a posted configuration cannot be written. -/
def unsaved : ConfigChange → Bool
  | .post _ (.error _) => true
  | _ => false

/-- The request meets an error: a camera that cannot be merged, or a file that cannot be written. -/
def fails (s : Settings) (r : ConfigChange) : Bool :=
  r.unsaved || (edits (r.overlaid s)).any (ConfigEdit.fails s.config)

/-- What the request writes, up to the first camera that cannot be merged, is in the configuration. -/
def Unchanging (s : Settings) (r : ConfigChange) : Prop :=
  ∀ e ∈ mergeLaws.made s.config (edits (r.overlaid s)), e.Holds s.config

end ConfigChange

theorem final_request (r : ConfigChange) (s : Settings) (config : Config) :
    final (r.request s).handle config = final (applyConfig (r.overlaid s)) config := by
  cases r with
  | post body written =>
    cases body with
    | none => rfl
    | some v => cases v <;> rfl
  | reload file =>
    show final (reloadConfig (ConfigChange.fileRead s file)) config =
      final (applyConfig (ConfigRequest.configReload (ConfigChange.fileRead s file)).overlaid) config
    cases ConfigChange.fileRead s file with
    | none => rfl
    | some parsed =>
      simp only [ConfigRequest.overlaid, reloadConfig]
      cases parsed.orEmpty <;> rfl

theorem refused_post (s : Settings) (new : List (String × PyVal)) (written : Except ConfigErr Unit) :
    ConfigChange.refused s (.post (some (.dict new)) written) = true ↔
      (ConfigChange.post (some (.dict new)) written).unsaved = true ∨ ¬Returns (applyConfig new) s.config := by
  simp only [ConfigChange.refused, ConfigChange.handle, outcome, configPost_dict]
  cases hrun : applyConfig new s.config with
  | error e config => exact iff_of_true rfl (.inr (not_returns.2 ⟨e, config, hrun⟩))
  | ok a config =>
    cases written with
    | ok a =>
      refine iff_of_false Bool.false_ne_true ?_
      rintro (⟨⟨⟩⟩ | hraises)
      exact hraises ⟨_, config, hrun⟩
    | error e => cases e <;> exact iff_of_true rfl (.inl rfl)

theorem refused_reload {s : Settings} {parsed : PyVal} {new : List (String × PyVal)} {path : String}
    (hpath : s.target = some path) (hparsed : parsed.orEmpty = .dict new) :
    ConfigChange.refused s (.reload (some (.ok parsed))) = true ↔ ¬Returns (applyConfig new) s.config := by
  have hreload : reloadConfig (some parsed) = applyConfig new := by simp only [reloadConfig, hparsed]
  simp only [ConfigChange.refused, ConfigChange.handle, outcome, configReload_read hpath, hreload]
  cases hrun : applyConfig new s.config with
  | error e config => exact iff_of_true rfl (not_returns.2 ⟨e, config, hrun⟩)
  | ok a config => exact iff_of_false Bool.false_ne_true fun h => h ⟨_, config, hrun⟩

/-- **A request with an overlay is refused** if it meets an error. -/
theorem refused_iff {s : Settings} {r : ConfigChange} (hkeys : UniqueKeys (r.overlaid s))
    (hnew : r.overlaid s ≠ []) : r.refused s = true ↔ r.fails s = true := by
  have hany : (edits (r.overlaid s)).any (ConfigEdit.fails s.config) = true ↔
      ¬Returns (applyConfig (r.overlaid s)) s.config := by
    rw [returns_applyConfig hkeys, List.any_eq_true]
    simp
  rw [ConfigChange.fails, Bool.or_eq_true, hany]
  cases r with
  | post body written =>
    cases body with
    | none => exact absurd rfl hnew
    | some v =>
      cases v with
      | dict new => exact refused_post s new written
      | _ => exact absurd rfl hnew
  | reload file =>
    rw [show (ConfigChange.reload file).unsaved = false from rfl]
    simp only [Bool.false_eq_true, false_or]
    cases hread : ConfigChange.fileRead s file with
    | none =>
      have hnone : (ConfigChange.reload file).overlaid s = [] := by
        simp only [ConfigChange.overlaid, ConfigChange.request, hread, ConfigRequest.overlaid]
      exact absurd hnone hnew
    | some parsed =>
      obtain ⟨path, hpath, rfl⟩ := ConfigChange.fileRead_eq_some.1 hread
      cases hparsed : parsed.orEmpty with
      | dict new =>
        have hoverlaid : (ConfigChange.reload (some (.ok parsed))).overlaid s = new := by
          simp only [ConfigChange.overlaid, ConfigChange.request, hread, ConfigRequest.overlaid, hparsed]
        rw [hoverlaid]
        exact refused_reload hpath hparsed
      | _ =>
        have hnone : (ConfigChange.reload (some (.ok parsed))).overlaid s = [] := by
          simp only [ConfigChange.overlaid, ConfigChange.request, hread, ConfigRequest.overlaid, hparsed]
        exact absurd hnone hnew

/-- **When a refused request changes nothing.** -/
theorem refused_unchanged_iff (s : Settings) (r : ConfigChange) (hkeys : UniqueKeys (r.overlaid s)) :
    (r.refused s = true → (final r.handle s).config = s.config) ↔ (r.fails s = true → r.Unchanging s) := by
  have hunchanged : (final r.handle s).config = s.config ↔ r.Unchanging s := by
    rw [handle_config, final_request]
    exact final_applyConfig_eq_iff hkeys s.config
  by_cases hnew : r.overlaid s = []
  · have hedits : r.Unchanging s := by
      rw [ConfigChange.Unchanging, hnew]
      exact fun e he => absurd he List.not_mem_nil
    exact iff_of_true (fun _ => hunchanged.2 hedits) fun _ => hedits
  · rw [refused_iff hkeys hnew, hunchanged]

def freshSettings : Settings := ⟨defaultConfig, none⟩

/-- A blacklist, and behind it a camera whose settings are a number. -/
def numberForCamera : ConfigChange :=
  .post (some (.dict [("blacklisted_ips", .list [.str "192.168.1.7"]),
    ("cameras", .dict [("FTYC000001ABCDE", .int 5)])])) (.ok ⟨⟩)

/-- A posted blacklist, which is applied and then cannot be saved. -/
def unsavedBlacklist : ConfigChange :=
  .post (some (.dict [("blacklisted_ips", .list [.str "192.168.1.7"])]))
    (.error (.osError "[Errno 13] Permission denied: 'config.yml'"))

/-- A camera that is a number and a file that cannot be written: the requests are refused, and leave the blacklist. -/
theorem refused_blacklist :
    (numberForCamera.refused freshSettings = true ∧
      (final numberForCamera.handle freshSettings).config ≠ freshSettings.config) ∧
    (unsavedBlacklist.refused freshSettings = true ∧
      (final unsavedBlacklist.handle freshSettings).config ≠ freshSettings.config) := by
  have hold : freshSettings.config.lookup "blacklisted_ips" = some (.list []) := rfl
  refine ⟨⟨rfl, fun h => ?_⟩, rfl, fun h => ?_⟩
  · have hnew : (final numberForCamera.handle freshSettings).config.lookup "blacklisted_ips" =
        some (.list [.str "192.168.1.7"]) := rfl
    rw [h, hold] at hnew
    cases hnew
  · have hnew : (final unsavedBlacklist.handle freshSettings).config.lookup "blacklisted_ips" =
        some (.list [.str "192.168.1.7"]) := rfl
    rw [h, hold] at hnew
    cases hnew

/-- The default broadcast address and a camera whose settings are a number, in front of the blacklist. -/
def cameraFirst : ConfigChange :=
  .post (some (.dict [("discovery_ips", .list [.str "192.168.1.255"]),
    ("cameras", .dict [("FTYC000001ABCDE", .int 5)]),
    ("blacklisted_ips", .list [.str "192.168.1.7"])])) (.ok ⟨⟩)

theorem refused_unchanged_iff_cameraFirst :
    cameraFirst.refused freshSettings = true ∧
      (final cameraFirst.handle freshSettings).config = freshSettings.config := by
  have hkeys : UniqueKeys (cameraFirst.overlaid freshSettings) := by
    refine .of_lookup (by decide) rfl (by decide) (List.forall_mem_singleton.2 fun kvs h => ?_)
    cases h
  have hmade : mergeLaws.made freshSettings.config (edits (cameraFirst.overlaid freshSettings)) =
      [.put "discovery_ips" (.list [.str "192.168.1.255"]), .makeCameras] := rfl
  refine ⟨rfl, (refused_unchanged_iff freshSettings cameraFirst hkeys).2 (fun _ => ?_) rfl⟩
  rw [ConfigChange.Unchanging, hmade]
  exact List.forall_mem_cons.2 ⟨rfl, List.forall_mem_singleton.2 rfl⟩

end CamReverse
