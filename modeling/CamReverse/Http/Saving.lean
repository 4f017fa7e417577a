import CamReverse.Http.Merge

/-!
# Requests that save and reload the configuration

What the two handlers of the configuration answer, with the file they write or read. The file is whatever the
file system makes of it: the access may raise, and what is read may be no mapping. To the configuration the
requests are those of `ConfigRequest` (`handle_config`).
-/

namespace CamReverse

open Effect Edits

/-! ### `settings` -/

/-- An exception of the file system or of the program, or one that reading the file raises. -/
inductive ConfigErr where
  | osError (text : String)
  | valueError (text : String)
  | other (e : PyErr)

/-- The globals of `settings`. -/
structure Settings where
  config : Config
  configPath : Option String

def defaultConfigFile : String := "config.yml"

/-- `config_path`, if it is a condition that holds. -/
def Settings.target (s : Settings) : Option String := s.configPath.filter fun path => path != ""

/-- A program on the configuration. `apply_config` raises neither an `OSError` nor a `ValueError`
(`applyConfig_raises`). -/
def inConfig (m : EStateM PyErr Config Unit) : EStateM ConfigErr Settings Unit :=
  onPart Settings.config (fun config s => { s with config := config }) (m.adaptExcept ConfigErr.other)

/-- `save_config`, with what writing the file raises. -/
def saveConfig (written : Except ConfigErr Unit) : EStateM ConfigErr Settings String := do
  let path := (← get).target.getD defaultConfigFile
  let _ ← lift written
  modify fun s => { s with configPath := some path }
  return path

/-- `reload_config`, with what reading the file gives or raises, unless there is no such file. -/
def reloadConfigFile (file : Option (Except ConfigErr PyVal)) : EStateM ConfigErr Settings (Option String) := do
  match (← get).target, file with
  | some path, some read =>
    let parsed ← lift read
    inConfig (reloadConfig (some parsed))
    return some path
  | _, _ => return none

/-! ### `http_server` -/

inductive ConfigReply where
  | error (status : ℕ) (text : String)
  | saved (path : String)
  | reloaded (path : String)

/-- `_handle_config_post`, where `apply` and `save` are what `apply_config` and `save_config` do. -/
def configPostBy {σ : Type} (apply : List (String × PyVal) → EStateM ConfigErr σ Unit)
    (save : EStateM ConfigErr σ String) (body : Option PyVal) : EStateM ConfigErr σ ConfigReply :=
  match body with
  | none => return .error 400 "invalid JSON"
  | some (.dict new) => do
    apply new
    tryCatch (do return .saved (← save)) fun
      | .osError text => return .error 500 ("could not write config: " ++ text)
      | e => throw e
  | some _ => return .error 400 "config must be an object"

def configPost (body : Option PyVal) (written : Except ConfigErr Unit) :
    EStateM ConfigErr Settings ConfigReply :=
  configPostBy (fun new => inConfig (applyConfig new)) (saveConfig written) body

/-- `_handle_config_reload`. -/
def configReload (file : Option (Except ConfigErr PyVal)) : EStateM ConfigErr Settings ConfigReply :=
  tryCatch (do
    match ← reloadConfigFile file with
    | none => return .error 400 "no config file to reload"
    | some path => return .reloaded path) fun
    | .osError text => return .error 500 ("could not reload config: " ++ text)
    | .valueError text => return .error 500 ("could not reload config: " ++ text)
    | e => throw e

/-- One of the two requests, with what its access to the file gives. -/
inductive ConfigChange where
  | post (body : Option PyVal) (written : Except ConfigErr Unit)
  | reload (file : Option (Except ConfigErr PyVal))

namespace ConfigChange

def handle : ConfigChange → EStateM ConfigErr Settings ConfigReply
  | .post body written => configPost body written
  | .reload file => configReload file

def fileRead (s : Settings) (file : Option (Except ConfigErr PyVal)) : Option PyVal :=
  s.target.bind fun _ => file.bind Except.toOption

def request (s : Settings) : ConfigChange → ConfigRequest
  | .post body _ => .configPost body
  | .reload file => .configReload (fileRead s file)

def overlaid (s : Settings) (r : ConfigChange) : List (String × PyVal) := (r.request s).overlaid

def refused (s : Settings) (r : ConfigChange) : Bool :=
  match outcome r.handle s with
  | .error _ => true
  | .ok (.error _ _) => true
  | .ok _ => false

end ConfigChange

/-! ### What the requests do -/

theorem inConfig_ok {m : EStateM PyErr Config Unit} {s : Settings} {config : Config}
    (h : m s.config = .ok ⟨⟩ config) : inConfig m s = .ok ⟨⟩ { s with config := config } := by
  unfold inConfig onPart EStateM.adaptExcept
  rw [h]

theorem inConfig_error {m : EStateM PyErr Config Unit} {s : Settings} {config : Config} {e : PyErr}
    (h : m s.config = .error e config) : inConfig m s = .error (.other e) { s with config := config } := by
  unfold inConfig onPart EStateM.adaptExcept
  rw [h]

theorem configPost_dict (new : List (String × PyVal)) (written : Except ConfigErr Unit) (s : Settings) :
    configPost (some (.dict new)) written s =
      match applyConfig new s.config, written with
      | .error e config, _ => .error (.other e) { s with config := config }
      | .ok _ config, .ok _ => .ok (.saved (s.target.getD defaultConfigFile))
        ⟨config, some (s.target.getD defaultConfigFile)⟩
      | .ok _ config, .error (.osError text) =>
        .ok (.error 500 ("could not write config: " ++ text)) { s with config := config }
      | .ok _ config, .error e => .error e { s with config := config } := by
  unfold configPost configPostBy
  cases happly : applyConfig new s.config with
  | error e config => exact bind_error (inConfig_error happly) _
  | ok a config =>
    refine (bind_ok (inConfig_ok happly) _).trans ?_
    cases written with
    | ok a => rfl
    | error e => cases e <;> rfl

theorem ConfigChange.fileRead_eq_some {s : Settings} {file : Option (Except ConfigErr PyVal)} {parsed : PyVal} :
    fileRead s file = some parsed ↔ ∃ path, s.target = some path ∧ file = some (.ok parsed) := by
  unfold fileRead
  cases s.target with
  | none => exact iff_of_false (by rintro ⟨⟩) (by rintro ⟨_, ⟨⟩, _⟩)
  | some path =>
    cases file with
    | none => exact iff_of_false (by rintro ⟨⟩) (by rintro ⟨_, _, ⟨⟩⟩)
    | some read =>
      cases read with
      | error e => exact iff_of_false (by rintro ⟨⟩) (by rintro ⟨_, _, ⟨⟩⟩)
      | ok v => exact ⟨by rintro ⟨⟩; exact ⟨path, rfl, rfl⟩, by rintro ⟨_, _, ⟨⟩⟩; rfl⟩

theorem reloadConfigFile_read {s : Settings} {path : String} (hpath : s.target = some path) (parsed : PyVal) :
    reloadConfigFile (some (.ok parsed)) s =
      match reloadConfig (some parsed) s.config with
      | .error e config => .error (.other e) { s with config := config }
      | .ok _ config => .ok (some path) { s with config := config } := by
  unfold reloadConfigFile
  rw [get_bind_apply, hpath]
  show (inConfig (reloadConfig (some parsed)) >>= fun _ => pure (some path)) s = _
  cases hreload : reloadConfig (some parsed) s.config with
  | error e config => exact bind_error (inConfig_error hreload) _
  | ok a config => exact bind_ok (inConfig_ok hreload) _

theorem configReload_read {s : Settings} {path : String} (hpath : s.target = some path) (parsed : PyVal) :
    configReload (some (.ok parsed)) s =
      match reloadConfig (some parsed) s.config with
      | .error e config => .error (.other e) { s with config := config }
      | .ok _ config => .ok (.reloaded path) { s with config := config } := by
  have hread := reloadConfigFile_read hpath parsed
  unfold configReload
  show EStateM.tryCatch _ _ s = _
  unfold EStateM.tryCatch
  cases hreload : reloadConfig (some parsed) s.config with
  | error e config =>
    rw [hreload] at hread
    simp only [bind_error hread]
    rfl
  | ok a config =>
    rw [hreload] at hread
    simp only [bind_ok hread]
    rfl

theorem reloadConfigFile_unread {s : Settings} {file : Option (Except ConfigErr PyVal)}
    (h : ConfigChange.fileRead s file = none) :
    reloadConfigFile file s = .ok none s ∨ ∃ e, reloadConfigFile file s = .error e s := by
  unfold reloadConfigFile
  rw [get_bind_apply]
  unfold ConfigChange.fileRead at h
  cases htarget : s.target with
  | none => exact .inl rfl
  | some path =>
    rw [htarget] at h
    cases file with
    | none => exact .inl rfl
    | some read =>
      cases read with
      | ok parsed => cases h
      | error e => exact .inr ⟨e, rfl⟩

theorem configReload_unread {s : Settings} {file : Option (Except ConfigErr PyVal)}
    (h : ConfigChange.fileRead s file = none) :
    (∃ status text, configReload file s = .ok (.error status text) s) ∨ ∃ e, configReload file s = .error e s := by
  unfold configReload
  show (∃ status text, EStateM.tryCatch _ _ s = _) ∨ ∃ e, EStateM.tryCatch _ _ s = _
  unfold EStateM.tryCatch
  rcases reloadConfigFile_unread h with hread | ⟨e, hread⟩
  · simp only [bind_ok hread]
    exact .inl ⟨_, _, rfl⟩
  · simp only [bind_error hread]
    cases e with
    | osError text => exact .inl ⟨_, _, rfl⟩
    | valueError text => exact .inl ⟨_, _, rfl⟩
    | other e => exact .inr ⟨_, rfl⟩

/-- **To the configuration** the requests are those of `ConfigRequest`. -/
theorem handle_config (r : ConfigChange) (s : Settings) :
    (final r.handle s).config = final (r.request s).handle s.config := by
  cases r with
  | post body written =>
    cases body with
    | none => rfl
    | some v =>
      cases v with
      | dict new =>
        show (final (configPost (some (.dict new)) written) s).config = final (applyConfig new) s.config
        unfold final
        rw [configPost_dict]
        cases applyConfig new s.config with
        | error e config => rfl
        | ok a config =>
          cases written with
          | ok a => rfl
          | error e => cases e <;> rfl
      | _ => rfl
  | reload file =>
    show (final (configReload file) s).config = final (reloadConfig (ConfigChange.fileRead s file)) s.config
    cases hread : ConfigChange.fileRead s file with
    | none =>
      unfold final
      rcases configReload_unread hread with ⟨status, text, h⟩ | ⟨e, h⟩ <;> rw [h] <;> rfl
    | some parsed =>
      obtain ⟨path, hpath, rfl⟩ := ConfigChange.fileRead_eq_some.1 hread
      unfold final
      rw [configReload_read hpath]
      cases reloadConfig (some parsed) s.config <;> rfl

end CamReverse
