import CamReverse.Http.Moves

/-!
# What is saved outlives the process

A target that was saved with the configuration is searched by every later process that is launched with this file, and
stays in the file, whatever is saved there (`remembered_target`). A configuration that was saved is the one the next
process starts with (`saved_resumes`).
-/

namespace CamReverse

open Effect

variable {Text : Type} {T : String → Prop} {y : Yaml Text} {S B : Prop}

/-! ### Launching -/

theorem setItem_ok {k k' : String} {v : PyVal} {config config' : Config} (h : setItem k k' v config = .ok config') :
    ∃ kvs, config' = Table.put config k (.dict kvs) := by
  unfold setItem at h
  split at h
  · exact ⟨_, (Except.ok.inj h).symm⟩
  · cases h
  · cases h

/-- A write of `main`. -/
def ByOptions (o : Options) (k : String) (_ : PyVal) : Prop :=
  k = "http_server" ∨ k = "logging" ∨ (k = "discovery_ips" ∧ o.discoveryIp ≠ none)

theorem written_setOption {P : String → PyVal → Prop} {α : Type} {arg : Option α}
    {f : α → Config → Except PyErr Config} {config config' : Config} (h : setOption arg f config = .ok config')
    (hf : ∀ a, arg = some a → f a config = .ok config' → Table.Written P config config') :
    Table.Written P config config' := by
  cases arg with
  | some a => exact hf a rfl h
  | none =>
    obtain rfl := Except.ok.inj h
    exact refl_of (Table.Written P) config

theorem written_mainConfig {o : Options} {config config' : Config} (h : mainConfig o config = .ok config') :
    Table.Written (ByOptions o) config config' := by
  unfold mainConfig at h
  obtain ⟨config₁, hport, h₁⟩ := except_bind_eq_ok h
  obtain ⟨config₂, hcolor, h₂⟩ := except_bind_eq_ok h₁
  obtain ⟨config₃, hlevel, h₃⟩ := except_bind_eq_ok h₂
  obtain ⟨config₄, hip, h₄⟩ := except_bind_eq_ok h₃
  obtain ⟨level, -, h₅⟩ := except_bind_eq_ok h₄
  obtain ⟨port, -, h₆⟩ := except_bind_eq_ok h₅
  obtain ⟨key, -, h₇⟩ := except_bind_eq_ok h₆
  have hfinal : config₄ = config' := Except.ok.inj h₇
  have hputs : ∀ {k k' : String} {v : PyVal} {c c' : Config}, k = "http_server" ∨ k = "logging" →
      setItem k k' v c = .ok c' → Table.Written (ByOptions o) c c' := by
    intro k k' v c c' hk hset
    obtain ⟨kvs, rfl⟩ := setItem_ok hset
    exact Table.Written.put (P := ByOptions o) (hk.imp_right .inl) c
  refine trans_of (Table.Written (ByOptions o)) (written_setOption hport fun _ _ => hputs (.inl rfl)) ?_
  refine trans_of (Table.Written (ByOptions o)) (written_setOption hcolor fun _ _ => hputs (.inr rfl)) ?_
  refine trans_of (Table.Written (ByOptions o)) (written_setOption hlevel fun _ _ => hputs (.inr rfl)) ?_
  rw [← hfinal]
  refine written_setOption hip fun ip hgiven hset => ?_
  obtain rfl := Except.ok.inj hset
  exact Table.Written.put (P := ByOptions o) (.inr (.inr ⟨rfl, by rw [hgiven]; exact Option.some_ne_none ip⟩)) config₃

/-- The arguments bring nothing but a configuration file. -/
def Options.OnlyFile (o : Options) (path : String) : Prop :=
  o = ⟨some path, none, none, none, none⟩

theorem mainConfig_onlyFile {o : Options} {path : String} (ho : o.OnlyFile path) {config config' : Config}
    (h : mainConfig o config = .ok config') : config' = config := by
  subst ho
  unfold mainConfig at h
  obtain ⟨level, -, h₁⟩ := except_bind_eq_ok (x := getItem "logging" "level" config) h
  obtain ⟨port, -, h₂⟩ := except_bind_eq_ok h₁
  obtain ⟨key, -, h₃⟩ := except_bind_eq_ok h₂
  exact (Except.ok.inj h₃).symm

theorem mapError_eq_ok {α : Type} {x : Except PyErr α} {a : α} (h : x.mapError ConfigErr.other = .ok a) :
    x = .ok a := by
  cases x with
  | ok b => exact congrArg Except.ok (Except.ok.inj h)
  | error e => cases h

theorem loadConfigFile_ok {denied : Option String} {files : Table String Text} {path : String} {s : Settings}
    (h : loadConfigFile y denied files path = .ok s) :
    ∃ text parsed kvs, files.find? path = some text ∧ y.safeLoad text = .ok parsed ∧
      parsed.orEmpty.updates = .ok kvs ∧ s = ⟨loadConfig kvs, some path⟩ := by
  unfold loadConfigFile at h
  split at h
  · cases h
  · cases h
  · rename_i text htext
    obtain ⟨parsed, hparsed, h₁⟩ := except_bind_eq_ok h
    obtain ⟨kvs, hkvs, h₂⟩ := except_bind_eq_ok h₁
    exact ⟨text, parsed, kvs, htext, hparsed, mapError_eq_ok hkvs, (Except.ok.inj h₂).symm⟩

theorem launch_ok {denied : Option String} {o : Options} {files : Table String Text} {m : Machine Text}
    (h : launch y denied o files = .ok m) :
    ∃ s config ips, startSettings y denied files o.configFile = .ok s ∧ mainConfig o s.config = .ok config ∧
      configIps config = .ok ips ∧ m = ⟨files, s.configPath, .start config ips⟩ := by
  unfold launch at h
  obtain ⟨s, hs, h₁⟩ := except_bind_eq_ok h
  obtain ⟨config, hconfig, h₂⟩ := except_bind_eq_ok h₁
  obtain ⟨ips, hips, h₃⟩ := except_bind_eq_ok h₂
  exact ⟨s, config, ips, hs, mapError_eq_ok hconfig, mapError_eq_ok hips, (Except.ok.inj h₃).symm⟩

theorem launch_file {denied : Option String} {o : Options} {files : Table String Text} {m : Machine Text}
    {path : String} (ho : o.configFile = some path) {text : Text} (htext : files.find? path = some text)
    {kvs : List (String × PyVal)} (hload : y.safeLoad text = .ok (.dict kvs)) (h : launch y denied o files = .ok m) :
    ∃ config ips, mainConfig o (loadConfig kvs) = .ok config ∧ configIps config = .ok ips ∧
      m = ⟨files, some path, .start config ips⟩ := by
  obtain ⟨s, config, ips, hs, hconfig, hips, rfl⟩ := launch_ok h
  rw [ho] at hs
  obtain ⟨text', parsed, kvs', htext', hparsed, hkvs, rfl⟩ := loadConfigFile_ok hs
  obtain rfl := Option.some.inj (htext.symm.trans htext')
  obtain rfl := Except.ok.inj (hload.symm.trans hparsed)
  rw [PyVal.orEmpty_dict] at hkvs
  obtain rfl : kvs = kvs' := Except.ok.inj hkvs
  exact ⟨config, ips, hconfig, hips, rfl⟩

structure Machine.Sound (m : Machine Text) : Prop where
  written : Table.Written (fun _ _ => True) defaultConfig m.settings.config
  tracks : m.service.discovery.Tracks

theorem Machine.Sound.unique {m : Machine Text} (h : m.Sound) : (m.settings.config.map Prod.fst).Nodup :=
  h.written.nodup (by decide)

theorem Machine.Sound.moves {m m' : Machine Text} (h : m.Sound) (hmoves : m.Moves y T S B m') : m'.Sound :=
  ⟨trans_of (Table.Written fun _ _ => True) h.written hmoves.config.written, (hmoves.discovery h.tracks).1⟩

theorem sound_launch {denied : Option String} {o : Options} {files : Table String Text} {m : Machine Text}
    (h : launch y denied o files = .ok m) : m.Sound := by
  obtain ⟨s, config, ips, hs, hconfig, -, rfl⟩ := launch_ok h
  refine ⟨?_, Discovery.tracks_start ips⟩
  have hmain : Table.Written (fun _ _ => True) s.config config := (written_mainConfig hconfig).mono fun _ _ _ => trivial
  have hstart : Table.Written (fun _ _ => True) defaultConfig s.config := by
    cases hfile : o.configFile with
    | none =>
      rw [hfile] at hs
      obtain rfl := Except.ok.inj hs
      exact refl_of (Table.Written fun _ _ => True) defaultConfig
    | some path =>
      rw [hfile] at hs
      obtain ⟨text, parsed, kvs, -, -, -, rfl⟩ := loadConfigFile_ok hs
      exact Table.Written.overlay (fun _ _ => trivial) defaultConfig
  exact trans_of (Table.Written fun _ _ => True) hstart hmain

/-! ### The host -/

def Host.Sound : Host Text → Prop
  | .down _ => True
  | .running m => m.Sound

theorem Machine.Sound.step (hy : y.Lawful) (repr : PyVal → String) {m : Machine Text} (h : m.Sound)
    (step : HostStep Text) : (m.step y repr step).Sound :=
  h.moves (moves_step (T := fun _ => False) hy repr (fun _ hT => hT.elim) fun _ hT => hT.elim)

theorem step_launch (repr : PyVal → String) (files : Table String Text) (o : Options) (denied : Option String) :
    (∃ m, launch y denied o files = .ok m ∧ (Host.down files).step y repr (.launch o denied) = .running m) ∨
      (Host.down files).step y repr (.launch o denied) = .down files := by
  cases hlaunch : launch y denied o files with
  | ok m => exact .inl ⟨m, rfl, by simp only [Host.step, hlaunch]⟩
  | error e => exact .inr (by simp only [Host.step, hlaunch])

theorem Host.Sound.step (hy : y.Lawful) (repr : PyVal → String) {h : Host Text} (hsound : h.Sound)
    (step : HostStep Text) : (h.step y repr step).Sound := by
  cases h with
  | running m =>
    have hsound : m.Sound := hsound
    cases step with
    | kill => trivial
    | edit path text => exact ⟨hsound.written, hsound.tracks⟩
    | _ => exact hsound.step hy repr _
  | down files =>
    cases step with
    | launch o denied =>
      rcases step_launch repr files o denied with ⟨m, hlaunch, hstep⟩ | hstep
      · rw [hstep]
        exact sound_launch hlaunch
      · rw [hstep]
        trivial
    | _ => trivial

theorem Host.Sound.run (hy : y.Lawful) (repr : PyVal → String) {h : Host Text} (hsound : h.Sound)
    (steps : List (HostStep Text)) : (h.run y repr steps).Sound :=
  Runs.invariant hsound (fun _ step h' => h'.step hy repr step) steps

theorem sound_reached (hy : y.Lawful) {repr : PyVal → String} {files : Table String Text} {steps : List (HostStep Text)}
    {m : Machine Text} (h : (Host.down files).run y repr steps = .running m) : m.Sound := by
  have hreached : ((Host.down files).run y repr steps).Sound :=
    Host.Sound.run hy repr (h := .down files) trivial steps
  rwa [h] at hreached

/-- The step takes the target neither from this file nor from a process that is launched with it: it is launched with
this file and no address, who edits the file leaves the target in it, a list that is posted has it, and no write of the
file breaks off. -/
def HostStep.Spares (y : Yaml Text) (path ip : String) : HostStep Text → Prop
  | .launch o _ => o.configFile = some path ∧ o.discoveryIp = none
  | .edit path' text => path' = path → ∃ t parsed, text = some t ∧ y.safeLoad t = .ok (.dict parsed) ∧ ListsIp parsed ip
  | step => Lists (· = ip) step.posted ∧ ∀ w ∈ step.writing, ¬w.Breaks

/-- The target is in the file, and the process that runs, if any, saves to this file and searches the target. -/
def Host.Remembers (y : Yaml Text) (path ip : String) : Host Text → Prop
  | .down files => FileLists y files path ip
  | .running m => m.path = path ∧ FileLists y m.files path ip ∧ ListsIp m.settings.config ip ∧
      m.service.discovery.Searches ip

theorem fileLists_saved (hy : y.Lawful) {files : Table String Text} {path ip : String} {config : Config}
    (hunique : (config.map Prod.fst).Nodup) (hlists : ListsIp config ip)
    (hsaved : files.find? path = some (y.safeDump config)) : FileLists y files path ip :=
  ⟨_, config, hsaved, hy.load_dump hunique, hlists⟩

/-- **A step of a process** that does not take the target away. -/
theorem Host.Remembers.moves (hy : y.Lawful) {path ip : String} {m m' : Machine Text} (hsound : m.Sound)
    (h : (Host.running m).Remembers y path ip) (hmoves : m.Moves y (· = ip) S B m') (hB : ¬B) :
    (Host.running m').Remembers y path ip := by
  obtain ⟨rfl, hfile, hlists, hsearches⟩ := h
  refine ⟨hmoves.path, ?_, hmoves.config.targets ip rfl hlists, (hmoves.discovery hsound.tracks).2 ip hsearches⟩
  rcases hmoves.file with hsame | ⟨-, config, hheld, hsaved⟩ | hbroken
  · obtain ⟨text, parsed, htext, hload⟩ := hfile
    exact ⟨text, parsed, hsame.trans htext, hload⟩
  · exact fileLists_saved hy (hheld.written.nodup hsound.unique) (hheld.targets ip rfl hlists) hsaved
  · exact absurd hbroken hB

theorem find?_editFile {files : Table String Text} {path path' : String} (hpath : path' ≠ path) (text : Option Text) :
    (editFile files path' text).find? path = files.find? path := by
  cases text with
  | some t => exact Table.find?_insert_ne files (Ne.symm hpath) t
  | none =>
    show (files.erase path').find? path = files.find? path
    rw [Table.find?_erase, if_neg (Ne.symm hpath)]

theorem fileLists_edit {files : Table String Text} {path ip : String} (h : FileLists y files path ip) {path' : String}
    {text : Option Text} (hspares : (HostStep.edit path' text).Spares y path ip) :
    FileLists y (editFile files path' text) path ip := by
  by_cases hpath : path' = path
  · obtain ⟨t, parsed, rfl, hload, hlists⟩ := hspares hpath
    subst hpath
    exact ⟨t, parsed, Table.find?_insert_self files path' t, hload, hlists⟩
  · obtain ⟨t, parsed, hfind, hload⟩ := h
    exact ⟨t, parsed, (find?_editFile hpath text).trans hfind, hload⟩

theorem remembers_launch (hy : y.Lawful) {denied : Option String} {o : Options} {files : Table String Text}
    {path ip : String} {m : Machine Text} (hpath : path ≠ "") (hfile : FileLists y files path ip)
    (hspares : (HostStep.launch o denied : HostStep Text).Spares y path ip)
    (hlaunch : launch y denied o files = .ok m) : (Host.running m).Remembers y path ip := by
  obtain ⟨hconfigFile, hdiscoveryIp⟩ := hspares
  obtain ⟨text, kvs, htext, hload, v, hlookup, hlists⟩ := hfile
  obtain ⟨config, ips, hconfig, hips, rfl⟩ := launch_file hconfigFile htext hload hlaunch
  have hlisted : ListsIp (loadConfig kvs) ip :=
    ⟨v, Table.lookup_overlay_of_mem defaultConfig (hy.unique hload) (Table.mem_of_lookup hlookup), hlists⟩
  have hmain : ListsIp config ip := by
    refine (written_mainConfig hconfig).keeps (fun v hv => ?_) hlisted
    rcases hv with hkey | hkey | ⟨-, hgiven⟩
    · exact absurd hkey (by decide)
    · exact absurd hkey (by decide)
    · exact absurd hdiscoveryIp hgiven
  refine ⟨Machine.path_eq rfl hpath, ⟨text, kvs, htext, hload, v, hlookup, hlists⟩, hmain, ?_⟩
  obtain ⟨v', hlookup', hmem⟩ := hmain
  unfold configIps at hips
  rw [hlookup'] at hips
  obtain rfl := Except.ok.inj hips
  exact hmem

theorem Host.Remembers.step (hy : y.Lawful) (repr : PyVal → String) {path ip : String} (hpath : path ≠ "")
    {h : Host Text} (hsound : h.Sound) (hremembers : h.Remembers y path ip) {step : HostStep Text}
    (hspares : step.Spares y path ip) : (h.step y repr step).Remembers y path ip := by
  cases h with
  | down files =>
    cases step with
    | launch o denied =>
      rcases step_launch repr files o denied with ⟨m, hlaunch, hstep⟩ | hstep
      · rw [hstep]
        exact remembers_launch hy hpath hremembers hspares hlaunch
      · rw [hstep]
        exact hremembers
    | edit path' text => exact fileLists_edit hremembers hspares
    | _ => exact hremembers
  | running m =>
    have hmoves (hkeeps : Lists (· = ip) step.posted ∧ ∀ w ∈ step.writing, ¬w.Breaks) :
        (Host.running (m.step y repr step)).Remembers y path ip := by
      refine hremembers.moves hy hsound (moves_step hy repr hkeeps.1 fun ip' hip' => ?_) ?_
      · obtain rfl : ip' = ip := hip'
        exact hremembers.1.symm ▸ hremembers.2.1
      · rintro ⟨w, hw, hbreaks⟩
        exact hkeeps.2 w hw hbreaks
    cases step with
    | launch o denied => exact hremembers
    | kill => exact hremembers.2.1
    | edit path' text => exact ⟨hremembers.1, fileLists_edit hremembers.2.1 hspares, hremembers.2.2⟩
    | _ => exact hmoves hspares

theorem Host.Remembers.run (hy : y.Lawful) (repr : PyVal → String) {path ip : String} (hpath : path ≠ "")
    {h : Host Text} (hsound : h.Sound) (hremembers : h.Remembers y path ip) {steps : List (HostStep Text)}
    (hsteps : ∀ step ∈ steps, step.Spares y path ip) : (h.run y repr steps).Remembers y path ip := by
  induction steps generalizing h with
  | nil => exact hremembers
  | cons step steps ih =>
    rw [List.forall_mem_cons] at hsteps
    exact ih (hsound.step hy repr step) (hremembers.step hy repr hpath hsound hsteps.1) hsteps.2

/-- **A target that is remembered** is so across processes: a server whose discovery listens answers that it saved the
target to a file, behind entries that can be keys, and from then on, along any steps that do not take it away, whatever
process runs searches it and saves to this file, and the file has it. -/
theorem remembered_target (hy : y.Lawful) (repr : PyVal → String) {files : Table String Text}
    {before : List (HostStep Text)} {m m' : Machine Text} (hrun : (Host.down files).run y repr before = .running m)
    (hlistens : m.service.discovery.listening = true) (hkeys : KeysOnly m.settings.config) {now : ℚ} {result : Sendto}
    {body : Option PyVal} {w : Writing Text} {ip path : String}
    (hsaved : handleDiscover y repr now result body w m = .ok (.added ip (some path)) m')
    {after : List (HostStep Text)} (hafter : ∀ step ∈ after, step.Spares y path ip) :
    ((Host.running m').run y repr after).Remembers y path ip := by
  have hsound : m.Sound := sound_reached hy hrun
  obtain ⟨rfl, config, hconfig, rfl⟩ := handleDiscover_saved hsaved
  have hheld : Held (fun _ => True) m.settings.config config := held_appendIp hconfig
  have hlists := lists_appendIp hconfig hkeys
  obtain ⟨hkeeps, hsearches⟩ := hsound.tracks.addTarget hlistens now ip result
  have hsound' : (((m.asked now ip result).setConfig config).savedAt y).Sound :=
    ⟨trans_of (Table.Written fun _ _ => True) hsound.written hheld.written, hkeeps.tracks⟩
  have hpath : (((m.asked now ip result).setConfig config).savedAt y).path = m.path :=
    Machine.path_eq rfl (target_ne m.settings)
  refine Host.Remembers.run (h := .running _) hy repr (target_ne m.settings) hsound'
    ⟨hpath, ?_, hlists, hsearches⟩ hafter
  exact fileLists_saved hy hsound'.unique hlists (Table.find?_insert_self m.files m.path (y.safeDump config))

/-- A file holds what it is loaded as. -/
def plainYaml : Yaml Config where
  safeLoad text := if (text.map Prod.fst).Nodup then .ok (.dict text) else .error (.valueError "found a duplicate key")
  safeDump config := config

theorem lawful_plainYaml : plainYaml.Lawful where
  unique {text kvs} h := by
    by_cases hunique : (text.map Prod.fst).Nodup
    · have hload : plainYaml.safeLoad text = .ok (.dict text) := if_pos hunique
      obtain rfl := PyVal.dict.inj (Except.ok.inj (hload.symm.trans h))
      exact hunique
    · have hload : plainYaml.safeLoad text = .error (.valueError "found a duplicate key") := if_neg hunique
      cases hload.symm.trans h
  load_dump hunique := if_pos hunique

/-- A server that was launched without a file, and whose discovery listens. -/
def searching : List (HostStep Config) :=
  [.launch ⟨none, none, none, none, none⟩ none, .event (.search (.ready 0 fun _ => .sent)) rfl]

/-- The request for a target that is to be remembered. -/
def rememberDoor : Option PyVal := some (.dict [("ip", .str " 10.0.0.9"), ("remember", .bool true)])

/-- Something else is posted, and the server ends and is launched with its file. -/
def relaunched : List (HostStep Config) :=
  [.post (some (.dict [("blacklisted_ips", .list [.str "10.0.0.7"])])) .whole, .kill,
    .launch ⟨some "config.yml", some 8080, none, none, none⟩ none]

theorem remembered_target_relaunched :
    ∃ m m', (Host.down Table.empty).run plainYaml (fun _ => "") searching = .running m ∧
      handleDiscover plainYaml (fun _ => "") 1 .sent rememberDoor .whole m = .ok (.added "10.0.0.9" (some "config.yml")) m' ∧
      (∀ step ∈ relaunched, step.Spares plainYaml "config.yml" "10.0.0.9") ∧
      ((Host.running m').run plainYaml (fun _ => "") relaunched).Remembers plainYaml "config.yml" "10.0.0.9" := by
  have hspares : ∀ step ∈ relaunched, step.Spares plainYaml "config.yml" "10.0.0.9" := by
    refine List.forall_mem_cons.2 ⟨⟨fun ip _ v hv => ?_, ?_⟩, List.forall_mem_cons.2 ⟨⟨fun ip _ v hv => ?_, ?_⟩,
      List.forall_mem_singleton.2 ⟨rfl, rfl⟩⟩⟩
    · have hkey := List.mem_map_of_mem (f := Prod.fst) hv
      exact absurd hkey (show "discovery_ips" ∉ ["blacklisted_ips"] by decide)
    · rintro w hw ⟨left, text, rfl⟩
      cases hw
    · exact absurd hv List.not_mem_nil
    · rintro w hw
      cases hw
  obtain ⟨m, m', hrun, hlistens, hips, hsaved⟩ : ∃ m m',
      (Host.down Table.empty).run plainYaml (fun _ => "") searching = .running m ∧
      m.service.discovery.listening = true ∧
      m.settings.config.lookup "discovery_ips" = some (.list [.str "192.168.1.255"]) ∧
      handleDiscover plainYaml (fun _ => "") 1 .sent rememberDoor .whole m = .ok (.added "10.0.0.9" (some "config.yml")) m' :=
    ⟨_, _, rfl, rfl, rfl, rfl⟩
  have hkeys : KeysOnly m.settings.config := by
    intro ips hlookup v hv
    obtain rfl := PyVal.list.inj (Option.some.inj (hips.symm.trans hlookup))
    rw [List.mem_singleton.1 hv]
    exact ⟨_, rfl⟩
  exact ⟨m, m', hrun, hsaved, hspares,
    remembered_target lawful_plainYaml (fun _ => "") hrun hlistens hkeys hsaved hspares⟩

/-! ### What the next process starts with -/

/-- The step is answered with the path its process saved the configuration to. -/
def HostStep.Saves (y : Yaml Text) (repr : PyVal → String) (m : Machine Text) (path : String) :
    HostStep Text → Machine Text → Prop
  | .post body w, m' => handlePost y body w m = .ok (.saved path) m'
  | .cameraSave devId w, m' => handleCameraSave y devId w m = .ok (.saved path) m'
  | .discover now result body w, m' =>
    ∃ ip, handleDiscover y repr now result body w m = .ok (.added ip (some path)) m'
  | _, _ => False

theorem HostStep.Saves.savedAt {repr : PyVal → String} {m m' : Machine Text} {path : String} {step : HostStep Text}
    (h : step.Saves y repr m path m') : ∃ m₁ : Machine Text, path = m₁.path ∧ m' = m₁.savedAt y := by
  cases step with
  | post body w =>
    change handlePost y body w m = _ at h
    unfold handlePost configPostBy at h
    split at h
    · cases h
    · obtain ⟨_, m₁, -, h₁⟩ := bind_eq_ok h
      obtain ⟨hreply, rfl⟩ := trySave_eq_ok h₁ fun e t t' hhandle => by
        cases e <;> cases hhandle
      exact ⟨m₁, ConfigReply.saved.inj hreply, rfl⟩
    · cases h
  | cameraSave devId w =>
    change handleCameraSave y devId w m = _ at h
    unfold handleCameraSave at h
    rw [get_bind_apply] at h
    obtain ⟨cameras, m₁, -, h₁⟩ := bind_eq_ok h
    obtain ⟨known, m₂, -, h₂⟩ := bind_eq_ok h₁
    cases known with
    | false => cases h₂
    | true =>
      obtain ⟨hreply, rfl⟩ := trySave_eq_ok h₂ fun e t t' hhandle => by
        cases e <;> cases hhandle
      exact ⟨m₂, ConfigReply.saved.inj hreply, rfl⟩
  | discover now result body w =>
    obtain ⟨ip, h⟩ := h
    obtain ⟨rfl, config, -, rfl⟩ := handleDiscover_saved h
    exact ⟨(m.asked now ip result).setConfig config, rfl, rfl⟩
  | _ => exact h.elim

theorem HostStep.Saves.step_eq {repr : PyVal → String} {m m' : Machine Text} {path : String} {step : HostStep Text}
    (h : step.Saves y repr m path m') : m.step y repr step = m' := by
  cases step with
  | post body w =>
    show final (handlePost y body w) m = m'
    rw [final, show handlePost y body w m = _ from h]
  | cameraSave devId w =>
    show final (handleCameraSave y devId w) m = m'
    rw [final, show handleCameraSave y devId w m = _ from h]
  | discover now result body w =>
    obtain ⟨ip, h⟩ := h
    show final (handleDiscover y repr now result body w) m = m'
    rw [final, h]
  | _ => exact h.elim

/-- The step leaves the file at this path as it is: nobody edits it, and no process whose file it is writes it. -/
def HostStep.Leaves (path : String) : Host Text → HostStep Text → Prop
  | _, .edit path' _ => path' ≠ path
  | .running m, step => m.path = path → ∀ w ∈ step.writing, ∃ text, w = .refused text
  | .down _, _ => True

theorem leaves_step (hy : y.Lawful) (repr : PyVal → String) {path : String} {h : Host Text} {step : HostStep Text}
    (hleaves : step.Leaves path h) : (h.step y repr step).files.find? path = h.files.find? path := by
  cases h with
  | down files =>
    cases step with
    | launch o denied =>
      rcases step_launch repr files o denied with ⟨m, hlaunch, hstep⟩ | hstep
      · rw [hstep]
        obtain ⟨s, config, ips, -, -, -, rfl⟩ := launch_ok hlaunch
        rfl
      · rw [hstep]
    | edit path' text => exact find?_editFile hleaves text
    | _ => rfl
  | running m =>
    have hmoves (hwrites : m.path = path → ∀ w ∈ step.writing, ∃ text, w = .refused text) :
        (m.step y repr step).files.find? path = m.files.find? path := by
      have hmoves : m.Moves y (fun _ => False) (.whole ∈ step.writing) (∃ w ∈ step.writing, w.Breaks)
          (m.step y repr step) :=
        moves_step hy repr (fun _ hT => hT.elim) fun _ hT => hT.elim
      by_cases hpath : m.path = path
      · subst hpath
        rcases hmoves.file with hsame | ⟨hwhole, -⟩ | ⟨w, hw, left, text, rfl⟩
        · exact hsame
        · obtain ⟨text, htext⟩ := hwrites rfl _ hwhole
          cases htext
        · obtain ⟨text', htext⟩ := hwrites rfl _ hw
          cases htext
      · exact hmoves.other path (Ne.symm hpath)
    cases step with
    | launch o denied => rfl
    | kill => rfl
    | edit path' text => exact find?_editFile hleaves text
    | _ => exact hmoves hleaves

theorem lookup_loadConfig {config : Config} (h : Table.Written (fun _ _ => True) defaultConfig config) (k : String) :
    (loadConfig config).lookup k = config.lookup k := by
  have hunique : (config.map Prod.fst).Nodup := h.nodup (by decide)
  unfold loadConfig
  rw [Table.lookup_overlay_of_nodup defaultConfig hunique]
  cases hlookup : config.lookup k with
  | some v => rfl
  | none =>
    cases hdefault : defaultConfig.lookup k with
    | none => rfl
    | some v =>
      obtain ⟨v', hv', -⟩ := h.keeps (R := fun _ => True) (fun _ _ => trivial) ⟨v, hdefault, trivial⟩
      rw [hlookup] at hv'
      cases hv'

/-- **A configuration that was saved** is the one the next process starts with: a request is answered with the path its
process saved to, and along any steps that leave that file, until no process runs, it is kept, so that a process that
is launched with it, and nothing else, has the configuration the first one had, and saves to the same file. -/
theorem saved_resumes (hy : y.Lawful) (repr : PyVal → String) {files files' : Table String Text}
    {before after : List (HostStep Text)} {m m' m'' : Machine Text} {step : HostStep Text} {path : String}
    (hrun : (Host.down files).run y repr before = .running m) (hsaves : step.Saves y repr m path m')
    (hafter : Runs.Guarded (Host.step y repr) (fun h step => step.Leaves path h) (.running m') after)
    (hdown : (Host.running m').run y repr after = .down files') {denied : Option String} {o : Options}
    (ho : o.OnlyFile path) (hlaunch : launch y denied o files' = .ok m'') :
    (∀ k, m''.settings.config.lookup k = m'.settings.config.lookup k) ∧ m''.path = path := by
  have hsound : m'.Sound := by
    have hnext : (m.step y repr step).Sound := Machine.Sound.step hy repr (sound_reached hy hrun) step
    rwa [hsaves.step_eq] at hnext
  have hkept : files'.find? path = some (y.safeDump m'.settings.config) := by
    have hfile : (Host.running m').files.find? path = some (y.safeDump m'.settings.config) := by
      obtain ⟨m₁, rfl, rfl⟩ := hsaves.savedAt
      exact Table.find?_insert_self m₁.files m₁.path _
    have hend := Runs.guarded (I := fun h : Host Text => h.files.find? path = some (y.safeDump m'.settings.config))
      hfile (fun h step hI hleaves => (leaves_step hy repr hleaves).trans hI) hafter
    change ((Host.running m').run y repr after).files.find? path = _ at hend
    rwa [hdown] at hend
  obtain ⟨config, ips, hconfig, -, rfl⟩ :=
    launch_file (congrArg Options.configFile ho) hkept (hy.load_dump hsound.unique) hlaunch
  obtain rfl := mainConfig_onlyFile ho hconfig
  have hpath : path ≠ "" := by
    obtain ⟨m₁, rfl, -⟩ := hsaves.savedAt
    exact target_ne m₁.settings
  exact ⟨lookup_loadConfig hsound.written, Machine.path_eq rfl hpath⟩

/-- A blacklist, which is saved. -/
def saveBlacklist : HostStep Config := .post (some (.dict [("blacklisted_ips", .list [.str "10.0.0.7"])])) .whole

/-- Another blacklist is refused by the file system, and the server ends. -/
def refusedAndKilled : List (HostStep Config) :=
  [.post (some (.dict [("blacklisted_ips", .list [])])) (.refused "disk full"), .kill]

theorem saved_resumes_blacklist :
    ∃ m m' files' m'', (Host.down Table.empty).run plainYaml (fun _ => "") searching = .running m ∧
      saveBlacklist.Saves plainYaml (fun _ => "") m "config.yml" m' ∧
      Runs.Guarded (Host.step plainYaml (fun _ => "")) (fun h step => step.Leaves "config.yml" h) (.running m')
        refusedAndKilled ∧
      (Host.running m').run plainYaml (fun _ => "") refusedAndKilled = .down files' ∧
      launch plainYaml none ⟨some "config.yml", none, none, none, none⟩ files' = .ok m'' ∧
      (∀ k, m''.settings.config.lookup k = m'.settings.config.lookup k) ∧ m''.path = "config.yml" := by
  obtain ⟨m, m', files', m'', hrun, hsaves, hdown, hlaunch⟩ : ∃ m m' files' m'',
      (Host.down Table.empty).run plainYaml (fun _ => "") searching = .running m ∧
      saveBlacklist.Saves plainYaml (fun _ => "") m "config.yml" m' ∧
      (Host.running m').run plainYaml (fun _ => "") refusedAndKilled = .down files' ∧
      launch plainYaml none ⟨some "config.yml", none, none, none, none⟩ files' = .ok m'' :=
    ⟨_, _, _, _, rfl, rfl, rfl, rfl⟩
  have hleaves : Runs.Guarded (Host.step plainYaml (fun _ => "")) (fun h step => step.Leaves "config.yml" h)
      (.running m') refusedAndKilled := by
    refine ⟨fun _ w hw => ⟨"disk full", (Option.some.inj hw).symm⟩, fun _ w hw => ?_, trivial⟩
    cases hw
  exact ⟨m, m', files', m'', hrun, hsaves, hleaves, hdown, hlaunch,
    saved_resumes lawful_plainYaml (fun _ => "") hrun hsaves hleaves hdown rfl hlaunch⟩

end CamReverse
