import CamReverse.Discovery
import CamReverse.Lib.Runs
import CamReverse.Lib.Spaced

/-!
# Every target is searched, none is flooded

A run of the discovery hears of the targets that are asked for once its endpoint is ready, and keeps one task for each
as long as its transport is open (`every_target_searched`). So however often a target is asked for, beyond one LanSearch
for each time it gets one every three seconds (`probe_rate`).
-/

namespace CamReverse

open Effect Runs

namespace Discovery

/-! ### What is asked for -/

/-- The targets a loop over `_add_target` comes to, which ends where a value is no key. -/
def targets : List PyVal → List PyKey
  | [] => []
  | v :: vs =>
    match v.key with
    | .ok ip => ip :: targets vs
    | .error _ => []

/-- The targets `_run_discovery` comes to. -/
def configured (discoveryIps : PyVal) : List PyKey :=
  match discoveryIps.items with
  | .ok ips => targets ips
  | .error _ => []

def heard (d : Discovery) : DiscoveryStep → List (ℚ × PyKey)
  | .ready now _ => if d.transport = .absent then (configured d.discoveryIps).map fun ip => (now, ip) else []
  | .addTarget now ip _ => if d.listening then [(now, .str ip)] else []
  | .blast _ _ _ => []
  | .close => []
  | .connectionLost => []

def asked (discoveryIps : PyVal) (steps : List DiscoveryStep) : List (ℚ × PyKey) :=
  outputs Discovery.step heard (.start discoveryIps) steps

/-! ### What a step does -/

/-- The discovery after `_add_target` of this target. -/
def added (d : Discovery) (now : ℚ) (ip : PyKey) (result : Sendto) : Discovery :=
  if ip ∈ d.active then
    if d.transport = .closed then d else d.probed now ip true result
  else { d with active := d.active ++ [ip], tasks := d.tasks ++ [⟨ip, now⟩] }

theorem probe_apply (now : ℚ) (ip : PyKey) (nudge : Bool) (result : Sendto) (d : Discovery) :
    probe now ip nudge result d =
      if d.transport = .closed then .error .attributeError d else .ok ⟨⟩ (d.probed now ip nudge result) := by
  unfold probe
  rw [get_bind_apply]
  split_ifs <;> rfl

theorem addTarget_error {v : PyVal} {e : PyErr} (h : v.key = .error e) (now : ℚ) (result : Sendto) (d : Discovery) :
    addTarget now v result d = .error e d := by
  unfold addTarget
  rw [h]
  rfl

theorem final_addTarget {v : PyVal} {ip : PyKey} (h : v.key = .ok ip) (now : ℚ) (result : Sendto) (d : Discovery) :
    final (addTarget now v result) d = d.added now ip result := by
  unfold addTarget added
  rw [h, liftM_eq_lift, lift_ok_bind, final, get_bind_apply]
  by_cases hip : ip ∈ d.active
  · rw [if_pos hip, if_pos hip, probe_apply]
    split_ifs <;> rfl
  · rw [if_neg hip, if_neg hip]
    rfl

theorem addTarget_ok {v : PyVal} {ip : PyKey} (h : v.key = .ok ip) (now : ℚ) (result : Sendto) {d : Discovery}
    (hsocket : d.transport ≠ .closed) : addTarget now v result d = .ok ⟨⟩ (d.added now ip result) := by
  unfold addTarget added
  rw [h, liftM_eq_lift, lift_ok_bind, get_bind_apply]
  by_cases hip : ip ∈ d.active
  · rw [if_pos hip, if_pos hip, probe_apply, if_neg hsocket, if_neg hsocket]
  · rw [if_neg hip, if_neg hip]
    rfl

/-- This target is tracked by a transport without its socket. -/
def Lost (d : Discovery) (ip : String) : Prop := d.listening = true ∧ PyKey.str ip ∈ d.active ∧ d.transport = .closed

instance (d : Discovery) (ip : String) : Decidable (d.Lost ip) := inferInstanceAs (Decidable (_ ∧ _ ∧ _))

theorem emitAddTarget_apply (now : ℚ) (ip : String) (result : Sendto) (d : Discovery) :
    emitAddTarget now ip result d =
      if d.Lost ip then .error .attributeError d else .ok ⟨⟩ (d.step (.addTarget now ip result)) := by
  have hstep : d.step (.addTarget now ip result) = final (emitAddTarget now ip result) d := rfl
  rw [hstep, final]
  unfold emitAddTarget
  rw [get_bind_apply]
  by_cases hlistening : d.listening = true
  · rw [if_pos hlistening]
    by_cases hlost : d.Lost ip
    · rw [if_pos hlost]
      unfold addTarget
      rw [show (PyVal.str ip).key = .ok (.str ip) from rfl, liftM_eq_lift, lift_ok_bind, get_bind_apply,
        if_pos hlost.2.1, probe_apply, if_pos hlost.2.2]
    · rw [if_neg hlost]
      by_cases hactive : PyKey.str ip ∈ d.active
      · rw [addTarget_ok rfl now result fun hclosed => hlost ⟨hlistening, hactive, hclosed⟩]
      · unfold addTarget
        rw [show (PyVal.str ip).key = .ok (.str ip) from rfl, liftM_eq_lift, lift_ok_bind, get_bind_apply,
          if_neg hactive]
        rfl
  · rw [if_neg hlistening, if_neg fun hlost => hlistening hlost.1]
    rfl

theorem probed_transport (d : Discovery) (now : ℚ) (ip : PyKey) (nudge : Bool) (result : Sendto) :
    (d.probed now ip nudge result).transport = d.transport ∨
      (d.probed now ip nudge result).transport = .closing ∧ sendsTo ip result = .fatal := by
  by_cases hfatal : sendsTo ip result = .fatal
  · exact .inr ⟨if_pos hfatal, hfatal⟩
  · exact .inl (if_neg hfatal)

theorem added_transport (d : Discovery) (now : ℚ) (ip : PyKey) (result : Sendto) :
    (d.added now ip result).transport = d.transport ∨
      (d.added now ip result).transport = .closing ∧ sendsTo ip result = .fatal := by
  unfold added
  split_ifs
  · exact .inl rfl
  · exact probed_transport d now ip true result
  · exact .inl rfl

theorem forM_addTarget {P : List (ℚ × PyKey) → Discovery → Prop} (now : ℚ) (results : ℕ → Sendto)
    (hadd : ∀ os d ip result, d.transport ≠ .closed → P os d → P (os ++ [(now, ip)]) (d.added now ip result))
    (items : List (PyVal × ℕ)) {os : List (ℚ × PyKey)} {d : Discovery} (hsocket : d.transport ≠ .closed) (h : P os d) :
    P (os ++ (targets (items.map Prod.fst)).map fun ip => (now, ip))
      (final (items.forM fun item => addTarget now item.1 (results item.2)) d) := by
  induction items generalizing os d with
  | nil =>
    rw [show targets (([] : List (PyVal × ℕ)).map Prod.fst) = [] from rfl, List.map_nil, List.append_nil]
    exact h
  | cons item items ih =>
    rw [List.map_cons, List.forM, targets]
    cases hkey : item.1.key with
    | error e =>
      rw [List.map_nil, List.append_nil, final, bind_error (addTarget_error hkey now _ d)]
      exact h
    | ok ip =>
      have hnext : (d.added now ip (results item.2)).transport ≠ .closed := by
        rcases added_transport d now ip (results item.2) with hsame | ⟨hclosing, -⟩
        · rwa [hsame]
        · rw [hclosing]
          rintro ⟨⟩
      rw [List.map_cons, List.append_cons, final, bind_ok (addTarget_ok hkey now _ hsocket), ← final]
      exact ih hnext (hadd os d ip _ hsocket h)

theorem ready_cases (d : Discovery) (now : ℚ) (results : ℕ → Sendto) :
    (∃ e, d.discoveryIps.items = .error e ∧ final (ready now results) d = { d with transport := .opened }) ∨
      ∃ ips, d.discoveryIps.items = .ok ips ∧
        (final (ready now results) d = final (addTargets now results ips) { d with transport := .opened } ∨
          final (ready now results) d =
            { final (addTargets now results ips) { d with transport := .opened } with listening := true }) := by
  unfold ready
  rw [final, modify_bind_apply, get_bind_apply]
  dsimp only
  cases d.discoveryIps.items with
  | error e => exact .inl ⟨e, rfl, rfl⟩
  | ok ips =>
    refine .inr ⟨ips, rfl, ?_⟩
    rw [liftM_eq_lift, lift_ok_bind, ← final, final_bind]
    cases outcome (addTargets now results ips) { d with transport := .opened } with
    | ok a => exact .inr rfl
    | error e => exact .inl rfl

theorem blast_cases (d : Discovery) (now : ℚ) (i : ℕ) (result : Sendto) :
    d.blast now i result = d ∨ ∃ task, d.tasks[i]? = some task ∧ task.wakeAt ≤ now ∧
      (d.transport = .closed ∧ d.blast now i result = { d with tasks := d.tasks.eraseIdx i } ∨
        d.transport ≠ .closed ∧ d.blast now i result = { d.probed now task.ip false result with
          tasks := d.tasks.set i { task with wakeAt := now + 3000 } }) := by
  unfold blast
  cases htask : d.tasks[i]? with
  | none => exact .inl rfl
  | some task =>
    dsimp only
    split_ifs with hdue
    · refine .inr ⟨task, rfl, hdue, ?_⟩
      rw [probe_apply]
      split_ifs with hclosed
      · exact .inl ⟨hclosed, rfl⟩
      · exact .inr ⟨hclosed, rfl⟩
    · exact .inl rfl

theorem blast_idle {d : Discovery} (h : d.tasks = []) (now : ℚ) (i : ℕ) (result : Sendto) :
    d.blast now i result = d := by
  unfold blast
  rw [h]
  rfl

theorem ips_set {tasks : List Blast} {i : ℕ} {task : Blast} (h : tasks[i]? = some task) (wakeAt : ℚ) :
    (tasks.set i { task with wakeAt := wakeAt }).map Blast.ip = tasks.map Blast.ip := by
  obtain ⟨hi, rfl⟩ := List.getElem?_eq_some_iff.1 h
  rw [List.map_set, ← List.getElem_map Blast.ip (h := by simpa using hi), List.set_getElem_self]

theorem blast_keeps (d : Discovery) (now : ℚ) (i : ℕ) (result : Sendto) :
    (d.blast now i result).listening = d.listening ∧ (d.blast now i result).active = d.active ∧
      (d.blast now i result).discoveryIps = d.discoveryIps ∧
      (d.transport ≠ .absent → (d.blast now i result).transport ≠ .absent) := by
  rcases blast_cases d now i result with hsame | ⟨task, -, -, ⟨-, hblast⟩ | ⟨-, hblast⟩⟩
  · rw [hsame]
    exact ⟨rfl, rfl, rfl, id⟩
  · rw [hblast]
    exact ⟨rfl, rfl, rfl, id⟩
  · rw [hblast]
    refine ⟨rfl, rfl, rfl, fun hthere => ?_⟩
    show (d.probed now task.ip false result).transport ≠ .absent
    rcases probed_transport d now task.ip false result with hsame | ⟨hclosing, -⟩
    · rwa [hsame]
    · rw [hclosing]
      rintro ⟨⟩

theorem added_there {d : Discovery} (h : d.transport ≠ .absent) (now : ℚ) (ip : PyKey) (result : Sendto) :
    (d.added now ip result).transport ≠ .absent := by
  rcases added_transport d now ip result with hsame | ⟨hclosing, -⟩
  · rwa [hsame]
  · rw [hclosing]
    rintro ⟨⟩

theorem added_listening (d : Discovery) (now : ℚ) (ip : PyKey) (result : Sendto) :
    (d.added now ip result).listening = d.listening := by
  unfold added
  split_ifs <;> rfl

/-- **The endpoint is ready**: what holds behind `transport`, and is kept when a target is asked for and when the
discovery begins to listen. -/
theorem ready_rule {P : List (ℚ × PyKey) → Discovery → Prop} (now : ℚ) (results : ℕ → Sendto)
    (hadd : ∀ os d ip result, d.transport ≠ .absent → P os d → P (os ++ [(now, ip)]) (d.added now ip result))
    (hlisten : ∀ os d, d.transport ≠ .absent → P os d → P os { d with listening := true })
    {os : List (ℚ × PyKey)} {d : Discovery} (h : P os { d with transport := .opened }) :
    P (os ++ (configured d.discoveryIps).map fun ip => (now, ip)) (final (ready now results) d) ∧
      (final (ready now results) d).transport ≠ .absent := by
  have hopened : ({ d with transport := .opened } : Discovery).transport ≠ .absent := by rintro ⟨⟩
  rcases ready_cases d now results with ⟨e, hitems, hfinal⟩ | ⟨ips, hitems, hfinal⟩
  · rw [hfinal, configured, hitems, List.map_nil, List.append_nil]
    exact ⟨h, hopened⟩
  · have hloop := forM_addTarget (P := fun os d => P os d ∧ d.transport ≠ .absent) now results
      (fun os d ip result _ hd => ⟨hadd os d ip result hd.2 hd.1, added_there hd.2 now ip result⟩) ips.zipIdx
      (by rintro ⟨⟩) ⟨h, hopened⟩
    rw [List.zipIdx_map_fst] at hloop
    rw [configured, hitems]
    rcases hfinal with hfinal | hfinal
    · rw [hfinal]
      exact hloop
    · rw [hfinal]
      exact ⟨hlisten _ _ hloop.2 hloop.1, hloop.2⟩

/-- **The rule for runs**: what holds of a new discovery and is kept when its endpoint is ready, when a target is asked
for, when it begins to listen, in a round of a task, when it is closed and when its socket is gone. -/
theorem run_asked {P : List (ℚ × PyKey) → Discovery → Prop} {discoveryIps : PyVal}
    (hstart : P [] (.start discoveryIps))
    (hready : ∀ os d, d.transport = .absent → P os d → P os { d with transport := .opened })
    (hadd : ∀ os d now ip result, d.transport ≠ .absent → P os d → P (os ++ [(now, ip)]) (d.added now ip result))
    (hlisten : ∀ os d, d.transport ≠ .absent → P os d → P os { d with listening := true })
    (hblast : ∀ os d now i result, P os d → P os (d.blast now i result))
    (hclose : ∀ os d, d.transport ≠ .absent → P os d → P os d.onClose)
    (hlost : ∀ os d, d.transport = .closing → P os d → P os { d with transport := .closed })
    (steps : List DiscoveryStep) :
    P (asked discoveryIps steps) ((Discovery.start discoveryIps).run steps) := by
  -- nobody listens before the endpoint is ready
  let Q : List (ℚ × PyKey) → Discovery → Prop := fun os d => P os d ∧ (d.listening = true → d.transport ≠ .absent)
  suffices h : Q (asked discoveryIps steps) ((Discovery.start discoveryIps).run steps) from h.1
  refine outputs_invariant (P := Q) ⟨hstart, by rintro ⟨⟩⟩ ?_ steps
  rintro os d step ⟨h, hlistens⟩
  cases step with
  | blast now i result =>
    obtain ⟨hlistening, -, -, hthere⟩ := blast_keeps d now i result
    rw [heard, List.append_nil]
    exact ⟨hblast os d now i result h, fun hl => hthere (hlistens (hlistening ▸ hl))⟩
  | close =>
    rw [heard, List.append_nil, Discovery.step]
    split_ifs with hl
    · refine ⟨hclose os d (hlistens hl) h, fun _ => ?_⟩
      show (if d.transport = .opened then Endpoint.closing else d.transport) ≠ .absent
      split_ifs
      · rintro ⟨⟩
      · exact hlistens hl
    · exact ⟨h, hlistens⟩
  | connectionLost =>
    rw [heard, List.append_nil, Discovery.step]
    split_ifs with hclosing
    · exact ⟨hlost os d hclosing h, fun _ => by rintro ⟨⟩⟩
    · exact ⟨h, hlistens⟩
  | addTarget now ip result =>
    rw [heard, Discovery.step]
    unfold emitAddTarget
    rw [final, get_bind_apply]
    split_ifs with hl
    · rw [← final, final_addTarget rfl]
      exact ⟨hadd os d now _ result (hlistens hl) h, fun _ => added_there (hlistens hl) now _ result⟩
    · rw [List.append_nil]
      exact ⟨h, hlistens⟩
  | ready now results =>
    rw [heard, Discovery.step]
    split_ifs with habsent
    · obtain ⟨hafter, hthere⟩ := ready_rule now results (fun os d ip result => hadd os d now ip result) hlisten
        (hready os d habsent h)
      exact ⟨hafter, fun _ => hthere⟩
    · rw [List.append_nil]
      exact ⟨h, hlistens⟩

/-! ### One task for each target -/

/-- The times at which its task handed a LanSearch to a target to `sendto`. -/
def rounds (d : Discovery) (ip : PyKey) : List ℚ :=
  (d.probes.filter fun p => p.ip = ip && !p.nudge).map Probe.time

theorem rounds_probed (d : Discovery) (now : ℚ) (ip : PyKey) (nudge : Bool) (result : Sendto) (ip' : PyKey) :
    (d.probed now ip nudge result).rounds ip' = d.rounds ip' ++ if ip = ip' ∧ nudge = false then [now] else [] := by
  unfold probed rounds
  rw [List.filter_append, List.map_append, List.filter_singleton]
  by_cases hip : ip = ip' <;> cases nudge <;> simp [hip]

/-- What holds of the tasks of a discovery and of what it sent. -/
structure Inv (d : Discovery) : Prop where
  targets : d.active.Nodup
  single : (d.tasks.map Blast.ip).Nodup
  active : ∀ task ∈ d.tasks, task.ip ∈ d.active
  probes : ∀ p ∈ d.probes, p.ip ∈ d.active
  spaced : ∀ ip, Spaced 3000 (d.rounds ip)
  asleep : ∀ task ∈ d.tasks, ∀ s ∈ d.rounds task.ip, s + 3000 ≤ task.wakeAt

theorem Inv.rounds_eq_nil {d : Discovery} (h : d.Inv) {ip : PyKey} (hip : ip ∉ d.active) : d.rounds ip = [] := by
  unfold rounds
  rw [List.map_eq_nil_iff, List.filter_eq_nil_iff]
  intro p hp
  have hne : p.ip ≠ ip := fun heq => hip (heq ▸ h.probes p hp)
  simp [hne]

theorem Inv.probed {d : Discovery} (h : d.Inv) {ip : PyKey} (hip : ip ∈ d.active) (now : ℚ) (nudge : Bool)
    (result : Sendto) (hspaced : nudge = false → ∀ s ∈ d.rounds ip, s + 3000 ≤ now) (ip' : PyKey) :
    (∀ p ∈ (d.probed now ip nudge result).probes, p.ip ∈ d.active) ∧
      Spaced 3000 ((d.probed now ip nudge result).rounds ip') := by
  constructor
  · intro p hp
    obtain hp | hp := List.mem_append.1 hp
    · exact h.probes p hp
    · rw [List.mem_singleton.1 hp]
      exact hip
  · rw [rounds_probed]
    split_ifs with hround
    · obtain ⟨rfl, hround⟩ := hround
      exact (h.spaced ip).snoc (hspaced hround)
    · rw [List.append_nil]
      exact h.spaced ip'

theorem Inv.added {d : Discovery} (h : d.Inv) (now : ℚ) (ip : PyKey) (result : Sendto) :
    (d.added now ip result).Inv := by
  unfold Discovery.added
  split_ifs with hip hclosed
  · exact h
  · have hprobed := h.probed hip now true result (by simp)
    have hrounds : ∀ ip', (d.probed now ip true result).rounds ip' = d.rounds ip' := fun ip' => by
      simp [rounds_probed]
    exact {
      targets := h.targets
      single := h.single
      active := h.active
      probes := (hprobed ip).1
      spaced := fun ip' => (hprobed ip').2
      asleep := by
        intro task htask
        rw [hrounds]
        exact h.asleep task htask }
  · have hnew : ∀ task ∈ d.tasks ++ [⟨ip, now⟩], task ∈ d.tasks ∨ task = ⟨ip, now⟩ := fun task htask =>
      (List.mem_append.1 htask).imp_right List.mem_singleton.1
    exact {
      targets := h.targets.append (List.nodup_singleton ip) (List.disjoint_singleton.2 hip)
      single := by
        rw [List.map_append]
        refine h.single.append (List.nodup_singleton ip) (List.disjoint_singleton.2 fun hmem => ?_)
        obtain ⟨task, htask, heq⟩ := List.mem_map.1 hmem
        have heq : task.ip = ip := heq
        exact hip (heq ▸ h.active task htask)
      active := fun task htask => List.mem_append.2 <| (hnew task htask).imp (h.active task) fun heq => by simp [heq]
      probes := fun p hp => List.mem_append_left _ (h.probes p hp)
      spaced := h.spaced
      asleep := fun task htask => by
        obtain htask | rfl := hnew task htask
        · exact h.asleep task htask
        · intro s hs
          exact absurd (h.rounds_eq_nil hip ▸ hs : s ∈ []) List.not_mem_nil }

theorem Inv.blast {d : Discovery} (h : d.Inv) (now : ℚ) (i : ℕ) (result : Sendto) : (d.blast now i result).Inv := by
  rcases blast_cases d now i result with hsame | ⟨task, htask, hdue, ⟨-, hblast⟩ | ⟨-, hblast⟩⟩
  · rw [hsame]
    exact h
  · -- the task is over
    have hsub : (d.tasks.eraseIdx i).Sublist d.tasks := List.eraseIdx_sublist d.tasks i
    rw [hblast]
    exact {
      targets := h.targets
      single := h.single.sublist (hsub.map Blast.ip)
      active := fun task' htask' => h.active task' (hsub.subset htask')
      probes := h.probes
      spaced := h.spaced
      asleep := fun task' htask' => h.asleep task' (hsub.subset htask') }
  · rw [hblast]
    obtain ⟨hi, hat⟩ := List.getElem?_eq_some_iff.1 htask
    have hmem : task ∈ d.tasks := hat ▸ List.getElem_mem hi
    have hprobed := h.probed (h.active task hmem) now false result fun _ s hs => (h.asleep task hmem s hs).trans hdue
    have hips := ips_set htask (now + 3000)
    have hnodup : ((d.tasks.set i { task with wakeAt := now + 3000 }).map Blast.ip).Nodup := hips ▸ h.single
    refine
      { targets := h.targets
        single := hnodup
        active := ?_
        probes := (hprobed task.ip).1
        spaced := fun ip => (hprobed ip).2
        asleep := ?_ }
    · intro task' htask'
      obtain ⟨old, hold, heq⟩ : ∃ old ∈ d.tasks, old.ip = task'.ip := by
        have hmap := List.mem_map_of_mem (f := Blast.ip) htask'
        rw [hips] at hmap
        exact List.mem_map.1 hmap
      exact heq ▸ h.active old hold
    · intro task' htask' s hs
      change s ∈ (d.probed now task.ip false result).rounds task'.ip at hs
      rw [rounds_probed] at hs
      by_cases hip : task'.ip = task.ip
      · have hnew : { task with wakeAt := now + 3000 } ∈ d.tasks.set i { task with wakeAt := now + 3000 } :=
          List.mem_set hi _
        rw [List.inj_on_of_nodup_map hnodup htask' hnew hip] at hs ⊢
        obtain hs | hs := List.mem_append.1 hs
        · linarith [h.asleep task hmem s hs]
        · split_ifs at hs
          · rw [List.mem_singleton.1 hs]
          · cases hs
      · rw [if_neg fun hround => hip hround.1.symm, List.append_nil] at hs
        refine h.asleep task' ((List.mem_or_eq_of_mem_set htask').resolve_right ?_) s hs
        rintro rfl
        exact hip rfl

theorem Inv.moved {d : Discovery} (h : d.Inv) (transport : Endpoint) (listening : Bool) :
    Inv { d with transport := transport, listening := listening } :=
  ⟨h.targets, h.single, h.active, h.probes, h.spaced, h.asleep⟩

theorem Inv.onClose {d : Discovery} (h : d.Inv) : d.onClose.Inv where
  targets := h.targets
  single := List.nodup_nil
  active := List.forall_mem_nil _
  probes := h.probes
  spaced := h.spaced
  asleep := List.forall_mem_nil _

theorem inv_run (discoveryIps : PyVal) (steps : List DiscoveryStep) :
    ((Discovery.start discoveryIps).run steps).Inv :=
  run_asked (P := fun _ d => d.Inv)
    { targets := List.nodup_nil
      single := List.nodup_nil
      active := List.forall_mem_nil _
      probes := List.forall_mem_nil _
      spaced := fun _ => Spaced.nil
      asleep := List.forall_mem_nil _ }
    (fun _ d _ h => h.moved .opened d.listening)
    (fun _ _ now ip result _ h => h.added now ip result)
    (fun _ d _ h => h.moved d.transport true)
    (fun _ _ now i result h => h.blast now i result)
    (fun _ _ _ h => h.onClose)
    (fun _ d _ h => h.moved .closed d.listening) steps

/-! ### How often a target is sent a LanSearch -/

/-- The LanSearches to a target from `a` to `b`, those that could not be sent among them. -/
def probesTo (d : Discovery) (ip : PyKey) (a b : ℚ) : List Probe :=
  d.probes.filter fun p => p.ip = ip ∧ a ≤ p.time ∧ p.time ≤ b

/-- The times from `a` to `b` at which a target is asked for. -/
def asksFor (asks : List (ℚ × PyKey)) (ip : PyKey) (a b : ℚ) : List (ℚ × PyKey) :=
  asks.filter fun ask => ask.2 = ip ∧ a ≤ ask.1 ∧ ask.1 ≤ b

def nudges (d : Discovery) : List (ℚ × PyKey) := (d.probes.filter Probe.nudge).map fun p => (p.time, p.ip)

theorem nudges_probed (d : Discovery) (now : ℚ) (ip : PyKey) (nudge : Bool) (result : Sendto) :
    (d.probed now ip nudge result).nudges = d.nudges ++ if nudge then [(now, ip)] else [] := by
  unfold probed nudges
  rw [List.filter_append, List.filter_singleton, List.map_append]
  cases nudge <;> rfl

theorem nudges_sublist (discoveryIps : PyVal) (steps : List DiscoveryStep) :
    ((Discovery.start discoveryIps).run steps).nudges.Sublist (asked discoveryIps steps) := by
  refine run_asked (P := fun os d => d.nudges.Sublist os) (List.Sublist.refl _) (fun _ _ _ h => h) ?_
    (fun _ _ _ h => h) ?_ (fun _ _ _ h => h) (fun _ _ _ h => h) steps
  · intro os d now ip result _ h
    unfold added
    split_ifs
    · exact h.trans (List.sublist_append_left _ _)
    · rw [nudges_probed, if_pos rfl]
      exact h.append_right _
    · exact h.trans (List.sublist_append_left _ _)
  · intro os d now i result h
    rcases blast_cases d now i result with hsame | ⟨task, -, -, ⟨-, hblast⟩ | ⟨-, hblast⟩⟩
    · rwa [hsame]
    · rw [hblast]
      exact h
    · rw [hblast]
      show (d.probed now task.ip false result).nudges.Sublist os
      rw [nudges_probed, if_neg Bool.false_ne_true, List.append_nil]
      exact h

/-- **No target is flooded.** In every run of the discovery, however often a target is asked for, from `a` to `b` it is
sent at most one LanSearch for each time it is asked for, one every three seconds, and one more. -/
theorem probe_rate (discoveryIps : PyVal) (steps : List DiscoveryStep) (ip : PyKey) {a b : ℚ} (hab : a ≤ b) :
    ((((Discovery.start discoveryIps).run steps).probesTo ip a b).length : ℚ) ≤
      (asksFor (asked discoveryIps steps) ip a b).length + (b - a) / 3000 + 1 := by
  set d := (Discovery.start discoveryIps).run steps with hd
  have hsplit := List.length_eq_length_filter_add (l := d.probesTo ip a b) Probe.nudge
  have hnudges : ((d.probesTo ip a b).filter Probe.nudge).length ≤
      (asksFor (asked discoveryIps steps) ip a b).length := by
    have hmap : ((d.probesTo ip a b).filter Probe.nudge).map (fun p => (p.time, p.ip)) = asksFor d.nudges ip a b := by
      unfold probesTo asksFor nudges
      rw [List.filter_map, List.filter_filter, List.filter_filter]
      simp only [Function.comp_def, Bool.and_comm]
    rw [← List.length_map (fun p : Probe => (p.time, p.ip)), hmap]
    exact ((nudges_sublist discoveryIps steps).filter _).length_le
  have hrounds : (((d.probesTo ip a b).filter (!·.nudge)).length : ℚ) ≤ (b - a) / 3000 + 1 := by
    have hmap : ((d.probesTo ip a b).filter (!·.nudge)).map Probe.time =
        (d.rounds ip).filter fun t => a ≤ t ∧ t ≤ b := by
      unfold probesTo rounds
      rw [List.filter_map, List.filter_filter, List.filter_filter]
      congr 1
      refine List.filter_congr fun p _ => ?_
      simp only [Function.comp_def, Bool.decide_and]
      ac_rfl
    rw [← List.length_map Probe.time, hmap]
    refine (((inv_run discoveryIps steps).spaced ip).filter _).length_le (by norm_num) hab fun t ht => ?_
    simpa using (List.mem_filter.1 ht).2
  have hlen : ((d.probesTo ip a b).length : ℚ) = ((d.probesTo ip a b).filter Probe.nudge).length +
      ((d.probesTo ip a b).filter (!·.nudge)).length := by exact_mod_cast hsplit
  have hcast : (((d.probesTo ip a b).filter Probe.nudge).length : ℚ) ≤
      (asksFor (asked discoveryIps steps) ip a b).length := by exact_mod_cast hnudges
  linarith

/-- `settings.config["discovery_ips"]` by default. -/
def broadcast : PyVal := .list [.str "192.168.1.255"]

/-- A target that is asked for twice, and once more while it is searched; one LanSearch to it fails. -/
def askedOften : List DiscoveryStep :=
  [.addTarget 0 "192.168.1.5" .sent, .ready 100 fun _ => .sent, .blast 100 0 .sent, .addTarget 200 "192.168.1.5" .sent,
    .blast 250 1 .failed, .addTarget 300 "192.168.1.5" .sent, .blast 3250 1 .sent]

theorem probe_rate_askedOften :
    ((((Discovery.start broadcast).run askedOften).probesTo (.str "192.168.1.5") 200 3250).length : ℚ) ≤
      (asksFor (asked broadcast askedOften) (.str "192.168.1.5") 200 3250).length + (3250 - 200) / 3000 + 1 :=
  probe_rate broadcast askedOften (.str "192.168.1.5") (by norm_num)

/-! ### That every target is searched -/

/-- A task is due when its target was asked for, or three seconds after a LanSearch to it. -/
def Served (os : List (ℚ × PyKey)) (d : Discovery) (ip : PyKey) : Prop :=
  ∃ task ∈ d.tasks, task.ip = ip ∧
    ((task.wakeAt, ip) ∈ os ∨ ∃ p ∈ d.probes, p.ip = ip ∧ task.wakeAt = p.time + 3000)

theorem Served.mono {os os' : List (ℚ × PyKey)} {d d' : Discovery} {ip : PyKey} (h : Served os d ip)
    (hos : ∀ ask ∈ os, ask ∈ os') (htasks : ∀ task ∈ d.tasks, task ∈ d'.tasks)
    (hprobes : ∀ p ∈ d.probes, p ∈ d'.probes) : Served os' d' ip := by
  obtain ⟨task, htask, hip, hdue⟩ := h
  exact ⟨task, htasks task htask, hip, hdue.imp (hos _) fun ⟨p, hp, hdue⟩ => ⟨p, hprobes p hp, hdue⟩⟩

/-- What a discovery does about the targets that are asked for. -/
structure Serves (os : List (ℚ × PyKey)) (d : Discovery) : Prop where
  targets : ∀ ip, ip ∈ d.active ↔ ∃ s, (s, ip) ∈ os
  served : d.transport = .opened → ∀ ip ∈ d.active, Served os d ip
  harmless : d.transport = .opened → ∀ p ∈ d.probes, p.result ≠ .fatal
  idle : d.transport = .absent → d.active = [] ∧ d.probes = []

theorem Serves.probed {os : List (ℚ × PyKey)} {d : Discovery} (h : Serves os d) (now : ℚ) (ip : PyKey) (nudge : Bool)
    (result : Sendto) (hopened : (d.probed now ip nudge result).transport = .opened) :
    d.transport = .opened ∧ ∀ p ∈ (d.probed now ip nudge result).probes, p.result ≠ .fatal := by
  have hharmless : sendsTo ip result ≠ .fatal := by
    intro hfatal
    rw [show (d.probed now ip nudge result).transport = .closing from if_pos hfatal] at hopened
    cases hopened
  have hwas : d.transport = .opened := by
    rw [← hopened]
    exact (if_neg hharmless).symm
  refine ⟨hwas, fun p hp => ?_⟩
  obtain hp | hp := List.mem_append.1 hp
  · exact h.harmless hwas p hp
  · rw [List.mem_singleton.1 hp]
    exact hharmless

theorem Serves.added {os : List (ℚ × PyKey)} {d : Discovery} (h : Serves os d) (hthere : d.transport ≠ .absent)
    (now : ℚ) (ip : PyKey) (result : Sendto) : Serves (os ++ [(now, ip)]) (d.added now ip result) := by
  have hasked : ∀ ip', (∃ s, (s, ip') ∈ os ++ [(now, ip)]) ↔ ip' ∈ d.active ∨ ip' = ip := by
    intro ip'
    rw [h.targets]
    constructor
    · rintro ⟨s, hs⟩
      obtain hs | hs := List.mem_append.1 hs
      · exact .inl ⟨s, hs⟩
      · exact .inr (congrArg Prod.snd (List.mem_singleton.1 hs))
    · rintro (⟨s, hs⟩ | rfl)
      · exact ⟨s, List.mem_append_left _ hs⟩
      · exact ⟨now, List.mem_append_right _ (List.mem_singleton.2 rfl)⟩
  have hknown : ip ∈ d.active → ∀ ip', ip' ∈ d.active ↔ ∃ s, (s, ip') ∈ os ++ [(now, ip)] := by
    intro hip ip'
    rw [hasked]
    exact ⟨.inl, fun hmem => hmem.elim id fun heq => heq ▸ hip⟩
  have hstill := added_there hthere now ip result
  unfold Discovery.added at hstill ⊢
  split_ifs at hstill ⊢ with hip hclosed
  · exact ⟨hknown hip, fun hopened => absurd hclosed (by rw [hopened]; rintro ⟨⟩),
      fun hopened => absurd hclosed (by rw [hopened]; rintro ⟨⟩), fun habsent => absurd habsent hthere⟩
  · refine ⟨hknown hip, fun hopened ip' hip' => ?_, fun hopened => ?_, fun habsent => absurd habsent hstill⟩
    · obtain ⟨hwas, -⟩ := h.probed now ip true result hopened
      exact (h.served hwas ip' hip').mono (fun ask => List.mem_append_left _) (fun _ => id)
        fun p hp => List.mem_append_left _ hp
    · exact (h.probed now ip true result hopened).2
  · refine ⟨fun ip' => ?_, fun hopened ip' hip' => ?_, fun hopened => h.harmless hopened,
      fun habsent => absurd habsent hthere⟩
    · rw [hasked, List.mem_append, List.mem_singleton]
    · obtain hip' | hip' := List.mem_append.1 hip'
      · exact (h.served hopened ip' hip').mono (fun ask => List.mem_append_left _)
          (fun task => List.mem_append_left _) fun _ => id
      · rw [List.mem_singleton.1 hip']
        exact ⟨⟨ip, now⟩, by simp, rfl, .inl (by simp)⟩

theorem Serves.blast {os : List (ℚ × PyKey)} {d : Discovery} (h : Serves os d) (hinv : d.Inv) (now : ℚ) (i : ℕ)
    (result : Sendto) : Serves os (d.blast now i result) := by
  rcases blast_cases d now i result with hsame | ⟨task, htask, -, ⟨hclosed, hblast⟩ | ⟨-, hblast⟩⟩
  · rwa [hsame]
  · rw [hblast]
    refine ⟨h.targets, fun hopened => ?_, fun hopened => ?_, fun habsent => h.idle habsent⟩
    · cases hclosed.symm.trans hopened
    · cases hclosed.symm.trans hopened
  · rw [hblast]
    obtain ⟨hi, hat⟩ := List.getElem?_eq_some_iff.1 htask
    have hmem : task ∈ d.tasks := hat ▸ List.getElem_mem hi
    refine ⟨h.targets, fun hopened ip hip => ?_, fun hopened => (h.probed now task.ip false result hopened).2,
      fun habsent => ?_⟩
    · obtain ⟨hwas, -⟩ := h.probed now task.ip false result hopened
      obtain ⟨task', htask', hip', hdue'⟩ := h.served hwas ip hip
      by_cases hsame : task' = task
      · -- its own task has just sent it one
        subst hsame
        exact ⟨{ task' with wakeAt := now + 3000 }, List.mem_set hi _, hip',
          .inr ⟨⟨now, task'.ip, false, sendsTo task'.ip result⟩, List.mem_append_right _ (List.mem_singleton.2 rfl),
            hip', rfl⟩⟩
      · refine ⟨task', ?_, hip', hdue'.imp_right fun ⟨p, hp, hdue⟩ => ⟨p, List.mem_append_left _ hp, hdue⟩⟩
        obtain ⟨j, hj, rfl⟩ := List.mem_iff_getElem.1 htask'
        have hne : i ≠ j := by
          rintro rfl
          exact hsame hat
        exact List.mem_iff_getElem.2 ⟨j, by simpa using hj, List.getElem_set_ne hne _⟩
    · -- there is no task before the endpoint is ready
      have hnone : (d.probed now task.ip false result).transport ≠ .absent := by
        rcases probed_transport d now task.ip false result with hsame | ⟨hclosing, -⟩
        · rw [hsame]
          intro hwas
          exact absurd (hinv.active task hmem) (by rw [(h.idle hwas).1]; exact List.not_mem_nil)
        · rw [hclosing]
          rintro ⟨⟩
      exact absurd habsent hnone

theorem serves_run (discoveryIps : PyVal) (steps : List DiscoveryStep) :
    Serves (asked discoveryIps steps) ((Discovery.start discoveryIps).run steps) := by
  refine (run_asked (P := fun os d => Serves os d ∧ d.Inv) ⟨?_, inv_run discoveryIps []⟩ ?_ ?_ ?_ ?_ ?_ ?_ steps).1
  · exact ⟨fun ip => ⟨fun h => (List.not_mem_nil h).elim, fun ⟨_, h⟩ => (List.not_mem_nil h).elim⟩,
      (by rintro ⟨⟩), (by rintro ⟨⟩), fun _ => ⟨rfl, rfl⟩⟩
  · rintro os d habsent ⟨h, hinv⟩
    obtain ⟨hactive, hprobes⟩ := h.idle habsent
    refine ⟨⟨h.targets, fun _ ip hip => ?_, fun _ p hp => ?_, by rintro ⟨⟩⟩, hinv.moved .opened d.listening⟩
    · have hnone : ip ∈ [] := hactive ▸ hip
      cases hnone
    · have hnone : p ∈ [] := hprobes ▸ hp
      cases hnone
  · rintro os d now ip result hthere ⟨h, hinv⟩
    exact ⟨h.added hthere now ip result, hinv.added now ip result⟩
  · rintro os d - ⟨h, hinv⟩
    exact ⟨⟨h.targets, h.served, h.harmless, h.idle⟩, hinv.moved d.transport true⟩
  · rintro os d now i result ⟨h, hinv⟩
    exact ⟨h.blast hinv now i result, hinv.blast now i result⟩
  · rintro os d hthere ⟨h, hinv⟩
    have hclosed : d.onClose.transport ≠ .opened ∧ d.onClose.transport ≠ .absent := by
      show (if d.transport = .opened then Endpoint.closing else d.transport) ≠ .opened ∧
        (if d.transport = .opened then Endpoint.closing else d.transport) ≠ .absent
      split_ifs with hopened
      · exact ⟨by rintro ⟨⟩, by rintro ⟨⟩⟩
      · exact ⟨hopened, hthere⟩
    exact ⟨⟨h.targets, fun hno => absurd hno hclosed.1, fun hno => absurd hno hclosed.1,
      fun hno => absurd hno hclosed.2⟩, hinv.onClose⟩
  · rintro os d - ⟨h, hinv⟩
    exact ⟨⟨h.targets, (by rintro ⟨⟩), (by rintro ⟨⟩), by rintro ⟨⟩⟩, hinv.moved .closed d.listening⟩

/-- **Every target is searched.** A discovery whose transport is open keeps one task for each target that was asked for
since its endpoint is ready, and no other. If no task waits longer than `delay` for its turn, a LanSearch to a target was
handed to `sendto` in the last three seconds and `delay`, which sent it or raised an `OSError`, or the target was asked
for within `delay`. -/
theorem every_target_searched (discoveryIps : PyVal) (steps : List DiscoveryStep)
    (hopened : ((Discovery.start discoveryIps).run steps).transport = .opened) :
    (∀ ip, ip ∈ ((Discovery.start discoveryIps).run steps).active ↔ ∃ s, (s, ip) ∈ asked discoveryIps steps) ∧
    (((Discovery.start discoveryIps).run steps).tasks.map Blast.ip).Perm
      ((Discovery.start discoveryIps).run steps).active ∧
    ∀ now delay, (∀ task ∈ ((Discovery.start discoveryIps).run steps).tasks, now ≤ task.wakeAt + delay) →
      ∀ ip ∈ ((Discovery.start discoveryIps).run steps).active,
        (∃ p ∈ ((Discovery.start discoveryIps).run steps).probes, p.ip = ip ∧ (p.result = .sent ∨ p.result = .failed) ∧
          now ≤ p.time + 3000 + delay) ∨
          ∃ s, (s, ip) ∈ asked discoveryIps steps ∧ now ≤ s + delay := by
  have hinv := inv_run discoveryIps steps
  have hserves := serves_run discoveryIps steps
  refine ⟨hserves.targets,
    (List.perm_ext_iff_of_nodup hinv.single hinv.targets).2 fun ip => ⟨fun hip => ?_, fun hip => ?_⟩,
    fun now delay hprompt ip hip => ?_⟩
  · obtain ⟨task, htask, rfl⟩ := List.mem_map.1 hip
    exact hinv.active task htask
  · obtain ⟨task, htask, hip, -⟩ := hserves.served hopened ip hip
    exact hip ▸ List.mem_map_of_mem htask
  · obtain ⟨task, htask, -, hasked | ⟨p, hp, hip, hdue⟩⟩ := hserves.served hopened ip hip
    · exact .inr ⟨task.wakeAt, hasked, hprompt task htask⟩
    · refine .inl ⟨p, hp, hip, ?_, hdue ▸ hprompt task htask⟩
      have hharmless := hserves.harmless hopened p hp
      cases hresult : p.result with
      | sent => exact .inl rfl
      | failed => exact .inr rfl
      | fatal => exact absurd hresult hharmless

theorem every_target_searched_askedOften :
    (∃ p ∈ ((Discovery.start broadcast).run askedOften).probes,
        p.ip = .str "192.168.1.5" ∧ (p.result = .sent ∨ p.result = .failed) ∧ 6300 ≤ p.time + 3000 + 3200) ∨
      ∃ s, (s, .str "192.168.1.5") ∈ asked broadcast askedOften ∧ 6300 ≤ s + 3200 :=
  (every_target_searched broadcast askedOften (by decide +kernel)).2.2 6300 3200 (by decide +kernel)
    (.str "192.168.1.5") (by decide +kernel)

end Discovery

end CamReverse
