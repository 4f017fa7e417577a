import CamReverse.Http.Clients

/-!
# Every session of the server

To a session a step of the server is a callback or nothing. So what holds of a new session and is kept by every callback
holds of every session of the server, in every run (`eachSession_run`).
-/

namespace CamReverse

open Effect

/-- The callback a step makes, and the session it makes it on. -/
def Server.callbackOf (srv : Server) : ServerStep → Option (ℕ × ℚ × Callback)
  | .ready k now => some (k, now, .ready)
  | .datagram k now msg => some (k, now, .datagram srv.web.config msg)
  | .sessTick k now => some (k, now, .sessTick)
  | .resendTick k now => some (k, now, .resendTick)
  | .reconnect devId => (srv.web.sessions.find? devId).map fun k => (k, 0, .close)
  | _ => none

theorem step_of_callback {srv : Server} {step : ServerStep} {k : ℕ} {now : ℚ} {c : Callback}
    (h : srv.callbackOf step = some (k, now, c)) : srv.step step = srv.onSession k now c := by
  cases step with
  | reconnect devId =>
    obtain ⟨k', hfind, hcall⟩ := Option.map_eq_some_iff.1 h
    cases hcall
    simp only [Server.step, Server.reconnect, hfind]
  | _ =>
    cases h
    try rfl

theorem cameras_of_no_callback {srv : Server} {step : ServerStep} (h : srv.callbackOf step = none) {k : ℕ}
    {cam : Camera} (hcam : (srv.step step).cameras[k]? = some cam) :
    srv.cameras[k]? = some cam ∨
      ∃ rinfo dev attached audioAttached, step = .discover rinfo dev ∧ k = srv.cameras.length ∧
        cam = { Camera.made rinfo dev with attached, audioAttached } := by
  rcases step_cases srv step with hclient | ⟨rinfo, dev, rfl⟩ | ⟨config, rfl⟩ | ⟨-, hsame⟩ | ⟨k', now, c, hof, hstep⟩
  · rw [(client_keeps srv hclient).1] at hcam
    exact .inl hcam
  · cases hknown : srv.web.sessions.find? dev.devId with
    | some k' =>
      change (final (onDiscover rinfo dev) srv).cameras[k]? = some cam at hcam
      rw [discover_known (by rw [hknown]; rfl)] at hcam
      exact .inl hcam
    | none =>
      obtain ⟨config, audioAttached, hnew⟩ := discover_new hknown rinfo
      change (final (onDiscover rinfo dev) srv).cameras[k]? = some cam at hcam
      rw [hnew, getElem?_discovered] at hcam
      split_ifs at hcam with hk
      · exact .inr ⟨rinfo, dev, _, audioAttached, rfl, hk, (Option.some.inj hcam).symm⟩
      · exact .inl hcam
  · exact .inl hcam
  · rw [hsame] at hcam
    exact .inl hcam
  · cases step with
    | reconnect devId =>
      change srv.web.sessions.find? devId = some k' at hof
      change (srv.web.sessions.find? devId).map _ = none at h
      rw [hof] at h
      cases h
    | discover rinfo dev => cases hof
    | configure config => cases hof
    | openStream media devId => cases hof
    | prepared i => cases hof
    | take i => cases hof
    | leave i => cases hof
    | _ => cases h

theorem getElem?_onSession (srv : Server) (k' : ℕ) (now : ℚ) (c : Callback) {k : ℕ} {cam : Camera}
    (hcam : (srv.onSession k' now c).cameras[k]? = some cam) :
    (k ≠ k' ∧ srv.cameras[k]? = some cam) ∨
      ∃ cam', k = k' ∧ srv.cameras[k]? = some cam' ∧ cam = { cam' with
        session := (callback (cam'.listeners now) now (cam'.world srv.web) c).session
        events := (callback (cam'.listeners now) now (cam'.world srv.web) c).events } := by
  cases hk' : srv.cameras[k']? with
  | none =>
    rw [onSession_none hk'] at hcam
    refine .inl ⟨fun h => ?_, hcam⟩
    rw [h, hk'] at hcam
    cases hcam
  | some cam' =>
    unfold Server.onSession at hcam
    simp only [hk'] at hcam
    by_cases hk : k = k'
    · subst hk
      rw [List.getElem?_set_self (List.getElem?_eq_some_iff.1 hk').1] at hcam
      exact .inr ⟨cam', rfl, hk', (Option.some.inj hcam).symm⟩
    · rw [List.getElem?_set_ne (Ne.symm hk)] at hcam
      exact .inl ⟨hk, hcam⟩

/-- What a run says about each session. -/
def Server.EachSession (J : ℕ → Session → List Event → Prop) (srv : Server) : Prop :=
  ∀ k cam, srv.cameras[k]? = some cam → J k cam.session cam.events

/-- **The rule for every session.** What holds of a session is kept by the steps that make no callback on it. -/
theorem eachSession_run {J : List ServerStep → ℕ → Session → List Event → Prop} {srv : Server}
    (hstart : srv.EachSession (J []))
    (hmade : ∀ seen rinfo dev, J (seen ++ [.discover rinfo dev]) (srv.run seen).cameras.length (.init dev rinfo 5000) [])
    (hother : ∀ seen step k s evs, (∀ call, (srv.run seen).callbackOf step = some call → call.1 ≠ k) →
      J seen k s evs → J (seen ++ [step]) k s evs)
    (hcall : ∀ seen step k now c cam, (srv.run seen).callbackOf step = some (k, now, c) →
      (srv.run seen).cameras[k]? = some cam → J seen k cam.session cam.events →
        let w := callback (cam.listeners now) now (cam.world (srv.run seen).web) c
        J (seen ++ [step]) k w.session w.events) (steps : List ServerStep) :
    (srv.run steps).EachSession (J steps) := by
  have hrun : srv.run steps = srv.run steps ∧ (srv.run steps).EachSession (J steps) := by
    refine Runs.history (P := fun seen srv' => srv' = srv.run seen ∧ srv'.EachSession (J seen)) ⟨rfl, hstart⟩ ?_ steps
    rintro seen srv' step ⟨rfl, h⟩
    refine ⟨by rw [Server.run, Server.run, List.foldl_append]; rfl, fun k cam hcam => ?_⟩
    cases hof : (srv.run seen).callbackOf step with
    | none =>
      rcases cameras_of_no_callback hof hcam with hold | ⟨rinfo, dev, attached, audioAttached, rfl, rfl, rfl⟩
      · refine hother seen step k _ _ (fun call hcall => ?_) (h k cam hold)
        rw [hof] at hcall
        cases hcall
      · exact hmade seen rinfo dev
    | some call =>
      obtain ⟨k', now, c⟩ := call
      rw [step_of_callback hof] at hcam
      rcases getElem?_onSession _ k' now c hcam with ⟨hne, hold⟩ | ⟨cam', rfl, hcam', rfl⟩
      · refine hother seen step k _ _ (fun call hcall => ?_) (h k cam hold)
        obtain rfl := Option.some.inj (hof.symm.trans hcall)
        exact Ne.symm hne
      · exact hcall seen step k now c cam' hof hcam' (h k cam' hcam')
  exact hrun.2

end CamReverse
