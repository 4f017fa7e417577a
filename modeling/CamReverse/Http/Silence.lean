import CamReverse.Http.EachSession
import CamReverse.Http.Service
import CamReverse.Silence
import Mathlib.Tactic.Linarith

/-!
# A camera that falls silent is dropped

As long as the clock does not run backwards, a session that is still connected has heard of its camera at most the
timeout before every round of its timer (`heard_in_time`), whatever else the server does.
-/

namespace CamReverse

open Effect

def ServerStep.time : ServerStep → Option ℚ
  | .ready _ now => some now
  | .datagram _ now _ => some now
  | .sessTick _ now => some now
  | .resendTick _ now => some now
  | _ => none

/-- The session `k` handled a packet at this time that is no keep-alive. -/
def Server.HeardAt (srv : Server) (steps : List ServerStep) (k : ℕ) (t : ℚ) : Prop :=
  ∃ before msg after cam, steps = before ++ .datagram k t msg :: after ∧ (srv.run before).cameras[k]? = some cam ∧
    (Callback.datagram (srv.run before).web.config msg).setsClock (cam.listeners t) t
      (cam.world (srv.run before).web) = true

/-- The timer of the session `k` made a round at this time, and the session had started. -/
def Server.RoundAt (srv : Server) (steps : List ServerStep) (k : ℕ) (r : ℚ) : Prop :=
  ∃ before after cam, steps = before ++ .sessTick k r :: after ∧ (srv.run before).cameras[k]? = some cam ∧
    cam.session.started = true

section

variable {srv : Server} {seen : List ServerStep} {k : ℕ}

theorem Server.HeardAt.mono {t : ℚ} (h : srv.HeardAt seen k t) (step : ServerStep) :
    srv.HeardAt (seen ++ [step]) k t := by
  obtain ⟨before, msg, after, cam, rfl, hcam⟩ := h
  exact ⟨before, msg, after ++ [step], cam, by rw [List.append_assoc, List.cons_append], hcam⟩

theorem Server.RoundAt.concat {r : ℚ} {step : ServerStep} (h : srv.RoundAt (seen ++ [step]) k r) :
    srv.RoundAt seen k r ∨ (step = .sessTick k r ∧ ∃ cam, (srv.run seen).cameras[k]? = some cam ∧
      cam.session.started = true) := by
  obtain ⟨before, after, cam, hsteps, hcam, hstarted⟩ := h
  rcases Runs.concat_cases hsteps with ⟨rfl, rfl, -⟩ | ⟨after', -, rfl⟩
  · exact .inr ⟨rfl, cam, hcam, hstarted⟩
  · exact .inl ⟨before, after', cam, rfl, hcam, hstarted⟩

theorem Server.RoundAt.mem_time {r : ℚ} (h : srv.RoundAt seen k r) : r ∈ seen.filterMap ServerStep.time := by
  obtain ⟨before, after, cam, rfl, -⟩ := h
  exact List.mem_filterMap.2 ⟨.sessTick k r, List.mem_append_right _ List.mem_cons_self, rfl⟩

theorem not_roundAt_unmade {r : ℚ} (hk : (srv.run seen).cameras.length ≤ k) : ¬srv.RoundAt seen k r := by
  rintro ⟨before, after, cam, rfl, hcam, -⟩
  have hlength := length_cameras_append srv before (.sessTick k r :: after)
  exact absurd (List.getElem?_eq_some_iff.1 hcam).1 (by omega)

end

/-- What a run says of a session that is connected. -/
structure Server.Fresh (srv : Server) (seen : List ServerStep) (k : ℕ) (s : Session) : Prop where
  timeoutMs : s.timeoutMs = 5000
  timer : s.started = true → s.sessTimer = true
  clock : s.lastReceivedPacket = 0 ∨ srv.HeardAt seen k s.lastReceivedPacket
  rounds : ∀ r, srv.RoundAt seen k r → r - s.lastReceivedPacket ≤ 5000

theorem heardAt_of_setsClock {srv : Server} {seen : List ServerStep} {k : ℕ} {cam : Camera} {step : ServerStep}
    {now : ℚ} {c : Callback} (hof : (srv.run seen).callbackOf step = some (k, now, c))
    (hcam : (srv.run seen).cameras[k]? = some cam)
    (hsets : c.setsClock (cam.listeners now) now (cam.world (srv.run seen).web) = true) :
    srv.HeardAt (seen ++ [step]) k now ∧ step.time = some now ∧ ∀ r, step ≠ .sessTick k r := by
  cases step with
  | datagram k' now' msg =>
    cases hof
    exact ⟨⟨seen, msg, [], cam, rfl, hcam, hsets⟩, rfl, by rintro r ⟨⟩⟩
  | reconnect devId =>
    obtain ⟨k', -, hcall⟩ := Option.map_eq_some_iff.1 hof
    cases hcall
    cases hsets
  | ready k' now' =>
    cases hof
    cases hsets
  | sessTick k' now' =>
    cases hof
    cases hsets
  | resendTick k' now' =>
    cases hof
    cases hsets
  | _ => cases hof

/-- **A callback** that leaves the session connected. -/
theorem Server.Fresh.callback {srv : Server} {seen : List ServerStep} {k : ℕ} {cam : Camera} {step : ServerStep}
    {now : ℚ} {c : Callback} (h : srv.Fresh seen k cam.session) (hof : (srv.run seen).callbackOf step = some (k, now, c))
    (hcam : (srv.run seen).cameras[k]? = some cam)
    (hclock : step.time = some now → ∀ r ∈ seen.filterMap ServerStep.time, r ≤ now) (hready : c ≠ .ready)
    (hconnected : (callback (cam.listeners now) now (cam.world (srv.run seen).web) c).session.connected = true) :
    srv.Fresh (seen ++ [step]) k (callback (cam.listeners now) now (cam.world (srv.run seen).web) c).session := by
  have horderly := orderly_camera cam now
  obtain ⟨hstays, hround⟩ := callback_connected horderly now (cam.world (srv.run seen).web) hready hconnected
  obtain ⟨evs, -, -, -, hlast⟩ := callback_events horderly now (cam.world (srv.run seen).web) hready
  have htimer : (CamReverse.callback (cam.listeners now) now (cam.world (srv.run seen).web) c).session.started = true →
      (CamReverse.callback (cam.listeners now) now (cam.world (srv.run seen).web) c).session.sessTimer = true := by
    rw [hstays.started, hstays.sessTimer]
    exact h.timer
  by_cases hsets : c.setsClock (cam.listeners now) now (cam.world (srv.run seen).web) = true
  · rw [if_pos hsets] at hlast
    obtain ⟨hheard, htime, hnotTick⟩ := heardAt_of_setsClock hof hcam hsets
    refine ⟨hstays.timeoutMs.trans h.timeoutMs, htimer, .inr (hlast.symm ▸ hheard), fun r hr => ?_⟩
    rw [hlast]
    rcases hr.concat with hold | ⟨hstep, -⟩
    · have hle := hclock htime r hold.mem_time
      linarith
    · exact absurd hstep (hnotTick r)
  · rw [if_neg hsets] at hlast
    refine ⟨hstays.timeoutMs.trans h.timeoutMs, htimer, ?_, fun r hr => ?_⟩
    · rw [hlast]
      exact h.clock.imp_right fun hheard => hheard.mono step
    · rw [hlast]
      rcases hr.concat with hold | ⟨rfl, cam', hcam', hstarted⟩
      · exact h.rounds r hold
      · -- the round itself found the camera in time
        cases hof
        obtain rfl := Option.some.inj (hcam.symm.trans hcam')
        have hintime := hround rfl (h.timer hstarted)
        simp only [timesOut, decide_eq_false_iff_not, not_and, not_lt] at hintime
        exact h.timeoutMs ▸ hintime hstarted

theorem Server.Fresh.ready {srv : Server} {seen : List ServerStep} {k : ℕ} {cam : Camera} {step : ServerStep} {now : ℚ}
    (h : srv.Fresh seen k cam.session) (hof : (srv.run seen).callbackOf step = some (k, now, .ready)) :
    srv.Fresh (seen ++ [step]) k
      (CamReverse.callback (cam.listeners now) now (cam.world (srv.run seen).web) .ready).session := by
  have hrounds : ∀ r, srv.RoundAt (seen ++ [step]) k r → r - cam.session.lastReceivedPacket ≤ 5000 := by
    intro r hr
    rcases hr.concat with hold | ⟨rfl, -⟩
    · exact h.rounds r hold
    · cases hof
  have hclock := h.clock.imp_right fun hheard => hheard.mono step
  by_cases habsent : cam.session.transport = .absent
  · obtain ⟨evs, running, -, -, -, hlife⟩ := callback_ready (w := cam.world (srv.run seen).web) habsent
      (cam.listeners now) now
    generalize CamReverse.callback (cam.listeners now) now (cam.world (srv.run seen).web) .ready = w at hlife ⊢
    have hlast : w.session.lastReceivedPacket = cam.session.lastReceivedPacket :=
      congrArg Life.lastReceivedPacket hlife
    have hstarted : w.session.started = (cam.session.started || running) := congrArg Life.started hlife
    have hsessTimer : w.session.sessTimer = (cam.session.sessTimer || running) := congrArg Life.sessTimer hlife
    refine ⟨(congrArg Life.timeoutMs hlife).trans h.timeoutMs, fun hs => ?_, hlast.symm ▸ hclock, hlast.symm ▸ hrounds⟩
    have hrunning := hstarted.symm.trans hs
    refine hsessTimer.trans ?_
    rw [Bool.or_eq_true] at hrunning ⊢
    exact hrunning.imp_left h.timer
  · have hdue : Callback.due (cam.world (srv.run seen).web).session .ready = false := decide_eq_false habsent
    rw [callback_of_not_due hdue]
    exact ⟨h.timeoutMs, h.timer, hclock, hrounds⟩

theorem fresh_run (config : Config) (steps : List ServerStep) :
    ((Server.start config).run steps).EachSession fun k s _ =>
      (steps.filterMap ServerStep.time).Pairwise (· ≤ ·) → s.connected = true →
        (Server.start config).Fresh steps k s := by
  refine eachSession_run (J := fun seen k s _ => (seen.filterMap ServerStep.time).Pairwise (· ≤ ·) →
    s.connected = true → (Server.start config).Fresh seen k s) ?_ ?_ ?_ ?_ steps
  · rintro k cam ⟨⟩
  · intro seen rinfo dev _ _
    refine ⟨rfl, by rintro ⟨⟩, .inl rfl, fun r hr => ?_⟩
    rcases hr.concat with hold | ⟨⟨⟩, -⟩
    exact absurd hold (not_roundAt_unmade le_rfl)
  · intro seen step k s evs hother h hclock hconnected
    rw [List.filterMap_append] at hclock
    obtain ⟨htimeout, htimer, hheard, hrounds⟩ := h (List.pairwise_append.1 hclock).1 hconnected
    refine ⟨htimeout, htimer, hheard.imp_right fun hheard => hheard.mono step, fun r hr => ?_⟩
    rcases hr.concat with hold | ⟨rfl, -⟩
    · exact hrounds r hold
    · exact absurd rfl (hother _ rfl)
  · intro seen step k now c cam hof hcam h
    dsimp only
    intro hclock hconnected
    rw [List.filterMap_append] at hclock
    obtain ⟨hseen, -, horder⟩ := List.pairwise_append.1 hclock
    by_cases hready : c = .ready
    · subst hready
      exact (h hseen ((connected_ready _ now _).symm.trans hconnected)).ready hof
    · have hbefore := (callback_connected (orderly_camera cam now) now _ hready hconnected).1.connected
      refine (h hseen hbefore).callback hof hcam (fun htime r hr => ?_) hready hconnected
      exact horder r hr now (List.mem_filterMap.2 ⟨step, List.mem_singleton_self step, htime⟩)

/-- **Heard in time.** In every run whose clock does not run backwards: if a session is still connected, then for every
round its timer made since it had started, it handled a packet of its camera that is no keep-alive at most five seconds
before, or later. -/
theorem heard_in_time (config : Config) (steps : List ServerStep)
    (hclock : (steps.filterMap ServerStep.time).Pairwise (· ≤ ·)) {k : ℕ} {cam : Camera}
    (hcam : ((Server.start config).run steps).cameras[k]? = some cam) (hconnected : cam.session.connected = true)
    {r : ℚ} (hround : (Server.start config).RoundAt steps k r) :
    r ≤ 5000 ∨ ∃ t, (Server.start config).HeardAt steps k t ∧ r - t ≤ 5000 := by
  have hfresh := fresh_run config steps k cam hcam hclock hconnected
  have hlate := hfresh.rounds r hround
  rcases hfresh.clock with hnever | hheard
  · rw [hnever, sub_zero] at hlate
    exact .inl hlate
  · exact .inr ⟨_, hheard, hlate⟩

/-- A camera answers with a P2PRdy packet, and the timer makes a round. -/
def heardAndTicked : List ServerStep :=
  [aDiscovery, .ready 0 8900, .datagram 0 9000 [0xf1, 0x42, 0, 0], .sessTick 0 9400]

theorem heard_in_time_ticked :
    ∃ cam : Camera, ((Server.start defaultConfig).run heardAndTicked).cameras[0]? = some cam ∧
      cam.session.connected = true ∧ ((9400 : ℚ) ≤ 5000 ∨
        ∃ t, (Server.start defaultConfig).HeardAt heardAndTicked 0 t ∧ 9400 - t ≤ 5000) := by
  have hclock : (heardAndTicked.filterMap ServerStep.time).Pairwise (· ≤ ·) := by decide +kernel
  have hlength : 0 < ((Server.start defaultConfig).run heardAndTicked).cameras.length := by decide +kernel
  have hconnected : (((Server.start defaultConfig).run heardAndTicked).cameras[0]).session.connected = true := by
    decide +kernel +revert
  have hround : (Server.start defaultConfig).RoundAt heardAndTicked 0 9400 := by
    have hbefore : 0 < ((Server.start defaultConfig).run (heardAndTicked.take 3)).cameras.length := by decide +kernel
    refine ⟨heardAndTicked.take 3, [], _, rfl, List.getElem?_eq_getElem hbefore, ?_⟩
    decide +kernel +revert
  exact ⟨_, List.getElem?_eq_getElem hlength, hconnected,
    heard_in_time defaultConfig heardAndTicked hclock (List.getElem?_eq_getElem hlength) hconnected hround⟩

end CamReverse
