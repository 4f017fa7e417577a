import CamReverse.Lib.Runs
import CamReverse.Lifecycle
import Mathlib.Tactic.Linarith

/-!
# The timeout of a session

`_sess_timer` declares a camera timed out when `last_received_packet` is more than the timeout behind. That
clock starts at zero, the epoch, and not when the endpoint becomes ready. So a round is sound once the
session has handled a packet, and before that only if the endpoint has been ready for as long as the timeout
(`sound_timeout_iff`). A camera that stays silent for the first 400 ms is dropped (`timed_out_early`).
-/

namespace CamReverse

open Effect

variable {ε : Type}

/-- A callback and the reading of the clock while it runs. -/
structure Occurrence where
  now : ℚ
  callback : Callback

/-- A session, with the times at which its endpoint became ready and at which it last handled a packet that
is no keep-alive. -/
structure Timed (ε : Type) where
  world : World ε
  readyAt : Option ℚ
  handledAt : Option ℚ

/-- One callback. The caller's listeners read the clock too. -/
def Timed.step (L : ℚ → Listeners ε) (t : Timed ε) (o : Occurrence) : Timed ε where
  world := callback (L o.now) o.now t.world o.callback
  readyAt :=
    match o.callback with
    | .ready => if o.callback.due t.world.session then some o.now else t.readyAt
    | _ => t.readyAt
  handledAt :=
    match o.callback with
    | .datagram config msg =>
      if o.callback.due t.world.session ∧ countsAsReceived config (L o.now) o.now msg t.world then some o.now
      else t.handledAt
    | _ => t.handledAt

def Timed.start (dev : DevSerial) (addr : String × ℕ) (timeoutMs : ℚ) (app : ε) : Timed ε :=
  ⟨.start (.init dev addr timeoutMs) app, none, none⟩

def Timed.run (L : ℚ → Listeners ε) (t : Timed ε) (run : List Occurrence) : Timed ε :=
  run.foldl (Timed.step L) t

/-- The callback emits `disconnect`. -/
def Disconnects (L : ℚ → Listeners ε) (t : Timed ε) (o : Occurrence) : Prop :=
  .disconnect ∈ (t.step L o).world.events.drop t.world.events.length

/-- At least the timeout has passed since the endpoint became ready and since the last packet. -/
def TimeoutPassed (timeoutMs : ℚ) (t : Timed ε) (now : ℚ) : Prop :=
  (∃ r, t.readyAt = some r ∧ timeoutMs ≤ now - r) ∧ ∀ h, t.handledAt = some h → timeoutMs ≤ now - h

/-- A round that finds no packet handled yet, past the timeout since the epoch but not since the endpoint
became ready. -/
def Premature (timeoutMs : ℚ) (t : Timed ε) (now : ℚ) : Prop :=
  t.world.session.sessTimer = true ∧ t.handledAt = none ∧ timeoutMs < now ∧
    ∀ r, t.readyAt = some r → now - r < timeoutMs

/-! ### What a run says about the clock -/

/-- What the run so far says about a session. -/
structure TimedInv (timeoutMs : ℚ) (seen : List Occurrence) (t : Timed ε) : Prop where
  timeout : t.world.session.timeoutMs = timeoutMs
  clock : t.world.session.lastReceivedPacket = t.handledAt.getD 0
  unready : t.readyAt = none ↔ t.world.session.transport = .absent
  running : t.world.session.sessTimer = true →
    t.world.session.started = true ∧ t.world.session.transport ≠ .absent
  past : ∀ r, t.readyAt = some r → ∃ o ∈ seen, o.now = r
  order : ∀ h, t.handledAt = some h → ∃ r, t.readyAt = some r ∧ r ≤ h

theorem timedInv_start (dev : DevSerial) (addr : String × ℕ) (timeoutMs : ℚ) (app : ε) :
    TimedInv timeoutMs [] (Timed.start dev addr timeoutMs app) where
  timeout := rfl
  clock := rfl
  unready := iff_of_true rfl rfl
  running h := absurd h Bool.false_ne_true
  past _ h := nomatch h
  order _ h := nomatch h

theorem TimedInv.ready {timeoutMs now : ℚ} {seen : List Occurrence} {t : Timed ε}
    (h : TimedInv timeoutMs seen t) (L : ℚ → Listeners ε) :
    TimedInv timeoutMs (seen ++ [⟨now, .ready⟩]) (t.step L ⟨now, .ready⟩) := by
  have hpast : ∀ r, t.readyAt = some r → ∃ o ∈ seen ++ [(⟨now, .ready⟩ : Occurrence)], o.now = r :=
    fun r hr => (h.past r hr).imp fun o ho => ⟨List.mem_append_left _ ho.1, ho.2⟩
  by_cases hdue : t.world.session.transport = .absent
  · obtain ⟨evs, running, -, -, -, hlife⟩ := callback_ready hdue (L now) now
    have hstep : (t.step L ⟨now, .ready⟩).readyAt = some now :=
      if_pos (show Callback.due t.world.session .ready = true by simpa [Callback.due] using hdue)
    have hidle : t.world.session.sessTimer = false := by
      by_contra hrun
      exact (h.running (Bool.eq_true_of_not_eq_false hrun)).2 hdue
    exact {
      timeout := (congrArg Life.timeoutMs hlife).trans h.timeout
      clock := (congrArg Life.lastReceivedPacket hlife).trans h.clock
      unready := by
        rw [hstep, show (t.step L ⟨now, .ready⟩).world.session.transport = .opened from
          congrArg Life.transport hlife]
        exact iff_of_false (Option.some_ne_none now) (by decide)
      running := fun hrun => by
        have hsess := (congrArg Life.sessTimer hlife).symm.trans hrun
        have htransport : (t.step L ⟨now, .ready⟩).world.session.transport = .opened :=
          congrArg Life.transport hlife
        simp only [hidle, Bool.false_or] at hsess
        refine ⟨(congrArg Life.started hlife).trans ?_, by rw [htransport]; decide⟩
        simp only [hsess, Bool.or_true]
      past := fun r hr => by
        rw [hstep] at hr
        exact ⟨_, List.mem_append_right _ (List.mem_singleton.2 rfl), Option.some.inj hr⟩
      order := fun r hr => by
        obtain ⟨r', hr', -⟩ := h.order r hr
        rw [h.unready.2 hdue] at hr'
        cases hr' }
  · have hdue' : Callback.due t.world.session .ready = false := by simpa [Callback.due] using hdue
    have hstep : t.step L ⟨now, .ready⟩ = t := by
      unfold Timed.step
      rw [callback_of_not_due hdue']
      simp [hdue']
    rw [hstep]
    exact { h with past := hpast }

theorem TimedInv.other {L : ℚ → Listeners ε} (hL : ∀ now, (L now).Orderly) {timeoutMs now : ℚ}
    {c : Callback} (hc : c ≠ .ready) {seen : List Occurrence} {t : Timed ε} (h : TimedInv timeoutMs seen t)
    (hclock : ∀ o ∈ seen, o.now ≤ now) :
    TimedInv timeoutMs (seen ++ [⟨now, c⟩]) (t.step L ⟨now, c⟩) := by
  obtain ⟨evs, -, -, hends, hlast⟩ := callback_events (hL now) now t.world hc
  have hwanes := (wanes_hear t.world.session.life evs).trans hends.wanes
  have hready : (t.step L ⟨now, c⟩).readyAt = t.readyAt := by
    cases c <;> first | rfl | exact absurd rfl hc
  have hhandled : (t.step L ⟨now, c⟩).handledAt =
      if c.setsClock (L now) now t.world then some now else t.handledAt := by
    cases c with
    | datagram config msg => simp [Timed.step, Callback.setsClock, Callback.due]
    | _ => rfl
  exact {
    timeout := hwanes.timeoutMs.trans h.timeout
    clock := by
      rw [hhandled]
      refine hlast.trans ?_
      split_ifs
      · rfl
      · exact h.clock
    unready := by rw [hready, h.unready]; exact hwanes.absent.symm
    running := fun hrun => by
      obtain ⟨hstarted, htransport⟩ := h.running (hwanes.sessTimer hrun)
      exact ⟨hwanes.started.trans hstarted, fun habsent => htransport (hwanes.absent.1 habsent)⟩
    past := fun r hr => by
      rw [hready] at hr
      exact (h.past r hr).imp fun o ho => ⟨List.mem_append_left _ ho.1, ho.2⟩
    order := fun k hk => by
      rw [hready]
      rw [hhandled] at hk
      split_ifs at hk with hset
      · obtain rfl := Option.some.inj hk
        -- a datagram arrives through a transport that has become ready
        have hopened : t.world.session.transport ≠ .absent := by
          cases c with
          | datagram config msg =>
            simp only [Callback.setsClock, decide_eq_true_eq] at hset
            rw [hset.1]
            decide
          | _ => cases hset
        obtain ⟨r, hr⟩ := Option.ne_none_iff_exists'.1 fun hnone => hopened (h.unready.1 hnone)
        obtain ⟨o, ho, rfl⟩ := h.past r hr
        exact ⟨_, hr, hclock o ho⟩
      · exact h.order k hk }

theorem TimedInv.step {L : ℚ → Listeners ε} (hL : ∀ now, (L now).Orderly) {timeoutMs : ℚ}
    {seen : List Occurrence} {t : Timed ε} {o : Occurrence} (h : TimedInv timeoutMs seen t)
    (hclock : ∀ o' ∈ seen, o'.now ≤ o.now) :
    TimedInv timeoutMs (seen ++ [o]) (t.step L o) := by
  obtain ⟨now, c⟩ := o
  by_cases hc : c = .ready
  · subst hc
    exact h.ready L
  · exact h.other hL hc hclock

theorem timedInv_run {L : ℚ → Listeners ε} (hL : ∀ now, (L now).Orderly) (dev : DevSerial)
    (addr : String × ℕ) (timeoutMs : ℚ) (app : ε) {run : List Occurrence}
    (hclock : run.Pairwise fun o o' => o.now ≤ o'.now) :
    TimedInv timeoutMs run ((Timed.start dev addr timeoutMs app).run L run) := by
  refine Runs.history_of (P := TimedInv timeoutMs) (C := fun seen _ o => ∀ o' ∈ seen, o'.now ≤ o.now)
    (timedInv_start dev addr timeoutMs app) (fun seen t o h hC => h.step hL hC) run ?_
  rintro seen o rest rfl o' ho'
  exact (List.pairwise_append.1 hclock).2.2 o' ho' o List.mem_cons_self

/-! ### Sound rounds -/

theorem disconnects_sessTick (L : ℚ → Listeners ε) (t : Timed ε) (now : ℚ) :
    Disconnects L t ⟨now, .sessTick⟩ ↔
      t.world.session.sessTimer = true ∧ timesOut t.world.session now = true := by
  obtain ⟨evs, hsent, hfinal⟩ := sessTimer_final (L now) now t.world
  have hno : Event.disconnect ∉ evs := fun h => by
    obtain ⟨m, hm⟩ := hsent _ h
    cases hm
  unfold Disconnects Timed.step
  cases hrun : t.world.session.sessTimer with
  | false =>
    have hdue : Callback.due t.world.session .sessTick = false := hrun
    rw [callback_of_not_due hdue, List.drop_length]
    simp
  | true =>
    rw [show callback (L now) now t.world .sessTick = _ from if_pos hrun]
    simp only [hfinal]
    by_cases hlate : timesOut t.world.session now = true
    · rw [if_pos hlate]
      simp [timedOut, hlate, List.append_assoc]
    · rw [if_neg hlate]
      simp [hlate, hno]

/-- A round that disconnects is sound exactly when it is not premature. -/
theorem TimedInv.sound_iff {timeoutMs : ℚ} {seen : List Occurrence} {t : Timed ε}
    (h : TimedInv timeoutMs seen t) (L : ℚ → Listeners ε) (now : ℚ) :
    (Disconnects L t ⟨now, .sessTick⟩ → TimeoutPassed timeoutMs t now) ↔ ¬Premature timeoutMs t now := by
  rw [disconnects_sessTick, timesOut, decide_eq_true_eq, h.timeout, h.clock]
  constructor
  · rintro hsound ⟨hrun, hhandled, hlate, hyoung⟩
    obtain ⟨⟨r, hr, hpassed⟩, -⟩ := hsound ⟨hrun, (h.running hrun).1, by simpa [hhandled] using hlate⟩
    exact absurd (hyoung r hr) (not_lt.2 hpassed)
  · rintro hmature ⟨hrun, -, hlate⟩
    cases hhandled : t.handledAt with
    | none =>
      rw [hhandled] at hlate
      refine ⟨?_, fun k hk => nomatch hhandled.symm.trans hk⟩
      by_contra hno
      refine hmature ⟨hrun, hhandled, by simpa using hlate, fun r hr => ?_⟩
      exact not_le.1 fun hpassed => hno ⟨r, hr, hpassed⟩
    | some k =>
      rw [hhandled, Option.getD_some] at hlate
      obtain ⟨r, hr, hle⟩ := h.order k hhandled
      refine ⟨⟨r, hr, ?_⟩, fun k' hk' => ?_⟩
      · linarith
      · rw [Option.some.inj (hhandled.symm.trans hk')] at hlate
        exact hlate.le

/-- **When timeouts are sound**: every round of `_sess_timer` that disconnects comes at least the timeout
after the endpoint became ready and after the last packet, exactly when no round of the run is premature. -/
theorem sound_timeout_iff {L : ℚ → Listeners ε} (hL : ∀ now, (L now).Orderly) (dev : DevSerial)
    (addr : String × ℕ) (timeoutMs : ℚ) (app : ε) (run : List Occurrence)
    (hclock : run.Pairwise fun o o' => o.now ≤ o'.now) :
    (∀ seen now rest, run = seen ++ ⟨now, .sessTick⟩ :: rest →
      Disconnects L ((Timed.start dev addr timeoutMs app).run L seen) ⟨now, .sessTick⟩ →
      TimeoutPassed timeoutMs ((Timed.start dev addr timeoutMs app).run L seen) now) ↔
    ∀ seen now rest, run = seen ++ ⟨now, .sessTick⟩ :: rest →
      ¬Premature timeoutMs ((Timed.start dev addr timeoutMs app).run L seen) now := by
  refine forall_congr' fun seen => forall_congr' fun now => forall_congr' fun rest =>
    forall_congr' fun hrun => ?_
  subst hrun
  exact (timedInv_run hL dev addr timeoutMs app (List.pairwise_append.1 hclock).1).sound_iff L now

/-- A session without listeners whose endpoint has just become ready. -/
def readied (now : ℚ) : Timed Unit := Timed.step (fun _ => .absent) ⟨oneCamera, none, none⟩ ⟨now, .ready⟩

/-- A camera that stays silent: its endpoint is ready at 7 s, and a round of the timer comes at 13 s. -/
theorem sound_timeout_iff_silent :
    ((⟨7000, .ready⟩ : Occurrence) :: [⟨13000, .sessTick⟩]).Pairwise (fun o o' => o.now ≤ o'.now) ∧
    (Disconnects (fun _ => .absent) (readied 7000) ⟨13000, .sessTick⟩ →
      TimeoutPassed 5000 (readied 7000) 13000) := by
  have hclock : ((⟨7000, .ready⟩ : Occurrence) :: [⟨13000, .sessTick⟩]).Pairwise
      (fun o o' => o.now ≤ o'.now) := by
    simp
    norm_num
  refine ⟨hclock, ?_⟩
  refine (sound_timeout_iff (fun _ => orderly_absent) _ _ 5000 () _ hclock).2 ?_ [⟨7000, .ready⟩] 13000 [] rfl
  rintro seen now rest hrun ⟨-, -, -, hyoung⟩
  rcases seen with _ | ⟨o, _ | ⟨o', seen⟩⟩
  · simp at hrun
  · simp only [List.cons_append, List.nil_append, List.cons.injEq, Occurrence.mk.injEq] at hrun
    obtain ⟨rfl, ⟨rfl, -⟩, -⟩ := hrun
    have := hyoung 7000 rfl
    norm_num at this
  · simp at hrun

/-- A camera is dropped 400 ms after its endpoint became ready. -/
theorem timed_out_early :
    Disconnects (fun _ => .absent) (readied 1704067200000) ⟨1704067200400, .sessTick⟩ ∧
      ¬TimeoutPassed 5000 (readied 1704067200000) 1704067200400 := by
  constructor
  · rw [disconnects_sessTick]
    decide +kernel
  · rintro ⟨⟨r, hr, hpassed⟩, -⟩
    obtain rfl : (1704067200000 : ℚ) = r := Option.some.inj hr
    norm_num at hpassed

end CamReverse
