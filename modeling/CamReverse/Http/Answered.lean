import CamReverse.Answered
import CamReverse.Http.Service
import CamReverse.Http.Tickets

/-!
# What the server acknowledges

Each session of the server acknowledges the Drw and Close packets that reach it, each once, in the order in which they
came, and nothing else, however often commands are sent again and whatever the other sessions and the clients do
(`acked_once`).
-/

namespace CamReverse

open Effect

/-- The datagram a step brings to the session `k`, if its transport is open. -/
def Server.reaching (k : ℕ) (srv : Server) : ServerStep → List Bytes
  | .datagram k' _ msg =>
    if k' = k ∧ (srv.cameras[k]?).any (fun cam => cam.session.transport = .opened) then [msg] else []
  | _ => []

/-- The datagrams that reach the session `k` in a run. -/
def Server.datagrams (srv : Server) (k : ℕ) (steps : List ServerStep) : List Bytes :=
  Runs.outputs Server.step (Server.reaching k) srv steps

theorem datagrams_concat (srv : Server) (k : ℕ) (seen : List ServerStep) (step : ServerStep) :
    srv.datagrams k (seen ++ [step]) = srv.datagrams k seen ++ (srv.run seen).reaching k step := by
  rw [Server.datagrams, Runs.outputs_append, Runs.outputs, Runs.outputs, List.append_nil]
  rfl

def drwAcksFor (msgs : List Bytes) : List Bytes := (msgs.filter (AsksForAck ·)).map drwAckFor

theorem drwAcksFor_append (msgs msgs' : List Bytes) :
    drwAcksFor (msgs ++ msgs') = drwAcksFor msgs ++ drwAcksFor msgs' := by
  rw [drwAcksFor, List.filter_append, List.map_append]
  rfl

theorem reaching_of_other {srv : Server} {k : ℕ} {step : ServerStep}
    (h : ∀ call, srv.callbackOf step = some call → call.1 ≠ k) : srv.reaching k step = [] := by
  cases step with
  | datagram k' now msg => exact if_neg fun hk => h _ rfl hk.1
  | _ => rfl

theorem reaching_of_callback {srv : Server} {k : ℕ} {now : ℚ} {c : Callback} {step : ServerStep}
    (hof : srv.callbackOf step = some (k, now, c)) {cam : Camera} (hcam : srv.cameras[k]? = some cam) :
    drwAcksFor (srv.reaching k step) = c.acks cam.session := by
  cases step with
  | datagram k' now' msg =>
    cases hof
    by_cases hopened : cam.session.transport = .opened
    · have hreaches : srv.reaching k (.datagram k now msg) = [msg] := if_pos ⟨rfl, by simp [hcam, hopened]⟩
      rw [hreaches, Callback.acks]
      by_cases hasks : AsksForAck msg <;> simp [drwAcksFor, hopened, hasks]
    · have hreaches : srv.reaching k (.datagram k now msg) = [] := if_neg (by simp [hcam, hopened])
      rw [hreaches, Callback.acks, if_neg fun h => hopened h.1]
      rfl
  | reconnect devId =>
    obtain ⟨k', -, hcall⟩ := Option.map_eq_some_iff.1 hof
    cases hcall
    rfl
  | ready k' now' =>
    cases hof
    rfl
  | sessTick k' now' =>
    cases hof
    rfl
  | resendTick k' now' =>
    cases hof
    rfl
  | _ => cases hof

theorem datagrams_unmade (srv : Server) (seen : List ServerStep) {k : ℕ} (hk : (srv.run seen).cameras.length ≤ k) :
    srv.datagrams k seen = [] := by
  refine List.eq_nil_iff_forall_not_mem.2 fun msg hmsg => ?_
  obtain ⟨before, step, after, rfl, hreaches⟩ := Runs.mem_outputs hmsg
  have hnone : (srv.run before).cameras[k]? = none :=
    List.getElem?_eq_none ((length_cameras_append srv before (step :: after)).trans hk)
  cases step with
  | datagram k' now msg' =>
    change msg ∈ (srv.run before).reaching k (.datagram k' now msg') at hreaches
    rw [Server.reaching, if_neg (by simp [hnone])] at hreaches
    cases hreaches
  | _ => cases hreaches

theorem noAcks_listeners (cam : Camera) (now : ℚ) : (cam.listeners now).NoAcks where
  login := emits_startVideoStream now
  listWifi _ := Along.pure _

/-- **Acknowledged once.** In every run of the server the DrwAcks a session put on the wire are those of the Drw and
Close packets that reached it while its transport was open, one for each, in their order. -/
theorem acked_once (config : Config) (steps : List ServerStep) :
    ((Server.start config).run steps).EachSession fun k _ evs =>
      evs.filterMap Event.drwAck = drwAcksFor ((Server.start config).datagrams k steps) := by
  refine eachSession_run (J := fun seen k _ evs =>
    evs.filterMap Event.drwAck = drwAcksFor ((Server.start config).datagrams k seen)) ?_ ?_ ?_ ?_ steps
  · rintro k cam ⟨⟩
  · intro seen rinfo dev
    rw [datagrams_concat, datagrams_unmade (Server.start config) seen le_rfl]
    rfl
  · intro seen step k s evs hother h
    rw [datagrams_concat, reaching_of_other hother, List.append_nil]
    exact h
  · intro seen step k now c cam hof hcam h
    have hpending : PendingCommands cam.session := fun e he => by
      obtain ⟨buf, id, hdata, hbuf, -⟩ := (licenses_run (Server.start config) rfl seen k cam hcam).pending e he
      exact ⟨buf, id, hdata, hbuf⟩
    dsimp only
    rw [datagrams_concat, drwAcksFor_append, reaching_of_callback hof hcam, ← h]
    exact acks_callback (noAcks_listeners cam now) now (w := cam.world ((Server.start config).run seen).web) hpending c

/-- The ConnectUserAck of a login is acknowledged under its id; the commands that are sent again are not. -/
example : drwAcksFor ((Server.start defaultConfig).datagrams 0 streamAgain) =
    [[0xf1, 0xd1, 0, 6, 0xd2, 0, 0, 1] ++ userAck.extract 6 8 ++ List.replicate 22 0] := by
  decide +kernel

end CamReverse
