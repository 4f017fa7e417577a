import CamReverse.Http.EachSession
import CamReverse.Tickets

/-!
# Tickets stay with their cameras

Every session of the server starts the stream when it logs in, so what it sends is licensed by the tickets its own
camera handed out (`commands_licensed`).
-/

namespace CamReverse

open Effect Bytes

/-- In this run the session `k` got a ConnectUserAck with this ticket. -/
def Server.Grants (srv : Server) (steps : List ServerStep) (k : ℕ) (ticket : Bytes) : Prop :=
  ∃ before now msg after, steps = before ++ .datagram k now msg :: after ∧ k < (srv.run before).cameras.length ∧
    Granted msg ticket

theorem Server.Grants.mono {srv : Server} {seen : List ServerStep} {k : ℕ} {ticket : Bytes}
    (h : srv.Grants seen k ticket) (step : ServerStep) : srv.Grants (seen ++ [step]) k ticket := by
  obtain ⟨before, now, msg, after, rfl, hk, hgranted⟩ := h
  exact ⟨before, now, msg, after ++ [step], by rw [List.append_assoc, List.cons_append], hk, hgranted⟩

theorem Server.Grants.length_le {srv : Server} {steps : List ServerStep} {k : ℕ} {ticket : Bytes}
    (h : srv.Grants steps k ticket) : ticket.length ≤ 4 := by
  obtain ⟨before, now, msg, after, -, -, dv, -, rfl⟩ := h
  exact length_slice_le _ _ 4

theorem Licenses.mono {ε : Type} {T T' : Bytes → Prop} (h : ∀ ticket, T ticket → T' ticket) {w : World ε}
    (hw : Licenses T w) : Licenses T' w where
  ticket := hw.ticket.mono h
  pending e he := by
    obtain ⟨buf, id, hdata, hbuf, hlicensed⟩ := hw.pending e he
    exact ⟨buf, id, hdata, hbuf, hlicensed.mono h⟩
  sent m hm := (hw.sent m hm).mono h

theorem licenses_run (srv : Server) (hnone : srv.cameras = []) (steps : List ServerStep) :
    (srv.run steps).EachSession fun k s evs => Licenses (srv.Grants steps k) (⟨s, (), evs⟩ : World Unit) := by
  refine eachSession_run (J := fun seen k s evs => Licenses (srv.Grants seen k) (⟨s, (), evs⟩ : World Unit)) ?_ ?_ ?_ ?_
    steps
  · intro k cam hcam
    rw [hnone] at hcam
    cases hcam
  · exact fun seen rinfo dev => ⟨.inl rfl, fun e he => absurd he List.not_mem_nil, fun m hm => absurd hm List.not_mem_nil⟩
  · exact fun seen step k s evs _ h => h.mono fun ticket hticket => hticket.mono step
  · intro seen step k now c cam hof hcam h
    have hall : Licenses (srv.Grants (seen ++ [step]) k) (cam.world (srv.run seen).web) :=
      { h.mono fun ticket hticket => hticket.mono step with }
    have hgrant : ∀ config msg, c = .datagram config msg → ∀ ticket, Granted msg ticket →
        srv.Grants (seen ++ [step]) k ticket := by
      rintro config msg rfl ticket hgranted
      cases step with
      | datagram k' now' msg' =>
        cases hof
        exact ⟨seen, now, msg, [], rfl, (List.getElem?_eq_some_iff.1 hcam).1, hgranted⟩
      | reconnect devId =>
        obtain ⟨_, -, hcall⟩ := Option.map_eq_some_iff.1 hof
        cases hcall
      | _ => cases hof
    have hlogin : (cam.listeners now).login = startVideoStream now := rfl
    exact { hall.callback (fun _ hticket => hticket.length_le) hlogin (fun _ => rfl) hgrant with }

/-- **Tickets stay with their cameras.** In every run of the server, every command that a session sent, at first or
again, shows a ticket that its camera handed out to this very session before, or else the initial one; and if it asks for
the stream, it shows such a ticket. -/
theorem commands_licensed (config : Config) (steps : List ServerStep) {k : ℕ} {cam : Camera}
    (hcam : ((Server.start config).run steps).cameras[k]? = some cam) {m : Bytes} (hsent : .sent m ∈ cam.events)
    (hcommand : IsDrwCommand m) :
    Bears (OrInitial ((Server.start config).Grants steps k)) m ∧
      (AsksForStream m → Bears ((Server.start config).Grants steps k) m) :=
  have hlicensed := (licenses_run (Server.start config) rfl steps k cam hcam).sent m hsent
  ⟨hlicensed.bears hcommand, hlicensed.stream hcommand⟩

/-- A camera logs in, and the commands that start its stream are sent again. -/
def streamAgain : List ServerStep := [aDiscovery, .ready 0 1000, .datagram 0 1001 userAck, .resendTick 0 1200]

theorem commands_licensed_streamAgain :
    Bears ((Server.start defaultConfig).Grants streamAgain 0)
      [0xf1, 0xd0, 0, 16, 0xd1, 0, 0, 3, 0x11, 0x0a, 0x10, 0x30, 4, 0, 0, 0, 4, 7, 6, 9] := by
  have hcameras : 0 < ((Server.start defaultConfig).run streamAgain).cameras.length := by decide +kernel
  have hsent : .sent [0xf1, 0xd0, 0, 16, 0xd1, 0, 0, 3, 0x11, 0x0a, 0x10, 0x30, 4, 0, 0, 0, 4, 7, 6, 9] ∈
      (((Server.start defaultConfig).run streamAgain).cameras[0]).events := by decide +kernel +revert
  exact (commands_licensed defaultConfig streamAgain (List.getElem?_eq_getElem hcameras) hsent ⟨by decide, by decide⟩).2
    (.inr (by decide))

end CamReverse
