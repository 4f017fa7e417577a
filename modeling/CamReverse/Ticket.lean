import CamReverse.Dropped

/-!
# The ticket of a session

A camera hands out its ticket in a ConnectUserAck, at the bytes from 0x18 on.
`create_response_for_control_command` takes what is there of four bytes, and logs in with that. So the ticket is
complete exactly as long as no ConnectUserAck ends before its ticket does (`ticket_complete_iff`).
-/

namespace CamReverse

open Effect Bytes

variable {ε : Type}

def ticketOf (dv : DV) : Bytes := (dv.add 0x18).readByteArray 4

/-- `msg` is a ConnectUserAck, and `dv` is what it becomes when it is deobfuscated. -/
structure IsConnectUserAck (msg : Bytes) (dv : DV) : Prop where
  drw : (DV.ofBytes msg).readU16 = .ok Command.drw.code
  control : ((DV.ofBytes msg).add 5).readU8 = .ok 0
  logsIn : LogsIn (DV.ofBytes msg) dv

/-- The ticket came with `msg`. -/
def Granted (msg ticket : Bytes) : Prop := ∃ dv, IsConnectUserAck msg dv ∧ ticket = ticketOf dv

/-- From `w` to `w'` the session kept its ticket and did not log in. -/
def KeepsTicket (w w' : World ε) : Prop :=
  w'.session.ticket = w.session.ticket ∧ EmitsOnly (· ≠ .login) w w'

instance : IsPreorder (World ε) KeepsTicket where
  refl w := ⟨rfl, refl_of (EmitsOnly _) w⟩
  trans _ _ _ h h' := ⟨h'.1.trans h.1, trans_of (EmitsOnly _) h.2 h'.2⟩

/-- A caller whose listeners leave the ticket alone and do not log in again. -/
structure Listeners.KeepTicket (L : Listeners ε) : Prop where
  login : Along KeepsTicket L.login
  listWifi : ∀ items, Along KeepsTicket (L.listWifi items)

theorem keepsTicket_update {f : Session → Session} (h : ∀ s, (f s).ticket = s.ticket) :
    Along (@KeepsTicket ε) (update f) := fun w => ⟨h w.session, EmitsOnly.update f w⟩

theorem keepsTicket_send (now : ℚ) (msg : DV) : Along (@KeepsTicket ε) (send now msg) := by
  intro w
  refine ⟨?_, EmitsOnly.send (fun _ => by simp) now msg w⟩
  obtain ⟨t, evs, hfinal, -⟩ := send_final now msg w
  rw [hfinal]

theorem keepsTicket_record {ev : Event} (h : ev ≠ .login) : Along (@KeepsTicket ε) (record ev) :=
  fun w => ⟨rfl, EmitsOnly.record (P := (· ≠ .login)) h w⟩

theorem keepsTicket_inApp (m : EStateM PyErr ε Unit) : Along (@KeepsTicket ε) (inApp m) := by
  intro w
  refine ⟨?_, EmitsOnly.inApp m w⟩
  rw [show final (inApp m) w = _ from final_onPart World.app (fun app w => { w with app := app }) m w]

theorem keepsTicket_startVideoStream (now : ℚ) : Along (@KeepsTicket ε) (startVideoStream now) :=
  along_startVideoStream (keepsTicket_update fun _ => rfl) (keepsTicket_send now)

/-! ### One datagram -/

/-- From `w` to `w'` the session kept its ticket and did not log in, or it took such a ticket. -/
def TakesTicket (T : Bytes → Prop) (w w' : World ε) : Prop :=
  KeepsTicket w w' ∨ (T w'.session.ticket ∧ EmitsOnly (fun _ => True) w w')

theorem KeepsTicket.emits {w w' : World ε} (h : KeepsTicket w w') : EmitsOnly (fun _ => True) w w' := by
  obtain ⟨evs, hevs, -⟩ := h.2
  exact ⟨evs, hevs, fun _ _ => trivial⟩

instance (T : Bytes → Prop) : IsPreorder (World ε) (TakesTicket T) where
  refl w := .inl (refl_of KeepsTicket w)
  trans w₁ w₂ w₃ h h' := by
    rcases h with h | ⟨hT, h⟩
    · rcases h' with h' | ⟨hT', h'⟩
      · exact .inl (trans_of KeepsTicket h h')
      · exact .inr ⟨hT', trans_of (EmitsOnly _) h.emits h'⟩
    · rcases h' with h' | ⟨hT', h'⟩
      · exact .inr ⟨h'.1 ▸ hT, trans_of (EmitsOnly _) h h'.emits⟩
      · exact .inr ⟨hT', trans_of (EmitsOnly _) h h'⟩

theorem TakesTicket.of_keeps {T : Bytes → Prop} {α : Type} {m : SessionM ε α} (h : Along KeepsTicket m) :
    Along (TakesTicket T) m := fun w => .inl (h w)

namespace Listeners.KeepTicket

variable {L : Listeners ε} (hL : L.KeepTicket)
include hL

theorem handles (T : Bytes → Prop) : Handles L (TakesTicket T) where
  count := TakesTicket.of_keeps (keepsTicket_update fun _ => rfl)
  assemble hf := TakesTicket.of_keeps (keepsTicket_update fun s => by
    obtain ⟨image, id, bad, fixed, hs⟩ := hf s
    rw [hs])
  emitFrame := TakesTicket.of_keeps (Along.get_bind fun w =>
    Along.bind (keepsTicket_record (by simp)) (fun _ => keepsTicket_inApp _) w)
  emitAudio data := TakesTicket.of_keeps
    (Along.bind (keepsTicket_record (by simp)) fun _ => keepsTicket_inApp _)
  emitListWifi items := TakesTicket.of_keeps
    (Along.bind (keepsTicket_record (by simp)) fun _ => hL.listWifi items)
  forget _ := TakesTicket.of_keeps (keepsTicket_update fun _ => rfl)
  send now msg := TakesTicket.of_keeps (keepsTicket_send now msg)

theorem logIn (dv : DV) (w : World ε) :
    (final (logIn L dv) w).session.ticket = ticketOf dv ∧
      EmitsOnly (fun _ => True) w (final (CamReverse.logIn L dv) w) := by
  have hlater : KeepsTicket (loggedIn dv w) (final (CamReverse.logIn L dv) w) := hL.login (loggedIn dv w)
  have hlogin : EmitsOnly (fun _ => True) w (loggedIn dv w) := ⟨[.login], rfl, by simp⟩
  exact ⟨hlater.1, trans_of (EmitsOnly _) hlogin hlater.emits⟩

/-- **One datagram**: the session keeps its ticket, or takes that of the ConnectUserAck it got. -/
theorem receive (w : World ε) (d : Delivery) : TakesTicket (Granted d.msg) w (receive L w d) := by
  have hdispatch : Along (TakesTicket (Granted d.msg)) (dispatch d.config L d.now (DV.ofBytes d.msg)) := by
    refine (hL.handles _).dispatch d.config d.now (fun hdrw hcontrol dv hlogs w => ?_) fun _ => ?_
    · obtain ⟨hticket, hevs⟩ := hL.logIn dv w
      exact .inr ⟨⟨dv, ⟨hdrw, hcontrol, hlogs⟩, hticket⟩, hevs⟩
    · refine TakesTicket.of_keeps (Along.bind (keepsTicket_record (by simp)) fun _ =>
        Along.bind (keepsTicket_update fun s => ?_) fun _ w => ⟨rfl, refl_of (EmitsOnly _) w⟩)
      unfold onDisconnect
      split_ifs <;> rfl
  obtain ⟨last, hlast⟩ := handleIncoming_final d.config L d.now d.msg w
  unfold CamReverse.receive
  rw [hlast]
  exact hdispatch w

end Listeners.KeepTicket

/-! ### A ConnectUserAck -/

namespace IsConnectUserAck

variable {msg : Bytes} {dv : DV} (h : IsConnectUserAck msg dv)
include h

theorem length_le : 14 ≤ msg.length := by
  obtain ⟨payloadLen, hlen, -⟩ := h.logsIn.payload
  exact (DV.isOk_read ofLE msg 12 2).1 (isOk_iff.2 ⟨payloadLen, hlen⟩)

theorem answerControl_eq (L : Listeners ε) (now : ℚ) :
    answerControl L now (DV.ofBytes msg) = logIn L dv >>= fun _ => pure () := by
  have hlen := h.length_le
  have hstart : ofBE (field msg 8 2) = 0x110A := by
    have hread := (DV.readU16_ofBytes msg 8).symm.trans h.logsIn.startType
    rw [if_pos (by omega)] at hread
    exact Except.ok.inj hread
  have hcmd : ofBE (field msg 10 2) = ControlCommand.connectUserAck.code := by
    have hread := (DV.readU16_ofBytes msg 10).symm.trans h.logsIn.command
    rw [if_pos (by omega)] at hread
    exact Except.ok.inj hread
  have hdeobfuscated : deobfuscated (DV.ofBytes msg) (usedLen msg) = .ok dv := by
    obtain ⟨payloadLen, hread, hdeobfuscated⟩ := h.logsIn.payload
    have hread' := (DV.readU16le_ofBytes msg 12).symm.trans hread
    rw [if_pos (by omega)] at hread'
    obtain rfl := Except.ok.inj hread'
    exact hdeobfuscated
  unfold answerControl
  rw [createResponse_eq L hlen, hstart, if_neg (not_not.2 rfl), hdeobfuscated, lift_ok_bind, hcmd,
    controlAnswer, if_pos rfl]
  simp only [logIn, bind_assoc, pure_bind]
  rfl

theorem receive_ticket {L : Listeners ε} (hL : L.KeepTicket) {d : Delivery} (hd : d.msg = msg) (w : World ε) :
    (receive L w d).session.ticket = ticketOf dv := by
  subst hd
  have hlen := h.length_le
  have hcmd : commandOf d.msg = some .drw := by
    rw [commandOf, h.drw]
    rfl
  obtain ⟨raw, hrun⟩ := dispatch_of_command hcmd d.config L d.now
  have hdispatch : final (dispatch d.config L d.now (DV.ofBytes d.msg)) w =
      final (logIn L dv) (acknowledged d.msg w) := by
    rw [hrun, final_bind_pure]
    show final (handleDrw d.config L d.now (DV.ofBytes d.msg)) w = _
    rw [final, handleDrw_apply d.config L d.now (by omega), ← final, drwRest, h.control, liftM_eq_lift,
      lift_ok_bind, if_neg (by decide), if_pos rfl, h.answerControl_eq, final_bind_pure]
  obtain ⟨last, hlast⟩ := handleIncoming_final d.config L d.now d.msg w
  rw [receive, hlast, hdispatch]
  exact (hL.logIn dv (acknowledged d.msg w)).1

theorem length_ticket : (ticketOf dv).length = 4 ↔ 28 ≤ msg.length := by
  obtain ⟨payloadLen, -, hdeobfuscated⟩ := h.logsIn.payload
  obtain ⟨buf, rfl, hsame⟩ := (isOk_deobfuscated msg _).2 dv hdeobfuscated
  have hticket : ticketOf (DV.ofBytes buf) = field buf 24 4 := DV.readByteArray_ofBytes buf 24 4
  rw [hticket, field, List.length_take, List.length_drop]
  omega

end IsConnectUserAck

/-! ### Runs -/

/-- The ticket is complete, and it is the initial one or came with one of the datagrams. -/
structure HasTicket (seen : List Delivery) (w : World ε) : Prop where
  complete : w.session.ticket.length = 4
  origin : w.session.ticket = [0, 0, 0, 0] ∨ ∃ d ∈ seen, Granted d.msg w.session.ticket

/-- After `d` the session has a ticket, and it has that of `d` if `d` logged in. -/
structure TicketStep (seen : List Delivery) (d : Delivery) (w w' : World ε) : Prop where
  ticket : HasTicket (seen ++ [d]) w'
  login : ∃ evs, w'.events = w.events ++ evs ∧ (.login ∈ evs → Granted d.msg w'.session.ticket)

/-- If the datagram is a ConnectUserAck, it does not end before its ticket does. -/
def TicketFits (msg : Bytes) : Prop := ∀ dv, IsConnectUserAck msg dv → 28 ≤ msg.length

theorem HasTicket.step {L : Listeners ε} (hL : L.KeepTicket) {seen : List Delivery} {w : World ε}
    (h : HasTicket seen w) {d : Delivery} (hfits : TicketFits d.msg) : TicketStep seen d w (receive L w d) := by
  rcases hL.receive w d with ⟨hticket, evs, hevs, hlogin⟩ | ⟨hgranted, evs, hevs, -⟩
  · refine ⟨⟨hticket ▸ h.complete, ?_⟩, evs, hevs, fun hmem => absurd rfl (hlogin _ hmem)⟩
    rw [hticket]
    exact h.origin.imp_right fun ⟨d', hd', h'⟩ => ⟨d', List.mem_append_left _ hd', h'⟩
  · refine ⟨⟨?_, .inr ⟨d, List.mem_append_right _ (List.mem_singleton_self d), hgranted⟩⟩, evs, hevs,
      fun _ => hgranted⟩
    obtain ⟨dv, hack, hticket⟩ := hgranted
    rw [hticket]
    exact hack.length_ticket.2 (hfits dv hack)

theorem hasTicket_receiveAll {L : Listeners ε} (hL : L.KeepTicket) {ds : List Delivery} {w : World ε}
    (hticket : w.session.ticket = [0, 0, 0, 0]) (h : ∀ d ∈ ds, TicketFits d.msg) :
    HasTicket ds (receiveAll L w ds) := by
  refine Runs.history_of (P := HasTicket) (C := fun _ _ d => TicketFits d.msg) ?_ ?_ ds ?_
  · exact ⟨by rw [hticket]; rfl, .inl hticket⟩
  · exact fun seen t d ht hd => (ht.step hL hd).ticket
  · rintro seen d rest rfl
    exact h d (by simp)

/-- **The ticket is always complete**, and comes with the login, exactly in the runs in which every
ConnectUserAck has at least 28 bytes. -/
theorem ticket_complete_iff {L : Listeners ε} (hL : L.KeepTicket) (ds : List Delivery) (w : World ε)
    (hticket : w.session.ticket = [0, 0, 0, 0]) :
    (∀ seen d rest, ds = seen ++ d :: rest →
        TicketStep seen d (receiveAll L w seen) (receive L (receiveAll L w seen) d)) ↔
      ∀ d ∈ ds, TicketFits d.msg := by
  constructor
  · intro h d hd dv hack
    obtain ⟨seen, rest, hds⟩ := List.append_of_mem hd
    have hcomplete := (h seen d rest hds).ticket.complete
    rw [hack.receive_ticket hL rfl] at hcomplete
    exact hack.length_ticket.1 hcomplete
  · rintro h seen d rest rfl
    have hseen : ∀ d ∈ seen, TicketFits d.msg := fun d' hd' => h d' (List.mem_append_left _ hd')
    exact (hasTicket_receiveAll hL hticket hseen).step hL (h d (by simp))

theorem keepTicket_streaming (now : ℚ) : (Listeners.streaming now : Listeners ε).KeepTicket :=
  ⟨keepsTicket_startVideoStream now, fun _ => Along.pure _⟩

/-- A ConnectUserAck with a ticket. -/
def userAck : Bytes :=
  [0xf1, 0xd0, 0, 24, 0xd1, 0, 0, 0, 0x11, 0x0A, 0x20, 0x11, 12, 0, 0, 0, 1, 2, 3, 4, 5, 6, 7, 8, 9, 10, 11, 12]

theorem ticket_complete_iff_userAck :
    TicketStep [] ⟨defaultConfig, 0, userAck⟩ ready
      (receive (.streaming 0) ready ⟨defaultConfig, 0, userAck⟩) := by
  have hfits : ∀ d ∈ [(⟨defaultConfig, 0, userAck⟩ : Delivery)], TicketFits d.msg := by
    intro d hd dv _
    rw [List.mem_singleton.1 hd]
    decide
  exact (ticket_complete_iff (keepTicket_streaming 0) [⟨defaultConfig, 0, userAck⟩] ready rfl).2 hfits [] _ [] rfl

/-- A ConnectUserAck that declares no more than the 4 bytes in front of its payload. -/
def emptyUserAck : Bytes :=
  [0xf1, 0xd0, 0, 16, 0xd1, 0, 0, 0, 0x11, 0x0A, 0x20, 0x11, 4, 0, 0, 0, 1, 2, 3, 4]

/-- The session logs in with an empty ticket. -/
theorem empty_ticket :
    ¬∀ seen d rest, [⟨defaultConfig, 0, emptyUserAck⟩] = seen ++ d :: rest →
      TicketStep seen d (receiveAll .absent ready seen)
        (receive .absent (receiveAll .absent ready seen) d) := by
  intro h
  have hcomplete := (h [] ⟨defaultConfig, 0, emptyUserAck⟩ [] rfl).ticket.complete
  have hempty : (receive .absent ready ⟨defaultConfig, 0, emptyUserAck⟩).session.ticket = [] := by
    decide +kernel
  rw [show receiveAll .absent ready [] = ready from rfl, hempty] at hcomplete
  cases hcomplete

end CamReverse
