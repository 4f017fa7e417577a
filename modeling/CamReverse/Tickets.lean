import CamReverse.Credentials
import CamReverse.Lib.Guarantees
import CamReverse.Ticket

/-!
# The tickets of commands

A command shows the ticket its session had when it was built, and a copy that is sent again shows the same. So as long
as a session starts the stream when it logs in, a command for the stream shows a ticket that the camera handed out to
this session, and every other command shows such a ticket or the initial one (`Licenses.callback`).
-/

namespace CamReverse

open Effect Bytes

variable {ε : Type}

/-! ### Packets -/

/-- A Drw packet that carries a command. -/
def IsDrwCommand (m : Bytes) : Prop := field m 0 2 = be 2 Command.drw.code ∧ field m 4 1 = [0xD1]

/-- A command that sets the stream up or starts it. -/
def AsksForStream (m : Bytes) : Prop :=
  field m 10 2 = be 2 ControlCommand.videoParamSet.code ∨ field m 10 2 = be 2 ControlCommand.startVideo.code

/-- The packet shows such a ticket. -/
def Bears (T : Bytes → Prop) (m : Bytes) : Prop := ∃ ticket, T ticket ∧ field m 16 4 = padded 4 ticket

/-- The ticket is the initial one, or such a ticket. -/
def OrInitial (T : Bytes → Prop) (ticket : Bytes) : Prop := ticket = [0, 0, 0, 0] ∨ T ticket

/-- If the packet is a command, it shows such a ticket or the initial one; and it shows such a ticket if it asks for the
stream. -/
structure Licensed (T : Bytes → Prop) (m : Bytes) : Prop where
  bears : IsDrwCommand m → Bears (OrInitial T) m
  stream : IsDrwCommand m → AsksForStream m → Bears T m

theorem Bears.mono {T T' : Bytes → Prop} (h : ∀ ticket, T ticket → T' ticket) {m : Bytes} (hm : Bears T m) :
    Bears T' m := hm.imp fun ticket hticket => ⟨h ticket hticket.1, hticket.2⟩

theorem OrInitial.mono {T T' : Bytes → Prop} (h : ∀ ticket, T ticket → T' ticket) {ticket : Bytes}
    (ht : OrInitial T ticket) : OrInitial T' ticket := ht.imp_right (h ticket)

theorem Licensed.mono {T T' : Bytes → Prop} (h : ∀ ticket, T ticket → T' ticket) {m : Bytes} (hm : Licensed T m) :
    Licensed T' m where
  bears hcommand := (hm.bears hcommand).mono fun _ => OrInitial.mono h
  stream hcommand hstream := (hm.stream hcommand hstream).mono h

theorem Licensed.withId {T : Bytes → Prop} {buf : Bytes} (h : Licensed T buf) (hlen : 8 ≤ buf.length) (id : ℕ) :
    Licensed T (withId id buf) := by
  have hsame := sameButId_withId hlen id
  have hcommand : IsDrwCommand (CamReverse.withId id buf) → IsDrwCommand buf := fun hc =>
    ⟨(hsame.field (.inl (by decide))).trans hc.1, (hsame.field (.inl (by decide))).trans hc.2⟩
  have hbears : ∀ {U : Bytes → Prop}, Bears U buf → Bears U (CamReverse.withId id buf) := fun hb =>
    hb.imp fun ticket hticket => ⟨hticket.1, (hsame.field (.inr (by decide))).symm.trans hticket.2⟩
  constructor
  · exact fun hc => hbears (h.bears (hcommand hc))
  · intro hc hstream
    refine hbears (h.stream (hcommand hc) (hstream.imp ?_ ?_)) <;>
      exact fun hcode => (hsame.field (.inr (by decide))).trans hcode

theorem dataReadWrite_ticket {id command : ℕ} {ticket : Bytes} (hticket : ticket.length ≤ 4) {data : Option DV}
    {dv : DV} (h : dataReadWrite id ticket command data = .ok dv) :
    ∃ buf, dv = DV.ofBytes buf ∧ IsCommandOf command buf id ∧ field buf 16 4 = padded 4 ticket := by
  obtain ⟨buf, rfl, hbuf⟩ := dataReadWrite_isCommand h
  refine ⟨buf, rfl, hbuf, ?_⟩
  rw [dataReadWrite_eq] at h
  obtain ⟨bufCopy, -, h⟩ := except_bind_eq_ok h
  simp only [writeHeader_ok hticket, except_ok_bind] at h
  have hshows : ∀ tail, field (packetHeader id command ((bufCopy.map List.length).getD 0) ++ padded 4 ticket ++ tail)
      16 4 = padded 4 ticket := by
    intro tail
    rw [List.append_assoc]
    exact field_append (length_packetHeader _ _ _) (length_padded hticket)
  cases bufCopy with
  | none =>
    obtain rfl := congrArg DV.toBytes (Except.ok.inj h)
    exact hshows _
  | some copy =>
    have hwrite := (DV.via_writeByteArray _ copy 20).symm.trans h
    obtain rfl := congrArg DV.toBytes (Except.ok.inj hwrite)
    rw [DV.toBytes_ofBytes, field_put_before (by decide) ?_]
    · exact hshows _
    · simp only [List.length_append, length_packetHeader, length_padded hticket]
      omega

/-! ### What is kept -/

/-- What a session sent and what is pending are licensed. -/
structure Licenses (T : Bytes → Prop) (w : World ε) : Prop where
  ticket : OrInitial T w.session.ticket
  pending : ∀ e ∈ w.session.unackedDrw.entries, ∃ buf id, e.2.data = DV.ofBytes buf ∧ IsCommand buf id ∧ Licensed T buf
  sent : ∀ m, .sent m ∈ w.events → Licensed T m

def Sendable (T : Bytes → Prop) (msg : DV) : Prop :=
  (∃ raw, msg.readU16 = .ok raw ∧ raw ≠ Command.drw.code) ∨
    ∃ buf id, msg = DV.ofBytes buf ∧ IsCommand buf id ∧ Licensed T buf

/-- A command that was built with such a ticket. -/
def BuiltWith (U : Bytes → Prop) (command : ℕ) (msg : DV) : Prop :=
  ∃ buf id, msg = DV.ofBytes buf ∧ IsCommandOf command buf id ∧ Bears U buf

/-- The session also has such a ticket. -/
def LoggedIn (T : Bytes → Prop) (w : World ε) : Prop := Licenses T w ∧ T w.session.ticket

theorem BuiltWith.sendable {T : Bytes → Prop} {command : ℕ} {msg : DV} (h : BuiltWith T command msg) :
    Sendable T msg := by
  obtain ⟨buf, id, rfl, hbuf, hbears⟩ := h
  exact .inr ⟨buf, id, rfl, hbuf.toIsCommand, fun _ => hbears.mono fun _ => .inr, fun _ _ => hbears⟩

theorem BuiltWith.sendable_other {T : Bytes → Prop} {command : ℕ} {msg : DV} (h : BuiltWith (OrInitial T) command msg)
    (hset : be 2 command ≠ be 2 ControlCommand.videoParamSet.code)
    (hstart : be 2 command ≠ be 2 ControlCommand.startVideo.code) : Sendable T msg := by
  obtain ⟨buf, id, rfl, hbuf, hbears⟩ := h
  refine .inr ⟨buf, id, rfl, hbuf.toIsCommand, fun _ => hbears, fun _ hstream => ?_⟩
  rcases hstream with hcode | hcode
  · exact absurd (hbuf.command.symm.trans hcode) hset
  · exact absurd (hbuf.command.symm.trans hcode) hstart

theorem not_isDrwCommand_of_raw {msg : DV} {raw : ℕ} (hraw : msg.readU16 = .ok raw) (hne : raw ≠ Command.drw.code) :
    ¬IsDrwCommand msg.toBytes := by
  rintro ⟨htype, -⟩
  have hsame := DV.field_toBytes hraw
  rw [htype, ofBE_be] at hsame
  exact hne hsame.symm

section Keeps

variable {T : Bytes → Prop}

theorem Licenses.update {w : World ε} (h : Licenses T w) {s : Session} (hticket : s.ticket = w.session.ticket)
    (hentries : ∀ e ∈ s.unackedDrw.entries, e ∈ w.session.unackedDrw.entries) :
    Licenses T { w with session := s } where
  ticket := hticket ▸ h.ticket
  pending e he := h.pending e (hentries e he)
  sent := h.sent

theorem Licenses.events {w : World ε} (h : Licenses T w) {evs : List Event}
    (hsent : ∀ m, .sent m ∈ evs → Licensed T m) : Licenses T { w with events := w.events ++ evs } :=
  { h with sent := fun m hm => (List.mem_append.1 hm).elim (h.sent m) (hsent m) }

theorem keeps_elsewhere {f : Session → Session}
    (h : ∀ s, (f s).ticket = s.ticket ∧ ∀ e ∈ (f s).unackedDrw.entries, e ∈ s.unackedDrw.entries) :
    Along (@Keeps (World ε) (Licenses T)) (update f) :=
  fun w hw => hw.update (h w.session).1 (h w.session).2

theorem keeps_record {ev : Event} (h : ∀ m, ev ≠ .sent m) : Along (@Keeps (World ε) (Licenses T)) (record ev) :=
  fun _ hw => hw.events fun m hm => absurd (List.mem_singleton.1 hm).symm (h m)

theorem keeps_inApp (m : EStateM PyErr ε Unit) : Along (@Keeps (World ε) (Licenses T)) (inApp m) := fun w hw => by
  rw [inApp, final_onPart]
  exact { hw with }

theorem Licenses.send {msg : DV} (h : Sendable T msg) (now : ℚ) {w : World ε} (hw : Licenses T w) :
    Licenses T (final (send now msg) w) ∧ (final (send now msg) w).session.ticket = w.session.ticket := by
  rcases h with ⟨raw, hraw, hne⟩ | ⟨buf, id, rfl, hbuf, hlicensed⟩
  · rw [final, send_other now hraw hne w]
    refine ⟨hw.events fun m hm => ?_, rfl⟩
    obtain rfl := Event.sent.inj (mem_wired hm)
    exact ⟨fun hc => absurd hc (not_isDrwCommand_of_raw hraw hne), fun hc => absurd hc (not_isDrwCommand_of_raw hraw hne)⟩
  · rw [final, send_command hbuf now w]
    have hremembered : Licenses T { w with session := { w.session with
        unackedDrw := w.session.unackedDrw.insert (id % 65536) ⟨now, DV.ofBytes buf⟩ } } :=
      { hw with
        pending := fun e he => by
          rcases Table.mem_entries_insert he with rfl | he
          · exact ⟨buf, id, rfl, hbuf, hlicensed⟩
          · exact hw.pending e he }
    refine ⟨hremembered.events fun m hm => ?_, rfl⟩
    obtain rfl := Event.sent.inj (mem_wired hm)
    exact hlicensed

theorem keeps_send {msg : DV} (h : Sendable T msg) (now : ℚ) : Along (@Keeps (World ε) (Licenses T)) (send now msg) :=
  fun _ hw => (hw.send h now).1

theorem keeps_resendTimerRound (now : ℚ) : Along (@Keeps (World ε) (Licenses T)) (resendTimerRound now) := by
  refine Along.get_bind fun w hw => ?_
  refine Along.forM (R := Keeps (Licenses T)) (fun e he => ?_) w hw
  obtain ⟨k, ts, data⟩ := e
  obtain ⟨buf, id, hdata, hbuf, hlicensed⟩ := hw.pending _ he
  dsimp only at hdata
  subst hdata
  have hlen := hbuf.length
  refine Along.ite (fun _ => ?_) fun _ => Along.pure _
  refine Along.bind (Along.lift _) fun _ => Along.get_bind fun w => Along.lift_bind (fun data hdata => ?_) w
  obtain rfl : DV.ofBytes (withId w.session.outgoingCommandId buf) = data :=
    Except.ok.inj (((DV.via_writeU16 buf 6 _).trans (if_pos (by omega))).symm.trans hdata)
  refine Along.bind (keeps_elsewhere fun _ => ⟨rfl, fun _ h => h⟩) fun _ => ?_
  refine Along.bind (keeps_elsewhere fun _ => ⟨rfl, fun _ h => (List.mem_filter.1 h).1⟩) fun _ => ?_
  exact keeps_send (.inr ⟨_, _, rfl, hbuf.withId _, hlicensed.withId hlen _⟩) now

/-! ### Building -/

theorem guarantees_makeDataReadWrite {I : World ε → Prop} {U : Bytes → Prop} (hU : ∀ ticket, U ticket → ticket.length ≤ 4)
    (hticket : ∀ w, I w → U w.session.ticket)
    (hcount : Along (Keeps I) (update fun s => { s with outgoingCommandId := s.outgoingCommandId + 1 })) (command : ℕ)
    (data : Option DV) : Guarantees I (makeDataReadWrite command data : SessionM ε DV) (BuiltWith U command) := by
  intro w hw
  refine ⟨along_makeDataReadWrite hcount command data w hw, fun msg w' hrun => ?_⟩
  rw [makeDataReadWrite_apply] at hrun
  cases hbuilt : dataReadWrite w.session.outgoingCommandId w.session.ticket command data with
  | error e =>
    rw [hbuilt] at hrun
    cases hrun
  | ok dv =>
    rw [hbuilt] at hrun
    obtain ⟨rfl, -⟩ := EStateM.Result.ok.inj hrun
    obtain ⟨buf, rfl, hbuf, hshows⟩ := dataReadWrite_ticket (hU _ (hticket w hw)) hbuilt
    exact ⟨buf, _, rfl, hbuf, _, hticket w hw, hshows⟩

variable (hT : ∀ ticket, T ticket → ticket.length ≤ 4)
include hT

theorem length_orInitial {ticket : Bytes} (h : OrInitial T ticket) : ticket.length ≤ 4 := by
  rcases h with rfl | h
  · decide
  · exact hT ticket h

theorem guarantees_built (command : ℕ) (data : Option DV) :
    Guarantees (Licenses T) (makeDataReadWrite command data : SessionM ε DV) (BuiltWith (OrInitial T) command) :=
  guarantees_makeDataReadWrite (fun _ => length_orInitial hT) (fun _ h => h.ticket)
    (keeps_elsewhere fun _ => ⟨rfl, fun _ h => h⟩) command data

theorem guarantees_streaming (command : ℕ) (data : Option DV) :
    Guarantees (LoggedIn T) (makeDataReadWrite command data : SessionM ε DV) (BuiltWith T command) :=
  guarantees_makeDataReadWrite hT (fun _ h => h.2) (fun _ h => ⟨h.1.update rfl fun _ h => h, h.2⟩) command data

omit hT in
theorem keepsLoggedIn_send {msg : DV} (h : Sendable T msg) (now : ℚ) :
    Along (@Keeps (World ε) (LoggedIn T)) (send now msg) := fun _ hw =>
  ⟨(hw.1.send h now).1, (hw.1.send h now).2 ▸ hw.2⟩

theorem keepsLoggedIn_startVideoStream (now : ℚ) : Along (@Keeps (World ε) (LoggedIn T)) (startVideoStream now) := by
  refine Guarantees.keeps (P := fun _ => True) ?_
  have hresolution : Guarantees (LoggedIn T) (sendVideoResolution 2 : SessionM ε (List DV)) fun pkts =>
      ∀ msg ∈ pkts, Sendable T msg :=
    Guarantees.bind (Guarantees.lift fun _ _ => trivial) fun payloads _ =>
      Guarantees.mapM fun payload _ => (guarantees_streaming hT _ _).mono fun _ => BuiltWith.sendable
  refine Guarantees.bind hresolution fun pkts hpkts => ?_
  refine Guarantees.bind (Guarantees.of_along (Along.forM fun msg hmsg => keepsLoggedIn_send (hpkts msg hmsg) now))
    fun _ _ => ?_
  exact Guarantees.bind (guarantees_streaming hT _ _) fun msg hmsg =>
    Guarantees.of_along (keepsLoggedIn_send hmsg.sendable now)

/-! ### Callbacks -/

section Callbacks

variable {L : Listeners ε} {now : ℚ} (hlogin : L.login = startVideoStream now) (hlist : ∀ items, L.listWifi items = pure ())
include hlogin

theorem keeps_login {dv : DV} (hgranted : T (ticketOf dv)) : Along (Keeps (Licenses T)) (logIn L dv) := by
  intro w hw
  have hnone : ∀ m, .sent m ∈ [Event.login] → Licensed T m := by simp
  have htaken : LoggedIn T { w with
      session := { w.session with ticket := ticketOf dv }, events := w.events ++ [.login] } :=
    ⟨{ ticket := .inr hgranted
       pending := hw.pending
       sent := (Licenses.events hw hnone).sent }, hgranted⟩
  have hstarted := keepsLoggedIn_startVideoStream hT now _ htaken
  rw [← hlogin] at hstarted
  exact hstarted.1

omit hT hlogin in
include hlist in
theorem answers_licenses : Answers L (Keeps (Licenses T)) where
  count := keeps_elsewhere fun _ => ⟨rfl, fun _ h => h⟩
  assemble {f} hf := keeps_elsewhere fun s => by
    obtain ⟨image, id, bad, fixed, hs⟩ := hf s
    rw [hs]
    exact ⟨rfl, fun _ h => h⟩
  emitFrame := Along.get_bind fun w => Along.bind (keeps_record (by simp)) (fun _ => keeps_inApp _) w
  emitAudio data := Along.bind (keeps_record (by simp)) fun _ => keeps_inApp _
  emitListWifi items := by
    refine Along.bind (keeps_record (by simp)) fun _ => ?_
    rw [hlist]
    exact Along.pure _

include hlist

theorem guarantees_control {msg : Bytes} (hgrant : ∀ dv, LogsIn (DV.ofBytes msg) dv → T (ticketOf dv)) :
    Guarantees (Licenses T) (createResponseForControlCommand L (DV.ofBytes msg)) fun pkts =>
      ∀ pkt ∈ pkts, Sendable T pkt := by
  have hnothing : Guarantees (Licenses T) (pure [] : SessionM ε (List DV)) fun pkts => ∀ pkt ∈ pkts, Sendable T pkt :=
    Guarantees.pure (by simp)
  unfold createResponseForControlCommand
  refine Guarantees.bind (Guarantees.lift fun _ h => h) fun startType hstart => ?_
  refine Guarantees.bind (Guarantees.lift fun _ h => h) fun cmdId hcmd => ?_
  refine Guarantees.bind (Guarantees.lift fun _ h => h) fun payloadLen hlen => ?_
  refine Guarantees.ite (fun _ => hnothing) fun hcontrol => ?_
  obtain rfl := not_not.1 hcontrol
  refine Guarantees.bind (Guarantees.lift fun _ h => h) fun dv hdv => ?_
  refine Guarantees.ite (fun hack => ?_) fun _ => Guarantees.ite (fun _ => ?_) fun _ =>
    Guarantees.ite (fun _ => ?_) fun _ => Guarantees.ite (fun _ => ?_) fun _ => hnothing
  · subst hack
    have hgranted := hgrant dv ⟨hstart, hcmd, payloadLen, hlen, hdv⟩
    show Guarantees (Licenses T) (logIn L dv >>= fun _ => pure []) _
    exact Guarantees.bind (Guarantees.of_along (keeps_login hT hlogin hgranted)) fun _ _ => hnothing
  · exact Guarantees.bind (Guarantees.lift fun _ _ => trivial) fun _ _ => hnothing
  · refine Guarantees.bind (Guarantees.lift fun _ _ => trivial) fun _ _ => ?_
    refine Guarantees.bind (guarantees_built hT _ _) fun pkt hpkt => Guarantees.pure ?_
    exact List.forall_mem_singleton.2 (hpkt.sendable_other (by decide) (by decide))
  · refine Guarantees.ite (fun _ => hnothing) fun _ => Guarantees.bind (Guarantees.lift fun _ _ => trivial) fun items _ => ?_
    exact Guarantees.bind (Guarantees.of_along ((answers_licenses hlist).emitListWifi items)) fun _ _ => hnothing

omit hT hlogin hlist in
theorem licenses_emitDisconnect : Along (Keeps (Licenses T)) (emitDisconnect L) := by
  intro w hw
  have hsession : (onDisconnect w.session).ticket = w.session.ticket ∧
      (onDisconnect w.session).unackedDrw = w.session.unackedDrw := by
    unfold onDisconnect
    split_ifs <;> exact ⟨rfl, rfl⟩
  have hheard : Licenses T { w with events := w.events ++ [.disconnect] } := hw.events (by simp)
  exact { hheard.update hsession.1 fun e he => hsession.2 ▸ he with }

theorem licenses_handlers (config : Config) (cmd : Command) {msg : Bytes}
    (hgrant : cmd = .drw → ((DV.ofBytes msg).add 5).readU8 = .ok 0 →
      ∀ dv, LogsIn (DV.ofBytes msg) dv → T (ticketOf dv)) :
    Along (Keeps (Licenses T)) (handlers config L now cmd (DV.ofBytes msg)) := by
  cases cmd with
  | p2pAlive =>
    refine Along.lift_bind fun ack hack => keeps_send (.inl ?_) now
    obtain rfl := Except.ok.inj hack
    exact ⟨Command.p2pAliveAck.code, rfl, by decide⟩
  | p2pRdy =>
    refine Guarantees.keeps (P := fun _ => True) (Guarantees.bind (P := Sendable T) ?_ fun msg hmsg =>
      Guarantees.of_along (keeps_send hmsg now))
    refine Guarantees.bind (Guarantees.lift fun _ _ => trivial) fun _ _ => ?_
    refine Guarantees.bind (Guarantees.lift fun _ _ => trivial) fun _ _ => ?_
    exact (guarantees_built hT _ _).mono fun msg hmsg => hmsg.sendable_other (by decide) (by decide)
  | drwAck =>
    refine Along.bind (Along.lift _) fun ackCount => Along.forM fun _ _ => Along.bind (Along.lift _) fun ackId => ?_
    exact keeps_elsewhere fun _ => ⟨rfl, fun _ h => (List.mem_filter.1 h).1⟩
  | drw =>
    refine Along.lift_bind fun ack hack => ?_
    refine Along.bind (keeps_send (.inl ⟨_, readU16_makeDrwAck hack, by decide⟩) now) fun _ => ?_
    refine Along.lift_bind fun mStream hstream => Along.ite (fun _ => (answers_licenses hlist).dealWithData config _)
      fun _ => Along.ite (fun hcontrol => ?_) fun _ => Along.pure _
    subst hcontrol
    refine Guarantees.keeps (P := fun _ => True) (Guarantees.bind
      (guarantees_control hT hlogin hlist (hgrant rfl hstream)) fun pkts hpkts => Guarantees.of_along ?_)
    exact Along.forM fun pkt hpkt => keeps_send (hpkts pkt hpkt) now
  | close =>
    refine Along.lift_bind fun ack hack => ?_
    exact Along.bind (keeps_send (.inl ⟨_, readU16_makeDrwAck hack, by decide⟩) now) fun _ => licenses_emitDisconnect
  | p2pAliveAck => exact Along.pure _
  | _ => exact Handles.notImpl _

omit hT hlogin hlist in
theorem readU16_of_commandOf {msg : Bytes} {cmd : Command} (h : commandOf msg = some cmd) :
    (DV.ofBytes msg).readU16 = .ok cmd.code := by
  unfold commandOf at h
  cases hraw : (DV.ofBytes msg).readU16 with
  | error e =>
    rw [hraw] at h
    cases h
  | ok raw =>
    rw [hraw] at h
    rw [code_of_commandsByValue h]

theorem Licenses.dispatch {w : World ε} (hw : Licenses T w) (config : Config) {msg : Bytes}
    (hgrant : ∀ ticket, Granted msg ticket → T ticket) :
    Licenses T (final (dispatch config L now (DV.ofBytes msg)) w) := by
  cases hcmd : commandOf msg with
  | none =>
    rw [dispatch_of_none hcmd]
    exact hw
  | some cmd =>
    obtain ⟨raw, hrun⟩ := dispatch_of_command hcmd config L now
    rw [hrun, final_bind_pure]
    refine licenses_handlers hT hlogin hlist config cmd (fun hdrw hstream dv hdv => ?_) w hw
    subst hdrw
    exact hgrant _ ⟨dv, ⟨readU16_of_commandOf hcmd, hstream, hdv⟩, rfl⟩

omit hT hlogin hlist in
theorem licenses_connectionMade (now : ℚ) : Along (@Keeps (World ε) (Licenses T)) (connectionMade now) := by
  refine Along.bind (keeps_elsewhere fun _ => ⟨rfl, fun _ h => h⟩) fun _ => Along.get_bind fun w => ?_
  refine Along.lift_bind (fun rdy hrdy => ?_) w
  refine Along.bind (keeps_send (.inl ⟨_, readU16_makeP2pRdy hrdy, by decide⟩) now) fun _ => ?_
  exact Along.bind (keeps_elsewhere fun _ => ⟨rfl, fun _ h => h⟩) fun _ => keeps_elsewhere fun _ => ⟨rfl, fun _ h => h⟩

omit hT hlogin hlist in
theorem licenses_timerTask {round : SessionM ε Unit} (hround : Along (Keeps (Licenses T)) round)
    {f : Session → Session} (hf : ∀ s, (f s).ticket = s.ticket ∧ (f s).unackedDrw = s.unackedDrw) :
    Along (Keeps (Licenses T)) (timerTask round f) :=
  Along.bind (Along.attempt hround) fun _ =>
    Along.ite (fun _ => keeps_elsewhere fun s => ⟨(hf s).1, fun _ he => (hf s).2 ▸ he⟩) fun _ => Along.pure _

omit hT hlogin hlist in
theorem licenses_sessTimerRound : Along (Keeps (Licenses T)) (sessTimerRound L now) := by
  have hend : Along (Keeps (Licenses T)) (do
      emitDisconnect L
      update fun s => { s with sessTimer := false }) :=
    Along.bind licenses_emitDisconnect fun _ => keeps_elsewhere fun _ => ⟨rfl, fun _ h => h⟩
  have hrest := fun c : Prop => fun [Decidable c] =>
    Along.ite (c := c) (fun _ => hend) fun _ => Along.pure (R := Keeps (Licenses T)) ()
  refine Along.get_bind fun w => Along.ite (fun _ => Along.ite (fun _ => ?_) fun _ => hrest _) (fun _ => Along.pure _) w
  refine Along.lift_bind fun msg hmsg => Along.bind (keeps_send (.inl ?_) now) fun _ => hrest _
  obtain rfl := Except.ok.inj hmsg
  exact ⟨Command.p2pAlive.code, rfl, by decide⟩

/-- **A callback** keeps what a session sends licensed, if the camera's tickets are such tickets. -/
theorem Licenses.callback {w : World ε} (hw : Licenses T w) {c : Callback}
    (hgrant : ∀ config msg, c = .datagram config msg → ∀ ticket, Granted msg ticket → T ticket) :
    Licenses T (callback L now w c) := by
  unfold CamReverse.callback
  split_ifs with hdue
  · cases c with
    | ready => exact licenses_connectionMade now w hw
    | datagram config msg =>
      obtain ⟨last, hfinal⟩ := handleIncoming_final config L now msg w
      have hdispatch := hw.dispatch hT hlogin hlist config (hgrant config msg rfl)
      dsimp only
      rw [hfinal]
      exact ⟨hdispatch.ticket, hdispatch.pending, hdispatch.sent⟩
    | sessTick =>
      have htask : Along (Keeps (Licenses T)) (sessTimer L now) :=
        licenses_timerTask licenses_sessTimerRound fun _ => ⟨rfl, rfl⟩
      exact htask w hw
    | resendTick =>
      have htask : Along (@Keeps (World ε) (Licenses T)) (resendTimer now) :=
        licenses_timerTask (keeps_resendTimerRound now) fun _ => ⟨rfl, rfl⟩
      exact htask w hw
    | close => exact licenses_emitDisconnect w hw
  · exact hw

end Callbacks

end Keeps

end CamReverse
