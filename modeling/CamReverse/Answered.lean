import CamReverse.Acks
import CamReverse.Closing
import CamReverse.Credentials

/-!
# Which packets are acknowledged

A callback puts one DrwAck on the wire if it is a Drw or Close packet with an id that reaches an open transport, and
none otherwise: neither a timer nor a listener acknowledges anything, and what is sent again is a command
(`acks_callback`).
-/

namespace CamReverse

open Effect Bytes

variable {ε : Type}

/-- The DrwAck an event puts on the wire. -/
def Event.drwAck : Event → Option Bytes
  | .sent m => if field m 0 2 = be 2 Command.drwAck.code then some m else none
  | _ => none

/-- A Drw or Close packet that has an id. -/
def AsksForAck (msg : Bytes) : Prop :=
  8 ≤ msg.length ∧ (commandOf msg = some .drw ∨ commandOf msg = some .close)

instance (msg : Bytes) : Decidable (AsksForAck msg) := inferInstanceAs (Decidable (_ ∧ _))

/-- The acknowledgement of a packet, on its stream. -/
def drwAckFor (msg : Bytes) : Bytes :=
  be 2 Command.drwAck.code ++ [0, 6, 0xD2, msg.getD 5 0] ++ be 2 1 ++ field msg 6 2 ++ List.replicate 22 0

theorem makeDrwAck_bytes {msg : Bytes} (h : 8 ≤ msg.length) :
    makeDrwAck (DV.ofBytes msg) = .ok (DV.ofBytes (drwAckFor msg)) := by
  have hread : ((DV.ofBytes msg).add 6).readU16 = .ok (ofBE (field msg 6 2)) :=
    (DV.readU16_ofBytes msg 6).trans (if_pos h)
  have hstream : ((DV.ofBytes msg).add 5).readU8 = .ok (msg.getD 5 0).toNat :=
    (DV.readU8_ofBytes msg 5).trans (if_pos (by omega))
  have hid : be 2 (ofBE (field msg 6 2)) = field msg 6 2 := by
    have hwidth : (field msg 6 2).length = 2 := length_field (by omega)
    have hbytes := be_ofBE (field msg 6 2)
    rwa [hwidth] at hbytes
  have hack : makeDrwAck (DV.ofBytes msg) = .ok (DV.ofBytes (be 2 Command.drwAck.code ++
      [0, 6, 0xD2, UInt8.ofNat (msg.getD 5 0).toNat] ++ be 2 1 ++ be 2 (ofBE (field msg 6 2)) ++
      List.replicate 22 0)) := by
    unfold makeDrwAck
    rw [hread, hstream]
    rfl
  rw [hack, hid, UInt8.ofNat_toNat]
  rfl

/-! ### Quiet steps -/

theorem drwAcks_of_emitsOnly {w w' : World ε} (h : EmitsOnly SendsNoAck w w') :
    w'.events.filterMap Event.drwAck = w.events.filterMap Event.drwAck := by
  obtain ⟨evs, hevs, hquiet⟩ := h
  have hnone : evs.filterMap Event.drwAck = [] := by
    refine List.filterMap_eq_nil_iff.2 fun ev hev => ?_
    cases ev with
    | sent m => exact if_neg (hquiet _ hev m rfl)
    | _ => rfl
  rw [hevs, List.filterMap_append, hnone, List.append_nil]

theorem emits_send_other {msg : DV}
    (h : ∃ raw, msg.readU16 = .ok raw ∧ raw ≠ Command.drw.code ∧ raw ≠ Command.drwAck.code) (now : ℚ) :
    Along (@EmitsOnly ε SendsNoAck) (send now msg) := by
  obtain ⟨raw, hraw, hdrw, hack⟩ := h
  intro w
  rw [final, send_other now hraw hdrw w]
  refine ⟨wired w msg.toBytes, rfl, fun ev hev m hm => ?_⟩
  obtain rfl := Event.sent.inj ((mem_wired hev).symm.trans hm)
  intro htype
  have hsame := DV.field_toBytes hraw
  rw [htype, ofBE_be] at hsame
  exact hack hsame.symm

theorem emits_emitDisconnect (L : Listeners ε) : Along (EmitsOnly SendsNoAck) (emitDisconnect L) :=
  Along.bind (EmitsOnly.record fun _ h => by cases h) fun _ => Along.bind (EmitsOnly.update _) fun _ =>
    Along.modify fun w => ⟨[], (List.append_nil _).symm, by simp⟩

theorem emits_connectionMade (now : ℚ) : Along (@EmitsOnly ε SendsNoAck) (connectionMade now) := by
  refine Along.bind (EmitsOnly.update _) fun _ => Along.get_bind fun w => ?_
  refine Along.lift_bind (fun rdy hrdy => ?_) w
  refine Along.bind (emits_send_other ⟨_, readU16_makeP2pRdy hrdy, by decide, by decide⟩ now) fun _ => ?_
  exact Along.bind (EmitsOnly.update _) fun _ => EmitsOnly.update _

theorem emits_timerTask {round : SessionM ε Unit} (hround : Along (EmitsOnly SendsNoAck) round)
    (f : Session → Session) : Along (EmitsOnly SendsNoAck) (timerTask round f) :=
  Along.bind (Along.attempt hround) fun _ => Along.ite (fun _ => EmitsOnly.update f) fun _ => Along.pure _

theorem emits_sessTimerRound (L : Listeners ε) (now : ℚ) : Along (EmitsOnly SendsNoAck) (sessTimerRound L now) := by
  have hend : Along (EmitsOnly SendsNoAck) (do
      emitDisconnect L
      update fun s => { s with sessTimer := false }) :=
    Along.bind (emits_emitDisconnect L) fun _ => EmitsOnly.update _
  have hrest := fun c : Prop => fun [Decidable c] =>
    Along.ite (c := c) (fun _ => hend) fun _ => Along.pure (R := EmitsOnly SendsNoAck) ()
  refine Along.get_bind fun w => Along.ite (fun _ => Along.ite (fun _ => ?_) fun _ => hrest _) (fun _ => Along.pure _) w
  refine Along.lift_bind fun msg hmsg => Along.bind (emits_send_other ?_ now) fun _ => hrest _
  obtain rfl := Except.ok.inj hmsg
  exact ⟨Command.p2pAlive.code, rfl, by decide, by decide⟩

theorem emits_resendEntry (now : ℚ) {e : ℕ × Unacked} {buf : Bytes} {id : ℕ} (hdata : e.2.data = DV.ofBytes buf)
    (hbuf : IsCommand buf id) : Along (@EmitsOnly ε SendsNoAck) (resendEntry now e) := by
  obtain ⟨k, ts, data⟩ := e
  dsimp only at hdata
  subst hdata
  have hlen := hbuf.length
  refine Along.ite (fun _ => ?_) fun _ => Along.pure _
  refine Along.bind (Along.lift _) fun _ => Along.get_bind fun w => Along.lift_bind (fun data hdata => ?_) w
  obtain rfl : DV.ofBytes (withId w.session.outgoingCommandId buf) = data :=
    Except.ok.inj (((DV.via_writeU16 buf 6 _).trans (if_pos (by omega))).symm.trans hdata)
  refine Along.bind (EmitsOnly.update _) fun _ => Along.bind (EmitsOnly.update _) fun _ => ?_
  exact emits_send_built ⟨_, _, rfl, hbuf.withId _⟩ now

/-- Every packet that waits for its acknowledgement is a command. -/
def PendingCommands (s : Session) : Prop :=
  ∀ e ∈ s.unackedDrw.entries, ∃ buf id, e.2.data = DV.ofBytes buf ∧ IsCommand buf id

theorem emits_resendTimer (now : ℚ) {w : World ε} (hpending : PendingCommands w.session) :
    EmitsOnly SendsNoAck w (final (resendTimer now) w) := by
  have hround : EmitsOnly SendsNoAck w (final (resendTimerRound now) w) := by
    unfold resendTimerRound
    rw [final, get_bind_apply, ← final]
    refine Along.forM (R := EmitsOnly SendsNoAck) (fun e he => ?_) w
    obtain ⟨buf, id, hdata, hbuf⟩ := hpending e he
    exact emits_resendEntry now hdata hbuf
  have hend : ∀ w' : World ε, EmitsOnly SendsNoAck w w' →
      EmitsOnly SendsNoAck w { w' with session := { w'.session with resendTimer := false } } := fun _ h => h
  rw [final] at hround
  cases hrun : resendTimerRound now w with
  | ok a w' =>
    rw [hrun] at hround
    rw [resendTimer, timerTask_ok hrun]
    exact hround
  | error e w' =>
    rw [hrun] at hround
    rw [resendTimer, timerTask_error hrun]
    exact hend w' hround

/-! ### Answers -/

variable {L : Listeners ε}

theorem emits_handlers (config : Config) (now : ℚ) {cmd : Command} (hdrw : cmd ≠ .drw)
    (hclose : cmd ≠ .close) (dv : DV) : Along (EmitsOnly SendsNoAck) (CamReverse.handlers config L now cmd dv) := by
  cases cmd with
  | drw => exact absurd rfl hdrw
  | close => exact absurd rfl hclose
  | p2pAlive =>
    refine Along.lift_bind fun ack hack => emits_send_other ?_ now
    obtain rfl := Except.ok.inj hack
    exact ⟨Command.p2pAliveAck.code, rfl, by decide, by decide⟩
  | p2pRdy =>
    refine Along.bind_yields (P := IsBuilt) ?_ ?_ fun msg hmsg => emits_send_built hmsg now
    · exact along_sendUsrChk (EmitsOnly.update _) _ _
    · exact Yields.behind fun _ => Yields.behind fun _ => yields_makeDataReadWrite _ _
  | drwAck =>
    exact Along.bind (Along.lift _) fun _ => Along.forM fun _ _ => Along.bind (Along.lift _) fun _ => EmitsOnly.update _
  | p2pAliveAck => exact Along.pure _
  | _ => exact Handles.notImpl _

/-- What becomes of a datagram. -/
def Callback.acks (s : Session) : Callback → List Bytes
  | .datagram _ msg => if s.transport = .opened ∧ AsksForAck msg then [drwAckFor msg] else []
  | _ => []

/-- **A packet** is acknowledged if it asks for it, and once. -/
theorem acks_dispatch (hL : L.NoAcks) (config : Config) (now : ℚ) (msg : Bytes) {w : World ε}
    (hopened : w.session.transport = .opened) :
    (final (dispatch config L now (DV.ofBytes msg)) w).events.filterMap Event.drwAck =
      w.events.filterMap Event.drwAck ++ if AsksForAck msg then [drwAckFor msg] else [] := by
  have hacked (hlen : 8 ≤ msg.length) : (acknowledged msg w).events.filterMap Event.drwAck =
      w.events.filterMap Event.drwAck ++ [drwAckFor msg] := by
    have hwire : ackEvents msg w = [.sent (drwAckFor msg)] := by
      rw [ackEvents, makeDrwAck_bytes hlen]
      exact if_pos hopened
    rw [acknowledged, hwire, List.filterMap_append]
    rfl
  cases hcmd : commandOf msg with
  | none =>
    have hnot : ¬AsksForAck msg := by
      rw [AsksForAck, hcmd]
      simp
    rw [dispatch_of_none hcmd, if_neg hnot, List.append_nil]
  | some cmd =>
    obtain ⟨raw, hrun⟩ := dispatch_of_command hcmd config L now
    rw [hrun, final_bind_pure]
    by_cases hasks : AsksForAck msg
    · rw [if_pos hasks, ← hacked hasks.1]
      rcases hasks with ⟨hlen, hdrw | hclose⟩
      · obtain rfl := Option.some.inj (hcmd.symm.trans hdrw)
        show (final (handleDrw config L now (DV.ofBytes msg)) w).events.filterMap Event.drwAck = _
        rw [final, handleDrw_apply config L now hlen, ← final]
        exact drwAcks_of_emitsOnly (hL.drwRest config now (DV.ofBytes msg) (acknowledged msg w))
      · obtain rfl := Option.some.inj (hcmd.symm.trans hclose)
        show (final (handleClose L now (DV.ofBytes msg)) w).events.filterMap Event.drwAck = _
        have hsent : final (handleClose L now (DV.ofBytes msg)) w = final (close L) (acknowledged msg w) := by
          obtain ⟨ack, hack, hraw⟩ := makeDrwAck_ok hlen
          unfold handleClose acknowledged ackEvents
          rw [hack, liftM_eq_lift, lift_ok_bind, final, bind_ok (send_other now hraw (by decide) w)]
          rfl
        rw [hsent]
        exact drwAcks_of_emitsOnly (emits_emitDisconnect L (acknowledged msg w))
    · rw [if_neg hasks, List.append_nil]
      by_cases hhandled : cmd = .drw ∨ cmd = .close
      · -- without an id the handler raises
        have hlen : ¬8 ≤ msg.length := fun hlen =>
          hasks ⟨hlen, hhandled.imp (fun h => hcmd.trans (congrArg some h)) fun h => hcmd.trans (congrArg some h)⟩
        rcases hhandled with rfl | rfl
        · show (final (handleDrw config L now (DV.ofBytes msg)) w).events.filterMap Event.drwAck = _
          rw [handleDrw_eq]
          rw [makeDrwAck_error hlen]
          rfl
        · show (final (handleClose L now (DV.ofBytes msg)) w).events.filterMap Event.drwAck = _
          unfold handleClose
          rw [makeDrwAck_error hlen]
          rfl
      · obtain ⟨hdrw, hclose⟩ := not_or.1 hhandled
        exact drwAcks_of_emitsOnly (emits_handlers config now hdrw hclose (DV.ofBytes msg) w)

/-- **A callback** acknowledges the packet it brings, if it brings one that asks for it, and nothing else. -/
theorem acks_callback (hL : L.NoAcks) (now : ℚ) {w : World ε} (hpending : PendingCommands w.session) (c : Callback) :
    (callback L now w c).events.filterMap Event.drwAck =
      w.events.filterMap Event.drwAck ++ c.acks w.session := by
  by_cases hdue : c.due w.session = true
  · unfold callback
    rw [if_pos hdue]
    cases c with
    | datagram config msg =>
      have hopened : w.session.transport = .opened := of_decide_eq_true hdue
      obtain ⟨last, hfinal⟩ := handleIncoming_final config L now msg w
      dsimp only
      rw [hfinal, Callback.acks, acks_dispatch hL config now msg hopened]
      simp only [hopened, true_and]
    | ready => exact (drwAcks_of_emitsOnly (emits_connectionMade now w)).trans (List.append_nil _).symm
    | sessTick =>
      exact (drwAcks_of_emitsOnly (emits_timerTask (emits_sessTimerRound L now) _ w)).trans (List.append_nil _).symm
    | resendTick => exact (drwAcks_of_emitsOnly (emits_resendTimer now hpending)).trans (List.append_nil _).symm
    | close => exact (drwAcks_of_emitsOnly (emits_emitDisconnect L w)).trans (List.append_nil _).symm
  · have hnone : c.acks w.session = [] := by
      cases c with
      | datagram config msg =>
        refine if_neg fun h => hdue ?_
        exact decide_eq_true h.1
      | _ => rfl
    rw [callback_of_not_due (Bool.not_eq_true _ ▸ hdue), hnone, List.append_nil]

end CamReverse
