import CamReverse.Frames.Receive
import CamReverse.Timeout

/-!
# The end of a session

`handle_close` acknowledges a Close packet like a data packet before it closes the session, and the
acknowledgement needs 8 bytes: a Close packet closes exactly if it is that long (`close_packet_closes_iff`).

A disconnect stops the timers and the transport that exist at that instant. An endpoint that becomes ready later
starts them again, and `close` emits `disconnect` whenever it is called; without these two a disconnected session
stays silent (`disconnected_final_iff`).
-/

namespace CamReverse

open Effect

variable {ε : Type}

/-! ### Close packets -/

/-- From `w` to `w'` the session was closed and the `disconnect` listeners have run. -/
structure ClosedBy (L : Listeners ε) (w w' : World ε) : Prop where
  connected : w'.session.connected = false
  sessTimer : w'.session.sessTimer = false
  resendTimer : w'.session.resendTimer = false
  transport : w'.session.transport = if w.session.transport = .absent then .absent else .closed
  emitted : .disconnect ∈ w'.events.drop w.events.length
  listeners : w'.app = L.disconnect w.app

theorem readU16_close {msg : Bytes} (h : msg.take 2 = [0xf1, 0xf0]) :
    (DV.ofBytes msg).readU16 = .ok Command.close.code := by
  have hlen : 2 ≤ msg.length := by
    have := congrArg List.length h
    simp only [List.length_take, List.length_cons, List.length_nil] at this
    omega
  have hread := DV.readU16_ofBytes msg 0
  rw [if_pos (by omega), Bytes.field, List.drop_zero, h] at hread
  exact hread

theorem dispatch_close {msg : Bytes} (h : (DV.ofBytes msg).readU16 = .ok Command.close.code)
    (config : Config) (L : Listeners ε) (now : ℚ) (w : World ε) :
    final (dispatch config L now (DV.ofBytes msg)) w =
      if 8 ≤ msg.length then final (emitDisconnect L) { w with events := w.events ++ ackEvents msg w }
      else w := by
  have hclose : commandsByValue Command.close.code = some .close := commandsByValue_code .close
  rw [dispatch_eq]
  rw [h]
  simp only [liftM_eq_lift, lift_ok_bind, hclose]
  rw [final_bind_pure]
  show final (handleClose L now (DV.ofBytes msg)) w = _
  unfold handleClose ackEvents
  split_ifs with hlen
  · obtain ⟨ack, hack, hraw⟩ := makeDrwAck_ok hlen
    rw [hack]
    simp only [liftM_eq_lift, lift_ok_bind]
    rw [final, bind_ok (send_other now hraw (by decide) w)]
    rfl
  · rw [makeDrwAck_error hlen]
    rfl

/-- **A Close packet closes** a connected session exactly if it has at least 8 bytes. -/
theorem close_packet_closes_iff (L : Listeners ε) (w : World ε) (config : Config) (now : ℚ) (msg : Bytes)
    (hconnected : w.session.connected = true) (hmsg : msg.take 2 = [0xf1, 0xf0]) :
    ClosedBy L w (final (handleIncoming config L now msg) w) ↔ 8 ≤ msg.length := by
  obtain ⟨last, hfinal⟩ := handleIncoming_final config L now msg w
  rw [dispatch_close (readU16_close hmsg)] at hfinal
  rw [hfinal]
  split_ifs with hlen
  · refine iff_of_true ?_ hlen
    have hsession : (final (emitDisconnect L) { w with events := w.events ++ ackEvents msg w }).session =
        onDisconnect w.session := rfl
    unfold onDisconnect at hsession
    rw [if_pos hconnected] at hsession
    refine ⟨?_, ?_, ?_, ?_, ?_, rfl⟩
    · simp only [hsession]
    · simp only [hsession]
    · simp only [hsession]
    · simp only [hsession]
    · show Event.disconnect ∈ (w.events ++ ackEvents msg w ++ [Event.disconnect]).drop w.events.length
      simp [List.append_assoc]
  · refine iff_of_false (fun h => ?_) hlen
    have hstill := h.connected
    simp only [hconnected] at hstill
    cases hstill

/-- A Close packet of 8 bytes. -/
theorem close_packet_closes_iff_eight :
    (opened oneCamera).session.connected = true ∧
      ClosedBy .absent (opened oneCamera)
        (final (handleIncoming defaultConfig .absent 0 [0xf1, 0xf0, 0, 4, 0, 0, 0, 0]) (opened oneCamera)) :=
  ⟨rfl, (close_packet_closes_iff .absent (opened oneCamera) defaultConfig 0 _ rfl rfl).2 (by decide)⟩

/-- The packet `create_P2pClose` builds does not close a session. -/
theorem close_packet_dropped :
    createP2pClose = .ok (DV.ofBytes [0xf1, 0xf0, 0, 0]) ∧
      ¬ClosedBy .absent (opened oneCamera)
        (final (handleIncoming defaultConfig .absent 0 [0xf1, 0xf0, 0, 0]) (opened oneCamera)) := by
  refine ⟨by decide, fun h => ?_⟩
  have hstill : (final (handleIncoming defaultConfig .absent 0 [0xf1, 0xf0, 0, 0])
      (opened oneCamera)).session.connected = true := by decide +kernel
  rw [h.connected] at hstill
  cases hstill

/-! ### What a callback emits -/

/-- From `w` to `w'` the session emitted no disconnect and its life did not change. -/
def StaysUp (w w' : World ε) : Prop :=
  ∃ evs, .disconnect ∉ evs ∧ w'.events = w.events ++ evs ∧ w'.session.life = w.session.life

instance : IsPreorder (World ε) StaysUp where
  refl w := ⟨[], List.not_mem_nil, (List.append_nil _).symm, rfl⟩
  trans := by
    rintro w₁ w₂ w₃ ⟨evs, hno, hevs, hlife⟩ ⟨evs', hno', hevs', hlife'⟩
    refine ⟨evs ++ evs', ?_, by rw [hevs', hevs, List.append_assoc], hlife'.trans hlife⟩
    rw [List.mem_append]
    exact fun h => h.elim hno hno'

theorem StaysUp.of_onlySends {w w' : World ε} (h : OnlySends w w') : StaysUp w w' := by
  obtain ⟨evs, hsent, hevs, hlife, -⟩ := h
  refine ⟨evs, fun hmem => ?_, hevs, hlife⟩
  obtain ⟨m, hm⟩ := hsent _ hmem
  cases hm

/-- A caller whose `login` and `ListWifi` listeners do not close the session. -/
structure Listeners.Staying (L : Listeners ε) : Prop where
  login : Along StaysUp L.login
  listWifi : ∀ items, Along StaysUp (L.listWifi items)

theorem staysUp_event {ev : Event} (h : ev ≠ .disconnect) : Along (@StaysUp ε) (record ev) := fun _ =>
  ⟨[ev], fun hmem => h (List.mem_singleton.1 hmem).symm, rfl, rfl⟩

theorem staysUp_inApp (m : EStateM PyErr ε Unit) : Along StaysUp (inApp m) := fun w => by
  rw [inApp, final_onPart]
  exact ⟨[], List.not_mem_nil, (List.append_nil _).symm, rfl⟩

theorem staysUp_respects {L : Listeners ε} (hL : L.Staying) : Respects L StaysUp where
  update h w := StaysUp.of_onlySends (onlySends_update h w)
  send now msg w := StaysUp.of_onlySends (onlySends_send now msg w)
  emitFrame := Along.get_bind fun w =>
    Along.bind (staysUp_event (by simp)) (fun _ => staysUp_inApp (L.frame w.session.curImage)) w
  emitAudio data := Along.bind (staysUp_event (by simp)) fun _ => staysUp_inApp (L.audio data)
  emitLogin := Along.bind (staysUp_event (by simp)) fun _ => hL.login
  emitListWifi items := Along.bind (staysUp_event (by simp)) fun _ => hL.listWifi items

/-- From `w` to `w'` the session either stays as it is, or its last act is a disconnect. -/
def ClosesLast (w w' : World ε) : Prop :=
  ∃ evs, .disconnect ∉ evs ∧
    (w'.events = w.events ++ evs ∧ w'.session.connected = w.session.connected ∨
      w'.events = w.events ++ evs ++ [.disconnect] ∧ w'.session.connected = false ∧
        w'.session.sessTimer = false ∧ w'.session.resendTimer = false ∧ w'.session.transport ≠ .opened)

theorem StaysUp.closesLast {w w' : World ε} (h : StaysUp w w') : ClosesLast w w' := by
  obtain ⟨evs, hno, hevs, hlife⟩ := h
  exact ⟨evs, hno, .inl ⟨hevs, congrArg Life.connected hlife⟩⟩

theorem closesLast_onDisconnect {w w' : World ε} (hconnected : w.session.connected = true) {evs : List Event}
    (hno : .disconnect ∉ evs) (hevs : w'.events = w.events ++ evs ++ [.disconnect])
    (hlife : (w.session.life.disconnected).EndsTasks w'.session.life) : ClosesLast w w' := by
  have hdown : w.session.life.disconnected = { w.session.life with
      connected := false
      sessTimer := false
      resendTimer := false
      transport := if w.session.transport = .absent then .absent else .closed } := by
    rw [Life.disconnected, if_pos (show w.session.life.connected = true from hconnected)]
    rfl
  rw [hdown] at hlife
  refine ⟨evs, hno, .inr ⟨hevs, hlife.connected, ?_, ?_, ?_⟩⟩
  · exact Bool.eq_false_iff.2 fun h => absurd (hlife.sessTimer h) Bool.false_ne_true
  · exact Bool.eq_false_iff.2 fun h => absurd (hlife.resendTimer h) Bool.false_ne_true
  · rw [show w'.session.transport = _ from hlife.transport]
    simp only
    split_ifs <;> decide

theorem ackEvents_sent (msg : Bytes) (w : World ε) : ∀ ev ∈ ackEvents msg w, ∃ m, ev = .sent m := by
  intro ev hev
  unfold ackEvents at hev
  split at hev
  · exact wired_sent w _ ev hev
  · cases hev

theorem not_disconnect_of_sent {evs : List Event} (h : ∀ ev ∈ evs, ∃ m, ev = .sent m) :
    .disconnect ∉ evs := fun hmem => by
  obtain ⟨m, hm⟩ := h _ hmem
  cases hm

theorem closesLast_datagram {L : Listeners ε} (hL : L.Staying) (config : Config) (now : ℚ) (msg : Bytes)
    {w : World ε} (hconnected : w.session.connected = true) :
    ClosesLast w (final (handleIncoming config L now msg) w) := by
  obtain ⟨last, hfinal⟩ := handleIncoming_final config L now msg w
  rw [hfinal]
  by_cases hclose : (DV.ofBytes msg).readU16 = .ok Command.close.code
  · rw [dispatch_close hclose]
    split_ifs with hlen
    · refine closesLast_onDisconnect hconnected (not_disconnect_of_sent (ackEvents_sent msg w)) rfl ?_
      rw [← life_onDisconnect]
      exact ⟨rfl, rfl, rfl, rfl, rfl, id, id⟩
    · exact ⟨[], List.not_mem_nil, .inl ⟨(List.append_nil _).symm, rfl⟩⟩
  · obtain ⟨evs, hno, hevs, hlife⟩ := (staysUp_respects hL).dispatch config now (DV.ofBytes msg)
      (fun hraw => absurd hraw hclose) w
    exact ⟨evs, hno, .inl ⟨hevs, congrArg Life.connected hlife⟩⟩

/-- **A connected session** goes silent the moment it disconnects. -/
theorem closesLast_callback {L : Listeners ε} (hL : L.Staying) (now : ℚ) {w : World ε}
    (hconnected : w.session.connected = true) (c : Callback) : ClosesLast w (callback L now w c) := by
  cases hdue : c.due w.session with
  | false =>
    rw [callback_of_not_due hdue]
    exact (refl_of StaysUp w).closesLast
  | true =>
    cases c with
    | ready =>
      have habsent : w.session.transport = .absent := by simpa [Callback.due] using hdue
      obtain ⟨evs, running, hsent, hevs, -, hlife⟩ := callback_ready habsent L now
      exact ⟨evs, not_disconnect_of_sent hsent, .inl ⟨hevs, congrArg Life.connected hlife⟩⟩
    | datagram config msg =>
      unfold callback
      rw [if_pos hdue]
      exact closesLast_datagram hL config now msg hconnected
    | sessTick =>
      unfold callback
      rw [if_pos hdue]
      obtain ⟨evs, hsent, hfinal⟩ := sessTimer_final L now w
      have hno := not_disconnect_of_sent hsent
      simp only [hfinal]
      split_ifs with hlate
      · refine closesLast_onDisconnect hconnected hno rfl ?_
        rw [← life_onDisconnect]
        exact ⟨rfl, rfl, rfl, rfl, rfl, fun h => absurd h Bool.false_ne_true, id⟩
      · exact ⟨evs, hno, .inl ⟨rfl, rfl⟩⟩
    | resendTick =>
      unfold callback
      rw [if_pos hdue]
      obtain ⟨w', running, ⟨evs, hsent, hevs, hlife, -⟩, hfinal⟩ := resendTimer_final now w
      simp only [hfinal]
      exact ⟨evs, not_disconnect_of_sent hsent, .inl ⟨hevs, congrArg Life.connected hlife⟩⟩
    | close =>
      unfold callback
      rw [if_pos hdue]
      have hnone : Event.disconnect ∉ ([] : List Event) := List.not_mem_nil
      refine closesLast_onDisconnect hconnected hnone ?_ ?_
      · show w.events ++ [.disconnect] = w.events ++ [] ++ [.disconnect]
        rw [List.append_nil]
      · rw [← life_onDisconnect]
        exact Life.EndsTasks.refl _

/-! ### Disconnected is final -/

/-- A disconnected session has no task running and no open transport, and after its `disconnect` it emitted
no other and sent nothing. -/
structure Final (w : World ε) : Prop where
  told : w.session.connected = false ↔ .disconnect ∈ w.events
  sessTimer : w.session.connected = false → w.session.sessTimer = false
  resendTimer : w.session.connected = false → w.session.resendTimer = false
  transport : w.session.connected = false → w.session.transport ≠ .opened
  silent : ∀ before after, w.events = before ++ .disconnect :: after →
    ∀ ev ∈ after, ev ≠ .disconnect ∧ ∀ m, ev ≠ .sent m

theorem final_start (s : Session) (hconnected : s.connected = true) (app : ε) : Final (World.start s app) := by
  have hnot : ¬(World.start s app).session.connected = false := by
    rw [show (World.start s app).session.connected = true from hconnected]
    decide
  exact {
    told := iff_of_false hnot List.not_mem_nil
    sessTimer := fun h => absurd h hnot
    resendTimer := fun h => absurd h hnot
    transport := fun h => absurd h hnot
    silent := fun before after h => absurd h (by simp [World.start]) }

def occur (L : ℚ → Listeners ε) (w : World ε) (o : Occurrence) : World ε :=
  callback (L o.now) o.now w o.callback

/-- A callback that brings a disconnected session back: its endpoint becomes ready, or `close` is called. -/
def Revives (w : World ε) (o : Occurrence) : Prop :=
  w.session.connected = false ∧
    (o.callback = .ready ∧ w.session.transport = .absent ∨ o.callback = .close)

theorem nil_of_last {α : Type} {xs before after : List α} {d : α} (hd : d ∉ xs)
    (h : xs ++ [d] = before ++ d :: after) : after = [] := by
  rcases List.eq_nil_or_concat after with hnil | ⟨after', e, rfl⟩
  · exact hnil
  · have hfront := congrArg List.dropLast h
    rw [List.dropLast_concat, List.concat_eq_append, ← List.cons_append, ← List.append_assoc,
      List.dropLast_concat] at hfront
    exact absurd (hfront ▸ List.mem_append_right _ List.mem_cons_self) hd

theorem Final.of_closesLast {w w' : World ε} (h : Final w) (hconnected : w.session.connected = true)
    (hlast : ClosesLast w w') : Final w' := by
  have hfresh : .disconnect ∉ w.events := fun hmem => by
    rw [h.told.2 hmem] at hconnected
    cases hconnected
  obtain ⟨evs, hno, ⟨hevs, hkept⟩ | ⟨hevs, hdown, hsess, hresend, htransport⟩⟩ := hlast
  · have hup : ¬w'.session.connected = false := by
      rw [hkept, hconnected]
      decide
    have hnone : .disconnect ∉ w'.events := by
      rw [hevs, List.mem_append]
      exact fun hmem => hmem.elim hfresh hno
    exact {
      told := iff_of_false hup hnone
      sessTimer := fun hd => absurd hd hup
      resendTimer := fun hd => absurd hd hup
      transport := fun hd => absurd hd hup
      silent := fun before after hsplit => absurd (hsplit ▸ List.mem_append_right _ List.mem_cons_self) hnone }
  · refine ⟨iff_of_true hdown (hevs ▸ List.mem_append_right _ (List.mem_singleton_self _)), fun _ => hsess,
      fun _ => hresend, fun _ => htransport, fun before after hsplit => ?_⟩
    -- the disconnect is the last event
    rw [hevs] at hsplit
    have hnone : .disconnect ∉ w.events ++ evs := by
      rw [List.mem_append]
      exact fun hmem => hmem.elim hfresh hno
    rw [nil_of_last hnone hsplit]
    exact fun ev hev => absurd hev List.not_mem_nil

theorem final_occur_iff {L : ℚ → Listeners ε} (hL : ∀ now, (L now).Staying) {w : World ε} (h : Final w)
    (o : Occurrence) : Final (occur L w o) ↔ ¬Revives w o := by
  cases hconnected : w.session.connected with
  | true =>
    refine iff_of_true (h.of_closesLast hconnected (closesLast_callback (hL o.now) o.now hconnected _)) ?_
    exact fun hrevives => absurd (hconnected.symm.trans hrevives.1) (by decide)
  | false =>
    obtain ⟨now, c⟩ := o
    by_cases hrevives : Revives w ⟨now, c⟩
    · refine iff_of_false (fun hfinal => ?_) (not_not.2 hrevives)
      obtain ⟨-, ⟨rfl, habsent⟩ | rfl⟩ := hrevives
      · obtain ⟨evs, running, -, -, -, hlife⟩ := callback_ready habsent (L now) now
        exact hfinal.transport ((congrArg Life.connected hlife).trans hconnected)
          (congrArg Life.transport hlife)
      · obtain ⟨before, after, hsplit⟩ := List.append_of_mem (h.told.1 hconnected)
        have hevs : (callback (L now) now w .close).events =
            before ++ .disconnect :: (after ++ [.disconnect]) := by
          show w.events ++ [.disconnect] = _
          rw [hsplit, List.append_assoc]
          rfl
        exact (hfinal.silent _ _ hevs _ (List.mem_append_right _ (List.mem_singleton_self _))).1 rfl
    · refine iff_of_true ?_ hrevives
      have hidle : c.due w.session = false := by
        have hsess := h.sessTimer hconnected
        have hresend := h.resendTimer hconnected
        have htransport := h.transport hconnected
        cases c with
        | ready => exact decide_eq_false fun habsent => hrevives ⟨hconnected, .inl ⟨rfl, habsent⟩⟩
        | datagram config msg => exact decide_eq_false htransport
        | sessTick => exact hsess
        | resendTick => exact hresend
        | close => exact absurd ⟨hconnected, .inr rfl⟩ hrevives
      rw [occur, callback_of_not_due hidle]
      exact h

/-- **Disconnected is final** in all states of a run exactly if none of its callbacks brings a disconnected
session back. -/
theorem disconnected_final_iff {L : ℚ → Listeners ε} (hL : ∀ now, (L now).Staying) (dev : DevSerial)
    (addr : String × ℕ) (timeoutMs : ℚ) (app : ε) (run : List Occurrence) :
    (∀ seen rest, run = seen ++ rest →
      Final (seen.foldl (occur L) (World.start (.init dev addr timeoutMs) app))) ↔
    Runs.Guarded (occur L) (fun w o => ¬Revives w o) (World.start (.init dev addr timeoutMs) app) run :=
  Runs.guarded_iff (J := fun _ => True) trivial (final_start _ rfl app) (fun _ _ _ => trivial)
    (fun _ o _ h => final_occur_iff hL h o) run

theorem staying_absent : (Listeners.absent : Listeners ε).Staying :=
  ⟨Along.pure _, fun _ => Along.pure _⟩

/-- A session that is closed while it runs. -/
theorem disconnected_final_iff_late :
    (Listeners.absent : Listeners Unit).Staying ∧
      Final ([⟨0, .ready⟩, ⟨1, .close⟩, ⟨400, .sessTick⟩].foldl (occur fun _ => .absent) oneCamera) := by
  refine ⟨staying_absent, (disconnected_final_iff (fun _ => staying_absent) _ _ 5000 () _).2 ?_ _ [] rfl⟩
  refine ⟨?_, ?_, ?_, trivial⟩
  · exact fun h => absurd h.1 (by decide)
  · exact fun h => absurd h.1 (by decide +kernel)
  · rintro ⟨-, ⟨h, -⟩ | h⟩ <;> cases h

/-- A session that is closed before its endpoint is ready starts its tasks and sends packets. -/
theorem revived_session :
    ([⟨0, .close⟩, ⟨1, .ready⟩].foldl (occur fun _ => .absent) oneCamera).session.connected = false ∧
      ([⟨0, .close⟩, ⟨1, .ready⟩].foldl (occur fun _ => .absent) oneCamera).events.length = 2 ∧
      ¬Final ([⟨0, .close⟩, ⟨1, .ready⟩].foldl (occur fun _ => .absent) oneCamera) := by
  have hdown : ([⟨0, .close⟩, ⟨1, .ready⟩].foldl (occur fun _ => .absent) oneCamera).session.connected =
    false := by decide +kernel
  refine ⟨hdown, by decide +kernel, fun h => ?_⟩
  have hrunning : ([⟨0, .close⟩, ⟨1, .ready⟩].foldl (occur fun _ => .absent) oneCamera).session.sessTimer =
    true := by decide +kernel
  rw [h.sessTimer hdown] at hrunning
  cases hrunning

end CamReverse
