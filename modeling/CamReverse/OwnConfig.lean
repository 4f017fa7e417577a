import CamReverse.Lifecycle

/-!
# What a session reads of the configuration

The configuration reaches a session with the datagrams it handles. All it reads there is `fix_packet_loss` of the camera
it is named after (`callback_config`), and it keeps its name (`Listeners.KeepName.callback`).
-/

namespace CamReverse

open Effect

variable {ε : Type}

/-! ### The name -/

/-- From `w` to `w'` the session keeps its name. -/
def SameName (w w' : World ε) : Prop := w'.session.devName = w.session.devName

instance : IsPreorder (World ε) SameName where
  refl _ := rfl
  trans _ _ _ h h' := h'.trans h

theorem sameName_update {f : Session → Session} (h : ∀ s, (f s).devName = s.devName) :
    Along (@SameName ε) (update f) := fun w => h w.session

theorem sameName_record (ev : Event) : Along (@SameName ε) (record ev) := fun _ => rfl

theorem sameName_send (now : ℚ) (msg : DV) : Along (@SameName ε) (send now msg) := fun w => by
  obtain ⟨t, evs, hsend, -⟩ := send_final now msg w
  rw [hsend]
  rfl

theorem sameName_inApp (m : EStateM PyErr ε Unit) : Along (@SameName ε) (inApp m) := fun w => by
  unfold inApp
  rw [final_onPart]
  rfl

/-- A caller whose listeners leave the name of the session alone. -/
structure Listeners.KeepName (L : Listeners ε) : Prop where
  login : Along SameName L.login
  listWifi : ∀ items, Along SameName (L.listWifi items)

theorem sameName_startVideoStream (now : ℚ) : Along (@SameName ε) (startVideoStream now) :=
  along_startVideoStream (sameName_update fun _ => rfl) (sameName_send now)

namespace Listeners.KeepName

variable {L : Listeners ε} (hL : L.KeepName)
include hL

theorem handles : Handles L SameName where
  count := sameName_update fun _ => rfl
  assemble h := sameName_update fun s => by
    obtain ⟨image, id, bad, fixed, hf⟩ := h s
    rw [hf]
  emitFrame := Along.get_bind fun w => Along.bind (sameName_record _) (fun _ => sameName_inApp _) w
  emitAudio data := Along.bind (sameName_record _) fun _ => sameName_inApp _
  emitListWifi items := Along.bind (sameName_record _) fun _ => hL.listWifi items
  forget id := sameName_update fun _ => rfl
  send := sameName_send

omit hL in
theorem emitDisconnect (L : Listeners ε) : Along SameName (emitDisconnect L) := by
  refine Along.bind (sameName_record _) fun _ => Along.bind (sameName_update fun s => ?_) fun _ =>
    Along.modify fun _ => rfl
  unfold onDisconnect
  split_ifs <;> rfl

theorem dispatch (config : Config) (now : ℚ) (dv : DV) : Along SameName (dispatch config L now dv) :=
  hL.handles.dispatch config now
    (fun _ _ _ _ => Along.bind (sameName_update fun _ => rfl) fun _ =>
      Along.bind (sameName_record _) fun _ => hL.login)
    fun _ => emitDisconnect L

omit hL in
theorem timerTask {round : SessionM ε Unit} (h : Along SameName round) {onEnd : Session → Session}
    (hend : ∀ s, (onEnd s).devName = s.devName) : Along SameName (timerTask round onEnd) :=
  Along.bind h.attempt fun _ => Along.ite (fun _ => sameName_update hend) fun _ => Along.pure _

omit hL in
theorem sessTimer (L : Listeners ε) (now : ℚ) : Along SameName (sessTimer L now) := by
  have htimeout : Along SameName (do
      CamReverse.emitDisconnect L
      update fun s => { s with sessTimer := false }) :=
    Along.bind (emitDisconnect L) fun _ => sameName_update fun _ => rfl
  refine timerTask (Along.get_bind fun w => ?_) fun _ => rfl
  refine Along.ite (fun _ => ?_) (fun _ => Along.pure _) w
  refine Along.ite (fun _ => Along.bind (Along.lift _) fun _ => Along.bind (sameName_send now _) fun _ => ?_)
    fun _ => ?_ <;>
    exact Along.ite (fun _ => htimeout) fun _ => Along.pure _

omit hL in
theorem resendTimer (now : ℚ) : Along (@SameName ε) (resendTimer now) := by
  refine timerTask (Along.get_bind fun w => ?_) fun _ => rfl
  refine Along.forM (fun entry _ => Along.ite (fun _ => ?_) fun _ => Along.pure _) w
  refine Along.bind (Along.lift _) fun _ => Along.get_bind fun w => Along.bind (Along.lift _) (fun data => ?_) w
  exact Along.bind (sameName_update fun _ => rfl) fun _ => Along.bind (sameName_update fun _ => rfl) fun _ =>
    sameName_send now data

theorem callback (now : ℚ) (w : World ε) (c : Callback) : SameName w (callback L now w c) := by
  unfold CamReverse.callback
  split_ifs
  · cases c with
    | ready =>
      have hready : Along (@SameName ε) (connectionMade now) := by
        refine Along.bind (sameName_update fun _ => rfl) fun _ => Along.get_bind fun w => ?_
        refine Along.bind (Along.lift _) (fun msg => Along.bind (sameName_send now msg) fun _ => ?_) w
        exact Along.bind (sameName_update fun _ => rfl) fun _ => sameName_update fun _ => rfl
      exact hready w
    | datagram config msg =>
      have hdatagram : Along SameName (handleIncoming config L now msg) := by
        refine Along.bind (hL.dispatch config now (DV.ofBytes msg)).attempt fun handled => ?_
        cases handled with
        | none => exact Along.pure _
        | some raw => exact Along.ite (fun _ => sameName_update fun _ => rfl) fun _ => Along.pure _
      exact hdatagram w
    | sessTick => exact sessTimer L now w
    | resendTick => exact resendTimer now w
    | close => exact emitDisconnect L w
  · exact refl_of SameName w

end Listeners.KeepName

theorem callback_dev {L : Listeners ε} (hL : L.Orderly) (now : ℚ) (w : World ε) (c : Callback) :
    (callback L now w c).session.dev = w.session.dev := by
  by_cases hready : c = .ready
  · subst hready
    by_cases habsent : w.session.transport = .absent
    · obtain ⟨evs, running, -, -, -, hlife⟩ := callback_ready habsent L now
      exact congrArg Life.dev hlife
    · rw [callback_of_not_due (c := .ready) (decide_eq_false habsent)]
  · obtain ⟨evs, -, -, hends, -⟩ := callback_events hL now w hready
    exact hends.dev.trans (wanes_hear w.session.life evs).dev

/-! ### What is read -/

theorem bind_congr_final {σ α β : Type} {m : EStateM PyErr σ α} {k k' : α → EStateM PyErr σ β} {s : σ}
    (h : ∀ a, k a (final m s) = k' a (final m s)) : (m >>= k) s = (m >>= k') s := by
  cases hm : m s with
  | ok a t =>
    have hnext := h a
    rw [final, hm] at hnext
    rw [bind_ok hm, bind_ok hm]
    exact hnext
  | error e t => rw [bind_error hm, bind_error hm]

theorem lift_bind_congr {σ α β : Type} {x : Except PyErr α} {k k' : α → EStateM PyErr σ β} {s : σ}
    (h : ∀ a, k a s = k' a s) : (lift x >>= k) s = (lift x >>= k') s :=
  bind_congr_final fun a => by rw [final_lift, h a]

theorem ite_congr_apply {σ α : Type} {c : Prop} [Decidable c] {m m' : EStateM PyErr σ α} {n n' : EStateM PyErr σ α}
    {s : σ} (h : m s = m' s) (h' : n s = n' s) : (if c then m else n) s = (if c then m' else n') s := by
  split
  · exact h
  · exact h'

variable {config config' : Config} {w : World ε}

theorem continueFrame_config (h : fixPacketLoss config w.session.devName = fixPacketLoss config' w.session.devName)
    (pktId : ℕ) (b : Bytes) : continueFrame config pktId b w = continueFrame config' pktId b w := by
  unfold continueFrame
  rw [get_bind_apply, get_bind_apply, h]

theorem dealWithData_config (L : Listeners ε)
    (h : fixPacketLoss config w.session.devName = fixPacketLoss config' w.session.devName) (dv : DV) :
    dealWithData config L dv w = dealWithData config' L dv w := by
  refine lift_bind_congr fun pktLen => ite_congr_apply rfl (lift_bind_congr fun pktId => ?_)
  exact ite_congr_apply rfl (ite_congr_apply rfl (continueFrame_config h _ _))

theorem handleDrw_config (L : Listeners ε) (now : ℚ)
    (h : fixPacketLoss config w.session.devName = fixPacketLoss config' w.session.devName) (dv : DV) :
    handleDrw config L now dv w = handleDrw config' L now dv w := by
  refine lift_bind_congr fun ack => bind_congr_final fun _ => lift_bind_congr fun mStream => ite_congr_apply ?_ rfl
  have hname : (final (send now ack) w).session.devName = w.session.devName := sameName_send now ack w
  refine dealWithData_config L ?_ dv
  rw [hname]
  exact h

theorem dispatch_config (L : Listeners ε) (now : ℚ)
    (h : fixPacketLoss config w.session.devName = fixPacketLoss config' w.session.devName) (dv : DV) :
    dispatch config L now dv w = dispatch config' L now dv w := by
  refine lift_bind_congr fun raw => ?_
  cases commandsByValue raw with
  | none => rfl
  | some cmd =>
    cases cmd with
    | drw =>
      show (handleDrw config L now dv >>= fun _ => pure raw) w = (handleDrw config' L now dv >>= fun _ => pure raw) w
      have hdrw := handleDrw_config L now h dv
      cases hrun : handleDrw config L now dv w with
      | ok a t => rw [bind_ok hrun, bind_ok (hdrw ▸ hrun)]
      | error e t => rw [bind_error hrun, bind_error (hdrw ▸ hrun)]
    | _ => rfl

/-- **All a datagram reads of the configuration** is `fix_packet_loss` of its session's camera. -/
theorem callback_config (L : Listeners ε) (now : ℚ)
    (h : fixPacketLoss config w.session.devName = fixPacketLoss config' w.session.devName) (msg : Bytes) :
    callback L now w (.datagram config msg) = callback L now w (.datagram config' msg) := by
  unfold callback
  refine if_congr Iff.rfl ?_ rfl
  have hattempt : attempt (dispatch config L now (DV.ofBytes msg)) w =
      attempt (dispatch config' L now (DV.ofBytes msg)) w := by
    unfold attempt
    rw [dispatch_config L now h]
  show final (handleIncoming config L now msg) w = final (handleIncoming config' L now msg) w
  rw [handleIncoming_eq, handleIncoming_eq]
  unfold final
  cases hrun : attempt (dispatch config L now (DV.ofBytes msg)) w with
  | ok a t => rw [bind_ok hrun, bind_ok (hattempt ▸ hrun)]
  | error e t => rw [bind_error hrun, bind_error (hattempt ▸ hrun)]

end CamReverse
