import CamReverse.Lifecycle
import CamReverse.Lib.Commutes

/-!
# What a session does not see

A session reaches its caller's state through the listeners only. So where the listeners of one caller do on a part of
its state what those of another do (`Listeners.Mirror`), the sessions of both do the same and emit the same events
(`callback_through`). In particular a session does not see a change of the caller's state which the listeners do not see
(`callback_mapApp`).
-/

namespace CamReverse

open Effect

variable {ε ε' : Type}

def World.through (g : ε → ε') (w : World ε) : World ε' := ⟨w.session, g w.app, w.events⟩

/-- The listeners `L'` do on the images of `g` what the listeners `L` do. -/
structure Listeners.Mirror (L : Listeners ε) (g : ε → ε') (L' : Listeners ε') : Prop where
  frame : ∀ image, Mirrors g (L.frame image) (L'.frame image)
  audio : ∀ data, Mirrors g (L.audio data) (L'.audio data)
  disconnect : ∀ app, L'.disconnect (g app) = g (L.disconnect app)
  login : Mirrors (World.through g) L.login L'.login
  listWifi : ∀ items, Mirrors (World.through g) (L.listWifi items) (L'.listWifi items)

namespace Through

variable (g : ε → ε')

/-! ### Sending and building -/

theorem update (f : Session → Session) : Mirrors (World.through g) (update f) (update f) :=
  Mirrors.modify fun _ => rfl

theorem record (ev : Event) : Mirrors (World.through g) (record ev) (record ev) :=
  Mirrors.modify fun _ => rfl

theorem send (now : ℚ) (msg : DV) : Mirrors (World.through g) (send now msg) (send now msg) := by
  have hwire : Mirrors (World.through g)
      (do
        let w ← get
        if w.session.transport = .opened then
          CamReverse.record (.sent msg.toBytes))
      (do
        let w ← get
        if w.session.transport = .opened then
          CamReverse.record (.sent msg.toBytes)) :=
    Mirrors.get_bind fun w => Mirrors.ite (c := w.session.transport = .opened) (record g _) (Mirrors.pure _)
  refine (Mirrors.lift _).bind fun raw => (Mirrors.lift _).bind fun isCommand => ?_
  refine Mirrors.ite ?_ hwire
  exact (Mirrors.lift _).bind fun packetId => (update g _).bind fun _ => hwire

theorem makeDataReadWrite (command : ℕ) (data : Option DV) :
    Mirrors (World.through g) (makeDataReadWrite command data) (makeDataReadWrite command data) :=
  Mirrors.get_bind fun _ =>
    (Mirrors.lift _).bind fun _ => (update g _).bind fun _ => Mirrors.pure _

theorem startVideoStream (now : ℚ) : Mirrors (World.through g) (startVideoStream now) (startVideoStream now) := by
  refine ((Mirrors.lift _).bind fun payloads => ?_).bind fun pkts =>
    (Mirrors.forM fun _ _ => send g now _).bind fun _ => (makeDataReadWrite g _ _).bind fun _ => send g now _
  exact Mirrors.mapM fun _ _ => makeDataReadWrite g _ _

/-! ### Answering packets -/

variable {g} {L : Listeners ε} {L' : Listeners ε'} (hL : L.Mirror g L')
include hL

theorem emitFrame : Mirrors (World.through g) (emitFrame L) (emitFrame L') :=
  Mirrors.get_bind fun _ => (record g _).bind fun _ =>
    (hL.frame _).onPart (fun _ => rfl) fun _ _ => rfl

theorem emitAudio (data : Bytes) : Mirrors (World.through g) (emitAudio L data) (emitAudio L' data) :=
  (record g _).bind fun _ => (hL.audio data).onPart (fun _ => rfl) fun _ _ => rfl

theorem emitDisconnect : Mirrors (World.through g) (emitDisconnect L) (emitDisconnect L') :=
  (record g _).bind fun _ => (update g _).bind fun _ =>
    Mirrors.modify fun w => congrArg (fun app => (⟨w.session, app, w.events⟩ : World ε')) (hL.disconnect w.app)

theorem startNewFrame (pktId : ℕ) (buf : Bytes) :
    Mirrors (World.through g) (startNewFrame L pktId buf) (startNewFrame L' pktId buf) :=
  Mirrors.get_bind fun _ =>
    Mirrors.ite ((emitFrame hL).bind fun _ => update g _) (update g _)

omit hL in
theorem continueFrame (config : Config) (pktId : ℕ) (b : Bytes) :
    Mirrors (World.through g) (continueFrame config pktId b) (continueFrame config pktId b) := by
  refine Mirrors.get_bind fun w => Mirrors.ite (Mirrors.pure _) (Mirrors.ite ?_ (update g _))
  refine (update g _).bind fun _ => (Mirrors.lift _).bind fun fix =>
    Mirrors.ite (Mirrors.ite ?_ (Mirrors.pure _)) (Mirrors.pure _)
  rw [show (w.through g).session = w.session from rfl]
  cases spliceAtMarkers (w.session.curImage.getLast?.getD []) b with
  | some slices => exact update g _
  | none => exact Mirrors.pure _

theorem dealWithData (config : Config) (dv : DV) :
    Mirrors (World.through g) (dealWithData config L dv) (dealWithData config L' dv) := by
  refine (Mirrors.lift _).bind fun pktLen => Mirrors.ite (Mirrors.pure _) ((Mirrors.lift _).bind fun pktId => ?_)
  refine Mirrors.ite ((Mirrors.lift _).bind fun streamType => Mirrors.ite ?_ (Mirrors.ite ?_ (Mirrors.pure _))) ?_
  · exact (Mirrors.lift _).bind fun audioLen => emitAudio hL _
  · exact Mirrors.ite (startNewFrame hL _ _) (Mirrors.pure _)
  · exact Mirrors.ite (startNewFrame hL _ _) (continueFrame config _ _)

theorem createResponseForControlCommand (dv : DV) :
    Mirrors (World.through g) (createResponseForControlCommand L dv) (createResponseForControlCommand L' dv) := by
  refine (Mirrors.lift _).bind fun startType => (Mirrors.lift _).bind fun cmdId =>
    (Mirrors.lift _).bind fun payloadLen => Mirrors.ite (Mirrors.pure _) ((Mirrors.lift _).bind fun dv => ?_)
  refine Mirrors.ite ?_ (Mirrors.ite ?_ (Mirrors.ite ?_ (Mirrors.ite (Mirrors.ite (Mirrors.pure _) ?_)
    (Mirrors.pure _))))
  · exact (update g _).bind fun _ => ((record g _).bind fun _ => hL.login).bind fun _ => Mirrors.pure _
  · exact (Mirrors.lift _).bind fun _ => Mirrors.pure _
  · exact (Mirrors.lift _).bind fun _ => (makeDataReadWrite g _ _).bind fun _ => Mirrors.pure _
  · exact (Mirrors.lift _).bind fun items =>
      ((record g _).bind fun _ => hL.listWifi items).bind fun _ => Mirrors.pure _

theorem handlers (config : Config) (now : ℚ) (cmd : Command) (dv : DV) :
    Mirrors (World.through g) (handlers config L now cmd dv) (handlers config L' now cmd dv) := by
  cases cmd with
  | p2pAlive => exact (Mirrors.lift _).bind fun _ => send g now _
  | p2pRdy =>
    refine Mirrors.bind ?_ fun _ => send g now _
    exact (Mirrors.lift _).bind fun _ => (Mirrors.lift _).bind fun _ => makeDataReadWrite g _ _
  | drwAck =>
    refine (Mirrors.lift _).bind fun ackCount => Mirrors.forM fun _ _ => ?_
    exact (Mirrors.lift _).bind fun _ => update g _
  | drw =>
    refine (Mirrors.lift _).bind fun ack => (send g now ack).bind fun _ => (Mirrors.lift _).bind fun mStream => ?_
    refine Mirrors.ite (dealWithData hL config dv) (Mirrors.ite ?_ (Mirrors.pure _))
    exact (createResponseForControlCommand hL dv).bind fun pkts => Mirrors.forM fun _ _ => send g now _
  | close => exact (Mirrors.lift _).bind fun _ => (send g now _).bind fun _ => emitDisconnect hL
  | p2pAliveAck => exact Mirrors.pure _
  | _ => exact (Mirrors.lift _).bind fun _ => Mirrors.pure _

theorem dispatch (config : Config) (now : ℚ) (dv : DV) :
    Mirrors (World.through g) (dispatch config L now dv) (dispatch config L' now dv) := by
  refine (Mirrors.lift _).bind fun raw => ?_
  cases commandsByValue raw with
  | some cmd => exact (handlers hL config now cmd dv).bind fun _ => Mirrors.pure _
  | none => exact ((Mirrors.lift _).bind fun _ => Mirrors.pure _).bind fun _ => Mirrors.pure _

/-! ### The callbacks -/

theorem handleIncoming (config : Config) (now : ℚ) (msg : Bytes) :
    Mirrors (World.through g) (handleIncoming config L now msg) (handleIncoming config L' now msg) := by
  refine (dispatch hL config now _).attempt.bind fun handled => ?_
  cases handled with
  | none => exact Mirrors.pure _
  | some raw => exact Mirrors.ite (update g _) (Mirrors.pure _)

omit hL in
theorem timerTask {round : SessionM ε Unit} {round' : SessionM ε' Unit} (h : Mirrors (World.through g) round round')
    (onEnd : Session → Session) :
    Mirrors (World.through g) (timerTask round onEnd) (timerTask round' onEnd) :=
  h.attempt.bind fun _ => Mirrors.ite (update g _) (Mirrors.pure _)

theorem sessTimer (now : ℚ) : Mirrors (World.through g) (sessTimer L now) (sessTimer L' now) := by
  refine timerTask (Mirrors.get_bind fun _ => Mirrors.ite ?_ (Mirrors.pure _)) _
  -- the keep-alive, then the timeout
  refine Mirrors.ite ((Mirrors.lift _).bind fun _ => (send g now _).bind fun _ => ?_) ?_ <;>
    exact Mirrors.ite ((emitDisconnect hL).bind fun _ => update g _) (Mirrors.pure _)

omit hL in
theorem resendTimer (now : ℚ) : Mirrors (World.through g) (resendTimer now) (resendTimer now) := by
  refine timerTask (Mirrors.get_bind fun w => Mirrors.forM fun entry _ => ?_) _
  refine Mirrors.ite ((Mirrors.lift _).bind fun _ => ?_) (Mirrors.pure _)
  refine Mirrors.get_bind fun w => (Mirrors.lift _).bind fun data => ?_
  exact (update g _).bind fun _ => (update g _).bind fun _ => send g now data

omit hL in
theorem connectionMade (now : ℚ) : Mirrors (World.through g) (connectionMade now) (connectionMade now) :=
  (update g _).bind fun _ => Mirrors.get_bind fun _ =>
    (Mirrors.lift _).bind fun _ => (send g now _).bind fun _ => (update g _).bind fun _ => update g _

end Through

/-- **A callback of two callers' sessions.** -/
theorem callback_through {L : Listeners ε} {L' : Listeners ε'} {g : ε → ε'} (hL : L.Mirror g L') (now : ℚ)
    (w : World ε) (c : Callback) : callback L' now (w.through g) c = (callback L now w c).through g := by
  unfold callback
  rw [show (w.through g).session = w.session from rfl, apply_ite (World.through g)]
  refine if_congr Iff.rfl ?_ rfl
  cases c with
  | ready => exact (Through.connectionMade now).final w
  | datagram config msg => exact (Through.handleIncoming hL config now msg).final w
  | sessTick => exact (Through.sessTimer hL now).final w
  | resendTick => exact (Through.resendTimer now).final w
  | close => exact (Through.emitDisconnect hL).final w

/-! ### A change of the caller's state -/

def World.mapApp (g : ε → ε) (w : World ε) : World ε := { w with app := g w.app }

/-- The listeners do not see the change `g`. -/
structure Listeners.Ignore (L : Listeners ε) (g : ε → ε) : Prop where
  frame : ∀ image, Commutes g (L.frame image)
  audio : ∀ data, Commutes g (L.audio data)
  disconnect : ∀ app, L.disconnect (g app) = g (L.disconnect app)
  login : Commutes (World.mapApp g) L.login
  listWifi : ∀ items, Commutes (World.mapApp g) (L.listWifi items)

theorem Listeners.Ignore.mirror {L : Listeners ε} {g : ε → ε} (h : L.Ignore g) : L.Mirror g L where
  frame image := commutes_iff.1 (h.frame image)
  audio data := commutes_iff.1 (h.audio data)
  disconnect := h.disconnect
  login := commutes_iff.1 h.login
  listWifi items := commutes_iff.1 (h.listWifi items)

theorem Unseen.startVideoStream (g : ε → ε) (now : ℚ) : Commutes (World.mapApp g) (startVideoStream now) :=
  commutes_iff.2 (Through.startVideoStream g now)

theorem callback_mapApp {L : Listeners ε} {g : ε → ε} (hL : L.Ignore g) (now : ℚ) (w : World ε) (c : Callback) :
    callback L now (w.mapApp g) c = (callback L now w c).mapApp g :=
  callback_through hL.mirror now w c

end CamReverse
