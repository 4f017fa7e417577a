import CamReverse.Sending
import CamReverse.Control.Deobfuscation

/-!
# The lifecycle of a session

The `life` of a session is what decides which callbacks still reach it: its flags, its transport and its
timers. Within a callback nothing but a disconnect changes it, and nothing but the listeners of the emitted
events changes the caller's state. `ByEvents` says both of a program at once: the events it emitted tell
what it did. A caller whose `login` and `ListWifi` listeners are such programs is `Orderly`.
-/

namespace CamReverse

open Effect

variable {ε : Type}

structure Life where
  dev : DevSerial
  timeoutMs : ℚ
  lastReceivedPacket : ℚ
  connected : Bool
  started : Bool
  transport : Transport
  sessTimer : Bool
  resendTimer : Bool
  deriving DecidableEq

def Session.life (s : Session) : Life where
  dev := s.dev
  timeoutMs := s.timeoutMs
  lastReceivedPacket := s.lastReceivedPacket
  connected := s.connected
  started := s.started
  transport := s.transport
  sessTimer := s.sessTimer
  resendTimer := s.resendTimer

/-- The life of a session after a disconnect. -/
def Life.disconnected (l : Life) : Life :=
  if l.connected then
    { l with
      connected := false
      sessTimer := false
      resendTimer := false
      transport := if l.transport = .absent then .absent else .closed }
  else l

theorem life_onDisconnect (s : Session) : (onDisconnect s).life = s.life.disconnected := by
  unfold onDisconnect Life.disconnected
  cases h : s.connected <;> simp [Session.life, h]

theorem lastReceivedPacket_onDisconnect (s : Session) :
    (onDisconnect s).lastReceivedPacket = s.lastReceivedPacket := by
  unfold onDisconnect
  split_ifs <;> rfl

theorem disconnected_of_closed {l : Life} (h : l.connected = false) : l.disconnected = l := by
  rw [Life.disconnected, h]
  rfl

@[simp] theorem connected_disconnected (l : Life) : l.disconnected.connected = false := by
  unfold Life.disconnected
  cases h : l.connected <;> simp [h]

theorem connected_onDisconnect (s : Session) : (onDisconnect s).connected = false :=
  (congrArg Life.connected (life_onDisconnect s)).trans (connected_disconnected _)

/-- From `l` to `l'` the session only lost what keeps it running. -/
structure Life.Wanes (l l' : Life) : Prop where
  dev : l'.dev = l.dev
  timeoutMs : l'.timeoutMs = l.timeoutMs
  started : l'.started = l.started
  connected : l'.connected = true → l.connected = true
  absent : l'.transport = .absent ↔ l.transport = .absent
  opened : l'.transport = .opened → l.transport = .opened
  sessTimer : l'.sessTimer = true → l.sessTimer = true
  resendTimer : l'.resendTimer = true → l.resendTimer = true

theorem Life.Wanes.refl (l : Life) : l.Wanes l := ⟨rfl, rfl, rfl, id, Iff.rfl, id, id, id⟩

theorem Life.Wanes.trans {l₁ l₂ l₃ : Life} (h : l₁.Wanes l₂) (h' : l₂.Wanes l₃) : l₁.Wanes l₃ where
  dev := h'.dev.trans h.dev
  timeoutMs := h'.timeoutMs.trans h.timeoutMs
  started := h'.started.trans h.started
  connected := h.connected ∘ h'.connected
  absent := h'.absent.trans h.absent
  opened := h.opened ∘ h'.opened
  sessTimer := h.sessTimer ∘ h'.sessTimer
  resendTimer := h.resendTimer ∘ h'.resendTimer

theorem wanes_disconnected (l : Life) : l.Wanes l.disconnected := by
  unfold Life.disconnected
  cases h : l.connected with
  | false => exact Life.Wanes.refl l
  | true =>
    by_cases ht : l.transport = .absent
    · exact ⟨rfl, rfl, rfl, fun _ => h, by simp [ht], by simp [ht], by simp, by simp⟩
    · exact ⟨rfl, rfl, rfl, fun _ => h, by simp [ht], by simp [ht], by simp, by simp⟩

/-- From `l` to `l'` at most a task ended and the clock of the last packet was set. -/
structure Life.EndsTasks (l l' : Life) : Prop where
  dev : l'.dev = l.dev
  timeoutMs : l'.timeoutMs = l.timeoutMs
  started : l'.started = l.started
  connected : l'.connected = l.connected
  transport : l'.transport = l.transport
  sessTimer : l'.sessTimer = true → l.sessTimer = true
  resendTimer : l'.resendTimer = true → l.resendTimer = true

theorem Life.EndsTasks.refl (l : Life) : l.EndsTasks l := ⟨rfl, rfl, rfl, rfl, rfl, id, id⟩

theorem Life.EndsTasks.wanes {l l' : Life} (h : l.EndsTasks l') : l.Wanes l' where
  dev := h.dev
  timeoutMs := h.timeoutMs
  started := h.started
  connected := by rw [h.connected]; exact id
  absent := by rw [h.transport]
  opened := by rw [h.transport]; exact id
  sessTimer := h.sessTimer
  resendTimer := h.resendTimer

/-! ### What events tell -/

/-- What an event makes of a life. -/
def Life.hear (l : Life) : Event → Life
  | .disconnect => l.disconnected
  | .sent _ => l
  | .frame _ => l
  | .audio _ => l
  | .login => l
  | .listWifi _ => l

/-- What the listeners of an event make of the caller's state. -/
def Listeners.hear (L : Listeners ε) (app : ε) : Event → ε
  | .disconnect => L.disconnect app
  | .frame image => final (L.frame image) app
  | .audio data => final (L.audio data) app
  | .sent _ => app
  | .login => app
  | .listWifi _ => app

theorem foldl_hear_sent (L : Listeners ε) {evs : List Event} (h : ∀ ev ∈ evs, ∃ m, ev = .sent m) (l : Life)
    (app : ε) : evs.foldl Life.hear l = l ∧ evs.foldl L.hear app = app := by
  induction evs with
  | nil => exact ⟨rfl, rfl⟩
  | cons ev evs ih =>
    obtain ⟨m, rfl⟩ := h ev List.mem_cons_self
    exact ih fun ev hev => h ev (List.mem_cons_of_mem _ hev)

theorem foldl_hear_closed {l : Life} (h : l.connected = false) (evs : List Event) :
    evs.foldl Life.hear l = l := by
  induction evs with
  | nil => rfl
  | cons ev evs ih =>
    have hear : l.hear ev = l := by
      cases ev <;> first | rfl | exact disconnected_of_closed h
    rw [List.foldl_cons, hear, ih]

theorem foldl_hear (l : Life) (evs : List Event) :
    evs.foldl Life.hear l = if .disconnect ∈ evs then l.disconnected else l := by
  induction evs with
  | nil => rfl
  | cons ev evs ih =>
    rw [List.foldl_cons]
    by_cases hev : ev = .disconnect
    · subst hev
      rw [if_pos List.mem_cons_self]
      exact foldl_hear_closed (connected_disconnected l) evs
    · have hear : l.hear ev = l := by
        cases ev <;> first | rfl | exact absurd rfl hev
      rw [hear, ih]
      simp only [List.mem_cons, Ne.symm hev, false_or]

theorem wanes_hear (l : Life) (evs : List Event) : l.Wanes (evs.foldl Life.hear l) := by
  rw [foldl_hear]
  split_ifs
  · exact wanes_disconnected l
  · exact Life.Wanes.refl l

theorem lastReceivedPacket_hear (l : Life) (evs : List Event) :
    (evs.foldl Life.hear l).lastReceivedPacket = l.lastReceivedPacket := by
  rw [foldl_hear, Life.disconnected]
  split_ifs <;> rfl

/-- From `w` to `w'` the session at most put packets on the wire. -/
def OnlySends (w w' : World ε) : Prop :=
  ∃ evs, (∀ ev ∈ evs, ∃ m, ev = .sent m) ∧ w'.events = w.events ++ evs ∧
    w'.session.life = w.session.life ∧ w'.app = w.app

instance : IsPreorder (World ε) OnlySends where
  refl w := ⟨[], fun _ h => absurd h List.not_mem_nil, (List.append_nil _).symm, rfl, rfl⟩
  trans := by
    rintro w₁ w₂ w₃ ⟨evs, hsent, hevs, hlife, happ⟩ ⟨evs', hsent', hevs', hlife', happ'⟩
    refine ⟨evs ++ evs', ?_, ?_, hlife'.trans hlife, happ'.trans happ⟩
    · exact fun ev hev => (List.mem_append.1 hev).elim (hsent ev) (hsent' ev)
    · rw [hevs', hevs, List.append_assoc]

/-- From `w` to `w'` the session emitted events, and they tell what became of its life and of the
caller's state. -/
def ByEvents (L : Listeners ε) (w w' : World ε) : Prop :=
  ∃ evs, w'.events = w.events ++ evs ∧ w'.session.life = evs.foldl Life.hear w.session.life ∧
    w'.app = evs.foldl L.hear w.app

instance (L : Listeners ε) : IsPreorder (World ε) (ByEvents L) where
  refl w := ⟨[], (List.append_nil _).symm, rfl, rfl⟩
  trans := by
    rintro w₁ w₂ w₃ ⟨evs, hevs, hlife, happ⟩ ⟨evs', hevs', hlife', happ'⟩
    refine ⟨evs ++ evs', ?_, ?_, ?_⟩
    · rw [hevs', hevs, List.append_assoc]
    · rw [hlife', hlife, List.foldl_append]
    · rw [happ', happ, List.foldl_append]

/-- From `w` to `w'` the session emitted only such events. -/
def EmitsOnly (P : Event → Prop) (w w' : World ε) : Prop :=
  ∃ evs, w'.events = w.events ++ evs ∧ ∀ ev ∈ evs, P ev

instance (P : Event → Prop) : IsPreorder (World ε) (EmitsOnly P) where
  refl w := ⟨[], (List.append_nil _).symm, by simp⟩
  trans := by
    rintro w₁ w₂ w₃ ⟨evs, hevs, hP⟩ ⟨evs', hevs', hP'⟩
    refine ⟨evs ++ evs', ?_, ?_⟩
    · rw [hevs', hevs, List.append_assoc]
    · exact fun ev hev => (List.mem_append.1 hev).elim (hP ev) (hP' ev)

/-- A caller whose listeners do nothing behind the events' back. -/
structure Listeners.Orderly (L : Listeners ε) : Prop where
  login : Along (ByEvents L) L.login
  listWifi : ∀ items, Along (ByEvents L) (L.listWifi items)

theorem orderly_absent : (Listeners.absent : Listeners ε).Orderly :=
  ⟨Along.pure _, fun _ => Along.pure _⟩

theorem onlySends_send (now : ℚ) (msg : DV) : Along (@OnlySends ε) (send now msg) := fun w => by
  obtain ⟨t, evs, hfinal, hsent⟩ := send_final now msg w
  rw [hfinal]
  exact ⟨evs, hsent, rfl, rfl, rfl⟩

theorem onlySends_update {f : Session → Session} (h : ∀ s, (f s).life = s.life) :
    Along (@OnlySends ε) (update f) := fun w =>
  ⟨[], fun _ h => absurd h List.not_mem_nil, (List.append_nil _).symm, h w.session, rfl⟩

namespace EmitsOnly

variable {P : Event → Prop}

theorem update (f : Session → Session) : Along (@EmitsOnly ε P) (update f) :=
  fun _ => ⟨[], (List.append_nil _).symm, by simp⟩

theorem record {ev : Event} (h : P ev) : Along (@EmitsOnly ε P) (record ev) :=
  fun _ => ⟨[ev], rfl, List.forall_mem_singleton.2 h⟩

theorem inApp (m : EStateM PyErr ε Unit) : Along (@EmitsOnly ε P) (inApp m) := fun w => by
  rw [show final (CamReverse.inApp m) w = _ from
    final_onPart World.app (fun app w => { w with app := app }) m w]
  exact ⟨[], (List.append_nil _).symm, by simp⟩

theorem emitFrame (L : Listeners ε) (h : ∀ image, P (.frame image)) : Along (EmitsOnly P) (emitFrame L) :=
  Along.get_bind fun w => Along.bind (record (h w.session.curImage)) (fun _ => inApp _) w

theorem emitAudio (L : Listeners ε) (h : ∀ data, P (.audio data)) (data : Bytes) :
    Along (EmitsOnly P) (emitAudio L data) :=
  Along.bind (record (h data)) fun _ => inApp _

theorem send (h : ∀ m, P (.sent m)) (now : ℚ) (msg : DV) : Along (@EmitsOnly ε P) (send now msg) := fun w => by
  obtain ⟨t, evs, hfinal, hsent⟩ := send_final now msg w
  rw [hfinal]
  refine ⟨evs, rfl, fun ev hev => ?_⟩
  obtain ⟨m, rfl⟩ := hsent ev hev
  exact h m

end EmitsOnly

/-- `R` holds across sending, and across every change that leaves the life of the session alone. -/
structure Quiet (R : World ε → World ε → Prop) : Prop where
  update {f : Session → Session} (h : ∀ s, (f s).life = s.life) : Along R (update f)
  send (now : ℚ) (msg : DV) : Along R (send now msg)

/-- `R` holds across whatever the handlers of a session are put together from, but for a disconnect. -/
structure Respects (L : Listeners ε) (R : World ε → World ε → Prop) : Prop extends Quiet R where
  emitFrame : Along R (emitFrame L)
  emitAudio (data : Bytes) : Along R (emitAudio L data)
  emitLogin : Along R (emitLogin L)
  emitListWifi (items : List WifiListItem) : Along R (emitListWifi L items)

/-- `R` holds across the steps the answer to a packet is put together from, but for a login. -/
structure Answers (L : Listeners ε) (R : World ε → World ε → Prop) : Prop where
  count : Along R (update fun s => { s with outgoingCommandId := s.outgoingCommandId + 1 })
  assemble {f : Session → Session} (h : ∀ s, ∃ image id bad fixed, f s =
    { s with curImage := image, rcvSeqId := id, frameIsBad := bad, frameWasFixed := fixed }) :
    Along R (update f)
  emitFrame : Along R (emitFrame L)
  emitAudio (data : Bytes) : Along R (emitAudio L data)
  emitListWifi (items : List WifiListItem) : Along R (emitListWifi L items)

/-- `R` holds across the steps the handlers are put together from, but for a login and a disconnect. -/
structure Handles (L : Listeners ε) (R : World ε → World ε → Prop) : Prop extends Answers L R where
  forget (id : ℕ) : Along R (ackDrw id)
  send (now : ℚ) (msg : DV) : Along R (send now msg)

/-- `dv` is a ConnectUserAck, and `dv'` is what it becomes when it is deobfuscated. -/
structure LogsIn (dv dv' : DV) : Prop where
  startType : (dv.add 8).readU16 = .ok 0x110A
  command : (dv.add 10).readU16 = .ok ControlCommand.connectUserAck.code
  payload : ∃ payloadLen, (dv.add 0xC).readU16le = .ok payloadLen ∧
    deobfuscated dv (croppedPayloadLen dv.byteLength payloadLen) = .ok dv'

def logIn (L : Listeners ε) (dv : DV) : SessionM ε Unit := do
  update fun s => { s with ticket := (dv.add 0x18).readByteArray 4 }
  emitLogin L

/-! ### Building packets -/

theorem along_makeDataReadWrite {R : World ε → World ε → Prop} [IsPreorder (World ε) R]
    (hcount : Along R (update fun s => { s with outgoingCommandId := s.outgoingCommandId + 1 })) (command : ℕ)
    (data : Option DV) : Along R (makeDataReadWrite command data) := by
  refine Along.get_bind fun w => ?_
  exact Along.bind (Along.lift _) (fun ret => Along.bind hcount fun _ => Along.pure ret) w

theorem along_sendUsrChk {R : World ε → World ε → Prop} [IsPreorder (World ε) R]
    (hcount : Along R (update fun s => { s with outgoingCommandId := s.outgoingCommandId + 1 }))
    (username password : String) : Along R (sendUsrChk username password) :=
  Along.bind (Along.lift _) fun _ => Along.bind (Along.lift _) fun _ => along_makeDataReadWrite hcount _ _

theorem along_startVideoStream {R : World ε → World ε → Prop} [IsPreorder (World ε) R] {now : ℚ}
    (hcount : Along R (update fun s => { s with outgoingCommandId := s.outgoingCommandId + 1 }))
    (hsend : ∀ msg, Along R (send now msg)) : Along R (startVideoStream now) := by
  unfold startVideoStream sendVideoResolution
  refine Along.bind (Along.bind (Along.lift _) fun payloads => ?_) fun pkts =>
    Along.bind (Along.forM fun _ _ => hsend _) fun _ =>
      Along.bind (along_makeDataReadWrite hcount _ _) fun _ => hsend _
  exact Along.mapM fun _ _ => along_makeDataReadWrite hcount _ _

namespace Quiet

variable {R : World ε → World ε → Prop} [IsPreorder (World ε) R] (h : Quiet R)
include h

theorem startVideoStream (now : ℚ) : Along R (CamReverse.startVideoStream now) :=
  along_startVideoStream (h.update fun _ => rfl) (h.send now)

theorem resendTimerRound (now : ℚ) : Along R (CamReverse.resendTimerRound now) := by
  refine Along.get_bind fun w => ?_
  refine Along.forM (fun entry _ => Along.ite (fun _ => ?_) fun _ => Along.pure _) w
  refine Along.bind (Along.lift _) fun _ => Along.get_bind fun w => ?_
  refine Along.bind (Along.lift _) (fun data => ?_) w
  exact Along.bind (h.update fun _ => rfl) fun _ => Along.bind (h.update fun _ => rfl) fun _ => h.send now data

end Quiet

/-! ### Answering packets -/

namespace Answers

variable {L : Listeners ε} {R : World ε → World ε → Prop} [IsPreorder (World ε) R] (h : Answers L R)
include h

theorem startNewFrame (pktId : ℕ) (buf : Bytes) : Along R (CamReverse.startNewFrame L pktId buf) := by
  have hset : Along R (CamReverse.update fun s => { s with
      frameWasFixed := false, frameIsBad := false, curImage := [buf], rcvSeqId := pktId }) :=
    h.assemble fun _ => ⟨_, _, _, _, rfl⟩
  refine Along.get_bind fun w => ?_
  exact Along.ite (fun _ => Along.bind h.emitFrame fun _ => hset) (fun _ => hset) w

theorem continueFrame (config : Config) (pktId : ℕ) (b : Bytes) :
    Along R (CamReverse.continueFrame config pktId b) := by
  refine Along.get_bind fun w => ?_
  refine Along.ite (fun _ => Along.pure _) (fun _ => Along.ite (fun _ => ?_) fun _ => ?_) w
  · refine Along.bind (h.assemble fun _ => ⟨_, _, _, _, rfl⟩) fun _ => Along.bind (Along.lift _) fun fix => ?_
    refine Along.ite (fun _ => Along.ite (fun _ => ?_) fun _ => Along.pure _) fun _ => Along.pure _
    split
    · exact h.assemble fun _ => ⟨_, _, _, _, rfl⟩
    · exact Along.pure _
  · exact h.assemble fun _ => ⟨_, _, _, _, rfl⟩

theorem dealWithData (config : Config) (dv : DV) : Along R (CamReverse.dealWithData config L dv) := by
  refine Along.bind (Along.lift _) fun pktLen => Along.ite (fun _ => Along.pure _) fun _ => ?_
  refine Along.bind (Along.lift _) fun pktId => Along.ite (fun _ => ?_) fun _ => ?_
  · refine Along.bind (Along.lift _) fun streamType => Along.ite (fun _ => ?_) fun _ => ?_
    · exact Along.bind (Along.lift _) fun audioLen => h.emitAudio _
    · exact Along.ite (fun _ => Along.ite (fun _ => h.startNewFrame _ _) fun _ => Along.pure _) fun _ =>
        Along.pure _
  · exact Along.ite (fun _ => h.startNewFrame _ _) fun _ => h.continueFrame config _ _

theorem controlAnswer {cmdId : ℕ} {dv : DV}
    (hlogin : cmdId = ControlCommand.connectUserAck.code → Along R (logIn L dv)) (payloadLen : ℕ) :
    Along R (CamReverse.controlAnswer L cmdId payloadLen dv) := by
  refine Along.ite (fun hcmd => ?_) fun _ => Along.ite (fun _ => ?_) fun _ => Along.ite (fun _ => ?_) fun _ =>
    Along.ite (fun _ => ?_) fun _ => Along.pure _
  · have hanswer := Along.bind (hlogin hcmd) fun _ => Along.pure (R := R) ([] : List DV)
    rwa [logIn, bind_assoc] at hanswer
  · exact Along.bind (Along.lift _) fun _ => Along.pure _
  · exact Along.bind (Along.lift _) fun _ =>
      Along.bind (along_makeDataReadWrite h.count _ _) fun _ => Along.pure _
  · exact Along.ite (fun _ => Along.pure _) fun _ => Along.bind (Along.lift _) fun items =>
      Along.bind (h.emitListWifi items) fun _ => Along.pure _

theorem createResponseForControlCommand {dv : DV} (hlogin : ∀ dv', LogsIn dv dv' → Along R (logIn L dv')) :
    Along R (CamReverse.createResponseForControlCommand L dv) := by
  refine Along.lift_bind fun startType hstart => Along.lift_bind fun cmdId hcmd =>
    Along.lift_bind fun len hlen => Along.ite (fun _ => Along.pure _) fun hok =>
      Along.lift_bind fun dv' hdv' => ?_
  rw [not_not] at hok
  exact h.controlAnswer (fun hack => hlogin dv' ⟨hstart.trans (congrArg Except.ok hok),
    hcmd.trans (congrArg Except.ok hack), len, hlen, hdv'⟩) _

end Answers

/-! ### The handlers -/

namespace Handles

variable {L : Listeners ε} {R : World ε → World ε → Prop} [IsPreorder (World ε) R] (h : Handles L R)
include h

theorem handleDrw (config : Config) (now : ℚ) {dv : DV}
    (hlogin : (dv.add 5).readU8 = .ok 0 → ∀ dv', LogsIn dv dv' → Along R (logIn L dv')) :
    Along R (CamReverse.handleDrw config L now dv) := by
  refine Along.bind (Along.lift _) fun ack => Along.bind (h.send now ack) fun _ =>
    Along.lift_bind fun mStream hstream => Along.ite (fun _ => h.dealWithData config dv) fun _ =>
      Along.ite (fun hcontrol => ?_) fun _ => Along.pure _
  rw [hcontrol] at hstream
  exact Along.bind (h.createResponseForControlCommand (hlogin hstream)) fun pkts =>
    Along.forM fun _ _ => h.send now _

omit h in
theorem notImpl (dv : DV) : Along R (CamReverse.notImpl dv) :=
  Along.bind (Along.lift _) fun _ => Along.pure _

theorem handlers (config : Config) (now : ℚ) {cmd : Command} {dv : DV}
    (hlogin : cmd = .drw → (dv.add 5).readU8 = .ok 0 → ∀ dv', LogsIn dv dv' → Along R (logIn L dv'))
    (hclose : cmd = .close → Along R (emitDisconnect L)) :
    Along R (CamReverse.handlers config L now cmd dv) := by
  cases cmd with
  | p2pAlive => exact Along.bind (Along.lift _) fun _ => h.send now _
  | p2pRdy => exact Along.bind (along_sendUsrChk h.count _ _) fun _ => h.send now _
  | drwAck =>
    refine Along.bind (Along.lift _) fun ackCount => Along.forM fun _ _ => ?_
    exact Along.bind (Along.lift _) fun _ => h.forget _
  | drw => exact h.handleDrw config now (hlogin rfl)
  | close => exact Along.bind (Along.lift _) fun _ => Along.bind (h.send now _) fun _ => hclose rfl
  | p2pAliveAck => exact Along.pure _
  | _ => exact notImpl dv

theorem dispatch (config : Config) (now : ℚ) {dv : DV}
    (hlogin : dv.readU16 = .ok Command.drw.code → (dv.add 5).readU8 = .ok 0 →
      ∀ dv', LogsIn dv dv' → Along R (logIn L dv'))
    (hclose : dv.readU16 = .ok Command.close.code → Along R (emitDisconnect L)) :
    Along R (CamReverse.dispatch config L now dv) := by
  refine Along.lift_bind fun raw hraw => ?_
  cases hcmd : commandsByValue raw with
  | some cmd =>
    have hcode := code_of_commandsByValue hcmd
    have hread : ∀ c, cmd = c → dv.readU16 = .ok c.code := fun c hc =>
      hraw.trans (congrArg Except.ok (hcode.symm.trans (congrArg Command.code hc)))
    have hhandlers := h.handlers config now (fun hc => hlogin (hread _ hc)) fun hc => hclose (hread _ hc)
    exact Along.bind hhandlers fun _ => Along.pure raw
  | none => exact Along.bind (notImpl dv) fun _ => Along.pure raw

end Handles

namespace Respects

variable {L : Listeners ε} {R : World ε → World ε → Prop} [IsPreorder (World ε) R] (h : Respects L R)
include h

omit [IsPreorder (World ε) R] in
theorem handles : Handles L R where
  count := h.update fun _ => rfl
  assemble hf := h.update fun s => by
    obtain ⟨image, id, bad, fixed, hs⟩ := hf s
    rw [hs]
    rfl
  emitFrame := h.emitFrame
  emitAudio := h.emitAudio
  emitListWifi := h.emitListWifi
  forget _ := h.update fun _ => rfl
  send := h.send

theorem logIn (dv : DV) : Along R (CamReverse.logIn L dv) :=
  Along.bind (h.update fun _ => rfl) fun _ => h.emitLogin

theorem dealWithData (config : Config) (dv : DV) : Along R (CamReverse.dealWithData config L dv) :=
  h.handles.dealWithData config dv

theorem createResponseForControlCommand (dv : DV) :
    Along R (CamReverse.createResponseForControlCommand L dv) :=
  h.handles.createResponseForControlCommand fun dv' _ => h.logIn dv'

theorem dispatch (config : Config) (now : ℚ) (dv : DV)
    (hclose : dv.readU16 = .ok Command.close.code → Along R (CamReverse.emitDisconnect L)) :
    Along R (CamReverse.dispatch config L now dv) :=
  h.handles.dispatch config now (fun _ _ dv' _ => h.logIn dv') hclose

end Respects

/-! ### The events of a handler -/

theorem quiet_onlySends : Quiet (@OnlySends ε) := ⟨onlySends_update, onlySends_send⟩

namespace ByEvents

variable {L : Listeners ε} {α : Type}

theorem of_onlySends {m : SessionM ε α} (h : Along OnlySends m) : Along (ByEvents L) m := fun w => by
  obtain ⟨evs, hsent, hevs, hlife, happ⟩ := h w
  obtain ⟨hkept, hkept'⟩ := foldl_hear_sent L hsent w.session.life w.app
  exact ⟨evs, hevs, hlife.trans hkept.symm, happ.trans hkept'.symm⟩

theorem emitDisconnect : Along (ByEvents L) (CamReverse.emitDisconnect L) := fun w =>
  ⟨[.disconnect], rfl, life_onDisconnect w.session, rfl⟩

theorem emitFrame : Along (ByEvents L) (CamReverse.emitFrame L) := fun w => by
  refine ⟨[.frame w.session.curImage], ?_⟩
  rw [show final (CamReverse.emitFrame L) w = _ from final_onPart World.app
    (fun app w => { w with app := app }) (L.frame w.session.curImage) _]
  exact ⟨rfl, rfl, rfl⟩

theorem emitAudio (data : Bytes) : Along (ByEvents L) (CamReverse.emitAudio L data) := fun w => by
  refine ⟨[.audio data], ?_⟩
  rw [show final (CamReverse.emitAudio L data) w = _ from final_onPart World.app
    (fun app w => { w with app := app }) (L.audio data) _]
  exact ⟨rfl, rfl, rfl⟩

theorem respects (hL : L.Orderly) : Respects L (ByEvents L) where
  update h := of_onlySends (onlySends_update h)
  send now msg := of_onlySends (onlySends_send now msg)
  emitFrame := emitFrame
  emitAudio := emitAudio
  emitLogin := Along.bind (fun _ => ⟨[.login], rfl, rfl, rfl⟩) fun _ => hL.login
  emitListWifi items := Along.bind (fun _ => ⟨[.listWifi items], rfl, rfl, rfl⟩) fun _ => hL.listWifi items

theorem dispatch (hL : L.Orderly) (config : Config) (now : ℚ) (dv : DV) :
    Along (ByEvents L) (CamReverse.dispatch config L now dv) :=
  (respects hL).dispatch config now dv fun _ => emitDisconnect

end ByEvents

/-! ### The callbacks -/

theorem createP2pAlive_ok : ∃ msg, createP2pAlive = .ok msg ∧ msg.readU16 = .ok Command.p2pAlive.code :=
  ⟨_, rfl, rfl⟩

def opened (w : World ε) : World ε := { w with session := { w.session with transport := .opened } }

/-- `connection_made` opens the transport and sends a packet; then the session is running, unless sending
raised. -/
theorem connectionMade_final (now : ℚ) (w : World ε) :
    ∃ w' running, OnlySends (opened w) w' ∧ final (connectionMade now) w =
      { w' with session := { w'.session with
        started := w'.session.started || running
        sessTimer := w'.session.sessTimer || running
        resendTimer := w'.session.resendTimer || running } } := by
  have hopen : final (connectionMade now) w = final (do
      send now (← makeP2pRdy w.session.dev)
      update fun s => { s with started := true }
      update fun s => { s with sessTimer := true, resendTimer := true } : SessionM ε Unit) (opened w) := rfl
  rw [hopen]
  cases makeP2pRdy w.session.dev with
  | error e =>
    refine ⟨opened w, false, refl_of OnlySends _, ?_⟩
    simp only [Bool.or_false]
    rfl
  | ok msg =>
    show ∃ w' running, _ ∧ final (send now msg >>= _) (opened w) = _
    have hsends := onlySends_send now msg (opened w)
    rw [final_bind]
    cases outcome (send now msg) (opened w) with
    | ok a =>
      refine ⟨_, true, hsends, ?_⟩
      simp only [Bool.or_true]
      rfl
    | error e =>
      refine ⟨_, false, hsends, ?_⟩
      simp only [Bool.or_false]

/-- Whether a datagram counts as a sign of life: its handler returns, and it is no keep-alive. -/
def countsAsReceived (config : Config) (L : Listeners ε) (now : ℚ) (msg : Bytes) (w : World ε) : Bool :=
  match outcome (dispatch config L now (DV.ofBytes msg)) w with
  | .ok raw => raw ≠ Command.p2pAlive.code ∧ raw ≠ Command.p2pAliveAck.code
  | .error _ => false

/-- `_handle_incoming` sets the clock of the last packet exactly for such a datagram. -/
theorem handleIncoming_life {L : Listeners ε} (hL : L.Orderly) (config : Config) (now : ℚ) (msg : Bytes)
    (w : World ε) :
    ∃ evs, (final (handleIncoming config L now msg) w).events = w.events ++ evs ∧
      (final (handleIncoming config L now msg) w).app = evs.foldl L.hear w.app ∧
      (final (handleIncoming config L now msg) w).session.life = { evs.foldl Life.hear w.session.life with
        lastReceivedPacket :=
          if countsAsReceived config L now msg w then now else w.session.lastReceivedPacket } := by
  obtain ⟨evs, hevs, hlife, happ⟩ := ByEvents.dispatch hL config now (DV.ofBytes msg) w
  have hlast := lastReceivedPacket_hear w.session.life evs
  refine ⟨evs, ?_⟩
  rw [handleIncoming_eq]
  unfold countsAsReceived
  rw [final_bind, final_attempt]
  unfold final at hevs hlife happ ⊢
  unfold outcome attempt
  cases hrun : dispatch config L now (DV.ofBytes msg) w with
  | error e t =>
    simp only [hrun, Bool.false_eq_true, if_false] at hevs hlife happ ⊢
    refine ⟨hevs, happ, ?_⟩
    rw [show w.session.lastReceivedPacket = _ from hlast.symm, ← hlife]
    rfl
  | ok raw t =>
    simp only [hrun, decide_eq_true_eq] at hevs hlife happ ⊢
    rw [← hlife] at hlast ⊢
    split_ifs with hraw
    · exact ⟨hevs, happ, rfl⟩
    · refine ⟨hevs, happ, ?_⟩
      rw [show w.session.lastReceivedPacket = _ from hlast.symm]
      rfl

theorem timerTask_ok {round : SessionM ε Unit} {w w' : World ε} (h : round w = .ok () w')
    (onEnd : Session → Session) : final (timerTask round onEnd) w = w' := by
  unfold timerTask
  rw [final_bind, final_attempt]
  unfold outcome attempt final
  rw [h]
  rfl

theorem timerTask_error {round : SessionM ε Unit} {w w' : World ε} {e : PyErr} (h : round w = .error e w')
    (onEnd : Session → Session) :
    final (timerTask round onEnd) w = { w' with session := onEnd w'.session } := by
  unfold timerTask
  rw [final_bind, final_attempt]
  unfold outcome attempt final
  rw [h]
  rfl

/-- Whether a round of `_sess_timer` declares the camera timed out. -/
def timesOut (s : Session) (now : ℚ) : Bool := s.started ∧ s.timeoutMs < now - s.lastReceivedPacket

/-- The world after the camera was declared timed out. -/
def timedOut (L : Listeners ε) (w : World ε) : World ε where
  session := { onDisconnect w.session with sessTimer := false }
  app := L.disconnect w.app
  events := w.events ++ [.disconnect]

/-- **A round of `_sess_timer`** sends at most a keep-alive, and disconnects exactly when the clock of the
last packet is more than the timeout behind. -/
theorem sessTimer_final (L : Listeners ε) (now : ℚ) (w : World ε) :
    ∃ evs, (∀ ev ∈ evs, ∃ m, ev = .sent m) ∧ final (sessTimer L now) w =
      if timesOut w.session now then timedOut L { w with events := w.events ++ evs }
      else { w with events := w.events ++ evs } := by
  obtain ⟨msg, hmsg, hraw⟩ := createP2pAlive_ok
  have hround : ∃ evs, (∀ ev ∈ evs, ∃ m, ev = .sent m) ∧ sessTimerRound L now w = .ok ()
      (if timesOut w.session now then timedOut L { w with events := w.events ++ evs }
        else { w with events := w.events ++ evs }) := by
    have hnone : w = { w with events := w.events ++ [] } := by rw [List.append_nil]
    have hnil : ∀ ev ∈ ([] : List Event), ∃ m, ev = .sent m := fun ev hev => absurd hev List.not_mem_nil
    unfold sessTimerRound timesOut
    rw [get_bind_apply]
    by_cases hstarted : w.session.started = true
    · simp only [hstarted, if_true, true_and, decide_eq_true_eq, hmsg, liftM_eq_lift, lift_ok_bind]
      by_cases hlate : 600 < now - w.session.lastReceivedPacket
      · refine ⟨wired w msg.toBytes, wired_sent w _, ?_⟩
        rw [if_pos hlate, bind_ok (send_other now hraw (by decide) w)]
        split_ifs <;> rfl
      · refine ⟨[], hnil, ?_⟩
        rw [if_neg hlate, ← hnone]
        split_ifs <;> rfl
    · refine ⟨[], hnil, ?_⟩
      rw [if_neg hstarted, ← hnone]
      simp only [hstarted, false_and, decide_false, Bool.false_eq_true, if_false]
      rfl
  obtain ⟨evs, hevs, hrun⟩ := hround
  exact ⟨evs, hevs, timerTask_ok hrun _⟩

theorem sessTimer_events (L : Listeners ε) (now : ℚ) (w : World ε) :
    ∃ evs, (final (sessTimer L now) w).events = w.events ++ evs ∧
      (final (sessTimer L now) w).app = evs.foldl L.hear w.app ∧
      (evs.foldl Life.hear w.session.life).EndsTasks (final (sessTimer L now) w).session.life ∧
      (final (sessTimer L now) w).session.lastReceivedPacket = w.session.lastReceivedPacket := by
  obtain ⟨evs, hsent, hfinal⟩ := sessTimer_final L now w
  obtain ⟨hkept, hkept'⟩ := foldl_hear_sent L hsent w.session.life w.app
  simp only [hfinal]
  by_cases hlate : timesOut w.session now = true
  · rw [if_pos hlate]
    refine ⟨evs ++ [Event.disconnect], List.append_assoc w.events evs [.disconnect], ?_, ?_,
      lastReceivedPacket_onDisconnect w.session⟩
    · rw [List.foldl_append, hkept']
      rfl
    · rw [List.foldl_append, hkept]
      show w.session.life.disconnected.EndsTasks { (onDisconnect w.session).life with sessTimer := false }
      rw [life_onDisconnect]
      exact ⟨rfl, rfl, rfl, rfl, rfl, fun h => absurd h Bool.false_ne_true, id⟩
  · rw [if_neg hlate]
    refine ⟨evs, rfl, hkept'.symm, ?_, rfl⟩
    rw [hkept]
    exact Life.EndsTasks.refl _

theorem resendTimer_final (now : ℚ) (w : World ε) :
    ∃ w' running, OnlySends w w' ∧ final (resendTimer now) w =
      { w' with session := { w'.session with resendTimer := w'.session.resendTimer && running } } := by
  have hsends := quiet_onlySends.resendTimerRound now w
  cases hrun : resendTimerRound now w with
  | ok a w' =>
    rw [final, hrun] at hsends
    refine ⟨w', true, hsends, (timerTask_ok hrun _).trans ?_⟩
    simp only [Bool.and_true]
  | error e w' =>
    rw [final, hrun] at hsends
    refine ⟨w', false, hsends, (timerTask_error hrun _).trans ?_⟩
    simp only [Bool.and_false]

theorem resendTimer_events (L : Listeners ε) (now : ℚ) (w : World ε) :
    ∃ evs, (final (resendTimer now) w).events = w.events ++ evs ∧
      (final (resendTimer now) w).app = evs.foldl L.hear w.app ∧
      (evs.foldl Life.hear w.session.life).EndsTasks (final (resendTimer now) w).session.life ∧
      (final (resendTimer now) w).session.lastReceivedPacket = w.session.lastReceivedPacket := by
  obtain ⟨w', running, ⟨evs, hsent, hevs, hlife, happ⟩, hfinal⟩ := resendTimer_final now w
  obtain ⟨hkept, hkept'⟩ := foldl_hear_sent L hsent w.session.life w.app
  simp only [hfinal]
  refine ⟨evs, hevs, happ.trans hkept'.symm, ?_, congrArg Life.lastReceivedPacket hlife⟩
  rw [hkept, ← hlife]
  exact ⟨rfl, rfl, rfl, rfl, rfl, id, fun h => (Bool.and_eq_true_iff.1 h).1⟩

/-! ### What reaches a session -/

/-- A callback of the event loop on a session, or a call of its `close`. -/
inductive Callback where
  | ready
  | datagram (config : Config) (msg : Bytes)
  | sessTick
  | resendTick
  | close

/-- Whether the event loop still makes this callback: an endpoint becomes ready once, a transport that is
not open receives nothing, and a task that is over or cancelled takes no further step. -/
def Callback.due (s : Session) : Callback → Bool
  | .ready => s.transport = .absent
  | .datagram _ _ => s.transport = .opened
  | .sessTick => s.sessTimer
  | .resendTick => s.resendTimer
  | .close => true

def callback (L : Listeners ε) (now : ℚ) (w : World ε) (c : Callback) : World ε :=
  if c.due w.session then
    match c with
    | .ready => final (connectionMade now) w
    | .datagram config msg => final (handleIncoming config L now msg) w
    | .sessTick => final (sessTimer L now) w
    | .resendTick => final (resendTimer now) w
    | .close => final (close L) w
  else w

theorem callback_of_not_due {c : Callback} {w : World ε} (h : c.due w.session = false) (L : Listeners ε)
    (now : ℚ) : callback L now w c = w := by
  unfold callback
  rw [h]
  rfl

/-- Whether a callback sets the clock of the last packet. -/
def Callback.setsClock (L : Listeners ε) (now : ℚ) (w : World ε) : Callback → Bool
  | .datagram config msg => w.session.transport = .opened ∧ countsAsReceived config L now msg w
  | _ => false

theorem callback_ready {w : World ε} (h : w.session.transport = .absent) (L : Listeners ε) (now : ℚ) :
    ∃ evs running, (∀ ev ∈ evs, ∃ m, ev = .sent m) ∧
      (callback L now w .ready).events = w.events ++ evs ∧ (callback L now w .ready).app = w.app ∧
      (callback L now w .ready).session.life = { w.session.life with
        transport := .opened
        started := w.session.started || running
        sessTimer := w.session.sessTimer || running
        resendTimer := w.session.resendTimer || running } := by
  obtain ⟨w', running, ⟨evs, hsent, hevs, hlife, happ⟩, hfinal⟩ := connectionMade_final now w
  unfold callback
  rw [if_pos (show Callback.due w.session .ready = true by simpa [Callback.due] using h)]
  simp only [hfinal]
  refine ⟨evs, running, hsent, hevs, happ, ?_⟩
  have hstarted : w'.session.started = w.session.started := congrArg Life.started hlife
  have hsess : w'.session.sessTimer = w.session.sessTimer := congrArg Life.sessTimer hlife
  have hresend : w'.session.resendTimer = w.session.resendTimer := congrArg Life.resendTimer hlife
  rw [hstarted, hsess, hresend]
  show { w'.session.life with
    started := w.session.started || running
    sessTimer := w.session.sessTimer || running
    resendTimer := w.session.resendTimer || running } = _
  rw [hlife]
  rfl

/-- **Every other callback** does what its events tell, and beyond that at most ends a task and sets the
clock of the last packet. -/
theorem callback_events {L : Listeners ε} (hL : L.Orderly) (now : ℚ) (w : World ε) {c : Callback}
    (hc : c ≠ .ready) :
    ∃ evs, (callback L now w c).events = w.events ++ evs ∧
      (callback L now w c).app = evs.foldl L.hear w.app ∧
      (evs.foldl Life.hear w.session.life).EndsTasks (callback L now w c).session.life ∧
      (callback L now w c).session.lastReceivedPacket =
        if c.setsClock L now w then now else w.session.lastReceivedPacket := by
  cases hdue : c.due w.session with
  | false =>
    rw [callback_of_not_due hdue]
    refine ⟨[], (List.append_nil _).symm, rfl, Life.EndsTasks.refl _, ?_⟩
    cases c <;> simp_all [Callback.due, Callback.setsClock]
  | true =>
    unfold callback
    rw [if_pos hdue]
    cases c with
    | ready => exact absurd rfl hc
    | datagram config msg =>
      obtain ⟨evs, hevs, happ, hlife⟩ := handleIncoming_life hL config now msg w
      have hopened : w.session.transport = .opened := by simpa [Callback.due] using hdue
      refine ⟨evs, hevs, happ, ?_, ?_⟩
      · rw [hlife]
        exact ⟨rfl, rfl, rfl, rfl, rfl, id, id⟩
      · refine (congrArg Life.lastReceivedPacket hlife).trans ?_
        simp only [Callback.setsClock, hopened, true_and, decide_eq_true_eq]
    | sessTick => exact sessTimer_events L now w
    | resendTick => exact resendTimer_events L now w
    | close =>
      refine ⟨[.disconnect], rfl, rfl, ?_, lastReceivedPacket_onDisconnect w.session⟩
      show w.session.life.disconnected.EndsTasks (onDisconnect w.session).life
      rw [life_onDisconnect]
      exact Life.EndsTasks.refl _

theorem callback_heard {L : Listeners ε} (hL : L.Orderly) (now : ℚ) (w : World ε) (c : Callback) :
    ∃ evs, (callback L now w c).events = w.events ++ evs ∧ (callback L now w c).app = evs.foldl L.hear w.app ∧
      (callback L now w c).session.connected = (evs.foldl Life.hear w.session.life).connected := by
  by_cases hready : c = .ready
  · subst hready
    by_cases habsent : w.session.transport = .absent
    · obtain ⟨evs, running, hsent, hevs, happ, hlife⟩ := callback_ready habsent L now
      obtain ⟨hsame, hquiet⟩ := foldl_hear_sent L hsent w.session.life w.app
      refine ⟨evs, hevs, happ.trans hquiet.symm, ?_⟩
      rw [hsame]
      exact congrArg Life.connected hlife
    · rw [callback_of_not_due (c := .ready) (decide_eq_false habsent)]
      exact ⟨[], (List.append_nil _).symm, rfl, rfl⟩
  · obtain ⟨evs, hevs, happ, hends, -⟩ := callback_events hL now w hready
    exact ⟨evs, hevs, happ, hends.connected⟩

end CamReverse
