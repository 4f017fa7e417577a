import CamReverse.Handlers

/-!
# The callbacks of a session

What the event loop calls on a session: `connectionMade` when its endpoint is ready, `handleIncoming` for
every datagram, and one round of each of its two timer tasks. A task that returns or raises is over.
-/

namespace CamReverse

open Effect

variable {ε : Type}

/-- `start_video_stream`: 640x480. -/
def startVideoStream (now : ℚ) : SessionM ε Unit := do
  let pkts ← sendVideoResolution 2
  pkts.forM (send now)
  send now (← sendStartVideo)

def Listeners.streaming (now : ℚ) : Listeners ε := { Listeners.absent with login := startVideoStream now }

/-- `_SessionProtocol.connection_made`. -/
def connectionMade (now : ℚ) : SessionM ε Unit := do
  update fun s => { s with transport := .opened }
  let w ← get
  send now (← makeP2pRdy w.session.dev)
  update fun s => { s with started := true }
  update fun s => { s with sessTimer := true, resendTimer := true }

/-- The body of the `try` of `_handle_incoming`. -/
def dispatchBy (emit : SessionM ε Unit) (config : Config) (L : Listeners ε) (now : ℚ) (dv : DV) : SessionM ε ℕ := do
  let raw ← dv.readU16
  match commandsByValue raw with
  | some cmd => handlersBy emit config L now cmd dv
  | none => notImpl dv
  return raw

/-- `Session._handle_incoming`: a packet whose handler raises is dropped. -/
def handleIncomingBy (emit : SessionM ε Unit) (config : Config) (L : Listeners ε) (now : ℚ) (msg : Bytes) :
    SessionM ε Unit := do
  let handled ← attempt (dispatchBy emit config L now (DV.ofBytes msg))
  match handled with
  | none => return
  | some raw =>
    if raw ≠ Command.p2pAlive.code ∧ raw ≠ Command.p2pAliveAck.code then
      update fun s => { s with lastReceivedPacket := now }

def dispatch (config : Config) (L : Listeners ε) (now : ℚ) : DV → SessionM ε ℕ :=
  dispatchBy (emitFrame L) config L now

def handleIncoming (config : Config) (L : Listeners ε) (now : ℚ) : Bytes → SessionM ε Unit :=
  handleIncomingBy (emitFrame L) config L now

theorem dispatch_eq (config : Config) (L : Listeners ε) (now : ℚ) (dv : DV) :
    dispatch config L now dv = (do
      let raw ← dv.readU16
      match commandsByValue raw with
      | some cmd => handlers config L now cmd dv
      | none => notImpl dv
      return raw) := rfl

theorem handleIncoming_eq (config : Config) (L : Listeners ε) (now : ℚ) (msg : Bytes) :
    handleIncoming config L now msg = (do
      let handled ← attempt (dispatch config L now (DV.ofBytes msg))
      match handled with
      | none => return
      | some raw =>
        if raw ≠ Command.p2pAlive.code ∧ raw ≠ Command.p2pAliveAck.code then
          update fun s => { s with lastReceivedPacket := now }) := rfl

/-- A round of `_sess_timer` after its sleep. -/
def sessTimerRound (L : Listeners ε) (now : ℚ) : SessionM ε Unit := do
  let w ← get
  if w.session.started then
    let delta := now - w.session.lastReceivedPacket
    if 600 < delta then
      send now (← createP2pAlive)
    if w.session.timeoutMs < delta then
      emitDisconnect L
      -- the task returns
      update fun s => { s with sessTimer := false }

/-- The body of the loop of `_resend_timer`, for one entry of the snapshot. -/
def resendEntry (now : ℚ) (entry : ℕ × Unacked) : SessionM ε Unit := do
  if 100 < now - entry.2.sentTs then
    let data := entry.2.data
    let _pktId ← (data.add 6).readU16
    let w ← get
    let data ← data.via 6 (·.writeU16 w.session.outgoingCommandId)
    update fun s => { s with outgoingCommandId := s.outgoingCommandId + 1 }
    update fun s => { s with unackedDrw := s.unackedDrw.erase entry.1 }
    send now data

/-- A round of `_resend_timer` after its sleep, over a snapshot of the pending commands. -/
def resendTimerRound (now : ℚ) : SessionM ε Unit := do
  let w ← get
  w.session.unackedDrw.entries.forM (resendEntry now)

/-- A round of a timer task, which is over when the round raises. -/
def timerTask (round : SessionM ε Unit) (onEnd : Session → Session) : SessionM ε Unit := do
  if (← attempt round).isNone then
    update onEnd

def sessTimer (L : Listeners ε) (now : ℚ) : SessionM ε Unit :=
  timerTask (sessTimerRound L now) fun s => { s with sessTimer := false }

def resendTimer (now : ℚ) : SessionM ε Unit :=
  timerTask (resendTimerRound now) fun s => { s with resendTimer := false }

end CamReverse
