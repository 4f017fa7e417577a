import CamReverse.Discovery
import CamReverse.Frames.DataStream
import CamReverse.Http.Entries
import CamReverse.Unseen

/-!
# The `frame` subcommand

`capture_single` writes the first frame it gets to a file, closes the discovery and the session, and is done. Its `frame`
listener closes the session while the session is still handling the packet. What the handler does after that does not
depend on it (`handleIncomingBy_final`), so a session that is closed within an emission is one that is closed behind it.
-/

namespace CamReverse

open Effect Collector

/-! ### The subcommand -/

/-- What `on_frame` works on besides the session: the discovery, the contents of `out_file` if it was written, and the
event `done`. -/
structure Output where
  discovery : Discovery
  outFile : Option Bytes
  done : Bool

/-- A session that `on_discover` made, and whether its `frame` listener is attached. -/
structure Candidate where
  session : Session
  events : List Event
  attached : Bool

/-- The session as its code sees it. -/
def Candidate.world (cand : Candidate) (out : Output) : World Output := ⟨cand.session, out, cand.events⟩

def Candidate.made (rinfo : String × ℕ) (dev : DevSerial) : Candidate := ⟨.init dev rinfo 5000, [], false⟩

/-- What `capture_single` works on; `sessions` refers to sessions by the order of their making. -/
structure Capture where
  config : Config
  sessions : Table String ℕ
  candidates : List Candidate
  output : Output

/-- The start: the subcommand reads no configuration file. -/
def Capture.start (discoveryIp : String) : Capture where
  config := defaultConfig
  sessions := Table.empty
  candidates := []
  output := ⟨.start (.list [.str discoveryIp]), none, false⟩

/-- `on_discover`. -/
def captureDiscover (rinfo : String × ℕ) (dev : DevSerial) : EStateM PyErr Capture Unit := do
  let c ← get
  if (c.sessions.find? dev.devId).isSome then
    return
  else
    let s := c.candidates.length
    set { c with
      sessions := c.sessions.insert dev.devId s
      candidates := c.candidates ++ [Candidate.made rinfo dev] }
    let config ← setCameraConfig c.config dev.devId (.dict [("fix_packet_loss", .bool false)])
    modify fun c => { c with
      config := config
      candidates := c.candidates.modify s fun cand => { cand with attached := true } }

/-- `on_frame` up to `s.close()`. A write that breaks off leaves the first bytes of the frame. -/
def writeFrame (writing : Writing ℕ) (curImage : List Bytes) : EStateM PyErr Output Unit := do
  let assembled := curImage.flatten
  match writing with
  | .whole => modify fun out => { out with outFile := some assembled, discovery := out.discovery.step .close }
  | .refused _ => throw (.other "OSError")
  | .broken left _ =>
    modify fun out => { out with outFile := some (assembled.take left) }
    throw (.other "OSError")

/-- `event_emitter.emit("frame")`, with `on_frame` as the listener. -/
def emitCaptured (writing : Writing ℕ) (now : ℚ) : SessionM Output Unit := do
  let w ← get
  record (.frame w.session.curImage)
  inApp (writeFrame writing w.session.curImage)
  close (.streaming now)
  inApp (modify fun out => { out with done := true })

def Capture.leave (c : Capture) (k : ℕ) (w : World Output) : Capture :=
  { c with
    output := w.app
    candidates := c.candidates.modify k fun cand => { cand with session := w.session, events := w.events } }

def Capture.onSession (c : Capture) (k : ℕ) (now : ℚ) (cb : Callback) : Capture :=
  match c.candidates[k]? with
  | none => c
  | some cand => c.leave k (callback (.streaming now) now (cand.world c.output) cb)

def Capture.datagram (c : Capture) (k : ℕ) (now : ℚ) (msg : Bytes) (writing : Writing ℕ) : Capture :=
  match c.candidates[k]? with
  | none => c
  | some cand =>
    if cand.session.transport = .opened then
      let emit := if cand.attached then emitCaptured writing now else emitFrame (.streaming now)
      c.leave k (final (handleIncomingBy emit c.config (.streaming now) now msg) (cand.world c.output))
    else c

/-- A callback of the event loop. A PunchPkt reaches an open socket only. -/
inductive CaptureStep where
  | searching (now : ℚ) (results : ℕ → Sendto)
  | blast (now : ℚ) (i : ℕ) (result : Sendto)
  | connectionLost
  | punch (msg : Bytes) (rinfo : String × ℕ)
  | ready (k : ℕ) (now : ℚ)
  | datagram (k : ℕ) (now : ℚ) (msg : Bytes) (writing : Writing ℕ)
  | sessTick (k : ℕ) (now : ℚ)
  | resendTick (k : ℕ) (now : ℚ)

def Capture.search (c : Capture) (step : DiscoveryStep) : Capture :=
  { c with output := { c.output with discovery := c.output.discovery.step step } }

def Capture.step (c : Capture) : CaptureStep → Capture
  | .searching now results => c.search (.ready now results)
  | .blast now i result => c.search (.blast now i result)
  | .connectionLost => c.search .connectionLost
  | .punch msg rinfo =>
    if c.output.discovery.transport = .opened then
      final (handleIncomingPunch Capture.config captureDiscover msg rinfo) c
    else c
  | .ready k now => c.onSession k now .ready
  | .datagram k now msg writing => c.datagram k now msg writing
  | .sessTick k now => c.onSession k now .sessTick
  | .resendTick k now => c.onSession k now .resendTick

def Capture.run (c : Capture) (steps : List CaptureStep) : Capture := steps.foldl Capture.step c

/-! ### Closing within an emission -/

/-- What is left to do for a session whose frame was written. -/
def captured (w : World Output) : World Output where
  session := onDisconnect w.session
  app := { w.app with done := true }
  events := w.events ++ [.disconnect]

def capturedIf (b : Bool) (w : World Output) : World Output := if b then captured w else w

/-- `on_frame` went on behind `open`. -/
def Writing.isWhole {Left : Type} : Writing Left → Bool
  | .whole => true
  | _ => false

/-- The listeners of a session without the end of `on_frame`. -/
def capturing (writing : Writing ℕ) (now : ℚ) : Listeners Output :=
  { Listeners.streaming now with frame := writeFrame writing }

/-- This packet makes the session emit a frame. -/
def DataPkt.finishes {ε : Type} (w : World ε) : DataPkt → Bool
  | .ignored => false
  | .audio _ => false
  | .newFrame _ _ => (collector w.session).complete
  | .chunk _ _ => false

def endsFrame {ε : Type} (msg : Bytes) (w : World ε) : Bool := decide (IsDrwData msg) && (dataPktOf msg).finishes w

/-- This datagram makes the session emit a frame that is written. -/
def captures {ε : Type} (writing : Writing ℕ) (msg : Bytes) (w : World ε) : Bool := writing.isWhole && endsFrame msg w

theorem imaged_capturedIf_false {α : Type} (r : EStateM.Result PyErr (World Output) α) :
    imaged (capturedIf false) r = r := by
  cases r <;> rfl

theorem mirrors_update (b : Bool) {f : Session → Session} (h : ∀ s, onDisconnect (f s) = f (onDisconnect s)) :
    Mirrors (capturedIf b) (update f) (update f) := by
  cases b with
  | false => exact fun w => (imaged_capturedIf_false _).symm
  | true =>
    refine Mirrors.modify fun w => ?_
    show (⟨f (onDisconnect w.session), _, _⟩ : World Output) = ⟨onDisconnect (f w.session), _, _⟩
    rw [h]
    rfl

theorem emitCaptured_eq (writing : Writing ℕ) (now : ℚ) (w : World Output) :
    emitCaptured writing now w = imaged (capturedIf writing.isWhole) (emitFrame (capturing writing now) w) := by
  cases writing <;> rfl

theorem onDisconnect_newFrame (id : ℕ) (buf : Bytes) (s : Session) :
    onDisconnect { s with frameWasFixed := false, frameIsBad := false, curImage := [buf], rcvSeqId := id } =
      { onDisconnect s with frameWasFixed := false, frameIsBad := false, curImage := [buf], rcvSeqId := id } := by
  unfold onDisconnect
  split_ifs <;> rfl

theorem startNewFrameBy_captured (writing : Writing ℕ) (now : ℚ) (id : ℕ) (buf : Bytes) (w : World Output) :
    startNewFrameBy (emitCaptured writing now) id buf w =
      imaged (capturedIf (writing.isWhole && (collector w.session).complete))
        (startNewFrame (capturing writing now) id buf w) := by
  rw [startNewFrame_eq, startNewFrameBy, get_bind_apply, get_bind_apply]
  by_cases hc : (collector w.session).complete = true
  · rw [if_pos ((complete_collector _).1 hc), if_pos ((complete_collector _).1 hc), hc, Bool.and_true]
    exact imaged_bind (emitCaptured_eq writing now w) fun _ => mirrors_update _ (onDisconnect_newFrame id buf)
  · rw [if_neg fun h => hc ((complete_collector _).2 h), if_neg fun h => hc ((complete_collector _).2 h)]
    rw [Bool.not_eq_true] at hc
    rw [hc, Bool.and_false, imaged_capturedIf_false]

theorem handleDataPktBy_captured (writing : Writing ℕ) (config : Config) (now : ℚ) (pkt : DataPkt) (w : World Output) :
    handleDataPktBy (emitCaptured writing now) config (.streaming now) pkt w =
      imaged (capturedIf (writing.isWhole && pkt.finishes w)) (handleDataPkt config (capturing writing now) pkt w) := by
  cases pkt with
  | newFrame id buf => exact startNewFrameBy_captured writing now id buf w
  | _ =>
    rw [DataPkt.finishes, Bool.and_false, imaged_capturedIf_false]
    rfl

theorem dealWithDataBy_captured (writing : Writing ℕ) (config : Config) (now : ℚ) (msg : Bytes) (w : World Output) :
    dealWithDataBy (emitCaptured writing now) config (.streaming now) (DV.ofBytes msg) w =
      imaged (capturedIf (writing.isWhole && (dataPktOf msg).finishes w))
        (dealWithData config (capturing writing now) (DV.ofBytes msg) w) := by
  rw [dealWithDataBy_eq, dealWithData_eq, dataPktOf]
  cases readDataPkt (DV.ofBytes msg) with
  | ok pkt => exact handleDataPktBy_captured writing config now pkt w
  | error e =>
    rw [DataPkt.finishes, Bool.and_false, imaged_capturedIf_false]
    rfl

theorem handleDrwBy_captured (writing : Writing ℕ) (config : Config) (now : ℚ) {msg : Bytes} (hmsg : IsDrwData msg)
    (w : World Output) :
    handleDrwBy (emitCaptured writing now) config (.streaming now) now (DV.ofBytes msg) w =
      imaged (capturedIf (captures writing msg w)) (handleDrw config (capturing writing now) now (DV.ofBytes msg) w) := by
  rw [handleDrw_eq]
  unfold handleDrwBy captures endsFrame
  rw [decide_eq_true hmsg, Bool.true_and]
  by_cases hlen : 8 ≤ msg.length
  · obtain ⟨ack, hack, hraw⟩ := makeDrwAck_ok hlen
    have hstream : ((DV.ofBytes msg).add 5).readU8 = .ok 1 := by
      have h5 := DV.readU8_ofBytes msg 5
      rw [if_pos (by omega), List.getD_eq_getElem?_getD, hmsg.2] at h5
      exact h5
    rw [hack, hstream]
    simp only [liftM_eq_lift, lift_ok_bind, if_pos]
    rw [bind_ok (send_other now hraw (by decide) w), bind_ok (send_other now hraw (by decide) w)]
    exact dealWithDataBy_captured writing config now msg { w with events := w.events ++ wired w ack.toBytes }
  · rw [makeDrwAck_error hlen, dataPktOf_short hlen, DataPkt.finishes, Bool.and_false, imaged_capturedIf_false]
    rfl

theorem handleDrwBy_other (writing : Writing ℕ) (config : Config) (now : ℚ) {dv : DV} (h : (dv.add 5).readU8 ≠ .ok 1) :
    handleDrwBy (emitCaptured writing now) config (.streaming now) now dv =
      handleDrw config (capturing writing now) now dv := by
  rw [handleDrw_eq]
  unfold handleDrwBy
  refine congrArg _ (funext fun ack => congrArg _ (funext fun _ => ?_))
  rcases hstream : (dv.add 5).readU8 with e | mStream
  · rfl
  · have hne : mStream ≠ 1 := by
      rintro rfl
      exact h hstream
    simp only [liftM_eq_lift, lift_ok_bind, if_neg hne]
    rfl

theorem dispatchBy_other (writing : Writing ℕ) (config : Config) (now : ℚ) {msg : Bytes} (hmsg : ¬IsDrwData msg) :
    dispatchBy (emitCaptured writing now) config (.streaming now) now (DV.ofBytes msg) =
      dispatch config (capturing writing now) now (DV.ofBytes msg) := by
  rw [dispatch_eq]
  unfold dispatchBy
  rcases hraw : (DV.ofBytes msg).readU16 with e | raw
  · rfl
  · simp only [liftM_eq_lift, lift_ok_bind]
    cases hcmd : commandsByValue raw with
    | none => rfl
    | some cmd =>
      cases cmd with
      | drw =>
        rw [← code_of_commandsByValue hcmd] at hraw
        have hstream : ((DV.ofBytes msg).add 5).readU8 ≠ .ok 1 := fun h => hmsg (isDrwData_of_read hraw h)
        exact congrArg (· >>= fun _ => pure raw) (handleDrwBy_other writing config now hstream)
      | _ => rfl

/-- **Closing within an emission.** A datagram whose handler closes the session when it emits a frame leaves what one
does that is closed afterwards. -/
theorem handleIncomingBy_final (writing : Writing ℕ) (config : Config) (now : ℚ) (msg : Bytes) (w : World Output) :
    final (handleIncomingBy (emitCaptured writing now) config (.streaming now) now msg) w =
      capturedIf (captures writing msg w) (final (handleIncoming config (capturing writing now) now msg) w) := by
  have hdispatch : dispatchBy (emitCaptured writing now) config (.streaming now) now (DV.ofBytes msg) w =
      imaged (capturedIf (captures writing msg w)) (dispatch config (capturing writing now) now (DV.ofBytes msg) w) := by
    by_cases hmsg : IsDrwData msg
    · rw [dispatch_eq]
      unfold dispatchBy
      rw [readU16_drw hmsg]
      simp only [liftM_eq_lift, lift_ok_bind]
      exact imaged_bind (handleDrwBy_captured writing config now hmsg w) fun _ => Mirrors.pure _
    · rw [dispatchBy_other writing config now hmsg, captures, endsFrame, decide_eq_false hmsg, Bool.false_and,
        Bool.and_false, imaged_capturedIf_false]
  have hclock : ∀ s : Session, onDisconnect { s with lastReceivedPacket := now } =
      { onDisconnect s with lastReceivedPacket := now } := by
    intro s
    unfold onDisconnect
    split_ifs <;> rfl
  have hincoming : handleIncomingBy (emitCaptured writing now) config (.streaming now) now msg w =
      imaged (capturedIf (captures writing msg w)) (handleIncoming config (capturing writing now) now msg w) := by
    refine imaged_bind (imaged_attempt hdispatch) fun handled => ?_
    cases handled with
    | none => exact Mirrors.pure _
    | some raw => exact Mirrors.ite (mirrors_update _ hclock) (Mirrors.pure _)
  unfold final
  rw [hincoming]
  cases handleIncoming config (capturing writing now) now msg w <;> rfl

end CamReverse
