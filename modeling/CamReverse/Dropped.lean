import CamReverse.Control.Reading
import CamReverse.Frames.Refused
import CamReverse.Lifecycle
import CamReverse.Retransmission

/-!
# Dropped packets

`_handle_incoming` drops a packet whose handler raises. What the handler did before stays done, so the drop is
quiet only if the handler raises before it does anything. Two handlers can raise later: `handle_drw`
acknowledges a packet before it reads it, and `handle_drw_ack` removes the ids it has read when the next one is
cropped. `quiet_drop_iff` says for which packets that happens.
-/

namespace CamReverse

open Effect Bytes

variable {ε : Type}

/-! ### Building and sending do not raise -/

/-- A view of a whole buffer of at least `size` bytes. -/
def Whole (size : ℕ) (dv : DV) : Prop := ∃ buf, dv = DV.ofBytes buf ∧ size ≤ buf.length

theorem whole_writeByteArray {size : ℕ} {dv : DV} (hdv : Whole size dv) (k : ℕ) (arr : Bytes) :
    ∃ dv', dv.via k (fun view => .ok (view.writeByteArray arr)) = .ok dv' ∧ Whole size dv' := by
  obtain ⟨buf, rfl, hlen⟩ := hdv
  exact ⟨_, DV.via_writeByteArray buf arr k, _, rfl, hlen.trans (length_le_length_put buf k _)⟩

theorem makeDataReadWrite_returns (command : ℕ) {data : Option DV} {bufCopy : Option Bytes}
    (hdata : obfuscatedCopy data = .ok bufCopy) (w : World ε) :
    ∃ buf w', makeDataReadWrite command data w = .ok (DV.ofBytes buf) w' ∧
      IsCommand buf w.session.outgoingCommandId := by
  obtain ⟨buf, hbuilt, hcommand⟩ :=
    dataReadWrite_returns w.session.outgoingCommandId w.session.ticket command hdata
  rw [makeDataReadWrite_apply, hbuilt]
  exact ⟨buf, _, rfl, hcommand.toIsCommand⟩

theorem sendListWifi_returns (w : World ε) :
    ∃ buf w', sendListWifi w = .ok (DV.ofBytes buf) w' ∧ IsCommand buf w.session.outgoingCommandId :=
  makeDataReadWrite_returns _ rfl w

theorem whole_writeString {size : ℕ} {dv : DV} (hdv : Whole size dv) {s : String} {arr : Bytes}
    (hs : encodeLatin1 s = .ok arr) : ∃ dv', dv.writeString s = .ok dv' ∧ Whole size dv' := by
  obtain ⟨dv', hdv', hwhole⟩ := whole_writeByteArray hdv 0 arr
  obtain ⟨buf, rfl, -⟩ := hdv
  refine ⟨dv', ?_, hwhole⟩
  rw [DV.writeString, hs]
  exact hdv'

theorem whole_via_writeString {size : ℕ} {dv : DV} (hdv : Whole size dv) (k : ℕ) {s : String} {arr : Bytes}
    (hs : encodeLatin1 s = .ok arr) : ∃ dv', dv.via k (·.writeString s) = .ok dv' ∧ Whole size dv' := by
  obtain ⟨dv', hdv', hwhole⟩ := whole_writeByteArray hdv k arr
  refine ⟨dv', ?_, hwhole⟩
  rw [DV.via, DV.writeString, hs]
  exact hdv'

theorem handleP2pRdy_returns (now : ℚ) (w : World ε) : Returns (handleP2pRdy now) w := by
  have hadmin : encodeLatin1 "admin" = .ok [0x61, 0x64, 0x6d, 0x69, 0x6e] := by decide
  have hblank : Whole 160 (DV.alloc (0x20 + 0x80)) := ⟨_, rfl, by rw [List.length_replicate]⟩
  obtain ⟨dv₁, hdv₁, hwhole₁⟩ := whole_writeString hblank hadmin
  obtain ⟨dv₂, hdv₂, buf₂, rfl, hlen⟩ := whole_via_writeString hwhole₁ 0x20 hadmin
  have hlong : 4 < (DV.ofBytes buf₂).toBytes.length := by
    rw [DV.toBytes_ofBytes]
    omega
  obtain ⟨buf, w', hbuilt, hcommand⟩ :=
    makeDataReadWrite_returns ControlCommand.connectUser.code (obfuscatedCopy_some hlong) w
  have hcheck : sendUsrChk "admin" "admin" w = .ok (DV.ofBytes buf) w' := by
    unfold sendUsrChk
    simp only [hdv₁, liftM_eq_lift, lift_ok_bind]
    rw [show dv₁.via 0x20 (·.writeString "admin") = _ from hdv₂]
    exact hbuilt
  unfold handleP2pRdy
  rw [returns_bind hcheck]
  exact ⟨_, _, send_command hcommand now w'⟩

/-! ### Data packets -/

/-- The fields `_deal_with_data` reads behind the first eight bytes lie inside the packet. -/
def DataFits (msg : Bytes) : Prop :=
  12 ≤ ofBE (field msg 2 2) → FRAME_HEADER.isPrefixOf (field msg 8 4) = true →
    13 ≤ msg.length ∧ ((msg.getD 12 0).toNat = STREAM_TYPE_AUDIO → 26 ≤ msg.length)

theorem isOk_readDataPkt {msg : Bytes} (hlen : 8 ≤ msg.length) :
    (readDataPkt (DV.ofBytes msg)).isOk = true ↔ DataFits msg := by
  unfold readDataPkt DataFits
  rw [show ((DV.ofBytes msg).add 2).readU16 = _ from DV.readU16_ofBytes msg 2, if_pos (by omega),
    except_ok_bind]
  split_ifs with hshort
  · exact iff_of_true rfl fun h => absurd hshort (by omega)
  · rw [show ((DV.ofBytes msg).add 6).readU16 = _ from DV.readU16_ofBytes msg 6, if_pos (by omega),
      except_ok_bind,
      show ((DV.ofBytes msg).add 8).readByteArray 4 = field msg 8 4 from DV.readByteArray_ofBytes msg 8 4]
    by_cases hframed : FRAME_HEADER.isPrefixOf (field msg 8 4) = true
    · simp only [hframed, if_true, show 12 ≤ ofBE (field msg 2 2) by omega, forall_true_left]
      rw [show ((DV.ofBytes msg).add 12).readU8 = _ from DV.readU8_ofBytes msg 12]
      by_cases htype : 12 < msg.length
      · rw [if_pos htype, except_ok_bind]
        split_ifs with haudio
        · refine (isOk_bind (DV.isOk_read ofLE msg 24 2) fun _ => iff_of_true rfl trivial).trans ?_
          simp only [and_true]
          exact ⟨fun h => ⟨htype, fun _ => h⟩, fun h => h.2 haudio⟩
        all_goals exact iff_of_true rfl ⟨htype, fun h => absurd h haudio⟩
      · rw [if_neg htype]
        exact iff_of_false Bool.false_ne_true fun h => htype h.1
    · simp only [hframed, Bool.false_eq_true, if_false]
      split_ifs <;> exact iff_of_true rfl (by simp)

/-- `_deal_with_data` does not raise on what it read. -/
def PktHandled (config : Config) (L : Listeners ε) (w : World ε) : DataPkt → Prop
  | .ignored => True
  | .audio data => Returns (L.audio data) w.app
  | .newFrame _ _ => ¬HeaderRaises L w
  | .chunk id _ => w.session.rcvSeqId + 1 < id → (fixPacketLoss config w.session.devName).isOk = true

theorem returns_inApp (m : EStateM PyErr ε Unit) (w : World ε) : Returns (inApp m) w ↔ Returns m w.app := by
  unfold Returns inApp onPart
  cases m w.app with
  | ok u app => exact iff_of_true ⟨_, _, rfl⟩ ⟨u, app, rfl⟩
  | error e app => exact iff_of_false (by rintro ⟨_, _, ⟨⟩⟩) (by rintro ⟨_, _, ⟨⟩⟩)

theorem returns_get_bind {σ α : Type} (k : σ → EStateM PyErr σ α) (s : σ) :
    Returns (get >>= k) s ↔ Returns (k s) s := Iff.rfl

theorem returns_startNewFrame (L : Listeners ε) (id : ℕ) (buf : Bytes) (w : World ε) :
    Returns (startNewFrame L id buf) w ↔ ¬HeaderRaises L w := by
  rw [startNewFrame_eq]
  unfold HeaderRaises
  rw [returns_get_bind, complete_collector]
  split_ifs with hcomplete
  · cases hr : frameRefused L w with
    | false =>
      rw [returns_bind (emitFrame_ok hr)]
      exact iff_of_true ⟨_, _, rfl⟩ (by simp)
    | true =>
      obtain ⟨e, he⟩ := emitFrame_error hr
      refine iff_of_false (fun h => ?_) (by simp [hcomplete])
      exact not_returns.2 ⟨e, _, he⟩ h.of_bind
  · exact iff_of_true ⟨_, _, rfl⟩ fun h => hcomplete h.1

theorem returns_continueFrame (config : Config) (id : ℕ) (b : Bytes) (w : World ε) :
    Returns (continueFrame config id b) w ↔
      (w.session.rcvSeqId + 1 < id → (fixPacketLoss config w.session.devName).isOk = true) := by
  unfold continueFrame
  rw [returns_get_bind]
  by_cases hold : id ≤ w.session.rcvSeqId
  · rw [if_pos hold]
    exact iff_of_true (returns_pure _ w) fun h => absurd hold (by omega)
  · rw [if_neg hold]
    by_cases hgap : w.session.rcvSeqId + 1 < id
    · rw [if_pos hgap, returns_bind (show update _ w = .ok () _ from rfl), forall_prop_of_true hgap]
      cases hfix : fixPacketLoss config w.session.devName with
      | error e => exact iff_of_false (by rintro ⟨_, _, ⟨⟩⟩) Bool.false_ne_true
      | ok fix =>
        refine iff_of_true ?_ rfl
        rw [liftM_eq_lift, lift_ok_bind]
        split_ifs
        · split <;> exact ⟨_, _, rfl⟩
        all_goals exact returns_pure _ _
    · rw [if_neg hgap]
      exact iff_of_true ⟨_, _, rfl⟩ fun h => absurd h hgap

theorem returns_handleDataPkt (config : Config) (L : Listeners ε) (pkt : DataPkt) (w : World ε) :
    Returns (handleDataPkt config L pkt) w ↔ PktHandled config L w pkt := by
  cases pkt with
  | ignored => exact iff_of_true (returns_pure _ w) trivial
  | audio data =>
    have hrecord : record (.audio data) w = .ok () { w with events := w.events ++ [.audio data] } := rfl
    exact (returns_bind hrecord _).trans (returns_inApp _ _)
  | newFrame id buf => exact returns_startNewFrame L id buf w
  | chunk id b => exact returns_continueFrame config id b w

theorem returns_dealWithData (config : Config) (L : Listeners ε) {msg : Bytes} (hlen : 8 ≤ msg.length)
    (w : World ε) :
    Returns (dealWithData config L (DV.ofBytes msg)) w ↔
      DataFits msg ∧ PktHandled config L w (dataPktOf msg) := by
  rw [dealWithData_eq, returns_lift_bind, ← isOk_readDataPkt hlen, dataPktOf]
  cases hread : readDataPkt (DV.ofBytes msg) with
  | error e => exact iff_of_false (by rintro ⟨_, ⟨⟩, _⟩) fun h => Bool.false_ne_true h.1
  | ok pkt =>
    simp only [Except.ok.injEq, exists_eq_left', returns_handleDataPkt]
    exact (and_iff_right rfl).symm

/-! ### Control packets -/

def loggedIn (dv : DV) (w : World ε) : World ε :=
  { w with
    session := { w.session with ticket := (dv.add 0x18).readByteArray 4 }
    events := w.events ++ [.login] }

/-- The handler does not raise behind the deobfuscation. -/
def AnswerHandled (L : Listeners ε) (w : World ε) (msg : Bytes) (dv : DV) : Prop :=
  if ofBE (field msg 10 2) = ControlCommand.connectUserAck.code then
    Returns L.login (loggedIn dv w)
  else if ofBE (field msg 10 2) = ControlCommand.devStatusAck.code then
    44 ≤ msg.length
  else if ofBE (field msg 10 2) = ControlCommand.wifiSettingsAck.code then
    44 ≤ msg.length
  else if ofBE (field msg 10 2) = ControlCommand.listWifiAck.code then
    usedLen msg = 4 ∨ 20 ≤ msg.length ∧ ∀ items, parseListWifi dv = .ok items →
      Returns (L.listWifi items) { w with events := w.events ++ [.listWifi items] }
  else True

/-- A control packet is read, and answered, without raising. -/
structure ControlHandled (L : Listeners ε) (w : World ε) (msg : Bytes) : Prop where
  header : 14 ≤ msg.length
  payload : ofBE (field msg 8 2) = 0x110A → PayloadFits msg.length (usedLen msg)
  answer : ofBE (field msg 8 2) = 0x110A → ∀ dv, deobfuscated (DV.ofBytes msg) (usedLen msg) = .ok dv →
    AnswerHandled L w msg dv

/-- `create_response_for_control_command`, with the answers sent. -/
def answerControl (L : Listeners ε) (now : ℚ) (dv : DV) : SessionM ε Unit := do
  let pkts ← createResponseForControlCommand L dv
  pkts.forM (send now)

theorem returns_controlAnswer (L : Listeners ε) (now : ℚ) {msg buf : Bytes} (hsame : buf.length = msg.length)
    (w : World ε) :
    Returns (controlAnswer L (ofBE (field msg 10 2)) (usedLen msg) (DV.ofBytes buf) >>= fun pkts =>
        pkts.forM (send now)) w ↔ AnswerHandled L w msg (DV.ofBytes buf) := by
  unfold controlAnswer AnswerHandled
  simp only [liftM_eq_lift]
  split_ifs with hlogin hdevStatus hwifiSettings hlistWifi hnone
  · rw [bind_assoc, returns_bind (show update _ w = .ok () _ from rfl), bind_assoc]
    exact returns_bind_pure L.login (fun _ => ()) (loggedIn (DV.ofBytes buf) w)
  · rw [bind_assoc, returns_lift_bind, ← hsame, ← isOk_parseDevStatusAck, isOk_iff]
    exact exists_congr fun status => and_iff_left (returns_pure _ w)
  · rw [bind_assoc, returns_lift_bind, ← hsame, ← isOk_parseWifiSettings, isOk_iff]
    refine exists_congr fun wifiSettings => and_iff_left ?_
    obtain ⟨pkt, w', hbuilt, hcommand⟩ := sendListWifi_returns w
    rw [bind_assoc, returns_bind hbuilt, pure_bind]
    exact (returns_bind (send_command hcommand now w') _).2 (returns_pure _ _)
  · exact iff_of_true (returns_pure _ w) (.inl hnone)
  · rw [bind_assoc, returns_lift_bind, or_iff_right hnone, ← hsame, ← isOk_parseListWifi]
    cases parseListWifi (DV.ofBytes buf) with
    | error e => exact iff_of_false (by rintro ⟨_, ⟨⟩, _⟩) fun h => Bool.false_ne_true h.1
    | ok items =>
      simp only [Except.ok.injEq, exists_eq_left', forall_eq']
      rw [bind_assoc]
      refine (returns_bind_pure (emitListWifi L items) (fun _ => ()) w).trans ?_
      exact (and_iff_right rfl).symm
  · exact iff_of_true (returns_pure _ w) trivial

theorem returns_answerControl (L : Listeners ε) (now : ℚ) (msg : Bytes) (w : World ε) :
    Returns (answerControl L now (DV.ofBytes msg)) w ↔ ControlHandled L w msg := by
  unfold answerControl
  by_cases hlen : 14 ≤ msg.length
  · rw [createResponse_eq L hlen]
    split_ifs with hstart
    · exact iff_of_true (returns_pure _ w) ⟨hlen, fun h => absurd h hstart, fun h => absurd h hstart⟩
    · rw [not_not] at hstart
      obtain ⟨hfits, hkeep⟩ := isOk_deobfuscated msg (usedLen msg)
      rw [bind_assoc, returns_lift_bind]
      constructor
      · rintro ⟨dv, hdv, hanswer⟩
        obtain ⟨buf, rfl, hsame⟩ := hkeep dv hdv
        refine ⟨hlen, fun _ => hfits.1 (isOk_iff.2 ⟨_, hdv⟩), fun _ dv' hdv' => ?_⟩
        obtain rfl := Except.ok.inj (hdv.symm.trans hdv')
        exact (returns_controlAnswer L now hsame w).1 hanswer
      · intro h
        obtain ⟨dv, hdv⟩ := isOk_iff.1 (hfits.2 (h.payload hstart))
        obtain ⟨buf, rfl, hsame⟩ := hkeep dv hdv
        exact ⟨_, hdv, (returns_controlAnswer L now hsame w).2 (h.answer hstart _ hdv)⟩
  · refine iff_of_false (fun h => ?_) fun h => hlen h.header
    have hread : Returns (createResponseForControlCommand L (DV.ofBytes msg)) w := h.of_bind
    obtain ⟨_, _, hread⟩ := returns_lift_bind.1 hread
    obtain ⟨_, _, hread⟩ := returns_lift_bind.1 hread
    obtain ⟨payloadLen, hpayloadLen, -⟩ := returns_lift_bind.1 hread
    exact hlen ((DV.isOk_read ofLE msg 12 2).1 (isOk_iff.2 ⟨payloadLen, hpayloadLen⟩))

/-! ### Drw packets -/

/-- The world after the acknowledgement of `msg`. -/
def acknowledged (msg : Bytes) (w : World ε) : World ε := { w with events := w.events ++ ackEvents msg w }

/-- `handle_drw` behind the acknowledgement. -/
def drwRest (config : Config) (L : Listeners ε) (now : ℚ) (dv : DV) : SessionM ε Unit := do
  let mStream ← (dv.add 5).readU8
  if mStream = 1 then
    dealWithData config L dv
  else if mStream = 0 then
    answerControl L now dv

/-- `handle_drw` does not raise behind the acknowledgement. -/
structure DrwHandled (config : Config) (L : Listeners ε) (w : World ε) (msg : Bytes) : Prop where
  data : (msg.getD 5 0).toNat = 1 → DataFits msg ∧ PktHandled config L w (dataPktOf msg)
  control : (msg.getD 5 0).toNat = 0 → ControlHandled L w msg

theorem handleDrw_apply (config : Config) (L : Listeners ε) (now : ℚ) {msg : Bytes} (hlen : 8 ≤ msg.length)
    (w : World ε) :
    handleDrw config L now (DV.ofBytes msg) w = drwRest config L now (DV.ofBytes msg) (acknowledged msg w) := by
  obtain ⟨ack, hack, hraw⟩ := makeDrwAck_ok hlen
  have hsent := send_other now hraw (by decide) w
  rw [handleDrw_eq]
  unfold acknowledged ackEvents
  rw [hack]
  exact bind_ok hsent _

theorem returns_drwRest (config : Config) (L : Listeners ε) (now : ℚ) {msg : Bytes} (hlen : 8 ≤ msg.length)
    (w : World ε) :
    Returns (drwRest config L now (DV.ofBytes msg)) w ↔ DrwHandled config L w msg := by
  unfold drwRest
  rw [show ((DV.ofBytes msg).add 5).readU8 = _ from DV.readU8_ofBytes msg 5, if_pos (by omega), liftM_eq_lift,
    lift_ok_bind]
  split_ifs with hdata hcontrol
  · rw [returns_dealWithData config L hlen]
    exact ⟨fun h => ⟨fun _ => h, fun h0 => absurd (hdata.symm.trans h0) (by decide)⟩, fun h => h.data hdata⟩
  · rw [returns_answerControl]
    exact ⟨fun h => ⟨fun h1 => absurd h1 hdata, fun _ => h⟩, fun h => h.control hcontrol⟩
  · exact iff_of_true (returns_pure _ w) ⟨fun h1 => absurd h1 hdata, fun h0 => absurd h0 hcontrol⟩

theorem byEvents_drwRest {L : Listeners ε} (hL : L.Orderly) (config : Config) (now : ℚ) (dv : DV) :
    Along (ByEvents L) (drwRest config L now dv) := by
  have h := ByEvents.respects hL
  refine Along.bind (Along.lift _) fun mStream => Along.ite (fun _ => h.dealWithData config dv) fun _ =>
    Along.ite (fun _ => ?_) fun _ => Along.pure _
  exact Along.bind (h.createResponseForControlCommand dv) fun pkts => Along.forM fun _ _ => h.send now _

/-! ### Acknowledgements of commands -/

/-- All the ids a DrwAck announces are there. -/
def AcksFit (msg : Bytes) : Prop := 8 + 2 * ofBE (field msg 6 2) ≤ msg.length

theorem returns_handleDrwAck (msg : Bytes) (w : World ε) :
    Returns (handleDrwAck (DV.ofBytes msg)) w ↔ AcksFit msg := by
  unfold handleDrwAck AcksFit
  rw [show ((DV.ofBytes msg).add 6).readU16 = _ from DV.readU16_ofBytes msg 6]
  split_ifs with hlen
  · have hround : ∀ (i : ℕ) (w : World ε), Returns (do
        let ackId ← ((DV.ofBytes msg).add (8 + i * 2)).readU16
        ackDrw ackId : SessionM ε Unit) w ↔ 8 + i * 2 + 2 ≤ msg.length := by
      intro i w
      have hread := DV.isOk_read ofBE msg (8 + i * 2) 2
      push_cast at hread
      rw [← hread, isOk_iff]
      exact returns_lift_bind.trans (exists_congr fun id => and_iff_left ⟨_, _, rfl⟩)
    rw [liftM_eq_lift, lift_ok_bind, returns_forM hround]
    simp only [List.mem_range]
    constructor
    · intro h
      have hlast := h (ofBE (field msg 6 2) - 1)
      omega
    · intro h i hi
      omega
  · exact iff_of_false (by rintro ⟨_, _, ⟨⟩⟩) (by omega)

/-! ### One datagram -/

/-- `_handle_incoming` ends on its `except` branch. -/
def Dropped (config : Config) (L : Listeners ε) (now : ℚ) (msg : Bytes) (w : World ε) : Prop :=
  ∃ t, attempt (dispatch config L now (DV.ofBytes msg)) w = .ok none t

theorem dropped_iff (config : Config) (L : Listeners ε) (now : ℚ) (msg : Bytes) (w : World ε) :
    Dropped config L now msg w ↔ ¬Returns (dispatch config L now (DV.ofBytes msg)) w := by
  rw [not_returns]
  unfold Dropped attempt
  cases dispatch config L now (DV.ofBytes msg) w with
  | ok raw t => exact iff_of_false (by rintro ⟨_, ⟨⟩⟩) (by rintro ⟨_, _, ⟨⟩⟩)
  | error e t => exact iff_of_true ⟨t, rfl⟩ ⟨e, t, rfl⟩

theorem final_of_dropped {config : Config} {L : Listeners ε} {now : ℚ} {msg : Bytes} {w : World ε}
    (h : Dropped config L now msg w) :
    final (handleIncoming config L now msg) w = final (dispatch config L now (DV.ofBytes msg)) w := by
  obtain ⟨t, hdropped⟩ := h
  rw [handleIncoming_eq]
  rw [final, bind_ok hdropped, ← final_attempt]
  unfold final
  rw [hdropped]
  rfl

def commandOf (msg : Bytes) : Option Command :=
  match (DV.ofBytes msg).readU16 with
  | .ok raw => commandsByValue raw
  | .error _ => none

theorem dispatch_of_command {msg : Bytes} {cmd : Command} (h : commandOf msg = some cmd) (config : Config)
    (L : Listeners ε) (now : ℚ) :
    ∃ raw, dispatch config L now (DV.ofBytes msg) =
      handlers config L now cmd (DV.ofBytes msg) >>= fun _ => pure raw := by
  unfold commandOf at h
  rw [dispatch_eq]
  cases hraw : (DV.ofBytes msg).readU16 with
  | error e =>
    rw [hraw] at h
    cases h
  | ok raw =>
    simp only [hraw] at h
    refine ⟨raw, ?_⟩
    rw [liftM_eq_lift, lift_ok_bind, h]

theorem dispatch_of_none {msg : Bytes} (h : commandOf msg = none) (config : Config) (L : Listeners ε) (now : ℚ)
    (w : World ε) : final (dispatch config L now (DV.ofBytes msg)) w = w := by
  unfold commandOf at h
  rw [dispatch_eq]
  unfold notImpl
  cases hraw : (DV.ofBytes msg).readU16 with
  | error e => rfl
  | ok raw =>
    simp only [hraw] at h
    rw [liftM_eq_lift, lift_ok_bind, h]
    rfl

/-- The handlers of the other packet types raise before they do anything, if at all. -/
theorem handlers_raise_first {cmd : Command} (hdrw : cmd ≠ .drw) (hdrwAck : cmd ≠ .drwAck) (config : Config)
    (L : Listeners ε) (now : ℚ) (msg : Bytes) (w : World ε) :
    Returns (handlers config L now cmd (DV.ofBytes msg)) w ∨
      final (handlers config L now cmd (DV.ofBytes msg)) w = w := by
  have hnotImpl : final (notImpl (DV.ofBytes msg)) w = w := by
    unfold notImpl
    cases (DV.ofBytes msg).readU16 <;> rfl
  cases cmd with
  | p2pAlive =>
    obtain ⟨ack, hack, hraw⟩ : ∃ ack, createP2pAliveAck = .ok ack ∧
        ack.readU16 = .ok Command.p2pAliveAck.code := ⟨_, rfl, rfl⟩
    refine .inl ?_
    show Returns (liftM createP2pAliveAck >>= send now) w
    rw [hack]
    exact ⟨_, _, send_other now hraw (by decide) w⟩
  | p2pRdy => exact .inl (handleP2pRdy_returns now w)
  | close =>
    by_cases hlen : 8 ≤ msg.length
    · obtain ⟨ack, hack, hraw⟩ := makeDrwAck_ok hlen
      have hclose : handleClose L now (DV.ofBytes msg) = send now ack >>= fun _ => close L := by
        unfold handleClose
        rw [hack]
        rfl
      refine .inl ?_
      show Returns (handleClose L now (DV.ofBytes msg)) w
      rw [hclose, returns_bind (send_other now hraw (by decide) w)]
      exact ⟨(), _, rfl⟩
    · refine .inr ?_
      show final (handleClose L now (DV.ofBytes msg)) w = w
      unfold handleClose
      rw [makeDrwAck_error hlen]
      rfl
  | p2pAliveAck => exact .inl (returns_pure _ w)
  | drw => exact absurd rfl hdrw
  | drwAck => exact absurd rfl hdrwAck
  | _ => exact .inr hnotImpl

/-! ### Quiet drops -/

/-- `m` is the DrwAck of the packet. -/
def IsAckOf (msg m : Bytes) : Prop := ∃ ack, makeDrwAck (DV.ofBytes msg) = .ok ack ∧ m = ack.toBytes

/-- A packet that changed nothing of these fields, and made the session emit nothing and not acknowledge it. -/
structure Untouched (msg : Bytes) (w w' : World ε) : Prop where
  ticket : w'.session.ticket = w.session.ticket
  unackedDrw : w'.session.unackedDrw = w.session.unackedDrw
  outgoingCommandId : w'.session.outgoingCommandId = w.session.outgoingCommandId
  curImage : w'.session.curImage = w.session.curImage
  rcvSeqId : w'.session.rcvSeqId = w.session.rcvSeqId
  frameIsBad : w'.session.frameIsBad = w.session.frameIsBad
  connected : w'.session.connected = w.session.connected
  events : ∃ evs, w'.events = w.events ++ evs ∧ ∀ ev ∈ evs, ∃ m, ev = .sent m ∧ ¬IsAckOf msg m

theorem Untouched.refl (msg : Bytes) (w : World ε) : Untouched msg w w :=
  ⟨rfl, rfl, rfl, rfl, rfl, rfl, rfl, [], (List.append_nil _).symm, by simp⟩

/-- When the packet, if it is dropped, is dropped before its handler has done anything. -/
def DropsQuietly (config : Config) (L : Listeners ε) (w : World ε) (msg : Bytes) : Prop :=
  match commandOf msg with
  | some .drw => 8 ≤ msg.length → DrwHandled config L (acknowledged msg w) msg
  | some .drwAck => AcksFit msg ∨ ∀ id ∈ ackedIds msg, id ∉ w.session.unackedDrw.keys
  | _ => True

/-- A Drw packet is acknowledged before it is read. -/
theorem untouched_handleDrw_iff {L : Listeners ε} (hL : L.Orderly) (config : Config) (now : ℚ) (msg : Bytes)
    {w : World ε} (hopened : w.session.transport = .opened) :
    (¬Returns (handleDrw config L now (DV.ofBytes msg)) w →
        Untouched msg w (final (handleDrw config L now (DV.ofBytes msg)) w)) ↔
      (8 ≤ msg.length → DrwHandled config L (acknowledged msg w) msg) := by
  by_cases hlen : 8 ≤ msg.length
  · rw [forall_prop_of_true hlen, ← returns_drwRest config L now hlen]
    have happly := handleDrw_apply config L now hlen w
    have hreturns : Returns (handleDrw config L now (DV.ofBytes msg)) w ↔
        Returns (drwRest config L now (DV.ofBytes msg)) (acknowledged msg w) := by
      unfold Returns
      rw [happly]
    rw [hreturns]
    refine ⟨fun h => ?_, fun h hnot => absurd h hnot⟩
    by_contra hraises
    obtain ⟨evs, hevs, hquiet⟩ := (h hraises).events
    obtain ⟨evs', hevs', -, -⟩ := byEvents_drwRest hL config now (DV.ofBytes msg) (acknowledged msg w)
    obtain ⟨ack, hack, -⟩ := makeDrwAck_ok hlen
    have hsame : evs = .sent ack.toBytes :: evs' := by
      have hacked : (acknowledged msg w).events = w.events ++ [.sent ack.toBytes] := by
        rw [acknowledged, ackEvents, hack]
        exact congrArg (w.events ++ ·) (if_pos hopened)
      rw [final, happly, ← final, hevs', hacked, List.append_assoc] at hevs
      exact (List.append_cancel_left hevs).symm
    obtain ⟨m, hm, hnoAck⟩ := hquiet (.sent ack.toBytes) (by rw [hsame]; exact List.mem_cons_self)
    exact hnoAck ⟨ack, hack, (Event.sent.inj hm).symm⟩
  · refine iff_of_true (fun _ => ?_) fun h => absurd h hlen
    have hfinal : final (handleDrw config L now (DV.ofBytes msg)) w = w := by
      rw [handleDrw_eq]
      rw [makeDrwAck_error hlen]
      rfl
    rw [hfinal]
    exact Untouched.refl msg w

theorem untouched_handleDrwAck_iff (msg : Bytes) (w : World ε) :
    (¬Returns (handleDrwAck (DV.ofBytes msg)) w → Untouched msg w (final (handleDrwAck (DV.ofBytes msg)) w)) ↔
      AcksFit msg ∨ ∀ id ∈ ackedIds msg, id ∉ w.session.unackedDrw.keys := by
  rw [returns_handleDrwAck, ← Table.foldl_erase_eq_self, handleDrwAck_final, or_iff_not_imp_left]
  refine imp_congr_right fun _ => ⟨fun h => h.unackedDrw, fun h => ?_⟩
  rw [h]
  exact Untouched.refl msg w

/-- **A bad packet drops quietly** exactly when its handler raises before it did anything; a datagram only reaches
an open transport. -/
theorem quiet_drop_iff (config : Config) (L : Listeners ε) (now : ℚ) (msg : Bytes) (w : World ε)
    (hL : L.Orderly) (hopened : w.session.transport = .opened) :
    (Dropped config L now msg w → Untouched msg w (final (handleIncoming config L now msg) w)) ↔
      DropsQuietly config L w msg := by
  have hdispatch : (Dropped config L now msg w → Untouched msg w (final (handleIncoming config L now msg) w)) ↔
      (¬Returns (dispatch config L now (DV.ofBytes msg)) w →
        Untouched msg w (final (dispatch config L now (DV.ofBytes msg)) w)) := by
    rw [← dropped_iff config L now msg w]
    exact forall_congr' fun hdropped => by rw [final_of_dropped hdropped]
  rw [hdispatch, DropsQuietly]
  cases hcmd : commandOf msg with
  | none =>
    rw [dispatch_of_none hcmd]
    exact iff_of_true (fun _ => Untouched.refl msg w) trivial
  | some cmd =>
    obtain ⟨raw, hrun⟩ := dispatch_of_command hcmd config L now
    rw [hrun, final_bind_pure, returns_bind_pure]
    by_cases hdrw : cmd = .drw
    · subst hdrw
      exact untouched_handleDrw_iff hL config now msg hopened
    · by_cases hdrwAck : cmd = .drwAck
      · subst hdrwAck
        exact untouched_handleDrwAck_iff msg w
      · refine iff_of_true (fun hraises => ?_) ?_
        · have hfinal := (handlers_raise_first hdrw hdrwAck config L now msg w).resolve_left hraises
          rw [hfinal]
          exact Untouched.refl msg w
        · split
          · exact absurd (Option.some.inj ‹_›) hdrw
          · exact absurd (Option.some.inj ‹_›) hdrwAck
          · trivial

def ready : World Unit := final (connectionMade 0) oneCamera

/-- A DrwAck that announces two ids and is cropped behind the first. -/
def croppedAck : Bytes := [0xf1, 0xd1, 0, 6, 0xd2, 0, 0, 2, 0, 7]

theorem quiet_drop_iff_croppedAck :
    Dropped defaultConfig .absent 0 croppedAck ready ∧
      Untouched croppedAck ready (final (handleIncoming defaultConfig .absent 0 croppedAck) ready) := by
  have hdropped : Dropped defaultConfig .absent 0 croppedAck ready := ⟨_, rfl⟩
  have hquiet : DropsQuietly defaultConfig .absent ready croppedAck := .inr (by decide)
  exact ⟨hdropped,
    (quiet_drop_iff defaultConfig .absent 0 croppedAck ready orderly_absent rfl).2 hquiet hdropped⟩

/-- A control packet that is cropped behind its packet id. -/
def croppedControl : Bytes := [0xf1, 0xd0, 0, 4, 0xd1, 0, 0, 1]

/-- A cropped control packet is acknowledged, and then dropped. -/
theorem dropped_after_ack :
    Dropped defaultConfig .absent 0 croppedControl ready ∧
      ¬Untouched croppedControl ready
        (final (handleIncoming defaultConfig .absent 0 croppedControl) ready) := by
  refine ⟨⟨_, rfl⟩, fun h => ?_⟩
  obtain ⟨evs, hevs, hquiet⟩ := h.events
  have hack : makeDrwAck (DV.ofBytes croppedControl) = .ok (DV.ofBytes
      ([0xf1, 0xd1, 0, 6, 0xd2, 0, 0, 1, 0, 1] ++ List.replicate 22 0)) := by decide +kernel
  have hacked : (final (handleIncoming defaultConfig .absent 0 croppedControl) ready).events =
      ready.events ++ [.sent ([0xf1, 0xd1, 0, 6, 0xd2, 0, 0, 1, 0, 1] ++ List.replicate 22 0)] := by
    decide +kernel
  obtain rfl := List.append_cancel_left (hacked.symm.trans hevs)
  obtain ⟨m, hm, hnoAck⟩ := hquiet _ (List.mem_singleton_self _)
  exact hnoAck ⟨_, hack, (Event.sent.inj hm).symm.trans (DV.toBytes_ofBytes _).symm⟩

end CamReverse
