import CamReverse.Callbacks
import CamReverse.Lib.CollectorStreams

/-!
# Data packets

`readDataPkt` is what `_deal_with_data` reads of a packet before it touches the session, and
`handleDataPkt` what it does with that (`dealWithData_eq`). The reassembly state of a session is a
collector of numbered chunks, and a data packet is one step of it (`handleDataPkt_final`).
-/

namespace CamReverse

open Effect Collector

variable {ε : Type}

/-! ### Reading a packet -/

/-- What a data packet brings. -/
inductive DataPkt where
  | ignored
  | audio (data : Bytes)
  | newFrame (id : ℕ) (buf : Bytes)
  | chunk (id : ℕ) (b : Bytes)
  deriving DecidableEq

def readDataPkt (dv : DV) : Except PyErr DataPkt := do
  let pktLen ← (dv.add 2).readU16
  if pktLen < 12 then
    return .ignored
  else
    let mHdr := (dv.add 8).readByteArray 4
    let pktId ← (dv.add 6).readU16
    if FRAME_HEADER.isPrefixOf mHdr then
      let streamType ← (dv.add 12).readU8
      if streamType = STREAM_TYPE_AUDIO then
        let audioLen ← (dv.add (8 + 16)).readU16le
        return .audio ((dv.add (32 + 8)).readByteArray audioLen)
      else if streamType = STREAM_TYPE_JPEG then
        let toRead : ℤ := pktLen - 4 - 32
        if 0 < toRead then
          return .newFrame pktId ((dv.add (32 + 8)).readByteArray toRead)
        else
          return .ignored
      else
        return .ignored
    else
      let data := (dv.add 8).readByteArray (pktLen - 4)
      if JPEG_HEADER.isPrefixOf mHdr then
        return .newFrame pktId data
      else
        return .chunk pktId data

/-- What `_deal_with_data` does with what it read. -/
def handleDataPktBy (emit : SessionM ε Unit) (config : Config) (L : Listeners ε) : DataPkt → SessionM ε Unit
  | .ignored => return
  | .audio data => emitAudio L data
  | .newFrame id buf => startNewFrameBy emit id buf
  | .chunk id b => continueFrame config id b

def handleDataPkt (config : Config) (L : Listeners ε) : DataPkt → SessionM ε Unit :=
  handleDataPktBy (emitFrame L) config L

theorem dealWithDataBy_eq (emit : SessionM ε Unit) (config : Config) (L : Listeners ε) (dv : DV) :
    dealWithDataBy emit config L dv = lift (readDataPkt dv) >>= handleDataPktBy emit config L := by
  simp only [dealWithDataBy, readDataPkt, liftM_eq_lift, lift_bind, lift_ite, lift_pure, bind_assoc,
    ite_bind, pure_bind, handleDataPktBy]

theorem dealWithData_eq (config : Config) (L : Listeners ε) (dv : DV) :
    dealWithData config L dv = lift (readDataPkt dv) >>= handleDataPkt config L :=
  dealWithDataBy_eq (emitFrame L) config L dv

/-! ### The session as a collector -/

def collector (s : Session) : State Bytes := ⟨s.curImage, s.rcvSeqId, s.frameIsBad⟩

def Session.assembling (s : Session) (c : State Bytes) (wasFixed : Bool) : Session :=
  { s with
    curImage := c.items
    rcvSeqId := c.last
    frameIsBad := c.bad
    frameWasFixed := wasFixed }

/-- The item a data packet brings to the collector. -/
def DataPkt.item : DataPkt → Item Bytes
  | .ignored => .other
  | .audio _ => .other
  | .newFrame id buf => .first id buf
  | .chunk id b => .next id b

/-- The packet under another id. -/
def DataPkt.renumber (f : ℕ → ℕ) : DataPkt → DataPkt
  | .ignored => .ignored
  | .audio data => .audio data
  | .newFrame id buf => .newFrame (f id) buf
  | .chunk id b => .chunk (f id) b

theorem item_renumber (f : ℕ → ℕ) (pkt : DataPkt) : (pkt.renumber f).item = pkt.item.renumber f := by
  cases pkt <;> rfl

theorem item_eq_first {pkt : DataPkt} {id : ℕ} {b : Bytes} :
    pkt.item = .first id b ↔ pkt = .newFrame id b := by
  cases pkt <;> simp [DataPkt.item]

theorem item_eq_next {pkt : DataPkt} {id : ℕ} {b : Bytes} :
    pkt.item = .next id b ↔ pkt = .chunk id b := by
  cases pkt <;> simp [DataPkt.item]

/-- How a gap is closed: not at all unless `fix_packet_loss` is on. -/
def mendOf (config : Config) (devName : String) : Bytes → Bytes → Option (Bytes × Bytes) :=
  match fixPacketLoss config devName with
  | .ok true => spliceAtMarkers
  | _ => fun _ _ => none

/-- Whether the `frame` listeners raise on what the session has collected. -/
def frameRefused (L : Listeners ε) (w : World ε) : Bool :=
  match L.frame w.session.curImage w.app with
  | .ok _ _ => false
  | .error _ _ => true

/-- A data packet as the collector of a session sees it. -/
def arrivalOf (config : Config) (L : Listeners ε) (w : World ε) (pkt : DataPkt) : Arrival Bytes :=
  ⟨pkt.item, mendOf config w.session.devName, frameRefused L w⟩

def DataPkt.events (w : World ε) : DataPkt → List Event
  | .ignored => []
  | .audio data => [.audio data]
  | .newFrame _ _ => if (collector w.session).complete then [.frame w.session.curImage] else []
  | .chunk _ _ => []

/-- What the listeners of these events make of the caller's state. -/
def DataPkt.appAfter (L : Listeners ε) (w : World ε) : DataPkt → ε
  | .ignored => w.app
  | .audio data => final (L.audio data) w.app
  | .newFrame _ _ =>
    if (collector w.session).complete then final (L.frame w.session.curImage) w.app else w.app
  | .chunk _ _ => w.app

theorem complete_collector (s : Session) :
    (collector s).complete = true ↔ 0 < s.curImage.length ∧ s.frameIsBad = false := by
  rw [complete_iff, List.length_pos_iff]
  rfl

/-- The world once the `frame` listeners have seen the image. -/
def frameShown (L : Listeners ε) (w : World ε) : World ε :=
  { w with
    app := final (L.frame w.session.curImage) w.app
    events := w.events ++ [.frame w.session.curImage] }

theorem emitFrame_ok {L : Listeners ε} {w : World ε} (h : frameRefused L w = false) :
    emitFrame L w = .ok () (frameShown L w) := by
  show inApp (L.frame w.session.curImage) { w with events := w.events ++ [.frame w.session.curImage] } = _
  unfold frameRefused at h
  unfold inApp onPart frameShown final
  cases hr : L.frame w.session.curImage w.app with
  | ok a app => rfl
  | error e app => simp [hr] at h

theorem emitFrame_error {L : Listeners ε} {w : World ε} (h : frameRefused L w = true) :
    ∃ e, emitFrame L w = .error e (frameShown L w) := by
  show ∃ e, inApp (L.frame w.session.curImage)
    { w with events := w.events ++ [.frame w.session.curImage] } = _
  unfold frameRefused at h
  unfold inApp onPart frameShown final
  cases hr : L.frame w.session.curImage w.app with
  | ok a app => simp [hr] at h
  | error e app => exact ⟨e, rfl⟩

theorem startNewFrame_final (config : Config) (L : Listeners ε) (id : ℕ) (buf : Bytes) (w : World ε) :
    ∃ wasFixed, final (startNewFrame L id buf) w =
      { session := w.session.assembling
          (step (collector w.session) (arrivalOf config L w (.newFrame id buf))) wasFixed
        app := DataPkt.appAfter L w (.newFrame id buf)
        events := w.events ++ DataPkt.events w (.newFrame id buf) } := by
  rw [startNewFrame_eq]
  rw [final, get_bind_apply]
  simp only [step, arrivalOf, DataPkt.item, DataPkt.appAfter, DataPkt.events]
  by_cases hc : (collector w.session).complete = true
  · rw [if_pos ((complete_collector _).1 hc)]
    simp only [hc, Bool.true_and, if_true]
    cases hr : frameRefused L w with
    | false =>
      rw [bind_ok (emitFrame_ok hr)]
      exact ⟨false, rfl⟩
    | true =>
      obtain ⟨e, he⟩ := emitFrame_error hr
      rw [bind_error he]
      exact ⟨w.session.frameWasFixed, rfl⟩
  · rw [if_neg fun h => hc ((complete_collector _).2 h)]
    rw [Bool.not_eq_true] at hc
    simp only [hc, Bool.false_and, Bool.false_eq_true, if_false, List.append_nil]
    exact ⟨false, rfl⟩

theorem mended_spliceAtMarkers (image : List Bytes) (b : Bytes) :
    mended spliceAtMarkers image b =
      if 1 < image.length then spliceAtMarkers (image.getLast?.getD []) b else none := by
  unfold mended
  split_ifs with h
  · cases hl : image.getLast? with
    | some l => rfl
    | none => simp [List.getLast?_eq_none_iff.1 hl] at h
  · rfl

theorem continueFrame_final (config : Config) (L : Listeners ε) (id : ℕ) (b : Bytes) (w : World ε) :
    ∃ wasFixed, final (continueFrame config id b) w =
      { w with
        session := w.session.assembling
          (step (collector w.session) (arrivalOf config L w (.chunk id b))) wasFixed } := by
  unfold continueFrame
  rw [final, get_bind_apply]
  simp only [step, arrivalOf, DataPkt.item, continued]
  by_cases hold : id ≤ w.session.rcvSeqId
  · rw [if_pos hold, if_pos (show id ≤ (collector w.session).last from hold)]
    exact ⟨w.session.frameWasFixed, rfl⟩
  · rw [if_neg hold, if_neg (show ¬id ≤ (collector w.session).last from hold)]
    by_cases hgap : w.session.rcvSeqId + 1 < id
    · rw [if_pos hgap, if_pos (show (collector w.session).last + 1 < id from hgap)]
      unfold mendOf
      cases hfix : fixPacketLoss config w.session.devName with
      | error e =>
        simp only [mended_none (fun _ _ => rfl)]
        exact ⟨w.session.frameWasFixed, rfl⟩
      | ok fix =>
        cases fix with
        | false =>
          simp only [mended_none (fun _ _ => rfl)]
          exact ⟨w.session.frameWasFixed, rfl⟩
        | true =>
          simp only [mended_spliceAtMarkers, collector, liftM_eq_lift]
          rw [show (lift (Except.ok true) : SessionM ε Bool) = pure true from rfl]
          by_cases hlen : 1 < w.session.curImage.length
          · simp only [if_pos hlen]
            cases hs : spliceAtMarkers (w.session.curImage.getLast?.getD []) b with
            | some r => exact ⟨true, rfl⟩
            | none => exact ⟨w.session.frameWasFixed, rfl⟩
          · simp only [if_neg hlen]
            exact ⟨w.session.frameWasFixed, rfl⟩
    · rw [if_neg hgap, if_neg (show ¬(collector w.session).last + 1 < id from hgap)]
      exact ⟨w.session.frameWasFixed, rfl⟩

/-- **A data packet is one step of the collector.** It emits the events of its kind and leaves the rest of
the session alone. -/
theorem handleDataPkt_final (config : Config) (L : Listeners ε) (pkt : DataPkt) (w : World ε) :
    ∃ wasFixed, final (handleDataPkt config L pkt) w =
      { session := w.session.assembling
          (step (collector w.session) (arrivalOf config L w pkt)) wasFixed
        app := pkt.appAfter L w
        events := w.events ++ pkt.events w } := by
  cases pkt with
  | ignored =>
    refine ⟨w.session.frameWasFixed, ?_⟩
    rw [DataPkt.events, List.append_nil]
    rfl
  | audio data =>
    refine ⟨w.session.frameWasFixed, ?_⟩
    show final (record (.audio data) >>= fun _ => inApp (L.audio data)) w = _
    rw [final_bind]
    exact final_onPart World.app (fun app w => { w with app := app }) (L.audio data) _
  | newFrame id buf => exact startNewFrame_final config L id buf w
  | chunk id b =>
    obtain ⟨wasFixed, h⟩ := continueFrame_final config L id b w
    refine ⟨wasFixed, h.trans ?_⟩
    rw [DataPkt.events, List.append_nil]
    rfl

end CamReverse
