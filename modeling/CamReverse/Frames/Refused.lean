import CamReverse.Frames.Wire
import CamReverse.Http.Media

/-!
# Headers at which a listener raises

`start_new_frame` emits the frame it has before it starts the next one. When a `frame` listener raises, the
exception leaves the function, and the session keeps the old frame: `starts_frame_iff`. The next header finds
the same frame, so a listener that cannot take it keeps the stream wedged (`wedged`).
-/

namespace CamReverse

open Effect Collector

variable {ε : Type}

/-- At the next header a good frame is emitted, and a `frame` listener raises. -/
def HeaderRaises (L : Listeners ε) (w : World ε) : Prop :=
  (collector w.session).complete = true ∧ frameRefused L w = true

theorem receive_header {d : Delivery} {id : ℕ} {buf : Bytes} (hd : IsDrwData d.msg)
    (hnew : dataPktOf d.msg = .newFrame id buf) (L : Listeners ε) (w : World ε) :
    collector (receive L w d).session =
      if (collector w.session).complete && frameRefused L w then collector w.session
      else ⟨[buf], id, false⟩ := by
  rw [collector_receive hd, hnew]
  rfl

/-- **A header starts its frame** unless a listener raises, or the session was already there. -/
theorem starts_frame_iff (L : Listeners ε) (w : World ε) (d : Delivery) (id : ℕ) (buf : Bytes)
    (hd : IsDrwData d.msg) (hnew : dataPktOf d.msg = .newFrame id buf) :
    ((receive L w d).session.curImage = [buf] ∧ (receive L w d).session.rcvSeqId = id ∧
        (receive L w d).session.frameIsBad = false) ↔
      ¬HeaderRaises L w ∨ w.session.curImage = [buf] ∧ w.session.rcvSeqId = id ∧
        w.session.frameIsBad = false := by
  have hstate : ∀ s : Session, (s.curImage = [buf] ∧ s.rcvSeqId = id ∧ s.frameIsBad = false) ↔
      collector s = ⟨[buf], id, false⟩ := fun s => by simp [collector]
  rw [hstate, hstate, receive_header hd hnew, HeaderRaises, ← Bool.and_eq_true]
  split_ifs with h
  · simp [h]
  · simp [h]

/-- As long as only headers arrive, a frame that no listener takes stays. -/
theorem wedged {L : Listeners ε} {s : State Bytes} (hcomplete : s.complete = true)
    (hraises : ∀ app, ∃ e app', L.frame s.items app = .error e app') (ds : List Delivery)
    (hds : ∀ d ∈ ds, IsDrwData d.msg ∧ ∃ id buf, dataPktOf d.msg = .newFrame id buf) {w : World ε}
    (hw : collector w.session = s) : collector (receiveAll L w ds).session = s := by
  induction ds generalizing w with
  | nil => exact hw
  | cons d ds ih =>
    obtain ⟨hd, id, buf, hnew⟩ := hds d List.mem_cons_self
    refine ih (fun d' hd' => hds d' (List.mem_cons_of_mem _ hd')) ?_
    have hrefused : frameRefused L w = true := by
      obtain ⟨e, app', herror⟩ := hraises w.app
      have hitems : w.session.curImage = s.items := congrArg State.items hw
      rw [frameRefused, hitems, herror]
    rw [receive_header hd hnew, hw, hcomplete, hrefused]
    rfl

/-- A caller that assembles every frame, as the HTTP server does. -/
def assembling : Listeners Unit :=
  { (Listeners.absent : Listeners Unit) with
    frame := fun image => do
      let _assembled ← assembleFrame defaultConfig "FTYC000001ABCDE" image }

/-- The payload of a header packet that brings its own EXIF marker. -/
def exifPayload : Bytes := JPEG_HEADER ++ [0xff, 0xe1, 0, 0]

/-- A header packet, under the default configuration. -/
def headerDelivery (id : ℕ) (payload : Bytes) : Delivery := ⟨defaultConfig, 0, wholeMsg id payload⟩

theorem starts_frame_iff_second :
    ((receive assembling (receive assembling oneCamera (headerDelivery 1 headerPayload))
            (headerDelivery 2 exifPayload)).session.curImage = [exifPayload] ∧
        (receive assembling (receive assembling oneCamera (headerDelivery 1 headerPayload))
            (headerDelivery 2 exifPayload)).session.rcvSeqId = 2 ∧
        (receive assembling (receive assembling oneCamera (headerDelivery 1 headerPayload))
            (headerDelivery 2 exifPayload)).session.frameIsBad = false) ↔
      ¬HeaderRaises assembling (receive assembling oneCamera (headerDelivery 1 headerPayload)) ∨
        (receive assembling oneCamera (headerDelivery 1 headerPayload)).session.curImage = [exifPayload] ∧
        (receive assembling oneCamera (headerDelivery 1 headerPayload)).session.rcvSeqId = 2 ∧
        (receive assembling oneCamera (headerDelivery 1 headerPayload)).session.frameIsBad = false :=
  starts_frame_iff assembling (receive assembling oneCamera (headerDelivery 1 headerPayload))
    (headerDelivery 2 exifPayload) 2 exifPayload (by decide) (by decide)

/-- After a first chunk with an EXIF marker, the next header does not start its frame. -/
theorem wedged_by_exif :
    (receive assembling (receive assembling oneCamera (headerDelivery 1 exifPayload))
        (headerDelivery 2 headerPayload)).session.curImage = [exifPayload] ∧
      (receive assembling (receive assembling oneCamera (headerDelivery 1 exifPayload))
        (headerDelivery 2 headerPayload)).session.rcvSeqId = 1 := by
  decide +kernel

end CamReverse
