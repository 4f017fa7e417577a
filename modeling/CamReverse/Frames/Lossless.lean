import CamReverse.Frames.Reassembly

/-!
# Undisturbed streams

A camera sends a JPEG frame as a first chunk, either bare or behind a stream header, and further chunks.
When the packets of a stream of frames all arrive, once and in order, a session cuts the stream into
exactly these frames, whatever it was doing before (`lossless_reassembly`).
-/

namespace CamReverse

open Effect Collector

variable {ε : Type}

inductive FirstChunk where
  | bare (chunk : Bytes) (hlen : 8 ≤ chunk.length) (hhdr : JPEG_HEADER <+: chunk)
  | framed (header chunk : Bytes) (hlen : header.length = 32) (hhdr : FRAME_HEADER <+: header)
      (htype : header[4]? = some 3) (hne : chunk ≠ [])

/-- A further chunk: long enough to be read and not mistaken for a header. -/
structure NextChunk where
  chunk : Bytes
  hlen : 8 ≤ chunk.length
  not_framed : ¬FRAME_HEADER <+: chunk
  not_jpeg : ¬JPEG_HEADER <+: chunk

/-- A frame as it is cut for sending. -/
structure JpegFrame where
  first : FirstChunk
  rest : List NextChunk

namespace FirstChunk

def chunk : FirstChunk → Bytes
  | bare chunk _ _ => chunk
  | framed _ chunk _ _ _ _ => chunk

def payload : FirstChunk → Bytes
  | bare chunk _ _ => chunk
  | framed header chunk _ _ _ _ => header ++ chunk

end FirstChunk

namespace JpegFrame

def chunks (f : JpegFrame) : List Bytes := f.first.chunk :: f.rest.map NextChunk.chunk

def bytes (f : JpegFrame) : Bytes := f.chunks.flatten

def payloads (f : JpegFrame) : List Bytes := f.first.payload :: f.rest.map NextChunk.chunk

end JpegFrame

/-! ### What the packets of a frame bring -/

theorem not_frame_of_jpeg {payload : Bytes} (h : JPEG_HEADER <+: payload) : ¬FRAME_HEADER <+: payload := by
  rintro ⟨xs, hxs⟩
  obtain ⟨ys, hys⟩ := h
  rw [← hys] at hxs
  exact absurd (List.cons.inj hxs).1 (by decide)

theorem wholePkt_bare {payload : Bytes} (id : ℕ) (hlen : 8 ≤ payload.length)
    (hhdr : JPEG_HEADER <+: payload) : wholePkt id payload = .newFrame id payload := by
  rw [wholePkt, payloadPkt, if_neg (by omega),
    if_neg fun h => not_frame_of_jpeg hhdr ((isPrefixOf_take_four rfl).1 h),
    if_pos ((isPrefixOf_take_four rfl).2 hhdr), Nat.add_sub_cancel, List.take_length]

theorem wholePkt_framed {header chunk : Bytes} (id : ℕ) (hlen : header.length = 32)
    (hhdr : FRAME_HEADER <+: header) (htype : header[4]? = some 3) (hne : chunk ≠ []) :
    wholePkt id (header ++ chunk) = .newFrame id chunk := by
  have hpos : 0 < chunk.length := List.length_pos_iff.2 hne
  have hlength : (header ++ chunk).length = 32 + chunk.length := by rw [List.length_append, hlen]
  have hdrop : (header ++ chunk).drop 32 = chunk := List.drop_left' hlen
  have htake : chunk.take ((header ++ chunk).length + 4 - 36) = chunk := List.take_of_length_le (by omega)
  rw [wholePkt, payloadPkt, if_neg (by omega),
    if_pos ((isPrefixOf_take_four rfl).2 (hhdr.trans (List.prefix_append _ _))),
    List.getElem?_append_left (by omega), htype]
  simp only
  rw [if_neg (by decide), if_pos ⟨by decide, by omega⟩, hdrop, htake]

theorem wholePkt_first (id : ℕ) (c : FirstChunk) : wholePkt id c.payload = .newFrame id c.chunk := by
  cases c with
  | bare chunk hlen hhdr => exact wholePkt_bare id hlen hhdr
  | framed header chunk hlen hhdr htype hne => exact wholePkt_framed id hlen hhdr htype hne

theorem wholePkt_next (id : ℕ) (c : NextChunk) : wholePkt id c.chunk = .chunk id c.chunk := by
  rw [wholePkt, payloadPkt, if_neg (by have := c.hlen; omega),
    if_neg fun h => c.not_framed ((isPrefixOf_take_four rfl).1 h),
    if_neg fun h => c.not_jpeg ((isPrefixOf_take_four rfl).1 h), Nat.add_sub_cancel, List.take_length]

theorem items_rest (cs : List NextChunk) (id : ℕ) :
    ((cs.map NextChunk.chunk).zipIdx id).map (fun x => (wholePkt x.2 x.1).item) =
      numbered id (cs.map NextChunk.chunk) := by
  induction cs generalizing id with
  | nil => rfl
  | cons c cs ih =>
    rw [List.map_cons, List.zipIdx_cons, List.map_cons, ih, numbered, wholePkt_next]
    rfl

theorem items_frames (fs : List JpegFrame) (id : ℕ) :
    ((fs.flatMap JpegFrame.payloads).zipIdx id).map (fun x => (wholePkt x.2 x.1).item) =
      stream id (fs.map fun f => (f.first.chunk, f.rest.map NextChunk.chunk)) := by
  induction fs generalizing id with
  | nil => rfl
  | cons f fs ih =>
    rw [List.flatMap_cons, List.zipIdx_append, List.map_append, ih, List.map_cons, stream,
      JpegFrame.payloads, List.zipIdx_cons, List.map_cons, items_rest, wholePkt_first,
      List.length_cons,
      show id + ((f.rest.map NextChunk.chunk).length + 1) =
        id + 1 + (f.rest.map NextChunk.chunk).length by omega]
    rfl

/-! ### Lossless reassembly -/

/-- The datagrams carry these payloads, under consecutive packet ids from `id` on. -/
def Carry (id : ℕ) (payloads : List Bytes) (ds : List Delivery) : Prop :=
  List.Forall₂ (fun d x => IsWhole d.msg x.2 x.1) ds (payloads.zipIdx id)

theorem Carry.isDrwData {id : ℕ} {payloads : List Bytes} {ds : List Delivery}
    (h : Carry id payloads ds) : ∀ d ∈ ds, IsDrwData d.msg := by
  unfold Carry at h
  generalize payloads.zipIdx id = xs at h
  induction h with
  | nil => simp
  | cons hd _ ih => exact List.forall_mem_cons.2 ⟨hd.isDrwData, ih⟩

theorem Carry.items {id : ℕ} {payloads : List Bytes} {ds : List Delivery} (h : Carry id payloads ds) :
    ds.map (fun d => (dataPktOf d.msg).item) =
      (payloads.zipIdx id).map fun x => (wholePkt x.2 x.1).item := by
  unfold Carry at h
  generalize payloads.zipIdx id = xs at h ⊢
  induction h with
  | nil => rfl
  | cons hd _ ih => rw [List.map_cons, List.map_cons, ih, hd.read]

theorem Carry.head {id : ℕ} {fs : List JpegFrame} {ds : List Delivery} (hne : fs ≠ [])
    (h : Carry id (fs.flatMap JpegFrame.payloads) ds) :
    ∃ d ds' buf, ds = d :: ds' ∧ dataPktOf d.msg = .newFrame id buf := by
  obtain ⟨f, fs, rfl⟩ := List.exists_cons_of_ne_nil hne
  rw [Carry, List.flatMap_cons, JpegFrame.payloads, List.cons_append, List.zipIdx_cons] at h
  obtain ⟨d, ds', hd, -, rfl⟩ := List.forall₂_cons_right_iff.1 h
  exact ⟨d, ds', f.first.chunk, rfl, by rw [hd.read, wholePkt_first]⟩

/-- What a session still emits of what it collected before, at the first header. -/
def leftover (s : Session) : List (List Bytes) := if (collector s).complete then [s.curImage] else []

theorem handedOver_first (s : Session) (id : ℕ) (buf : Bytes) :
    (handedOver (collector s) (.first id buf)).toList = leftover s := by
  unfold handedOver leftover
  split_ifs <;> rfl

/-- **Lossless reassembly.** Whatever state the session is in and whatever `fix_packet_loss` is, the
packets of the frames `fs` and `last` lead to one emission per frame of `fs`, in order, each showing
exactly the bytes of its frame, after at most one emission of a leftover at the first header; and `last` is
left complete. -/
theorem lossless_reassembly (L : Listeners ε)
    (hframe : ∀ image app, ∃ app', L.frame image app = .ok () app') (w : World ε)
    (fs : List JpegFrame) (last : JpegFrame) (id : ℕ) (ds : List Delivery)
    (hds : Carry id ((fs ++ [last]).flatMap JpegFrame.payloads) ds) :
    ∃ emitted, frames (receiveAll L w ds).events =
        frames w.events ++ leftover w.session ++ emitted ∧
      emitted.map List.flatten = fs.map JpegFrame.bytes ∧
      frames (receiveAll L w (ds.take 1)).events = frames w.events ++ leftover w.session ∧
      (receiveAll L w ds).session.curImage.flatten = last.bytes ∧
      (receiveAll L w ds).session.frameIsBad = false := by
  have hdrw := hds.isDrwData
  have hitems := (arrivals_item L ds w).trans (hds.items.trans (items_frames (fs ++ [last]) id))
  obtain ⟨hgroups, hlast, hbad⟩ := collect_stream _ (by simp) id (collector w.session) _ hitems
    (arrivals_refused L hframe ds w)
  have hstate := collector_receiveAll L ds hdrw w
  refine ⟨fs.map JpegFrame.chunks, ?_, ?_, ?_, ?_, ?_⟩
  · rw [frames_receiveAll L ds hdrw w, hgroups]
    simp [leftover, JpegFrame.chunks, collector, Function.comp_def]
  · rw [List.map_map]
    rfl
  · obtain ⟨d, ds, buf, rfl, hd⟩ := hds.head (by simp)
    show frames (receive L w d).events = _
    rw [frames_receive (hdrw d List.mem_cons_self), hd, ← handedOver_first w.session id buf]
    rfl
  · rw [show (receiveAll L w ds).session.curImage = _ from congrArg State.items hstate]
    have hchunks : (collect (collector w.session) (arrivals L w ds)).1.items = last.chunks := by
      simpa [JpegFrame.chunks] using hlast
    rw [hchunks]
    rfl
  · exact (congrArg State.bad hstate).trans hbad

/-- A bare frame of two chunks. -/
def bareFrame : JpegFrame where
  first := .bare headerPayload (by decide) (List.prefix_append _ _)
  rest := [⟨chunkPayload, by decide, by decide, by decide⟩]

/-- A frame of one chunk behind a stream header. -/
def framedFrame : JpegFrame where
  first := .framed (FRAME_HEADER ++ [3] ++ List.replicate 27 0) [9] (by decide)
    (List.append_assoc FRAME_HEADER _ _ ▸ List.prefix_append _ _) (by decide) (by decide)
  rest := []

def twoFrames : List Delivery :=
  delivered [wholeMsg 65533 bareFrame.first.payload, wholeMsg 65534 chunkPayload,
    wholeMsg 65535 framedFrame.first.payload]

theorem lossless_reassembly_twoFrames :
    ∃ emitted, frames (receiveAll .absent oneCamera twoFrames).events =
        frames oneCamera.events ++ leftover oneCamera.session ++ emitted ∧
      emitted.map List.flatten = [bareFrame].map JpegFrame.bytes ∧
      frames (receiveAll .absent oneCamera (twoFrames.take 1)).events =
        frames oneCamera.events ++ leftover oneCamera.session ∧
      (receiveAll .absent oneCamera twoFrames).session.curImage.flatten = framedFrame.bytes ∧
      (receiveAll .absent oneCamera twoFrames).session.frameIsBad = false :=
  lossless_reassembly .absent (fun _ app => ⟨app, rfl⟩) oneCamera [bareFrame] framedFrame 65533 twoFrames
    (.cons (isWhole_wholeMsg (by decide) (by decide)) (.cons (isWhole_wholeMsg (by decide) (by decide))
      (.cons (isWhole_wholeMsg (by decide) (by decide)) .nil)))

end CamReverse
