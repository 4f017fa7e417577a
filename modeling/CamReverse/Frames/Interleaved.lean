import CamReverse.Frames.Loss
import CamReverse.Lib.CollectorOthers

/-!
# Audio between the chunks of a frame

Audio and video share one sequence of packet ids. `_deal_with_data` is done with an audio packet before it looks
at its id, so the continuation packet behind it looks like one behind a loss, and its frame is dropped or
spliced. `interleaved_iff` says which streams are received as if there were only video in them.
-/

namespace CamReverse

open Effect Collector

variable {ε : Type}

namespace CameraPkt

def item (p : CameraPkt) : Item Bytes := (wholePkt 0 p.payload).item

def isVideo (p : CameraPkt) : Bool := p.item.entry.isSome

/-- The packet before it has a packet id, if its frame is not refused. -/
def arrival (devName : String) (p : CameraPkt) : Arrival Bytes where
  item := p.item
  mend := mendOf p.config devName
  refused := false

end CameraPkt

/-- No `frame` listener raises at a header of the run. -/
def TakesFrames (L : Listeners ε) (w : World ε) (ds : List Delivery) : Prop :=
  Runs.Guarded (receive L) (fun w d => (∃ id buf, dataPktOf d.msg = .newFrame id buf) →
    (collector w.session).complete = true → frameRefused L w = false) w ds

/-! ### Streams as the collector sees them -/

theorem CameraPkt.item_delivery (p : CameraPkt) {id : ℕ} (hid : id < 65536) (devName : String) :
    (dataPktOf (p.delivery id).msg).item = ((p.arrival devName).number id).item := by
  rw [(p.isWhole hid).read]
  show _ = (wholePkt 0 p.payload).item.renumber fun _ => id
  rw [← item_renumber]
  exact congrArg DataPkt.item (payloadPkt_renumber (fun _ => id) (p.payload.length + 4) 0 p.payload)

theorem collector_delivery {p : CameraPkt} {id : ℕ} (hid : id < 65536) {L : Listeners ε} {w : World ε}
    (htaken : (∃ id' buf, dataPktOf (p.delivery id).msg = .newFrame id' buf) →
      (collector w.session).complete = true → frameRefused L w = false) :
    collector (receive L w (p.delivery id)).session =
      step (collector w.session) ((p.arrival w.session.devName).number id) := by
  rw [collector_receive (p.isWhole hid).isDrwData]
  refine step_of_taken (p.item_delivery hid w.session.devName).symm rfl rfl fun hfirst hcomplete => ?_
  obtain ⟨id', buf, hnew⟩ := exists_of_isFirst hfirst
  exact htaken ⟨id', buf, item_eq_first.1 hnew⟩ hcomplete

/-- **The frames of a stream** that is received as it was sent are the groups of a numbered stream. -/
theorem frames_deliveries (L : Listeners ε) (c : ℕ) (ps : List CameraPkt)
    (hreceived : ∀ p ∈ ps, p.received = true) (n : ℕ) (hwrap : c + n + ps.length ≤ 65536) (w : World ε)
    (htakes : TakesFrames L w (deliveries c n ps)) :
    frames (receiveAll L w (deliveries c n ps)).events = frames w.events ++
      (collect (collector w.session)
        (numberFrom (c + n) (ps.map (CameraPkt.arrival w.session.devName)))).2 := by
  induction ps generalizing n w with
  | nil => exact (List.append_nil _).symm
  | cons p ps ih =>
    rw [List.forall_mem_cons] at hreceived
    rw [List.length_cons] at hwrap
    have hid : streamId c n = c + n := Nat.mod_eq_of_lt (by omega)
    have hid' : c + n < 65536 := by omega
    have hdrw := (p.isWhole hid').isDrwData
    rw [deliveries, if_pos hreceived.1, hid] at htakes ⊢
    obtain ⟨htaken, hrest⟩ := htakes
    rw [receiveAll, List.foldl_cons, ← receiveAll, ih hreceived.2 (n + 1) (by omega) _ hrest,
      receive_devName hdrw, collector_delivery hid' htaken, frames_receive hdrw,
      p.item_delivery hid' w.session.devName, List.map_cons, numberFrom, collect_cons, List.append_assoc]
    rfl

theorem map_arrival_filter (devName : String) (ps : List CameraPkt) :
    (ps.filter CameraPkt.isVideo).map (CameraPkt.arrival devName) =
      (ps.map (CameraPkt.arrival devName)).filter Arrival.inStream := by
  rw [List.filter_map]
  rfl

/-! ### What is lost -/

/-- A splice cuts off at least the last marker. -/
theorem shrinks_mendOf (config : Config) (devName : String) : Shrinks List.length (mendOf config devName) := by
  intro l b l' b' h
  have hsplice : spliceAtMarkers l b = some (l', b') := by
    by_cases hfix : fixPacketLoss config devName = .ok true
    · rw [mendOf, hfix] at h
      exact h
    · rw [mendOf_off hfix] at h
      cases h
  unfold spliceAtMarkers at hsplice
  cases hi : (findAllResetMarkers l).getLast? with
  | none =>
    rw [hi] at hsplice
    cases hsplice
  | some i =>
    cases hj : (findAllResetMarkers b).head? with
    | none =>
      rw [hi, hj] at hsplice
      cases hsplice
    | some j =>
      rw [hi, hj] at hsplice
      obtain ⟨rfl, rfl⟩ := Prod.mk.inj (Option.some.inj hsplice)
      have hmem := (List.mem_filter.1 (List.mem_of_getLast? hi)).1
      rw [List.mem_range] at hmem
      rw [List.length_take, List.length_drop]
      omega

theorem length_pos_of_next {p : CameraPkt} {id : ℕ} {b : Bytes} (h : p.item = .next id b) : 0 < b.length := by
  have hpkt : payloadPkt (p.payload.length + 4) 0 p.payload = .chunk id b := item_eq_next.1 h
  unfold payloadPkt at hpkt
  by_cases hshort : p.payload.length + 4 < 12
  · rw [if_pos hshort] at hpkt
    cases hpkt
  · rw [if_neg hshort] at hpkt
    by_cases hframed : FRAME_HEADER.isPrefixOf (p.payload.take 4) = true
    · rw [if_pos hframed] at hpkt
      cases htype : p.payload[4]? with
      | none =>
        rw [htype] at hpkt
        cases hpkt
      | some t =>
        simp only [htype] at hpkt
        split_ifs at hpkt
    · rw [if_neg hframed] at hpkt
      split_ifs at hpkt
      obtain ⟨-, rfl⟩ := DataPkt.chunk.inj hpkt
      rw [List.length_take]
      omega

theorem map_total_length (gs : List (List Bytes)) :
    gs.map (total List.length) = (gs.map List.flatten).map List.length := by
  rw [List.map_map]
  exact List.map_congr_left fun g _ => List.length_flatten.symm

theorem takesFrames_absent (w : World ε) (ds : List Delivery) : TakesFrames .absent w ds := by
  induction ds generalizing w with
  | nil => trivial
  | cons d ds ih => exact ⟨fun _ _ => rfl, ih _⟩

/-- **Audio does not disturb video** in a stream exactly if none of its frames that a header closes has a
continuation packet behind a packet that is not video: then every run without refusals emits the frames it
emits when only the video is sent. -/
theorem interleaved_iff (c : ℕ) (ps : List CameraPkt) (hreceived : ∀ p ∈ ps, p.received = true)
    (hwrap : c + ps.length ≤ 65536) :
    (∀ (ε : Type) (L : Listeners ε) (w : World ε), TakesFrames L w (deliveries c 0 ps) →
        TakesFrames L w (deliveries c 0 (ps.filter CameraPkt.isVideo)) →
        (frames (afterStream L w c ps).events).map List.flatten =
          (frames (afterStream L w c (ps.filter CameraPkt.isVideo)).events).map List.flatten) ↔
      Undisturbed .onTime (ps.map CameraPkt.item) := by
  have hitems : ∀ devName, (ps.map (CameraPkt.arrival devName)).map Arrival.item = ps.map CameraPkt.item :=
    fun devName => List.map_map
  have hrefused : ∀ devName, ∀ i ∈ ps.map (CameraPkt.arrival devName), i.refused = false :=
    fun devName => List.forall_mem_map.2 fun p _ => rfl
  have hvideo : ∀ p ∈ ps.filter CameraPkt.isVideo, p.received = true := fun p hp =>
    hreceived p (List.mem_of_mem_filter hp)
  have hwrap' : c + 0 + (ps.filter CameraPkt.isVideo).length ≤ 65536 :=
    (Nat.add_le_add_left (List.length_filter_le _ _) _).trans hwrap
  unfold afterStream
  constructor
  · intro h
    by_contra hun
    obtain ⟨s, hne⟩ := exists_ne_of_disturbed [] (hrefused oneCamera.session.devName)
      (List.forall_mem_map.2 fun p _ => shrinks_mendOf p.config _)
      (List.forall_mem_map.2 fun p _ id b hnext => length_pos_of_next hnext) c (by rwa [hitems])
    -- a session that has collected `s`
    have hsame := h Unit .absent (.start (oneCamera.session.assembling s false) ())
      (takesFrames_absent _ _) (takesFrames_absent _ _)
    rw [frames_deliveries .absent c ps hreceived 0 hwrap _ (takesFrames_absent _ _),
      frames_deliveries .absent c _ hvideo 0 hwrap' _ (takesFrames_absent _ _), map_arrival_filter] at hsame
    refine hne ?_
    rw [map_total_length, map_total_length]
    exact congrArg (List.map List.length) hsame
  · intro hun ε L w htakes htakes'
    rw [← hitems w.session.devName] at hun
    have hsame := collect_inStream_of_undisturbed (hrefused w.session.devName)
      (show Alike (collector w.session) (c + 0) (collector w.session) (c + 0) .onTime from ⟨rfl, rfl, rfl⟩) hun
    rw [frames_deliveries L c ps hreceived 0 hwrap w htakes,
      frames_deliveries L c _ hvideo 0 hwrap' w htakes', map_arrival_filter, hsame]

/-- The payload of an audio packet with four bytes of sound. -/
def soundPayload : Bytes :=
  FRAME_HEADER ++ [6] ++ List.replicate 11 0 ++ [4, 0] ++ List.replicate 14 0 ++ [1, 2, 3, 4]

def soundPkt : CameraPkt := cameraPkt soundPayload true (by decide) (by decide)

/-- An audio packet behind the last chunk of a frame. -/
def soundBehind : List CameraPkt := [headerPkt, chunkPkt true, soundPkt, headerPkt, chunkPkt true]

theorem interleaved_iff_soundBehind :
    Undisturbed .onTime (soundBehind.map CameraPkt.item) ∧
      ∀ (ε : Type) (L : Listeners ε) (w : World ε), TakesFrames L w (deliveries 7 0 soundBehind) →
        TakesFrames L w (deliveries 7 0 (soundBehind.filter CameraPkt.isVideo)) →
        (frames (afterStream L w 7 soundBehind).events).map List.flatten =
          (frames (afterStream L w 7 (soundBehind.filter CameraPkt.isVideo)).events).map List.flatten := by
  have hun : Undisturbed .onTime (soundBehind.map CameraPkt.item) := by decide +kernel
  exact ⟨hun, (interleaved_iff 7 soundBehind (by decide) (by decide)).2 hun⟩

/-- An audio packet between the chunks of a frame. -/
def soundBetween : List CameraPkt := [headerPkt, soundPkt, chunkPkt true, headerPkt]

/-- A frame with an audio packet between its chunks is not emitted, as it is without the audio packet. -/
theorem dropped_by_sound :
    soundPkt.IsOther ∧ frames (afterStream .absent oneCamera 7 soundBetween).events = [] ∧
      frames (afterStream .absent oneCamera 7 (soundBetween.filter CameraPkt.isVideo)).events =
        [[headerPayload, chunkPayload]] := by
  refine ⟨⟨⟨_, rfl⟩, 6, rfl, by decide⟩, by decide +kernel, by decide +kernel⟩

end CamReverse
