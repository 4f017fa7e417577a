import CamReverse.Frames.Numbers
import CamReverse.Frames.Repair

/-!
# Cropped data packets

A data packet declares its length, and an audio packet that of its samples as well. `_deal_with_data` slices
what it is told to, so of a packet that was cut off it takes what is there. `lengths_honoured_iff` says in which
runs every chunk and every audio packet has the length that was declared.
-/

namespace CamReverse

open Effect Bytes Collector

variable {ε : Type}

/-! ### The lengths of a data packet -/

/-- The length a packet declares, less the 4 bytes of its type and length fields. -/
def pktLenOf (msg : Bytes) : ℕ := ofBE (field msg 2 2)

def isFramed (msg : Bytes) : Bool := FRAME_HEADER.isPrefixOf (field msg 8 4)

/-- The length of the chunk a video packet declares. -/
def chunkLenOf (msg : Bytes) : ℕ := if isFramed msg then pktLenOf msg - 36 else pktLenOf msg - 4

/-- The length of the samples an audio packet declares. -/
def audioLenOf (msg : Bytes) : ℕ := ofLE (field msg 24 2)

/-- The packet is shorter than it declares. -/
def Cropped (msg : Bytes) : Prop := msg.length < pktLenOf msg + 4

instance (msg : Bytes) : Decidable (Cropped msg) := inferInstanceAs (Decidable (_ < _))

/-- `_deal_with_data` takes the packet for audio. -/
def IsAudio (msg : Bytes) : Prop :=
  12 ≤ pktLenOf msg ∧ isFramed msg = true ∧ msg[12]? = some 6 ∧ 26 ≤ msg.length

instance (msg : Bytes) : Decidable (IsAudio msg) := inferInstanceAs (Decidable (_ ∧ _ ∧ _ ∧ _))

namespace DataPacket

variable (p : DataPacket)

theorem pktLenOf_bytes : pktLenOf p.bytes = p.pktLen := by
  have hfield : field p.bytes 2 2 = be 2 p.pktLen := by
    rw [bytes, List.append_assoc, List.append_assoc, List.append_assoc]
    exact field_append rfl (length_be 2 _)
  rw [pktLenOf, hfield, ofBE_be]
  exact Nat.mod_eq_of_lt p.pktLen_lt

theorem isFramed_bytes : isFramed p.bytes = FRAME_HEADER.isPrefixOf (p.payload.take 4) :=
  congrArg _ (p.field_bytes 0 4)

theorem cropped_bytes : Cropped p.bytes ↔ p.payload.length + 4 < p.pktLen := by
  rw [Cropped, p.pktLenOf_bytes, p.length_bytes]
  omega

end DataPacket

theorem length_chunk_iff {msg : Bytes} (hmsg : IsDrwData msg) {id : ℕ} {b : Bytes}
    (h : (dataPktOf msg).video = some (id, b)) : b.length = chunkLenOf msg ↔ ¬Cropped msg := by
  by_cases hlen : 8 ≤ msg.length
  · obtain ⟨p, rfl⟩ := exists_dataPacket hmsg hlen
    rw [p.cropped_bytes, chunkLenOf, p.pktLenOf_bytes, p.isFramed_bytes]
    rw [p.dataPktOf_bytes, payloadPkt] at h
    by_cases hshort : p.pktLen < 12
    · rw [if_pos hshort] at h
      cases h
    rw [if_neg hshort] at h
    by_cases hframed : FRAME_HEADER.isPrefixOf (p.payload.take 4) = true
    · rw [if_pos hframed] at h ⊢
      cases htype : p.payload[4]? with
      | none =>
        rw [htype] at h
        cases h
      | some streamType =>
        simp only [htype] at h
        split_ifs at h with haudio hlong hjpeg
        all_goals cases h
        rw [List.length_take, List.length_drop]
        omega
    · rw [if_neg hframed] at h ⊢
      split_ifs at h
      all_goals
        cases h
        rw [List.length_take]
        omega
  · rw [dataPktOf_short hlen] at h
    cases h

theorem dataPktOf_eq_audio {msg : Bytes} (hmsg : IsDrwData msg) {data : Bytes} :
    dataPktOf msg = .audio data ↔ IsAudio msg ∧ data = field msg 40 (audioLenOf msg) := by
  by_cases hlen : 8 ≤ msg.length
  · obtain ⟨p, rfl⟩ := exists_dataPacket hmsg hlen
    have htype : p.bytes[12]? = p.payload[4]? := by
      show p.bytes[8 + 4]? = _
      rw [← List.getElem?_drop, show p.bytes.drop 8 = p.payload from p.drop_bytes 0]
    rw [IsAudio, audioLenOf, p.pktLenOf_bytes, p.isFramed_bytes, htype, p.length_bytes,
      show field p.bytes 40 _ = _ from p.field_bytes 32 _, show field p.bytes 24 2 = _ from p.field_bytes 16 2,
      p.dataPktOf_bytes, payloadPkt]
    by_cases hshort : p.pktLen < 12
    · rw [if_pos hshort]
      exact iff_of_false (by simp) fun h => absurd h.1.1 (by omega)
    rw [if_neg hshort]
    by_cases hframed : FRAME_HEADER.isPrefixOf (p.payload.take 4) = true
    · rw [if_pos hframed]
      cases p.payload[4]? with
      | none => exact iff_of_false (by simp) fun h => by cases h.1.2.2.1
      | some streamType =>
        have hsix : streamType.toNat = STREAM_TYPE_AUDIO ↔ streamType = 6 :=
          ⟨fun h => UInt8.toNat.inj h, fun h => h ▸ rfl⟩
        simp only [hsix, Option.some.injEq]
        split_ifs with haudio hlong hjpeg
        · rw [DataPkt.audio.injEq]
          exact ⟨fun h => ⟨⟨by omega, hframed, haudio, by omega⟩, h.symm⟩, fun h => h.2.symm⟩
        · exact iff_of_false (by simp) fun h => absurd h.1.2.2.2 (by omega)
        · exact iff_of_false (by simp) fun h => haudio h.1.2.2.1
        · exact iff_of_false (by simp) fun h => haudio h.1.2.2.1
    · rw [if_neg hframed]
      refine iff_of_false ?_ fun h => hframed h.1.2.1
      split_ifs <;> simp
  · rw [dataPktOf_short hlen]
    exact iff_of_false (by simp) fun h => absurd h.1.2.2.2 (by omega)

/-! ### One datagram -/

/-- What a datagram puts into `cur_image`, before it is cut, and what it emits as audio has the declared
length, which lies inside the packet. -/
structure LengthsHonoured (L : Listeners ε) (w : World ε) (d : Delivery) : Prop where
  chunk : ∀ id b, chunkPut L w d = some (id, b) → b.length = chunkLenOf d.msg
  audio : ∀ data, audios (receive L w d).events = audios w.events ++ [data] →
    data.length = audioLenOf d.msg ∧ audioLenOf d.msg + 36 ≤ pktLenOf d.msg

/-- The chunk of the datagram gets into `cur_image`. -/
def Takes (L : Listeners ε) (w : World ε) (d : Delivery) : Prop := (chunkPut L w d).isSome = true

/-- A chunk that is taken is not cropped, and the samples of an audio packet are there and lie inside the
packet. -/
structure Truthful (L : Listeners ε) (w : World ε) (d : Delivery) : Prop where
  video : Takes L w d → ¬Cropped d.msg
  audio : IsAudio d.msg → (audioLenOf d.msg = 0 ∨ 40 + audioLenOf d.msg ≤ d.msg.length) ∧
    audioLenOf d.msg + 36 ≤ pktLenOf d.msg

theorem video_of_put {L : Listeners ε} {w : World ε} {d : Delivery} {e : ℕ × Bytes}
    (h : chunkPut L w d = some e) : (dataPktOf d.msg).video = some e := by
  rw [← entry_item]
  exact placed_entry h

theorem audios_receive_iff {d : Delivery} (hd : IsDrwData d.msg) (L : Listeners ε) (w : World ε)
    {data : Bytes} :
    audios (receive L w d).events = audios w.events ++ [data] ↔ dataPktOf d.msg = .audio data := by
  rw [audios_receive hd, List.append_cancel_left_eq]
  cases dataPktOf d.msg <;> simp

/-- **One datagram**: the declared lengths are honoured exactly if it is truthful. -/
theorem honoured_iff {d : Delivery} (hd : IsDrwData d.msg) (L : Listeners ε) (w : World ε) :
    LengthsHonoured L w d ↔ Truthful L w d := by
  constructor
  · refine fun h => ⟨fun htakes => ?_, fun haudio => ?_⟩
    · obtain ⟨⟨id, b⟩, hput⟩ := Option.isSome_iff_exists.1 htakes
      exact (length_chunk_iff hd (video_of_put hput)).1 (h.chunk id b hput)
    · have hdata := (dataPktOf_eq_audio hd).2 ⟨haudio, rfl⟩
      obtain ⟨hlen, hinside⟩ := h.audio _ ((audios_receive_iff hd L w).2 hdata)
      rw [field, List.length_take, List.length_drop] at hlen
      exact ⟨by omega, hinside⟩
  · refine fun h => ⟨fun id b hput => ?_, fun data hdata => ?_⟩
    · exact (length_chunk_iff hd (video_of_put hput)).2 (h.video (by rw [Takes, hput]; rfl))
    · obtain ⟨haudio, rfl⟩ := (dataPktOf_eq_audio hd).1 ((audios_receive_iff hd L w).1 hdata)
      obtain ⟨hthere, hinside⟩ := h.audio haudio
      refine ⟨?_, hinside⟩
      rw [field, List.length_take, List.length_drop]
      omega

/-! ### Runs -/

def uncropped (d : Delivery) : Option (ℕ × Bytes) := if Cropped d.msg then none else (dataPktOf d.msg).video

/-- All along a run the declared lengths are honoured, and the emitted images are put together from packets
that were not cropped. -/
structure RunHonoured (L : Listeners ε) (w : World ε) (ds : List Delivery) : Prop where
  steps : Runs.Guarded (receive L) (LengthsHonoured L) w ds
  images : ∀ image ∈ frames (receiveAll L w ds).events,
    ∃ last, Spliced CutAtMarkers (ds.filterMap uncropped) image last

/-- **Declared lengths are honoured** exactly in the runs in which no chunk that is taken is cropped and no
audio packet announces more than it has. -/
theorem lengths_honoured_iff (L : Listeners ε) {w : World ε} (hw : Fresh w) (ds : List Delivery)
    (hds : ∀ d ∈ ds, IsDrwData d.msg) :
    RunHonoured L w ds ↔ Runs.Guarded (receive L) (Truthful L) w ds := by
  have hsteps : Runs.Guarded (receive L) (LengthsHonoured L) w ds ↔
      Runs.Guarded (receive L) (Truthful L) w ds :=
    Runs.guarded_congr fun w' d hd => honoured_iff (hds d hd) L w'
  refine ⟨fun h => hsteps.1 h.steps, fun h => ⟨hsteps.2 h, ?_⟩⟩
  refine (spliced_receiveAll L hw uncropped ds hds fun seen d rest hsplit e hput => ?_).2
  subst hsplit
  rw [uncropped, if_neg (h.step_of.video (by rw [Takes]; exact Option.isSome_of_mem hput)), video_of_put hput]

/-- Two headers that arrive in full. -/
theorem lengths_honoured_iff_twoHeaders :
    RunHonoured .absent oneCamera (delivered [wholeMsg 1 headerPayload, wholeMsg 2 headerPayload]) := by
  have hmsgs : ∀ msg ∈ [wholeMsg 1 headerPayload, wholeMsg 2 headerPayload], ¬Cropped msg ∧ ¬IsAudio msg := by
    decide
  have htruthful : ∀ (w : World Unit), ∀ msg ∈ [wholeMsg 1 headerPayload, wholeMsg 2 headerPayload],
      Truthful .absent w ⟨defaultConfig, 0, msg⟩ := fun w msg hmsg =>
    ⟨fun _ => (hmsgs msg hmsg).1, fun haudio => absurd haudio (hmsgs msg hmsg).2⟩
  exact (lengths_honoured_iff .absent (fresh_init _ _ _ _) _ (by decide)).2
    ⟨htruthful _ _ (by simp), htruthful _ _ (by simp), trivial⟩

/-- A frame whose header was cut off in transit, and the next header. -/
def croppedHeader : List Delivery :=
  delivered [(wholeMsg 1 headerPayload).dropLast, wholeMsg 2 headerPayload]

/-- A frame whose header was cropped is emitted with what is left of it. -/
theorem cropped_frame :
    ¬RunHonoured .absent oneCamera croppedHeader ∧
      frames (receiveAll .absent oneCamera croppedHeader).events = [[headerPayload.dropLast]] := by
  refine ⟨fun h => ?_, by decide +kernel⟩
  have hput : chunkPut .absent oneCamera ⟨defaultConfig, 0, (wholeMsg 1 headerPayload).dropLast⟩ =
      some (1, headerPayload.dropLast) := by decide +kernel
  exact absurd (h.steps.1.chunk _ _ hput) (by decide)

end CamReverse
