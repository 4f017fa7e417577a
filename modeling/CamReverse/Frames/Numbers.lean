import CamReverse.Frames.Reassembly

/-!
# Packet ids that wrap, and packets that come twice

Packet ids have 16 bits and are compared as plain numbers. Adding a constant modulo `2^16` to all ids of a
run leaves its `frame` events alone exactly if it takes all of them past `2^16`, or none
(`shift_invariant_iff`); a frame across the wrap is not assembled like any other. A repeated packet
changes nothing exactly if it neither starts a frame nor is audio (`duplicate_suppressed_iff`).
-/

namespace CamReverse

open Effect Collector

variable {ε : Type}

/-- A data packet with the configuration and the clock it arrives under. -/
structure Sent where
  config : Config
  now : ℚ
  pkt : DataPacket

namespace Sent

def delivery (p : Sent) : Delivery := ⟨p.config, p.now, p.pkt.bytes⟩

/-- The packet with `c` added to its id, modulo `2^16`. -/
def shift (c : ℕ) (p : Sent) : Sent :=
  { p with pkt := { p.pkt with id := (p.pkt.id + c) % 65536, id_lt := Nat.mod_lt _ (by decide) } }

end Sent

def receiveSent (L : Listeners ε) (w : World ε) (ps : List Sent) : World ε :=
  receiveAll L w (ps.map Sent.delivery)

/-- The ids `c` takes past `2^16`. -/
def Wraps (c id : ℕ) : Prop := 65536 ≤ id + c % 65536

/-! ### Shifted runs -/

theorem shift_keepsOrder {c x y : ℕ} (hx : x < 65536) (hy : y < 65536) (h : Wraps c x ↔ Wraps c y) :
    KeepsOrder (fun id => (id + c) % 65536) x y := by
  simp only [Wraps] at h
  simp only [KeepsOrder]
  constructor <;> omega

theorem dataPktOf_delivery (p : Sent) :
    dataPktOf p.delivery.msg = payloadPkt p.pkt.pktLen p.pkt.id p.pkt.payload :=
  p.pkt.dataPktOf_bytes

theorem dataPktOf_shift (c : ℕ) (p : Sent) :
    dataPktOf (p.shift c).delivery.msg =
      (dataPktOf p.delivery.msg).renumber fun id => (id + c) % 65536 := by
  rw [dataPktOf_delivery, dataPktOf_delivery]
  exact payloadPkt_renumber (fun id => (id + c) % 65536) p.pkt.pktLen p.pkt.id p.pkt.payload

/-- `v` is `w` with the packet ids renumbered by `f`; the last one is among `ids`. -/
structure Renumbered (f : ℕ → ℕ) (ids : ℕ → Prop) (w v : World ε) : Prop where
  app : v.app = w.app
  devName : v.session.devName = w.session.devName
  frames : frames v.events = frames w.events
  curImage : v.session.curImage = w.session.curImage
  frameIsBad : v.session.frameIsBad = w.session.frameIsBad
  rcvSeqId : v.session.rcvSeqId = f w.session.rcvSeqId
  mem : ids w.session.rcvSeqId

theorem appAfter_renumber (f : ℕ → ℕ) (L : Listeners ε) {w v : World ε} (happ : v.app = w.app)
    (himage : v.session.curImage = w.session.curImage)
    (hbad : v.session.frameIsBad = w.session.frameIsBad) (pkt : DataPkt) :
    (pkt.renumber f).appAfter L v = pkt.appAfter L w := by
  have hcomplete : (collector v.session).complete = (collector w.session).complete := by
    simp [collector, State.complete, himage, hbad]
  cases pkt with
  | newFrame id buf => simp only [DataPkt.renumber, DataPkt.appAfter, hcomplete, himage, happ]
  | audio data => simp only [DataPkt.renumber, DataPkt.appAfter, happ]
  | ignored => exact happ
  | chunk id b => exact happ

theorem Renumbered.step {f : ℕ → ℕ} {ids : ℕ → Prop} (hf : ∀ x y, ids x → ids y → KeepsOrder f x y)
    {L : Listeners ε} {w v : World ε} (h : Renumbered f ids w v) {d e : Delivery}
    (hd : IsDrwData d.msg) (he : IsDrwData e.msg) (hconfig : e.config = d.config)
    (hpkt : dataPktOf e.msg = (dataPktOf d.msg).renumber f)
    (hid : ∀ x ∈ (dataPktOf d.msg).item.entry, ids x.1) :
    Renumbered f ids (receive L w d) (receive L v e) := by
  have hrefused : frameRefused L v = frameRefused L w := by
    rw [frameRefused, frameRefused, h.curImage, h.app]
  have hcw := collector_receive hd L w
  have hcv := collector_receive he L v
  have hkeep : ∀ id a, (dataPktOf d.msg).item = .next id a → KeepsOrder f w.session.rcvSeqId id := by
    intro id a hitem
    exact hf _ _ h.mem (hid (id, a) (by rw [hitem]; rfl))
  obtain ⟨hitems, hbad, hlast⟩ := step_renumber (f := f) (s := collector w.session)
    (t := collector v.session) (i := arrivalOf d.config L w (dataPktOf d.msg))
    (j := arrivalOf e.config L v (dataPktOf e.msg)) h.curImage h.frameIsBad h.rcvSeqId
    (by rw [arrivalOf, arrivalOf, hpkt]; exact item_renumber f _)
    (by rw [arrivalOf, arrivalOf, h.devName, hconfig]) hrefused hkeep
  refine ⟨?_, ?_, ?_, ?_, ?_, ?_, ?_⟩
  · rw [receive_app hd, receive_app he, hpkt,
      appAfter_renumber f L h.app h.curImage h.frameIsBad]
  · rw [receive_devName hd, receive_devName he, h.devName]
  · rw [frames_receive hd, frames_receive he, h.frames, hpkt, item_renumber]
    exact congrArg (fun g => _ ++ Option.toList g)
      (handedOver_renumber f (s := collector w.session) (t := collector v.session)
        h.curImage h.frameIsBad _)
  · exact (congrArg State.items hcv).trans (hitems.trans (congrArg State.items hcw).symm)
  · exact (congrArg State.bad hcv).trans (hbad.trans (congrArg State.bad hcw).symm)
  · exact (congrArg State.last hcv).trans (hlast.trans (congrArg (fun s => f (State.last s)) hcw).symm)
  · rw [show (receive L w d).session.rcvSeqId = _ from congrArg State.last hcw]
    rcases step_last (collector w.session) (arrivalOf d.config L w (dataPktOf d.msg)) with hsame | ⟨a, ha⟩
    · show ids (Collector.step (collector w.session) _).last
      rw [hsame]
      exact h.mem
    · exact hid _ ha

theorem Renumbered.run {c : ℕ} {ids : ℕ → Prop}
    (hf : ∀ x y, ids x → ids y → KeepsOrder (fun id => (id + c) % 65536) x y) (L : Listeners ε)
    (ps : List Sent) (hps : ∀ p ∈ ps, ids p.pkt.id) {w v : World ε}
    (h : Renumbered (fun id => (id + c) % 65536) ids w v) :
    Renumbered (fun id => (id + c) % 65536) ids (receiveSent L w ps)
      (receiveSent L v (ps.map (Sent.shift c))) := by
  have hsent : List.Forall₂ (fun d e => ∃ p : Sent, ids p.pkt.id ∧ d = p.delivery ∧ e = (p.shift c).delivery)
      (ps.map Sent.delivery) ((ps.map (Sent.shift c)).map Sent.delivery) := by
    rw [List.map_map, List.forall₂_map_left_iff, List.forall₂_map_right_iff, List.forall₂_same]
    exact fun p hp => ⟨p, hps p hp, rfl, rfl⟩
  refine Runs.simulation h ?_ hsent
  rintro w v d e h ⟨p, hid, rfl, rfl⟩
  refine h.step hf p.pkt.isDrwData_bytes (p.shift c).pkt.isDrwData_bytes rfl (dataPktOf_shift c p) ?_
  intro x hx
  rw [dataPktOf_delivery] at hx
  rw [payloadPkt_entry _ _ _ x hx]
  exact hid

/-- After a header that is not refused, only its id is left of the shift. -/
theorem renumbered_start {c : ℕ} {ids : ℕ → Prop} {L : Listeners ε} {w : World ε} {p : Sent} {id : ℕ}
    {buf : Bytes} (hnew : dataPktOf p.delivery.msg = .newFrame id buf)
    (hrefused : (collector w.session).complete = true → frameRefused L w = false) (hid : ids id) :
    Renumbered (fun id => (id + c) % 65536) ids (receive L w p.delivery)
      (receive L w (p.shift c).delivery) := by
  have hp := p.pkt.isDrwData_bytes
  have hq := (p.shift c).pkt.isDrwData_bytes
  have hnew' := (dataPktOf_shift c p).trans (congrArg (DataPkt.renumber _) hnew)
  have hcp : collector (receive L w p.delivery).session = _ := receive_newFrame hp hnew hrefused
  have hcq : collector (receive L w (p.shift c).delivery).session = _ := receive_newFrame hq hnew' hrefused
  refine ⟨?_, ?_, ?_, ?_, ?_, ?_, ?_⟩
  · rw [receive_app hp, receive_app hq, hnew, hnew']
    rfl
  · rw [receive_devName hp, receive_devName hq]
  · rw [frames_receive hp, frames_receive hq, hnew, hnew']
    rfl
  · exact (congrArg State.items hcq).trans (congrArg State.items hcp).symm
  · exact (congrArg State.bad hcq).trans (congrArg State.bad hcp).symm
  · exact (congrArg State.last hcq).trans (congrArg (fun s => (State.last s + c) % 65536) hcp).symm
  · rw [show (receive L w p.delivery).session.rcvSeqId = _ from congrArg State.last hcp]
    exact hid

/-- **Shift invariance.** A run that starts with a header emits the same images when `c` is added to its
ids, if that takes all of them past `2^16` or none. -/
theorem frames_shift (c : ℕ) (L : Listeners ε) (w : World ε) (p : Sent) (ps : List Sent)
    (hnew : ∃ id buf, dataPktOf p.delivery.msg = .newFrame id buf)
    (hrefused : (collector w.session).complete = true → frameRefused L w = false)
    (hwraps : ∀ q ∈ p :: ps, Wraps c q.pkt.id ↔ Wraps c p.pkt.id) :
    frames (receiveSent L w ((p :: ps).map (Sent.shift c))).events =
      frames (receiveSent L w (p :: ps)).events := by
  obtain ⟨id, buf, hnew⟩ := hnew
  have hid : id = p.pkt.id :=
    payloadPkt_entry p.pkt.pktLen p.pkt.id p.pkt.payload (id, buf) (by rw [← dataPktOf_delivery, hnew]; rfl)
  -- the ids on the same side of the wrap as the header's
  let ids : ℕ → Prop := fun x => x < 65536 ∧ (Wraps c x ↔ Wraps c p.pkt.id)
  have hstart : ids id := ⟨hid ▸ p.pkt.id_lt, by rw [hid]⟩
  have hrun := Renumbered.run
    (fun x y (hx : ids x) (hy : ids y) => shift_keepsOrder hx.1 hy.1 (hx.2.trans hy.2.symm)) L ps
    (fun q hq => ⟨q.pkt.id_lt, hwraps q (List.mem_cons_of_mem _ hq)⟩) (renumbered_start hnew hrefused hstart)
  exact hrun.frames

/-! ### A run across the wrap -/

def sentPkt (id : ℕ) (hid : id < 65536) (payload : Bytes) (hlen : payload.length + 4 < 65536) : Sent :=
  ⟨defaultConfig, 0, ⟨payload.length + 4, 0xd1, id, payload, hlen, hid⟩⟩

def headerAt (i : ℕ) (hi : i < 65536) : Sent := sentPkt i hi headerPayload headerPayload_lt

def chunkAt (j : ℕ) (hj : j < 65536) : Sent := sentPkt j hj chunkPayload chunkPayload_lt

/-- A header, a continuation packet and another header. -/
def threePackets (i j : ℕ) (hi : i < 65536) (hj : j < 65536) : List Sent :=
  [headerAt i hi, chunkAt j hj, headerAt j hj]

theorem arrivals_default (ps : List Sent) (hps : ∀ p ∈ ps, p.config = defaultConfig) (w : World Unit) :
    arrivals .absent w (ps.map Sent.delivery) =
      ps.map fun p => ⟨(payloadPkt p.pkt.pktLen p.pkt.id p.pkt.payload).item, fun _ _ => none, false⟩ := by
  induction ps generalizing w with
  | nil => rfl
  | cons p ps ih =>
    rw [List.map_cons, arrivals, ih (fun q hq => hps q (List.mem_cons_of_mem _ hq)), List.map_cons,
      dataPktOf_delivery, Sent.delivery, hps p List.mem_cons_self]
    rfl

theorem frames_threePackets {i j : ℕ} (hi : i < 65536) (hj : j < 65536) :
    frames (receiveSent .absent oneCamera (threePackets i j hi hj)).events =
      if j ≤ i then [[headerPayload]] else if i + 1 < j then [] else [[headerPayload, chunkPayload]] := by
  have hdrw : ∀ d ∈ (threePackets i j hi hj).map Sent.delivery, IsDrwData d.msg := by
    intro d hd
    obtain ⟨p, -, rfl⟩ := List.mem_map.1 hd
    exact p.pkt.isDrwData_bytes
  have harrivals : arrivals .absent oneCamera ((threePackets i j hi hj).map Sent.delivery) =
      [⟨.first i headerPayload, fun _ _ => none, false⟩, ⟨.next j chunkPayload, fun _ _ => none, false⟩,
        ⟨.first j headerPayload, fun _ _ => none, false⟩] :=
    arrivals_default _ (by simp [threePackets, headerAt, chunkAt, sentPkt]) oneCamera
  rw [receiveSent, frames_receiveAll .absent _ hdrw, harrivals]
  show [] ++ (collect State.init _).2 = _
  rw [collect_cons, collect_cons, collect_cons]
  by_cases hle : j ≤ i
  · simp [step, handedOver, State.init, State.complete, continued, collect, hle]
  · by_cases hgap : i + 1 < j
    · simp [step, handedOver, State.init, State.complete, continued, collect, mended, hle, hgap]
    · simp [step, handedOver, State.init, State.complete, continued, collect, hle, hgap]

/-- **Shift invariance holds of a set of ids exactly if the shift takes all of them past `2^16`, or none**:
then every run over these ids that starts with a header, which is not refused, emits the same images
when it is shifted. -/
theorem shift_invariant_iff (c : ℕ) (ids : ℕ → Prop) (hids : ∀ x, ids x → x < 65536) :
    (∀ (ε : Type) (L : Listeners ε) (w : World ε) (p : Sent) (ps : List Sent),
        (∀ q ∈ p :: ps, ids q.pkt.id) → (∃ id buf, dataPktOf p.delivery.msg = .newFrame id buf) →
        ((collector w.session).complete = true → frameRefused L w = false) →
        frames (receiveSent L w ((p :: ps).map (Sent.shift c))).events =
          frames (receiveSent L w (p :: ps)).events) ↔
      ∀ x y, ids x → ids y → (Wraps c x ↔ Wraps c y) := by
  constructor
  · intro h
    -- a later id that wraps while an earlier one does not
    have hsplit : ∀ x y, ids x → ids y → ¬(¬Wraps c x ∧ Wraps c y) := by
      rintro x y hx hy ⟨hnx, hwy⟩
      have hxlt := hids x hx
      have hylt := hids y hy
      have hrun := h Unit .absent oneCamera (headerAt x hxlt) [chunkAt y hylt, headerAt y hylt]
        (by simp [headerAt, chunkAt, sentPkt, hx, hy]) ⟨x, _, dataPktOf_delivery _⟩ (fun _ => rfl)
      rw [show (headerAt x hxlt :: [chunkAt y hylt, headerAt y hylt]).map (Sent.shift c) =
          threePackets ((x + c) % 65536) ((y + c) % 65536) (Nat.mod_lt _ (by decide))
            (Nat.mod_lt _ (by decide)) from rfl, frames_threePackets,
        show headerAt x hxlt :: [chunkAt y hylt, headerAt y hylt] = threePackets x y hxlt hylt from rfl,
        frames_threePackets] at hrun
      unfold Wraps at hnx hwy
      rw [if_pos (by omega), if_neg (by omega)] at hrun
      split_ifs at hrun
      simp at hrun
    exact fun x y hx hy =>
      ⟨fun hwx => by_contra fun hny => hsplit y x hy hx ⟨hny, hwx⟩,
        fun hwy => by_contra fun hnx => hsplit x y hx hy ⟨hnx, hwy⟩⟩
  · intro h ε L w p ps hps hnew hrefused
    exact frames_shift c L w p ps hnew hrefused fun q hq =>
      h q.pkt.id p.pkt.id (hps q hq) (hps p List.mem_cons_self)

theorem shift_invariant_iff_ten :
    (∀ (ε : Type) (L : Listeners ε) (w : World ε) (p : Sent) (ps : List Sent),
        (∀ q ∈ p :: ps, q.pkt.id < 10) → (∃ id buf, dataPktOf p.delivery.msg = .newFrame id buf) →
        ((collector w.session).complete = true → frameRefused L w = false) →
        frames (receiveSent L w ((p :: ps).map (Sent.shift 65520))).events =
          frames (receiveSent L w (p :: ps)).events) ↔
      ∀ x y, x < 10 → y < 10 → (Wraps 65520 x ↔ Wraps 65520 y) :=
  shift_invariant_iff 65520 (· < 10) fun _ h => Nat.lt_trans h (by decide)

/-- A frame with the packet ids 0 and 1 is emitted whole; with the ids 65535 and 0 it loses its end. -/
theorem frame_across_wrap :
    frames (receiveSent .absent oneCamera (threePackets 0 1 (by decide) (by decide))).events =
        [[JPEG_HEADER ++ [0, 0, 0, 0], chunkPayload]] ∧
      frames (receiveSent .absent oneCamera
          ((threePackets 0 1 (by decide) (by decide)).map (Sent.shift 65535))).events =
        [[JPEG_HEADER ++ [0, 0, 0, 0]]] :=
  ⟨frames_threePackets (by decide) (by decide),
    frames_threePackets (i := 65535) (j := 0) (by decide) (by decide)⟩

/-! ### A packet that comes twice -/

/-- A packet that starts a frame or carries audio. -/
def DataPkt.Emitting : DataPkt → Prop
  | .ignored => False
  | .audio _ => True
  | .newFrame _ _ => True
  | .chunk _ _ => False

theorem audios_receive {d : Delivery} (hd : IsDrwData d.msg) (L : Listeners ε) (w : World ε) :
    audios (receive L w d).events =
      audios w.events ++ match dataPktOf d.msg with
        | .audio data => [data]
        | _ => [] := by
  obtain ⟨wasFixed, last, h⟩ := receive_final hd L w
  have hack : audios (ackEvents d.msg w) = [] := by
    unfold ackEvents wired
    split
    · split_ifs <;> rfl
    · rfl
  rw [h, audios, List.filterMap_append, List.filterMap_append, ← audios, ← audios, ← audios, hack,
    List.append_nil]
  congr 1
  cases dataPktOf d.msg with
  | newFrame id buf =>
    simp only [DataPkt.events]
    split_ifs <;> rfl
  | ignored => rfl
  | audio data => rfl
  | chunk id b => rfl

/-- **Duplicate suppression** holds of a packet exactly if it neither starts a frame nor carries audio:
then the second arrival changes nothing and emits nothing. -/
theorem duplicate_suppressed_iff (L : Listeners ε) (w : World ε) (config : Config) (now now' : ℚ)
    (msg : Bytes) (hmsg : IsDrwData msg) :
    (collector (receive L (receive L w ⟨config, now, msg⟩) ⟨config, now', msg⟩).session =
          collector (receive L w ⟨config, now, msg⟩).session ∧
        frames (receive L (receive L w ⟨config, now, msg⟩) ⟨config, now', msg⟩).events =
          frames (receive L w ⟨config, now, msg⟩).events ∧
        audios (receive L (receive L w ⟨config, now, msg⟩) ⟨config, now', msg⟩).events =
          audios (receive L w ⟨config, now, msg⟩).events) ↔
      ¬(dataPktOf msg).Emitting := by
  have h₁ : IsDrwData (⟨config, now, msg⟩ : Delivery).msg := hmsg
  have h₂ : IsDrwData (⟨config, now', msg⟩ : Delivery).msg := hmsg
  rw [collector_receive h₂, frames_receive h₂, audios_receive h₂, collector_receive h₁]
  cases hpkt : dataPktOf msg with
  | ignored =>
    have hstep : ∀ s, step s (arrivalOf config L (receive L w ⟨config, now, msg⟩) .ignored) = s :=
      fun s => rfl
    simp [hstep, handedOver, DataPkt.item, DataPkt.Emitting]
  | audio data => simp [DataPkt.Emitting]
  | newFrame id buf =>
    -- the first arrival leaves a frame behind, which the second one hands over
    have hcomplete := complete_step_first (s := collector w.session)
      (i := arrivalOf config L w (.newFrame id buf)) rfl
    rw [show (DataPkt.newFrame id buf).item = .first id buf from rfl, handedOver, if_pos hcomplete]
    simp [DataPkt.Emitting]
  | chunk id b =>
    have hmend : (arrivalOf config L (receive L w ⟨config, now, msg⟩) (.chunk id b)).mend =
        (arrivalOf config L w (.chunk id b)).mend := by
      rw [arrivalOf, arrivalOf, receive_devName h₁]
    rw [step_step_next rfl rfl hmend]
    simp [handedOver, DataPkt.item, DataPkt.Emitting]

/-- A whole packet with id 1, received under the default configuration. -/
def arrivalAt (now : ℚ) (payload : Bytes) : Delivery := ⟨defaultConfig, now, wholeMsg 1 payload⟩

/-- A repeated continuation packet is suppressed. -/
theorem duplicate_suppressed_chunk :
    (collector (receive .absent (receive .absent oneCamera (arrivalAt 1 chunkPayload))
            (arrivalAt 2 chunkPayload)).session =
          collector (receive .absent oneCamera (arrivalAt 1 chunkPayload)).session ∧
        frames (receive .absent (receive .absent oneCamera (arrivalAt 1 chunkPayload))
            (arrivalAt 2 chunkPayload)).events =
          frames (receive .absent oneCamera (arrivalAt 1 chunkPayload)).events ∧
        audios (receive .absent (receive .absent oneCamera (arrivalAt 1 chunkPayload))
            (arrivalAt 2 chunkPayload)).events =
          audios (receive .absent oneCamera (arrivalAt 1 chunkPayload)).events) ↔
      ¬(dataPktOf (wholeMsg 1 chunkPayload)).Emitting :=
  duplicate_suppressed_iff .absent oneCamera defaultConfig 1 2 (wholeMsg 1 chunkPayload) (by decide)

/-- A repeated header is emitted as a frame of its own. -/
theorem repeated_header :
    frames (receive .absent oneCamera (arrivalAt 1 headerPayload)).events = [] ∧
      frames (receive .absent (receive .absent oneCamera (arrivalAt 1 headerPayload))
          (arrivalAt 2 headerPayload)).events =
        [[headerPayload]] := by
  decide +kernel

end CamReverse
