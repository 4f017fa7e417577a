import CamReverse.Frames.Reassembly

/-!
# Lost packets at the end of a frame

A camera numbers its packets one after the other, modulo `2^16`, and the network loses some of them. A
session notices a loss only at a later continuation packet, by a gap in the ids, so a loss right before a
header goes unnoticed (`truncated_frame`), as does a last packet that is ignored. `no_truncated_frame` is
what remains: when the last video packet before a header was taken and everything after it received, the
frame the header closes is whole at its end.
-/

namespace CamReverse

open Effect Collector

variable {ε : Type}

/-- A packet of a camera's stream, with the session's surroundings if it gets there. -/
structure CameraPkt where
  payload : Bytes
  received : Bool
  config : Config
  now : ℚ
  mark : UInt8
  payload_ne : payload ≠ []
  payload_lt : payload.length + 4 < 65536

namespace CameraPkt

def delivery (p : CameraPkt) (id : ℕ) : Delivery where
  config := p.config
  now := p.now
  msg := [0xf1, 0xd0] ++ Bytes.be 2 (p.payload.length + 4) ++ [p.mark, 1] ++ Bytes.be 2 id ++ p.payload

theorem isWhole (p : CameraPkt) {id : ℕ} (hid : id < 65536) : IsWhole (p.delivery id).msg id p.payload := by
  refine ⟨⟨p.payload.length + 4, p.mark, id, p.payload, p.payload_lt, hid⟩, rfl, rfl, rfl, ?_⟩
  simp only [delivery, List.length_append, List.length_cons, List.length_nil, Bytes.length_be]
  omega

/-- Audio, or another stream type that is not video. -/
def IsOther (p : CameraPkt) : Prop := FRAME_HEADER <+: p.payload ∧ ∃ t ∈ p.payload[4]?, t ≠ 3

end CameraPkt

/-- The packet id at position `n` of a stream that starts at `c`. -/
def streamId (c n : ℕ) : ℕ := (c + n) % 65536

/-- What arrives of a stream of packets from position `n` on. -/
def deliveries (c : ℕ) : ℕ → List CameraPkt → List Delivery
  | _, [] => []
  | n, p :: ps =>
    if p.received then p.delivery (streamId c n) :: deliveries c (n + 1) ps else deliveries c (n + 1) ps

/-- The session after what arrives of the start of a stream. -/
def afterStream (L : Listeners ε) (w : World ε) (c : ℕ) (before : List CameraPkt) : World ε :=
  receiveAll L w (deliveries c 0 before)

theorem streamId_lt (c n : ℕ) : streamId c n < 65536 := Nat.mod_lt _ (by decide)

theorem deliveries_append (c n : ℕ) (ps qs : List CameraPkt) :
    deliveries c n (ps ++ qs) = deliveries c n ps ++ deliveries c (n + ps.length) qs := by
  induction ps generalizing n with
  | nil => rfl
  | cons p ps ih =>
    rw [List.cons_append, deliveries, deliveries, ih, List.length_cons, Nat.add_right_comm, ← Nat.add_assoc]
    split_ifs <;> rfl

theorem deliveries_isDrwData (c n : ℕ) (ps : List CameraPkt) :
    ∀ d ∈ deliveries c n ps, IsDrwData d.msg := by
  induction ps generalizing n with
  | nil => simp [deliveries]
  | cons p ps ih =>
    rw [deliveries]
    split_ifs
    · exact List.forall_mem_cons.2 ⟨(p.isWhole (streamId_lt c n)).isDrwData, ih (n + 1)⟩
    · exact ih (n + 1)

theorem afterStream_append (L : Listeners ε) (w : World ε) (c : ℕ) (ps qs : List CameraPkt) :
    afterStream L w c (ps ++ qs) = receiveAll L (afterStream L w c ps) (deliveries c ps.length qs) := by
  rw [afterStream, deliveries_append, receiveAll, List.foldl_append, Nat.zero_add]
  rfl

/-! ### What a header closes -/

/-- The packet `p` that comes after `before`, as the session receives it. -/
def dataPktAfter (c : ℕ) (before : List CameraPkt) (p : CameraPkt) : DataPkt :=
  dataPktOf (p.delivery (streamId c before.length)).msg

/-- The `frame` event is emitted when `p` arrives after `before`. -/
def Emits (L : Listeners ε) (w : World ε) (c : ℕ) (before : List CameraPkt) (p : CameraPkt) : Prop :=
  p.received = true ∧
    frames (receive L (afterStream L w c before) (p.delivery (streamId c before.length))).events ≠
      frames (afterStream L w c before).events

/-- `p` starts a frame after `before` while there is a good one to hand over. -/
def Closes (L : Listeners ε) (w : World ε) (c : ℕ) (before : List CameraPkt) (p : CameraPkt) : Prop :=
  p.received = true ∧ (∃ id buf, dataPktAfter c before p = .newFrame id buf) ∧
    (collector (afterStream L w c before).session).complete = true

theorem closes_of_emits {L : Listeners ε} {w : World ε} {c : ℕ} {before : List CameraPkt} {p : CameraPkt}
    (h : Emits L w c before p) : Closes L w c before p := by
  obtain ⟨hreceived, hemits⟩ := h
  have hdrw := (p.isWhole (streamId_lt c before.length)).isDrwData
  rw [frames_receive hdrw] at hemits
  have hsome : handedOver (collector (afterStream L w c before).session)
      (dataPktAfter c before p).item ≠ none := by
    intro hnone
    apply hemits
    show _ ++ (handedOver _ (dataPktAfter c before p).item).toList = _
    rw [hnone, Option.toList_none, List.append_nil]
  obtain ⟨g, hg⟩ := Option.ne_none_iff_exists'.1 hsome
  obtain ⟨⟨id, a, hitem⟩, hcomplete, -⟩ := handedOver_eq_some.1 hg
  exact ⟨hreceived, ⟨id, a, item_eq_first.1 hitem⟩, hcomplete⟩

/-- Every id strictly between `e` and the id of the packet after `before` belongs to a packet that was
received and is not video. -/
def NothingMissing (c : ℕ) (before : List CameraPkt) (e : ℕ) : Prop :=
  ∀ m, 0 < m → m < (streamId c before.length + 65536 - e) % 65536 →
    ∃ q, before.reverse[m - 1]? = some q ∧ q.received = true ∧ q.IsOther

/-- The last video packet of `before` was received and taken, and everything after it was received. -/
def TrailingTaken (L : Listeners ε) (w : World ε) (c : ℕ) (before : List CameraPkt) : Prop :=
  ∃ early v between, before = early ++ v :: between ∧ v.received = true ∧
    Takes (collector (afterStream L w c early).session)
      (arrivalOf v.config L (afterStream L w c early) (dataPktAfter c early v)) ∧
    ∀ q ∈ between, q.received = true ∧ q.IsOther

theorem wholePkt_other {p : CameraPkt} (h : p.IsOther) (id : ℕ) :
    (wholePkt id p.payload).item = .other := by
  obtain ⟨hhdr, t, ht, hne⟩ := h
  have hne3 : t.toNat ≠ STREAM_TYPE_JPEG := fun h => hne (UInt8.toNat_inj.1 h)
  rw [wholePkt, payloadPkt, if_pos ((isPrefixOf_take_four rfl).2 hhdr), Option.mem_def.1 ht]
  simp only
  rw [if_neg fun h : t.toNat = STREAM_TYPE_JPEG ∧ _ => hne3 h.1]
  split_ifs <;> rfl

theorem collector_others (L : Listeners ε) (c : ℕ) (qs : List CameraPkt)
    (hqs : ∀ q ∈ qs, q.received = true ∧ q.IsOther) (n : ℕ) (w : World ε) :
    collector (receiveAll L w (deliveries c n qs)).session = collector w.session := by
  induction qs generalizing n w with
  | nil => rfl
  | cons q qs ih =>
    obtain ⟨hreceived, hother⟩ := hqs q List.mem_cons_self
    have hwhole := q.isWhole (streamId_lt c n)
    rw [deliveries, if_pos hreceived, receiveAll, List.foldl_cons, ← receiveAll,
      ih (fun q' h => hqs q' (List.mem_cons_of_mem _ h)), collector_receive hwhole.isDrwData, arrivalOf,
      hwhole.read]
    exact step_other (wholePkt_other hother _)

theorem streamId_sub (c n k : ℕ) : (streamId c (n + k) + 65536 - streamId c n) % 65536 = k % 65536 := by
  unfold streamId
  omega

/-- After a taken packet and packets that are not video, a good frame ends with the taken one. -/
theorem nothingMissing_of_trailingTaken {L : Listeners ε} {w : World ε} {c : ℕ} {before : List CameraPkt}
    (hoff : ∀ p ∈ before, fixPacketLoss p.config w.session.devName ≠ .ok true)
    (htaken : TrailingTaken L w c before)
    (hcomplete : (collector (afterStream L w c before).session).complete = true) :
    NothingMissing c before (afterStream L w c before).session.rcvSeqId := by
  obtain ⟨early, v, between, rfl, hv, htakes, hothers⟩ := htaken
  have hwhole := v.isWhole (streamId_lt c early.length)
  have hname : (afterStream L w c early).session.devName = w.session.devName :=
    receiveAll_devName L _ (deliveries_isDrwData c 0 early) w
  have hmend : ∀ l a, (arrivalOf v.config L (afterStream L w c early) (dataPktAfter c early v)).mend l a =
      none := by
    intro l a
    rw [arrivalOf, hname]
    exact mendOf_off (hoff v (by simp)) l a
  -- the rest of the stream does not touch what is collected after `v`
  have hstate : collector (afterStream L w c (early ++ v :: between)).session =
      step (collector (afterStream L w c early).session)
        (arrivalOf v.config L (afterStream L w c early) (dataPktAfter c early v)) := by
    rw [afterStream_append, deliveries, if_pos hv, receiveAll, List.foldl_cons, ← receiveAll,
      collector_others L c between hothers]
    exact collector_receive hwhole.isDrwData L (afterStream L w c early)
  rw [hstate] at hcomplete
  obtain ⟨id, a, hentry, hlast⟩ := last_of_takes hmend htakes hcomplete
  have hid : (afterStream L w c (early ++ v :: between)).session.rcvSeqId = streamId c early.length := by
    rw [show (afterStream L w c (early ++ v :: between)).session.rcvSeqId = _ from congrArg State.last hstate,
      hlast]
    rw [dataPktAfter, arrivalOf, hwhole.read] at hentry
    exact payloadPkt_entry _ _ _ (id, a) hentry
  rw [hid]
  intro m hpos hm
  rw [List.length_append, List.length_cons, streamId_sub] at hm
  have hlt : m - 1 < between.reverse.length := by
    rw [List.length_reverse]
    omega
  rw [List.reverse_append, List.reverse_cons, List.append_assoc, List.getElem?_append_left hlt,
    List.getElem?_eq_getElem hlt]
  exact ⟨_, rfl, hothers _ (List.mem_reverse.1 (List.getElem_mem hlt))⟩

/-- **No truncated frame**, in every run in which at each closing header the last video packet before it
was taken and everything after that received: every id between the last chunk of the emitted frame and
the header belongs to a packet that was received and is not video. -/
theorem no_truncated_frame (L : Listeners ε) (w : World ε) (c : ℕ) (pkts : List CameraPkt)
    (hoff : ∀ p ∈ pkts, fixPacketLoss p.config w.session.devName ≠ .ok true)
    (htaken : ∀ before p after, pkts = before ++ p :: after → Closes L w c before p →
      TrailingTaken L w c before) :
    ∀ before p after, pkts = before ++ p :: after → Emits L w c before p →
      NothingMissing c before (afterStream L w c before).session.rcvSeqId := by
  intro before p after hpkts hemits
  have hcloses := closes_of_emits hemits
  exact nothingMissing_of_trailingTaken (fun q hq => hoff q (by rw [hpkts]; simp [hq]))
    (htaken before p after hpkts hcloses) hcloses.2.2

/-- A packet of the default configuration. -/
def cameraPkt (payload : Bytes) (received : Bool) (hne : payload ≠ []) (hlt : payload.length + 4 < 65536) :
    CameraPkt := ⟨payload, received, defaultConfig, 0, 0xd1, hne, hlt⟩

def headerPkt : CameraPkt := cameraPkt headerPayload true (by decide) headerPayload_lt

def chunkPkt (received : Bool) : CameraPkt :=
  cameraPkt chunkPayload received (by decide) chunkPayload_lt

def audioPkt : CameraPkt := cameraPkt (FRAME_HEADER ++ [6, 0, 0, 0]) true (by decide) (by decide)

/-- A frame of two chunks with an audio packet behind it closes whole. -/
theorem no_truncated_frame_audio :
    Emits .absent oneCamera 10 [headerPkt, chunkPkt true, audioPkt] headerPkt ∧
      ∀ before p after, [headerPkt, chunkPkt true, audioPkt, headerPkt] = before ++ p :: after →
        Emits .absent oneCamera 10 before p →
        NothingMissing 10 before (afterStream .absent oneCamera 10 before).session.rcvSeqId := by
  refine ⟨⟨rfl, by decide +kernel⟩,
    no_truncated_frame .absent oneCamera 10 [headerPkt, chunkPkt true, audioPkt, headerPkt] ?_ ?_⟩
  · have hoff : ∀ p ∈ [headerPkt, chunkPkt true, audioPkt, headerPkt], p.config = defaultConfig := by
      simp [headerPkt, chunkPkt, audioPkt, cameraPkt]
    intro p hp h
    rw [hoff p hp] at h
    cases h
  · intro before p after hpkts hcloses
    obtain ⟨-, ⟨id, buf, hnew⟩, hcomplete⟩ := hcloses
    rcases before with _ | ⟨p₀, _ | ⟨p₁, _ | ⟨p₂, before⟩⟩⟩ <;>
      simp only [List.nil_append, List.cons_append, List.cons.injEq] at hpkts
    · exact absurd hcomplete (by decide)
    · obtain ⟨rfl, rfl, -⟩ := hpkts
      rw [show dataPktAfter 10 [headerPkt] (chunkPkt true) = .chunk 11 chunkPayload by
        decide +kernel] at hnew
      cases hnew
    · obtain ⟨rfl, rfl, rfl, -⟩ := hpkts
      rw [show dataPktAfter 10 [headerPkt, chunkPkt true] audioPkt = .ignored by decide +kernel] at hnew
      cases hnew
    · obtain ⟨rfl, rfl, rfl, h⟩ := hpkts
      have hend : before = [] := by
        cases before with
        | nil => rfl
        | cons p₃ before => simp at h
      subst hend
      refine ⟨[headerPkt], chunkPkt true, [audioPkt], rfl, rfl, ?_, ?_⟩
      · show Takes _ (arrivalOf _ _ _ (dataPktAfter 10 [headerPkt] (chunkPkt true)))
        rw [show dataPktAfter 10 [headerPkt] (chunkPkt true) = .chunk 11 chunkPayload by
          decide +kernel]
        show (afterStream .absent oneCamera 10 [headerPkt]).session.rcvSeqId < 11
        decide +kernel
      · intro q hq
        rw [List.mem_singleton.1 hq]
        exact ⟨rfl, List.prefix_append _ _, 6, rfl, by decide⟩

/-- The last chunk of a frame is lost. -/
def lostTail : List CameraPkt := [headerPkt, chunkPkt true, chunkPkt false]

/-- A frame that lost its last chunk is emitted all the same. -/
theorem truncated_frame : Emits .absent oneCamera 10 lostTail headerPkt ∧
    ¬NothingMissing 10 lostTail (afterStream .absent oneCamera 10 lostTail).session.rcvSeqId := by
  have hlast : (afterStream .absent oneCamera 10 lostTail).session.rcvSeqId = 11 := by decide +kernel
  refine ⟨⟨rfl, by decide +kernel⟩, fun h => ?_⟩
  rw [hlast] at h
  obtain ⟨q, hq, hreceived, -⟩ := h 1 (by decide) (by decide)
  have hlost : q = chunkPkt false := (Option.some.inj hq).symm
  rw [hlost] at hreceived
  cases hreceived

end CamReverse
