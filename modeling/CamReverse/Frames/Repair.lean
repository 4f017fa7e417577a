import CamReverse.Frames.Reassembly
import CamReverse.Lib.CollectorPieces
import Mathlib.Data.List.Sublists

/-!
# Loss repair

With `fix_packet_loss` on, a gap in the packet ids is closed by cutting the last chunk before its last restart
marker and the next one in front of its first. `spliced_receiveAll` reads a run of data packets as a run of
the collector with pieces; `repaired_frames` says of every emitted image what it is put together from. A chunk
with a gap on both sides and one marker only is cut down to nothing (`emptied_piece`).
-/

namespace CamReverse

open Effect Collector

variable {ε : Type}

/-! ### Restart markers -/

/-- A byte pair ff d0 to ff d7. -/
def IsMarkerAt (b : Bytes) (i : ℕ) : Prop :=
  i + 1 < b.length ∧ b.getD i 0 = 0xFF ∧ 0xD0 ≤ b.getD (i + 1) 0 ∧ b.getD (i + 1) 0 ≤ 0xD7

instance (b : Bytes) (i : ℕ) : Decidable (IsMarkerAt b i) := inferInstanceAs (Decidable (_ ∧ _ ∧ _ ∧ _))

def IsLastMarker (b : Bytes) (i : ℕ) : Prop := IsMarkerAt b i ∧ ∀ k, IsMarkerAt b k → k ≤ i

theorem mem_findAllResetMarkers {b : Bytes} {i : ℕ} : i ∈ findAllResetMarkers b ↔ IsMarkerAt b i := by
  rw [findAllResetMarkers, List.mem_filter, List.mem_range, IsMarkerAt]
  simp only [Bool.and_eq_true, beq_iff_eq, decide_eq_true_eq, and_assoc]
  exact and_congr_left fun _ => by omega

theorem isLastMarker_of_getLast? {b : Bytes} {i : ℕ} (h : (findAllResetMarkers b).getLast? = some i) :
    IsLastMarker b i := by
  have hsorted : (findAllResetMarkers b).Pairwise (· < ·) := List.pairwise_lt_range.filter _
  obtain ⟨front, hfront⟩ := List.getLast?_eq_some_iff.1 h
  refine ⟨mem_findAllResetMarkers.1 (List.mem_of_getLast? h), fun k hk => ?_⟩
  rw [← mem_findAllResetMarkers, hfront] at hk
  rw [hfront] at hsorted
  rcases List.mem_append.1 hk with hk | hk
  · exact ((List.pairwise_append.1 hsorted).2.2 k hk i (List.mem_singleton_self i)).le
  · exact (List.mem_singleton.1 hk).le

theorem spliceAtMarkers_some {l b : Bytes} {r : Bytes × Bytes} (h : spliceAtMarkers l b = some r) :
    ∃ i j, IsLastMarker l i ∧ IsMarkerAt b j ∧ r = (l.take i, b.drop j) := by
  unfold spliceAtMarkers at h
  split at h
  · rename_i i j hlast hfirst
    exact ⟨i, j, isLastMarker_of_getLast? hlast, mem_findAllResetMarkers.1 (List.mem_of_head? hfirst),
      (Option.some.inj h).symm⟩
  · cases h

theorem isMarkerAt_drop {b : Bytes} {i j : ℕ} : IsMarkerAt (b.drop i) j ↔ IsMarkerAt b (i + j) := by
  unfold IsMarkerAt
  simp only [List.length_drop, List.getD_eq_getElem?_getD, List.getElem?_drop, Nat.add_assoc]
  exact and_congr_left fun _ => by omega

theorem not_isMarkerAt_succ {b : Bytes} {i : ℕ} (h : IsMarkerAt b i) : ¬IsMarkerAt b (i + 1) := by
  rintro ⟨-, hbyte, -⟩
  have hhigh := h.2.2.2
  rw [hbyte] at hhigh
  exact absurd hhigh (by decide)

/-- Cut in front of its last marker, what starts with a marker still does, or there is nothing left. -/
theorem isMarkerAt_take {b : Bytes} {i : ℕ} (hfirst : IsMarkerAt b 0) (hlast : IsMarkerAt b i) :
    b.take i = [] ∨ IsMarkerAt (b.take i) 0 := by
  rcases Nat.eq_zero_or_pos i with rfl | hpos
  · exact .inl List.take_zero
  · have hone : i ≠ 1 := by
      rintro rfl
      exact not_isMarkerAt_succ hfirst hlast
    have hlen := hlast.1
    obtain ⟨-, hbytes⟩ := hfirst
    refine .inr ⟨by rw [List.length_take]; omega, ?_⟩
    simpa only [List.getD_eq_getElem?_getD, List.getElem?_take_of_lt hpos,
      List.getElem?_take_of_lt (show 0 + 1 < i by omega)] using hbytes

/-! ### A run in pieces -/

/-- The two sides of a gap, before and after it is closed. -/
def CutAtMarkers (l b : Bytes) (r : Bytes × Bytes) : Prop := spliceAtMarkers l b = some r

theorem cutAtMarkers_of_mendOf {config : Config} {devName : String} {l b : Bytes} {r : Bytes × Bytes}
    (h : mendOf config devName l b = some r) : CutAtMarkers l b r := by
  by_cases hfix : fixPacketLoss config devName = .ok true
  · rw [mendOf, hfix] at h
    exact h
  · rw [mendOf_off hfix] at h
    cases h

/-- What a datagram puts into `cur_image`, before it is cut. -/
def chunkPut (L : Listeners ε) (w : World ε) (d : Delivery) : Option (ℕ × Bytes) :=
  placed (collector w.session) (arrivalOf d.config L w (dataPktOf d.msg))

/-- A chunk that is put into `cur_image` is all of it then, or its last one, or it is cut to fit the one before it. -/
theorem curImage_receive {d : Delivery} (hd : IsDrwData d.msg) (L : Listeners ε) (w : World ε) {id : ℕ}
    {b : Bytes} (h : chunkPut L w d = some (id, b)) :
    (receive L w d).session.curImage = [b] ∨
      (receive L w d).session.curImage = w.session.curImage ++ [b] ∨
      ∃ l r, w.session.curImage.getLast? = some l ∧ CutAtMarkers l b r ∧
        (receive L w d).session.curImage = w.session.curImage.dropLast ++ [r.1, r.2] := by
  have hstep : (receive L w d).session.curImage = _ := congrArg State.items (collector_receive hd L w)
  rw [hstep]
  refine (step_of_placed h).imp_right fun h => h.imp_right ?_
  rintro ⟨l, r, hl, hmend, hitems⟩
  exact ⟨l, r, hl, cutAtMarkers_of_mendOf hmend, hitems⟩

theorem curImage_receive_none {d : Delivery} (hd : IsDrwData d.msg) (L : Listeners ε) (w : World ε)
    (h : chunkPut L w d = none) : (receive L w d).session.curImage = w.session.curImage :=
  (congrArg State.items (collector_receive hd L w)).trans (step_of_not_placed h).1

/-- **A run of data packets**: what is collected and every emitted image is spliced from what the packets put
into `cur_image`, as far as `keep` lists it. -/
theorem spliced_receiveAll (L : Listeners ε) {w : World ε} (hw : Fresh w) (keep : Delivery → Option (ℕ × Bytes))
    (ds : List Delivery) (hds : ∀ d ∈ ds, IsDrwData d.msg)
    (hkeep : ∀ seen d rest, ds = seen ++ d :: rest →
      ∀ e, chunkPut L (receiveAll L w seen) d = some e → keep d = some e) :
    Spliced CutAtMarkers (ds.filterMap keep) (receiveAll L w ds).session.curImage
        (receiveAll L w ds).session.rcvSeqId ∧
      ∀ image ∈ frames (receiveAll L w ds).events,
        ∃ last, Spliced CutAtMarkers (ds.filterMap keep) image last := by
  refine Runs.history_of
    (P := fun seen (w' : World ε) =>
      Spliced CutAtMarkers (seen.filterMap keep) w'.session.curImage w'.session.rcvSeqId ∧
      ∀ image ∈ frames w'.events, ∃ last, Spliced CutAtMarkers (seen.filterMap keep) image last)
    (C := fun _ w' d => IsDrwData d.msg ∧ ∀ e, chunkPut L w' d = some e → keep d = some e) ?_ ?_ ds ?_
  · have hnone : w.session.curImage = [] := congrArg State.items hw.1
    rw [hnone, hw.2]
    exact ⟨spliced_nil _ _ _, by simp⟩
  · rintro seen w' d ⟨hcur, hemitted⟩ ⟨hd, hput⟩
    have hone : [d].filterMap keep = (keep d).toList := by
      cases hentry : keep d <;> simp [hentry]
    rw [List.filterMap_append, hone]
    have hlater : (seen.filterMap keep).Sublist (seen.filterMap keep ++ (keep d).toList) :=
      List.sublist_append_left _ _
    refine ⟨?_, fun image himage => ?_⟩
    · have hstep := step_spliced (s := collector w'.session)
        (i := arrivalOf d.config L w' (dataPktOf d.msg))
        (fun l a r => cutAtMarkers_of_mendOf) hcur
      rw [← collector_receive hd] at hstep
      refine hstep.mono ((List.append_sublist_append_left _).2 ?_)
      cases hentry : chunkPut L w' d with
      | none =>
        rw [show placed _ _ = none from hentry]
        exact List.nil_sublist _
      | some e => rw [show placed _ _ = some e from hentry, hput e hentry]
    · rw [frames_receive hd] at himage
      rcases List.mem_append.1 himage with himage | himage
      · obtain ⟨last, hlast⟩ := hemitted image himage
        exact ⟨last, hlast.mono hlater⟩
      · obtain ⟨-, -, rfl⟩ := handedOver_eq_some.1 (Option.mem_toList.1 himage)
        exact ⟨_, hcur.mono hlater⟩
  · rintro seen d rest rfl
    exact ⟨hds d (by simp), hkeep seen d rest rfl⟩

/-! ### What an image is made of -/

/-- Part of the payload of a received packet: from `start` on up to `stop`. -/
structure ImagePiece where
  id : ℕ
  payload : Bytes
  start : ℕ
  stop : ℕ

namespace ImagePiece

def entry (p : ImagePiece) : ℕ × Bytes := (p.id, p.payload)

def slice (p : ImagePiece) : Bytes := p.payload.drop p.start

def bytes (p : ImagePiece) : Bytes := p.slice.take (p.stop - p.start)

end ImagePiece

/-- `image` is put together from the pieces `ps`, which are cut at restart markers only. `Begins` is how a piece
begins that comes after a gap. -/
structure Repaired (Begins : ImagePiece → Prop) (msgs image : List Bytes) (ps : List ImagePiece) : Prop where
  received : (ps.map ImagePiece.entry).Sublist (msgs.filterMap fun msg => (dataPktOf msg).video)
  image : image = ps.map ImagePiece.bytes
  inside : ∀ p ∈ ps, p.start ≤ p.stop ∧ p.stop ≤ p.payload.length
  increasing : ps.IsChain fun p q => p.id < q.id
  first : ∀ p ∈ ps.head?, p.start = 0 ∧ p.stop = p.payload.length
  last : ∀ p ∈ ps.getLast?, p.stop = p.payload.length
  next : ps.IsChain fun p q => q.id = p.id + 1 → p.stop = p.payload.length ∧ q.start = 0
  gap : ps.IsChain fun p q => q.id ≠ p.id + 1 → Begins q ∧ IsLastMarker p.slice (p.stop - p.start)

/-- The piece begins with a restart marker. -/
def BeginsAtMarker (q : ImagePiece) : Prop := IsMarkerAt q.bytes 0

/-- The piece begins with a restart marker, or it was cut off in front of that marker and is empty. -/
def BeginsAtMarkerOrEmpty (q : ImagePiece) : Prop :=
  IsMarkerAt q.slice 0 ∧ (q.bytes = [] ∨ IsMarkerAt q.bytes 0)

/-- The part of its payload a piece of the collector is. -/
def imagePiece (p : Piece Bytes) : ImagePiece where
  id := p.id
  payload := p.whole
  start := p.whole.length - p.taken.length
  stop := p.whole.length - p.taken.length + p.kept.length

section Pieces

variable {log : List (ℕ × Bytes)} {image : List Bytes} {last : ℕ} {ps : List (Piece Bytes)}

theorem taken_from (h : Pieces CutAtMarkers log image last ps) {p : Piece Bytes} (hp : p ∈ ps) :
    p.taken <:+ p.whole := by
  rcases h.taken_cases hp with hwhole | ⟨q, hcut⟩
  · exact hwhole ▸ List.suffix_refl _
  · obtain ⟨i, j, -, -, hr⟩ := spliceAtMarkers_some hcut
    rw [(Prod.mk.inj hr).2]
    exact List.drop_suffix j _

theorem kept_upTo (h : Pieces CutAtMarkers log image last ps) {p : Piece Bytes} (hp : p ∈ ps) :
    p.kept <+: p.taken := by
  rcases h.kept_cases hp with hwhole | ⟨q, hcut⟩
  · exact hwhole ▸ List.prefix_refl _
  · obtain ⟨i, j, -, -, hr⟩ := spliceAtMarkers_some hcut
    rw [(Prod.mk.inj hr).1]
    exact List.take_prefix i _

theorem slice_imagePiece (h : Pieces CutAtMarkers log image last ps) {p : Piece Bytes} (hp : p ∈ ps) :
    (imagePiece p).slice = p.taken :=
  (List.suffix_iff_eq_drop.1 (taken_from h hp)).symm

theorem bytes_imagePiece (h : Pieces CutAtMarkers log image last ps) {p : Piece Bytes} (hp : p ∈ ps) :
    (imagePiece p).bytes = p.kept := by
  rw [ImagePiece.bytes, slice_imagePiece h hp]
  show p.taken.take (p.whole.length - p.taken.length + p.kept.length - (p.whole.length - p.taken.length)) = _
  rw [Nat.add_sub_cancel_left]
  exact (List.prefix_iff_eq_take.1 (kept_upTo h hp)).symm

theorem gap_imagePiece (h : Pieces CutAtMarkers log image last ps) {p q : Piece Bytes} (hp : p ∈ ps)
    (hq : q ∈ ps) (hcut : CutAtMarkers p.taken q.whole (p.kept, q.taken)) :
    BeginsAtMarkerOrEmpty (imagePiece q) ∧
      IsLastMarker (imagePiece p).slice ((imagePiece p).stop - (imagePiece p).start) := by
  obtain ⟨i, j, hlast, hmarker, hr⟩ := spliceAtMarkers_some hcut
  obtain ⟨hkept, htaken⟩ := Prod.mk.inj hr
  have hstart : IsMarkerAt q.taken 0 := by
    rw [htaken, isMarkerAt_drop]
    exact hmarker
  refine ⟨⟨?_, ?_⟩, ?_⟩
  · rwa [slice_imagePiece h hq]
  · rw [bytes_imagePiece h hq]
    rcases h.kept_cases hq with hwhole | ⟨q', hcut'⟩
    · rw [hwhole]
      exact .inr hstart
    · obtain ⟨i', j', hlast', -, hr'⟩ := spliceAtMarkers_some hcut'
      rw [(Prod.mk.inj hr').1]
      exact isMarkerAt_take hstart hlast'.1
  · have hlen : (imagePiece p).stop - (imagePiece p).start = i := by
      have hinside := hlast.1.1
      show p.whole.length - p.taken.length + p.kept.length - (p.whole.length - p.taken.length) = i
      rw [Nat.add_sub_cancel_left, hkept, List.length_take]
      omega
    rw [slice_imagePiece h hp, hlen]
    exact hlast

theorem start_imagePiece {p : Piece Bytes} (htaken : p.taken = p.whole) : (imagePiece p).start = 0 := by
  show p.whole.length - p.taken.length = 0
  rw [htaken, Nat.sub_self]

theorem stop_imagePiece (h : Pieces CutAtMarkers log image last ps) {p : Piece Bytes} (hp : p ∈ ps)
    (hkept : p.kept = p.taken) : (imagePiece p).stop = p.whole.length := by
  have hlen := (taken_from h hp).length_le
  show p.whole.length - p.taken.length + p.kept.length = p.whole.length
  rw [hkept]
  omega

theorem isChain_imagePiece (h : Pieces CutAtMarkers log image last ps) {R : ImagePiece → ImagePiece → Prop}
    (hR : ∀ p ∈ ps, ∀ q ∈ ps, Piece.Follows CutAtMarkers p q → R (imagePiece p) (imagePiece q)) :
    (ps.map imagePiece).IsChain R :=
  (List.isChain_map _).2 (h.chain.imp_of_mem_imp fun p q hp hq hpq => hR p hp q hq hpq)

theorem repaired_of_pieces {msgs : List Bytes}
    (h : Pieces CutAtMarkers (msgs.filterMap fun msg => (dataPktOf msg).video) image last ps) :
    Repaired BeginsAtMarkerOrEmpty msgs image (ps.map imagePiece) where
  received := by
    rw [List.map_map]
    exact h.arrived
  image := by
    rw [List.map_map, ← h.items]
    exact List.map_congr_left fun p hp => (bytes_imagePiece h hp).symm
  inside := by
    intro p' hp'
    obtain ⟨p, hp, rfl⟩ := List.mem_map.1 hp'
    have htaken := (taken_from h hp).length_le
    have hkept := (kept_upTo h hp).length_le
    refine ⟨Nat.le_add_right _ _, ?_⟩
    show p.whole.length - p.taken.length + p.kept.length ≤ p.whole.length
    omega
  increasing := isChain_imagePiece h fun p _ q _ hpq => by
    show p.id < q.id
    rcases hpq with ⟨hid, -⟩ | ⟨hid, -⟩ <;> omega
  first := by
    intro p' hp'
    rw [List.head?_map] at hp'
    obtain ⟨p, hp, rfl⟩ := Option.map_eq_some_iff.1 hp'
    obtain ⟨htaken, hkept⟩ := h.head p hp
    exact ⟨start_imagePiece htaken, stop_imagePiece h (List.mem_of_head? hp) (hkept.trans htaken.symm)⟩
  last := by
    intro p' hp'
    rw [List.getLast?_map] at hp'
    obtain ⟨p, hp, rfl⟩ := Option.map_eq_some_iff.1 hp'
    exact stop_imagePiece h (List.mem_of_getLast? hp) (h.last p hp).2
  next := isChain_imagePiece h fun p hp q _ hpq hid => by
    rcases hpq with ⟨-, hkept, htaken⟩ | ⟨hgap, -⟩
    · exact ⟨stop_imagePiece h hp hkept, start_imagePiece htaken⟩
    · exact absurd hid (show q.id ≠ p.id + 1 by omega)
  gap := isChain_imagePiece h fun p hp q hq hpq hid => by
    rcases hpq with ⟨hnext, -⟩ | ⟨-, hcut⟩
    · exact absurd hnext hid
    · exact gap_imagePiece h hp hq hcut

end Pieces

/-- **Loss repair splices at restart markers only**: whatever data packets arrive, in whatever order, and
whenever `fix_packet_loss` is on. -/
theorem repaired_frames (L : Listeners ε) (w : World ε) (hw : Fresh w) (ds : List Delivery)
    (hds : ∀ d ∈ ds, IsDrwData d.msg) :
    ∀ image ∈ frames (receiveAll L w ds).events,
      ∃ ps, Repaired BeginsAtMarkerOrEmpty (ds.map Delivery.msg) image ps := by
  have hrun := spliced_receiveAll L hw (fun d => (dataPktOf d.msg).video) ds hds fun seen d rest _ e he => by
    rw [← entry_item]
    exact placed_entry he
  have hmsgs : ds.filterMap (fun d => (dataPktOf d.msg).video) =
      (ds.map Delivery.msg).filterMap fun msg => (dataPktOf msg).video := by
    rw [List.filterMap_map]
    rfl
  intro image himage
  obtain ⟨last, ps, hps⟩ := hrun.2 image himage
  rw [hmsgs] at hps
  exact ⟨_, repaired_of_pieces hps⟩

/-- The camera of `oneCamera`, with loss repair on. -/
def repairConfig : Config :=
  [("cameras", .dict [("FTYC000001ABCDE", .dict [("fix_packet_loss", .bool true)])])]

/-- A frame that lost packets on both sides of its third chunk, and the header after it. -/
def twoGaps : List Delivery :=
  [wholeMsg 1 headerPayload, wholeMsg 2 [1, 2, 0xff, 0xd0, 3, 4, 5, 6],
    wholeMsg 5 [0xff, 0xd1, 7, 7, 7, 7, 7, 7], wholeMsg 8 [0xff, 0xd2, 8, 8, 8, 8, 8, 8],
    wholeMsg 9 headerPayload].map fun msg => ⟨repairConfig, 0, msg⟩

theorem frames_twoGaps : frames (receiveAll .absent oneCamera twoGaps).events =
    [[headerPayload, [1, 2], [], [0xff, 0xd2, 8, 8, 8, 8, 8, 8]]] := by
  decide +kernel

theorem repaired_frames_twoGaps :
    ∃ ps, Repaired BeginsAtMarkerOrEmpty (twoGaps.map Delivery.msg)
      [headerPayload, [1, 2], [], [0xff, 0xd2, 8, 8, 8, 8, 8, 8]] ps :=
  repaired_frames .absent oneCamera (fresh_init _ _ _ _) twoGaps (by decide) _
    (by rw [frames_twoGaps]; exact List.mem_singleton_self _)

/-- The third chunk of that frame begins with the only marker it has, and is cut in front of it for the second gap. -/
theorem emptied_piece :
    ¬∀ image ∈ frames (receiveAll .absent oneCamera twoGaps).events,
      ∃ ps, Repaired BeginsAtMarker (twoGaps.map Delivery.msg) image ps := by
  rw [frames_twoGaps]
  intro h
  obtain ⟨ps, hps⟩ := h _ (List.mem_singleton_self _)
  have himage := hps.image
  match ps with
  | [] | [_] | [_, _] | [_, _, _] | _ :: _ :: _ :: _ :: _ :: _ => simp at himage
  | [a, b, c, d] =>
    have hempty : c.bytes = [] := by
      simp only [List.map_cons, List.cons.injEq] at himage
      exact himage.2.2.1.symm
    have hnext : c.id = b.id + 1 := by
      by_contra hgap
      have hbegins := (hps.gap.tail.rel hgap).1.1
      rw [hempty] at hbegins
      cases hbegins
    have hids : [a.id, b.id, c.id, d.id].Sublist [1, 2, 5, 8, 9] :=
      hps.received.map Prod.fst
    have hnone : ∀ ids ∈ [1, 2, 5, 8, 9].sublists, ids.length = 4 → ids.getD 2 0 ≠ ids.getD 1 0 + 1 := by
      decide
    exact hnone _ (List.mem_sublists.2 hids) rfl hnext

end CamReverse
