import CamReverse.Control.Build
import CamReverse.Handlers

/-!
# The answer to a PunchPkt

A camera introduces itself by a prefix of 4 bytes, a number of 8 and a suffix. The session answers with the same
fields, rebuilt from what `parse_PunchPkt` read of them (`makeP2pRdy_ok`): for a well-formed PunchPkt these are
its own bytes, and whatever the suffix is the answer has 24 bytes (`punch_answered`).
-/

namespace CamReverse

open Effect Bytes

/-- The bytes behind the header that are made of a prefix, a number and a suffix. -/
def serialFields (devPrefix : Bytes) (serialU64 : ℕ) (suffix : Bytes) : Bytes :=
  padded 4 devPrefix ++ be 8 serialU64 ++ padded 8 suffix

theorem le_length_serialFields {devPrefix : Bytes} (h : devPrefix.length ≤ 4) (serialU64 : ℕ) (suffix : Bytes) :
    0x14 ≤ (serialFields devPrefix serialU64 suffix).length := by
  rw [serialFields, List.length_append, List.length_append, length_padded h, length_be, padded, List.length_append,
    List.length_replicate]
  omega

theorem filled_writeU64 {front : Bytes} {k : ℕ} (hk : front.length = k) (blank val : ℕ) :
    (filled front (blank + 8)).via k (·.writeU64 val) = .ok (filled (front ++ be 8 val) blank) := by
  have hput := DV.via_packInto (front ++ List.replicate (blank + 8) 0) (be 8 val) k
  rw [if_pos (by rw [List.length_append, List.length_replicate, length_be]; omega), put_blank hk, length_be,
    Nat.add_sub_cancel] at hput
  exact hput

theorem filled_rest {front bs : Bytes} {k : ℕ} {s : String} (hk : front.length = k) (hs : encodeLatin1 s = .ok bs)
    (blank : ℕ) : (filled front blank).via k (·.writeString s) = .ok (DV.ofBytes (front ++ padded blank bs)) := by
  simp only [DV.writeString_ok hs]
  rw [filled, DV.via_writeByteArray, put_blank hk, List.append_assoc, padded]

theorem createP2pRdy_ok {buf : Bytes} (h : 0x14 ≤ buf.length) :
    createP2pRdy (DV.ofBytes buf) =
      .ok (DV.ofBytes (be 2 Command.p2pRdy.code ++ be 2 0x14 ++ buf.take 0x14)) := by
  have hheader : bareHeader .p2pRdy 0x14 (0x14 + 4) =
      .ok (filled (be 2 Command.p2pRdy.code ++ be 2 0x14) 0x14) := rfl
  have hread : (DV.ofBytes buf).readByteArray (0x14 : ℕ) = buf.take 0x14 := DV.readByteArray_nat buf 0 0x14
  have hlen : (buf.take 0x14).length = 0x14 := List.length_take_of_le h
  have hfill := filled_writeByteArray (buf.take 0x14)
    (show (be 2 Command.p2pRdy.code ++ be 2 0x14).length = 4 from rfl) 0
  rw [hlen, Nat.zero_add, filled, filled, List.replicate_zero, List.append_nil] at hfill
  refine (bind_of_ok hheader _).trans ?_
  show (filled _ 0x14).via 4 (fun view => .ok (view.writeByteArray ((DV.ofBytes buf).readByteArray (0x14 : ℕ)))) = _
  rw [hread]
  exact hfill

/-- **What `make_p2p_rdy` builds**: a suffix of more than 8 bytes is cut off. -/
theorem makeP2pRdy_ok {dev : DevSerial} {pbs sbs : Bytes} (hfront : encodeLatin1 dev.devPrefix = .ok pbs)
    (hfits : pbs.length ≤ 4) (hsuffix : encodeLatin1 dev.suffix = .ok sbs) :
    makeP2pRdy dev = .ok (DV.ofBytes (be 2 Command.p2pRdy.code ++ be 2 0x14 ++
      (serialFields pbs dev.serialU64 sbs).take 0x14)) := by
  obtain ⟨hfirst, hlen⟩ := filled_text (k := 0) (show ([] : Bytes).length = 0 from rfl) hfront hfits (8 + 8)
  have hserial := filled_writeU64 hlen 8 dev.serialU64
  have hlen' : ([] ++ padded 4 pbs ++ be 8 dev.serialU64).length = 12 := by
    rw [List.length_append, hlen, length_be]
  have hlast := filled_rest hlen' hsuffix 8
  unfold makeP2pRdy
  refine (bind_of_ok hfirst _).trans ((bind_of_ok hserial _).trans ((bind_of_ok hlast _).trans ?_))
  exact createP2pRdy_ok (le_length_serialFields hfits dev.serialU64 sbs)

/-! ### Reading a PunchPkt -/

/-- The suffix of a PunchPkt ends where its length field says, or at its first NUL. -/
def suffixBytes (pkt : Bytes) : Bytes :=
  (slice pkt 16 (16 + ((ofBE (field pkt 2 2) : ℤ) - 16 + 4))).takeWhile (· ≠ 0)

/-- What is read of a PunchPkt. -/
def punchSerial (pkt : Bytes) : DevSerial where
  devPrefix := decodeLatin1 ((field pkt 4 4).takeWhile (· ≠ 0))
  serial := toString (ofBE (field pkt 8 8))
  suffix := decodeLatin1 (suffixBytes pkt)
  serialU64 := ofBE (field pkt 8 8)
  devId := decodeLatin1 ((field pkt 4 4).takeWhile (· ≠ 0)) ++ toString (ofBE (field pkt 8 8)) ++
    decodeLatin1 (suffixBytes pkt)

theorem parsePunchPkt_ok {pkt : Bytes} (h : 16 ≤ pkt.length) :
    parsePunchPkt (DV.ofBytes pkt) = .ok (punchSerial pkt) := by
  have hpunch := DV.readU16_ofBytes pkt 0
  have hlength := DV.readU16_ofBytes pkt 2
  have hserial := DV.read_ofBytes ofBE pkt 8 8
  have hfront := DV.readString_ofBytes pkt 4 4
  rw [if_pos (by omega)] at hpunch hlength hserial
  refine (bind_of_ok hpunch _).trans ((bind_of_ok hlength _).trans ((bind_of_ok hserial _).trans ?_))
  unfold punchSerial
  rw [← hfront]
  rfl

/-- The fields of a well-formed PunchPkt. -/
structure PunchPkt where
  devPrefix : Bytes
  serialU64 : ℕ
  suffix : Bytes
  prefix_fits : devPrefix.length ≤ 4
  prefix_ne : ∀ b ∈ devPrefix, b ≠ 0
  serialU64_lt : serialU64 < 2 ^ 64
  suffix_fits : suffix.length ≤ 8
  suffix_ne : ∀ b ∈ suffix, b ≠ 0

namespace PunchPkt

def packet (p : PunchPkt) (code : ℕ) : Bytes :=
  be 2 code ++ be 2 0x14 ++ serialFields p.devPrefix p.serialU64 p.suffix

theorem length_serialFields (p : PunchPkt) : (serialFields p.devPrefix p.serialU64 p.suffix).length = 0x14 := by
  rw [serialFields, List.length_append, List.length_append, length_padded p.prefix_fits, length_be,
    length_padded p.suffix_fits]

theorem length_packet (p : PunchPkt) (code : ℕ) : (p.packet code).length = 24 := by
  rw [packet, List.length_append, List.length_append, length_be, length_be, p.length_serialFields]

theorem punchSerial_packet (p : PunchPkt) (code : ℕ) :
    punchSerial (p.packet code) = {
      devPrefix := decodeLatin1 p.devPrefix
      serial := toString p.serialU64
      suffix := decodeLatin1 p.suffix
      serialU64 := p.serialU64
      devId := decodeLatin1 p.devPrefix ++ toString p.serialU64 ++ decodeLatin1 p.suffix } := by
  have hheader : (be 2 code ++ be 2 0x14).length = 4 := by simp
  have hdevPrefix : field (p.packet code) 4 4 = padded 4 p.devPrefix := by
    rw [packet, serialFields, List.append_assoc (padded 4 p.devPrefix)]
    exact field_append hheader (length_padded p.prefix_fits)
  have hfront : (be 2 code ++ be 2 0x14 ++ padded 4 p.devPrefix).length = 8 := by
    simp [length_padded p.prefix_fits]
  have hserial : field (p.packet code) 8 8 = be 8 p.serialU64 := by
    rw [packet, serialFields, List.append_assoc (padded 4 p.devPrefix), ← List.append_assoc]
    exact field_append hfront (length_be 8 _)
  have hsuffix : field (p.packet code) 16 8 = padded 8 p.suffix := by
    have hall : (be 2 code ++ be 2 0x14 ++ padded 4 p.devPrefix ++ be 8 p.serialU64).length = 16 := by
      rw [List.length_append, hfront, length_be]
    rw [packet, serialFields, ← List.append_assoc, ← List.append_assoc, field, List.drop_left' hall]
    exact List.take_of_length_le (length_padded p.suffix_fits).le
  have hlength : field (p.packet code) 2 2 = be 2 0x14 := by
    rw [packet, List.append_assoc]
    exact field_append (length_be 2 code) (length_be 2 _)
  have hread : ofBE (be 8 p.serialU64) = p.serialU64 := by
    rw [ofBE_be]
    exact Nat.mod_eq_of_lt p.serialU64_lt
  have hrest : suffixBytes (p.packet code) = p.suffix := by
    have hslice : slice (p.packet code) (16 : ℕ) ((16 : ℕ) + (8 : ℕ)) = padded 8 p.suffix :=
      (slice_natCast _ 16 8).trans hsuffix
    rw [suffixBytes, hlength]
    exact (congrArg (List.takeWhile _) hslice).trans (takeWhile_padded p.suffix_ne 8)
  rw [punchSerial, hdevPrefix, hserial, hrest, hread, takeWhile_padded p.prefix_ne]

end PunchPkt

/-- **A PunchPkt is answered faithfully**: with its own fields, which are read back, if it is well-formed; and with
24 bytes in any case. -/
theorem punch_answered :
    (∀ p : PunchPkt, ∃ dev rdy,
      parsePunchPkt (DV.ofBytes (p.packet Command.punchPkt.code)) = .ok dev ∧
        makeP2pRdy dev = .ok (DV.ofBytes rdy) ∧ rdy.length = 24 ∧ field rdy 0 2 = be 2 Command.p2pRdy.code ∧
        rdy.drop 4 = (p.packet Command.punchPkt.code).drop 4 ∧ parsePunchPkt (DV.ofBytes rdy) = .ok dev) ∧
      ∀ pkt : Bytes, 16 ≤ pkt.length → ∃ dev rdy,
        parsePunchPkt (DV.ofBytes pkt) = .ok dev ∧ makeP2pRdy dev = .ok (DV.ofBytes rdy) ∧ rdy.length = 24 := by
  refine ⟨fun p => ?_, fun pkt hpkt => ?_⟩
  · have hlen := p.length_packet
    have hread := p.punchSerial_packet
    have hfront : encodeLatin1 (punchSerial (p.packet Command.punchPkt.code)).devPrefix = .ok p.devPrefix := by
      rw [hread, encodeLatin1_decodeLatin1]
    have hsuffix : encodeLatin1 (punchSerial (p.packet Command.punchPkt.code)).suffix = .ok p.suffix := by
      rw [hread, encodeLatin1_decodeLatin1]
    have hmade := makeP2pRdy_ok hfront p.prefix_fits hsuffix
    rw [hread, List.take_of_length_le p.length_serialFields.le] at hmade
    refine ⟨_, p.packet Command.p2pRdy.code, ?_, hmade, hlen _, rfl, rfl, ?_⟩
    · rw [parsePunchPkt_ok (by rw [hlen]; decide), hread]
    · rw [parsePunchPkt_ok (by rw [hlen]; decide), hread]
  · have hfits : ((field pkt 4 4).takeWhile (· ≠ 0)).length ≤ 4 :=
      (List.takeWhile_prefix _).length_le.trans (List.length_take_le 4 _)
    have hfront : encodeLatin1 (punchSerial pkt).devPrefix = .ok ((field pkt 4 4).takeWhile (· ≠ 0)) :=
      encodeLatin1_decodeLatin1 _
    have hsuffix : encodeLatin1 (punchSerial pkt).suffix = .ok (suffixBytes pkt) := encodeLatin1_decodeLatin1 _
    have hlong := le_length_serialFields hfits (punchSerial pkt).serialU64 (suffixBytes pkt)
    refine ⟨_, _, parsePunchPkt_ok hpkt, makeP2pRdy_ok hfront hfits hsuffix, ?_⟩
    rw [List.length_append, List.length_take_of_le hlong, List.length_append, length_be, length_be]

/-- A camera with a prefix of three letters. -/
def punchXHA : PunchPkt where
  devPrefix := encodeAscii "XHA"
  serialU64 := 994
  suffix := encodeAscii "KMMEB"
  prefix_fits := by decide
  prefix_ne := by decide +kernel
  serialU64_lt := by decide
  suffix_fits := by decide
  suffix_ne := by decide +kernel

/-- Also when the length field and the prefix of a short packet are nonsense. -/
theorem punch_answered_XHA :
    (∃ dev rdy, parsePunchPkt (DV.ofBytes (punchXHA.packet Command.punchPkt.code)) = .ok dev ∧
      makeP2pRdy dev = .ok (DV.ofBytes rdy) ∧ rdy.length = 24 ∧ field rdy 0 2 = be 2 Command.p2pRdy.code ∧
      rdy.drop 4 = (punchXHA.packet Command.punchPkt.code).drop 4 ∧ parsePunchPkt (DV.ofBytes rdy) = .ok dev) ∧
    ∃ dev rdy, parsePunchPkt (DV.ofBytes (List.replicate 16 0xff)) = .ok dev ∧
      makeP2pRdy dev = .ok (DV.ofBytes rdy) ∧ rdy.length = 24 :=
  ⟨punch_answered.1 punchXHA, punch_answered.2 _ (by decide)⟩

end CamReverse
