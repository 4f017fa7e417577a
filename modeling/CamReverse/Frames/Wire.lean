import CamReverse.Frames.Receive

/-!
# Data packets on the wire

A `DataPacket` is a datagram of the data stream by its fields; every datagram of the stream that is long
enough for a packet id is one (`exists_dataPacket`). `payloadPkt` classifies it by its payload, and
`dataPktOf_bytes` says that this is what `_deal_with_data` finds.
-/

namespace CamReverse

open Effect Bytes Collector

/-- What a packet with this declared length, id and payload brings. -/
def payloadPkt (pktLen id : ℕ) (payload : Bytes) : DataPkt :=
  if pktLen < 12 then .ignored
  else if FRAME_HEADER.isPrefixOf (payload.take 4) then
    match payload[4]? with
    | none => .ignored
    | some streamType =>
      if streamType.toNat = STREAM_TYPE_AUDIO then
        if 18 ≤ payload.length then
          .audio ((payload.drop 32).take (ofLE ((payload.drop 16).take 2)))
        else .ignored
      else if streamType.toNat = STREAM_TYPE_JPEG ∧ 36 < pktLen then
        .newFrame id ((payload.drop 32).take (pktLen - 36))
      else .ignored
  else if JPEG_HEADER.isPrefixOf (payload.take 4) then .newFrame id (payload.take (pktLen - 4))
  else .chunk id (payload.take (pktLen - 4))

/-- A datagram of the data stream: the declared length, the byte before the stream tag, the packet id and
the payload. -/
structure DataPacket where
  pktLen : ℕ
  mark : UInt8
  id : ℕ
  payload : Bytes
  pktLen_lt : pktLen < 65536
  id_lt : id < 65536

namespace DataPacket

def bytes (p : DataPacket) : Bytes :=
  [0xf1, 0xd0] ++ be 2 p.pktLen ++ [p.mark, 1] ++ be 2 p.id ++ p.payload

/-! ### The fields of the bytes -/

theorem bytes_eq (p : DataPacket) : ∃ l₀ l₁ i₀ i₁ : UInt8, p.bytes =
    0xf1 :: 0xd0 :: l₀ :: l₁ :: p.mark :: 1 :: i₀ :: i₁ :: p.payload ∧
      ofBE [l₀, l₁] = p.pktLen ∧ ofBE [i₀, i₁] = p.id := by
  have hpair : ∀ v, v < 65536 → ∃ a b : UInt8, be 2 v = [a, b] ∧ ofBE [a, b] = v := by
    intro v hv
    refine ⟨UInt8.ofNat (v / 256), UInt8.ofNat v, rfl, ?_⟩
    rw [show [UInt8.ofNat (v / 256), UInt8.ofNat v] = be 2 v from rfl, ofBE_be]
    omega
  obtain ⟨l₀, l₁, hl, hlen⟩ := hpair _ p.pktLen_lt
  obtain ⟨i₀, i₁, hi, hid⟩ := hpair _ p.id_lt
  refine ⟨l₀, l₁, i₀, i₁, ?_, hlen, hid⟩
  rw [bytes, hl, hi]
  rfl

theorem length_bytes (p : DataPacket) : p.bytes.length = 8 + p.payload.length := by
  obtain ⟨l₀, l₁, i₀, i₁, h, -, -⟩ := p.bytes_eq
  rw [h]
  simp only [List.length_cons]
  omega

theorem isDrwData_bytes (p : DataPacket) : IsDrwData p.bytes := by
  obtain ⟨l₀, l₁, i₀, i₁, h, -, -⟩ := p.bytes_eq
  rw [h]
  exact ⟨rfl, rfl⟩

theorem drop_bytes (p : DataPacket) (k : ℕ) : p.bytes.drop (8 + k) = p.payload.drop k := by
  obtain ⟨l₀, l₁, i₀, i₁, h, -, -⟩ := p.bytes_eq
  rw [h, ← List.drop_drop]
  rfl

theorem field_bytes (p : DataPacket) (k w : ℕ) : field p.bytes (8 + k) w = field p.payload k w :=
  congrArg (List.take w) (p.drop_bytes k)

theorem readU16_pktLen (p : DataPacket) : ((DV.ofBytes p.bytes).add 2).readU16 = .ok p.pktLen := by
  obtain ⟨l₀, l₁, i₀, i₁, h, hlen, -⟩ := p.bytes_eq
  have hread := DV.readU16_ofBytes p.bytes 2
  rw [if_pos (by rw [p.length_bytes]; omega)] at hread
  rw [← hlen]
  refine hread.trans ?_
  rw [h]
  rfl

theorem readU16_id (p : DataPacket) : ((DV.ofBytes p.bytes).add 6).readU16 = .ok p.id := by
  obtain ⟨l₀, l₁, i₀, i₁, h, -, hid⟩ := p.bytes_eq
  have hread := DV.readU16_ofBytes p.bytes 6
  rw [if_pos (by rw [p.length_bytes]; omega)] at hread
  rw [← hid]
  refine hread.trans ?_
  rw [h]
  rfl

theorem readByteArray_bytes (p : DataPacket) (k m : ℕ) :
    ((DV.ofBytes p.bytes).add (8 + k : ℕ)).readByteArray m = (p.payload.drop k).take m := by
  rw [DV.ofBytes_add, DV.readByteArray_nat, p.drop_bytes]

theorem readU8_bytes (p : DataPacket) (k : ℕ) :
    ((DV.ofBytes p.bytes).add (8 + k : ℕ)).readU8 =
      match p.payload[k]? with
      | some b => .ok b.toNat
      | none => .error .indexError := by
  rw [DV.readU8_ofBytes, p.length_bytes, List.getD_eq_getElem?_getD]
  have hget : p.bytes[8 + k]? = p.payload[k]? := by
    rw [← List.getElem?_drop, show p.bytes.drop 8 = p.payload from p.drop_bytes 0]
  rw [hget]
  by_cases h : k < p.payload.length
  · rw [if_pos (by omega), List.getElem?_eq_getElem h]
    rfl
  · rw [if_neg (by omega), List.getElem?_eq_none (by omega)]

theorem readU16le_bytes (p : DataPacket) (k : ℕ) :
    ((DV.ofBytes p.bytes).add (8 + k : ℕ)).readU16le =
      if k + 2 ≤ p.payload.length then .ok (ofLE ((p.payload.drop k).take 2)) else .error .structError := by
  rw [DV.readU16le, DV.ofBytes_add, DV.unpackFrom_nat, p.length_bytes, p.drop_bytes]
  by_cases h : k + 2 ≤ p.payload.length
  · rw [if_pos (by omega), if_pos h]
    rfl
  · rw [if_neg (by omega), if_neg h]
    rfl

/-! ### Classification -/

/-- **What `_deal_with_data` finds in a data packet** is what its payload says. -/
theorem dataPktOf_bytes (p : DataPacket) : dataPktOf p.bytes = payloadPkt p.pktLen p.id p.payload := by
  have hhdr : ((DV.ofBytes p.bytes).add 8).readByteArray 4 = p.payload.take 4 := p.readByteArray_bytes 0 4
  have htype : ((DV.ofBytes p.bytes).add 12).readU8 = _ := p.readU8_bytes 4
  have haudioLen : ((DV.ofBytes p.bytes).add (8 + 16)).readU16le = _ := p.readU16le_bytes 16
  have haudio (n : ℕ) : ((DV.ofBytes p.bytes).add (32 + 8)).readByteArray n = (p.payload.drop 32).take n :=
    p.readByteArray_bytes 32 n
  have hdata (n : ℕ) : ((DV.ofBytes p.bytes).add 8).readByteArray n = p.payload.take n :=
    p.readByteArray_bytes 0 n
  unfold dataPktOf readDataPkt payloadPkt
  rw [p.readU16_pktLen, p.readU16_id, hhdr, htype, haudioLen]
  simp only [except_ok_bind]
  by_cases hshort : p.pktLen < 12
  · rw [if_pos hshort, if_pos hshort]
    rfl
  rw [if_neg hshort, if_neg hshort]
  by_cases hframed : FRAME_HEADER.isPrefixOf (p.payload.take 4) = true
  · rw [if_pos hframed, if_pos hframed]
    cases p.payload[4]? with
    | none => rfl
    | some streamType =>
      simp only [except_ok_bind]
      by_cases haud : streamType.toNat = STREAM_TYPE_AUDIO
      · rw [if_pos haud, if_pos haud]
        by_cases hlen : 18 ≤ p.payload.length
        · rw [if_pos hlen, if_pos hlen, except_ok_bind, haudio]
          rfl
        · rw [if_neg hlen, if_neg hlen, except_error_bind]
      · rw [if_neg haud, if_neg haud]
        have htoRead : 0 < (p.pktLen : ℤ) - 4 - 32 ↔ 36 < p.pktLen := by omega
        by_cases hjpeg : streamType.toNat = STREAM_TYPE_JPEG
        · by_cases h36 : 36 < p.pktLen
          · rw [if_pos hjpeg, if_pos (htoRead.2 h36), if_pos ⟨hjpeg, h36⟩,
              show (p.pktLen : ℤ) - 4 - 32 = (p.pktLen - 36 : ℕ) by omega, haudio]
            rfl
          · rw [if_pos hjpeg, if_neg fun h => h36 (htoRead.1 h), if_neg fun h => h36 h.2]
            rfl
        · rw [if_neg hjpeg, if_neg fun h => hjpeg h.1]
          rfl
  · rw [if_neg hframed, if_neg hframed, show (p.pktLen : ℤ) - 4 = (p.pktLen - 4 : ℕ) by omega, hdata]
    split_ifs <;> rfl

end DataPacket

theorem exists_dataPacket {msg : Bytes} (hmsg : IsDrwData msg) (hlen : 8 ≤ msg.length) :
    ∃ p : DataPacket, p.bytes = msg := by
  obtain ⟨htype, hstream⟩ := hmsg
  match msg, hlen with
  | a :: b :: l₀ :: l₁ :: mark :: s :: i₀ :: i₁ :: payload, _ =>
    obtain ⟨rfl, rfl⟩ : a = 0xf1 ∧ b = 0xd0 := by simpa using htype
    obtain rfl : s = 1 := Option.some.inj hstream
    have hlt : ∀ c d : UInt8, ofBE [c, d] < 65536 := fun c d => by
      have hc := c.toNat_lt
      have hd := d.toNat_lt
      show d.toNat + 256 * (c.toNat + 256 * 0) < 65536
      omega
    have hbe : ∀ c d : UInt8, be 2 (ofBE [c, d]) = [c, d] := fun c d => be_ofBE [c, d]
    refine ⟨⟨ofBE [l₀, l₁], mark, ofBE [i₀, i₁], payload, hlt l₀ l₁, hlt i₀ i₁⟩, ?_⟩
    rw [DataPacket.bytes, hbe, hbe]
    rfl

theorem isPrefixOf_take_four {hdr payload : Bytes} (h : hdr.length = 4) :
    hdr.isPrefixOf (payload.take 4) = true ↔ hdr <+: payload := by
  rw [List.isPrefixOf_iff_prefix, List.prefix_take_iff, h]
  simp

theorem payloadPkt_entry (pktLen id : ℕ) (payload : Bytes) :
    ∀ e ∈ (payloadPkt pktLen id payload).item.entry, e.1 = id := by
  unfold payloadPkt
  cases payload[4]? with
  | none => split_ifs <;> simp [DataPkt.item, Item.entry]
  | some t =>
    simp only
    split_ifs <;> simp [DataPkt.item, Item.entry]

theorem payloadPkt_renumber (f : ℕ → ℕ) (pktLen id : ℕ) (payload : Bytes) :
    payloadPkt pktLen (f id) payload = (payloadPkt pktLen id payload).renumber f := by
  unfold payloadPkt
  cases payload[4]? with
  | none => split_ifs <;> rfl
  | some t =>
    simp only
    split_ifs <;> rfl

/-! ### Packets that declare their real length -/

/-- What a payload that is declared in full brings under a packet id. -/
def wholePkt (id : ℕ) (payload : Bytes) : DataPkt := payloadPkt (payload.length + 4) id payload

/-- `msg` is a data packet with this id and payload that declares its real length, less the 4 bytes of
the type and length fields. -/
def IsWhole (msg : Bytes) (id : ℕ) (payload : Bytes) : Prop :=
  ∃ p : DataPacket, p.bytes = msg ∧ p.id = id ∧ p.payload = payload ∧ p.pktLen + 4 = msg.length

theorem IsWhole.isDrwData {msg : Bytes} {id : ℕ} {payload : Bytes} (h : IsWhole msg id payload) :
    IsDrwData msg := by
  obtain ⟨p, rfl, -⟩ := h
  exact p.isDrwData_bytes

theorem IsWhole.read {msg : Bytes} {id : ℕ} {payload : Bytes} (h : IsWhole msg id payload) :
    dataPktOf msg = wholePkt id payload := by
  obtain ⟨p, rfl, rfl, rfl, hlen⟩ := h
  rw [p.length_bytes] at hlen
  rw [p.dataPktOf_bytes, wholePkt, show p.pktLen = p.payload.length + 4 by omega]

def wholeMsg (id : ℕ) (payload : Bytes) : Bytes :=
  [0xf1, 0xd0] ++ be 2 (payload.length + 4) ++ [0xd1, 1] ++ be 2 id ++ payload

theorem isWhole_wholeMsg {id : ℕ} {payload : Bytes} (hid : id < 65536)
    (hlen : payload.length + 4 < 65536) : IsWhole (wholeMsg id payload) id payload := by
  refine ⟨⟨payload.length + 4, 0xd1, id, payload, hlen, hid⟩, rfl, rfl, rfl, ?_⟩
  simp only [wholeMsg, List.length_append, List.length_cons, List.length_nil, length_be]
  omega

def headerPayload : Bytes := JPEG_HEADER ++ [0, 0, 0, 0]

def chunkPayload : Bytes := [1, 2, 3, 4, 5, 6, 7, 8]

theorem headerPayload_lt : headerPayload.length + 4 < 65536 := by decide

theorem chunkPayload_lt : chunkPayload.length + 4 < 65536 := by decide

end CamReverse
