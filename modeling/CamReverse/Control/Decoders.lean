import CamReverse.Control.RoundTrip

/-!
# Three decoders of one payload

The Wireshark dissector, `scripts/dec.py` and `xq_bytes_dec` find the parts of an obfuscated payload in different
ways: the dissector takes the last four bytes from where the packet length points and the others from the start of
the payload, `dec` slices the whole rest of the packet, and `xq_bytes_dec` is told the payload length. On a packet
of `make_data_read_write` they agree (`decoders_agree`): its packet length is its payload length and 12 bytes.
-/

namespace CamReverse

open Effect Bytes

/-! ### `dissector.lua` -/

namespace Dissector

/-- `buffer(offset, length)`, which raises outside of the packet. -/
def range (buffer : Bytes) (offset length : ℕ) : Option Bytes :=
  if offset + length ≤ buffer.length then some (field buffer offset length) else none

/-- `dec_payload:set_index(i, v)`. -/
def setIndex (decPayload : Bytes) (i v : ℕ) : Option Bytes :=
  if i < decPayload.length then some (decPayload.set i (UInt8.ofNat v)) else none

def flip (v : ℕ) : ℕ := if v % 2 = 0 then v + 1 else v - 1

/-- The body of both loops: the byte of the buffer at `src` goes to place `i`. -/
def decryptByte (buffer : Bytes) (src i : ℕ) (decPayload : Bytes) : Option Bytes := do
  let v := ofBE (← range buffer src 1)
  setIndex decPayload i (flip v)

/-- `dec_payload` after the two loops. -/
def decryptedPayload (buffer : Bytes) (pktLen payloadLen : ℕ) : Option Bytes := do
  let decPayload := List.replicate (payloadLen - 4) 0
  -- `for i=4,payload_len-5 do`, which runs over nothing below 9
  let decPayload ← (List.range' 4 (payloadLen - 8)).foldlM
    (fun decPayload i => decryptByte buffer (0x14 + i - 4) i decPayload) decPayload
  (List.range 4).foldlM (fun decPayload i => decryptByte buffer (pktLen + i) i decPayload) decPayload

/-- What the dissector puts into the tree for a control packet. -/
structure Control where
  len : ℕ
  mType : ℕ
  streamId : ℕ
  pktSeq : ℕ
  start : ℕ
  cmd : ℕ
  cmdPayloadLen : ℕ
  cmdDest : ℕ
  authToken : Bytes
  isAck : Bool
  encrypted : Bool
  decryptedData : Option Bytes
  cmdPayload : Option Bytes

inductive Tree where
  | unknown
  | shortRead
  | control (c : Control)
  | data

def control (buffer : Bytes) (pktLen mType streamId pktSeq declared payloadLen : ℕ) : Option Control := do
  let start := ofLE (← range buffer 8 2)
  let cmd := ofLE (← range buffer 0xa 2)
  let cmdDest := ofLE (← range buffer 0xe 2)
  let authToken ← range buffer 0x10 4
  let isAck := ofBE (← range buffer 0xb 1) % 2 == 1
  let encrypted := decide (payloadLen ≥ 5)
  if payloadLen ≥ 5 then
    let payload ← range buffer 0x14 (payloadLen - 4)
    let decPayload ← decryptedPayload buffer pktLen payloadLen
    return ⟨pktLen, mType, streamId, pktSeq, start, cmd, declared, cmdDest, authToken, isAck, encrypted,
      some decPayload, some payload⟩
  else
    return ⟨pktLen, mType, streamId, pktSeq, start, cmd, declared, cmdDest, authToken, isAck, encrypted,
      none, none⟩

/-- `ilnk_proto.dissector` on a Drw packet. -/
def dissector (buffer : Bytes) : Option Tree := do
  let packettype := ofBE (← range buffer 0 2)
  if packettype ≠ Command.drw.code then
    return .unknown
  let pktLen := ofBE (← range buffer 2 2)
  let isDataPacket := ofBE (← range buffer 5 1) = 1
  let mType := ofBE (← range buffer 4 1)
  let streamId := ofBE (← range buffer 5 1)
  if pktLen < 12 then
    return .shortRead
  let pktSeq := ofBE (← range buffer 6 2)
  let declared := ofLE (← range buffer 0xc 2)
  let payloadLen := if declared > pktLen then pktLen - 12 else declared
  if isDataPacket then
    return .data
  else
    .control <$> control buffer pktLen mType streamId pktSeq declared payloadLen

end Dissector

/-! ### `scripts/dec.py` -/

def dec (d : Bytes) : Bytes :=
  let ret := (d.drop 0x14).map fun b =>
    if b.toNat % 2 = 1 then UInt8.ofNat (b.toNat - 1) else UInt8.ofNat (b.toNat + 1)
  d.take 0x14 ++ slice ret (-4) ret.length ++ slice ret 0 (-4)

/-! ### The flips -/

theorem flipByte_eq_flip (b : UInt8) : flipByte b = UInt8.ofNat (Dissector.flip b.toNat) := by
  rw [flipByte, flipLowBit, Nat.and_one_is_mod, Dissector.flip]
  split_ifs with hodd heven <;> first | rfl | omega

theorem flipByte_eq_dec (b : UInt8) :
    flipByte b = if b.toNat % 2 = 1 then UInt8.ofNat (b.toNat - 1) else UInt8.ofNat (b.toNat + 1) := by
  rw [flipByte, flipLowBit, Nat.and_one_is_mod]
  split_ifs with hbit hodd <;> first | rfl | omega

/-- An obfuscated payload with its bytes flipped: the first four bytes have come last. -/
theorem map_flipByte_obfuscate {payload : Bytes} (h : 4 ≤ payload.length) :
    (obfuscate 4 payload).map flipByte = field payload 4 (payload.length - 4) ++ field payload 0 4 := by
  have hflip : flipByte ∘ flipByte = id := funext flipByte_flipByte
  rw [obfuscate, List.map_rotate, List.map_map, hflip, List.map_id, rotate_eq_fields rfl h]

/-! ### The dissector -/

namespace Dissector

theorem decryptBytes {buffer decPayload : Bytes} {a b m : ℕ} {src : ℕ → ℕ} (hsrc : ∀ i, src (a + i) = b + i)
    (hread : b + m ≤ buffer.length) (hwrite : a + m ≤ decPayload.length) :
    (List.range' a m).foldlM (fun decPayload i => decryptByte buffer (src i) i decPayload) decPayload =
      some (put decPayload a ((field buffer b m).map flipByte)) := by
  induction m with
  | zero =>
    rw [show field buffer b 0 = [] from List.take_zero, List.map_nil, put_nil]
    rfl
  | succ m ih =>
    have hbyte : buffer[b + m]? = some buffer[b + m] := List.getElem?_eq_getElem _
    have hlen : ((field buffer b m).map flipByte).length = m := by
      rw [List.length_map, length_field (by omega)]
    have hone : range buffer (b + m) 1 = some [buffer[b + m]] := by
      rw [range, if_pos (by omega)]
      exact congrArg some (field_succ (w := 0) hbyte)
    have hput : (put decPayload a ((field buffer b m).map flipByte)).length = decPayload.length :=
      length_put (by omega)
    rw [List.range'_concat, List.foldlM_append, ih (by omega) (by omega), field_succ hbyte, List.map_append,
      ← put_append (by omega), hlen]
    show decryptByte buffer (src (a + 1 * m)) (a + 1 * m) _ >>= pure = _
    rw [Nat.one_mul, hsrc, decryptByte, hone]
    show setIndex _ (a + m) (flip (buffer[b + m].toNat + 256 * 0)) >>= pure = _
    rw [setIndex, if_pos (by omega), set_eq_put (by omega), Nat.mul_zero, Nat.add_zero, ← flipByte_eq_flip]
    rfl

theorem decryptedPayload_eq {front payload : Bytes} (hfront : front.length = 0x14)
    (hlong : 4 < payload.length) :
    decryptedPayload (front ++ obfuscate 4 payload) (payload.length + 16) (payload.length + 4) =
      some payload := by
  have hwhole : (front ++ obfuscate 4 payload).length = 0x14 + payload.length := by
    rw [List.length_append, hfront, length_obfuscate]
  have hback : (field payload 4 (payload.length - 4)).length = payload.length - 4 := length_field (by omega)
  have hhead : (field payload 0 4).length = 4 := length_field (by omega)
  have hparts : field payload 0 4 ++ field payload 4 (payload.length - 4) = payload := field_halves (by omega)
  have hplace : ∀ k w, (field (front ++ obfuscate 4 payload) (0x14 + k) w).map flipByte =
      field (field payload 4 (payload.length - 4) ++ field payload 0 4) k w := by
    intro k w
    rw [field_append_right hfront, map_field, map_flipByte_obfuscate hlong.le]
  -- the first four bytes of the payload come last in the packet
  have hrest : (field (front ++ obfuscate 4 payload) 0x14 (payload.length - 4)).map flipByte =
      field payload 4 (payload.length - 4) := by
    have hfield : field ([] ++ (field payload 4 (payload.length - 4) ++ field payload 0 4)) 0
        (payload.length - 4) = field payload 4 (payload.length - 4) := field_append rfl hback
    exact (hplace 0 _).trans hfield
  have hfirst : (field (front ++ obfuscate 4 payload) (payload.length + 16) 4).map flipByte =
      field payload 0 4 := by
    have hfield : field (field payload 4 (payload.length - 4) ++ (field payload 0 4 ++ []))
        (payload.length - 4) 4 = field payload 0 4 := field_append hback hhead
    rw [List.append_nil] at hfield
    have hstart : payload.length + 16 = 0x14 + (payload.length - 4) := by omega
    rw [hstart, hplace, hfield]
  have hblank : (List.replicate (payload.length + 4 - 4) (0 : UInt8)).length = payload.length := by
    rw [List.length_replicate, Nat.add_sub_cancel]
  have hroom : 4 + (field payload 4 (payload.length - 4)).length ≤
      (List.replicate (payload.length + 4 - 4) (0 : UInt8)).length := by omega
  have hput := length_put hroom
  have hcount : payload.length + 4 - 8 = payload.length - 4 := by omega
  unfold decryptedPayload
  dsimp only
  rw [hcount, decryptBytes (b := 0x14) (fun i => by omega) (by omega) (by omega), hrest, List.range_eq_range',
    Option.bind_eq_bind, Option.bind_some,
    decryptBytes (b := payload.length + 16) (fun i => by omega) (by omega) (by omega), hfirst]
  have hfit : 0 + (field payload 0 4).length + (field payload 4 (payload.length - 4)).length ≤
      (List.replicate (payload.length + 4 - 4) (0 : UInt8)).length := by omega
  have hhalves := put_halves hfit
  rw [hhead, Nat.zero_add, hparts, put_whole hblank.symm] at hhalves
  exact congrArg some hhalves

/-- The tree of a Drw packet whose payload length is 4 to 12 bytes below its packet length. -/
theorem dissector_control {buffer : Bytes} {pktLen payloadLen : ℕ} {decPayload : Bytes}
    (hlen : 20 ≤ buffer.length) (htype : ofBE (field buffer 0 2) = Command.drw.code)
    (hpkt : ofBE (field buffer 2 2) = pktLen) (hstream : ofBE (field buffer 5 1) = 0)
    (hpayload : ofLE (field buffer 0xc 2) = payloadLen) (hlong : 12 ≤ pktLen) (hfits : payloadLen ≤ pktLen)
    (hencrypted : 5 ≤ payloadLen) (hinside : 0x14 + (payloadLen - 4) ≤ buffer.length)
    (hdec : decryptedPayload buffer pktLen payloadLen = some decPayload) :
    ∃ c : Control, dissector buffer = some (.control c) ∧ c.decryptedData = some decPayload := by
  have hrange : ∀ k w, k + w ≤ 20 → range buffer k w = some (field buffer k w) := fun k w h => by
    rw [range, if_pos (by omega)]
  have hdata : range buffer 0x14 (payloadLen - 4) = some (field buffer 0x14 (payloadLen - 4)) := by
    rw [range, if_pos hinside]
  unfold dissector control
  rw [hrange 0 2 (by omega), hrange 2 2 (by omega), hrange 5 1 (by omega), hrange 4 1 (by omega),
    hrange 6 2 (by omega), hrange 0xc 2 (by omega), hrange 8 2 (by omega), hrange 0xa 2 (by omega),
    hrange 0xe 2 (by omega), hrange 0x10 4 (by omega), hrange 0xb 1 (by omega)]
  simp only [Option.bind_eq_bind, Option.bind_some, htype, hpkt, hstream, hpayload]
  rw [if_neg (by simp), if_neg (Nat.not_lt.2 hlong), if_neg (by decide), if_neg (Nat.not_lt.2 hfits),
    if_pos hencrypted, hdata, hdec]
  exact ⟨_, rfl, rfl⟩

end Dissector

/-! ### The three decoders -/

theorem dec_drop {front payload : Bytes} (hfront : front.length = 0x14) (hlong : 4 ≤ payload.length) :
    (dec (front ++ obfuscate 4 payload)).drop 0x14 = payload := by
  have hparts : field payload 0 4 ++ field payload 4 (payload.length - 4) = payload := field_halves (by omega)
  have hhead : (field payload 0 4).length = 4 := length_field (by omega)
  have hret : ((front ++ obfuscate 4 payload).drop 0x14).map (fun b =>
      if b.toNat % 2 = 1 then UInt8.ofNat (b.toNat - 1) else UInt8.ofNat (b.toNat + 1)) =
        field payload 4 (payload.length - 4) ++ field payload 0 4 := by
    rw [List.drop_left' hfront, ← map_flipByte_obfuscate hlong]
    exact List.map_congr_left fun b _ => (flipByte_eq_dec b).symm
  have hslices : slice (field payload 4 (payload.length - 4) ++ field payload 0 4) (-(4 : ℕ))
      (field payload 4 (payload.length - 4) ++ field payload 0 4).length = field payload 0 4 ∧ _ :=
    slice_end hhead (by decide)
  unfold dec
  dsimp only
  rw [hret, List.take_left' hfront, List.append_assoc, List.drop_left' hfront]
  exact (congrArg₂ (· ++ ·) hslices.1 hslices.2).trans hparts

/-- **Three decoders, one cipher**: what the dissector, `dec` and `xq_bytes_dec` make of a packet of
`make_data_read_write` is the data it was built from. -/
theorem decoders_agree {ticket : Bytes} (hticket : ticket.length ≤ 4) (id command : ℕ) (data : DV)
    (hlong : 4 < data.toBytes.length) (hfits : data.toBytes.length + 16 ≤ 65535) :
    ∃ pkt, dataReadWrite id ticket command (some data) = .ok (DV.ofBytes pkt) ∧
      (∃ c, Dissector.dissector pkt = some (.control c) ∧ c.decryptedData = some data.toBytes) ∧
        (dec pkt).drop 0x14 = data.toBytes ∧
          ∃ buf, xqBytesDec ((DV.ofBytes pkt).add 20) (ofLE (field pkt 0xc 2) - 4) 4 = .ok ⟨buf, 20⟩ ∧
            buf.drop 20 = data.toBytes := by
  have hsome : ∀ dv ∈ some data, 4 < dv.toBytes.length := by
    intro dv hdv
    rwa [← Option.some.inj hdv]
  have hfront : (packetHeader id command data.toBytes.length ++ padded 4 ticket).length = 20 := by
    rw [List.length_append, length_packetHeader, length_padded hticket]
  have hlen : (commandPacket id (padded 4 ticket) command data.toBytes).length = data.toBytes.length + 20 :=
    length_commandPacket (length_padded hticket) id command data.toBytes
  have hdeclared : ofLE (field (commandPacket id (padded 4 ticket) command data.toBytes) 0xc 2) =
      data.toBytes.length + 4 := by
    rw [Nat.add_comm]
    exact ofLE_be_u16Swap (by omega)
  have hpktLen : ofBE (field (commandPacket id (padded 4 ticket) command data.toBytes) 2 2) =
      data.toBytes.length + 16 := by
    refine (ofBE_be 2 (0x10 + 0x4 + data.toBytes.length - 4)).trans ?_
    omega
  have htype : ofBE (field (commandPacket id (padded 4 ticket) command data.toBytes) 0 2) =
      Command.drw.code := ofBE_be 2 _
  refine ⟨commandPacket id (padded 4 ticket) command data.toBytes,
    dataReadWrite_padded hticket id command hsome, ?_, dec_drop hfront hlong.le, ?_⟩
  · exact Dissector.dissector_control (by omega) htype hpktLen rfl hdeclared (by omega) (by omega) (by omega)
      (by omega) (Dissector.decryptedPayload_eq hfront hlong)
  · refine ⟨packetHeader id command data.toBytes.length ++ padded 4 ticket ++ data.toBytes, ?_,
      List.drop_left' hfront⟩
    exact (congrArg (fun n => xqBytesDec _ (n - 4) 4) hdeclared).trans (xqBytesDec_payload hfront hlong.le)

/-- Five bytes, the shortest payload that is obfuscated, with a ticket that came short. -/
theorem decoders_agree_five :
    ∃ pkt, dataReadWrite 7 [1, 2, 3] ControlCommand.wifiSettingsSet.code (some (DV.ofBytes [9, 8, 7, 6, 5])) =
        .ok (DV.ofBytes pkt) ∧
      (∃ c, Dissector.dissector pkt = some (.control c) ∧ c.decryptedData = some [9, 8, 7, 6, 5]) ∧
        (dec pkt).drop 0x14 = [9, 8, 7, 6, 5] ∧
          ∃ buf, xqBytesDec ((DV.ofBytes pkt).add 20) (ofLE (field pkt 0xc 2) - 4) 4 = .ok ⟨buf, 20⟩ ∧
            buf.drop 20 = [9, 8, 7, 6, 5] :=
  decoders_agree (by decide) 7 ControlCommand.wifiSettingsSet.code (DV.ofBytes [9, 8, 7, 6, 5]) (by decide)
    (by decide)

end CamReverse
