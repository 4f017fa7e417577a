import CamReverse.Control.Deobfuscation
import CamReverse.Control.Shared

/-!
# Control packets read back

`create_response_for_control_command` reads of a packet what `make_data_read_write` was given: the command, the
packet id, the ticket and, deobfuscated, the payload (`control_round_trip`).
-/

namespace CamReverse

open Effect Bytes

/-! ### Fields of a packet -/

theorem readU16_be {buf : Bytes} {k v : ℕ} (hlen : k + 2 ≤ buf.length) (h : field buf k 2 = be 2 v) :
    ((DV.ofBytes buf).add k).readU16 = .ok (v % 65536) := by
  rw [DV.readU16_ofBytes, if_pos hlen, h, ofBE_be]
  rfl

theorem u16Swap_eq {x : ℕ} (h : x < 65536) : u16Swap x = x % 256 * 256 + x / 256 := by
  have hhigh : (x &&& 0xFF00) >>> 8 = x / 256 := by
    rw [Nat.shiftRight_and_distrib, Nat.shiftRight_eq_div_pow]
    show x / 256 &&& 2 ^ 8 - 1 = _
    rw [Nat.and_two_pow_sub_one_eq_mod]
    omega
  have hlow : x &&& 0x00FF = x % 256 := Nat.and_two_pow_sub_one_eq_mod x 8
  rw [u16Swap, hhigh, hlow, Nat.lor_comm, ← Nat.shiftLeft_add_eq_or_of_lt (by omega), Nat.shiftLeft_eq]

theorem ofLE_be_u16Swap {x : ℕ} (h : x < 65536) : ofLE (be 2 (u16Swap x)) = x := by
  rw [u16Swap_eq h]
  have hbe : be 2 (x % 256 * 256 + x / 256) =
      [UInt8.ofNat ((x % 256 * 256 + x / 256) / 256), UInt8.ofNat (x % 256 * 256 + x / 256)] := rfl
  have hfirst : (x % 256 * 256 + x / 256) / 256 = x % 256 := by omega
  have hsecond : (x % 256 * 256 + x / 256) % 256 = x / 256 := by omega
  rw [hbe, hfirst]
  simp only [ofLE, UInt8.toNat_ofNat', hsecond]
  omega

/-! ### The round trip -/

/-- The packet, read the way `create_response_for_control_command` reads it, is the command with this
payload. -/
structure ReadsBack (s : Session) (command : ℕ) (payload : Bytes) (pkt : DV) : Prop where
  length : (pkt.add 2).readU16 = .ok (pkt.byteLength - 4).toNat
  id : (pkt.add 6).readU16 = .ok (s.outgoingCommandId % 65536)
  startType : (pkt.add 8).readU16 = .ok 0x110A
  command : (pkt.add 10).readU16 = .ok command
  payloadLen : (pkt.add 0xC).readU16le = .ok (payload.length + 4)
  uncropped : ¬(20 < pkt.byteLength ∧ pkt.byteLength < (payload.length + 4 : ℕ))
  ticket : (pkt.add 16).readByteArray 4 = s.ticket
  payload : ∃ dv, deobfuscated pkt (payload.length + 4) = .ok dv ∧
    (dv.add 20).readByteArray payload.length = payload

theorem xqBytesDec_payload {front payload : Bytes} (hfront : front.length = 20) (hlong : 4 ≤ payload.length) :
    xqBytesDec ((DV.ofBytes (front ++ obfuscate 4 payload)).add 20) payload.length 4 =
      .ok ⟨front ++ payload, 20⟩ := by
  have hwhole : (front ++ obfuscate 4 payload).length = 20 + payload.length := by
    rw [List.length_append, hfront, length_obfuscate]
  have hfield : field (front ++ (obfuscate 4 payload ++ [])) 20 payload.length = obfuscate 4 payload :=
    field_append hfront (length_obfuscate 4 payload)
  rw [List.append_nil] at hfield
  rw [DV.ofBytes_add, show (20 : ℤ) = (20 : ℕ) from rfl, xqBytesDec_ok _ 20 hlong (by omega), hfield,
    unobfuscate_obfuscate hlong, put, List.take_left' hfront, List.drop_of_length_le (by omega),
    List.append_nil]

theorem deobfuscated_ok {front payload : Bytes} (hfront : front.length = 20)
    (hlong : payload ≠ [] → 4 ≤ payload.length) :
    deobfuscated (DV.ofBytes (front ++ obfuscate 4 payload)) (payload.length + 4) =
      .ok (DV.ofBytes (front ++ payload)) := by
  by_cases hempty : payload = []
  · subst hempty
    rfl
  · have hlen := hlong hempty
    simp only [deobfuscated, if_pos (show 4 < payload.length + 4 by omega), DV.via, Nat.add_sub_cancel]
    rw [xqBytesDec_payload hfront hlen]
    rfl

theorem readsBack {s : Session} {command : ℕ} {payload : Bytes} (hticket : s.ticket.length = 4)
    (hcommand : command < 65536) (hlong : payload ≠ [] → 4 ≤ payload.length)
    (hfits : payload.length + 16 ≤ 65535) :
    ReadsBack s command payload
      (DV.ofBytes (commandPacket s.outgoingCommandId s.ticket command payload)) := by
  have hlen := length_commandPacket hticket s.outgoingCommandId command payload
  have hbyteLength : (DV.ofBytes (commandPacket s.outgoingCommandId s.ticket command payload)).byteLength =
      (payload.length + 20 : ℕ) := by
    rw [DV.byteLength, DV.ofBytes, hlen]
    simp
  have hfront : (packetHeader s.outgoingCommandId command payload.length ++ s.ticket).length = 20 := by
    simp only [List.length_append, length_packetHeader, hticket]
  have hread : ∀ k v, k + 2 ≤ 20 →
      field (commandPacket s.outgoingCommandId s.ticket command payload) k 2 = be 2 v →
      ((DV.ofBytes (commandPacket s.outgoingCommandId s.ticket command payload)).add k).readU16 =
        .ok (v % 65536) := fun k v hk => readU16_be (by omega)
  exact {
    length := by
      rw [hbyteLength]
      refine (hread 2 (0x10 + 0x4 + payload.length - 4) (by omega) rfl).trans (congrArg Except.ok ?_)
      omega
    id := hread 6 s.outgoingCommandId (by omega) rfl
    startType := hread 8 0x110A (by omega) rfl
    command := by
      have hcmd := hread 10 command (by omega) rfl
      rwa [Nat.mod_eq_of_lt hcommand] at hcmd
    payloadLen := by
      have hlow : field (commandPacket s.outgoingCommandId s.ticket command payload) 0xC 2 =
        be 2 (u16Swap (0x4 + payload.length)) := rfl
      refine (DV.readU16le_ofBytes _ 0xC).trans ?_
      rw [if_pos (by omega), hlow, ofLE_be_u16Swap (by omega), Nat.add_comm]
    uncropped := by
      rw [hbyteLength]
      omega
    ticket := by
      refine (DV.readByteArray_ofBytes _ 16 4).trans ?_
      rw [commandPacket, List.append_assoc]
      exact field_append (length_packetHeader _ _ _) hticket
    payload := by
      refine ⟨_, deobfuscated_ok hfront hlong, (DV.readByteArray_ofBytes _ 20 payload.length).trans ?_⟩
      have hfield : field (_ ++ (payload ++ [])) 20 payload.length = payload := field_append hfront rfl
      rwa [List.append_nil] at hfield }

/-- **Control packet round trip**: what `make_data_read_write` is given is read back, the buffers that were
there are unchanged, and the counter is the only field of the session that changes. -/
theorem control_round_trip (s : Session) (h : Heap) (command : ℕ) (data : Option Ref)
    (hticket : s.ticket.length = 4) (hcommand : command < 65536)
    (hdata : ∀ r ∈ data, 4 < (h.deref r).toBytes.length ∧ (h.deref r).toBytes.length + 16 ≤ 65535) :
    ∃ ret h', Shared.makeDataReadWrite command data (s, h) =
        .ok ret ({ s with outgoingCommandId := s.outgoingCommandId + 1 }, h') ∧
      (∀ r : Ref, r.cell < h.length → h'.deref r = h.deref r) ∧
      ReadsBack s command ((data.map fun r => (h.deref r).toBytes).getD []) (h'.deref ret) := by
  have hlong : ∀ dv ∈ data.map h.deref, 4 < dv.toBytes.length := by
    intro dv hdv
    obtain ⟨r, hr, rfl⟩ := Option.mem_map.1 hdv
    exact (hdata r hr).1
  obtain ⟨ret, h', hrun, hret, more, rfl⟩ :=
    Shared.shared_makeDataReadWrite (dataReadWrite_ok hticket s.outgoingCommandId command hlong)
  refine ⟨ret, h ++ more, hrun, fun r hr => Shared.deref_append hr more, ?_⟩
  rw [hret, Option.map_map]
  show ReadsBack s command ((data.map fun r => (h.deref r).toBytes).getD []) (DV.ofBytes _)
  cases data with
  | none =>
    have hempty : ([] : Bytes).length + 16 ≤ 65535 := by decide
    exact readsBack hticket hcommand (fun hne => absurd rfl hne) hempty
  | some r =>
    obtain ⟨hlower, hupper⟩ := hdata r rfl
    exact readsBack hticket hcommand (fun _ => by simpa using hlower.le) hupper

/-- A payload in the middle of a buffer that another view shares. -/
theorem control_round_trip_shared :
    ∃ ret h', Shared.makeDataReadWrite ControlCommand.videoParamSet.code (some ⟨0, 2⟩)
        (oneCamera.session, [[0xaa, 0xbb, 1, 0, 0, 0, 2, 0, 0, 0], [7]]) =
        .ok ret ({ oneCamera.session with outgoingCommandId := 1 }, h') ∧
      (∀ r : Ref, r.cell < 2 →
        h'.deref r = Heap.deref [[0xaa, 0xbb, 1, 0, 0, 0, 2, 0, 0, 0], [7]] r) ∧
      ReadsBack oneCamera.session ControlCommand.videoParamSet.code [1, 0, 0, 0, 2, 0, 0, 0] (h'.deref ret) :=
  control_round_trip oneCamera.session [[0xaa, 0xbb, 1, 0, 0, 0, 2, 0, 0, 0], [7]]
    ControlCommand.videoParamSet.code (some ⟨0, 2⟩) rfl (by decide) (by decide)

end CamReverse
