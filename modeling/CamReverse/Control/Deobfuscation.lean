import CamReverse.Control.Obfuscation
import CamReverse.Handlers

/-!
# The bounds of the deobfuscation

A control packet declares the length of its payload, its 4 bytes of ticket included. The payload starts at
byte 16, so a packet of `L` bytes is truthful up to `L - 16`; `create_response_for_control_command` only crops
declarations above `L`. `deobfuscation_inside_iff` says for which lengths the step stays inside the payload.
-/

namespace CamReverse

open Effect Bytes

theorem deobfuscated_short {payloadLen : ℕ} (h : payloadLen ≤ 4) (dv : DV) :
    deobfuscated dv payloadLen = .ok dv := by
  simp only [deobfuscated]
  rw [if_neg (by omega)]

theorem deobfuscated_inside {buf : Bytes} {payloadLen : ℕ} (hlong : 8 ≤ payloadLen)
    (h : payloadLen + 16 ≤ buf.length) :
    deobfuscated (DV.ofBytes buf) payloadLen =
      .ok (DV.ofBytes (put buf 20 (unobfuscate 4 (field buf 20 (payloadLen - 4))))) := by
  have hrotate : 4 ≤ payloadLen - 4 := by omega
  have hdec := xqBytesDec_ok buf 20 hrotate (by omega)
  simp only [deobfuscated, if_pos (show 4 < payloadLen by omega), DV.via]
  rw [show (DV.ofBytes buf).add 20 = ⟨buf, (20 : ℕ)⟩ from rfl, hdec]
  rfl

/-- The payload length a control packet declares. -/
def declaredLen (buf : Bytes) : ℕ := ofLE (field buf 0xC 2)

/-- The payload length the handler goes on with. -/
def usedLen (buf : Bytes) : ℕ := croppedPayloadLen (DV.ofBytes buf).byteLength (declaredLen buf)

theorem usedLen_eq (buf : Bytes) :
    usedLen buf = if 20 < buf.length ∧ buf.length < declaredLen buf then buf.length - 20
      else declaredLen buf := by
  have hlen : (DV.ofBytes buf).byteLength = buf.length := by simp [DV.byteLength, DV.ofBytes]
  rw [usedLen, croppedPayloadLen, hlen]
  split_ifs <;> omega

/-- The part of `create_response_for_control_command` behind the deobfuscation. -/
def controlAnswer {ε : Type} (L : Listeners ε) (cmdId payloadLen : ℕ) (dv : DV) : SessionM ε (List DV) := do
  if cmdId = ControlCommand.connectUserAck.code then
    let c := (dv.add 0x18).readByteArray 4
    update fun s => { s with ticket := c }
    emitLogin L
    return []
  else if cmdId = ControlCommand.devStatusAck.code then
    let _status ← parseDevStatusAck dv
    return []
  else if cmdId = ControlCommand.wifiSettingsAck.code then
    let _wifiSettings ← parseWifiSettings dv
    let pkt ← sendListWifi
    return [pkt]
  else if cmdId = ControlCommand.listWifiAck.code then
    if payloadLen = 4 then
      return []
    else
      let items ← parseListWifi dv
      emitListWifi L items
      return []
  else
    return []

/-- **The handler of a control packet** reads the start type and these lengths, runs the step and answers. -/
theorem createResponse_eq {ε : Type} (L : Listeners ε) {buf : Bytes} (hlen : 14 ≤ buf.length) :
    createResponseForControlCommand L (DV.ofBytes buf) =
      if ofBE (field buf 8 2) ≠ 0x110A then return []
      else lift (deobfuscated (DV.ofBytes buf) (usedLen buf)) >>=
        controlAnswer L (ofBE (field buf 10 2)) (usedLen buf) := by
  unfold createResponseForControlCommand
  rw [show ((DV.ofBytes buf).add 8).readU16 = _ from DV.readU16_ofBytes buf 8, if_pos (by omega),
    show ((DV.ofBytes buf).add 10).readU16 = _ from DV.readU16_ofBytes buf 10, if_pos (by omega),
    show ((DV.ofBytes buf).add 0xC).readU16le = _ from DV.readU16le_ofBytes buf 12, if_pos hlen]
  rfl

/-- The step does not raise, changes no byte outside the declared payload, and calls `xq_bytes_dec` with
`rotate ≤ buflen ≤` the bytes that are there. -/
structure StaysInside (buf : Bytes) : Prop where
  unchanged : ∃ dv, deobfuscated (DV.ofBytes buf) (usedLen buf) = .ok dv ∧
    ∀ i, i < 20 ∨ min buf.length (16 + declaredLen buf) ≤ i → dv.buf[i]? = buf[i]?
  call : 4 < usedLen buf → 4 ≤ usedLen buf - 4 ∧ usedLen buf - 4 ≤ buf.length - 20

/-- Nothing behind the ticket is declared, or at least 4 bytes that are there, or more than the whole packet
when it does not have 25 to 27 bytes. -/
def LengthsFit (size declared : ℕ) : Prop :=
  declared ≤ 4 ∨ 8 ≤ declared ∧ declared + 16 ≤ size ∨
    20 < size ∧ size < declared ∧ (size ≤ 24 ∨ 28 ≤ size)

/-- **Deobfuscation stays inside the packet** exactly for these lengths. -/
theorem deobfuscation_inside_iff (buf : Bytes) (hlen : 20 ≤ buf.length) :
    StaysInside buf ↔ LengthsFit buf.length (declaredLen buf) := by
  have hused := usedLen_eq buf
  constructor
  · intro h
    have hcall := h.call
    rw [hused] at hcall
    unfold LengthsFit
    split_ifs at hcall with hcrop <;> omega
  · intro h
    have hcases : usedLen buf ≤ 4 ∨
        8 ≤ usedLen buf ∧ usedLen buf + 16 ≤ min buf.length (16 + declaredLen buf) := by
      rw [hused]
      unfold LengthsFit at h
      split_ifs with hcrop <;> omega
    rcases hcases with hshort | ⟨hlong, hfits⟩
    · exact ⟨⟨_, deobfuscated_short hshort _, fun _ _ => rfl⟩, fun hcall => absurd hcall (by omega)⟩
    · refine ⟨⟨_, deobfuscated_inside hlong (by omega), fun i hi => ?_⟩, fun _ => by omega⟩
      have hbytes : (unobfuscate 4 (field buf 20 (usedLen buf - 4))).length = usedLen buf - 4 := by
        rw [length_unobfuscate, length_field (by omega)]
      exact getElem?_put_outside (by omega) (by omega)

def croppedByOne : Bytes :=
  [0xf1, 0xd0, 0, 23, 0xd1, 0, 0, 0, 0x11, 0x0A, 0x20, 0x11, 12, 0, 0, 0, 1, 2, 3, 4, 5, 6, 7, 8, 9, 10, 11]

/-- A packet that declares the 8 bytes behind its ticket. -/
theorem deobfuscation_inside_iff_whole :
    20 ≤ (croppedByOne ++ [12]).length ∧ StaysInside (croppedByOne ++ [12]) := by
  have hlen : 20 ≤ (croppedByOne ++ [12]).length := by decide
  exact ⟨hlen, (deobfuscation_inside_iff _ hlen).2 (.inr (.inl (by decide)))⟩

/-- The step raises on a packet that misses one byte. -/
theorem deobfuscation_cropped : ¬StaysInside croppedByOne := by
  rintro ⟨⟨dv, hdv, -⟩, -⟩
  have hraises : deobfuscated (DV.ofBytes croppedByOne) (usedLen croppedByOne) = .error .indexError := by
    decide +kernel
  rw [hraises] at hdv
  cases hdv

end CamReverse
