import CamReverse.Callbacks
import CamReverse.Control.Build

/-!
# Outgoing packets

What `makeDataReadWrite` builds is a command packet (`dataReadWrite_returns`). `send` remembers a command
packet under the id in its bytes 6 and 7 (`send_command`) and only puts other packets on the wire
(`send_other`).
-/

namespace CamReverse

open Effect Bytes

variable {ε : Type}

structure IsCommand (buf : Bytes) (id : ℕ) : Prop where
  length : 8 ≤ buf.length
  code : field buf 0 2 = be 2 Command.drw.code
  mark : field buf 4 1 = [0xD1]
  id : field buf 6 2 = be 2 id

def withId (id : ℕ) (buf : Bytes) : Bytes := put buf 6 (be 2 id)

theorem IsCommand.put {buf : Bytes} {id k : ℕ} (h : IsCommand buf id) (hk : 8 ≤ k) (bs : Bytes) :
    IsCommand (Bytes.put buf k bs) id := by
  have hlen := h.length
  exact {
    length := hlen.trans (length_le_length_put buf k bs)
    code := (field_put_before (by omega) (by omega) bs).trans h.code
    mark := (field_put_before (by omega) (by omega) bs).trans h.mark
    id := (field_put_before (by omega) (by omega) bs).trans h.id }

theorem IsCommand.withId {buf : Bytes} {id : ℕ} (h : IsCommand buf id) (id' : ℕ) :
    IsCommand (withId id' buf) id' := by
  have hlen := h.length
  exact {
    length := hlen.trans (length_le_length_put buf 6 _)
    code := (field_put_before (by omega) (by omega) _).trans h.code
    mark := (field_put_before (by omega) (by omega) _).trans h.mark
    id := field_put_self (by omega) (be 2 id') }

/-! ### Building -/

theorem isCommand_header {buf : Bytes} (hlen : 8 ≤ buf.length) (id pktLen channel : ℕ) :
    IsCommand (Bytes.put (Bytes.put (Bytes.put (Bytes.put (Bytes.put buf 0 (be 2 Command.drw.code)) 2
      (be 2 pktLen)) 4 [UInt8.ofNat 0xD1]) 5 [UInt8.ofNat channel]) 6 (be 2 id)) id := by
  have h₁ := hlen.trans (length_le_length_put buf 0 (be 2 Command.drw.code))
  have h₂ := h₁.trans (length_le_length_put _ 2 (be 2 pktLen))
  have h₃ := h₂.trans (length_le_length_put _ 4 [UInt8.ofNat 0xD1])
  have h₄ := h₃.trans (length_le_length_put _ 5 [UInt8.ofNat channel])
  refine ⟨h₄.trans (length_le_length_put _ 6 (be 2 id)), ?_, ?_, ?_⟩
  · rw [field_put_before (by omega) (by omega), field_put_before (by omega) (by omega),
      field_put_before (by omega) (by omega), field_put_before (by omega) (by omega)]
    exact field_put_self (Nat.zero_le _) (be 2 Command.drw.code)
  · rw [field_put_before (by omega) (by omega), field_put_before (by omega) (by omega)]
    exact field_put_self (by omega) [UInt8.ofNat 0xD1]
  · exact field_put_self (by omega) (be 2 id)

/-- A packet with this packet id that carries this command. -/
structure IsCommandOf (command : ℕ) (buf : Bytes) (id : ℕ) : Prop extends IsCommand buf id where
  fits : 20 ≤ buf.length
  command : field buf 10 2 = be 2 command

theorem IsCommandOf.put {command : ℕ} {buf : Bytes} {id k : ℕ} (h : IsCommandOf command buf id) (hk : 12 ≤ k)
    (bs : Bytes) : IsCommandOf command (Bytes.put buf k bs) id := by
  have hfits := h.fits
  exact {
    h.toIsCommand.put (show 8 ≤ k by omega) bs with
    fits := hfits.trans (length_le_length_put buf k bs)
    command := (field_put_before (by omega) (by omega) bs).trans h.command }

theorem IsCommandOf.writeU16 {command : ℕ} {buf : Bytes} {id k : ℕ} (h : IsCommandOf command buf id) (hk : 12 ≤ k)
    (hk' : k + 2 ≤ 20) (val : ℕ) :
    ∃ buf', (DV.ofBytes buf).via k (·.writeU16 val) = .ok (DV.ofBytes buf') ∧ IsCommandOf command buf' id := by
  have hfits := h.fits
  exact ⟨_, (DV.via_writeU16 buf k val).trans (if_pos (by omega)), h.put hk _⟩

theorem IsCommandOf.writeByteArray {command : ℕ} {buf : Bytes} {id k : ℕ} (h : IsCommandOf command buf id)
    (hk : 12 ≤ k) (arr : Bytes) :
    ∃ buf', (DV.ofBytes buf).via k (fun view => .ok (view.writeByteArray arr)) = .ok (DV.ofBytes buf') ∧
      IsCommandOf command buf' id :=
  ⟨_, DV.via_writeByteArray buf arr k, h.put hk arr⟩

theorem writeHeader_isCommand (id : ℕ) (ticket : Bytes) (command dataLen : ℕ) {buf : Bytes}
    (hlen : 20 ≤ buf.length) :
    ∃ buf', writeHeader id ticket command dataLen (DV.ofBytes buf) = .ok (DV.ofBytes buf') ∧
      IsCommandOf command buf' id := by
  have hb₁ := hlen.trans (length_le_length_put buf 0 (be 2 Command.drw.code))
  have hb₂ := hb₁.trans (length_le_length_put _ 2 (be 2 (0x10 + 0x4 + dataLen - 4)))
  have hb₃ := hb₂.trans (length_le_length_put _ 4 [UInt8.ofNat 0xD1])
  have hb₄ := hb₃.trans (length_le_length_put _ 5 [UInt8.ofNat 0])
  have hb₅ := hb₄.trans (length_le_length_put _ 6 (be 2 id))
  have hc₅ := isCommand_header (show 8 ≤ buf.length by omega) id (0x10 + 0x4 + dataLen - 4) 0
  -- behind the packet id there are the start of the command and the command
  have hb₆ := hb₅.trans (length_le_length_put _ 8 (be 2 0x110A))
  have hc₆ := hc₅.put (show 8 ≤ 8 from le_rfl) (be 2 0x110A)
  have hb₇ := hb₆.trans (length_le_length_put _ 10 (be 2 command))
  have hcommand := field_put_self (show 10 ≤ List.length _ from le_trans (by decide) hb₆) (be 2 command)
  have hc₇ : IsCommandOf command _ id := { hc₆.put (show 8 ≤ 10 by decide) (be 2 command) with
    fits := hb₇
    command := hcommand }
  -- the other fields lie behind both
  obtain ⟨buf₈, h₈, hc₈⟩ := hc₇.writeU16 (k := 12) (by decide) (by decide) (u16Swap (0x4 + dataLen))
  obtain ⟨buf₉, h₉, hc₉⟩ := hc₈.writeU16 (k := 14) (by decide) (by decide) (ccDest command)
  obtain ⟨buf₁₀, h₁₀, hc₁₀⟩ := hc₉.writeByteArray (k := 16) (by decide) ticket
  refine ⟨buf₁₀, ?_, hc₁₀⟩
  unfold writeHeader
  refine (bind_of_ok ((DV.via_writeU16 _ 0 _).trans (if_pos (by omega))) _).trans ?_
  refine (bind_of_ok ((DV.via_writeU16 _ 2 _).trans (if_pos (by omega))) _).trans ?_
  refine (bind_of_ok ((DV.via_writeU8 _ 4 _).trans (if_pos (by omega))) _).trans ?_
  refine (bind_of_ok ((DV.via_writeU8 _ 5 _).trans (if_pos (by omega))) _).trans ?_
  refine (bind_of_ok ((DV.via_writeU16 _ 6 _).trans (if_pos (by omega))) _).trans ?_
  refine (bind_of_ok ((DV.via_writeU16 _ 8 _).trans (if_pos (by omega))) _).trans ?_
  refine (bind_of_ok ((DV.via_writeU16 _ 10 _).trans (if_pos (by omega))) _).trans ?_
  refine (bind_of_ok h₈ _).trans ?_
  exact (bind_of_ok h₉ _).trans h₁₀

/-- **`make_data_read_write` builds a command packet** with the session's next command id, whatever the ticket
is. -/
theorem dataReadWrite_returns (id : ℕ) (ticket : Bytes) (command : ℕ) {data : Option DV}
    {bufCopy : Option Bytes} (hdata : obfuscatedCopy data = .ok bufCopy) :
    ∃ buf, dataReadWrite id ticket command data = .ok (DV.ofBytes buf) ∧ IsCommandOf command buf id := by
  have hblank : 20 ≤ (List.replicate (0x10 + 0x4 + (bufCopy.map List.length).getD 0) (0 : UInt8)).length := by
    rw [List.length_replicate]
    omega
  obtain ⟨ret, hret, hcommand⟩ :=
    writeHeader_isCommand id ticket command ((bufCopy.map List.length).getD 0) hblank
  rw [dataReadWrite_eq, hdata, except_ok_bind]
  simp only [bind_of_ok (show writeHeader id ticket command _ (DV.alloc _) = _ from hret)]
  cases bufCopy with
  | none => exact ⟨ret, rfl, hcommand⟩
  | some bufCopy => exact hcommand.writeByteArray (k := 20) (by decide) bufCopy

theorem dataReadWrite_isCommand {id command : ℕ} {ticket : Bytes} {data : Option DV} {dv : DV}
    (h : dataReadWrite id ticket command data = .ok dv) :
    ∃ buf, dv = DV.ofBytes buf ∧ IsCommandOf command buf id := by
  obtain ⟨bufCopy, hdata, -⟩ := except_bind_eq_ok (show obfuscatedCopy data >>= _ = _ from h)
  obtain ⟨buf, hbuilt, hcommand⟩ := dataReadWrite_returns id ticket command hdata
  exact ⟨buf, Except.ok.inj (h.symm.trans hbuilt), hcommand⟩

theorem makeDataReadWrite_apply (command : ℕ) (data : Option DV) (w : World ε) :
    makeDataReadWrite command data w =
      match dataReadWrite w.session.outgoingCommandId w.session.ticket command data with
      | .ok ret => .ok ret { w with
          session := { w.session with outgoingCommandId := w.session.outgoingCommandId + 1 } }
      | .error e => .error e w := by
  unfold makeDataReadWrite
  rw [get_bind_apply]
  cases dataReadWrite w.session.outgoingCommandId w.session.ticket command data <;> rfl

theorem yields_command (command : ℕ) (data : Option DV) :
    Yields (fun msg => ∃ buf id, msg = DV.ofBytes buf ∧ IsCommandOf command buf id)
      (makeDataReadWrite command data : SessionM ε DV) := by
  intro w msg w' hrun
  rw [makeDataReadWrite_apply] at hrun
  cases hret : dataReadWrite w.session.outgoingCommandId w.session.ticket command data with
  | error e =>
    rw [hret] at hrun
    cases hrun
  | ok ret =>
    rw [hret] at hrun
    cases hrun
    obtain ⟨buf, hmsg, hbuf⟩ := dataReadWrite_isCommand hret
    exact ⟨buf, _, hmsg, hbuf⟩

/-! ### Sending -/

/-- What `send` puts on the wire. -/
def wired (w : World ε) (msg : Bytes) : List Event :=
  if w.session.transport = .opened then [.sent msg] else []

theorem mem_wired {w : World ε} {msg : Bytes} {ev : Event} (hev : ev ∈ wired w msg) : ev = .sent msg := by
  unfold wired at hev
  split_ifs at hev
  · exact List.mem_singleton.1 hev
  · cases hev

theorem wired_sent (w : World ε) (msg : Bytes) : ∀ ev ∈ wired w msg, ∃ m, ev = .sent m :=
  fun _ hev => ⟨msg, mem_wired hev⟩

/-- The id `send` remembers a packet under, if it is a command. -/
def commandId (msg : DV) : Except PyErr (Option ℕ) := do
  let raw ← msg.readU16
  if raw = Command.drw.code then
    let kind ← (msg.add 4).readU8
    if kind = 0xD1 then
      let packetId ← (msg.add 6).readU16
      return some packetId
    else
      return none
  else
    return none

/-- The table of pending commands with one more. -/
def remember (now : ℚ) (msg : DV) : Option ℕ → Session → Session
  | some packetId, s => { s with unackedDrw := s.unackedDrw.insert packetId ⟨now, msg⟩ }
  | none, s => s

theorem wire_apply (msg : Bytes) (w : World ε) :
    (do
      let w ← get
      if w.session.transport = .opened then
        record (.sent msg) : SessionM ε Unit) w = .ok () { w with events := w.events ++ wired w msg } := by
  unfold wired
  rw [get_bind_apply]
  split_ifs
  · rfl
  · rw [List.append_nil]
    rfl

theorem send_apply (now : ℚ) (msg : DV) (w : World ε) :
    send now msg w =
      match commandId msg with
      | .ok id => .ok () { w with
          session := remember now msg id w.session, events := w.events ++ wired w msg.toBytes }
      | .error e => .error e w := by
  unfold send commandId
  cases msg.readU16 with
  | error e => rfl
  | ok raw =>
    simp only [liftM_eq_lift, lift_ok_bind, except_ok_bind]
    by_cases hraw : raw = Command.drw.code
    · rw [if_pos hraw, if_pos (show raw = 0xF1D0 from hraw)]
      cases (msg.add 4).readU8 with
      | error e => rfl
      | ok kind =>
        simp only [except_ok_bind]
        by_cases hkind : kind = 0xD1
        · rw [if_pos hkind, hkind]
          cases (msg.add 6).readU16 with
          | error e => rfl
          | ok packetId =>
            exact wire_apply msg.toBytes { w with session := remember now msg (some packetId) w.session }
        · have hisCommand : (kind == 0xD1) = false := beq_eq_false_iff_ne.2 hkind
          rw [if_neg hkind,
            show ((· == 0xD1) <$> Except.ok kind : Except PyErr Bool) = .ok (kind == 0xD1) from rfl,
            hisCommand]
          exact wire_apply msg.toBytes w
    · rw [if_neg hraw, if_neg (show ¬raw = 0xF1D0 from hraw)]
      exact wire_apply msg.toBytes w

theorem send_other {msg : DV} {raw : ℕ} (now : ℚ) (hraw : msg.readU16 = .ok raw)
    (hne : raw ≠ Command.drw.code) (w : World ε) :
    send now msg w = .ok () { w with events := w.events ++ wired w msg.toBytes } := by
  rw [send_apply, commandId, hraw, except_ok_bind, if_neg hne]
  rfl

/-- **A command packet is remembered** under its packet id, and put on the wire. -/
theorem send_command {buf : Bytes} {id : ℕ} (h : IsCommand buf id) (now : ℚ) (w : World ε) :
    send now (DV.ofBytes buf) w =
      .ok () { w with
        session := { w.session with
          unackedDrw := w.session.unackedDrw.insert (id % 65536) ⟨now, DV.ofBytes buf⟩ }
        events := w.events ++ wired w buf } := by
  have hlen := h.length
  have hraw : (DV.ofBytes buf).readU16 = .ok Command.drw.code := by
    have hread := DV.readU16_ofBytes buf 0
    rw [if_pos (by omega), h.code, ofBE_be] at hread
    exact hread
  have hkind : ((DV.ofBytes buf).add 4).readU8 = .ok 0xD1 := by
    have hread := DV.readU8_ofBytes buf 4
    rw [if_pos (by omega), List.getD_eq_getElem?_getD, getElem?_of_field h.mark] at hread
    exact hread
  have hpacketId : ((DV.ofBytes buf).add 6).readU16 = .ok (id % 65536) := by
    have hread := DV.readU16_ofBytes buf 6
    rw [if_pos (by omega), h.id, ofBE_be] at hread
    exact hread
  have hid : commandId (DV.ofBytes buf) = .ok (some (id % 65536)) := by
    rw [commandId, hraw, except_ok_bind, if_pos rfl, hkind, except_ok_bind, if_pos rfl, hpacketId]
    rfl
  rw [send_apply, hid, DV.toBytes_ofBytes]
  rfl

theorem send_final (now : ℚ) (msg : DV) (w : World ε) :
    ∃ t evs, final (send now msg) w =
        { w with session := { w.session with unackedDrw := t }, events := w.events ++ evs } ∧
      ∀ ev ∈ evs, ∃ m, ev = .sent m := by
  rw [final, send_apply]
  cases commandId msg with
  | error e => exact ⟨w.session.unackedDrw, [], by rw [List.append_nil], by simp⟩
  | ok id =>
    cases id with
    | none => exact ⟨w.session.unackedDrw, _, rfl, wired_sent w _⟩
    | some packetId => exact ⟨_, _, rfl, wired_sent w _⟩

end CamReverse
