import CamReverse.Control.Obfuscation
import CamReverse.Impl

/-!
# The bytes of a command packet

`make_data_read_write` fills a blank packet from left to right, so what it builds is the concatenation of its
fields (`dataReadWrite_ok`).
-/

namespace CamReverse

open Effect Bytes

def writeHeader (outgoingCommandId : ℕ) (ticket : Bytes) (command dataLen : ℕ) (ret : DV) :
    Except PyErr DV := do
  let ret ← ret.via 0 (·.writeU16 Command.drw.code)
  let ret ← ret.via 2 (·.writeU16 (0x10 + 0x4 + dataLen - 4))
  let ret ← ret.via 4 (·.writeU8 0xD1)
  let ret ← ret.via 5 (·.writeU8 0)
  let ret ← ret.via 6 (·.writeU16 outgoingCommandId)
  let ret ← ret.via 8 (·.writeU16 0x110A)
  let ret ← ret.via 10 (·.writeU16 command)
  let ret ← ret.via 12 (·.writeU16 (u16Swap (0x4 + dataLen)))
  let ret ← ret.via 14 (·.writeU16 (ccDest command))
  ret.via 16 (fun view => .ok (view.writeByteArray ticket))

def writePayload (bufCopy : Option Bytes) (ret : DV) : Except PyErr DV :=
  match bufCopy with
  | some bufCopy => ret.via 20 (fun view => .ok (view.writeByteArray bufCopy))
  | none => .ok ret

theorem dataReadWrite_eq (outgoingCommandId : ℕ) (ticket : Bytes) (command : ℕ) (data : Option DV) :
    dataReadWrite outgoingCommandId ticket command data =
      (do
        let bufCopy ← obfuscatedCopy data
        let dataLen := (bufCopy.map List.length).getD 0
        let ret ← writeHeader outgoingCommandId ticket command dataLen (DV.alloc (0x10 + 0x4 + dataLen))
        writePayload bufCopy ret) := by
  unfold dataReadWrite writeHeader
  simp only [bind_assoc]
  rfl

/-! ### Filling a blank packet -/

theorem bind_of_ok {α β : Type} {x : Except PyErr α} {a : α} (h : x = .ok a) (f : α → Except PyErr β) :
    x >>= f = f a := by
  rw [h, except_ok_bind]

/-- A packet of which the first bytes are written. -/
def filled (front : Bytes) (blank : ℕ) : DV := DV.ofBytes (front ++ List.replicate blank 0)

theorem filled_writeU16 {front : Bytes} {k : ℕ} (hk : front.length = k) (blank val : ℕ) :
    (filled front (blank + 2)).via k (·.writeU16 val) = .ok (filled (front ++ be 2 val) blank) := by
  rw [filled, DV.via_writeU16, if_pos (by rw [List.length_append, List.length_replicate]; omega),
    put_blank hk, length_be, Nat.add_sub_cancel]
  rfl

theorem filled_writeU8 {front : Bytes} {k : ℕ} (hk : front.length = k) (blank val : ℕ) :
    (filled front (blank + 1)).via k (·.writeU8 val) =
      .ok (filled (front ++ [UInt8.ofNat val]) blank) := by
  rw [filled, DV.via_writeU8, if_pos (by rw [List.length_append, List.length_replicate]; omega),
    put_blank hk]
  rfl

theorem filled_writeByteArray {front : Bytes} (arr : Bytes) {k : ℕ} (hk : front.length = k) (blank : ℕ) :
    (filled front (blank + arr.length)).via k (fun view => .ok (view.writeByteArray arr)) =
      .ok (filled (front ++ arr) blank) := by
  rw [filled, DV.via_writeByteArray, put_blank hk, Nat.add_sub_cancel]
  rfl

theorem filled_put {front bs : Bytes} {k w : ℕ} (hk : front.length = k) (h : bs.length ≤ w) (blank : ℕ) :
    DV.ofBytes (put (front ++ List.replicate (blank + w) 0) k bs) = filled (front ++ padded w bs) blank ∧
      (front ++ padded w bs).length = k + w := by
  have hblank : blank + w - bs.length = w - bs.length + blank := by omega
  refine ⟨?_, by rw [List.length_append, hk, length_padded h]⟩
  rw [put_blank hk, hblank, ← List.replicate_append_replicate, filled, padded]
  simp only [List.append_assoc]

theorem filled_number {front : Bytes} {k : ℕ} (hk : front.length = k) (blank val : ℕ) :
    (filled front (blank + 4)).via k (·.writeU8 val) =
        .ok (filled (front ++ padded 4 [UInt8.ofNat val]) blank) ∧
      (front ++ padded 4 [UInt8.ofNat val]).length = k + 4 := by
  obtain ⟨hput, hlen⟩ := filled_put hk (show [UInt8.ofNat val].length ≤ 4 by simp) blank
  refine ⟨?_, hlen⟩
  rw [filled, DV.via_writeU8, if_pos (by rw [List.length_append, List.length_replicate]; omega), hput]

theorem filled_text {front bs : Bytes} {k w : ℕ} {s : String} (hk : front.length = k)
    (hs : encodeLatin1 s = .ok bs) (h : bs.length ≤ w) (blank : ℕ) :
    (filled front (blank + w)).via k (·.writeString s) = .ok (filled (front ++ padded w bs) blank) ∧
      (front ++ padded w bs).length = k + w := by
  obtain ⟨hput, hlen⟩ := filled_put hk h blank
  refine ⟨?_, hlen⟩
  simp only [DV.writeString_ok hs]
  rw [filled, DV.via_writeByteArray, hput]

theorem filled_padded {front arr : Bytes} {k w : ℕ} (hk : front.length = k) (h : arr.length ≤ w) (blank : ℕ) :
    (filled front (blank + w)).via k (fun view => .ok (view.writeByteArray arr)) =
      .ok (filled (front ++ padded w arr) blank) := by
  rw [filled, DV.via_writeByteArray, (filled_put hk h blank).1]

/-- The fields of a command packet in front of its ticket. -/
def packetHeader (outgoingCommandId command dataLen : ℕ) : Bytes :=
  be 2 Command.drw.code ++ be 2 (0x10 + 0x4 + dataLen - 4) ++ [0xD1] ++ [0] ++ be 2 outgoingCommandId ++
    be 2 0x110A ++ be 2 command ++ be 2 (u16Swap (0x4 + dataLen)) ++ be 2 (ccDest command)

@[simp] theorem length_packetHeader (outgoingCommandId command dataLen : ℕ) :
    (packetHeader outgoingCommandId command dataLen).length = 16 := by
  simp only [packetHeader, List.length_append, length_be, List.length_cons, List.length_nil]

theorem writeHeader_ok {ticket : Bytes} (hticket : ticket.length ≤ 4) (id command dataLen : ℕ) :
    writeHeader id ticket command dataLen (DV.alloc (0x10 + 0x4 + dataLen)) =
      .ok (filled (packetHeader id command dataLen ++ padded 4 ticket) dataLen) := by
  have hblank : DV.alloc (0x10 + 0x4 + dataLen) = filled [] (dataLen + 4 + 16) := by
    rw [DV.alloc, filled, List.nil_append]
    congr 2
    omega
  rw [hblank]
  unfold writeHeader
  refine (bind_of_ok (filled_writeU16 (k := 0) rfl _ _) _).trans ?_
  refine (bind_of_ok (filled_writeU16 (k := 2) (by simp) _ _) _).trans ?_
  refine (bind_of_ok (filled_writeU8 (k := 4) (by simp) _ _) _).trans ?_
  refine (bind_of_ok (filled_writeU8 (k := 5) (by simp) _ _) _).trans ?_
  refine (bind_of_ok (filled_writeU16 (k := 6) (by simp) _ _) _).trans ?_
  refine (bind_of_ok (filled_writeU16 (k := 8) (by simp) _ _) _).trans ?_
  refine (bind_of_ok (filled_writeU16 (k := 10) (by simp) _ _) _).trans ?_
  refine (bind_of_ok (filled_writeU16 (k := 12) (by simp) _ _) _).trans ?_
  refine (bind_of_ok (filled_writeU16 (k := 14) (by simp) _ _) _).trans ?_
  exact filled_padded (k := 16) (by simp) hticket dataLen

/-! ### The payload -/

theorem obfuscatedCopy_some {data : DV} (h : 4 < data.toBytes.length) :
    obfuscatedCopy (some data) = .ok (some (obfuscate 4 data.toBytes)) := by
  have hlong : 4 < data.byteLength := by
    rw [DV.toBytes, List.length_drop, clip] at h
    rw [DV.byteLength]
    split_ifs at h <;> omega
  have hwhole : field data.toBytes 0 data.toBytes.length = data.toBytes := List.take_length
  have hrotate : 4 ≤ data.toBytes.length := by omega
  have henc := xqBytesEnc_ok data.toBytes 0 hrotate
    (by omega)
  rw [hwhole] at henc
  simp only [obfuscatedCopy, if_pos hlong]
  rw [show DV.ofBytes data.toBytes = ⟨data.toBytes, (0 : ℕ)⟩ from rfl, henc]
  show Except.ok (some (put data.toBytes 0 (obfuscate 4 data.toBytes))) = _
  rw [put, length_obfuscate, Nat.zero_add, List.drop_length, List.append_nil]
  rfl

/-- A command packet: the header, the ticket and the obfuscated payload. -/
def commandPacket (id : ℕ) (ticket : Bytes) (command : ℕ) (payload : Bytes) : Bytes :=
  packetHeader id command payload.length ++ ticket ++ obfuscate 4 payload

theorem length_commandPacket {ticket : Bytes} (hticket : ticket.length = 4) (id command : ℕ)
    (payload : Bytes) : (commandPacket id ticket command payload).length = payload.length + 20 := by
  simp only [commandPacket, List.length_append, length_packetHeader, hticket, length_obfuscate]
  omega

/-- **What `make_data_read_write` builds**. -/
theorem dataReadWrite_padded {ticket : Bytes} (hticket : ticket.length ≤ 4) (id command : ℕ) {data : Option DV}
    (hdata : ∀ dv ∈ data, 4 < dv.toBytes.length) :
    dataReadWrite id ticket command data =
      .ok (DV.ofBytes (commandPacket id (padded 4 ticket) command ((data.map DV.toBytes).getD []))) := by
  rw [dataReadWrite_eq, commandPacket]
  cases data with
  | none =>
    have hcopy : obfuscatedCopy none = .ok none := rfl
    have hnone : obfuscate 4 [] = [] := rfl
    rw [hcopy, except_ok_bind]
    simp only [Option.map_none, Option.getD_none, List.length_nil]
    rw [writeHeader_ok hticket, except_ok_bind, writePayload, filled, hnone, List.replicate_zero]
  | some data =>
    have hlong := hdata data rfl
    rw [obfuscatedCopy_some hlong, except_ok_bind]
    simp only [Option.map_some, Option.getD_some, length_obfuscate]
    rw [writeHeader_ok hticket, except_ok_bind]
    have hfront : (packetHeader id command data.toBytes.length ++ padded 4 ticket).length = 20 := by
      rw [List.length_append, length_packetHeader, length_padded hticket]
    have hfill := filled_writeByteArray (obfuscate 4 data.toBytes) hfront 0
    rw [length_obfuscate, Nat.zero_add] at hfill
    refine hfill.trans ?_
    rw [filled, List.replicate_zero, List.append_nil]

theorem dataReadWrite_ok {ticket : Bytes} (hticket : ticket.length = 4) (id command : ℕ) {data : Option DV}
    (hdata : ∀ dv ∈ data, 4 < dv.toBytes.length) :
    dataReadWrite id ticket command data =
      .ok (DV.ofBytes (commandPacket id ticket command ((data.map DV.toBytes).getD []))) := by
  rw [dataReadWrite_padded hticket.le id command hdata, padded_whole hticket]

end CamReverse
