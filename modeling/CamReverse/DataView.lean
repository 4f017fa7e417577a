import CamReverse.Python

/-!
# The byte cursor

`DV` is an offset into a byte buffer. `add` makes a view at a further offset of the *same* buffer, so a
write through it changes the buffer of the view it came from: `via` is such a write. Reads of a field
that does not lie inside the buffer raise; `readByteArray` and `writeByteArray` are slices, which are
clipped instead.
-/

namespace CamReverse

open Bytes

/-- A view of a byte buffer from an offset on. -/
structure DV where
  buf : Bytes
  offset : ℤ
  deriving DecidableEq, Repr

namespace DV

def ofBytes (buf : Bytes) : DV := ⟨buf, 0⟩

def alloc (size : ℕ) : DV := ofBytes (List.replicate size 0)

def add (dv : DV) (offset : ℤ) : DV := ⟨dv.buf, dv.offset + offset⟩

def byteLength (dv : DV) : ℤ := dv.buf.length - dv.offset

/-! ### Reads -/

def readU8 (dv : DV) : Except PyErr ℕ :=
  match index? dv.buf.length dv.offset with
  | some i => .ok (dv.buf.getD i 0).toNat
  | none => .error .indexError

/-- The bytes `struct.unpack_from` reads for a field of `w` bytes. -/
def unpackFrom (dv : DV) (w : ℕ) : Except PyErr Bytes :=
  match field? dv.buf.length dv.offset w with
  | some i => .ok ((dv.buf.drop i).take w)
  | none => .error .structError

def readU16 (dv : DV) : Except PyErr ℕ := ofBE <$> dv.unpackFrom 2

def readU16le (dv : DV) : Except PyErr ℕ := ofLE <$> dv.unpackFrom 2

def readU32 (dv : DV) : Except PyErr ℕ := ofBE <$> dv.unpackFrom 4

def readU32le (dv : DV) : Except PyErr ℕ := ofLE <$> dv.unpackFrom 4

def readU64 (dv : DV) : Except PyErr ℕ := ofBE <$> dv.unpackFrom 8

def readByteArray (dv : DV) (length : ℤ) : Bytes := slice dv.buf dv.offset (dv.offset + length)

def readString (dv : DV) (length : ℤ) : String :=
  decodeLatin1 ((slice dv.buf dv.offset (dv.offset + length)).takeWhile (· ≠ 0))

/-! ### Writes -/

def writeU8 (dv : DV) (val : ℕ) : Except PyErr DV :=
  match index? dv.buf.length dv.offset with
  | some i => .ok { dv with buf := dv.buf.set i (UInt8.ofNat val) }
  | none => .error .indexError

/-- `struct.pack_into` of a field of the given bytes. -/
def packInto (dv : DV) (bs : Bytes) : Except PyErr DV :=
  match field? dv.buf.length dv.offset bs.length with
  | some i => .ok { dv with buf := dv.buf.take i ++ bs ++ dv.buf.drop (i + bs.length) }
  | none => .error .structError

def writeU16 (dv : DV) (val : ℕ) : Except PyErr DV := dv.packInto (be 2 val)

def writeU64 (dv : DV) (val : ℕ) : Except PyErr DV := dv.packInto (be 8 val)

def writeByteArray (dv : DV) (arr : Bytes) : DV :=
  { dv with buf := setSlice dv.buf dv.offset (dv.offset + arr.length) arr }

def writeString (dv : DV) (s : String) : Except PyErr DV := dv.writeByteArray <$> encodeLatin1 s

theorem writeString_ok {s : String} {bs : Bytes} (h : encodeLatin1 s = .ok bs) (dv : DV) :
    dv.writeString s = .ok (dv.writeByteArray bs) := by
  rw [writeString, h]
  rfl

/-- A write through `dv.add k`, seen from `dv`. -/
def via (dv : DV) (k : ℤ) (write : DV → Except PyErr DV) : Except PyErr DV :=
  (fun view => { dv with buf := view.buf }) <$> write (dv.add k)

/-- The datagram to put on the wire. -/
def toBytes (dv : DV) : Bytes := dv.buf.drop (clip dv.buf.length dv.offset)

/-! ### Views of a whole buffer -/

@[simp] theorem toBytes_ofBytes (buf : Bytes) : (ofBytes buf).toBytes = buf := by
  simp [toBytes, ofBytes, clip]

theorem field_toBytes {dv : DV} {v : ℕ} (h : dv.readU16 = .ok v) : ofBE (field dv.toBytes 0 2) = v := by
  unfold readU16 unpackFrom at h
  cases hplace : field? dv.buf.length dv.offset 2 with
  | none =>
    rw [hplace] at h
    cases h
  | some i =>
    rw [hplace] at h
    rw [toBytes, clip_of_field? (by decide) hplace, field, List.drop_zero]
    exact Except.ok.inj h

theorem ofBytes_add (buf : Bytes) (k : ℤ) : (ofBytes buf).add k = ⟨buf, k⟩ := by
  simp [add, ofBytes]

theorem add_add (dv : DV) (j k : ℤ) : (dv.add j).add k = dv.add (j + k) := by
  simp only [add, Int.add_assoc]

theorem unpackFrom_nat (buf : Bytes) (k w : ℕ) :
    (⟨buf, k⟩ : DV).unpackFrom w =
      if k + w ≤ buf.length then .ok ((buf.drop k).take w) else .error .structError := by
  unfold unpackFrom
  split_ifs with h
  · rw [field?_natCast h]
  · rw [field?_natCast_none (Nat.lt_of_not_le h)]

theorem readByteArray_nat (buf : Bytes) (k m : ℕ) :
    (⟨buf, k⟩ : DV).readByteArray m = (buf.drop k).take m :=
  slice_natCast buf k m

theorem readU8_nat (buf : Bytes) (k : ℕ) :
    (⟨buf, k⟩ : DV).readU8 =
      if k < buf.length then .ok (buf.getD k 0).toNat else .error .indexError := by
  unfold readU8
  split_ifs with h
  · rw [index?_natCast h]
  · rw [index?_natCast_none (Nat.le_of_not_lt h)]

theorem read_ofBytes (decode : Bytes → ℕ) (buf : Bytes) (k w : ℕ) :
    decode <$> ((ofBytes buf).add k).unpackFrom w =
      if k + w ≤ buf.length then .ok (decode (field buf k w)) else .error .structError := by
  rw [ofBytes_add, unpackFrom_nat]
  split_ifs <;> rfl

theorem readU16_ofBytes (buf : Bytes) (k : ℕ) :
    ((ofBytes buf).add k).readU16 =
      if k + 2 ≤ buf.length then .ok (ofBE (field buf k 2)) else .error .structError :=
  read_ofBytes ofBE buf k 2

theorem readU16le_ofBytes (buf : Bytes) (k : ℕ) :
    ((ofBytes buf).add k).readU16le =
      if k + 2 ≤ buf.length then .ok (ofLE (field buf k 2)) else .error .structError :=
  read_ofBytes ofLE buf k 2

theorem readU8_ofBytes (buf : Bytes) (k : ℕ) :
    ((ofBytes buf).add k).readU8 =
      if k < buf.length then .ok (buf.getD k 0).toNat else .error .indexError := by
  rw [ofBytes_add, readU8_nat]

theorem readByteArray_ofBytes (buf : Bytes) (k n : ℕ) :
    ((ofBytes buf).add k).readByteArray n = field buf k n := by
  rw [ofBytes_add, readByteArray_nat]
  rfl

theorem readString_ofBytes (buf : Bytes) (k n : ℕ) :
    ((ofBytes buf).add k).readString n = decodeLatin1 ((field buf k n).takeWhile (· ≠ 0)) := by
  rw [ofBytes_add, readString]
  show decodeLatin1 ((slice buf k (k + n)).takeWhile (· ≠ 0)) = _
  rw [slice_natCast]
  rfl

theorem isOk_unpackFrom (buf : Bytes) (k w : ℕ) :
    (((ofBytes buf).add k).unpackFrom w).isOk = true ↔ k + w ≤ buf.length := by
  rw [ofBytes_add, unpackFrom_nat]
  split_ifs with h
  · exact iff_of_true rfl h
  · exact iff_of_false Bool.false_ne_true h

theorem isOk_read (decode : Bytes → ℕ) (buf : Bytes) (k w : ℕ) :
    (decode <$> ((ofBytes buf).add k).unpackFrom w).isOk = true ↔ k + w ≤ buf.length := by
  rw [← isOk_unpackFrom buf k w]
  cases ((ofBytes buf).add k).unpackFrom w <;> exact Iff.rfl

theorem isOk_readU8 (buf : Bytes) (k : ℕ) :
    (((ofBytes buf).add k).readU8).isOk = true ↔ k < buf.length := by
  rw [readU8_ofBytes]
  split_ifs with h
  · exact iff_of_true rfl h
  · exact iff_of_false Bool.false_ne_true h

/-! ### Writes into a whole buffer -/

theorem via_packInto (buf bs : Bytes) (k : ℕ) :
    (ofBytes buf).via k (·.packInto bs) =
      if k + bs.length ≤ buf.length then .ok (ofBytes (put buf k bs)) else .error .structError := by
  rw [via, ofBytes_add, packInto]
  split_ifs with h
  · rw [field?_natCast h]
    rfl
  · rw [field?_natCast_none (Nat.lt_of_not_le h)]
    rfl

theorem via_writeU16 (buf : Bytes) (k val : ℕ) :
    (ofBytes buf).via k (·.writeU16 val) =
      if k + 2 ≤ buf.length then .ok (ofBytes (put buf k (be 2 val))) else .error .structError :=
  via_packInto buf (be 2 val) k

theorem via_writeU8 (buf : Bytes) (k val : ℕ) :
    (ofBytes buf).via k (·.writeU8 val) =
      if k < buf.length then .ok (ofBytes (put buf k [UInt8.ofNat val])) else .error .indexError := by
  rw [via, ofBytes_add, writeU8]
  split_ifs with h
  · rw [index?_natCast h, ← set_eq_put h]
    rfl
  · rw [index?_natCast_none (Nat.le_of_not_lt h)]
    rfl

theorem via_writeByteArray (buf arr : Bytes) (k : ℕ) :
    (ofBytes buf).via k (fun view => .ok (view.writeByteArray arr)) = .ok (ofBytes (put buf k arr)) := by
  rw [via, ofBytes_add, writeByteArray, setSlice_natCast]
  rfl

end DV

end CamReverse
