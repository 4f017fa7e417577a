import CamReverse.Lib.Effect
import CamReverse.Control.Build

/-!
# Shared buffers

In the source a `DV` does not own its bytes: it is an offset into a buffer that other views share. Here a
`Ref` is such a view and the buffers are cells of a heap, so a write through one view is seen by every
other view of the buffer. `Shared.makeDataReadWrite` is `make_data_read_write` on this heap. It builds the
packet `makeDataReadWrite` builds on values, and writes to no buffer that was there before
(`shared_dataReadWrite`).
-/

namespace CamReverse

open Effect Bytes

/-- A view of the buffer with this number, from an offset on. -/
structure Ref where
  cell : ℕ
  offset : ℤ
  deriving DecidableEq, Repr

def Ref.add (r : Ref) (offset : ℤ) : Ref := ⟨r.cell, r.offset + offset⟩

/-- The buffers, by number. -/
abbrev Heap := List Bytes

abbrev HeapM := EStateM PyErr Heap

namespace Heap

def deref (h : Heap) (r : Ref) : DV := ⟨h.getD r.cell [], r.offset⟩

def alloc (buf : Bytes) : HeapM Ref := fun h => .ok ⟨h.length, 0⟩ (h ++ [buf])

def look {α : Type} (r : Ref) (read : DV → Except PyErr α) : HeapM α := fun h =>
  match read (h.deref r) with
  | .ok a => .ok a h
  | .error e => .error e h

def write (r : Ref) (op : DV → Except PyErr DV) : HeapM Unit := fun h =>
  match op (h.deref r) with
  | .ok view => .ok () (h.set r.cell view.buf)
  | .error e => .error e h

end Heap

namespace Shared

open Heap

def xqBytesEnc (inoutbuf : Ref) (buflen rotate : ℕ) : HeapM Unit := do
  let newBuf ← look inoutbuf (flipped · buflen)
  (List.range (buflen - rotate)).forM fun (i : ℕ) => write inoutbuf (copyByte newBuf · i (i + rotate))
  (List.range rotate).forM fun (i : ℕ) => write inoutbuf (copyByte newBuf · ((buflen : ℤ) - rotate + i) i)

/-- `buf_copy`: the payload is copied before it is obfuscated in place. -/
def obfuscatedCopy : Option Ref → HeapM (Option Ref)
  | none => return none
  | some data => do
    let view ← look data .ok
    if 4 < view.byteLength then
      let bufCopy ← alloc view.toBytes
      xqBytesEnc bufCopy view.toBytes.length 4
      return some bufCopy
    else
      return none

def copyLen : Option Ref → HeapM ℕ
  | some bufCopy => look bufCopy fun view => .ok view.buf.length
  | none => return 0

def writeHeader (outgoingCommandId : ℕ) (ticket : Bytes) (command dataLen : ℕ) (ret : Ref) : HeapM Unit := do
  write (ret.add 0) (·.writeU16 Command.drw.code)
  write (ret.add 2) (·.writeU16 (0x10 + 0x4 + dataLen - 4))
  write (ret.add 4) (·.writeU8 0xD1)
  write (ret.add 5) (·.writeU8 0)
  write (ret.add 6) (·.writeU16 outgoingCommandId)
  write (ret.add 8) (·.writeU16 0x110A)
  write (ret.add 10) (·.writeU16 command)
  write (ret.add 12) (·.writeU16 (u16Swap (0x4 + dataLen)))
  write (ret.add 14) (·.writeU16 (ccDest command))
  write (ret.add 16) (fun view => .ok (view.writeByteArray ticket))

def writePayload (bufCopy : Option Ref) (ret : Ref) : HeapM Unit :=
  match bufCopy with
  | some bufCopy => do
    let arr ← look bufCopy fun view => .ok view.buf
    write (ret.add 20) (fun view => .ok (view.writeByteArray arr))
  | none => return

def dataReadWrite (outgoingCommandId : ℕ) (ticket : Bytes) (command : ℕ) (data : Option Ref) : HeapM Ref := do
  let bufCopy ← obfuscatedCopy data
  let dataLen ← copyLen bufCopy
  let ret ← alloc (List.replicate (0x10 + 0x4 + dataLen) 0)
  writeHeader outgoingCommandId ticket command dataLen ret
  writePayload bufCopy ret
  return ret

def makeDataReadWrite (command : ℕ) (data : Option Ref) : EStateM PyErr (Session × Heap) Ref := do
  let (s, _) ← get
  let ret ← onPart Prod.snd (fun h x => (x.1, h)) (dataReadWrite s.outgoingCommandId s.ticket command data)
  modify fun x => ({ x.1 with outgoingCommandId := x.1.outgoingCommandId + 1 }, x.2)
  return ret

/-! ### Writing in place -/

/-- On the view `r` the program does what `op` does to values, and nothing else. -/
def Computes (r : Ref) (m : HeapM Unit) (op : DV → Except PyErr DV) : Prop :=
  ∀ (h : Heap) buf dv, h[r.cell]? = some buf → op ⟨buf, r.offset⟩ = .ok dv →
    dv.offset = r.offset ∧ m h = .ok () (h.set r.cell dv.buf)

namespace Computes

variable {r : Ref}

theorem skip : Computes r (pure ()) .ok := fun h buf dv hbuf hdv => by
  obtain rfl := Except.ok.inj hdv
  obtain ⟨hcell, rfl⟩ := List.getElem?_eq_some_iff.1 hbuf
  refine ⟨rfl, ?_⟩
  rw [List.set_getElem_self hcell]
  rfl

theorem write (op : DV → Except PyErr DV) (hop : ∀ dv dv', op dv = .ok dv' → dv'.offset = dv.offset) :
    Computes r (Heap.write r op) op := fun h buf dv hbuf hdv => by
  have hderef : h.deref r = ⟨buf, r.offset⟩ := by
    rw [deref, List.getD_eq_getElem?_getD, hbuf]
    rfl
  refine ⟨hop _ _ hdv, ?_⟩
  rw [Heap.write, hderef, hdv]

theorem write_add (k : ℤ) (op : DV → Except PyErr DV) :
    Computes r (Heap.write (r.add k) op) (·.via k op) := fun h buf dv hbuf hdv => by
  have hderef : h.deref (r.add k) = (⟨buf, r.offset⟩ : DV).add k := by
    rw [deref, Ref.add, List.getD_eq_getElem?_getD, hbuf]
    rfl
  rw [Heap.write, hderef]
  simp only [DV.via] at hdv
  cases hview : op ((⟨buf, r.offset⟩ : DV).add k) with
  | error e =>
    rw [hview] at hdv
    cases hdv
  | ok view =>
    rw [hview] at hdv
    obtain rfl := Except.ok.inj hdv
    exact ⟨rfl, rfl⟩

theorem bind {m m' : HeapM Unit} {f g : DV → Except PyErr DV} (hm : Computes r m f) (hm' : Computes r m' g) :
    Computes r (m >>= fun _ => m') (fun dv => f dv >>= g) := fun h buf dv hbuf hdv => by
  obtain ⟨mid, hmid, hdv⟩ := except_bind_eq_ok hdv
  obtain ⟨hoffset, hrun⟩ := hm h buf mid hbuf hmid
  have hcell : (h.set r.cell mid.buf)[r.cell]? = some mid.buf :=
    List.getElem?_set_self (List.getElem?_eq_some_iff.1 hbuf).1
  rw [show mid = ⟨mid.buf, r.offset⟩ by rw [← hoffset]] at hdv
  obtain ⟨hoffset', hrun'⟩ := hm' _ mid.buf dv hcell hdv
  refine ⟨hoffset', ?_⟩
  rw [bind_ok hrun, hrun', List.set_set]

theorem forM {α : Type} {l : List α} {m : α → HeapM Unit} {f : α → DV → Except PyErr DV}
    (h : ∀ a, Computes r (m a) (f a)) : Computes r (l.forM m) (l.foldlM fun dv a => f a dv) := by
  induction l with
  | nil => exact skip
  | cons a l ih => exact bind (h a) ih

end Computes

theorem copyByte_offset {newBuf : Bytes} {dv dv' : DV} {i j : ℤ} (h : copyByte newBuf dv i j = .ok dv') :
    dv'.offset = dv.offset := by
  unfold copyByte at h
  cases hj : index? newBuf.length j with
  | none =>
    rw [hj] at h
    cases h
  | some n =>
    rw [hj] at h
    simp only [DV.via] at h
    cases hview : (dv.add i).writeU8 (newBuf.getD n 0).toNat with
    | error e =>
      rw [hview] at h
      cases h
    | ok view =>
      rw [hview] at h
      obtain rfl := Except.ok.inj h
      rfl

theorem xqBytesEnc_computes (r : Ref) (buflen rotate : ℕ) :
    Computes r (xqBytesEnc r buflen rotate) (CamReverse.xqBytesEnc · buflen rotate) :=
    fun h buf dv hbuf hdv => by
  have hderef : h.deref r = ⟨buf, r.offset⟩ := by
    rw [deref, List.getD_eq_getElem?_getD, hbuf]
    rfl
  unfold CamReverse.xqBytesEnc at hdv
  obtain ⟨newBuf, hnew, hdv⟩ := except_bind_eq_ok hdv
  have hlook : look r (flipped · buflen) h = .ok newBuf h := by rw [look, hderef, hnew]
  have hloops := Computes.bind
    (Computes.forM (r := r) (l := List.range (buflen - rotate)) fun (i : ℕ) =>
      Computes.write (copyByte newBuf · i (i + rotate)) fun _ _ => copyByte_offset)
    (Computes.forM (r := r) (l := List.range rotate) fun (i : ℕ) =>
      Computes.write (copyByte newBuf · ((buflen : ℤ) - rotate + i) i) fun _ _ => copyByte_offset)
  unfold xqBytesEnc
  rw [bind_ok hlook]
  exact hloops h buf dv hbuf hdv

/-! ### A packet on the heap -/

theorem deref_append {h : Heap} {r : Ref} (hr : r.cell < h.length) (more : Heap) :
    (h ++ more).deref r = h.deref r := by
  rw [deref, deref, List.getD_append _ _ _ _ hr]

theorem deref_last (h : Heap) (buf : Bytes) : (h ++ [buf]).deref ⟨h.length, 0⟩ = DV.ofBytes buf := by
  rw [deref, List.getD_eq_getElem?_getD, List.getElem?_concat_length]
  rfl

theorem obfuscatedCopy_apply {h : Heap} {data : Option Ref} {bufCopy : Option Bytes}
    (hcopy : CamReverse.obfuscatedCopy (data.map h.deref) = .ok bufCopy) :
    obfuscatedCopy data h = .ok (bufCopy.map fun _ => ⟨h.length, 0⟩) (h ++ bufCopy.toList) := by
  cases data with
  | none =>
    obtain rfl := Except.ok.inj hcopy
    rw [Option.toList_none, List.append_nil]
    rfl
  | some data =>
    simp only [CamReverse.obfuscatedCopy, Option.map_some] at hcopy
    have hlook : look data .ok h = .ok (h.deref data) h := rfl
    rw [obfuscatedCopy, bind_ok hlook]
    split_ifs at hcopy ⊢ with hlong
    · cases henc : CamReverse.xqBytesEnc (DV.ofBytes (h.deref data).toBytes)
          (h.deref data).toBytes.length 4 with
      | error e =>
        rw [henc] at hcopy
        cases hcopy
      | ok dv =>
        rw [henc] at hcopy
        obtain rfl := Except.ok.inj hcopy
        have hcell : (h ++ [(h.deref data).toBytes])[h.length]? = some (h.deref data).toBytes :=
          List.getElem?_concat_length
        obtain ⟨-, hrun⟩ := xqBytesEnc_computes ⟨h.length, 0⟩ (h.deref data).toBytes.length 4
          (h ++ [(h.deref data).toBytes]) _ dv hcell henc
        rw [bind_ok (show alloc (h.deref data).toBytes h = .ok ⟨h.length, 0⟩ _ from rfl), bind_ok hrun,
          List.set_append_right _ _ (Nat.le_refl _), Nat.sub_self]
        rfl
    · obtain rfl := Except.ok.inj hcopy
      rw [Option.toList_none, List.append_nil]
      rfl

theorem copyLen_apply (h : Heap) (bufCopy : Option Bytes) :
    copyLen (bufCopy.map fun _ => ⟨h.length, 0⟩) (h ++ bufCopy.toList) =
      .ok ((bufCopy.map List.length).getD 0) (h ++ bufCopy.toList) := by
  cases bufCopy with
  | none => rfl
  | some bufCopy =>
    show look ⟨h.length, 0⟩ (fun view => .ok view.buf.length) (h ++ [bufCopy]) = _
    rw [look, deref_last]
    rfl

theorem set_last (h : Heap) (buf buf' : Bytes) : (h ++ [buf]).set h.length buf' = h ++ [buf'] := by
  rw [List.set_append_right _ _ (Nat.le_refl _), Nat.sub_self]
  rfl

theorem writeHeader_computes (id : ℕ) (ticket : Bytes) (command dataLen : ℕ) (ret : Ref) :
    Computes ret (writeHeader id ticket command dataLen ret)
      (CamReverse.writeHeader id ticket command dataLen) := by
  refine .bind (.write_add 0 _) (.bind (.write_add 2 _) (.bind (.write_add 4 _) (.bind (.write_add 5 _) ?_)))
  refine .bind (.write_add 6 _) (.bind (.write_add 8 _) (.bind (.write_add 10 _) (.bind (.write_add 12 _) ?_)))
  exact .bind (.write_add 14 _) (.write_add 16 _)

theorem writePayload_apply {h : Heap} {bufCopy : Option Bytes} {ret dv : DV} (hret : ret.offset = 0)
    (hdv : CamReverse.writePayload bufCopy ret = .ok dv) :
    dv.offset = 0 ∧ writePayload (bufCopy.map fun _ => ⟨h.length, 0⟩)
        ⟨(h ++ bufCopy.toList).length, 0⟩ (h ++ bufCopy.toList ++ [ret.buf]) =
      .ok () (h ++ bufCopy.toList ++ [dv.buf]) := by
  cases bufCopy with
  | none =>
    obtain rfl := Except.ok.inj hdv
    exact ⟨hret, rfl⟩
  | some bufCopy =>
    have hcopy : (h ++ [bufCopy] ++ [ret.buf]).deref ⟨h.length, 0⟩ = DV.ofBytes bufCopy := by
      rw [deref_append (by simp), deref_last]
    have hlook : look ⟨h.length, 0⟩ (fun view => .ok view.buf) (h ++ [bufCopy] ++ [ret.buf]) =
        .ok bufCopy (h ++ [bufCopy] ++ [ret.buf]) := by
      rw [look, hcopy]
      rfl
    have hcell : (h ++ [bufCopy] ++ [ret.buf])[(h ++ [bufCopy]).length]? = some ret.buf :=
      List.getElem?_concat_length
    obtain ⟨hoffset, hrun⟩ := Computes.write_add (r := ⟨(h ++ [bufCopy]).length, 0⟩) 20
      (fun view => .ok (view.writeByteArray bufCopy)) _ ret.buf dv hcell
      (by rw [← hret]; exact hdv)
    refine ⟨hoffset, ?_⟩
    show (look ⟨h.length, 0⟩ (fun view => .ok view.buf) >>= fun arr => _) (h ++ [bufCopy] ++ [ret.buf]) = _
    rw [bind_ok hlook]
    rw [set_last] at hrun
    exact hrun

/-- **A packet on the heap** is the packet on values, in a new buffer; the buffers that were there keep their
bytes. -/
theorem shared_dataReadWrite {h : Heap} {id command : ℕ} {ticket : Bytes} {data : Option Ref} {dv : DV}
    (hdv : CamReverse.dataReadWrite id ticket command (data.map h.deref) = .ok dv) :
    ∃ ret h', dataReadWrite id ticket command data h = .ok ret h' ∧ h'.deref ret = dv ∧ h <+: h' := by
  rw [dataReadWrite_eq] at hdv
  obtain ⟨bufCopy, hcopy, hdv⟩ := except_bind_eq_ok hdv
  obtain ⟨header, hheader, hpayload⟩ := except_bind_eq_ok hdv
  obtain ⟨hoffset, hwrites⟩ := writeHeader_computes id ticket command ((bufCopy.map List.length).getD 0)
    ⟨(h ++ bufCopy.toList).length, 0⟩ (h ++ bufCopy.toList ++ [List.replicate _ 0]) _ header
    List.getElem?_concat_length hheader
  obtain ⟨hoffset', hlast⟩ := writePayload_apply (h := h) hoffset hpayload
  rw [set_last] at hwrites
  refine ⟨⟨(h ++ bufCopy.toList).length, 0⟩, h ++ bufCopy.toList ++ [dv.buf], ?_, ?_, ?_⟩
  · unfold dataReadWrite
    rw [bind_ok (obfuscatedCopy_apply hcopy), bind_ok (copyLen_apply h bufCopy),
      bind_ok (show alloc _ _ = .ok ⟨(h ++ bufCopy.toList).length, 0⟩ _ from rfl), bind_ok hwrites,
      bind_ok hlast]
    rfl
  · rw [deref_last, DV.ofBytes, ← hoffset']
  · rw [List.append_assoc]
    exact List.prefix_append h _

theorem shared_makeDataReadWrite {s : Session} {h : Heap} {command : ℕ} {data : Option Ref} {dv : DV}
    (hdv : CamReverse.dataReadWrite s.outgoingCommandId s.ticket command (data.map h.deref) = .ok dv) :
    ∃ ret h', makeDataReadWrite command data (s, h) =
        .ok ret ({ s with outgoingCommandId := s.outgoingCommandId + 1 }, h') ∧
      h'.deref ret = dv ∧ h <+: h' := by
  obtain ⟨ret, h', hrun, hret, hfront⟩ := shared_dataReadWrite hdv
  refine ⟨ret, h', ?_, hret, hfront⟩
  unfold makeDataReadWrite onPart
  rw [get_bind_apply]
  simp only [bind, EStateM.bind, hrun]
  rfl

end Shared

end CamReverse
