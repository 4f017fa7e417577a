import CamReverse.DataView

/-!
# The Xq obfuscation of control payloads

Both directions flip the low bit of every byte and rotate, in place, through the shared buffer of the
view they are given.
-/

namespace CamReverse

open Bytes

def flipLowBit (b : ℕ) : ℕ := if b &&& 1 ≠ 0 then b - 1 else b + 1

/-- The flipped copy of the first `buflen` bytes both directions start with. -/
def flipped (inoutbuf : DV) (buflen : ℕ) : Except PyErr Bytes :=
  (List.range buflen).mapM fun i => (fun b => UInt8.ofNat (flipLowBit b)) <$> (inoutbuf.add i).readU8

/-- `inoutbuf.add(i).write_u8(new_buf[j])`. -/
def copyByte (newBuf : Bytes) (inoutbuf : DV) (i j : ℤ) : Except PyErr DV :=
  match index? newBuf.length j with
  | some n => inoutbuf.via i (·.writeU8 (newBuf.getD n 0).toNat)
  | none => .error .indexError

def xqBytesDec (inoutbuf : DV) (buflen rotate : ℕ) : Except PyErr DV := do
  let newBuf ← flipped inoutbuf buflen
  let inoutbuf ← (List.range' rotate (buflen - rotate)).foldlM
    (fun buf (i : ℕ) => copyByte newBuf buf i (i - rotate)) inoutbuf
  (List.range rotate).foldlM
    (fun buf (i : ℕ) => copyByte newBuf buf i ((buflen : ℤ) - rotate + i)) inoutbuf

def xqBytesEnc (inoutbuf : DV) (buflen rotate : ℕ) : Except PyErr DV := do
  let newBuf ← flipped inoutbuf buflen
  let inoutbuf ← (List.range (buflen - rotate)).foldlM
    (fun buf (i : ℕ) => copyByte newBuf buf i (i + rotate)) inoutbuf
  (List.range rotate).foldlM
    (fun buf (i : ℕ) => copyByte newBuf buf ((buflen : ℤ) - rotate + i) i) inoutbuf

example : xqBytesEnc (DV.ofBytes [1, 2, 3, 4]) 4 0 = .ok (DV.ofBytes [0, 3, 2, 5]) := by decide

example : xqBytesDec (DV.ofBytes [1, 2, 3, 4, 5, 6]) 6 4 = .ok (DV.ofBytes [2, 5, 4, 7, 0, 3]) := by
  decide

end CamReverse
