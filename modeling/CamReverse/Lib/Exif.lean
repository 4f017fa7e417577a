import CamReverse.Lib.Bytes
import CamReverse.Lib.Picture

/-!
# Orientations

A picture file says in a TIFF directory, in an EXIF segment behind its start marker, on which sides of the shown picture
the first row and the first column of the stored one are.
-/

/-- What is shown of a stored picture. -/
def Picture.shown {α : Type} (p : Picture α) : ℕ → Option (Picture α)
  -- the first row is at the top or at the bottom, the first column on the left or on the right
  | 1 => some ⟨p.height, p.width, fun r c => p.pixel r c⟩
  | 2 => some ⟨p.height, p.width, fun r c => p.pixel r c.rev⟩
  | 3 => some ⟨p.height, p.width, fun r c => p.pixel r.rev c.rev⟩
  | 4 => some ⟨p.height, p.width, fun r c => p.pixel r.rev c⟩
  -- the first row is on the left or on the right, the first column at the top or at the bottom
  | 5 => some ⟨p.width, p.height, fun r c => p.pixel c r⟩
  | 6 => some ⟨p.width, p.height, fun r c => p.pixel c.rev r⟩
  | 7 => some ⟨p.width, p.height, fun r c => p.pixel c.rev r.rev⟩
  | 8 => some ⟨p.width, p.height, fun r c => p.pixel c r.rev⟩
  | _ => none

namespace Exif

open Bytes

/-- The byte order at the front of a TIFF file. -/
def byteOrder : Bytes → Option (Bytes → ℕ)
  | 0x49 :: 0x49 :: _ => some ofLE
  | 0x4D :: 0x4D :: _ => some ofBE
  | _ => none

/-- The number in `w` bytes. -/
def numberAt (number : Bytes → ℕ) (tiff : Bytes) (k w : ℕ) : Option ℕ :=
  if k + w ≤ tiff.length then some (number (field tiff k w)) else none

def entriesAt (number : Bytes → ℕ) (tiff : Bytes) (k : ℕ) : Option (List Bytes) := do
  let count ← numberAt number tiff k 2
  let _next ← numberAt number tiff (k + 2 + 12 * count) 4
  return (List.range count).map fun i => field tiff (k + 2 + 12 * i) 12

/-- The value of an entry, if that is one `SHORT` with the tag of the orientation. -/
def orientationOf (number : Bytes → ℕ) (entry : Bytes) : Option ℕ :=
  if number (field entry 0 2) = 0x0112 ∧ number (field entry 2 2) = 3 ∧ number (field entry 4 4) = 1 then
    some (number (field entry 8 2))
  else none

def tiffOrientation (tiff : Bytes) : Option ℕ := do
  let number ← byteOrder tiff
  let magic ← numberAt number tiff 2 2
  let k ← numberAt number tiff 4 4
  if magic = 42 then (← entriesAt number tiff k).findSome? (orientationOf number) else none

/-- The orientation of a picture file whose first segment is EXIF, and the file without this segment. -/
def read : Bytes → Option (ℕ × Bytes)
  | 0xFF :: 0xD8 :: 0xFF :: 0xE1 :: segment =>
    let len := ofBE (segment.take 2)
    let payload := field segment 2 (len - 2)
    if payload.length + 2 = len ∧ payload.take 6 = [0x45, 0x78, 0x69, 0x66, 0x00, 0x00] then
      (tiffOrientation (payload.drop 6)).map fun orientation =>
        (orientation, 0xFF :: 0xD8 :: segment.drop len)
    else none
  | _ => none

end Exif
