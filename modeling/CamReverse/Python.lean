import CamReverse.Lib.Bytes
import CamReverse.Lib.Table
import Mathlib.Data.Rat.Defs

/-!
# The Python values and exceptions the program relies on

`PyErr` names the exceptions its code can raise; `other` stands for whatever a caller's own callback
raises. `PyVal` is a value read from YAML or JSON. A mapping key that is not a string equals no key the
program looks up, so keys are strings.
-/

namespace CamReverse

inductive PyErr where
  | indexError
  | structError
  | valueError
  | unicodeError
  | keyError
  | typeError
  | attributeError
  | other (name : String)
  deriving DecidableEq, Repr

/-- A value read from YAML or JSON. -/
inductive PyVal where
  | none
  | bool (b : Bool)
  | int (i : ℤ)
  | float (q : ℚ)
  | str (s : String)
  | list (xs : List PyVal)
  | dict (kvs : List (String × PyVal))

namespace PyVal

/-- The value in a condition. -/
def truthy : PyVal → Bool
  | .none => false
  | .bool b => b
  | .int i => i != 0
  | .float q => q != 0
  | .str s => s != ""
  | .list xs => !xs.isEmpty
  | .dict kvs => !kvs.isEmpty

/-- `v.get(k, default)`; only mappings have `get`. -/
def get (v : PyVal) (k : String) (default : PyVal) : Except PyErr PyVal :=
  match v with
  | .dict kvs => .ok ((kvs.lookup k).getD default)
  | _ => .error .attributeError

/-- `isinstance(v, dict)`. -/
def isDict : PyVal → Bool
  | .dict _ => true
  | _ => false

theorem isDict_iff {v : PyVal} : v.isDict = true ↔ ∃ kvs, v = .dict kvs := by
  cases v with
  | dict kvs => exact iff_of_true rfl ⟨kvs, rfl⟩
  | _ => exact iff_of_false Bool.false_ne_true (by rintro ⟨_, ⟨⟩⟩)

/-- `v` as a list index: whole numbers and booleans only. -/
def asIndex : PyVal → Except PyErr ℤ
  | .int i => .ok i
  | .bool b => .ok (if b then 1 else 0)
  | _ => .error .typeError

/-- What a loop over `v` goes through. -/
def items : PyVal → Except PyErr (List PyVal)
  | .str s => .ok (s.toList.map fun c => .str (String.singleton c))
  | .list xs => .ok xs
  | .dict kvs => .ok (kvs.map fun kv => .str kv.1)
  | _ => .error .typeError

end PyVal

/-- What a set or the keys of a mapping tell apart: numbers and booleans are the same key if they are equal. -/
inductive PyKey where
  | none
  | number (q : ℚ)
  | str (s : String)
  deriving DecidableEq

/-- `v` as a key; a list or a mapping is not hashable. -/
def PyVal.key : PyVal → Except PyErr PyKey
  | .none => .ok .none
  | .bool b => .ok (.number (if b then 1 else 0))
  | .int i => .ok (.number i)
  | .float q => .ok (.number q)
  | .str s => .ok (.str s)
  | .list _ => .error .typeError
  | .dict _ => .error .typeError

/-- How writing to a file goes. `open` may fail with an `OSError` of this text, and so may a write behind it, once the old
contents are gone; `left` says what the file is left with. -/
inductive Writing (Left : Type) where
  | whole
  | refused (text : String)
  | broken (left : Left) (text : String)

/-- `bytes.decode("latin-1")`. -/
def decodeLatin1 (bs : Bytes) : String := String.ofList (bs.map fun b => Char.ofNat b.toNat)

/-- `str.encode("latin-1")`. -/
def encodeLatin1 (s : String) : Except PyErr Bytes :=
  s.toList.mapM fun c => if c.toNat < 256 then .ok (UInt8.ofNat c.toNat) else .error .unicodeError

/-- `str.encode()` of a string of ASCII characters. -/
def encodeAscii (s : String) : Bytes := s.toList.map fun c => UInt8.ofNat c.toNat

/-! ### Latin-1 -/

theorem toNat_latin1 (b : UInt8) : (Char.ofNat b.toNat).toNat = b.toNat := by
  have hb := b.toNat_lt
  have hvalid : b.toNat.isValidChar := .inl (by omega)
  rw [Char.ofNat, dif_pos hvalid]
  rfl

theorem encodeLatin1_decodeLatin1 (bs : Bytes) : encodeLatin1 (decodeLatin1 bs) = .ok bs := by
  rw [encodeLatin1, decodeLatin1, String.toList_ofList]
  induction bs with
  | nil => rfl
  | cons b bs ih =>
    rw [List.map_cons, List.mapM_cons, ih, toNat_latin1, if_pos b.toNat_lt, UInt8.ofNat_toNat]
    rfl

theorem decodeLatin1_encodeLatin1 {s : String} {bs : Bytes} (h : encodeLatin1 s = .ok bs) :
    decodeLatin1 bs = s := by
  rw [encodeLatin1] at h
  rw [decodeLatin1, ← String.toList_inj, String.toList_ofList]
  generalize s.toList = cs at h
  induction cs generalizing bs with
  | nil =>
    obtain rfl := Except.ok.inj h
    rfl
  | cons c cs ih =>
    rw [List.mapM_cons] at h
    by_cases hc : c.toNat < 256
    · rw [if_pos hc] at h
      cases hcs : cs.mapM fun c =>
          if c.toNat < 256 then Except.ok (UInt8.ofNat c.toNat) else .error PyErr.unicodeError with
      | error e =>
        rw [hcs] at h
        cases h
      | ok bs' =>
        rw [hcs] at h
        obtain rfl := Except.ok.inj h
        rw [List.map_cons, ih hcs, UInt8.toNat_ofNat_of_lt' hc, Char.ofNat_toNat]
    · rw [if_neg hc] at h
      cases h

theorem length_encodeLatin1 {s : String} {bs : Bytes} (h : encodeLatin1 s = .ok bs) :
    bs.length = s.length := by
  rw [← decodeLatin1_encodeLatin1 h, decodeLatin1, String.length_ofList, List.length_map]

theorem exists_encodeLatin1 {s : String} (h : ∀ c ∈ s.toList, c.toNat < 256) :
    ∃ bs, encodeLatin1 s = .ok bs := by
  refine ⟨s.toList.map fun c => UInt8.ofNat c.toNat, ?_⟩
  have hs : decodeLatin1 (s.toList.map fun c => UInt8.ofNat c.toNat) = s := by
    rw [decodeLatin1, List.map_map, ← String.toList_inj, String.toList_ofList]
    refine Eq.trans (List.map_congr_left fun c hc => ?_) (List.map_id _)
    show Char.ofNat (UInt8.ofNat c.toNat).toNat = c
    rw [UInt8.toNat_ofNat_of_lt' (h c hc), Char.ofNat_toNat]
  conv_lhs => rw [← hs]
  exact encodeLatin1_decodeLatin1 _

end CamReverse
