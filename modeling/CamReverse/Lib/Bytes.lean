import Mathlib.Data.List.Basic
import Mathlib.Data.Nat.Bitwise

/-!
# Byte strings

Numbers of a fixed width in either byte order, and the index arithmetic of a language whose sequences
count negative indices from the end and clip slices to the sequence: `index?` for one element, `field?`
for a field that must lie inside, `slice` and `setSlice` for slices that need not.
-/

abbrev Bytes := List UInt8

namespace Bytes

/-! ### Numbers -/

/-- `v` in `w` bytes, the low byte first; higher bytes are cut off. -/
def le : ℕ → ℕ → Bytes
  | 0, _ => []
  | w + 1, v => UInt8.ofNat v :: le w (v / 256)

/-- The number whose low byte comes first. -/
def ofLE : Bytes → ℕ
  | [] => 0
  | b :: bs => b.toNat + 256 * ofLE bs

/-- `v` in `w` bytes, the high byte first. -/
def be (w v : ℕ) : Bytes := (le w v).reverse

/-- The number whose high byte comes first. -/
def ofBE (bs : Bytes) : ℕ := ofLE bs.reverse

@[simp] theorem length_le (w v : ℕ) : (le w v).length = w := by
  induction w generalizing v with
  | zero => rfl
  | succ w ih => rw [le, List.length_cons, ih]

@[simp] theorem length_be (w v : ℕ) : (be w v).length = w := by rw [be, List.length_reverse, length_le]

theorem ofLE_le (w v : ℕ) : ofLE (le w v) = v % 256 ^ w := by
  induction w generalizing v with
  | zero => rw [le, ofLE, pow_zero, Nat.mod_one]
  | succ w ih =>
    have hsplit : v % (256 * 256 ^ w) = v % 256 + 256 * (v / 256 % 256 ^ w) := Nat.mod_mul
    have hlow : (UInt8.ofNat v).toNat = v % 256 := UInt8.toNat_ofNat'
    rw [le, ofLE, ih, hlow, Nat.pow_succ', hsplit]

theorem ofBE_be (w v : ℕ) : ofBE (be w v) = v % 256 ^ w := by
  rw [ofBE, be, List.reverse_reverse, ofLE_le]

theorem le_mod (w v : ℕ) : le w (v % 256 ^ w) = le w v := by
  induction w generalizing v with
  | zero => rfl
  | succ w ih =>
    have hlow : UInt8.ofNat (v % 256 ^ (w + 1)) = UInt8.ofNat v := by
      refine UInt8.toNat.inj ?_
      rw [UInt8.toNat_ofNat', UInt8.toNat_ofNat']
      exact Nat.mod_mod_of_dvd v (Dvd.intro_left _ rfl)
    have hhigh : v % 256 ^ (w + 1) / 256 = v / 256 % 256 ^ w := by
      rw [Nat.pow_succ', Nat.mod_mul_right_div_self]
    rw [le, hlow, hhigh, ih, le]

theorem le_ofLE (bs : Bytes) : le bs.length (ofLE bs) = bs := by
  induction bs with
  | nil => rfl
  | cons b bs ih =>
    have hlow : UInt8.ofNat (b.toNat + 256 * ofLE bs) = b := by
      refine UInt8.toNat.inj ?_
      rw [UInt8.toNat_ofNat', Nat.add_mul_mod_self_left, Nat.mod_eq_of_lt b.toNat_lt]
    have hhigh : (b.toNat + 256 * ofLE bs) / 256 = ofLE bs := by
      rw [Nat.add_mul_div_left _ _ (by decide), Nat.div_eq_of_lt b.toNat_lt, Nat.zero_add]
    rw [List.length_cons, ofLE, le, hlow, hhigh, ih]

theorem be_ofBE (bs : Bytes) : be bs.length (ofBE bs) = bs := by
  rw [be, ofBE, ← List.length_reverse, le_ofLE, List.reverse_reverse]

theorem be_mod (w v : ℕ) : be w (v % 256 ^ w) = be w v := by rw [be, le_mod, be]

/-! ### Indices and slices -/

variable {α : Type}

/-- The position an index names in a sequence of length `n`; a negative index counts from the end. -/
def index? (n : ℕ) (i : ℤ) : Option ℕ :=
  let j := if i < 0 then i + n else i
  if 0 ≤ j ∧ j < n then some j.toNat else none

/-- Where a field of `w` elements at index `i` starts, if it lies inside a sequence of length `n`. -/
def field? (n : ℕ) (i : ℤ) (w : ℕ) : Option ℕ :=
  let j := if i < 0 then i + n else i
  if 0 ≤ j ∧ j + w ≤ n then some j.toNat else none

/-- The end of a slice, clipped to a sequence of length `n`. -/
def clip (n : ℕ) (i : ℤ) : ℕ :=
  if i < 0 then (i + n).toNat else min i.toNat n

/-- The slice from `i` up to `j`. -/
def slice (l : List α) (i j : ℤ) : List α := (l.take (clip l.length j)).drop (clip l.length i)

/-- The sequence with the slice from `i` up to `j` replaced by `xs`. -/
def setSlice (l : List α) (i j : ℤ) (xs : List α) : List α :=
  l.take (clip l.length i) ++ xs ++ l.drop (max (clip l.length i) (clip l.length j))

theorem index?_natCast {n k : ℕ} (h : k < n) : index? n k = some k := by
  have hk : ¬(k : ℤ) < 0 := by omega
  simp only [index?, if_neg hk]
  rw [if_pos (by omega), Int.toNat_natCast]

theorem index?_lt {n k : ℕ} {i : ℤ} (h : index? n i = some k) : k < n := by
  simp only [index?] at h
  split_ifs at h with hsign hin hin <;> simp only [Option.some.injEq] at h <;> omega

theorem index?_natCast_none {n k : ℕ} (h : n ≤ k) : index? n k = none := by
  have hk : ¬(k : ℤ) < 0 := by omega
  simp only [index?, if_neg hk]
  rw [if_neg (by omega)]

theorem field?_natCast {n k w : ℕ} (h : k + w ≤ n) : field? n k w = some k := by
  have hk : ¬(k : ℤ) < 0 := by omega
  simp only [field?, if_neg hk]
  rw [if_pos (by omega), Int.toNat_natCast]

theorem field?_natCast_none {n k w : ℕ} (h : n < k + w) : field? n k w = none := by
  have hk : ¬(k : ℤ) < 0 := by omega
  simp only [field?, if_neg hk]
  rw [if_neg (by omega)]

theorem clip_natCast (n k : ℕ) : clip n k = min k n := by
  have hk : ¬(k : ℤ) < 0 := by omega
  rw [clip, if_neg hk, Int.toNat_natCast]

theorem clip_of_field? {n w k : ℕ} {i : ℤ} (hw : 0 < w) (h : field? n i w = some k) : clip n i = k := by
  simp only [field?] at h
  rw [clip]
  split_ifs at h ⊢ <;> simp only [Option.some.injEq] at h <;> omega

theorem slice_natCast (l : List α) (k m : ℕ) : slice l k (k + m) = (l.drop k).take m := by
  rw [slice, clip_natCast, show ((k : ℤ) + m) = ((k + m : ℕ) : ℤ) by push_cast; rfl, clip_natCast,
    List.drop_take]
  rcases Nat.le_total l.length k with h | h
  · rw [min_eq_right h, List.drop_length, List.drop_of_length_le h, List.take_nil, List.take_nil]
  · rw [min_eq_left h, List.take_eq_take_iff, List.length_drop]
    omega

theorem slice_end {xs ys : List α} {n : ℕ} (hn : ys.length = n) (hpos : 0 < n) :
    slice (xs ++ ys) (-n) (xs ++ ys).length = ys ∧ slice (xs ++ ys) 0 (-n) = xs := by
  have hlen : (xs ++ ys).length = xs.length + n := by rw [List.length_append, hn]
  have hcut : clip (xs ++ ys).length (-n) = xs.length := by
    rw [clip, if_pos (by omega), hlen]
    omega
  constructor
  · rw [slice, hcut, clip_natCast, min_self, List.take_length, List.drop_left]
  · have hzero : clip (xs ++ ys).length 0 = 0 := by rw [clip, if_neg (by omega)]; simp
    rw [slice, hcut, hzero, List.take_left, List.drop_zero]

theorem length_slice_le (l : List α) (i : ℤ) (w : ℕ) : (slice l i (i + w)).length ≤ w := by
  rw [slice, List.length_drop, List.length_take]
  unfold clip
  split_ifs <;> omega

def padded (w : ℕ) (bs : Bytes) : Bytes := bs ++ List.replicate (w - bs.length) 0

theorem padded_whole {w : ℕ} {bs : Bytes} (h : bs.length = w) : padded w bs = bs := by
  rw [padded, h, Nat.sub_self, List.replicate_zero, List.append_nil]

theorem length_padded {w : ℕ} {bs : Bytes} (h : bs.length ≤ w) : (padded w bs).length = w := by
  rw [padded, List.length_append, List.length_replicate, Nat.add_sub_cancel' h]

theorem takeWhile_padded {bs : Bytes} (h : ∀ b ∈ bs, b ≠ 0) (w : ℕ) :
    (padded w bs).takeWhile (· ≠ 0) = bs := by
  rw [padded, List.takeWhile_append_of_pos fun b hb => decide_eq_true (h b hb),
    List.takeWhile_replicate, if_neg (by decide), List.append_nil]

/-! ### Fields -/

/-- The `w` elements from `k` on. -/
def field (l : List α) (k w : ℕ) : List α := (l.drop k).take w

/-- `l` with `xs` written over it from `k` on. -/
def put (l : List α) (k : ℕ) (xs : List α) : List α := l.take k ++ xs ++ l.drop (k + xs.length)

theorem setSlice_natCast (l : List α) (k : ℕ) (xs : List α) :
    setSlice l k (k + xs.length) xs = put l k xs := by
  rw [setSlice, clip_natCast, show ((k : ℤ) + xs.length) = ((k + xs.length : ℕ) : ℤ) by push_cast; rfl,
    clip_natCast, put]
  rcases Nat.le_total (k + xs.length) l.length with hle | hle
  · rw [min_eq_left hle, min_eq_left (by omega), max_eq_right (Nat.le_add_right k _)]
  · rw [min_eq_right hle, max_eq_right (min_le_right _ _), List.drop_length, List.drop_of_length_le hle]
    rcases Nat.le_total k l.length with hk | hk
    · rw [min_eq_left hk]
    · rw [min_eq_right hk, List.take_length, List.take_of_length_le hk]

theorem set_eq_put {l : List α} {k : ℕ} (h : k < l.length) (a : α) : l.set k a = put l k [a] := by
  rw [List.set_eq_take_append_cons_drop, if_pos h, put, List.append_assoc]
  rfl

theorem length_le_length_put (l : List α) (k : ℕ) (xs : List α) : l.length ≤ (put l k xs).length := by
  rw [put, List.length_append, List.length_append, List.length_take, List.length_drop]
  omega

theorem length_field {l : List α} {k w : ℕ} (h : k + w ≤ l.length) : (field l k w).length = w := by
  rw [field, List.length_take, List.length_drop]
  omega

theorem getElem?_of_field {l : List α} {k : ℕ} {a : α} (h : field l k 1 = [a]) : l[k]? = some a := by
  have hhead := congrArg List.head? h
  rwa [field, List.head?_take, if_neg Nat.one_ne_zero, List.head?_drop] at hhead

theorem field_put_self {l : List α} {k : ℕ} (h : k ≤ l.length) (xs : List α) :
    field (put l k xs) k xs.length = xs := by
  have hk : (l.take k).length = k := List.length_take_of_le h
  rw [field, put, List.append_assoc, List.drop_left' hk, List.take_left' rfl]

theorem field_put_before {l : List α} {j w k : ℕ} (hk : j + w ≤ k) (h : j + w ≤ l.length) (xs : List α) :
    field (put l k xs) j w = field l j w := by
  have hlen : (l.take k).length = min k l.length := List.length_take
  rw [field, put, List.append_assoc, List.drop_append_of_le_length (by omega),
    List.take_append_of_le_length (by rw [List.length_drop]; omega), List.drop_take, List.take_take,
    min_eq_left (by omega), field]

theorem length_put {l : List α} {k : ℕ} {xs : List α} (h : k + xs.length ≤ l.length) :
    (put l k xs).length = l.length := by
  rw [put, List.length_append, List.length_append, List.length_take, List.length_drop]
  omega

theorem getElem?_put_outside {l : List α} {k i : ℕ} {xs : List α} (h : k + xs.length ≤ l.length)
    (hi : i < k ∨ k + xs.length ≤ i) : (put l k xs)[i]? = l[i]? := by
  have hk : (l.take k).length = k := List.length_take_of_le (by omega)
  have hend : (l.take k ++ xs).length = k + xs.length := by rw [List.length_append, hk]
  rcases hi with hi | hi
  · rw [put, List.append_assoc, List.getElem?_append_left (by omega), List.getElem?_take_of_lt hi]
  · rw [put, List.getElem?_append_right (by omega), hend, List.getElem?_drop, Nat.add_sub_cancel' hi]

theorem put_append {l : List α} {k : ℕ} {xs ys : List α} (h : k + xs.length ≤ l.length) :
    put (put l k xs) (k + xs.length) ys = put l k (xs ++ ys) := by
  have hk : (l.take k ++ xs).length = k + xs.length := by
    rw [List.length_append, List.length_take_of_le (by omega)]
  have htake : (put l k xs).take (k + xs.length) = l.take k ++ xs := List.take_left' hk
  have hdrop : (put l k xs).drop (k + xs.length + ys.length) = l.drop (k + (xs ++ ys).length) := by
    rw [← List.drop_drop, put, List.drop_left' hk, List.drop_drop, List.length_append, Nat.add_assoc]
  rw [put, htake, hdrop, put, List.append_assoc (l.take k)]

theorem put_halves {l xs ys : List α} {k : ℕ} (h : k + xs.length + ys.length ≤ l.length) :
    put (put l (k + xs.length) ys) k xs = put l k (xs ++ ys) := by
  have hxs : (l.take (k + xs.length)).length = k + xs.length := List.length_take_of_le (by omega)
  have htake : (put l (k + xs.length) ys).take k = l.take k := by
    rw [put, List.append_assoc, List.take_append_of_le_length (by omega), List.take_take,
      min_eq_left (Nat.le_add_right k _)]
  have hdrop : (put l (k + xs.length) ys).drop (k + xs.length) = ys ++ l.drop (k + (xs ++ ys).length) := by
    rw [put, List.append_assoc, List.drop_left' hxs, List.length_append, Nat.add_assoc]
  rw [put, htake, hdrop, put]
  simp only [List.append_assoc]

theorem put_whole {l xs : List α} (h : xs.length = l.length) : put l 0 xs = xs := by
  rw [put, List.take_zero, Nat.zero_add, List.drop_of_length_le h.ge, List.append_nil, List.nil_append]

theorem map_field {β : Type} (f : α → β) (l : List α) (k w : ℕ) :
    (field l k w).map f = field (l.map f) k w := by
  rw [field, List.map_take, List.map_drop, field]

theorem put_nil (l : List α) (k : ℕ) : put l k [] = l := by
  rw [put, List.append_nil, List.length_nil, Nat.add_zero, List.take_append_drop]

theorem put_blank {xs bs : List α} {k m : ℕ} (hk : xs.length = k) (a : α) :
    put (xs ++ List.replicate m a) k bs = (xs ++ bs) ++ List.replicate (m - bs.length) a := by
  rw [put, List.take_left' hk, ← List.drop_drop, List.drop_left' hk, List.drop_replicate]

theorem field_succ {l : List α} {k w : ℕ} {a : α} (h : l[k + w]? = some a) :
    field l k (w + 1) = field l k w ++ [a] := by
  have hdrop : (l.drop k)[w]? = some a := by rw [List.getElem?_drop, h]
  rw [field, field, List.take_add_one, hdrop]
  rfl

theorem field_halves {l : List α} {k w : ℕ} (h : l.length = k + w) : field l 0 k ++ field l k w = l := by
  have hback : field l k w = l.drop k := List.take_of_length_le (by rw [List.length_drop]; omega)
  rw [hback]
  exact List.take_append_drop k l

theorem field_append {xs bs ys : List α} {k w : ℕ} (hk : xs.length = k) (hw : bs.length = w) :
    field (xs ++ (bs ++ ys)) k w = bs := by
  rw [field, List.drop_left' hk, List.take_left' hw]

theorem field_append_right {xs ys : List α} {n : ℕ} (hn : xs.length = n) (k w : ℕ) :
    field (xs ++ ys) (n + k) w = field ys k w := by
  rw [field, ← List.drop_drop, List.drop_left' hn, field]

theorem field_flatten {front back : List (List α)} {f : List α} {k w : ℕ} (hk : front.flatten.length = k)
    (hw : f.length = w) : field (front ++ f :: back).flatten k w = f := by
  rw [List.flatten_append, List.flatten_cons]
  exact field_append hk hw

theorem put_put {l : List α} {k : ℕ} {xs ys : List α} (hlen : xs.length = ys.length) (h : k ≤ l.length) :
    put (put l k xs) k ys = put l k ys := by
  have hk : (l.take k).length = k := List.length_take_of_le h
  have htake : (put l k xs).take k = l.take k := by
    rw [put, List.append_assoc, List.take_left' hk]
  have hdrop : (put l k xs).drop (k + xs.length) = l.drop (k + xs.length) := by
    rw [put, List.drop_left' (by rw [List.length_append, hk])]
  rw [put, htake, ← hlen, hdrop, hlen, put]

theorem put_field {l : List α} {k w : ℕ} (h : k + w ≤ l.length) : put l k (field l k w) = l := by
  rw [put, length_field h, field, List.append_assoc, ← List.drop_drop, List.take_append_drop,
    List.take_append_drop]

end Bytes
