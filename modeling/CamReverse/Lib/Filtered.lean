import Mathlib.Data.List.Basic

/-!
# Places in a filtered list

`rank p l k` is the place an element at the place `k` of `l` has among the elements that meet `p`.
-/

namespace Filtered

variable {α : Type} (p : α → Bool)

/-- The number of elements before the place `k` that meet `p`. -/
def rank : List α → ℕ → ℕ
  | [], _ => 0
  | _ :: _, 0 => 0
  | a :: l, k + 1 => (if p a then 1 else 0) + rank l k

variable {p}

theorem getElem?_rank {l : List α} {k : ℕ} {a : α} (h : l[k]? = some a) (ha : p a = true) :
    (l.filter p)[rank p l k]? = some a := by
  induction l generalizing k with
  | nil => cases h
  | cons b l ih =>
    cases k with
    | zero =>
      obtain rfl := Option.some.inj h
      rw [List.filter_cons_of_pos ha]
      rfl
    | succ k =>
      rw [List.filter_cons, rank]
      split_ifs with hb
      · rw [Nat.add_comm]
        exact ih h
      · rw [Nat.zero_add]
        exact ih h

theorem filter_set {l : List α} {k : ℕ} {a b : α} (h : l[k]? = some a) (hb : p b = p a) :
    (l.set k b).filter p = if p a then (l.filter p).set (rank p l k) b else l.filter p := by
  induction l generalizing k with
  | nil => cases h
  | cons c l ih =>
    cases k with
    | zero =>
      obtain rfl := Option.some.inj h
      rw [List.set_cons_zero, List.filter_cons, List.filter_cons, hb]
      cases p c <;> rfl
    | succ k =>
      rw [List.set_cons_succ, List.filter_cons, List.filter_cons, rank, ih h]
      cases p c <;> cases p a <;> simp [Nat.add_comm]

theorem rank_set {l : List α} {k : ℕ} {a b : α} (h : l[k]? = some a) (hb : p b = p a) (j : ℕ) :
    rank p (l.set k b) j = rank p l j := by
  induction l generalizing k j with
  | nil => rfl
  | cons c l ih =>
    cases k with
    | zero =>
      obtain rfl := Option.some.inj h
      cases j with
      | zero => rfl
      | succ j => rw [List.set_cons_zero, rank, rank, hb]
    | succ k =>
      cases j with
      | zero => rfl
      | succ j => rw [List.set_cons_succ, rank, rank, ih h]

theorem rank_append {l : List α} {k : ℕ} (hk : k ≤ l.length) (l' : List α) : rank p (l ++ l') k = rank p l k := by
  induction l generalizing k with
  | nil =>
    obtain rfl := Nat.le_zero.1 hk
    cases l' <;> rfl
  | cons a l ih =>
    cases k with
    | zero => rfl
    | succ k => rw [List.cons_append, rank, rank, ih (Nat.le_of_succ_le_succ hk)]

theorem rank_length (l l' : List α) : rank p (l ++ l') l.length = (l.filter p).length := by
  induction l with
  | nil => cases l' <;> rfl
  | cons a l ih =>
    rw [List.cons_append, List.length_cons, rank, ih, List.filter_cons]
    split_ifs
    · rw [List.length_cons, Nat.add_comm]
    · rw [Nat.zero_add]

end Filtered
