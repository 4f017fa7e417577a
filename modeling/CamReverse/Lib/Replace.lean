import Mathlib.Algebra.GroupWithZero.Nat
import Mathlib.Data.List.Infix

/-!
# Replacing a word

`replace old new s` replaces the occurrences of `old` from the left to the right; what it puts in is not read again.
It leaves `s` alone exactly if `old` does not occur or is `new` (`replace_eq_self_iff`), and works on the two parts
of a text separately when no occurrence can lie across the cut (`replace_append_left`, `replace_append_right`). What
it does to the sum of any weights of the characters follows from the number of replacements alone (`exists_count`).
-/

namespace Replace

variable {α : Type} [DecidableEq α]

/-- The replacement in what comes behind the next `k` characters, which are dropped. -/
def replaceFrom (old new : List α) : ℕ → List α → List α
  | _, [] => []
  | k + 1, _ :: s => replaceFrom old new k s
  | 0, c :: s => if old <+: c :: s then new ++ replaceFrom old new (old.length - 1) s
      else c :: replaceFrom old new 0 s

/-- The text with the occurrences of `old` replaced by `new`. -/
def replace (old new s : List α) : List α := replaceFrom old new 0 s

theorem replaceFrom_eq (old new : List α) (k : ℕ) (s : List α) :
    replaceFrom old new k s = replace old new (s.drop k) := by
  induction s generalizing k with
  | nil => rw [List.drop_nil, replace, replaceFrom, replaceFrom]
  | cons c s ih =>
    cases k with
    | zero => rfl
    | succ k => rw [replaceFrom, ih, List.drop_succ_cons]

variable {old new : List α}

@[simp] theorem replace_nil : replace old new [] = [] := by rw [replace, replaceFrom]

theorem replace_occurrence (hold : old ≠ []) (s : List α) : replace old new (old ++ s) = new ++ replace old new s := by
  obtain ⟨c, rest, rfl⟩ := List.exists_cons_of_ne_nil hold
  have hfirst : c :: rest <+: c :: (rest ++ s) := List.prefix_append (c :: rest) s
  rw [replace, List.cons_append, replaceFrom, if_pos hfirst, replaceFrom_eq, List.length_cons, Nat.add_sub_cancel,
    List.drop_left]

theorem replace_cons {c : α} {s : List α} (h : ¬old <+: c :: s) :
    replace old new (c :: s) = c :: replace old new s := by
  rw [replace, replaceFrom, if_neg h]
  rfl

theorem induction_on {motive : List α → Prop} (hold : old ≠ []) (s : List α) (hnil : motive [])
    (hoccurrence : ∀ s, motive s → motive (old ++ s))
    (hcons : ∀ c s, ¬old <+: c :: s → motive s → motive (c :: s)) : motive s := by
  induction hlen : s.length using Nat.strong_induction_on generalizing s with
  | _ n ih =>
    subst hlen
    by_cases hfirst : old <+: s
    · obtain ⟨rest, rfl⟩ := hfirst
      have hpos := List.length_pos_iff.2 hold
      exact hoccurrence rest (ih rest.length (by rw [List.length_append]; omega) rest rfl)
    · cases s with
      | nil => exact hnil
      | cons c s => exact hcons c s hfirst (ih s.length (Nat.lt_succ_self _) s rfl)

/-! ### When nothing is replaced -/

theorem replace_of_absent {s : List α} (h : ¬old <:+: s) : replace old new s = s := by
  induction s with
  | nil => exact replace_nil
  | cons c s ih =>
    rw [replace_cons fun hfirst => h hfirst.isInfix, ih fun hrest => h (List.infix_cons hrest)]

theorem replace_self (hold : old ≠ []) (s : List α) : replace old old s = s := by
  induction s using induction_on hold with
  | hnil => exact replace_nil
  | hoccurrence s ih => rw [replace_occurrence hold, ih]
  | hcons c s hfirst ih => rw [replace_cons hfirst, ih]

theorem exists_count (hold : old ≠ []) (new s : List α) :
    ∃ k : ℕ, (k = 0 ↔ ¬old <:+: s) ∧ ∀ f : α → ℕ,
      ((replace old new s).map f).sum + k * (old.map f).sum = (s.map f).sum + k * (new.map f).sum := by
  induction s using induction_on hold with
  | hnil => exact ⟨0, iff_of_true rfl fun h => hold (List.infix_nil.1 h), fun f => by rw [replace_nil]; omega⟩
  | hoccurrence s ih =>
    obtain ⟨k, -, hsum⟩ := ih
    refine ⟨k + 1, iff_of_false (Nat.succ_ne_zero k) (not_not.2 (List.prefix_append old s).isInfix), fun f => ?_⟩
    have hf := hsum f
    rw [replace_occurrence hold, List.map_append, List.map_append, List.sum_append, List.sum_append, Nat.succ_mul,
      Nat.succ_mul]
    omega
  | hcons c s hfirst ih =>
    obtain ⟨k, hk, hsum⟩ := ih
    refine ⟨k, hk.trans (not_congr ⟨List.infix_cons, fun h => ?_⟩), fun f => ?_⟩
    · exact (List.infix_cons_iff.1 h).resolve_left hfirst
    · have hf := hsum f
      rw [replace_cons hfirst, List.map_cons, List.map_cons, List.sum_cons, List.sum_cons]
      omega

theorem replace_eq_self_iff (hold : old ≠ []) (s : List α) :
    replace old new s = s ↔ ¬old <:+: s ∨ new = old := by
  constructor
  · intro h
    by_cases hoccurs : old <:+: s
    · refine .inr ?_
      obtain ⟨k, hk, hsum⟩ := exists_count hold new s
      have hlen := hsum fun _ => 1
      have hpos : 0 < k := Nat.pos_of_ne_zero fun h0 => hk.1 h0 hoccurs
      rw [h] at hlen
      simp only [List.map_const', List.sum_replicate_nat, Nat.mul_one, Nat.add_left_cancel_iff] at hlen
      have hsame : new.length = old.length := (Nat.eq_of_mul_eq_mul_left hpos hlen).symm
      clear hk hsum hlen
      induction s using induction_on hold with
      | hnil => exact absurd (List.infix_nil.1 hoccurs) hold
      | hoccurrence s ih =>
        rw [replace_occurrence hold] at h
        exact (List.append_inj h hsame).1
      | hcons c s hfirst ih =>
        rw [replace_cons hfirst] at h
        exact ih (List.cons.inj h).2 ((List.infix_cons_iff.1 hoccurs).resolve_left hfirst)
    · exact .inl hoccurs
  · rintro (h | rfl)
    · exact replace_of_absent h
    · exact replace_self hold s

/-! ### Texts in two parts -/

theorem replace_append_left {c : α} {rest x : List α} (hx : c ∉ x) (y : List α) :
    replace (c :: rest) new (x ++ y) = x ++ replace (c :: rest) new y := by
  induction x with
  | nil => rfl
  | cons a x ih =>
    rw [List.mem_cons, not_or] at hx
    have hfirst : ¬c :: rest <+: a :: (x ++ y) := fun h => hx.1 (List.cons_prefix_cons.1 h).1
    rw [List.cons_append, replace_cons hfirst, ih hx.2, List.cons_append]

theorem replace_append_right {c : α} {rest y : List α} (hy : ∀ a ∈ y.head?, a ∉ rest) (x : List α) :
    replace (c :: rest) new (x ++ y) = replace (c :: rest) new x ++ replace (c :: rest) new y := by
  have hold : c :: rest ≠ [] := List.cons_ne_nil c rest
  induction x using induction_on hold with
  | hnil => rw [replace_nil, List.nil_append, List.nil_append]
  | hoccurrence x ih => rw [List.append_assoc, replace_occurrence hold, replace_occurrence hold, ih, List.append_assoc]
  | hcons a x hfirst ih =>
    have hacross : ¬c :: rest <+: a :: (x ++ y) := by
      rintro ⟨z, hz⟩
      rw [← List.cons_append] at hz
      rcases List.append_eq_append_iff.1 hz with ⟨b, hb, -⟩ | ⟨b, hb, hyb⟩
      · exact hfirst ⟨b, hb.symm⟩
      · cases b with
        | nil =>
          rw [List.append_nil] at hb
          exact hfirst ⟨[], by rw [hb, List.append_nil]⟩
        | cons d b =>
          have hd : d ∈ rest := by
            rw [List.cons_append] at hb
            rw [(List.cons.inj hb).2]
            exact List.mem_append_right x List.mem_cons_self
          exact hy d (by rw [hyb]; rfl) hd
    rw [List.cons_append, replace_cons hacross, replace_cons hfirst, ih, List.cons_append]

end Replace
