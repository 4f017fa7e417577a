import Mathlib.Algebra.Order.Field.Basic
import Mathlib.Tactic.Linarith

/-!
# Times that keep a distance

Times of which each comes at least `gap` after the earlier ones: so few of them fit into an interval
(`Spaced.length_le`).
-/

variable {K : Type} [Field K] [LinearOrder K] [IsStrictOrderedRing K]

/-- Each time comes at least `gap` after every earlier one. -/
def Spaced (gap : K) (ts : List K) : Prop := ts.Pairwise fun s t => s + gap ≤ t

namespace Spaced

variable {gap : K} {ts : List K}

omit [IsStrictOrderedRing K] in
theorem nil : Spaced gap [] := List.Pairwise.nil

omit [IsStrictOrderedRing K] in
theorem filter (h : Spaced gap ts) (p : K → Bool) : Spaced gap (ts.filter p) := List.Pairwise.filter p h

omit [IsStrictOrderedRing K] in
theorem snoc (h : Spaced gap ts) {t : K} (ht : ∀ s ∈ ts, s + gap ≤ t) : Spaced gap (ts ++ [t]) :=
  List.pairwise_append.2 ⟨h, List.pairwise_singleton _ _, fun s hs _ hu => List.mem_singleton.1 hu ▸ ht s hs⟩

/-- **An interval** has place for one time more than it is gaps long. -/
theorem length_le (hgap : 0 < gap) (h : Spaced gap ts) {a b : K} (hab : a ≤ b)
    (hts : ∀ t ∈ ts, a ≤ t ∧ t ≤ b) : (ts.length : K) ≤ (b - a) / gap + 1 := by
  induction ts generalizing a with
  | nil =>
    have hpos : 0 ≤ (b - a) / gap := div_nonneg (sub_nonneg.2 hab) hgap.le
    rw [List.length_nil, Nat.cast_zero]
    linarith
  | cons t ts ih =>
    obtain ⟨hfirst, hrest⟩ := List.pairwise_cons.1 h
    obtain ⟨hat, htb⟩ := hts t List.mem_cons_self
    rw [List.length_cons, Nat.cast_succ]
    cases ts with
    | nil =>
      have hpos : 0 ≤ (b - a) / gap := div_nonneg (sub_nonneg.2 hab) hgap.le
      rw [List.length_nil, Nat.cast_zero]
      linarith
    | cons u us =>
      -- the others lie between the first one's gap and the end
      have hub : t + gap ≤ b := (hfirst u List.mem_cons_self).trans (hts u (by simp)).2
      have hlen := ih hrest hub fun s hs => ⟨hfirst s hs, (hts s (List.mem_cons_of_mem _ hs)).2⟩
      have hshift : (b - (t + gap)) / gap + 1 ≤ (b - a) / gap := by
        rw [div_add_one hgap.ne', div_le_div_iff_of_pos_right hgap]
        linarith
      linarith

end Spaced
