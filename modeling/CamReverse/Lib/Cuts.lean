import Mathlib.Data.List.Basic

/-!
# Words cut in three

A word can be cut into a front, a middle and a back in several ways. Two different cuts of one word have their
middles at different places of it, and there are three ways in which these can lie (`Shifted`): one inside the other,
one overlapping the end of the other, or one behind the other. So two cuts are of the same word exactly if they are
equal or shifted against each other (`text_eq_iff`).
-/

/-- A word cut in three. -/
@[ext]
structure Cut (α : Type) where
  front : List α
  mid : List α
  back : List α
  deriving DecidableEq

namespace Cut

variable {α : Type}

def text (c : Cut α) : List α := c.front ++ c.mid ++ c.back

/-- The middle of the second cut of the word lies further behind or inside that of the first. -/
inductive Shifted : Cut α → Cut α → Prop where
  | inside (front x mid z back : List α) (h : x ≠ [] ∨ z ≠ []) :
      Shifted ⟨front, x ++ mid ++ z, back⟩ ⟨front ++ x, mid, z ++ back⟩
  | overlap (front x y z back : List α) (hx : x ≠ []) (hz : z ≠ []) :
      Shifted ⟨front, x ++ y, z ++ back⟩ ⟨front ++ x, y ++ z, back⟩
  | behind (front mid t mid' back : List α) :
      Shifted ⟨front, mid, t ++ mid' ++ back⟩ ⟨front ++ mid ++ t, mid', back⟩

theorem Shifted.text_eq {c c' : Cut α} (h : Shifted c c') : c.text = c'.text := by
  cases h with
  | inside front x mid z back h => simp only [text, List.append_assoc]
  | overlap front x y z back hx hz => simp only [text, List.append_assoc]
  | behind front mid t mid' back => simp only [text, List.append_assoc]

theorem Shifted.ne {c c' : Cut α} (hmid : c.mid ≠ []) (h : Shifted c c') : c ≠ c' := by
  intro hsame
  cases h with
  | inside front x mid z back h =>
    obtain ⟨hfront, hmids, -⟩ := Cut.mk.inj hsame
    have hx : x = [] := List.self_eq_append_right.1 hfront
    rw [hx, List.nil_append] at hmids
    exact h.elim (· hx) (· (List.append_right_eq_self.1 hmids))
  | overlap front x y z back hx hz => exact hx (List.self_eq_append_right.1 (Cut.mk.inj hsame).1)
  | behind front mid t mid' back =>
    have hfront := (Cut.mk.inj hsame).1
    rw [List.append_assoc] at hfront
    exact hmid (List.append_eq_nil_iff.1 (List.self_eq_append_right.1 hfront)).1

theorem eq_or_inside (front x mid z back : List α) :
    (⟨front, x ++ mid ++ z, back⟩ : Cut α) = ⟨front ++ x, mid, z ++ back⟩ ∨
      Shifted ⟨front, x ++ mid ++ z, back⟩ ⟨front ++ x, mid, z ++ back⟩ := by
  by_cases h : x ≠ [] ∨ z ≠ []
  · exact .inr (.inside front x mid z back h)
  · obtain ⟨rfl, rfl⟩ : x = [] ∧ z = [] := by simpa only [ne_eq, not_or, not_not] using h
    exact .inl (by simp)

theorem shifted_of_front {front x mid back mid' back' : List α} (h : mid ++ back = x ++ (mid' ++ back')) :
    (⟨front, mid, back⟩ : Cut α) = ⟨front ++ x, mid', back'⟩ ∨
      Shifted ⟨front, mid, back⟩ ⟨front ++ x, mid', back'⟩ ∨
        Shifted ⟨front ++ x, mid', back'⟩ ⟨front, mid, back⟩ := by
  rcases List.append_eq_append_iff.1 h with ⟨t, rfl, rfl⟩ | ⟨y, rfl, hends⟩
  · have hshift := Shifted.behind front mid t mid' back'
    rw [List.append_assoc, List.append_assoc] at hshift
    exact .inr (.inl hshift)
  · rcases List.append_eq_append_iff.1 hends with ⟨z, rfl, rfl⟩ | ⟨z, rfl, rfl⟩
    · have hinside := eq_or_inside front x mid' z back
      rw [List.append_assoc] at hinside
      exact hinside.imp_right .inl
    · -- the second middle ends behind the first, which lies inside it if they start together
      by_cases hx : x = []
      · subst hx
        have hinside := eq_or_inside front [] y z back'
        rw [List.append_nil] at hinside ⊢
        exact hinside.elim (fun hsame => .inl hsame.symm) fun hshift => .inr (.inr hshift)
      · by_cases hz : z = []
        · subst hz
          have hinside := eq_or_inside front x y [] back'
          rw [List.append_nil] at hinside ⊢
          exact hinside.imp_right .inl
        · exact .inr (.inl (.overlap front x y z back' hx hz))

/-- **Two cuts of one word** are equal, or their middles are shifted against each other. -/
theorem text_eq_iff (c c' : Cut α) : c.text = c'.text ↔ c = c' ∨ Shifted c c' ∨ Shifted c' c := by
  constructor
  · intro h
    obtain ⟨front, mid, back⟩ := c
    obtain ⟨front', mid', back'⟩ := c'
    rw [text, text, List.append_assoc, List.append_assoc] at h
    rcases List.append_eq_append_iff.1 h with ⟨x, rfl, hrest⟩ | ⟨x, rfl, hrest⟩
    · exact shifted_of_front hrest
    · exact (shifted_of_front hrest).imp Eq.symm Or.symm
  · rintro (rfl | h | h)
    · rfl
    · exact h.text_eq
    · exact h.text_eq.symm

/-- The middle is the first stretch of characters of a class. -/
structure Delimits (P : α → Prop) (c : Cut α) : Prop where
  front : ∀ a ∈ c.front, ¬P a
  mid : ∀ a ∈ c.mid, P a
  back : ∀ a ∈ c.back.head?, ¬P a

theorem Delimits.not_shifted {P : α → Prop} {c c' : Cut α} (hc : c.Delimits P) (hc' : c'.Delimits P)
    (hmid : c.mid ≠ []) : ¬Shifted c c' := by
  intro h
  cases h with
  | inside front x mid z back h =>
    rcases h with hx | hz
    · obtain ⟨a, ha⟩ := List.exists_mem_of_ne_nil x hx
      exact hc'.front a (List.mem_append_right front ha)
        (hc.mid a (List.mem_append_left z (List.mem_append_left mid ha)))
    · obtain ⟨a, rest, rfl⟩ := List.exists_cons_of_ne_nil hz
      exact hc'.back a rfl (hc.mid a (List.mem_append_right _ List.mem_cons_self))
  | overlap front x y z back hx hz =>
    obtain ⟨a, ha⟩ := List.exists_mem_of_ne_nil x hx
    exact hc'.front a (List.mem_append_right front ha) (hc.mid a (List.mem_append_left y ha))
  | behind front mid t mid' back =>
    obtain ⟨a, ha⟩ := List.exists_mem_of_ne_nil mid hmid
    exact hc'.front a (List.mem_append_left t (List.mem_append_right front ha)) (hc.mid a ha)

end Cut
