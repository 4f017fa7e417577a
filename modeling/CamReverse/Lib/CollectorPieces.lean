import CamReverse.Lib.Collector

/-!
# The pieces of a group

With mending, an item is cut where it borders on a gap: in front when it gets into the group, at its end when
the next item does. A `Piece` keeps what an item arrived with beside what is left of it. What a collector
holds, and what it hands over, is a chain of such pieces: each follows the one before it, and neither is cut
between them, or a gap lies between them and the two were cut against each other (`step_spliced`).
-/

namespace Collector

variable {α : Type}

/-- An item of a group: its number, its contents as they arrived, as they got into the group, and as they are
now. -/
structure Piece (α : Type) where
  id : ℕ
  whole : α
  taken : α
  kept : α

def Piece.entry (p : Piece α) : ℕ × α := (p.id, p.whole)

/-- `q` comes right after `p`, and neither is cut there, or after a gap that was closed by cutting both. -/
def Piece.Follows (Cut : α → α → α × α → Prop) (p q : Piece α) : Prop :=
  (q.id = p.id + 1 ∧ p.kept = p.taken ∧ q.taken = q.whole) ∨
    (p.id + 1 < q.id ∧ Cut p.taken q.whole (p.kept, q.taken))

/-- `items` are pieces of the entries of `log`, in their order; the first one is not cut, and the last one,
numbered `last`, is not cut at its end. -/
structure Pieces (Cut : α → α → α × α → Prop) (log : List (ℕ × α)) (items : List α) (last : ℕ)
    (ps : List (Piece α)) : Prop where
  arrived : (ps.map Piece.entry).Sublist log
  items : ps.map Piece.kept = items
  chain : ps.IsChain (Piece.Follows Cut)
  head : ∀ p ∈ ps.head?, p.taken = p.whole ∧ p.kept = p.whole
  last : ∀ p ∈ ps.getLast?, p.id = last ∧ p.kept = p.taken

def Spliced (Cut : α → α → α × α → Prop) (log : List (ℕ × α)) (items : List α) (last : ℕ) : Prop :=
  ∃ ps, Pieces Cut log items last ps

/-- The entry of an item that gets into the group. -/
def placed (s : State α) (i : Arrival α) : Option (ℕ × α) :=
  match i.item with
  | .first id a => if s.complete && i.refused then none else some (id, a)
  | .next id a =>
    if id ≤ s.last then none
    else if s.last + 1 < id then (mended i.mend s.items a).map fun _ => (id, a)
    else some (id, a)
  | .other => none

theorem placed_entry {s : State α} {i : Arrival α} {e : ℕ × α} (h : placed s i = some e) :
    i.item.entry = some e := by
  unfold placed at h
  cases hi : i.item with
  | first id a =>
    simp only [hi] at h
    split_ifs at h
    exact h
  | next id a =>
    simp only [hi] at h
    split_ifs at h
    · cases hm : mended i.mend s.items a with
      | none =>
        rw [hm] at h
        cases h
      | some r =>
        rw [hm] at h
        exact h
    · exact h
  | other =>
    rw [hi] at h
    cases h

theorem step_of_not_placed {s : State α} {i : Arrival α} (h : placed s i = none) :
    (step s i).items = s.items ∧ (step s i).last = s.last := by
  unfold placed at h
  unfold step
  cases hi : i.item with
  | first id a =>
    simp only [hi] at h ⊢
    split_ifs at h ⊢
    exact ⟨rfl, rfl⟩
  | next id a =>
    simp only [hi] at h ⊢
    unfold continued
    split_ifs at h ⊢
    · exact ⟨rfl, rfl⟩
    · rw [Option.map_eq_none_iff.1 h]
      exact ⟨rfl, rfl⟩
  | other => exact ⟨rfl, rfl⟩

theorem step_of_placed {s : State α} {i : Arrival α} {id : ℕ} {a : α} (h : placed s i = some (id, a)) :
    (step s i).items = [a] ∨ (step s i).items = s.items ++ [a] ∨
      ∃ l r, s.items.getLast? = some l ∧ i.mend l a = some r ∧
        (step s i).items = s.items.dropLast ++ [r.1, r.2] := by
  unfold placed at h
  unfold step
  cases hi : i.item with
  | first id' a' =>
    simp only [hi] at h ⊢
    split_ifs at h ⊢
    cases h
    exact .inl rfl
  | next id' a' =>
    simp only [hi] at h ⊢
    unfold continued
    split_ifs at h ⊢
    · obtain ⟨r, hr, heq⟩ := Option.map_eq_some_iff.1 h
      cases heq
      obtain ⟨-, l, hl, hcut⟩ := mended_some hr
      rw [hr]
      exact .inr (.inr ⟨l, r, hl, hcut, rfl⟩)
    · cases h
      exact .inr (.inl rfl)
  | other =>
    rw [hi] at h
    cases h

variable {Cut : α → α → α × α → Prop} {log : List (ℕ × α)} {items : List α} {last : ℕ}

theorem Pieces.taken_cases {ps : List (Piece α)} (h : Pieces Cut log items last ps) {p : Piece α}
    (hp : p ∈ ps) : p.taken = p.whole ∨ ∃ q : Piece α, Cut q.taken p.whole (q.kept, p.taken) := by
  obtain ⟨front, back, rfl⟩ := List.append_of_mem hp
  rcases List.eq_nil_or_concat front with rfl | ⟨front, q, rfl⟩
  · exact .inl (h.head p rfl).1
  · have hjoin := (List.isChain_append.1 h.chain).2.2 q (by simp) p rfl
    exact hjoin.imp (fun hnext => hnext.2.2) fun hgap => ⟨q, hgap.2⟩

theorem Pieces.kept_cases {ps : List (Piece α)} (h : Pieces Cut log items last ps) {p : Piece α}
    (hp : p ∈ ps) : p.kept = p.taken ∨ ∃ q : Piece α, Cut p.taken q.whole (p.kept, q.taken) := by
  obtain ⟨front, back, rfl⟩ := List.append_of_mem hp
  cases back with
  | nil => exact .inl (h.last p (by simp)).2
  | cons q back =>
    have hjoin := (List.isChain_cons_cons.1 (List.isChain_append.1 h.chain).2.1).1
    exact hjoin.imp (fun hnext => hnext.2.1) fun hgap => ⟨q, hgap.2⟩

theorem Spliced.mono {log' : List (ℕ × α)} (hlog : log.Sublist log') (h : Spliced Cut log items last) :
    Spliced Cut log' items last := by
  obtain ⟨ps, h⟩ := h
  exact ⟨ps, { h with arrived := h.arrived.trans hlog }⟩

theorem spliced_nil (Cut : α → α → α × α → Prop) (log : List (ℕ × α)) (last : ℕ) :
    Spliced Cut log [] last :=
  ⟨[], List.nil_sublist _, rfl, List.isChain_nil, by simp, by simp⟩

theorem spliced_singleton (log : List (ℕ × α)) (id : ℕ) (a : α) : Spliced Cut (log ++ [(id, a)]) [a] id :=
  ⟨[⟨id, a, a, a⟩], List.sublist_append_right _ _, rfl, List.isChain_singleton _, by simp, by simp⟩

theorem Spliced.extend (h : Spliced Cut log items last) (a : α) :
    Spliced Cut (log ++ [(last + 1, a)]) (items ++ [a]) (last + 1) := by
  obtain ⟨ps, harrived, rfl, hchain, hhead, hlast⟩ := h
  refine ⟨ps ++ [⟨last + 1, a, a, a⟩], ?_, by simp, ?_, ?_, by simp⟩
  · rw [List.map_append]
    exact harrived.append (List.Sublist.refl _)
  · rw [List.isChain_append]
    refine ⟨hchain, List.isChain_singleton _, fun p hp q hq => ?_⟩
    obtain ⟨hid, hkept⟩ := hlast p hp
    obtain rfl : _ = q := Option.some.inj hq
    exact .inl ⟨by rw [hid], hkept, rfl⟩
  · cases ps with
    | nil => simp
    | cons p ps => exact hhead

theorem Piece.isChain_append_of {ps : List (Piece α)} {p : Piece α} (h : (ps ++ [p]).IsChain (Follows Cut))
    (kept : α) : (ps ++ [{ p with kept := kept }]).IsChain (Follows Cut) := by
  rw [List.isChain_append] at h ⊢
  obtain ⟨hps, -, hjoin⟩ := h
  refine ⟨hps, List.isChain_singleton _, fun q hq p' hp' => ?_⟩
  obtain rfl : _ = p' := Option.some.inj hp'
  exact hjoin q hq p rfl

/-- A gap: the last piece and the new one are cut against each other. -/
theorem Spliced.mend {l l' a a' : α} {id : ℕ} (h : Spliced Cut log items last) (hlen : 1 < items.length)
    (hl : items.getLast? = some l) (hgap : last + 1 < id) (hcut : Cut l a (l', a')) :
    Spliced Cut (log ++ [(id, a)]) (items.dropLast ++ [l', a']) id := by
  obtain ⟨ps, harrived, rfl, hchain, hhead, hlast⟩ := h
  rw [List.getLast?_map] at hl
  obtain ⟨p, hp, rfl⟩ := Option.map_eq_some_iff.1 hl
  obtain ⟨hid, hkept⟩ := hlast p hp
  obtain ⟨front, rfl⟩ := List.getLast?_eq_some_iff.1 hp
  have hne : front ≠ [] := by
    rintro rfl
    simp at hlen
  refine ⟨front ++ [{ p with kept := l' }] ++ [⟨id, a, a', a'⟩], ?_, by simp, ?_, ?_, by simp⟩
  · have hsame : (front ++ [{ p with kept := l' }]).map Piece.entry = (front ++ [p]).map Piece.entry := by
      rw [List.map_append, List.map_append]
      rfl
    rw [List.map_append, hsame]
    exact harrived.append (List.Sublist.refl _)
  · rw [List.isChain_append]
    refine ⟨Piece.isChain_append_of hchain l', List.isChain_singleton _, fun p' hp' q hq => ?_⟩
    rw [List.getLast?_concat] at hp'
    obtain rfl : _ = p' := Option.some.inj hp'
    obtain rfl : _ = q := Option.some.inj hq
    refine .inr ⟨by rw [hid]; exact hgap, ?_⟩
    rw [← hkept]
    exact hcut
  · obtain ⟨p₀, front, rfl⟩ := List.exists_cons_of_ne_nil hne
    exact hhead

/-- **One arrival** keeps what is collected spliced from the entries that got into a group. -/
theorem step_spliced {s : State α} {i : Arrival α} (hmend : ∀ l a r, i.mend l a = some r → Cut l a r)
    (h : Spliced Cut log s.items s.last) :
    Spliced Cut (log ++ (placed s i).toList) (step s i).items (step s i).last := by
  cases hput : placed s i with
  | none =>
    obtain ⟨hitems, hlast⟩ := step_of_not_placed hput
    rw [hitems, hlast, Option.toList_none, List.append_nil]
    exact h
  | some e =>
    unfold placed at hput
    unfold step
    cases hi : i.item with
    | first id a =>
      simp only [hi] at hput ⊢
      split_ifs at hput ⊢
      obtain rfl := Option.some.inj hput
      exact spliced_singleton log id a
    | next id a =>
      simp only [hi] at hput ⊢
      unfold continued
      split_ifs at hput ⊢ with hold hgap
      · obtain ⟨r, hr, rfl⟩ := Option.map_eq_some_iff.1 hput
        obtain ⟨hlen, l, hl, hcut⟩ := mended_some hr
        rw [hr]
        exact h.mend hlen hl hgap (hmend l a r hcut)
      · obtain rfl := Option.some.inj hput
        have hid : id = s.last + 1 := by omega
        subst hid
        exact h.extend a
    | other =>
      rw [hi] at hput
      cases hput

end Collector
