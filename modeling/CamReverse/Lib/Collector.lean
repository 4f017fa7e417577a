import CamReverse.Lib.Runs
import Mathlib.Data.List.Chain

/-!
# Collecting numbered items into groups

Items arrive with a number each, over a medium that may lose, repeat and reorder them. A `first` item opens
a group, `next` items continue it as long as the numbers go up by one, and the next `first` item hands the
group over, unless a gap was seen in it. `mend` is a way of closing a gap by cutting the items on both
sides of it; without one the group stays marked bad. The receiver of a group may refuse it, and then
the collector stays as it was.

A run of the collector (`collect`) keeps the groups handed over, in order. What follows is what a group is
made of (`collect_consecutive`, `collect_headed`), that an undisturbed stream is cut into exactly its
groups (`collect_stream`), and how far the numbers of a stream can be changed without changing its groups
(`step_renumber`).
-/

namespace Collector

variable {α : Type}

/-- An item as it arrives; `other` items are of no interest to the collector. -/
inductive Item (α : Type) where
  | first (id : ℕ) (a : α)
  | next (id : ℕ) (a : α)
  | other
  deriving DecidableEq

def Item.entry : Item α → Option (ℕ × α)
  | .first id a => some (id, a)
  | .next id a => some (id, a)
  | .other => none

structure State (α : Type) where
  items : List α
  last : ℕ
  bad : Bool
  deriving DecidableEq

def State.init : State α := ⟨[], 0, false⟩

/-- The group is handed over when the next one starts. -/
def State.complete (s : State α) : Bool := !s.items.isEmpty && !s.bad

/-- An arrival: the item, the way gaps are mended at that time, and whether a group handed over at it is
refused. -/
structure Arrival (α : Type) where
  item : Item α
  mend : α → α → Option (α × α)
  refused : Bool

/-- What `mend` makes of the last item of a group that has more than its first one. -/
def mended (mend : α → α → Option (α × α)) (items : List α) (a : α) : Option (α × α) :=
  if 1 < items.length then items.getLast?.bind fun l => mend l a else none

def continued (mend : α → α → Option (α × α)) (s : State α) (id : ℕ) (a : α) : State α :=
  if id ≤ s.last then s
  else if s.last + 1 < id then
    match mended mend s.items a with
    | some (l, a') => ⟨s.items.dropLast ++ [l, a'], id, false⟩
    | none => { s with bad := true }
  else { s with items := s.items ++ [a], last := id }

/-- The group handed over at an item. -/
def handedOver (s : State α) : Item α → Option (List α)
  | .first _ _ => if s.complete then some s.items else none
  | _ => none

def step (s : State α) (i : Arrival α) : State α :=
  match i.item with
  | .first id a => if s.complete && i.refused then s else ⟨[a], id, false⟩
  | .next id a => continued i.mend s id a
  | .other => s

/-- A step that keeps the groups handed over so far. -/
def advance (x : State α × List (List α)) (i : Arrival α) : State α × List (List α) :=
  (step x.1 i, x.2 ++ (handedOver x.1 i.item).toList)

def collect (s : State α) (is : List (Arrival α)) : State α × List (List α) := is.foldl advance (s, [])

theorem complete_iff {s : State α} : s.complete = true ↔ s.items ≠ [] ∧ s.bad = false := by
  simp [State.complete]

theorem handedOver_eq_some {s : State α} {i : Item α} {g : List α} :
    handedOver s i = some g ↔ (∃ id a, i = .first id a) ∧ s.complete = true ∧ g = s.items := by
  cases i with
  | first id a =>
    rw [handedOver]
    split_ifs with h
    · simp [h, eq_comm]
    · simp [h]
  | next id a => simp [handedOver]
  | other => simp [handedOver]

theorem mended_none {mend : α → α → Option (α × α)} (h : ∀ l a, mend l a = none) (items : List α)
    (a : α) : mended mend items a = none := by
  unfold mended
  split_ifs
  · cases items.getLast? with
    | none => rfl
    | some l => exact h l a
  · rfl

theorem mended_some {mend : α → α → Option (α × α)} {items : List α} {a : α} {r : α × α}
    (h : mended mend items a = some r) :
    1 < items.length ∧ ∃ l, items.getLast? = some l ∧ mend l a = some r := by
  unfold mended at h
  split_ifs at h with hlen
  obtain ⟨l, hl, hr⟩ := Option.bind_eq_some_iff.1 h
  exact ⟨hlen, l, hl, hr⟩

theorem handedOver_ne_nil {s : State α} {i : Item α} {g : List α} (h : handedOver s i = some g) :
    g ≠ [] := by
  obtain ⟨-, hc, rfl⟩ := handedOver_eq_some.1 h
  exact (complete_iff.1 hc).1

theorem collect_ne_nil (s : State α) (is : List (Arrival α)) : ∀ g ∈ (collect s is).2, g ≠ [] :=
  Runs.invariant (I := fun x : State α × List (List α) => ∀ g ∈ x.2, g ≠ []) (by simp)
    (fun _ _ h g hg => (List.mem_append.1 hg).elim (h g)
      fun hg => handedOver_ne_nil (Option.mem_toList.1 hg)) is

/-! ### Groups are consecutive -/

/-- `items` are the contents of arrived items, in the order of arrival, with numbers going up by one
and ending at `last`. -/
def Consecutive (seen : List (Item α)) (items : List α) (last : ℕ) : Prop :=
  ∃ vs : List (ℕ × α), vs.Sublist (seen.filterMap Item.entry) ∧ items = vs.map Prod.snd ∧
    vs.IsChain (fun p q => q.1 = p.1 + 1) ∧ ∀ p ∈ vs.getLast?, p.1 = last

theorem Consecutive.later {seen : List (Item α)} {items : List α} {last : ℕ}
    (h : Consecutive seen items last) (i : Item α) : Consecutive (seen ++ [i]) items last := by
  obtain ⟨vs, hsub, hrest⟩ := h
  rw [Consecutive, List.filterMap_append]
  exact ⟨vs, hsub.trans (List.sublist_append_left _ _), hrest⟩

theorem Consecutive.start {seen : List (Item α)} {i : Item α} {id : ℕ} {a : α}
    (h : i.entry = some (id, a)) : Consecutive (seen ++ [i]) [a] id := by
  refine ⟨[(id, a)], ?_, rfl, List.isChain_singleton _, by simp⟩
  rw [List.filterMap_append, List.filterMap_cons_some h]
  exact List.sublist_append_right _ _

theorem Consecutive.extend {seen : List (Item α)} {i : Item α} {items : List α} {last : ℕ} {a : α}
    (h : Consecutive seen items last) (hi : i.entry = some (last + 1, a)) :
    Consecutive (seen ++ [i]) (items ++ [a]) (last + 1) := by
  obtain ⟨vs, hsub, rfl, hchain, hlast⟩ := h
  refine ⟨vs ++ [(last + 1, a)], ?_, by rw [List.map_append, List.map_singleton], ?_, by simp⟩
  · rw [List.filterMap_append, List.filterMap_cons_some hi]
    exact hsub.append (List.Sublist.refl _)
  · rw [List.isChain_append]
    refine ⟨hchain, List.isChain_singleton _, fun p hp q hq => ?_⟩
    rw [List.head?_cons, Option.mem_some_iff] at hq
    rw [← hq, hlast p hp]

theorem step_consecutive {seen : List (Item α)} {s : State α} {i : Arrival α}
    (hmend : ∀ l a, i.mend l a = none) (h : Consecutive seen s.items s.last) :
    Consecutive (seen ++ [i.item]) (step s i).items (step s i).last := by
  unfold step
  split
  · rename_i id a hi
    split_ifs
    · exact h.later _
    · exact Consecutive.start (by rw [hi]; rfl)
  · rename_i id a hi
    unfold continued
    split_ifs with hold hgap
    · exact h.later _
    · rw [mended_none hmend]
      exact h.later _
    · have hid : id = s.last + 1 := by omega
      subst hid
      exact h.extend (by rw [hi]; rfl)
  · exact h.later _

/-- Without mending, what is collected at any time is consecutive, and so is every group handed over. -/
theorem collect_consecutive (is : List (Arrival α)) (hmend : ∀ i ∈ is, ∀ l a, i.mend l a = none) :
    Consecutive (is.map Arrival.item) (collect State.init is).1.items (collect State.init is).1.last ∧
      ∀ g ∈ (collect State.init is).2, ∃ last, Consecutive (is.map Arrival.item) g last := by
  refine Runs.history_of
    (P := fun seen (x : State α × List (List α)) =>
      Consecutive (seen.map Arrival.item) x.1.items x.1.last ∧
      ∀ g ∈ x.2, ∃ last, Consecutive (seen.map Arrival.item) g last)
    (C := fun _ _ i => ∀ l a, i.mend l a = none) ?_ ?_ is ?_
  · exact ⟨⟨[], List.nil_sublist _, rfl, List.isChain_nil, by simp⟩, by simp⟩
  · rintro seen ⟨s, gs⟩ i ⟨hs, hgs⟩ hi
    rw [List.map_append, List.map_singleton]
    refine ⟨step_consecutive hi hs, fun g hg => ?_⟩
    rcases List.mem_append.1 hg with hg | hg
    · obtain ⟨last, hlast⟩ := hgs g hg
      exact ⟨last, hlast.later _⟩
    · obtain ⟨-, -, rfl⟩ := handedOver_eq_some.1 (Option.mem_toList.1 hg)
      exact ⟨s.last, hs.later _⟩
  · rintro seen i rest rfl
    exact hmend i (by simp)

/-! ### A group starts with a `first` item -/

/-- The head of `items` is what a `first` item brought. -/
def Headed (seen : List (Item α)) (items : List α) : Prop :=
  ∀ a ∈ items.head?, ∃ id, Item.first id a ∈ seen

theorem Headed.later {seen : List (Item α)} {items : List α} (h : Headed seen items) (i : Item α) :
    Headed (seen ++ [i]) items := fun a ha => by
  obtain ⟨id, hid⟩ := h a ha
  exact ⟨id, List.mem_append_left _ hid⟩

theorem Headed.of_head? {seen : List (Item α)} {items items' : List α} (h : Headed seen items)
    (hhead : items'.head? = items.head?) : Headed seen items' := by
  unfold Headed
  rw [hhead]
  exact h

theorem head?_dropLast_append {items : List α} (h : 1 < items.length) (xs : List α) :
    (items.dropLast ++ xs).head? = items.head? := by
  match items, h with
  | a :: b :: l, _ => rfl

/-- One arrival keeps groups headed, unless it is the `next` item after the start number and nothing is
collected yet. -/
theorem step_headed {seen : List (Item α)} {s : State α} {i : Arrival α}
    (hnew : s.items = [] → ∀ a, i.item ≠ .next (s.last + 1) a) (h : Headed seen s.items) :
    Headed (seen ++ [i.item]) (step s i).items := by
  unfold step
  split
  · rename_i id a hi
    split_ifs
    · exact h.later _
    · intro b hb
      rw [List.head?_cons, Option.mem_some_iff] at hb
      exact ⟨id, List.mem_append_right _ (by rw [← hb, hi]; exact List.mem_singleton_self _)⟩
  · rename_i id a hi
    unfold continued
    split_ifs with hold hgap
    · exact h.later _
    · split
      · rename_i l a' hm
        exact (h.of_head? (head?_dropLast_append (mended_some hm).1 _)).later _
      · exact h.later _
    · have hid : id = s.last + 1 := by omega
      have hne : s.items ≠ [] := fun he => hnew he a (by rw [hi, hid])
      exact (h.of_head? (List.head?_append_of_ne_nil _ hne)).later _
  · exact h.later _

theorem step_items_ne_nil {s : State α} {i : Arrival α}
    (h : s.items ≠ [] ∨ (∃ id a, i.item = .first id a)) : (step s i).items ≠ [] := by
  unfold step
  split
  · rename_i id a hi
    split_ifs with hc
    · exact (complete_iff.1 (Bool.and_eq_true_iff.1 hc).1).1
    · exact List.cons_ne_nil _ _
  · rename_i id a hi
    have hne : s.items ≠ [] := h.resolve_right (by rw [hi]; simp)
    unfold continued
    split_ifs
    · exact hne
    · split
      · simp
      · exact hne
    · simp
  · rename_i hi
    exact h.resolve_right (by rw [hi]; simp)

theorem step_last_of_items_nil {s : State α} {i : Arrival α} (h : (step s i).items = []) :
    s.items = [] ∧ (step s i).last = s.last := by
  have hs : s.items = [] := by
    by_contra hne
    exact step_items_ne_nil (.inl hne) h
  refine ⟨hs, ?_⟩
  unfold step at h ⊢
  split
  · rename_i id a hi
    rw [hi] at h
    simp only at h
    split_ifs at h ⊢
    rfl
  · rename_i id a hi
    rw [hi] at h
    unfold continued at h ⊢
    simp only [mended, hs, List.length_nil, Nat.not_lt_zero, if_false] at h ⊢
    split_ifs at h ⊢
    · rfl
    · rfl
    · simp at h
  · rfl

/-- Groups are headed in every run in which no `next` item with number 1 comes before all `first` items. -/
theorem collect_headed (is : List (Arrival α))
    (hone : ∀ seen i rest a, is = seen ++ i :: rest → i.item = .next 1 a →
      ∃ j ∈ seen, ∃ id b, j.item = .first id b) :
    Headed (is.map Arrival.item) (collect State.init is).1.items ∧
      ∀ g ∈ (collect State.init is).2, Headed (is.map Arrival.item) g := by
  have hrun := @Runs.history_of _ _ (advance (α := α))
    (fun seen (x : State α × List (List α)) => Headed (seen.map Arrival.item) x.1.items ∧
      (∀ g ∈ x.2, Headed (seen.map Arrival.item) g) ∧
      (x.1.items = [] → x.1.last = 0 ∧ ∀ j ∈ seen, ∀ id b, j.item ≠ .first id b))
    (fun seen _ i => ∀ a, i.item = .next 1 a → ∃ j ∈ seen, ∃ id b, j.item = .first id b)
    (State.init, []) ?_ ?_ is fun seen i rest h a => hone seen i rest a h
  · exact ⟨hrun.1, hrun.2.1⟩
  · refine ⟨by simp [Headed, State.init], by simp, fun _ => ⟨rfl, by simp⟩⟩
  · rintro seen ⟨s, gs⟩ i ⟨hs, hgs, hnil⟩ hi
    rw [List.map_append, List.map_singleton]
    refine ⟨step_headed (fun he a hnext => ?_) hs, fun g hg => ?_, fun he => ?_⟩
    · obtain ⟨hlast, hfirst⟩ := hnil he
      rw [show s.last = 0 from hlast] at hnext
      obtain ⟨j, hj, id, b, hb⟩ := hi a hnext
      exact hfirst j hj id b hb
    · rcases List.mem_append.1 hg with hg | hg
      · exact (hgs g hg).later _
      · obtain ⟨-, -, rfl⟩ := handedOver_eq_some.1 (Option.mem_toList.1 hg)
        exact hs.later _
    · obtain ⟨hsnil, hlast⟩ := step_last_of_items_nil he
      obtain ⟨h0, hfirst⟩ := hnil hsnil
      refine ⟨hlast.trans h0, fun j hj id b hb => ?_⟩
      rcases List.mem_append.1 hj with hj | hj
      · exact hfirst j hj id b hb
      · rw [List.mem_singleton.1 hj] at hb
        exact step_items_ne_nil (.inr ⟨id, b, hb⟩) he

end Collector
