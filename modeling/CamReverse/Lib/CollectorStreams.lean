import CamReverse.Lib.Collector

/-!
# Streams of whole groups, and their numbers

An undisturbed stream is cut into exactly its groups (`collect_stream`). The collector only compares an
item's number with the last one it took, so renumbering a stream by a map that keeps those comparisons
keeps its groups (`step_renumber`); a repeated `next` item changes nothing (`step_step_next`), while a
repeated `first` item hands over what it has just started (`complete_step_first`).
-/

namespace Collector

variable {α : Type}

/-! ### Runs -/

theorem foldl_advance (is : List (Arrival α)) (s : State α) (gs : List (List α)) :
    is.foldl advance (s, gs) = ((collect s is).1, gs ++ (collect s is).2) := by
  induction is generalizing s gs with
  | nil => simp [collect]
  | cons i is ih =>
    rw [collect, List.foldl_cons, List.foldl_cons, advance, advance, ih, ih, List.nil_append]
    simp only [List.append_assoc]

theorem collect_append (s : State α) (is js : List (Arrival α)) :
    collect s (is ++ js) =
      ((collect (collect s is).1 js).1, (collect s is).2 ++ (collect (collect s is).1 js).2) := by
  rw [collect, List.foldl_append]
  exact foldl_advance js _ _

theorem collect_cons (s : State α) (i : Arrival α) (is : List (Arrival α)) :
    collect s (i :: is) =
      ((collect (step s i) is).1, (handedOver s i.item).toList ++ (collect (step s i) is).2) := by
  rw [collect, List.foldl_cons, advance, List.nil_append]
  exact foldl_advance is _ _

theorem step_other {s : State α} {i : Arrival α} (h : i.item = .other) : step s i = s := by
  rw [step, h]

/-! ### Whole groups -/

/-- `next` items numbered from `id` on. -/
def numbered (id : ℕ) : List α → List (Item α)
  | [] => []
  | a :: as => .next id a :: numbered (id + 1) as

/-- Groups numbered from `id` on, each a `first` item and its `next` items. -/
def stream (id : ℕ) : List (α × List α) → List (Item α)
  | [] => []
  | (a, as) :: gs => .first id a :: numbered (id + 1) as ++ stream (id + 1 + as.length) gs

theorem collect_numbered (as : List α) (s : State α) (is : List (Arrival α))
    (h : is.map Arrival.item = numbered (s.last + 1) as) :
    collect s is = (⟨s.items ++ as, s.last + as.length, s.bad⟩, []) := by
  induction as generalizing s is with
  | nil =>
    rw [numbered, List.map_eq_nil_iff] at h
    simp [h, collect]
  | cons a as ih =>
    obtain ⟨i, is, rfl, hi, his⟩ := List.map_eq_cons_iff.1 h
    have hstep : step s i = ⟨s.items ++ [a], s.last + 1, s.bad⟩ := by
      rw [step, hi]
      simp only
      rw [continued, if_neg (by omega), if_neg (by omega)]
    rw [collect_cons, hi, hstep, ih _ is (by simpa using his)]
    simp only [handedOver, Option.toList_none, List.nil_append, List.append_assoc, List.cons_append,
      List.length_cons, Prod.mk.injEq, State.mk.injEq, and_true, true_and]
    omega

theorem collect_group (id : ℕ) (a : α) (as : List α) (s : State α) (is : List (Arrival α))
    (h : is.map Arrival.item = .first id a :: numbered (id + 1) as)
    (hrefused : ∀ i ∈ is, i.refused = false) :
    collect s is =
      (⟨a :: as, id + as.length, false⟩, if s.complete then [s.items] else []) := by
  obtain ⟨i, is, rfl, hi, his⟩ := List.map_eq_cons_iff.1 h
  have hstep : step s i = ⟨[a], id, false⟩ := by
    rw [step, hi]
    simp [hrefused i List.mem_cons_self]
  rw [collect_cons, hi, hstep, collect_numbered as _ is his, handedOver]
  split_ifs <;> rfl

/-- **An undisturbed stream is cut into its groups**: all but the last are handed over, in order, and the
last one is there whole. Only the first start can hand over something else, which was collected before. -/
theorem collect_stream (gs : List (α × List α)) (hne : gs ≠ []) (id : ℕ) (s : State α)
    (is : List (Arrival α)) (h : is.map Arrival.item = stream id gs)
    (hrefused : ∀ i ∈ is, i.refused = false) :
    (collect s is).2 = (if s.complete then [s.items] else []) ++
        gs.dropLast.map (fun g => g.1 :: g.2) ∧
      some (collect s is).1.items = gs.getLast?.map (fun g => g.1 :: g.2) ∧
      (collect s is).1.bad = false := by
  induction gs generalizing id s is with
  | nil => exact absurd rfl hne
  | cons g gs ih =>
    obtain ⟨a, as⟩ := g
    rw [stream] at h
    obtain ⟨is, js, rfl, his, hjs⟩ := List.map_eq_append_iff.1 h
    have hgroup := collect_group id a as s is his fun i hi => hrefused i (List.mem_append_left _ hi)
    rw [collect_append, hgroup]
    cases gs with
    | nil =>
      rw [stream, List.map_eq_nil_iff] at hjs
      subst hjs
      exact ⟨by simp [collect], by simp [collect], rfl⟩
    | cons g' gs =>
      obtain ⟨h1, h2, h3⟩ := ih (by simp) (id + 1 + as.length) ⟨a :: as, id + as.length, false⟩ js hjs
        fun i hi => hrefused i (List.mem_append_right _ hi)
      refine ⟨?_, ?_, h3⟩
      · rw [h1]
        simp [State.complete]
      · rw [h2]
        simp

/-! ### Renumbering -/

def Item.renumber (f : ℕ → ℕ) : Item α → Item α
  | .first id a => .first (f id) a
  | .next id a => .next (f id) a
  | .other => .other

/-- `f` keeps what the collector finds out about `id` after `last`. -/
def KeepsOrder (f : ℕ → ℕ) (last id : ℕ) : Prop :=
  (id ≤ last ↔ f id ≤ f last) ∧ (last + 1 < id ↔ f last + 1 < f id)

theorem step_last (s : State α) (i : Arrival α) :
    (step s i).last = s.last ∨ ∃ a, i.item.entry = some ((step s i).last, a) := by
  unfold step
  cases i.item with
  | first id a =>
    simp only
    split_ifs
    · exact .inl rfl
    · exact .inr ⟨a, rfl⟩
  | next id a =>
    simp only [continued]
    split_ifs
    · exact .inl rfl
    · cases mended i.mend s.items a with
      | none => exact .inl rfl
      | some r => exact .inr ⟨a, rfl⟩
    · exact .inr ⟨a, rfl⟩
  | other => exact .inl rfl

theorem handedOver_renumber (f : ℕ → ℕ) {s t : State α} (hitems : t.items = s.items)
    (hbad : t.bad = s.bad) (i : Item α) : handedOver t (i.renumber f) = handedOver s i := by
  cases i <;> simp [handedOver, Item.renumber, State.complete, hitems, hbad]

theorem step_renumber {f : ℕ → ℕ} {s t : State α} {i j : Arrival α} (hitems : t.items = s.items)
    (hbad : t.bad = s.bad) (hlast : t.last = f s.last) (hitem : j.item = i.item.renumber f)
    (hmend : j.mend = i.mend) (hrefused : j.refused = i.refused)
    (hkeep : ∀ id a, i.item = .next id a → KeepsOrder f s.last id) :
    (step t j).items = (step s i).items ∧ (step t j).bad = (step s i).bad ∧
      (step t j).last = f (step s i).last := by
  have hcomplete : t.complete = s.complete := by simp [State.complete, hitems, hbad]
  unfold step
  rw [hitem, hmend, hrefused]
  cases hi : i.item with
  | first id a =>
    simp only [Item.renumber, hcomplete]
    split_ifs
    · exact ⟨hitems, hbad, hlast⟩
    · exact ⟨rfl, rfl, rfl⟩
  | next id a =>
    obtain ⟨hle, hlt⟩ := hkeep id a hi
    simp only [Item.renumber, continued, hlast, ← hle, ← hlt, hitems]
    split_ifs
    · exact ⟨hitems, hbad, hlast⟩
    · split <;> exact ⟨rfl, rfl, rfl⟩
    · exact ⟨rfl, hbad, rfl⟩
  | other => exact ⟨hitems, hbad, hlast⟩

/-! ### Repeated items -/

theorem step_step_next {s : State α} {i j : Arrival α} {id : ℕ} {a : α} (hi : i.item = .next id a)
    (hj : j.item = .next id a) (hmend : j.mend = i.mend) : step (step s i) j = step s i := by
  simp only [step, hi, hj, hmend]
  unfold continued
  by_cases hold : id ≤ s.last
  · simp [hold]
  · by_cases hgap : s.last + 1 < id
    · simp only [if_neg hold, if_pos hgap]
      cases hm : mended i.mend s.items a with
      | some r => simp
      | none => simp [hold, hgap, hm]
    · simp [hold, hgap]

theorem complete_step_first {s : State α} {i : Arrival α} {id : ℕ} {a : α} (h : i.item = .first id a) :
    (step s i).complete = true := by
  simp only [step, h]
  split_ifs with hc
  · exact (Bool.and_eq_true_iff.1 hc).1
  · rfl

/-- The item is taken unless its number is too old, or its group is kept back by a refusal. -/
def Takes (s : State α) (i : Arrival α) : Prop :=
  match i.item with
  | .first _ _ => (s.complete && i.refused) = false
  | .next id _ => s.last < id
  | .other => False

theorem last_of_takes {s : State α} {i : Arrival α} (hmend : ∀ l a, i.mend l a = none)
    (htakes : Takes s i) (h : (step s i).complete = true) :
    ∃ id a, i.item.entry = some (id, a) ∧ (step s i).last = id := by
  unfold Takes at htakes
  unfold step at h ⊢
  cases hi : i.item with
  | first id a =>
    rw [hi] at htakes
    refine ⟨id, a, rfl, ?_⟩
    simp only at htakes ⊢
    rw [htakes]
    rfl
  | next id a =>
    rw [hi] at htakes h
    refine ⟨id, a, rfl, ?_⟩
    simp only at htakes
    simp only [continued, mended_none hmend, if_neg (Nat.not_le.2 htakes)] at h ⊢
    split_ifs at h ⊢ with hgap
    · simp [State.complete] at h
    · rfl
  | other =>
    rw [hi] at htakes
    exact htakes.elim

end Collector
