import CamReverse.Lib.CollectorStreams
import Mathlib.Algebra.GroupWithZero.Nat

/-!
# Items of another medium between those of a stream

The numbers of a stream may be shared with items the collector takes no interest in. Such an item leaves a
hole in the numbers the collector sees, and the `next` item behind it looks like one behind a loss. A `Phase`
tells where a stream stands in that respect. A stream in which no group that is `late` gets closed leads to the
same groups as the stream without the other items (`collect_inStream_of_undisturbed`); any other stream leads
to less (`weight_collect`), or to something else (`collect_stale`).
-/

namespace Collector

variable {α : Type}

/-! ### Numbering -/

def Arrival.number (n : ℕ) (i : Arrival α) : Arrival α := { i with item := i.item.renumber fun _ => n }

def numberFrom : ℕ → List (Arrival α) → List (Arrival α)
  | _, [] => []
  | n, i :: is => i.number n :: numberFrom (n + 1) is

/-- The arrival is of interest to the collector. -/
def Arrival.inStream (i : Arrival α) : Bool := i.item.entry.isSome

theorem inStream_or (i : Arrival α) : i.inStream = true ∨ i.item = .other := by
  unfold Arrival.inStream
  cases i.item with
  | first id a => exact .inl rfl
  | next id a => exact .inl rfl
  | other => exact .inr rfl

theorem inStream_of_first {i : Arrival α} {id : ℕ} {a : α} (hi : i.item = .first id a) : i.inStream = true := by
  rw [Arrival.inStream, hi]
  rfl

theorem inStream_of_next {i : Arrival α} {id : ℕ} {a : α} (hi : i.item = .next id a) : i.inStream = true := by
  rw [Arrival.inStream, hi]
  rfl

theorem not_inStream_of_other {i : Arrival α} (hi : i.item = .other) : ¬i.inStream = true := by
  rw [Arrival.inStream, hi]
  exact Bool.false_ne_true

theorem numberFrom_append (n : ℕ) (is js : List (Arrival α)) :
    numberFrom n (is ++ js) = numberFrom n is ++ numberFrom (n + is.length) js := by
  induction is generalizing n with
  | nil => rfl
  | cons i is ih =>
    rw [List.cons_append, numberFrom, ih, numberFrom, List.length_cons, Nat.add_right_comm, ← Nat.add_assoc,
      List.cons_append]

theorem step_number_first {i : Arrival α} {id : ℕ} {a : α} (hi : i.item = .first id a)
    (hrefused : i.refused = false) (s : State α) (n : ℕ) : step s (i.number n) = ⟨[a], n, false⟩ := by
  rw [step, Arrival.number, hi]
  simp only [Item.renumber, hrefused, Bool.and_false, Bool.false_eq_true, if_false]

theorem step_number_next {i : Arrival α} {id : ℕ} {a : α} (hi : i.item = .next id a) (s : State α) (n : ℕ) :
    step s (i.number n) = continued i.mend s n a := by
  rw [step, Arrival.number, hi]
  rfl

theorem step_number_other {i : Arrival α} (hi : i.item = .other) (s : State α) (n : ℕ) :
    step s (i.number n) = s :=
  step_other (by rw [Arrival.number, hi]; rfl)

/-! ### Phases -/

/-- Since the last `first` item: no other item came, or one and no `next` item behind it, or both. -/
inductive Phase where
  | onTime
  | waiting
  | late
  deriving DecidableEq

def Phase.next : Phase → Item α → Phase
  | _, .first _ _ => .onTime
  | .onTime, .next _ _ => .onTime
  | .waiting, .next _ _ => .late
  | .late, .next _ _ => .late
  | .onTime, .other => .waiting
  | .waiting, .other => .waiting
  | .late, .other => .late

def Item.isFirst : Item α → Bool
  | .first _ _ => true
  | .next _ _ => false
  | .other => false

theorem exists_of_isFirst {i : Item α} (h : i.isFirst = true) : ∃ id a, i = .first id a := by
  cases i with
  | first id a => exact ⟨id, a, rfl⟩
  | next id a => cases h
  | other => cases h

theorem step_of_taken {s : State α} {i j : Arrival α} (hitem : j.item = i.item) (hmend : j.mend = i.mend)
    (hrefused : j.refused = false) (h : i.item.isFirst = true → s.complete = true → i.refused = false) :
    step s i = step s j := by
  unfold step
  rw [hitem, hmend, hrefused]
  cases hi : i.item with
  | first id a =>
    rw [hi] at h
    cases hc : s.complete with
    | false => rfl
    | true => rw [h rfl hc]
  | next id a => rfl
  | other => rfl

/-- No group is closed late. -/
def Undisturbed (ph : Phase) (items : List (Item α)) : Prop :=
  Runs.Guarded Phase.next (fun ph i => i.isFirst = true → ph ≠ .late) ph items

instance (ph : Phase) (items : List (Item α)) : Decidable (Undisturbed ph items) :=
  inferInstanceAs (Decidable (Runs.Guarded _ _ _ _))

theorem undisturbed_append {ph : Phase} {is js : List (Item α)} :
    Undisturbed ph (is ++ js) ↔ Undisturbed ph is ∧ Undisturbed (is.foldl Phase.next ph) js :=
  Runs.guarded_append

/-! ### Undisturbed streams -/

/-- What two collectors have in common at a phase, the one before the number `n` and the other, which does
without the other items, before `m`. -/
def Alike (s : State α) (n : ℕ) (t : State α) (m : ℕ) : Phase → Prop
  | .onTime => s.items = t.items ∧ s.bad = t.bad ∧ s.last + m = t.last + n
  | .waiting => s.items = t.items ∧ s.bad = t.bad
  | .late => True

theorem handedOver_number (s : State α) (i : Arrival α) (n : ℕ) :
    handedOver s (i.number n).item = handedOver s i.item :=
  handedOver_renumber (fun _ => n) rfl rfl i.item

theorem Alike.handedOver {s t : State α} {n m : ℕ} {ph : Phase} (h : Alike s n t m ph) {i : Item α}
    (hlate : i.isFirst = true → ph ≠ .late) : handedOver s i = handedOver t i := by
  cases i with
  | first id a =>
    have hsame : s.items = t.items ∧ s.bad = t.bad := by
      cases ph with
      | onTime => exact ⟨h.1, h.2.1⟩
      | waiting => exact h
      | late => exact absurd rfl (hlate rfl)
    rw [Collector.handedOver, Collector.handedOver, State.complete, State.complete, hsame.1, hsame.2]
  | next id a => rfl
  | other => rfl

theorem Alike.step {s t : State α} {n m : ℕ} {ph : Phase} (h : Alike s n t m ph) {i : Arrival α}
    (hrefused : i.refused = false) (hin : i.inStream = true) :
    Alike (step s (i.number n)) (n + 1) (step t (i.number m)) (m + 1) (ph.next i.item) := by
  cases hi : i.item with
  | first id a =>
    rw [step_number_first hi hrefused, step_number_first hi hrefused]
    exact ⟨rfl, rfl, Nat.add_left_comm n m 1⟩
  | next id a =>
    cases ph with
    | onTime =>
      obtain ⟨hitems, hbad, hlast⟩ := h
      rw [step_number_next hi, step_number_next hi]
      unfold continued
      by_cases hold : n ≤ s.last
      · rw [if_pos hold, if_pos (show m ≤ t.last by omega)]
        exact ⟨hitems, hbad, by omega⟩
      · rw [if_neg hold, if_neg (show ¬m ≤ t.last by omega)]
        by_cases hgap : s.last + 1 < n
        · rw [if_pos hgap, if_pos (show t.last + 1 < m by omega), hitems]
          cases mended i.mend t.items a with
          | some r => exact ⟨rfl, rfl, Nat.add_left_comm n m 1⟩
          | none => exact ⟨rfl, rfl, by show s.last + (m + 1) = t.last + (n + 1); omega⟩
        · rw [if_neg hgap, if_neg (show ¬t.last + 1 < m by omega), hitems]
          exact ⟨rfl, hbad, Nat.add_left_comm n m 1⟩
    | waiting => trivial
    | late => trivial
  | other => exact absurd hin (not_inStream_of_other hi)

theorem Alike.step_other {s t : State α} {n m : ℕ} {ph : Phase} (h : Alike s n t m ph) {i : Arrival α}
    (hi : i.item = .other) : Alike (Collector.step s (i.number n)) (n + 1) t m (ph.next i.item) := by
  rw [step_number_other hi, hi]
  cases ph with
  | onTime => exact ⟨h.1, h.2.1⟩
  | waiting => exact h
  | late => trivial

/-- **An undisturbed stream leads to the groups it leads to without the other items.** -/
theorem collect_inStream_of_undisturbed {is : List (Arrival α)} (hrefused : ∀ i ∈ is, i.refused = false)
    {s t : State α} {n m : ℕ} {ph : Phase} (h : Alike s n t m ph)
    (hun : Undisturbed ph (is.map Arrival.item)) :
    (collect s (numberFrom n is)).2 = (collect t (numberFrom m (is.filter Arrival.inStream))).2 := by
  induction is generalizing s t n m ph with
  | nil => rfl
  | cons i is ih =>
    obtain ⟨hfirst, hrest⟩ := hun
    have hrefused' := fun j hj => hrefused j (List.mem_cons_of_mem i hj)
    rw [numberFrom, collect_cons]
    rcases inStream_or i with hin | hi
    · rw [List.filter_cons_of_pos hin, numberFrom, collect_cons, handedOver_number, handedOver_number,
        h.handedOver hfirst]
      exact congrArg (_ ++ ·) (ih hrefused' (h.step (hrefused i List.mem_cons_self) hin) hrest)
    · rw [List.filter_cons_of_neg (not_inStream_of_other hi), handedOver_number, hi]
      exact ih hrefused' (h.step_other hi) hrest

/-! ### Disturbed streams -/

variable (size : α → ℕ)

def total (items : List α) : ℕ := (items.map size).sum

/-- The size of groups, which counts them as well. -/
def weight (gs : List (List α)) : ℕ := (gs.map fun g => 1 + total size g).sum

/-- Mending cuts something off. -/
def Shrinks (mend : α → α → Option (α × α)) : Prop :=
  ∀ l a l' a', mend l a = some (l', a') → size l' + size a' < size l + size a

theorem total_append (items items' : List α) :
    total size (items ++ items') = total size items + total size items' := by
  rw [total, List.map_append, List.sum_append]
  rfl

theorem total_singleton (a : α) : total size [a] = size a := by simp [total]

theorem total_pair (a b : α) : total size [a, b] = size a + size b := by simp [total]

theorem weight_append (gs gs' : List (List α)) :
    weight size (gs ++ gs') = weight size gs + weight size gs' := by
  rw [weight, List.map_append, List.sum_append]
  rfl

variable {size}

theorem total_mended {mend : α → α → Option (α × α)} (hmend : Shrinks size mend) {items : List α} {a l a' : α}
    (h : mended mend items a = some (l, a')) :
    total size (items.dropLast ++ [l, a']) < total size items + size a := by
  obtain ⟨-, l₀, hl₀, hr⟩ := mended_some h
  have hshorter := hmend l₀ a l a' hr
  have hitems := List.dropLast_append_getLast? l₀ hl₀
  have hsplit : total size items = total size items.dropLast + size l₀ := by
    conv_lhs => rw [← hitems]
    rw [total_append, total_singleton]
  rw [total_append, total_pair]
  omega

theorem total_continued {mend : α → α → Option (α × α)} (hmend : Shrinks size mend) (s : State α) (n : ℕ)
    (a : α) :
    total size (continued mend s n a).items ≤ total size s.items + size a ∧
      (s.last + 1 < n → 0 < size a →
        total size (continued mend s n a).items < total size s.items + size a) := by
  unfold continued
  split_ifs with hold hgap
  · exact ⟨Nat.le_add_right _ _, fun h => by omega⟩
  · cases h : mended mend s.items a with
    | some r =>
      have hless := total_mended hmend h
      exact ⟨hless.le, fun _ _ => hless⟩
    | none => exact ⟨Nat.le_add_right _ _, fun _ hpos => Nat.lt_add_of_pos_right hpos⟩
  · exact ⟨by rw [total_append, total_singleton], fun h => absurd h hgap⟩

theorem last_continued {mend : α → α → Option (α × α)} {s : State α} {n : ℕ} (h : s.last < n) (a : α) :
    (continued mend s n a).last ≤ n := by
  unfold continued
  split_ifs
  · exact h.le
  · cases mended mend s.items a with
    | some r => exact Nat.le_refl n
    | none => exact h.le
  · exact Nat.le_refl n

/-- What a collector before the number `n` has, at a phase, of what the other one has before `m`, which does
without the other items. -/
inductive Trails (size : α → ℕ) : State α → ℕ → State α → ℕ → Phase → Prop where
  | onTime (items : List α) (n m : ℕ) : Trails size ⟨items, n, false⟩ (n + 1) ⟨items, m, false⟩ (m + 1) .onTime
  | waiting (items : List α) {last n : ℕ} (hhole : last + 1 < n) (m : ℕ) :
    Trails size ⟨items, last, false⟩ n ⟨items, m, false⟩ (m + 1) .waiting
  | late {s : State α} {n : ℕ} (hlast : s.last < n) (items : List α)
    (hless : total size s.items < total size items) (m : ℕ) : Trails size s n ⟨items, m, false⟩ (m + 1) .late

theorem continued_consecutive (mend : α → α → Option (α × α)) (items : List α) (m : ℕ) (bad : Bool) (a : α) :
    continued mend ⟨items, m, bad⟩ (m + 1) a = ⟨items ++ [a], m + 1, bad⟩ := by
  unfold continued
  rw [if_neg (show ¬m + 1 ≤ m by omega), if_neg (show ¬m + 1 < m + 1 by omega)]

theorem Trails.step {s t : State α} {n m : ℕ} {ph : Phase} (h : Trails size s n t m ph) {i : Arrival α}
    (hrefused : i.refused = false) (hmend : Shrinks size i.mend)
    (hpos : ∀ id a, i.item = .next id a → 0 < size a) (hin : i.inStream = true) :
    Trails size (step s (i.number n)) (n + 1) (step t (i.number m)) (m + 1) (ph.next i.item) := by
  cases hi : i.item with
  | first id a =>
    rw [step_number_first hi hrefused, step_number_first hi hrefused]
    exact .onTime [a] n m
  | next id a =>
    rw [step_number_next hi, step_number_next hi]
    cases h with
    | onTime items n m =>
      rw [continued_consecutive, continued_consecutive]
      exact .onTime (items ++ [a]) (n + 1) (m + 1)
    | waiting items hhole m =>
      rw [continued_consecutive]
      refine .late (Nat.lt_succ_of_le (last_continued (Nat.lt_of_succ_lt hhole) a)) _ ?_ _
      rw [total_append, total_singleton]
      exact (total_continued hmend _ n a).2 hhole (hpos id a hi)
    | late hlast items hless m =>
      rw [continued_consecutive]
      refine .late (Nat.lt_succ_of_le (last_continued hlast a)) _ ?_ _
      rw [total_append, total_singleton]
      exact (total_continued hmend s n a).1.trans_lt (Nat.add_lt_add_right hless _)
  | other => exact absurd hin (not_inStream_of_other hi)

theorem Trails.step_other {s t : State α} {n m : ℕ} {ph : Phase} (h : Trails size s n t m ph) {i : Arrival α}
    (hi : i.item = .other) : Trails size (Collector.step s (i.number n)) (n + 1) t m (ph.next i.item) := by
  rw [step_number_other hi, hi]
  cases h with
  | onTime items n m => exact .waiting items (Nat.lt_succ_self _) m
  | waiting items hhole m => exact .waiting items (Nat.lt_succ_of_lt hhole) m
  | late hlast items hless m => exact .late (Nat.lt_succ_of_lt hlast) items hless m

theorem Trails.handedOver {s t : State α} {n m : ℕ} {ph : Phase} (h : Trails size s n t m ph) (i : Item α) :
    weight size (handedOver s i).toList ≤ weight size (handedOver t i).toList ∧
      (i.isFirst = true → ph = .late →
        weight size (handedOver s i).toList < weight size (handedOver t i).toList) := by
  cases i with
  | first id a =>
    cases h with
    | onTime items n m => exact ⟨Nat.le_refl _, fun _ hph => by cases hph⟩
    | waiting items hhole m => exact ⟨Nat.le_refl _, fun _ hph => by cases hph⟩
    | late hlast items hless m =>
      have hcomplete : (⟨items, m, false⟩ : State α).complete = true := by
        refine complete_iff.2 ⟨?_, rfl⟩
        rintro rfl
        exact Nat.not_lt_zero _ hless
      have hless' : weight size (Collector.handedOver s (.first id a)).toList <
          weight size (Collector.handedOver ⟨items, m, false⟩ (.first id a)).toList := by
        rw [Collector.handedOver, Collector.handedOver, if_pos hcomplete]
        split_ifs
        · simpa [weight] using hless
        · rw [Option.toList_some, Option.toList_none]
          exact Nat.lt_add_right _ (Nat.add_pos_left Nat.one_pos _)
      exact ⟨hless'.le, fun _ _ => hless'⟩
  | next id a => exact ⟨Nat.le_refl _, fun hfirst => by cases hfirst⟩
  | other => exact ⟨Nat.le_refl _, fun hfirst => by cases hfirst⟩

/-- **A disturbed stream leads to less** than it leads to without the other items, and no stream to more. -/
theorem weight_collect {is : List (Arrival α)} (hrefused : ∀ i ∈ is, i.refused = false)
    (hmend : ∀ i ∈ is, Shrinks size i.mend) (hpos : ∀ i ∈ is, ∀ id a, i.item = .next id a → 0 < size a)
    {s t : State α} {n m : ℕ} {ph : Phase} (h : Trails size s n t m ph) :
    weight size (collect s (numberFrom n is)).2 ≤
        weight size (collect t (numberFrom m (is.filter Arrival.inStream))).2 ∧
      (¬Undisturbed ph (is.map Arrival.item) →
        weight size (collect s (numberFrom n is)).2 <
          weight size (collect t (numberFrom m (is.filter Arrival.inStream))).2) := by
  induction is generalizing s t n m ph with
  | nil => exact ⟨Nat.le_refl _, fun hun => absurd trivial hun⟩
  | cons i is ih =>
    rw [List.forall_mem_cons] at hrefused hmend hpos
    have ih := fun {s t n m ph} => @ih hrefused.2 hmend.2 hpos.2 s t n m ph
    obtain ⟨hle, hlt⟩ := h.handedOver i.item
    have hundisturbed : Undisturbed ph ((i :: is).map Arrival.item) ↔
        (i.item.isFirst = true → ph ≠ .late) ∧ Undisturbed (ph.next i.item) (is.map Arrival.item) := Iff.rfl
    rw [numberFrom, collect_cons, handedOver_number, weight_append, hundisturbed]
    rcases inStream_or i with hin | hi
    · obtain ⟨hle', hlt'⟩ := ih (h.step hrefused.1 hmend.1 hpos.1 hin)
      rw [List.filter_cons_of_pos hin, numberFrom, collect_cons, handedOver_number, weight_append]
      refine ⟨Nat.add_le_add hle hle', fun hun => ?_⟩
      by_cases hrest : Undisturbed (ph.next i.item) (is.map Arrival.item)
      · have hlate : ¬(i.item.isFirst = true → ph ≠ .late) := fun hfirst => hun ⟨hfirst, hrest⟩
        simp only [not_forall, not_not] at hlate
        obtain ⟨hfirst, hph⟩ := hlate
        exact Nat.add_lt_add_of_lt_of_le (hlt hfirst hph) hle'
      · exact Nat.add_lt_add_of_le_of_lt hle (hlt' hrest)
    · obtain ⟨hle', hlt'⟩ := ih (h.step_other hi)
      rw [List.filter_cons_of_neg (not_inStream_of_other hi), hi]
      have hnothing : weight size (handedOver s (.other : Item α)).toList = 0 := rfl
      rw [hnothing, Nat.zero_add]
      rw [hi] at hlt'
      exact ⟨hle', fun hun => hlt' fun hrest => hun ⟨fun hfirst => absurd hfirst Bool.false_ne_true, hrest⟩⟩

/-! ### A late group that nothing was collected of -/

theorem collect_passed {is : List (Arrival α)} (hnone : ∀ i ∈ is, i.item.isFirst = false) {s : State α} {n : ℕ}
    (h : n + is.length ≤ s.last + 1) : collect s (numberFrom n is) = (s, []) := by
  induction is generalizing n with
  | nil => rfl
  | cons i is ih =>
    rw [List.forall_mem_cons] at hnone
    rw [List.length_cons] at h
    have hstep : step s (i.number n) = s ∧ handedOver s i.item = none := by
      cases hi : i.item with
      | first id a =>
        rw [hi] at hnone
        cases hnone.1
      | next id a =>
        rw [step_number_next hi, continued, if_pos (by omega)]
        exact ⟨rfl, rfl⟩
      | other => exact ⟨step_number_other hi s n, rfl⟩
    rw [numberFrom, collect_cons, handedOver_number, hstep.1, hstep.2, ih hnone.2 (by omega)]
    rfl

theorem collect_others {is : List (Arrival α)} (h : ∀ i ∈ is, i.item = .other) (s : State α) (n : ℕ) :
    collect s (numberFrom n is) = (s, []) := by
  induction is generalizing n with
  | nil => rfl
  | cons i is ih =>
    rw [List.forall_mem_cons] at h
    rw [numberFrom, collect_cons, handedOver_number, step_number_other h.1, ih h.2, h.1]
    rfl

theorem exists_other {is : List (Arrival α)} (h : (is.map Arrival.item).foldl Phase.next .onTime ≠ .onTime) :
    ∃ j ∈ is, j.item = .other := by
  by_contra hnone
  push Not at hnone
  refine h ?_
  induction is with
  | nil => rfl
  | cons i is ih =>
    rw [List.forall_mem_cons] at hnone
    have hnext : Phase.next .onTime i.item = .onTime := by
      cases hi : i.item with
      | first id a => rfl
      | next id a => rfl
      | other => exact absurd hi hnone.1
    rw [List.map_cons, List.foldl_cons, hnext]
    refine ih (fun h' => ?_) hnone.2
    rw [List.map_cons, List.foldl_cons, hnext] at h
    exact h h'

theorem exists_late {is : List (Arrival α)} (h : (is.map Arrival.item).foldl Phase.next .onTime = .late) :
    ∃ front i back id a, is = front ++ i :: back ∧ i.item = .next id a ∧ (∀ j ∈ back, j.item = .other) ∧
      ∃ j ∈ front, j.item = .other := by
  induction is using List.reverseRecOn with
  | nil => cases h
  | append_singleton is i ih =>
    rw [List.map_append, List.foldl_append, List.map_singleton, List.foldl_cons, List.foldl_nil] at h
    cases hi : i.item with
    | first id a =>
      rw [hi] at h
      cases h
    | next id a =>
      refine ⟨is, i, [], id, a, rfl, hi, by simp, exists_other fun honTime => ?_⟩
      rw [honTime, hi] at h
      cases h
    | other =>
      have hlate : (is.map Arrival.item).foldl Phase.next .onTime = .late := by
        rw [hi] at h
        cases hph : (is.map Arrival.item).foldl Phase.next .onTime with
        | onTime => rw [hph] at h; cases h
        | waiting => rw [hph] at h; cases h
        | late => rfl
      obtain ⟨front, j, back, id, a, rfl, hj, hback, hother⟩ := ih hlate
      refine ⟨front, j, back ++ [i], id, a, by simp, hj, ?_, hother⟩
      intro k hk
      rcases List.mem_append.1 hk with hk | hk
      · exact hback k hk
      · rw [List.mem_singleton.1 hk]
        exact hi

theorem collect_first {s : State α} (hcomplete : s.complete = true) {i : Arrival α}
    (hfirst : i.item.isFirst = true) (is : List (Arrival α)) (n : ℕ) :
    ∃ gs, (collect s (numberFrom n (i :: is))).2 = s.items :: gs := by
  obtain ⟨id, a, hi⟩ := exists_of_isFirst hfirst
  rw [numberFrom, collect_cons, handedOver_number, hi, handedOver, if_pos hcomplete]
  exact ⟨_, rfl⟩

theorem collect_expected {front back : List (Arrival α)} {j : Arrival α} {id : ℕ} {a : α}
    (hfront : ∀ i ∈ front, i.item.isFirst = false) (hj : j.item = .next id a)
    (hback : ∀ i ∈ back, i.item = .other)
    {items : List α} {last n : ℕ} {bad : Bool} (hlast : last + 1 = n + front.length) :
    collect ⟨items, last, bad⟩ (numberFrom n (front ++ j :: back)) =
      (⟨items ++ [a], n + front.length, bad⟩, []) := by
  have hstep : step ⟨items, last, bad⟩ (j.number (n + front.length)) =
      ⟨items ++ [a], n + front.length, bad⟩ := by
    rw [step_number_next hj, ← hlast]
    exact continued_consecutive j.mend items last bad a
  rw [numberFrom_append, collect_append, collect_passed hfront (le_of_eq hlast.symm), numberFrom, collect_cons,
    hstep, collect_others hback, handedOver_number, hj]
  rfl

/-- **A late group** before the first `first` item: a collector that expects the last `next` item of it takes
it, and has passed the number that item has without the other items. -/
theorem collect_stale (x : α) (n : ℕ) {pre rest : List (Arrival α)} {i : Arrival α}
    (hnone : ∀ j ∈ pre, j.item.isFirst = false) (hfirst : i.item.isFirst = true)
    (hlate : (pre.map Arrival.item).foldl Phase.next .onTime = .late) :
    ∃ s a gs gs', (∃ j ∈ pre, ∃ id, j.item = .next id a) ∧
      (collect s (numberFrom n (pre ++ i :: rest))).2 = [x, a] :: gs ∧
      (collect s (numberFrom n ((pre ++ i :: rest).filter Arrival.inStream))).2 = [x] :: gs' := by
  obtain ⟨front, j, back, id, a, rfl, hj, hback, k, hk, hother⟩ := exists_late hlate
  have hcount : (front.filter Arrival.inStream).length < front.length :=
    List.length_filter_lt_length_iff_exists.2 ⟨k, hk, not_inStream_of_other hother⟩
  have hbackOut : back.filter Arrival.inStream = [] :=
    List.filter_eq_nil_iff.2 fun l hl => not_inStream_of_other (hback l hl)
  obtain ⟨id', b, hi⟩ := exists_of_isFirst hfirst
  have hlast : n + front.length - 1 + 1 = n + front.length := by omega
  have htaken : collect ⟨[x], n + front.length - 1, false⟩ (numberFrom n (front ++ j :: back)) =
      (⟨[x, a], n + front.length, false⟩, []) :=
    collect_expected (fun l hl => hnone l (List.mem_append_left _ hl)) hj hback hlast
  have hpassed : collect ⟨[x], n + front.length - 1, false⟩
      (numberFrom n ((front ++ j :: back).filter Arrival.inStream)) =
        (⟨[x], n + front.length - 1, false⟩, []) := by
    refine collect_passed (fun l hl => hnone l (List.mem_of_mem_filter hl)) ?_
    rw [List.filter_append, List.filter_cons_of_pos (inStream_of_next hj), hbackOut, List.length_append,
      List.length_singleton]
    show _ ≤ n + front.length - 1 + 1
    omega
  obtain ⟨gs, hgs⟩ := collect_first (s := ⟨[x, a], n + front.length, false⟩) rfl hfirst rest
    (n + (front ++ j :: back).length)
  obtain ⟨gs', hgs'⟩ := collect_first (s := ⟨[x], n + front.length - 1, false⟩) rfl hfirst
    (rest.filter Arrival.inStream) (n + ((front ++ j :: back).filter Arrival.inStream).length)
  refine ⟨⟨[x], n + front.length - 1, false⟩, a, gs, gs', ⟨j, by simp, id, hj⟩, ?_, ?_⟩
  · rw [numberFrom_append, collect_append, htaken, hgs]
    rfl
  · rw [List.filter_append, List.filter_cons_of_pos (inStream_of_first hi), numberFrom_append, collect_append,
      hpassed, hgs']
    rfl

/-! ### Every disturbed stream -/

theorem undisturbed_of_none {is : List (Item α)} (hnone : ∀ i ∈ is, i.isFirst = false) (ph : Phase) :
    Undisturbed ph is := by
  induction is generalizing ph with
  | nil => trivial
  | cons i is ih =>
    rw [List.forall_mem_cons] at hnone
    exact ⟨fun hfirst => absurd (hnone.1.symm.trans hfirst) Bool.false_ne_true, ih hnone.2 _⟩

theorem collect_snd_first {is : List (Arrival α)} {i : Arrival α} {id : ℕ} {a : α} (hi : i.item = .first id a)
    (hrefused : i.refused = false) (js : List (Arrival α)) (s : State α) (n : ℕ) :
    (collect s (numberFrom n ((is ++ [i]) ++ js))).2 = (collect s (numberFrom n (is ++ [i]))).2 ++
      (collect ⟨[a], n + is.length, false⟩ (numberFrom (n + is.length + 1) js)).2 := by
  have hstate : (collect s (numberFrom n (is ++ [i]))).1 = ⟨[a], n + is.length, false⟩ := by
    rw [numberFrom_append, collect_append, numberFrom, numberFrom, collect_cons, step_number_first hi hrefused]
    rfl
  rw [numberFrom_append n (is ++ [i]), collect_append, hstate, List.length_append, List.length_singleton,
    ← Nat.add_assoc]

theorem weight_eq_of_total_eq {gs gs' : List (List α)} (h : gs.map (total size) = gs'.map (total size)) :
    weight size gs = weight size gs' := by
  have hsum : ∀ gs : List (List α), weight size gs = ((gs.map (total size)).map (1 + ·)).sum := fun gs => by
    rw [weight, List.map_map]
    rfl
  rw [hsum, hsum, h]

theorem ne_of_disturbed {pre rest : List (Arrival α)} {i : Arrival α}
    (hrefused : ∀ j ∈ pre ++ [i] ++ rest, j.refused = false)
    (hmend : ∀ j ∈ pre ++ [i] ++ rest, Shrinks size j.mend)
    (hpos : ∀ j ∈ pre ++ [i] ++ rest, ∀ id a, j.item = .next id a → 0 < size a)
    (hfirst : i.item.isFirst = true) (hfront : Undisturbed .onTime ((pre ++ [i]).map Arrival.item))
    (hback : ¬Undisturbed .onTime (rest.map Arrival.item)) (s : State α) (n : ℕ) :
    (collect s (numberFrom n (pre ++ [i] ++ rest))).2.map (total size) ≠
      (collect s (numberFrom n ((pre ++ [i] ++ rest).filter Arrival.inStream))).2.map (total size) := by
  intro h
  obtain ⟨id, a, hi⟩ := exists_of_isFirst hfirst
  have hiIn := inStream_of_first hi
  have hrefusedi := hrefused i (by simp)
  -- up to `i` nothing is disturbed, and behind it the other collector gets ahead
  have hsame := collect_inStream_of_undisturbed (fun j hj => hrefused j (List.mem_append_left _ hj))
    (show Alike s n s n .onTime from ⟨rfl, rfl, rfl⟩) hfront
  have hless := (weight_collect (fun j hj => hrefused j (List.mem_append_right _ hj))
    (fun j hj => hmend j (List.mem_append_right _ hj)) (fun j hj => hpos j (List.mem_append_right _ hj))
    (Trails.onTime [a] (n + pre.length) (n + (pre.filter Arrival.inStream).length))).2 hback
  have hweight := weight_eq_of_total_eq h
  rw [List.filter_append, List.filter_cons_of_pos hiIn, List.filter_nil] at hsame
  rw [List.filter_append, List.filter_append, List.filter_cons_of_pos hiIn, List.filter_nil,
    collect_snd_first hi hrefusedi, collect_snd_first hi hrefusedi, weight_append, weight_append,
    hsame] at hweight
  omega

/-- **A disturbed stream** leads to other groups than without the other items, from some state. -/
theorem exists_ne_of_disturbed (x : α) {is : List (Arrival α)} (hrefused : ∀ i ∈ is, i.refused = false)
    (hmend : ∀ i ∈ is, Shrinks size i.mend) (hpos : ∀ i ∈ is, ∀ id a, i.item = .next id a → 0 < size a) (n : ℕ)
    (hun : ¬Undisturbed .onTime (is.map Arrival.item)) :
    ∃ s, (collect s (numberFrom n is)).2.map (total size) ≠
      (collect s (numberFrom n (is.filter Arrival.inStream))).2.map (total size) := by
  cases hfind : is.find? fun i => i.item.isFirst with
  | none =>
    refine absurd (undisturbed_of_none (fun i hi => ?_) _) hun
    obtain ⟨j, hj, rfl⟩ := List.mem_map.1 hi
    exact Bool.eq_false_iff.2 (List.find?_eq_none.1 hfind j hj)
  | some i =>
    obtain ⟨hfirst, pre, rest, rfl, hpre⟩ := List.find?_eq_some_iff_append.1 hfind
    have hnone : ∀ j ∈ pre, j.item.isFirst = false := fun j hj => by simpa using hpre j hj
    by_cases hlate : (pre.map Arrival.item).foldl Phase.next .onTime = .late
    · obtain ⟨s, a, gs, gs', ⟨j, hj, id, hnext⟩, hgs, hgs'⟩ := collect_stale x n hnone hfirst hlate
      refine ⟨s, fun h => ?_⟩
      rw [hgs, hgs', List.map_cons, List.map_cons, total_pair, total_singleton] at h
      have hpos' := hpos j (List.mem_append_left _ hj) id a hnext
      have hhead := (List.cons.inj h).1
      omega
    · have hfront : Undisturbed .onTime ((pre ++ [i]).map Arrival.item) := by
        rw [List.map_append, undisturbed_append]
        refine ⟨undisturbed_of_none (fun k hk => ?_) _, fun _ => hlate, trivial⟩
        obtain ⟨j, hj, rfl⟩ := List.mem_map.1 hk
        exact hnone j hj
      have hback : ¬Undisturbed .onTime (rest.map Arrival.item) := fun hrest => by
        obtain ⟨id, a, hi⟩ := exists_of_isFirst hfirst
        have hphase : ((pre ++ [i]).map Arrival.item).foldl Phase.next .onTime = .onTime := by
          rw [List.map_append, List.foldl_append, List.map_singleton, List.foldl_cons, hi]
          rfl
        refine hun ?_
        rw [List.append_cons, List.map_append, undisturbed_append, hphase]
        exact ⟨hfront, hrest⟩
      rw [List.append_cons] at hrefused hmend hpos ⊢
      exact ⟨State.init, ne_of_disturbed hrefused hmend hpos hfirst hfront hback _ n⟩

end Collector
