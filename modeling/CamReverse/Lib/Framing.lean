import Mathlib.Data.List.Infix

/-!
# Values in a stream

A reader takes a value off the front of a stream, or finds that it is not all there yet. It is incremental if what comes
later changes nothing about a value it has read. `Framing enc read` says that `read` reads what `enc` writes; so whatever
has arrived of a stream of values, the ones that arrived completely are read, and no other (`Framing.readAll_arrived`).
-/

variable {α β γ : Type}

/-- A reader of a value from the front of a stream. -/
abbrev Reader (β α : Type) := List β → Option (α × List β)

namespace Reader

/-- What comes later changes nothing about a value that was read. -/
structure Incremental (read : Reader β α) : Prop where
  extend : ∀ {p a rest}, read p = some (a, rest) → ∀ q, read (p ++ q) = some (a, rest ++ q)
  le : ∀ {p a rest}, read p = some (a, rest) → rest.length ≤ p.length

/-- Read a value, and then what it asks for. -/
def bind (read : Reader β α) (next : α → Reader β γ) : Reader β γ := fun p =>
  match read p with
  | some (a, rest) => next a rest
  | none => none

theorem bind_some {read : Reader β α} {next : α → Reader β γ} {p rest : List β} {a : α} (h : read p = some (a, rest)) :
    read.bind next p = next a rest := by
  unfold Reader.bind
  rw [h]

theorem of_bind {read : Reader β α} {next : α → Reader β γ} {p rest : List β} {c : γ}
    (h : read.bind next p = some (c, rest)) : ∃ a mid, read p = some (a, mid) ∧ next a mid = some (c, rest) := by
  unfold Reader.bind at h
  split at h
  · exact ⟨_, _, by assumption, h⟩
  · cases h

theorem Incremental.bind {read : Reader β α} {next : α → Reader β γ} (h : read.Incremental)
    (hnext : ∀ a, (next a).Incremental) : (read.bind next).Incremental where
  extend hp q := by
    obtain ⟨a, mid, hread, hrest⟩ := of_bind hp
    rw [bind_some (h.extend hread q)]
    exact (hnext a).extend hrest q
  le hp := by
    obtain ⟨a, mid, hread, hrest⟩ := of_bind hp
    exact ((hnext a).le hrest).trans (h.le hread)

/-- The value that is there without reading. -/
def ret (a : Option α) : Reader β α := fun p => a.map fun a => (a, p)

theorem Incremental.ret (a : Option α) : (Reader.ret a : Reader β α).Incremental where
  extend {p b rest} hp q := by
    cases a with
    | none => cases hp
    | some a =>
      cases hp
      rfl
  le {p b rest} hp := by
    cases a with
    | none => cases hp
    | some a =>
      cases hp
      exact le_rfl

/-- The elements before the first `stop`, which is read too. -/
def readUntil [DecidableEq β] (stop : β) : Reader β (List β)
  | [] => none
  | b :: p => if b = stop then some ([], p) else (readUntil stop p).map fun r => (b :: r.1, r.2)

theorem readUntil_append [DecidableEq β] {stop : β} {l : List β} (h : stop ∉ l) (rest : List β) :
    readUntil stop (l ++ stop :: rest) = some (l, rest) := by
  induction l with
  | nil => exact if_pos rfl
  | cons b l ih =>
    rw [List.mem_cons, not_or] at h
    rw [List.cons_append, readUntil, if_neg (Ne.symm h.1), ih h.2]
    rfl

theorem Incremental.readUntil [DecidableEq β] (stop : β) : (Reader.readUntil stop).Incremental := by
  have hsome : ∀ p l rest, Reader.readUntil stop p = some (l, rest) →
      (∀ q, Reader.readUntil stop (p ++ q) = some (l, rest ++ q)) ∧ rest.length ≤ p.length := by
    intro p
    induction p with
    | nil => exact fun l rest h => nomatch h
    | cons b p ih =>
      intro l rest h
      rw [Reader.readUntil] at h
      split_ifs at h with hb
      · obtain ⟨rfl, rfl⟩ := Prod.mk.inj (Option.some.inj h)
        exact ⟨fun q => if_pos hb, Nat.le_succ _⟩
      · obtain ⟨r, hr, hrest⟩ := Option.map_eq_some_iff.1 h
        obtain ⟨rfl, rfl⟩ := Prod.mk.inj hrest
        obtain ⟨hmore, hle⟩ := ih r.1 r.2 hr
        refine ⟨fun q => ?_, hle.trans (Nat.le_succ _)⟩
        rw [List.cons_append, Reader.readUntil, if_neg hb, hmore]
        rfl
  exact ⟨fun h => (hsome _ _ _ h).1, fun h => (hsome _ _ _ h).2⟩

def expect [DecidableEq β] (b : β) : Reader β Unit
  | [] => none
  | c :: p => if c = b then some ((), p) else none

theorem expect_cons [DecidableEq β] (b : β) (p : List β) : expect b (b :: p) = some ((), p) := if_pos rfl

theorem Incremental.expect [DecidableEq β] (b : β) : (Reader.expect b).Incremental where
  extend {p a rest} hp q := by
    cases p with
    | nil => cases hp
    | cons c p =>
      rw [Reader.expect] at hp
      split_ifs at hp with hc
      cases hp
      rw [List.cons_append, Reader.expect, if_pos hc]
  le {p a rest} hp := by
    cases p with
    | nil => cases hp
    | cons c p =>
      rw [Reader.expect] at hp
      split_ifs at hp
      cases hp
      exact Nat.le_succ _

def takeN (n : ℕ) : Reader β (List β) := fun p => if n ≤ p.length then some (p.take n, p.drop n) else none

theorem takeN_append (l rest : List β) : takeN l.length (l ++ rest) = some (l, rest) := by
  unfold takeN
  rw [if_pos (by rw [List.length_append]; exact Nat.le_add_right _ _), List.take_left, List.drop_left]

theorem Incremental.takeN (n : ℕ) : (Reader.takeN n : Reader β (List β)).Incremental where
  extend {p a rest} hp q := by
    unfold Reader.takeN at hp ⊢
    split_ifs at hp with hn
    cases hp
    rw [if_pos (by rw [List.length_append]; exact Nat.le_add_right_of_le hn), List.take_append_of_le_length hn,
      List.drop_append_of_le_length hn]
  le {p a rest} hp := by
    unfold Reader.takeN at hp
    split_ifs at hp
    cases hp
    rw [List.length_drop]
    exact Nat.sub_le _ _

/-- Read values as long as there are complete ones, at most `n`. -/
def many (read : Reader β α) : ℕ → List β → List α × List β
  | 0, p => ([], p)
  | n + 1, p =>
    match read p with
    | none => ([], p)
    | some (a, rest) => (a :: (many read n rest).1, (many read n rest).2)

def readAll (read : Reader β α) (p : List β) : List α × List β := many read p.length p

end Reader

/-- `read` reads what `enc` writes. -/
structure Framing (enc : α → List β) (read : Reader β α) : Prop extends read.Incremental where
  round : ∀ a, read (enc a) = some (a, [])
  nonempty : ∀ a, enc a ≠ []

namespace Framing

variable {enc : α → List β} {read : Reader β α}

theorem read_append (h : Framing enc read) (a : α) (q : List β) : read (enc a ++ q) = some (a, q) :=
  h.extend (h.round a) q

theorem read_partial (h : Framing enc read) {a : α} {p : List β} (hp : p <+: enc a) (hne : p ≠ enc a) :
    read p = none := by
  obtain ⟨q, hq⟩ := hp
  cases hread : read p with
  | none => rfl
  | some r =>
    have hmore : read (p ++ q) = some (r.1, r.2 ++ q) := h.extend hread q
    rw [hq, h.round] at hmore
    have hrest : r.2 ++ q = [] := (Prod.mk.inj (Option.some.inj hmore)).2.symm
    rw [(List.append_eq_nil_iff.1 hrest).2, List.append_nil] at hq
    exact absurd hq hne

theorem read_nil (h : Framing enc read) : read [] = none := by
  cases hread : read [] with
  | none => rfl
  | some r =>
    -- a value that is read from nothing would be read from everything
    have hmore : read ([] ++ enc r.1) = some (r.1, r.2 ++ enc r.1) := h.extend hread (enc r.1)
    rw [List.nil_append, h.round] at hmore
    have hrest : r.2 ++ enc r.1 = [] := (Prod.mk.inj (Option.some.inj hmore)).2.symm
    exact absurd (List.append_eq_nil_iff.1 hrest).2 (h.nonempty r.1)

theorem many_of_none {p : List β} (hp : read p = none) (n : ℕ) : read.many n p = ([], p) := by
  cases n with
  | zero => rfl
  | succ n => rw [Reader.many, hp]

/-- **What has arrived completely is read**, in order, and nothing else. -/
theorem readAll_arrived (h : Framing enc read) {as : List α} {p : List β} (hp : p <+: as.flatMap enc) :
    (read.readAll p).1 <+: as ∧ p = (read.readAll p).1.flatMap enc ++ (read.readAll p).2 ∧
      ∀ front, front <+: as → front.flatMap enc <+: p → front <+: (read.readAll p).1 := by
  suffices hmany : ∀ n, p.length ≤ n → (read.many n p).1 <+: as ∧
      p = (read.many n p).1.flatMap enc ++ (read.many n p).2 ∧
      ∀ front, front <+: as → front.flatMap enc <+: p → front <+: (read.many n p).1 from hmany p.length le_rfl
  induction as generalizing p with
  | nil =>
    intro n _
    obtain rfl : p = [] := List.prefix_nil.1 hp
    rw [many_of_none h.read_nil]
    exact ⟨List.prefix_rfl, rfl, fun front hfront _ => hfront⟩
  | cons a as ih =>
    intro n hn
    rw [List.flatMap_cons] at hp
    by_cases hall : enc a <+: p
    · obtain ⟨p, rfl⟩ := hall
      have hlater := (List.prefix_append_right_inj (enc a)).1 hp
      have hpos : 0 < (enc a).length := List.length_pos_of_ne_nil (h.nonempty a)
      rw [List.length_append] at hn
      obtain ⟨m, rfl⟩ : ∃ m, n = m + 1 := ⟨n - 1, by omega⟩
      obtain ⟨hfront, hsplit, hmost⟩ := ih hlater m (by omega)
      rw [Reader.many, h.read_append]
      refine ⟨List.cons_prefix_cons.2 ⟨rfl, hfront⟩, ?_, fun front hstarts harrived => ?_⟩
      · show enc a ++ p = enc a ++ (read.many m p).1.flatMap enc ++ (read.many m p).2
        rw [List.append_assoc, ← hsplit]
      · cases front with
        | nil => exact List.nil_prefix
        | cons b front =>
          obtain ⟨rfl, hrest⟩ := List.cons_prefix_cons.1 hstarts
          rw [List.flatMap_cons] at harrived
          exact List.cons_prefix_cons.2 ⟨rfl, hmost front hrest ((List.prefix_append_right_inj (enc b)).1 harrived)⟩
    · -- the first value is not there yet
      have hpart : p <+: enc a := (List.prefix_or_prefix_of_prefix hp (List.prefix_append _ _)).resolve_right hall
      rw [many_of_none (h.read_partial hpart fun heq => hall (heq ▸ List.prefix_rfl))]
      refine ⟨List.nil_prefix, rfl, fun front hstarts harrived => ?_⟩
      cases front with
      | nil => exact List.nil_prefix
      | cons b front =>
        obtain ⟨rfl, -⟩ := List.cons_prefix_cons.1 hstarts
        rw [List.flatMap_cons] at harrived
        exact absurd ((List.prefix_append _ _).trans harrived) hall

end Framing
