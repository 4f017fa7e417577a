import Mathlib.Data.List.Nodup
import Mathlib.Data.List.Perm.Basic

/-!
# Outboxes

An outbox numbers the items it is given, sends each one once and sends it again, under a fresh number,
until an acknowledgement names the number it was sent under last. Numbers are handed out in order, both to
new items (`reserve`) and to repeated ones (`resend`); an item may be sent long after it was numbered.
The number an item was reserved under stays its name.

The invariant `Inv` says that no number is used twice and that every item sent is either acknowledged or
pending, but not both and not twice.
-/

namespace Outbox

variable {τ γ : Type}

/-- An item that was sent: the number it was reserved under, the number and time of its last
transmission. -/
structure Pending (τ γ : Type) where
  origin : ℕ
  id : ℕ
  sentTs : τ
  item : γ

def Pending.again (p : Pending τ γ) (now : τ) (id : ℕ) : Pending τ γ := { p with id := id, sentTs := now }

/-- `reserved` and `sent` name items by origin; `history` has the number and origin of every
transmission, `acked` the origins of the items that were acknowledged. -/
structure State (τ γ : Type) where
  next : ℕ
  reserved : List (ℕ × γ)
  sent : List (ℕ × γ)
  pending : List (Pending τ γ)
  history : List (ℕ × ℕ)
  acked : List ℕ

namespace State

def init : State τ γ := ⟨0, [], [], [], [], []⟩

def reserve (s : State τ γ) (item : γ) : State τ γ :=
  { s with next := s.next + 1, reserved := s.reserved ++ [(s.next, item)] }

def send (s : State τ γ) (now : τ) (i : ℕ) : State τ γ :=
  match s.reserved[i]? with
  | some r =>
    { s with
      reserved := s.reserved.eraseIdx i
      sent := s.sent ++ [r]
      pending := s.pending ++ [⟨r.1, r.1, now, r.2⟩]
      history := s.history ++ [(r.1, r.1)] }
  | none => s

/-- The acknowledgement of a number. -/
def ack (s : State τ γ) (id : ℕ) : State τ γ :=
  { s with
    pending := s.pending.filter fun p => p.id ≠ id
    acked := s.acked ++ (s.pending.filter fun p => p.id = id).map Pending.origin }

/-- The items sent so long ago that they are sent again, with their new numbers. -/
def late (s : State τ γ) (isLate : τ → Bool) : List (Pending τ γ × ℕ) :=
  (s.pending.filter fun p => isLate p.sentTs).zipIdx s.next

def resend (s : State τ γ) (isLate : τ → Bool) (now : τ) : State τ γ :=
  { s with
    next := s.next + (s.late isLate).length
    pending := s.pending.filter (fun p => !isLate p.sentTs) ++
      (s.late isLate).map fun x => x.1.again now x.2
    history := s.history ++ (s.late isLate).map fun x => (x.2, x.1.origin) }

end State

/-- Numbers are used once, and every item sent is pending or acknowledged, once. -/
structure Inv (s : State τ γ) : Prop where
  numbers : (s.reserved.map Prod.fst ++ s.history.map Prod.fst).Nodup
  below : ∀ id ∈ s.reserved.map Prod.fst ++ s.history.map Prod.fst, id < s.next
  origins : ∀ o ∈ s.sent.map Prod.fst, o ∈ s.history.map Prod.fst
  distinct : (s.sent.map Prod.fst).Nodup
  accounted : (s.sent.map Prod.fst).Perm (s.pending.map Pending.origin ++ s.acked)
  items : ∀ p ∈ s.pending, (p.origin, p.item) ∈ s.sent
  current : ∀ p ∈ s.pending, (p.id, p.origin) ∈ s.history

/-! ### The invariant is kept -/

theorem inv_init : Inv (State.init : State τ γ) := by
  constructor <;> simp [State.init]

theorem Inv.reserve {s : State τ γ} (h : Inv s) (item : γ) : Inv (s.reserve item) := by
  have hnew : s.next ∉ s.reserved.map Prod.fst ++ s.history.map Prod.fst :=
    fun hmem => Nat.lt_irrefl _ (h.below _ hmem)
  have hperm : ((s.reserve item).reserved.map Prod.fst ++ (s.reserve item).history.map Prod.fst).Perm
      (s.next :: (s.reserved.map Prod.fst ++ s.history.map Prod.fst)) := by
    simp only [State.reserve, List.map_append, List.map_cons, List.map_nil, List.append_assoc]
    exact List.perm_middle
  refine ⟨hperm.nodup_iff.2 (List.nodup_cons.2 ⟨hnew, h.numbers⟩), fun id hid => ?_, h.origins, h.distinct,
    h.accounted, h.items, h.current⟩
  rcases List.mem_cons.1 (hperm.mem_iff.1 hid) with rfl | hid
  · exact Nat.lt_succ_self _
  · exact Nat.lt_succ_of_lt (h.below id hid)

theorem Inv.send {s : State τ γ} (h : Inv s) (now : τ) (i : ℕ) : Inv (s.send now i) := by
  unfold State.send
  cases hr : s.reserved[i]? with
  | none => exact h
  | some r =>
    obtain ⟨hi, hget⟩ := List.getElem?_eq_some_iff.1 hr
    have hreserved : (r :: s.reserved.eraseIdx i).Perm s.reserved := by
      rw [← hget]
      exact List.getElem_cons_eraseIdx_perm hi
    -- the number moves from the reserved ones to the used ones
    have hperm : ((s.reserved.eraseIdx i).map Prod.fst ++ (s.history ++ [(r.1, r.1)]).map Prod.fst).Perm
        (s.reserved.map Prod.fst ++ s.history.map Prod.fst) := by
      rw [List.map_append, ← List.append_assoc]
      refine List.perm_append_comm.trans ?_
      rw [← List.append_assoc]
      exact (hreserved.map Prod.fst).append_right _
    have hunused : r.1 ∉ s.history.map Prod.fst := by
      have hmem : r.1 ∈ s.reserved.map Prod.fst := List.mem_map_of_mem (List.mem_of_getElem? hr)
      exact fun hused => (List.nodup_append.1 h.numbers).2.2 _ hmem _ hused rfl
    refine ⟨hperm.nodup_iff.2 h.numbers, fun id hid => h.below id (hperm.mem_iff.1 hid), ?_, ?_, ?_, ?_, ?_⟩
    · intro o ho
      rw [List.map_append, List.mem_append] at ho ⊢
      exact ho.imp (h.origins o) id
    · rw [List.map_append, List.nodup_append]
      refine ⟨h.distinct, List.nodup_singleton _, fun a ha b hb hab => ?_⟩
      rw [List.mem_singleton.1 hb] at hab
      exact hunused (hab ▸ h.origins a ha)
    · rw [List.map_append, List.map_append, List.append_assoc]
      exact (h.accounted.append_right _).trans
        (by rw [List.append_assoc]; exact List.perm_append_comm.append_left _)
    · intro p hp
      rcases List.mem_append.1 hp with hp | hp
      · exact List.mem_append_left _ (h.items p hp)
      · rw [List.mem_singleton.1 hp]
        exact List.mem_append_right _ (List.mem_singleton_self _)
    · intro p hp
      rcases List.mem_append.1 hp with hp | hp
      · exact List.mem_append_left _ (h.current p hp)
      · rw [List.mem_singleton.1 hp]
        exact List.mem_append_right _ (List.mem_singleton_self _)

theorem Inv.ack {s : State τ γ} (h : Inv s) (id : ℕ) : Inv (s.ack id) := by
  refine ⟨h.numbers, h.below, h.origins, h.distinct, h.accounted.trans ?_,
    fun p hp => h.items p (List.mem_of_mem_filter hp), fun p hp => h.current p (List.mem_of_mem_filter hp)⟩
  have hsplit := List.filter_append_perm (fun p : Pending τ γ => decide (p.id ≠ id)) s.pending
  have hnot : (fun p : Pending τ γ => !decide (p.id ≠ id)) = fun p => decide (p.id = id) := by
    funext p
    by_cases hp : p.id = id <;> simp [hp]
  rw [hnot] at hsplit
  have horigins := (hsplit.map Pending.origin).symm
  rw [List.map_append] at horigins
  refine (horigins.append_right _).trans ?_
  rw [List.append_assoc]
  exact List.perm_append_comm.append_left _

/-! ### Sending again -/

theorem late_numbers (s : State τ γ) (isLate : τ → Bool) :
    (s.late isLate).map Prod.snd = List.range' s.next (s.late isLate).length := by
  rw [State.late, List.zipIdx_map_snd, List.length_zipIdx]

theorem late_pending (s : State τ γ) (isLate : τ → Bool) :
    (s.late isLate).map Prod.fst = s.pending.filter fun p => isLate p.sentTs :=
  List.zipIdx_map_fst _ _

theorem mem_late {s : State τ γ} {isLate : τ → Bool} {x : Pending τ γ × ℕ} (hx : x ∈ s.late isLate) :
    x.1 ∈ s.pending ∧ isLate x.1.sentTs = true ∧ s.next ≤ x.2 ∧ x.2 < s.next + (s.late isLate).length := by
  have hfst := List.mem_map_of_mem (f := Prod.fst) hx
  have hsnd := List.mem_map_of_mem (f := Prod.snd) hx
  rw [late_pending] at hfst
  rw [late_numbers, List.mem_range'_1] at hsnd
  exact ⟨List.mem_of_mem_filter hfst, (List.mem_filter.1 hfst).2, hsnd⟩

theorem resend_origins (s : State τ γ) (isLate : τ → Bool) (now : τ) :
    ((s.resend isLate now).pending.map Pending.origin).Perm (s.pending.map Pending.origin) := by
  have hagain : ((s.late isLate).map fun x => x.1.again now x.2).map Pending.origin =
      (s.pending.filter fun p => isLate p.sentTs).map Pending.origin := by
    rw [← late_pending, List.map_map, List.map_map]
    rfl
  rw [State.resend, List.map_append, hagain, ← List.map_append]
  refine List.Perm.map _ (List.perm_append_comm.trans ?_)
  exact List.filter_append_perm (fun p : Pending τ γ => isLate p.sentTs) s.pending

theorem Inv.resend {s : State τ γ} (h : Inv s) (isLate : τ → Bool) (now : τ) : Inv (s.resend isLate now) := by
  have hnumbers :
      ((s.resend isLate now).reserved.map Prod.fst ++ (s.resend isLate now).history.map Prod.fst) =
      (s.reserved.map Prod.fst ++ s.history.map Prod.fst) ++
        List.range' s.next (s.late isLate).length := by
    rw [State.resend, List.map_append, ← late_numbers, List.map_map, List.append_assoc]
    rfl
  refine ⟨?_, ?_, ?_, h.distinct, ?_, ?_, ?_⟩
  · rw [hnumbers, List.nodup_append]
    refine ⟨h.numbers, List.nodup_range', fun a ha b hb hab => ?_⟩
    have hlt := h.below a ha
    rw [List.mem_range'_1] at hb
    omega
  · intro id hid
    rw [hnumbers] at hid
    show id < s.next + (s.late isLate).length
    rcases List.mem_append.1 hid with hid | hid
    · exact Nat.lt_add_right _ (h.below id hid)
    · exact (List.mem_range'_1.1 hid).2
  · intro o ho
    rw [State.resend, List.map_append]
    exact List.mem_append_left _ (h.origins o ho)
  · exact h.accounted.trans ((resend_origins s isLate now).symm.append_right _)
  · intro p hp
    rcases List.mem_append.1 hp with hp | hp
    · exact h.items p (List.mem_of_mem_filter hp)
    · obtain ⟨x, hx, rfl⟩ := List.mem_map.1 hp
      exact h.items x.1 (mem_late hx).1
  · intro p hp
    rcases List.mem_append.1 hp with hp | hp
    · exact List.mem_append_left _ (h.current p (List.mem_of_mem_filter hp))
    · obtain ⟨x, hx, rfl⟩ := List.mem_map.1 hp
      exact List.mem_append_right _ (List.mem_map.2 ⟨x, hx, rfl⟩)

/-! ### Acknowledged items -/

/-- Every transmission is one of an item that was sent. -/
def Booked (s : State τ γ) : Prop := ∀ t ∈ s.history, t.2 ∈ s.sent.map Prod.fst

theorem booked_init : Booked (State.init : State τ γ) := by simp [Booked, State.init]

theorem Booked.send {s : State τ γ} (h : Booked s) (now : τ) (i : ℕ) : Booked (s.send now i) := by
  unfold State.send
  cases s.reserved[i]? with
  | none => exact h
  | some r =>
    intro t ht
    rw [List.map_append, List.mem_append]
    rcases List.mem_append.1 ht with ht | ht
    · exact .inl (h t ht)
    · rw [List.mem_singleton.1 ht]
      exact .inr (List.mem_singleton_self _)

theorem Booked.resend {s : State τ γ} (h : Booked s) (hinv : Inv s) (isLate : τ → Bool) (now : τ) :
    Booked (s.resend isLate now) := by
  intro t ht
  rcases List.mem_append.1 ht with ht | ht
  · exact h t ht
  · obtain ⟨x, hx, rfl⟩ := List.mem_map.1 ht
    exact List.mem_map_of_mem (hinv.items x.1 (mem_late hx).1)

/-- `s'` comes after `s`: nothing that was booked is lost, and an item that was acknowledged is not
transmitted again. -/
structure Follows (s s' : State τ γ) : Prop where
  sent : ∀ r ∈ s.sent, r ∈ s'.sent
  history : ∀ t ∈ s.history, t ∈ s'.history
  acked : ∀ o ∈ s.acked, o ∈ s'.acked
  settled : ∀ t ∈ s'.history, t.2 ∈ s.acked → t ∈ s.history

theorem Follows.refl (s : State τ γ) : Follows s s :=
  ⟨fun _ => id, fun _ => id, fun _ => id, fun _ h _ => h⟩

theorem Follows.trans {s s' s'' : State τ γ} (h : Follows s s') (h' : Follows s' s'') : Follows s s'' where
  sent r hr := h'.sent r (h.sent r hr)
  history t ht := h'.history t (h.history t ht)
  acked o ho := h'.acked o (h.acked o ho)
  settled t ht ho := h.settled t (h'.settled t ht (h.acked _ ho)) ho

theorem follows_reserve (s : State τ γ) (item : γ) : Follows s (s.reserve item) :=
  ⟨fun _ => id, fun _ => id, fun _ => id, fun _ h _ => h⟩

theorem follows_ack (s : State τ γ) (id : ℕ) : Follows s (s.ack id) :=
  ⟨fun _ h => h, fun _ h => h, fun _ => List.mem_append_left _, fun _ h _ => h⟩

theorem Inv.follows_send {s : State τ γ} (h : Inv s) (now : τ) (i : ℕ) : Follows s (s.send now i) := by
  unfold State.send
  cases hr : s.reserved[i]? with
  | none => exact .refl s
  | some r =>
    refine ⟨fun _ => List.mem_append_left _, fun _ => List.mem_append_left _, fun _ ho => ho,
      fun t ht hacked => ?_⟩
    rcases List.mem_append.1 ht with ht | ht
    · exact ht
    -- an item is sent once, and only what was sent is acknowledged
    · rw [List.mem_singleton.1 ht] at hacked
      have hsent := h.accounted.mem_iff.2 (List.mem_append_right _ hacked)
      have hreserved : r.1 ∈ s.reserved.map Prod.fst := List.mem_map_of_mem (List.mem_of_getElem? hr)
      exact absurd rfl ((List.nodup_append.1 h.numbers).2.2 _ hreserved _ (h.origins _ hsent))

theorem Inv.follows_resend {s : State τ γ} (h : Inv s) (isLate : τ → Bool) (now : τ) :
    Follows s (s.resend isLate now) := by
  refine ⟨fun _ hr => hr, fun _ => List.mem_append_left _, fun _ ho => ho, fun t ht hacked => ?_⟩
  rcases List.mem_append.1 ht with ht | ht
  · exact ht
  · obtain ⟨x, hx, rfl⟩ := List.mem_map.1 ht
    have hpending : x.1.origin ∈ s.pending.map Pending.origin := List.mem_map_of_mem (mem_late hx).1
    have hnodup := h.accounted.nodup_iff.1 h.distinct
    exact absurd rfl ((List.nodup_append.1 hnodup).2.2 _ hpending _ hacked)

theorem mem_acked_foldl {s : State τ γ} {ids : List ℕ} {o : ℕ} :
    o ∈ (ids.foldl State.ack s).acked ↔ o ∈ s.acked ∨ ∃ p ∈ s.pending, p.id ∈ ids ∧ p.origin = o := by
  induction ids generalizing s with
  | nil => simp
  | cons id ids ih =>
    rw [List.foldl_cons, ih]
    simp only [State.ack, List.mem_append, List.mem_map, List.mem_filter, decide_eq_true_eq, List.mem_cons,
      ne_eq]
    constructor
    · rintro ((ho | ⟨p, ⟨hp, hid⟩, ho⟩) | ⟨p, ⟨hp, -⟩, hid, ho⟩)
      · exact .inl ho
      · exact .inr ⟨p, hp, .inl hid, ho⟩
      · exact .inr ⟨p, hp, .inr hid, ho⟩
    · rintro (ho | ⟨p, hp, hid, ho⟩)
      · exact .inl (.inl ho)
      · by_cases hpid : p.id = id
        · exact .inl (.inr ⟨p, ⟨hp, hpid⟩, ho⟩)
        · exact .inr ⟨p, ⟨hp, hpid⟩, hid.resolve_left hpid, ho⟩

theorem mem_pending_foldl {s : State τ γ} {ids : List ℕ} {p : Pending τ γ} :
    p ∈ (ids.foldl State.ack s).pending ↔ p ∈ s.pending ∧ p.id ∉ ids := by
  induction ids generalizing s with
  | nil => simp
  | cons id ids ih =>
    rw [List.foldl_cons, ih]
    simp only [State.ack, List.mem_filter, decide_eq_true_eq, List.mem_cons, not_or, and_assoc, ne_eq]

/-! ### What the invariant says -/

theorem Inv.pending_nodup {s : State τ γ} (h : Inv s) : (s.pending.map Pending.origin).Nodup :=
  (List.nodup_append.1 (h.accounted.nodup_iff.1 h.distinct)).1

theorem Inv.history_unique {s : State τ γ} (h : Inv s) {id o o' : ℕ} (ho : (id, o) ∈ s.history)
    (ho' : (id, o') ∈ s.history) : o = o' := by
  have hnodup := (List.nodup_append.1 h.numbers).2.1
  exact congrArg Prod.snd (List.inj_on_of_nodup_map hnodup ho ho' rfl)

/-- An item that was sent and is not acknowledged is pending exactly once, as it was reserved. -/
theorem Inv.pending_once {s : State τ γ} (h : Inv s) {o : ℕ} {item : γ} (hsent : (o, item) ∈ s.sent)
    (hacked : o ∉ s.acked) :
    ∃ p, s.pending.filter (fun p => p.origin = o) = [p] ∧ p.item = item := by
  have hmem : o ∈ s.pending.map Pending.origin := by
    have hall := h.accounted.mem_iff.1 (List.mem_map_of_mem (f := Prod.fst) hsent)
    exact (List.mem_append.1 hall).resolve_right hacked
  obtain ⟨p, hp, rfl⟩ := List.mem_map.1 hmem
  refine ⟨p, ?_, ?_⟩
  · refine List.perm_singleton.1 ((List.perm_ext_iff_of_nodup
      ((List.Nodup.of_map _ h.pending_nodup).filter _) (List.nodup_singleton p)).2 fun q => ?_)
    rw [List.mem_filter, List.mem_singleton, decide_eq_true_eq]
    constructor
    · rintro ⟨hq, horigin⟩
      exact List.inj_on_of_nodup_map h.pending_nodup hq hp horigin
    · rintro rfl
      exact ⟨hp, rfl⟩
  · exact congrArg Prod.snd (List.inj_on_of_nodup_map h.distinct (h.items p hp) hsent rfl)

end Outbox
