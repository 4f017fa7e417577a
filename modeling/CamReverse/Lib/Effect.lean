import Mathlib.Order.Defs.Unbundled

/-!
# Programs with state and exceptions

A program is an `EStateM ε σ α`: what it wrote before it raised stays written. `final` is the state it
leaves behind either way and `outcome` what it returned or raised.

`Along R m` says that every run of `m` moves the state along the preorder `R`. It is closed under the
ways programs are put together, so an invariant of a large program is checked at its primitive steps
only.
-/

namespace Effect

variable {ε σ τ α β : Type}

/-- The state a program leaves behind, whether it returned or raised. -/
def final (m : EStateM ε σ α) (s : σ) : σ :=
  match m s with
  | .ok _ t => t
  | .error _ t => t

/-- What a program returned or raised. -/
def outcome (m : EStateM ε σ α) (s : σ) : Except ε α :=
  match m s with
  | .ok a _ => .ok a
  | .error e _ => .error e

/-- A computation without state, run inside a program. -/
def lift (x : Except ε α) : EStateM ε σ α := fun s =>
  match x with
  | .ok a => .ok a s
  | .error e => .error e s

instance monadLiftExcept : MonadLift (Except ε) (EStateM ε σ) := ⟨lift⟩

/-- A program on one component of the state. -/
def onPart (read : σ → τ) (write : τ → σ → σ) (m : EStateM ε τ α) : EStateM ε σ α := fun s =>
  match m (read s) with
  | .ok a t => .ok a (write t s)
  | .error e t => .error e (write t s)

/-- Run `m` and swallow what it raises. -/
def attempt (m : EStateM ε σ α) : EStateM ε σ (Option α) := fun s =>
  match m s with
  | .ok a t => .ok (some a) t
  | .error _ t => .ok none t

theorem bind_ok {m : EStateM ε σ α} {s t : σ} {a : α} (h : m s = .ok a t) (k : α → EStateM ε σ β) :
    (m >>= k) s = k a t := by
  show EStateM.bind m k s = _
  simp only [EStateM.bind, h]

theorem bind_error {m : EStateM ε σ α} {s t : σ} {e : ε} (h : m s = .error e t)
    (k : α → EStateM ε σ β) : (m >>= k) s = .error e t := by
  show EStateM.bind m k s = _
  simp only [EStateM.bind, h]

theorem bind_eq_ok {m : EStateM ε σ α} {k : α → EStateM ε σ β} {s t : σ} {b : β} (h : (m >>= k) s = .ok b t) :
    ∃ a s', m s = .ok a s' ∧ k a s' = .ok b t := by
  cases hrun : m s with
  | ok a s' => exact ⟨a, s', rfl, (bind_ok hrun k).symm.trans h⟩
  | error e s' =>
    rw [bind_error hrun] at h
    cases h

@[simp] theorem get_bind_apply (k : σ → EStateM ε σ α) (s : σ) : (get >>= k) s = k s s := rfl

@[simp] theorem modify_bind_apply (f : σ → σ) (k : PUnit → EStateM ε σ α) (s : σ) :
    (modify f >>= k) s = k ⟨⟩ (f s) := rfl

@[simp] theorem liftM_eq_lift (x : Except ε α) :
    (liftM x : EStateM ε σ α) = lift x := rfl

@[simp] theorem lift_ok_bind (a : α) (k : α → EStateM ε σ β) :
    (lift (.ok a) : EStateM ε σ α) >>= k = k a := rfl

@[simp] theorem except_ok_bind (a : α) (f : α → Except ε β) : Except.ok a >>= f = f a := rfl

@[simp] theorem except_error_bind (e : ε) (f : α → Except ε β) :
    Except.error e >>= f = Except.error e := rfl

theorem except_bind_eq_ok {x : Except ε α} {f : α → Except ε β} {b : β} (h : x >>= f = .ok b) :
    ∃ a, x = .ok a ∧ f a = .ok b := by
  cases x with
  | error e => cases h
  | ok a => exact ⟨a, rfl, h⟩

theorem lift_bind (x : Except ε α) (f : α → Except ε β) :
    (lift (x >>= f) : EStateM ε σ β) = lift x >>= fun a => lift (f a) := by
  cases x <;> rfl

@[simp] theorem lift_pure (a : α) : (lift (pure a) : EStateM ε σ α) = pure a := rfl

theorem lift_ite (c : Prop) [Decidable c] (x y : Except ε α) :
    (lift (if c then x else y) : EStateM ε σ α) = if c then lift x else lift y :=
  apply_ite lift c x y

theorem ite_bind (c : Prop) [Decidable c] (m m' : EStateM ε σ α) (k : α → EStateM ε σ β) :
    (if c then m else m') >>= k = if c then m >>= k else m' >>= k :=
  apply_ite (· >>= k) c m m'

theorem final_bind (m : EStateM ε σ α) (k : α → EStateM ε σ β) (s : σ) :
    final (m >>= k) s =
      match outcome m s with
      | .ok a => final (k a) (final m s)
      | .error _ => final m s := by
  unfold outcome final
  cases h : m s with
  | ok a t => rw [bind_ok h]
  | error e t => rw [bind_error h]

@[simp] theorem final_lift (x : Except ε α) (s : σ) : final (lift x : EStateM ε σ α) s = s := by
  cases x <;> rfl

@[simp] theorem final_attempt (m : EStateM ε σ α) (s : σ) : final (attempt m) s = final m s := by
  unfold final attempt
  cases m s <;> rfl

theorem final_onPart (read : σ → τ) (write : τ → σ → σ) (m : EStateM ε τ α) (s : σ) :
    final (onPart read write m) s = write (final m (read s)) s := by
  unfold final onPart
  cases m (read s) <;> rfl

/-! ### Computations that return -/

theorem isOk_iff {x : Except ε α} : x.isOk = true ↔ ∃ a, x = .ok a := by
  cases x with
  | error e => exact iff_of_false Bool.false_ne_true (by rintro ⟨_, ⟨⟩⟩)
  | ok a => exact iff_of_true rfl ⟨a, rfl⟩

theorem isOk_bind {x : Except ε α} {f : α → Except ε β} {P Q : Prop} (hx : x.isOk = true ↔ P)
    (hf : ∀ a, (f a).isOk = true ↔ Q) : (x >>= f).isOk = true ↔ P ∧ Q := by
  rw [← hx]
  cases x with
  | error e => exact iff_of_false Bool.false_ne_true fun h => Bool.false_ne_true h.1
  | ok a => exact (hf a).trans (and_iff_right rfl).symm

theorem isOk_map (f : α → β) (x : Except ε α) : (f <$> x).isOk = x.isOk := by
  cases x <;> rfl

theorem isOk_mapM {f : α → Except ε β} {l : List α} :
    (l.mapM f).isOk = true ↔ ∀ a ∈ l, (f a).isOk = true := by
  induction l with
  | nil => exact iff_of_true rfl (by simp)
  | cons a l ih =>
    rw [List.mapM_cons, List.forall_mem_cons, ← ih]
    refine isOk_bind Iff.rfl fun b => ?_
    exact (isOk_bind Iff.rfl fun bs => iff_of_true rfl trivial).trans (and_iff_left trivial)

/-- A loop over a state whose invariant decides which of its rounds return. -/
theorem isOk_foldlM {f : β → α → Except ε β} {I : β → Prop} {P : α → Prop}
    (hstep : ∀ b a, I b → ((f b a).isOk = true ↔ P a)) (hkeep : ∀ b a b', I b → f b a = .ok b' → I b')
    {l : List α} {b : β} (hb : I b) :
    ((l.foldlM f b).isOk = true ↔ ∀ a ∈ l, P a) ∧ ∀ b', l.foldlM f b = .ok b' → I b' := by
  induction l generalizing b with
  | nil => exact ⟨iff_of_true rfl (by simp), fun b' h => Except.ok.inj h ▸ hb⟩
  | cons a l ih =>
    rw [List.foldlM_cons, List.forall_mem_cons, ← hstep b a hb]
    cases hrun : f b a with
    | error e =>
      exact ⟨iff_of_false Bool.false_ne_true fun h => Bool.false_ne_true h.1, by rintro b' ⟨⟩⟩
    | ok b₁ =>
      obtain ⟨hiff, hkept⟩ := ih (hkeep b a b₁ hb hrun)
      exact ⟨hiff.trans (and_iff_right rfl).symm, hkept⟩

/-- The program returns. -/
def Returns (m : EStateM ε σ α) (s : σ) : Prop := ∃ a t, m s = .ok a t

theorem not_returns {m : EStateM ε σ α} {s : σ} : ¬Returns m s ↔ ∃ e t, m s = .error e t := by
  unfold Returns
  cases m s with
  | ok a t => exact iff_of_false (fun h => h ⟨a, t, rfl⟩) (by rintro ⟨_, _, ⟨⟩⟩)
  | error e t => exact iff_of_true (by rintro ⟨_, _, ⟨⟩⟩) ⟨e, t, rfl⟩

theorem Returns.run_eq {m : EStateM ε σ PUnit} {s : σ} (h : Returns m s) : m s = .ok ⟨⟩ (final m s) := by
  obtain ⟨a, t, hrun⟩ := h
  rw [final, hrun]

theorem returns_pure (a : α) (s : σ) : Returns (pure a : EStateM ε σ α) s := ⟨a, s, rfl⟩

theorem returns_bind {m : EStateM ε σ α} {s t : σ} {a : α} (h : m s = .ok a t) (k : α → EStateM ε σ β) :
    Returns (m >>= k) s ↔ Returns (k a) t := by
  unfold Returns
  rw [bind_ok h]

theorem Returns.of_bind {m : EStateM ε σ α} {k : α → EStateM ε σ β} {s : σ} (h : Returns (m >>= k) s) :
    Returns m s := by
  cases hm : m s with
  | ok a t => exact ⟨a, t, hm⟩
  | error e t =>
    obtain ⟨b, u, hrun⟩ := h
    rw [bind_error hm] at hrun
    cases hrun

theorem returns_bind_pure (m : EStateM ε σ α) (f : α → β) (s : σ) :
    Returns (m >>= fun a => pure (f a)) s ↔ Returns m s :=
  ⟨Returns.of_bind, fun ⟨a, t, h⟩ => (returns_bind h _).2 (returns_pure (f a) t)⟩

theorem returns_lift_bind {x : Except ε α} {k : α → EStateM ε σ β} {s : σ} :
    Returns (lift x >>= k) s ↔ ∃ a, x = .ok a ∧ Returns (k a) s := by
  cases x with
  | error e => exact iff_of_false (by rintro ⟨_, _, ⟨⟩⟩) (by rintro ⟨_, ⟨⟩, _⟩)
  | ok a => exact ⟨fun h => ⟨a, rfl, h⟩, fun ⟨_, h, hk⟩ => Except.ok.inj h ▸ hk⟩

theorem returns_forM {f : α → EStateM ε σ PUnit} {P : α → Prop} (hf : ∀ a s, Returns (f a) s ↔ P a)
    (l : List α) (s : σ) : Returns (l.forM f) s ↔ ∀ a ∈ l, P a := by
  induction l generalizing s with
  | nil => exact iff_of_true (returns_pure _ s) (by simp)
  | cons a l ih =>
    rw [List.forall_mem_cons, ← hf a s, List.forM]
    constructor
    · intro h
      obtain ⟨u, t, hrun⟩ := h.of_bind
      exact ⟨⟨u, t, hrun⟩, (ih t).1 ((returns_bind hrun _).1 h)⟩
    · rintro ⟨⟨u, t, hrun⟩, hrest⟩
      exact (returns_bind hrun _).2 ((ih t).2 hrest)

/-! ### What is returned -/

/-- Whatever `m` returns is such a value. -/
def Yields (P : α → Prop) (m : EStateM ε σ α) : Prop := ∀ s a t, m s = .ok a t → P a

namespace Yields

variable {P : β → Prop}

theorem pure {b : β} (h : P b) : Yields P (Pure.pure b : EStateM ε σ β) := by
  rintro s a t ⟨⟩
  exact h

theorem mono {Q : β → Prop} {m : EStateM ε σ β} (hm : Yields Q m) (h : ∀ b, Q b → P b) : Yields P m :=
  fun s b t hrun => h b (hm s b t hrun)

theorem bind {Q : α → Prop} {m : EStateM ε σ α} {k : α → EStateM ε σ β} (hm : Yields Q m)
    (hk : ∀ a, Q a → Yields P (k a)) : Yields P (m >>= k) := by
  intro s b u h
  cases hrun : m s with
  | ok a t =>
    rw [bind_ok hrun] at h
    exact hk a (hm s a t hrun) t b u h
  | error e t =>
    rw [bind_error hrun] at h
    cases h

theorem behind {m : EStateM ε σ α} {k : α → EStateM ε σ β} (hk : ∀ a, Yields P (k a)) : Yields P (m >>= k) :=
  bind (Q := fun _ => True) (fun _ _ _ _ => trivial) fun a _ => hk a

theorem ite {c : Prop} [Decidable c] {m m' : EStateM ε σ β} (h : Yields P m) (h' : Yields P m') :
    Yields P (if c then m else m') := by
  split
  · exact h
  · exact h'

theorem mapM {l : List α} {f : α → EStateM ε σ β} (h : ∀ a, Yields P (f a)) :
    Yields (fun bs : List β => ∀ b ∈ bs, P b) (l.mapM f) := by
  induction l with
  | nil => exact pure (by simp)
  | cons a l ih =>
    rw [List.mapM_cons]
    exact bind (h a) fun b hb => bind ih fun bs hbs => pure (List.forall_mem_cons.2 ⟨hb, hbs⟩)

end Yields

/-! ### Moving along a preorder -/

/-- Every run of `m` moves the state along `R`. -/
def Along (R : σ → σ → Prop) (m : EStateM ε σ α) : Prop := ∀ s, R s (final m s)

namespace Along

variable {R : σ → σ → Prop}

theorem modify {f : σ → σ} (h : ∀ s, R s (f s)) : Along R (modify f : EStateM ε σ PUnit) := h

theorem get_bind {k : σ → EStateM ε σ α} (hk : ∀ s, R s (final (k s) s)) :
    Along R (get >>= k) := hk

theorem ite {c : Prop} [Decidable c] {m m' : EStateM ε σ α} (h : c → Along R m)
    (h' : ¬c → Along R m') : Along R (if c then m else m') := by
  split
  · exact h ‹_›
  · exact h' ‹_›

variable [IsPreorder σ R]

theorem pure (a : α) : Along R (Pure.pure a : EStateM ε σ α) := fun s => refl_of R s

theorem lift (x : Except ε α) : Along R (Effect.lift x : EStateM ε σ α) := fun s => by
  rw [final_lift]
  exact refl_of R s

theorem lift_bind {x : Except ε α} {k : α → EStateM ε σ β} (hk : ∀ a, x = .ok a → Along R (k a)) :
    Along R (Effect.lift x >>= k) := by
  cases x with
  | ok a => exact hk a rfl
  | error e => exact Along.lift (R := R) (.error e)

theorem bind {m : EStateM ε σ α} {k : α → EStateM ε σ β} (hm : Along R m)
    (hk : ∀ a, Along R (k a)) : Along R (m >>= k) := fun s => by
  rw [final_bind]
  cases outcome m s with
  | ok a => exact trans_of R (hm s) (hk a _)
  | error e => exact hm s

theorem bind_yields {P : α → Prop} {m : EStateM ε σ α} {k : α → EStateM ε σ β} (hm : Along R m)
    (hyields : Yields P m) (hk : ∀ a, P a → Along R (k a)) : Along R (m >>= k) := fun s => by
  cases hrun : m s with
  | ok a t =>
    have hms := hm s
    rw [final, hrun] at hms
    rw [final, bind_ok hrun, ← final]
    exact trans_of R hms (hk a (hyields s a t hrun) t)
  | error e t =>
    have hms := hm s
    rw [final, hrun] at hms
    rw [final, bind_error hrun]
    exact hms

theorem tryCatch {m : EStateM ε σ α} {handle : ε → EStateM ε σ α} (hm : Along R m) (hh : ∀ e, Along R (handle e)) :
    Along R (MonadExcept.tryCatch m handle) := fun s => by
  have hms := hm s
  show R s (final (EStateM.tryCatch m handle) s)
  unfold final EStateM.tryCatch
  rw [final] at hms
  cases hrun : m s with
  | ok a t =>
    rw [hrun] at hms
    exact hms
  | error e t =>
    rw [hrun] at hms
    exact trans_of R hms (hh e t)

theorem forM {l : List α} {f : α → EStateM ε σ PUnit} (h : ∀ a ∈ l, Along R (f a)) :
    Along R (l.forM f) := by
  induction l with
  | nil => exact Along.pure _
  | cons a l ih =>
    exact Along.bind (h a List.mem_cons_self) fun _ => ih fun b hb => h b (List.mem_cons_of_mem _ hb)

omit [IsPreorder σ R] in
theorem attempt {m : EStateM ε σ α} (h : Along R m) : Along R (Effect.attempt m) := fun s => by
  rw [final_attempt]
  exact h s

theorem mapM {l : List α} {f : α → EStateM ε σ β} (h : ∀ a ∈ l, Along R (f a)) :
    Along R (l.mapM f) := by
  induction l with
  | nil => exact Along.pure _
  | cons a l ih =>
    rw [List.mapM_cons]
    exact Along.bind (h a List.mem_cons_self) fun _ =>
      Along.bind (ih fun b hb => h b (List.mem_cons_of_mem _ hb)) fun _ => Along.pure _

end Along

/-- From `s` to `t` an invariant was kept. -/
def Keeps (I : σ → Prop) (s t : σ) : Prop := I s → I t

instance (I : σ → Prop) : IsPreorder σ (Keeps I) where
  refl _ := id
  trans _ _ _ h h' := h' ∘ h

end Effect
