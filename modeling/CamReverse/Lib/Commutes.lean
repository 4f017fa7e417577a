import CamReverse.Lib.Effect

/-!
# Programs that do not see a part of the state

`Mirrors φ m m'` says that `m'` does on the image of a state what `m` does on the state itself, and leaves the image of
the result behind. So what `φ` forgets has no influence on what `m` returns, nor on the rest of the state. It is closed
under the ways programs are put together. `Commutes φ m` is the case of one program on both sides.
-/

namespace Effect

variable {ε σ σ' τ τ' α β : Type}

/-- The result with the image of its state. -/
def imaged (φ : σ → σ') : EStateM.Result ε σ α → EStateM.Result ε σ' α
  | .ok a s => .ok a (φ s)
  | .error e s => .error e (φ s)

theorem imaged_bind {φ : σ → σ'} {m : EStateM ε σ α} {m' : EStateM ε σ' α} {k : α → EStateM ε σ β}
    {k' : α → EStateM ε σ' β} {s : σ} {s' : σ'} (h : m' s' = imaged φ (m s)) (hk : ∀ a t, k' a (φ t) = imaged φ (k a t)) :
    (m' >>= k') s' = imaged φ ((m >>= k) s) := by
  cases hrun : m s with
  | ok a t =>
    rw [hrun] at h
    rw [bind_ok hrun, bind_ok h]
    exact hk a t
  | error e t =>
    rw [hrun] at h
    rw [bind_error hrun, bind_error h]
    rfl

theorem imaged_attempt {φ : σ → σ'} {m : EStateM ε σ α} {m' : EStateM ε σ' α} {s : σ} {s' : σ'}
    (h : m' s' = imaged φ (m s)) : Effect.attempt m' s' = imaged φ (Effect.attempt m s) := by
  unfold Effect.attempt
  rw [h]
  cases m s <;> rfl

def Mirrors (φ : σ → σ') (m : EStateM ε σ α) (m' : EStateM ε σ' α) : Prop := ∀ s, m' (φ s) = imaged φ (m s)

namespace Mirrors

variable {φ : σ → σ'}

theorem final {m : EStateM ε σ α} {m' : EStateM ε σ' α} (h : Mirrors φ m m') (s : σ) :
    final m' (φ s) = φ (final m s) := by
  unfold Effect.final
  rw [h s]
  cases m s <;> rfl

theorem pure (a : α) : Mirrors φ (Pure.pure a : EStateM ε σ α) (Pure.pure a) := fun _ => rfl

theorem lift (x : Except ε α) : Mirrors φ (Effect.lift x : EStateM ε σ α) (Effect.lift x) := fun _ => by
  cases x <;> rfl

theorem modify {f : σ → σ} {f' : σ' → σ'} (h : ∀ s, f' (φ s) = φ (f s)) :
    Mirrors φ (modify f : EStateM ε σ PUnit) (modify f') := fun s =>
  congrArg (EStateM.Result.ok PUnit.unit) (h s)

theorem ite {c : Prop} [Decidable c] {m n : EStateM ε σ α} {m' n' : EStateM ε σ' α} (h : Mirrors φ m m')
    (h' : Mirrors φ n n') : Mirrors φ (if c then m else n) (if c then m' else n') := by
  split
  · exact h
  · exact h'

theorem bind {m : EStateM ε σ α} {m' : EStateM ε σ' α} {k : α → EStateM ε σ β} {k' : α → EStateM ε σ' β}
    (hm : Mirrors φ m m') (hk : ∀ a, Mirrors φ (k a) (k' a)) : Mirrors φ (m >>= k) (m' >>= k') :=
  fun s => imaged_bind (hm s) hk

theorem get_bind {k : σ → EStateM ε σ α} {k' : σ' → EStateM ε σ' α} (hk : ∀ s, Mirrors φ (k s) (k' (φ s))) :
    Mirrors φ (get >>= k) (get >>= k') := fun s => by
  rw [get_bind_apply, get_bind_apply]
  exact hk s s

theorem forM {l : List α} {f : α → EStateM ε σ PUnit} {f' : α → EStateM ε σ' PUnit}
    (h : ∀ a ∈ l, Mirrors φ (f a) (f' a)) : Mirrors φ (l.forM f) (l.forM f') := by
  induction l with
  | nil => exact Mirrors.pure _
  | cons a l ih => exact (h a List.mem_cons_self).bind fun _ => ih fun b hb => h b (List.mem_cons_of_mem _ hb)

theorem mapM {l : List α} {f : α → EStateM ε σ β} {f' : α → EStateM ε σ' β} (h : ∀ a ∈ l, Mirrors φ (f a) (f' a)) :
    Mirrors φ (l.mapM f) (l.mapM f') := by
  induction l with
  | nil => exact Mirrors.pure _
  | cons a l ih =>
    rw [List.mapM_cons, List.mapM_cons]
    exact (h a List.mem_cons_self).bind fun _ =>
      (ih fun b hb => h b (List.mem_cons_of_mem _ hb)).bind fun _ => Mirrors.pure _

theorem attempt {m : EStateM ε σ α} {m' : EStateM ε σ' α} (h : Mirrors φ m m') :
    Mirrors φ (Effect.attempt m) (Effect.attempt m') := fun s => imaged_attempt (h s)

theorem onPart {read : σ → τ} {write : τ → σ → σ} {read' : σ' → τ'} {write' : τ' → σ' → σ'} {ψ : τ → τ'}
    {m : EStateM ε τ α} {m' : EStateM ε τ' α} (h : Mirrors ψ m m') (hread : ∀ s, read' (φ s) = ψ (read s))
    (hwrite : ∀ t s, write' (ψ t) (φ s) = φ (write t s)) :
    Mirrors φ (onPart read write m) (onPart read' write' m') := fun s => by
  unfold Effect.onPart
  rw [hread, h]
  cases m (read s) with
  | ok a t => exact congrArg (EStateM.Result.ok a) (hwrite t s)
  | error e t => exact congrArg (EStateM.Result.error e) (hwrite t s)

end Mirrors

/-! ### One program -/

/-- The result with its state changed. -/
def changed (φ : σ → σ) : EStateM.Result ε σ α → EStateM.Result ε σ α
  | .ok a s => .ok a (φ s)
  | .error e s => .error e (φ s)

def Commutes (φ : σ → σ) (m : EStateM ε σ α) : Prop := ∀ s, m (φ s) = changed φ (m s)

theorem commutes_iff {φ : σ → σ} {m : EStateM ε σ α} : Commutes φ m ↔ Mirrors φ m m := by
  have hresult : ∀ r : EStateM.Result ε σ α, changed φ r = imaged φ r := fun r => by cases r <;> rfl
  unfold Commutes Mirrors
  simp only [hresult]

namespace Commutes

variable {φ : σ → σ}

theorem pure (a : α) : Commutes φ (Pure.pure a : EStateM ε σ α) := fun _ => rfl

theorem lift (x : Except ε α) : Commutes φ (Effect.lift x : EStateM ε σ α) := commutes_iff.2 (Mirrors.lift x)

theorem ite {c : Prop} [Decidable c] {m m' : EStateM ε σ α} (h : Commutes φ m) (h' : Commutes φ m') :
    Commutes φ (if c then m else m') :=
  commutes_iff.2 (Mirrors.ite (commutes_iff.1 h) (commutes_iff.1 h'))

theorem bind {m : EStateM ε σ α} {k : α → EStateM ε σ β} (hm : Commutes φ m) (hk : ∀ a, Commutes φ (k a)) :
    Commutes φ (m >>= k) :=
  commutes_iff.2 ((commutes_iff.1 hm).bind fun a => commutes_iff.1 (hk a))

theorem get_bind {k : σ → EStateM ε σ α} (hsame : ∀ s, k (φ s) = k s) (hk : ∀ s, Commutes φ (k s)) :
    Commutes φ (get >>= k) :=
  commutes_iff.2 (Mirrors.get_bind fun s => by
    rw [hsame s]
    exact commutes_iff.1 (hk s))

end Commutes

end Effect
