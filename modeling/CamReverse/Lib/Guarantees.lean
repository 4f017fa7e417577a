import CamReverse.Lib.Effect

/-!
# Programs that keep an invariant

`Guarantees I m P` says that `m` keeps the invariant `I`, also when it raises, and that whatever it returns from there is
such a value. What is returned may depend on the state, as long as the invariant says enough about it.
-/

namespace Effect

variable {ε σ α β : Type} {I : σ → Prop}

def Guarantees (I : σ → Prop) (m : EStateM ε σ α) (P : α → Prop) : Prop :=
  ∀ s, I s → I (final m s) ∧ ∀ a t, m s = .ok a t → P a

namespace Guarantees

theorem keeps {m : EStateM ε σ α} {P : α → Prop} (h : Guarantees I m P) : Along (Keeps I) m := fun s hs => (h s hs).1

theorem of_along {m : EStateM ε σ α} (h : Along (Keeps I) m) : Guarantees I m fun _ => True :=
  fun s hs => ⟨h s hs, fun _ _ _ => trivial⟩

theorem mono {m : EStateM ε σ α} {P Q : α → Prop} (h : Guarantees I m P) (himp : ∀ a, P a → Q a) :
    Guarantees I m Q :=
  fun s hs => ⟨(h s hs).1, fun a t hrun => himp a ((h s hs).2 a t hrun)⟩

theorem pure {a : α} {P : α → Prop} (h : P a) : Guarantees I (Pure.pure a : EStateM ε σ α) P := by
  refine fun s hs => ⟨hs, ?_⟩
  rintro _ _ ⟨⟩
  exact h

theorem lift {x : Except ε α} {P : α → Prop} (h : ∀ a, x = .ok a → P a) : Guarantees I (Effect.lift x) P := by
  intro s hs
  rw [final_lift]
  refine ⟨hs, fun a t hrun => ?_⟩
  cases x with
  | ok b =>
    obtain ⟨rfl, -⟩ := EStateM.Result.ok.inj hrun
    exact h _ rfl
  | error e => cases hrun

theorem bind {m : EStateM ε σ α} {k : α → EStateM ε σ β} {P : α → Prop} {Q : β → Prop} (hm : Guarantees I m P)
    (hk : ∀ a, P a → Guarantees I (k a) Q) : Guarantees I (m >>= k) Q := by
  intro s hs
  obtain ⟨hkeeps, hreturns⟩ := hm s hs
  cases hrun : m s with
  | ok a t =>
    rw [final, hrun] at hkeeps
    rw [final, bind_ok hrun, ← final]
    exact hk a (hreturns a t hrun) t hkeeps
  | error e t =>
    rw [final, hrun] at hkeeps
    rw [final, bind_error hrun]
    exact ⟨hkeeps, by rintro _ _ ⟨⟩⟩

theorem ite {c : Prop} [Decidable c] {m m' : EStateM ε σ α} {P : α → Prop} (h : c → Guarantees I m P)
    (h' : ¬c → Guarantees I m' P) : Guarantees I (if c then m else m') P := by
  split
  · exact h ‹_›
  · exact h' ‹_›

theorem mapM {l : List α} {f : α → EStateM ε σ β} {P : β → Prop} (h : ∀ a ∈ l, Guarantees I (f a) P) :
    Guarantees I (l.mapM f) fun bs => ∀ b ∈ bs, P b := by
  induction l with
  | nil => exact pure (by simp)
  | cons a l ih =>
    rw [List.mapM_cons]
    refine bind (h a List.mem_cons_self) fun b hb => ?_
    refine bind (ih fun a' ha' => h a' (List.mem_cons_of_mem _ ha')) fun bs hbs => ?_
    exact pure (List.forall_mem_cons.2 ⟨hb, hbs⟩)

end Guarantees

end Effect
