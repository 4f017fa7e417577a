import Mathlib.Data.List.Induction

/-!
# Runs of a step function

A run folds a step function over the inputs it is given, oldest first. `history` is the induction every
invariant of a run uses: the invariant may mention the inputs seen so far.
-/

namespace Runs

variable {σ ι : Type}

theorem concat_cases {seen before after : List ι} {i j : ι} (h : seen ++ [i] = before ++ j :: after) :
    (seen = before ∧ i = j ∧ after = []) ∨ ∃ after', after = after' ++ [i] ∧ seen = before ++ j :: after' := by
  rcases List.eq_nil_or_concat after with rfl | ⟨after, i', rfl⟩
  · obtain ⟨rfl, hlast⟩ := List.append_inj' h rfl
    exact .inl ⟨rfl, List.singleton_inj.1 hlast, rfl⟩
  · rw [List.concat_eq_append, ← List.cons_append, ← List.append_assoc] at h
    obtain ⟨hseen, hlast⟩ := List.append_inj' h rfl
    obtain rfl := List.singleton_inj.1 hlast
    exact .inr ⟨after, List.concat_eq_append, hseen⟩

/-- What holds at the start and is kept by every step, in terms of the inputs so far, holds of a run. -/
theorem history {step : σ → ι → σ} {P : List ι → σ → Prop} {s : σ} (hinit : P [] s)
    (hstep : ∀ seen t i, P seen t → P (seen ++ [i]) (step t i)) (is : List ι) :
    P is (is.foldl step s) := by
  induction is using List.reverseRecOn with
  | nil => exact hinit
  | append_singleton is i ih =>
    rw [List.foldl_append, List.foldl_cons, List.foldl_nil]
    exact hstep is _ i ih

/-- `history` for steps that meet a condition on the inputs before them, the state and the input. -/
theorem history_of {step : σ → ι → σ} {P : List ι → σ → Prop} {C : List ι → σ → ι → Prop} {s : σ}
    (hinit : P [] s) (hstep : ∀ seen t i, P seen t → C seen t i → P (seen ++ [i]) (step t i))
    (is : List ι) (hC : ∀ seen i rest, is = seen ++ i :: rest → C seen (seen.foldl step s) i) :
    P is (is.foldl step s) := by
  induction is using List.reverseRecOn with
  | nil => exact hinit
  | append_singleton is i ih =>
    rw [List.foldl_append, List.foldl_cons, List.foldl_nil]
    refine hstep is _ i (ih fun seen j rest h => hC seen j (rest ++ [i]) ?_) (hC is i [] rfl)
    rw [h, List.append_assoc, List.cons_append]

theorem invariant {step : σ → ι → σ} {I : σ → Prop} {s : σ} (hinit : I s)
    (hstep : ∀ t i, I t → I (step t i)) (is : List ι) : I (is.foldl step s) :=
  history (P := fun _ => I) hinit (fun _ t i => hstep t i) is

/-- Every step of a run meets a condition on the state before it and the input. -/
def Guarded (step : σ → ι → σ) (C : σ → ι → Prop) : σ → List ι → Prop
  | _, [] => True
  | s, i :: is => C s i ∧ Guarded step C (step s i) is

instance decidableGuarded (step : σ → ι → σ) (C : σ → ι → Prop) [∀ s i, Decidable (C s i)] :
    ∀ s is, Decidable (Guarded step C s is)
  | _, [] => inferInstanceAs (Decidable True)
  | s, i :: is =>
    have := decidableGuarded step C (step s i) is
    inferInstanceAs (Decidable (_ ∧ _))

theorem guarded {step : σ → ι → σ} {I : σ → Prop} {C : σ → ι → Prop} {s : σ} (hinit : I s)
    (hstep : ∀ t i, I t → C t i → I (step t i)) {is : List ι} (h : Guarded step C s is) :
    I (is.foldl step s) := by
  induction is generalizing s with
  | nil => exact hinit
  | cons i is ih => exact ih (hstep s i hinit h.1) h.2

theorem Guarded.step_of {step : σ → ι → σ} {C : σ → ι → Prop} {s : σ} {seen rest : List ι} {i : ι}
    (h : Guarded step C s (seen ++ i :: rest)) : C (seen.foldl step s) i := by
  induction seen generalizing s with
  | nil => exact h.1
  | cons j seen ih => exact ih h.2

theorem guarded_append {step : σ → ι → σ} {C : σ → ι → Prop} {s : σ} {is js : List ι} :
    Guarded step C s (is ++ js) ↔ Guarded step C s is ∧ Guarded step C (is.foldl step s) js := by
  induction is generalizing s with
  | nil => exact (and_iff_right trivial).symm
  | cons i is ih => exact (and_congr_right fun _ => ih).trans and_assoc.symm

theorem guarded_congr {step : σ → ι → σ} {C C' : σ → ι → Prop} {s : σ} {is : List ι}
    (h : ∀ t, ∀ i ∈ is, C t i ↔ C' t i) : Guarded step C s is ↔ Guarded step C' s is := by
  induction is generalizing s with
  | nil => exact Iff.rfl
  | cons i is ih =>
    exact and_congr (h s i List.mem_cons_self) (ih fun t j hj => h t j (List.mem_cons_of_mem _ hj))

/-- A property that a step keeps exactly under a condition holds all along a run exactly if every step
meets the condition; `J` is what every step keeps. -/
theorem guarded_iff {step : σ → ι → σ} {I J : σ → Prop} {C : σ → ι → Prop} {s : σ} (hJ : J s) (hI : I s)
    (hstepJ : ∀ t i, J t → J (step t i)) (hstep : ∀ t i, J t → I t → (I (step t i) ↔ C t i)) (is : List ι) :
    (∀ seen rest, is = seen ++ rest → I (seen.foldl step s)) ↔ Guarded step C s is := by
  constructor
  · intro h
    induction is generalizing s with
    | nil => trivial
    | cons i is ih =>
      have hnext : I (step s i) := h [i] is rfl
      refine ⟨(hstep s i hJ hI).1 hnext, ih (hstepJ s i hJ) hnext fun seen rest his => ?_⟩
      exact h (i :: seen) rest (congrArg (i :: ·) his)
  · intro h seen
    induction seen generalizing s is with
    | nil => exact fun _ _ => hI
    | cons i seen ih =>
      rintro rest rfl
      exact ih (hstepJ s i hJ) ((hstep s i hJ hI).2 h.1) (seen ++ rest) h.2 rest rfl

/-- Two runs whose steps keep a relation stay related. -/
theorem simulation {τ κ : Type} {step : σ → ι → σ} {step' : τ → κ → τ} {R : σ → τ → Prop}
    {Q : ι → κ → Prop} {s : σ} {t : τ} (hinit : R s t)
    (hstep : ∀ s t i j, R s t → Q i j → R (step s i) (step' t j)) {is : List ι} {js : List κ}
    (h : List.Forall₂ Q is js) : R (is.foldl step s) (js.foldl step' t) := by
  induction h generalizing s t with
  | nil => exact hinit
  | cons hij _ ih => exact ih (hstep s t _ _ hinit hij)

/-! ### What a run puts out -/

/-- The outputs of the steps of a run. -/
def outputs {ω : Type} (step : σ → ι → σ) (out : σ → ι → List ω) : σ → List ι → List ω
  | _, [] => []
  | s, i :: is => out s i ++ outputs step out (step s i) is

theorem outputs_append {ω : Type} (step : σ → ι → σ) (out : σ → ι → List ω) (s : σ) (is js : List ι) :
    outputs step out s (is ++ js) = outputs step out s is ++ outputs step out (is.foldl step s) js := by
  induction is generalizing s with
  | nil => rfl
  | cons i is ih => rw [List.cons_append, outputs, outputs, ih, List.append_assoc, List.foldl_cons]

theorem mem_outputs {ω : Type} {step : σ → ι → σ} {out : σ → ι → List ω} {s : σ} {is : List ι} {o : ω}
    (h : o ∈ outputs step out s is) :
    ∃ before i after, is = before ++ i :: after ∧ o ∈ out (before.foldl step s) i := by
  induction is generalizing s with
  | nil => exact absurd h List.not_mem_nil
  | cons i is ih =>
    rcases List.mem_append.1 h with hi | his
    · exact ⟨[], i, is, rfl, hi⟩
    · obtain ⟨before, j, after, rfl, hj⟩ := ih his
      exact ⟨i :: before, j, after, rfl, hj⟩

/-- What holds at the start and is kept by every step, in terms of what was put out so far, holds of a run. -/
theorem outputs_invariant {ω : Type} {step : σ → ι → σ} {out : σ → ι → List ω} {P : List ω → σ → Prop} {s : σ}
    (hinit : P [] s) (hstep : ∀ os t i, P os t → P (os ++ out t i) (step t i)) (is : List ι) :
    P (outputs step out s is) (is.foldl step s) := by
  suffices h : ∀ os t, P os t → P (os ++ outputs step out t is) (is.foldl step t) from h [] s hinit
  induction is with
  | nil =>
    intro os t h
    rw [outputs, List.append_nil]
    exact h
  | cons i is ih =>
    intro os t h
    rw [outputs, ← List.append_assoc]
    exact ih _ _ (hstep os t i h)

/-- Two runs whose inputs look alike to an observer, who sees no other input and gets nothing from one: they put out
the same, if the inputs that are seen meet the condition `C`. -/
theorem outputs_eq_of_view {τ κ ν ω : Type} {step : σ → ι → σ} {step' : τ → κ → τ} {out : σ → ι → List ω}
    {out' : τ → κ → List ω} {view : ι → Option ν} {view' : κ → Option ν} {R : σ → τ → Prop} {C : σ → ι → Prop}
    (hleft : ∀ s t i, R s t → view i = none → out s i = [] ∧ R (step s i) t)
    (hright : ∀ s t j, R s t → view' j = none → out' t j = [] ∧ R s (step' t j))
    (hboth : ∀ s t i j v, R s t → C s i → view i = some v → view' j = some v →
      out s i = out' t j ∧ R (step s i) (step' t j))
    {s : σ} {t : τ} (hR : R s t) {is : List ι} (hC : Guarded step C s is) {js : List κ}
    (hview : is.filterMap view = js.filterMap view') :
    outputs step out s is = outputs step' out' t js := by
  have hskip : ∀ s t j js, R s t → view' j = none →
      R s (step' t j) ∧ outputs step' out' t (j :: js) = outputs step' out' (step' t j) js := by
    intro s t j js hR hj
    obtain ⟨hout, hstep⟩ := hright s t j hR hj
    exact ⟨hstep, congrArg (· ++ outputs step' out' (step' t j) js) hout⟩
  induction is generalizing s t js with
  | nil =>
    induction js generalizing t with
    | nil => rfl
    | cons j js ih =>
      cases hj : view' j with
      | none =>
        rw [List.filterMap_cons_none hj] at hview
        obtain ⟨hstep, hrest⟩ := hskip s t j js hR hj
        exact (ih hstep hview).trans hrest.symm
      | some v =>
        rw [List.filterMap_cons_some hj] at hview
        cases hview
  | cons i is ih =>
    cases hi : view i with
    | none =>
      obtain ⟨hout, hstep⟩ := hleft s t i hR hi
      rw [List.filterMap_cons_none hi] at hview
      rw [outputs, hout]
      exact ih hstep hC.2 hview
    | some v =>
      rw [List.filterMap_cons_some hi] at hview
      induction js generalizing t with
      | nil => cases hview
      | cons j js ihj =>
        cases hj : view' j with
        | none =>
          rw [List.filterMap_cons_none hj] at hview
          obtain ⟨hstep, hrest⟩ := hskip s t j js hR hj
          exact (ihj hstep hview).trans hrest.symm
        | some v' =>
          rw [List.filterMap_cons_some hj] at hview
          obtain ⟨rfl, hrest⟩ := List.cons.inj hview
          obtain ⟨hout, hstep⟩ := hboth s t i j v hR hC.1 hi hj
          rw [outputs, outputs, hout, ih hstep hC.2 hrest]

end Runs
