import CamReverse.Lib.Effect

/-!
# Runs of edits that can fail

An edit makes a statement about a state true, or it fails and leaves the state as it is. A run makes one edit
after the other and stops at the first that fails, so what was made before stays. When the edits are about
different places, whether an edit fails can be told from the state before the run, and what was made holds behind
it. So a run changes nothing exactly if everything it made held already (`final_run_eq_iff`), and a run that was
made once changes nothing any more (`run_run`).
-/

namespace Edits

open Effect

variable {ε σ ι : Type}

def edit (f : σ → Except ε σ) : EStateM ε σ PUnit := fun s =>
  match f s with
  | .ok t => .ok ⟨⟩ t
  | .error e => .error e s

theorem edit_ok {f : σ → Except ε σ} {s t : σ} (h : f s = .ok t) : edit f s = .ok ⟨⟩ t := by
  rw [edit, h]

theorem edit_error {f : σ → Except ε σ} {s : σ} {e : ε} (h : f s = .error e) : edit f s = .error e s := by
  rw [edit, h]

def run (apply : ι → σ → Except ε σ) (es : List ι) : EStateM ε σ PUnit := es.forM fun e => edit (apply e)

theorem run_append (apply : ι → σ → Except ε σ) (es es' : List ι) :
    run apply (es ++ es') = (do run apply es; run apply es') := List.forM_append

theorem run_error {apply : ι → σ → Except ε σ} {es : List ι} {s t : σ} {err : ε}
    (h : run apply es s = .error err t) : ∃ e ∈ es, ∃ s', apply e s' = .error err := by
  induction es generalizing s with
  | nil => cases h
  | cons e es ih =>
    rw [run, List.forM] at h
    cases happly : apply e s with
    | ok s' =>
      rw [bind_ok (edit_ok happly)] at h
      obtain ⟨e', he', hraises⟩ := ih h
      exact ⟨e', List.mem_cons_of_mem _ he', hraises⟩
    | error err' =>
      rw [bind_error (edit_error happly)] at h
      cases h
      exact ⟨e, List.mem_cons_self, _, happly⟩

theorem final_run_cons {apply : ι → σ → Except ε σ} {s t : σ} {e : ι} (h : apply e s = .ok t) (es : List ι) :
    final (run apply (e :: es)) s = final (run apply es) t := by
  rw [run, List.forM, final, bind_ok (edit_ok h)]
  rfl

theorem final_run_error {apply : ι → σ → Except ε σ} {s : σ} {e : ι} {err : ε} (h : apply e s = .error err)
    (es : List ι) : final (run apply (e :: es)) s = s := by
  rw [run, List.forM, final, bind_error (edit_error h)]

theorem final_run_frame {apply : ι → σ → Except ε σ} {α : Type} {f : σ → α} {es : List ι}
    (h : ∀ e ∈ es, ∀ s t, apply e s = .ok t → f t = f s) (s : σ) : f (final (run apply es) s) = f s := by
  induction es generalizing s with
  | nil => rfl
  | cons e es ih =>
    rw [List.forall_mem_cons] at h
    cases happly : apply e s with
    | ok t => rw [final_run_cons happly, ih h.2, h.1 s t happly]
    | error err => rw [final_run_error happly]

/-- What edits do: which of them fail, what holds once they were made, and which of them are about different
places. -/
structure Laws (apply : ι → σ → Except ε σ) where
  fails : σ → ι → Bool
  Holds : σ → ι → Prop
  Apart : ι → ι → Prop
  Proper : ι → Prop
  isOk_iff {s : σ} {e : ι} : (apply e s).isOk = true ↔ fails s e = false
  holds_apply {s t : σ} {e : ι} (he : Proper e) (h : apply e s = .ok t) : Holds t e
  apply_of_holds {s : σ} {e : ι} (h : Holds s e) : apply e s = .ok s
  holds_apart {s t : σ} {e e' : ι} (hapart : Apart e e') (h : apply e' s = .ok t) (hs : Holds s e) : Holds t e
  fails_apart {s t : σ} {e e' : ι} (hapart : Apart e e') (h : apply e s = .ok t) : fails t e' = fails s e'

namespace Laws

variable {apply : ι → σ → Except ε σ} (M : Laws apply)

/-- The edits that are made in a run from `s`. -/
def made (s : σ) (es : List ι) : List ι := es.takeWhile fun e => !M.fails s e

theorem made_of_fails {s : σ} {e : ι} (h : M.fails s e = true) (es : List ι) : M.made s (e :: es) = [] :=
  List.takeWhile_cons_of_neg (by simp [h])

theorem made_cons {s : σ} {e : ι} (h : M.fails s e = false) (es : List ι) :
    M.made s (e :: es) = e :: M.made s es :=
  List.takeWhile_cons_of_pos (by simp [h])

theorem made_of_returns {s : σ} {es : List ι} (h : ∀ e ∈ es, M.fails s e = false) : M.made s es = es := by
  induction es with
  | nil => rfl
  | cons e es ih =>
    rw [List.forall_mem_cons] at h
    rw [M.made_cons h.1, ih h.2]

theorem apply_cases (s : σ) (e : ι) :
    (M.fails s e = true ∧ ∃ err, apply e s = .error err) ∨ (M.fails s e = false ∧ ∃ t, apply e s = .ok t) := by
  cases happly : apply e s with
  | ok t => exact .inr ⟨M.isOk_iff.1 (by rw [happly]; rfl), t, rfl⟩
  | error err =>
    refine .inl ⟨?_, err, rfl⟩
    cases hfail : M.fails s e with
    | true => rfl
    | false =>
      have hok := M.isOk_iff.2 hfail
      rw [happly] at hok
      cases hok

theorem fails_behind {s t : σ} {e : ι} {es : List ι} (hes : (e :: es).Pairwise M.Apart)
    (h : apply e s = .ok t) : ∀ e' ∈ es, M.fails t e' = M.fails s e' := fun e' he' =>
  M.fails_apart ((List.pairwise_cons.1 hes).1 e' he') h

theorem made_behind {s t : σ} {e : ι} {es : List ι} (hes : (e :: es).Pairwise M.Apart) (h : apply e s = .ok t) :
    M.made t es = M.made s es := by
  have hfails := M.fails_behind hes h
  clear hes
  induction es with
  | nil => rfl
  | cons e' es ih =>
    rw [List.forall_mem_cons] at hfails
    cases hfail : M.fails s e' with
    | true => rw [M.made_of_fails hfail, M.made_of_fails (hfails.1.trans hfail)]
    | false => rw [M.made_cons hfail, M.made_cons (hfails.1.trans hfail), ih hfails.2]

/-- **A run returns** if none of its edits fails. -/
theorem returns_run_iff {es : List ι} (hes : es.Pairwise M.Apart) (s : σ) :
    Returns (run apply es) s ↔ ∀ e ∈ es, M.fails s e = false := by
  induction es generalizing s with
  | nil => exact iff_of_true (returns_pure _ s) (by simp)
  | cons e es ih =>
    rw [run, List.forM, List.forall_mem_cons]
    rcases M.apply_cases s e with ⟨hfail, err, herr⟩ | ⟨hfail, t, ht⟩
    · rw [hfail]
      refine iff_of_false (fun h => ?_) (by simp)
      exact not_returns.2 ⟨err, s, edit_error herr⟩ h.of_bind
    · rw [returns_bind (edit_ok ht), and_iff_right hfail]
      refine (ih (List.pairwise_cons.1 hes).2 t).trans (forall₂_congr fun e' he' => ?_)
      rw [M.fails_behind hes ht e' he']

theorem holds_run {e : ι} {es : List ι} (hes : ∀ e' ∈ es, M.Apart e e') {s : σ} (h : M.Holds s e) :
    M.Holds (final (run apply es) s) e := by
  induction es generalizing s with
  | nil => exact h
  | cons e' es ih =>
    rw [List.forall_mem_cons] at hes
    rcases M.apply_cases s e' with ⟨-, err, herr⟩ | ⟨-, t, ht⟩
    · rwa [final_run_error herr]
    · rw [final_run_cons ht]
      exact ih hes.2 (M.holds_apart hes.1 ht h)

theorem holds_made {es : List ι} (hes : es.Pairwise M.Apart) (hproper : ∀ e ∈ es, M.Proper e) (s : σ) :
    ∀ e ∈ M.made s es, M.Holds (final (run apply es) s) e := by
  induction es generalizing s with
  | nil => simp [made]
  | cons e es ih =>
    obtain ⟨hapart, hrest⟩ := List.pairwise_cons.1 hes
    rw [List.forall_mem_cons] at hproper
    rcases M.apply_cases s e with ⟨hfail, -⟩ | ⟨hfail, t, ht⟩
    · simp [M.made_of_fails hfail]
    · rw [M.made_cons hfail, List.forall_mem_cons, final_run_cons ht, ← M.made_behind hes ht]
      exact ⟨M.holds_run hapart (M.holds_apply hproper.1 ht), ih hrest hproper.2 t⟩

theorem final_run_of_holds {es : List ι} {s : σ} (h : ∀ e ∈ M.made s es, M.Holds s e) :
    final (run apply es) s = s := by
  induction es with
  | nil => rfl
  | cons e es ih =>
    rcases M.apply_cases s e with ⟨-, err, herr⟩ | ⟨hfail, -⟩
    · exact final_run_error herr es
    · rw [M.made_cons hfail, List.forall_mem_cons] at h
      rw [final_run_cons (M.apply_of_holds h.1)]
      exact ih h.2

/-- **A run changes nothing** exactly if everything it made held already. -/
theorem final_run_eq_iff {es : List ι} (hes : es.Pairwise M.Apart) (hproper : ∀ e ∈ es, M.Proper e) (s : σ) :
    final (run apply es) s = s ↔ ∀ e ∈ M.made s es, M.Holds s e := by
  refine ⟨fun h e he => ?_, M.final_run_of_holds⟩
  have hholds := M.holds_made hes hproper s e he
  rwa [h] at hholds

theorem run_of_holds {es : List ι} {s : σ} (h : ∀ e ∈ es, M.Holds s e) : run apply es s = .ok ⟨⟩ s := by
  induction es with
  | nil => rfl
  | cons e es ih =>
    rw [List.forall_mem_cons] at h
    rw [run, List.forM, bind_ok (edit_ok (M.apply_of_holds h.1))]
    exact ih h.2

/-- **The same run once more** changes nothing, if none of its edits failed. -/
theorem run_run {es : List ι} (hes : es.Pairwise M.Apart) (hproper : ∀ e ∈ es, M.Proper e) {s : σ}
    (h : ∀ e ∈ es, M.fails s e = false) :
    run apply es (final (run apply es) s) = .ok ⟨⟩ (final (run apply es) s) := by
  refine M.run_of_holds fun e he => M.holds_made hes hproper s e ?_
  rwa [M.made_of_returns h]

end Laws

end Edits
