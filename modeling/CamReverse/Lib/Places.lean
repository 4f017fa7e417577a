import CamReverse.Lib.Bytes
import Mathlib.Data.List.Nodup

/-!
# Reading and writing at places

`gather l ps` is what a list holds at the places `ps`, in their order, and `scatter l ps xs` is the list with
`xs` written there. Places that occur once each are independent: what was written is what is read
(`gather_scatter`), and two lists that agree at the places and outside of them are equal (`ext_of_gather`).
-/

namespace Bytes

variable {α : Type}

/-- The elements of `l` at the places `ps`. -/
def gather (l : List α) (ps : List ℕ) : List α := ps.filterMap (l[·]?)

/-- `l` with `xs` written to the places `ps`, one after the other. -/
def scatter : List α → List ℕ → List α → List α
  | l, [], _ => l
  | l, _ :: _, [] => l
  | l, p :: ps, x :: xs => scatter (l.set p x) ps xs

@[simp] theorem length_scatter (l : List α) (ps : List ℕ) (xs : List α) :
    (scatter l ps xs).length = l.length := by
  fun_induction scatter l ps xs with
  | case1 l xs => rfl
  | case2 l p ps => rfl
  | case3 l p ps x xs ih => rw [ih, List.length_set]

/-! ### Reads -/

theorem map_getElem?_eq {l : List α} {ps : List ℕ} (hin : ∀ p ∈ ps, p < l.length) :
    ps.map (l[·]?) = (gather l ps).map some := by
  induction ps with
  | nil => rfl
  | cons p ps ih =>
    obtain ⟨x, hp⟩ : ∃ x, l[p]? = some x := ⟨_, List.getElem?_eq_getElem (hin p List.mem_cons_self)⟩
    have hgather : gather l (p :: ps) = x :: gather l ps :=
      List.filterMap_cons_some hp
    rw [List.map_cons, ih fun q hq => hin q (List.mem_cons_of_mem p hq), hp, hgather, List.map_cons]

theorem length_gather {l : List α} {ps : List ℕ} (hin : ∀ p ∈ ps, p < l.length) :
    (gather l ps).length = ps.length := by
  have hmap := congrArg List.length (map_getElem?_eq hin)
  rw [List.length_map, List.length_map] at hmap
  exact hmap.symm

theorem gather_append (l : List α) (ps qs : List ℕ) : gather l (ps ++ qs) = gather l ps ++ gather l qs :=
  List.filterMap_append

theorem ext_of_gather {l m : List α} {ps : List ℕ} (hlen : m.length = l.length) (hin : ∀ p ∈ ps, p < l.length)
    (hgather : gather m ps = gather l ps) (hout : ∀ q ∉ ps, m[q]? = l[q]?) : m = l := by
  have hinm : ∀ p ∈ ps, p < m.length := fun p hp => hlen ▸ hin p hp
  have hmap : ps.map (m[·]?) = ps.map (l[·]?) := by rw [map_getElem?_eq hinm, hgather, map_getElem?_eq hin]
  refine List.ext_getElem? fun q => ?_
  by_cases hq : q ∈ ps
  · exact List.map_inj_left.1 hmap q hq
  · exact hout q hq

/-! ### Writes -/

theorem getElem?_scatter_of_notMem {ps : List ℕ} {q : ℕ} (hq : q ∉ ps) (l xs : List α) :
    (scatter l ps xs)[q]? = l[q]? := by
  induction ps generalizing l xs with
  | nil => rw [scatter]
  | cons p ps ih =>
    rw [List.mem_cons, not_or] at hq
    cases xs with
    | nil => rfl
    | cons x xs => rw [scatter, ih hq.2, List.getElem?_set_ne (Ne.symm hq.1)]

theorem gather_scatter {l : List α} {ps : List ℕ} {xs : List α} (hnodup : ps.Nodup)
    (hin : ∀ p ∈ ps, p < l.length) (hlen : xs.length = ps.length) : gather (scatter l ps xs) ps = xs := by
  induction ps generalizing l xs with
  | nil => rw [List.length_eq_zero_iff.1 hlen]; rfl
  | cons p ps ih =>
    obtain ⟨hp, hps⟩ := List.nodup_cons.1 hnodup
    obtain ⟨x, xs, rfl⟩ := List.exists_cons_of_length_eq_add_one hlen
    have hhead : (scatter (l.set p x) ps xs)[p]? = some x := by
      rw [getElem?_scatter_of_notMem hp, List.getElem?_set_self (hin p List.mem_cons_self)]
    have htail : ∀ q ∈ ps, q < (l.set p x).length := fun q hq => by
      rw [List.length_set]
      exact hin q (List.mem_cons_of_mem p hq)
    rw [scatter, gather, List.filterMap_cons_some hhead]
    exact congrArg (x :: ·) (ih hps htail (Nat.succ.inj hlen))

theorem scatter_gather {l : List α} {ps : List ℕ} (hnodup : ps.Nodup) (hin : ∀ p ∈ ps, p < l.length) :
    scatter l ps (gather l ps) = l :=
  ext_of_gather (length_scatter l ps _) hin (gather_scatter hnodup hin (length_gather hin)) fun _ hq =>
    getElem?_scatter_of_notMem hq l _

theorem scatter_scatter {l : List α} {ps : List ℕ} {xs ys : List α} (hnodup : ps.Nodup)
    (hin : ∀ p ∈ ps, p < l.length) (hlen : ys.length = ps.length) :
    scatter (scatter l ps xs) ps ys = scatter l ps ys := by
  have hinx : ∀ p ∈ ps, p < (scatter l ps xs).length := fun p hp => by rw [length_scatter]; exact hin p hp
  have hiny : ∀ p ∈ ps, p < (scatter l ps ys).length := fun p hp => by rw [length_scatter]; exact hin p hp
  refine ext_of_gather (by simp only [length_scatter]) hiny ?_ fun q hq => ?_
  · rw [gather_scatter hnodup hinx hlen, gather_scatter hnodup hin hlen]
  · simp only [getElem?_scatter_of_notMem hq]

theorem scatter_append {ps : List ℕ} {xs : List α} (hlen : xs.length = ps.length) (l : List α) (qs : List ℕ)
    (ys : List α) : scatter l (ps ++ qs) (xs ++ ys) = scatter (scatter l ps xs) qs ys := by
  induction ps generalizing l xs with
  | nil => rw [List.length_eq_zero_iff.1 hlen]; rfl
  | cons p ps ih =>
    obtain ⟨x, xs, rfl⟩ := List.exists_cons_of_length_eq_add_one hlen
    exact ih (Nat.succ.inj hlen) (l.set p x)

theorem scatter_set {ps : List ℕ} {p : ℕ} (hp : p ∉ ps) (l : List α) (x : α) (xs : List α) :
    scatter (l.set p x) ps xs = (scatter l ps xs).set p x := by
  induction ps generalizing l xs with
  | nil => rw [scatter, scatter]
  | cons q ps ih =>
    rw [List.mem_cons, not_or] at hp
    cases xs with
    | nil => rfl
    | cons y ys => rw [scatter, scatter, List.set_comm _ _ hp.1, ih hp.2]

theorem scatter_comm {ps qs : List ℕ} (h : ∀ p ∈ ps, p ∉ qs) (l xs ys : List α) :
    scatter (scatter l ps xs) qs ys = scatter (scatter l qs ys) ps xs := by
  induction ps generalizing l xs with
  | nil => rw [scatter, scatter]
  | cons p ps ih =>
    cases xs with
    | nil => rfl
    | cons x xs =>
      rw [scatter, scatter, ih fun r hr => h r (List.mem_cons_of_mem p hr),
        scatter_set (h p List.mem_cons_self)]

/-! ### Places side by side -/

theorem gather_range' {l : List α} {k n : ℕ} (h : k + n ≤ l.length) :
    gather l (List.range' k n) = field l k n := by
  induction n with
  | zero => rw [field, List.take_zero]; rfl
  | succ n ih =>
    obtain ⟨x, hlast⟩ : ∃ x, l[k + n]? = some x := ⟨_, List.getElem?_eq_getElem (by omega)⟩
    rw [List.range'_concat, gather_append, ih (by omega), field_succ hlast, Nat.one_mul, gather,
      List.filterMap_cons_some hlast]
    rfl

theorem scatter_range' {l xs : List α} {k : ℕ} (h : k + xs.length ≤ l.length) :
    scatter l (List.range' k xs.length) xs = put l k xs := by
  induction xs generalizing l k with
  | nil => rw [put_nil]; rfl
  | cons x xs ih =>
    rw [List.length_cons] at h
    have hfirst : k + [x].length ≤ l.length := by rw [List.length_singleton]; omega
    have hrest : k + 1 + xs.length ≤ (put l k [x]).length := by rw [length_put hfirst]; omega
    rw [List.length_cons, List.range'_succ, scatter, set_eq_put (by omega), ih hrest]
    exact put_append hfirst

end Bytes
