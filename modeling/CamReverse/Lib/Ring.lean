import Mathlib.Data.List.DropRight

/-!
# A buffer of the last items

A deque with a `maxlen` holds the last items that were appended to it. What is said here is about its end: if the
buffer ends in the last of some items, it does so after the next one (`push_rtake`), and an item is among the last
`n` exactly if fewer than `n` came after it (`mem_rtake_iff`).
-/

namespace Ring

variable {α : Type}

/-- Append to a deque of at most `maxlen` items; the oldest ones are dropped. -/
def push (maxlen : ℕ) (buf : List α) (a : α) : List α := (buf ++ [a]).rtake maxlen

theorem length_push_le (maxlen : ℕ) (buf : List α) (a : α) : (push maxlen buf a).length ≤ maxlen := by
  rw [push, List.rtake, List.length_drop]
  omega

theorem push_rtake {n : ℕ} {older items : List α} (hlen : (older ++ items.rtake n).length ≤ n) (a : α) :
    ∃ older', older'.Sublist older ∧ push n (older ++ items.rtake n) a = older' ++ (items ++ [a]).rtake n := by
  refine ⟨older.drop ((older ++ items.rtake n ++ [a]).length - n), List.drop_sublist _ _, ?_⟩
  have hitems : (items.rtake n).length = min n items.length := by
    rw [List.rtake, List.length_drop]
    omega
  rw [List.length_append, hitems] at hlen
  have hend : items.rtake n ++ [a] = (items ++ [a]).drop (items.length - n) := by
    rw [List.rtake, List.drop_append_of_le_length (by omega)]
  have hcut : (older ++ items.rtake n ++ [a]).length - n = older.length + min n items.length + 1 - n := by
    rw [List.length_append, List.length_append, hitems, List.length_singleton]
  rw [push, List.rtake, hcut, List.append_assoc, List.drop_append, hend, List.drop_drop, List.rtake,
    List.length_append, List.length_singleton]
  congr 2
  omega

theorem mem_rtake_iff {xs ys : List α} {a : α} (hxs : a ∉ xs) (hys : a ∉ ys) (n : ℕ) :
    a ∈ (xs ++ a :: ys).rtake n ↔ ys.length < n := by
  have hlen : (xs ++ a :: ys).length = xs.length + (ys.length + 1) := by
    rw [List.length_append, List.length_cons]
  rw [List.rtake, hlen, List.drop_append, List.mem_append]
  constructor
  · rintro (hmem | hmem)
    · exact absurd (List.mem_of_mem_drop hmem) hxs
    · by_contra hmany
      obtain ⟨k, hk⟩ : ∃ k, xs.length + (ys.length + 1) - n - xs.length = k + 1 :=
        ⟨ys.length - n, by omega⟩
      rw [hk, List.drop_succ_cons] at hmem
      exact hys (List.mem_of_mem_drop hmem)
  · intro hfew
    have hzero : xs.length + (ys.length + 1) - n - xs.length = 0 := by omega
    rw [hzero, List.drop_zero]
    exact .inr List.mem_cons_self

end Ring
