import Mathlib.Data.List.Nodup

/-!
# Tables in insertion order

A `Table κ ν` maps keys to values and remembers the order in which the keys came: writing a key that is
there keeps its place, writing a new one appends it, and erasing it forgets its place. That no key
appears twice is a field, so an entry is what its key looks up (`mem_entries`).
-/

/-- A finite map in insertion order. -/
structure Table (κ ν : Type) where
  entries : List (κ × ν)
  nodup : (entries.map Prod.fst).Nodup
  deriving DecidableEq

namespace Table

variable {κ ν : Type}

/-! ### Lists of entries -/

section Entries
variable [DecidableEq κ]

def put : List (κ × ν) → κ → ν → List (κ × ν)
  | [], k, v => [(k, v)]
  | p :: l, k, v => if p.1 = k then (k, v) :: l else p :: put l k v

theorem put_of_notMem {l : List (κ × ν)} {k : κ} (h : k ∉ l.map Prod.fst) (v : ν) :
    put l k v = l ++ [(k, v)] := by
  induction l with
  | nil => rfl
  | cons p l ih =>
    simp only [List.map_cons, List.mem_cons, not_or] at h
    rw [put, if_neg (Ne.symm h.1), ih h.2, List.cons_append]

theorem put_keys_of_mem {l : List (κ × ν)} {k : κ} (h : k ∈ l.map Prod.fst) (v : ν) :
    (put l k v).map Prod.fst = l.map Prod.fst := by
  induction l with
  | nil => cases h
  | cons p l ih =>
    rw [put]
    by_cases hp : p.1 = k
    · simp [hp]
    · rw [if_neg hp, List.map_cons, List.map_cons, ih (by simpa [Ne.symm hp] using h)]

theorem put_nodup {l : List (κ × ν)} (h : (l.map Prod.fst).Nodup) (k : κ) (v : ν) :
    ((put l k v).map Prod.fst).Nodup := by
  by_cases hk : k ∈ l.map Prod.fst
  · rwa [put_keys_of_mem hk]
  · rw [put_of_notMem hk, List.map_append]
    refine List.nodup_append.2 ⟨h, List.nodup_singleton k, fun a ha b hb hab => hk ?_⟩
    have hb : b = k := List.mem_singleton.1 hb
    rwa [← hb, ← hab]

theorem lookup_cons_ne {k : κ} {p : κ × ν} (h : p.1 ≠ k) (l : List (κ × ν)) :
    (p :: l).lookup k = l.lookup k := by
  rw [List.lookup_cons, beq_eq_false_iff_ne.2 (Ne.symm h)]

theorem lookup_cons_self (p : κ × ν) (l : List (κ × ν)) : (p :: l).lookup p.1 = some p.2 :=
  List.lookup_cons_self

theorem lookup_put_self (l : List (κ × ν)) (k : κ) (v : ν) : (put l k v).lookup k = some v := by
  induction l with
  | nil => simp [put]
  | cons p l ih =>
    rw [put]
    split
    · exact lookup_cons_self (k, v) l
    · rename_i hp
      rw [lookup_cons_ne hp, ih]

theorem lookup_put_ne (l : List (κ × ν)) {k k' : κ} (h : k' ≠ k) (v : ν) :
    (put l k v).lookup k' = l.lookup k' := by
  induction l with
  | nil => exact lookup_cons_ne (p := (k, v)) (Ne.symm h) []
  | cons p l ih =>
    rw [put]
    split
    · rename_i hp
      rw [lookup_cons_ne (p := (k, v)) (Ne.symm h), lookup_cons_ne (fun e => h (e.symm.trans hp))]
    · by_cases hk : p.1 = k'
      · rw [← hk, lookup_cons_self, lookup_cons_self]
      · rw [lookup_cons_ne hk, lookup_cons_ne hk, ih]

theorem mem_of_lookup {l : List (κ × ν)} {k : κ} {v : ν} (h : l.lookup k = some v) : (k, v) ∈ l := by
  induction l with
  | nil => cases h
  | cons p l ih =>
    by_cases hk : p.1 = k
    · subst hk
      rw [lookup_cons_self] at h
      exact List.mem_cons.2 (.inl (Prod.ext rfl (Option.some.inj h).symm))
    · rw [lookup_cons_ne hk] at h
      exact List.mem_cons_of_mem _ (ih h)

theorem lookup_of_mem {l : List (κ × ν)} (hl : (l.map Prod.fst).Nodup) {k : κ} {v : ν}
    (h : (k, v) ∈ l) : l.lookup k = some v := by
  induction l with
  | nil => cases h
  | cons p l ih =>
    rw [List.map_cons, List.nodup_cons] at hl
    rcases List.mem_cons.1 h with rfl | h
    · simp
    · rw [lookup_cons_ne fun e => hl.1 (e ▸ List.mem_map_of_mem (f := Prod.fst) h)]
      exact ih hl.2 h

theorem notMem_of_lookup {l : List (κ × ν)} {k : κ} (h : l.lookup k = none) : k ∉ l.map Prod.fst := by
  rintro hk
  obtain ⟨p, hp, rfl⟩ := List.mem_map.1 hk
  simpa using List.lookup_eq_none_iff.1 h p hp

/-- Write all of `kvs`, in their order. -/
def overlay (l kvs : List (κ × ν)) : List (κ × ν) := kvs.foldl (fun l kv => put l kv.1 kv.2) l

/-- What was written last under a key, or else what was there before. -/
theorem lookup_overlay (l kvs : List (κ × ν)) (k : κ) :
    (∃ v, (k, v) ∈ kvs ∧ (overlay l kvs).lookup k = some v) ∨
      (k ∉ kvs.map Prod.fst ∧ (overlay l kvs).lookup k = l.lookup k) := by
  induction kvs generalizing l with
  | nil => exact .inr ⟨List.not_mem_nil, rfl⟩
  | cons p kvs ih =>
    rcases ih (put l p.1 p.2) with ⟨v, hv, hlookup⟩ | ⟨hk, hlookup⟩
    · exact .inl ⟨v, List.mem_cons_of_mem _ hv, hlookup⟩
    · by_cases hp : p.1 = k
      · subst hp
        exact .inl ⟨p.2, List.mem_cons_self, hlookup.trans (lookup_put_self l p.1 p.2)⟩
      · refine .inr ⟨?_, hlookup.trans (lookup_put_ne l (Ne.symm hp) p.2)⟩
        rw [List.map_cons, List.mem_cons, not_or]
        exact ⟨Ne.symm hp, hk⟩

theorem lookup_overlay_of_mem (l : List (κ × ν)) {kvs : List (κ × ν)} (hkvs : (kvs.map Prod.fst).Nodup) {k : κ}
    {v : ν} (h : (k, v) ∈ kvs) : (overlay l kvs).lookup k = some v := by
  rcases lookup_overlay l kvs k with ⟨v', hv', hlookup⟩ | ⟨hk, -⟩
  · rw [hlookup, ← lookup_of_mem hkvs h, lookup_of_mem hkvs hv']
  · exact absurd (List.mem_map_of_mem h) hk

theorem lookup_overlay_of_notMem (l : List (κ × ν)) {kvs : List (κ × ν)} {k : κ} (h : k ∉ kvs.map Prod.fst) :
    (overlay l kvs).lookup k = l.lookup k := by
  rcases lookup_overlay l kvs k with ⟨v, hv, -⟩ | ⟨-, hlookup⟩
  · exact absurd (List.mem_map_of_mem hv) h
  · exact hlookup

theorem lookup_overlay_of_nodup (l : List (κ × ν)) {kvs : List (κ × ν)} (hkvs : (kvs.map Prod.fst).Nodup) (k : κ) :
    (overlay l kvs).lookup k = (kvs.lookup k).or (l.lookup k) := by
  cases h : kvs.lookup k with
  | none => exact lookup_overlay_of_notMem l (notMem_of_lookup h)
  | some v => exact lookup_overlay_of_mem l hkvs (mem_of_lookup h)

theorem overlay_nodup {l : List (κ × ν)} (h : (l.map Prod.fst).Nodup) (kvs : List (κ × ν)) :
    ((overlay l kvs).map Prod.fst).Nodup := by
  induction kvs generalizing l with
  | nil => exact h
  | cons p kvs ih => exact ih (put_nodup h p.1 p.2)

theorem put_of_lookup {l : List (κ × ν)} {k : κ} {v : ν} (h : l.lookup k = some v) : put l k v = l := by
  induction l with
  | nil => cases h
  | cons p l ih =>
    rw [put]
    by_cases hp : p.1 = k
    · subst hp
      rw [lookup_cons_self] at h
      rw [if_pos rfl, ← Option.some.inj h]
    · rw [lookup_cons_ne hp] at h
      rw [if_neg hp, ih h]

theorem overlay_of_lookup {l kvs : List (κ × ν)} (h : ∀ p ∈ kvs, l.lookup p.1 = some p.2) :
    overlay l kvs = l := by
  induction kvs with
  | nil => rfl
  | cons p kvs ih =>
    rw [List.forall_mem_cons] at h
    rw [overlay, List.foldl_cons, put_of_lookup h.1]
    exact ih h.2

end Entries

/-! ### The operations -/

def empty : Table κ ν := ⟨[], List.nodup_nil⟩

variable [DecidableEq κ]

/-- The value under `k`, if there is one. -/
def find? (t : Table κ ν) (k : κ) : Option ν := t.entries.lookup k

def insert (t : Table κ ν) (k : κ) (v : ν) : Table κ ν := ⟨put t.entries k v, put_nodup t.nodup k v⟩

def erase (t : Table κ ν) (k : κ) : Table κ ν :=
  ⟨t.entries.filter fun p => p.1 ≠ k, (List.filter_sublist.map Prod.fst).nodup t.nodup⟩

def keys (t : Table κ ν) : List κ := t.entries.map Prod.fst

theorem mem_entries {t : Table κ ν} {k : κ} {v : ν} : (k, v) ∈ t.entries ↔ t.find? k = some v :=
  ⟨lookup_of_mem t.nodup, mem_of_lookup⟩

theorem find?_isSome {t : Table κ ν} {k : κ} : (t.find? k).isSome ↔ k ∈ t.keys := by
  rw [Option.isSome_iff_exists, keys, List.mem_map]
  constructor
  · rintro ⟨v, hv⟩
    exact ⟨(k, v), mem_entries.2 hv, rfl⟩
  · rintro ⟨p, hp, rfl⟩
    exact ⟨p.2, mem_entries.1 hp⟩

theorem find?_eq_none {t : Table κ ν} {k : κ} : t.find? k = none ↔ k ∉ t.keys := by
  rw [← find?_isSome, Option.not_isSome_iff_eq_none]

@[simp] theorem find?_insert_self (t : Table κ ν) (k : κ) (v : ν) : (t.insert k v).find? k = some v :=
  lookup_put_self t.entries k v

theorem find?_insert_ne (t : Table κ ν) {k k' : κ} (h : k' ≠ k) (v : ν) :
    (t.insert k v).find? k' = t.find? k' :=
  lookup_put_ne t.entries h v

theorem find?_insert (t : Table κ ν) (k k' : κ) (v : ν) :
    (t.insert k v).find? k' = if k' = k then some v else t.find? k' := by
  split
  · rename_i h
    rw [h, find?_insert_self]
  · exact find?_insert_ne t ‹_› v

theorem find?_erase (t : Table κ ν) (k k' : κ) :
    (t.erase k).find? k' = if k' = k then none else t.find? k' := by
  split
  · rename_i h
    rw [find?_eq_none, h]
    simp [keys, erase]
  · rename_i h
    refine Option.ext fun v => ?_
    rw [← mem_entries, ← mem_entries, erase, List.mem_filter]
    simp [h]

theorem entries_erase (t : Table κ ν) (k : κ) :
    (t.erase k).entries = t.entries.filter fun p => p.1 ≠ k := rfl

@[simp] theorem erase_erase (t : Table κ ν) (k : κ) : (t.erase k).erase k = t.erase k := by
  have h : ((t.erase k).erase k).entries = (t.erase k).entries := by
    simp [entries_erase, List.filter_filter]
  cases ht : (t.erase k).erase k
  cases ht' : t.erase k
  rw [ht, ht'] at h
  cases h
  rfl

theorem entries_erase_middle {t : Table κ ν} {l r : List (κ × ν)} {k : κ} {v : ν}
    (h : t.entries = l ++ (k, v) :: r) : (t.erase k).entries = l ++ r := by
  have hnodup := t.nodup
  rw [h, List.map_append, List.map_cons, List.nodup_middle, List.nodup_cons, List.mem_append] at hnodup
  have hne : ∀ xs : List (κ × ν), k ∉ xs.map Prod.fst → (xs.filter fun p => p.1 ≠ k) = xs := by
    intro xs hxs
    refine List.filter_eq_self.2 fun p hp => decide_eq_true fun hk => hxs ?_
    rw [← hk]
    exact List.mem_map_of_mem hp
  rw [entries_erase, h, List.filter_append, List.filter_cons_of_neg (by simp),
    hne l fun hl => hnodup.1 (.inl hl), hne r fun hr => hnodup.1 (.inr hr)]

theorem entries_insert_new {t : Table κ ν} {k : κ} (h : t.find? k = none) (v : ν) :
    (t.insert k v).entries = t.entries ++ [(k, v)] :=
  put_of_notMem (find?_eq_none.1 h) v

theorem mem_entries_insert {t : Table κ ν} {k : κ} {v : ν} {e : κ × ν} (h : e ∈ (t.insert k v).entries) :
    e = (k, v) ∨ e ∈ t.entries := by
  rw [mem_entries, find?_insert] at h
  split at h
  · rename_i hk
    exact .inl (Prod.ext hk (Option.some.inj h).symm)
  · exact .inr (mem_entries.2 h)

theorem mem_keys_insert {t : Table κ ν} {k k' : κ} {v : ν} :
    k' ∈ (t.insert k v).keys ↔ k' = k ∨ k' ∈ t.keys := by
  rw [← find?_isSome, ← find?_isSome, find?_insert]
  by_cases h : k' = k
  · simp [h]
  · simp [h]

theorem mem_keys_erase {t : Table κ ν} {k k' : κ} : k' ∈ (t.erase k).keys ↔ k' ≠ k ∧ k' ∈ t.keys := by
  rw [← find?_isSome, ← find?_isSome, find?_erase]
  by_cases h : k' = k
  · simp [h]
  · simp [h]

theorem erase_of_notMem {t : Table κ ν} {k : κ} (h : k ∉ t.keys) : t.erase k = t := by
  have hentries : (t.erase k).entries = t.entries :=
    List.filter_eq_self.2 fun p hp => decide_eq_true fun hk => h (hk ▸ List.mem_map_of_mem hp)
  cases t
  simpa [erase] using hentries

theorem entries_foldl_erase (ks : List κ) (t : Table κ ν) :
    (ks.foldl erase t).entries = t.entries.filter fun p => p.1 ∉ ks := by
  induction ks generalizing t with
  | nil => simp
  | cons k ks ih =>
    rw [List.foldl_cons, ih, entries_erase, List.filter_filter]
    refine List.filter_congr fun p _ => ?_
    simp only [List.mem_cons, not_or, Bool.decide_and, Bool.and_comm]

theorem mem_keys_foldl_erase {ks : List κ} {t : Table κ ν} {k : κ} :
    k ∈ (ks.foldl erase t).keys ↔ k ∉ ks ∧ k ∈ t.keys := by
  induction ks generalizing t with
  | nil => simp
  | cons k' ks ih =>
    rw [List.foldl_cons, ih, mem_keys_erase, List.mem_cons, not_or, and_left_comm, and_assoc]

theorem foldl_erase_eq_self {ks : List κ} {t : Table κ ν} : ks.foldl erase t = t ↔ ∀ k ∈ ks, k ∉ t.keys := by
  constructor
  · intro h k hk hmem
    rw [← h, mem_keys_foldl_erase] at hmem
    exact hmem.1 hk
  · intro h
    induction ks with
    | nil => rfl
    | cons k ks ih =>
      rw [List.foldl_cons, erase_of_notMem (h k List.mem_cons_self)]
      exact ih fun k' hk' => h k' (List.mem_cons_of_mem _ hk')

theorem insert_of_find? {t : Table κ ν} {k : κ} {v : ν} (h : t.find? k = some v) : t.insert k v = t := by
  have hentries : put t.entries k v = t.entries := put_of_lookup h
  cases t
  simpa [insert] using hentries

/-! ### Changing the values -/

def map {ν' : Type} (f : ν → ν') (t : Table κ ν) : Table κ ν' where
  entries := t.entries.map fun p => (p.1, f p.2)
  nodup := by
    rw [List.map_map]
    exact t.nodup

theorem find?_map {ν' : Type} (f : ν → ν') (t : Table κ ν) (k : κ) : (t.map f).find? k = (t.find? k).map f := by
  unfold find? map
  dsimp only
  induction t.entries with
  | nil => rfl
  | cons p l ih =>
    rw [List.map_cons, List.lookup_cons, List.lookup_cons]
    split
    · rfl
    · exact ih

theorem map_insert {ν' : Type} (f : ν → ν') (t : Table κ ν) (k : κ) (v : ν) :
    (t.insert k v).map f = (t.map f).insert k (f v) := by
  have hput : ∀ l : List (κ × ν),
      (put l k v).map (fun p => (p.1, f p.2)) = put (l.map fun p => (p.1, f p.2)) k (f v) := by
    intro l
    induction l with
    | nil => rfl
    | cons p l ih =>
      rw [put, List.map_cons, put]
      split
      · rfl
      · rw [List.map_cons, ih]
  unfold map insert
  simp only [hput]

/-! ### One entry alone -/

theorem put_put (l : List (κ × ν)) (k : κ) (v v' : ν) : put (put l k v) k v' = put l k v' := by
  induction l with
  | nil => exact if_pos rfl
  | cons p l ih =>
    rw [put, put]
    split_ifs with h
    · rw [put, if_pos rfl]
    · rw [put, if_neg h, ih]

theorem filter_put_self (l : List (κ × ν)) (k : κ) (v : ν) :
    (put l k v).filter (fun p => p.1 = k) = put (l.filter fun p => p.1 = k) k v := by
  induction l with
  | nil => rw [put, List.filter_nil, put, List.filter_cons_of_pos (by simp), List.filter_nil]
  | cons p l ih =>
    rw [put]
    split_ifs with h
    · rw [List.filter_cons_of_pos (by simp), List.filter_cons_of_pos (by simpa using h), put, if_pos h]
    · rw [List.filter_cons_of_neg (by simpa using h), List.filter_cons_of_neg (by simpa using h), ih]

theorem filter_put_ne (l : List (κ × ν)) {k k' : κ} (h : k' ≠ k) (v : ν) :
    (put l k' v).filter (fun p => p.1 = k) = l.filter fun p => p.1 = k := by
  induction l with
  | nil => rw [put, List.filter_cons_of_neg (by simpa using h)]
  | cons p l ih =>
    rw [put]
    split_ifs with hp
    · rw [List.filter_cons_of_neg (by simpa using h), List.filter_cons_of_neg (by simpa [hp] using h)]
    · rw [List.filter_cons, List.filter_cons, ih]

theorem lookup_filter_self (l : List (κ × ν)) (k : κ) : (l.filter fun p => p.1 = k).lookup k = l.lookup k := by
  induction l with
  | nil => rfl
  | cons p l ih =>
    by_cases hp : p.1 = k
    · rw [List.filter_cons_of_pos (by simpa using hp), ← hp, lookup_cons_self, lookup_cons_self]
    · rw [List.filter_cons_of_neg (by simpa using hp), lookup_cons_ne hp, ih]

/-- The entry of `k`, and no other. -/
def only (t : Table κ ν) (k : κ) : Table κ ν where
  entries := t.entries.filter fun p => p.1 = k
  nodup := (List.filter_sublist.map Prod.fst).nodup t.nodup

omit [DecidableEq κ] in
theorem ext_entries {t t' : Table κ ν} (h : t.entries = t'.entries) : t = t' := by
  cases t
  cases t'
  obtain rfl := h
  rfl

theorem find?_only (t : Table κ ν) (k : κ) : (t.only k).find? k = t.find? k := lookup_filter_self _ _

theorem find?_of_only {t : Table κ ν} {k k' : κ} {v : ν} (h : (t.only k).find? k' = some v) :
    k' = k ∧ t.find? k = some v := by
  obtain ⟨hmem, hk⟩ := List.mem_filter.1 (mem_entries.2 h)
  obtain rfl : k' = k := of_decide_eq_true hk
  exact ⟨rfl, mem_entries.1 hmem⟩

theorem only_insert_self (t : Table κ ν) (k : κ) (v : ν) : (t.insert k v).only k = (t.only k).insert k v :=
  ext_entries (filter_put_self _ _ _)

theorem only_insert_ne (t : Table κ ν) {k k' : κ} (h : k' ≠ k) (v : ν) : (t.insert k' v).only k = t.only k :=
  ext_entries (filter_put_ne _ h _)

theorem only_erase_self (t : Table κ ν) (k : κ) : (t.erase k).only k = (t.only k).erase k :=
  ext_entries (List.filter_comm _ _ _)

theorem only_erase_ne (t : Table κ ν) {k k' : κ} (h : k' ≠ k) : (t.erase k').only k = t.only k := by
  refine ext_entries ?_
  show (t.entries.filter _).filter _ = t.entries.filter _
  rw [List.filter_filter]
  refine List.filter_congr fun p _ => ?_
  by_cases hp : p.1 = k
  · simp [hp, h.symm]
  · simp [hp]

theorem only_map {ν' : Type} (f : ν → ν') (t : Table κ ν) (k : κ) : (t.map f).only k = (t.only k).map f := by
  refine ext_entries ?_
  show (t.entries.map _).filter _ = (t.entries.filter _).map _
  rw [List.filter_map]
  rfl

theorem map_erase {ν' : Type} (f : ν → ν') (t : Table κ ν) (k : κ) : (t.erase k).map f = (t.map f).erase k := by
  refine ext_entries ?_
  show (t.entries.filter _).map _ = (t.entries.map _).filter _
  rw [List.filter_map]
  rfl

theorem map_congr {ν' : Type} {f g : ν → ν'} {t : Table κ ν} (h : ∀ k v, t.find? k = some v → f v = g v) :
    t.map f = t.map g :=
  ext_entries (List.map_congr_left fun p hp => congrArg (Prod.mk p.1) (h p.1 p.2 (mem_entries.1 hp)))

end Table
