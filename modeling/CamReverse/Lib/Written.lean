import CamReverse.Lib.Table
import Mathlib.Order.Defs.Unbundled

/-!
# Tables that are written to

`Written P l l'` says that `l'` is `l` after some writes, each of a pair with `P`. So what holds of a key's value is
kept when it holds of every value that may be written there.
-/

namespace Table

variable {κ ν : Type} [DecidableEq κ] {P Q : κ → ν → Prop} {l l' l'' : List (κ × ν)}

def Written (P : κ → ν → Prop) (l l' : List (κ × ν)) : Prop := ∃ kvs, (∀ kv ∈ kvs, P kv.1 kv.2) ∧ l' = overlay l kvs

theorem overlay_append (l kvs kvs' : List (κ × ν)) : overlay l (kvs ++ kvs') = overlay (overlay l kvs) kvs' :=
  List.foldl_append

instance : IsPreorder (List (κ × ν)) (Written P) where
  refl _ := ⟨[], fun _ h => absurd h List.not_mem_nil, rfl⟩
  trans := by
    rintro l _ _ ⟨kvs, hkvs, rfl⟩ ⟨kvs', hkvs', rfl⟩
    refine ⟨kvs ++ kvs', fun kv hkv => ?_, (overlay_append l kvs kvs').symm⟩
    exact (List.mem_append.1 hkv).elim (hkvs kv) (hkvs' kv)

namespace Written

theorem put {k : κ} {v : ν} (h : P k v) (l : List (κ × ν)) : Written P l (Table.put l k v) :=
  ⟨[(k, v)], List.forall_mem_singleton.2 h, rfl⟩

theorem overlay {kvs : List (κ × ν)} (h : ∀ kv ∈ kvs, P kv.1 kv.2) (l : List (κ × ν)) :
    Written P l (Table.overlay l kvs) :=
  ⟨kvs, h, rfl⟩

theorem mono (h : Written P l l') (hPQ : ∀ k v, P k v → Q k v) : Written Q l l' := by
  obtain ⟨kvs, hkvs, rfl⟩ := h
  exact ⟨kvs, fun kv hkv => hPQ kv.1 kv.2 (hkvs kv hkv), rfl⟩

theorem nodup (h : Written P l l') (hl : (l.map Prod.fst).Nodup) : (l'.map Prod.fst).Nodup := by
  obtain ⟨kvs, -, rfl⟩ := h
  exact overlay_nodup hl kvs

theorem lookup (h : Written P l l') (k : κ) : (∃ v, P k v ∧ l'.lookup k = some v) ∨ l'.lookup k = l.lookup k := by
  obtain ⟨kvs, hkvs, rfl⟩ := h
  exact (lookup_overlay l kvs k).imp (fun ⟨v, hv, hlookup⟩ => ⟨v, hkvs (k, v) hv, hlookup⟩) And.right

theorem keeps (h : Written P l l') {k : κ} {R : ν → Prop} (hR : ∀ v, P k v → R v)
    (hl : ∃ v, l.lookup k = some v ∧ R v) : ∃ v, l'.lookup k = some v ∧ R v := by
  rcases h.lookup k with ⟨v, hv, hlookup⟩ | hsame
  · exact ⟨v, hlookup, hR v hv⟩
  · rwa [hsame]

end Written

end Table
