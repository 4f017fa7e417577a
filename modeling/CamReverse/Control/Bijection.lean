import CamReverse.Control.Obfuscation

/-!
# The obfuscation is a bijection

Encoding and decoding write the bytes of a window and no others, and each undoes the other (`xq_bijection`). What
carries this is that the places of the window are different ones. For an offset that counts from the start of the
buffer they are. An offset that counts from its end lets the window run on at the start of the buffer, and a window
longer than the buffer, which `byte_length` does not exclude there, meets a byte twice (`xq_window_overlap`).
-/

namespace CamReverse

open Effect Bytes

theorem obfuscate_unobfuscate {rotate : ℕ} {bs : Bytes} (h : rotate ≤ bs.length) :
    obfuscate rotate (unobfuscate rotate bs) = bs := by
  have hflip : flipByte ∘ flipByte = id := funext flipByte_flipByte
  rw [obfuscate, unobfuscate, List.map_rotate, List.map_map, hflip, List.map_id, List.rotate_rotate,
    Nat.sub_add_cancel h, List.rotate_length]

/-! ### The places of a window -/

/-- The place a window of a buffer of `size` bytes has for its byte at index `j`. -/
def wrapped (size : ℕ) (j : ℤ) : ℕ := (if j < 0 then j + size else j).toNat

theorem DV.exists_places {dv : DV} {n : ℕ} (hend : (n : ℤ) ≤ dv.byteLength)
    (hstart : 0 < n → -(dv.buf.length : ℤ) ≤ dv.offset) (hroom : n ≤ dv.buf.length) :
    ∃ ps : List ℕ, ps.length = n ∧ ps.Nodup ∧ dv.Places ps := by
  rw [DV.byteLength] at hend
  refine ⟨(List.range n).map fun (i : ℕ) => wrapped dv.buf.length (dv.offset + i), by simp, ?_, ?_⟩
  · refine List.Nodup.map_on ?_ List.nodup_range
    intro i hi j hj hsame
    rw [List.mem_range] at hi hj
    have hbelow := hstart (by omega)
    unfold wrapped at hsame
    split_ifs at hsame <;> omega
  · intro i hi
    rw [List.length_map, List.length_range] at hi
    have hbelow := hstart (by omega)
    simp only [List.getElem_map, List.getElem_range, index?, wrapped]
    rw [if_pos]
    split_ifs <;> omega

/-- `dv'` is a view at the same offset, of a buffer that differs in the window of `n` bytes only. -/
def DV.SameOutside (n : ℕ) (dv dv' : DV) : Prop :=
  dv'.offset = dv.offset ∧ dv'.buf.length = dv.buf.length ∧
    ∀ q, (∀ i < n, index? dv.buf.length (dv.offset + i) ≠ some q) → dv'.buf[q]? = dv.buf[q]?

theorem DV.Places.sameOutside {dv : DV} {ps : List ℕ} (hps : dv.Places ps) (xs : Bytes) :
    dv.SameOutside ps.length { dv with buf := scatter dv.buf ps xs } := by
  refine ⟨rfl, length_scatter _ _ _, fun q hout => ?_⟩
  refine getElem?_scatter_of_notMem (fun hq => ?_) _ _
  obtain ⟨i, hi, rfl⟩ := List.getElem_of_mem hq
  exact hout i hi (hps i hi)

/-! ### The two directions -/

variable {dv : DV} {ps : List ℕ} {rotate : ℕ}

theorem dec_enc_places (hps : dv.Places ps) (hnodup : ps.Nodup) (hrotate : rotate ≤ ps.length) :
    (xqBytesEnc dv ps.length rotate >>= fun enc => xqBytesDec enc ps.length rotate) = .ok dv := by
  have hin := hps.inside
  have hlen := length_gather hin
  have hwritten : (obfuscate rotate (gather dv.buf ps)).length = ps.length := by rw [length_obfuscate, hlen]
  rw [xqBytesEnc_places hps hrotate, except_ok_bind,
    xqBytesDec_places (hps.of_length (length_scatter _ _ _)) hnodup hrotate]
  dsimp only
  rw [gather_scatter hnodup hin hwritten, unobfuscate_obfuscate (by omega), scatter_scatter hnodup hin hlen,
    scatter_gather hnodup hin]

theorem enc_dec_places (hps : dv.Places ps) (hnodup : ps.Nodup) (hrotate : rotate ≤ ps.length) :
    (xqBytesDec dv ps.length rotate >>= fun dec => xqBytesEnc dec ps.length rotate) = .ok dv := by
  have hin := hps.inside
  have hlen := length_gather hin
  have hwritten : (unobfuscate rotate (gather dv.buf ps)).length = ps.length := by rw [length_unobfuscate, hlen]
  rw [xqBytesDec_places hps hnodup hrotate, except_ok_bind,
    xqBytesEnc_places (hps.of_length (length_scatter _ _ _)) hrotate]
  dsimp only
  rw [gather_scatter hnodup hin hwritten, obfuscate_unobfuscate (by omega), scatter_scatter hnodup hin hlen,
    scatter_gather hnodup hin]

/-- **The obfuscation is a bijection on its window**, as long as the window does not meet a byte twice. For an offset
that is not negative, `hstart` and `hroom` hold of themselves. -/
theorem xq_bijection (dv : DV) {buflen rotate : ℕ} (hrotate : rotate ≤ buflen)
    (hlen : (buflen : ℤ) ≤ dv.byteLength) (hstart : 0 < buflen → -(dv.buf.length : ℤ) ≤ dv.offset)
    (hroom : buflen ≤ dv.buf.length) :
    (xqBytesEnc dv buflen rotate >>= fun enc => xqBytesDec enc buflen rotate) = .ok dv ∧
      (xqBytesDec dv buflen rotate >>= fun dec => xqBytesEnc dec buflen rotate) = .ok dv ∧
        (∃ enc, xqBytesEnc dv buflen rotate = .ok enc ∧ dv.SameOutside buflen enc) ∧
          ∃ dec, xqBytesDec dv buflen rotate = .ok dec ∧ dv.SameOutside buflen dec := by
  obtain ⟨ps, rfl, hnodup, hps⟩ := DV.exists_places hlen hstart hroom
  exact ⟨dec_enc_places hps hnodup hrotate, enc_dec_places hps hnodup hrotate,
    ⟨_, xqBytesEnc_places hps hrotate, hps.sameOutside _⟩,
    ⟨_, xqBytesDec_places hps hnodup hrotate, hps.sameOutside _⟩⟩

/-- A window that runs on at the start of its buffer. -/
theorem xq_bijection_wrapped :
    (xqBytesEnc ⟨[10, 20, 30, 40], -3⟩ 4 1 >>= fun enc => xqBytesDec enc 4 1) = .ok ⟨[10, 20, 30, 40], -3⟩ :=
  (xq_bijection ⟨[10, 20, 30, 40], -3⟩ (by decide) (by decide) (by decide) (by decide)).1

/-- A window of three bytes in a buffer of two, which meets the first byte twice. -/
theorem xq_window_overlap :
    1 ≤ 3 ∧ (3 : ℤ) ≤ (⟨[0, 2], -2⟩ : DV).byteLength ∧
      (xqBytesEnc ⟨[0, 2], -2⟩ 3 1 >>= fun enc => xqBytesDec enc 3 1) = .ok ⟨[0, 0], -2⟩ ∧
        (xqBytesEnc ⟨[0, 2], -2⟩ 3 1 >>= fun enc => xqBytesDec enc 3 1) ≠ .ok ⟨[0, 2], -2⟩ := by
  decide

end CamReverse
