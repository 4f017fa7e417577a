import CamReverse.Crypto
import CamReverse.Lib.Effect
import CamReverse.Lib.Places
import Mathlib.Data.List.Rotate

/-!
# What the obfuscation computes

Both directions flip the low bit of every byte of a window and rotate it: `xqBytesEnc` to the left, `xqBytesDec` to
the right. They read and write the window byte by byte, so what they compute is stated at the places its bytes have
in the buffer (`xqBytesEnc_places`, `xqBytesDec_places`), and then for a field at an offset from the start
(`xqBytesEnc_ok`, `xqBytesDec_ok`). Decoding undoes encoding (`unobfuscate_obfuscate`).
-/

namespace CamReverse

open Effect Bytes

def flipByte (b : UInt8) : UInt8 := UInt8.ofNat (flipLowBit b.toNat)

theorem flipByte_flipByte (b : UInt8) : flipByte (flipByte b) = b := by
  have hall : ∀ n : Fin 256, flipLowBit (flipLowBit n.val % 256) % 256 = n.val := by decide +kernel
  have hb := hall ⟨b.toNat, b.toNat_lt⟩
  rw [← UInt8.toNat_inj, flipByte, UInt8.toNat_ofNat', flipByte, UInt8.toNat_ofNat']
  exact hb

/-- The field with its bytes flipped, rotated to the left. -/
def obfuscate (rotate : ℕ) (bs : Bytes) : Bytes := (bs.map flipByte).rotate rotate

/-- The field with its bytes flipped, rotated to the right. -/
def unobfuscate (rotate : ℕ) (bs : Bytes) : Bytes := (bs.map flipByte).rotate (bs.length - rotate)

@[simp] theorem length_obfuscate (rotate : ℕ) (bs : Bytes) : (obfuscate rotate bs).length = bs.length := by
  rw [obfuscate, List.length_rotate, List.length_map]

@[simp] theorem length_unobfuscate (rotate : ℕ) (bs : Bytes) :
    (unobfuscate rotate bs).length = bs.length := by
  rw [unobfuscate, List.length_rotate, List.length_map]

theorem unobfuscate_obfuscate {rotate : ℕ} {bs : Bytes} (h : rotate ≤ bs.length) :
    unobfuscate rotate (obfuscate rotate bs) = bs := by
  have hflip : flipByte ∘ flipByte = id := funext flipByte_flipByte
  rw [unobfuscate, length_obfuscate, obfuscate, List.map_rotate, List.map_map, hflip, List.map_id,
    List.rotate_rotate, Nat.add_sub_cancel' h, List.rotate_length]

/-! ### The places of a view -/

/-- The bytes from the offset of the view on lie at the places `ps` of its buffer. -/
def DV.Places (dv : DV) (ps : List ℕ) : Prop :=
  ∀ i (h : i < ps.length), index? dv.buf.length (dv.offset + i) = some ps[i]

theorem DV.Places.inside {dv : DV} {ps : List ℕ} (hps : dv.Places ps) : ∀ p ∈ ps, p < dv.buf.length := by
  intro p hp
  obtain ⟨i, hi, rfl⟩ := List.getElem_of_mem hp
  exact index?_lt (hps i hi)

theorem DV.Places.of_length {dv : DV} {ps : List ℕ} (hps : dv.Places ps) {buf : Bytes}
    (hbuf : buf.length = dv.buf.length) : DV.Places { dv with buf := buf } ps := by
  intro i hi
  show index? buf.length (dv.offset + i) = some ps[i]
  rw [hbuf, hps i hi]

theorem DV.places_range' {buf : Bytes} {k n : ℕ} (h : k + n ≤ buf.length) :
    DV.Places ⟨buf, k⟩ (List.range' k n) := by
  intro i hi
  rw [List.length_range'] at hi
  have hplace : (k : ℤ) + i = (k + i : ℕ) := by push_cast; rfl
  rw [List.getElem_range', Nat.one_mul]
  show index? buf.length ((k : ℤ) + i) = some (k + i)
  rw [hplace, index?_natCast (by omega)]

/-! ### Copying bytes -/

theorem copyByte_places {dv : DV} {ps : List ℕ} (hps : dv.Places ps) {newBuf : Bytes} {i j : ℕ}
    (hi : i < ps.length) (hj : j < newBuf.length) :
    copyByte newBuf dv i j = .ok { dv with buf := dv.buf.set ps[i] newBuf[j] } := by
  have hbyte : newBuf.getD j 0 = newBuf[j] := by
    rw [List.getD_eq_getElem?_getD, List.getElem?_eq_getElem hj]
    rfl
  rw [copyByte, index?_natCast hj]
  show dv.via i (·.writeU8 (newBuf.getD j 0).toNat) = _
  rw [DV.via, DV.add, DV.writeU8, hps i hi, hbyte, UInt8.ofNat_toNat]
  rfl

theorem copyBytes {dv : DV} {ps : List ℕ} (hps : dv.Places ps) {newBuf : Bytes} {a b m : ℕ} {dst src : ℕ → ℤ}
    (hdst : ∀ i, dst i = (a + i : ℕ)) (hsrc : ∀ i, src i = (b + i : ℕ)) (hwrite : a + m ≤ ps.length)
    (hread : b + m ≤ newBuf.length) :
    (List.range m).foldlM (fun dv i => copyByte newBuf dv (dst i) (src i)) dv =
      .ok { dv with buf := scatter dv.buf (field ps a m) (field newBuf b m) } := by
  induction m with
  | zero =>
    rw [field, List.take_zero, scatter]
    rfl
  | succ m ih =>
    have hplace : ps[a + m]? = some ps[a + m] := List.getElem?_eq_getElem _
    have hbyte : newBuf[b + m]? = some newBuf[b + m] := List.getElem?_eq_getElem _
    have hsame : (field newBuf b m).length = (field ps a m).length := by
      rw [length_field (by omega), length_field (by omega)]
    rw [List.range_succ, List.foldlM_append, ih (by omega) (by omega), except_ok_bind, field_succ hplace,
      field_succ hbyte, scatter_append hsame]
    show copyByte newBuf _ (dst m) (src m) >>= pure = _
    rw [hdst, hsrc, copyByte_places (hps.of_length (length_scatter _ _ _)) (by omega) (by omega)]
    rfl

theorem flipped_eq (inoutbuf : DV) (n : ℕ) :
    flipped inoutbuf n = (List.range n).mapM fun (i : ℕ) =>
      (fun b => UInt8.ofNat (flipLowBit b)) <$> (inoutbuf.add i).readU8 := by
  have hcast : (do let i ← List.range n; pure (i : ℤ)) = (List.range n).map fun (i : ℕ) => (i : ℤ) :=
    List.flatMap_pure_eq_map _ _
  unfold flipped
  rw [hcast, List.mapM_map]
  rfl

theorem readU8_places {dv : DV} {ps : List ℕ} (hps : dv.Places ps) {i : ℕ} (hi : i < ps.length) {b : UInt8}
    (hb : dv.buf[ps[i]]? = some b) :
    (fun b => UInt8.ofNat (flipLowBit b)) <$> (dv.add i).readU8 = .ok (flipByte b) := by
  have hbyte : dv.buf.getD ps[i] 0 = b := by
    rw [List.getD_eq_getElem?_getD, hb]
    rfl
  rw [DV.readU8, DV.add, hps i hi]
  show Except.ok (flipByte (dv.buf.getD ps[i] 0)) = _
  rw [hbyte]

theorem flipped_places {dv : DV} {ps : List ℕ} (hps : dv.Places ps) :
    flipped dv ps.length = .ok ((gather dv.buf ps).map flipByte) := by
  suffices htake : ∀ m ≤ ps.length, (List.range m).mapM (fun (i : ℕ) =>
      (fun b => UInt8.ofNat (flipLowBit b)) <$> (dv.add i).readU8) =
        .ok ((gather dv.buf (ps.take m)).map flipByte) by
    rw [flipped_eq, htake ps.length le_rfl, List.take_length]
  intro m hm
  induction m with
  | zero => rfl
  | succ m ih =>
    have hplace : ps[m]? = some ps[m] := List.getElem?_eq_getElem _
    obtain ⟨b, hbyte⟩ : ∃ b, dv.buf[ps[m]]? = some b :=
      ⟨_, List.getElem?_eq_getElem (hps.inside _ (List.getElem_mem _))⟩
    have hlast : gather dv.buf [ps[m]] = [b] := by
      rw [gather, List.filterMap_cons_some hbyte]
      rfl
    rw [List.range_succ, List.mapM_append, ih (by omega), except_ok_bind, List.take_add_one, hplace,
      gather_append, List.map_append]
    show (((fun b => UInt8.ofNat (flipLowBit b)) <$> (dv.add m).readU8 >>= fun b => pure [b]) >>= fun bs =>
      pure ((gather dv.buf (ps.take m)).map flipByte ++ bs)) = .ok (_ ++ (gather dv.buf [ps[m]]).map flipByte)
    rw [readU8_places hps (by omega) hbyte, hlast]
    rfl

/-! ### The two directions -/

theorem rotate_eq_fields {bs : Bytes} {n r : ℕ} (hlen : bs.length = n) (h : r ≤ n) :
    bs.rotate r = field bs r (n - r) ++ field bs 0 r := by
  have hback : field bs r (n - r) = bs.drop r := List.take_of_length_le (by rw [List.length_drop, hlen])
  rw [List.rotate_eq_drop_append_take (by omega), hback]
  rfl

theorem xqBytesEnc_places {dv : DV} {ps : List ℕ} (hps : dv.Places ps) {rotate : ℕ}
    (hrotate : rotate ≤ ps.length) :
    xqBytesEnc dv ps.length rotate =
      .ok { dv with buf := scatter dv.buf ps (obfuscate rotate (gather dv.buf ps)) } := by
  have hlen : ((gather dv.buf ps).map flipByte).length = ps.length := by
    rw [List.length_map, length_gather hps.inside]
  have hsame : (field ((gather dv.buf ps).map flipByte) rotate (ps.length - rotate)).length =
      (field ps 0 (ps.length - rotate)).length := by
    rw [length_field (by omega), length_field (by omega)]
  have hwhole : scatter dv.buf ps (obfuscate rotate (gather dv.buf ps)) =
      scatter dv.buf (field ps 0 (ps.length - rotate) ++ field ps (ps.length - rotate) rotate)
        (field ((gather dv.buf ps).map flipByte) rotate (ps.length - rotate) ++
          field ((gather dv.buf ps).map flipByte) 0 rotate) := by
    rw [field_halves (by omega), obfuscate, rotate_eq_fields hlen hrotate]
  unfold xqBytesEnc
  rw [flipped_places hps, except_ok_bind,
    copyBytes (a := 0) (b := rotate) hps (by simp) (by simp [add_comm]) (by omega) (by omega), except_ok_bind,
    copyBytes (a := ps.length - rotate) (b := 0) (hps.of_length (length_scatter _ _ _)) (fun i => by omega)
      (by simp) (by omega) (by omega),
    hwhole, scatter_append hsame]

theorem xqBytesDec_places {dv : DV} {ps : List ℕ} (hps : dv.Places ps) (hnodup : ps.Nodup) {rotate : ℕ}
    (hrotate : rotate ≤ ps.length) :
    xqBytesDec dv ps.length rotate =
      .ok { dv with buf := scatter dv.buf ps (unobfuscate rotate (gather dv.buf ps)) } := by
  have hlen : ((gather dv.buf ps).map flipByte).length = ps.length := by
    rw [List.length_map, length_gather hps.inside]
  have hsame : (field ((gather dv.buf ps).map flipByte) (ps.length - rotate) rotate).length =
      (field ps 0 rotate).length := by
    rw [length_field (by omega), length_field (by omega)]
  have hparts : field ps 0 rotate ++ field ps rotate (ps.length - rotate) = ps := field_halves (by omega)
  have hapart : ∀ p ∈ field ps rotate (ps.length - rotate), p ∉ field ps 0 rotate := by
    intro p hback hfront
    rw [← hparts] at hnodup
    exact (List.disjoint_of_nodup_append hnodup) hfront hback
  have hwhole : scatter dv.buf ps (unobfuscate rotate (gather dv.buf ps)) =
      scatter dv.buf (field ps 0 rotate ++ field ps rotate (ps.length - rotate))
        (field ((gather dv.buf ps).map flipByte) (ps.length - rotate) rotate ++
          field ((gather dv.buf ps).map flipByte) 0 (ps.length - rotate)) := by
    have hrot := rotate_eq_fields hlen (Nat.sub_le ps.length rotate)
    rw [Nat.sub_sub_self hrotate] at hrot
    rw [hparts, unobfuscate, length_gather hps.inside, hrot]
  unfold xqBytesDec
  -- the loops fill the back of the field first, then its front
  rw [flipped_places hps, except_ok_bind, List.range'_eq_map_range, List.foldlM_map,
    copyBytes (a := rotate) (b := 0) hps (fun i => by push_cast; rfl) (fun i => by push_cast; omega) (by omega)
      (by omega),
    except_ok_bind,
    copyBytes (a := 0) (b := ps.length - rotate) (hps.of_length (length_scatter _ _ _)) (by simp)
      (fun i => by omega) (by omega) (by omega),
    hwhole, scatter_append hsame, scatter_comm hapart]

/-! ### Views at an offset that counts from the start -/

theorem flipped_ok {buf : Bytes} {k n : ℕ} (h : k + n ≤ buf.length) :
    flipped ⟨buf, k⟩ n = .ok ((field buf k n).map flipByte) := by
  have hflipped := flipped_places (DV.places_range' h)
  rwa [List.length_range', gather_range' h] at hflipped

theorem xqBytesEnc_ok (buf : Bytes) (k : ℕ) {n rotate : ℕ} (hrotate : rotate ≤ n) (h : k + n ≤ buf.length) :
    xqBytesEnc ⟨buf, k⟩ n rotate = .ok ⟨put buf k (obfuscate rotate (field buf k n)), k⟩ := by
  have hlen : (obfuscate rotate (field buf k n)).length = n := by rw [length_obfuscate, length_field h]
  have hplaces : rotate ≤ (List.range' k n).length := by rwa [List.length_range']
  have henc := xqBytesEnc_places (DV.places_range' h) hplaces
  have hput : scatter buf (List.range' k (obfuscate rotate (field buf k n)).length)
      (obfuscate rotate (field buf k n)) = put buf k (obfuscate rotate (field buf k n)) := scatter_range' (by omega)
  rw [hlen] at hput
  rw [List.length_range', gather_range' h] at henc
  rw [henc]
  exact congrArg (fun bytes => Except.ok (⟨bytes, k⟩ : DV)) hput

theorem xqBytesDec_ok (buf : Bytes) (k : ℕ) {n rotate : ℕ} (hrotate : rotate ≤ n) (h : k + n ≤ buf.length) :
    xqBytesDec ⟨buf, k⟩ n rotate = .ok ⟨put buf k (unobfuscate rotate (field buf k n)), k⟩ := by
  have hlen : (unobfuscate rotate (field buf k n)).length = n := by rw [length_unobfuscate, length_field h]
  have hplaces : rotate ≤ (List.range' k n).length := by rwa [List.length_range']
  have hdec := xqBytesDec_places (DV.places_range' h) List.nodup_range' hplaces
  have hput : scatter buf (List.range' k (unobfuscate rotate (field buf k n)).length)
      (unobfuscate rotate (field buf k n)) = put buf k (unobfuscate rotate (field buf k n)) := scatter_range' (by omega)
  rw [hlen] at hput
  rw [List.length_range', gather_range' h] at hdec
  rw [hdec]
  exact congrArg (fun bytes => Except.ok (⟨bytes, k⟩ : DV)) hput

end CamReverse
