import CamReverse.Control.Deobfuscation

/-!
# Control packets that can be read

Which control packets `create_response_for_control_command` reads without raising, as far as its own reads
go: the deobfuscation needs the bytes it moves (`isOk_deobfuscated`), and each parser the fields it reads.
-/

namespace CamReverse

open Effect Bytes

/-! ### The deobfuscation -/

/-- `j` is an index of a list of `n` elements. -/
def IsIndex (n : ℕ) (j : ℤ) : Prop := -(n : ℤ) ≤ j ∧ j < n

theorem isSome_index? (n : ℕ) (j : ℤ) : (index? n j).isSome = true ↔ IsIndex n j := by
  unfold index? IsIndex
  split_ifs <;> simp <;> omega

/-- A view of a buffer of `size` bytes from `k` on. -/
def ViewOf (k size : ℕ) (dv : DV) : Prop := ∃ buf, dv = ⟨buf, k⟩ ∧ buf.length = size

theorem writeU8_via {buf : Bytes} {k i : ℕ} (val : ℕ) :
    (⟨buf, k⟩ : DV).via i (·.writeU8 val) =
      if k + i < buf.length then .ok ⟨buf.set (k + i) (UInt8.ofNat val), k⟩ else .error .indexError := by
  have hplace : (k : ℤ) + i = (k + i : ℕ) := by push_cast; rfl
  rw [DV.via, DV.add, DV.writeU8, hplace]
  split_ifs with h
  · rw [index?_natCast h]
    rfl
  · rw [index?_natCast_none (Nat.le_of_not_lt h)]
    rfl

theorem isOk_copyByte {newBuf : Bytes} {k size i : ℕ} {j : ℤ} {dv : DV} (hdv : ViewOf k size dv) :
    (copyByte newBuf dv i j).isOk = true ↔ IsIndex newBuf.length j ∧ k + i < size := by
  obtain ⟨buf, rfl, rfl⟩ := hdv
  rw [← isSome_index?, copyByte]
  cases index? newBuf.length j with
  | none => exact iff_of_false Bool.false_ne_true fun h => Bool.false_ne_true h.1
  | some m =>
    simp only [writeU8_via, Option.isSome_some, true_and]
    split_ifs with h
    · exact iff_of_true rfl h
    · exact iff_of_false Bool.false_ne_true h

theorem copyByte_keeps {newBuf : Bytes} {k size i : ℕ} {j : ℤ} {dv dv' : DV} (hdv : ViewOf k size dv)
    (h : copyByte newBuf dv i j = .ok dv') : ViewOf k size dv' := by
  obtain ⟨buf, rfl, rfl⟩ := hdv
  rw [copyByte] at h
  cases hj : index? newBuf.length j with
  | none =>
    rw [hj] at h
    cases h
  | some m =>
    simp only [hj, writeU8_via] at h
    split_ifs at h
    exact ⟨_, (Except.ok.inj h).symm, List.length_set⟩

theorem isOk_copies (newBuf : Bytes) {k size : ℕ} (src : ℕ → ℤ) (places : List ℕ) {dv : DV}
    (hdv : ViewOf k size dv) :
    ((places.foldlM (fun dv (i : ℕ) => copyByte newBuf dv i (src i)) dv).isOk = true ↔
        ∀ i ∈ places, IsIndex newBuf.length (src i) ∧ k + i < size) ∧
      ∀ dv', places.foldlM (fun dv (i : ℕ) => copyByte newBuf dv i (src i)) dv = .ok dv' →
        ViewOf k size dv' :=
  isOk_foldlM (I := ViewOf k size) (P := fun i => IsIndex newBuf.length (src i) ∧ k + i < size)
    (fun _ _ => isOk_copyByte) (fun _ _ _ => copyByte_keeps) hdv

theorem isOk_flipped (buf : Bytes) (k n : ℕ) :
    (flipped ⟨buf, k⟩ n).isOk = true ↔ ∀ i < n, k + i < buf.length := by
  rw [flipped_eq, isOk_mapM]
  simp only [List.mem_range]
  refine forall₂_congr fun i _ => ?_
  have hplace : (⟨buf, k⟩ : DV).add i = ⟨buf, (k + i : ℕ)⟩ := by rw [DV.add]; push_cast; rfl
  rw [isOk_map, hplace, DV.readU8_nat]
  split_ifs with h
  · exact iff_of_true rfl h
  · exact iff_of_false Bool.false_ne_true h

theorem isOk_xqBytesDec (buf : Bytes) (k : ℕ) {n : ℕ} (hn : 0 < n) :
    ((xqBytesDec ⟨buf, k⟩ n 4).isOk = true ↔ 2 ≤ n ∧ k + max n 4 ≤ buf.length) ∧
      ∀ dv, xqBytesDec ⟨buf, k⟩ n 4 = .ok dv → ViewOf k buf.length dv := by
  have hview : ViewOf k buf.length ⟨buf, k⟩ := ⟨buf, rfl, rfl⟩
  unfold xqBytesDec
  by_cases hinside : k + n ≤ buf.length
  · have hlen : ((field buf k n).map flipByte).length = n := by rw [List.length_map, length_field hinside]
    rw [flipped_ok hinside, except_ok_bind]
    obtain ⟨hback, hkeep⟩ := isOk_copies ((field buf k n).map flipByte) (fun i => (i : ℤ) - (4 : ℕ))
      (List.range' 4 (n - 4)) hview
    cases hrun : (List.range' 4 (n - 4)).foldlM (fun dv (i : ℕ) =>
        copyByte ((field buf k n).map flipByte) dv i ((i : ℤ) - (4 : ℕ))) (⟨buf, k⟩ : DV) with
    | error e =>
      rw [hrun, hlen] at hback
      have hsome : ¬∀ i ∈ List.range' 4 (n - 4), IsIndex n ((i : ℤ) - (4 : ℕ)) ∧ k + i < buf.length :=
        fun h => Bool.false_ne_true (hback.2 h)
      refine absurd (fun i hi => ?_) hsome
      rw [List.mem_range'_1] at hi
      exact ⟨⟨by omega, by omega⟩, by omega⟩
    | ok dv =>
      obtain ⟨hfront, hkeep'⟩ := isOk_copies ((field buf k n).map flipByte)
        (fun i => (n : ℤ) - (4 : ℕ) + i) (List.range 4) (hkeep dv hrun)
      rw [except_ok_bind]
      refine ⟨hfront.trans ?_, hkeep'⟩
      rw [hlen]
      simp only [List.mem_range, IsIndex]
      constructor
      · intro h
        have hzero := h 0 (by decide)
        have hthree := h 3 (by decide)
        omega
      · intro h i hi
        omega
  · have hnot : ¬(flipped ⟨buf, k⟩ n).isOk = true := by
      rw [isOk_flipped]
      exact fun h => absurd (h (n - 1) (by omega)) (by omega)
    cases hflip : flipped ⟨buf, k⟩ n with
    | ok bs => exact absurd (by rw [hflip]; rfl) hnot
    | error e =>
      refine ⟨iff_of_false Bool.false_ne_true (by omega), ?_⟩
      rintro dv ⟨⟩

/-- The lengths for which the deobfuscation returns: up to the ticket, or from 2 bytes behind it on that are
there, of which at least 4 are moved. -/
def PayloadFits (size payloadLen : ℕ) : Prop :=
  payloadLen ≤ 4 ∨ 6 ≤ payloadLen ∧ 20 + max (payloadLen - 4) 4 ≤ size

instance (size payloadLen : ℕ) : Decidable (PayloadFits size payloadLen) :=
  inferInstanceAs (Decidable (_ ∨ _ ∧ _))

theorem isOk_deobfuscated (buf : Bytes) (payloadLen : ℕ) :
    ((deobfuscated (DV.ofBytes buf) payloadLen).isOk = true ↔ PayloadFits buf.length payloadLen) ∧
      ∀ dv, deobfuscated (DV.ofBytes buf) payloadLen = .ok dv →
        ∃ buf', dv = DV.ofBytes buf' ∧ buf'.length = buf.length := by
  by_cases hshort : payloadLen ≤ 4
  · rw [deobfuscated_short hshort]
    exact ⟨iff_of_true rfl (.inl hshort), fun dv h => ⟨buf, (Except.ok.inj h).symm, rfl⟩⟩
  · obtain ⟨hiff, hkeep⟩ := isOk_xqBytesDec buf 20 (n := payloadLen - 4) (by omega)
    simp only [deobfuscated, if_pos (show 4 < payloadLen by omega), DV.via, isOk_map]
    rw [show (DV.ofBytes buf).add 20 = ⟨buf, (20 : ℕ)⟩ from rfl]
    refine ⟨hiff.trans ?_, fun dv h => ?_⟩
    · unfold PayloadFits
      omega
    · cases hdec : xqBytesDec ⟨buf, (20 : ℕ)⟩ (payloadLen - 4) 4 with
      | error e =>
        rw [hdec] at h
        cases h
      | ok view =>
        obtain ⟨buf', rfl, hlen⟩ := hkeep view hdec
        rw [hdec] at h
        exact ⟨buf', (Except.ok.inj h).symm, hlen⟩

/-! ### The parsers -/

theorem isOk_parseDevStatusAck (buf : Bytes) :
    (parseDevStatusAck (DV.ofBytes buf)).isOk = true ↔ 44 ≤ buf.length := by
  refine (isOk_bind (DV.isOk_read ofLE buf 0x28 4) fun _ => isOk_bind (DV.isOk_read ofLE buf 0x18 2) fun _ =>
    isOk_bind (DV.isOk_readU8 buf 0x24) fun _ => isOk_bind (DV.isOk_read ofLE buf 0x14 4) fun _ =>
      iff_of_true rfl trivial).trans ?_
  simp only [and_true]
  omega

theorem isOk_parseWifiSettings (buf : Bytes) :
    (parseWifiSettings (DV.ofBytes buf)).isOk = true ↔ 44 ≤ buf.length := by
  refine (isOk_bind (DV.isOk_read ofBE buf 0x14 4) fun _ => isOk_bind (DV.isOk_read ofBE buf 0x18 4) fun _ =>
    isOk_bind (DV.isOk_read ofLE buf 0x1C 4) fun _ => isOk_bind (DV.isOk_read ofBE buf 0x20 4) fun _ =>
      isOk_bind (DV.isOk_read ofBE buf 0x24 4) fun _ => isOk_bind (DV.isOk_read ofBE buf 0x28 4) fun _ =>
        iff_of_true rfl trivial).trans ?_
  simp only [and_true]
  omega

theorem isOk_parseWifiListItem (buf : Bytes) (startat : ℕ) :
    (parseWifiListItem (DV.ofBytes buf) startat).isOk = true ↔ startat + 0x5C ≤ buf.length := by
  refine (isOk_bind (DV.isOk_read ofLE buf (startat + 0x48) 4) fun _ =>
    isOk_bind (DV.isOk_read ofLE buf (startat + 0x4C) 4) fun _ =>
      isOk_bind (DV.isOk_read ofLE buf (startat + 0x50) 4) fun _ =>
        isOk_bind (DV.isOk_read ofLE buf (startat + 0x54) 4) fun _ =>
          isOk_bind (DV.isOk_read ofLE buf (startat + 0x58) 4) fun _ => iff_of_true rfl trivial).trans ?_
  simp only [and_true]
  omega

theorem isOk_parseWifiRecords (buf : Bytes) (msgCount startat : ℕ) :
    (parseWifiRecords (DV.ofBytes buf) msgCount startat).isOk = true := by
  have hlen : (DV.ofBytes buf).byteLength = buf.length := by simp [DV.byteLength, DV.ofBytes]
  induction msgCount generalizing startat with
  | zero => rfl
  | succ msgCount ih =>
    simp only [parseWifiRecords, hlen]
    split_ifs with hcropped
    · rfl
    · have hitem := (isOk_parseWifiListItem buf startat).2 (by omega)
      refine (isOk_bind (iff_of_true hitem trivial) fun item => ?_).2 ⟨trivial, trivial⟩
      exact (isOk_bind (iff_of_true (ih _) trivial) fun items => iff_of_true rfl trivial).trans
        (and_iff_left trivial)

theorem isOk_parseListWifi (buf : Bytes) :
    (parseListWifi (DV.ofBytes buf)).isOk = true ↔ 20 ≤ buf.length := by
  refine (isOk_bind (DV.isOk_read ofLE buf 0x10 4) fun msgCount =>
    iff_of_true (isOk_parseWifiRecords buf msgCount _) trivial).trans (and_iff_left trivial)

end CamReverse
