import CamReverse.Control.Punch
import CamReverse.Lib.Cuts

/-!
# The identity of a camera

A camera is known under its `dev_id`, the prefix, the serial number in decimal and the suffix of its PunchPkt written
one after the other. Prefix and suffix may hold any characters, so two cameras share a `dev_id` exactly if the
number of the one lies at another place of the text than the number of the other (`identity_unique_iff`). It cannot
as long as the prefixes have no digits and the suffixes do not start with one (`identity_unique_of_letters`).
-/

namespace CamReverse

open Effect Bytes Cut

/-- The prefix, the digits of the serial number and the suffix of a PunchPkt. -/
def idCut (pkt : Bytes) : Cut Char where
  front := (decodeLatin1 ((field pkt 4 4).takeWhile (· ≠ 0))).toList
  mid := (toString (ofBE (field pkt 8 8))).toList
  back := (decodeLatin1 (suffixBytes pkt)).toList

/-- The fields that make up the identity of a camera. -/
def DevSerial.triple (dev : DevSerial) : String × ℕ × String := (dev.devPrefix, dev.serialU64, dev.suffix)

theorem toString_nat_inj {m n : ℕ} (h : (toString m).toList = (toString n).toList) : m = n := by
  have hdigits : Nat.toDigits 10 m = Nat.toDigits 10 n := by
    rwa [Nat.toString_eq_repr, Nat.toString_eq_repr, Nat.toList_repr, Nat.toList_repr] at h
  rw [← Nat.ofDigitChars_ten_toDigits (n := m), hdigits, Nat.ofDigitChars_ten_toDigits]

theorem idCut_mid_ne (pkt : Bytes) : (idCut pkt).mid ≠ [] := by
  rw [idCut, Nat.toString_eq_repr, Nat.toList_repr]
  exact Nat.toDigits_ne_nil

theorem parsePunchPkt_eq {pkt : Bytes} {dev : DevSerial} (h : parsePunchPkt (DV.ofBytes pkt) = .ok dev) :
    dev = punchSerial pkt := by
  by_cases hlen : 16 ≤ pkt.length
  · rw [parsePunchPkt_ok hlen] at h
    exact (Except.ok.inj h).symm
  · obtain ⟨_, -, h⟩ := except_bind_eq_ok h
    obtain ⟨_, -, h⟩ := except_bind_eq_ok h
    obtain ⟨serialU64, hread, -⟩ := except_bind_eq_ok h
    have hserial := DV.read_ofBytes ofBE pkt 8 8
    rw [if_neg (by omega)] at hserial
    exact absurd (hread.symm.trans hserial) (by simp)

theorem devId_eq_iff (pkt pkt' : Bytes) :
    (punchSerial pkt).devId = (punchSerial pkt').devId ↔ (idCut pkt).text = (idCut pkt').text := by
  rw [← String.toList_inj]
  simp only [punchSerial, String.toList_append, Cut.text, idCut]

theorem idCut_eq_iff (pkt pkt' : Bytes) :
    idCut pkt = idCut pkt' ↔ (punchSerial pkt).triple = (punchSerial pkt').triple := by
  constructor
  · intro h
    obtain ⟨hfront, hmid, hback⟩ := Cut.mk.inj h
    exact Prod.ext (String.toList_inj.1 hfront) (Prod.ext (toString_nat_inj hmid) (String.toList_inj.1 hback))
  · intro h
    obtain ⟨hfront, hrest⟩ := Prod.mk.inj h
    obtain ⟨hserial, hback⟩ := Prod.mk.inj hrest
    exact Cut.ext (congrArg String.toList hfront) (congrArg (fun n : ℕ => (toString n).toList) hserial)
      (congrArg String.toList hback)

/-- **Camera identity is unique** for two PunchPkts exactly if the number of neither lies inside, overlaps the
end of or lies behind the number of the other in one text. -/
theorem identity_unique_iff {pkt pkt' : Bytes} {dev dev' : DevSerial}
    (h : parsePunchPkt (DV.ofBytes pkt) = .ok dev) (h' : parsePunchPkt (DV.ofBytes pkt') = .ok dev') :
    (dev.triple ≠ dev'.triple → dev.devId ≠ dev'.devId) ↔
      ¬Shifted (idCut pkt) (idCut pkt') ∧ ¬Shifted (idCut pkt') (idCut pkt) := by
  rw [parsePunchPkt_eq h, parsePunchPkt_eq h', ne_eq, ← idCut_eq_iff, ne_eq, devId_eq_iff, text_eq_iff]
  constructor
  · intro hunique
    refine ⟨fun hshift => ?_, fun hshift => ?_⟩
    · exact hunique (hshift.ne (idCut_mid_ne pkt)) (.inr (.inl hshift))
    · exact hunique (hshift.ne (idCut_mid_ne pkt')).symm (.inr (.inr hshift))
  · rintro ⟨hright, hleft⟩ hne (hsame | hshift | hshift)
    · exact hne hsame
    · exact hright hshift
    · exact hleft hshift

/-- A PunchPkt with the prefix "A" and the given serial number and suffix. -/
def punchA (serialU64 : ℕ) (suffix : Bytes) : Bytes :=
  be 2 Command.punchPkt.code ++ be 2 0x14 ++ [0x41, 0, 0, 0] ++ be 8 serialU64 ++ padded 8 suffix

/-- The cameras A, 12, B and A, 13, B. -/
theorem identity_unique_iff_letters :
    ((punchSerial (punchA 12 [0x42])).triple ≠ (punchSerial (punchA 13 [0x42])).triple →
        (punchSerial (punchA 12 [0x42])).devId ≠ (punchSerial (punchA 13 [0x42])).devId) ↔
      ¬Shifted (idCut (punchA 12 [0x42])) (idCut (punchA 13 [0x42])) ∧
        ¬Shifted (idCut (punchA 13 [0x42])) (idCut (punchA 12 [0x42])) :=
  identity_unique_iff (parsePunchPkt_ok (by decide)) (parsePunchPkt_ok (by decide))

/-- The cameras A, 12, 3 and A, 1, 23 are both known as A123. -/
theorem identity_shared :
    ∃ dev dev', parsePunchPkt (DV.ofBytes (punchA 12 [0x33])) = .ok dev ∧
      parsePunchPkt (DV.ofBytes (punchA 1 [0x32, 0x33])) = .ok dev' ∧
        dev.triple ≠ dev'.triple ∧ dev.devId = "A123" ∧ dev'.devId = "A123" := by
  refine ⟨_, _, parsePunchPkt_ok (by decide), parsePunchPkt_ok (by decide), ?_, ?_, ?_⟩ <;> decide +kernel

/-! ### Cameras whose ids are letters around a number -/

/-- The prefix of a PunchPkt has no digits, and its suffix does not start with one. -/
structure Lettered (pkt : Bytes) : Prop where
  front : ∀ c ∈ (idCut pkt).front, c.isDigit = false
  back : ∀ c ∈ (idCut pkt).back.head?, c.isDigit = false

theorem Lettered.delimits {pkt : Bytes} (h : Lettered pkt) : (idCut pkt).Delimits (·.isDigit = true) where
  front c hc := by rw [h.front c hc]; decide
  mid c hc := by
    rw [idCut, Nat.toString_eq_repr, Nat.toList_repr] at hc
    exact Nat.isDigit_of_mem_toDigits (by decide) (by decide) hc
  back c hc := by rw [h.back c hc]; decide

/-- Cameras whose ids are letters around a number are told apart. -/
theorem identity_unique_of_letters {pkt pkt' : Bytes} {dev dev' : DevSerial}
    (h : parsePunchPkt (DV.ofBytes pkt) = .ok dev) (h' : parsePunchPkt (DV.ofBytes pkt') = .ok dev')
    (hpkt : Lettered pkt) (hpkt' : Lettered pkt') (hne : dev.triple ≠ dev'.triple) :
    dev.devId ≠ dev'.devId := by
  rw [parsePunchPkt_eq h, parsePunchPkt_eq h'] at hne ⊢
  rw [ne_eq, devId_eq_iff, text_eq_iff]
  rintro (hsame | hshift | hshift)
  · exact hne ((idCut_eq_iff pkt pkt').1 hsame)
  · exact hpkt.delimits.not_shifted hpkt'.delimits (idCut_mid_ne pkt) hshift
  · exact hpkt'.delimits.not_shifted hpkt.delimits (idCut_mid_ne pkt') hshift

end CamReverse
