import CertLifecycle.Renewal
import Mathlib

namespace CertLifecycle.Double

open Float.Model Float.Model.UnpackedFloat

def Signed (s : Sign) : UnpackedFloat → Prop
  | .notANumber => True
  | .infinity t | .zero t | .finite t _ _ _ => t = s

variable {s t : Sign} {u v : UnpackedFloat} {format : Format}

theorem signed_roundWithAccuracy (s : Sign) (mantissa : Nat) (exponent : Int)
    (accuracy : Accuracy) :
    Signed s (roundWithAccuracy format s mantissa exponent accuracy) := by
  unfold roundWithAccuracy
  dsimp only
  split_ifs <;> rfl

theorem signed_round (s : Sign) (mantissa : Nat) (exponent : Int) :
    Signed s (UnpackedFloat.round format s mantissa exponent) :=
  signed_roundWithAccuracy s _ _ _

theorem signed_mul (hu : Signed s u) (hv : Signed t v) :
    Signed (s * t) (UnpackedFloat.mul format u v) := by
  cases u <;> cases v <;> cases hu <;> cases hv
  case finite.finite => exact signed_roundWithAccuracy _ _ _ _
  all_goals trivial

theorem signed_div (hu : Signed s u) (hv : Signed t v) :
    Signed (s / t) (UnpackedFloat.div format u v) := by
  cases u <;> cases v <;> cases hu <;> cases hv
  case finite.finite => exact signed_roundWithAccuracy _ _ _ _
  all_goals trivial

theorem signed_ofInt_of_neg {n : Int} (h : n < 0) :
    Signed .negative (UnpackedFloat.ofInt format n) := by
  unfold UnpackedFloat.ofInt UnpackedFloat.normalize
  rw [Int.compare_eq_lt.mpr h]
  exact signed_round _ _ _

theorem signed_ofInt_of_pos {n : Int} (h : 0 < n) :
    Signed .positive (UnpackedFloat.ofInt format n) := by
  unfold UnpackedFloat.ofInt UnpackedFloat.normalize
  rw [Int.compare_eq_gt.mpr h]
  exact signed_round _ _ _

theorem signed_ofUInt64 (i : UInt64) : Signed .positive (UnpackedFloat.ofUInt64 format i) := by
  unfold UnpackedFloat.ofUInt64 UnpackedFloat.ofNat
  obtain hi | hi := Nat.eq_zero_or_pos i.toNat
  · rw [hi]
    rfl
  · apply signed_ofInt_of_pos
    omega

theorem signed_add (hu : Signed .positive u) (hv : Signed .positive v) :
    Signed .positive (UnpackedFloat.add format u v) := by
  cases u <;> cases v <;> cases hu <;> cases hv
  case finite.finite m e hm n k hn =>
    unfold UnpackedFloat.add decreaseExponent UnpackedFloat.normalize
    have hpos : 0 < m <<< (e - min e k).toNat := by
      rw [Nat.shiftLeft_eq]
      positivity
    dsimp only
    rw [Int.compare_eq_gt.mpr]
    · exact signed_round _ _ _
    · exact Int.add_pos_of_pos_of_nonneg (Int.natCast_pos.mpr hpos) (Int.natCast_nonneg _)
  all_goals trivial

theorem signed_unpack (b : BitVec format.numBits) :
    Signed (.ofBitVec (unpackSign b)) (UnpackedFloat.unpack format b) := by
  unfold UnpackedFloat.unpack
  dsimp only
  split_ifs <;> trivial

theorem unpackSign_pack (h : Signed s u) (hu : u ≠ .notANumber) :
    unpackSign (UnpackedFloat.pack format u) = s.toBitVec := by
  cases u with
  | notANumber => exact absurd rfl hu
  | infinity t =>
    cases h
    exact unpackSign_packComponents _ _ _
  | zero t =>
    cases h
    exact unpackSign_packComponents _ _ _
  | finite t m e hm =>
    cases h
    unfold UnpackedFloat.pack
    dsimp only
    split_ifs <;> exact unpackSign_packComponents _ _ _

theorem signed_unpack_pack (h : Signed s u) : Signed s (Float.Model.pack u).unpack := by
  by_cases hu : u = .notANumber
  · subst hu
    trivial
  · have hpacked := signed_unpack (UnpackedFloat.pack .binary64 u)
    rw [unpackSign_pack h hu, Sign.ofBitVec_toBitVec] at hpacked
    exact hpacked

theorem eq_zero_of_le (h : Signed .negative u) (hu : UnpackedFloat.le (.zero s) u = true) :
    u = .zero .negative := by
  cases u with
  | notANumber => cases hu
  | infinity t =>
    cases h
    cases hu
  | zero t =>
    cases h
    rfl
  | finite t m e hm =>
    cases h
    cases hu

theorem zero_le_of_finite_le {m : Nat} {e : Int} {hm : 0 < m}
    (h : UnpackedFloat.le (.finite .positive m e hm) u = true) (s : Sign) :
    UnpackedFloat.le (.zero s) u = true := by
  cases u with
  | notANumber => cases h
  | infinity t =>
    cases t with
    | positive => rfl
    | negative => cases h
  | zero t => cases h
  | finite t n k hn =>
    cases t with
    | positive => rfl
    | negative => cases h

section Float

variable {a b low : Float}

theorem le_iff : a ≤ b ↔ UnpackedFloat.le a.toModel.unpack b.toModel.unpack = true :=
  decide_eq_true_iff

theorem signed_float_mul (ha : Signed s a.toModel.unpack) (hb : Signed t b.toModel.unpack) :
    Signed (s * t) (a * b).toModel.unpack :=
  signed_unpack_pack (signed_mul ha hb)

theorem signed_float_add (ha : Signed .positive a.toModel.unpack)
    (hb : Signed .positive b.toModel.unpack) : Signed .positive (a + b).toModel.unpack :=
  signed_unpack_pack (signed_add ha hb)

theorem signed_float_div (ha : Signed s a.toModel.unpack) (hb : Signed t b.toModel.unpack) :
    Signed (s / t) (a / b).toModel.unpack :=
  signed_unpack_pack (signed_div ha hb)

end Float

end CertLifecycle.Double
