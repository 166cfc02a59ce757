import CertLifecycle.Proofs.DoubleSigns

namespace CertLifecycle.Double

open Float.Model Float.Model.UnpackedFloat

def Below (n : Int) : UnpackedFloat → Prop
  | .notANumber | .infinity _ => False
  | .zero _ => True
  | .finite _ m e _ => m.log2 + e < n

variable {n k : Int} {s : Sign} {u v : UnpackedFloat} {f g : Float}

theorem Below.mono (h : Below n u) (hk : n ≤ k) : Below k u := by
  cases u with
  | notANumber => exact h
  | infinity t => exact h
  | zero t => trivial
  | finite t m e hm =>
    simp only [Below] at h ⊢
    omega

theorem log2_div_two_pow (m i : Nat) : (m / 2 ^ i).log2 = m.log2 - i := by
  simp only [Nat.log2_eq_log_two, Nat.log_div_base_pow]

theorem log2_le_log2 {a b : Nat} (h : a ≤ b) : a.log2 ≤ b.log2 := by
  simp only [Nat.log2_eq_log_two]
  exact Nat.log_mono_right h

theorem log2_two_mul_le (m : Nat) : (2 * m).log2 ≤ m.log2 + 1 := by
  by_cases hm : m = 0
  · simp [hm]
  · rw [Nat.log2_two_mul hm]

theorem log2_add_le (a b : Nat) : (a + b).log2 ≤ max a.log2 b.log2 + 1 := by
  obtain hab | hab := Nat.le_total a b
  · have h := log2_le_log2 (show a + b ≤ 2 * b by omega)
    have hb := log2_two_mul_le b
    omega
  · have h := log2_le_log2 (show a + b ≤ 2 * a by omega)
    have ha := log2_two_mul_le a
    omega

theorem log2_shiftLeft {m : Nat} (hm : m ≠ 0) (i : Nat) : (m <<< i).log2 = m.log2 + i := by
  induction i with
  | zero => simp
  | succ i ih =>
    have hne : m <<< i ≠ 0 := by simp [Nat.shiftLeft_eq, hm]
    rw [Nat.shiftLeft_succ, Nat.log2_two_mul hne, ih, Nat.add_assoc]

theorem mantissa_shiftRight (x : ExtendedMantissa) (i : Nat) :
    (x >>> i).mantissa = x.mantissa / 2 ^ i := by
  induction i with
  | zero => simp [HShiftRight.hShiftRight, Nat.repeat]
  | succ i ih =>
    change (x >>> i).mantissa / 2 = _
    rw [ih, Nat.div_div_eq_div_mul, Nat.pow_succ]

theorem mantissa_ofMantissaAndAccuracy (m : Nat) (a : Accuracy) :
    (ExtendedMantissa.ofMantissaAndAccuracy m a).mantissa = m := by
  rcases a with _ | _ | _ | _ <;> rfl

theorem roundedMantissa_le (x : ExtendedMantissa) : x.roundedMantissa ≤ x.mantissa + 1 := by
  rcases x with ⟨m, _ | _, _ | _⟩ <;>
    simp [ExtendedMantissa.roundedMantissa, ExtendedMantissa.accuracy, Accuracy.roundToNearestEven]
  omega

theorem log2_roundedMantissa_le (x : ExtendedMantissa) :
    x.roundedMantissa.log2 ≤ x.mantissa.log2 + 1 := by
  have hle := log2_le_log2 (roundedMantissa_le x)
  have hadd := log2_add_le x.mantissa 1
  have hone : Nat.log2 1 = 0 := rfl
  omega

theorem log2_shiftToTargetExponent_le (m : Nat) (e : Int) (a : Accuracy) :
    (shiftToTargetExponent .binary64 m e a).1.mantissa.log2 +
      (shiftToTargetExponent .binary64 m e a).2 ≤ max (m.log2 + e) (-1074) := by
  unfold shiftToTargetExponent shiftToExponent
  simp only [mantissa_shiftRight, mantissa_ofMantissaAndAccuracy, log2_div_two_pow, totalExponent,
    Format.targetExponent, Format.mantissaBits, Format.minExponent]
  omega

theorem below_roundWithAccuracy {m : Nat} {e : Int} (h : m.log2 + e < n) (hn : -1074 < n)
    (s : Sign) (a : Accuracy) : Below (n + 1) (roundWithAccuracy .binary64 s m e a) := by
  unfold roundWithAccuracy
  have hfirst := log2_shiftToTargetExponent_le m e a
  have hround := log2_roundedMantissa_le (shiftToTargetExponent .binary64 m e a).1
  have hsecond := log2_shiftToTargetExponent_le
    (shiftToTargetExponent .binary64 m e a).1.roundedMantissa
    (shiftToTargetExponent .binary64 m e a).2 .exact
  dsimp only
  split
  · trivial
  · simp only [Below]
    omega

theorem below_round {m : Nat} {e : Int} (hm : m ≠ 0) (h : m.log2 + e < n) (hn : -1074 < n)
    (s : Sign) : Below (n + 1) (UnpackedFloat.round .binary64 s m e) := by
  unfold UnpackedFloat.round decreaseExponent
  apply below_roundWithAccuracy _ hn
  rw [log2_shiftLeft hm]
  omega

theorem below_normalize {i e : Int} (h : i.natAbs.log2 + e < n) (hn : -1074 < n) (s : Sign) :
    Below (n + 1) (UnpackedFloat.normalize .binary64 i e s) := by
  unfold UnpackedFloat.normalize
  obtain hi | hi | hi := Int.lt_trichotomy i 0
  · rw [Int.compare_eq_lt.mpr hi]
    apply below_round _ _ hn
    · omega
    · rwa [show (-i).toNat = i.natAbs by omega]
  · rw [Int.compare_eq_eq.mpr hi]
    trivial
  · rw [Int.compare_eq_gt.mpr hi]
    apply below_round _ _ hn
    · omega
    · rwa [show i.toNat = i.natAbs by omega]

theorem below_ofUInt64 (i : UInt64) : Below 65 (UnpackedFloat.ofUInt64 .binary64 i) := by
  unfold UnpackedFloat.ofUInt64 UnpackedFloat.ofNat UnpackedFloat.ofInt
  apply below_normalize (n := 64) _ (by decide)
  have hlog := log2_le_log2 (Nat.le_of_lt_succ i.toNat_lt)
  have htop : Nat.log2 18446744073709551615 = 63 := by decide
  simp only [Int.natAbs_natCast]
  omega

theorem natAbs_apply (s : Sign) (i : Int) : (s.apply i).natAbs = i.natAbs := by
  cases s with
  | positive => rfl
  | negative => exact Int.natAbs_neg i

theorem below_add (hu : Below n u) (hv : Below n v) (hn : -1074 < n) :
    Below (n + 2) (UnpackedFloat.add .binary64 u v) := by
  rcases u with t | _ | t | ⟨t, m, e, hm⟩ <;> rcases v with r | _ | r | ⟨r, i, d, hi⟩
  all_goals first | exact hu.elim | exact hv.elim | skip
  case zero.zero =>
    unfold UnpackedFloat.add
    dsimp only
    split <;> trivial
  case zero.finite => exact hv.mono (by omega)
  case finite.zero => exact hu.mono (by omega)
  case finite.finite =>
    unfold UnpackedFloat.add decreaseExponent
    simp only [Below] at hu hv
    apply (below_normalize (n := n + 1) _ (by omega) _).mono (by omega)
    have hsum := log2_le_log2 (Int.natAbs_add_le (t.apply (m <<< (e - min e d).toNat : Nat))
      (r.apply (i <<< (d - min e d).toNat : Nat)))
    have hmax := log2_add_le (m <<< (e - min e d).toNat) (i <<< (d - min e d).toNat)
    simp only [natAbs_apply, Int.natAbs_natCast] at hsum
    rw [log2_shiftLeft hm.ne', log2_shiftLeft hi.ne'] at hmax
    omega

theorem below_div {m : Nat} {e : Int} (hu : Below n u) (hn : -1074 < n - e) (t : Sign)
    (hm : 0 < m) : Below (n - e + 1) (UnpackedFloat.div .binary64 u (.finite t m e hm)) := by
  cases u with
  | notANumber => exact hu
  | infinity r => exact hu.elim
  | zero r => trivial
  | finite r i d hi =>
    unfold UnpackedFloat.div divCore
    apply below_roundWithAccuracy _ hn
    have hlog := log2_le_log2 (Nat.div_le_self (i <<< (d - e - min (d - e)
      (Format.binary64.targetExponent (totalExponent i d - totalExponent m e))).toNat) m)
    rw [log2_shiftLeft hi.ne'] at hlog
    simp only [Below] at hu
    omega

theorem log2_lt_of_lt {m i : Nat} (h : m < 2 ^ i) (hi : 0 < i) : m.log2 < i := by
  by_cases hm : m = 0
  · simpa [hm] using hi
  · exact (Nat.log2_lt hm).mpr h

theorem below_unpack_packComponents {x : BitVec 11} (hx : x ≠ -1#11) (hn : x.toNat ≤ n + 1022)
    (hlow : -1022 ≤ n) (s : Sign) (y : BitVec 52) :
    Below n (UnpackedFloat.unpack .binary64 (packComponents .binary64 s x y)) := by
  unfold UnpackedFloat.unpack
  simp only [unpackExponent_packComponents, unpackMantissa_packComponents]
  rw [if_neg hx]
  have hy := log2_lt_of_lt y.isLt (by decide)
  split_ifs with hzero hempty
  · trivial
  · simp only [Below, hzero, Format.exponentBias, BitVec.toNat_zero]
    omega
  · have hm := log2_lt_of_lt (1#1 ++ y).isLt (by decide)
    simp only [Below, Format.exponentBias]
    omega

theorem below_unpack_pack (h : Below n u) (hlow : -1022 ≤ n) (hhigh : n ≤ 972) :
    Below n (Float.Model.pack u).unpack := by
  change Below n (UnpackedFloat.unpack .binary64 (UnpackedFloat.pack .binary64 u))
  have hzero : ((0#11).toNat : Int) ≤ n + 1022 := by
    simp only [BitVec.toNat_zero]
    omega
  cases u with
  | notANumber => exact h
  | infinity t => exact h.elim
  | zero t => exact below_unpack_packComponents (by decide) hzero hlow t 0
  | finite t m e hm =>
    simp only [Below] at h
    unfold UnpackedFloat.pack
    dsimp only
    generalize hb : (e + Format.binary64.exponentBias +
      Format.binary64.mantissaBitsWithoutImplicit).toNat = b
    have hbiased : b = (e + 1075).toNat := by
      rw [← hb]
      change (e + (1023 : Nat) + (52 : Nat)).toNat = _
      omega
    have hexponent : (BitVec.ofNat 11 b).toNat = b := by
      rw [BitVec.toNat_ofNat]
      omega
    split_ifs with hlarge hbits
    · change 2 ^ 11 ≤ b + 1 at hlarge
      omega
    · change m.log2 + 1 = 53 at hbits
      apply below_unpack_packComponents _ _ hlow
      · intro hx
        have hmax := congrArg BitVec.toNat hx
        rw [hexponent, show (-1#11).toNat = 2047 from rfl] at hmax
        omega
      · rw [hexponent]
        omega
    · exact below_unpack_packComponents (by decide) hzero hlow t _

theorem below_toFloat (i : UInt64) : Below 65 i.toFloat.toModel.unpack :=
  below_unpack_pack (below_ofUInt64 i) (by decide) (by decide)

theorem below_float_add (hf : Below n f.toModel.unpack) (hg : Below n g.toModel.unpack)
    (hlow : -1024 ≤ n) (hhigh : n ≤ 970) : Below (n + 2) (f + g).toModel.unpack :=
  below_unpack_pack (below_add hf hg (by omega)) (by omega) (by omega)

end CertLifecycle.Double
