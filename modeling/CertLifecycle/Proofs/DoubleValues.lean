import CertLifecycle.Number.Shortest
import CertLifecycle.Proofs.DoubleMagnitudes

namespace CertLifecycle.Double

open Float.Model Float.Model.UnpackedFloat Number

variable {f g : Float} {u v : UnpackedFloat} {x y : ℚ}

def valueOf : UnpackedFloat → Option ℚ
  | .notANumber | .infinity _ => none
  | .zero _ => some 0
  | .finite s m e _ => some (s.apply m * 2 ^ e)

def value? (f : Float) : Option ℚ := valueOf f.toModel.unpack

inductive Held (bits : Nat) : UnpackedFloat → Prop
  | notANumber (h : bits % signBit ≠ 0) : Held bits .notANumber
  | infinity (s : Sign) (h : bits % signBit ≠ 0) : Held bits (.infinity s)
  | zero (s : Sign) (h : bits % signBit = 0) : Held bits (.zero s)
  | finite (s : Sign) (m : Nat) (e : Int) (hm : 0 < m) (h : bits % signBit ≠ 0)
    (hs : signBit ≤ bits ↔ s = .negative) (hb : Binary.ofBits bits = ⟨m, e⟩)
    (hsmall : m < 2 ^ 53) : Held bits (.finite s m e hm)

theorem toNat_unpackMantissa (b : BitVec 64) :
    (@unpackMantissa .binary64 b).toNat = b.toNat % leadingBit := by
  rw [unpackMantissa_def, BitVec.extractLsb'_toNat]
  rfl

theorem toNat_unpackExponent (b : BitVec 64) :
    (@unpackExponent .binary64 b).toNat = b.toNat / leadingBit % 2048 := by
  rw [unpackExponent_def, BitVec.extractLsb'_toNat, Nat.shiftRight_eq_div_pow]
  rfl

theorem unpackSign_eq_zero_iff (b : BitVec 64) :
    @unpackSign .binary64 b = 0#1 ↔ b.toNat < signBit := by
  rw [unpackSign_def, ← BitVec.toNat_inj, BitVec.extractLsb'_toNat, Nat.shiftRight_eq_div_pow]
  have hb := b.isLt
  change b.toNat / 9223372036854775808 % 2 = 0 ↔ b.toNat < 9223372036854775808
  omega

theorem ofBitVec_unpackSign_eq_negative_iff (b : BitVec 64) :
    Sign.ofBitVec (@unpackSign .binary64 b) = .negative ↔ signBit ≤ b.toNat := by
  unfold Sign.ofBitVec
  have hsign := unpackSign_eq_zero_iff b
  split_ifs with hz
  · simpa using hsign.mp hz
  · simpa using mt hsign.mpr hz

theorem mod_signBit (bits : Nat) :
    bits % signBit = bits / leadingBit % 2048 * leadingBit + bits % leadingBit := by
  rw [show signBit = leadingBit * 2048 from rfl, Nat.mod_mul, Nat.mul_comm leadingBit]
  omega

theorem held_unpack (b : BitVec 64) : Held b.toNat (UnpackedFloat.unpack .binary64 b) := by
  have hmantissa := toNat_unpackMantissa b
  have hexponent := toNat_unpackExponent b
  have hsign := ofBitVec_unpackSign_eq_negative_iff b
  have hbits := mod_signBit b.toNat
  rw [← hmantissa, ← hexponent] at hbits
  have hleading : leadingBit = 4503599627370496 := rfl
  have hlt : (@unpackMantissa .binary64 b).toNat < 4503599627370496 :=
    (@unpackMantissa .binary64 b).isLt
  unfold UnpackedFloat.unpack
  dsimp only
  split_ifs with hmax hempty hmin hempty
  · apply Held.infinity
    rw [hmax, show (-1#11).toNat = 2047 from rfl] at hbits
    omega
  · apply Held.notANumber
    rw [hmax, show (-1#11).toNat = 2047 from rfl] at hbits
    omega
  · apply Held.zero
    rw [hbits, hmin, hempty, BitVec.toNat_zero, BitVec.toNat_zero, Nat.zero_mul]
  · have hne := mt BitVec.toNat_inj.mp hempty
    rw [BitVec.toNat_zero] at hne
    apply Held.finite
    · omega
    · exact hsign.symm
    · rw [Binary.ofBits, ← hexponent, ← hmantissa, hmin, BitVec.toNat_zero, if_pos rfl]
      rfl
    · omega
  · have hne := mt BitVec.toNat_inj.mp hmin
    rw [BitVec.toNat_zero] at hne
    have happend : (1#1 ++ @unpackMantissa .binary64 b).toNat =
        (@unpackMantissa .binary64 b).toNat + leadingBit := by
      rw [BitVec.toNat_append, ← Nat.shiftLeft_add_eq_or_of_lt hlt]
      simp [Nat.add_comm, leadingBit]
    simp only [happend]
    apply Held.finite
    · rw [hbits, hleading]
      omega
    · exact hsign.symm
    · rw [Binary.ofBits, ← hexponent, ← hmantissa, if_neg hne]
      rfl
    · omega

theorem held (f : Float) : Held f.toBits.toNat f.toModel.unpack :=
  held_unpack f.toModel.toBits.toBitVec

theorem valueOf_eq_some (h : valueOf u = some x) :
    (∃ s, u = .zero s ∧ x = 0) ∨
      ∃ s m e hm, u = .finite s m e hm ∧ x = (s.apply m : Int) * 2 ^ e := by
  cases u with
  | notANumber => cases h
  | infinity s => cases h
  | zero s => exact .inl ⟨s, rfl, (Option.some.inj h).symm⟩
  | finite s m e hm => exact .inr ⟨s, m, e, hm, rfl, (Option.some.inj h).symm⟩

theorem valueOf_eq_none (h : valueOf u = none) : u = .notANumber ∨ ∃ s, u = .infinity s := by
  cases u with
  | notANumber => exact .inl rfl
  | infinity s => exact .inr ⟨s, rfl⟩
  | zero s => cases h
  | finite s m e hm => cases h

theorem apply_positive (m : Nat) (e : Int) :
    ((Sign.positive.apply m : Int) : ℚ) * 2 ^ e = m * 2 ^ e := rfl

theorem apply_negative (m : Nat) (e : Int) :
    ((Sign.negative.apply m : Int) : ℚ) * 2 ^ e = -(m * 2 ^ e) := by
  simp [Sign.apply]

theorem nonneg_of_signed (h : Signed .positive u) (hx : valueOf u = some x) : 0 ≤ x := by
  obtain ⟨s, rfl, rfl⟩ | ⟨s, m, e, hm, rfl, rfl⟩ := valueOf_eq_some hx
  · exact le_refl 0
  · cases h
    rw [apply_positive]
    positivity

theorem nonpos_of_signed (h : Signed .negative u) (hx : valueOf u = some x) : x ≤ 0 := by
  obtain ⟨s, rfl, rfl⟩ | ⟨s, m, e, hm, rfl, rfl⟩ := valueOf_eq_some hx
  · exact le_refl 0
  · cases h
    rw [apply_negative, neg_nonpos]
    positivity

theorem signed_of_neg (hx : valueOf u = some x) (hneg : x < 0) : Signed .negative u := by
  obtain ⟨s, rfl, rfl⟩ | ⟨s, m, e, hm, rfl, rfl⟩ := valueOf_eq_some hx
  · exact absurd hneg (lt_irrefl 0)
  · cases s with
    | negative => rfl
    | positive =>
      refine absurd hneg (not_lt.mpr ?_)
      rw [apply_positive]
      positivity

theorem exists_zero_of_valueOf (h : valueOf u = some 0) : ∃ s, u = .zero s := by
  obtain ⟨s, rfl, -⟩ | ⟨s, m, e, hm, rfl, hzero⟩ := valueOf_eq_some h
  · exact ⟨s, rfl⟩
  · have hpos : (0 : ℚ) < m * 2 ^ e := by positivity
    cases s with
    | negative =>
      rw [apply_negative] at hzero
      linarith
    | positive =>
      rw [apply_positive] at hzero
      linarith

theorem valueOf_unpack_pack_of_none (h : valueOf u = none) :
    valueOf (Float.Model.pack u).unpack = none := by
  obtain rfl | ⟨s, rfl⟩ := valueOf_eq_none h
  · change valueOf (UnpackedFloat.unpack .binary64 (packedNaN .binary64)) = none
    rw [unpack_packedNaN]
    rfl
  · cases s <;> rfl

theorem valueOf_unpack_pack_zero (s : Sign) :
    valueOf (Float.Model.pack (.zero s)).unpack = some 0 := by
  cases s <;> rfl

theorem valueOf_mul_of_none {format : Format} (u : UnpackedFloat) (hv : valueOf v = none) :
    valueOf (UnpackedFloat.mul format u v) = none := by
  obtain rfl | ⟨s, rfl⟩ := valueOf_eq_none hv <;> cases u <;> rfl

theorem value?_mul_of_none (f : Float) (hg : value? g = none) : value? (f * g) = none :=
  valueOf_unpack_pack_of_none (valueOf_mul_of_none _ hg)

theorem value?_mul_of_zero (hf : value? f = some x) (hg : value? g = some 0) :
    value? (f * g) = some 0 := by
  change valueOf (Float.Model.pack (UnpackedFloat.mul .binary64 _ _)).unpack = some 0
  obtain ⟨s, hs⟩ := exists_zero_of_valueOf hg
  rw [hs]
  obtain ⟨t, ht, -⟩ | ⟨t, m, e, hm, ht, -⟩ := valueOf_eq_some hf
  · rw [ht]
    exact valueOf_unpack_pack_zero _
  · rw [ht]
    exact valueOf_unpack_pack_zero _

theorem value?_mul_of_neg (hf : Signed .positive f.toModel.unpack) (hg : value? g = some y)
    (hneg : y < 0) (hx : value? (f * g) = some x) : x ≤ 0 :=
  nonpos_of_signed (signed_float_mul hf (signed_of_neg hg hneg)) hx

theorem exists_valueOf_of_below {n : Int} (h : Below n u) : ∃ x, valueOf u = some x := by
  cases u with
  | notANumber => exact h.elim
  | infinity s => exact h.elim
  | zero s => exact ⟨_, rfl⟩
  | finite s m e hm => exact ⟨_, rfl⟩

end CertLifecycle.Double
