import CertLifecycle.Proofs.DoubleValues
import CertLifecycle.Time.Duration

namespace CertLifecycle

namespace Duration

open Double Number Float.Model Float.Model.UnpackedFloat

variable {f : Float} {d : Duration} {x : ℚ}

structure Nearest (x : ℚ) (d : Duration) : Prop where
  close : |(d.nanos : ℚ) - x * second| ≤ 1 / 2
  even : |(d.nanos : ℚ) - x * second| = 1 / 2 → Even d.nanos

def nanosOf (m : Nat) (e : Int) : Nat :=
  roundHalfEven ((m <<< e.toNat) * second) (1 <<< (-e).toNat)

theorem ofSeconds?_eq (f : Float) :
    ofSeconds? f = match f.toModel.unpack with
      | .zero _ => some ⟨0⟩
      | .finite .positive m e _ =>
        if nanosOf m e ≤ longest.nanos then some ⟨nanosOf m e⟩ else none
      | _ => none := by
  have hheld := held f
  have hnan : f.isNaN = f.toModel.unpack.isNaN := rfl
  have hinf : f.isInf = f.toModel.unpack.isInf := rfl
  unfold ofSeconds?
  rw [hnan, hinf]
  generalize f.toModel.unpack = u at *
  dsimp only
  cases hheld with
  | notANumber h => rw [if_neg h, if_pos (.inr (.inl rfl))]
  | infinity s h => rw [if_neg h, if_pos (.inr (.inr rfl))]
  | zero s h => rw [if_pos h]
  | finite s m e hm h hs hb hsmall =>
    rw [if_neg h]
    cases s with
    | negative => rw [if_pos (.inl (hs.mpr rfl))]
    | positive =>
      rw [if_neg, hb]
      · rfl
      · rintro (hnegative | hnone | hnone)
        · cases hs.mp hnegative
        · cases hnone
        · cases hnone

structure HalfEven (num den n : Nat) : Prop where
  low : 2 * num ≤ 2 * (n * den) + den
  high : 2 * (n * den) ≤ 2 * num + den
  even : 2 * num = 2 * (n * den) + den ∨ 2 * (n * den) = 2 * num + den → Even n

theorem halfEven_roundHalfEven {num den : Nat} (hden : 0 < den) :
    HalfEven num den (roundHalfEven num den) := by
  have hmod := Nat.mod_lt num hden
  have hsplit := Nat.div_add_mod' num den
  have hnext : (num / den + 1) * den = num / den * den + den := Nat.succ_mul _ _
  unfold roundHalfEven
  dsimp only
  split_ifs with hdown
  · refine ⟨by omega, by omega, fun htie => ?_⟩
    rw [Nat.even_iff]
    omega
  · refine ⟨by omega, by omega, fun htie => ?_⟩
    rw [Nat.even_iff]
    omega

theorem zpow_eq_div (e : Int) : (2 : ℚ) ^ e = 2 ^ e.toNat / 2 ^ (-e).toNat := by
  obtain he | he := Int.le_total 0 e
  · have hzero : (-e).toNat = 0 := by omega
    rw [hzero, pow_zero, div_one, ← zpow_natCast, Int.toNat_of_nonneg he]
  · have hzero : e.toNat = 0 := by omega
    rw [hzero, pow_zero, one_div, ← zpow_natCast, Int.toNat_of_nonneg (by omega), zpow_neg,
      inv_inv]

theorem HalfEven.nearest {num den n : Nat} (h : HalfEven num den n) (hden : 0 < den)
    (hx : x * second = num / den) : Nearest x ⟨n⟩ := by
  have hpos : (0 : ℚ) < den := by exact_mod_cast hden
  have hlow : 2 * (num : ℚ) ≤ 2 * (n * den) + den := by exact_mod_cast h.low
  have hhigh : 2 * (n * den : ℚ) ≤ 2 * num + den := by exact_mod_cast h.high
  have hdiff : (n : ℚ) - x * second = (n * den - num) / den := by
    rw [hx]
    field_simp
  constructor
  · rw [hdiff, abs_le, le_div_iff₀ hpos, div_le_iff₀ hpos]
    constructor <;> linarith
  · rw [hdiff, abs_eq (by norm_num), div_eq_iff hpos.ne', div_eq_iff hpos.ne']
    intro htie
    apply h.even
    obtain htie | htie := htie
    · right
      have hcast : 2 * (n * den : ℚ) = 2 * num + den := by linarith
      exact_mod_cast hcast
    · left
      have hcast : 2 * (num : ℚ) = 2 * (n * den) + den := by linarith
      exact_mod_cast hcast

theorem nearest_nanosOf (m : Nat) (e : Int) : Nearest (m * 2 ^ e) ⟨nanosOf m e⟩ := by
  have hden : 0 < 1 <<< (-e).toNat := by simp [Nat.shiftLeft_eq]
  apply (halfEven_roundHalfEven hden).nearest hden
  rw [zpow_eq_div, Nat.shiftLeft_eq, Nat.shiftLeft_eq]
  push_cast
  ring

theorem roundHalfEven_le (num den : Nat) : roundHalfEven num den ≤ num + 1 := by
  have hdiv := Nat.div_le_self num den
  unfold roundHalfEven
  dsimp only
  split_ifs <;> omega

theorem longest_nanos : longest.nanos = 18446744073709551616 * second - 1 := rfl

theorem second_eq : second = 1000000000 := rfl

theorem nanosOf_le_longest_iff {m : Nat} (hm : m < 2 ^ 53) (e : Int) :
    nanosOf m e ≤ longest.nanos ↔ (m : ℚ) * 2 ^ e < 2 ^ 64 := by
  rw [longest_nanos, nanosOf]
  by_cases he : 0 ≤ e
  · -- A whole number of seconds is not rounded.
    have hzero : (-e).toNat = 0 := by omega
    have hround : HalfEven ((m <<< e.toNat) * second) 1 _ := halfEven_roundHalfEven Nat.one_pos
    have hvalue : (m : ℚ) * 2 ^ e = (m <<< e.toNat : Nat) := by
      rw [zpow_eq_div, hzero, Nat.shiftLeft_eq]
      push_cast
      ring
    have hlow := hround.low
    have hhigh := hround.high
    rw [hvalue, hzero, Nat.shiftLeft_zero]
    norm_cast
    rw [second_eq] at *
    omega
  · -- Otherwise there are less than `2 ^ 53` seconds.
    have hzero : e.toNat = 0 := by omega
    have hle := roundHalfEven_le ((m <<< e.toNat) * second) (1 <<< (-e).toNat)
    rw [hzero, Nat.shiftLeft_zero, second_eq] at *
    apply iff_of_true (by omega)
    have hcast : (m : ℚ) < 2 ^ 53 := by exact_mod_cast hm
    have hscale : (2 : ℚ) ^ e ≤ 1 := zpow_le_one_of_nonpos₀ (by norm_num) (by omega)
    have hmul := mul_le_mul_of_nonneg_left hscale (Nat.cast_nonneg m)
    rw [mul_one] at hmul
    exact lt_of_le_of_lt hmul (hcast.trans (by norm_num))

def Spanned (x : ℚ) : Prop := 0 ≤ x ∧ x < 2 ^ 64

theorem spanned_zero : Spanned 0 := by
  norm_num [Spanned]

theorem ofSeconds?_cases (f : Float) :
    (∃ x d, value? f = some x ∧ Spanned x ∧ Nearest x d ∧ ofSeconds? f = some d) ∨
      ((∀ x, value? f = some x → ¬ Spanned x) ∧ ofSeconds? f = none) := by
  have hheld := held f
  rw [ofSeconds?_eq, value?]
  generalize f.toModel.unpack = u at *
  cases hheld with
  | notANumber h => exact .inr ⟨nofun, rfl⟩
  | infinity s h => exact .inr ⟨nofun, rfl⟩
  | zero s h =>
    refine .inl ⟨0, ⟨0⟩, rfl, spanned_zero, ⟨?_, ?_⟩, rfl⟩
    · norm_num
    · norm_num
  | finite s m e hm h hs hb hsmall =>
    have hpos : (0 : ℚ) < m * 2 ^ e := by positivity
    cases s with
    | negative =>
      refine .inr ⟨fun x hx hspan => ?_, rfl⟩
      obtain rfl := Option.some.inj hx
      have hnonneg := hspan.1
      simp only [Sign.apply] at hnonneg
      push_cast at hnonneg
      linarith
    | positive =>
      by_cases hfits : nanosOf m e ≤ longest.nanos
      · refine .inl ⟨_, _, rfl, ?_, nearest_nanosOf m e, if_pos hfits⟩
        exact ⟨hpos.le, (nanosOf_le_longest_iff hsmall e).mp hfits⟩
      · refine .inr ⟨fun x hx hspan => ?_, if_neg hfits⟩
        obtain rfl := Option.some.inj hx
        exact hfits ((nanosOf_le_longest_iff hsmall e).mpr hspan.2)

theorem ofSeconds?_of_spanned (hx : value? f = some x) (hspan : Spanned x) :
    ∃ d, Nearest x d ∧ ofSeconds? f = some d := by
  obtain ⟨y, d, hy, -, hnear, hd⟩ | ⟨hnone, -⟩ := ofSeconds?_cases f
  · obtain rfl := Option.some.inj (hx.symm.trans hy)
    exact ⟨d, hnear, hd⟩
  · exact absurd hspan (hnone x hx)

theorem ofSeconds?_of_unspanned (h : ∀ x, value? f = some x → ¬ Spanned x) :
    ofSeconds? f = none := by
  obtain ⟨x, d, hx, hspan, -, -⟩ | ⟨-, hnone⟩ := ofSeconds?_cases f
  · exact absurd hspan (h x hx)
  · exact hnone

theorem Nearest.nanos_eq_zero (h : Nearest 0 d) : d.nanos = 0 := by
  have hclose := (abs_le.mp h.close).2
  rw [zero_mul, sub_zero] at hclose
  have hlt : (d.nanos : ℚ) < 1 := lt_of_le_of_lt hclose (by norm_num)
  have hcast : d.nanos < 1 := by exact_mod_cast hlt
  omega

theorem unpack_billion :
    (1e9 : Float).toModel.unpack = .finite .positive 8388608000000000 (-23) (by decide) := by
  rfl

theorem signed_toSeconds (d : Duration) : Signed .positive d.toSeconds.toModel.unpack := by
  have hsecond (i : UInt64) : Signed .positive i.toFloat.toModel.unpack :=
    signed_unpack_pack (signed_ofUInt64 i)
  apply signed_float_add (hsecond _)
  apply signed_float_div (t := .positive) (hsecond _)
  rw [unpack_billion]
  rfl

theorem below_toSeconds (d : Duration) : Below 91 d.toSeconds.toModel.unpack := by
  apply below_float_add (n := 89) _ _ (by decide) (by decide)
  · exact (below_toFloat _).mono (by decide)
  · apply below_unpack_pack _ (by decide) (by decide)
    rw [unpack_billion]
    exact below_div (below_toFloat _) (by decide) _ _

theorem exists_value?_toSeconds (d : Duration) : ∃ x, value? d.toSeconds = some x ∧ 0 ≤ x := by
  obtain ⟨x, hx⟩ := exists_valueOf_of_below (below_toSeconds d)
  exact ⟨x, hx, nonneg_of_signed (signed_toSeconds d) hx⟩

end Duration

end CertLifecycle
