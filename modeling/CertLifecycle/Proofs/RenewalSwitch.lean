import CertLifecycle.Proofs.DoubleSigns
import CertLifecycle.Proofs.InstantRange
import CertLifecycle.Proofs.IssueDecision

namespace CertLifecycle

/-- Exact arithmetic of shares. What a division by zero gives is left open. -/
class ExactPercentage extends Percentage ℚ where
  ofInt_eq (n : Int) : ofInt n = (n : ℚ)
  mul_eq (a b : ℚ) : mul a b = a * b
  div_eq (a : ℚ) {b : ℚ} (h : b ≠ 0) : div a b = a / b
  le_iff (a b : ℚ) : le a b = true ↔ a ≤ b

instance : ExactPercentage where
  ofInt n := n
  mul := (· * ·)
  div := (· / ·)
  le a b := a ≤ b
  ofInt_eq _ := rfl
  mul_eq _ _ := rfl
  div_eq _ _ _ := rfl
  le_iff _ _ := decide_eq_true_iff

def InWord (n : Int) : Prop :=
  -2 ^ 63 ≤ n ∧ n < 2 ^ 63

instance (n : Int) : Decidable (InWord n) :=
  inferInstanceAs (Decidable (_ ∧ _))

theorem InWord.bmod_eq {n : Int} (h : InWord n) : n.bmod UInt64.size = n := by
  unfold InWord at h
  rw [Int.bmod_eq_of_le] <;> simp only [UInt64.size] <;> omega

theorem InWord.toInt_ofInt {n : Int} (h : InWord n) : (Int64.ofInt n).toInt = n := by
  rw [Int64.toInt_ofInt]
  exact h.bmod_eq

namespace Certificate

variable {c : Certificate} {now later : Int}

theorem inWord_window (c : Certificate) : InWord (c.notAfter - c.notBefore) := by
  obtain ⟨hbefore, hafter⟩ := X509.Certificate.fourDigit_of_read c.read_der
  unfold X509.Instant.FourDigit at hbefore hafter
  unfold InWord notAfter notBefore
  omega

theorem isExpiredAt_iff : c.isExpiredAt now = true ↔ c.notAfter < now :=
  decide_eq_true_iff

end Certificate

namespace Renewal

variable {c : Certificate} {now later : Int}

theorem percentageAt_eq {R : Type} [Percentage R] (threshold : R)
    (h : InWord (c.notAfter - now)) :
    percentageAt threshold c now =
      if c.notAfter ≤ c.notBefore then .emptyWindow
      else if Percentage.le (remainingPercent (c.notAfter - now) (c.notAfter - c.notBefore)) threshold
        then .renew
      else .keep := by
  unfold percentageAt wordSub
  rw [h.bmod_eq, c.inWord_window.bmod_eq]
  simp only [sub_nonpos]

def Due (threshold : ℚ) (c : Certificate) (now : Int) : Prop :=
  c.notAfter ≤ c.notBefore ∨
    100 * (c.notAfter - now : ℚ) ≤ threshold * (c.notAfter - c.notBefore)

theorem due_of_le {threshold : ℚ} (h : Due threshold c now) (hle : now ≤ later) :
    Due threshold c later := by
  have hcast : (now : ℚ) ≤ later := Int.cast_le.mpr hle
  exact h.imp_right fun h => by linarith

theorem due_of_wider {threshold wider : ℚ} (h : Due threshold c now) (hle : threshold ≤ wider) :
    Due wider c now := by
  by_cases hwindow : c.notAfter ≤ c.notBefore
  · exact .inl hwindow
  · have hcast : (c.notBefore : ℚ) < c.notAfter := Int.cast_lt.mpr (not_le.mp hwindow)
    have hmul := mul_le_mul_of_nonneg_right hle (sub_pos.mpr hcast).le
    exact h.imp_right fun h => h.trans hmul

theorem due_of_expired {threshold : ℚ} (hpos : 0 < threshold) (h : c.isExpiredAt now = true) :
    Due threshold c now := by
  by_cases hwindow : c.notAfter ≤ c.notBefore
  · exact .inl hwindow
  · have hcast : (c.notBefore : ℚ) < c.notAfter := Int.cast_lt.mpr (not_le.mp hwindow)
    have hexpired : (c.notAfter : ℚ) < now := Int.cast_lt.mpr (Certificate.isExpiredAt_iff.mp h)
    have hmul := mul_pos hpos (sub_pos.mpr hcast)
    exact .inr (by linarith)

section Exact

variable [ExactPercentage]

theorem remainingPercent_eq {remaining total : Int} (h : total ≠ 0) :
    remainingPercent remaining total = max 0 ((remaining : ℚ) * 100 / total) := by
  have htotal : (total : ℚ) ≠ 0 := Int.cast_ne_zero.mpr h
  unfold remainingPercent
  simp only [ExactPercentage.ofInt_eq, ExactPercentage.mul_eq, ExactPercentage.div_eq _ htotal,
    ExactPercentage.le_iff, Int.cast_zero, Int.cast_ofNat]
  exact (max_def (0 : ℚ) _).symm

theorem threshold_pos (rule : PercentageRenewal ℚ) : 0 < rule.threshold := by
  have hlow := (ExactPercentage.le_iff _ _).mp rule.inRange.1
  rw [ExactPercentage.ofInt_eq] at hlow
  refine lt_of_lt_of_le ?_ hlow
  norm_num [minThreshold]

theorem renews_iff_due (rule : PercentageRenewal ℚ) (h : InWord (c.notAfter - now)) :
    (percentageAt rule.threshold c now).renews = true ↔ Due rule.threshold c now := by
  unfold Due
  rw [percentageAt_eq _ h]
  by_cases hwindow : c.notAfter ≤ c.notBefore
  · simp [hwindow, Verdict.renews]
  · have htotal : 0 < c.notAfter - c.notBefore := by omega
    have hcast : (0 : ℚ) < (c.notAfter : ℚ) - c.notBefore := by exact_mod_cast htotal
    have hshare : (max 0 ((c.notAfter - now : Int) * 100 / (c.notAfter - c.notBefore : Int) : ℚ) ≤
        rule.threshold) ↔
        100 * (c.notAfter - now : ℚ) ≤ rule.threshold * (c.notAfter - c.notBefore) := by
      rw [max_le_iff, and_iff_right (threshold_pos rule).le]
      push_cast
      rw [div_le_iff₀ hcast, mul_comm (100 : ℚ)]
    rw [if_neg hwindow, or_iff_right hwindow, ← hshare, ← remainingPercent_eq htotal.ne',
      ← ExactPercentage.le_iff]
    split_ifs with hle <;> simp [hle, Verdict.renews]

end Exact

section Double

open Double Float.Model.UnpackedFloat

theorem unpack_ofInt {n : Int} (h : InWord n) :
    (Percentage.ofInt n : Float).toModel.unpack =
      (Float.Model.pack (Float.Model.UnpackedFloat.ofInt .binary64 n)).unpack := by
  change (Float.Model.pack (ofInt .binary64 (Int64.ofInt n).toInt)).unpack = _
  rw [h.toInt_ofInt]

theorem signed_share {remaining total : Int} (hr : InWord remaining) (ht : InWord total)
    (hneg : remaining < 0) (hpos : 0 < total) :
    Signed .negative (Percentage.div (Percentage.mul (Percentage.ofInt remaining) (Percentage.ofInt 100))
      (Percentage.ofInt total) : Float).toModel.unpack := by
  have hhundred : InWord 100 := by decide
  have hremaining : Signed .negative (Percentage.ofInt remaining : Float).toModel.unpack := by
    rw [unpack_ofInt hr]
    exact signed_unpack_pack (signed_ofInt_of_neg hneg)
  have hfactor : Signed .positive (Percentage.ofInt 100 : Float).toModel.unpack := by
    rw [unpack_ofInt hhundred]
    exact signed_unpack_pack (signed_ofInt_of_pos (by decide))
  have htotal : Signed .positive (Percentage.ofInt total : Float).toModel.unpack := by
    rw [unpack_ofInt ht]
    exact signed_unpack_pack (signed_ofInt_of_pos hpos)
  exact signed_float_div (signed_float_mul hremaining hfactor) htotal

theorem unpack_zero : (Percentage.ofInt 0 : Float).toModel.unpack = .zero .positive := by
  rfl

theorem unpack_minThreshold : (Percentage.ofInt minThreshold : Float).toModel.unpack =
    .finite .positive 5629499534213120 (-48) (by decide) := by
  rfl

theorem le_threshold_of_signed (rule : PercentageRenewal Float) {share : Float}
    (h : Signed .negative share.toModel.unpack) :
    (if Percentage.le (Percentage.ofInt 0) share then share else Percentage.ofInt 0) ≤
      rule.threshold := by
  have hlow : Percentage.ofInt minThreshold ≤ rule.threshold := of_decide_eq_true rule.inRange.1
  rw [le_iff, unpack_minThreshold] at hlow
  have hzero := zero_le_of_finite_le hlow
  rw [le_iff]
  split_ifs with hshare
  · have hle : (Percentage.ofInt 0 : Float) ≤ share := of_decide_eq_true hshare
    rw [le_iff, unpack_zero] at hle
    rw [eq_zero_of_le h hle]
    exact hzero .negative
  · rw [unpack_zero]
    exact hzero .positive

theorem renews_of_expired (rule : PercentageRenewal Float) (h : InWord (c.notAfter - now))
    (expired : c.isExpiredAt now = true) : (percentageAt rule.threshold c now).renews = true := by
  rw [percentageAt_eq _ h]
  have hnow := Certificate.isExpiredAt_iff.mp expired
  split_ifs with hwindow hle
  · rfl
  · rfl
  · have hshare := signed_share h c.inWord_window (by omega) (by omega)
    exact absurd (decide_eq_true (le_threshold_of_signed rule hshare)) hle

end Double

end Renewal

def World.lastLook {κ : Type} (w : World κ) : Int := w.readings (w.looks - 1)

theorem World.lastLook_logged {κ : Type} (e : LogEvent) (w : World κ) :
    (w.logged e).lastLook = w.lastLook := rfl

namespace Service

open World

variable {κ σ : Type} {s : Service} {c : Certificate} {w u : World κ}

theorem decideRenewal_eq_false (h : w.perform (s.decideRenewal c) = (.ok false, u)) :
    s.renewal.decideAt (some c) u.lastLook = .ok .keep := by
  obtain ⟨verdict, hverdict⟩ := decideAt_some s.renewal c w.clock
  obtain ⟨v, hv, hlook⟩ := perform_decideRenewal hverdict
  rw [h] at hv
  obtain ⟨hfalse, rfl⟩ := Prod.mk.inj hv
  have hclock : u.lastLook = w.clock := by
    rcases hlook with rfl | ⟨e, rfl⟩ <;> rfl
  rw [hclock, hverdict]
  cases verdict with
  | keep => rfl
  | renew => cases hfalse
  | emptyWindow => cases hfalse

theorem shouldIssue_eq_false [Authority κ] (h : w.perform (s.shouldIssue c) = (.ok false, u)) :
    s.renewal.decideAt (some c) u.lastLook = .ok .keep := by
  rw [perform_shouldIssue] at h
  split_ifs at h
  · exact decideRenewal_eq_false h
  · split at h
    · exact decideRenewal_eq_false h
    · cases h
    · cases h

end Service

open Renewal

/-- Renewal by a share of the lifetime as a switch in time. -/
structure OneWaySwitch [ExactPercentage] (rule : PercentageRenewal ℚ) (c : Certificate) : Prop where
  -- No difference of the certificate's dates wraps around.
  window : InWord (c.notAfter - c.notBefore)
  decides : ∀ {now}, InWord (c.notAfter - now) →
    ((percentageAt rule.threshold c now).renews = true ↔ Due rule.threshold c now)
  stays : ∀ {now later}, now ≤ later → InWord (c.notAfter - now) → InWord (c.notAfter - later) →
    (percentageAt rule.threshold c now).renews = true →
    (percentageAt rule.threshold c later).renews = true
  widens : ∀ (wider : PercentageRenewal ℚ) {now}, rule.threshold ≤ wider.threshold →
    InWord (c.notAfter - now) → (percentageAt rule.threshold c now).renews = true →
    (percentageAt wider.threshold c now).renews = true
  expired : ∀ {now}, InWord (c.notAfter - now) → c.isExpiredAt now = true →
    (percentageAt rule.threshold c now).renews = true

theorem oneWaySwitch [ExactPercentage] (rule : PercentageRenewal ℚ) (c : Certificate) :
    OneWaySwitch rule c where
  window := c.inWord_window
  decides h := renews_iff_due rule h
  stays hle h hlater hrenews := by
    rw [renews_iff_due rule h] at hrenews
    rw [renews_iff_due rule hlater]
    exact due_of_le hrenews hle
  widens wider _ hle h hrenews := by
    rw [renews_iff_due rule h] at hrenews
    rw [renews_iff_due wider h]
    exact due_of_wider hrenews hle
  expired h hexpired := by
    rw [renews_iff_due rule h]
    exact due_of_expired (threshold_pos rule) hexpired

section Issue

variable {κ σ : Type} [Authority κ] [Slot σ (Run κ)] [Described σ]

def KeepsCurrent (s : Service) (store : BundleStore σ) (args : IssueArgs) (w : World κ) : Prop :=
  ∀ r u, w.perform (s.issue store args) = (.ok r, u) → r.status = .noop →
    ∃ c, r.existing = some c ∧ (InWord (c.notAfter - u.lastLook) →
      ∀ now ≤ u.lastLook, c.isExpiredAt now = false)

theorem keepsCurrent (double : PercentageRenewal Float) (retry : RetryConfig)
    (store : BundleStore σ) (args : IssueArgs) (w : World κ) :
    KeepsCurrent { renewal := .percentage double, retry } store args w := by
  intro r u hrun noop
  obtain ⟨c, v, x, -, hdue, rfl, rfl⟩ := Service.shouldIssue_of_noop hrun noop
  refine ⟨c, rfl, fun hword now hle => ?_⟩
  rw [World.lastLook_logged] at hword hle
  have hkeep : percentageAt double.threshold c x.lastLook = .keep :=
    Except.ok.inj (Service.shouldIssue_eq_false hdue)
  rw [← Bool.not_eq_true, Certificate.isExpiredAt_iff]
  intro hnow
  have hexpired : c.isExpiredAt x.lastLook = true :=
    Certificate.isExpiredAt_iff.mpr (lt_of_lt_of_le hnow hle)
  have hrenews := renews_of_expired double hword hexpired
  rw [hkeep] at hrenews
  cases hrenews

theorem switches [ExactPercentage] (rule : PercentageRenewal ℚ) (double : PercentageRenewal Float)
    (c : Certificate) (retry : RetryConfig) (store : BundleStore σ) (args : IssueArgs)
    (w : World κ) :
    OneWaySwitch rule c ∧
      (∀ now, Renewal.decideAt (.percentage double) (some c) now =
        .ok (percentageAt double.threshold c now)) ∧
      KeepsCurrent { renewal := .percentage double, retry } store args w :=
  ⟨oneWaySwitch rule c, fun _ => rfl, keepsCurrent double retry store args w⟩

end Issue

end CertLifecycle
