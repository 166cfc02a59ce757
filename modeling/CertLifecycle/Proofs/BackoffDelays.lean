import CertLifecycle.Proofs.PacedRuns
import CertLifecycle.Proofs.SpansInDoubles

namespace CertLifecycle

open Double

theorem Duration.nanos_min (a b : Duration) : (min a b).nanos = min a.nanos b.nanos := by
  change (if a.nanos ≤ b.nanos then a else b).nanos = _
  split_ifs with h <;> simp [h, Nat.le_of_not_le]

namespace RetryConfig

variable {config : RetryConfig} {d : Duration}

theorem nextDelay_of_some {n : Duration}
    (h : Duration.ofSeconds? (d.toSeconds * config.multiplier) = some n) :
    (config.nextDelay d).nanos = min n.nanos config.maxDelay.nanos := by
  rw [nextDelay, h]
  exact Duration.nanos_min _ _

theorem nextDelay_of_none (h : Duration.ofSeconds? (d.toSeconds * config.multiplier) = none) :
    config.nextDelay d = config.maxDelay := by
  rw [nextDelay, h]

theorem firstDelay_eq (config : RetryConfig) :
    config.firstDelay = ⟨min config.initialDelay.nanos config.maxDelay.nanos⟩ :=
  congrArg Duration.mk (Duration.nanos_min _ _)

theorem nextDelay_le (config : RetryConfig) (d : Duration) :
    (config.nextDelay d).nanos ≤ config.maxDelay.nanos := by
  cases h : Duration.ofSeconds? (d.toSeconds * config.multiplier) with
  | none => rw [nextDelay_of_none h]
  | some n =>
    rw [nextDelay_of_some h]
    exact Nat.min_le_right _ _

theorem le_maxDelay_of_mem_iterate {a : Duration} {n : Nat}
    (ha : a.nanos ≤ config.maxDelay.nanos) (hd : d ∈ List.iterate config.nextDelay a n) :
    d.nanos ≤ config.maxDelay.nanos := by
  induction n generalizing a with
  | zero => cases hd
  | succ n ih =>
    obtain rfl | hd := List.mem_cons.mp hd
    · exact ha
    · exact ih (nextDelay_le config a) hd

/-- How a delay grows: by a product in doubles, which may be too large, below zero or no number. -/
structure Growth (config : RetryConfig) (d : Duration) : Prop where
  -- The seconds of the delay are a number in any case.
  seconds : ∃ x, value? d.toSeconds = some x ∧ 0 ≤ x
  capped : (config.nextDelay d).nanos ≤ config.maxDelay.nanos
  -- A product that is the length of a span gives the nearest one below the cap,
  spanned : ∀ {x}, value? (d.toSeconds * config.multiplier) = some x → Duration.Spanned x →
    ∃ n : Duration, n.Nearest x ∧ (config.nextDelay d).nanos = min n.nanos config.maxDelay.nanos
  -- and any other product the cap.
  unspanned :
    (∀ x, value? (d.toSeconds * config.multiplier) = some x → ¬ Duration.Spanned x) →
      config.nextDelay d = config.maxDelay
  -- No number, or an infinity, as the factor
  unnumbered : value? config.multiplier = none → config.nextDelay d = config.maxDelay
  -- A factor of zero, of either sign
  stopped : value? config.multiplier = some 0 → (config.nextDelay d).nanos = 0
  -- A factor below zero, whose product may still be rounded to zero
  negative : ∀ {y}, value? config.multiplier = some y → y < 0 →
    config.nextDelay d = config.maxDelay ∨ (config.nextDelay d).nanos = 0

theorem nextDelay_of_unspanned
    (h : ∀ x, value? (d.toSeconds * config.multiplier) = some x → ¬ Duration.Spanned x) :
    config.nextDelay d = config.maxDelay :=
  nextDelay_of_none (Duration.ofSeconds?_of_unspanned h)

theorem nextDelay_of_zero (h : value? (d.toSeconds * config.multiplier) = some 0) :
    (config.nextDelay d).nanos = 0 := by
  obtain ⟨n, hnear, hn⟩ := Duration.ofSeconds?_of_spanned h Duration.spanned_zero
  rw [nextDelay_of_some hn, hnear.nanos_eq_zero, Nat.zero_min]

theorem growth (config : RetryConfig) (d : Duration) : config.Growth d where
  seconds := d.exists_value?_toSeconds
  capped := nextDelay_le config d
  spanned hx hspan := by
    obtain ⟨n, hnear, hn⟩ := Duration.ofSeconds?_of_spanned hx hspan
    exact ⟨n, hnear, nextDelay_of_some hn⟩
  unspanned := nextDelay_of_unspanned
  unnumbered h := by
    apply nextDelay_of_unspanned
    intro x hx
    rw [value?_mul_of_none _ h] at hx
    cases hx
  stopped h := by
    obtain ⟨x, hx, -⟩ := d.exists_value?_toSeconds
    exact nextDelay_of_zero (value?_mul_of_zero hx h)
  negative {y} hy hneg := by
    by_cases hzero : value? (d.toSeconds * config.multiplier) = some 0
    · exact .inr (nextDelay_of_zero hzero)
    · refine .inl (nextDelay_of_unspanned fun x hx hspan => hzero ?_)
      have hle := value?_mul_of_neg d.signed_toSeconds hy hneg hx
      rw [hx, le_antisymm hle hspan.1]

end RetryConfig

namespace Retry

variable {κ : Type} {k : CaMethod}

structure BacksOff [Authority κ] (config : RetryConfig) (r : CaRequest k) (w : World κ) :
    Prop where
  noted : pacedRun config r w =
    (((plainRun config r w).1, pauses config r w), (plainRun config r w).2)
  -- From the initial delay below the cap, each delay leads to the next.
  delays : (pauses config r w).map Pause.delay = List.iterate config.nextDelay
    ⟨min config.initialDelay.nanos config.maxDelay.nanos⟩ (pauses config r w).length
  retries : (pauses config r w).length ≤ config.maxRetries.toNat
  -- There is one for each retryable answer that a retry follows.
  counted : ∀ {n}, (plainRun config r w).2.canceled = false →
    (∀ m < n, ¬ Final (answerAt r w m)) → n ≤ config.maxRetries.toNat →
    Final (answerAt r w n) ∨ n = config.maxRetries.toNat → (pauses config r w).length = n
  capped : ∀ p ∈ pauses config r w, p.delay.nanos ≤ config.maxDelay.nanos
  -- No delay outgrows the word that counts its seconds,
  counts : ∀ p ∈ pauses config r w, p.delay.nanos / Duration.second < UInt64.size
  -- and no product in doubles fails to give the next one.
  grows : ∀ d, config.Growth d
  timed : ∀ p ∈ pauses config r w, p.Timed

theorem backsOff [Authority κ] {config : RetryConfig}
    (hmax : config.maxDelay.nanos ≤ Duration.longest.nanos) (r : CaRequest k) (w : World κ) :
    BacksOff config r w := by
  obtain ⟨hfollows, hnoted⟩ := follows_pauses config r w
  have hdelays := hfollows.delays
  change _ = List.iterate _ config.firstDelay _ at hdelays
  rw [RetryConfig.firstDelay_eq] at hdelays
  have hcapped : ∀ p ∈ pauses config r w, p.delay.nanos ≤ config.maxDelay.nanos := by
    intro p hp
    have hmem := List.mem_map_of_mem (f := Pause.delay) hp
    rw [hdelays] at hmem
    exact RetryConfig.le_maxDelay_of_mem_iterate (Nat.min_le_right _ _) hmem
  refine ⟨hnoted, hdelays, hfollows.length_le, length_pauses, hcapped, fun p hp => ?_,
    config.growth, hfollows.timed⟩
  have hfits := Nat.le_trans (hcapped p hp) hmax
  rw [Duration.longest_nanos] at hfits
  rw [Nat.div_lt_iff_lt_mul (by decide)]
  rw [Duration.second_eq] at *
  exact Nat.lt_of_le_of_lt hfits (by decide)

def reversing : RetryConfig where
  maxRetries := 2
  initialDelay := .ofSeconds 3
  maxDelay := .longest
  multiplier := -1.0

theorem tidy_backs_off :
    let w : World Script := { authority := busyTwice, readings := fun _ => 0 }
    reversing.maxDelay.nanos ≤ Duration.longest.nanos ∧ BacksOff reversing .tidy w ∧
      (pauses reversing .tidy w).map Pause.delay = [.ofSeconds 3, .longest] := by
  intro w
  have hmax : reversing.maxDelay.nanos ≤ Duration.longest.nanos := Nat.le_refl _
  have hbacks : BacksOff reversing .tidy w := backsOff hmax .tidy w
  have hbusy : ∀ m < 2, ¬ Final (answerAt .tidy w m) := by
    intro m hm
    match m, hm with
    | 0, _ => exact Bool.false_ne_true
    | 1, _ => exact Bool.false_ne_true
  have hlength := hbacks.counted (by decide +kernel) hbusy (by decide) (.inl trivial)
  refine ⟨hmax, hbacks, ?_⟩
  rw [hbacks.delays, hlength]
  decide +kernel

end Retry

end CertLifecycle
