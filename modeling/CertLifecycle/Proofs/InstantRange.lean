import CertLifecycle.Certificate
import CertLifecycle.Proofs.BlockReading

namespace CertLifecycle

namespace Calendar.Date

theorem day_le {d : Date} (valid : d.IsValid) : d.day ≤ 31 := by
  have hmonth : daysInMonth d.year d.month ≤ 31 := by
    unfold daysInMonth
    grind
  exact Nat.le_trans valid.2.2.2 hmonth

def yearStart (y : Int) : Int :=
  365 * y + (y + 3) / 4 - (y + 99) / 100 + (y + 399) / 400 - 719528

theorem daysSinceEpoch_mem {d : Date} (valid : d.IsValid) :
    yearStart d.year ≤ d.daysSinceEpoch ∧ d.daysSinceEpoch < yearStart (d.year + 1) := by
  have hday := day_le valid
  obtain ⟨hmonth, hmonth', hday', -⟩ := valid
  unfold daysSinceEpoch yearStart
  dsimp only
  -- January and February are the last months of the year before, counted from March.
  split_ifs with h
  · have hm : (d.month + 9) % 12 = d.month + 9 := by omega
    rw [hm]
    omega
  · have hm : (d.month + 9) % 12 = d.month - 3 := by omega
    rw [hm]
    omega

end Calendar.Date

namespace X509

def Instant.FourDigit (t : Int) : Prop :=
  -62167219200 ≤ t ∧ t ≤ 253402300799

namespace Instant

open Calendar

theorem le_of_digits?_pair {a b : UInt8} {n : Nat} (h : digits? [a, b] = some n) : n ≤ 99 := by
  have ha := a.toNat_lt
  simp only [digits?, List.foldlM_cons, List.foldlM_nil, UInt8.le_iff_toNat_le] at h
  split_ifs at h <;> simp_all
  omega

theorem le_of_pairs? {k : Nat} {bs rest : Bytes} {ns : List Nat}
    (h : pairs? k bs = some (ns, rest)) : ∀ n ∈ ns, n ≤ 99 := by
  fun_induction pairs? k bs generalizing ns rest with
  | case1 => simp_all
  | case2 k a b bs ih =>
    obtain ⟨n, hn, h⟩ := Option.bind_eq_some_iff.mp h
    obtain ⟨⟨ms, rest'⟩, hms, h⟩ := Option.bind_eq_some_iff.mp h
    cases h
    exact List.forall_mem_cons.mpr ⟨le_of_digits?_pair hn, ih hms⟩
  | case3 => cases h

theorem seconds?_mem {d : Date} {hour minute second : Nat} {t : Int}
    (h : seconds? d hour minute second = some t) :
    Date.yearStart d.year * 86400 ≤ t ∧ t < Date.yearStart (d.year + 1) * 86400 := by
  unfold seconds? at h
  split_ifs at h with hv
  obtain ⟨valid, hhour, hminute, hsecond⟩ := hv
  obtain ⟨hfirst, hlast⟩ := Date.daysSinceEpoch_mem valid
  cases h
  omega

theorem offset?_mem {bs : Bytes} {s : Int} (h : offset? bs = some s) : -93540 ≤ s ∧ s ≤ 93540 := by
  unfold offset? at h
  split at h
  · cases h
    decide
  · obtain ⟨⟨ns, rest⟩, -, h⟩ := Option.bind_eq_some_iff.mp h
    dsimp only at h
    split at h
    next hours minutes _ =>
      split_ifs at h with hrange hplus hminus
      · cases h
      · cases h
      · cases h
      · obtain rfl := Option.some.inj h
        omega
      · obtain rfl := Option.some.inj h
        omega
    next => cases h
  · cases h

theorem fourDigit_of_ofUtc? {bs : Bytes} {t : Int} (h : ofUtc? bs = some t) : FourDigit t := by
  unfold ofUtc? at h
  obtain ⟨⟨ns, rest⟩, hns, h⟩ := Option.bind_eq_some_iff.mp h
  split at h
  next yy month day hour minute second rest' heq =>
    obtain ⟨offset, hoffset, h⟩ := Option.bind_eq_some_iff.mp h
    obtain ⟨s, hs, h⟩ := Option.bind_eq_some_iff.mp h
    have hyy : yy ≤ 99 := le_of_pairs? hns yy (by cases heq; simp)
    have hoff := offset?_mem hoffset
    have hmem := seconds?_mem hs
    cases h
    unfold FourDigit
    unfold Date.yearStart at hmem
    dsimp only at hmem
    split_ifs at hmem <;> omega
  next => cases h

theorem fourDigit_of_ofGeneralized? {bs : Bytes} {t : Int} (h : ofGeneralized? bs = some t) :
    FourDigit t := by
  unfold ofGeneralized? at h
  split_ifs at h with hlast
  · cases h
  obtain ⟨⟨ns, rest⟩, hns, h⟩ := Option.bind_eq_some_iff.mp h
  split at h
  next century yy month day hour minute rest' heq =>
    have hle := le_of_pairs? hns
    cases heq
    dsimp only at h
    split_ifs at h
    · cases h
    · have hcentury : century ≤ 99 := hle century (by simp)
      have hyy : yy ≤ 99 := hle yy (by simp)
      have hmem := seconds?_mem h
      unfold FourDigit
      unfold Date.yearStart at hmem
      dsimp only at hmem
      omega
  next => cases h

theorem fourDigit_of_read? {bs rest : Bytes} {t : Int} (h : read? bs = some (t, rest)) :
    FourDigit t := by
  obtain ⟨⟨e, rest'⟩, -, h⟩ := Option.bind_eq_some_iff.mp h
  dsimp only at h
  split_ifs at h
  · obtain ⟨t', ht, h⟩ := Option.bind_eq_some_iff.mp h
    cases h
    exact fourDigit_of_ofUtc? ht
  · obtain ⟨t', ht, h⟩ := Option.bind_eq_some_iff.mp h
    cases h
    exact fourDigit_of_ofGeneralized? ht
  · cases h

end Instant

theorem fourDigit_of_readValidity? {bs rest : Bytes} {v : Validity}
    (h : readValidity? bs = some (v, rest)) :
    Instant.FourDigit v.notBefore ∧ Instant.FourDigit v.notAfter := by
  obtain ⟨⟨e, rest'⟩, he, h⟩ := Option.bind_eq_some_iff.mp h
  obtain ⟨⟨notBefore, more⟩, hbefore, h⟩ := Option.bind_eq_some_iff.mp h
  obtain ⟨⟨notAfter, rest''⟩, hafter, h⟩ := Option.bind_eq_some_iff.mp h
  cases h
  exact ⟨Instant.fourDigit_of_read? hbefore, Instant.fourDigit_of_read? hafter⟩

theorem orElse_eq_ok {α : Type} {e : Error} {r : Option α} {a : α} :
    orElse e r = .ok a ↔ r = some a := by
  cases r <;> simp [orElse]

theorem fourDigit_of_readSignedPart {bs rest : Bytes} {p : SignedPart}
    (h : readSignedPart bs = .ok (p, rest)) :
    Instant.FourDigit p.validity.notBefore ∧ Instant.FourDigit p.validity.notAfter := by
  simp only [readSignedPart, except_bind_eq_ok, orElse_eq_ok] at h
  obtain ⟨_, -, _, -, _, -, _, -, _, -, ⟨v, _⟩, hvalidity, _, -, _, -, _, -, h⟩ := h
  cases h
  exact fourDigit_of_readValidity? hvalidity

theorem Certificate.fourDigit_of_read {bs : Bytes} {c : Certificate} (h : read bs = .ok c) :
    Instant.FourDigit c.signedPart.validity.notBefore ∧
      Instant.FourDigit c.signedPart.validity.notAfter := by
  simp only [read, except_bind_eq_ok, orElse_eq_ok] at h
  obtain ⟨_, -, ⟨p, _⟩, hpart, _, -, _, -, h⟩ := h
  cases h
  exact fourDigit_of_readSignedPart hpart

end X509

end CertLifecycle
