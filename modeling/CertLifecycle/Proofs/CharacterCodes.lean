import CertLifecycle.Proofs.TextEncodings

/-!
A text that is read as UTF-8, character by character: a byte below 0x80 is a character of its own,
every other character is a word of bytes above.
-/

namespace CertLifecycle.Utf8

variable {bs more : Bytes} {cs : List Char}

def Wide (c : Char) : Prop :=
  ∀ b : UInt8, b < 0x80 → b ≠ 0 → c ≠ char b

theorem wide_ofNat {n : Nat} (h : 128 ≤ n) : Wide (Char.ofNat n) := by
  intro b hb hzero he
  have hcode : (Char.ofNat n).toNat = b.toNat := by rw [he, toNat_char]
  have hb' : b.toNat < 128 := UInt8.lt_iff_toNat_lt.mp hb
  by_cases hvalid : n.isValidChar
  · have hn := toNat_ofNat hvalid
    omega
  · have hn : (Char.ofNat n).toNat = 0 := by
      rw [Char.ofNat, dif_neg hvalid]
      rfl
    exact hzero (UInt8.toNat_inj.mp (by rw [← hcode, hn]; rfl))

structure Word (word : Bytes) (c : Char) : Prop where
  ne : word ≠ []
  high : ∀ b ∈ word, 0x80 ≤ b
  wide : Wide c
  scan : ∀ i bs, ∃ j, scan none i (word ++ bs) = (scan none j bs).map (c :: ·)

inductive Codes : Bytes → List Char → Prop
  | nil : Codes [] []
  | single {b : UInt8} (hb : b < 0x80) {bs : Bytes} {cs : List Char} (h : Codes bs cs) :
    Codes (b :: bs) (char b :: cs)
  | word {word : Bytes} {c : Char} (hw : Word word c) {bs : Bytes} {cs : List Char}
    (h : Codes bs cs) : Codes (word ++ bs) (c :: cs)

theorem Codes.eq_nil (h : Codes bs []) : bs = [] := by
  cases h
  rfl

theorem Codes.decode_eq (h : Codes bs cs) : decode bs = .ok (String.ofList cs) := by
  have hscan (i : Nat) : scan none i bs = .ok cs := by
    induction h generalizing i with
    | nil => rfl
    | single hb h ih =>
      rw [scan_single hb, ih]
      rfl
    | word hw h ih =>
      obtain ⟨j, hj⟩ := hw.scan i _
      rw [hj, ih]
      rfl
  rw [decode, hscan]
  rfl

/-- What is read so far makes a character of more than seven bits, whatever follows. -/
structure Large (more : Nat) (lo hi : UInt8) (bits : Nat) : Prop where
  high : 0x80 ≤ lo
  bounded : hi ≤ 0xBF
  bits : 2 ≤ bits ∨ 1 ≤ more ∧ (1 ≤ bits ∨ 0x90 ≤ lo)

theorem large_lead {b lo hi : UInt8} {n : Nat} (h : continuation? b = some (n, lo, hi)) :
    Large n lo hi (leadBits b n) := by
  simp only [continuation?, UInt8.le_iff_toNat_le, ← UInt8.toNat_inj, UInt8.reduceToNat] at h
  split_ifs at h <;> cases h <;> refine ⟨by decide, by decide, ?_⟩ <;> simp only [leadBits] <;>
    simp <;> omega

theorem large_next {more bits : Nat} {lo hi b : UInt8} (large : Large (more + 1) lo hi bits)
    (h : lo ≤ b ∧ b ≤ hi) : Large more 0x80 0xBF (bits * 64 + b.toNat % 64) := by
  refine ⟨by decide, by decide, .inl ?_⟩
  obtain hbits | ⟨-, hbits | hlo⟩ := large.bits
  · omega
  · omega
  · have hb := UInt8.le_iff_toNat_le.mp (UInt8.le_trans hlo h.1)
    have hb' := UInt8.le_iff_toNat_le.mp (UInt8.le_trans h.2 large.bounded)
    simp only [UInt8.reduceToNat] at hb hb'
    omega

theorem large_last {bits : Nat} {lo hi : UInt8} (large : Large 0 lo hi bits) (n : Nat) :
    128 ≤ bits * 64 + n := by
  obtain h | ⟨h, -⟩ := large.bits
  · omega
  · cases h

theorem scan_open {more : Nat} {lo hi : UInt8} {bits start seen i : Nat}
    (large : Large more lo hi bits)
    (h : scan (some ⟨start, seen, more, lo, hi, bits⟩) i bs = .ok cs) :
    ∃ word c rest cs' j, bs = word ++ rest ∧ (∀ b ∈ word, 0x80 ≤ b) ∧ Wide c ∧
      cs = c :: cs' ∧ scan none j rest = .ok cs' ∧
      ∀ start seen i rest, ∃ j, scan (some ⟨start, seen, more, lo, hi, bits⟩) i (word ++ rest) =
        (scan none j rest).map (c :: ·) := by
  induction more generalizing lo hi bits seen i bs with
  | zero =>
    cases bs with
    | nil => cases h
    | cons b rest =>
      by_cases hb : lo ≤ b ∧ b ≤ hi
      · rw [scan_last hb] at h
        cases hrest : scan none (i + 1) rest with
        | error e => rw [hrest] at h; cases h
        | ok cs' =>
          rw [hrest] at h
          cases h
          refine ⟨[b], _, rest, cs', i + 1, rfl, ?_, wide_ofNat (large_last large _), rfl, hrest, ?_⟩
          · simpa using UInt8.le_trans large.high hb.1
          · exact fun start seen i rest => ⟨i + 1, scan_last hb bits i rest⟩
      · rw [scan, if_neg hb] at h
        cases h
  | succ more ih =>
    cases bs with
    | nil => cases h
    | cons b rest =>
      by_cases hb : lo ≤ b ∧ b ≤ hi
      · rw [scan_more hb] at h
        obtain ⟨word, c, rest, cs', j, rfl, hword, hwide, rfl, hrest, hagain⟩ :=
          ih (large_next large hb) h
        refine ⟨b :: word, c, rest, cs', j, rfl, ?_, hwide, rfl, hrest, ?_⟩
        · exact List.forall_mem_cons.mpr ⟨UInt8.le_trans large.high hb.1, hword⟩
        · intro start seen i rest
          rw [List.cons_append, scan_more hb]
          exact hagain _ _ _ rest
      · rw [scan, if_neg hb] at h
        cases h

theorem codes_of_scan {i : Nat} (h : scan none i bs = .ok cs) : Codes bs cs := by
  -- On the length: a character that is open takes more than the next byte.
  induction hn : bs.length using Nat.strongRecOn generalizing bs cs i with
  | ind n ih =>
    cases bs with
    | nil =>
      cases h
      exact .nil
    | cons b rest =>
      by_cases hb : b < 0x80
      · rw [scan_single hb] at h
        cases hrest : scan none (i + 1) rest with
        | error e => rw [hrest] at h; cases h
        | ok cs' =>
          rw [hrest] at h
          cases h
          exact .single hb (ih rest.length (by simp [← hn]) hrest rfl)
      · cases hlead : continuation? b with
        | none =>
          rw [scan, if_neg hb, hlead] at h
          cases h
        | some q =>
          obtain ⟨more, lo, hi⟩ := q
          rw [scan_lead hlead] at h
          obtain ⟨word, c, rest, cs', j, rfl, hword, hwide, rfl, hrest, hagain⟩ :=
            scan_open (large_lead hlead) h
          have hw : Word (b :: word) c := by
            refine ⟨List.cons_ne_nil b word, ?_, hwide, fun i rest => ?_⟩
            · exact List.forall_mem_cons.mpr ⟨UInt8.not_lt.mp hb, hword⟩
            · rw [List.cons_append, scan_lead hlead]
              exact hagain _ _ _ rest
          refine .word hw (ih rest.length ?_ hrest rfl)
          simp only [← hn, List.length_cons, List.length_append]
          omega

theorem codes_of_decode {s : String} (h : decode bs = .ok s) : Codes bs s.toList := by
  cases hscan : scan none 0 bs with
  | error e =>
    rw [decode, hscan] at h
    cases h
  | ok cs =>
    rw [decode, hscan] at h
    cases h
    rw [String.toList_ofList]
    exact codes_of_scan hscan

theorem Codes.mem_iff (h : Codes bs cs) {b : UInt8} (hb : b < 0x80) (hzero : b ≠ 0) :
    char b ∈ cs ↔ b ∈ bs := by
  induction h with
  | nil => simp
  | single hc h ih => rw [List.mem_cons, List.mem_cons, ih, char_inj]
  | @word word c hw bs cs h ih =>
    have hnot : b ∉ word := fun hmem => absurd hb (UInt8.not_lt.mpr (hw.high b hmem))
    have hne : char b ≠ c := fun he => hw.wide b hb hzero he.symm
    rw [List.mem_cons, List.mem_append, ih, or_iff_right hne, or_iff_right hnot]

end CertLifecycle.Utf8
