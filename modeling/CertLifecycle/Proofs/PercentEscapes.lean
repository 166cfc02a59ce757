import CertLifecycle.Http.Url
import CertLifecycle.Proofs.TextEncodings

namespace CertLifecycle.Http

open Text

def percent : UInt8 := 37

def escapeBytes (b : UInt8) : Bytes :=
  (escapedByte b).map fun c => UInt8.ofNat c.toNat

def Opaque (b : UInt8) : Prop := b ≠ percent ∧ hexDigit? (Utf8.char b) = none

/-- The first text with some of its bytes escaped, but none that an escape is made of. -/
inductive Escapes : Bytes → Bytes → Prop
  | nil : Escapes [] []
  | plain (b : UInt8) {bs ws : Bytes} (h : Escapes bs ws) : Escapes (b :: bs) (b :: ws)
  | escape {b : UInt8} {bs ws : Bytes} (hb : Opaque b) (h : Escapes bs ws) :
    Escapes (b :: bs) (escapeBytes b ++ ws)

theorem escapeBytes_eq (b : UInt8) : escapeBytes b =
    [percent, UInt8.ofNat (upperHexDigit (b.toNat / 16)).toNat,
      UInt8.ofNat (upperHexDigit (b.toNat % 16)).toNat] := rfl

theorem char_upperHexDigit {n : Nat} (h : n < 16) :
    Utf8.char (UInt8.ofNat (upperHexDigit n).toNat) = upperHexDigit n := by
  have hall : ∀ n < 16, Utf8.char (UInt8.ofNat (upperHexDigit n).toNat) = upperHexDigit n := by
    decide +kernel
  exact hall n h

theorem hexByte?_upperHexDigit (b : UInt8) :
    hexByte? (upperHexDigit (b.toNat / 16)) (upperHexDigit (b.toNat % 16)) = some b := by
  have hall : ∀ n < 256,
      hexByte? (upperHexDigit (n / 16)) (upperHexDigit (n % 16)) = some (UInt8.ofNat n) := by
    decide +kernel
  rw [hall b.toNat b.toNat_lt, UInt8.ofNat_toNat]

theorem escape?_escapeBytes (b : UInt8) (ws : Bytes) :
    escape? (escapeBytes b ++ ws) = some (b, ws) := by
  have hb := b.toNat_lt
  have hhigh := char_upperHexDigit (n := b.toNat / 16) (by omega)
  have hlow := char_upperHexDigit (n := b.toNat % 16) (by omega)
  unfold Utf8.char at hhigh hlow
  rw [escapeBytes_eq]
  simp only [List.cons_append, List.nil_append, percent, escape?, hhigh, hlow,
    hexByte?_upperHexDigit, Option.map_some]

theorem escape?_of_ne {b : UInt8} (h : b ≠ percent) (bs : Bytes) : escape? (b :: bs) = none := by
  unfold escape?
  split
  next heq => exact absurd (List.cons.inj heq).1 h
  next => rfl

theorem escape?_cons (b c : UInt8) (bs : Bytes) :
    escape? (percent :: b :: c :: bs) = (hexByte? (Utf8.char b) (Utf8.char c)).map (·, bs) := rfl

theorem escape?_of_high {b : UInt8} (h : hexDigit? (Utf8.char b) = none) (bs : Bytes) :
    escape? (percent :: b :: bs) = none := by
  cases bs with
  | nil => rfl
  | cons c bs => rw [escape?_cons, hexByte?, h]; rfl

theorem escape?_of_low {b c : UInt8} (h : hexDigit? (Utf8.char c) = none) (bs : Bytes) :
    escape? (percent :: b :: c :: bs) = none := by
  rw [escape?_cons, hexByte?, h]
  cases hexDigit? (Utf8.char b) <;> rfl

theorem unescape_of_none {b : UInt8} {bs : Bytes} (h : escape? (b :: bs) = none) :
    unescape 0 (b :: bs) = b :: unescape 0 bs := by
  rw [unescape, h]

theorem unescape_of_some {b d : UInt8} {bs rest : Bytes} (h : escape? (b :: bs) = some (d, rest)) :
    unescape 0 (b :: bs) = d :: unescape 2 bs := by
  rw [unescape, h]

theorem unescape_escapeBytes (b : UInt8) (ws : Bytes) :
    unescape 0 (escapeBytes b ++ ws) = b :: unescape 0 ws := by
  have h := escape?_escapeBytes b ws
  rw [escapeBytes_eq] at h ⊢
  exact (unescape_of_some h).trans rfl

theorem hexDigit?_percent : hexDigit? (Utf8.char percent) = none := by decide

theorem unescape_eq_of_escapes {bs ws : Bytes} (h : Escapes bs ws) :
    unescape 0 ws = unescape 0 bs := by
  -- Reading an escape skips two bytes, so the induction is on the length.
  induction hn : bs.length using Nat.strongRecOn generalizing bs ws with
  | ind n ih =>
    subst hn
    cases h with
    | nil => rfl
    | @escape b bs ws hb h =>
      rw [unescape_escapeBytes, unescape_of_none (escape?_of_ne hb.1 bs)]
      exact congrArg (b :: ·) (ih _ (by simp) h rfl)
    | @plain b bs ws h =>
      have hrest : unescape 0 ws = unescape 0 bs := ih _ (by simp) h rfl
      have hsame (hw : escape? (b :: ws) = none) (hb : escape? (b :: bs) = none) :
          unescape 0 (b :: ws) = unescape 0 (b :: bs) := by
        rw [unescape_of_none hw, unescape_of_none hb, hrest]
      by_cases hb : b = percent
      · subst hb
        cases h with
        | nil => rfl
        | @escape c bs ws hc h =>
          refine hsame ?_ (escape?_of_high hc.2 bs)
          rw [escapeBytes_eq]
          exact escape?_of_high hexDigit?_percent _
        | @plain c bs ws h =>
          cases h with
          | nil => rfl
          | @escape d bs ws hd h =>
            refine hsame ?_ (escape?_of_low hd.2 bs)
            rw [escapeBytes_eq]
            exact escape?_of_low hexDigit?_percent _
          | @plain d bs ws h =>
            cases hbyte : hexByte? (Utf8.char c) (Utf8.char d) with
            | none =>
              apply hsame <;> rw [escape?_cons, hbyte] <;> rfl
            | some e =>
              have hw : escape? (percent :: c :: d :: ws) = some (e, ws) := by
                rw [escape?_cons, hbyte]
                rfl
              have hb : escape? (percent :: c :: d :: bs) = some (e, bs) := by
                rw [escape?_cons, hbyte]
                rfl
              rw [unescape_of_some hw, unescape_of_some hb]
              have htail : unescape 0 ws = unescape 0 bs :=
                ih _ (by simp only [List.length_cons]; omega) h rfl
              exact congrArg (e :: ·) htail
      · exact hsame (escape?_of_ne hb ws) (escape?_of_ne hb bs)

theorem length_unescape_le (k : Nat) (bs : Bytes) : (unescape k bs).length ≤ bs.length := by
  fun_induction unescape k bs with
  | case1 => simp
  | case2 k b bs ih => simp only [List.length_cons]; omega
  | case3 b bs d rest h ih => simp only [List.length_cons]; omega
  | case4 b bs h ih => simp only [List.length_cons]; omega

theorem opaque_of_inPath {c : Char} (h : inPath c = true) : ∀ b ∈ String.utf8EncodeChar c, Opaque b := by
  intro b hb
  have hdigits : ∀ n < 256, (Char.ofNat n = '%' ∨ hexDigit? (Char.ofNat n) ≠ none) →
      n < 128 ∧ inPath (Char.ofNat n) = false := by
    decide +kernel
  by_contra hclear
  have hmade : Utf8.char b = '%' ∨ hexDigit? (Utf8.char b) ≠ none := by
    by_cases hp : b = percent
    · exact .inl (by rw [hp]; decide)
    · exact .inr fun hnone => hclear ⟨hp, hnone⟩
  obtain ⟨hlt, hplain⟩ := hdigits b.toNat b.toNat_lt hmade
  have hmem : Utf8.char b ∈ (String.ofList [c]).toList := by
    apply Utf8.char_mem_of_mem_encode (UInt8.lt_iff_toNat_lt.mpr hlt)
    simpa [Utf8.encode] using hb
  have hc : Utf8.char b = c := by simpa using hmem
  rw [← hc] at h
  exact Bool.false_ne_true (hplain.symm.trans h)

theorem encode_flatMap_escapedByte (bs : Bytes) :
    (bs.flatMap escapedByte).flatMap String.utf8EncodeChar = bs.flatMap escapeBytes := by
  have hdigit : ∀ n < 16,
      String.utf8EncodeChar (upperHexDigit n) = [UInt8.ofNat (upperHexDigit n).toNat] := by
    decide +kernel
  induction bs with
  | nil => rfl
  | cons b bs ih =>
    have hb := b.toNat_lt
    rw [List.flatMap_cons, List.flatMap_append, ih, List.flatMap_cons, escapeBytes_eq, escapedByte]
    simp only [List.flatMap_cons, List.flatMap_nil, List.append_nil,
      hdigit (b.toNat / 16) (by omega), hdigit (b.toNat % 16) (by omega)]
    rfl

theorem Escapes.append {bs cs ws xs : Bytes} (h : Escapes bs ws) (g : Escapes cs xs) :
    Escapes (bs ++ cs) (ws ++ xs) := by
  induction h with
  | nil => exact g
  | plain b _ ih => exact .plain b ih
  | escape hb _ ih => rw [List.append_assoc]; exact .escape hb ih

theorem Escapes.self (bs : Bytes) : Escapes bs bs := by
  induction bs with
  | nil => exact .nil
  | cons b bs ih => exact .plain b ih

theorem Escapes.all {bs : Bytes} (h : ∀ b ∈ bs, Opaque b) : Escapes bs (bs.flatMap escapeBytes) := by
  induction bs with
  | nil => exact .nil
  | cons b bs ih =>
    rw [List.forall_mem_cons] at h
    exact .escape h.1 (ih h.2)

theorem escapes_percentEncode (cs : List Char) :
    Escapes (Utf8.encode (String.ofList cs)) (Utf8.encode (String.ofList (percentEncode inPath cs))) := by
  simp only [Utf8.encode, String.toList_ofList]
  induction cs with
  | nil => exact .nil
  | cons c cs ih =>
    rw [percentEncode, List.flatMap_cons, List.flatMap_cons, List.flatMap_append]
    refine Escapes.append ?_ ih
    split
    next h =>
      rw [encode_flatMap_escapedByte]
      exact .all (opaque_of_inPath h)
    next => simpa using Escapes.self _

theorem percentDecode_percentEncode (cs : List Char) :
    percentDecode (percentEncode inPath cs) = percentDecode cs :=
  unescape_eq_of_escapes (escapes_percentEncode cs)

theorem length_percentDecode_le (cs : List Char) :
    (percentDecode cs).length ≤ (Utf8.encode (String.ofList cs)).length :=
  length_unescape_le 0 _

end CertLifecycle.Http
