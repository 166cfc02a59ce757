import CertLifecycle.Proofs.BlockReading
import Mathlib.Data.List.Flatten

namespace CertLifecycle

namespace Base64

def IsSymbol (b : UInt8) : Prop :=
  b = pad ∨ (value? b).isSome = true

instance (b : UInt8) : Decidable (IsSymbol b) :=
  inferInstanceAs (Decidable (_ ∨ _))

theorem value?_symbol {n : Nat} (h : n < 64) : value? (symbol n) = some n := by
  have hall : ∀ n < 64, value? (symbol n) = some n := by decide
  exact hall n h

theorem symbol_ne_pad {n : Nat} (h : n < 64) : symbol n ≠ pad := by
  intro he
  have hvalue := value?_symbol h
  rw [he] at hvalue
  cases hvalue

theorem isSymbol_symbol {n : Nat} (h : n < 64) : IsSymbol (symbol n) := by
  right
  rw [value?_symbol h]
  rfl

theorem readSymbol_symbol {n : Nat} (h : n < 64) (offset : Nat) :
    readSymbol offset (symbol n) = .ok n := by
  unfold readSymbol
  rw [value?_symbol h]

section Group

variable (a b c : UInt8)

theorem sextets_lt : a.toNat / 4 < 64 ∧ a.toNat % 4 * 16 + b.toNat / 16 < 64 ∧
    b.toNat % 16 * 4 + c.toNat / 64 < 64 ∧ c.toNat % 64 < 64 := by
  have ha := a.toNat_lt
  have hb := b.toNat_lt
  have hc := c.toNat_lt
  omega

theorem ofNat_first : UInt8.ofNat (a.toNat / 4 * 4 + (a.toNat % 4 * 16 + b.toNat / 16) / 16) = a := by
  have ha := a.toNat_lt
  have hb := b.toNat_lt
  apply UInt8.toNat_inj.mp
  rw [UInt8.toNat_ofNat']
  omega

theorem ofNat_second : UInt8.ofNat ((a.toNat % 4 * 16 + b.toNat / 16) % 16 * 16 +
    (b.toNat % 16 * 4 + c.toNat / 64) / 4) = b := by
  have hb := b.toNat_lt
  have hc := c.toNat_lt
  apply UInt8.toNat_inj.mp
  rw [UInt8.toNat_ofNat']
  omega

theorem ofNat_third :
    UInt8.ofNat ((b.toNat % 16 * 4 + c.toNat / 64) % 4 * 64 + c.toNat % 64) = c := by
  have hc := c.toNat_lt
  apply UInt8.toNat_inj.mp
  rw [UInt8.toNat_ofNat']
  omega

theorem pack_one : pack [a.toNat / 4, a.toNat % 4 * 16] = [a] := by
  have h := ofNat_first a 0
  simpa [pack] using h

theorem pack_two : pack [a.toNat / 4, a.toNat % 4 * 16 + b.toNat / 16, b.toNat % 16 * 4] =
    [a, b] := by
  have h := ofNat_second a b 0
  simp only [pack, ofNat_first]
  simpa using h

theorem pack_three : pack [a.toNat / 4, a.toNat % 4 * 16 + b.toNat / 16,
    b.toNat % 16 * 4 + c.toNat / 64, c.toNat % 64] = [a, b, c] := by
  simp only [pack, ofNat_first, ofNat_second, ofNat_third]

end Group

theorem isSymbol_encode (bs : Bytes) : ∀ b ∈ encode bs, IsSymbol b := by
  have hpad : IsSymbol pad := .inl rfl
  fun_induction encode bs with
  | case1 => simp
  | case2 a =>
    obtain ⟨h1, -, -, -⟩ := sextets_lt a 0 0
    have h2 : a.toNat % 4 * 16 < 64 := by omega
    simp [hpad, isSymbol_symbol h1, isSymbol_symbol h2]
  | case3 a b =>
    obtain ⟨h1, h2, -, -⟩ := sextets_lt a b 0
    have h3 : b.toNat % 16 * 4 < 64 := by omega
    simp [hpad, isSymbol_symbol h1, isSymbol_symbol h2, isSymbol_symbol h3]
  | case4 a b c rest ih =>
    obtain ⟨h1, h2, h3, h4⟩ := sextets_lt a b c
    simp only [List.forall_mem_cons]
    exact ⟨isSymbol_symbol h1, isSymbol_symbol h2, isSymbol_symbol h3, isSymbol_symbol h4, ih⟩

theorem length_encode (bs : Bytes) : (encode bs).length % 4 = 0 := by
  fun_induction encode bs with
  | case1 => rfl
  | case2 a => simp
  | case3 a b => simp
  | case4 a b c rest ih =>
    simp only [List.length_cons]
    omega

section Tail

variable {a b c d : Nat} (ha : a < 64) (hb : b < 64) (hc : c < 64) (offset : Nat)

theorem readTail_symbol {n : Nat} (h : n < 64) (k : Nat) {t : Tail} (hpad : t.padding = 0)
    (bs : Bytes) :
    readTail offset k t (symbol n :: bs) = readTail offset (k + 1)
      { t with sextets := t.sextets ++ [n], lastSymbol := symbol n } bs := by
  rw [readTail, if_neg (symbol_ne_pad h), if_neg (by omega), value?_symbol h]

include ha hb

theorem decodeTail_two (spare : b % 16 = 0) :
    decodeTail offset [symbol a, symbol b, pad, pad] = .ok (pack [a, b]) := by
  unfold decodeTail
  rw [readTail_symbol offset ha 0 rfl, readTail_symbol offset hb 1 rfl]
  simp [readTail, bind, Except.bind, pure, Except.pure, spareBits, spare]

include hc

theorem decodeTail_three (spare : c % 4 = 0) :
    decodeTail offset [symbol a, symbol b, symbol c, pad] = .ok (pack [a, b, c]) := by
  unfold decodeTail
  rw [readTail_symbol offset ha 0 rfl, readTail_symbol offset hb 1 rfl,
    readTail_symbol offset hc 2 rfl]
  simp [readTail, bind, Except.bind, pure, Except.pure, spareBits, spare]

theorem decodeTail_four (hd : d < 64) :
    decodeTail offset [symbol a, symbol b, symbol c, symbol d] = .ok (pack [a, b, c, d]) := by
  unfold decodeTail
  rw [readTail_symbol offset ha 0 rfl, readTail_symbol offset hb 1 rfl,
    readTail_symbol offset hc 2 rfl, readTail_symbol offset hd 3 rfl]
  simp [readTail, bind, Except.bind, pure, Except.pure, spareBits]

theorem decodeFrom_four (hd : d < 64) {more out : Bytes} (h : ∀ o, decodeFrom o more = .ok out) :
    decodeFrom offset (symbol a :: symbol b :: symbol c :: symbol d :: more) =
      .ok (pack [a, b, c, d] ++ out) := by
  cases more with
  | nil =>
    have hout : out = [] := (Except.ok.inj (h 0)).symm
    rw [hout, List.append_nil]
    exact decodeTail_four ha hb hc offset hd
  | cons e more =>
    rw [decodeFrom, readSymbol_symbol ha, readSymbol_symbol hb, readSymbol_symbol hc,
      readSymbol_symbol hd, h]
    rfl

end Tail

theorem decodeFrom_encode (offset : Nat) (bs : Bytes) : decodeFrom offset (encode bs) = .ok bs := by
  fun_induction encode bs generalizing offset with
  | case1 => rfl
  | case2 a =>
    obtain ⟨h1, -, -, -⟩ := sextets_lt a 0 0
    have h2 : a.toNat % 4 * 16 < 64 := by omega
    rw [← pack_one a]
    exact decodeTail_two h1 h2 offset (by simp)
  | case3 a b =>
    obtain ⟨h1, h2, -, -⟩ := sextets_lt a b 0
    have h3 : b.toNat % 16 * 4 < 64 := by omega
    rw [← pack_two a b]
    exact decodeTail_three h1 h2 h3 offset (by simp)
  | case4 a b c rest ih =>
    obtain ⟨h1, h2, h3, h4⟩ := sextets_lt a b c
    rw [decodeFrom_four h1 h2 h3 offset h4 ih, pack_three]
    rfl

theorem decode_encode (bs : Bytes) : decode (encode bs) = .ok bs := by
  have hstray : strayEnd? (encode bs) = none := by
    unfold strayEnd?
    rw [length_encode]
    rfl
  rw [decode, hstray]
  exact decodeFrom_encode 0 bs

theorem isSymbol_of_readSymbol {offset v : Nat} {b : UInt8} (h : readSymbol offset b = .ok v) :
    IsSymbol b := by
  unfold readSymbol at h
  split at h
  next hv => exact .inr (by rw [hv]; rfl)
  next => cases h

theorem isSymbol_of_readTail {offset k : Nat} {t t' : Tail} {bs : Bytes}
    (h : readTail offset k t bs = .ok t') : ∀ b ∈ bs, IsSymbol b := by
  induction bs generalizing k t with
  | nil => simp
  | cons b bs ih =>
    rw [List.forall_mem_cons]
    unfold readTail at h
    split at h
    next hpad =>
      split at h
      · cases h
      · exact ⟨.inl hpad, ih h⟩
    next =>
      split at h
      · cases h
      · split at h
        · cases h
        next hv => exact ⟨.inr (by rw [hv]; rfl), ih h⟩

theorem isSymbol_of_decodeFrom {offset : Nat} {bs out : Bytes}
    (h : decodeFrom offset bs = .ok out) : ∀ b ∈ bs, IsSymbol b := by
  fun_induction decodeFrom offset bs generalizing out with
  | case1 offset a b c d e rest ih =>
    obtain ⟨va, ha, h⟩ := except_bind_eq_ok.mp h
    obtain ⟨vb, hb, h⟩ := except_bind_eq_ok.mp h
    obtain ⟨vc, hc, h⟩ := except_bind_eq_ok.mp h
    obtain ⟨vd, hd, h⟩ := except_bind_eq_ok.mp h
    obtain ⟨more, hmore, -⟩ := except_bind_eq_ok.mp h
    rw [List.forall_mem_cons, List.forall_mem_cons, List.forall_mem_cons, List.forall_mem_cons]
    exact ⟨isSymbol_of_readSymbol ha, isSymbol_of_readSymbol hb, isSymbol_of_readSymbol hc,
      isSymbol_of_readSymbol hd, ih hmore⟩
  | case2 offset bs =>
    obtain ⟨t, ht, -⟩ := except_bind_eq_ok.mp h
    exact isSymbol_of_readTail ht

theorem isSymbol_of_decode {bs out : Bytes} (h : decode bs = .ok out) : ∀ b ∈ bs, IsSymbol b := by
  unfold decode at h
  split at h
  · cases h
  · exact isSymbol_of_decodeFrom h

end Base64

namespace Utf8

theorem continuation?_two {n : Nat} (h : n < 32) (hlow : 2 ≤ n) :
    continuation? (UInt8.ofNat (n + 192)) = some (0, 0x80, 0xBF) ∧
      leadBits (UInt8.ofNat (n + 192)) 0 = n := by
  have hall : ∀ n < 32, 2 ≤ n → continuation? (UInt8.ofNat (n + 192)) = some (0, 0x80, 0xBF) ∧
      leadBits (UInt8.ofNat (n + 192)) 0 = n := by decide
  exact hall n h hlow

theorem continuation?_three {n : Nat} (h : n < 16) :
    continuation? (UInt8.ofNat (n + 224)) =
        some (1, if n = 0 then 0xA0 else 0x80, if n = 13 then 0x9F else 0xBF) ∧
      leadBits (UInt8.ofNat (n + 224)) 1 = n := by
  have hall : ∀ n < 16, continuation? (UInt8.ofNat (n + 224)) =
        some (1, if n = 0 then 0xA0 else 0x80, if n = 13 then 0x9F else 0xBF) ∧
      leadBits (UInt8.ofNat (n + 224)) 1 = n := by decide
  exact hall n h

theorem continuation?_four {n : Nat} (h : n < 5) :
    continuation? (UInt8.ofNat (n + 240)) =
        some (2, if n = 0 then 0x90 else 0x80, if n = 4 then 0x8F else 0xBF) ∧
      leadBits (UInt8.ofNat (n + 240)) 2 = n := by
  have hall : ∀ n < 5, continuation? (UInt8.ofNat (n + 240)) =
        some (2, if n = 0 then 0x90 else 0x80, if n = 4 then 0x8F else 0xBF) ∧
      leadBits (UInt8.ofNat (n + 240)) 2 = n := by decide
  exact hall n h

theorem continuation?_of_single {b : UInt8} (h : b < 0x80) : continuation? b = none := by
  unfold continuation?
  grind

theorem scan_single {b : UInt8} (h : b < 0x80) (i : Nat) (bs : Bytes) :
    scan none i (b :: bs) = (scan none (i + 1) bs).map (Char.ofNat b.toNat :: ·) := by
  rw [scan, if_pos h]

theorem scan_lead {b lo hi : UInt8} {n : Nat} (hc : continuation? b = some (n, lo, hi)) (i : Nat)
    (bs : Bytes) : scan none i (b :: bs) = scan (some ⟨i, 1, n, lo, hi, leadBits b n⟩) (i + 1) bs := by
  have hb : ¬ b < 0x80 := by
    intro hb
    rw [continuation?_of_single hb] at hc
    cases hc
  rw [scan, if_neg hb, hc]

section Continuation

variable {start seen : Nat} {lo hi b : UInt8} (h : lo ≤ b ∧ b ≤ hi) (bits i : Nat) (bs : Bytes)

include h

theorem scan_more (n : Nat) : scan (some ⟨start, seen, n + 1, lo, hi, bits⟩) i (b :: bs) =
    scan (some ⟨start, seen + 1, n, 0x80, 0xBF, bits * 64 + b.toNat % 64⟩) (i + 1) bs := by
  rw [scan, if_pos h]

theorem scan_last : scan (some ⟨start, seen, 0, lo, hi, bits⟩) i (b :: bs) =
    (scan none (i + 1) bs).map (Char.ofNat (bits * 64 + b.toNat % 64) :: ·) := by
  rw [scan, if_pos h]

end Continuation

theorem toNat_tail (n : Nat) : (UInt8.ofNat (n % 64 + 128)).toNat % 64 = n % 64 := by
  rw [UInt8.toNat_ofNat']
  omega

theorem tail_range (lo hi : UInt8) {n : Nat} (hlo : lo.toNat ≤ n % 64 + 128)
    (hhi : n % 64 + 128 ≤ hi.toNat) :
    lo ≤ UInt8.ofNat (n % 64 + 128) ∧ UInt8.ofNat (n % 64 + 128) ≤ hi := by
  rw [UInt8.le_iff_toNat_le, UInt8.le_iff_toNat_le, UInt8.toNat_ofNat']
  omega

theorem any_tail_range (n : Nat) :
    0x80 ≤ UInt8.ofNat (n % 64 + 128) ∧ UInt8.ofNat (n % 64 + 128) ≤ 0xBF := by
  have h : n % 64 < 64 := Nat.mod_lt n (by decide)
  exact tail_range 0x80 0xBF (by simp) (by simp; omega)

theorem scan_encodeChar (c : Char) (i : Nat) (bs : Bytes) :
    ∃ j, scan none i (String.utf8EncodeChar c ++ bs) = (scan none j bs).map (c :: ·) := by
  have hof {n : Nat} (h : n = c.val.toNat) : Char.ofNat n = c := by
    rw [h]
    exact Char.ofNat_toNat c
  have hvalid : c.val.toNat < 0xD800 ∨ 0xDFFF < c.val.toNat ∧ c.val.toNat < 0x110000 := c.valid
  unfold String.utf8EncodeChar
  generalize c.val.toNat = v at hof hvalid ⊢
  dsimp only
  split_ifs with h1 h2 h3 <;> simp only [List.cons_append, List.nil_append]
  · have hb : UInt8.ofNat v < 0x80 := by
      rw [UInt8.lt_iff_toNat_lt, UInt8.toNat_ofNat']
      exact Nat.lt_of_le_of_lt (Nat.mod_le v _) (Nat.lt_succ_of_le h1)
    refine ⟨i + 1, ?_⟩
    rw [scan_single hb, UInt8.toNat_ofNat', hof (by omega)]
  · obtain ⟨hlead, hbits⟩ := continuation?_two (n := v / 64 % 32) (by omega) (by omega)
    refine ⟨i + 1 + 1, ?_⟩
    rw [scan_lead hlead, scan_last (any_tail_range v), hbits, toNat_tail, hof (by omega)]
  · obtain ⟨hlead, hbits⟩ := continuation?_three (n := v / 4096 % 16) (by omega)
    refine ⟨i + 1 + 1 + 1, ?_⟩
    have hfirst := tail_range (if v / 4096 % 16 = 0 then 0xA0 else 0x80)
      (if v / 4096 % 16 = 13 then 0x9F else 0xBF) (n := v / 64)
      (by split_ifs <;> simp only [UInt8.reduceToNat] <;> omega)
      (by split_ifs <;> simp only [UInt8.reduceToNat] <;> omega)
    rw [scan_lead hlead, scan_more hfirst, scan_last (any_tail_range v), hbits, toNat_tail,
      toNat_tail, hof (by omega)]
  · obtain ⟨hlead, hbits⟩ := continuation?_four (n := v / 262144 % 8) (by omega)
    refine ⟨i + 1 + 1 + 1 + 1, ?_⟩
    have hfirst := tail_range (if v / 262144 % 8 = 0 then 0x90 else 0x80)
      (if v / 262144 % 8 = 4 then 0x8F else 0xBF) (n := v / 4096)
      (by split_ifs <;> simp only [UInt8.reduceToNat] <;> omega)
      (by split_ifs <;> simp only [UInt8.reduceToNat] <;> omega)
    rw [scan_lead hlead, scan_more hfirst, scan_more (any_tail_range _),
      scan_last (any_tail_range v), hbits, toNat_tail, toNat_tail, toNat_tail, hof (by omega)]

theorem decode_encode (s : String) : decode (encode s) = .ok s := by
  have hscan (cs : List Char) (i : Nat) :
      scan none i (cs.flatMap String.utf8EncodeChar) = .ok cs := by
    induction cs generalizing i with
    | nil => rfl
    | cons c cs ih =>
      obtain ⟨j, hj⟩ := scan_encodeChar c i (cs.flatMap String.utf8EncodeChar)
      rw [List.flatMap_cons, hj, ih]
      rfl
  rw [decode, encode, hscan]
  exact congrArg Except.ok (String.ofList_toList)

def char (b : UInt8) : Char := Char.ofNat b.toNat

theorem toNat_ofNat {n : Nat} (h : n.isValidChar) : (Char.ofNat n).toNat = n := by
  rw [Char.ofNat, dif_pos h]
  rfl

theorem toNat_char (b : UInt8) : (char b).toNat = b.toNat := by
  have hb := b.toNat_lt
  exact toNat_ofNat (.inl (by omega))

theorem char_inj {b c : UInt8} : char b = char c ↔ b = c := by
  refine ⟨fun h => ?_, congrArg char⟩
  have hcode := congrArg Char.toNat h
  rw [toNat_char, toNat_char] at hcode
  exact UInt8.toNat_inj.mp hcode

theorem encodeChar_char {b : UInt8} (h : b < 0x80) : String.utf8EncodeChar (char b) = [b] := by
  rw [UInt8.lt_iff_toNat_lt] at h
  have hv : (char b).val.toNat = b.toNat := toNat_char b
  unfold String.utf8EncodeChar
  rw [hv]
  exact (if_pos (Nat.le_of_lt_succ h)).trans (by rw [UInt8.ofNat_toNat])

theorem encode_map_char {bs : Bytes} (h : ∀ b ∈ bs, b < 0x80) :
    encode (String.ofList (bs.map char)) = bs := by
  rw [encode, String.toList_ofList]
  induction bs with
  | nil => rfl
  | cons b bs ih =>
    rw [List.forall_mem_cons] at h
    rw [List.map_cons, List.flatMap_cons, encodeChar_char h.1, ih h.2]
    rfl

theorem char_mem_of_mem_encode {b : UInt8} (hb : b < 0x80) {s : String} (h : b ∈ encode s) :
    char b ∈ s.toList := by
  obtain ⟨c, hc, hbc⟩ := List.mem_flatMap.mp h
  have hb' : b.toNat < 128 := UInt8.lt_iff_toNat_lt.mp hb
  have hlarge {n : Nat} (hn : 128 ≤ n ∧ n < 256) : b ≠ UInt8.ofNat n := by
    rintro rfl
    rw [UInt8.toNat_ofNat'] at hb'
    omega
  have hcode : b = UInt8.ofNat c.val.toNat ∧ c.val.toNat ≤ 127 := by
    unfold String.utf8EncodeChar at hbc
    generalize c.val.toNat = v at hbc ⊢
    dsimp only at hbc
    split_ifs at hbc with h1 h2 h3 <;> simp only [List.mem_cons, List.not_mem_nil, or_false] at hbc
    · exact ⟨hbc, h1⟩
    · obtain hb | hb := hbc <;> exact absurd hb (hlarge (by omega))
    · obtain hb | hb | hb := hbc <;> exact absurd hb (hlarge (by omega))
    · obtain hb | hb | hb | hb := hbc <;> exact absurd hb (hlarge (by omega))
  have hchar : char b = c := by
    obtain ⟨rfl, hle⟩ := hcode
    have hn : (UInt8.ofNat c.val.toNat).toNat = c.val.toNat := by
      rw [UInt8.toNat_ofNat']
      omega
    rw [char, hn]
    exact Char.ofNat_toNat c
  rwa [hchar]

theorem encode_injective {s t : String} (h : encode s = encode t) : s = t := by
  have hs := decode_encode s
  rw [h, decode_encode] at hs
  exact (Except.ok.inj hs).symm

theorem length_encode_le {cs ds : List Char} (h : cs.Sublist ds) :
    (encode (String.ofList cs)).length ≤ (encode (String.ofList ds)).length := by
  simp only [encode, String.toList_ofList]
  exact (h.flatMap String.utf8EncodeChar).length_le

theorem eq_of_length_encode_le {cs ds : List Char} (h : cs.Sublist ds)
    (hle : (encode (String.ofList ds)).length ≤ (encode (String.ofList cs)).length) :
    cs = ds := by
  induction h with
  | slnil => rfl
  | @cons cs ds c h ih =>
    have hshorter := length_encode_le h
    have hc := c.utf8Size_pos
    simp only [encode, String.toList_ofList, List.flatMap_cons, List.length_append,
      String.length_utf8EncodeChar] at hle hshorter
    omega
  | @cons_cons cs ds c h ih =>
    rw [ih]
    simpa [encode] using hle

end Utf8

end CertLifecycle
