import CertLifecycle.Json.Tree
import Mathlib.Data.List.Forall2

namespace CertLifecycle.Json

def Ends (rest : List Char) : Prop :=
  ∀ c ∈ rest.head?, c = ',' ∨ c = ']' ∨ c = '}'

theorem ends_nil : Ends [] := nofun

theorem ends_cons {c : Char} (h : c = ',' ∨ c = ']' ∨ c = '}') (cs : List Char) :
    Ends (c :: cs) := by
  intro d hd
  obtain rfl : c = d := by simpa using hd
  exact h

section Numbers

variable {rest : List Char}

theorem isDigit_of_ends (h : Ends rest) : ∀ c ∈ rest.head?, c.isDigit = false := by
  intro c hc
  rcases h c hc with rfl | rfl | rfl <;> rfl

theorem fraction?_of_ends (h : Ends rest) : fraction? rest = some ([], rest) := by
  cases rest with
  | nil => rfl
  | cons c cs => rcases h c rfl with rfl | rfl | rfl <;> rfl

theorem exponent?_of_ends (h : Ends rest) : exponent? rest = some ([], rest) := by
  cases rest with
  | nil => rfl
  | cons c cs => rcases h c rfl with rfl | rfl | rfl <;> cases cs <;> rfl

theorem digits?_append {ds : List Char} (hne : ds ≠ []) (hds : ∀ c ∈ ds, c.isDigit = true)
    (h : ∀ c ∈ rest.head?, c.isDigit = false) : digits? (ds ++ rest) = some (ds, rest) := by
  have htake : (ds ++ rest).takeWhile Char.isDigit = ds := by
    rw [List.takeWhile_append_of_pos hds]
    cases rest with
    | nil => simp
    | cons c cs => simp [h c rfl]
  have hdrop : (ds ++ rest).dropWhile Char.isDigit = rest := by
    rw [List.dropWhile_append_of_pos hds]
    cases rest with
    | nil => rfl
    | cons c cs => simp [h c rfl]
  unfold digits?
  rw [htake, hdrop]
  cases ds with
  | nil => exact absurd rfl hne
  | cons d ds => rfl

theorem head?_toDigits (n : Nat) : ∃ d ds, Nat.toDigits 10 n = d :: ds ∧ (d = '0' → n = 0) := by
  induction n using Nat.strongRecOn with
  | ind n ih =>
    by_cases h : n < 10
    · have hdigit : ∀ m < 10, Nat.digitChar m = '0' → m = 0 := by decide
      exact ⟨n.digitChar, [], Nat.toDigits_of_lt_base h, hdigit n h⟩
    · obtain ⟨d, ds, hds, hzero⟩ := ih (n / 10) (by omega)
      refine ⟨d, ds ++ [(n % 10).digitChar], ?_, ?_⟩
      · rw [Nat.toDigits_of_base_le (by decide) (by omega), hds]
        rfl
      · intro hd
        have := hzero hd
        omega

theorem number?_toDigits (n : Nat) (h : Ends rest) :
    number? (Nat.toDigits 10 n ++ rest) = some (Nat.toDigits 10 n, rest) := by
  obtain ⟨d, ds, hds, hzero⟩ := head?_toDigits n
  have hdigits : ∀ c ∈ Nat.toDigits 10 n, c.isDigit = true :=
    fun c hc => Nat.isDigit_of_mem_toDigits (by decide) (by decide) hc
  have hwhole : whole? (Nat.toDigits 10 n ++ rest) = some (Nat.toDigits 10 n, rest) := by
    by_cases hd : d = '0'
    · obtain rfl := hzero hd
      have hrest : (rest.head?.map Char.isDigit).getD false = false := by
        cases hr : rest.head? with
        | none => rfl
        | some c => exact isDigit_of_ends h c hr
      simp [Nat.toDigits_zero, whole?, hrest]
    · rw [← digits?_append Nat.toDigits_ne_nil hdigits (isDigit_of_ends h), hds]
      unfold whole?
      split
      · next heq => exact absurd (List.cons.inj heq).1 hd
      · rfl
  have hunsigned : unsigned? (Nat.toDigits 10 n ++ rest) = some (Nat.toDigits 10 n, rest) := by
    simp [unsigned?, hwhole, fraction?_of_ends h, exponent?_of_ends h]
  rw [← hunsigned]
  unfold number?
  split
  · next cs heq =>
    have hminus : '-' ∈ Nat.toDigits 10 n := by
      rw [hds] at heq ⊢
      rw [(List.cons.inj heq).1]
      exact List.mem_cons_self
    exact absurd (hdigits _ hminus) (by decide)
  · rfl

end Numbers

section Strings

inductive Spells : Piece → Char → Prop
  | char (c : Char) : Spells (.char c) c
  | control {c : Char} (h : c < ' ') : Spells (.unit c.toNat) c

theorem unit?_hexPair {n : Nat} (h : n < 32) :
    unit? '0' '0' (Nat.digitChar (n / 16)) (Nat.digitChar (n % 16)) = some n := by
  have hall : ∀ m < 32,
      unit? '0' '0' (Nat.digitChar (m / 16)) (Nat.digitChar (m % 16)) = some m := by
    decide
  exact hall n h

theorem exists_pieces?_escape (c : Char) : ∃ p, Spells p c ∧
    ∀ cs, pieces? (escape c ++ cs) = (pieces? cs).map fun (ps, rest) => (p :: ps, rest) := by
  unfold escape
  split
  case h_8 hquote hslash _ _ _ _ _ =>
    split
    · next h =>
      have hunit := unit?_hexPair (n := c.toNat) h
      exact ⟨.unit c.toNat, .control h, fun cs => by simp [pieces?, hunit]⟩
    · next h =>
      have hplain : ¬(c < ' ' ∨ c = '\\') := by
        rintro (hc | hc)
        exacts [h hc, hslash hc]
      refine ⟨.char c, .char c, fun cs => ?_⟩
      rw [List.singleton_append, pieces?.eq_def]
      split
      case h_5 heq =>
        obtain ⟨rfl, rfl⟩ := List.cons.inj heq
        exact if_neg hplain
      all_goals simp_all
  all_goals exact ⟨.char _, .char _, fun cs => by simp [pieces?, shortEscape?]⟩

theorem exists_pieces?_flatMap (cs rest : List Char) : ∃ ps, List.Forall₂ Spells ps cs ∧
    pieces? (cs.flatMap escape ++ '"' :: rest) = some (ps, rest) := by
  induction cs with
  | nil => exact ⟨[], .nil, by simp [pieces?]⟩
  | cons c cs ih =>
    obtain ⟨ps, hps, hread⟩ := ih
    obtain ⟨p, hp, hescape⟩ := exists_pieces?_escape c
    refine ⟨p :: ps, .cons hp hps, ?_⟩
    rw [List.flatMap_cons, List.append_assoc, hescape, hread]
    rfl

theorem join?_unit {u : Nat} (hhigh : isHigh u = false) (hlow : isLow u = false)
    (ps : List Piece) : join? (.unit u :: ps) = (join? ps).map (Char.ofNat u :: ·) := by
  cases ps with
  | nil => simp [join?, hhigh, hlow]
  | cons p ps => cases p <;> simp [join?, hhigh, hlow]

theorem join?_of_spells {ps : List Piece} {cs : List Char} (h : List.Forall₂ Spells ps cs) :
    join? ps = some cs := by
  induction h with
  | nil => rfl
  | @cons p c ps cs hp _ ih =>
    cases hp with
    | char => simp [join?, ih]
    | control h =>
      have hlt : c.toNat < 32 := h
      have hhigh : isHigh c.toNat = false := by
        simp only [isHigh, Bool.and_eq_false_iff, decide_eq_false_iff_not]
        omega
      have hlow : isLow c.toNat = false := by
        simp only [isLow, Bool.and_eq_false_iff, decide_eq_false_iff_not]
        omega
      rw [join?_unit hhigh hlow, ih, Char.ofNat_toNat]
      rfl

theorem string?_quote (s : String) (rest : List Char) :
    string? (s.toList.flatMap escape ++ '"' :: rest) = some (some s, rest) := by
  obtain ⟨ps, hps, hread⟩ := exists_pieces?_flatMap s.toList rest
  unfold string?
  rw [hread]
  simp [join?_of_spells hps]

end Strings

/-- Complete and with natural numbers only, as this program writes its documents. -/
inductive Tree.Written : Tree → Prop
  | null : Written .null
  | boolean (b : Bool) : Written (.boolean b)
  | number (n : Nat) : Written (.number (toString n))
  | string (s : String) : Written (.string (some s))
  | array {ts : List Tree} (items : ∀ t ∈ ts, t.Written) : Written (.array ts true)
  | object {ms : List (String × Tree)} (members : ∀ m ∈ ms, m.2.Written) :
    Written (.object ms true)

def Begins (cs : List Char) : Prop :=
  ∃ c rest, cs = c :: rest ∧ isSpace c = false ∧ c ≠ ']'

theorem Begins.ne_nil {cs : List Char} (h : Begins cs) : cs ≠ [] := by
  obtain ⟨c, rest, rfl, -⟩ := h
  exact List.cons_ne_nil c rest

theorem Begins.append {cs : List Char} (h : Begins cs) (more : List Char) :
    Begins (cs ++ more) := by
  obtain ⟨c, rest, rfl, hc⟩ := h
  exact ⟨c, rest ++ more, rfl, hc⟩

theorem Begins.dropWhile {cs : List Char} (h : Begins cs) : cs.dropWhile isSpace = cs := by
  obtain ⟨c, rest, rfl, hspace, -⟩ := h
  simp [hspace]

structure ReadsBack (t : Tree) : Prop where
  begins : Begins t.chars
  value_eq : ∀ {fuel : Nat} {rest : List Char}, t.chars.length ≤ fuel → Ends rest →
    value fuel (t.chars ++ rest) = (t, rest)

namespace ReadsBack

variable {t : Tree} {n : Nat} {key : String}

theorem items_last (h : ReadsBack t) (hn : t.chars.length ≤ n) (rest : List Char) :
    items (n + 1) (t.chars ++ ']' :: rest) = ([t], true, rest) := by
  obtain ⟨c, cs, hcs, -⟩ := h.begins
  have hvalue := h.value_eq hn (ends_cons (.inr (.inl rfl)) rest)
  rw [hcs, List.cons_append] at hvalue ⊢
  simp [items, hvalue, isSpace]

theorem items_more (h : ReadsBack t) (hn : t.chars.length ≤ n) {more : List Char}
    (hmore : Begins more) : items (n + 1) (t.chars ++ ',' :: more) =
      (t :: (items n more).1, (items n more).2) := by
  obtain ⟨c, cs, hcs, -⟩ := h.begins
  obtain ⟨d, ds, rfl, hspace, hclose⟩ := hmore
  have hvalue := h.value_eq hn (ends_cons (.inl rfl) (d :: ds))
  have hcomma : isSpace ',' = false := rfl
  rw [hcs, List.cons_append] at hvalue ⊢
  simp [items, hvalue, hcomma, hspace, hclose]

theorem members_last (h : ReadsBack t) (hn : t.chars.length ≤ n) (rest : List Char) :
    members (n + 1) (quote key ++ ':' :: (t.chars ++ '}' :: rest)) =
      ([(key, t)], true, rest) := by
  have hvalue := h.value_eq hn (ends_cons (.inr (.inr rfl)) rest)
  simp [members, member, quote, isSpace, string?_quote, hvalue]

theorem members_more (h : ReadsBack t) (hn : t.chars.length ≤ n) (more : List Char) :
    members (n + 1) (quote key ++ ':' :: (t.chars ++ ',' :: more)) =
      ((key, t) :: (members n more).1, (members n more).2) := by
  have hvalue := h.value_eq hn (ends_cons (.inl rfl) more)
  simp [members, member, quote, isSpace, string?_quote, hvalue]

end ReadsBack

section Lists

variable {ts : List Tree} {ms : List (String × Tree)} {fuel : Nat}

theorem begins_itemChars (hne : ts ≠ []) (h : ∀ t ∈ ts, ReadsBack t) : Begins (itemChars ts) := by
  cases ts with
  | nil => exact absurd rfl hne
  | cons t ts =>
    have ht := (h t List.mem_cons_self).begins
    cases ts <;> exact ht.append _

theorem items_itemChars (hne : ts ≠ []) (h : ∀ t ∈ ts, ReadsBack t)
    (hfuel : (itemChars ts).length ≤ fuel) (rest : List Char) :
    items fuel (itemChars ts ++ rest) = (ts, true, rest) := by
  induction ts generalizing fuel with
  | nil => exact absurd rfl hne
  | cons t ts ih =>
    have ht := h t List.mem_cons_self
    have hts : ∀ u ∈ ts, ReadsBack u := fun u hu => h u (List.mem_cons_of_mem t hu)
    cases ts with
    | nil =>
      have hlength : t.chars.length + 1 ≤ fuel := by simpa [itemChars] using hfuel
      obtain ⟨n, rfl⟩ := Nat.exists_eq_add_of_le' (Nat.le_of_add_left_le hlength)
      rw [itemChars, List.append_assoc]
      exact ht.items_last (by omega) rest
    | cons u us =>
      have hne : u :: us ≠ [] := List.cons_ne_nil u us
      have hlength : t.chars.length + (itemChars (u :: us)).length + 1 ≤ fuel := by
        simpa [itemChars, Nat.add_assoc] using hfuel
      obtain ⟨n, rfl⟩ := Nat.exists_eq_add_of_le' (Nat.le_of_add_left_le hlength)
      have hitems : items n (itemChars (u :: us) ++ rest) = (u :: us, true, rest) :=
        ih hne hts (by omega)
      change items (n + 1) (t.chars ++ ',' :: itemChars (u :: us) ++ rest) = _
      rw [List.append_assoc, List.cons_append,
        ht.items_more (by omega) ((begins_itemChars hne hts).append rest), hitems]

theorem members_memberChars (hne : ms ≠ []) (h : ∀ m ∈ ms, ReadsBack m.2)
    (hfuel : (memberChars ms).length ≤ fuel) (rest : List Char) :
    members fuel (memberChars ms ++ rest) = (ms, true, rest) := by
  induction ms generalizing fuel with
  | nil => exact absurd rfl hne
  | cons m ms ih =>
    obtain ⟨key, t⟩ := m
    have ht : ReadsBack t := h (key, t) List.mem_cons_self
    cases ms with
    | nil =>
      have hlength : t.chars.length + 1 ≤ fuel := by
        simp only [memberChars, List.length_append, List.length_cons] at hfuel
        omega
      obtain ⟨n, rfl⟩ := Nat.exists_eq_add_of_le' (Nat.le_of_add_left_le hlength)
      rw [memberChars, List.append_assoc, List.cons_append, List.append_assoc]
      exact ht.members_last (by omega) rest
    | cons p ps =>
      have hlength : t.chars.length + (memberChars (p :: ps)).length + 1 ≤ fuel := by
        change (quote key ++ ':' :: (t.chars ++ ',' :: memberChars (p :: ps))).length ≤ fuel
          at hfuel
        simp only [List.length_append, List.length_cons] at hfuel ⊢
        omega
      obtain ⟨n, rfl⟩ := Nat.exists_eq_add_of_le' (Nat.le_of_add_left_le hlength)
      have hmembers : members n (memberChars (p :: ps) ++ rest) = (p :: ps, true, rest) :=
        ih (List.cons_ne_nil p ps) (fun q hq => h q (List.mem_cons_of_mem _ hq)) (by omega)
      change members (n + 1)
        (quote key ++ ':' :: (t.chars ++ ',' :: memberChars (p :: ps)) ++ rest) = _
      rw [List.append_assoc, List.cons_append, List.append_assoc, List.cons_append,
        ht.members_more (by omega), hmembers]

end Lists

section Values

variable {n : Nat} {rest : List Char}

theorem isSpace_of_isDigit {d : Char} (h : d.isDigit = true) : isSpace d = false := by
  rw [← Bool.not_eq_true]
  intro hd
  simp only [isSpace, Bool.or_eq_true, decide_eq_true_eq] at hd
  rcases hd with ((rfl | rfl) | rfl) | rfl <;> cases h

theorem value_of_isDigit {d : Char} (h : d.isDigit = true) (cs : List Char) :
    value (n + 1) (d :: cs) = Tree.ofNumber (d :: cs) := by
  rw [value.eq_def]
  dsimp only
  rw [List.dropWhile_cons_of_neg (by simp [isSpace_of_isDigit h])]
  split
  case h_7 => rfl
  all_goals
    next heq =>
      obtain ⟨rfl, -⟩ := List.cons.inj heq
      cases h

theorem value_array {ts : List Tree} (h : ∀ t ∈ ts, ReadsBack t)
    (hn : (itemChars ts).length ≤ n) (rest : List Char) :
    value (n + 1) ('[' :: (itemChars ts ++ rest)) = (.array ts true, rest) := by
  by_cases hne : ts = []
  · subst hne
    simp [value, isSpace, itemChars]
  · have hitems := items_itemChars hne h hn rest
    obtain ⟨c, cs, hcs, hspace, hclose⟩ := (begins_itemChars hne h).append rest
    have hopen : isSpace '[' = false := rfl
    rw [hcs] at hitems ⊢
    simp [value, hopen, hspace, hclose, hitems]

theorem value_object {ms : List (String × Tree)} (h : ∀ m ∈ ms, ReadsBack m.2)
    (hn : (memberChars ms).length ≤ n) (rest : List Char) :
    value (n + 1) ('{' :: (memberChars ms ++ rest)) = (.object ms true, rest) := by
  by_cases hne : ms = []
  · subst hne
    simp [value, isSpace, memberChars]
  · have hmembers := members_memberChars hne h hn rest
    obtain ⟨cs, hcs⟩ : ∃ cs, memberChars ms = '"' :: cs := by
      cases ms with
      | nil => exact absurd rfl hne
      | cons m ms => cases ms <;> exact ⟨_, rfl⟩
    rw [hcs, List.cons_append] at hmembers ⊢
    simp [value, isSpace, hmembers]

end Values

theorem begins_cons {c : Char} (hspace : isSpace c = false) (hclose : c ≠ ']') (cs : List Char) :
    Begins (c :: cs) :=
  ⟨c, cs, rfl, hspace, hclose⟩

theorem readsBack_of_value_succ {t : Tree} (begins : Begins t.chars)
    (h : ∀ {n : Nat} {rest : List Char}, t.chars.length ≤ n + 1 → Ends rest →
      value (n + 1) (t.chars ++ rest) = (t, rest)) : ReadsBack t where
  begins := begins
  value_eq {fuel rest} hfuel hrest := by
    cases fuel with
    | zero => exact absurd (List.length_eq_zero_iff.mp (Nat.le_zero.mp hfuel)) begins.ne_nil
    | succ n => exact h hfuel hrest

theorem Tree.Written.readsBack {t : Tree} (h : t.Written) : ReadsBack t := by
  induction h with
  | null =>
    refine readsBack_of_value_succ (begins_cons rfl (by decide) _) fun _ _ => ?_
    simp [Tree.chars, value, isSpace]
  | boolean b =>
    cases b <;>
    · refine readsBack_of_value_succ (begins_cons rfl (by decide) _) fun _ _ => ?_
      simp [Tree.chars, value, isSpace]
  | number n =>
    have hchars : (Tree.number (toString n)).chars = Nat.toDigits 10 n := by
      simp [Tree.chars]
    obtain ⟨d, ds, hds, -⟩ := head?_toDigits n
    have hd : d.isDigit = true :=
      Nat.isDigit_of_mem_toDigits (by decide) (by decide) (hds ▸ List.mem_cons_self)
    refine readsBack_of_value_succ ?_ fun {m rest} _ hrest => ?_
    · rw [hchars, hds]
      exact begins_cons (isSpace_of_isDigit hd) (by rintro rfl; cases hd) ds
    · have hnumber := number?_toDigits n hrest
      have htext : String.ofList (Nat.toDigits 10 n) = toString n :=
        Nat.toString_eq_ofList_toDigits.symm
      rw [hchars]
      rw [hds, List.cons_append] at hnumber ⊢
      rw [value_of_isDigit hd, Tree.ofNumber, hnumber, ← htext, ← hds]
  | string s =>
    refine readsBack_of_value_succ (begins_cons rfl (by decide) _) fun _ _ => ?_
    simp [Tree.chars, quote, value, isSpace, string?_quote]
  | @array ts items ih =>
    refine readsBack_of_value_succ (begins_cons rfl (by decide) _) fun {n rest} hfuel _ => ?_
    exact value_array ih (Nat.le_of_succ_le_succ hfuel) rest
  | @object ms members ih =>
    refine readsBack_of_value_succ (begins_cons rfl (by decide) _) fun {n rest} hfuel _ => ?_
    exact value_object ih (Nat.le_of_succ_le_succ hfuel) rest

theorem read_text {t : Tree} (h : t.Written) : Tree.read t.text = (t, []) := by
  have hfuel : t.chars.length ≤ 2 * t.chars.length + 2 := by omega
  have hvalue := h.readsBack.value_eq hfuel ends_nil
  rw [List.append_nil] at hvalue
  simpa [Tree.read, Tree.text] using hvalue

end CertLifecycle.Json
