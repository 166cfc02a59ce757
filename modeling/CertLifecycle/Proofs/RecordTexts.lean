import CertLifecycle.Bundle
import CertLifecycle.Proofs.JsonText
import Mathlib.Data.List.TakeWhile

namespace CertLifecycle

open Json Decoding

namespace Json

section Values

variable {α : Type} {decode : Tree → Except Error α} {f : α → Tree}

theorem le_ofDigitChars (n : Nat) (cs : List Char) : n ≤ Nat.ofDigitChars 10 cs n := by
  rw [Nat.ofDigitChars_eq_ofDigitChars_zero]
  have : n ≤ 10 ^ cs.length * n := Nat.le_mul_of_pos_left n (Nat.pow_pos (by decide))
  omega

theorem fitDigits_of_lt {n : Nat} {cs : List Char} (h : Nat.ofDigitChars 10 cs n < UInt64.size) :
    fitDigits n cs = (Nat.ofDigitChars 10 cs n, 0) := by
  induction cs generalizing n with
  | nil => rfl
  | cons c cs ih =>
    have hnext : 10 * n + (c.toNat - '0'.toNat) = n * 10 + digitValue c :=
      congrArg (· + _) (Nat.mul_comm 10 n)
    rw [Nat.ofDigitChars_cons, hnext] at h ⊢
    rw [fitDigits, if_pos (Nat.lt_of_le_of_lt (le_ofDigitChars _ cs) h), ih h]

theorem ofText?_toString {n : Nat} (h : n < UInt64.size) :
    Number.ofText? (toString n) = some (.integer n) := by
  have hdigits : ∀ c ∈ Nat.toDigits 10 n, c.isDigit = true :=
    fun c hc => Nat.isDigit_of_mem_toDigits (by decide) (by decide) hc
  have hplain : ∀ {d : Char}, d.isDigit = false → ∀ c ∈ Nat.toDigits 10 n, c ≠ d := by
    rintro d hd c hc rfl
    rw [hdigits c hc] at hd
    cases hd
  have hminus : (Nat.toDigits 10 n).head? ≠ some '-' :=
    fun hhead => hplain (d := '-') rfl '-' (List.mem_of_head? hhead) rfl
  have hbase : splitAtExponent (Nat.toDigits 10 n) = (Nat.toDigits 10 n, []) := by
    have hmark : ∀ c ∈ Nat.toDigits 10 n, (!(c = 'e' || c = 'E')) = true := by
      intro c hc
      simp [hplain (d := 'e') rfl c hc, hplain (d := 'E') rfl c hc]
    simp only [splitAtExponent, List.takeWhile_eq_self_iff.mpr hmark,
      List.dropWhile_eq_nil_iff.mpr hmark, List.tail_nil]
  have hwhole : (Nat.toDigits 10 n).takeWhile (· ≠ '.') = Nat.toDigits 10 n :=
    List.takeWhile_eq_self_iff.mpr fun c hc => by simpa using hplain (d := '.') rfl c hc
  have hfit : fitDigits 0 (Nat.toDigits 10 n) = (n, 0) := by
    rw [fitDigits_of_lt (by rwa [Nat.ofDigitChars_ten_toDigits]), Nat.ofDigitChars_ten_toDigits]
  unfold Number.ofText?
  simp only [Nat.toString_eq_ofList_toDigits, String.toList_ofList, hminus, decide_false, if_false,
    hbase, hwhole, hfit]
  rfl

theorem decodeByte_number (b : UInt8) : decodeByte (.number (toString b.toNat)) = .ok b := by
  have hlt : b.toNat < 256 := b.toNat_lt
  have hbound : (0 : Int) ≤ b.toNat ∧ (b.toNat : Int) < 256 := by omega
  simp only [decodeByte, ofText?_toString (Nat.lt_trans hlt (by decide)), if_pos hbound]
  simp

theorem decodeList_map (h : ∀ a, decode (f a) = .ok a) (as : List α) :
    decodeList decode (.array (as.map f) true) = .ok as := by
  have hitems : (as.map f).mapM decode = .ok as := by
    induction as with
    | nil => rfl
    | cons a as ih =>
      rw [List.map_cons, List.mapM_cons, h, ih]
      rfl
  rw [decodeList, hitems]
  rfl

theorem decodeBytes_ofBytes (bs : Bytes) : decodeBytes (.ofBytes bs) = .ok bs :=
  decodeList_map decodeByte_number bs

theorem decodeStrings_ofStrings (ss : List String) :
    decodeList decodeString (.ofStrings ss) = .ok ss :=
  decodeList_map (f := Tree.ofString) (fun _ => rfl) ss

theorem decodeOption_ofOption (hnull : ∀ a, f a ≠ .null) (h : ∀ a, decode (f a) = .ok a)
    (o : Option α) : decodeOption decode (.ofOption f o) = .ok o := by
  cases o with
  | none => rfl
  | some a =>
    unfold Tree.ofOption decodeOption
    split
    · next heq => exact absurd heq (hnull a)
    · rw [h]
      rfl

theorem decodeOption_ofBytes (o : Option Bytes) :
    decodeOption decodeBytes (.ofOption .ofBytes o) = .ok o :=
  decodeOption_ofOption (f := Tree.ofBytes) (fun _ => nofun) decodeBytes_ofBytes o

theorem decodeOption_ofString (o : Option String) :
    decodeOption decodeString (.ofOption .ofString o) = .ok o :=
  decodeOption_ofOption (f := Tree.ofString) (fun _ => nofun) (fun _ => rfl) o

theorem Tree.Written.ofBytes (bs : Bytes) : (Tree.ofBytes bs).Written := by
  refine .array fun t ht => ?_
  obtain ⟨b, -, rfl⟩ := List.mem_map.mp ht
  exact .number b.toNat

theorem Tree.Written.ofString (s : String) : (Tree.ofString s).Written :=
  .string s

theorem Tree.Written.ofStrings (ss : List String) : (Tree.ofStrings ss).Written := by
  refine .array fun t ht => ?_
  obtain ⟨s, -, rfl⟩ := List.mem_map.mp ht
  exact .string s

theorem Tree.Written.ofOption (h : ∀ a, (f a).Written) (o : Option α) :
    (Tree.ofOption f o).Written := by
  cases o with
  | none => exact .null
  | some a => exact h a

end Values

def under (key : String) (ms : List (String × Tree)) : List Tree :=
  (ms.filter (·.1 = key)).map (·.2)

@[simp]
theorem under_nil (key : String) : under key [] = [] :=
  rfl

@[simp]
theorem under_cons_self (key : String) (t : Tree) (ms : List (String × Tree)) :
    under key ((key, t) :: ms) = t :: under key ms := by
  simp [under]

@[simp]
theorem under_cons_of_ne {key other : String} (h : other ≠ key) (t : Tree)
    (ms : List (String × Tree)) : under key ((other, t) :: ms) = under key ms := by
  simp [under, h]

section Fields

variable {α σ : Type} {decode : Tree → Except Error α} {a : α}

/-- The trees found for a field are one that reads as the value, or none and this is the default. -/
inductive Gives (decode : Tree → Except Error α) (default? : Option α) (a : α) :
    List Tree → Prop
  | given {t : Tree} (h : decode t = .ok a) : Gives decode default? a [t]
  | absent (h : default? = some a) : Gives decode default? a []

/-- A record as an object or as the list of its fields, which are found by name or by place. -/
inductive Form (keys : List String) (reads : (Nat → String → List Tree) → Prop) : Tree → Prop
  | members {ms : List (String × Tree)} (fields : reads fun _ key => under key ms)
      (others : ∀ m ∈ ms, m.1 ∉ keys → m.2.isWhole = true) : Form keys reads (.object ms true)
  | items {ts : List Tree} (fields : reads fun i _ => ts[i]?.toList)
      (length : ts.length ≤ keys.length) : Form keys reads (.array ts true)

theorem Form.exact {keys : List String} {reads : (Nat → String → List Tree) → Prop}
    {ms : List (String × Tree)} (fields : reads fun _ key => under key ms)
    (hkeys : ms.map Prod.fst = keys) : Form keys reads (.object ms true) := by
  refine .members fields fun m hm hkey => ?_
  rw [← hkeys] at hkey
  exact absurd (List.mem_map_of_mem hm) hkey

inductive Fills (decode : Tree → Except Error α) : Option α → List Tree → Option α → Prop
  | given {t : Tree} {a : α} (h : decode t = .ok a) : Fills decode none [t] (some a)
  | kept (current : Option α) : Fills decode current [] current

theorem Fills.once {current last : Option α} {key : String} {t : Tree}
    {ms : List (String × Tree)} (h : Fills decode current (under key ((key, t) :: ms)) last) :
    ∃ next, Decoding.once key current (fun _ => decode t) = .ok next ∧
      Fills decode next (under key ms) last := by
  rw [under_cons_self] at h
  generalize under key ms = ts at h ⊢
  cases h with
  | @given _ a h => exact ⟨some a, by simp [Decoding.once, h, Except.map], .kept _⟩

theorem Fills.pass {current last : Option α} {key other : String} {t : Tree}
    {ms : List (String × Tree)} (h : Fills decode current (under key ((other, t) :: ms)) last)
    (hne : other ≠ key) : Fills decode current (under key ms) last := by
  rwa [under_cons_of_ne hne] at h

theorem Fills.eq {current last : Option α} (h : Fills decode current [] last) : current = last := by
  cases h
  rfl

theorem Gives.fills {ts : List Tree} (h : Gives decode none a ts) :
    Fills decode none ts (some a) := by
  cases h with
  | given h => exact .given h
  | absent h => cases h

theorem Gives.exists_fills {b : α} {ts : List Tree} (h : Gives decode (some b) a ts) :
    ∃ last, Fills decode none ts last ∧ last.getD b = a := by
  cases h with
  | given h => exact ⟨some a, .given h, rfl⟩
  | absent h => exact ⟨none, .kept none, Option.some.inj h⟩

theorem Gives.takeItem {default? : Option α} {absent : Except Error α} {ts : List Tree} {i : Nat}
    (h : Gives decode default? a ts[i]?.toList)
    (habsent : ∀ b, default? = some b → absent = .ok b) :
    takeItem decode absent (ts.drop i, true) = .ok (a, ts.drop (i + 1), true) := by
  rw [← List.head?_drop] at h
  rw [← List.tail_drop]
  cases hdrop : ts.drop i with
  | nil =>
    rw [hdrop] at h
    cases h with
    | absent h => exact (congrArg (· >>= _) (habsent a h)).trans rfl
  | cons t us =>
    rw [hdrop] at h
    cases h with
    | given h => exact (congrArg (· >>= _) h).trans rfl

theorem skip_of_isWhole {t : Tree} (h : t.isWhole = true) : skip t = .ok () :=
  if_pos h

theorem foldMembers_of {step : σ → String → Tree → Except Error σ}
    {P : σ → List (String × Tree) → Prop}
    (hstep : ∀ {s key t ms}, P s ((key, t) :: ms) → ∃ s', step s key t = .ok s' ∧ P s' ms)
    {s : σ} {ms : List (String × Tree)} (h : P s ms) :
    ∃ s', foldMembers step s ms = .ok s' ∧ P s' [] := by
  induction ms generalizing s with
  | nil => exact ⟨s, rfl, h⟩
  | cons m ms ih =>
    obtain ⟨key, t⟩ := m
    obtain ⟨s', hs', h'⟩ := hstep h
    obtain ⟨last, hlast, hP⟩ := ih h'
    have hfold : foldMembers step s ((key, t) :: ms) = foldMembers step s' ms := by
      rw [foldMembers, hs']
      rfl
    exact ⟨last, hfold.trans hlast, hP⟩

end Fields

/-- A record's text reads as the record; so does every text that says the same, and whatever a text
reads as is left as it is by another writing and reading. -/
structure RoundTrips {α : Type} (toTree : α → Tree) (ofTree : Tree → Except Error α)
    (keys : List String) (Says : α → (Nat → String → List Tree) → Prop) : Prop where
  written : ∀ a, decodeText ofTree (toTree a).text = .ok a
  form : ∀ {a text t rest}, Tree.read text = (t, rest) → rest.all isSpace = true →
    Form keys (Says a) t → decodeText ofTree text = .ok a
  rewritten : ∀ text a, decodeText ofTree text = .ok a → decodeText ofTree (toTree a).text = .ok a

theorem roundTrips_of {α : Type} {toTree : α → Tree} {ofTree : Tree → Except Error α}
    {keys : List String} {Says : α → (Nat → String → List Tree) → Prop}
    (hwritten : ∀ a, (toTree a).Written) (hform : ∀ a, Form keys (Says a) (toTree a))
    (hread : ∀ {a t}, Form keys (Says a) t → ofTree t = .ok a) :
    RoundTrips toTree ofTree keys Says := by
  have form {a text t rest} (htext : Tree.read text = (t, rest)) (hrest : rest.all isSpace = true)
      (ht : Form keys (Says a) t) : decodeText ofTree text = .ok a := by
    simp only [decodeText, htext, hread ht, bind, Except.bind, hrest, if_true]
    rfl
  have written a : decodeText ofTree (toTree a).text = .ok a :=
    form (read_text (hwritten a)) rfl (hform a)
  exact ⟨written, form, fun _ a _ => written a⟩

end Json

namespace CertData

def keys : List String :=
  ["certificate", "private_key", "ca_data"]

structure Says (d : CertData) (found : Nat → String → List Tree) : Prop where
  certificate : Gives decodeBytes none d.certificate (found 0 "certificate")
  privateKey : Gives (decodeOption decodeBytes) (some none) d.privateKey (found 1 "private_key")
  caData : Gives (decodeOption decodeBytes) (some none) d.caData (found 2 "ca_data")

structure Filling (last m : Members) (ms : List (String × Tree)) : Prop where
  certificate : Fills decodeBytes m.certificate (under "certificate" ms) last.certificate
  privateKey :
    Fills (decodeOption decodeBytes) m.privateKey (under "private_key" ms) last.privateKey
  caData : Fills (decodeOption decodeBytes) m.caData (under "ca_data" ms) last.caData
  others : ∀ p ∈ ms, p.1 ∉ keys → p.2.isWhole = true

theorem Filling.step {last m : Members} {key : String} {t : Tree} {ms : List (String × Tree)}
    (h : Filling last m ((key, t) :: ms)) : ∃ m', m.step key t = .ok m' ∧ Filling last m' ms := by
  obtain ⟨hcertificate, hprivate, hca, hothers⟩ := h
  have hrest : ∀ p ∈ ms, p.1 ∉ keys → p.2.isWhole = true :=
    fun p hp => hothers p (List.mem_cons_of_mem _ hp)
  unfold Members.step
  split
  · obtain ⟨next, hnext, hcertificate⟩ := hcertificate.once
    rw [hnext]
    exact ⟨{ m with certificate := next }, rfl, hcertificate, hprivate.pass (by decide),
      hca.pass (by decide), hrest⟩
  · obtain ⟨next, hnext, hprivate⟩ := hprivate.once
    rw [hnext]
    exact ⟨{ m with privateKey := next }, rfl, hcertificate.pass (by decide), hprivate,
      hca.pass (by decide), hrest⟩
  · obtain ⟨next, hnext, hca⟩ := hca.once
    rw [hnext]
    exact ⟨{ m with caData := next }, rfl, hcertificate.pass (by decide),
      hprivate.pass (by decide), hca, hrest⟩
  · next h1 h2 h3 =>
    have hkey : key ∉ keys := by
      simpa [keys] using ⟨h1, h2, h3⟩
    rw [skip_of_isWhole (hothers (key, t) List.mem_cons_self hkey)]
    exact ⟨m, rfl, hcertificate.pass h1, hprivate.pass h2, hca.pass h3, hrest⟩

theorem Filling.eq {last m : Members} (h : Filling last m []) : m = last := by
  cases m
  cases last
  congr
  exacts [h.certificate.eq, h.privateKey.eq, h.caData.eq]

theorem ofTree_of_form {d : CertData} {t : Tree} (h : Form keys d.Says t) :
    ofTree t = .ok d := by
  cases h with
  | @members ms fields others =>
    obtain ⟨privateKey, hprivate, hp⟩ := fields.privateKey.exists_fills
    obtain ⟨caData, hca, ha⟩ := fields.caData.exists_fills
    have hstart : Filling ⟨some d.certificate, privateKey, caData⟩ {} ms :=
      ⟨fields.certificate.fills, hprivate, hca, others⟩
    obtain ⟨m, hm, hlast⟩ := foldMembers_of Filling.step hstart
    rw [hlast.eq] at hm
    rw [ofTree, decodeRecord, hm]
    simp [Members.finish, required, hp, ha, bind, Except.bind, pure, Except.pure]
  | @items ts fields length =>
    have hcertificate absent : takeItem decodeBytes absent (ts, true) =
        .ok (d.certificate, ts.drop 1, true) := fields.certificate.takeItem nofun
    have hprivate : takeItem (decodeOption decodeBytes) (pure none) (ts.drop 1, true) =
        .ok (d.privateKey, ts.drop 2, true) :=
      fields.privateKey.takeItem fun _ h => congrArg _ (Option.some.inj h)
    have hca : takeItem (decodeOption decodeBytes) (pure none) (ts.drop 2, true) =
        .ok (d.caData, ts.drop 3, true) :=
      fields.caData.takeItem fun _ h => congrArg _ (Option.some.inj h)
    have hmore : ts.drop 3 = [] := List.drop_eq_nil_of_le length
    change ofItems ts true = _
    simp only [ofItems, hcertificate, hprivate, hca, hmore, bind, Except.bind]
    rfl

theorem written_toTree (d : CertData) : d.toTree.Written := by
  refine .object fun m hm => ?_
  simp only [List.mem_cons, List.not_mem_nil, or_false] at hm
  obtain rfl | rfl | rfl := hm
  exacts [.ofBytes _, .ofOption .ofBytes _, .ofOption .ofBytes _]

theorem form_toTree (d : CertData) : Form keys d.Says d.toTree :=
  .exact ⟨.given (decodeBytes_ofBytes _), .given (decodeOption_ofBytes _),
    .given (decodeOption_ofBytes _)⟩ rfl

theorem roundTrips : RoundTrips toTree ofTree keys Says :=
  roundTrips_of written_toTree form_toTree ofTree_of_form

end CertData

namespace Signature

def keys : List String :=
  ["certificate", "ca_data", "serial"]

structure Says (s : Signature) (found : Nat → String → List Tree) : Prop where
  certificate : Gives decodeBytes none s.certificate (found 0 "certificate")
  caData : Gives (decodeOption decodeBytes) (some none) s.caData (found 1 "ca_data")
  serial : Gives decodeString none s.serial (found 2 "serial")

structure Filling (last m : Members) (ms : List (String × Tree)) : Prop where
  certificate : Fills decodeBytes m.certificate (under "certificate" ms) last.certificate
  caData : Fills (decodeOption decodeBytes) m.caData (under "ca_data" ms) last.caData
  serial : Fills decodeString m.serial (under "serial" ms) last.serial
  others : ∀ p ∈ ms, p.1 ∉ keys → p.2.isWhole = true

theorem Filling.step {last m : Members} {key : String} {t : Tree} {ms : List (String × Tree)}
    (h : Filling last m ((key, t) :: ms)) : ∃ m', m.step key t = .ok m' ∧ Filling last m' ms := by
  obtain ⟨hcertificate, hca, hserial, hothers⟩ := h
  have hrest : ∀ p ∈ ms, p.1 ∉ keys → p.2.isWhole = true :=
    fun p hp => hothers p (List.mem_cons_of_mem _ hp)
  unfold Members.step
  split
  · obtain ⟨next, hnext, hcertificate⟩ := hcertificate.once
    rw [hnext]
    exact ⟨{ m with certificate := next }, rfl, hcertificate, hca.pass (by decide),
      hserial.pass (by decide), hrest⟩
  · obtain ⟨next, hnext, hca⟩ := hca.once
    rw [hnext]
    exact ⟨{ m with caData := next }, rfl, hcertificate.pass (by decide), hca,
      hserial.pass (by decide), hrest⟩
  · obtain ⟨next, hnext, hserial⟩ := hserial.once
    rw [hnext]
    exact ⟨{ m with serial := next }, rfl, hcertificate.pass (by decide), hca.pass (by decide),
      hserial, hrest⟩
  · next h1 h2 h3 =>
    have hkey : key ∉ keys := by
      simpa [keys] using ⟨h1, h2, h3⟩
    rw [skip_of_isWhole (hothers (key, t) List.mem_cons_self hkey)]
    exact ⟨m, rfl, hcertificate.pass h1, hca.pass h2, hserial.pass h3, hrest⟩

theorem Filling.eq {last m : Members} (h : Filling last m []) : m = last := by
  cases m
  cases last
  congr
  exacts [h.certificate.eq, h.caData.eq, h.serial.eq]

theorem ofTree_of_form {s : Signature} {t : Tree} (h : Form keys s.Says t) :
    ofTree t = .ok s := by
  cases h with
  | @members ms fields others =>
    obtain ⟨caData, hca, ha⟩ := fields.caData.exists_fills
    have hstart : Filling ⟨some s.certificate, caData, some s.serial⟩ {} ms :=
      ⟨fields.certificate.fills, hca, fields.serial.fills, others⟩
    obtain ⟨m, hm, hlast⟩ := foldMembers_of Filling.step hstart
    rw [hlast.eq] at hm
    rw [ofTree, decodeRecord, hm]
    simp [Members.finish, required, ha, bind, Except.bind, pure, Except.pure]
  | @items ts fields length =>
    have hcertificate absent : takeItem decodeBytes absent (ts, true) =
        .ok (s.certificate, ts.drop 1, true) := fields.certificate.takeItem nofun
    have hca : takeItem (decodeOption decodeBytes) (pure none) (ts.drop 1, true) =
        .ok (s.caData, ts.drop 2, true) :=
      fields.caData.takeItem fun _ h => congrArg _ (Option.some.inj h)
    have hserial absent : takeItem decodeString absent (ts.drop 2, true) =
        .ok (s.serial, ts.drop 3, true) := fields.serial.takeItem nofun
    have hmore : ts.drop 3 = [] := List.drop_eq_nil_of_le length
    change ofItems ts true = _
    simp only [ofItems, hcertificate, hca, hserial, hmore, bind, Except.bind]
    rfl

theorem written_toTree (s : Signature) : s.toTree.Written := by
  refine .object fun m hm => ?_
  simp only [List.mem_cons, List.not_mem_nil, or_false] at hm
  obtain rfl | rfl | rfl := hm
  exacts [.ofBytes _, .ofOption .ofBytes _, .ofString _]

theorem form_toTree (s : Signature) : Form keys s.Says s.toTree :=
  .exact ⟨.given (decodeBytes_ofBytes _), .given (decodeOption_ofBytes _),
    .given rfl⟩ rfl

theorem roundTrips : RoundTrips toTree ofTree keys Says :=
  roundTrips_of written_toTree form_toTree ofTree_of_form

end Signature

namespace IssueArgs

def keys : List String :=
  ["common_name", "ttl", "ip_sans", "alt_names"]

structure Says (a : IssueArgs) (found : Nat → String → List Tree) : Prop where
  commonName : Gives decodeString none a.commonName (found 0 "common_name")
  ttl : Gives (decodeOption decodeString) (some none) a.ttl (found 1 "ttl")
  ipSans : Gives (decodeList decodeString) (some []) a.ipSans (found 2 "ip_sans")
  altNames : Gives (decodeList decodeString) (some []) a.altNames (found 3 "alt_names")

structure Filling (last m : Members) (ms : List (String × Tree)) : Prop where
  commonName : Fills decodeString m.commonName (under "common_name" ms) last.commonName
  ttl : Fills (decodeOption decodeString) m.ttl (under "ttl" ms) last.ttl
  ipSans : Fills (decodeList decodeString) m.ipSans (under "ip_sans" ms) last.ipSans
  altNames : Fills (decodeList decodeString) m.altNames (under "alt_names" ms) last.altNames
  others : ∀ p ∈ ms, p.1 ∉ keys → p.2.isWhole = true

theorem Filling.step {last m : Members} {key : String} {t : Tree} {ms : List (String × Tree)}
    (h : Filling last m ((key, t) :: ms)) : ∃ m', m.step key t = .ok m' ∧ Filling last m' ms := by
  obtain ⟨hname, httl, hip, halt, hothers⟩ := h
  have hrest : ∀ p ∈ ms, p.1 ∉ keys → p.2.isWhole = true :=
    fun p hp => hothers p (List.mem_cons_of_mem _ hp)
  unfold Members.step
  split
  · obtain ⟨next, hnext, hname⟩ := hname.once
    rw [hnext]
    exact ⟨{ m with commonName := next }, rfl, hname, httl.pass (by decide), hip.pass (by decide),
      halt.pass (by decide), hrest⟩
  · obtain ⟨next, hnext, httl⟩ := httl.once
    rw [hnext]
    exact ⟨{ m with ttl := next }, rfl, hname.pass (by decide), httl, hip.pass (by decide),
      halt.pass (by decide), hrest⟩
  · obtain ⟨next, hnext, hip⟩ := hip.once
    rw [hnext]
    exact ⟨{ m with ipSans := next }, rfl, hname.pass (by decide), httl.pass (by decide), hip,
      halt.pass (by decide), hrest⟩
  · obtain ⟨next, hnext, halt⟩ := halt.once
    rw [hnext]
    exact ⟨{ m with altNames := next }, rfl, hname.pass (by decide), httl.pass (by decide),
      hip.pass (by decide), halt, hrest⟩
  · next h1 h2 h3 h4 =>
    have hkey : key ∉ keys := by
      simpa [keys] using ⟨h1, h2, h3, h4⟩
    rw [skip_of_isWhole (hothers (key, t) List.mem_cons_self hkey)]
    exact ⟨m, rfl, hname.pass h1, httl.pass h2, hip.pass h3, halt.pass h4, hrest⟩

theorem Filling.eq {last m : Members} (h : Filling last m []) : m = last := by
  cases m
  cases last
  congr
  exacts [h.commonName.eq, h.ttl.eq, h.ipSans.eq, h.altNames.eq]

theorem ofTree_of_form {a : IssueArgs} {t : Tree} (h : Form keys a.Says t) :
    ofTree t = .ok a := by
  cases h with
  | @members ms fields others =>
    obtain ⟨ttl, httl, ht⟩ := fields.ttl.exists_fills
    obtain ⟨ipSans, hip, hi⟩ := fields.ipSans.exists_fills
    obtain ⟨altNames, halt, ha⟩ := fields.altNames.exists_fills
    have hstart : Filling ⟨some a.commonName, ttl, ipSans, altNames⟩ {} ms :=
      ⟨fields.commonName.fills, httl, hip, halt, others⟩
    obtain ⟨m, hm, hlast⟩ := foldMembers_of Filling.step hstart
    rw [hlast.eq] at hm
    rw [ofTree, decodeRecord, hm]
    simp [Members.finish, required, ht, hi, ha, bind, Except.bind, pure, Except.pure]
  | @items ts fields length =>
    have hname absent : takeItem decodeString absent (ts, true) =
        .ok (a.commonName, ts.drop 1, true) := fields.commonName.takeItem nofun
    have httl : takeItem (decodeOption decodeString) (pure none) (ts.drop 1, true) =
        .ok (a.ttl, ts.drop 2, true) :=
      fields.ttl.takeItem fun _ h => congrArg _ (Option.some.inj h)
    have hip : takeItem (decodeList decodeString) (pure []) (ts.drop 2, true) =
        .ok (a.ipSans, ts.drop 3, true) :=
      fields.ipSans.takeItem fun _ h => congrArg _ (Option.some.inj h)
    have halt : takeItem (decodeList decodeString) (pure []) (ts.drop 3, true) =
        .ok (a.altNames, ts.drop 4, true) :=
      fields.altNames.takeItem fun _ h => congrArg _ (Option.some.inj h)
    have hmore : ts.drop 4 = [] := List.drop_eq_nil_of_le length
    change ofItems ts true = _
    simp only [ofItems, hname, httl, hip, halt, hmore, bind, Except.bind]
    rfl

theorem written_toTree (a : IssueArgs) : a.toTree.Written := by
  refine .object fun m hm => ?_
  simp only [List.mem_cons, List.not_mem_nil, or_false] at hm
  obtain rfl | rfl | rfl | rfl := hm
  exacts [.ofString _, .ofOption .ofString _, .ofStrings _, .ofStrings _]

theorem form_toTree (a : IssueArgs) : Form keys a.Says a.toTree :=
  .exact ⟨.given rfl, .given (decodeOption_ofString _),
    .given (decodeStrings_ofStrings _), .given (decodeStrings_ofStrings _)⟩ rfl

theorem roundTrips : RoundTrips toTree ofTree keys Says :=
  roundTrips_of written_toTree form_toTree ofTree_of_form

end IssueArgs

theorem records_roundTrip : RoundTrips CertData.toTree CertData.ofTree CertData.keys CertData.Says ∧
    RoundTrips Signature.toTree Signature.ofTree Signature.keys Signature.Says ∧
    RoundTrips IssueArgs.toTree IssueArgs.ofTree IssueArgs.keys IssueArgs.Says :=
  ⟨CertData.roundTrips, Signature.roundTrips, IssueArgs.roundTrips⟩

end CertLifecycle
