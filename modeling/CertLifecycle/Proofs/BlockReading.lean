import CertLifecycle.Pem
import Mathlib.Data.List.Forall2

namespace CertLifecycle

variable {ε ε' α β : Type}

theorem except_bind_eq_ok {x : Except ε α} {f : α → Except ε β} {b : β} :
    x >>= f = .ok b ↔ ∃ a, x = .ok a ∧ f a = .ok b := by
  cases x <;> simp [bind, Except.bind]

theorem throw_bind_eq_ok {p : Prop} [Decidable p] {e : ε} {f : α → Except ε β} {x : Except ε β}
    {b : β} : (if p then throw e >>= f else x) = .ok b ↔ ¬ p ∧ x = .ok b := by
  split
  next h => exact ⟨nofun, fun hb => absurd h hb.1⟩
  next h => exact ⟨fun hb => ⟨h, hb⟩, fun hb => hb.2⟩

theorem mapError_eq_ok {x : Except ε α} {f : ε → ε'} {a : α} :
    x.mapError f = .ok a ↔ x = .ok a := by
  cases x <;> simp [Except.mapError]

theorem mapM_eq_ok {f : α → Except ε β} {as : List α} {bs : List β} :
    as.mapM f = .ok bs ↔ List.Forall₂ (fun a b => f a = .ok b) as bs := by
  induction as generalizing bs with
  | nil => simp [pure, Except.pure, eq_comm]
  | cons a as ih =>
    simp only [List.mapM_cons, except_bind_eq_ok, ih, List.forall₂_cons_left_iff]
    constructor
    · rintro ⟨b, hb, cs, hcs, he⟩
      cases he
      exact ⟨b, cs, hb, hcs, rfl⟩
    · rintro ⟨b, cs, hb, hcs, rfl⟩
      exact ⟨b, hb, cs, hcs, rfl⟩

theorem exists_of_forall₂ {R : α → β → Prop} {as : List α} {bs : List β}
    (h : List.Forall₂ R as bs) {b : β} (hb : b ∈ bs) : ∃ a ∈ as, R a b := by
  induction h with
  | nil => cases hb
  | @cons a c as bs hR h ih =>
    rcases List.mem_cons.mp hb with rfl | hb
    · exact ⟨a, List.mem_cons_self, hR⟩
    · obtain ⟨a', ha, hR'⟩ := ih hb
      exact ⟨a', List.mem_cons_of_mem a ha, hR'⟩

theorem exists_forall₂_iff {R : α → β → Prop} {as : List α} :
    (∃ bs, List.Forall₂ R as bs) ↔ ∀ a ∈ as, ∃ b, R a b := by
  induction as with
  | nil => simp
  | cons a as ih =>
    simp only [List.forall₂_cons_left_iff, List.forall_mem_cons, ← ih]
    constructor
    · rintro ⟨_, b, bs, hR, hbs, rfl⟩
      exact ⟨⟨b, hR⟩, bs, hbs⟩
    · rintro ⟨⟨b, hR⟩, bs, hbs⟩
      exact ⟨_, b, bs, hR, hbs, rfl⟩

namespace Pem

def symbols (data : String) : Bytes :=
  Utf8.encode (String.ofList (data.toList.filter fun c => !Text.isBlank c))

/-- A frame is read as a block exactly if its tags agree and are not empty, its data is base64 of the
contents, and its headers are as they should be. -/
structure Reads (f : Frame) (b : Block) : Prop where
  tag_ne : b.tag ≠ ""
  opened : Utf8.decode f.opened = .ok b.tag
  closed : Utf8.decode f.closed = .ok b.tag
  contents : ∃ data, Utf8.decode f.data = .ok data ∧ Base64.decode (symbols data) = .ok b.contents
  headers : ∃ text, Utf8.decode f.headers = .ok text ∧
    (Text.lines text).mapM readHeader = .ok b.headers

theorem read_eq_ok {f : Frame} {b : Block} : f.read = .ok b ↔ Reads f b := by
  unfold Frame.read readText
  constructor
  · intro h
    simp only [except_bind_eq_ok, mapError_eq_ok, throw_bind_eq_ok] at h
    obtain ⟨tag, hopened, htag, closed, hclosed, -, hagree, data, hdata, contents, hcontents, text,
      htext, headers, hheaders, he⟩ := h
    cases he
    obtain rfl : tag = closed := not_not.mp hagree
    exact ⟨by simpa using htag, hopened, hclosed, ⟨data, hdata, hcontents⟩, text, htext, hheaders⟩
  · rintro ⟨htag, hopened, hclosed, ⟨data, hdata, hcontents⟩, text, htext, hheaders⟩
    have hne : b.tag.isEmpty = false := by simpa using htag
    unfold symbols at hcontents
    simp [hopened, hclosed, hdata, hcontents, htext, hheaders, hne, bind, Except.bind, Except.mapError,
      pure, Except.pure]

theorem parse_eq_ok {bs : Bytes} {blocks : List Block} :
    parse bs = .ok blocks ↔ List.Forall₂ Reads (frames bs) blocks := by
  simp only [parse, mapM_eq_ok, read_eq_ok]

end Pem

end CertLifecycle
