import CertLifecycle.Proofs.ArmouredText
import CertLifecycle.Proofs.FailedWrites
import CertLifecycle.Proofs.PemConcatenation
import CertLifecycle.Trust

namespace CertLifecycle

namespace Pem

/-- A text of whole blocks: nothing but space is left behind the last. -/
structure ConsistsOf (text : Bytes) (blocks : List Block) : Prop where
  accepted : parse text = .ok blocks
  closed : remainder text = []

def WellFormed (text : Bytes) : Prop :=
  ∀ f ∈ frames text, ∃ b, Reads f b

variable {text more : Bytes} {blocks : List Block}

theorem wellFormed_iff : WellFormed text ↔ ∃ blocks, parse text = .ok blocks := by
  simp only [parse_eq_ok]
  exact exists_forall₂_iff.symm

namespace ConsistsOf

theorem parse_append (h : ConsistsOf text blocks) (more : Bytes) :
    parse (text ++ more) = do return blocks ++ (← parse more) := by
  rw [Pem.parse_append, h.accepted, h.closed, List.nil_append]
  rfl

theorem parse_append_ok (h : ConsistsOf text blocks) {others : List Block}
    (hmore : parse more = .ok others) : parse (text ++ more) = .ok (blocks ++ others) := by
  rw [h.parse_append, hmore]
  rfl

theorem parse_append_error (h : ConsistsOf text blocks) {e : Pem.Error}
    (hmore : parse more = .error e) : parse (text ++ more) = .error e := by
  rw [h.parse_append, hmore]
  rfl

end ConsistsOf

end Pem

namespace Certificate

open Pem

variable {text more : Bytes} {blocks : List Block}

theorem ofPem_ne_malformed (h : parse text = .ok blocks) (e : Pem.Error) :
    ofPem text ≠ .error (.pem e) := by
  rw [ofPem_of_parse h]
  unfold firstDer
  split
  · simp only [Except.bind, ofDer]
    split <;> exact nofun
  · exact nofun

theorem exists_firstDer (found : ∃ b ∈ blocks, b.tag = tag) :
    ∃ der, firstDer blocks = .ok der := by
  unfold firstDer
  split
  next b hfind => exact ⟨b.contents, rfl⟩
  next hfind =>
    obtain ⟨b, hb, htag⟩ := found
    exact absurd (by simpa using htag) (List.find?_eq_none.mp hfind b hb)

theorem ofPem_append_eq_iff (h : ConsistsOf text blocks) (found : ∃ b ∈ blocks, b.tag = tag) :
    ofPem (text ++ more) = ofPem text ↔ WellFormed more := by
  rw [wellFormed_iff]
  cases hmore : parse more with
  | error e =>
    -- The error of the malformed block is one that the leading blocks alone never give.
    have hne := ofPem_ne_malformed h.accepted e
    rw [ofPem_of_malformed (h.parse_append_error hmore)]
    simp [Ne.symm hne]
  | ok others =>
    obtain ⟨der, hder⟩ := exists_firstDer found
    rw [ofPem_of_parse (h.parse_append_ok hmore), ofPem_of_parse h.accepted, firstDer_append, hder]
    simp

end Certificate

namespace Trust

open Pem

variable {text more : Bytes} {blocks : List Block}

theorem anchor_of_malformed {e : Pem.Error} (h : parse text = .error e) :
    anchor text = .error (.invalidData ("ca chain: " ++ e.message)) := by
  rw [anchor, h]
  rfl

theorem anchor_append (h : ConsistsOf text blocks) (hne : blocks ≠ []) {others : List Block}
    (hmore : parse more = .ok others) : anchor (text ++ more) = anchor text := by
  obtain ⟨first, rest, rfl⟩ := List.exists_cons_of_ne_nil hne
  rw [anchor, anchor, h.parse_append_ok hmore, h.accepted]
  rfl

theorem chainText_ne (t u : String) : "empty ca chain" ≠ "ca chain: " ++ t ∧
    "unexpected " ++ u ≠ "ca chain: " ++ t ∧ "ca certificate: " ++ u ≠ "ca chain: " ++ t := by
  refine ⟨?_, ?_, ?_⟩ <;> intro h <;> simpa using congrArg (fun s => s.toList.take 5) h

theorem anchor_ne_malformed (h : parse text = .ok blocks) (t : String) :
    anchor text ≠ .error (.invalidData ("ca chain: " ++ t)) := by
  rw [anchor, h]
  cases blocks with
  | nil =>
    intro he
    injection he with he
    injection he with he
    exact (chainText_ne t "").1 he
  | cons first rest =>
    by_cases htag : first.tag = Certificate.tag
    · cases hread : X509.Certificate.read first.contents with
      | error e =>
        simpa [bind, Except.bind, Except.mapError, htag, hread] using (chainText_ne t e.message).2.2
      | ok ca => simp [bind, Except.bind, Except.mapError, htag, hread]
    · have hne := (chainText_ne t (first.tag ++ " block in ca chain")).2.1
      simpa [bind, Except.bind, Except.mapError, throw, throwThe, MonadExceptOf.throw, htag,
        String.append_assoc] using hne

section

variable (anchorNow leafNow : Int) (cert : Certificate)

theorem verifyAt_of_anchor_error {e : LifecycleError} (h : anchor text = .error e) :
    verifyAt anchorNow leafNow cert text = .error e := by
  rw [verifyAt, h]
  rfl

theorem verifyAt_congr (h : anchor more = anchor text) :
    verifyAt anchorNow leafNow cert more = verifyAt anchorNow leafNow cert text := by
  rw [verifyAt, verifyAt, h]

theorem anchor_of_verifyAt {anchorNow leafNow : Int} {cert : Certificate} {t : String}
    (h : verifyAt anchorNow leafNow cert text = .error (.invalidData t)) :
    anchor text = .error (.invalidData t) := by
  unfold verifyAt at h
  cases hanchor : anchor text with
  | error e =>
    rw [hanchor] at h
    cases h
    rfl
  | ok ca =>
    rw [hanchor] at h
    simp only [bind, Except.bind, throw, throwThe, MonadExceptOf.throw] at h
    cases hsigned : cert.x509.verifySignature ca.signedPart.publicKey <;>
      simp only [hsigned, Except.mapError] at h <;> split_ifs at h <;> cases h

theorem verifyAt_append_eq_iff (h : ConsistsOf text blocks) (hne : blocks ≠ []) :
    verifyAt anchorNow leafNow cert (text ++ more) = verifyAt anchorNow leafNow cert text ↔
      WellFormed more := by
  rw [wellFormed_iff]
  cases hmore : parse more with
  | error e =>
    have hwhole := verifyAt_of_anchor_error anchorNow leafNow cert
      (anchor_of_malformed (h.parse_append_error hmore))
    constructor
    · intro he
      exact absurd (anchor_of_verifyAt (he.symm.trans hwhole))
        (anchor_ne_malformed h.accepted e.message)
    · rintro ⟨others, hothers⟩
      cases hothers
  | ok others =>
    exact iff_of_true (verifyAt_congr anchorNow leafNow cert (anchor_append h hne hmore))
      ⟨others, rfl⟩

end

end Trust

open Pem

/-- Behind whole blocks a text counts only by its form. If it is well formed, the first certificate
and every verification are those of the leading blocks alone; if it is not, there is no certificate
and every verification fails. -/
theorem leading_decide {text : Bytes} {blocks : List Block} (h : ConsistsOf text blocks)
    (more : Bytes) :
    ((∃ b ∈ blocks, b.tag = Certificate.tag) →
      (Certificate.ofPem (text ++ more) = Certificate.ofPem text ↔ WellFormed more)) ∧
    (blocks ≠ [] → ∀ anchorNow leafNow cert,
      (Trust.verifyAt anchorNow leafNow cert (text ++ more) =
        Trust.verifyAt anchorNow leafNow cert text ↔ WellFormed more)) ∧
    ∀ e, parse more = .error e →
      Certificate.ofPem (text ++ more) = .error (.pem e) ∧
        ∀ anchorNow leafNow cert, Trust.verifyAt anchorNow leafNow cert (text ++ more) =
          .error (.invalidData ("ca chain: " ++ e.message)) := by
  refine ⟨Certificate.ofPem_append_eq_iff h, ?_, ?_⟩
  · intro hne anchorNow leafNow cert
    exact Trust.verifyAt_append_eq_iff anchorNow leafNow cert h hne
  · intro e hmore
    have hwhole := h.parse_append_error hmore
    refine ⟨Certificate.ofPem_of_malformed hwhole, fun anchorNow leafNow cert => ?_⟩
    exact Trust.verifyAt_of_anchor_error anchorNow leafNow cert (Trust.anchor_of_malformed hwhole)

theorem consistsOf_bareText :
    ConsistsOf Destination.bareText [⟨Certificate.tag, [], Destination.bareDer⟩] :=
  ⟨by decide +kernel, by decide +kernel⟩

theorem leading_decide_repeated :
    Certificate.ofPem (Destination.bareText ++ Destination.bareText) =
        Certificate.ofPem Destination.bareText ∧
      ∀ cert, Trust.verifyAt 0 0 cert (Destination.bareText ++ Destination.bareText) =
        Trust.verifyAt 0 0 cert Destination.bareText := by
  have hform : WellFormed Destination.bareText :=
    wellFormed_iff.mpr ⟨_, consistsOf_bareText.accepted⟩
  obtain ⟨hfirst, htrust, -⟩ := leading_decide consistsOf_bareText Destination.bareText
  exact ⟨(hfirst ⟨_, List.mem_singleton_self _, rfl⟩).mpr hform,
    fun cert => (htrust (List.cons_ne_nil _ _) 0 0 cert).mpr hform⟩

def malformedText : Bytes :=
  Utf8.encode "-----BEGIN A-----\n!\n-----END A-----\n"

theorem exists_refused_of_trailing : ∃ blocks cert,
    ConsistsOf Destination.bareText blocks ∧ (∃ b ∈ blocks, b.tag = Certificate.tag) ∧
      Certificate.ofPem Destination.bareText = .ok cert ∧
      Certificate.ofPem (Destination.bareText ++ malformedText) ≠ .ok cert ∧
      Trust.verifyAt 0 0 cert (Destination.bareText ++ malformedText) ≠
        Trust.verifyAt 0 0 cert Destination.bareText := by
  obtain ⟨cert, hcert⟩ := Destination.exists_ofPem_bareBundle
  have hform : ¬ WellFormed malformedText := by
    rw [wellFormed_iff]
    rintro ⟨others, hothers⟩
    have hrefused : (parse malformedText).isOk = false := by decide +kernel
    rw [hothers] at hrefused
    cases hrefused
  refine ⟨_, cert, consistsOf_bareText, ⟨_, List.mem_singleton_self _, rfl⟩, hcert, ?_, ?_⟩
  · intro he
    refine hform ((Certificate.ofPem_append_eq_iff consistsOf_bareText ?_).mp (he.trans hcert.symm))
    exact ⟨_, List.mem_singleton_self _, rfl⟩
  · intro he
    exact hform ((Trust.verifyAt_append_eq_iff 0 0 cert consistsOf_bareText
      (List.cons_ne_nil _ _)).mp he)

end CertLifecycle
