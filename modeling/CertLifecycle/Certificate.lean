import CertLifecycle.Pem
import CertLifecycle.X509.Certificate

namespace CertLifecycle

inductive ParseError where
  | pem (cause : Pem.Error)
  | noCertificate
  | x509 (detail : String)
  deriving DecidableEq, Repr

def ParseError.message : ParseError → String
  | .pem e => "PEM Error: " ++ e.message
  | .noCertificate => "No Certificate Block Found"
  | .x509 d => "X509 Error: " ++ d

structure Certificate where
  der : Bytes
  x509 : X509.Certificate
  read_der : X509.Certificate.read der = .ok x509

namespace Certificate

theorem eq_of_der_eq {a b : Certificate} (h : a.der = b.der) : a = b := by
  obtain ⟨da, xa, ha⟩ := a
  obtain ⟨db, xb, hb⟩ := b
  obtain rfl : da = db := h
  obtain rfl : xa = xb := Except.ok.inj (ha.symm.trans hb)
  rfl

instance : DecidableEq Certificate := fun a b =>
  if h : a.der = b.der then .isTrue (eq_of_der_eq h) else .isFalse fun e => h (e ▸ rfl)

def serial (c : Certificate) : String :=
  ":".intercalate (hexPairs c.x509.signedPart.serial)

def subject (c : Certificate) : String :=
  c.x509.signedPart.subject.text

def notBefore (c : Certificate) : Int :=
  c.x509.signedPart.validity.notBefore

def notAfter (c : Certificate) : Int :=
  c.x509.signedPart.validity.notAfter

def isExpiredAt (c : Certificate) (now : Int) : Bool :=
  c.notAfter < now

def ofDer (der : Bytes) : Except ParseError Certificate :=
  match h : X509.Certificate.read der with
  | .ok x => .ok ⟨der, x, h⟩
  | .error e => .error (.x509 e.message)

def tag : String := "CERTIFICATE"

def firstDer (blocks : List Pem.Block) : Except ParseError Bytes :=
  match blocks.find? (·.tag = tag) with
  | some b => .ok b.contents
  | none => .error .noCertificate

/-- The first certificate block counts, whatever blocks stand before it. -/
def ofPem (text : Bytes) : Except ParseError Certificate := do
  let blocks ← (Pem.parse text).mapError .pem
  ofDer (← firstDer blocks)

end Certificate

end CertLifecycle
