import CertLifecycle.Lifecycle.Error
import CertLifecycle.X509.Signature

namespace CertLifecycle.Trust

def anchor (chain : Bytes) : Except LifecycleError X509.Certificate := do
  let blocks ← (Pem.parse chain).mapError fun e => .invalidData ("ca chain: " ++ e.message)
  match blocks with
  | [] => throw (.invalidData "empty ca chain")
  | first :: _ =>
    if first.tag ≠ Certificate.tag then
      throw (.invalidData ("unexpected " ++ first.tag ++ " block in ca chain"))
    (X509.Certificate.read first.contents).mapError fun e =>
      .invalidData ("ca certificate: " ++ e.message)

/-- The two windows are looked at one after the other, each at its own time. -/
def verifyAt (anchorNow leafNow : Int) (cert : Certificate) (chain : Bytes) :
    Except LifecycleError Unit := do
  let ca ← anchor chain
  let leaf := cert.x509
  if !ca.isCa then throw (.verificationFailed "trust anchor is not a CA certificate")
  if ¬ ca.signedPart.validity.Contains anchorNow then
    throw (.verificationFailed "trust anchor is outside its validity window")
  if leaf.signedPart.issuer.raw ≠ ca.signedPart.subject.raw then
    throw (.verificationFailed ("issued by " ++ leaf.signedPart.issuer.text ++ ", expected " ++
      ca.signedPart.subject.text))
  (leaf.verifySignature ca.signedPart.publicKey).mapError fun e =>
    .verificationFailed ("bad signature: " ++ e.message)
  if ¬ leaf.signedPart.validity.Contains leafNow then
    throw (.verificationFailed "certificate is outside its validity window")

def verify (now : Int) (cert : Certificate) (chain : Bytes) : Except LifecycleError Unit :=
  verifyAt now now cert chain

end CertLifecycle.Trust
