import CertLifecycle.X509.Certificate
import CertLifecycle.Crypto.Rsa
import CertLifecycle.Crypto.Ecdsa
import CertLifecycle.Crypto.Ed25519

namespace CertLifecycle.X509

open Asn1 Crypto

inductive SignatureError where
  | unsupported
  | invalid
  deriving DecidableEq, Repr

def SignatureError.message : SignatureError → String
  | .unsupported => "signature unsupported algorithm"
  | .invalid => "signature verification error"

abbrev Check := Bytes → Bytes → Bytes → Bool

def pkcs1 (n : Nat) : Oid := .ofArcs [1, 2, 840, 113549, 1, 1, n]

def nistHash (n : Nat) : Oid := .ofArcs [2, 16, 840, 1, 101, 3, 4, 2, n]

def curve? (key : PublicKey) : Option Ecdsa.Curve := do
  let e ← key.algorithm.parameters
  if e.tagClass ≠ 0 ∨ e.number ≠ Tag.oid then none
  let oid : Oid := ⟨e.content⟩
  if oid = .ofArcs [1, 2, 840, 10045, 3, 1, 7] then some Ecdsa.p256
  else if oid = .ofArcs [1, 3, 132, 0, 34] then some Ecdsa.p384
  else none

def pssDigest? (parameters : Option Element) : Option Rsa.Digest := do
  let e ← parameters
  if e.tagClass ≠ 0 ∨ e.number ≠ Tag.sequence then none
  let (wrapper, _) ← Element.read? e.content
  if wrapper.tagClass ≠ 2 ∨ wrapper.number ≠ 0 then none
  let (hash, _) ← readAlgorithm? wrapper.content
  if hash.oid = nistHash 1 then some .sha256
  else if hash.oid = nistHash 2 then some .sha384
  else if hash.oid = nistHash 3 then some .sha512
  else none

def ecdsa? (hash : Bytes → Bytes) (key : PublicKey) : Option Check :=
  (curve? key).map fun c => Ecdsa.verify c hash

def check? (a : Algorithm) (key : PublicKey) : Option Check :=
  if a.oid = pkcs1 5 ∨ a.oid = .ofArcs [1, 3, 14, 3, 2, 29] then
    some (Rsa.verifyPkcs1 .sha1 1024)
  else if a.oid = pkcs1 11 then some (Rsa.verifyPkcs1 .sha256 2048)
  else if a.oid = pkcs1 12 then some (Rsa.verifyPkcs1 .sha384 2048)
  else if a.oid = pkcs1 13 then some (Rsa.verifyPkcs1 .sha512 2048)
  else if a.oid = pkcs1 10 then (pssDigest? a.parameters).map fun d => Rsa.verifyPss d 2048
  else if a.oid = .ofArcs [1, 2, 840, 10045, 4, 3, 2] then ecdsa? sha256 key
  else if a.oid = .ofArcs [1, 2, 840, 10045, 4, 3, 3] then ecdsa? sha384 key
  else if a.oid = .ofArcs [1, 3, 101, 112] then some Ed25519.verify
  else none

def Certificate.verifySignature (c : Certificate) (key : PublicKey) : Except SignatureError Unit :=
  match check? c.algorithm key with
  | none => .error .unsupported
  | some check => if check key.key c.signedPart.raw c.signature then .ok () else .error .invalid

end CertLifecycle.X509
