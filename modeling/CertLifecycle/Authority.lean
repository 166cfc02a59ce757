import CertLifecycle.Bundle
import CertLifecycle.Vault.Error

namespace CertLifecycle

inductive CaCause where
  | text (s : String)
  | vault (e : VaultError)
  deriving DecidableEq, Repr

def CaCause.message : CaCause → String
  | .text s => s
  | .vault e => e.message

structure CaError where
  permanent : Bool
  cause : CaCause
  deriving DecidableEq, Repr

namespace CaError

def ofVault (e : VaultError) : CaError :=
  ⟨e.isPermanent, .vault e⟩

def message (e : CaError) : String :=
  (if e.permanent then "Permanent CA Error: " else "Retryable CA Error: ") ++ e.cause.message

end CaError

inductive CaMethod where
  | issue
  | sign
  | revoke
  | tidy
  | readAcme
  | fetchCaChain
  | fetchCa
  | fetchCrl
  deriving DecidableEq, Repr

namespace CaMethod

def name : CaMethod → String
  | .issue => "issue"
  | .sign => "sign"
  | .revoke => "revoke"
  | .tidy => "tidy"
  | .readAcme => "read_acme"
  | .fetchCaChain => "fetch_ca_chain"
  | .fetchCa => "fetch_ca"
  | .fetchCrl => "fetch_crl"

abbrev Answer : CaMethod → Type
  | .issue | .readAcme => CertData
  | .sign => Signature
  | .revoke | .tidy => Unit
  | .fetchCaChain | .fetchCa | .fetchCrl => Bytes

end CaMethod

inductive CaRequest : CaMethod → Type where
  | issue (args : IssueArgs) : CaRequest .issue
  | sign (csr : Bytes) (args : IssueArgs) : CaRequest .sign
  | revoke (serial : String) : CaRequest .revoke
  | tidy : CaRequest .tidy
  | readAcme (commonName : String) : CaRequest .readAcme
  | fetchCaChain : CaRequest .fetchCaChain
  | fetchCa (binary : Bool) : CaRequest .fetchCa
  | fetchCrl (binary : Bool) : CaRequest .fetchCrl

end CertLifecycle
