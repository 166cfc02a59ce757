import CertLifecycle.Authority
import CertLifecycle.Http.Exchange
import CertLifecycle.Vault.Config
import CertLifecycle.Vault.Payload

namespace CertLifecycle

structure VaultClient where
  config : VaultConfig

namespace VaultClient

open Vault Json Http

variable {m : Type → Type} [Monad m] [Exchange m]

def refusal (r : Response) : String :=
  match r.body.map (decodeBody decodeErrors) with
  | some (.ok errors) => "; ".intercalate errors
  | _ => statusText r.status

def accepted (r : Response) : Except VaultError Response :=
  if isSuccess r.status then .ok r else .error (.status r.status (refusal r))

def send (c : VaultClient) (method : Method) (path : String) (body : Option Tree) :
    ExceptT VaultError m Response :=
  let headers := (body.map fun _ => (contentType, "application/json")).toList
    ++ [("X-Vault-Token", c.config.token)]
  ExceptT.mk do
    match ← Http.send method (c.config.url path) headers (body.map fun t => Utf8.encode t.text) with
    | .ok r => return accepted r
    | .error e => return .error (.http e)

def bodyOf (r : Response) : Except VaultError Bytes :=
  match r.body with
  | some bs => .ok bs
  | none => .error (.http .body)

def decoded {α : Type} (decode : Tree → Except Decoding.Error α) (body : Bytes) :
    Except VaultError α :=
  (decodeBody decode body).mapError fun e => .decode (e.message Number.signedExponent)

def post (c : VaultClient) (path : String) (body : Tree) : ExceptT VaultError m Response :=
  c.send .post path (some body)

def getBytes (c : VaultClient) (path : String) : ExceptT VaultError m Bytes := do
  let r ← c.send .get path none
  ExceptT.mk (pure (bodyOf r))

def postIssue (c : VaultClient) (endpoint : String) (body : Tree) :
    ExceptT VaultError m IssuedData := do
  let r ← c.post (c.config.pkiPath (endpoint ++ "/" ++ c.config.role)) body
  ExceptT.mk (pure (bodyOf r >>= decoded (decodeEnvelope IssuedData.ofTree)))

def nonEmpty (s : Option String) : Option Bytes :=
  (s.filter (· ≠ "")).map Utf8.encode

def issue (c : VaultClient) (args : IssueArgs) : ExceptT VaultError m CertData := do
  let d ← c.postIssue "issue" (certificateRequest args none)
  return ⟨Utf8.encode d.certificate, nonEmpty d.privateKey, d.caData⟩

def sign (c : VaultClient) (csr : Bytes) (args : IssueArgs) : ExceptT VaultError m Signature := do
  match Utf8.decode? csr with
  | none => throw (.decode "csr is not valid PEM text")
  | some csr =>
    let d ← c.postIssue "sign" (certificateRequest args (some csr))
    match d.serialNumber.filter (· ≠ "") with
    | some serial => return ⟨Utf8.encode d.certificate, d.caData, serial⟩
    | none => throw (.missingField "serial_number")

def revoke (c : VaultClient) (serial : String) : ExceptT VaultError m Unit := do
  let _ ← c.post (c.config.pkiPath "revoke") (revokeRequest serial)

def tidy (c : VaultClient) : ExceptT VaultError m Unit := do
  let _ ← c.post (c.config.pkiPath "tidy") tidyRequest

def readAcme (c : VaultClient) (commonName : String) : ExceptT VaultError m CertData := do
  let body ← c.getBytes (c.config.acmePath commonName)
  let s ← ExceptT.mk (pure (decoded (decodeEnvelope (decodeEnvelope AcmeSecret.ofTree)) body))
  if s.certificate = "" then throw (.missingField "certificate")
  return ⟨Utf8.encode s.certificate, nonEmpty s.privateKey, nonEmpty s.issuer⟩

def blobEndpoint (name : String) (binary : Bool) : String :=
  if binary then name else name ++ "/pem"

def ask (c : VaultClient) : {k : CaMethod} → CaRequest k → ExceptT VaultError m k.Answer
  | _, .issue args => c.issue args
  | _, .sign csr args => c.sign csr args
  | _, .revoke serial => c.revoke serial
  | _, .tidy => c.tidy
  | _, .readAcme commonName => c.readAcme commonName
  | _, .fetchCaChain => c.getBytes (c.config.pkiPath "ca_chain")
  | _, .fetchCa binary => c.getBytes (c.config.pkiPath (blobEndpoint "ca" binary))
  | _, .fetchCrl binary => c.getBytes (c.config.pkiPath (blobEndpoint "crl" binary))

end VaultClient

end CertLifecycle
