import CertLifecycle.Lifecycle.Retry
import CertLifecycle.Renewal
import CertLifecycle.Storage.Store
import CertLifecycle.Trust

namespace CertLifecycle

inductive IssueStatus where
  | noop
  | issued
  deriving DecidableEq, Repr

structure IssueResult where
  status : IssueStatus
  existing : Option Certificate
  issued : Option Certificate
  deriving DecidableEq

structure Service where
  renewal : Renewal
  retry : RetryConfig := {}

namespace Service

variable {m : Type → Type} [Monad m] [Journal m] [Cancellation m] [AskAuthority m] [Clock m]
variable {σ : Type} [Slot σ m]

def request (s : Service) {k : CaMethod} (r : CaRequest k) : ExceptT LifecycleError m k.Answer :=
  ExceptT.mk do
    match ← Retry.run s.retry r with
    | .ok answer => return .ok answer
    | .error .canceled => return .error .canceled
    | .error (.failed e) => return .error (.authority k e)

def parsed (what : String) (text : Bytes) : ExceptT LifecycleError m Certificate :=
  ExceptT.mk (pure ((Certificate.ofPem text).mapError fun e =>
    .invalidData (what ++ " certificate: " ++ e.message)))

def writing (action : ExceptT StorageError m Unit) : ExceptT LifecycleError m Unit :=
  ExceptT.mk do return (← action.run).mapError .writeFailed

def verify (s : Service) (cert : Certificate) : ExceptT LifecycleError m Unit := do
  let chain ← s.request .fetchCaChain
  let anchorNow ← ExceptT.lift Clock.now
  let leafNow ← ExceptT.lift Clock.now
  ExceptT.mk (pure (Trust.verifyAt anchorNow leafNow cert chain))

def decideRenewal (s : Service) (cert : Certificate) : ExceptT LifecycleError m Bool := do
  let now ← ExceptT.lift Clock.now
  let verdict ← ExceptT.mk (pure (s.renewal.decideAt (some cert) now))
  if verdict = .emptyWindow then
    ExceptT.lift <| logWarn <|
      "certificate " ++ cert.serial ++ " has an empty validity window, renewing"
  return verdict.renews

def shouldIssue (s : Service) (cert : Certificate) : ExceptT LifecycleError m Bool := do
  if cert.isExpiredAt (← ExceptT.lift Clock.now) then s.decideRenewal cert
  else
    match ← ExceptT.lift (s.verify cert).run with
    | .ok () => s.decideRenewal cert
    | .error .canceled => throw .canceled
    | .error e =>
      ExceptT.lift (logWarn ("existing certificate can not be verified, renewing: " ++ e.message))
      return true

def existing (store : BundleStore σ) : m (Option Certificate) := do
  match ← (store.readCert).run with
  | .ok cert => return some cert
  | .error e =>
    if !e.isNotFound then logWarn ("unable to read existing certificate: " ++ e.message)
    return none

def issueNew [Described σ] (s : Service) (store : BundleStore σ) (args : IssueArgs)
    (existing : Option Certificate) : ExceptT LifecycleError m IssueResult := do
  let data ← s.request (.issue args)
  let cert ← parsed "issued" data.certificate
  writing (store.writeCert data)
  ExceptT.lift (logInfo ("issued certificate " ++ cert.serial ++ " for " ++ cert.subject ++
    " valid until " ++ Calendar.instantText cert.notAfter))
  return ⟨.issued, existing, some cert⟩

def issue [Described σ] (s : Service) (store : BundleStore σ) (args : IssueArgs) :
    ExceptT LifecycleError m IssueResult := do
  if ¬ args.IsValid then throw .invalidArgs
  match ← ExceptT.lift (existing store) with
  | none => s.issueNew store args none
  | some cert =>
    if ← s.shouldIssue cert then s.issueNew store args (some cert)
    else
      ExceptT.lift (logInfo ("certificate " ++ cert.serial ++ " is still valid until " ++
        Calendar.instantText cert.notAfter ++ ", nothing to do"))
      return ⟨.noop, some cert, none⟩

def sign (s : Service) (store : SigningStore σ) (args : IssueArgs) :
    ExceptT LifecycleError m Unit := do
  if ¬ args.IsValid then throw .invalidArgs
  let csr ← ExceptT.mk do return (← (store.readCsr).run).mapError LifecycleError.readFailed
  let signature ← s.request (.sign csr args)
  let cert ← parsed "signed" signature.certificate
  writing (store.writeSignature signature)
  ExceptT.lift (logInfo ("signed certificate " ++ signature.serial ++ " valid until " ++
    Calendar.instantText cert.notAfter))

def revoke (s : Service) (serial : String) : ExceptT LifecycleError m Unit := do
  if Text.AllBlank serial then throw .emptySerial
  s.request (.revoke serial)
  ExceptT.lift (logInfo ("revoked certificate " ++ serial))

def tidy (s : Service) : ExceptT LifecycleError m Unit :=
  s.request .tidy

def readAcme [Described σ] (s : Service) (store : BundleStore σ) (commonName : String) :
    ExceptT LifecycleError m IssueResult := do
  let data ← s.request (.readAcme commonName)
  let fetched ← parsed "acme" data.certificate
  let existing := (← ExceptT.lift (store.readCert).run).toOption
  writing (store.writeCert data)
  let status := match existing with
    | some cert => if cert.der ≠ fetched.der then .issued else .noop
    | none => .noop
  return ⟨status, existing, some fetched⟩

def fetchCa [Console m] (s : Service) (store : BlobStore σ) (binary : Bool) :
    ExceptT LifecycleError m Unit := do
  writing (store.write (← s.request (.fetchCa binary)))

def fetchCrl [Console m] (s : Service) (store : BlobStore σ) (binary : Bool) :
    ExceptT LifecycleError m Unit := do
  writing (store.write (← s.request (.fetchCrl binary)))

end Service

end CertLifecycle
