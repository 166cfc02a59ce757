import CertLifecycle.CommandLine.Arguments
import CertLifecycle.CommandLine.Stores
import CertLifecycle.Lifecycle.Operations

namespace CertLifecycle.CommandLine

structure Runner where
  configuration : Configuration
  environment : Environment
  service : Service

namespace Runner

variable {m : Type → Type} [Monad m]

def given {α : Type} (r : Except CliError α) : ExceptT CliError m α :=
  ExceptT.mk (pure r)

def ofStorage {α : Type} (action : ExceptT StorageError m α) : ExceptT CliError m α :=
  ExceptT.mk do return (← action.run).mapError .storage

def ofLifecycle {α : Type} (action : ExceptT LifecycleError m α) : ExceptT CliError m α :=
  ExceptT.mk do return (← action.run).mapError .lifecycle

variable [Journal m] [Cancellation m] [AskAuthority m] [Clock m] [Console m] [Slot FileSlot m]

def bundleStore (r : Runner) : ExceptT CliError m (BundleStore FileSlot) :=
  given (Configuration.bundleStore r.environment r.configuration.destinations)

def issue (r : Runner) : ExceptT CliError m Unit := do
  let store ← r.bundleStore
  ofStorage store.canWrite
  let result ← ofLifecycle (r.service.issue store r.configuration.subject.issueArgs)
  ExceptT.lift <| logInfo <| match result.status with
    | .issued => "certificate " ++ (result.issued.map Certificate.serial).getD "" ++ " issued"
    | .noop => "certificate is up to date"

def readAcme (r : Runner) : ExceptT CliError m Unit := do
  let store ← r.bundleStore
  ofStorage store.canWrite
  let result ← ofLifecycle (r.service.readAcme store r.configuration.subject.commonName)
  let status := match result.status with
    | .issued => "Issued"
    | .noop => "Noop"
  ExceptT.lift (logInfo ("acme certificate stored (" ++ status ++ ")"))

def verify (r : Runner) : ExceptT CliError m Unit := do
  let store ← r.bundleStore
  let cert ← ofStorage store.readCert
  ofLifecycle (r.service.verify cert)
  ExceptT.lift (logInfo ("certificate " ++ cert.serial ++ " (" ++ cert.subject ++ ") is valid"))

def sign (r : Runner) : ExceptT CliError m Unit := do
  let store ← given (Configuration.signingStore r.environment r.configuration.csr)
  ofStorage store.canRead
  ofStorage store.canWrite
  ofLifecycle (r.service.sign store r.configuration.subject.issueArgs)

def run (r : Runner) : Command → ExceptT CliError m Unit
  | .issue => r.issue
  | .readAcme => r.readAcme
  | .verify => r.verify
  | .sign => r.sign
  | .revoke serial => ofLifecycle (r.service.revoke serial)
  | .tidy => ofLifecycle r.service.tidy
  | .fetchCa der => do
    let store ← given (Configuration.blobStore r.environment r.configuration.caOutput)
    ofLifecycle (r.service.fetchCa store der)
  | .fetchCrl der => do
    let store ← given (Configuration.blobStore r.environment r.configuration.crlOutput)
    ofLifecycle (r.service.fetchCrl store der)

def period (r : Runner) : Duration :=
  .ofSeconds (max r.configuration.daemon.interval 1)

/-- How late a run may start without moving those after it. -/
def tolerance : Duration := .ofMillis 5

def nextDue (period : Duration) (due now : Nat) : Nat :=
  if due + tolerance.nanos < now then now + period.nanos else due + period.nanos

def runAgain (r : Runner) (c : Command) : m Unit := do
  match ← (r.run c).run with
  | .ok () => pure ()
  | .error (.lifecycle .canceled) => logWarn "run canceled"
  | .error e => logError ("run failed: " ++ e.message)

variable [Stopwatch m]

def tick (r : Runner) (c : Command) (due : Nat) : m (Option Nat) := do
  if ← Stopwatch.waitUntil due then
    logInfo "daemon stopped"
    return none
  else
    let now ← Stopwatch.elapsed
    r.runAgain c
    return some (nextDue r.period due now)

def startDaemon (r : Runner) : m Nat := do
  logInfo ("daemon started, interval " ++ r.period.text)
  Stopwatch.elapsed

def ticks (r : Runner) (c : Command) : Nat → (due : Nat) → m Unit
  | 0, _ => pure ()
  | n + 1, due => do
    match ← r.tick c due with
    | some due => ticks r c n due
    | none => pure ()

end Runner

end CertLifecycle.CommandLine
