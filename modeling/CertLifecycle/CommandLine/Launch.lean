import CertLifecycle.CommandLine.Runner
import CertLifecycle.Configuration.Rules

namespace CertLifecycle.CommandLine

def Runner.ofConfiguration (e : Environment) (c : Configuration) : Except CliError Runner := do
  let renewal ← c.renewal.renewal.mapError .lifecycle
  return ⟨c, e, ⟨renewal, c.attempts.retry⟩⟩

def checked (c : Configuration) : Except CliError Configuration :=
  match c.violations with
  | [] => .ok c
  | vs => .error (.validation ("; ".intercalate (vs.map Configuration.Violation.text)))

structure Launch where
  runner : Runner
  server : VaultConfig

def Launch.ofConfiguration (e : Environment) (c : Configuration) : Except CliError Launch := do
  let c ← checked c
  let server ← c.server.client e
  return ⟨← Runner.ofConfiguration e c, server⟩

namespace Arguments

def repeats (a : Arguments) : Bool := a.daemon && a.command.isRepeatable

end Arguments

namespace Runner

variable {m : Type → Type} [Monad m] [Journal m] [Cancellation m] [AskAuthority m] [Clock m]
variable [Console m] [Slot FileSlot m] [Stopwatch m]

def start (r : Runner) (a : Arguments) (runs : Nat) : ExceptT CliError m Unit :=
  if a.repeats then ExceptT.lift do
    let due ← r.startDaemon
    r.ticks a.command runs due
  else r.run a.command

end Runner

end CertLifecycle.CommandLine
