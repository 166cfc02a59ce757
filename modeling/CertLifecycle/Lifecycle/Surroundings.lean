import CertLifecycle.Authority
import CertLifecycle.Time.Duration

namespace CertLifecycle

inductive Level where
  | info
  | warn
  | error
  deriving DecidableEq, Repr

structure LogEvent where
  level : Level
  message : String
  operation : Option String := none
  retry : Option Nat := none
  retries : Option Nat := none
  delayMillis : Option Nat := none
  deriving DecidableEq, Repr

namespace LogEvent

def line (e : LogEvent) : String :=
  let level := match e.level with
    | .info => " INFO "
    | .warn => " WARN "
    | .error => "ERROR "
  let number := fun (name : String) (n : Option Nat) =>
    (n.map fun n => " " ++ name ++ "=" ++ toString n).getD ""
  level ++ e.message ++ (e.operation.map (" operation=" ++ ·)).getD "" ++ number "retry" e.retry ++
    number "retries" e.retries ++ number "delay_ms" e.delayMillis

end LogEvent

class Journal (m : Type → Type) where
  log : LogEvent → m Unit

export Journal (log)

def logInfo {m : Type → Type} [Journal m] (message : String) : m Unit :=
  log { level := .info, message }

def logWarn {m : Type → Type} [Journal m] (message : String) : m Unit :=
  log { level := .warn, message }

def logError {m : Type → Type} [Journal m] (message : String) : m Unit :=
  log { level := .error, message }

class Console (m : Type → Type) where
  print : Bytes → m Unit

class Clock (m : Type → Type) where
  now : m Int

class Cancellation (m : Type → Type) where
  isCanceled : m Bool
  /-- Waits; true if cancellation cut the wait short. -/
  pause : Duration → m Bool

class Stopwatch (m : Type → Type) where
  elapsed : m Nat
  waitUntil : Nat → m Bool

class AskAuthority (m : Type → Type) where
  /-- The answer, or nothing if cancellation came while it was pending. -/
  ask {k : CaMethod} : CaRequest k → m (Option (Except CaError k.Answer))

end CertLifecycle
