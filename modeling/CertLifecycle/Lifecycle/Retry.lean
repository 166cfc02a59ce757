import CertLifecycle.Lifecycle.Surroundings
import CertLifecycle.Text.Shown

namespace CertLifecycle

structure RetryConfig where
  maxRetries : UInt32 := 3
  initialDelay : Duration := .ofMillis 500
  maxDelay : Duration := .ofSeconds 30
  multiplier : Float := 2.0

namespace RetryConfig

def firstDelay (c : RetryConfig) : Duration :=
  min c.initialDelay c.maxDelay

/-- A product that no span can hold gives the cap. -/
def nextDelay (c : RetryConfig) (d : Duration) : Duration :=
  match Duration.ofSeconds? (d.toSeconds * c.multiplier) with
  | some d => min d c.maxDelay
  | none => c.maxDelay

open Text in
def text (c : RetryConfig) : String :=
  shownRecord "RetryConfig" [("max_retries", toString c.maxRetries.toNat),
    ("initial_delay", c.initialDelay.text), ("max_delay", c.maxDelay.text),
    ("multiplier", Number.debug.text c.multiplier)]

end RetryConfig

namespace Retry

inductive Failure where
  | canceled
  | failed (cause : CaError)

def permanentEvent (k : CaMethod) (e : CaError) : LogEvent :=
  { level := .error, message := "permanent error: " ++ e.message, operation := some k.name }

def exhaustedEvent (k : CaMethod) (retries : Nat) (e : CaError) : LogEvent :=
  { level := .error, message := "giving up after retries: " ++ e.message, operation := some k.name
    retries := some retries }

def retryEvent (k : CaMethod) (retry : Nat) (delay : Duration) (e : CaError) : LogEvent :=
  { level := .warn, message := "retryable error: " ++ e.message, operation := some k.name
    retry := some retry, delayMillis := some (delay.millis % UInt64.size) }

variable {m : Type → Type} [Monad m] [Journal m] [Cancellation m] [AskAuthority m]

open Cancellation AskAuthority

/-- Attempts with `left` retries to go after `done` of them. -/
def attempts (config : RetryConfig) {k : CaMethod} (request : CaRequest k) :
    (left done : Nat) → (delay : Duration) → m (Except Failure k.Answer)
  | left, done, delay => do
    if ← isCanceled then return .error .canceled
    match ← ask request with
    | none => return .error .canceled
    | some (.ok answer) => return .ok answer
    | some (.error e) =>
      if e.permanent then
        log (permanentEvent k e)
        return .error (.failed e)
      match left with
      | 0 =>
        log (exhaustedEvent k done e)
        return .error (.failed e)
      | left + 1 =>
        log (retryEvent k (done + 1) delay e)
        if ← pause delay then return .error .canceled
        attempts config request left (done + 1) (config.nextDelay delay)

def run (config : RetryConfig) {k : CaMethod} (request : CaRequest k) :
    m (Except Failure k.Answer) :=
  attempts config request config.maxRetries.toNat 0 config.firstDelay

end Retry

end CertLifecycle
