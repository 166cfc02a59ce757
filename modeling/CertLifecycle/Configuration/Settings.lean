import CertLifecycle.Bundle
import CertLifecycle.Lifecycle.Retry
import CertLifecycle.Renewal
import CertLifecycle.Text.Shown

namespace CertLifecycle

namespace Configuration

structure Server where
  address : String
  token : Option String := none
  mount : String := "pki"
  role : String
  kvMount : String := "secret"
  acmePrefix : String := "acme"
  /-- Seconds. -/
  timeout : Nat := 30

structure RenewalRule where
  threshold : Option Float := none
  always : Option Bool := none

structure Subject where
  commonName : String
  ttl : Option String := none
  ipSans : List String := []
  altNames : List String := []

structure Paths where
  cert : Option String := none
  ca : Option String := none
  key : String

structure SigningPaths where
  csr : String
  cert : String
  ca : Option String := none

structure Daemon where
  /-- Seconds. -/
  interval : Nat := 3600

structure Attempts where
  maxRetries : Nat := 3
  /-- Milliseconds, as is the next. -/
  initialDelay : Nat := 500
  maxDelay : Nat := 30000

end Configuration

open CertLifecycle.Configuration in
structure Configuration where
  server : Server
  renewal : RenewalRule := {}
  subject : Subject
  destinations : List Paths := []
  csr : Option SigningPaths := none
  caOutput : Option String := none
  crlOutput : Option String := none
  daemon : Daemon := {}
  attempts : Attempts := {}

namespace Configuration

open Text

def defaultThreshold : Float := 33.0

def RenewalRule.renewal (r : RenewalRule) : Except LifecycleError Renewal :=
  match r.always with
  | some always => .ok (.fixed always)
  | none => Renewal.ofThreshold (r.threshold.getD defaultThreshold)

def Subject.issueArgs (s : Subject) : IssueArgs :=
  ⟨s.commonName, s.ttl, s.ipSans, s.altNames⟩

def Attempts.retry (a : Attempts) : RetryConfig where
  maxRetries := UInt32.ofNat a.maxRetries
  initialDelay := .ofMillis a.initialDelay
  maxDelay := .ofMillis a.maxDelay

def hidden : String := quoted "XXXX"

def Server.text (s : Server) : String :=
  shownRecord "Vault" [("address", quoted s.address),
    ("token", shownOption (fun _ => hidden) s.token),
    ("mount", quoted s.mount), ("role", quoted s.role), ("kv_mount", quoted s.kvMount),
    ("acme_prefix", quoted s.acmePrefix), ("timeout", toString s.timeout)]

def RenewalRule.text (r : RenewalRule) : String :=
  shownRecord "Renewal" [("threshold", shownOption Number.debug.text r.threshold),
    ("always", shownOption toString r.always)]

def Subject.text (s : Subject) : String :=
  shownRecord "Certificate" [("common_name", quoted s.commonName),
    ("ttl", shownOption quoted s.ttl),
    ("ip_sans", shownList quoted s.ipSans), ("alt_names", shownList quoted s.altNames)]

def Paths.text (p : Paths) : String :=
  shownRecord "Destination" [("cert", shownOption quoted p.cert), ("ca", shownOption quoted p.ca),
    ("key", quoted p.key)]

def SigningPaths.text (p : SigningPaths) : String :=
  shownRecord "Csr" [("csr", quoted p.csr), ("cert", quoted p.cert),
    ("ca", shownOption quoted p.ca)]

def Daemon.text (d : Daemon) : String :=
  shownRecord "Daemon" [("interval", toString d.interval)]

def Attempts.text (a : Attempts) : String :=
  shownRecord "Retry" [("max_retries", toString a.maxRetries),
    ("initial_delay_ms", toString a.initialDelay), ("max_delay_ms", toString a.maxDelay)]

def text (c : Configuration) : String :=
  shownRecord "Config" [("vault", c.server.text), ("renewal", c.renewal.text),
    ("certificate", c.subject.text), ("destinations", shownList Paths.text c.destinations),
    ("csr", shownOption SigningPaths.text c.csr), ("ca_output", shownOption quoted c.caOutput),
    ("crl_output", shownOption quoted c.crlOutput), ("daemon", c.daemon.text),
    ("retry", c.attempts.text)]

end Configuration

end CertLifecycle
