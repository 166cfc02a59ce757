import CertLifecycle.Configuration.Settings
import CertLifecycle.Http.Url

namespace CertLifecycle.Configuration

structure Violation where
  path : List String
  rule : String
  deriving DecidableEq, Repr

def Violation.text (v : Violation) : String :=
  String.join (v.path.map ("/" ++ ·)) ++ ": " ++ v.rule

def demand (kept : Bool) (path : List String) (rule : String) : List Violation :=
  if kept then [] else [⟨path, rule⟩]

def Server.violations (s : Server) : List Violation :=
  demand (Http.Url.parse? s.address).isSome ["vault", "address"] "url"
    ++ demand (s.role ≠ "") ["vault", "role"] "length"
    ++ demand (1 ≤ s.timeout) ["vault", "timeout"] "range"

/-- What cannot be compared is not out of range. -/
def isInRange (threshold : Float) : Bool :=
  !(Percentage.ofInt Renewal.maxThreshold < threshold)
    && !(threshold < Percentage.ofInt Renewal.minThreshold)

def RenewalRule.violations (r : RenewalRule) : List Violation :=
  -- The rule on both fields is asked also where a field breaks its own.
  demand (r.threshold.all isInRange) ["renewal", "threshold"] "range"
    ++ demand (r.threshold.isNone || r.always.isNone) ["renewal", "__all__"]
      "renewal takes either threshold or always, not both"

def Subject.violations (s : Subject) : List Violation :=
  demand (s.commonName ≠ "") ["certificate", "common_name"] "length"

def destinationViolations : Nat → List Paths → List Violation
  | _, [] => []
  | i, p :: ps =>
    demand (p.key ≠ "") ["destinations", toString i, "key"] "length"
      ++ destinationViolations (i + 1) ps

def violations (c : Configuration) : List Violation :=
  c.server.violations ++ c.renewal.violations ++ c.subject.violations
    ++ destinationViolations 0 c.destinations

def IsValid (c : Configuration) : Prop := c.violations = []

instance (c : Configuration) : Decidable c.IsValid :=
  inferInstanceAs (Decidable (_ = _))

end CertLifecycle.Configuration
