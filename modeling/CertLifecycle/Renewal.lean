import CertLifecycle.Lifecycle.Error

namespace CertLifecycle

/-- The arithmetic of shares: doubles in the program, rationals where it is reasoned about. -/
class Percentage (R : Type) where
  ofInt : Int → R
  mul : R → R → R
  div : R → R → R
  le : R → R → Bool

instance : Percentage Float where
  ofInt n := .ofModel (.ofInt64 (.ofInt n))
  mul := (· * ·)
  div := (· / ·)
  le a b := a ≤ b

namespace Renewal

inductive Verdict where
  | keep
  | renew
  | emptyWindow
  deriving DecidableEq, Repr

def Verdict.renews : Verdict → Bool
  | .keep => false
  | .renew | .emptyWindow => true

def minThreshold : Int := 20

def maxThreshold : Int := 80

section

variable {R : Type} [Percentage R]

open Percentage

def InRange (threshold : R) : Prop :=
  le (ofInt minThreshold) threshold = true ∧ le threshold (ofInt maxThreshold) = true

instance (threshold : R) : Decidable (InRange threshold) :=
  inferInstanceAs (Decidable (_ ∧ _))

def remainingPercent (remaining total : Int) : R :=
  let share := div (mul (ofInt remaining) (ofInt 100)) (ofInt total)
  if le (ofInt 0) share then share else ofInt 0

def wordSub (a b : Int) : Int :=
  (a - b).bmod UInt64.size

def percentageAt (threshold : R) (cert : Certificate) (now : Int) : Verdict :=
  let total := wordSub cert.notAfter cert.notBefore
  if total ≤ 0 then .emptyWindow
  else if le (remainingPercent (wordSub cert.notAfter now) total) threshold then .renew
  else .keep

end

end Renewal

structure PercentageRenewal (R : Type) [Percentage R] where
  threshold : R
  inRange : Renewal.InRange threshold

def PercentageRenewal.ofThreshold? {R : Type} [Percentage R] (t : R) :
    Option (PercentageRenewal R) :=
  if h : Renewal.InRange t then some ⟨t, h⟩ else none

inductive Renewal where
  | fixed (renews : Bool)
  | percentage (rule : PercentageRenewal Float)

namespace Renewal

def ofThreshold (t : Float) : Except LifecycleError Renewal :=
  match PercentageRenewal.ofThreshold? t with
  | some r => .ok (.percentage r)
  | none => .error (.invalidThreshold t)

def decideAt (r : Renewal) (cert : Option Certificate) (now : Int) :
    Except LifecycleError Verdict :=
  match r, cert with
  | .fixed b, _ => .ok (if b then .renew else .keep)
  | .percentage _, none => .error .invalidCertificate
  | .percentage rule, some c => .ok (percentageAt rule.threshold c now)

end Renewal

end CertLifecycle
