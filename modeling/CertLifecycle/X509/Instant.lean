import CertLifecycle.Asn1.Element
import CertLifecycle.Time.Calendar

namespace CertLifecycle.X509.Instant

open Asn1

def digits? (bs : Bytes) : Option Nat :=
  bs.foldlM (fun n b => if 48 ≤ b ∧ b ≤ 57 then some (n * 10 + (b.toNat - 48)) else none) 0

def pairs? : Nat → Bytes → Option (List Nat × Bytes)
  | 0, bs => some ([], bs)
  | k + 1, a :: b :: bs => do
    let n ← digits? [a, b]
    let (ns, rest) ← pairs? k bs
    return (n :: ns, rest)
  | _, _ => none

def seconds? (date : Calendar.Date) (hour minute second : Nat) : Option Int :=
  if date.IsValid ∧ hour < 24 ∧ minute < 60 ∧ second < 60 then
    some (date.daysSinceEpoch * 86400 + hour * 3600 + minute * 60 + second)
  else none

def offset? : Bytes → Option Int
  | [90] => some 0
  | sign :: rest => do
    let ([h, m], []) ← pairs? 2 rest | none
    if 25 < h ∨ 59 < m then none
    let s : Int := h * 3600 + m * 60
    if sign = 43 then return s
    else if sign = 45 then return -s
    else none
  | [] => none

def ofUtc? (bs : Bytes) : Option Int := do
  let ([yy, month, day, hour, minute, second], rest) ← pairs? 6 bs | none
  let offset ← offset? rest
  let t ← seconds? ⟨if 50 ≤ yy then 1900 + yy else 2000 + yy, month, day⟩ hour minute second
  return t - offset

def isFraction : Bytes → Bool
  | [] => true
  | 46 :: ds => ds.length ≤ 3 && (digits? ds).isSome
  | _ => false

def ofGeneralized? (bs : Bytes) : Option Int := do
  if bs.getLast? ≠ some 90 then none
  let ([century, yy, month, day, hour, minute], rest) ← pairs? 6 bs.dropLast | none
  let (second, rest) := match pairs? 1 rest with
    | some ([s], rest) => (s, rest)
    | _ => (0, rest)
  if !isFraction rest then none
  seconds? ⟨century * 100 + yy, month, day⟩ hour minute second

def read? (bs : Bytes) : Option (Int × Bytes) := do
  let (e, rest) ← Element.read? bs
  let t ← if e.number = Tag.utcTime then ofUtc? e.content
    else if e.number = Tag.generalizedTime then ofGeneralized? e.content
    else none
  return (t, rest)

end CertLifecycle.X509.Instant
