import CertLifecycle.Json.Tree

namespace CertLifecycle.Json

inductive Number where
  | integer (n : Int)
  | float (f : Float)

def digitValue (c : Char) : Nat :=
  c.toNat - 48

def fitDigits : Nat → List Char → Nat × Nat
  | n, [] => (n, 0)
  | n, c :: cs =>
    if n * 10 + digitValue c < UInt64.size then fitDigits (n * 10 + digitValue c) cs
    else (n, (c :: cs).length)

def tenTo (n : Nat) : Float :=
  Float.ofScientific 1 false n

def shrink : Nat → Float → Nat → Float
  | 0, _, _ => 0.0
  | k + 1, f, n =>
    if n ≤ 308 then f / tenTo n
    else if f == 0.0 then f
    else shrink k (f / tenTo 308) (n - 308)

def scale? (f : Float) (e : Int) : Option Float :=
  if 0 ≤ e then
    if e ≤ 308 then
      let g := f * tenTo e.toNat
      if g.isInf then none else some g
    else if f == 0.0 then some f else none
  else some (shrink 4 f e.natAbs)

def splitAtExponent (cs : List Char) : List Char × List Char :=
  let isMark := fun c => c = 'e' || c = 'E'
  (cs.takeWhile (!isMark ·), (cs.dropWhile (!isMark ·)).tail)

def exponentValue (cs : List Char) : Int :=
  match cs with
  | '-' :: ds => -(ds.foldl (fun n c => n * 10 + digitValue c) 0 : Nat)
  | '+' :: ds => (ds.foldl (fun n c => n * 10 + digitValue c) 0 : Nat)
  | ds => (ds.foldl (fun n c => n * 10 + digitValue c) 0 : Nat)

def Number.ofText? (text : String) : Option Number :=
  let cs := text.toList
  let negative := cs.head? = some '-'
  let cs := if negative then cs.tail else cs
  let sign := fun f : Float => if negative then -f else f
  let (base, exponent) := splitAtExponent cs
  let whole := base.takeWhile (· ≠ '.')
  let fraction := (base.dropWhile (· ≠ '.')).tail
  let (n, excess) := fitDigits 0 whole
  let isInteger := whole.length = cs.length ∧ excess = 0
  if isInteger ∧ !negative then some (.integer n)
  else if isInteger ∧ 0 < n ∧ n ≤ UInt64.size / 2 then some (.integer (-n))
  else
    let (m, dropped) := fitDigits n fraction
    let e := exponentValue exponent + excess - (fraction.length - dropped : Nat)
    (scale? m.toUInt64.toFloat e).map fun f => .float (sign f)

end CertLifecycle.Json
