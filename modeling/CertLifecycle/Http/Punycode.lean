namespace CertLifecycle.Http.Punycode

def base : Nat := 36

def digit? (c : Char) : Option Nat :=
  if 'a' ≤ c ∧ c ≤ 'z' then some (c.toNat - 97)
  else if 'A' ≤ c ∧ c ≤ 'Z' then some (c.toNat - 65)
  else if '0' ≤ c ∧ c ≤ '9' then some (c.toNat - 48 + 26)
  else none

def threshold (k bias : Nat) : Nat :=
  if k ≤ bias then 1 else if bias + 26 ≤ k then 26 else k - bias

def number? (bias : Nat) : List Char → (k weight value : Nat) → Option (Nat × List Char)
  | [], _, _, _ => none
  | c :: cs, k, weight, value => do
    let d ← digit? c
    let value := value + d * weight
    let t := threshold k bias
    if UInt32.size ≤ value then none
    else if d < t then some (value, cs)
    else number? bias cs (k + base) (weight * (base - t)) value

def settle : Nat → Nat → Nat → Nat
  | 0, _, k => k
  | fuel + 1, delta, k =>
    if 455 < delta then settle fuel (delta / 35) (k + base) else k + 36 * delta / (delta + 38)

def adapt (delta count : Nat) (isFirst : Bool) : Nat :=
  let delta := if isFirst then delta / 700 else delta / 2
  settle 32 (delta + delta / count) 0

def insertAll : Nat → List Char → List Char → (code position bias : Nat) → (isFirst : Bool) →
    Option (List Char)
  | _, out, [], _, _, _, _ => some out
  | 0, _, _ :: _, _, _, _, _ => none
  | fuel + 1, out, cs, code, position, bias, isFirst => do
    let (delta, rest) ← number? bias cs base 1 0
    let count := out.length + 1
    let code := code + (position + delta) / count
    let place := (position + delta) % count
    if code.isValidChar then
      insertAll fuel (out.take place ++ Char.ofNat code :: out.drop place) rest code (place + 1)
        (adapt delta count isFirst) false
    else none

def decode? (cs : List Char) : Option (List Char) :=
  let digits := (cs.reverse.takeWhile (· ≠ '-')).reverse
  let plain := cs.take (cs.length - digits.length - 1)
  insertAll (digits.length + 1) plain digits 128 0 72 true

end CertLifecycle.Http.Punycode
