import CertLifecycle.Number.Shortest

namespace CertLifecycle

structure Duration where
  nanos : Nat
  deriving DecidableEq, Repr

namespace Duration

def second : Nat := 1000000000

def millisecond : Nat := 1000000

def longest : Duration := ⟨UInt64.size * second - 1⟩

def ofMillis (n : Nat) : Duration := ⟨n * millisecond⟩

def ofSeconds (n : Nat) : Duration := ⟨n * second⟩

instance : Min Duration where
  min a b := if a.nanos ≤ b.nanos then a else b

def millis (d : Duration) : Nat :=
  d.nanos / millisecond

def toSeconds (d : Duration) : Float :=
  (d.nanos / second).toUInt64.toFloat + (d.nanos % second).toUInt64.toFloat / 1e9

def roundHalfEven (num den : Nat) : Nat :=
  let q := num / den
  let twice := 2 * (num % den)
  if twice < den ∨ (twice = den ∧ q % 2 = 0) then q else q + 1

/-- To the nearest nanosecond. There is no span for negative numbers, numbers that are none, and
seconds that do not fit. -/
def ofSeconds? (f : Float) : Option Duration :=
  let bits := f.toBits.toNat
  if bits % Number.signBit = 0 then some ⟨0⟩
  else if Number.signBit ≤ bits ∨ f.isNaN ∨ f.isInf then none
  else
    let b := Number.Binary.ofBits bits
    let scaled := (b.mantissa <<< b.exponent.toNat) * second
    let nanos := roundHalfEven scaled (1 <<< (-b.exponent).toNat)
    if nanos ≤ longest.nanos then some ⟨nanos⟩ else none

def decimalText (whole fraction width : Nat) : String :=
  if fraction = 0 then toString whole
  else
    let ds := toString fraction
    let ds := String.ofList (List.replicate (width - ds.length) '0') ++ ds
    toString whole ++ "." ++
      String.ofList (ds.toList.reverse.dropWhile (· = '0')).reverse

def text (d : Duration) : String :=
  if second ≤ d.nanos then decimalText (d.nanos / second) (d.nanos % second) 9 ++ "s"
  else if millisecond ≤ d.nanos then
    decimalText (d.nanos / millisecond) (d.nanos % millisecond) 6 ++ "ms"
  else if 1000 ≤ d.nanos then decimalText (d.nanos / 1000) (d.nanos % 1000) 3 ++ "µs"
  else toString d.nanos ++ "ns"

end Duration

end CertLifecycle
