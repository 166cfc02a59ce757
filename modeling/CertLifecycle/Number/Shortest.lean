/-!
Decimal text of binary floating point numbers: the fewest digits that read back, and of those the
nearest to the value.
-/

namespace CertLifecycle.Number

structure Decimal where
  digits : Nat
  exponent : Int
  deriving DecidableEq, Repr

/-- The positive number `mantissa · 2 ^ exponent`, as a double holds it. -/
structure Binary where
  mantissa : Nat
  exponent : Int
  deriving DecidableEq, Repr

def signBit : Nat := UInt64.size / 2

def leadingBit : Nat := 1 <<< 52

def powerOfTen (n : Nat) : Nat := Nat.pow 10 n

def Binary.ofBits (bits : Nat) : Binary :=
  let fraction := bits % leadingBit
  let biased := bits / leadingBit % 2048
  if biased = 0 then ⟨fraction, -1074⟩ else ⟨fraction + leadingBit, (biased : Int) - 1075⟩

/-- Where the power of two below is half as far away as the one above. -/
def Binary.AtStep (b : Binary) : Prop :=
  b.mantissa = leadingBit ∧ -1074 < b.exponent

instance (b : Binary) : Decidable b.AtStep :=
  inferInstanceAs (Decidable (_ ∧ _))

/-- The number and the ends of the interval that rounds to it, over one denominator. -/
structure Span where
  low : Nat
  value : Nat
  high : Nat
  denominator : Nat
  closed : Bool

def Binary.span (b : Binary) : Span :=
  let scale := 1 <<< b.exponent.toNat
  { low := (4 * b.mantissa - if b.AtStep then 1 else 2) * scale
    value := 4 * b.mantissa * scale
    high := (4 * b.mantissa + 2) * scale
    denominator := 4 <<< (-b.exponent).toNat
    closed := b.mantissa % 2 = 0 }

def decade (num den : Nat) : Int :=
  if den ≤ num then (Nat.toDigits 10 (num / den)).length - 1
  else
    let k := (Nat.toDigits 10 (den / num)).length
    if den ≤ num * powerOfTen (k - 1) then -(k - 1 : Int) else -k

def Span.admits (s : Span) (n : Nat) (e : Int) : Bool :=
  let up := powerOfTen (-e).toNat
  let x := n * powerOfTen e.toNat * s.denominator
  if s.closed then s.low * up ≤ x && x ≤ s.high * up else s.low * up < x && x < s.high * up

def Span.onGrid? (s : Span) (e : Int) : Option Nat :=
  let num := s.value * powerOfTen (-e).toNat
  let den := s.denominator * powerOfTen e.toNat
  let below := num / den
  match s.admits below e, s.admits (below + 1) e with
  | true, true =>
    let rest := 2 * (num % den)
    some (if rest < den ∨ (rest = den ∧ below % 2 = 0) then below else below + 1)
  | true, false => some below
  | false, true => some (below + 1)
  | false, false => none

def Span.shortestFrom (s : Span) : Nat → Int → Decimal
  | 0, e => ⟨s.value * powerOfTen (-e).toNat / (s.denominator * powerOfTen e.toNat), e⟩
  | k + 1, e => match s.onGrid? e with
    | some n => ⟨n, e⟩
    | none => s.shortestFrom k (e - 1)

def Decimal.trim : Nat → Decimal → Decimal
  | 0, d => d
  | k + 1, d =>
    if d.digits % 10 = 0 ∧ d.digits ≠ 0 then Decimal.trim k ⟨d.digits / 10, d.exponent + 1⟩ else d

def shortest (b : Binary) : Decimal :=
  let s := b.span
  Decimal.trim 18 (s.shortestFrom 17 (decade s.value s.denominator))

structure Style where
  isPositional : Int → Bool
  keepsPoint : Bool
  exponentText : Int → String

def Decimal.firstPower (d : Decimal) : Int :=
  d.exponent + (Nat.toDigits 10 d.digits).length - 1

def Decimal.positional (d : Decimal) (keepsPoint : Bool) : String :=
  let ds := Nat.toDigits 10 d.digits
  if 0 ≤ d.exponent then
    String.ofList (ds ++ List.replicate d.exponent.toNat '0') ++ if keepsPoint then ".0" else ""
  else
    let places := (-d.exponent).toNat
    let ds := List.replicate (places + 1 - ds.length) '0' ++ ds
    let point := ds.length - places
    String.ofList (ds.take point) ++ "." ++ String.ofList (ds.drop point)

def Decimal.scientific (d : Decimal) (exponentText : Int → String) : String :=
  let ds := Nat.toDigits 10 d.digits
  String.ofList (ds.take 1) ++ (if ds.length = 1 then "" else "." ++ String.ofList (ds.drop 1)) ++
    "e" ++ exponentText d.firstPower

def Style.text (style : Style) (f : Float) : String :=
  if f.isNaN then "NaN"
  else
    let bits := f.toBits.toNat
    let sign := if signBit ≤ bits then "-" else ""
    let bits := bits % signBit
    if f.isInf then sign ++ "inf"
    else if bits = 0 then sign ++ if style.keepsPoint then "0.0" else "0"
    else
      let d := shortest (.ofBits bits)
      sign ++ if style.isPositional d.firstPower then d.positional style.keepsPoint
        else d.scientific style.exponentText

def plain : Style := ⟨fun _ => true, false, toString⟩

def debug : Style := ⟨fun p => -4 ≤ p && p < 16, true, toString⟩

def signedExponent : Style :=
  ⟨fun p => -5 ≤ p && p < 16, true, fun e =>
    (if e < 0 then "-" else "+") ++ (if e.natAbs < 10 then "0" else "") ++ toString e.natAbs⟩

end CertLifecycle.Number
