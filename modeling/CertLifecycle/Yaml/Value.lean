import CertLifecycle.Decoding.Error
import CertLifecycle.Number.Decimal
import CertLifecycle.Text.Characters

namespace CertLifecycle.Yaml

open Decoding (Found)

def isNullText (s : String) : Bool :=
  ["null", "Null", "NULL", "~"].contains s

def boolean? (s : String) : Option Bool :=
  if ["true", "True", "TRUE"].contains s then some true
  else if ["false", "False", "FALSE"].contains s then some false
  else none

def dropSign : List Char → List Char
  | '+' :: cs => cs
  | '-' :: cs => cs
  | cs => cs

def isZeroLed (cs : List Char) : Bool :=
  match dropSign cs with
  | '0' :: d :: ds => (d :: ds).all Char.isDigit
  | _ => false

def radixValue? (radix : Nat) (cs : List Char) : Option Nat :=
  if cs.isEmpty then none
  else cs.foldlM (fun n c => do
    let d ← Text.hexDigit? c
    if d < radix then some (radix * n + d) else none) 0

def natural? : List Char → Option Nat
  | '0' :: 'x' :: cs => radixValue? 16 cs
  | '0' :: 'o' :: cs => radixValue? 8 cs
  | '0' :: 'b' :: cs => radixValue? 2 cs
  | cs => if isZeroLed cs then none else radixValue? 10 cs

def unsigned? (text : List Char) : Option Nat :=
  match text with
  | '+' :: cs => natural? cs
  | cs => natural? cs

def integer? (bits : Nat) (text : List Char) : Option Int :=
  match text with
  | '-' :: cs => ((natural? cs).filter (· ≤ 1 <<< (bits - 1))).map fun n => -(n : Int)
  | cs => ((unsigned? cs).filter (· < 1 <<< bits)).map Int.ofNat

def float? (text : String) : Option Float :=
  let unsigned := match text.toList with
    | '+' :: cs => cs
    | cs => cs
  if text.toList ≠ unsigned ∧ (unsigned.head? = some '+' ∨ unsigned.head? = some '-') then none
  else if [".inf", ".Inf", ".INF"].contains (String.ofList unsigned) then some (1.0 / 0.0)
  else if ["-.inf", "-.Inf", "-.INF"].contains text then some (-1.0 / 0.0)
  else if [".nan", ".NaN", ".NAN"].contains text then some (0.0 / 0.0)
  else (Number.decimal? unsigned).filter Float.isFinite

def foundInteger? (text : String) : Option Found :=
  match integer? 64 text.toList with
  | some n => some (.integer n)
  | none => (integer? 128 text.toList).map .wideInteger

def foundPlain (text : String) : Found :=
  if text.isEmpty || isNullText text then .unit
  else match boolean? text, foundInteger? text with
    | some b, _ => .boolean b
    | none, some i => i
    | none, none =>
      match if isZeroLed text.toList then none else float? text with
      | some f => .float f
      | none => .string text

end CertLifecycle.Yaml
