import CertLifecycle.Text.Utf8

/-!
Padded base64 over the standard alphabet. `decode` takes exactly the texts that `encode` writes; a
refusal names the first fault from the left, groups of four before the last group.
-/

namespace CertLifecycle.Base64

inductive Error where
  | invalidByte (offset : Nat) (byte : UInt8)
  | invalidLength (length : Nat)
  | invalidLastSymbol (offset : Nat) (byte : UInt8)
  | invalidPadding
  deriving DecidableEq, Repr

def Error.message : Error → String
  | .invalidByte i b => "Invalid symbol " ++ toString b ++ ", offset " ++ toString i ++ "."
  | .invalidLength n => "Invalid input length: " ++ toString n
  | .invalidLastSymbol i b =>
    "Invalid last symbol " ++ toString b ++ ", offset " ++ toString i ++ "."
  | .invalidPadding => "Invalid padding"

def value? (b : UInt8) : Option Nat :=
  if 65 ≤ b ∧ b ≤ 90 then some (b.toNat - 65)
  else if 97 ≤ b ∧ b ≤ 122 then some (b.toNat - 71)
  else if 48 ≤ b ∧ b ≤ 57 then some (b.toNat + 4)
  else if b = 43 then some 62
  else if b = 47 then some 63
  else none

def symbol (n : Nat) : UInt8 :=
  UInt8.ofNat (if n < 26 then n + 65 else if n < 52 then n + 71 else if n < 62 then n - 4
    else if n = 62 then 43 else 47)

def pad : UInt8 := 61

def encode : Bytes → Bytes
  | [] => []
  | [a] => [symbol (a.toNat / 4), symbol (a.toNat % 4 * 16), pad, pad]
  | [a, b] =>
    [symbol (a.toNat / 4), symbol (a.toNat % 4 * 16 + b.toNat / 16), symbol (b.toNat % 16 * 4), pad]
  | a :: b :: c :: rest =>
    symbol (a.toNat / 4) :: symbol (a.toNat % 4 * 16 + b.toNat / 16) ::
      symbol (b.toNat % 16 * 4 + c.toNat / 64) :: symbol (c.toNat % 64) :: encode rest

def pack : List Nat → Bytes
  | a :: b :: rest =>
    UInt8.ofNat (a * 4 + b / 16) :: match rest with
      | [] => []
      | c :: rest => UInt8.ofNat (b % 16 * 16 + c / 4) :: match rest with
        | [] => []
        | d :: _ => [UInt8.ofNat (c % 4 * 64 + d)]
  | _ => []

def spareBits : List Nat → Nat
  | [_, b] => b % 16
  | [_, _, c] => c % 4
  | _ => 0

structure Tail where
  sextets : List Nat := []
  lastSymbol : UInt8 := 0
  padding : Nat := 0
  firstPad : Nat := 0

def readTail (offset : Nat) : Nat → Tail → Bytes → Except Error Tail
  | _, t, [] => .ok t
  | k, t, b :: bs =>
    if b = pad then
      if k < 2 then .error (.invalidByte (offset + k) b)
      else readTail offset (k + 1)
        { t with padding := t.padding + 1, firstPad := if t.padding = 0 then k else t.firstPad } bs
    else if 0 < t.padding then .error (.invalidByte (offset + t.firstPad) pad)
    else match value? b with
      | none => .error (.invalidByte (offset + k) b)
      | some v => readTail offset (k + 1) { t with sextets := t.sextets ++ [v], lastSymbol := b } bs

def decodeTail (offset : Nat) (bs : Bytes) : Except Error Bytes := do
  let t ← readTail offset 0 {} bs
  let n := t.sextets.length
  if bs ≠ [] ∧ n < 2 then throw (.invalidLength (offset + n))
  if (n + t.padding) % 4 ≠ 0 then throw .invalidPadding
  if spareBits t.sextets ≠ 0 then throw (.invalidLastSymbol (offset + n - 1) t.lastSymbol)
  return pack t.sextets

def readSymbol (offset : Nat) (b : UInt8) : Except Error Nat :=
  match value? b with
  | some v => .ok v
  | none => .error (.invalidByte offset b)

def decodeFrom (offset : Nat) : Bytes → Except Error Bytes
  | a :: b :: c :: d :: e :: rest => do
    let a ← readSymbol offset a
    let b ← readSymbol (offset + 1) b
    let c ← readSymbol (offset + 2) c
    let d ← readSymbol (offset + 3) d
    let more ← decodeFrom (offset + 4) (e :: rest)
    return pack [a, b, c, d] ++ more
  | bs => decodeTail offset bs

/-- A text one symbol over a whole number of groups is refused for that symbol first. -/
def strayEnd? (bs : Bytes) : Option Error :=
  if bs.length % 4 = 1 then
    match bs.getLast? with
    | some b => if b ≠ pad ∧ (value? b).isNone then some (.invalidByte (bs.length - 1) b) else none
    | none => none
  else none

def decode (bs : Bytes) : Except Error Bytes :=
  match strayEnd? bs with
  | some e => .error e
  | none => decodeFrom 0 bs

end CertLifecycle.Base64
