namespace CertLifecycle

abbrev Bytes := List UInt8

namespace Utf8

/-- `badLength` is absent where the text ends inside a character. -/
structure Fault where
  validUpTo : Nat
  badLength : Option Nat
  deriving DecidableEq, Repr

def Fault.message : Fault → String
  | ⟨n, some k⟩ => "invalid utf-8 sequence of " ++ toString k ++ " bytes from index " ++ toString n
  | ⟨n, none⟩ => "incomplete utf-8 byte sequence from index " ++ toString n

def continuation? (lead : UInt8) : Option (Nat × UInt8 × UInt8) :=
  if 0xC2 ≤ lead ∧ lead ≤ 0xDF then some (0, 0x80, 0xBF)
  else if lead = 0xE0 then some (1, 0xA0, 0xBF)
  else if lead = 0xED then some (1, 0x80, 0x9F)
  else if 0xE1 ≤ lead ∧ lead ≤ 0xEF then some (1, 0x80, 0xBF)
  else if lead = 0xF0 then some (2, 0x90, 0xBF)
  else if 0xF1 ≤ lead ∧ lead ≤ 0xF3 then some (2, 0x80, 0xBF)
  else if lead = 0xF4 then some (2, 0x80, 0x8F)
  else none

def leadBits (lead : UInt8) (n : Nat) : Nat :=
  lead.toNat % (1 <<< (5 - n))

/-- The state of a character that still lacks bytes: where it starts, how many of its bytes are
read, how many follow the next one, the next one's range, and the bits so far. -/
structure Open where
  start : Nat
  seen : Nat
  more : Nat
  lo : UInt8
  hi : UInt8
  bits : Nat

def scan : Option Open → Nat → Bytes → Except Fault (List Char)
  | none, _, [] => .ok []
  | some o, _, [] => .error ⟨o.start, none⟩
  | none, i, b :: bs =>
    if b < 0x80 then (scan none (i + 1) bs).map (Char.ofNat b.toNat :: ·)
    else match continuation? b with
      | none => .error ⟨i, some 1⟩
      | some (n, lo, hi) => scan (some ⟨i, 1, n, lo, hi, leadBits b n⟩) (i + 1) bs
  | some o, i, b :: bs =>
    if o.lo ≤ b ∧ b ≤ o.hi then
      let bits := o.bits * 64 + b.toNat % 64
      match o.more with
      | 0 => (scan none (i + 1) bs).map (Char.ofNat bits :: ·)
      | n + 1 => scan (some ⟨o.start, o.seen + 1, n, 0x80, 0xBF, bits⟩) (i + 1) bs
    else .error ⟨o.start, some o.seen⟩

def decode (bs : Bytes) : Except Fault String :=
  (scan none 0 bs).map String.ofList

def decode? (bs : Bytes) : Option String :=
  (decode bs).toOption

def encode (s : String) : Bytes :=
  s.toList.flatMap String.utf8EncodeChar

end Utf8

def hexPairs (bs : Bytes) : List String :=
  bs.map fun b => String.ofList [Nat.digitChar (b.toNat / 16), Nat.digitChar (b.toNat % 16)]

end CertLifecycle
