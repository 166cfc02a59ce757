import CertLifecycle.Number.Natural

namespace CertLifecycle.Crypto.StrictDer

def length? : Bytes → Option (Nat × Bytes)
  | [] => none
  | 0x81 :: b :: bs => if 128 ≤ b then some (b.toNat, bs) else none
  | 0x82 :: a :: b :: bs => if a ≠ 0 then some (a.toNat * 256 + b.toNat, bs) else none
  | b :: bs => if b < 128 then some (b.toNat, bs) else none

def content? (tag : UInt8) : Bytes → Option (Bytes × Bytes)
  | [] => none
  | t :: bs => do
    if t ≠ tag then none
    let (n, rest) ← length? bs
    if rest.length < n then none
    return (rest.take n, rest.drop n)

def positive? (bs : Bytes) : Option (Bytes × Bytes) := do
  let (c, rest) ← content? 0x02 bs
  match c with
  | [] => none
  | [b] => if 0 < b ∧ b < 128 then return (c, rest) else none
  | 0 :: b :: c => if 128 ≤ b then return (b :: c, rest) else none
  | b :: _ => if b < 128 then return (c, rest) else none

def positivePair? (bs : Bytes) : Option (Bytes × Bytes) := do
  let (c, []) ← content? 0x30 bs | none
  let (a, c) ← positive? c
  let (b, []) ← positive? c | none
  return (a, b)

end CertLifecycle.Crypto.StrictDer
