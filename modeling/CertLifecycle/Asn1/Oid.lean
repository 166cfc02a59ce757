import CertLifecycle.Asn1.Element

namespace CertLifecycle.Asn1

structure Oid where
  content : Bytes
  deriving DecidableEq, Repr

def subidentifiers : Nat → Bool → Bytes → List Nat
  | n, inside, [] => if inside then [n] else []
  | n, _, b :: bs =>
    let n := n * 128 + b.toNat % 128
    if b < 128 then n :: subidentifiers 0 false bs else subidentifiers n true bs

def Oid.arcs (o : Oid) : List Nat :=
  match o.content with
  | [] => []
  | [0] => [0]
  | b :: bs => b.toNat / 40 :: b.toNat % 40 :: subidentifiers 0 false bs

def Oid.dotted (o : Oid) : String :=
  ".".intercalate (o.arcs.map toString)

def septets : Nat → Nat → List Nat
  | 0, _ => []
  | k + 1, n => if n < 128 then [n] else septets k (n / 128) ++ [n % 128]

def encodeArc (n : Nat) : Bytes :=
  let digits := septets 10 n
  (digits.dropLast.map fun d => UInt8.ofNat (d + 128)) ++ digits.getLast?.toList.map UInt8.ofNat

def Oid.ofArcs : List Nat → Oid
  | a :: b :: rest => ⟨UInt8.ofNat (a * 40 + b) :: rest.flatMap encodeArc⟩
  | _ => ⟨[]⟩

def Oid.read? (bs : Bytes) : Option (Oid × Bytes) := do
  let (e, rest) ← Element.read? bs
  if e.constructed then none
  return (⟨e.content⟩, rest)

end CertLifecycle.Asn1
