import CertLifecycle.Number.Natural
import CertLifecycle.Crypto.Sha

namespace CertLifecycle.Crypto.Ed25519

def parityBit : Nat := 1 <<< 255

def p : Nat := parityBit - 19

def order : Nat := 1 <<< 252 + 27742317777372353535851937790883648493

def d : Nat :=
  0x52036CEE2B6FFE738CC740797779E89800700A4D4141D8AB75EB4DCA135978A3

def rootOfMinusOne : Nat :=
  0x2B8324804FC1DF0B2B4D00993DFBD7A72F431806AD2FE478C4EE1B274A0EA0B0

/-- The point `(x / z, y / z)` with `t = x·y / z`. -/
structure Point where
  x : Nat
  y : Nat
  z : Nat
  t : Nat

def neutral : Point := ⟨0, 1, 1, 0⟩

def ofAffine (x y : Nat) : Point :=
  ⟨x, y, 1, x * y % p⟩

def base : Point :=
  ofAffine 0x216936D3CD6E53FEC0A4E231FDD6DC5C692CC7609525A7B2C9562D608F25D51A
    0x6666666666666666666666666666666666666666666666666666666666666658

def add (q r : Point) : Point :=
  let a := subMod p q.y q.x * subMod p r.y r.x % p
  let b := (q.y + q.x) * (r.y + r.x) % p
  let c := 2 * d * (q.t * r.t % p) % p
  let e := 2 * (q.z * r.z) % p
  let f := subMod p b a
  let g := subMod p e c
  let h := e + c
  let k := b + a
  ⟨f * g % p, h * k % p, g * h % p, f * k % p⟩

def multiple (n : Nat) (q : Point) : Point :=
  (bitsOf n).foldl (fun acc bit => let acc := add acc acc; if bit then add acc q else acc) neutral

def negate (q : Point) : Point :=
  ⟨subMod p 0 q.x, q.y, q.z, subMod p 0 q.t⟩

def littleEndian (bs : Bytes) : Nat :=
  BigEndian.toNat bs.reverse

def root? (u v : Nat) : Option Nat :=
  let square := u * inverseMod p v % p
  let x := powMod p square ((p + 3) / 8)
  if x * x % p = square then some x
  else
    let x := x * rootOfMinusOne % p
    if x * x % p = square then some x else none

def readPoint? (bs : Bytes) : Option Point := do
  let n := littleEndian bs
  let y := n % parityBit % p
  let yy := y * y % p
  let x ← root? (subMod p yy 1) ((d * yy + 1) % p)
  let odd := n / parityBit
  return ofAffine (if x % 2 = odd then x else subMod p 0 x) y

def encode (q : Point) : Bytes :=
  let zi := inverseMod p q.z
  let x := q.x * zi % p
  let y := q.y * zi % p
  (BigEndian.ofNat 32 (y + x % 2 * parityBit)).reverse

def verify (key message signature : Bytes) : Bool :=
  (do
    if key.length ≠ 32 ∨ signature.length ≠ 64 then none
    let r := signature.take 32
    let s := littleEndian (signature.drop 32)
    if order ≤ s then none
    let a ← readPoint? key
    let h := littleEndian (sha512 (r ++ key ++ message)) % order
    return encode (add (multiple s base) (multiple h (negate a))) == r).getD false

end CertLifecycle.Crypto.Ed25519
