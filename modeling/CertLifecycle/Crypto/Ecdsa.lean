import CertLifecycle.Number.Natural
import CertLifecycle.Crypto.StrictDer

namespace CertLifecycle.Crypto.Ecdsa

structure Curve where
  size : Nat
  p : Nat
  b : Nat
  order : Nat
  gx : Nat
  gy : Nat

def p256 : Curve where
  size := 32
  p := 0xFFFFFFFF00000001000000000000000000000000FFFFFFFFFFFFFFFFFFFFFFFF
  b := 0x5AC635D8AA3A93E7B3EBBD55769886BC651D06B0CC53B0F63BCE3C3E27D2604B
  order := 0xFFFFFFFF00000000FFFFFFFFFFFFFFFFBCE6FAADA7179E84F3B9CAC2FC632551
  gx := 0x6B17D1F2E12C4247F8BCE6E563A440F277037D812DEB33A0F4A13945D898C296
  gy := 0x4FE342E2FE1A7F9B8EE7EB4A7C0F9E162BCE33576B315ECECBB6406837BF51F5

def p384 : Curve where
  size := 48
  p := 0xFFFFFFFFFFFFFFFFFFFFFFFFFFFFFFFFFFFFFFFFFFFFFFFFFFFFFFFFFFFFFFFEFFFFFFFF0000000000000000FFFFFFFF
  b := 0xB3312FA7E23EE7E4988E056BE3F82D19181D9C6EFE8141120314088F5013875AC656398D8A2ED19D2A85C8EDD3EC2AEF
  order := 0xFFFFFFFFFFFFFFFFFFFFFFFFFFFFFFFFFFFFFFFFFFFFFFFFC7634D81F4372DDF581A0DB248B0A77AECEC196ACCC52973
  gx := 0xAA87CA22BE8B05378EB1C71EF320AD746E1D3B628BA79B9859F741E082542A385502F25DBF55296C3A545E3872760AB7
  gy := 0x3617DE4A96262C6F5D9E98BF9292DC29F8F41DBD289A147CE9DA3113B5F0B8C00A60B1CE1D7E819D7A431D7C90EA0E5F

/-- The point `(x / z², y / z³)`; the neutral point has `z = 0`. -/
structure Point where
  x : Nat
  y : Nat
  z : Nat

def neutral : Point := ⟨1, 1, 0⟩

variable (c : Curve)

def double (q : Point) : Point :=
  if q.z = 0 ∨ q.y = 0 then neutral
  else
    let zz := q.z * q.z % c.p
    let yy := q.y * q.y % c.p
    let s := 4 * q.x * yy % c.p
    let m := 3 * (subMod c.p q.x zz * (q.x + zz)) % c.p
    let x := subMod c.p (m * m) (2 * s)
    ⟨x, subMod c.p (m * subMod c.p s x) (8 * (yy * yy)), 2 * q.y * q.z % c.p⟩

def add (q r : Point) : Point :=
  if q.z = 0 then r
  else if r.z = 0 then q
  else
    let qz := q.z * q.z % c.p
    let rz := r.z * r.z % c.p
    let u := q.x * rz % c.p
    let v := r.x * qz % c.p
    let s := q.y * (rz * r.z % c.p) % c.p
    let t := r.y * (qz * q.z % c.p) % c.p
    if u = v then if s = t then double c q else neutral
    else
      let h := subMod c.p v u
      let w := subMod c.p t s
      let hh := h * h % c.p
      let hhh := h * hh % c.p
      let uhh := u * hh % c.p
      let x := subMod c.p (subMod c.p (w * w) hhh) (2 * uhh)
      ⟨x, subMod c.p (w * subMod c.p uhh x) (s * hhh), h * (q.z * r.z % c.p) % c.p⟩

def combine (g q : Point) (m n : Nat) : Point :=
  let both := add c g q
  let ms := bitsOf m
  let ns := bitsOf n
  let width := max ms.length ns.length
  let ms := List.replicate (width - ms.length) false ++ ms
  let ns := List.replicate (width - ns.length) false ++ ns
  (ms.zip ns).foldl (fun acc bits =>
    let acc := double c acc
    match bits with
    | (true, true) => add c acc both
    | (true, false) => add c acc g
    | (false, true) => add c acc q
    | (false, false) => acc) neutral

def readPoint? (bs : Bytes) : Option Point :=
  match bs with
  | 4 :: bs =>
    let x := BigEndian.toNat (bs.take c.size)
    let y := BigEndian.toNat (bs.drop c.size)
    if bs.length = 2 * c.size ∧ x < c.p ∧ y < c.p ∧
        y * y % c.p = subMod c.p (x * x * x + c.b) (3 * x) then
      some ⟨x, y, 1⟩
    else none
  | _ => none

def readScalar? (bs : Bytes) : Option Nat :=
  let n := BigEndian.toNat bs
  if bs.length ≤ c.size ∧ 0 < n ∧ n < c.order then some n else none

def verify (hash : Bytes → Bytes) (key message signature : Bytes) : Bool :=
  (do
    let q ← readPoint? c key
    let (r, s) ← StrictDer.positivePair? signature
    let r ← readScalar? c r
    let s ← readScalar? c s
    let z := BigEndian.toNat ((hash message).take c.size)
    let w := inverseMod c.order s
    let sum := combine c ⟨c.gx, c.gy, 1⟩ q (z * w % c.order) (r * w % c.order)
    if sum.z = 0 then none
    let zi := inverseMod c.p sum.z
    return sum.x * (zi * zi % c.p) % c.p % c.order == r).getD false

end CertLifecycle.Crypto.Ecdsa
