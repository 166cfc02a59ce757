import CertLifecycle.Text.Utf8

namespace CertLifecycle

namespace BigEndian

def toNat (bs : Bytes) : Nat :=
  bs.foldl (fun n b => n * 256 + b.toNat) 0

def ofNat : Nat → Nat → Bytes
  | 0, _ => []
  | width + 1, n => ofNat width (n / 256) ++ [UInt8.ofNat (n % 256)]

def groups (width : Nat) : Nat → Bytes → List Bytes
  | 0, _ => []
  | _, [] => []
  | fuel + 1, bs => bs.take width :: groups width fuel (bs.drop width)

end BigEndian

namespace Crypto

def powMod (m base exponent : Nat) : Nat :=
  if exponent = 0 then 1 % m
  else
    let half := powMod m (base * base % m) (exponent / 2)
    if exponent % 2 = 0 then half else half * base % m
termination_by exponent
decreasing_by omega

def inverseMod (p a : Nat) : Nat :=
  powMod p (a % p) (p - 2)

def subMod (p a b : Nat) : Nat :=
  (a + (p - b % p)) % p

def bitsOf (n : Nat) : List Bool :=
  if n = 0 then [] else bitsOf (n / 2) ++ [n % 2 == 1]
termination_by n
decreasing_by omega

end Crypto

end CertLifecycle
