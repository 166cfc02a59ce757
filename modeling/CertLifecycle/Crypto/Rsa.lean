import CertLifecycle.Number.Natural
import CertLifecycle.Crypto.Sha
import CertLifecycle.Crypto.StrictDer

namespace CertLifecycle.Crypto.Rsa

inductive Digest where
  | sha1
  | sha256
  | sha384
  | sha512
  deriving DecidableEq, Repr

def Digest.hash : Digest → Bytes → Bytes
  | .sha1 => Crypto.sha1
  | .sha256 => Crypto.sha256
  | .sha384 => Crypto.sha384
  | .sha512 => Crypto.sha512

def Digest.size : Digest → Nat
  | .sha1 => 20
  | .sha256 => 32
  | .sha384 => 48
  | .sha512 => 64

structure PublicKey where
  modulus : Nat
  exponent : Nat
  size : Nat

def PublicKey.read? (minBits : Nat) (bs : Bytes) : Option PublicKey := do
  let (n, e) ← StrictDer.positivePair? bs
  let key : PublicKey := ⟨BigEndian.toNat n, BigEndian.toNat e, n.length⟩
  if minBits ≤ 8 * key.size ∧ 8 * key.size ≤ 8192 ∧ key.modulus % 2 = 1 ∧ 3 ≤ key.exponent ∧
      key.exponent < 1 <<< 33 ∧ key.exponent % 2 = 1 then
    some key
  else none

def PublicKey.open? (key : PublicKey) (signature : Bytes) : Option Bytes :=
  let s := BigEndian.toNat signature
  if signature.length = key.size ∧ s < key.modulus then
    some (BigEndian.ofNat key.size (powMod key.modulus s key.exponent))
  else none

def Digest.info : Digest → Bytes
  | .sha1 => [0x30, 0x21, 0x30, 0x09, 0x06, 0x05, 0x2B, 0x0E, 0x03, 0x02, 0x1A, 0x05, 0x00, 0x04, 0x14]
  | .sha256 => named 0x31 0x01 0x20
  | .sha384 => named 0x41 0x02 0x30
  | .sha512 => named 0x51 0x03 0x40
where
  named (total last size : UInt8) : Bytes :=
    [0x30, total, 0x30, 0x0D, 0x06, 0x09, 0x60, 0x86, 0x48, 0x01, 0x65, 0x03, 0x04, 0x02, last, 0x05,
      0x00, 0x04, size]

def pkcs1Padded (size : Nat) (d : Digest) (message : Bytes) : Bytes :=
  let body := d.info ++ d.hash message
  0 :: 1 :: (List.replicate (size - body.length - 3) 0xFF ++ 0 :: body)

def verifyPkcs1 (d : Digest) (minBits : Nat) (key message signature : Bytes) : Bool :=
  ((PublicKey.read? minBits key).bind fun key => do
    return (← key.open? signature) == pkcs1Padded key.size d message).getD false

def mask (d : Digest) (seed : Bytes) (length : Nat) : Bytes :=
  ((List.range (length / d.size + 1)).flatMap fun i =>
    d.hash (seed ++ BigEndian.ofNat 4 i)).take length

def bitLength (n : Nat) : Nat :=
  (bitsOf n).length

def xorBytes (a b : Bytes) : Bytes :=
  List.zipWith (· ^^^ ·) a b

def isPssPadded (d : Digest) (emBits : Nat) (em message : Bytes) : Bool :=
  let emLength := (emBits + 7) / 8
  let hash := d.size
  if emLength < 2 * hash + 2 then false
  else
    let maskedLength := emLength - hash - 1
    let masked := em.take maskedLength
    let h := (em.drop maskedLength).take hash
    let spare := 8 * emLength - emBits
    let inRange := match masked with
      | b :: _ => b.toNat < 1 <<< (8 - spare)
      | [] => false
    let db := match xorBytes masked (mask d h maskedLength) with
      | b :: bs => UInt8.ofNat (b.toNat % (1 <<< (8 - spare))) :: bs
      | [] => []
    let zeros := maskedLength - hash - 1
    let salt := db.drop (zeros + 1)
    em.getLast? == some 0xBC && inRange && db.take zeros == List.replicate zeros 0 &&
      db[zeros]? == some 1 &&
      d.hash (List.replicate 8 0 ++ d.hash message ++ salt) == h

def verifyPss (d : Digest) (minBits : Nat) (key message signature : Bytes) : Bool :=
  ((PublicKey.read? minBits key).bind fun key => do
    let em ← key.open? signature
    let emBits := bitLength key.modulus - 1
    let em := if emBits % 8 = 0 then (if em.head? = some 0 then em.tail else []) else em
    return isPssPadded d emBits em message).getD false

end CertLifecycle.Crypto.Rsa
