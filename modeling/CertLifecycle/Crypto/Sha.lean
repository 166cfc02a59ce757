import CertLifecycle.Number.Natural

namespace CertLifecycle.Crypto

def padded (block : Nat) (message : Bytes) : Bytes :=
  let field := block / 8
  let zeros := (2 * block - (message.length + 1 + field) % block) % block
  message ++ 0x80 :: (List.replicate zeros 0 ++ BigEndian.ofNat field (message.length * 8))

def blocks (block : Nat) (bs : Bytes) : List Bytes :=
  BigEndian.groups block bs.length bs

def words32 (bs : Bytes) : Array UInt32 :=
  ((BigEndian.groups 4 bs.length bs).map fun g => (BigEndian.toNat g).toUInt32).toArray

def words64 (bs : Bytes) : Array UInt64 :=
  ((BigEndian.groups 8 bs.length bs).map fun g => (BigEndian.toNat g).toUInt64).toArray

namespace Sha1

def rotate (x n : UInt32) : UInt32 :=
  x <<< n ||| x >>> (32 - n)

structure State where
  a : UInt32
  b : UInt32
  c : UInt32
  d : UInt32
  e : UInt32

def initial : State :=
  ⟨0x67452301, 0xEFCDAB89, 0x98BADCFE, 0x10325476, 0xC3D2E1F0⟩

def roundFunction (t : Nat) (b c d : UInt32) : UInt32 :=
  if t < 20 then (b &&& c) ||| (~~~b &&& d)
  else if t < 40 then b ^^^ c ^^^ d
  else if t < 60 then (b &&& c) ||| (b &&& d) ||| (c &&& d)
  else b ^^^ c ^^^ d

def roundConstant (t : Nat) : UInt32 :=
  if t < 20 then 0x5A827999 else if t < 40 then 0x6ED9EBA1 else if t < 60 then 0x8F1BBCDC
  else 0xCA62C1D6

def schedule (block : Array UInt32) : Array UInt32 :=
  (List.range 64).foldl (fun w i => w.push
    (rotate (w.getD (i + 13) 0 ^^^ w.getD (i + 8) 0 ^^^ w.getD (i + 2) 0 ^^^ w.getD i 0) 1)) block

def step (w : Array UInt32) (s : State) (t : Nat) : State :=
  let x := rotate s.a 5 + roundFunction t s.b s.c s.d + s.e + roundConstant t + w.getD t 0
  ⟨x, s.a, rotate s.b 30, s.c, s.d⟩

def compress (s : State) (block : Bytes) : State :=
  let w := schedule (words32 block)
  let r := (List.range 80).foldl (step w) s
  ⟨s.a + r.a, s.b + r.b, s.c + r.c, s.d + r.d, s.e + r.e⟩

end Sha1

def sha1 (message : Bytes) : Bytes :=
  let s := (blocks 64 (padded 64 message)).foldl Sha1.compress Sha1.initial
  [s.a, s.b, s.c, s.d, s.e].flatMap fun x => BigEndian.ofNat 4 x.toNat

namespace Sha2

def constants : Array UInt64 := #[
   0x428A2F98D728AE22, 0x7137449123EF65CD, 0xB5C0FBCFEC4D3B2F, 0xE9B5DBA58189DBBC,
   0x3956C25BF348B538, 0x59F111F1B605D019, 0x923F82A4AF194F9B, 0xAB1C5ED5DA6D8118,
   0xD807AA98A3030242, 0x12835B0145706FBE, 0x243185BE4EE4B28C, 0x550C7DC3D5FFB4E2,
   0x72BE5D74F27B896F, 0x80DEB1FE3B1696B1, 0x9BDC06A725C71235, 0xC19BF174CF692694,
   0xE49B69C19EF14AD2, 0xEFBE4786384F25E3, 0x0FC19DC68B8CD5B5, 0x240CA1CC77AC9C65,
   0x2DE92C6F592B0275, 0x4A7484AA6EA6E483, 0x5CB0A9DCBD41FBD4, 0x76F988DA831153B5,
   0x983E5152EE66DFAB, 0xA831C66D2DB43210, 0xB00327C898FB213F, 0xBF597FC7BEEF0EE4,
   0xC6E00BF33DA88FC2, 0xD5A79147930AA725, 0x06CA6351E003826F, 0x142929670A0E6E70,
   0x27B70A8546D22FFC, 0x2E1B21385C26C926, 0x4D2C6DFC5AC42AED, 0x53380D139D95B3DF,
   0x650A73548BAF63DE, 0x766A0ABB3C77B2A8, 0x81C2C92E47EDAEE6, 0x92722C851482353B,
   0xA2BFE8A14CF10364, 0xA81A664BBC423001, 0xC24B8B70D0F89791, 0xC76C51A30654BE30,
   0xD192E819D6EF5218, 0xD69906245565A910, 0xF40E35855771202A, 0x106AA07032BBD1B8,
   0x19A4C116B8D2D0C8, 0x1E376C085141AB53, 0x2748774CDF8EEB99, 0x34B0BCB5E19B48A8,
   0x391C0CB3C5C95A63, 0x4ED8AA4AE3418ACB, 0x5B9CCA4F7763E373, 0x682E6FF3D6B2B8A3,
   0x748F82EE5DEFB2FC, 0x78A5636F43172F60, 0x84C87814A1F0AB72, 0x8CC702081A6439EC,
   0x90BEFFFA23631E28, 0xA4506CEBDE82BDE9, 0xBEF9A3F7B2C67915, 0xC67178F2E372532B,
   0xCA273ECEEA26619C, 0xD186B8C721C0C207, 0xEADA7DD6CDE0EB1E, 0xF57D4F7FEE6ED178,
   0x06F067AA72176FBA, 0x0A637DC5A2C898A6, 0x113F9804BEF90DAE, 0x1B710B35131C471B,
   0x28DB77F523047D84, 0x32CAAB7B40C72493, 0x3C9EBE0A15C9BEBC, 0x431D67C49C100D4C,
   0x4CC5D4BECB3E42B6, 0x597F299CFC657E2A, 0x5FCB6FAB3AD6FAEC, 0x6C44198C4A475817]

structure State (α : Type) where
  a : α
  b : α
  c : α
  d : α
  e : α
  f : α
  g : α
  h : α

def State.toList {α : Type} (s : State α) : List α :=
  [s.a, s.b, s.c, s.d, s.e, s.f, s.g, s.h]

def State.add {α : Type} [Add α] (s t : State α) : State α :=
  ⟨s.a + t.a, s.b + t.b, s.c + t.c, s.d + t.d, s.e + t.e, s.f + t.f, s.g + t.g, s.h + t.h⟩

def State.step {α : Type} [Add α] [AndOp α] [XorOp α] [Complement α] (sum0 sum1 : α → α)
    (s : State α) (x : α) : State α :=
  let choice := (s.e &&& s.f) ^^^ (~~~s.e &&& s.g)
  let majority := (s.a &&& s.b) ^^^ (s.a &&& s.c) ^^^ (s.b &&& s.c)
  let t := s.h + sum1 s.e + choice + x
  ⟨t + (sum0 s.a + majority), s.a, s.b, s.c, s.d + t, s.e, s.f, s.g⟩

namespace Short

def rotate (n x : UInt32) : UInt32 := x >>> n ||| x <<< (32 - n)

def sum0 (x : UInt32) : UInt32 := rotate 2 x ^^^ rotate 13 x ^^^ rotate 22 x

def sum1 (x : UInt32) : UInt32 := rotate 6 x ^^^ rotate 11 x ^^^ rotate 25 x

def mix0 (x : UInt32) : UInt32 := rotate 7 x ^^^ rotate 18 x ^^^ x >>> 3

def mix1 (x : UInt32) : UInt32 := rotate 17 x ^^^ rotate 19 x ^^^ x >>> 10

def schedule (block : Array UInt32) : Array UInt32 :=
  (List.range 48).foldl (fun w i => w.push
    (w.getD i 0 + mix0 (w.getD (i + 1) 0) + w.getD (i + 9) 0 + mix1 (w.getD (i + 14) 0))) block

def initial : State UInt32 :=
  ⟨0x6A09E667, 0xBB67AE85, 0x3C6EF372, 0xA54FF53A,
   0x510E527F, 0x9B05688C, 0x1F83D9AB, 0x5BE0CD19⟩

def compress (s : State UInt32) (block : Bytes) : State UInt32 :=
  let w := schedule (words32 block)
  s.add ((List.range 64).foldl (fun s t =>
    s.step sum0 sum1 (w.getD t 0 + (constants.getD t 0 >>> 32).toUInt32)) s)

end Short

namespace Long

def rotate (n x : UInt64) : UInt64 := x >>> n ||| x <<< (64 - n)

def sum0 (x : UInt64) : UInt64 := rotate 28 x ^^^ rotate 34 x ^^^ rotate 39 x

def sum1 (x : UInt64) : UInt64 := rotate 14 x ^^^ rotate 18 x ^^^ rotate 41 x

def mix0 (x : UInt64) : UInt64 := rotate 1 x ^^^ rotate 8 x ^^^ x >>> 7

def mix1 (x : UInt64) : UInt64 := rotate 19 x ^^^ rotate 61 x ^^^ x >>> 6

def schedule (block : Array UInt64) : Array UInt64 :=
  (List.range 64).foldl (fun w i => w.push
    (w.getD i 0 + mix0 (w.getD (i + 1) 0) + w.getD (i + 9) 0 + mix1 (w.getD (i + 14) 0))) block

def initial384 : State UInt64 :=
  ⟨0xCBBB9D5DC1059ED8, 0x629A292A367CD507, 0x9159015A3070DD17, 0x152FECD8F70E5939,
   0x67332667FFC00B31, 0x8EB44A8768581511, 0xDB0C2E0D64F98FA7, 0x47B5481DBEFA4FA4⟩

def initial512 : State UInt64 :=
  ⟨0x6A09E667F3BCC908, 0xBB67AE8584CAA73B, 0x3C6EF372FE94F82B, 0xA54FF53A5F1D36F1,
   0x510E527FADE682D1, 0x9B05688C2B3E6C1F, 0x1F83D9ABFB41BD6B, 0x5BE0CD19137E2179⟩

def compress (s : State UInt64) (block : Bytes) : State UInt64 :=
  let w := schedule (words64 block)
  s.add ((List.range 80).foldl (fun s t => s.step sum0 sum1 (w.getD t 0 + constants.getD t 0)) s)

def digest (initial : State UInt64) (message : Bytes) : Bytes :=
  ((blocks 128 (padded 128 message)).foldl compress initial).toList.flatMap fun x =>
    BigEndian.ofNat 8 x.toNat

end Long

end Sha2

def sha256 (message : Bytes) : Bytes :=
  ((blocks 64 (padded 64 message)).foldl Sha2.Short.compress Sha2.Short.initial).toList.flatMap
    fun x => BigEndian.ofNat 4 x.toNat

def sha384 (message : Bytes) : Bytes :=
  (Sha2.Long.digest Sha2.Long.initial384 message).take 48

def sha512 (message : Bytes) : Bytes :=
  Sha2.Long.digest Sha2.Long.initial512 message

end CertLifecycle.Crypto
