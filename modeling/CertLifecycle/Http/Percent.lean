import CertLifecycle.Text.Characters
import CertLifecycle.Text.Utf8

namespace CertLifecycle.Http

def isControl (c : Char) : Bool := c < ' ' || '\x7f' ≤ c

def inUserinfo (c : Char) : Bool := isControl c || " \"<>`#?\x7b\x7d/:;=@[\\]^|".toList.contains c

def inPath (c : Char) : Bool := isControl c || " \"<>`#?\x7b\x7d".toList.contains c

def inQuery (c : Char) : Bool := isControl c || " \"#<>'".toList.contains c

def inFragment (c : Char) : Bool := isControl c || " \"<>`".toList.contains c

def upperHexDigit (n : Nat) : Char := (Nat.digitChar n).toUpper

def escapedByte (b : UInt8) : List Char :=
  ['%', upperHexDigit (b.toNat / 16), upperHexDigit (b.toNat % 16)]

def percentEncode (isEscaped : Char → Bool) (cs : List Char) : List Char :=
  cs.flatMap fun c =>
    if isEscaped c then (String.utf8EncodeChar c).flatMap escapedByte else [c]

def escape? : Bytes → Option (UInt8 × Bytes)
  | 37 :: high :: low :: bs =>
    (Text.hexByte? (Char.ofNat high.toNat) (Char.ofNat low.toNat)).map fun b => (b, bs)
  | _ => none

/-- Reads escapes; a percent sign that starts none stands for itself. `skipped` counts the digits
of an escape that is read. -/
def unescape : (skipped : Nat) → Bytes → Bytes
  | _, [] => []
  | k + 1, _ :: bs => unescape k bs
  | 0, b :: bs =>
    match escape? (b :: bs) with
    | some (d, _) => d :: unescape 2 bs
    | none => b :: unescape 0 bs

def percentDecode (cs : List Char) : Bytes :=
  unescape 0 (Utf8.encode (String.ofList cs))

end CertLifecycle.Http
