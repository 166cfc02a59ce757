import CertLifecycle.Http.HostTable
import CertLifecycle.Http.Percent
import CertLifecycle.Http.Punycode
import CertLifecycle.Text.Printable

namespace CertLifecycle.Http

inductive Host where
  | domain (name : String)
  | ipv4 (address : Nat)
  | ipv6 (pieces : List Nat)
  deriving DecidableEq, Repr

namespace Ipv4

def isDigitOf (radix : Nat) (c : Char) : Bool :=
  (Text.hexDigit? c).any (· < radix)

def value (radix : Nat) (ds : List Char) : Nat :=
  ds.foldl (fun n d => radix * n + (Text.hexDigit? d).getD 0) 0

def number? : List Char → Option Nat
  | [] => none
  | '0' :: 'x' :: ds => if ds.all (isDigitOf 16) then some (value 16 ds) else none
  | '0' :: 'X' :: ds => if ds.all (isDigitOf 16) then some (value 16 ds) else none
  | '0' :: d :: ds => if (d :: ds).all (isDigitOf 8) then some (value 8 (d :: ds)) else none
  | ds => if ds.all (isDigitOf 10) then some (value 10 ds) else none

def parts (name : List Char) : List (List Char) :=
  match (name.splitOn '.').reverse with
  | [] :: p :: ps => (p :: ps).reverse
  | ps => ps.reverse

def isNumeric (name : List Char) : Bool :=
  ((parts name).getLast?.map fun p =>
    (!p.isEmpty && p.all (isDigitOf 10)) || (number? p).isSome).getD false

def address? (name : List Char) : Option Nat := do
  let ns ← (parts name).mapM number?
  let last ← ns.getLast?
  let bytes := ns.dropLast
  let room := 1 <<< (8 * (4 - bytes.length))
  if 3 < bytes.length ∨ bytes.any (255 < ·) ∨ room ≤ last then none
  else some (bytes.foldl (fun n b => 256 * n + b) 0 * room + last)

def dotted? (cs : List Char) : Option Nat := do
  let ps := cs.splitOn '.'
  let ns ← ps.mapM fun p =>
    if p.isEmpty ∨ !p.all Char.isDigit ∨ (1 < p.length ∧ p.head? = some '0') ∨ 255 < value 10 p then
      none
    else some (value 10 p)
  if ns.length = 4 then some (ns.foldl (fun n b => 256 * n + b) 0) else none

end Ipv4

namespace Ipv6

def piece? (cs : List Char) : Option Nat :=
  if cs.isEmpty ∨ 4 < cs.length ∨ !cs.all (Ipv4.isDigitOf 16) then none
  else some (Ipv4.value 16 cs)

def pieces? (mayEndInBytes : Bool) (ps : List (List Char)) : Option (List Nat) :=
  match ps with
  | [] => some []
  | [p] =>
    match piece? p with
    | some n => some [n]
    | none =>
      if mayEndInBytes then (Ipv4.dotted? p).map fun n => [n / 65536, n % 65536] else none
  | p :: ps => do return (← piece? p) :: (← pieces? mayEndInBytes ps)

def sections (cs : List Char) : List (List Char) :=
  if cs.isEmpty then [] else cs.splitOn ':'

def splitAtGap? : List Char → Option (List Char × List Char)
  | ':' :: ':' :: cs => some ([], cs)
  | c :: cs => (splitAtGap? cs).map fun (before, after) => (c :: before, after)
  | [] => none

def address? (cs : List Char) : Option (List Nat) :=
  match splitAtGap? cs with
  | none => (pieces? true (sections cs)).filter (·.length = 8)
  | some (before, after) => do
    let left ← pieces? false (sections before)
    let right ← pieces? true (sections after)
    let n := left.length + right.length
    if 7 < n then none else some (left ++ List.replicate (8 - n) 0 ++ right)

end Ipv6

namespace Host

def isForbidden (c : Char) : Bool :=
  c ≤ ' ' || c = '\x7f' || "%#/:<>?@[\\]^|".toList.contains c

def folded (c : Char) : Option Char :=
  if inRanges ignoredRanges c then none
  else if c = '\u3002' ∨ c = '\uff61' then some '.'
  else if '\uff01' ≤ c ∧ c ≤ '\uff5e' then some (Char.ofNat (c.toNat - 0xFEE0)).toLower
  else some c.toLower

def isRefused (c : Char) : Bool :=
  isForbidden c || inRanges refusedRanges c

def isLabel (cs : List Char) : Bool :=
  match cs with
  | 'x' :: 'n' :: '-' :: '-' :: coded =>
    match Punycode.decode? coded with
    | some ds => ds.any ('\x7f' < ·) && ds.all (fun c => folded c = some c && !isRefused c)
        && ds.head?.all Text.isPrintable
    | none => false
  | cs => cs.head?.all fun c => c ≤ '\x7f' || Text.isPrintable c

def domain? (cs : List Char) : Option (List Char) := do
  let text ← Utf8.decode? (percentDecode cs)
  let name := text.toList.filterMap folded
  if name.isEmpty ∨ name.any isRefused ∨ !(name.splitOn '.').all isLabel then none else some name

def bracketed? (cs : List Char) : Option Host :=
  if cs.getLast? = some ']' then (Ipv6.address? cs.dropLast).map .ipv6 else none

def ofText? (cs : List Char) : Option Host :=
  match cs with
  | '[' :: cs => bracketed? cs
  | cs => do
    let name ← domain? cs
    if Ipv4.isNumeric name then (Ipv4.address? name).map .ipv4
    else some (.domain (String.ofList name))

def isForbiddenAnywhere (c : Char) : Bool :=
  c = '\x00' || " #/:<>?@[\\]^|".toList.contains c

def ofOther? (cs : List Char) : Option Host :=
  match cs with
  | '[' :: cs => bracketed? cs
  | cs =>
    if cs.any isForbiddenAnywhere then none
    else some (.domain (String.ofList (percentEncode isControl cs)))

def ipv4Text (n : Nat) : String :=
  ".".intercalate ([n / 16777216, n / 65536 % 256, n / 256 % 256, n % 256].map toString)

def pieceText (n : Nat) : String := String.ofList (Nat.toDigits 16 n)

def longestGap : (index : Nat) → (run : Nat) → (best : Nat × Nat) → List Nat → Nat × Nat
  | _, _, best, [] => best
  | i, run, best, n :: ns =>
    if n = 0 then
      let run := run + 1
      longestGap (i + 1) run (if best.2 < run then (i + 1 - run, run) else best) ns
    else longestGap (i + 1) 0 best ns

def ipv6Text (ps : List Nat) : String :=
  let (at_, n) := longestGap 0 0 (0, 0) ps
  let text := fun (ps : List Nat) => ":".intercalate (ps.map pieceText)
  if n < 2 then text ps else text (ps.take at_) ++ "::" ++ text (ps.drop (at_ + n))

def text : Host → String
  | .domain name => name
  | .ipv4 n => ipv4Text n
  | .ipv6 ps => "[" ++ ipv6Text ps ++ "]"

end Host

end CertLifecycle.Http
