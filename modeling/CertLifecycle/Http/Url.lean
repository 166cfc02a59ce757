import CertLifecycle.Http.Host

/-!
URLs: what a text means, alone or where another URL is at hand, and how it is written. Blanks around
the text, and tabs and line ends in it, do not count.
-/

namespace CertLifecycle.Http

inductive UrlPath where
  | rooted (segments : List String)
  | bare (text : String)
  deriving DecidableEq, Repr

structure Url where
  scheme : String
  username : String := ""
  password : String := ""
  host : Option Host := none
  portNumber : Option Nat := none
  path : UrlPath
  query : Option String := none
  fragment : Option String := none
  deriving DecidableEq, Repr

namespace Url

def defaultPortNumber? (scheme : String) : Option Nat :=
  match scheme with
  | "http" | "ws" => some 80
  | "https" | "wss" => some 443
  | "ftp" => some 21
  | _ => none

inductive SchemeKind where
  | hosted
  | file
  | other
  deriving DecidableEq, Repr

def schemeKind (scheme : String) : SchemeKind :=
  if (defaultPortNumber? scheme).isSome then .hosted else if scheme = "file" then .file else .other

namespace SchemeKind

def isSlash (k : SchemeKind) (c : Char) : Bool :=
  c = '/' || (c = '\\' && k ≠ .other)

def endsAuthority (k : SchemeKind) (c : Char) : Bool :=
  k.isSlash c || c = '?' || c = '#'

end SchemeKind

def cleaned (s : String) : List Char :=
  let isOuter := fun c : Char => c ≤ ' '
  let cs := ((s.toList.dropWhile isOuter).reverse.dropWhile isOuter).reverse
  cs.filter fun c => c ≠ '\t' && c ≠ '\n' && c ≠ '\r'

def isSchemeChar (c : Char) : Bool :=
  c.isAlphanum || c = '+' || c = '-' || c = '.'

def scheme? (cs : List Char) : Option (String × List Char) :=
  match cs.dropWhile isSchemeChar with
  | ':' :: rest =>
    if (cs.head?.map Char.isAlpha).getD false then
      some (String.ofList ((cs.takeWhile isSchemeChar).map Char.toLower), rest)
    else none
  | _ => none

structure Authority where
  username : String
  password : String
  host : Host
  portNumber : Option Nat

def userinfo? (k : SchemeKind) (cs : List Char) : Option (String × String × List Char) :=
  let authority := cs.takeWhile (!k.endsAuthority ·)
  if '@' ∈ authority then
    let hostLength := (authority.reverse.takeWhile (· ≠ '@')).length
    let info := authority.take (authority.length - hostLength - 1)
    let rest := cs.drop (info.length + 1)
    if info.isEmpty ∧ (rest.head?.map k.endsAuthority).getD false then none
    else
      let written := fun cs => String.ofList (percentEncode inUserinfo cs)
      some (written (info.takeWhile (· ≠ ':')), written (info.dropWhile (· ≠ ':')).tail, rest)
  else some ("", "", cs)

def hostLength (k : SchemeKind) : (inBrackets : Bool) → List Char → Nat
  | _, [] => 0
  | inBrackets, c :: cs =>
    if k.endsAuthority c || (c = ':' && !inBrackets) then 0
    else hostLength k (c = '[' || (c ≠ ']' && inBrackets)) cs + 1

def portNumber? (cs : List Char) : Option (Option Nat × List Char) :=
  let digits := cs.takeWhile Char.isDigit
  let rest := cs.dropWhile Char.isDigit
  let n := digits.foldl (fun n d => 10 * n + (d.toNat - 48)) 0
  if 65535 < n ∨ !rest.head?.all ("/\\?#".toList.contains ·) then none
  else some (if digits.isEmpty then none else some n, rest)

def authority? (scheme : String) (cs : List Char) : Option (Authority × List Char) := do
  let k := schemeKind scheme
  let (username, password, cs) ← userinfo? k cs
  let n := hostLength k false cs
  let rest := cs.drop n
  let host ← if k = .other then Host.ofOther? (cs.take n) else Host.ofText? (cs.take n)
  if n = 0 ∧ (rest.head? = some ':' ∨ username ≠ "" ∨ password ≠ "") then none
  else
    let (portNumber, rest) ← match rest with
      | ':' :: rest => portNumber? rest
      | _ => some (none, rest)
    let portNumber := portNumber.filter (some · ≠ defaultPortNumber? scheme)
    return (⟨username, password, host, portNumber⟩, rest)

inductive SegmentKind where
  | current
  | parent
  | name
  deriving DecidableEq, Repr

def pointsOf : List Char → List Char
  | '%' :: '2' :: 'e' :: cs => '.' :: pointsOf cs
  | '%' :: '2' :: 'E' :: cs => '.' :: pointsOf cs
  | c :: cs => c :: pointsOf cs
  | [] => []

def segmentKind (cs : List Char) : SegmentKind :=
  match pointsOf cs with
  | ['.'] => .current
  | ['.', '.'] => .parent
  | _ => .name

def driveLetter? : List Char → Option Char
  | [c, d] => if c.isAlpha ∧ (d = ':' ∨ d = '|') then some c else none
  | _ => none

def dropLastSegment (k : SchemeKind) (segments : List String) : List String :=
  match segments with
  | [s] => if k = .file ∧ (driveLetter? s.toList).isSome then [s] else []
  | ss => ss.dropLast

def segments (k : SchemeKind) : (before : List String) → (rest : List (List Char)) → List String
  | before, [] => before
  | before, s :: rest =>
    let isLast := rest.isEmpty
    match segmentKind s with
    | .current => segments k (if isLast then before ++ [""] else before) rest
    | .parent =>
      let above := dropLastSegment k before
      segments k (if isLast then above ++ [""] else above) rest
    | .name =>
      let written := match k, before, driveLetter? s with
        | .file, [], some c => String.ofList [c, ':']
        | _, _, _ => String.ofList (percentEncode inPath s)
      segments k (before ++ [written]) rest

def splitAtSlashes (k : SchemeKind) : List Char → List (List Char)
  | [] => [[]]
  | c :: cs =>
    if k.isSlash c then [] :: splitAtSlashes k cs
    else match splitAtSlashes k cs with
      | [] => [[c]]
      | s :: ss => (c :: s) :: ss

def endsPath (c : Char) : Bool := c = '?' || c = '#'

def tail (k : SchemeKind) (cs : List Char) : Option String × Option String :=
  let isQueryEscape := fun c => inQuery c && (c ≠ '\'' || k ≠ .other)
  let query := match cs with
    | '?' :: cs => some (String.ofList (percentEncode isQueryEscape (cs.takeWhile (· ≠ '#'))))
    | _ => none
  let fragment := match cs.dropWhile (· ≠ '#') with
    | _ :: cs => some (String.ofList (percentEncode inFragment cs))
    | [] => none
  (query, fragment)

def withPath (u : Url) (before : List String) (cs : List Char) : Url :=
  let k := schemeKind u.scheme
  let path := cs.takeWhile (!endsPath ·)
  let (query, fragment) := tail k (cs.dropWhile (!endsPath ·))
  { u with path := .rooted (segments k before (splitAtSlashes k path)), query, fragment }

def withPathStart (u : Url) (cs : List Char) : Url :=
  let k := schemeKind u.scheme
  match cs with
  | [] => if k = .other then { u with path := .rooted [] } else { u with path := .rooted [""] }
  | c :: rest =>
    if k.isSlash c then u.withPath [] rest
    else if k = .other ∧ endsPath c then
      let (query, fragment) := tail k cs
      { u with path := .rooted [], query, fragment }
    else u.withPath [] cs

def ofAuthority? (scheme : String) (cs : List Char) : Option Url := do
  let (a, rest) ← authority? scheme cs
  let u : Url :=
    { scheme, username := a.username, password := a.password, host := some a.host
      portNumber := a.portNumber
      path := .rooted [] }
  return u.withPathStart rest

def ofFile? (cs : List Char) : Option Url :=
  let u : Url := { scheme := "file", host := some (.domain ""), path := .rooted [] }
  match cs with
  | a :: b :: rest =>
    if SchemeKind.file.isSlash a ∧ SchemeKind.file.isSlash b then
      let name := rest.takeWhile (!SchemeKind.file.endsAuthority ·)
      let behind := rest.dropWhile (!SchemeKind.file.endsAuthority ·)
      if (driveLetter? name).isSome then some (u.withPath [] rest)
      else if name.isEmpty then some (u.withPathStart behind)
      else do
        let host ← Host.ofText? name
        let host := if host = .domain "localhost" then .domain "" else host
        return { u with host := some host }.withPathStart behind
    else if SchemeKind.file.isSlash a then some (u.withPath [] (b :: rest))
    else some (u.withPath [] cs)
  | [a] => some (u.withPath [] (if SchemeKind.file.isSlash a then [] else [a]))
  | [] => some (u.withPathStart [])

def ofOther? (scheme : String) (cs : List Char) : Option Url :=
  match cs with
  | '/' :: '/' :: rest => ofAuthority? scheme rest
  | '/' :: rest => some ({ scheme, path := .rooted [] : Url }.withPath [] rest)
  | cs =>
    let (query, fragment) := tail .other (cs.dropWhile (!endsPath ·))
    let text := String.ofList (percentEncode isControl (cs.takeWhile (!endsPath ·)))
    some { scheme, path := .bare text, query, fragment }

def ofScheme? (scheme : String) (cs : List Char) : Option Url :=
  match schemeKind scheme with
  | .hosted => ofAuthority? scheme (cs.dropWhile SchemeKind.hosted.isSlash)
  | .file => ofFile? cs
  | .other => ofOther? scheme cs

def parse? (text : String) : Option Url := do
  let (scheme, cs) ← scheme? (cleaned text)
  ofScheme? scheme cs

def segmentsOf : UrlPath → List String
  | .rooted ss => ss
  | .bare _ => []

def relative? (base : Url) (cs : List Char) : Option Url :=
  let k := schemeKind base.scheme
  let here := { base with fragment := none }
  match cs with
  | [] => some here
  | '#' :: _ => some { here with fragment := (tail k cs).2 }
  | '?' :: _ =>
    let (query, fragment) := tail k cs
    some { here with query, fragment }
  | c :: rest =>
    if k.isSlash c then
      if (rest.head?.map k.isSlash).getD false then
        ofAuthority? base.scheme (cs.dropWhile k.isSlash)
      else some ({ here with query := none }.withPath [] rest)
    else some ({ here with query := none }.withPath (segmentsOf base.path).dropLast cs)

def resolve? (base : Url) (text : String) : Option Url :=
  let cs := cleaned text
  match scheme? cs with
  | some (scheme, rest) =>
    let slashes := (rest.takeWhile SchemeKind.hosted.isSlash).length
    if scheme = base.scheme ∧ schemeKind scheme = .hosted ∧ slashes < 2 then relative? base rest
    else ofScheme? scheme rest
  | none => relative? base cs

def pathText : UrlPath → String
  | .rooted ss => String.join (ss.map ("/" ++ ·))
  | .bare t => t

def target (u : Url) : String :=
  pathText u.path ++ (u.query.map ("?" ++ ·)).getD ""

def text (u : Url) : String :=
  let credentials :=
    if u.username = "" ∧ u.password = "" then ""
    else u.username ++ (if u.password = "" then "" else ":" ++ u.password) ++ "@"
  let authority := match u.host with
    | some h =>
      "//" ++ credentials ++ h.text ++ (u.portNumber.map fun n => ":" ++ toString n).getD ""
    | none => ""
  u.scheme ++ ":" ++ authority ++ u.target ++ (u.fragment.map ("#" ++ ·)).getD ""

def portNumberOrDefault (u : Url) : Option Nat :=
  u.portNumber.orElse fun _ => defaultPortNumber? u.scheme

end Url

end CertLifecycle.Http
