import CertLifecycle.Text.Characters

/-!
JSON documents, complete or cut off. A text is read as far as it goes: a list or an object records
whether its end was reached, and `broken` stands where no value could be read, so a decoder meets
faults in the order of the text.
-/

namespace CertLifecycle.Json

inductive Tree where
  | null
  | boolean (b : Bool)
  | number (text : String)
  /-- Absent if an escape names half of a surrogate pair. -/
  | string (text : Option String)
  | array (items : List Tree) (closed : Bool)
  | object (members : List (String × Tree)) (closed : Bool)
  /-- What a member holds whose key is such a string: nothing to one who needs the key. -/
  | unnamed (value : Tree)
  | broken
  deriving Inhabited

def isSpace (c : Char) : Bool :=
  c = ' ' || c = '\n' || c = '\t' || c = '\r'

def unit? (a b c d : Char) : Option Nat :=
  [a, b, c, d].foldlM (fun n x => (Text.hexDigit? x).map (16 * n + ·)) 0

def isHigh (u : Nat) : Bool := 0xD800 ≤ u && u < 0xDC00

def isLow (u : Nat) : Bool := 0xDC00 ≤ u && u < 0xE000

def pairValue (high low : Nat) : Char :=
  Char.ofNat (0x10000 + (high - 0xD800) * 0x400 + (low - 0xDC00))

def shortEscape? : Char → Option Char
  | '"' => some '"'
  | '\\' => some '\\'
  | '/' => some '/'
  | 'b' => some '\x08'
  | 'f' => some '\x0c'
  | 'n' => some '\n'
  | 'r' => some '\r'
  | 't' => some '\t'
  | _ => none

inductive Piece where
  | char (c : Char)
  | unit (n : Nat)

def pieces? : List Char → Option (List Piece × List Char)
  | [] => none
  | '"' :: cs => some ([], cs)
  | '\\' :: 'u' :: a :: b :: c :: d :: cs =>
    match unit? a b c d with
    | some u => (pieces? cs).map fun (ps, rest) => (.unit u :: ps, rest)
    | none => none
  | '\\' :: e :: cs =>
    match shortEscape? e with
    | some c => (pieces? cs).map fun (ps, rest) => (.char c :: ps, rest)
    | none => none
  | c :: cs =>
    if c < ' ' ∨ c = '\\' then none
    else (pieces? cs).map fun (ps, rest) => (.char c :: ps, rest)

def join? : List Piece → Option (List Char)
  | [] => some []
  | .char c :: ps => (join? ps).map (c :: ·)
  | .unit u :: .unit v :: ps =>
    if isHigh u then if isLow v then (join? ps).map (pairValue u v :: ·) else none
    else if isLow u then none
    else (join? (.unit v :: ps)).map (Char.ofNat u :: ·)
  | .unit u :: ps =>
    if isHigh u ∨ isLow u then none else (join? ps).map (Char.ofNat u :: ·)

def string? (cs : List Char) : Option (Option String × List Char) :=
  (pieces? cs).map fun (ps, rest) => ((join? ps).map String.ofList, rest)

def digits? (cs : List Char) : Option (List Char × List Char) :=
  match cs.takeWhile Char.isDigit with
  | [] => none
  | ds => some (ds, cs.dropWhile Char.isDigit)

def exponent? : List Char → Option (List Char × List Char)
  | e :: s :: cs =>
    if e = 'e' ∨ e = 'E' then
      if s = '+' ∨ s = '-' then (digits? cs).map fun (ds, rest) => (e :: s :: ds, rest)
      else (digits? (s :: cs)).map fun (ds, rest) => (e :: ds, rest)
    else some ([], e :: s :: cs)
  | [e] => if e = 'e' ∨ e = 'E' then none else some ([], [e])
  | [] => some ([], [])

def fraction? : List Char → Option (List Char × List Char)
  | '.' :: cs => (digits? cs).map fun (ds, rest) => ('.' :: ds, rest)
  | cs => some ([], cs)

def whole? : List Char → Option (List Char × List Char)
  | '0' :: cs => if (cs.head?.map Char.isDigit).getD false then none else some (['0'], cs)
  | cs => digits? cs

def unsigned? (cs : List Char) : Option (List Char × List Char) := do
  let (whole, cs) ← whole? cs
  let (fraction, cs) ← fraction? cs
  let (exponent, cs) ← exponent? cs
  return (whole ++ fraction ++ exponent, cs)

def number? : List Char → Option (List Char × List Char)
  | '-' :: cs => (unsigned? cs).map fun (ds, rest) => ('-' :: ds, rest)
  | cs => unsigned? cs

def Tree.ofNumber (cs : List Char) : Tree × List Char :=
  match number? cs with
  | some (text, rest) => (.number (String.ofList text), rest)
  | none => (.broken, [])

def member (key : Option String) (t : Tree) : String × Tree :=
  match key with
  | some key => (key, t)
  | none => ("", .unnamed t)

mutual

/-- Every call reads a character or passes on to one that does, so twice the length is enough. -/
def value : Nat → List Char → Tree × List Char
  | 0, _ => (.broken, [])
  | fuel + 1, cs =>
    match cs.dropWhile isSpace with
    | 'n' :: 'u' :: 'l' :: 'l' :: cs => (.null, cs)
    | 't' :: 'r' :: 'u' :: 'e' :: cs => (.boolean true, cs)
    | 'f' :: 'a' :: 'l' :: 's' :: 'e' :: cs => (.boolean false, cs)
    | '"' :: cs => match string? cs with
      | some (text, rest) => (.string text, rest)
      | none => (.broken, [])
    | '[' :: cs => match cs.dropWhile isSpace with
      | ']' :: cs => (.array [] true, cs)
      | cs =>
        let (ts, closed, rest) := items fuel cs
        (.array ts closed, rest)
    | '{' :: cs => match cs.dropWhile isSpace with
      | '}' :: cs => (.object [] true, cs)
      | cs =>
        let (ms, closed, rest) := members fuel cs
        (.object ms closed, rest)
    | cs => Tree.ofNumber cs

def items : Nat → List Char → List Tree × Bool × List Char
  | 0, _ => ([], false, [])
  | _ + 1, [] => ([], false, [])
  | fuel + 1, cs =>
    let (t, rest) := value fuel cs
    match rest.dropWhile isSpace with
    | ']' :: rest => ([t], true, rest)
    | ',' :: rest => match rest.dropWhile isSpace with
      | ']' :: _ => ([t], false, [])
      | rest =>
        let (ts, closed, rest) := items fuel rest
        (t :: ts, closed, rest)
    | _ => ([t], false, [])

def members : Nat → List Char → List (String × Tree) × Bool × List Char
  | 0, _ => ([], false, [])
  | fuel + 1, cs =>
    match cs.dropWhile isSpace with
    | '"' :: cs => match string? cs with
      | some (key, rest) => match rest.dropWhile isSpace with
        | ':' :: rest =>
          let (t, rest) := value fuel rest
          match rest.dropWhile isSpace with
          | '}' :: rest => ([member key t], true, rest)
          | ',' :: rest =>
            let (ms, closed, rest) := members fuel rest
            (member key t :: ms, closed, rest)
          | _ => ([member key t], false, [])
        | _ => ([member key .broken], false, [])
      | none => ([], false, [])
    | _ => ([], false, [])

end

def Tree.read (text : String) : Tree × List Char :=
  let cs := text.toList
  value (2 * cs.length + 2) cs

mutual

def Tree.isWhole : Tree → Bool
  | .unnamed _ | .broken => false
  | .array ts closed => closed && allWhole ts
  | .object ms closed => closed && allMembersWhole ms
  | _ => true

def allWhole : List Tree → Bool
  | [] => true
  | t :: ts => t.isWhole && allWhole ts

def allMembersWhole : List (String × Tree) → Bool
  | [] => true
  | (_, .unnamed t) :: ms => t.isWhole && allMembersWhole ms
  | (_, t) :: ms => t.isWhole && allMembersWhole ms

end

def escape (c : Char) : List Char :=
  match c with
  | '"' => ['\\', '"']
  | '\\' => ['\\', '\\']
  | '\x08' => ['\\', 'b']
  | '\x0c' => ['\\', 'f']
  | '\n' => ['\\', 'n']
  | '\r' => ['\\', 'r']
  | '\t' => ['\\', 't']
  | c =>
    if c < ' ' then
      ['\\', 'u', '0', '0', Nat.digitChar (c.toNat / 16), Nat.digitChar (c.toNat % 16)]
    else [c]

def quote (s : String) : List Char :=
  '"' :: s.toList.flatMap escape ++ ['"']

mutual

def Tree.chars : Tree → List Char
  | .null | .broken | .string none => ['n', 'u', 'l', 'l']
  | .boolean b => if b then ['t', 'r', 'u', 'e'] else ['f', 'a', 'l', 's', 'e']
  | .number text => text.toList
  | .string (some s) => quote s
  | .unnamed t => t.chars
  | .array ts _ => '[' :: itemChars ts
  | .object ms _ => '{' :: memberChars ms

def itemChars : List Tree → List Char
  | [] => [']']
  | [t] => t.chars ++ [']']
  | t :: ts => t.chars ++ ',' :: itemChars ts

def memberChars : List (String × Tree) → List Char
  | [] => ['\x7d']
  | [(k, t)] => quote k ++ ':' :: (t.chars ++ ['\x7d'])
  | (k, t) :: ms => quote k ++ ':' :: (t.chars ++ ',' :: memberChars ms)

end

def Tree.text (t : Tree) : String :=
  String.ofList t.chars

def Tree.get? (t : Tree) (key : String) : Option Tree :=
  match t with
  | .object ms _ => (ms.reverse.find? (·.1 = key)).map (·.2)
  | _ => none

end CertLifecycle.Json
