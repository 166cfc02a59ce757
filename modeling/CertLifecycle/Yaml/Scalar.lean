import CertLifecycle.Text.Characters
import CertLifecycle.Yaml.Cursor

namespace CertLifecycle.Yaml

inductive Style where
  | plain
  | singleQuoted
  | doubleQuoted
  | literal
  | folded
  deriving DecidableEq, Repr

structure Gap where
  blanks : List Char
  first : List Char
  more : List Char
  broken : Bool

namespace Gap

def none : Gap := ⟨[], [], [], false⟩

def escaped : Gap := ⟨[], [], [], true⟩

def isNone (g : Gap) : Bool := !g.broken && g.blanks.isEmpty

def addBlank (g : Gap) (c : Char) : Gap :=
  if g.broken then g else { g with blanks := g.blanks ++ [c] }

def addBreak (g : Gap) (b : List Char) : Gap :=
  if g.broken then { g with more := g.more ++ b } else ⟨[], b, [], true⟩

def text (g : Gap) : List Char :=
  if !g.broken then g.blanks
  else if g.first = ['\n'] then (if g.more.isEmpty then [' '] else g.more)
  else g.first ++ g.more

end Gap

structure ScalarText where
  text : List Char
  rest : Cursor
  onNewLine : Bool

namespace Plain

def isFlowMark (c : Char) : Bool :=
  c = ',' || c = '[' || c = ']' || c = '{' || c = '\x7d'

def colonFails : List Char → Bool
  | ':' :: c :: _ => isFlowMark c || c = '?'
  | _ => false

def endsHere (inFlow : Bool) : List Char → Bool
  | [] => true
  | ':' :: cs => endsWord cs
  | c :: _ => inFlow && isFlowMark c

/-- `parts` holds the text so far, its last part first; `indent` is the least column of a further
line. -/
def read (inFlow : Bool) (indent : Nat) :
    List Char → Mark → Gap → List (List Char) → Option ScalarText
  | [], m, g, parts => some ⟨parts.reverse.flatten, ⟨[], m⟩, g.broken⟩
  | '\r' :: '\n' :: cs, m, g, parts =>
    read inFlow indent cs (m.nextLine 2) (g.addBreak ['\n']) parts
  | c :: cs, m, g, parts =>
    if isBlank c then
      if g.broken && m.column < indent && c = '\t' then none
      else read inFlow indent cs m.next (g.addBlank c) parts
    else if isBreak c then
      read inFlow indent cs (m.nextLine 1) (g.addBreak [keptBreak c]) parts
    else if !g.isNone && ((!inFlow && m.column < indent)
        || (m.column = 0 && isDocumentMark (c :: cs)) || c = '#') then
      some ⟨parts.reverse.flatten, ⟨c :: cs, m⟩, g.broken⟩
    else if inFlow && colonFails (c :: cs) then none
    else if endsHere inFlow (c :: cs) then
      some ⟨parts.reverse.flatten, ⟨c :: cs, m⟩, g.broken⟩
    else read inFlow indent cs m.next .none ([c] :: g.text :: parts)

end Plain

def plain? (inFlow : Bool) (indent : Nat) (c : Cursor) : Option ScalarText :=
  Plain.read inFlow indent c.rest c.mark .none []

namespace SingleQuoted

def read : List Char → Mark → Gap → List (List Char) → Option (List Char × Cursor)
  | [], _, _, _ => none
  | '\r' :: '\n' :: cs, m, g, parts => read cs (m.nextLine 2) (g.addBreak ['\n']) parts
  | '\'' :: '\'' :: cs, m, g, parts => read cs m.next.next .none (['\''] :: g.text :: parts)
  | c :: cs, m, g, parts =>
    if isBlank c then read cs m.next (g.addBlank c) parts
    else if isBreak c then read cs (m.nextLine 1) (g.addBreak [keptBreak c]) parts
    else if m.column = 0 && isDocumentMark (c :: cs) then none
    else if c = '\'' then some ((g.text :: parts).reverse.flatten, ⟨cs, m.next⟩)
    else read cs m.next .none ([c] :: g.text :: parts)

end SingleQuoted

namespace DoubleQuoted

def shortEscape? : Char → Option Char
  | '0' => some '\x00'
  | 'a' => some '\x07'
  | 'b' => some '\x08'
  | 't' => some '\t'
  | '\t' => some '\t'
  | 'n' => some '\n'
  | 'v' => some '\x0b'
  | 'f' => some '\x0c'
  | 'r' => some '\r'
  | 'e' => some '\x1b'
  | ' ' => some ' '
  | '"' => some '"'
  | '/' => some '/'
  | '\\' => some '\\'
  | 'N' => some '\u0085'
  | '_' => some '\u00a0'
  | 'L' => some '\u2028'
  | 'P' => some '\u2029'
  | _ => none

def codeLength? : Char → Option Nat
  | 'x' => some 2
  | 'u' => some 4
  | 'U' => some 8
  | _ => none

def character? (n : Nat) : Option Char :=
  if n.isValidChar then some (Char.ofNat n) else none

def read : List Char → Mark → Option (Nat × Nat) → Gap → List (List Char) →
    Option (List Char × Cursor)
  | [], _, _, _, _ => none
  | c :: cs, m, some (value, lacking), g, parts => do
    let value := value * 16 + (← Text.hexDigit? c)
    match lacking with
    | k + 2 => read cs m.next (some (value, k + 1)) g parts
    | _ => read cs m.next none .none ([← character? value] :: g.text :: parts)
  | '\r' :: '\n' :: cs, m, none, g, parts =>
    read cs (m.nextLine 2) none (g.addBreak ['\n']) parts
  | '\\' :: '\r' :: '\n' :: cs, m, none, g, parts =>
    read cs (m.nextLine 3) none .escaped (g.text :: parts)
  | '\\' :: e :: cs, m, none, g, parts =>
    if isBreak e then read cs (m.nextLine 2) none .escaped (g.text :: parts)
    else match codeLength? e, shortEscape? e with
      | some n, _ => read cs m.next.next (some (0, n)) g parts
      | none, some d => read cs m.next.next none .none ([d] :: g.text :: parts)
      | none, none => none
  | c :: cs, m, none, g, parts =>
    if isBlank c then read cs m.next none (g.addBlank c) parts
    else if isBreak c then read cs (m.nextLine 1) none (g.addBreak [keptBreak c]) parts
    else if m.column = 0 && isDocumentMark (c :: cs) then none
    else if c = '"' then some ((g.text :: parts).reverse.flatten, ⟨cs, m.next⟩)
    else read cs m.next none .none ([c] :: g.text :: parts)

end DoubleQuoted

def quoted? (single : Bool) (c : Cursor) : Option ScalarText :=
  let text := if single then SingleQuoted.read c.rest c.mark .none []
    else DoubleQuoted.read c.rest c.mark none .none []
  text.map fun (text, rest) => ⟨text, rest, false⟩

namespace Block

inductive Chomping where
  | strip
  | clip
  | keep
  deriving DecidableEq, Repr

def chomping? : List Char → Option Chomping
  | '+' :: _ => some .keep
  | '-' :: _ => some .strip
  | _ => none

def increment? (c : Cursor) : Option (Option Nat × Cursor) :=
  match c.rest with
  | d :: _ =>
    if d = '0' then none
    else if d.isDigit then some (some (d.toNat - 48), c.skip)
    else some (none, c)
  | [] => some (none, c)

def header? (c : Cursor) : Option (Chomping × Option Nat × Cursor) := do
  let (chomping, increment, c) ← match chomping? c.rest with
    | some k => do
      let (n, c) ← increment? c.skip
      pure (k, n, c)
    | none => do
      let (n, c) ← increment? c
      match n, chomping? c.rest with
      | some _, some k => pure (k, n, c.skip)
      | _, _ => pure (.clip, n, c)
  let c := (c.skipWhile isBlank).skipComment
  if endsLine c.rest then some (chomping, increment, c.skipBreak) else none

def emptyLines (indent : Option Nat) : List Char → Mark → Nat → List Char →
    Option (Nat × List Char × Cursor)
  | [], m, widest, breaks => some (max widest m.column, breaks, ⟨[], m⟩)
  | '\r' :: '\n' :: cs, m, widest, breaks =>
    emptyLines indent cs (m.nextLine 2) (max widest m.column) (breaks ++ ['\n'])
  | c :: cs, m, widest, breaks =>
    let isOpen := indent.all (m.column < ·)
    if isOpen && c = ' ' then emptyLines indent cs m.next widest breaks
    else if isOpen && c = '\t' then none
    else if isBreak c then
      emptyLines indent cs (m.nextLine 1) (max widest m.column) (breaks ++ [keptBreak c])
    else some (max widest m.column, breaks, ⟨c :: cs, m⟩)

structure Tail where
  leading : List Char
  trailing : List Char

def gap (literal : Bool) (tail : Tail) (besideBlank : Bool) : List Char :=
  if !literal && tail.leading = ['\n'] && !besideBlank then
    if tail.trailing.isEmpty then [' '] else tail.trailing
  else tail.leading ++ tail.trailing

def lines (literal : Bool) (indent : Nat) : Nat → Cursor → Tail → Bool → List (List Char) →
    Option (List Char × Tail × Cursor)
  | 0, _, _, _, _ => none
  | fuel + 1, c, tail, afterBlank, parts =>
    if c.mark.column = indent ∧ !c.rest.isEmpty then do
      let startsBlank := (c.rest.head?.map isBlank).getD false
      let joint := gap literal tail (afterBlank || startsBlank)
      let (line, c) := c.takeWhile (!isBreak ·)
      let (leading, c) := c.takeBreak
      let (_, trailing, c) ← emptyLines (some indent) c.rest c.mark 0 []
      lines literal indent fuel c ⟨leading, trailing⟩ startsBlank (line :: joint :: parts)
    else some (parts.reverse.flatten, tail, c)

def Chomping.tail (k : Chomping) (t : Tail) : List Char :=
  match k with
  | .strip => []
  | .clip => t.leading
  | .keep => t.leading ++ t.trailing

end Block

def block? (literal : Bool) (parent : Option Nat) (c : Cursor) : Option ScalarText := do
  let (chomping, increment, c) ← Block.header? c
  let given := increment.map (parent.getD 0 + ·)
  let (widest, trailing, c) ← Block.emptyLines given c.rest c.mark 0 []
  let least := (parent.map (· + 1)).getD 0
  let indent := given.getD (max widest (max least 1))
  let (text, tail, c) ← Block.lines literal indent (c.rest.length + 1) c ⟨[], trailing⟩ false []
  return ⟨text ++ chomping.tail tail, c, true⟩

end CertLifecycle.Yaml
