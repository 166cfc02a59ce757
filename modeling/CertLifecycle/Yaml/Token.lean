import CertLifecycle.Yaml.Scalar
import CertLifecycle.Yaml.Tag

/-!
A text as a list of tokens. Indentation opens and closes blocks, and a colon makes a key of what
stands before it, so a token counts only once no colon can change it. A list that is cut off by a
fault ends without `streamEnd`.
-/

namespace CertLifecycle.Yaml

inductive Lexeme where
  | directive (d : Directive)
  | documentStart
  | documentEnd
  | streamEnd
  | blockSequence
  | blockMapping
  | blockEnd
  | openSequence
  | closeSequence
  | openMapping
  | closeMapping
  | blockEntry
  | flowEntry
  | key
  | value
  | alias (name : List Char)
  | anchor (name : List Char)
  | tag (t : TagText)
  | scalar (style : Style) (text : List Char)

structure Token where
  lexeme : Lexeme
  mark : Mark

/-- What a colon would make a key: the number of its first token and where it stands. Nothing else
can stand where it is required. -/
structure KeyStart where
  number : Nat
  mark : Mark
  required : Bool

structure Reader where
  cursor : Cursor
  queue : List Token
  released : Nat
  keyAllowed : Bool
  keys : List (Option KeyStart)
  indents : List Nat

namespace Reader

def ofCursor (c : Cursor) : Reader := ⟨c, [], 0, true, [none], []⟩

def inFlow (r : Reader) : Bool := 1 < r.keys.length

def mark (r : Reader) : Mark := r.cursor.mark

def push (r : Reader) (l : Lexeme) (m : Mark) : Reader :=
  { r with queue := r.queue ++ [⟨l, m⟩] }

def insert (r : Reader) (number : Nat) (l : Lexeme) (m : Mark) : Reader :=
  let n := number - r.released
  { r with queue := r.queue.take n ++ ⟨l, m⟩ :: r.queue.drop n }

def isStale (m : Mark) (k : KeyStart) : Bool :=
  k.mark.line < m.line || k.mark.index + 1024 < m.index

def dropStale? (r : Reader) : Option Reader :=
  if r.keys.any (·.any fun k => isStale r.mark k && k.required) then none
  else some { r with keys := r.keys.map (·.filter (!isStale r.mark ·)) }

def dropKey? (r : Reader) : Option Reader :=
  match r.keys with
  | some k :: ks => if k.required then none else some { r with keys := none :: ks }
  | _ => some r

def saveKey? (r : Reader) : Option Reader :=
  if r.keyAllowed then do
    let r ← r.dropKey?
    let required := !r.inFlow && r.indents.head? = some r.mark.column
    return { r with keys := some ⟨r.released + r.queue.length, r.mark, required⟩ :: r.keys.tail }
  else some r

def allowKey (r : Reader) (allowed : Bool) : Reader := { r with keyAllowed := allowed }

def isDeeper (r : Reader) (column : Nat) : Bool :=
  !r.inFlow && r.indents.head?.all (· < column)

def openBlock (r : Reader) (l : Lexeme) : Reader :=
  if r.isDeeper r.mark.column then
    { r.push l r.mark with indents := r.mark.column :: r.indents }
  else r

def closeBlocks (r : Reader) (column : Option Nat) : Reader :=
  if r.inFlow then r
  else
    let isInner := fun i => column.all (· < i)
    let closed := r.indents.takeWhile isInner
    { r with
      queue := r.queue ++ closed.map fun _ => ⟨.blockEnd, r.mark⟩
      indents := r.indents.dropWhile isInner }

def take (r : Reader) (width : Nat) (l : Lexeme) : Reader :=
  { r.push l r.mark with cursor := Nat.repeat Cursor.skip width r.cursor }

def skipBlank (inFlow : Bool) : List Char → Mark → Bool → Bool → Bool × Cursor
  | [], m, allowed, _ => (allowed, ⟨[], m⟩)
  | '\r' :: '\n' :: cs, m, allowed, _ =>
    skipBlank inFlow cs (m.nextLine 2) (allowed || !inFlow) false
  | c :: cs, m, allowed, inComment =>
    if isBreak c then skipBlank inFlow cs (m.nextLine 1) (allowed || !inFlow) false
    else if inComment || c = '#' then skipBlank inFlow cs m.next allowed true
    else if c = ' ' || (c = '\t' && (inFlow || !allowed)) then skipBlank inFlow cs m.next allowed false
    else if isByteOrderMark c && m.column = 0 then skipBlank inFlow cs m.next allowed false
    else (allowed, ⟨c :: cs, m⟩)

def nextToken (r : Reader) : Reader :=
  let (allowed, c) := skipBlank r.inFlow r.cursor.rest r.mark r.keyAllowed false
  { r with cursor := c, keyAllowed := allowed }

def readEnd? (r : Reader) : Option Reader := do
  let m := if r.mark.column = 0 then r.mark else ⟨r.mark.index, r.mark.line + 1, 0⟩
  let r ← ({ r with cursor := ⟨[], m⟩ }.closeBlocks none).dropKey?
  return (r.allowKey false).push .streamEnd m

def readDirective? (r : Reader) : Option Reader := do
  let r ← (r.closeBlocks none).dropKey?
  let (d, c) ← directive? r.cursor
  return { (r.allowKey false).push (.directive d) r.mark with cursor := c }

def readDocumentMark? (r : Reader) (l : Lexeme) : Option Reader := do
  let r ← (r.closeBlocks none).dropKey?
  return (r.allowKey false).take 3 l

def readOpen? (r : Reader) (l : Lexeme) : Option Reader := do
  let r ← r.saveKey?
  return ({ r with keys := none :: r.keys }.allowKey true).take 1 l

def readClose? (r : Reader) (l : Lexeme) : Option Reader := do
  let r ← r.dropKey?
  let keys := if r.inFlow then r.keys.tail else r.keys
  return ({ r with keys }.allowKey false).take 1 l

def readFlowEntry? (r : Reader) : Option Reader := do
  let r ← r.dropKey?
  return (r.allowKey true).take 1 .flowEntry

def readIndicator? (r : Reader) (block l : Lexeme) (allowed : Bool) : Option Reader := do
  let r ← if r.inFlow then some r else if r.keyAllowed then some (r.openBlock block) else none
  let r ← r.dropKey?
  return (r.allowKey allowed).take 1 l

def readValue? (r : Reader) : Option Reader :=
  match r.keys with
  | some k :: ks =>
    let r := { r with keys := none :: ks }.insert k.number .key k.mark
    let r :=
      if r.isDeeper k.mark.column then
        { r.insert k.number .blockMapping k.mark with indents := k.mark.column :: r.indents }
      else r
    some ((r.allowKey false).take 1 .value)
  | _ => r.readIndicator? .blockMapping .value (!r.inFlow)

def readName? (r : Reader) (l : List Char → Lexeme) : Option Reader := do
  let r ← r.saveKey?
  let (name, c) ← anchor? r.cursor
  return { (r.allowKey false).push (l name) r.mark with cursor := c }

def readTag? (r : Reader) : Option Reader := do
  let r ← r.saveKey?
  let (t, c) ← tag? r.inFlow r.cursor
  return { (r.allowKey false).push (.tag t) r.mark with cursor := c }

def pushScalar (r : Reader) (style : Style) (s : ScalarText) : Reader :=
  { (r.allowKey s.onNewLine).push (.scalar style s.text) r.mark with cursor := s.rest }

def readBlockScalar? (r : Reader) (style : Style) : Option Reader := do
  let r ← r.dropKey?
  let s ← block? (style = .literal) r.indents.head? r.cursor.skip
  return r.pushScalar style s

def readQuoted? (r : Reader) (style : Style) : Option Reader := do
  let r ← r.saveKey?
  let s ← quoted? (style = .singleQuoted) r.cursor.skip
  return r.pushScalar style s

def readPlain? (r : Reader) : Option Reader := do
  let r ← r.saveKey?
  let s ← plain? r.inFlow ((r.indents.head?.map (· + 1)).getD 0) r.cursor
  return r.pushScalar .plain s

def isIndicator (c : Char) : Bool :=
  "-?:,[]\x7b\x7d#&*!|>'\"%@`".contains c

def startsPlain (inFlow : Bool) : List Char → Bool
  | [] => false
  | c :: cs =>
    if c = '-' then !(cs.head?.map isBlank).getD false
    else if c = '?' ∨ c = ':' then !inFlow && !endsWord cs
    else !isBlank c && !isIndicator c

def read? (r : Reader) : Option Reader := do
  let r ← r.nextToken.dropStale?
  let r := r.closeBlocks (some r.mark.column)
  let inColumnZero := r.mark.column = 0
  match r.cursor.rest with
  | [] => r.readEnd?
  | c :: cs =>
    let apart := r.inFlow || endsWord cs
    if inColumnZero ∧ c = '%' then r.readDirective?
    else if inColumnZero ∧ isDocumentStart (c :: cs) then r.readDocumentMark? .documentStart
    else if inColumnZero ∧ isDocumentEnd (c :: cs) then r.readDocumentMark? .documentEnd
    else if c = '[' then r.readOpen? .openSequence
    else if c = '{' then r.readOpen? .openMapping
    else if c = ']' then r.readClose? .closeSequence
    else if c = '\x7d' then r.readClose? .closeMapping
    else if c = ',' then r.readFlowEntry?
    else if c = '-' ∧ endsWord cs then r.readIndicator? .blockSequence .blockEntry true
    else if c = '?' ∧ apart then r.readIndicator? .blockMapping .key (!r.inFlow)
    else if c = ':' ∧ apart then r.readValue?
    else if c = '*' then r.readName? .alias
    else if c = '&' then r.readName? .anchor
    else if c = '!' then r.readTag?
    else if c = '|' ∧ !r.inFlow then r.readBlockScalar? .literal
    else if c = '>' ∧ !r.inFlow then r.readBlockScalar? .folded
    else if c = '\'' then r.readQuoted? .singleQuoted
    else if c = '"' then r.readQuoted? .doubleQuoted
    else if startsPlain r.inFlow (c :: cs) then r.readPlain?
    else none

def isPending (r : Reader) : Bool :=
  r.keys.any (·.any (·.number = r.released))

/-- A step reads tokens or lets one go; there are at most two for each character and the end. -/
def tokens : Nat → Reader → List Token
  | 0, _ => []
  | fuel + 1, r =>
    match r.queue with
    | [] => ((r.read?).map (tokens fuel)).getD []
    | t :: ts =>
      match r.dropStale? with
      | none => []
      | some r =>
        if r.isPending then ((r.read?).map (tokens fuel)).getD []
        else match t.lexeme with
          | .streamEnd => [t]
          | _ => t :: tokens fuel { r with queue := ts, released := r.released + 1 }

end Reader

def tokens (text : String) : List Token :=
  let c := Cursor.ofText text
  let rest := match c.rest with
    | b :: cs => if isByteOrderMark b then cs else c.rest
    | [] => []
  if rest.all isAllowed then (Reader.ofCursor ⟨rest, c.mark⟩).tokens (8 * rest.length + 8) else []

end CertLifecycle.Yaml
