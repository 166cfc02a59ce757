namespace CertLifecycle.Yaml

structure Mark where
  index : Nat
  line : Nat
  column : Nat
  deriving DecidableEq, Repr

namespace Mark

def start : Mark := ⟨0, 0, 0⟩

def next (m : Mark) : Mark := ⟨m.index + 1, m.line, m.column + 1⟩

def nextLine (m : Mark) (width : Nat) : Mark := ⟨m.index + width, m.line + 1, 0⟩

end Mark

def isBlank (c : Char) : Bool := c = ' ' || c = '\t'

def isBreak (c : Char) : Bool :=
  c = '\n' || c = '\r' || c = '\u0085' || c = '\u2028' || c = '\u2029'

def isWordChar (c : Char) : Bool := c.isAlphanum || c = '_' || c = '-'

def isByteOrderMark (c : Char) : Bool := c = '\ufeff'

def isAllowed (c : Char) : Bool :=
  let n := c.toNat
  c = '\t' || c = '\n' || c = '\r' || (0x20 ≤ n && n ≤ 0x7E) || n = 0x85 || (0xA0 ≤ n && n ≤ 0xFFFD)
    || 0x10000 ≤ n

def endsWord : List Char → Bool
  | [] => true
  | c :: _ => isBlank c || isBreak c

def endsLine : List Char → Bool
  | [] => true
  | c :: _ => isBreak c

def keptBreak (c : Char) : Char :=
  if c = '\u2028' || c = '\u2029' then c else '\n'

def isDocumentStart : List Char → Bool
  | '-' :: '-' :: '-' :: cs => endsWord cs
  | _ => false

def isDocumentEnd : List Char → Bool
  | '.' :: '.' :: '.' :: cs => endsWord cs
  | _ => false

def isDocumentMark (cs : List Char) : Bool :=
  isDocumentStart cs || isDocumentEnd cs

structure Cursor where
  rest : List Char
  mark : Mark

namespace Cursor

def ofText (s : String) : Cursor := ⟨s.toList, .start⟩

def skip (c : Cursor) : Cursor :=
  match c.rest with
  | [] => c
  | _ :: cs => ⟨cs, c.mark.next⟩

def takeBreak (c : Cursor) : List Char × Cursor :=
  match c.rest with
  | '\r' :: '\n' :: cs => (['\n'], ⟨cs, c.mark.nextLine 2⟩)
  | b :: cs => if isBreak b then ([keptBreak b], ⟨cs, c.mark.nextLine 1⟩) else ([], c)
  | [] => ([], c)

def skipBreak (c : Cursor) : Cursor := c.takeBreak.2

def takeWhileFrom (p : Char → Bool) : List Char → Mark → List Char × Cursor
  | [], m => ([], ⟨[], m⟩)
  | c :: cs, m =>
    if p c then
      let (taken, rest) := takeWhileFrom p cs m.next
      (c :: taken, rest)
    else ([], ⟨c :: cs, m⟩)

def takeWhile (c : Cursor) (p : Char → Bool) : List Char × Cursor :=
  takeWhileFrom p c.rest c.mark

def skipWhile (c : Cursor) (p : Char → Bool) : Cursor := (c.takeWhile p).2

def skipLine (c : Cursor) : Cursor := c.skipWhile (!isBreak ·)

def skipComment (c : Cursor) : Cursor :=
  if c.rest.head? = some '#' then c.skipLine else c

end Cursor

end CertLifecycle.Yaml
