import CertLifecycle.Text.Characters
import CertLifecycle.Text.Utf8
import CertLifecycle.Yaml.Cursor

namespace CertLifecycle.Yaml

structure TagText where
  handle : List Char
  suffix : Bytes

inductive Directive where
  | version (major minor : Nat)
  | tag (handle : List Char) (stem : Bytes)

namespace Uri

def isPlainChar (c : Char) : Bool :=
  isWordChar c || ";/?:@&=+$.!~*'()".contains c

def isSeparator (c : Char) : Bool := c = ',' || c = '[' || c = ']'

def following? (lead : UInt8) : Option Nat :=
  if lead < 0x80 then some 0
  else if lead / 0x20 = 6 then some 1
  else if lead / 0x10 = 14 then some 2
  else if lead / 8 = 30 then some 3
  else none

def read (separators : Bool) : Nat → List Char → Mark → Option (Bytes × Cursor)
  | lacking, '%' :: high :: low :: cs, m => do
    let b ← Text.hexByte? high low
    let m := m.next.next.next
    match lacking with
    | 0 => do
      let (bs, c) ← read separators (← following? b) cs m
      return (b :: bs, c)
    | k + 1 =>
      if b / 0x40 = 2 then do
        let (bs, c) ← read separators k cs m
        return (b :: bs, c)
      else none
  | _ + 1, _, _ => none
  | 0, [], m => some ([], ⟨[], m⟩)
  | 0, c :: cs, m =>
    if c = '%' then none
    else if isPlainChar c || (separators && isSeparator c) then do
      let (bs, rest) ← read separators 0 cs m.next
      return (Utf8.encode (String.singleton c) ++ bs, rest)
    else some ([], ⟨c :: cs, m⟩)

end Uri

def uri? (separators : Bool) (c : Cursor) : Option (Bytes × Cursor) :=
  Uri.read separators 0 c.rest c.mark

def handle? (c : Cursor) : Option (List Char × Bool × Cursor) :=
  match c.rest with
  | '!' :: _ =>
    let (word, c) := c.skip.takeWhile isWordChar
    match c.rest with
    | '!' :: _ => some ('!' :: word ++ ['!'], true, c.skip)
    | _ => some ('!' :: word, false, c)
  | _ => none

def fullTag? (c : Cursor) : Option (TagText × Cursor) := do
  let (suffix, c) ← uri? true c
  if !suffix.isEmpty ∧ c.rest.head? = some '>' then some (⟨[], suffix⟩, c.skip) else none

def shortTag? (c : Cursor) : Option (TagText × Cursor) := do
  let (handle, isClosed, c) ← handle? c
  let (suffix, c) ← uri? false c
  if isClosed then
    if suffix.isEmpty then none else some (⟨handle, suffix⟩, c)
  else
    match Utf8.encode (String.ofList handle.tail) ++ suffix with
    | [] => some (⟨[], Utf8.encode "!"⟩, c)
    | suffix => some (⟨['!'], suffix⟩, c)

def tag? (inFlow : Bool) (c : Cursor) : Option (TagText × Cursor) := do
  let (tag, c) ← match c.rest with
    | '!' :: '<' :: _ => fullTag? c.skip.skip
    | _ => shortTag? c
  if endsWord c.rest || (inFlow && c.rest.head? = some ',') then some (tag, c) else none

def endsName (cs : List Char) : Bool :=
  endsWord cs || (cs.head?.map ("?:,]\x7d%@`".contains ·)).getD false

def anchor? (c : Cursor) : Option (List Char × Cursor) :=
  let (name, c) := c.skip.takeWhile isWordChar
  if !name.isEmpty && endsName c.rest then some (name, c) else none

def versionNumber? (c : Cursor) : Option (Nat × Cursor) :=
  let (digits, c) := c.takeWhile Char.isDigit
  if digits.isEmpty ∨ 9 < digits.length then none
  else some (digits.foldl (fun n d => 10 * n + (d.toNat - 48)) 0, c)

def version? (c : Cursor) : Option (Directive × Cursor) := do
  let (major, c) ← versionNumber? (c.skipWhile isBlank)
  if c.rest.head? ≠ some '.' then none
  else
    let (minor, c) ← versionNumber? c.skip
    return (.version major minor, c)

def tagDirective? (c : Cursor) : Option (Directive × Cursor) := do
  let (handle, isClosed, c) ← handle? (c.skipWhile isBlank)
  if !(isClosed || handle = ['!']) || !(c.rest.head?.map isBlank).getD false then none
  else
    let (stem, c) ← uri? true (c.skipWhile isBlank)
    if !stem.isEmpty ∧ endsWord c.rest then some (.tag handle stem, c) else none

def directive? (c : Cursor) : Option (Directive × Cursor) := do
  let (name, c) := c.skip.takeWhile isWordChar
  let (d, c) ←
    if !endsWord c.rest then none
    else if name = "YAML".toList then version? c
    else if name = "TAG".toList then tagDirective? c
    else none
  let c := (c.skipWhile isBlank).skipComment
  if endsLine c.rest then some (d, c.skipBreak) else none

end CertLifecycle.Yaml
