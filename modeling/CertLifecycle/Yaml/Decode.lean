import CertLifecycle.Yaml.Node
import CertLifecycle.Yaml.Value

namespace CertLifecycle.Yaml

open Decoding (Error Found)

inductive Step where
  | key (name : String)
  | index (n : Nat)
  | unknown

abbrev Path := List Step

def Path.text (p : Path) : String :=
  p.foldl (fun parent s =>
    let below := if parent = "." then "" else parent ++ "."
    match s with
    | .key name => below ++ name
    | .index n => parent ++ "[" ++ toString n ++ "]"
    | .unknown => below ++ "?") "."

structure Place where
  path : Path
  mark : Mark

structure Fault where
  cause : Error
  place : Option Place

namespace Fault

def ofError (e : Error) : Fault := ⟨e, none⟩

def locate (f : Fault) (p : Place) : Fault :=
  match f.place with
  | some _ => f
  | none => { f with place := some p }

def numbers : Number.Style := { Number.plain with keepsPoint := true }

def message (f : Fault) : String :=
  let cause := f.cause.message numbers
  match f.place with
  | none => cause
  | some ⟨path, m⟩ =>
    let about := if path.text = "." then "" else path.text ++ ": "
    let place :=
      if m.line = 0 ∧ m.column = 0 then ""
      else " at line " ++ toString (m.line + 1) ++ " column " ++ toString (m.column + 1)
    about ++ cause ++ place

end Fault

structure Context where
  document : Document
  path : Path

def Context.below (c : Context) (s : Step) : Context :=
  { c with path := c.path ++ [s] }

abbrev Decoder (α : Type) := Context → Node → Except Fault α

def tagName (s : String) : Bytes :=
  Utf8.encode ("tag:yaml.org,2002:" ++ s)

def scalarMismatch (style : Style) (tag : Option Bytes) (text expected : String) : Error :=
  let asked := fun (found : Option Found) (name : String) => match found with
    | some f => Error.invalidType f expected
    | none => .invalidValue (.string text) name
  let untagged := .invalidType (if style = .plain then foundPlain text else .string text) expected
  match tag with
  | none => untagged
  | some t =>
    if t = tagName "bool" then asked ((boolean? text).map .boolean) "a boolean"
    else if t = tagName "int" then asked (foundInteger? text) "an integer"
    else if t = tagName "float" then asked ((float? text).map .float) "a float"
    else if t = tagName "null" then asked (if isNullText text then some .unit else none) "null"
    else if (Utf8.encode "!").isPrefixOf t then untagged
    else .invalidType (.string text) expected

def Context.mismatch (c : Context) (n : Node) (expected : String) : Fault :=
  let at_ := fun m e => (⟨e, some ⟨c.path, m⟩⟩ : Fault)
  match n with
  | .scalar m style tag text => at_ m (scalarMismatch style tag text expected)
  | .sequence m _ _ => at_ m (.invalidType .sequence expected)
  | .mapping m _ _ => at_ m (.invalidType .map expected)
  | .alias _ | .void _ | .broken => .ofError .malformed

def decodeText (expected : String) : Decoder String := fun c n =>
  match c.document.follow n with
  | .scalar _ _ _ text => .ok text
  | n => .error (c.mismatch n expected)

def decodeString : Decoder String := decodeText "a string"

def readable (style : Style) (tag : Option Bytes) (name : String) : Bool :=
  style = .plain || (style = .literal && tag = some (tagName name))

def decodeScalar {α : Type} (name expected : String) (read : String → Option α) : Decoder α :=
  fun c n =>
    match c.document.follow n with
    | .scalar m style tag text =>
      match if readable style tag name then read text else none with
      | some a => .ok a
      | none => .error (c.mismatch (.scalar m style tag text) expected)
    | n => .error (c.mismatch n expected)

def decodeBool : Decoder Bool := decodeScalar "bool" "a boolean" boolean?

def decodeFloat : Decoder Float := decodeScalar "float" "f64" float?

def unsigned64? (s : String) : Option Nat :=
  (unsigned? s.toList).filter (· < UInt64.size)

def decodeUInt64 : Decoder Nat := decodeScalar "int" "u64" unsigned64?

def Node.mark? : Node → Option Mark
  | .scalar m _ _ _ | .sequence m _ _ | .mapping m _ _ | .void m => some m
  | .alias _ | .broken => none

def decodeUInt32 : Decoder Nat := fun c n =>
  let n := c.document.follow n
  match decodeScalar "int" "u32" unsigned64? c n with
  | .ok v =>
    if v < UInt32.size then .ok v
    else .error ⟨.invalidValue (.integer v) "u32", n.mark?.map (⟨c.path, ·⟩)⟩
  | .error f => .error f

/-- An absent value has no text at all, or one of the words for it. A tag other than that of such
words says that a value is there. -/
def decodeOption {α : Type} (decode : Decoder α) : Decoder (Option α) := fun c n =>
  match c.document.follow n with
  | .void _ => .ok none
  | .scalar m .plain tag text =>
    if tag = some (tagName "null") then
      if isNullText text then .ok none
      else .error (.ofError (.invalidValue (.string text) "null"))
    else if tag = none ∧ (text.isEmpty ∨ isNullText text) then .ok none
    else (decode c (.scalar m .plain tag text)).map some
  | n => (decode c n).map some

def decodeItems {α : Type} (decode : Decoder α) (c : Context) : Nat → List Node →
    Except Fault (List α)
  | _, [] => .ok []
  | i, n :: ns => do
    let a ← decode (c.below (.index i)) n
    return a :: (← decodeItems decode c (i + 1) ns)

def located {α : Type} (c : Context) (m : Mark) (r : Except Fault α) : Except Fault α :=
  r.mapError (·.locate ⟨c.path, m⟩)

def closing {α : Type} (closed : Bool) (a : α) : Except Fault α :=
  if closed then .ok a else .error (.ofError .malformed)

def decodeList {α : Type} (decode : Decoder α) : Decoder (List α) := fun c n =>
  match c.document.follow n with
  | .void _ => .ok []
  | .sequence m ns closed => located c m do closing closed (← decodeItems decode c 0 ns)
  | .scalar m style tag text =>
    if style = .plain ∧ text.isEmpty then .ok []
    else .error (c.mismatch (.scalar m style tag text) "a sequence")
  | n => .error (c.mismatch n "a sequence")

mutual

def Node.isWhole : Node → Bool
  | .broken => false
  | .sequence _ ns closed => closed && allWhole ns
  | .mapping _ es closed => closed && allEntriesWhole es
  | _ => true

def allWhole : List Node → Bool
  | [] => true
  | n :: ns => n.isWhole && allWhole ns

def allEntriesWhole : List (Node × Node) → Bool
  | [] => true
  | (k, v) :: es => k.isWhole && v.isWhole && allEntriesWhole es

end

def skip (n : Node) : Except Fault Unit :=
  closing n.isWhole ()

def once {α : Type} (name : String) (decode : Decoder α) (current : Option α) :
    Decoder (Option α) := fun c n =>
  match current with
  | some _ => .error (.ofError (.duplicateField name))
  | none => (decode c n).map some

def required {α : Type} (name : String) : Option α → Except Fault α
  | some a => .ok a
  | none => .error (.ofError (.missingField name))

def keyStep (key : Node) (name : String) : Step :=
  match key with
  | .scalar _ _ _ _ => .key name
  | _ => .unknown

def decodeEntries {σ : Type} (step : σ → String → Context → Node → Except Fault σ) (c : Context) :
    σ → List (Node × Node) → Except Fault σ
  | s, [] => .ok s
  | s, (k, v) :: es => do
    let name ← decodeText "field identifier" c k
    decodeEntries step c (← step s name (c.below (keyStep k name)) v) es

def decodeRecord {σ α : Type} (expected : String) (start : σ)
    (step : σ → String → Context → Node → Except Fault σ) (finish : σ → Except Fault α) :
    Decoder α := fun c n =>
  match c.document.follow n with
  | .void m => located c m (finish start)
  | .mapping m es closed => located c m do
    let s ← decodeEntries step c start es
    closing closed () >>= fun _ => finish s
  | .scalar m style tag text =>
    if style = .plain ∧ text.isEmpty then located c m (finish start)
    else .error (c.mismatch (.scalar m style tag text) expected)
  | n => .error (c.mismatch n expected)

def decode {α : Type} (decoder : Decoder α) (text : String) : Except Fault α := do
  let d := Document.ofText text
  let a ← decoder ⟨d, []⟩ d.root
  if d.isComplete && d.isLast then return a else throw (.ofError .malformed)

end CertLifecycle.Yaml
