import CertLifecycle.Json.Number
import CertLifecycle.Decoding.Error

/-!
Reading typed values from a document. Members count in the order of the text; a record may also be
given as the list of its members.
-/

namespace CertLifecycle.Json

open Decoding (Error Found once required)

def Tree.mismatch (t : Tree) (expected : String) : Error :=
  match t with
  | .null => .invalidType .null expected
  | .boolean b => .invalidType (.boolean b) expected
  | .number text => match Number.ofText? text with
    | some (.integer n) => .invalidType (.integer n) expected
    | some (.float f) => .invalidType (.float f) expected
    | none => .malformed
  | .string (some s) => .invalidType (.string s) expected
  | .array _ _ => .invalidType .sequence expected
  | .object _ _ => .invalidType .map expected
  | .string none | .unnamed _ | .broken => .malformed

def decodeString : Tree → Except Error String
  | .string (some s) => .ok s
  | t => .error (t.mismatch "a string")

def decodeOption {α : Type} (decode : Tree → Except Error α) : Tree → Except Error (Option α)
  | .null => .ok none
  | t => (decode t).map some

def decodeList {α : Type} (decode : Tree → Except Error α) : Tree → Except Error (List α)
  | .array ts closed => do
    let values ← ts.mapM decode
    if closed then return values else throw .malformed
  | t => .error (t.mismatch "a sequence")

def decodeByte : Tree → Except Error UInt8
  | .number text => match Number.ofText? text with
    | some (.integer n) =>
      if 0 ≤ n ∧ n < 256 then .ok (UInt8.ofNat n.toNat)
      else .error (.invalidValue (.integer n) "u8")
    | _ => .error ((Tree.number text).mismatch "u8")
  | t => .error (t.mismatch "u8")

def decodeBytes : Tree → Except Error (List UInt8) :=
  decodeList decodeByte

def skip (t : Tree) : Except Error Unit :=
  if t.isWhole then .ok () else .error .malformed

def foldMembers {σ : Type} (step : σ → String → Tree → Except Error σ) :
    σ → List (String × Tree) → Except Error σ
  | s, [] => .ok s
  | s, (key, t) :: ms => do foldMembers step (← step s key t) ms

/-- Reads a record from its members, or from the list of its members' values. -/
def decodeRecord {σ α : Type} (expected : String) (start : σ)
    (step : σ → String → Tree → Except Error σ) (finish : σ → Except Error α)
    (ofItems : List Tree → Bool → Except Error α) : Tree → Except Error α
  | .object ms closed => do
    let s ← foldMembers step start ms
    if closed then finish s else throw .malformed
  | .array ts closed => ofItems ts closed
  | t => .error (t.mismatch expected)

def takeItem {α : Type} (decode : Tree → Except Error α) (absent : Except Error α) :
    List Tree × Bool → Except Error (α × List Tree × Bool)
  | (t :: ts, closed) => do return (← decode t, ts, closed)
  | ([], closed) => do
    if !closed then throw .malformed
    return (← absent, [], closed)

def noMore : List Tree × Bool → Except Error Unit
  | ([], true) => .ok ()
  | _ => .error .malformed

def decodeText {α : Type} (decode : Tree → Except Error α) (text : String) : Except Error α := do
  let (t, rest) := Tree.read text
  let a ← decode t
  if rest.all isSpace then return a else throw .malformed

def Tree.ofBytes (bs : List UInt8) : Tree :=
  .array (bs.map fun b => .number (toString b.toNat)) true

def Tree.ofOption {α : Type} (f : α → Tree) : Option α → Tree
  | none => .null
  | some a => f a

def Tree.ofString (s : String) : Tree :=
  .string (some s)

def Tree.ofStrings (ss : List String) : Tree :=
  .array (ss.map Tree.ofString) true

end CertLifecycle.Json
