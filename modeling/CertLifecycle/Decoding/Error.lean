import CertLifecycle.Text.Shown
import CertLifecycle.Number.Shortest

namespace CertLifecycle.Decoding

inductive Found where
  | null
  | unit
  | boolean (b : Bool)
  | integer (n : Int)
  | wideInteger (n : Int)
  | float (f : Float)
  | string (s : String)
  | sequence
  | map

inductive Error where
  | malformed
  | missingField (name : String)
  | duplicateField (name : String)
  | invalidType (found : Found) (expected : String)
  | invalidValue (found : Found) (expected : String)
  | invalidLength (length : Nat) (expected : String)

def Found.message (style : Number.Style) : Found → String
  | .null => "null"
  | .unit => "unit value"
  | .boolean b => "boolean `" ++ (if b then "true" else "false") ++ "`"
  | .integer n => "integer `" ++ toString n ++ "`"
  | .wideInteger n => "integer `" ++ toString n ++ "` as " ++ (if n < 0 then "i128" else "u128")
  | .float f => "floating point `" ++ style.text f ++ "`"
  | .string s => "string " ++ Text.quoted s
  | .sequence => "sequence"
  | .map => "map"

def Error.message (style : Number.Style) : Error → String
  | .malformed => "malformed document"
  | .missingField n => "missing field `" ++ n ++ "`"
  | .duplicateField n => "duplicate field `" ++ n ++ "`"
  | .invalidType f e => "invalid type: " ++ f.message style ++ ", expected " ++ e
  | .invalidValue f e => "invalid value: " ++ f.message style ++ ", expected " ++ e
  | .invalidLength n e => "invalid length " ++ toString n ++ ", expected " ++ e

/-- Fills a field that must not be filled twice; the value is read only then. -/
def once {α : Type} (name : String) (current : Option α) (value : Unit → Except Error α) :
    Except Error (Option α) :=
  match current with
  | some _ => .error (.duplicateField name)
  | none => (value ()).map some

def required {α : Type} (name : String) : Option α → Except Error α
  | some a => .ok a
  | none => .error (.missingField name)

end CertLifecycle.Decoding
