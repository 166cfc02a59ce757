import CertLifecycle.Text.Utf8

namespace CertLifecycle.PathText

def separator : Char := '/'

/-- Drops separators and `.` components at the end, but not one that the path starts with. Works on
the reversed text. -/
def trimEndReversed : List Char → List Char
  | ['/'] => ['/']
  | '/' :: cs => trimEndReversed cs
  | ['.', '/'] => ['/']
  | '.' :: '/' :: cs => trimEndReversed ('/' :: cs)
  | cs => cs
termination_by cs => cs.length

def trimStart : List Char → List Char
  | '/' :: cs => trimStart cs
  | ['.'] => []
  | '.' :: '/' :: cs => trimStart cs
  | cs => cs

def trimEnd (cs : List Char) : List Char :=
  (trimEndReversed cs.reverse).reverse

def parent? (path : String) : Option String :=
  match trimEnd path.toList with
  | [] => none
  | ['/'] => none
  | cs => some (String.ofList (trimEnd (cs.reverse.dropWhile (· ≠ separator)).reverse))

def belowHome? (path : String) : Option String :=
  match path.toList with
  | ['~'] => some ""
  | '~' :: '/' :: cs => some (String.ofList (trimEnd (trimStart cs)))
  | _ => none

def join (directory path : String) : String :=
  if path.toList.head? = some separator then path
  else if directory.isEmpty ∨ directory.toList.getLast? = some separator then directory ++ path
  else directory ++ "/" ++ path

end CertLifecycle.PathText
