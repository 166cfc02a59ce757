import CertLifecycle.Configuration.Source
import CertLifecycle.Storage.FileSlot
import CertLifecycle.Storage.Store

namespace CertLifecycle

namespace Configuration

def keyMode : Nat := 0o600

def publicMode : Nat := 0o644

def slot (e : Environment) (mode : Nat) (path : String) : Except CliError FileSlot := do
  return ⟨← e.expandPath path, some mode⟩

def slot? (e : Environment) (mode : Nat) (path : Option String) :
    Except CliError (Option FileSlot) :=
  match path with
  | none => .ok none
  | some p => do return some (← slot e mode p)

def Paths.destination (p : Paths) (e : Environment) : Except CliError (Destination FileSlot) := do
  let cert ← slot? e publicMode p.cert
  let ca ← slot? e publicMode p.ca
  let key ← slot e keyMode p.key
  (Destination.ofSlots cert ca (some key)).mapError .storage

def bundleStore (e : Environment) (destinations : List Paths) :
    Except CliError (BundleStore FileSlot) := do
  match destinations with
  | [] => throw (.missingSection "destinations")
  | [p] => return .single (← p.destination e)
  | ps => return .fanOut (← (FanOut.ofList (← ps.mapM (·.destination e))).mapError .storage)

def signingStore (e : Environment) (paths : Option SigningPaths) :
    Except CliError (SigningStore FileSlot) := do
  match paths with
  | none => throw (.missingSection "csr")
  | some p =>
    return ⟨← slot e publicMode p.csr, ← slot e publicMode p.cert, ← slot? e publicMode p.ca⟩

def blobStore (e : Environment) (path : Option String) : Except CliError (BlobStore FileSlot) := do
  return ⟨← slot? e publicMode path⟩

end Configuration

end CertLifecycle
