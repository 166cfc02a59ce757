import CertLifecycle.Storage.FileSystem
import CertLifecycle.Storage.Slot

namespace CertLifecycle

structure FileSlot where
  path : String
  mode : Option Nat := none
  deriving DecidableEq, Repr

namespace FileSlot

instance : Described FileSlot where
  describe s := "file://" ++ s.path

def storageError : IoError → StorageError
  | .notFound => .notFound
  | e => .io e

def read (s : FileSlot) (fs : FileSystem) : Except StorageError Bytes :=
  (fs.read s.path).mapError storageError

def canRead (s : FileSlot) (fs : FileSystem) : Except StorageError Unit :=
  match fs.look s.path with
  | .ok _ => .ok ()
  | .error e => .error (storageError e)

def parent? (path : String) : Option String :=
  (PathText.parent? path).filter (· ≠ "")

def makeParents (s : FileSlot) (fs : FileSystem) : FileSystem × Except IoError Unit :=
  match parent? s.path with
  | none => (fs, .ok ())
  | some above => fs.makeDirectories (above.length + 1) above

def write (s : FileSlot) (data : Bytes) (fs : FileSystem) : FileSystem × Except StorageError Unit :=
  match s.makeParents fs with
  | (fs, .error e) => (fs, .error (.io e))
  | (fs, .ok ()) =>
    match fs.store s.path s.mode data with
    | .ok fs => (fs, .ok ())
    | .error e => (fs, .error (.io e))

def writeBits : Nat := 0o222

def ancestors : (depth : Nat) → String → List String
  | 0, _ => []
  | depth + 1, path =>
    match parent? path with
    | none => []
    | some above => above :: ancestors depth above

def above (s : FileSlot) : List String :=
  ancestors (s.path.length + 1) s.path

def checkAbove (look : String → Except IoError FileNode) : List String → Except StorageError Unit
  | [] => .ok ()
  | d :: ds =>
    match look d with
    | .ok (.file _ _) => .error (.other (d ++ " is not a directory"))
    | .ok (.directory mode) =>
      if mode &&& writeBits = 0 then .error (.other (d ++ " is read only")) else .ok ()
    | .error _ => checkAbove look ds

def canWriteWhere (s : FileSlot) (look : String → Except IoError FileNode) :
    Except StorageError Unit :=
  match look s.path with
  | .ok (.file _ _) => .ok ()
  | .ok (.directory _) => .error (.io .isADirectory)
  | .error _ => checkAbove look s.above

def canWrite (s : FileSlot) (fs : FileSystem) : Except StorageError Unit :=
  s.canWriteWhere fs.look

end FileSlot

end CertLifecycle
