import CertLifecycle.Storage.Slot
import CertLifecycle.Storage.PathText

/-!
A tree of files and directories as a privileged process sees it: operations fail only because of
what a path leads to.
-/

namespace CertLifecycle

inductive FileNode where
  | file (data : Bytes) (mode : Nat)
  | directory (mode : Nat)
  deriving DecidableEq, Repr

abbrev Location := List String

structure FileSystem where
  nodes : List (Location × FileNode) := [([], .directory 0o755)]
  workingDirectory : Location := []
  umask : Nat := 0o022
  deriving Repr

namespace FileSystem

def get? (fs : FileSystem) (l : Location) : Option FileNode :=
  (fs.nodes.find? (·.1 = l)).map (·.2)

def setNode (l : Location) (n : FileNode) : List (Location × FileNode) → List (Location × FileNode)
  | [] => [(l, n)]
  | (k, v) :: rest => if k = l then (l, n) :: rest else (k, v) :: setNode l n rest

def set (fs : FileSystem) (l : Location) (n : FileNode) : FileSystem :=
  { fs with nodes := setNode l n fs.nodes }

theorem get?_set (fs : FileSystem) (l k : Location) (n : FileNode) :
    (fs.set l n).get? k = if k = l then some n else fs.get? k := by
  unfold set get?
  simp only
  induction fs.nodes with
  | nil => by_cases h : k = l <;> simp [setNode, h, eq_comm]
  | cons p rest ih =>
    obtain ⟨j, v⟩ := p
    by_cases hj : j = l
    · subst hj
      by_cases hk : k = j
      · simp [setNode, hk]
      · have : ¬ j = k := fun e => hk e.symm
        simp [setNode, hk, this]
    · by_cases hk : k = j
      · subst hk
        simp [setNode, hj]
      · have : ¬ j = k := fun e => hk e.symm
        simp [setNode, hj, this, ih]

def permissionBits : Nat := 0o7777

def masked (fs : FileSystem) (mode : Nat) : Nat :=
  mode &&& (permissionBits ^^^ fs.umask)

structure Parts where
  absolute : Bool
  names : List String
  trailing : Bool

def splitNames (cs : List Char) : List String :=
  ((cs.splitOn PathText.separator).filter (· ≠ [])).map String.ofList

def byteLength (s : String) : Nat :=
  (Utf8.encode s).length

def parts (path : String) : Except IoError Parts :=
  let cs := path.toList
  if '\x00' ∈ cs then .error .nulInPath
  else if cs = [] then .error .notFound
  else if 4096 ≤ byteLength path then .error .nameTooLong
  else .ok ⟨cs.head? = some '/', splitNames cs, cs.getLast? = some '/'⟩

variable (fs : FileSystem)

def requireDirectory (l : Location) : Except IoError Unit :=
  match fs.get? l with
  | some (.directory _) => .ok ()
  | some (.file _ _) => .error .notADirectory
  | none => .error .notFound

def enter (l : Location) (name : String) : Except IoError Location := do
  fs.requireDirectory l
  if name = "." then return l
  if name = ".." then return l.dropLast
  if 255 < byteLength name then throw .nameTooLong
  match fs.get? (l ++ [name]) with
  | some _ => return l ++ [name]
  | none => throw .notFound

def walk : Location → List String → Except IoError Location
  | l, [] => .ok l
  | l, n :: ns => do walk (← fs.enter l n) ns

def start (p : Parts) : Location :=
  if p.absolute then [] else fs.workingDirectory

def find (path : String) : Except IoError (Location × FileNode) := do
  let p ← parts path
  let l ← fs.walk (fs.start p) p.names
  match fs.get? l with
  | some n =>
    match n with
    | .file _ _ => if p.trailing then throw .notADirectory else return (l, n)
    | .directory _ => return (l, n)
  | none => throw .notFound

def look (path : String) : Except IoError FileNode :=
  (fs.find path).map (·.2)

def isFile (path : String) : Bool :=
  match fs.look path with
  | .ok (.file _ _) => true
  | _ => false

def isDirectory (path : String) : Bool :=
  match fs.look path with
  | .ok (.directory _) => true
  | _ => false

def read (path : String) : Except IoError Bytes := do
  match ← fs.look path with
  | .file data _ => return data
  | .directory _ => throw .isADirectory

/-- The last name of a path and the directory it stands in; nothing if it leads to a directory by
itself, as `.`, `..` and the root do. -/
def lastName (p : Parts) : Except IoError (Option (Location × String)) := do
  match p.names.getLast? with
  | none => return none
  | some name => do
    let l ← fs.walk (fs.start p) p.names.dropLast
    fs.requireDirectory l
    return if name = "." ∨ name = ".." then none else some (l, name)

def inheritedBits (l : Location) : Nat :=
  match fs.get? l with
  | some (.directory mode) => mode &&& 0o2000
  | _ => 0

def makeDirectory (path : String) : Except IoError FileSystem := do
  let p ← parts path
  match ← fs.lastName p with
  | none => throw .fileExists
  | some (l, name) =>
    if 255 < byteLength name then throw .nameTooLong
    match fs.get? (l ++ [name]) with
    | some _ => throw .fileExists
    | none => return fs.set (l ++ [name]) (.directory (fs.masked 0o777 ||| fs.inheritedBits l))

end FileSystem

namespace FileSystem

def ensured (fs : FileSystem) (path : String) : FileSystem × Except IoError Unit :=
  match fs.makeDirectory path with
  | .ok fs => (fs, .ok ())
  | .error e => (fs, if fs.isDirectory path then .ok () else .error e)

/-- Makes a directory and those above it that are missing; `depth` bounds how many. What was made
before a failure stays. -/
def makeDirectories : (depth : Nat) → FileSystem → String → FileSystem × Except IoError Unit
  | 0, fs, _ => (fs, .error (.other "failed to create whole tree"))
  | depth + 1, fs, path =>
    if path.isEmpty then (fs, .ok ())
    else match fs.makeDirectory path with
      | .ok fs => (fs, .ok ())
      | .error .notFound =>
        match PathText.parent? path with
        | none => (fs, .error (.other "failed to create whole tree"))
        | some above =>
          match makeDirectories depth fs above with
          | (fs, .ok ()) => fs.ensured path
          | (fs, .error e) => (fs, .error e)
      | .error e => (fs, if fs.isDirectory path then .ok () else .error e)

def store (fs : FileSystem) (path : String) (mode : Option Nat) (data : Bytes) :
    Except IoError FileSystem := do
  let p ← parts path
  match ← fs.lastName p with
  | none => throw .isADirectory
  | some (l, name) =>
    if p.trailing then throw .isADirectory
    if 255 < byteLength name then throw .nameTooLong
    let given := mode.map (· &&& permissionBits)
    match fs.get? (l ++ [name]) with
    | some (.directory _) => throw .isADirectory
    | some (.file _ old) => return fs.set (l ++ [name]) (.file data (given.getD old))
    | none => return fs.set (l ++ [name]) (.file data (given.getD (fs.masked 0o666)))

end FileSystem

end CertLifecycle
