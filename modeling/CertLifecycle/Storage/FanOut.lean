import CertLifecycle.Storage.Destination

namespace CertLifecycle

structure FanOut (σ : Type) where
  members : List (Destination σ)
  nonempty : members ≠ []

namespace FanOut

variable {σ : Type}

def ofList (ds : List (Destination σ)) : Except StorageError (FanOut σ) :=
  if h : ds = [] then .error .noSinks else .ok ⟨ds, h⟩

variable {m : Type → Type} [Monad m]

def firstOf {α β : Type} (action : α → ExceptT StorageError m β) :
    StorageError → List α → m (Except StorageError β)
  | last, [] => pure (.error last)
  | _, a :: as => do
    match ← (action a).run with
    | .ok b => return .ok b
    | .error e => firstOf action e as

def failuresOf {α : Type} (action : α → ExceptT StorageError m Unit)
    (report : α → StorageError → m Unit) :
    List α → m (List StorageError)
  | [] => pure []
  | a :: as => do
    match ← (action a).run with
    | .ok () => failuresOf action report as
    | .error e => do
      report a e
      return e :: (← failuresOf action report as)

def aggregated (failures : List StorageError) : Except StorageError Unit :=
  match failures with
  | [] => .ok ()
  | es => .error (.aggregate es)

variable [Slot σ m]

def readCert (f : FanOut σ) : ExceptT StorageError m Certificate :=
  ExceptT.mk (firstOf Destination.readCert .noSinks f.members)

def canRead (f : FanOut σ) : ExceptT StorageError m Unit :=
  ExceptT.mk (firstOf Destination.canRead .noSinks f.members)

def writeCert [Described σ] [Journal m] (f : FanOut σ) (data : CertData) :
    ExceptT StorageError m Unit :=
  ExceptT.mk do
    let report := fun d e =>
      logWarn ("unable to write certificate to " ++ d.text ++ ": " ++ e.message)
    return aggregated (← failuresOf (fun d => d.writeCert data) report f.members)

def canWrite (f : FanOut σ) : ExceptT StorageError m Unit :=
  ExceptT.mk do
    return aggregated (← failuresOf Destination.canWrite (fun _ _ => pure ()) f.members)

end FanOut

end CertLifecycle
