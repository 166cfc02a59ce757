import CertLifecycle.Lifecycle.Operations
import CertLifecycle.Storage.FileSlot
import CertLifecycle.Vault.Client

/-!
A world in which the lifecycle runs without outside help: slots in memory and in files, an
authority that is scripted or a server, a clock that moves only while something waits, and a record
of all that happens.
-/

namespace CertLifecycle

structure Cell where
  data : Option Bytes := none
  readFailure : Option StorageError := none
  canReadFailure : Option StorageError := none
  writeFailure : Option StorageError := none
  canWriteFailure : Option StorageError := none

inductive SlotOperation where
  | read
  | canRead
  | write
  | canWrite
  deriving DecidableEq, Repr

inductive Event where
  | slot (operation : SlotOperation) (name : String)
  | call (method : CaMethod) (request : CaRequest method)

structure Reply (k : CaMethod) where
  cancels : Bool := false
  delay : Duration := ⟨0⟩
  answer : Except CaError k.Answer

abbrev Script := (k : CaMethod) → List (Reply k)

namespace Script

def empty : Script := fun _ => []

def exhausted {k : CaMethod} : Reply k where
  answer := .error ⟨true, .text "no scripted response"⟩

def next (s : Script) (k : CaMethod) : Reply k × Script :=
  match s k with
  | [] => (exhausted, s)
  | r :: rs => (r, fun j => if h : j = k then h ▸ rs else s j)

def append (s t : Script) : Script :=
  fun k => s k ++ t k

end Script

class Authority (κ : Type) where
  respond {k : CaMethod} : κ → CaRequest k → Reply k × κ

instance : Authority Script where
  respond {k} s _ := s.next k

structure World (κ : Type) where
  authority : κ
  memory : String → Cell := fun _ => {}
  files : FileSystem := {}
  elapsed : Nat := 0
  canceled : Bool := false
  cancelAt : Option Nat := none
  /-- Whether cancellation counts first where the end of a wait comes at the same moment. -/
  tieCancels : Bool := true
  /-- Whether requests can still cancel the run. -/
  attached : Bool := true
  readings : Nat → Int
  looks : Nat := 0
  events : List Event := []
  /-- Requests that began although the run was cancelled. -/
  lateCalls : Nat := 0
  logs : List LogEvent := []
  printed : Bytes := []

abbrev Run (κ : Type) := StateM (World κ)

namespace World

variable {κ : Type}

/-- Timers go off on whole milliseconds, never early. -/
def wakeTime (start : Nat) (d : Duration) : Nat :=
  let due := start + d.nanos
  if due % Duration.millisecond = 0 then due
  else (due / Duration.millisecond + 1) * Duration.millisecond

/-- Spans that no instant can bear are cut to thirty years. -/
def timerSpan (d : Duration) : Duration :=
  if d.nanos < UInt64.size / 2 * Duration.second then d else .ofSeconds (86400 * 365 * 30)

def wake (w : World κ) (d : Duration) : Nat :=
  wakeTime w.elapsed (timerSpan d)

def wait (d : Duration) (w : World κ) : Bool × World κ :=
  if w.wake d ≤ w.elapsed then (w.canceled && w.tieCancels, w)
  else if w.canceled then (true, w)
  else match w.cancelAt with
    | some t =>
      if t ≤ w.wake d then
        (t < w.wake d || w.tieCancels,
          { w with elapsed := max w.elapsed t, canceled := true, cancelAt := none })
      else (false, { w with elapsed := w.wake d })
    | none => (false, { w with elapsed := w.wake d })

section

variable [Authority κ] {k : CaMethod}

def reply (r : CaRequest k) (w : World κ) : Reply k :=
  (Authority.respond w.authority r).1

def asked (r : CaRequest k) (w : World κ) : World κ :=
  { w with
    authority := (Authority.respond w.authority r).2
    events := w.events ++ [.call k r]
    lateCalls := if w.canceled then w.lateCalls + 1 else w.lateCalls
    canceled := w.canceled || ((w.reply r).cancels && w.attached) }

/-- The answer, or nothing if cancellation came first. One that takes no time always arrives. -/
def ask (r : CaRequest k) (w : World κ) : Option (Except CaError k.Answer) × World κ :=
  if (w.asked r).wake (w.reply r).delay ≤ w.elapsed then (some (w.reply r).answer, w.asked r)
  else
    match (w.asked r).wait (w.reply r).delay with
    | (true, w') => (none, w')
    | (false, w') => (some (w.reply r).answer, w')

end

def settle (w : World κ) : World κ :=
  match w.cancelAt with
  | some t => if t ≤ w.elapsed then { w with canceled := true, cancelAt := none } else w
  | none => w

def record (e : Event) : Run κ Unit :=
  modify fun w => { w with events := w.events ++ [e] }

instance : Journal (Run κ) where
  log e := modify fun w => { w with logs := w.logs ++ [e] }

instance : Console (Run κ) where
  print bs := modify fun w => { w with printed := w.printed ++ bs }

instance : Clock (Run κ) where
  now := modifyGet fun w => (w.readings w.looks, { w with looks := w.looks + 1 })

instance : Cancellation (Run κ) where
  isCanceled := do return (← get).canceled
  pause d := modifyGet (wait d)

instance : Stopwatch (Run κ) where
  elapsed := do return (← get).elapsed
  waitUntil t := modifyGet fun w => w.wait ⟨t - w.elapsed⟩

instance [Authority κ] : AskAuthority (Run κ) where
  ask r := modifyGet (World.ask r)

end World

structure MemorySlot where
  name : String
  deriving DecidableEq, Repr

namespace MemorySlot

variable {κ : Type}

instance : Described MemorySlot where
  describe s := "mem://" ++ s.name

def content (failure : Option StorageError) (c : Cell) : Except StorageError Bytes :=
  match failure, c.data with
  | some e, _ => .error e
  | none, none => .error .notFound
  | none, some bs => .ok bs

def cell (s : MemorySlot) : Run κ Cell := do
  return (← get).memory s.name

def put (s : MemorySlot) (bs : Bytes) : Run κ Unit :=
  modify fun w => { w with
    memory := fun n => if n = s.name then { w.memory n with data := some bs } else w.memory n }

instance : Slot MemorySlot (Run κ) where
  read s := ExceptT.mk do
    World.record (.slot .read s.name)
    let c ← s.cell
    return content c.readFailure c
  canRead s := ExceptT.mk do
    World.record (.slot .canRead s.name)
    let c ← s.cell
    return (content c.canReadFailure c).map fun _ => ()
  write s bs := ExceptT.mk do
    World.record (.slot .write s.name)
    match (← s.cell).writeFailure with
    | some e => return .error e
    | none =>
      s.put bs
      return .ok ()
  canWrite s := ExceptT.mk do
    World.record (.slot .canWrite s.name)
    match (← s.cell).canWriteFailure with
    | some e => return .error e
    | none => return .ok ()

end MemorySlot

namespace FileSlot

variable {κ : Type}

def onFiles {α : Type} (action : FileSystem → FileSystem × Except StorageError α) :
    ExceptT StorageError (Run κ) α :=
  ExceptT.mk do
    modify World.settle
    modifyGet fun w =>
      let (files, r) := action w.files
      (r, { w with files })

instance : Slot FileSlot (Run κ) where
  read s := onFiles fun fs => (fs, s.read fs)
  canRead s := onFiles fun fs => (fs, s.canRead fs)
  write s bs := onFiles (s.write bs)
  canWrite s := onFiles fun fs => (fs, s.canWrite fs)

end FileSlot

structure Remote where
  client : VaultClient
  peer : Http.Peer

namespace Remote

instance : Authority Remote where
  respond r request :=
    let outcome : ExceptT VaultError (StateM Http.Peer) _ := r.client.ask request
    let (answer, peer) := outcome.run.run r.peer
    ({ answer := answer.mapError CaError.ofVault }, { r with peer })

end Remote

end CertLifecycle
