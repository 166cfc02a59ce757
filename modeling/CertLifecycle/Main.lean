import CertLifecycle.CommandLine.Launch
import CertLifecycle.Http.Message
import CertLifecycle.Vault.Client
import Std.Async.DNS
import Std.Async.TCP
import Std.Async.Timer
import Std.Time.DateTime.Timestamp

/-!
The program on the files, the clock and the network of the machine. Fetched data goes to standard
output, so log lines go to standard error. An interrupt ends the process.
-/

namespace CertLifecycle.CommandLine

open Std.Async Std.Net

abbrev Program := ReaderT VaultClient IO

namespace Program

def ioError : IO.Error → IoError
  | .noFileOrDirectory .. => .notFound
  | .alreadyExists .. => .fileExists
  | .permissionDenied .. => .permissionDenied
  | .inappropriateType _ 20 _ => .notADirectory
  | .inappropriateType _ 21 _ => .isADirectory
  | .invalidArgument _ 36 _ => .nameTooLong
  | e => .other (toString e)

def guarded {α : Type} (action : IO α) : IO (Except IoError α) :=
  try return .ok (← action) catch e => return .error (ioError e)

def look (path : String) : IO (Except IoError FileNode) :=
  guarded do
    let entry : IO.FS.DirEntry := ⟨".", path⟩
    match (← entry.path.metadata).type with
    | .dir => return .directory FileSystem.permissionBits
    | _ => return .file [] FileSystem.permissionBits

def readFile (path : String) : IO (Except IoError Bytes) :=
  guarded do return (← IO.FS.readBinFile path).toList

def storeFile (s : FileSlot) (data : Bytes) : IO Unit := do
  if let some directory := FileSlot.parent? s.path then IO.FS.createDirAll directory
  let file ← IO.FS.Handle.mk s.path .write
  if let some mode := s.mode then
    let bits := fun shift =>
      let mode := mode >>> shift
      ({ read := mode.testBit 2, write := mode.testBit 1, execution := mode.testBit 0 } :
        IO.AccessRight)
    IO.setAccessRights s.path ⟨bits 6, bits 3, bits 0⟩
  file.write (ByteArray.mk data.toArray)
  file.flush

def onDisk {α : Type} (action : IO (Except StorageError α)) : ExceptT StorageError Program α :=
  ExceptT.mk fun _ => action

instance : Slot FileSlot Program where
  read s := onDisk do return (← readFile s.path).mapError FileSlot.storageError
  canRead s := onDisk do
    return ((← look s.path).map fun _ => ()).mapError FileSlot.storageError
  write s data := onDisk do return (← guarded (storeFile s data)).mapError .io
  canWrite s := onDisk do
    let seen ← (s.path :: s.above).mapM fun p => return (p, ← look p)
    return s.canWriteWhere fun p => (seen.lookup p).getD (.error .notFound)

def longestSleep : Nat := 1000000000

def wait (d : Duration) : IO Unit := do
  let millis := d.millis + if d.nanos % Duration.millisecond = 0 then 0 else 1
  for _ in [0 : millis / longestSleep] do
    IO.sleep (UInt32.ofNat longestSleep)
  IO.sleep (UInt32.ofNat (millis % longestSleep))

instance : Journal Program where
  log e := IO.eprintln e.line

instance : Console Program where
  print data := do
    let out ← IO.getStdout
    out.write (ByteArray.mk data.toArray)
    out.flush

instance : Clock Program where
  now := do return (← Std.Time.Timestamp.now).toSecondsSinceUnixEpoch.toInt

instance : Cancellation Program where
  isCanceled := return false
  pause d := do
    wait d
    return false

instance : Stopwatch Program where
  elapsed := IO.monoNanosNow
  waitUntil due := do
    wait ⟨due - (← IO.monoNanosNow)⟩
    return false

def ipv4 (address : Nat) (portNumber : UInt16) : SocketAddress :=
  let byte := fun shift => UInt8.ofNat (address >>> shift)
  .v4 ⟨.ofParts (byte 24) (byte 16) (byte 8) (byte 0), portNumber⟩

def ipv6 (pieces : List Nat) (portNumber : UInt16) : SocketAddress :=
  let piece := fun i => UInt16.ofNat (pieces.getD i 0)
  .v6 ⟨.ofParts (piece 0) (piece 1) (piece 2) (piece 3) (piece 4) (piece 5) (piece 6) (piece 7),
    portNumber⟩

def addresses (host : Http.Host) (portNumber : UInt16) : Async (List SocketAddress) := do
  match host with
  | .ipv4 a => return [ipv4 a portNumber]
  | .ipv6 ps => return [ipv6 ps portNumber]
  | .domain name =>
    let found ← DNS.getAddrInfo name (toString portNumber.toNat)
    return found.toList.map fun
      | .v4 a => .v4 ⟨a, portNumber⟩
      | .v6 a => .v6 ⟨a, portNumber⟩

def connect? : List SocketAddress → Async (Option TCP.Socket.Client)
  | [] => return none
  | a :: rest => do
    try
      let client ← TCP.Socket.Client.mk
      client.connect a
      return some client
    catch _ => connect? rest

partial def receive (client : TCP.Socket.Client) (received : IO.Ref Bytes) :
    Async (Option Http.Response) := do
  match ← client.recv? 65536 with
  | none => return Http.Response.read? (← received.get) true
  | some more =>
    received.modify (· ++ more.toList)
    match Http.Response.read? (← received.get) false with
    | some response => return some response
    | none => receive client received

def converse (r : Http.Request) (received : IO.Ref Bytes) : Async (Option Http.Response) := do
  match r.url.scheme, r.url.host, r.url.portNumberOrDefault with
  | "http", some host, some portNumber =>
    match ← connect? (← addresses host (UInt16.ofNat portNumber)) with
    | none => return none
    | some client =>
      client.send (ByteArray.mk r.bytes.toArray)
      receive client received
  | _, _, _ => return none

instance : Http.Exchange Program where
  exchange r client := do
    let limit := client.config.timeout.millis
    let received ← IO.mkRef []
    let late : Async (Option Http.Response) := do
      sleep (.ofNat limit)
      return none
    match ← try (Async.race (converse r received) late).block catch _ => pure none with
    | some response => return some response
    -- Who has the head is past a lost connection: what fails is the body.
    | none =>
      return (Http.Response.read? (← received.get) true).map fun response =>
        { response with body := none }

instance : AskAuthority Program where
  ask request := do
    return some ((← ((← read).ask request).run).mapError CaError.ofVault)

end Program

def environment : IO Environment := do
  return { home := ← IO.getEnv "HOME", configHome := ← IO.getEnv "XDG_CONFIG_HOME"
           token := ← IO.getEnv "VAULT_TOKEN" }

def isFile (path : String) : IO Bool := do
  match ← Program.look path with
  | .ok (.file _ _) => return true
  | _ => return false

def loadConfiguration (e : Environment) (given : Option String) :
    ExceptT CliError IO Configuration := do
  let present ← (Configuration.usualPaths e).filterM fun p => isFile p
  let path ← ExceptT.mk (pure (Configuration.path e present.contains given))
  let data ← ExceptT.mk do return (← Program.readFile path).mapError .io
  ExceptT.mk (pure (Configuration.ofBytes data))

partial def repeatedly (r : Runner) (c : Command) (due : Nat) : Program Unit := do
  if let some due ← r.tick c due then repeatedly r c due

def runWith (l : Launch) (a : Arguments) : ExceptT CliError Program Unit := do
  if a.daemon && !a.repeats then
    ExceptT.lift (logWarn ("--daemon ignored for " ++ a.command.text))
  if a.repeats then
    ExceptT.lift do repeatedly l.runner a.command (← l.runner.startDaemon)
  else l.runner.run a.command

def launch (args : List String) : ExceptT CliError IO Unit := do
  match ← ExceptT.mk (pure (Arguments.parse (("pkiwarden" :: args).map Utf8.encode))) with
  | .print text => IO.print text
  | .run a =>
    let e ← environment
    let c ← loadConfiguration e a.configPath
    let l ← ExceptT.mk (pure (Launch.ofConfiguration e c))
    ExceptT.mk ((runWith l a).run ⟨l.server⟩)

end CertLifecycle.CommandLine

def main (args : List String) : IO UInt32 := do
  match ← (CertLifecycle.CommandLine.launch args).run with
  | .ok () => return 0
  | .error e =>
    IO.eprintln ("Error: " ++ e.message)
    return 1
