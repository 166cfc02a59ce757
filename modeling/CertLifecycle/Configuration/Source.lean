import CertLifecycle.CommandLine.Error
import CertLifecycle.Configuration.Document
import CertLifecycle.Storage.FileSystem
import CertLifecycle.Vault.Config

namespace CertLifecycle

structure Environment where
  home : Option String := none
  configHome : Option String := none
  token : Option String := none

namespace Environment

def configDirectory? (e : Environment) : Option String :=
  match e.configHome.filter (·.toList.head? = some PathText.separator) with
  | some d => some d
  | none => e.home.map fun h => PathText.join h ".config"

def expandPath (e : Environment) (path : String) : Except CliError String :=
  match PathText.belowHome? path, e.home with
  | none, _ => .ok path
  | some rest, some home => .ok (PathText.join home rest)
  | some _, none => .error .invalidConfigPath

end Environment

namespace Configuration

def fileName : String := "pkiwarden.yaml"

def usualPaths (e : Environment) : List String :=
  [fileName]
    ++ (e.configDirectory?.map fun d => PathText.join (PathText.join d "pkiwarden") fileName).toList
    ++ (e.home.map fun d => PathText.join (PathText.join d ".pkiwarden") fileName).toList
    ++ ["/etc/pkiwarden/pkiwarden.yaml"]

def ofBytes (data : Bytes) : Except CliError Configuration := do
  match Utf8.decode? data with
  | none => throw (.io .notUtf8)
  | some text => (ofText text).mapError fun f => .invalidConfig f.message

def ofFile (fs : FileSystem) (path : String) : Except CliError Configuration := do
  ofBytes (← (fs.read path).mapError .io)

def path (e : Environment) (isFile : String → Bool) (given : Option String) :
    Except CliError String :=
  match given with
  | some p => e.expandPath p
  | none =>
    match (usualPaths e).find? isFile with
    | some p => .ok p
    | none => .error .configNotFound

def load (e : Environment) (fs : FileSystem) (given : Option String) :
    Except CliError Configuration := do
  ofFile fs (← path e fs.isFile given)

def Server.client (s : Server) (e : Environment) : Except CliError VaultConfig :=
  match (s.token.filter (· ≠ "")).orElse fun _ => e.token.filter (· ≠ "") with
  | none => .error (.requiredValue "vault.token")
  | some token => .ok {
      address := s.address
      token
      mount := s.mount
      role := s.role
      kvMount := s.kvMount
      acmePrefix := s.acmePrefix
      timeout := .ofSeconds s.timeout }

end Configuration

end CertLifecycle
