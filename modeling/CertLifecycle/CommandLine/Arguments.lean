import CertLifecycle.CommandLine.Error

namespace CertLifecycle.CommandLine

def help : String := String.join [
   "Usage: pkiwarden [OPTIONS] <COMMAND>\n",
   "\n",
   "Commands:\n",
   "  issue              Issue or renew the configured certificate when needed\n",
   "  sign               Sign the configured CSR and store the certificate\n",
   "  revoke             Revoke a certificate by serial number\n",
   "                       --serial <SERIAL>   Serial number, e.g. 1a:2b:3c\n",
   "  tidy               Ask the CA to tidy its certificate store\n",
   "  read-acme          Store the certificate obtained through ACME\n",
   "  verify             Verify the stored certificate against the CA chain\n",
   "  fetch-ca           Write the CA certificate to the configured output\n",
   "                       --der               Fetch DER instead of PEM\n",
   "  fetch-crl          Write the CRL to the configured output\n",
   "                       --der               Fetch DER instead of PEM\n",
   "\n",
   "Options:\n",
   "  -c, --config <PATH>    Path to the configuration file\n",
   "      --daemon           Repeat issue or read-acme on the configured interval\n",
   "  -h, --help             Print help\n",
   "      --version          Print version\n"]

def version : String := "pkiwarden 0.1.0\n"

inductive Command where
  | issue
  | sign
  | revoke (serial : String)
  | tidy
  | readAcme
  | verify
  | fetchCa (der : Bool)
  | fetchCrl (der : Bool)
  deriving DecidableEq, Repr

namespace Command

def ofWord? : String → Option Command
  | "issue" => some .issue
  | "sign" => some .sign
  | "revoke" => some (.revoke "")
  | "tidy" => some .tidy
  | "read-acme" => some .readAcme
  | "verify" => some .verify
  | "fetch-ca" => some (.fetchCa false)
  | "fetch-crl" => some (.fetchCrl false)
  | _ => none

def isRepeatable : Command → Bool
  | .issue | .readAcme => true
  | _ => false

def text : Command → String
  | .issue => "Issue"
  | .sign => "Sign"
  | .revoke s => "Revoke \x7b serial: " ++ Text.quoted s ++ " \x7d"
  | .tidy => "Tidy"
  | .readAcme => "ReadAcme"
  | .verify => "Verify"
  | .fetchCa d => "FetchCa \x7b der: " ++ toString d ++ " \x7d"
  | .fetchCrl d => "FetchCrl \x7b der: " ++ toString d ++ " \x7d"

end Command

structure Arguments where
  configPath : Option String
  daemon : Bool
  command : Command
  deriving DecidableEq, Repr

inductive Parsed where
  | run (args : Arguments)
  | print (text : String)
  deriving DecidableEq, Repr

def dash : UInt8 := 45

def equals : UInt8 := 61

def long? : Bytes → Option (Bytes × Option Bytes)
  | 45 :: 45 :: b :: bs =>
    let name := (b :: bs).takeWhile (· ≠ equals)
    match (b :: bs).dropWhile (· ≠ equals) with
    | [] => some (name, none)
    | _ :: value => some (name, some value)
  | _ => none

def short? : Bytes → Option Bytes
  | 45 :: b :: bs => if b = dash then none else some (b :: bs)
  | _ => none

def utf8 (bs : Bytes) : Except CliError String :=
  match Utf8.decode? bs with
  | some s => .ok s
  | none => .error .encoding

/-- A separate value of `-c` counts unless it is empty, looks like an option or is no text. -/
def separateValue? (bs : Bytes) : Option String :=
  (Utf8.decode? bs).filter fun s => !s.isEmpty && s.toList.head? ≠ some '-'

def finish (path : Option String) (daemon : Bool) (c : Command) : Except CliError Parsed :=
  if c = .revoke "" then .error (.requiredValue "serial") else .ok (.run ⟨path, daemon, c⟩)

def commandOptions (path : Option String) :
    (daemon : Bool) → Command → List Bytes → Except CliError Parsed
  | daemon, c, [] => finish path daemon c
  | daemon, c, a :: rest =>
    match long? a with
    | none => .error .commandNotFound
    | some (name, value) =>
      match c, Utf8.decode? name with
      | _, some "daemon" => commandOptions path true c rest
      | _, some "help" => .ok (.print help)
      | .revoke _, some "serial" =>
        match value, rest with
        | some v, rest => do commandOptions path daemon (.revoke (← utf8 v)) rest
        | none, v :: rest => do commandOptions path daemon (.revoke (← utf8 v)) rest
        | none, [] => .error (.requiredValue "serial")
      | .fetchCa _, some "der" => commandOptions path daemon (.fetchCa true) rest
      | .fetchCrl _, some "der" => commandOptions path daemon (.fetchCrl true) rest
      | _, _ => .error .commandNotFound

def command (path : Option String) (daemon : Bool) (word : Bytes) (rest : List Bytes) :
    Except CliError Parsed := do
  match Command.ofWord? (← utf8 word) with
  | some c => commandOptions path daemon c rest
  | none => throw .commandNotFound

def options : (path : Option String) → (daemon : Bool) → List Bytes → Except CliError Parsed
  | _, _, [] => .ok (.print help)
  | path, daemon, a :: rest =>
    match long? a with
    | some (name, value) =>
      match Utf8.decode? name with
      | some "config" =>
        match value with
        | some v => do options (some (← utf8 v)) daemon rest
        | none => .error (.requiredValue "config")
      | some "daemon" => options path true rest
      | some "help" => .ok (.print help)
      | some "version" => .ok (.print version)
      | _ => .error .commandNotFound
    | none =>
      match short? a with
      | some (99 :: []) =>
        match rest with
        | v :: rest => options (separateValue? v) daemon rest
        | [] => .error (.requiredValue "config")
      | some (99 :: v) => options (Utf8.decode? v) daemon rest
      | some (104 :: _) => .ok (.print help)
      | some _ => .error .commandNotFound
      | none => command path daemon a rest

def Arguments.parse (argv : List Bytes) : Except CliError Parsed :=
  options none false argv.tail

end CertLifecycle.CommandLine
