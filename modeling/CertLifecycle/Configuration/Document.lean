import CertLifecycle.Configuration.Settings
import CertLifecycle.Yaml.Decode

namespace CertLifecycle.Configuration

open Yaml

structure ServerMembers where
  address : Option String := none
  token : Option (Option String) := none
  mount : Option String := none
  role : Option String := none
  kvMount : Option String := none
  acmePrefix : Option String := none
  timeout : Option Nat := none

namespace ServerMembers

def step (m : ServerMembers) (key : String) (c : Context) (n : Node) :
    Except Fault ServerMembers := do
  match key with
  | "address" => return { m with address := ← once key decodeString m.address c n }
  | "token" => return { m with token := ← once key (decodeOption decodeString) m.token c n }
  | "mount" => return { m with mount := ← once key decodeString m.mount c n }
  | "role" => return { m with role := ← once key decodeString m.role c n }
  | "kv_mount" => return { m with kvMount := ← once key decodeString m.kvMount c n }
  | "acme_prefix" => return { m with acmePrefix := ← once key decodeString m.acmePrefix c n }
  | "timeout" => return { m with timeout := ← once key decodeUInt64 m.timeout c n }
  | _ => do
    skip n
    return m

def finish (m : ServerMembers) : Except Fault Server := do
  let address ← required "address" m.address
  let role ← required "role" m.role
  let s : Server := { address, role, token := m.token.getD none }
  return { s with
    mount := m.mount.getD s.mount
    kvMount := m.kvMount.getD s.kvMount
    acmePrefix := m.acmePrefix.getD s.acmePrefix
    timeout := m.timeout.getD s.timeout }

end ServerMembers

def decodeServer : Decoder Server :=
  decodeRecord "struct Vault" {} ServerMembers.step ServerMembers.finish

structure RuleMembers where
  threshold : Option (Option Float) := none
  always : Option (Option Bool) := none

namespace RuleMembers

def step (m : RuleMembers) (key : String) (c : Context) (n : Node) : Except Fault RuleMembers := do
  match key with
  | "threshold" =>
    return { m with threshold := ← once key (decodeOption decodeFloat) m.threshold c n }
  | "always" => return { m with always := ← once key (decodeOption decodeBool) m.always c n }
  | _ => do
    skip n
    return m

def finish (m : RuleMembers) : Except Fault RenewalRule :=
  .ok ⟨m.threshold.getD none, m.always.getD none⟩

end RuleMembers

def decodeRule : Decoder RenewalRule :=
  decodeRecord "struct Renewal" {} RuleMembers.step RuleMembers.finish

structure SubjectMembers where
  commonName : Option String := none
  ttl : Option (Option String) := none
  ipSans : Option (List String) := none
  altNames : Option (List String) := none

namespace SubjectMembers

def step (m : SubjectMembers) (key : String) (c : Context) (n : Node) :
    Except Fault SubjectMembers := do
  match key with
  | "common_name" => return { m with commonName := ← once key decodeString m.commonName c n }
  | "ttl" => return { m with ttl := ← once key (decodeOption decodeString) m.ttl c n }
  | "ip_sans" => return { m with ipSans := ← once key (decodeList decodeString) m.ipSans c n }
  | "alt_names" => return { m with altNames := ← once key (decodeList decodeString) m.altNames c n }
  | _ => do
    skip n
    return m

def finish (m : SubjectMembers) : Except Fault Subject := do
  let commonName ← required "common_name" m.commonName
  return ⟨commonName, m.ttl.getD none, m.ipSans.getD [], m.altNames.getD []⟩

end SubjectMembers

def decodeSubject : Decoder Subject :=
  decodeRecord "struct Certificate" {} SubjectMembers.step SubjectMembers.finish

structure PathMembers where
  cert : Option (Option String) := none
  ca : Option (Option String) := none
  key : Option String := none

namespace PathMembers

def step (m : PathMembers) (key : String) (c : Context) (n : Node) : Except Fault PathMembers := do
  match key with
  | "cert" => return { m with cert := ← once key (decodeOption decodeString) m.cert c n }
  | "ca" => return { m with ca := ← once key (decodeOption decodeString) m.ca c n }
  | "key" => return { m with key := ← once key decodeString m.key c n }
  | _ => do
    skip n
    return m

def finish (m : PathMembers) : Except Fault Paths := do
  let key ← required "key" m.key
  return ⟨m.cert.getD none, m.ca.getD none, key⟩

end PathMembers

def decodePaths : Decoder Paths :=
  decodeRecord "struct Destination" {} PathMembers.step PathMembers.finish

structure SigningMembers where
  csr : Option String := none
  cert : Option String := none
  ca : Option (Option String) := none

namespace SigningMembers

def step (m : SigningMembers) (key : String) (c : Context) (n : Node) :
    Except Fault SigningMembers := do
  match key with
  | "csr" => return { m with csr := ← once key decodeString m.csr c n }
  | "cert" => return { m with cert := ← once key decodeString m.cert c n }
  | "ca" => return { m with ca := ← once key (decodeOption decodeString) m.ca c n }
  | _ => do
    skip n
    return m

def finish (m : SigningMembers) : Except Fault SigningPaths := do
  let csr ← required "csr" m.csr
  let cert ← required "cert" m.cert
  return ⟨csr, cert, m.ca.getD none⟩

end SigningMembers

def decodeSigningPaths : Decoder SigningPaths :=
  decodeRecord "struct Csr" {} SigningMembers.step SigningMembers.finish

def daemonStep (m : Option Nat) (key : String) (c : Context) (n : Node) :
    Except Fault (Option Nat) := do
  match key with
  | "interval" => once key decodeUInt64 m c n
  | _ => do
    skip n
    return m

def decodeDaemon : Decoder Daemon :=
  decodeRecord "struct Daemon" none daemonStep fun m => .ok ((m.map fun n => ⟨n⟩).getD {})

structure AttemptMembers where
  maxRetries : Option Nat := none
  initialDelay : Option Nat := none
  maxDelay : Option Nat := none

namespace AttemptMembers

def step (m : AttemptMembers) (key : String) (c : Context) (n : Node) :
    Except Fault AttemptMembers := do
  match key with
  | "max_retries" => return { m with maxRetries := ← once key decodeUInt32 m.maxRetries c n }
  | "initial_delay_ms" =>
    return { m with initialDelay := ← once key decodeUInt64 m.initialDelay c n }
  | "max_delay_ms" => return { m with maxDelay := ← once key decodeUInt64 m.maxDelay c n }
  | _ => do
    skip n
    return m

def finish (m : AttemptMembers) : Except Fault Attempts :=
  let a : Attempts := {}
  .ok ⟨m.maxRetries.getD a.maxRetries, m.initialDelay.getD a.initialDelay,
    m.maxDelay.getD a.maxDelay⟩

end AttemptMembers

def decodeAttempts : Decoder Attempts :=
  decodeRecord "struct Retry" {} AttemptMembers.step AttemptMembers.finish

structure Members where
  server : Option Server := none
  renewal : Option RenewalRule := none
  subject : Option Subject := none
  destinations : Option (List Paths) := none
  csr : Option (Option SigningPaths) := none
  caOutput : Option (Option String) := none
  crlOutput : Option (Option String) := none
  daemon : Option Daemon := none
  attempts : Option Attempts := none

namespace Members

def step (m : Members) (key : String) (c : Context) (n : Node) : Except Fault Members := do
  match key with
  | "vault" => return { m with server := ← once key decodeServer m.server c n }
  | "renewal" => return { m with renewal := ← once key decodeRule m.renewal c n }
  | "certificate" => return { m with subject := ← once key decodeSubject m.subject c n }
  | "destinations" =>
    return { m with destinations := ← once key (decodeList decodePaths) m.destinations c n }
  | "csr" => return { m with csr := ← once key (decodeOption decodeSigningPaths) m.csr c n }
  | "ca_output" =>
    return { m with caOutput := ← once key (decodeOption decodeString) m.caOutput c n }
  | "crl_output" =>
    return { m with crlOutput := ← once key (decodeOption decodeString) m.crlOutput c n }
  | "daemon" => return { m with daemon := ← once key decodeDaemon m.daemon c n }
  | "retry" => return { m with attempts := ← once key decodeAttempts m.attempts c n }
  | _ => do
    skip n
    return m

def finish (m : Members) : Except Fault Configuration := do
  let server ← required "vault" m.server
  let subject ← required "certificate" m.subject
  return {
    server
    subject
    renewal := m.renewal.getD {}
    destinations := m.destinations.getD []
    csr := m.csr.getD none
    caOutput := m.caOutput.getD none
    crlOutput := m.crlOutput.getD none
    daemon := m.daemon.getD {}
    attempts := m.attempts.getD {} }

end Members

def decoder : Decoder Configuration :=
  decodeRecord "struct Config" {} Members.step Members.finish

def ofText (text : String) : Except Fault Configuration :=
  Yaml.decode decoder text

end CertLifecycle.Configuration
