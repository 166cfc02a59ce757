import CertLifecycle.Text.Characters
import CertLifecycle.Text.Utf8
import CertLifecycle.Json.Decode

namespace CertLifecycle

structure CertData where
  certificate : Bytes
  privateKey : Option Bytes := none
  caData : Option Bytes := none
  deriving DecidableEq, Repr

structure Signature where
  certificate : Bytes
  caData : Option Bytes := none
  serial : String
  deriving DecidableEq, Repr

structure IssueArgs where
  commonName : String
  ttl : Option String := none
  ipSans : List String := []
  altNames : List String := []
  deriving DecidableEq, Repr

def IssueArgs.IsValid (a : IssueArgs) : Prop :=
  ¬ Text.AllBlank a.commonName

instance (a : IssueArgs) : Decidable a.IsValid :=
  inferInstanceAs (Decidable (¬ _))

open Json Decoding

namespace CertData

def toTree (d : CertData) : Tree :=
  .object [("certificate", .ofBytes d.certificate),
    ("private_key", .ofOption Tree.ofBytes d.privateKey),
    ("ca_data", .ofOption Tree.ofBytes d.caData)] true

structure Members where
  certificate : Option Bytes := none
  privateKey : Option (Option Bytes) := none
  caData : Option (Option Bytes) := none

def Members.step (m : Members) (key : String) (t : Tree) : Except Error Members :=
  match key with
  | "certificate" => do
    return { m with certificate := ← once key m.certificate fun _ => decodeBytes t }
  | "private_key" => do
    return { m with privateKey := ← once key m.privateKey fun _ => decodeOption decodeBytes t }
  | "ca_data" => do
    return { m with caData := ← once key m.caData fun _ => decodeOption decodeBytes t }
  | _ => do
    skip t
    return m

def Members.finish (m : Members) : Except Error CertData := do
  return ⟨← required "certificate" m.certificate, m.privateKey.getD none, m.caData.getD none⟩

def ofItems (ts : List Tree) (closed : Bool) : Except Error CertData := do
  let missing := Error.invalidLength 0 "struct CertData with 3 elements"
  let (certificate, rest) ← takeItem decodeBytes (throw missing) (ts, closed)
  let (privateKey, rest) ← takeItem (decodeOption decodeBytes) (pure none) rest
  let (caData, rest) ← takeItem (decodeOption decodeBytes) (pure none) rest
  noMore rest
  return ⟨certificate, privateKey, caData⟩

def ofTree : Tree → Except Error CertData :=
  decodeRecord "struct CertData" {} Members.step Members.finish ofItems

end CertData

namespace Signature

def toTree (s : Signature) : Tree :=
  .object [("certificate", .ofBytes s.certificate), ("ca_data", .ofOption Tree.ofBytes s.caData),
    ("serial", .ofString s.serial)] true

structure Members where
  certificate : Option Bytes := none
  caData : Option (Option Bytes) := none
  serial : Option String := none

def Members.step (m : Members) (key : String) (t : Tree) : Except Error Members :=
  match key with
  | "certificate" => do
    return { m with certificate := ← once key m.certificate fun _ => decodeBytes t }
  | "ca_data" => do
    return { m with caData := ← once key m.caData fun _ => decodeOption decodeBytes t }
  | "serial" => do
    return { m with serial := ← once key m.serial fun _ => decodeString t }
  | _ => do
    skip t
    return m

def Members.finish (m : Members) : Except Error Signature := do
  return ⟨← required "certificate" m.certificate, m.caData.getD none, ← required "serial" m.serial⟩

def ofItems (ts : List Tree) (closed : Bool) : Except Error Signature := do
  let missing := fun n => Error.invalidLength n "struct Signature with 3 elements"
  let (certificate, rest) ← takeItem decodeBytes (throw (missing 0)) (ts, closed)
  let (caData, rest) ← takeItem (decodeOption decodeBytes) (pure none) rest
  let (serial, rest) ← takeItem decodeString (throw (missing 2)) rest
  noMore rest
  return ⟨certificate, caData, serial⟩

def ofTree : Tree → Except Error Signature :=
  decodeRecord "struct Signature" {} Members.step Members.finish ofItems

end Signature

namespace IssueArgs

def toTree (a : IssueArgs) : Tree :=
  .object [("common_name", .ofString a.commonName), ("ttl", .ofOption Tree.ofString a.ttl),
    ("ip_sans", .ofStrings a.ipSans), ("alt_names", .ofStrings a.altNames)] true

structure Members where
  commonName : Option String := none
  ttl : Option (Option String) := none
  ipSans : Option (List String) := none
  altNames : Option (List String) := none

def Members.step (m : Members) (key : String) (t : Tree) : Except Error Members :=
  match key with
  | "common_name" => do
    return { m with commonName := ← once key m.commonName fun _ => decodeString t }
  | "ttl" => do
    return { m with ttl := ← once key m.ttl fun _ => decodeOption decodeString t }
  | "ip_sans" => do
    return { m with ipSans := ← once key m.ipSans fun _ => decodeList decodeString t }
  | "alt_names" => do
    return { m with altNames := ← once key m.altNames fun _ => decodeList decodeString t }
  | _ => do
    skip t
    return m

def Members.finish (m : Members) : Except Error IssueArgs := do
  return ⟨← required "common_name" m.commonName, m.ttl.getD none, m.ipSans.getD [],
    m.altNames.getD []⟩

def ofItems (ts : List Tree) (closed : Bool) : Except Error IssueArgs := do
  let missing := Error.invalidLength 0 "struct IssueArgs with 4 elements"
  let (commonName, rest) ← takeItem decodeString (throw missing) (ts, closed)
  let (ttl, rest) ← takeItem (decodeOption decodeString) (pure none) rest
  let (ipSans, rest) ← takeItem (decodeList decodeString) (pure []) rest
  let (altNames, rest) ← takeItem (decodeList decodeString) (pure []) rest
  noMore rest
  return ⟨commonName, ttl, ipSans, altNames⟩

def ofTree : Tree → Except Error IssueArgs :=
  decodeRecord "struct IssueArgs" {} Members.step Members.finish ofItems

end IssueArgs

end CertLifecycle
