import CertLifecycle.Bundle

namespace CertLifecycle.Vault

open Json Decoding

def optionalMember (name : String) (value : Option String) : List (String × Tree) :=
  (value.map fun v => (name, Tree.ofString v)).toList

def joined (names : List String) : Option String :=
  some (",".intercalate names) |>.filter (· ≠ "")

def certificateRequest (args : IssueArgs) (csr : Option String) : Tree :=
  .object (("common_name", .ofString args.commonName) :: optionalMember "ttl" args.ttl
    ++ optionalMember "ip_sans" (joined args.ipSans)
    ++ optionalMember "alt_names" (joined args.altNames) ++ optionalMember "csr" csr) true

def revokeRequest (serial : String) : Tree :=
  .object [("serial_number", .ofString serial)] true

def tidyRequest : Tree :=
  .object [("tidy_cert_store", .boolean true), ("tidy_revoked_certs", .boolean true)] true

def decodeEnvelope {α : Type} (decode : Tree → Except Error α) : Tree → Except Error α :=
  decodeRecord "struct Envelope" none
    (fun data key t => match key with
      | "data" => once key data fun _ => decode t
      | _ => do
        skip t
        return data)
    (required "data")
    (fun ts closed => do
      let missing := Error.invalidLength 0 "struct Envelope with 1 element"
      let (data, rest) ← takeItem decode (throw missing) (ts, closed)
      noMore rest
      return data)

structure IssuedData where
  certificate : String
  privateKey : Option String := none
  issuingCa : Option String := none
  caChain : Option (List String) := none
  serialNumber : Option String := none

namespace IssuedData

def caData (d : IssuedData) : Option Bytes :=
  match d.caChain with
  | some (c :: cs) => some (Utf8.encode ("\n".intercalate (c :: cs)))
  | _ => d.issuingCa.map Utf8.encode

structure Members where
  certificate : Option String := none
  privateKey : Option (Option String) := none
  issuingCa : Option (Option String) := none
  caChain : Option (Option (List String)) := none
  serialNumber : Option (Option String) := none

def Members.step (m : Members) (key : String) (t : Tree) : Except Error Members :=
  match key with
  | "certificate" => do
    return { m with certificate := ← once key m.certificate fun _ => decodeString t }
  | "private_key" => do
    return { m with privateKey := ← once key m.privateKey fun _ => decodeOption decodeString t }
  | "issuing_ca" => do
    return { m with issuingCa := ← once key m.issuingCa fun _ => decodeOption decodeString t }
  | "ca_chain" => do
    return { m with
      caChain := ← once key m.caChain fun _ => decodeOption (decodeList decodeString) t }
  | "serial_number" => do
    return { m with serialNumber := ← once key m.serialNumber fun _ => decodeOption decodeString t }
  | _ => do
    skip t
    return m

def Members.finish (m : Members) : Except Error IssuedData := do
  return ⟨← required "certificate" m.certificate, m.privateKey.getD none, m.issuingCa.getD none,
    m.caChain.getD none, m.serialNumber.getD none⟩

def ofItems (ts : List Tree) (closed : Bool) : Except Error IssuedData := do
  let missing := Error.invalidLength 0 "struct IssuedData with 5 elements"
  let (certificate, rest) ← takeItem decodeString (throw missing) (ts, closed)
  let (privateKey, rest) ← takeItem (decodeOption decodeString) (pure none) rest
  let (issuingCa, rest) ← takeItem (decodeOption decodeString) (pure none) rest
  let (caChain, rest) ← takeItem (decodeOption (decodeList decodeString)) (pure none) rest
  let (serialNumber, rest) ← takeItem (decodeOption decodeString) (pure none) rest
  noMore rest
  return ⟨certificate, privateKey, issuingCa, caChain, serialNumber⟩

def ofTree : Tree → Except Error IssuedData :=
  decodeRecord "struct IssuedData" {} Members.step Members.finish ofItems

end IssuedData

structure AcmeSecret where
  certificate : String
  privateKey : Option String := none
  issuer : Option String := none

namespace AcmeSecret

structure Members where
  certificate : Option String := none
  privateKey : Option (Option String) := none
  issuer : Option (Option String) := none

def Members.step (m : Members) (key : String) (t : Tree) : Except Error Members :=
  match key with
  | "certificate" => do
    return { m with certificate := ← once key m.certificate fun _ => decodeString t }
  | "private_key" => do
    return { m with privateKey := ← once key m.privateKey fun _ => decodeOption decodeString t }
  | "issuer" => do
    return { m with issuer := ← once key m.issuer fun _ => decodeOption decodeString t }
  | _ => do
    skip t
    return m

def Members.finish (m : Members) : Except Error AcmeSecret := do
  return ⟨← required "certificate" m.certificate, m.privateKey.getD none, m.issuer.getD none⟩

def ofItems (ts : List Tree) (closed : Bool) : Except Error AcmeSecret := do
  let missing := Error.invalidLength 0 "struct AcmeSecret with 3 elements"
  let (certificate, rest) ← takeItem decodeString (throw missing) (ts, closed)
  let (privateKey, rest) ← takeItem (decodeOption decodeString) (pure none) rest
  let (issuer, rest) ← takeItem (decodeOption decodeString) (pure none) rest
  noMore rest
  return ⟨certificate, privateKey, issuer⟩

def ofTree : Tree → Except Error AcmeSecret :=
  decodeRecord "struct AcmeSecret" {} Members.step Members.finish ofItems

end AcmeSecret

def decodeErrors : Tree → Except Error (List String) :=
  decodeRecord "struct ErrorBody" none
    (fun errors key t => match key with
      | "errors" => once key errors fun _ => decodeList decodeString t
      | _ => do
        skip t
        return errors)
    (fun errors => .ok (errors.getD []))
    (fun ts closed => do
      let (errors, rest) ← takeItem (decodeList decodeString) (pure []) (ts, closed)
      noMore rest
      return errors)

/-- Reads a body as a document. It is cut off where it is no text any more. -/
def decodeBody {α : Type} (decode : Tree → Except Error α) (body : Bytes) : Except Error α :=
  match Utf8.decode body with
  | .ok text => decodeText decode text
  | .error f => do
    let _ ← decodeText decode ((Utf8.decode? (body.take f.validUpTo)).getD "")
    throw .malformed

end CertLifecycle.Vault
