import CertLifecycle.Asn1.Oid

namespace CertLifecycle.X509

inductive Error where
  | certificate
  | version
  | serial
  | algorithm
  | name
  | date
  | publicKey
  | extensions
  | signatureValue
  deriving DecidableEq, Repr

def Error.message (e : Error) : String :=
  "Parsing Error: Invalid" ++ match e with
  | .certificate => "Certificate"
  | .version => "Version"
  | .serial => "Serial"
  | .algorithm => "AlgorithmIdentifier"
  | .name => "X509Name"
  | .date => "Date"
  | .publicKey => "SPKI"
  | .extensions => "Extensions"
  | .signatureValue => "SignatureValue"

def orElse {α : Type} (e : Error) (r : Option α) : Except Error α :=
  match r with
  | some a => .ok a
  | none => .error e

open Asn1

structure Attribute where
  type : Oid
  value : Element
  deriving DecidableEq, Repr

structure Name where
  rdns : List (List Attribute)
  raw : Bytes
  deriving DecidableEq, Repr

namespace Name

def readAttribute? (e : Element) : Option Attribute := do
  if e.number ≠ Tag.sequence then none
  let (type, rest) ← Oid.read? e.content
  let (value, _) ← Element.read? rest
  return ⟨type, value⟩

def readWhile {α β : Type} (read? : α → Option β) : List α → List β
  | [] => []
  | a :: as => match read? a with
    | some b => b :: readWhile read? as
    | none => []

def readRdn? (e : Element) : Option (List Attribute) :=
  if e.number ≠ Tag.set then none
  else match readWhile readAttribute? (Element.readMany e.content).1 with
    | [] => none
    | attributes => some attributes

def read? (bs : Bytes) : Option (Name × Bytes) := do
  let (e, rest) ← expect? Tag.sequence bs
  let components := (Element.readMany e.content).1
  let rdns := readWhile readRdn? components
  return (⟨rdns, e.header ++ (components.take rdns.length).flatMap Element.raw⟩, rest)

def invalid : String := "<X509Error: Invalid X.509 name>"

def x520 (n : Nat) : Oid := .ofArcs [2, 5, 4, n]

def extensionId (n : Nat) : Oid := .ofArcs [2, 5, 29, n]

def labels : List (Oid × String) :=
  [(x520 3, "CN"), (x520 6, "C"), (x520 7, "L"), (x520 8, "ST"), (x520 10, "O"), (x520 11, "OU"),
   (.ofArcs [0, 9, 2342, 19200300, 100, 1, 25], "DC"),
   (.ofArcs [1, 2, 840, 113549, 1, 9, 1], "Email"),
   (x520 0, "objectClass"), (x520 1, "aliasedEntryName"), (x520 2, "knowledgeInformation"),
   (x520 4, "surname"), (x520 5, "serialNumber"), (x520 9, "streetAddress"), (x520 12, "title"),
   (x520 13, "description"), (x520 14, "searchGuide"), (x520 15, "businessCategory"),
   (x520 16, "postalAddress"), (x520 17, "postalCode"), (x520 41, "name"), (x520 42, "givenName"),
   (x520 43, "initials"), (x520 44, "generationQualifier"), (x520 45, "uniqueIdentifier"),
   (x520 46, "dnQualifier"),
   (.ofArcs [0, 9, 2342, 19200300, 100, 1, 1], "userId"),
   (.ofArcs [1, 3, 6, 1, 4, 1, 311, 60, 2, 1, 1], "msJurisdictionLocality"),
   (.ofArcs [1, 3, 6, 1, 4, 1, 311, 60, 2, 1, 2], "msJurisdictionStateOrProvince"),
   (.ofArcs [1, 3, 6, 1, 4, 1, 311, 60, 2, 1, 3], "msJurisdictionCountry"),
   (extensionId 14, "subjectKeyIdentifier"), (extensionId 15, "keyUsage"),
   (extensionId 16, "privateKeyUsagePeriod"), (extensionId 17, "subjectAltName"),
   (extensionId 18, "issuerAltName"), (extensionId 19, "basicConstraints"),
   (extensionId 20, "crlNumber"), (extensionId 21, "reasonCode"),
   (extensionId 24, "invalidityDate"), (extensionId 27, "deltaCRLIndicator"),
   (extensionId 28, "issuingDistributionPoint"), (extensionId 29, "certificateIssuer"),
   (extensionId 30, "nameConstraints"), (extensionId 31, "crlDistributionPoints"),
   (extensionId 32, "certificatePolicies"), (extensionId 33, "policyMappings"),
   (extensionId 35, "authorityKeyIdentifier"), (extensionId 36, "policyConstraints"),
   (extensionId 37, "extendedKeyUsage"), (extensionId 46, "freshestCRL"),
   (extensionId 54, "inhibitAnyPolicy")]

def label (type : Oid) : String :=
  match labels.find? (·.1 = type) with
  | some (_, l) => l
  | none => "OID(" ++ type.dotted ++ ")"

def units (width : Nat) (bs : Bytes) : List Nat :=
  (BigEndian.groups width bs.length bs).map BigEndian.toNat

def decodeUtf16? : List Nat → Option (List Char)
  | [] => some []
  | u :: us =>
    if 0xD800 ≤ u ∧ u < 0xDC00 then
      match us with
      | [] => none
      | v :: vs =>
        if 0xDC00 ≤ v ∧ v < 0xE000 then
          (decodeUtf16? vs).map (Char.ofNat (0x10000 + (u - 0xD800) * 0x400 + (v - 0xDC00)) :: ·)
        else none
    else if 0xDC00 ≤ u ∧ u < 0xE000 then none
    else (decodeUtf16? us).map (Char.ofNat u :: ·)

def scalar? (n : Nat) : Option Char :=
  if n.isValidChar then some (Char.ofNat n) else none

def upperHex (bs : Bytes) : String :=
  String.ofList (bs.flatMap fun b =>
    [(Nat.digitChar (b.toNat / 16)).toUpper, (Nat.digitChar (b.toNat % 16)).toUpper])

def valueText? (e : Element) : Option String :=
  match e.number with
  | 7 | 12 | 18 | 19 | 20 | 21 | 22 | 25 | 26 | 27 => Utf8.decode? e.content
  | 30 => (decodeUtf16? (units 2 e.content)).map String.ofList
  | 28 => ((units 4 e.content).mapM scalar?).map String.ofList
  | _ => some (upperHex e.content)

def Attribute.text? (a : Attribute) : Option String :=
  (valueText? a.value).map fun v => label a.type ++ "=" ++ v

def text? (n : Name) : Option String := do
  let rdns ← n.rdns.mapM fun rdn => do
    return " + ".intercalate (← rdn.mapM Attribute.text?)
  return ", ".intercalate rdns

def text (n : Name) : String :=
  n.text?.getD invalid

end Name

end CertLifecycle.X509
