import CertLifecycle.X509.Name
import CertLifecycle.X509.Instant

namespace CertLifecycle.X509

open Asn1

structure Algorithm where
  oid : Oid
  parameters : Option Element
  deriving DecidableEq, Repr

structure PublicKey where
  algorithm : Algorithm
  key : Bytes
  deriving DecidableEq, Repr

structure Extension where
  oid : Oid
  critical : Bool
  value : Bytes
  deriving DecidableEq, Repr

structure Validity where
  notBefore : Int
  notAfter : Int
  deriving DecidableEq, Repr

def Validity.Contains (v : Validity) (t : Int) : Prop :=
  v.notBefore ≤ t ∧ t ≤ v.notAfter

instance (v : Validity) (t : Int) : Decidable (v.Contains t) :=
  inferInstanceAs (Decidable (_ ∧ _))

structure SignedPart where
  raw : Bytes
  version : Nat
  serial : Bytes
  algorithm : Algorithm
  issuer : Name
  validity : Validity
  subject : Name
  publicKey : PublicKey
  extensions : List Extension
  deriving DecidableEq, Repr

structure Certificate where
  signedPart : SignedPart
  algorithm : Algorithm
  signature : Bytes
  deriving DecidableEq, Repr

def smallNat? (e : Element) : Option Nat :=
  if e.number ≠ Tag.integer ∨ e.constructed then none
  else match e.content with
    | [] => none
    | [b] => if b < 128 then some b.toNat else none
    | b :: c :: rest =>
      let n := BigEndian.toNat (b :: c :: rest)
      if b < 128 ∧ (b = 0 → 128 ≤ c) ∧ n < UInt32.size then some n else none

def readVersion? (bs : Bytes) : Option (Nat × Bytes) := do
  let (e, rest) ← Element.read? bs
  if e.number ≠ 0 then return (0, bs)
  if e.tagClass ≠ 2 ∨ !e.constructed then none
  let (inner, _) ← Element.read? e.content
  return (← smallNat? inner, rest)

def readAlgorithm? (bs : Bytes) : Option (Algorithm × Bytes) := do
  let (e, rest) ← expect? Tag.sequence bs
  let (oid, more) ← Oid.read? e.content
  match more with
  | [] => return (⟨oid, none⟩, rest)
  | more =>
    let (parameters, _) ← Element.read? more
    return (⟨oid, some parameters⟩, rest)

def lowZeros (b : UInt8) : Nat :=
  ((List.range 8).takeWhile fun i => !b.toNat.testBit i).length

def bitString? (e : Element) : Option Bytes :=
  if e.number ≠ Tag.bitString ∨ e.constructed then none
  else match e.content with
    | [] => none
    | unused :: bits => match bits.getLast? with
      | none => if unused = 0 then some [] else none
      | some last => if unused < 8 ∧ unused.toNat ≤ lowZeros last then some bits else none

def readBitString? (bs : Bytes) : Option (Bytes × Bytes) := do
  let (e, rest) ← Element.read? bs
  return (← bitString? e, rest)

def readPublicKey? (bs : Bytes) : Option (PublicKey × Bytes) := do
  let (e, rest) ← expect? Tag.sequence bs
  let (algorithm, more) ← readAlgorithm? e.content
  let (key, _) ← readBitString? more
  return (⟨algorithm, key⟩, rest)

def readValidity? (bs : Bytes) : Option (Validity × Bytes) := do
  let (e, rest) ← expect? Tag.sequence bs
  let (notBefore, more) ← Instant.read? e.content
  let (notAfter, _) ← Instant.read? more
  return (⟨notBefore, notAfter⟩, rest)

def readExtension? (e : Element) : Option Extension := do
  if e.number ≠ Tag.sequence then none
  let (oid, more) ← Oid.read? e.content
  let (f, afterFlag) ← Element.read? more
  let (critical, value) ← match f.number, f.content with
    | 1, [b] => do
      let (v, _) ← Element.read? afterFlag
      pure (decide (b ≠ 0), v)
    | _, _ => pure (false, f)
  if value.number ≠ Tag.octetString ∨ value.constructed then none
  return ⟨oid, critical, value.content⟩

def readExtensions? (bs : Bytes) : Option (List Extension) := do
  match bs with
  | [] => return []
  | bs =>
    let (_, number, afterTag) ← number? bs
    let (_, inner) ← length? afterTag
    if number ≠ 3 then none
    let (list, []) ← expect? Tag.sequence inner | none
    (← Element.readAll? list.content).mapM readExtension?

def readSignedPart (bs : Bytes) : Except Error (SignedPart × Bytes) := do
  let (e, rest) ← orElse .certificate (expect? Tag.sequence bs)
  let (version, bs) ← orElse .version (readVersion? e.content)
  let (serial, bs) ← orElse .serial (expect? Tag.integer bs)
  let (algorithm, bs) ← orElse .algorithm (readAlgorithm? bs)
  let (issuer, bs) ← orElse .name (Name.read? bs)
  let (validity, bs) ← orElse .date (readValidity? bs)
  let (subject, bs) ← orElse .name (Name.read? bs)
  let (publicKey, bs) ← orElse .publicKey (readPublicKey? bs)
  let extensions ← orElse .extensions (readExtensions? bs)
  return ({ raw := e.raw, version, serial := serial.content, algorithm, issuer, validity, subject,
            publicKey, extensions }, rest)

def Certificate.read (bs : Bytes) : Except Error Certificate := do
  let (e, _) ← orElse .certificate (expect? Tag.sequence bs)
  let (signedPart, bs) ← readSignedPart e.content
  let (algorithm, bs) ← orElse .algorithm (readAlgorithm? bs)
  let (signature, _) ← orElse .signatureValue (readBitString? bs)
  return ⟨signedPart, algorithm, signature⟩

def basicConstraints? (value : Bytes) : Option (Bool × Option Nat) := do
  let (e, _) ← expect? Tag.sequence value
  let members ← Element.readAll? e.content
  match members with
  | [] => return (false, none)
  | [m] => match flag? m with
    | some b => return (b, none)
    | none => return (false, ← pathLength? m)
  | [f, m] => return (← flag? f, some (← pathLength? m))
  | _ => none
where
  flag? (e : Element) : Option Bool :=
    if e.number ≠ Tag.boolean then none
    else match e.content with
      | [0] => some false
      | [255] => some true
      | _ => none
  pathLength? (e : Element) : Option Nat :=
    if e.number ≠ Tag.integer then none
    else match e.content with
      | [] => none
      | b :: bs =>
        let n := BigEndian.toNat (b :: bs)
        if b < 128 ∧ n < UInt32.size then some n else none

/-- A certificate with two basic constraints is no authority's. -/
def Certificate.isCa (c : Certificate) : Bool :=
  match c.signedPart.extensions.filter (·.oid = Name.extensionId 19) with
  | [x] => ((basicConstraints? x.value).map (·.1)).getD false
  | _ => false

end CertLifecycle.X509
