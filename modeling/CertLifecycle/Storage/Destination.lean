import CertLifecycle.Bundle
import CertLifecycle.Lifecycle.Surroundings
import CertLifecycle.Storage.Layout
import CertLifecycle.Storage.Slot

namespace CertLifecycle

inductive Destination (σ : Type) where
  /-- Everything in the key's slot. -/
  | combined (key : σ)
  /-- Certificate and key in one slot, authority data apart. -/
  | separateCa (key ca : σ)
  /-- The key apart; authority data goes behind the certificate unless it has a slot. -/
  | separateCert (cert : σ) (ca : Option σ) (key : σ)
  deriving Repr

namespace Destination

variable {σ : Type}

def ofSlots (cert ca key : Option σ) : Except StorageError (Destination σ) :=
  match key with
  | none => .error (.missingSlot "key")
  | some key => .ok (match cert, ca with
    | none, none => .combined key
    | none, some ca => .separateCa key ca
    | some cert, ca => .separateCert cert ca key)

def slots : Destination σ → List σ
  | .combined key => [key]
  | .separateCa key ca => [key, ca]
  | .separateCert cert ca key => cert :: key :: ca.toList

def certSlot : Destination σ → σ
  | .combined key => key
  | .separateCa key _ => key
  | .separateCert cert _ _ => cert

def text [Described σ] : Destination σ → String
  | .combined key => "key=" ++ describe key
  | .separateCa key ca => "key=" ++ describe key ++ " ca=" ++ describe ca
  | .separateCert cert ca key =>
    "cert=" ++ describe cert ++ " ca=" ++ (ca.map describe).getD "-" ++ " key=" ++ describe key

variable {m : Type → Type} [Monad m] [Slot σ m]

open Slot Layout

def readCert (d : Destination σ) : ExceptT StorageError m Certificate := do
  let text ← read d.certSlot
  ExceptT.mk (pure ((Certificate.ofPem text).mapError .ofParse))

def present (part : Option Bytes) : Option Bytes :=
  part.filter (· ≠ [])

def writeCertAndCa (cert : σ) (ca : Option σ) (certificate : Bytes) (caData : Option Bytes) :
    ExceptT StorageError m Unit := do
  match ca, present caData with
  | none, some caData => write cert (closed certificate ++ closed caData)
  | some ca, some caData => do
    write ca (closed caData)
    write cert (closed certificate)
  | _, none => write cert (closed certificate)

def writeCert (d : Destination σ) (data : CertData) : ExceptT StorageError m Unit := do
  let privateKey := data.privateKey.getD []
  match d with
  | .combined key =>
    write key (tidy data.certificate ++ tidy (data.caData.getD []) ++ tidy privateKey)
  | .separateCa key ca => do
    match present data.caData with
    | some caData => write ca (tidy caData)
    | none => pure ()
    write key (tidy data.certificate ++ tidy privateKey)
  | .separateCert cert ca key => do
    writeCertAndCa cert ca data.certificate data.caData
    if privateKey ≠ [] then write key (tidy privateKey)

def canRead (d : Destination σ) : ExceptT StorageError m Unit :=
  Slot.canRead d.certSlot

def canWriteAll : List σ → ExceptT StorageError m Unit
  | [] => pure ()
  | s :: ss => do
    Slot.canWrite s
    canWriteAll ss

def canWrite (d : Destination σ) : ExceptT StorageError m Unit :=
  canWriteAll d.slots

end Destination

end CertLifecycle
