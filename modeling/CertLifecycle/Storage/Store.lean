import CertLifecycle.Storage.FanOut

namespace CertLifecycle

inductive BundleStore (σ : Type) where
  | single (destination : Destination σ)
  | fanOut (destinations : FanOut σ)

namespace BundleStore

variable {σ : Type} {m : Type → Type} [Monad m] [Slot σ m]

def readCert : BundleStore σ → ExceptT StorageError m Certificate
  | .single d => d.readCert
  | .fanOut f => f.readCert

def writeCert [Described σ] [Journal m] (s : BundleStore σ) (data : CertData) :
    ExceptT StorageError m Unit :=
  match s with
  | .single d => d.writeCert data
  | .fanOut f => f.writeCert data

def canRead : BundleStore σ → ExceptT StorageError m Unit
  | .single d => d.canRead
  | .fanOut f => f.canRead

def canWrite : BundleStore σ → ExceptT StorageError m Unit
  | .single d => d.canWrite
  | .fanOut f => f.canWrite

end BundleStore

structure SigningStore (σ : Type) where
  csr : σ
  cert : σ
  ca : Option σ

namespace SigningStore

variable {σ : Type} {m : Type → Type} [Monad m] [Slot σ m]

def readCsr (s : SigningStore σ) : ExceptT StorageError m Bytes :=
  Slot.read s.csr

def writeSignature (s : SigningStore σ) (signature : Signature) : ExceptT StorageError m Unit :=
  Destination.writeCertAndCa s.cert s.ca signature.certificate signature.caData

def canRead (s : SigningStore σ) : ExceptT StorageError m Unit :=
  Slot.canRead s.csr

def canWrite (s : SigningStore σ) : ExceptT StorageError m Unit :=
  Destination.canWriteAll (s.cert :: s.ca.toList)

end SigningStore

structure BlobStore (σ : Type) where
  slot : Option σ

def BlobStore.write {σ : Type} {m : Type → Type} [Monad m] [Slot σ m] [Console m] (s : BlobStore σ)
    (data : Bytes) : ExceptT StorageError m Unit :=
  match s.slot with
  | some slot => Slot.write slot data
  | none => ExceptT.lift (Console.print data)

end CertLifecycle
