import CertLifecycle.Certificate

namespace CertLifecycle

inductive IoError where
  | notFound
  | notADirectory
  | isADirectory
  | fileExists
  | nameTooLong
  | permissionDenied
  | nulInPath
  | notUtf8
  | other (text : String)
  deriving DecidableEq, Repr

def IoError.message : IoError → String
  | .notFound => "No such file or directory (os error 2)"
  | .notADirectory => "Not a directory (os error 20)"
  | .isADirectory => "Is a directory (os error 21)"
  | .fileExists => "File exists (os error 17)"
  | .nameTooLong => "File name too long (os error 36)"
  | .permissionDenied => "Permission denied (os error 13)"
  | .nulInPath => "file name contained an unexpected NUL byte"
  | .notUtf8 => "stream did not contain valid UTF-8"
  | .other t => t

inductive StorageError where
  | notFound
  | io (cause : IoError)
  | pem (cause : Pem.Error)
  | noCertificate
  | invalidCertificate (detail : String)
  | missingSlot (name : String)
  | noSinks
  | aggregate (causes : List StorageError)
  | other (text : String)
  deriving Repr, Inhabited

namespace StorageError

mutual

def message : StorageError → String
  | .notFound => "Not Found"
  | .io e => "IO Error: " ++ e.message
  | .pem e => "PEM Error: " ++ e.message
  | .noCertificate => "No Certificate Found"
  | .invalidCertificate d => "Invalid Certificate: " ++ d
  | .missingSlot n => "Slot Not Configured: " ++ n
  | .noSinks => "No Sinks Configured"
  | .aggregate es => toString es.length ++ " sink(s) failed: " ++ "; ".intercalate (messages es)
  | .other t => "Storage Error: " ++ t

def messages : List StorageError → List String
  | [] => []
  | e :: es => e.message :: messages es

end

def isNotFound : StorageError → Bool
  | .notFound => true
  | _ => false

def ofParse : ParseError → StorageError
  | .pem e => .pem e
  | .noCertificate => .noCertificate
  | .x509 d => .invalidCertificate d

end StorageError

class Slot (σ : Type) (m : Type → Type) where
  read : σ → ExceptT StorageError m Bytes
  canRead : σ → ExceptT StorageError m Unit
  write : σ → Bytes → ExceptT StorageError m Unit
  canWrite : σ → ExceptT StorageError m Unit

class Described (σ : Type) where
  describe : σ → String

export Described (describe)

end CertLifecycle
