import CertLifecycle.Authority
import CertLifecycle.Storage.Slot

namespace CertLifecycle

inductive LifecycleError where
  | authority (operation : CaMethod) (cause : CaError)
  | readFailed (cause : StorageError)
  | writeFailed (cause : StorageError)
  | invalidData (text : String)
  | verificationFailed (text : String)
  | invalidCertificate
  | invalidThreshold (value : Float)
  | emptySerial
  | invalidArgs
  | canceled

namespace LifecycleError

def authorityText : CaMethod → String
  | .issue => "Issue Failed: "
  | .sign => "Sign Failed: "
  | .revoke => "Revoke Failed: "
  | .tidy => "Tidy Failed: "
  | .readAcme => "Read ACME Failed: "
  | .fetchCaChain | .fetchCa | .fetchCrl => "Fetch Failed: "

def message : LifecycleError → String
  | .authority op e => authorityText op ++ e.message
  | .readFailed e => "Read Failed: " ++ e.message
  | .writeFailed e => "Write Failed: " ++ e.message
  | .invalidData t => "Invalid Data: " ++ t
  | .verificationFailed t => "Verification Failed: " ++ t
  | .invalidCertificate => "Invalid Certificate"
  | .invalidThreshold v =>
    "Invalid Threshold: " ++ Number.plain.text v ++ ", expected a value between 20 and 80"
  | .emptySerial => "Empty Serial"
  | .invalidArgs => "Invalid Request: common name is empty"
  | .canceled => "Canceled"

end LifecycleError

end CertLifecycle
