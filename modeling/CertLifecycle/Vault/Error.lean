namespace CertLifecycle

inductive HttpError where
  | request
  | transport
  | body
  | tooManyRedirects
  deriving DecidableEq, Repr

inductive VaultError where
  | http (cause : HttpError)
  | status (code : Nat) (detail : String)
  | decode (detail : String)
  | missingField (name : String)
  deriving DecidableEq, Repr

namespace HttpError

def message : HttpError → String
  | .request => "builder error"
  | .transport => "error sending request"
  | .body => "error decoding response body"
  | .tooManyRedirects => "error following redirect"

def isPermanent : HttpError → Bool
  | .transport => false
  | .request | .body | .tooManyRedirects => true

end HttpError

namespace VaultError

def message : VaultError → String
  | .http e => "HTTP Error: " ++ e.message
  | .status code detail => "Vault Error (" ++ toString code ++ "): " ++ detail
  | .decode d => "Decode Error: " ++ d
  | .missingField n => "Missing Field: " ++ n

/-- A request that the server refuses is refused again, rate limiting apart. Failures of the server
and of the connection may pass. -/
def isPermanent : VaultError → Bool
  | .http e => e.isPermanent
  | .status code _ => 400 ≤ code && code < 500 && code ≠ 429
  | .decode _ | .missingField _ => true

end VaultError

end CertLifecycle
