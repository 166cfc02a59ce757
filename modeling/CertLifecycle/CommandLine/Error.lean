import CertLifecycle.Lifecycle.Error

namespace CertLifecycle

inductive CliError where
  | io (cause : IoError)
  | validation (text : String)
  | lifecycle (cause : LifecycleError)
  | storage (cause : StorageError)
  | vault (cause : VaultError)
  | commandNotFound
  | requiredValue (name : String)
  | encoding
  | configNotFound
  | invalidConfigPath
  | invalidConfig (detail : String)
  | missingSection (name : String)

namespace CliError

def tryHelp : String := "\nTry 'pkiwarden --help' for more information."

def message : CliError → String
  | .io e => "IO Error: " ++ e.message
  | .validation t => "Validation Error: " ++ t
  | .lifecycle e => "PKI Error: " ++ e.message
  | .storage e => "Storage Error: " ++ e.message
  | .vault e => "Vault Error: " ++ e.message
  | .commandNotFound => "Command Not Found" ++ tryHelp
  | .requiredValue n => "Error: argument " ++ n ++ " is required"
  | .encoding => "Error: illegal character" ++ tryHelp
  | .configNotFound => "Config Not Found"
  | .invalidConfigPath => "Invalid Config Path"
  | .invalidConfig d => "Invalid Config: " ++ d
  | .missingSection n => "Missing Config Section: " ++ n

end CliError

end CertLifecycle
