import CertLifecycle.Text.Shown
import CertLifecycle.Time.Duration

namespace CertLifecycle

structure VaultConfig where
  address : String
  token : String
  mount : String := "pki"
  role : String
  kvMount : String := "secret"
  acmePrefix : String := "acme"
  timeout : Duration := .ofSeconds 30
  deriving DecidableEq, Repr

namespace VaultConfig

def trimSlashes (s : String) : List Char :=
  let isSlash := fun c : Char => c = '/'
  ((s.toList.dropWhile isSlash).reverse.dropWhile isSlash).reverse

def url (c : VaultConfig) (path : String) : String :=
  let isSlash := fun ch : Char => ch = '/'
  String.ofList (c.address.toList.reverse.dropWhile isSlash).reverse ++ "/v1/" ++
    String.ofList (path.toList.dropWhile isSlash)

def pkiPath (c : VaultConfig) (endpoint : String) : String :=
  String.ofList (trimSlashes c.mount) ++ "/" ++ endpoint

def acmePath (c : VaultConfig) (commonName : String) : String :=
  String.ofList (trimSlashes c.kvMount) ++ "/data/" ++ String.ofList (trimSlashes c.acmePrefix) ++
    "/" ++ commonName

open Text in
def text (c : VaultConfig) : String :=
  shownRecord "VaultConfig" [("address", quoted c.address), ("token", quoted "XXXX"),
    ("mount", quoted c.mount), ("role", quoted c.role), ("kv_mount", quoted c.kvMount),
    ("acme_prefix", quoted c.acmePrefix), ("timeout", c.timeout.text)]

end VaultConfig

end CertLifecycle
