import CertLifecycle.Http.Status
import CertLifecycle.Http.Url
import CertLifecycle.Vault.Error

namespace CertLifecycle.Http

inductive Method where
  | get
  | post
  deriving DecidableEq, Repr

namespace Method

def text : Method → String
  | .get => "GET"
  | .post => "POST"

end Method

structure Request where
  method : Method
  url : Url
  headers : List (String × String)
  body : Option Bytes := none
  deriving DecidableEq, Repr

structure Response where
  status : Nat
  location : Option Bytes := none
  /-- Absent if it ends before its announced length. -/
  body : Option Bytes
  deriving DecidableEq, Repr

class Exchange (m : Type → Type) where
  /-- Nothing, if no answer comes. -/
  exchange : Request → m (Option Response)

def isHeaderValue (s : String) : Bool :=
  s.toList.all fun c => c = '\t' || (' ' ≤ c && c ≠ '\x7f')

def maxUrlLength : Nat := 65534

def isSendable (u : Url) : Bool :=
  (u.host.all fun h => h.text.toList.all (!"\"`\x7b\x7d".toList.contains ·))
    && u.text.utf8ByteSize ≤ maxUrlLength

def isHttp (u : Url) : Bool := u.scheme = "http" || u.scheme = "https"

def maxRedirects : Nat := 10

def contentType : String := "Content-Type"

def redirected? (r : Request) (status : Nat) : Option Request :=
  if status = 301 ∨ status = 302 ∨ status = 303 then
    some { r with method := .get, headers := r.headers.filter (·.1 ≠ contentType), body := none }
  else if status = 307 ∨ status = 308 then some r
  else none

def next? (r : Request) (response : Response) : Option Request := do
  let next ← redirected? r response.status
  let location ← response.location.bind Utf8.decode?
  let url ← (r.url.resolve? location).filter isSendable
  return { next with url }

def follow {m : Type → Type} [Monad m] [Exchange m] :
    (left : Nat) → Request → m (Except HttpError Response)
  | left, r => do
    match ← Exchange.exchange r with
    | none => return .error .transport
    | some response =>
      match next? r response with
      | none => return .ok response
      | some next =>
        match left with
        | 0 => return .error .tooManyRedirects
        | left + 1 => if isHttp next.url then follow left next else return .error .request

def send {m : Type → Type} [Monad m] [Exchange m] (method : Method) (url : String)
    (headers : List (String × String)) (body : Option Bytes) : m (Except HttpError Response) :=
  match (Url.parse? url).filter fun u => isHttp u && isSendable u with
  | some url =>
    if headers.all (isHeaderValue ·.2) then follow maxRedirects ⟨method, url, headers, body⟩
    else return .error .request
  | none => return .error .request

structure Peer where
  answer : List Request → Option Response
  received : List Request := []

instance : Exchange (StateM Peer) where
  exchange r := modifyGet fun p =>
    let received := p.received ++ [r]
    (p.answer received, { p with received })

end CertLifecycle.Http
