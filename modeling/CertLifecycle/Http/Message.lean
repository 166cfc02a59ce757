import CertLifecycle.Http.Exchange

/-!
Requests and responses as bytes, on a connection that carries one of each. `Response.read?` gives
the response as soon as the bytes hold all of it.
-/

namespace CertLifecycle.Http

def lineFeed : UInt8 := 10

def carriageReturn : UInt8 := 13

def colon : UInt8 := 58

namespace Request

def server (r : Request) : String :=
  ((r.url.host.map Host.text).getD "") ++ (r.url.portNumber.map fun p => ":" ++ toString p).getD ""

def fields (r : Request) : List (String × String) :=
  [("Host", r.server), ("Accept", "*/*"), ("Connection", "close")] ++ r.headers ++
    (r.body.map fun b => ("Content-Length", toString b.length)).toList

def bytes (r : Request) : Bytes :=
  let lines := (r.method.text ++ " " ++ r.url.target ++ " HTTP/1.1")
    :: r.fields.map fun (name, value) => name ++ ": " ++ value
  Utf8.encode (String.join (lines.map (· ++ "\r\n")) ++ "\r\n") ++ r.body.getD []

end Request

def line? (bs : Bytes) : Option (Bytes × Bytes) :=
  match bs.dropWhile (· ≠ lineFeed) with
  | [] => none
  | _ :: rest =>
    let line := bs.takeWhile (· ≠ lineFeed)
    some (if line.getLast? = some carriageReturn then line.dropLast else line, rest)

theorem line?_length {bs line rest : Bytes} (h : line? bs = some (line, rest)) :
    rest.length < bs.length := by
  unfold line? at h
  have hd := (List.dropWhile_suffix (fun b => decide (b ≠ lineFeed)) (l := bs)).length_le
  split at h
  · exact nomatch h
  · rename_i hs
    simp only [Option.some.injEq, Prod.mk.injEq] at h
    rw [hs, h.2] at hd
    exact hd

def head? (bs : Bytes) : Option (List Bytes × Bytes) :=
  match _h : line? bs with
  | none => none
  | some (line, rest) =>
    if line.isEmpty then some ([], rest)
    else (head? rest).map fun (lines, rest) => (line :: lines, rest)
termination_by bs.length
decreasing_by exact line?_length _h

def digits? (bs : Bytes) : Option Nat :=
  if bs.isEmpty then none
  else bs.foldl (fun n b => do
    let n ← n
    if 48 ≤ b ∧ b ≤ 57 then some (10 * n + (b.toNat - 48)) else none) (some 0)

def status? (line : Bytes) : Option Nat :=
  let isBlank := fun b : UInt8 => b = 32
  if Utf8.encode "HTTP/1." <+: line then digits? (((line.dropWhile (!isBlank ·)).drop 1).take 3)
  else none

def lowered (b : UInt8) : UInt8 := if 65 ≤ b ∧ b ≤ 90 then b + 32 else b

def trimmed (value : Bytes) : Bytes :=
  let isBlank := fun b : UInt8 => b = 32 || b = 9
  ((value.dropWhile isBlank).reverse.dropWhile isBlank).reverse

def field? (name : String) (lines : List Bytes) : Option Bytes :=
  lines.findSome? fun line =>
    let key := line.takeWhile (· ≠ colon)
    if key.map lowered = Utf8.encode name then some (trimmed (line.drop (key.length + 1))) else none

inductive Framing where
  | chunked
  | sized (n : Nat)
  | untilEnd

namespace Framing

def ofHead (status : Nat) (fields : List Bytes) : Framing :=
  if status = 204 ∨ status = 304 then .sized 0
  else if (field? "transfer-encoding" fields).any (·.map lowered == Utf8.encode "chunked") then
    .chunked
  else match (field? "content-length" fields).bind digits? with
    | some n => .sized n
    | none => .untilEnd

def chunkSize? (line : Bytes) : Option Nat :=
  let ds := (line.map fun b => Text.hexDigit? (Char.ofUInt8 b)).takeWhile Option.isSome
  if ds.isEmpty then none else some (ds.foldl (fun n d => 16 * n + d.getD 0) 0)

def joinChunks? (bs : Bytes) : Option Bytes :=
  match _h : line? bs with
  | none => none
  | some (line, rest) =>
    match chunkSize? line with
    | none => none
    | some 0 => some []
    | some n =>
      if rest.length < n then none else (joinChunks? (rest.drop (n + 2))).map (rest.take n ++ ·)
termination_by bs.length
decreasing_by
  have := line?_length _h
  simp only [List.length_drop]
  omega

def body? : Framing → Bytes → Option Bytes
  | .chunked, bs => joinChunks? bs
  | .sized n, bs => if bs.length < n then none else some (bs.take n)
  | .untilEnd, _ => none

end Framing

def Response.read? (received : Bytes) (ended : Bool) : Option Response := do
  let (lines, rest) ← head? received
  let status ← lines.head?.bind status?
  let framing := Framing.ofHead status lines.tail
  let response := fun body => { status, location := field? "location" lines.tail, body }
  match framing.body? rest with
  | some body => return response (some body)
  | none =>
    if !ended then none
    else match framing with
      | .untilEnd => return response (some rest)
      | _ => return response none

end CertLifecycle.Http
