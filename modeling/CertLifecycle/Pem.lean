import CertLifecycle.Text.Characters
import CertLifecycle.Encoding.Base64

/-!
Armoured blocks: a begin line, optional headers closed by a blank line, base64 text and an end line.
Whatever stands before a begin line is skipped. One malformed block refuses the whole text.
-/

namespace CertLifecycle

namespace Pem

structure Block where
  tag : String
  headers : List String
  contents : Bytes
  deriving DecidableEq, Repr

inductive Error where
  | missingBeginTag
  | missingEndTag
  | mismatchedTags (opened closed : String)
  | invalidData (cause : Base64.Error)
  | invalidHeader (line : String)
  | notUtf8 (cause : Utf8.Fault)
  deriving DecidableEq, Repr

def Error.message : Error → String
  | .missingBeginTag => "missing BEGIN tag"
  | .missingEndTag => "missing END tag"
  | .mismatchedTags b e => "mismatching BEGIN (\"" ++ b ++ "\") and END (\"" ++ e ++ "\") tags"
  | .invalidData e => "invalid data: " ++ e.message
  | .invalidHeader l => "invalid header: " ++ l
  | .notUtf8 e => "invalid utf-8 value: " ++ e.message

/-- Splits behind the marker. A byte that breaks a partial match is not tried as a new start, so
`------BEGIN ` holds no `-----BEGIN `. -/
def splitBehind (marker : Bytes) : Bytes → Bytes → Option (Bytes × Bytes)
  | _, [] => none
  | todo, b :: bs =>
    match (if todo.head? = some b then todo.tail else marker) with
    | [] => some ([b], bs)
    | todo => (splitBehind marker todo bs).map fun (front, rest) => (b :: front, rest)

def readUntil (marker : Bytes) (bs : Bytes) : Option (Bytes × Bytes) :=
  (splitBehind marker marker bs).map fun (front, rest) =>
    (front.take (front.length - marker.length), rest)

def beginMark : Bytes := Utf8.encode "-----BEGIN "

def endMark : Bytes := Utf8.encode "-----END "

def dashes : Bytes := Utf8.encode "-----"

def isSpace (b : UInt8) : Bool :=
  b = 32 || b = 9 || b = 10 || b = 13

def skipSpace (bs : Bytes) : Bytes :=
  bs.dropWhile isSpace

structure Frame where
  opened : Bytes
  headers : Bytes
  data : Bytes
  closed : Bytes

/-- The first blank line, written with `\n` or else with `\r\n`, ends the headers. -/
def splitHeaders (payload : Bytes) : Bytes × Bytes :=
  match readUntil [10, 10] payload with
  | some found => found
  | none => (readUntil [13, 10, 13, 10] payload).getD ([], payload)

def nextFrame? (bs : Bytes) : Option (Frame × Bytes) := do
  let (_, bs) ← readUntil beginMark bs
  let (opened, bs) ← readUntil dashes bs
  let (payload, bs) ← readUntil endMark (skipSpace bs)
  let (closed, bs) ← readUntil dashes bs
  let (headers, data) := splitHeaders payload
  return (⟨opened, headers, data, closed⟩, skipSpace bs)

theorem splitBehind_length {marker todo bs front rest : Bytes}
    (h : splitBehind marker todo bs = some (front, rest)) : rest.length < bs.length := by
  induction bs generalizing todo front with
  | nil => simp [splitBehind] at h
  | cons b bs ih =>
    unfold splitBehind at h
    split at h
    · simp only [Option.some.injEq, Prod.mk.injEq] at h
      simp [← h.2]
    · simp only [Option.map_eq_some_iff] at h
      obtain ⟨⟨f, r⟩, hfr, he⟩ := h
      simp only [Prod.mk.injEq] at he
      have := ih (he.2 ▸ hfr)
      simp only [List.length_cons]
      omega

theorem readUntil_length {marker bs front rest : Bytes}
    (h : readUntil marker bs = some (front, rest)) : rest.length < bs.length := by
  simp only [readUntil, Option.map_eq_some_iff] at h
  obtain ⟨⟨f, r⟩, hfr, he⟩ := h
  simp only [Prod.mk.injEq] at he
  exact he.2 ▸ splitBehind_length hfr

theorem skipSpace_length (bs : Bytes) : (skipSpace bs).length ≤ bs.length :=
  (List.dropWhile_suffix _).length_le

theorem nextFrame?_length {bs rest : Bytes} {f : Frame} (h : nextFrame? bs = some (f, rest)) :
    rest.length < bs.length := by
  simp only [nextFrame?, bind, Option.bind_eq_some_iff, Prod.exists, pure, Option.some.injEq,
    Prod.mk.injEq] at h
  obtain ⟨_, b1, h1, _, b2, h2, _, b3, h3, _, b4, h4, _, rfl⟩ := h
  have := readUntil_length h1
  have := readUntil_length h2
  have := readUntil_length h3
  have := readUntil_length h4
  have := skipSpace_length b2
  have := skipSpace_length b4
  omega

def frames (bs : Bytes) : List Frame :=
  match _h : nextFrame? bs with
  | none => []
  | some (f, rest) => f :: frames rest
termination_by bs.length
decreasing_by exact nextFrame?_length _h

def readText (bs : Bytes) : Except Error String :=
  (Utf8.decode bs).mapError .notUtf8

def readHeader (line : String) : Except Error String :=
  let line := Text.trimEnd line
  if ':' ∈ line.toList then .ok line else .error (.invalidHeader line)

def Frame.read (f : Frame) : Except Error Block := do
  let tag ← readText f.opened
  if tag.isEmpty then throw .missingBeginTag
  let closed ← readText f.closed
  if closed.isEmpty then throw .missingEndTag
  if tag ≠ closed then throw (.mismatchedTags tag closed)
  let data ← readText f.data
  let symbols := Utf8.encode (String.ofList (data.toList.filter fun c => !Text.isBlank c))
  let contents ← (Base64.decode symbols).mapError .invalidData
  let headers ← readText f.headers
  let headers ← (Text.lines headers).mapM readHeader
  return ⟨tag, headers, contents⟩

def parse (bs : Bytes) : Except Error (List Block) :=
  (frames bs).mapM Frame.read

end Pem

end CertLifecycle
