import CertLifecycle.Number.Natural

namespace CertLifecycle.Asn1

structure Element where
  tagClass : Nat
  constructed : Bool
  number : Nat
  content : Bytes
  header : Bytes
  deriving DecidableEq, Repr

def Element.raw (e : Element) : Bytes :=
  e.header ++ e.content

def longNumber? : Nat → Nat → Bytes → Option (Nat × Bytes)
  | 0, _, _ => none
  | _, _, [] => none
  | k + 1, n, b :: bs =>
    let n := (n * 128 + b.toNat % 128) % UInt32.size
    if b < 128 then some (n, bs) else longNumber? k n bs

def number? : Bytes → Option (UInt8 × Nat × Bytes)
  | [] => none
  | b :: bs =>
    if b.toNat % 32 = 31 then (longNumber? 5 0 bs).map fun (n, rest) => (b, n, rest)
    else some (b, b.toNat % 32, bs)

def length? : Bytes → Option (Nat × Bytes)
  | [] => none
  | b :: bs =>
    if b < 128 then some (b.toNat, bs)
    else if b = 128 ∨ b = 255 then none
    else
      let k := b.toNat - 128
      let n := BigEndian.toNat (bs.take k)
      if k ≤ bs.length ∧ n < UInt64.size then some (n, bs.drop k) else none

def Element.read? (bs : Bytes) : Option (Element × Bytes) := do
  let (lead, number, afterTag) ← number? bs
  let (length, rest) ← length? afterTag
  if rest.length < length then none
  let header := bs.take (bs.length - rest.length)
  let e : Element := {
    tagClass := lead.toNat / 64
    constructed := lead.toNat / 32 % 2 = 1
    number
    content := rest.take length
    header }
  return (e, rest.drop length)

theorem longNumber?_length {k n m : Nat} {bs rest : Bytes}
    (h : longNumber? k n bs = some (m, rest)) : rest.length ≤ bs.length := by
  induction k generalizing n bs with
  | zero => simp [longNumber?] at h
  | succ k ih =>
    cases bs with
    | nil => simp [longNumber?] at h
    | cons b bs =>
      simp only [longNumber?] at h
      split at h
      · simp only [Option.some.injEq, Prod.mk.injEq] at h
        simp [← h.2]
      · have := ih h
        simp only [List.length_cons]
        omega

theorem number?_length {bs rest : Bytes} {b : UInt8} {n : Nat}
    (h : number? bs = some (b, n, rest)) : rest.length < bs.length := by
  cases bs with
  | nil => simp [number?] at h
  | cons c bs =>
    simp only [number?] at h
    split at h
    · simp only [Option.map_eq_some_iff, Prod.exists, Prod.mk.injEq] at h
      obtain ⟨m, r, hr, _, _, rfl⟩ := h
      have := longNumber?_length hr
      simp only [List.length_cons]
      omega
    · simp only [Option.some.injEq, Prod.mk.injEq] at h
      simp [← h.2.2]

theorem length?_length {bs rest : Bytes} {n : Nat} (h : length? bs = some (n, rest)) :
    rest.length ≤ bs.length := by
  cases bs with
  | nil => simp [length?] at h
  | cons b bs =>
    simp only [length?] at h
    split at h
    · simp only [Option.some.injEq, Prod.mk.injEq] at h
      simp [← h.2]
    · split at h
      · simp at h
      · split at h
        · simp only [Option.some.injEq, Prod.mk.injEq] at h
          rw [← h.2]
          simp only [List.length_drop, List.length_cons]
          omega
        · simp at h

theorem Element.read?_length {bs rest : Bytes} {e : Element}
    (h : Element.read? bs = some (e, rest)) : rest.length < bs.length := by
  unfold Element.read? at h
  simp only [bind, Option.bind_eq_some_iff, Prod.exists] at h
  obtain ⟨lead, number, b1, h1, n, b2, h2, h⟩ := h
  have := number?_length h1
  have := length?_length h2
  split at h
  · simp at h
  · simp only [pure, Option.some.injEq, Prod.mk.injEq] at h
    rw [← h.2]
    simp only [List.length_drop]
    omega

/-- The elements up to the first position where none can be read, and the bytes from there on. -/
def Element.readMany (bs : Bytes) : List Element × Bytes :=
  match _h : Element.read? bs with
  | none => ([], bs)
  | some (e, rest) =>
    let (es, left) := Element.readMany rest
    (e :: es, left)
termination_by bs.length
decreasing_by exact Element.read?_length _h

def Element.readAll? (bs : Bytes) : Option (List Element) :=
  match Element.readMany bs with
  | (es, []) => some es
  | _ => none

namespace Tag

def boolean : Nat := 1
def integer : Nat := 2
def bitString : Nat := 3
def octetString : Nat := 4
def oid : Nat := 6
def sequence : Nat := 16
def set : Nat := 17
def utcTime : Nat := 23
def generalizedTime : Nat := 24

end Tag

def expect? (number : Nat) (bs : Bytes) : Option (Element × Bytes) := do
  let (e, rest) ← Element.read? bs
  if e.number = number then some (e, rest) else none

end CertLifecycle.Asn1
