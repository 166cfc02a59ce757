import CertLifecycle.Text.Utf8

namespace CertLifecycle.Layout

def newline : UInt8 := 10

def carriageReturn : UInt8 := 13

def isLineBreak (b : UInt8) : Bool :=
  b = newline || b = carriageReturn

def closed (part : Bytes) : Bytes :=
  match (part.reverse.dropWhile isLineBreak).reverse with
  | [] => []
  | body => body ++ [newline]

/-- Drops carriage returns, and newlines that follow a newline or stand first. -/
def collapseAfter : (atLineStart : Bool) → Bytes → Bytes
  | _, [] => []
  | start, b :: bs =>
    if b = carriageReturn ∨ (b = newline ∧ start = true) then collapseAfter start bs
    else b :: collapseAfter (b = newline) bs

def collapse (part : Bytes) : Bytes :=
  collapseAfter true part

def tidy (part : Bytes) : Bytes :=
  closed (collapse part)

end CertLifecycle.Layout
