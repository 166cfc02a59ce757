import CertLifecycle.Yaml.Token

/-!
Documents as trees, complete or cut off. A collection records whether its end was reached, and
`broken` stands where no node could be read, so a decoder meets faults in the order of the text.
-/

namespace CertLifecycle.Yaml

inductive Node where
  | scalar (mark : Mark) (style : Style) (tag : Option Bytes) (text : String)
  | sequence (mark : Mark) (items : List Node) (closed : Bool)
  | mapping (mark : Mark) (entries : List (Node × Node)) (closed : Bool)
  | alias (number : Nat)
  | void (mark : Mark)
  | broken
  deriving Inhabited

def Node.empty (m : Mark) : Node := .scalar m .plain none ""

/-- The first document of a text. An anchor's number leads to a node by way of the place where the
number was given last. -/
structure Document where
  root : Node
  places : List (Nat × Nat)
  nodes : List (Nat × Node)
  isComplete : Bool
  isLast : Bool

def Document.follow (d : Document) : Node → Node
  | .alias n => ((d.places.lookup n).bind fun p => d.nodes.lookup p).getD .broken
  | n => n

structure Assembly where
  tokens : List Token
  handles : List (List Char × Bytes)
  names : List (List Char × Nat)
  places : List (Nat × Nat)
  nodes : List (Nat × Node)

abbrev Assemble := StateM Assembly

namespace Assemble

def peek : Assemble (Option Token) := do
  return (← get).tokens.head?

def peekLexeme : Assemble (Option Lexeme) := do
  return (← peek).map Token.lexeme

def advance : Assemble Unit :=
  modify fun a => { a with tokens := a.tokens.tail }

def fail : Assemble Node := do
  modify fun a => { a with tokens := [] }
  return .broken

def place (name : List Char) : Assemble Nat :=
  modifyGet fun a =>
    let number := a.names.length
    let place := a.places.length
    (place, { a with
      names := a.names.filter (·.1 ≠ name) ++ [(name, number)]
      places := (number, place) :: a.places })

def anchored (name : Option (List Char)) (read : Assemble Node) : Assemble Node :=
  match name with
  | none => read
  | some name => do
    let p ← place name
    let n ← read
    modify fun a => { a with nodes := (p, n) :: a.nodes }
    return n

def resolveTag? (handles : List (List Char × Bytes)) (t : TagText) : Option Bytes :=
  if t.handle.isEmpty then some t.suffix
  else (handles.lookup t.handle).map (· ++ t.suffix)

structure Properties where
  anchor : Option (List Char)
  tag : Option TagText
  mark : Mark

def properties : Assemble (Option Properties) := do
  match ← peek with
  | none => return none
  | some ⟨.anchor name, m⟩ => do
    advance
    match ← peekLexeme with
    | some (.tag t) => do
      advance
      return some ⟨some name, some t, m⟩
    | _ => return some ⟨some name, none, m⟩
  | some ⟨.tag t, m⟩ => do
    advance
    match ← peekLexeme with
    | some (.anchor name) => do
      advance
      return some ⟨some name, some t, m⟩
    | _ => return some ⟨none, some t, m⟩
  | some t => return some ⟨none, none, t.mark⟩

def scalarTag (tag : Option Bytes) : Option Bytes :=
  tag.filter (· ≠ Utf8.encode "!")

def valueOr (read : Assemble Node) (isAbsent : Lexeme → Bool) (absent : Token → Mark → Mark) :
    Assemble Node := do
  match ← peek with
  | some ⟨.value, m⟩ => do
    advance
    match ← peek with
    | none => return .broken
    | some t => if isAbsent t.lexeme then return .empty (absent t m) else read
  | some t => return .empty t.mark
  | none => return .broken

def endsBlockNode : Lexeme → Bool
  | .key | .value | .blockEnd => true
  | _ => false

def endsFlowValue : Lexeme → Bool
  | .flowEntry | .closeMapping => true
  | _ => false

def endsPairValue : Lexeme → Bool
  | .flowEntry | .closeSequence => true
  | _ => false

mutual

/-- Every call but one for each level takes a token. -/
def node : Nat → Bool → Bool → Assemble Node
  | 0, _, _ => fail
  | fuel + 1, inBlock, afterKey => do
    match ← peekLexeme with
    | some (.alias name) =>
      match (← get).names.lookup name with
      | some n => do
        advance
        return .alias n
      | none => fail
    | _ =>
      let some p ← properties | fail
      let tag := p.tag.bind (resolveTag? (← get).handles)
      if p.tag.isSome ∧ tag.isNone then fail
      else content fuel inBlock afterKey p tag

def content : Nat → Bool → Bool → Properties → Option Bytes → Assemble Node
  | 0, _, _, _, _ => fail
  | fuel + 1, inBlock, afterKey, p, tag => do
    match ← peekLexeme with
    | none => return .broken
    | some .blockEntry =>
      if afterKey then
        anchored p.anchor do
          let (ns, closed) ← itemsBelowKey fuel
          return .sequence p.mark ns closed
      else bare p tag
    | some (.scalar style text) =>
      anchored p.anchor do
        advance
        return .scalar p.mark style (scalarTag tag) (String.ofList text)
    | some .openSequence =>
      anchored p.anchor do
        advance
        let (ns, closed) ← flowItems fuel true
        return .sequence p.mark ns closed
    | some .openMapping =>
      anchored p.anchor do
        advance
        let (es, closed) ← flowEntries fuel true
        return .mapping p.mark es closed
    | some .blockSequence =>
      if inBlock then
        anchored p.anchor do
          advance
          let (ns, closed) ← blockItems fuel
          return .sequence p.mark ns closed
      else bare p tag
    | some .blockMapping =>
      if inBlock then
        anchored p.anchor do
          advance
          let (es, closed) ← blockEntries fuel
          return .mapping p.mark es closed
      else bare p tag
    | some _ => bare p tag

def bare (p : Properties) (tag : Option Bytes) : Assemble Node :=
  if p.anchor.isSome ∨ p.tag.isSome then
    anchored p.anchor (return .scalar p.mark .plain tag "")
  else fail

def blockItems : Nat → Assemble (List Node × Bool)
  | 0 => do
    let _ ← fail
    return ([], false)
  | fuel + 1 => do
    match ← peek with
    | some ⟨.blockEntry, m⟩ => do
      advance
      let n ← match ← peekLexeme with
        | none => pure .broken
        | some .blockEntry | some .blockEnd => pure (.empty m.next)
        | some _ => node fuel true false
      let (ns, closed) ← blockItems fuel
      return (n :: ns, closed)
    | some ⟨.blockEnd, _⟩ => do
      advance
      return ([], true)
    | _ => do
      let _ ← fail
      return ([], false)

def itemsBelowKey : Nat → Assemble (List Node × Bool)
  | 0 => do
    let _ ← fail
    return ([], false)
  | fuel + 1 => do
    match ← peek with
    | some ⟨.blockEntry, m⟩ => do
      advance
      let n ← match ← peekLexeme with
        | none => pure .broken
        | some .blockEntry => pure (.empty m.next)
        | some l => if endsBlockNode l then pure (.empty m.next) else node fuel true false
      let (ns, closed) ← itemsBelowKey fuel
      return (n :: ns, closed)
    | some _ => return ([], true)
    | none => return ([], false)

def blockEntries : Nat → Assemble (List (Node × Node) × Bool)
  | 0 => do
    let _ ← fail
    return ([], false)
  | fuel + 1 => do
    match ← peek with
    | some ⟨.key, m⟩ => do
      advance
      let k ← match ← peekLexeme with
        | none => pure .broken
        | some l => if endsBlockNode l then pure (.empty m.next) else node fuel true true
      let v ← valueOr (node fuel true true) endsBlockNode (fun _ m => m.next)
      let (es, closed) ← blockEntries fuel
      return ((k, v) :: es, closed)
    | some ⟨.blockEnd, _⟩ => do
      advance
      return ([], true)
    | _ => do
      let _ ← fail
      return ([], false)

def flowItems : Nat → Bool → Assemble (List Node × Bool)
  | 0, _ => do
    let _ ← fail
    return ([], false)
  | fuel + 1, isFirst => do
    match ← peekLexeme with
    | some .closeSequence => do
      advance
      return ([], true)
    | some .flowEntry => if isFirst then item fuel else do
      advance
      match ← peekLexeme with
      | some .closeSequence => do
        advance
        return ([], true)
      | _ => item fuel
    | _ => if isFirst then item fuel else do
      let _ ← fail
      return ([], false)

def item : Nat → Assemble (List Node × Bool)
  | 0 => do
    let _ ← fail
    return ([], false)
  | fuel + 1 => do
    let n ← match ← peek with
      | some ⟨.key, m⟩ => do
        advance
        let k ← match ← peek with
          | none => pure .broken
          | some t => match t.lexeme with
            | .value | .flowEntry | .closeSequence => do
              advance
              pure (.empty t.mark.next)
            | _ => node fuel false false
        let v ← valueOr (node fuel false false) endsPairValue (fun t _ => t.mark)
        pure (.mapping m [(k, v)] (← peek).isSome)
      | _ => node fuel false false
    let (ns, closed) ← flowItems fuel false
    return (n :: ns, closed)

def flowEntries : Nat → Bool → Assemble (List (Node × Node) × Bool)
  | 0, _ => do
    let _ ← fail
    return ([], false)
  | fuel + 1, isFirst => do
    match ← peekLexeme with
    | some .closeMapping => do
      advance
      return ([], true)
    | some .flowEntry => if isFirst then entry fuel else do
      advance
      match ← peekLexeme with
      | some .closeMapping => do
        advance
        return ([], true)
      | _ => entry fuel
    | _ => if isFirst then entry fuel else do
      let _ ← fail
      return ([], false)

def entry : Nat → Assemble (List (Node × Node) × Bool)
  | 0 => do
    let _ ← fail
    return ([], false)
  | fuel + 1 => do
    let (k, v) ← match ← peekLexeme with
      | some .key => do
        advance
        let k ← match ← peek with
          | none => pure .broken
          | some t =>
            if endsFlowValue t.lexeme || (match t.lexeme with | .value => true | _ => false) then
              pure (.empty t.mark)
            else node fuel false false
        let v ← valueOr (node fuel false false) endsFlowValue (fun t _ => t.mark)
        pure (k, v)
      | _ => do
        let k ← node fuel false false
        match ← peek with
        | some t => pure (k, .empty t.mark)
        | none => pure (k, .broken)
    let (es, closed) ← flowEntries fuel false
    return ((k, v) :: es, closed)

end

def directives : Bool → List (List Char × Bytes) → List Token →
    Option (List (List Char × Bytes) × List Token)
  | versioned, handles, ⟨.directive (.version major minor), _⟩ :: ts =>
    if versioned ∨ major ≠ 1 ∨ (minor ≠ 1 ∧ minor ≠ 2) then none else directives true handles ts
  | versioned, handles, ⟨.directive (.tag handle stem), _⟩ :: ts =>
    if (handles.lookup handle).isSome then none
    else directives versioned (handles ++ [(handle, stem)]) ts
  | _, handles, ts => some (handles, ts)

def defaultHandles : List (List Char × Bytes) :=
  [(['!'], Utf8.encode "!"), (['!', '!'], Utf8.encode "tag:yaml.org,2002:")]

def root (fuel : Nat) : Assemble Node := do
  match ← peek with
  | none => return .broken
  | some t => match t.lexeme with
    | .directive _ | .documentStart | .documentEnd | .streamEnd => return .empty t.mark
    | _ => node fuel true false

def endsStream : List Token → Bool
  | ⟨.documentEnd, _⟩ :: ts => endsStream ts
  | ⟨.streamEnd, _⟩ :: _ => true
  | _ => false

end Assemble

def Document.start? (ts : List Token) : Option (Bool × List (List Char × Bytes) × List Token) :=
  match ts with
  | [] => none
  | t :: _ => match t.lexeme with
    | .directive _ | .documentStart =>
      match Assemble.directives false [] ts with
      | some (handles, ⟨.documentStart, _⟩ :: ts) => some (true, handles, ts)
      | _ => none
    | _ => some (false, [], ts)

def Document.ofTokens (ts : List Token) : Document :=
  match ts with
  | ⟨.streamEnd, m⟩ :: _ => ⟨.void m, [], [], true, true⟩
  | ts => match Document.start? ts with
    | none => ⟨.broken, [], [], false, true⟩
    | some (isExplicit, handles, ts) =>
      let fuel := 4 * ts.length + 4
      let read := if isExplicit then Assemble.root fuel else Assemble.node fuel true false
      let (n, a) := read.run ⟨ts, handles ++ Assemble.defaultHandles, [], [], []⟩
      ⟨n, a.places, a.nodes, !a.tokens.isEmpty, Assemble.endsStream a.tokens⟩

def Document.ofText (text : String) : Document :=
  .ofTokens (tokens text)

end CertLifecycle.Yaml
