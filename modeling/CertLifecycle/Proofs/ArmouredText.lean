import CertLifecycle.Proofs.BlockReading
import CertLifecycle.Proofs.LineLayout
import CertLifecycle.Proofs.TextEncodings

namespace CertLifecycle

open Layout

namespace Base64

theorem isSymbol_range {b : UInt8} (h : IsSymbol b) :
    43 ≤ b.toNat ∧ b.toNat ≤ 122 ∧ b ≠ 45 := by
  rcases h with rfl | h
  · decide
  unfold value? at h
  simp only [UInt8.le_iff_toNat_le, ← UInt8.toNat_inj, ne_eq, UInt8.reduceToNat] at h ⊢
  split_ifs at h
  all_goals first | omega | cases h

theorem lt_of_isSymbol {b : UInt8} (h : IsSymbol b) : b < 0x80 := by
  obtain ⟨-, hhigh, -⟩ := isSymbol_range h
  exact UInt8.lt_iff_toNat_lt.mpr (Nat.lt_of_le_of_lt hhigh (by decide))

theorem isLineBreak_of_isSymbol {b : UInt8} (h : IsSymbol b) : isLineBreak b = false := by
  obtain ⟨hlow, -, -⟩ := isSymbol_range h
  rw [not_isLineBreak_iff]
  constructor <;> rintro rfl <;> simp at hlow

theorem isSpace_of_isSymbol {b : UInt8} (h : IsSymbol b) : Pem.isSpace b = false := by
  obtain ⟨hlow, -, -⟩ := isSymbol_range h
  have hne (c : UInt8) (hc : c.toNat < 43) : b ≠ c := by
    rintro rfl
    exact absurd hlow (Nat.not_le.mpr hc)
  simp [Pem.isSpace, hne 32 (by decide), hne 9 (by decide), hne 10 (by decide), hne 13 (by decide)]

theorem isBlank_of_isSymbol {b : UInt8} (h : IsSymbol b) : Text.isBlank (Utf8.char b) = false := by
  obtain ⟨hlow, hhigh, -⟩ := isSymbol_range h
  simp only [Text.isBlank, Text.blankRanges, Utf8.toNat_char]
  simp
  omega

end Base64

namespace Pem

inductive LineEnd where
  | lf
  | crlf
  deriving DecidableEq, Repr

def LineEnd.text : LineEnd → Bytes
  | .lf => [10]
  | .crlf => [13, 10]

/-- A block without headers, line by line. The ends behind the end line are its own and those of the
blank lines that follow it. -/
structure Armour where
  tag : String
  contents : Bytes
  beginEnd : LineEnd
  lines : List (Bytes × LineEnd)
  ends : List LineEnd
  tag_ne : tag ≠ ""
  tag_plain : ∀ c ∈ tag.toList, c ≠ '-' ∧ c ≠ '\n' ∧ c ≠ '\r'
  lines_ne : ∀ l ∈ lines, l.1 ≠ []
  lines_encode : lines.flatMap Prod.fst = Base64.encode contents

namespace Armour

def body (lines : List (Bytes × LineEnd)) : Bytes :=
  lines.flatMap fun l => l.1 ++ l.2.text

variable (a : Armour)

def beginLine : Bytes :=
  beginMark ++ Utf8.encode a.tag ++ dashes

def endLine : Bytes :=
  endMark ++ Utf8.encode a.tag ++ dashes

def text : Bytes :=
  a.beginLine ++ a.beginEnd.text ++ body a.lines ++ a.endLine ++ a.ends.flatMap LineEnd.text

def block : Block :=
  ⟨a.tag, [], a.contents⟩

def frame : Frame :=
  ⟨Utf8.encode a.tag, [], body a.lines, Utf8.encode a.tag⟩

end Armour

inductive Spells : Bytes → List Block → Prop
  | nil : Spells [] []
  | cons (a : Armour) {text : Bytes} {blocks : List Block} (h : Spells text blocks) :
    Spells (a.text ++ text) (a.block :: blocks)

section Ends

variable {e : LineEnd} {ends : List LineEnd}

theorem isLineBreak_of_mem_ends {b : UInt8} (h : b ∈ ends.flatMap LineEnd.text) :
    isLineBreak b = true := by
  obtain ⟨e, -, hb⟩ := List.mem_flatMap.mp h
  rw [isLineBreak_iff]
  cases e with
  | lf => exact .inl (List.mem_singleton.mp hb)
  | crlf => simpa [LineEnd.text, or_comm] using hb

theorem skipSpace_ends_append (ends : List LineEnd) (more : Bytes) :
    skipSpace (ends.flatMap LineEnd.text ++ more) = skipSpace more :=
  skipSpace_append_of_nil (skipSpace_breaks fun _ hb => isLineBreak_of_mem_ends hb) more

theorem collapseAfter_end (s : Bool) (bs : Bytes) :
    collapseAfter s (e.text ++ bs) = (if s then [] else [10]) ++ collapseAfter true bs := by
  cases e with
  | lf => exact collapseAfter_newline s bs
  | crlf =>
    simp only [LineEnd.text, List.cons_append, List.nil_append]
    rw [collapseAfter_return, collapseAfter_newline]

theorem collapseAfter_ends (bs : Bytes) :
    collapseAfter true (ends.flatMap LineEnd.text ++ bs) = collapseAfter true bs := by
  induction ends with
  | nil => rfl
  | cons e ends ih =>
    rw [List.flatMap_cons, List.append_assoc, collapseAfter_end, ih]
    rfl

end Ends

namespace Armour

variable (a : Armour)

theorem encode_tag {b : UInt8} (h : b ∈ Utf8.encode a.tag) : b ≠ 45 ∧ isLineBreak b = false := by
  rw [not_isLineBreak_iff]
  refine ⟨?_, ?_, ?_⟩ <;> rintro rfl
  · exact (a.tag_plain _ (Utf8.char_mem_of_mem_encode (by decide) h)).1 rfl
  · exact (a.tag_plain _ (Utf8.char_mem_of_mem_encode (by decide) h)).2.1 rfl
  · exact (a.tag_plain _ (Utf8.char_mem_of_mem_encode (by decide) h)).2.2 rfl

theorem isSymbol_lines : ∀ l ∈ a.lines, ∀ b ∈ l.1, Base64.IsSymbol b := by
  intro l hl b hb
  refine Base64.isSymbol_encode a.contents b ?_
  rw [← a.lines_encode]
  exact List.mem_flatMap.mpr ⟨l, hl, hb⟩

theorem mem_body {b : UInt8} (h : b ∈ body a.lines) :
    Base64.IsSymbol b ∨ isLineBreak b = true := by
  obtain ⟨l, hl, hb⟩ := List.mem_flatMap.mp h
  rcases List.mem_append.mp hb with hb | hb
  · exact .inl (a.isSymbol_lines l hl b hb)
  · have hend : b ∈ [l.2].flatMap LineEnd.text := by simpa using hb
    exact .inr (isLineBreak_of_mem_ends hend)

theorem head?_body {lines : List (Bytes × LineEnd)} (hne : ∀ l ∈ lines, l.1 ≠ [])
    (hsymbols : ∀ l ∈ lines, ∀ b ∈ l.1, Base64.IsSymbol b) :
    ∀ b ∈ (body lines).head?, Base64.IsSymbol b := by
  cases lines with
  | nil => simp [body]
  | cons l lines =>
    rw [List.forall_mem_cons] at hne hsymbols
    intro b hb
    refine hsymbols.1 b (List.mem_of_mem_head? ?_)
    rw [body, List.flatMap_cons, List.append_assoc, List.head?_append_of_ne_nil _ hne.1] at hb
    exact hb

theorem noBlankLines_body {lines : List (Bytes × LineEnd)} (hne : ∀ l ∈ lines, l.1 ≠ [])
    (hsymbols : ∀ l ∈ lines, ∀ b ∈ l.1, Base64.IsSymbol b) : NoBlankLines (body lines) := by
  induction lines with
  | nil => exact .nil
  | cons l lines ih =>
    have hhead := head?_body (List.forall_mem_cons.mp hne).2 (List.forall_mem_cons.mp hsymbols).2
    have hrest := ih (List.forall_mem_cons.mp hne).2 (List.forall_mem_cons.mp hsymbols).2
    rw [List.forall_mem_cons] at hne hsymbols
    have hend : NoBlankLines (l.2.text ++ body lines) := by
      have hnewline : NoBlankLines (10 :: body lines) :=
        List.isChain_cons.mpr
          ⟨fun b hb _ => Base64.isLineBreak_of_isSymbol (hhead b hb), hrest⟩
      cases l.2 with
      | lf => exact hnewline
      | crlf => exact List.isChain_cons.mpr ⟨fun b _ h => absurd h (by decide), hnewline⟩
    have hword : NoBlankLines l.1 :=
      noBlankLines_of_word fun b hb => Base64.isLineBreak_of_isSymbol (hsymbols.1 b hb)
    rw [body, List.flatMap_cons, List.append_assoc]
    refine List.isChain_append.mpr ⟨hword, hend, fun b hb c _ h => ?_⟩
    have hplain := Base64.isLineBreak_of_isSymbol (hsymbols.1 b (List.mem_of_mem_getLast? hb))
    rw [h] at hplain
    cases hplain

theorem skipSpace_body (more : Bytes) :
    skipSpace (a.beginEnd.text ++ (body a.lines ++ (endMark ++ more))) =
      body a.lines ++ (endMark ++ more) := by
  have hend := skipSpace_ends_append [a.beginEnd] (body a.lines ++ (endMark ++ more))
  rw [List.flatMap_singleton] at hend
  rw [hend]
  refine skipSpace_of_head fun b hb => ?_
  cases hbody : body a.lines with
  | nil =>
    rw [hbody] at hb
    obtain rfl : 45 = b := Option.some.inj hb
    rfl
  | cons c rest =>
    rw [hbody] at hb
    obtain rfl : c = b := Option.some.inj hb
    have hsymbol : Base64.IsSymbol c :=
      head?_body a.lines_ne a.isSymbol_lines c (by rw [hbody]; rfl)
    exact Base64.isSpace_of_isSymbol hsymbol

theorem nextFrame?_text (more : Bytes) :
    nextFrame? (a.text ++ more) =
      some (a.frame, skipSpace (a.ends.flatMap LineEnd.text ++ more)) := by
  have htag : 45 ∉ Utf8.encode a.tag := fun h => (a.encode_tag h).1 rfl
  have hbody : 45 ∉ body a.lines := by
    intro h
    rcases a.mem_body h with h | h
    · exact (Base64.isSymbol_range h).2.2 rfl
    · cases h
  have hheaders : splitHeaders (body a.lines) = ([], body a.lines) :=
    splitHeaders_of_noBlankLines (noBlankLines_body a.lines_ne a.isSymbol_lines)
  have htext : a.text ++ more = [] ++ (beginMark ++ (Utf8.encode a.tag ++ (dashes ++
      (a.beginEnd.text ++ (body a.lines ++ (endMark ++ (Utf8.encode a.tag ++ (dashes ++
        (a.ends.flatMap LineEnd.text ++ more))))))))) := by
    simp only [text, beginLine, endLine, List.append_assoc, List.nil_append]
  have hend : endMark.head? = some 45 := by decide
  have hdashes : dashes.head? = some 45 := by decide
  rw [htext, nextFrame?_eq, readUntil_word head?_beginMark List.not_mem_nil, Option.bind_some,
    endFrame?, readUntil_word hdashes htag]
  simp only [bind, Option.bind_some, skipSpace_body]
  rw [readUntil_word hend hbody]
  simp only [Option.bind_some]
  rw [readUntil_word hdashes htag, hheaders]
  rfl

theorem filter_body (lines : List (Bytes × LineEnd))
    (hsymbols : ∀ l ∈ lines, ∀ b ∈ l.1, Base64.IsSymbol b) :
    (body lines).filter (fun b => !Text.isBlank (Utf8.char b)) = lines.flatMap Prod.fst := by
  induction lines with
  | nil => rfl
  | cons l lines ih =>
    rw [List.forall_mem_cons] at hsymbols
    have hword : l.1.filter (fun b => !Text.isBlank (Utf8.char b)) = l.1 :=
      List.filter_eq_self.mpr fun b hb => by
        rw [Base64.isBlank_of_isSymbol (hsymbols.1 b hb)]
        rfl
    have hend : l.2.text.filter (fun b => !Text.isBlank (Utf8.char b)) = [] := by
      cases l.2 <;> decide
    have hrest := ih hsymbols.2
    unfold body at hrest ⊢
    rw [List.flatMap_cons, List.filter_append, List.filter_append, hword, hend, hrest,
      List.append_nil, List.flatMap_cons]

theorem symbols_body :
    symbols (String.ofList ((body a.lines).map Utf8.char)) = Base64.encode a.contents := by
  have hfilter : ((body a.lines).map Utf8.char).filter (fun c => !Text.isBlank c) =
      (Base64.encode a.contents).map Utf8.char := by
    rw [← a.lines_encode, ← filter_body a.lines a.isSymbol_lines, List.filter_map]
    rfl
  rw [symbols, String.toList_ofList, hfilter, Utf8.encode_map_char]
  intro b hb
  exact Base64.lt_of_isSymbol (Base64.isSymbol_encode a.contents b hb)

theorem decode_body :
    Utf8.decode (body a.lines) = .ok (String.ofList ((body a.lines).map Utf8.char)) := by
  have hencode : Utf8.encode (String.ofList ((body a.lines).map Utf8.char)) = body a.lines := by
    refine Utf8.encode_map_char fun b hb => ?_
    rcases a.mem_body hb with h | h
    · exact Base64.lt_of_isSymbol h
    · obtain rfl | rfl := isLineBreak_iff.mp h <;> decide
  conv_lhs => rw [← hencode]
  exact Utf8.decode_encode _

theorem reads_frame : Reads a.frame a.block where
  tag_ne := a.tag_ne
  opened := Utf8.decode_encode a.tag
  closed := Utf8.decode_encode a.tag
  contents := by
    refine ⟨_, a.decode_body, ?_⟩
    rw [symbols_body]
    exact Base64.decode_encode a.contents
  headers := ⟨"", rfl, rfl⟩

def unified : Armour where
  tag := a.tag
  contents := a.contents
  beginEnd := .lf
  lines := a.lines.map fun l => (l.1, .lf)
  ends := (a.ends.take 1).map fun _ => .lf
  tag_ne := a.tag_ne
  tag_plain := a.tag_plain
  lines_ne := by
    rw [List.forall_mem_map]
    exact a.lines_ne
  lines_encode := by
    rw [List.flatMap_map]
    exact a.lines_encode

theorem collapse_body {lines : List (Bytes × LineEnd)} (hne : ∀ l ∈ lines, l.1 ≠ [])
    (hsymbols : ∀ l ∈ lines, ∀ b ∈ l.1, Base64.IsSymbol b) (more : Bytes) :
    collapseAfter true (body lines ++ more) =
      body (lines.map fun l => (l.1, .lf)) ++ collapseAfter true more := by
  induction lines with
  | nil => rfl
  | cons l lines ih =>
    rw [List.forall_mem_cons] at hne hsymbols
    have hword : ∀ b ∈ l.1, isLineBreak b = false :=
      fun b hb => Base64.isLineBreak_of_isSymbol (hsymbols.1 b hb)
    have hrest := ih hne.2 hsymbols.2
    unfold body at hrest ⊢
    simp only [List.flatMap_cons, List.map_cons, List.append_assoc]
    rw [collapseAfter_word hne.1 hword, collapseAfter_end, hrest]
    rfl

theorem line_plain : (∀ b ∈ a.beginLine, isLineBreak b = false) ∧
    ∀ b ∈ a.endLine, isLineBreak b = false := by
  obtain ⟨hbegin, hend, hdashes⟩ := marks_plain
  have htag : ∀ b ∈ Utf8.encode a.tag, isLineBreak b = false := fun b hb => (a.encode_tag hb).2
  unfold beginLine endLine
  simp only [List.forall_mem_append]
  exact ⟨⟨⟨hbegin, htag⟩, hdashes⟩, ⟨hend, htag⟩, hdashes⟩

theorem line_ne : a.beginLine ≠ [] ∧ a.endLine ≠ [] := by
  refine ⟨fun h => marker_ne_nil.2.2 ?_, fun h => marker_ne_nil.2.2 ?_⟩
  · exact (List.append_eq_nil_iff.mp h).2
  · exact (List.append_eq_nil_iff.mp h).2

theorem head?_text (more : Bytes) : (a.text ++ more).head? = some 45 := by
  simp only [text, beginLine, List.append_assoc]
  rfl

theorem collapse_text {more : Bytes} (h : ∀ b ∈ more.head?, isLineBreak b = false) (s : Bool) :
    collapseAfter s (a.text ++ more) = a.unified.text ++ collapseAfter s more := by
  have hends : collapseAfter false (a.ends.flatMap LineEnd.text ++ more) =
      a.unified.ends.flatMap LineEnd.text ++ collapseAfter s more := by
    unfold unified
    cases a.ends with
    | nil => exact collapseAfter_start h false s
    | cons e ends =>
      rw [List.flatMap_cons, List.append_assoc, collapseAfter_end, collapseAfter_ends,
        collapseAfter_start h true s]
      rfl
  simp only [text, List.append_assoc]
  rw [collapseAfter_word a.line_ne.1 a.line_plain.1, collapseAfter_end,
    collapse_body a.lines_ne a.isSymbol_lines, collapseAfter_word a.line_ne.2 a.line_plain.2, hends]
  simp only [beginLine, endLine, unified]
  rfl

end Armour

theorem Armour.spells (a : Armour) : Spells a.text [a.block] := by
  simpa using Spells.cons a .nil

namespace Spells

variable {text more : Bytes} {blocks others : List Block}

theorem append (h : Spells text blocks) (g : Spells more others) :
    Spells (text ++ more) (blocks ++ others) := by
  induction h with
  | nil => exact g
  | cons a h ih =>
    rw [List.append_assoc]
    exact .cons a ih

theorem head?_plain (h : Spells text blocks) : ∀ b ∈ text.head?, isLineBreak b = false := by
  cases h with
  | nil => exact nofun
  | cons a h =>
    intro b hb
    obtain rfl : 45 = b := Option.some.inj ((a.head?_text _).symm.trans hb)
    rfl

theorem frames_eq (h : Spells text blocks) : List.Forall₂ Reads (frames text) blocks := by
  induction h with
  | nil =>
    have hnone : nextFrame? [] = none := rfl
    rw [frames_of_none hnone]
    exact .nil
  | cons a h ih =>
    rw [frames_of_some (a.nextFrame?_text _), skipSpace_ends_append, frames_skipSpace]
    exact .cons a.reads_frame ih

theorem parse_eq (h : Spells text blocks) : parse text = .ok blocks :=
  parse_eq_ok.mpr h.frames_eq

theorem collapse (h : Spells text blocks) (s : Bool) : Spells (collapseAfter s text) blocks := by
  induction h with
  | nil => exact .nil
  | cons a h ih =>
    rw [a.collapse_text h.head?_plain]
    exact .cons a.unified ih

theorem exists_last (h : Spells text blocks) (hne : blocks ≠ []) :
    ∃ body breaks, text = body ++ [45] ++ breaks ∧ (∀ b ∈ breaks, isLineBreak b = true) ∧
      Spells (body ++ [45] ++ [newline]) blocks := by
  induction h with
  | nil => exact absurd rfl hne
  | @cons a text blocks h ih =>
    cases blocks with
    | nil =>
      cases h
      let core := a.beginLine ++ a.beginEnd.text ++ Armour.body a.lines ++ endMark ++
        Utf8.encode a.tag ++ [45, 45, 45, 45]
      have hsplit (ends : List LineEnd) :
          ({ a with ends } : Armour).text = core ++ [45] ++ ends.flatMap LineEnd.text := by
        simp only [Armour.text, Armour.endLine, core, List.append_assoc]
        rfl
      refine ⟨core, a.ends.flatMap LineEnd.text, ?_, fun b hb => isLineBreak_of_mem_ends hb, ?_⟩
      · rw [List.append_nil]
        exact hsplit a.ends
      · have hlast := Spells.cons { a with ends := [.lf] } .nil
        rw [List.append_nil, hsplit] at hlast
        exact hlast
    | cons c blocks =>
      obtain ⟨body, breaks, rfl, hbreaks, hlast⟩ := ih (List.cons_ne_nil c blocks)
      refine ⟨a.text ++ body, breaks, by simp only [List.append_assoc], hbreaks, ?_⟩
      rw [List.append_assoc, List.append_assoc, ← List.append_assoc body]
      exact .cons a hlast

theorem closed (h : Spells text blocks) : Spells (Layout.closed text) blocks := by
  by_cases hne : blocks = []
  · subst hne
    cases h
    exact .nil
  · obtain ⟨body, breaks, rfl, hbreaks, hlast⟩ := h.exists_last hne
    rw [closed_of_last (by decide) hbreaks]
    exact hlast

theorem tidy (h : Spells text blocks) : Spells (Layout.tidy text) blocks :=
  (h.collapse true).closed

end Spells

end Pem

end CertLifecycle
