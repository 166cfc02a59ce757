import CertLifecycle.Proofs.BlockReading
import CertLifecycle.Proofs.CollapsedText

/-!
What a text means once its blank lines are left out. Frames stay where they are; the blank line that
ends a block's headers goes with the others, so headers run into the data behind them.
-/

namespace CertLifecycle

open Layout

namespace Pem

theorem head?_skipSpace (bs : Bytes) : ∀ b ∈ (skipSpace bs).head?, isSpace b = false := by
  intro b hb
  have hnot := List.head?_dropWhile_not isSpace bs
  rw [← skipSpace, Option.mem_def.mp hb] at hnot
  simpa using hnot

theorem isSpace_of_isLineBreak {b : UInt8} (h : isLineBreak b = true) : isSpace b = true := by
  obtain rfl | rfl := isLineBreak_iff.mp h <;> rfl

theorem isLineBreak_of_not_isSpace {b : UInt8} (h : ¬ isSpace b = true) : isLineBreak b = false :=
  Bool.eq_false_iff.mpr fun hb => h (isSpace_of_isLineBreak hb)

theorem skipSpace_collapse (s : Bool) (bs : Bytes) :
    skipSpace (collapseAfter s bs) = collapseAfter false (skipSpace bs) := by
  fun_induction collapseAfter s bs with
  | case1 s => rfl
  | case2 s b bs dropped ih =>
    have hspace := isSpace_of_isLineBreak (isLineBreak_of_dropped dropped)
    rw [ih, skipSpace, skipSpace, List.dropWhile_cons_of_pos hspace]
  | case3 s b bs kept ih =>
    by_cases hspace : isSpace b = true
    · have hskip (bs : Bytes) : skipSpace (b :: bs) = skipSpace bs :=
        List.dropWhile_cons_of_pos hspace
      rw [hskip, hskip]
      exact ih
    · have hkeep (bs : Bytes) : skipSpace (b :: bs) = b :: bs :=
        List.dropWhile_cons_of_neg hspace
      have hplain : isLineBreak b = false := isLineBreak_of_not_isSpace hspace
      have hstart : decide (b = newline) = false :=
        decide_eq_false (not_isLineBreak_iff.mp hplain).1
      rw [hkeep, hkeep, collapseAfter_cons hplain, hstart]

section Search

variable {marker todo todo' bs : Bytes} {s : Bool}

theorem advance_break (hplain : ∀ b ∈ todo, isLineBreak b = false) {b : UInt8}
    (hb : isLineBreak b = true) : advance marker todo b = marker := by
  refine if_neg fun h => ?_
  have hnot := hplain b (List.mem_of_mem_head? h)
  rw [hb] at hnot
  cases hnot

theorem advance_plain (hmarker : ∀ b ∈ marker, isLineBreak b = false)
    (hplain : ∀ b ∈ todo, isLineBreak b = false) (b : UInt8) :
    ∀ c ∈ advance marker todo b, isLineBreak c = false := by
  unfold advance
  split
  · exact fun c hc => hplain c (List.mem_of_mem_tail hc)
  · exact hmarker

/-- How two searches stand to one another, the second over what is left of the first one's text:
they agree, or the first has just met a carriage return and a line break comes next. -/
def Sync (marker : Bytes) (s : Bool) (todo todo' bs : Bytes) : Prop :=
  todo' = todo ∧ (s = true → todo = marker) ∨
    todo = marker ∧ (s = true → todo' = marker) ∧ ∀ b ∈ bs.head?, isLineBreak b = true

theorem splitBehind_collapse (hne : marker ≠ []) (hmarker : ∀ b ∈ marker, isLineBreak b = false)
    (returns : ReturnsEndLines bs) (hplain : ∀ b ∈ todo, isLineBreak b = false)
    (hplain' : ∀ b ∈ todo', isLineBreak b = false) (sync : Sync marker s todo todo' bs) :
    splitBehind marker todo' (collapseAfter s bs) = (splitBehind marker todo bs).map fun q =>
      (collapseAfter s q.1, collapseAfter false q.2) := by
  induction bs generalizing s todo todo' with
  | nil => rfl
  | cons b bs ih =>
    obtain ⟨hnext, hrest⟩ := List.isChain_cons.mp returns
    by_cases hbreak : isLineBreak b = true
    · -- The first search starts afresh behind a line break.
      have hfirst : advance marker todo b = marker := advance_break hplain hbreak
      have hstart : advance marker todo b ≠ [] := by rwa [hfirst]
      rw [splitBehind_of_advance hstart, hfirst, Option.map_map]
      obtain rfl | rfl := isLineBreak_iff.mp hbreak
      · rw [collapseAfter_newline]
        cases s with
        | true =>
          have htodo' : todo' = marker := by
            obtain ⟨h, hs⟩ | ⟨-, hs, -⟩ := sync
            · exact h.trans (hs rfl)
            · exact hs rfl
          exact ih hrest hmarker hplain' (.inl ⟨htodo', fun _ => rfl⟩)
        | false =>
          have hsecond : advance marker todo' 10 = marker := advance_break hplain' hbreak
          have hstart' : advance marker todo' 10 ≠ [] := by rwa [hsecond]
          have hagain := ih (s := true) hrest hmarker hmarker (.inl ⟨rfl, fun _ => rfl⟩)
          simp only [Bool.false_eq_true, if_false, List.singleton_append]
          rw [splitBehind_of_advance hstart', hsecond, hagain, Option.map_map]
          rfl
      · rw [collapseAfter_return]
        have hsync : Sync marker s marker todo' bs := by
          refine .inr ⟨rfl, fun hs => ?_, fun c hc => hnext c hc rfl⟩
          obtain ⟨h, hsame⟩ | ⟨-, hsame, -⟩ := sync
          · exact h.trans (hsame hs)
          · exact hsame hs
        rw [ih hrest hmarker hplain' hsync]
        congr 1
    · have hb : isLineBreak b = false := by simpa using hbreak
      have hsame : todo' = todo := by
        obtain ⟨h, -⟩ | ⟨-, -, h⟩ := sync
        · exact h
        · exact absurd (h b rfl) hbreak
      subst hsame
      rw [collapseAfter_cons hb]
      by_cases hnil : advance marker todo' b = []
      · rw [splitBehind_of_advance_nil hnil, splitBehind_of_advance_nil hnil, Option.map_some,
          collapseAfter_cons hb]
        rfl
      · have hadvance := advance_plain hmarker hplain b
        have hagain := ih (s := false) hrest hadvance hadvance (.inl ⟨rfl, nofun⟩)
        rw [splitBehind_of_advance hnil, splitBehind_of_advance hnil, hagain, Option.map_map,
          Option.map_map]
        congr 1
        funext q
        simp only [Function.comp_apply, collapseAfter_cons hb]

theorem readUntil_collapse (hne : marker ≠ []) (hmarker : ∀ b ∈ marker, isLineBreak b = false)
    (returns : ReturnsEndLines bs) (s : Bool) :
    readUntil marker (collapseAfter s bs) = (readUntil marker bs).map fun q =>
      (collapseAfter s q.1, collapseAfter false q.2) := by
  unfold readUntil
  rw [splitBehind_collapse hne hmarker returns hmarker hmarker (.inl ⟨rfl, fun _ => rfl⟩),
    Option.map_map, Option.map_map]
  refine Option.map_congr ?_
  rintro ⟨front, rest⟩ hfound
  obtain ⟨-, before, hbefore⟩ := splitBehind_sound (List.nil_append marker).symm hfound
  rw [List.nil_append] at hbefore
  subst hbefore
  simp [collapseAfter_append_word hne hmarker]

end Search

theorem splitHeaders_collapse (s : Bool) (payload : Bytes) :
    splitHeaders (collapseAfter s payload) = ([], collapseAfter s payload) :=
  splitHeaders_of_noBlankLines (noBlankLines_collapse s payload).1

structure Collapses (f g : Frame) : Prop where
  opened : g.opened = collapseAfter false f.opened
  closed : g.closed = collapseAfter false f.closed
  headers : g.headers = []
  data : ∃ payload, splitHeaders payload = (f.headers, f.data) ∧
    (∀ b ∈ payload.head?, isSpace b = false) ∧ g.data = collapseAfter false payload

variable {bs : Bytes}

theorem returns_suffix {part : Bytes} (returns : ReturnsEndLines bs) (h : part <:+ bs) :
    ReturnsEndLines part :=
  returns.infix h.isInfix

theorem readUntil_suffix {marker front rest : Bytes}
    (h : readUntil marker bs = some (front, rest)) : rest <:+ bs := by
  rw [readUntil_sound h, ← List.append_assoc]
  exact List.suffix_append _ _

theorem skipSpace_suffix (bs : Bytes) : skipSpace bs <:+ bs :=
  List.dropWhile_suffix _

theorem endFrame?_collapse (returns : ReturnsEndLines bs) : match endFrame? bs with
    | none => endFrame? (collapseAfter false bs) = none
    | some (f, rest) => rest <:+ bs ∧ ∃ g, Collapses f g ∧
      endFrame? (collapseAfter false bs) = some (g, collapseAfter false rest) := by
  obtain ⟨-, hend, hdashes⟩ := marks_plain
  obtain ⟨-, end_ne, dashes_ne⟩ := marker_ne_nil
  simp only [endFrame?, bind, pure]
  rw [readUntil_collapse dashes_ne hdashes returns]
  cases h1 : readUntil dashes bs with
  | none => rfl
  | some q1 =>
    obtain ⟨opened, b1⟩ := q1
    have hsuffix1 : skipSpace b1 <:+ bs := (skipSpace_suffix b1).trans (readUntil_suffix h1)
    have returns1 := returns_suffix returns hsuffix1
    simp only [Option.map_some, Option.bind_some]
    rw [skipSpace_collapse, readUntil_collapse end_ne hend returns1]
    cases h2 : readUntil endMark (skipSpace b1) with
    | none => rfl
    | some q2 =>
      obtain ⟨payload, b2⟩ := q2
      have hsuffix2 : b2 <:+ bs := (readUntil_suffix h2).trans hsuffix1
      simp only [Option.map_some, Option.bind_some]
      rw [readUntil_collapse dashes_ne hdashes (returns_suffix returns hsuffix2)]
      cases h3 : readUntil dashes b2 with
      | none => rfl
      | some q3 =>
        obtain ⟨closed, b3⟩ := q3
        have hhead : ∀ b ∈ payload.head?, isSpace b = false := by
          intro b hb
          refine head?_skipSpace b1 b ?_
          rw [readUntil_sound h2, List.head?_append_of_ne_nil _ ?_]
          · exact hb
          · rintro rfl
            cases hb
        simp only [Option.map_some, Option.bind_some, splitHeaders_collapse]
        exact ⟨(readUntil_suffix h3).trans hsuffix2, _, ⟨rfl, rfl, rfl, payload, rfl, hhead, rfl⟩,
          rfl⟩

theorem nextFrame?_collapse (returns : ReturnsEndLines bs) (s : Bool) : match nextFrame? bs with
    | none => nextFrame? (collapseAfter s bs) = none
    | some (f, rest) => rest <:+ bs ∧ ∃ g, Collapses f g ∧
      nextFrame? (collapseAfter s bs) = some (g, collapseAfter false rest) := by
  rw [nextFrame?_eq, nextFrame?_eq, readUntil_collapse marker_ne_nil.1 marks_plain.1 returns]
  cases h1 : readUntil beginMark bs with
  | none => rfl
  | some q1 =>
    obtain ⟨before, b1⟩ := q1
    have hsuffix := readUntil_suffix h1
    have hframe := endFrame?_collapse (returns_suffix returns hsuffix)
    simp only [Option.map_some, Option.bind_some]
    cases h2 : endFrame? b1 with
    | none =>
      simp only [h2] at hframe
      rw [hframe]
      rfl
    | some q2 =>
      obtain ⟨f, raw⟩ := q2
      simp only [h2] at hframe
      obtain ⟨hraw, g, hcollapses, hg⟩ := hframe
      rw [hg]
      refine ⟨(skipSpace_suffix raw).trans (hraw.trans hsuffix), g, hcollapses, ?_⟩
      simp only [Option.map_some, skipSpace_collapse]

theorem frames_collapse (returns : ReturnsEndLines bs) (s : Bool) :
    List.Forall₂ Collapses (frames bs) (frames (collapseAfter s bs)) := by
  induction hn : bs.length using Nat.strongRecOn generalizing bs s with
  | ind n ih =>
    have hnext := nextFrame?_collapse returns s
    cases h : nextFrame? bs with
    | none =>
      simp only [h] at hnext
      rw [frames_of_none h, frames_of_none hnext]
      exact .nil
    | some q =>
      obtain ⟨f, rest⟩ := q
      simp only [h] at hnext
      obtain ⟨hsuffix, g, hcollapses, hg⟩ := hnext
      rw [frames_of_some h, frames_of_some hg]
      exact .cons hcollapses
        (ih _ (hn ▸ nextFrame?_length h) (returns_suffix returns hsuffix) false rfl)

theorem decode_collapse {bs : Bytes} {text : String} (h : Utf8.decode bs = .ok text) (s : Bool) :
    Utf8.decode (collapseAfter s bs) =
      .ok (String.ofList (Utf8.collapseChars s text.toList)) :=
  ((Utf8.codes_of_decode h).collapse s).decode_eq

theorem symbols_collapse (s : Bool) (text : String) :
    symbols (String.ofList (Utf8.collapseChars s text.toList)) = symbols text := by
  unfold symbols
  rw [String.toList_ofList, Utf8.filter_collapseChars]

section Frame

variable {f g : Frame} {b : Block}

theorem headers_eq_nil (reads : Reads f b) : b.headers = [] ↔ f.headers = [] := by
  obtain ⟨text, htext, hheaders⟩ := reads.headers
  constructor
  · intro h
    rw [h, mapM_eq_ok, List.forall₂_nil_right_iff] at hheaders
    have hcodes := Utf8.codes_of_decode htext
    rw [Text.lines_eq_nil hheaders] at hcodes
    exact hcodes.eq_nil
  · intro h
    rw [h] at htext
    obtain rfl : "" = text := Except.ok.inj htext
    exact (Except.ok.inj hheaders).symm

theorem splitHeaders_sound {payload headers data : Bytes}
    (h : splitHeaders payload = (headers, data)) : headers = [] ∧ data = payload ∨
      ∃ c blank, isSpace c = true ∧ payload = headers ++ (c :: blank ++ data) := by
  unfold splitHeaders at h
  split at h
  next found hfound =>
    rw [h] at hfound
    exact .inr ⟨10, [10], rfl, readUntil_sound hfound⟩
  next =>
    cases hcrlf : readUntil [13, 10, 13, 10] payload with
    | none =>
      rw [hcrlf] at h
      obtain ⟨hheaders, hdata⟩ := Prod.mk.inj h
      exact .inl ⟨hheaders.symm, hdata.symm⟩
    | some found =>
      rw [hcrlf] at h
      obtain rfl : found = (headers, data) := h
      exact .inr ⟨13, [10, 13, 10], rfl, readUntil_sound hcrlf⟩

theorem mem_of_splitHeaders {payload headers data : Bytes}
    (h : splitHeaders payload = (headers, data)) {c : UInt8} (hc : c ∈ headers) : c ∈ payload := by
  obtain ⟨rfl, -⟩ | ⟨d, blank, -, rfl⟩ := splitHeaders_sound h
  · cases hc
  · exact List.mem_append_left _ hc

theorem colon_mem_headers (reads : Reads f b) (h : b.headers ≠ []) : 58 ∈ f.headers := by
  obtain ⟨text, htext, hheaders⟩ := reads.headers
  obtain ⟨header, hheader⟩ := List.exists_mem_of_ne_nil _ h
  obtain ⟨line, hline, hread⟩ := exists_of_forall₂ (mapM_eq_ok.mp hheaders) hheader
  have hcolon : ':' ∈ (Text.trimEnd line).toList := by
    unfold readHeader at hread
    dsimp only at hread
    split at hread
    next h => exact h
    next => cases hread
  have hline' : ':' ∈ line.toList := Text.mem_of_mem_trimEnd hcolon
  have hcodes := Utf8.codes_of_decode htext
  exact (hcodes.mem_iff (b := 58) (by decide) (by decide)).mp (Text.mem_of_mem_lines hline hline')

theorem data_of_headers_nil {payload : Bytes} (hsplit : splitHeaders payload = (f.headers, f.data))
    (hhead : ∀ b ∈ payload.head?, isSpace b = false) (h : f.headers = []) : f.data = payload := by
  obtain ⟨-, hdata⟩ | ⟨c, blank, hspace, rfl⟩ := splitHeaders_sound hsplit
  · exact hdata
  · rw [h] at hhead
    rw [hhead c rfl] at hspace
    cases hspace

theorem tag_collapse {raw : Bytes} {tag : String} (h : Utf8.decode raw = .ok tag) :
    Utf8.decode (collapseAfter false raw) = .ok tag ↔ Utf8.Unfolded tag := by
  rw [decode_collapse h, Utf8.unfolded_iff]
  constructor
  · intro htag
    have hlist := congrArg String.toList (Except.ok.inj htag)
    rwa [String.toList_ofList] at hlist
  · intro htag
    rw [htag, String.ofList_toList]

theorem reads_collapse (collapses : Collapses f g) (reads : Reads f b) :
    Reads g b ↔ b.headers = [] ∧ Utf8.Unfolded b.tag := by
  obtain ⟨payload, hsplit, hhead, hdata⟩ := collapses.data
  constructor
  · intro h
    refine ⟨(headers_eq_nil h).mpr collapses.headers, ?_⟩
    rw [← tag_collapse reads.opened, ← collapses.opened]
    exact h.opened
  · rintro ⟨hheaders, htag⟩
    obtain ⟨data, hread, hcontents⟩ := reads.contents
    have hpayload := data_of_headers_nil hsplit hhead ((headers_eq_nil reads).mp hheaders)
    refine ⟨reads.tag_ne, ?_, ?_,
      ⟨String.ofList (Utf8.collapseChars false data.toList), ?_, ?_⟩, "", ?_, ?_⟩
    · rw [collapses.opened]
      exact (tag_collapse reads.opened).mpr htag
    · rw [collapses.closed]
      exact (tag_collapse reads.closed).mpr htag
    · rw [hdata, ← hpayload]
      exact decode_collapse hread false
    · rw [symbols_collapse]
      exact hcontents
    · rw [collapses.headers]
      rfl
    · rw [hheaders]
      rfl

theorem not_reads_collapse (collapses : Collapses f g) (reads : Reads f b)
    (hheaders : b.headers ≠ []) (c : Block) : ¬ Reads g c := by
  intro h
  obtain ⟨payload, hsplit, -, hdata⟩ := collapses.data
  obtain ⟨data, hread, hcontents⟩ := h.contents
  have hcolon : 58 ∈ g.data := by
    rw [hdata, mem_collapse (by decide)]
    exact mem_of_splitHeaders hsplit (colon_mem_headers reads hheaders)
  have hchar : ':' ∈ data.toList :=
    ((Utf8.codes_of_decode hread).mem_iff (b := 58) (by decide) (by decide)).mpr hcolon
  have hsymbol : 58 ∈ symbols data := by
    unfold symbols Utf8.encode
    rw [String.toList_ofList, List.mem_flatMap]
    exact ⟨':', List.mem_filter.mpr ⟨hchar, by decide⟩, by decide⟩
  exact absurd (Base64.isSymbol_of_decode hcontents 58 hsymbol) (by decide)

end Frame

theorem forall₂_reads_collapse {fs gs : List Frame} {blocks : List Block}
    (collapses : List.Forall₂ Collapses fs gs) (reads : List.Forall₂ Reads fs blocks) :
    List.Forall₂ Reads gs blocks ↔ ∀ b ∈ blocks, b.headers = [] ∧ Utf8.Unfolded b.tag := by
  induction collapses generalizing blocks with
  | nil =>
    cases reads
    simp
  | @cons f g fs gs hfg hrest ih =>
    cases reads with
    | @cons _ b _ blocks hread hreads =>
      rw [List.forall₂_cons, List.forall_mem_cons, reads_collapse hfg hread, ih hreads]

theorem headers_eq_nil_of_reads {fs gs : List Frame} {blocks others : List Block}
    (collapses : List.Forall₂ Collapses fs gs) (reads : List.Forall₂ Reads fs blocks)
    (again : List.Forall₂ Reads gs others) : ∀ b ∈ blocks, b.headers = [] := by
  induction collapses generalizing blocks others with
  | nil =>
    cases reads
    simp
  | @cons f g fs gs hfg hrest ih =>
    obtain _ | ⟨hread, hreads⟩ := reads
    obtain _ | ⟨hagain, hagains⟩ := again
    rw [List.forall_mem_cons]
    exact ⟨not_not.mp fun h => not_reads_collapse hfg hread h _ hagain, ih hreads hagains⟩

theorem parse_collapse_iff {text : Bytes} {blocks : List Block} (returns : ReturnsEndLines text)
    (accepted : parse text = .ok blocks) :
    parse (collapse text) = .ok blocks ↔ ∀ b ∈ blocks, b.headers = [] ∧ Utf8.Unfolded b.tag := by
  rw [parse_eq_ok] at accepted
  rw [parse_eq_ok, collapse]
  exact forall₂_reads_collapse (frames_collapse returns true) accepted

/-- Leaving out blank lines keeps no block with headers, nor a tag with a carriage return or an empty
line in it. Every other text, if its carriage returns end lines, keeps all of its blocks; and if
one of them has headers then the whole text is refused. -/
theorem parse_collapse {text : Bytes} {blocks : List Block} (accepted : parse text = .ok blocks) :
    (parse (collapse text) = .ok blocks →
      ∀ b ∈ blocks, b.headers = [] ∧ Utf8.Unfolded b.tag) ∧
    (ReturnsEndLines text → (∀ b ∈ blocks, b.headers = [] ∧ Utf8.Unfolded b.tag) →
      parse (collapse text) = .ok blocks) ∧
    (ReturnsEndLines text → (∃ b ∈ blocks, b.headers ≠ []) →
      ∃ e, parse (collapse text) = .error e) := by
  refine ⟨fun h => ?_, fun returns => (parse_collapse_iff returns accepted).mpr, ?_⟩
  · have htwice : parse (collapse (collapse text)) = .ok blocks := by
      rw [collapse, collapse, collapse_collapse]
      exact h
    exact (parse_collapse_iff (returnsEndLines_collapse true text) h).mp htwice
  · rintro returns ⟨b, hb, hheaders⟩
    cases hparse : parse (collapse text) with
    | error e => exact ⟨e, rfl⟩
    | ok others =>
      have hnone := headers_eq_nil_of_reads (frames_collapse returns true)
        (parse_eq_ok.mp accepted) (parse_eq_ok.mp hparse)
      exact absurd (hnone b hb) hheaders

def spacedText : Bytes :=
  Utf8.encode "\r\n-----BEGIN A-----\r\n\r\nAQID\n\r\n-----END A-----\r\n\n\n"

theorem parse_collapse_spacedText :
    parse (collapse spacedText) = .ok [⟨"A", [], [1, 2, 3]⟩] := by
  have accepted : parse spacedText = .ok [⟨"A", [], [1, 2, 3]⟩] := by decide +kernel
  have returns : ReturnsEndLines spacedText := by
    unfold ReturnsEndLines
    decide +kernel
  refine (parse_collapse accepted).2.1 returns ?_
  unfold Utf8.Unfolded
  decide +kernel

def headedText : Bytes :=
  Utf8.encode "-----BEGIN A-----\nProc-Type: 4,ENCRYPTED\n\nAQID\n-----END A-----\n"

theorem exists_refused_of_collapse : ∃ text blocks, parse text = .ok blocks ∧
    ∀ others, parse (collapse text) ≠ .ok others := by
  refine ⟨headedText, [⟨"A", ["Proc-Type: 4,ENCRYPTED"], [1, 2, 3]⟩], by decide +kernel, ?_⟩
  have hrefused : (parse (collapse headedText)).isOk = false := by decide +kernel
  intro others h
  rw [h] at hrefused
  cases hrefused

end Pem

end CertLifecycle
