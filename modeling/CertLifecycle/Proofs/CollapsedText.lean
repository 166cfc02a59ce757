import CertLifecycle.Proofs.CharacterCodes
import CertLifecycle.Proofs.LineLayout

namespace CertLifecycle

open Layout

namespace Layout

def ReturnsEndLines (bs : Bytes) : Prop :=
  bs.IsChain fun b c => b = 13 → isLineBreak c = true

theorem isLineBreak_of_dropped {b : UInt8} {s : Bool}
    (h : b = carriageReturn ∨ b = newline ∧ s = true) : isLineBreak b = true := by
  rw [isLineBreak_iff]
  obtain h | ⟨h, -⟩ := h
  · exact .inr h
  · exact .inl h

theorem noBlankLines_collapse (s : Bool) (bs : Bytes) : NoBlankLines (collapseAfter s bs) ∧
    (s = true → ∀ b ∈ (collapseAfter s bs).head?, isLineBreak b = false) := by
  fun_induction collapseAfter s bs with
  | case1 s => exact ⟨.nil, fun _ => nofun⟩
  | case2 s b bs dropped ih => exact ih
  | case3 s b bs kept ih =>
    obtain ⟨hrest, hhead⟩ := ih
    refine ⟨List.isChain_cons.mpr ⟨fun c hc hb => hhead (decide_eq_true hb) c hc, hrest⟩, ?_⟩
    intro hs c hc
    obtain rfl : b = c := Option.some.inj hc
    exact not_isLineBreak_iff.mpr ⟨fun hb => kept (.inr ⟨hb, hs⟩), fun hb => kept (.inl hb)⟩

theorem mem_collapse {c : UInt8} (h : isLineBreak c = false) (s : Bool) (bs : Bytes) :
    c ∈ collapseAfter s bs ↔ c ∈ bs := by
  fun_induction collapseAfter s bs with
  | case1 s => rfl
  | case2 s b bs dropped ih =>
    have hne : c ≠ b := by
      rintro rfl
      rw [isLineBreak_of_dropped dropped] at h
      cases h
    rw [ih, List.mem_cons, or_iff_right hne]
  | case3 s b bs kept ih => rw [List.mem_cons, List.mem_cons, ih]

theorem collapse_collapse (s : Bool) (bs : Bytes) :
    collapseAfter s (collapseAfter s bs) = collapseAfter s bs := by
  fun_induction collapseAfter s bs with
  | case1 s => rfl
  | case2 s b bs dropped ih => exact ih
  | case3 s b bs kept ih => rw [collapseAfter, if_neg kept, ih]

theorem returnsEndLines_collapse (s : Bool) (bs : Bytes) :
    ReturnsEndLines (collapseAfter s bs) := by
  fun_induction collapseAfter s bs with
  | case1 s => exact .nil
  | case2 s b bs dropped ih => exact ih
  | case3 s b bs kept ih =>
    exact List.isChain_cons.mpr ⟨fun c _ hb => absurd (.inl hb) kept, ih⟩

end Layout

namespace Utf8

def collapseChars : (atLineStart : Bool) → List Char → List Char
  | _, [] => []
  | start, c :: cs =>
    if c = '\r' ∨ c = '\n' ∧ start = true then collapseChars start cs
    else c :: collapseChars (c = '\n') cs

theorem collapseChars_cons {c : Char} (h : c ≠ '\n' ∧ c ≠ '\r') (s : Bool) (cs : List Char) :
    collapseChars s (c :: cs) = c :: collapseChars false cs := by
  have hkeep : ¬ (c = '\r' ∨ c = '\n' ∧ s = true) := by
    rintro (hc | ⟨hc, -⟩)
    · exact h.2 hc
    · exact h.1 hc
  rw [collapseChars, if_neg hkeep, decide_eq_false h.1]

theorem Codes.collapse {bs : Bytes} {cs : List Char} (h : Codes bs cs) (s : Bool) :
    Codes (collapseAfter s bs) (collapseChars s cs) := by
  induction h generalizing s with
  | nil => exact .nil
  | @single b hb bs cs h ih =>
    by_cases hbreak : isLineBreak b = true
    · obtain rfl | rfl := isLineBreak_iff.mp hbreak
      · rw [collapseAfter_newline]
        cases s with
        | true => exact ih true
        | false => exact .single hb (ih true)
      · rw [collapseAfter_return]
        exact ih s
    · have hplain : isLineBreak b = false := by simpa using hbreak
      have hne := not_isLineBreak_iff.mp hplain
      have hchar : char b ≠ '\n' ∧ char b ≠ '\r' :=
        ⟨fun h => hne.1 (char_inj.mp h), fun h => hne.2 (char_inj.mp h)⟩
      rw [collapseAfter_cons hplain, collapseChars_cons hchar]
      exact .single hb (ih false)
  | @word word c hw bs cs h ih =>
    have hplain : ∀ b ∈ word, isLineBreak b = false := by
      intro b hb
      rw [not_isLineBreak_iff]
      constructor <;> rintro rfl <;> exact absurd (hw.high _ hb) (by decide)
    have hchar : c ≠ '\n' ∧ c ≠ '\r' :=
      ⟨hw.wide 10 (by decide) (by decide), hw.wide 13 (by decide) (by decide)⟩
    rw [collapseAfter_word hw.ne hplain, collapseChars_cons hchar]
    exact .word hw (ih false)

theorem filter_collapseChars (s : Bool) (cs : List Char) :
    (collapseChars s cs).filter (fun c => !Text.isBlank c) =
      cs.filter fun c => !Text.isBlank c := by
  induction cs generalizing s with
  | nil => rfl
  | cons c cs ih =>
    unfold collapseChars
    split
    next h =>
      have hblank : Text.isBlank c = true := by
        obtain rfl | ⟨rfl, -⟩ := h <;> decide
      rw [ih, List.filter_cons_of_neg (by simp [hblank])]
    next => rw [List.filter_cons, List.filter_cons, ih]

def Unfolded (s : String) : Prop :=
  '\r' ∉ s.toList ∧ s.toList.IsChain fun c d => c = '\n' → d ≠ '\n'

theorem length_collapseChars (s : Bool) (cs : List Char) :
    (collapseChars s cs).length ≤ cs.length := by
  induction cs generalizing s with
  | nil => exact Nat.le_refl _
  | cons c cs ih =>
    unfold collapseChars
    split
    · exact Nat.le_succ_of_le (ih s)
    · exact Nat.succ_le_succ (ih _)

theorem collapseChars_eq_self {s : Bool} {cs : List Char} : collapseChars s cs = cs ↔
    '\r' ∉ cs ∧ (cs.IsChain fun c d => c = '\n' → d ≠ '\n') ∧
      (s = true → ∀ c ∈ cs.head?, c ≠ '\n') := by
  induction cs generalizing s with
  | nil => simp [collapseChars]
  | cons c cs ih =>
    unfold collapseChars
    split
    next h =>
      constructor
      · intro he
        have hle := length_collapseChars s cs
        rw [he, List.length_cons] at hle
        omega
      · rintro ⟨hreturn, -, hstart⟩
        obtain rfl | ⟨rfl, hs⟩ := h
        · exact absurd List.mem_cons_self hreturn
        · exact absurd rfl (hstart hs _ rfl)
    next h =>
      rw [not_or] at h
      rw [List.cons_inj_right, ih, List.isChain_cons, List.mem_cons, not_or]
      constructor
      · rintro ⟨hreturn, hchain, hstart⟩
        refine ⟨⟨Ne.symm h.1, hreturn⟩, ⟨fun d hd hc => hstart (decide_eq_true hc) d hd, hchain⟩, ?_⟩
        intro hs d hd
        obtain rfl : c = d := Option.some.inj hd
        exact fun hc => h.2 ⟨hc, hs⟩
      · rintro ⟨⟨-, hreturn⟩, ⟨hhead, hchain⟩, -⟩
        exact ⟨hreturn, hchain, fun hc d hd => hhead d hd (of_decide_eq_true hc)⟩

theorem unfolded_iff {s : String} : Unfolded s ↔ collapseChars false s.toList = s.toList := by
  rw [collapseChars_eq_self, Unfolded]
  simp

end Utf8

namespace Text

theorem mem_intercalate {sep : List Char} {pieces : List (List Char)} {piece : List Char}
    (h : piece ∈ pieces) {c : Char} (hc : c ∈ piece) : c ∈ sep.intercalate pieces := by
  induction pieces with
  | nil => cases h
  | cons p pieces ih =>
    cases pieces with
    | nil =>
      obtain rfl := List.mem_singleton.mp h
      simpa using hc
    | cons q pieces =>
      have hjoin : sep.intercalate (p :: q :: pieces) =
          p ++ (sep ++ sep.intercalate (q :: pieces)) := by
        simp [List.intercalate]
      rw [hjoin, List.mem_append, List.mem_append]
      rcases List.mem_cons.mp h with rfl | h
      · exact .inl hc
      · exact .inr (.inr (ih h))

theorem mem_of_mem_trimEnd {s : String} {c : Char} (h : c ∈ (trimEnd s).toList) :
    c ∈ s.toList := by
  rw [trimEnd, String.toList_ofList, dropTrailing, List.mem_reverse] at h
  exact List.mem_reverse.mp ((List.dropWhile_suffix _).subset h)

theorem lines_eq_nil {text : String} (h : lines text = []) : text.toList = [] := by
  have hjoined : ['\n'].intercalate (text.toList.splitOn '\n') = text.toList :=
    List.intercalate_splitOn '\n'
  rw [lines, List.map_eq_nil_iff, List.append_eq_nil_iff, List.map_eq_nil_iff] at h
  rcases List.eq_nil_or_concat (text.toList.splitOn '\n') with hnone | ⟨front, last, hsplit⟩
  · exact absurd hnone (List.splitOn_ne_nil _ _)
  rw [hsplit] at h hjoined
  simp only [List.concat_eq_append, List.dropLast_concat, List.getLast?_concat] at h hjoined
  obtain ⟨rfl, hlast⟩ := h
  have hempty : last = [] := by
    cases last with
    | nil => rfl
    | cons c last => cases hlast
  rw [← hjoined, hempty]
  rfl

theorem mem_of_mem_lines {text line : String} (h : line ∈ lines text) {c : Char}
    (hc : c ∈ line.toList) : c ∈ text.toList := by
  have hpiece : ∃ piece ∈ text.toList.splitOn '\n', c ∈ piece := by
    obtain ⟨l, hl, rfl⟩ := List.mem_map.mp h
    rw [String.toList_ofList] at hc
    rcases List.mem_append.mp hl with hl | hl
    · obtain ⟨piece, hpiece, rfl⟩ := List.mem_map.mp hl
      refine ⟨piece, List.dropLast_subset _ hpiece, ?_⟩
      split at hc
      · exact List.dropLast_subset _ hc
      · exact hc
    · split at hl
      · cases hl
      · cases hl
      next last _ hlast =>
        obtain rfl := List.mem_singleton.mp hl
        exact ⟨l, List.mem_of_mem_getLast? hlast, hc⟩
  obtain ⟨piece, hmem, hcp⟩ := hpiece
  have hjoined : c ∈ ['\n'].intercalate (text.toList.splitOn '\n') := mem_intercalate hmem hcp
  rwa [List.intercalate_splitOn] at hjoined

end Text

end CertLifecycle
