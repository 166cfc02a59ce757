import CertLifecycle.Proofs.PemConcatenation
import Mathlib.Data.List.Chain

namespace CertLifecycle.Layout

theorem isLineBreak_iff {b : UInt8} : isLineBreak b = true ↔ b = 10 ∨ b = 13 := by
  simp only [isLineBreak, Bool.or_eq_true, decide_eq_true_eq]
  exact Iff.rfl

theorem not_isLineBreak_iff {b : UInt8} : isLineBreak b = false ↔ b ≠ 10 ∧ b ≠ 13 := by
  rw [Bool.eq_false_iff, ne_eq, isLineBreak_iff, not_or]

def NoBlankLines (bs : Bytes) : Prop :=
  bs.IsChain fun b c => b = 10 → isLineBreak c = false

section Collapse

theorem collapseAfter_return (s : Bool) (bs : Bytes) :
    collapseAfter s (13 :: bs) = collapseAfter s bs := by
  rw [collapseAfter, if_pos (.inl rfl)]

theorem collapseAfter_newline (s : Bool) (bs : Bytes) : collapseAfter s (10 :: bs) =
    (if s then [] else [10]) ++ collapseAfter true bs := by
  cases s <;> rfl

theorem collapseAfter_cons {b : UInt8} (h : isLineBreak b = false) (s : Bool) (bs : Bytes) :
    collapseAfter s (b :: bs) = b :: collapseAfter false bs := by
  have hb := not_isLineBreak_iff.mp h
  have hdrop : ¬ (b = carriageReturn ∨ b = newline ∧ s = true) := by
    rintro (h | ⟨h, -⟩)
    · exact hb.2 h
    · exact hb.1 h
  have hstart : decide (b = newline) = false := decide_eq_false hb.1
  rw [collapseAfter, if_neg hdrop, hstart]

theorem collapseAfter_start {bs : Bytes} (h : ∀ b ∈ bs.head?, isLineBreak b = false) (s t : Bool) :
    collapseAfter s bs = collapseAfter t bs := by
  cases bs with
  | nil => rfl
  | cons b bs =>
    have hb := h b rfl
    rw [collapseAfter_cons hb, collapseAfter_cons hb]

theorem collapseAfter_word {word : Bytes} (hne : word ≠ [])
    (hword : ∀ b ∈ word, isLineBreak b = false) (s : Bool) (bs : Bytes) :
    collapseAfter s (word ++ bs) = word ++ collapseAfter false bs := by
  induction word generalizing s with
  | nil => exact absurd rfl hne
  | cons b word ih =>
    rw [List.forall_mem_cons] at hword
    rw [List.cons_append, collapseAfter_cons hword.1, List.cons_append]
    cases word with
    | nil => rfl
    | cons c word => rw [ih (List.cons_ne_nil c word) hword.2]

theorem collapseAfter_append_word {word : Bytes} (hne : word ≠ [])
    (hword : ∀ b ∈ word, isLineBreak b = false) (s : Bool) (bs : Bytes) :
    collapseAfter s (bs ++ word) = collapseAfter s bs ++ word := by
  induction bs generalizing s with
  | nil =>
    have h := collapseAfter_word hne hword s []
    simpa [collapseAfter] using h
  | cons b bs ih =>
    simp only [List.cons_append, collapseAfter]
    split
    · exact ih s
    · rw [ih, List.cons_append]

end Collapse

theorem dropWhile_reverse_append {breaks : Bytes} (hbreaks : ∀ b ∈ breaks, isLineBreak b = true)
    (body : Bytes) :
    (body ++ breaks).reverse.dropWhile isLineBreak = body.reverse.dropWhile isLineBreak := by
  have hall : breaks.reverse.dropWhile isLineBreak = [] :=
    List.dropWhile_eq_nil_iff.mpr fun b hb => hbreaks b (List.mem_reverse.mp hb)
  rw [List.reverse_append, List.dropWhile_append, hall]
  rfl

theorem closed_of_last {b : UInt8} (hb : isLineBreak b = false) {breaks : Bytes}
    (hbreaks : ∀ b ∈ breaks, isLineBreak b = true) (body : Bytes) :
    closed (body ++ [b] ++ breaks) = body ++ [b] ++ [newline] := by
  have hbody : ((body ++ [b]).reverse.dropWhile isLineBreak).reverse = body ++ [b] := by
    rw [List.reverse_append, List.reverse_singleton, List.singleton_append,
      List.dropWhile_cons_of_neg (by simp [hb]), List.reverse_cons, List.reverse_reverse]
  unfold closed
  rw [dropWhile_reverse_append hbreaks, hbody]
  split
  next h => exact absurd h (by simp)
  next => rfl

theorem noBlankLines_of_word {word : Bytes} (h : ∀ b ∈ word, isLineBreak b = false) :
    NoBlankLines word := by
  induction word with
  | nil => exact .nil
  | cons b word ih =>
    rw [List.forall_mem_cons] at h
    refine List.isChain_cons.mpr ⟨fun c hc hb => h.2 c (List.mem_of_mem_head? hc), ih h.2⟩

end CertLifecycle.Layout

namespace CertLifecycle.Pem

open Layout

section Search

variable {marker : Bytes}

theorem splitBehind_word {todo : Bytes} (h : todo ≠ []) (rest : Bytes) :
    splitBehind marker todo (todo ++ rest) = some (todo, rest) := by
  induction todo with
  | nil => exact absurd rfl h
  | cons b todo ih =>
    have hadvance : advance marker (b :: todo) b = todo := if_pos rfl
    cases todo with
    | nil => exact splitBehind_of_advance_nil hadvance rest
    | cons c todo =>
      have hne : advance marker (b :: c :: todo) b ≠ [] := by
        rw [hadvance]
        exact List.cons_ne_nil c todo
      rw [List.cons_append, splitBehind_of_advance hne, hadvance, ih (List.cons_ne_nil c todo)]
      rfl

theorem readUntil_word {c : UInt8} (hc : marker.head? = some c) {front : Bytes} (hfront : c ∉ front)
    (rest : Bytes) : readUntil marker (front ++ (marker ++ rest)) = some (front, rest) := by
  have hne : marker ≠ [] := by
    rintro rfl
    cases hc
  have hsplit : splitBehind marker marker (front ++ (marker ++ rest)) =
      some (front ++ marker, rest) := by
    induction front with
    | nil => exact splitBehind_word hne rest
    | cons b front ih =>
      rw [List.mem_cons, not_or] at hfront
      have hadvance : advance marker marker b = marker := by
        refine if_neg ?_
        rw [hc]
        exact fun h => hfront.1 (Option.some.inj h)
      have hstart : advance marker marker b ≠ [] := by rwa [hadvance]
      rw [List.cons_append, splitBehind_of_advance hstart, hadvance, ih hfront.2]
      rfl
  rw [readUntil, hsplit]
  simp

theorem splitBehind_sound {done todo bs front rest : Bytes} (hmarker : marker = done ++ todo)
    (h : splitBehind marker todo bs = some (front, rest)) :
    bs = front ++ rest ∧ ∃ before, done ++ front = before ++ marker := by
  induction bs generalizing done todo front with
  | nil => cases h
  | cons b bs ih =>
    -- Before the byte and behind it, what is matched and what is lacking make up the marker.
    obtain ⟨before, matched, hsplit, hmatched⟩ : ∃ before matched,
        done ++ [b] = before ++ matched ∧ marker = matched ++ advance marker todo b := by
      by_cases hhit : todo.head? = some b
      · obtain ⟨tail, rfl⟩ := List.head?_eq_some_iff.mp hhit
        have hadvance : advance marker (b :: tail) b = tail := if_pos hhit
        exact ⟨[], done ++ [b], rfl, by rw [hadvance, hmarker]; simp⟩
      · have hadvance : advance marker todo b = marker := if_neg hhit
        exact ⟨done ++ [b], [], by simp, by rw [hadvance]; rfl⟩
    by_cases hnil : advance marker todo b = []
    · rw [splitBehind_of_advance_nil hnil] at h
      cases h
      rw [hnil, List.append_nil] at hmatched
      exact ⟨rfl, before, by rw [hsplit, hmatched]⟩
    · rw [splitBehind_of_advance hnil] at h
      obtain ⟨⟨f, r⟩, hfr, he⟩ := Option.map_eq_some_iff.mp h
      cases he
      obtain ⟨rfl, more, hmore⟩ := ih hmatched hfr
      refine ⟨rfl, before ++ more, ?_⟩
      calc done ++ b :: f = (done ++ [b]) ++ f := by simp
        _ = before ++ (matched ++ f) := by rw [hsplit, List.append_assoc]
        _ = before ++ more ++ marker := by rw [hmore, List.append_assoc]

theorem readUntil_sound {bs front rest : Bytes} (h : readUntil marker bs = some (front, rest)) :
    bs = front ++ (marker ++ rest) := by
  obtain ⟨⟨f, r⟩, hfr, he⟩ := Option.map_eq_some_iff.mp h
  cases he
  obtain ⟨rfl, before, hbefore⟩ := splitBehind_sound (List.nil_append marker).symm hfr
  rw [List.nil_append] at hbefore
  rw [hbefore]
  simp

end Search

theorem marks_plain : (∀ b ∈ beginMark, isLineBreak b = false) ∧
    (∀ b ∈ endMark, isLineBreak b = false) ∧ ∀ b ∈ dashes, isLineBreak b = false := by
  have hall {word : Bytes} (h : word.all (fun b => !isLineBreak b) = true) :
      ∀ b ∈ word, isLineBreak b = false := by
    simpa using h
  exact ⟨hall (by decide), hall (by decide), hall (by decide)⟩

theorem splitHeaders_of_noBlankLines {payload : Bytes} (h : NoBlankLines payload) :
    splitHeaders payload = ([], payload) := by
  have hlf : readUntil [10, 10] payload = none := by
    rw [Option.eq_none_iff_forall_ne_some]
    rintro ⟨front, rest⟩ hfound
    have hpart : [10, 10] <:+: payload := ⟨front, rest, by
      rw [readUntil_sound hfound, List.append_assoc]⟩
    have hchain := h.infix hpart
    rw [List.isChain_cons_cons] at hchain
    cases hchain.1 rfl
  have hcrlf : readUntil [13, 10, 13, 10] payload = none := by
    rw [Option.eq_none_iff_forall_ne_some]
    rintro ⟨front, rest⟩ hfound
    have hpart : [13, 10, 13, 10] <:+: payload := ⟨front, rest, by
      rw [readUntil_sound hfound, List.append_assoc]⟩
    have hchain := h.infix hpart
    rw [List.isChain_cons_cons, List.isChain_cons_cons] at hchain
    cases hchain.2.1 rfl
  rw [splitHeaders, hlf, hcrlf]
  rfl

theorem skipSpace_of_head {bs : Bytes} (h : ∀ b ∈ bs.head?, isSpace b = false) :
    skipSpace bs = bs := by
  cases bs with
  | nil => rfl
  | cons b bs => exact List.dropWhile_cons_of_neg (by simp [h b rfl])

end CertLifecycle.Pem
