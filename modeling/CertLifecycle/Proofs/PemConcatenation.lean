import CertLifecycle.Certificate
import CertLifecycle.Storage.Layout
import Mathlib.Data.List.TakeWhile

/-!
Armoured texts put one behind the other. The frames of the first stay; what it leaves open, a begin
line without its end, takes part in the frames of the second.
-/

namespace CertLifecycle

namespace Pem

def advance (marker todo : Bytes) (b : UInt8) : Bytes :=
  if todo.head? = some b then todo.tail else marker

theorem splitBehind_of_advance_nil {marker todo : Bytes} {b : UInt8}
    (h : advance marker todo b = []) (bs : Bytes) :
    splitBehind marker todo (b :: bs) = some ([b], bs) := by
  rw [advance] at h
  rw [splitBehind, h]

theorem splitBehind_of_advance {marker todo : Bytes} {b : UInt8}
    (h : advance marker todo b ≠ []) (bs : Bytes) :
    splitBehind marker todo (b :: bs) =
      (splitBehind marker (advance marker todo b) bs).map fun q => (b :: q.1, q.2) := by
  rw [advance] at h
  rw [splitBehind]
  split
  next hnil => exact absurd hnil h
  next => rfl

theorem splitBehind_append {marker todo bs front rest : Bytes}
    (h : splitBehind marker todo bs = some (front, rest)) (more : Bytes) :
    splitBehind marker todo (bs ++ more) = some (front, rest ++ more) := by
  induction bs generalizing todo front with
  | nil => simp [splitBehind] at h
  | cons b bs ih =>
    by_cases hnil : advance marker todo b = []
    · rw [splitBehind_of_advance_nil hnil] at h
      cases h
      exact splitBehind_of_advance_nil hnil _
    · rw [splitBehind_of_advance hnil] at h
      obtain ⟨⟨f, r⟩, hfr, he⟩ := Option.map_eq_some_iff.mp h
      cases he
      rw [List.cons_append, splitBehind_of_advance hnil, ih hfr]
      rfl

theorem readUntil_append {marker bs front rest : Bytes}
    (h : readUntil marker bs = some (front, rest)) (more : Bytes) :
    readUntil marker (bs ++ more) = some (front, rest ++ more) := by
  obtain ⟨⟨f, r⟩, hfr, he⟩ := Option.map_eq_some_iff.mp h
  cases he
  rw [readUntil, splitBehind_append hfr more]
  rfl

theorem splitBehind_none {marker bs : Bytes} (hbs : ∀ b ∈ bs, b ∉ marker) {todo : Bytes}
    (hne : todo ≠ []) (hsub : ∀ b ∈ todo, b ∈ marker) : splitBehind marker todo bs = none := by
  induction bs generalizing todo with
  | nil => rfl
  | cons b bs ih =>
    obtain ⟨hb, hbs⟩ := List.forall_mem_cons.mp hbs
    have hmarker : marker ≠ [] := by
      obtain ⟨c, hc⟩ := List.exists_mem_of_ne_nil todo hne
      exact List.ne_nil_of_mem (hsub c hc)
    -- The byte is none of the marker's, so the search starts afresh behind it.
    have hadvance : advance marker todo b = marker :=
      if_neg fun h => hb (hsub b (List.mem_of_mem_head? h))
    have hstart : advance marker todo b ≠ [] := by rwa [hadvance]
    rw [splitBehind_of_advance hstart, hadvance, ih hbs hmarker fun b hb => hb]
    rfl

theorem splitBehind_append_none {marker bs more : Bytes} (hmore : ∀ b ∈ more, b ∉ marker)
    {todo : Bytes} (hne : todo ≠ []) (hsub : ∀ b ∈ todo, b ∈ marker)
    (h : splitBehind marker todo bs = none) : splitBehind marker todo (bs ++ more) = none := by
  induction bs generalizing todo with
  | nil => exact splitBehind_none hmore hne hsub
  | cons b bs ih =>
    by_cases hnil : advance marker todo b = []
    · rw [splitBehind_of_advance_nil hnil] at h
      cases h
    · rw [splitBehind_of_advance hnil] at h
      have hadvance : ∀ c ∈ advance marker todo b, c ∈ marker := by
        unfold advance
        split
        · exact fun c hc => hsub c (List.mem_of_mem_tail hc)
        · exact fun c hc => hc
      rw [List.cons_append, splitBehind_of_advance hnil,
        ih hnil hadvance (Option.map_eq_none_iff.mp h)]
      rfl

theorem readUntil_append_none {marker bs more : Bytes} (hmarker : marker ≠ [])
    (hmore : ∀ b ∈ more, b ∉ marker) (h : readUntil marker bs = none) :
    readUntil marker (bs ++ more) = none := by
  rw [readUntil, splitBehind_append_none hmore hmarker (fun _ hb => hb)
    (Option.map_eq_none_iff.mp h)]
  rfl

theorem skipSpace_append_of_ne_nil {bs : Bytes} (h : skipSpace bs ≠ []) (more : Bytes) :
    skipSpace (bs ++ more) = skipSpace bs ++ more := by
  unfold skipSpace at h ⊢
  rw [List.dropWhile_append, if_neg (by simpa using h)]

theorem skipSpace_append_of_nil {bs : Bytes} (h : skipSpace bs = []) (more : Bytes) :
    skipSpace (bs ++ more) = skipSpace more := by
  unfold skipSpace at h ⊢
  rw [List.dropWhile_append, if_pos (by simpa using h)]

def endFrame? (bs : Bytes) : Option (Frame × Bytes) := do
  let (opened, bs) ← readUntil dashes bs
  let (payload, bs) ← readUntil endMark (skipSpace bs)
  let (closed, bs) ← readUntil dashes bs
  let (headers, data) := splitHeaders payload
  return (⟨opened, headers, data, closed⟩, bs)

theorem nextFrame?_eq (bs : Bytes) :
    nextFrame? bs = (readUntil beginMark bs).bind fun q =>
      (endFrame? q.2).map fun p => (p.1, skipSpace p.2) := by
  unfold nextFrame? endFrame?
  cases readUntil beginMark bs with
  | none => rfl
  | some q => simp only [bind, pure, Option.bind_some, Option.map_bind, Function.comp_def,
      Option.map_some]

theorem endFrame?_append {bs rest : Bytes} {f : Frame} (h : endFrame? bs = some (f, rest))
    (more : Bytes) : endFrame? (bs ++ more) = some (f, rest ++ more) := by
  simp only [endFrame?, bind, pure, Option.bind_eq_some_iff, Prod.exists] at h ⊢
  obtain ⟨opened, b1, h1, payload, b2, h2, closed, b3, h3, he⟩ := h
  have hne : skipSpace b1 ≠ [] := by
    intro hnil
    rw [hnil] at h2
    cases h2
  refine ⟨opened, b1 ++ more, readUntil_append h1 more, payload, b2 ++ more, ?_, closed, b3 ++ more,
    readUntil_append h3 more, ?_⟩
  · rw [skipSpace_append_of_ne_nil hne]
    exact readUntil_append h2 more
  · cases he
    rfl

theorem nextFrame?_append {bs rest : Bytes} {f : Frame} (h : nextFrame? bs = some (f, rest)) :
    ∃ raw, rest = skipSpace raw ∧
      ∀ more, nextFrame? (bs ++ more) = some (f, skipSpace (raw ++ more)) := by
  rw [nextFrame?_eq] at h
  obtain ⟨⟨before, b1⟩, h1, h2⟩ := Option.bind_eq_some_iff.mp h
  obtain ⟨⟨g, raw⟩, h3, he⟩ := Option.map_eq_some_iff.mp h2
  cases he
  refine ⟨raw, rfl, fun more => ?_⟩
  rw [nextFrame?_eq, readUntil_append h1 more]
  simp only [Option.bind_some, endFrame?_append h3 more, Option.map_some]

theorem head?_beginMark : beginMark.head? = some 45 := by decide

theorem marker_ne_nil : beginMark ≠ [] ∧ endMark ≠ [] ∧ dashes ≠ [] := by decide

theorem readUntil_beginMark_cons {b : UInt8} (hb : isSpace b = true) (bs : Bytes) :
    (readUntil beginMark (b :: bs)).map Prod.snd = (readUntil beginMark bs).map Prod.snd := by
  have hdash : b ≠ 45 := by
    rintro rfl
    cases hb
  have hadvance : advance beginMark beginMark b = beginMark := by
    refine if_neg ?_
    rw [head?_beginMark]
    exact fun h => hdash (Option.some.inj h).symm
  have hstart : advance beginMark beginMark b ≠ [] := by
    rw [hadvance]
    exact marker_ne_nil.1
  rw [readUntil, splitBehind_of_advance hstart, hadvance, readUntil]
  cases splitBehind beginMark beginMark bs <;> rfl

theorem nextFrame?_skipSpace (bs : Bytes) : nextFrame? (skipSpace bs) = nextFrame? bs := by
  have hsnd (bs : Bytes) : nextFrame? bs = ((readUntil beginMark bs).map Prod.snd).bind fun q =>
      (endFrame? q).map fun p => (p.1, skipSpace p.2) := by
    rw [nextFrame?_eq]
    cases readUntil beginMark bs <;> rfl
  induction bs with
  | nil => rfl
  | cons b bs ih =>
    by_cases hb : isSpace b = true
    · rw [skipSpace, List.dropWhile_cons_of_pos hb, hsnd (b :: bs), readUntil_beginMark_cons hb,
        ← hsnd bs]
      exact ih
    · rw [skipSpace, List.dropWhile_cons_of_neg hb]

theorem frames_of_none {bs : Bytes} (h : nextFrame? bs = none) : frames bs = [] := by
  rw [frames]
  split
  · rfl
  next hsome => rw [h] at hsome; cases hsome

theorem frames_of_some {bs rest : Bytes} {f : Frame} (h : nextFrame? bs = some (f, rest)) :
    frames bs = f :: frames rest := by
  rw [frames]
  split
  next hnone => rw [h] at hnone; cases hnone
  next hsome => rw [h] at hsome; cases hsome; rfl

theorem frames_skipSpace (bs : Bytes) : frames (skipSpace bs) = frames bs := by
  cases h : nextFrame? bs with
  | none => rw [frames_of_none h, frames_of_none ((nextFrame?_skipSpace bs).trans h)]
  | some q => rw [frames_of_some h, frames_of_some ((nextFrame?_skipSpace bs).trans h)]

def remainder (bs : Bytes) : Bytes :=
  match _h : nextFrame? bs with
  | none => bs
  | some (_, rest) => remainder rest
termination_by bs.length
decreasing_by exact nextFrame?_length _h

theorem remainder_of_none {bs : Bytes} (h : nextFrame? bs = none) : remainder bs = bs := by
  rw [remainder]
  split
  · rfl
  next hsome => rw [h] at hsome; cases hsome

theorem remainder_of_some {bs rest : Bytes} {f : Frame} (h : nextFrame? bs = some (f, rest)) :
    remainder bs = remainder rest := by
  rw [remainder]
  split
  next hnone => rw [h] at hnone; cases hnone
  next hsome => rw [h] at hsome; cases hsome; rfl

theorem nextFrame?_remainder (bs : Bytes) : nextFrame? (remainder bs) = none := by
  fun_induction remainder bs with
  | case1 bs h => exact h
  | case2 bs f rest h ih => exact ih

theorem frames_append (bs more : Bytes) :
    frames (bs ++ more) = frames bs ++ frames (remainder bs ++ more) := by
  -- On the length: every frame that is found shortens the first text.
  induction hn : bs.length using Nat.strongRecOn generalizing bs with
  | ind n ih =>
    cases h : nextFrame? bs with
    | none => rw [frames_of_none h, remainder_of_none h, List.nil_append]
    | some q =>
      obtain ⟨f, rest⟩ := q
      obtain ⟨raw, rfl, hmore⟩ := nextFrame?_append h
      -- Where only space follows the frame, the space that the second text starts with is skipped
      -- along with it.
      have hrest : frames (skipSpace (raw ++ more)) = frames (skipSpace raw ++ more) := by
        by_cases hraw : skipSpace raw = []
        · rw [skipSpace_append_of_nil hraw, hraw, List.nil_append, frames_skipSpace]
        · rw [skipSpace_append_of_ne_nil hraw]
      rw [frames_of_some h, frames_of_some (hmore more), remainder_of_some h, hrest,
        ih _ (hn ▸ nextFrame?_length h) (skipSpace raw) rfl, List.cons_append]

section LineBreaks

variable {breaks : Bytes} (hbreaks : ∀ b ∈ breaks, Layout.isLineBreak b = true)

include hbreaks

theorem eq_of_break {b : UInt8} (hb : b ∈ breaks) : b = 10 ∨ b = 13 := by
  have h := hbreaks b hb
  simp only [Layout.isLineBreak, Bool.or_eq_true, decide_eq_true_eq] at h
  exact h

theorem not_mem_marker {b : UInt8} (hb : b ∈ breaks) :
    b ∉ beginMark ∧ b ∉ endMark ∧ b ∉ dashes := by
  obtain rfl | rfl := eq_of_break hbreaks hb <;> decide

theorem skipSpace_breaks : skipSpace breaks = [] := by
  refine List.dropWhile_eq_nil_iff.mpr ?_
  intro b hb
  obtain rfl | rfl := eq_of_break hbreaks hb <;> rfl

theorem endFrame?_append_none {bs : Bytes} (h : endFrame? bs = none) :
    endFrame? (bs ++ breaks) = none := by
  have hdashes : ∀ b ∈ breaks, b ∉ dashes := fun b hb => (not_mem_marker hbreaks hb).2.2
  simp only [endFrame?, bind, pure] at h ⊢
  cases h1 : readUntil dashes bs with
  | none => rw [readUntil_append_none marker_ne_nil.2.2 hdashes h1]; rfl
  | some q =>
    rw [readUntil_append h1]
    simp only [h1, Option.bind_some] at h ⊢
    by_cases hq : skipSpace q.2 = []
    · rw [skipSpace_append_of_nil hq, skipSpace_breaks hbreaks]
      rfl
    rw [skipSpace_append_of_ne_nil hq]
    cases h2 : readUntil endMark (skipSpace q.2) with
    | none =>
      rw [readUntil_append_none marker_ne_nil.2.1 (fun b hb => (not_mem_marker hbreaks hb).2.1) h2]
      rfl
    | some p =>
      rw [readUntil_append h2]
      simp only [h2, Option.bind_some] at h ⊢
      cases h3 : readUntil dashes p.2 with
      | none => rw [readUntil_append_none marker_ne_nil.2.2 hdashes h3]; rfl
      | some r => rw [h3] at h; cases h

theorem nextFrame?_append_none {bs : Bytes} (h : nextFrame? bs = none) :
    nextFrame? (bs ++ breaks) = none := by
  rw [nextFrame?_eq] at h ⊢
  cases h1 : readUntil beginMark bs with
  | none =>
    rw [readUntil_append_none marker_ne_nil.1 (fun b hb => (not_mem_marker hbreaks hb).1) h1]
    rfl
  | some q =>
    rw [readUntil_append h1]
    rw [h1, Option.bind_some, Option.map_eq_none_iff] at h
    rw [Option.bind_some, endFrame?_append_none hbreaks h]
    rfl

theorem frames_append_breaks (bs : Bytes) : frames (bs ++ breaks) = frames bs := by
  rw [frames_append, frames_of_none (nextFrame?_append_none hbreaks (nextFrame?_remainder bs)),
    List.append_nil]

end LineBreaks

theorem parse_append (bs more : Bytes) :
    parse (bs ++ more) = do return (← parse bs) ++ (← parse (remainder bs ++ more)) := by
  rw [parse, frames_append, List.mapM_append]
  rfl

end Pem

namespace Layout

theorem closed_split (part : Bytes) :
    ∃ body breaks, part = body ++ breaks ∧ (∀ b ∈ breaks, isLineBreak b = true) ∧
      closed part = if body = [] then [] else body ++ [newline] := by
  refine ⟨(part.reverse.dropWhile isLineBreak).reverse,
    (part.reverse.takeWhile isLineBreak).reverse, ?_, ?_, ?_⟩
  · rw [← List.reverse_append, List.takeWhile_append_dropWhile, List.reverse_reverse]
  · intro b hb
    exact List.mem_takeWhile_imp (List.mem_reverse.mp hb)
  · unfold closed
    split
    next h => rw [if_pos h]
    next h => rw [if_neg h]

end Layout

namespace Certificate

open Pem

theorem parse_closed (part : Bytes) : parse (Layout.closed part) = parse part := by
  obtain ⟨body, breaks, rfl, hbreaks, hclosed⟩ := Layout.closed_split part
  rw [parse, parse, hclosed, frames_append_breaks hbreaks]
  split
  next h => rw [h]
  next => rw [frames_append_breaks (by simp [Layout.isLineBreak])]

theorem ofPem_closed (part : Bytes) : ofPem (Layout.closed part) = ofPem part := by
  rw [ofPem, ofPem, parse_closed]

theorem ofPem_of_parse {text : Bytes} {blocks : List Block} (h : parse text = .ok blocks) :
    ofPem text = (firstDer blocks).bind ofDer := by
  rw [ofPem, h]
  rfl

theorem ofPem_of_malformed {text : Bytes} {e : Pem.Error} (h : parse text = .error e) :
    ofPem text = .error (.pem e) := by
  rw [ofPem, h]
  rfl

theorem ofDer_ne_noCertificate (der : Bytes) : ofDer der ≠ .error .noCertificate := by
  unfold ofDer
  split <;> exact nofun

theorem firstDer_append (as bs : List Block) :
    firstDer (as ++ bs) = match firstDer as with
      | .ok der => .ok der
      | .error _ => firstDer bs := by
  unfold firstDer
  rw [List.find?_append]
  cases as.find? (·.tag = tag) <;> rfl

theorem ofPem_append {bs more : Bytes} {c : Certificate} :
    ofPem (bs ++ more) = .ok c ↔
      (∃ blocks, parse (remainder bs ++ more) = .ok blocks) ∧
        (ofPem bs = .ok c ∨
          ofPem bs = .error .noCertificate ∧ ofPem (remainder bs ++ more) = .ok c) := by
  cases hfirst : parse bs with
  | error e =>
    have hall : parse (bs ++ more) = .error e := by rw [parse_append, hfirst]; rfl
    rw [ofPem_of_malformed hfirst, ofPem_of_malformed hall]
    simp
  | ok as =>
    cases hrest : parse (remainder bs ++ more) with
    | error e =>
      have hall : parse (bs ++ more) = .error e := by rw [parse_append, hfirst, hrest]; rfl
      rw [ofPem_of_malformed hall]
      simp
    | ok cs =>
      have hall : parse (bs ++ more) = .ok (as ++ cs) := by rw [parse_append, hfirst, hrest]; rfl
      rw [ofPem_of_parse hall, ofPem_of_parse hfirst, ofPem_of_parse hrest, firstDer_append]
      have hfind : (∃ der, firstDer as = .ok der) ∨ firstDer as = .error .noCertificate := by
        unfold firstDer
        split
        · exact .inl ⟨_, rfl⟩
        · exact .inr rfl
      obtain ⟨der, hder⟩ | hnone := hfind
      · have hne := ofDer_ne_noCertificate der
        simp [hder, Except.bind, hne]
      · simp [hnone, Except.bind]

end Certificate

end CertLifecycle
