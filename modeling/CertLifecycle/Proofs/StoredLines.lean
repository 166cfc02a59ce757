import CertLifecycle.Proofs.FanOutIndependence
import CertLifecycle.Proofs.LineLayout
import Mathlib.Data.List.DropRight

namespace CertLifecycle

namespace Layout

/-- The lines of the text that are not empty, each behind the other. -/
def byLines (bs : Bytes) : Bytes :=
  (((bs.filter (· ≠ carriageReturn)).splitOn newline).filter (· ≠ [])).flatMap (· ++ [newline])

def trimmed (bs : Bytes) : Bytes :=
  if bs.all isLineBreak then [] else bs.rdropWhile isLineBreak ++ [newline]

theorem closed_eq_trimmed (bs : Bytes) : closed bs = trimmed bs := by
  have hnil : (bs.reverse.dropWhile isLineBreak).reverse = [] ↔ bs.all isLineBreak = true := by
    simp
  unfold closed trimmed List.rdropWhile
  by_cases h : bs.all isLineBreak = true
  · rw [if_pos h, hnil.mpr h]
  · rw [if_neg h]
    split
    next hbody => exact absurd (hnil.mp hbody) h
    next => rfl

theorem closed_append (front bs : Bytes) :
    closed (front ++ bs) = if closed bs = [] then closed front else front ++ closed bs := by
  have hnil : closed bs = [] ↔ bs.reverse.dropWhile isLineBreak = [] := by
    unfold closed
    split
    next h => simpa using h
    next h => simpa using h
  by_cases h : bs.reverse.dropWhile isLineBreak = []
  · rw [if_pos (hnil.mpr h), closed, closed, List.reverse_append, List.dropWhile_append, h]
    rfl
  · have hbody : ((front ++ bs).reverse.dropWhile isLineBreak).reverse =
        front ++ (bs.reverse.dropWhile isLineBreak).reverse := by
      rw [List.reverse_append, List.dropWhile_append, if_neg (by simpa using h)]
      simp
    rw [if_neg (hnil.not.mpr h), closed, closed, hbody]
    split
    next hboth => exact absurd (List.append_eq_nil_iff.mp hboth).2 (by simpa using h)
    next =>
      split
      next hrest => exact absurd hrest (by simpa using h)
      next => rw [List.append_assoc]

theorem byLines_append_newline (front bs : Bytes) :
    byLines (front ++ 10 :: bs) = byLines front ++ byLines bs := by
  have hfilter : (front ++ 10 :: bs).filter (· ≠ carriageReturn) =
      front.filter (· ≠ carriageReturn) ++ newline :: bs.filter (· ≠ carriageReturn) := by
    rw [List.filter_append]
    rfl
  rw [byLines, hfilter, List.splitOn_append_cons_self, List.filter_append, List.flatMap_append]
  rfl

theorem byLines_append_return (front bs : Bytes) :
    byLines (front ++ 13 :: bs) = byLines (front ++ bs) := by simp [byLines, carriageReturn]

section Word

variable {word : Bytes} (hword : ∀ b ∈ word, isLineBreak b = false)

include hword

theorem byLines_word : byLines word = if word = [] then [] else word ++ [newline] := by
  have hfilter : word.filter (· ≠ carriageReturn) = word := by
    apply List.filter_eq_self.mpr
    intro b hb
    exact decide_eq_true (not_isLineBreak_iff.mp (hword b hb)).2
  have hnewline : newline ∉ word := fun h => (not_isLineBreak_iff.mp (hword newline h)).1 rfl
  rw [byLines, hfilter, List.splitOn_eq_singleton hnewline]
  by_cases h : word = [] <;> simp [h]

theorem closed_word_append (hne : word ≠ []) (breaks : Bytes)
    (hbreaks : ∀ b ∈ breaks, isLineBreak b = true) :
    closed (word ++ breaks) = word ++ [newline] := by
  rcases List.eq_nil_or_concat word with rfl | ⟨front, b, rfl⟩
  · exact absurd rfl hne
  · rw [List.concat_eq_append] at hword ⊢
    exact closed_of_last (hword b (by simp)) hbreaks front

theorem closed_word_newline (hne : word ≠ []) (bs : Bytes) :
    closed (word ++ 10 :: bs) = word ++ [newline] ++ closed bs := by
  have hline := closed_word_append hword hne [10] (by simp [isLineBreak_iff])
  have hsplit : word ++ 10 :: bs = word ++ [10] ++ bs := by simp
  rw [hsplit, closed_append]
  split
  next hnil => rw [hnil, hline, List.append_nil]
  next => rfl

theorem closed_append_collapse (bs : Bytes) :
    closed (word ++ collapseAfter (word = []) bs) = byLines (word ++ bs) := by
  -- The word is the line that has begun; what is behind it stands on lines of its own.
  induction bs generalizing word with
  | nil =>
    rw [collapseAfter, List.append_nil, byLines_word hword]
    by_cases hne : word = []
    · rw [if_pos hne, hne]
      rfl
    · have hclosed := closed_word_append hword hne [] (List.forall_mem_nil _)
      rw [List.append_nil] at hclosed
      rw [if_neg hne, hclosed]
  | cons b bs ih =>
    by_cases hb : isLineBreak b = true
    · obtain rfl | rfl := isLineBreak_iff.mp hb
      · have hnil : ∀ b ∈ ([] : Bytes), isLineBreak b = false := List.forall_mem_nil _
        have hrest : closed (collapseAfter true bs) = byLines bs := ih hnil
        rw [byLines_append_newline, byLines_word hword, collapseAfter_newline, ← hrest]
        by_cases hne : word = []
        · simp [hne]
        · simp only [hne, decide_false, Bool.false_eq_true, if_false, List.singleton_append]
          exact closed_word_newline hword hne _
      · rw [byLines_append_return, collapseAfter_return]
        exact ih hword
    · have hplain : isLineBreak b = false := by simpa using hb
      have hlonger : ∀ c ∈ word ++ [b], isLineBreak c = false := by
        simpa [or_imp, forall_and] using ⟨hword, hplain⟩
      have hword' := ih hlonger
      rw [collapseAfter_cons hplain]
      simpa using hword'

end Word

theorem tidy_eq_byLines (bs : Bytes) : tidy bs = byLines bs := by
  have hnil : ∀ b ∈ ([] : Bytes), isLineBreak b = false := List.forall_mem_nil _
  exact closed_append_collapse hnil bs

end Layout

namespace Destination

open Layout

variable {σ : Type}

def certLayout (cert : σ) (ca : Option σ) (certificate caData : Bytes) : List (σ × Bytes) :=
  match ca with
  | none => [(cert, trimmed certificate ++ trimmed caData)]
  | some ca =>
    (if caData = [] then [] else [(ca, trimmed caData)]) ++ [(cert, trimmed certificate)]

def layout (d : Destination σ) (data : CertData) : List (σ × Bytes) :=
  let caData := data.caData.getD []
  let privateKey := data.privateKey.getD []
  match d with
  | .combined key => [(key, byLines data.certificate ++ byLines caData ++ byLines privateKey)]
  | .separateCa key ca =>
    (if caData = [] then [] else [(ca, byLines caData)]) ++
      [(key, byLines data.certificate ++ byLines privateKey)]
  | .separateCert cert ca key =>
    certLayout cert ca data.certificate caData ++
      if privateKey = [] then [] else [(key, byLines privateKey)]

theorem map_present (s : σ) (f : Bytes → Bytes) (part : Option Bytes) :
    (present part).toList.map (fun bs => (s, f bs)) =
      if part.getD [] = [] then [] else [(s, f (part.getD []))] := by
  cases h : present part with
  | none => simp [present_eq_none.mp h]
  | some bs =>
    obtain ⟨hbs, hne⟩ := present_eq_some.mp h
    simp [hbs, hne]

theorem certPlan_eq_certLayout (cert : σ) (ca : Option σ) (certificate : Bytes)
    (caData : Option Bytes) :
    certPlan cert ca certificate caData = certLayout cert ca certificate (caData.getD []) := by
  have hblank : trimmed [] = [] := rfl
  unfold certPlan certLayout
  cases h : present caData with
  | none => cases ca <;> simp [present_eq_none.mp h, closed_eq_trimmed, hblank]
  | some bs =>
    obtain ⟨hbs, hne⟩ := present_eq_some.mp h
    cases ca <;> simp [hbs, hne, closed_eq_trimmed]

theorem plan_eq_layout (d : Destination σ) (data : CertData) : d.plan data = d.layout data := by
  cases d with
  | combined key => simp only [plan, leading, later, layout, tidy_eq_byLines, List.append_nil]
  | separateCa key ca =>
    simp only [plan, leading, later, layout, map_present, tidy_eq_byLines, List.append_nil]
  | separateCert cert ca key =>
    simp only [plan, leading, later, layout, keyPlan, map_present, tidy_eq_byLines,
      certPlan_eq_certLayout]

end Destination

def SigningStore.layout {σ : Type} (store : SigningStore σ) (signature : Signature) :
    List (σ × Bytes) :=
  Destination.certLayout store.cert store.ca signature.certificate (signature.caData.getD [])

theorem SigningStore.writeAll_layout {σ : Type} {m : Type → Type} [Monad m] [Slot σ m]
    [LawfulMonad m] (store : SigningStore σ) (signature : Signature) :
    (Destination.writeAll (store.layout signature) : ExceptT StorageError m Unit) =
      store.writeSignature signature := by
  rw [layout, ← Destination.certPlan_eq_certLayout, Destination.writeAll_certPlan]
  rfl

section Stored

variable {κ : Type} {w v : World κ} {ws : List (MemorySlot × Bytes)}

open Destination

structure Stores (ws : List (MemorySlot × Bytes)) (w v : World κ) : Prop where
  events : v.events = w.events ++ ws.map fun q => .slot .write q.1.name
  memory : ∀ s : MemorySlot, v.memory s.name =
    { w.memory s.name with data := (s.lastStored ws).or (w.memory s.name).data }

theorem stores_storeAll (ws : List (MemorySlot × Bytes)) (w : World κ) :
    Stores ws w (MemorySlot.storeAll ws w) := by
  constructor
  · induction ws generalizing w with
    | nil => exact (List.append_nil _).symm
    | cons q ws ih =>
      rw [MemorySlot.storeAll, List.foldl_cons]
      refine (ih _).trans ?_
      simp [MemorySlot.stored, World.recorded]
  · intro s
    exact MemorySlot.memory_storeAll s ws w

theorem stores_writeCert {d : Destination MemorySlot} (writable : ∀ s ∈ d.slots, s.Writable w)
    (data : CertData) :
    ∃ v, w.perform (d.writeCert data) = (.ok (), v) ∧ Stores (d.layout data) w v := by
  rw [← plan_eq_layout]
  exact ⟨_, perform_writeCert_of_writable writable, stores_storeAll _ w⟩

theorem stores_writeSignature {store : SigningStore MemorySlot}
    (writable : ∀ s ∈ store.cert :: store.ca.toList, s.Writable w) (signature : Signature) :
    ∃ v, w.perform (store.writeSignature signature) = (.ok (), v) ∧
      Stores (store.layout signature) w v := by
  have hlayout : ∀ q ∈ store.layout signature, q.1.Writable w := by
    intro q hq
    rw [SigningStore.layout, ← certPlan_eq_certLayout] at hq
    apply writable
    rw [List.mem_cons]
    exact mem_certPlan hq
  rw [← SigningStore.writeAll_layout]
  exact ⟨_, MemorySlot.perform_writeAll_of_writable hlayout, stores_storeAll _ w⟩

theorem stored_by_lines (w : World κ) :
    (∀ (d : Destination MemorySlot) (data : CertData), (∀ s ∈ d.slots, s.Writable w) →
      ∃ v, w.perform (d.writeCert data) = (.ok (), v) ∧ Stores (d.layout data) w v) ∧
    ∀ (store : SigningStore MemorySlot) (signature : Signature),
      (∀ s ∈ store.cert :: store.ca.toList, s.Writable w) →
      ∃ v, w.perform (store.writeSignature signature) = (.ok (), v) ∧
        Stores (store.layout signature) w v := by
  constructor
  · intro d data writable
    exact stores_writeCert writable data
  · intro store signature writable
    exact stores_writeSignature writable signature

theorem stored_by_lines_mixed :
    let d : Destination MemorySlot := .separateCert ⟨"cert"⟩ none ⟨"key"⟩
    let data : CertData :=
      ⟨[65, 13, 10, 13, 10, 66, 13, 10], some [10, 75, 13, 10, 10, 76], some [13, 10]⟩
    let w : World Script := { authority := .empty, readings := fun _ => 0 }
    ∃ v, w.perform (d.writeCert data) = (.ok (), v) ∧
      (v.memory "cert").data = some [65, 13, 10, 13, 10, 66, 10] ∧
      (v.memory "key").data = some [75, 10, 76, 10] ∧ (v.memory "ca").data = none := by
  intro d data w
  obtain ⟨v, hrun, hstores⟩ := (stored_by_lines w).1 d data fun _ _ => rfl
  refine ⟨v, hrun, ?_, ?_, ?_⟩
  · rw [hstores.memory ⟨"cert"⟩]
    decide
  · rw [hstores.memory ⟨"key"⟩]
    decide
  · rw [hstores.memory ⟨"ca"⟩]
    decide

end Stored

end CertLifecycle
