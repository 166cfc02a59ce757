import CertLifecycle.Proofs.StoredLines

namespace CertLifecycle

namespace Layout

structure Clean (text : Bytes) : Prop where
  noReturn : carriageReturn ∉ text
  start : text.head? ≠ some newline
  inner : text.IsChain fun b c => b = newline → c ≠ newline
  finish : text ≠ [] → text.getLast? = some newline

instance (text : Bytes) : Decidable (Clean text) :=
  decidable_of_iff
    (carriageReturn ∉ text ∧ text.head? ≠ some newline ∧
      (text.IsChain fun b c => b = newline → c ≠ newline) ∧
      (text ≠ [] → text.getLast? = some newline))
    ⟨fun h => ⟨h.1, h.2.1, h.2.2.1, h.2.2.2⟩, fun h => ⟨h.noReturn, h.start, h.inner, h.finish⟩⟩

structure Even (part : Bytes) : Prop where
  noReturn : carriageReturn ∉ part.rdropWhile isLineBreak
  start : (part.rdropWhile isLineBreak).head? ≠ some newline
  inner : (part.rdropWhile isLineBreak).IsChain fun b c => b = newline → c ≠ newline

theorem clean_nil : Clean [] := by constructor <;> simp

theorem clean_append_iff {text more : Bytes} (h : text ≠ [] → text.getLast? = some newline) :
    Clean (text ++ more) ↔ Clean text ∧ Clean more := by
  by_cases htext : text = []
  · simp [htext, clean_nil]
  by_cases hmore : more = []
  · simp [hmore, clean_nil]
  have hlast := h htext
  have hhead : (text ++ more).head? = text.head? := List.head?_append_of_ne_nil _ htext
  have hend : (text ++ more).getLast? = more.getLast? := List.getLast?_append_of_ne_nil _ hmore
  constructor
  · rintro ⟨noReturn, start, inner, finish⟩
    rw [List.mem_append, not_or] at noReturn
    rw [hhead] at start
    rw [hend] at finish
    obtain ⟨hinner, hinner', hjoint⟩ := List.isChain_append.mp inner
    refine ⟨⟨noReturn.1, start, hinner, h⟩, noReturn.2, ?_, hinner', ?_⟩
    · intro hstart
      exact hjoint newline hlast newline hstart rfl rfl
    · intro _
      exact finish (by simp [htext])
  · rintro ⟨hleft, hright⟩
    refine ⟨?_, ?_, ?_, ?_⟩
    · rw [List.mem_append, not_or]
      exact ⟨hleft.noReturn, hright.noReturn⟩
    · rw [hhead]
      exact hleft.start
    · refine List.isChain_append.mpr ⟨hleft.inner, hright.inner, ?_⟩
      intro _ _ c hc _ hnewline
      rw [hnewline] at hc
      exact hright.start hc
    · rw [hend]
      exact fun _ => hright.finish hmore

theorem isChain_of_plain {body : Bytes} (h : NoBlankLines body) :
    body.IsChain fun b c => b = newline → c ≠ newline := by
  refine h.imp fun b c hbc hb hc => ?_
  have hplain := hbc hb
  rw [hc] at hplain
  cases hplain

theorem clean_concat_iff {body : Bytes} (hne : body ≠ [])
    (hlast : ∀ b ∈ body.getLast?, isLineBreak b = false) :
    Clean (body ++ [newline]) ↔ carriageReturn ∉ body ∧ body.head? ≠ some newline ∧
      body.IsChain fun b c => b = newline → c ≠ newline := by
  have hjoint : ∀ b ∈ body.getLast?, ∀ c ∈ [newline].head?, b = newline → c ≠ newline := by
    rintro b hb c - rfl
    have hplain := hlast newline hb
    cases hplain
  have hhead : (body ++ [newline]).head? = body.head? := List.head?_append_of_ne_nil _ hne
  constructor
  · rintro ⟨noReturn, start, inner, -⟩
    rw [List.mem_append, not_or] at noReturn
    rw [hhead] at start
    exact ⟨noReturn.1, start, (List.isChain_append.mp inner).1⟩
  · rintro ⟨noReturn, start, inner⟩
    refine ⟨?_, ?_, ?_, fun _ => List.getLast?_concat⟩
    · rw [List.mem_append, not_or]
      exact ⟨noReturn, by decide⟩
    · rwa [hhead]
    · exact List.isChain_append.mpr ⟨inner, .singleton _, hjoint⟩

theorem clean_byLines_word {word : Bytes} (hword : ∀ b ∈ word, isLineBreak b = false) :
    Clean (byLines word) := by
  rw [byLines_word hword]
  split
  · exact clean_nil
  next hne =>
    apply (clean_concat_iff hne fun b hb => hword b (List.mem_of_mem_getLast? hb)).mpr
    refine ⟨?_, ?_, isChain_of_plain (noBlankLines_of_word hword)⟩
    · exact fun h => (not_isLineBreak_iff.mp (hword _ h)).2 rfl
    · exact fun h => (not_isLineBreak_iff.mp (hword _ (List.mem_of_mem_head? h))).1 rfl

theorem clean_byLines_append {word : Bytes} (hword : ∀ b ∈ word, isLineBreak b = false)
    (bs : Bytes) : Clean (byLines (word ++ bs)) := by
  induction bs generalizing word with
  | nil =>
    rw [List.append_nil]
    exact clean_byLines_word hword
  | cons b bs ih =>
    by_cases hb : isLineBreak b = true
    · obtain rfl | rfl := isLineBreak_iff.mp hb
      · have hnil : ∀ b ∈ ([] : Bytes), isLineBreak b = false := List.forall_mem_nil _
        have hline := clean_byLines_word hword
        rw [byLines_append_newline, clean_append_iff hline.finish]
        exact ⟨hline, ih hnil⟩
      · rw [byLines_append_return]
        exact ih hword
    · have hlonger : ∀ c ∈ word ++ [b], isLineBreak c = false := by
        simpa [or_imp, forall_and] using And.intro hword (by simpa using hb)
      simpa using ih hlonger

theorem clean_byLines (bs : Bytes) : Clean (byLines bs) := by
  have hnil : ∀ b ∈ ([] : Bytes), isLineBreak b = false := List.forall_mem_nil _
  exact clean_byLines_append hnil bs

theorem getLast?_trimmed {part : Bytes} (h : trimmed part ≠ []) :
    (trimmed part).getLast? = some newline := by
  unfold trimmed at h ⊢
  split
  next hblank => exact absurd (if_pos hblank) h
  next => exact List.getLast?_concat

theorem clean_trimmed_iff (part : Bytes) : Clean (trimmed part) ↔ Even part := by
  unfold trimmed
  by_cases hbody : part.rdropWhile isLineBreak = []
  · have heven : Even part := by constructor <;> simp [hbody]
    rw [if_pos (List.all_eq_true.mpr (List.rdropWhile_eq_nil_iff.mp hbody))]
    exact iff_of_true clean_nil heven
  · have hlast : ∀ b ∈ (part.rdropWhile isLineBreak).getLast?, isLineBreak b = false := by
      intro b hb
      have hnot := List.rdropWhile_last_not isLineBreak part hbody
      rw [List.getLast?_eq_some_getLast hbody] at hb
      rw [← Option.some.inj hb]
      simpa using hnot
    rw [if_neg (by simpa using hbody), clean_concat_iff hbody hlast]
    exact ⟨fun h => ⟨h.1, h.2.1, h.2.2⟩, fun h => ⟨h.noReturn, h.start, h.inner⟩⟩

theorem even_nil : Even [] := (clean_trimmed_iff []).mp clean_nil

end Layout

open Layout

section Stored

variable {κ : Type} {w v : World κ} {ws : List (MemorySlot × Bytes)}

def StoresClean (w v : World κ) : Prop :=
  ∃ new, v.events = w.events ++ new ∧ ∀ s : MemorySlot, .slot .write s.name ∈ new →
    ∃ text, (v.memory s.name).data = some text ∧ Clean text

theorem storesClean_iff (h : Stores ws w v) (distinct : (ws.map Prod.fst).Nodup) :
    StoresClean w v ↔ ∀ q ∈ ws, Clean q.2 := by
  have hdata : ∀ q ∈ ws, (v.memory q.1.name).data = some q.2 := by
    intro q hq
    rw [h.memory q.1, MemorySlot.lastStored_of_mem distinct hq]
    rfl
  constructor
  · rintro ⟨new, hevents, hclean⟩ q hq
    have hnew : new = ws.map fun q => .slot .write q.1.name :=
      List.append_cancel_left (hevents.symm.trans h.events)
    obtain ⟨text, htext, hclean⟩ := hclean q.1 (by rw [hnew]; exact List.mem_map_of_mem hq)
    rw [hdata q hq] at htext
    rwa [Option.some.inj htext]
  · intro hclean
    refine ⟨_, h.events, ?_⟩
    intro s hs
    obtain ⟨q, hq, hname⟩ := List.mem_map.mp hs
    have hslot : q.1.name = s.name := by simpa using hname
    exact ⟨q.2, by rw [← hslot, hdata q hq], hclean q hq⟩

namespace Destination

variable {σ : Type}

theorem clean_certLayout_iff (cert : σ) (ca : Option σ) (certificate caData : Bytes) :
    (∀ q ∈ certLayout cert ca certificate caData, Clean q.2) ↔
      Layout.Even certificate ∧ Layout.Even caData := by
  unfold certLayout
  cases ca with
  | none =>
    rw [List.forall_mem_singleton, clean_append_iff getLast?_trimmed, clean_trimmed_iff,
      clean_trimmed_iff]
  | some ca =>
    by_cases h : caData = []
    · simp [h, even_nil, clean_trimmed_iff]
    · simp [h, clean_trimmed_iff, and_comm]

def Even (d : Destination σ) (data : CertData) : Prop :=
  match d with
  | .combined _ | .separateCa _ _ => True
  | .separateCert _ _ _ => Layout.Even data.certificate ∧ Layout.Even (data.caData.getD [])

theorem clean_layout_iff (d : Destination σ) (data : CertData) :
    (∀ q ∈ d.layout data, Clean q.2) ↔ d.Even data := by
  have hlines (as bs : Bytes) : Clean (byLines as ++ byLines bs) :=
    (clean_append_iff (clean_byLines as).finish).mpr ⟨clean_byLines as, clean_byLines bs⟩
  cases d with
  | combined key =>
    have hall : Clean (byLines data.certificate ++ byLines (data.caData.getD []) ++
        byLines (data.privateKey.getD [])) :=
      (clean_append_iff (hlines _ _).finish).mpr ⟨hlines _ _, clean_byLines _⟩
    simpa [layout, Even] using hall
  | separateCa key ca =>
    have hboth := hlines data.certificate (data.privateKey.getD [])
    simp only [layout, Even, List.forall_mem_append, List.forall_mem_singleton, iff_true]
    refine ⟨?_, hboth⟩
    split
    · exact List.forall_mem_nil _
    · exact List.forall_mem_singleton.mpr (clean_byLines _)
  | separateCert cert ca key =>
    simp only [layout, Even, List.forall_mem_append, clean_certLayout_iff, and_iff_left_iff_imp]
    rintro -
    split
    · exact List.forall_mem_nil _
    · exact List.forall_mem_singleton.mpr (clean_byLines _)

theorem nodup_certLayout {cert : σ} {ca : Option σ} (distinct : (cert :: ca.toList).Nodup)
    (certificate caData : Bytes) :
    ((certLayout cert ca certificate caData).map Prod.fst).Nodup := by
  cases ca with
  | none => simp [certLayout]
  | some ca =>
    have hne : ca ≠ cert := by
      rintro rfl
      simp at distinct
    by_cases h : caData = [] <;> simp [certLayout, h, hne]

end Destination

/-- Blank lines are kept in the certificate and the authority data where the certificate has a slot
of its own, and nowhere else. -/
theorem stored_clean_iff (w : World κ) :
    (∀ (d : Destination MemorySlot) (data : CertData), d.slots.Nodup →
      (∀ s ∈ d.slots, s.Writable w) → ∃ v, w.perform (d.writeCert data) = (.ok (), v) ∧
        (StoresClean w v ↔ d.Even data)) ∧
    ∀ (store : SigningStore MemorySlot) (signature : Signature),
      (store.csr :: store.cert :: store.ca.toList).Nodup →
      (∀ s ∈ store.cert :: store.ca.toList, s.Writable w) →
      ∃ v, w.perform (store.writeSignature signature) = (.ok (), v) ∧
        (StoresClean w v ↔ Even signature.certificate ∧ Even (signature.caData.getD [])) := by
  constructor
  · intro d data distinct writable
    obtain ⟨v, hrun, hstores⟩ := stores_writeCert writable data
    refine ⟨v, hrun, ?_⟩
    have hnodup := Destination.nodup_plan distinct data
    rw [Destination.plan_eq_layout] at hnodup
    rw [storesClean_iff hstores hnodup, Destination.clean_layout_iff]
  · intro store signature distinct writable
    obtain ⟨v, hrun, hstores⟩ := stores_writeSignature writable signature
    have hnodup := Destination.nodup_certLayout (List.nodup_cons.mp distinct).2
      signature.certificate (signature.caData.getD [])
    refine ⟨v, hrun, ?_⟩
    rw [storesClean_iff hstores hnodup, SigningStore.layout, Destination.clean_certLayout_iff]

def spacedChain : CertData := ⟨[67, 10], some [75, 10], some [65, 10, 10, 66, 10]⟩

theorem stored_clean_combined :
    let d : Destination MemorySlot := .combined ⟨"key"⟩
    let w : World Script := { authority := .empty, readings := fun _ => 0 }
    ∃ v, w.perform (d.writeCert spacedChain) = (.ok (), v) ∧ StoresClean w v := by
  intro d w
  obtain ⟨v, hrun, hclean⟩ := (stored_clean_iff w).1 d spacedChain (by decide) fun _ _ => rfl
  exact ⟨v, hrun, hclean.mpr trivial⟩

theorem exists_blank_line_stored :
    let d : Destination MemorySlot := .separateCert ⟨"cert"⟩ (some ⟨"ca"⟩) ⟨"key"⟩
    let w : World Script := { authority := .empty, readings := fun _ => 0 }
    let written := w.perform (d.writeCert spacedChain)
    d.slots.Nodup ∧ (∀ s ∈ d.slots, s.Writable w) ∧ written.1 = .ok () ∧
      (written.2.memory "ca").data = some [65, 10, 10, 66, 10] ∧
      ¬ Clean [65, 10, 10, 66, 10] ∧ ¬ StoresClean w written.2 := by
  intro d w written
  refine ⟨by decide, fun _ _ => rfl, rfl, rfl, by decide, ?_⟩
  rintro ⟨new, hevents, hclean⟩
  obtain ⟨text, htext, hclean⟩ := hclean ⟨"ca"⟩ (by
    have hnew : new = [.slot .write "ca", .slot .write "cert", .slot .write "key"] := hevents.symm
    simp [hnew])
  obtain rfl : [65, 10, 10, 66, 10] = text := Option.some.inj htext
  exact absurd hclean (by decide)

end Stored

end CertLifecycle
