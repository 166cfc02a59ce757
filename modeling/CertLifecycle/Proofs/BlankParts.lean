import CertLifecycle.Proofs.CleanText
import CertLifecycle.Proofs.CollapsedText

namespace CertLifecycle

namespace Layout

theorem closed_eq_nil_iff {bs : Bytes} : closed bs = [] ↔ ∀ b ∈ bs, isLineBreak b := by
  rw [closed_eq_trimmed, trimmed, ← List.all_eq_true]
  split
  next h => exact iff_of_true rfl h
  next h => exact iff_of_false (by simp) h

theorem tidy_eq_nil_iff {bs : Bytes} : tidy bs = [] ↔ ∀ b ∈ bs, isLineBreak b := by
  rw [tidy, closed_eq_nil_iff]
  apply forall_congr'
  intro b
  by_cases hb : isLineBreak b = true
  · simp [hb]
  · rw [collapse, mem_collapse (by simpa using hb)]

def HasBlank (part : Option Bytes) : Prop :=
  part.getD [] ≠ [] ∧ ∀ b ∈ part.getD [], isLineBreak b

instance (part : Option Bytes) : Decidable (HasBlank part) :=
  decidable_of_iff (part.getD [] ≠ [] ∧ (part.getD []).all isLineBreak = true)
    (and_congr_right fun _ => List.all_eq_true)

def Faded (part part' : Option Bytes) : Prop :=
  part' = part ∨ part' = none ∧ ∀ b ∈ part.getD [], isLineBreak b

theorem Faded.eq_getD {part part' : Option Bytes} (h : Faded part part') {f : Bytes → Bytes}
    (hf : ∀ bs, f bs = [] ↔ ∀ b ∈ bs, isLineBreak b) : f (part'.getD []) = f (part.getD []) := by
  obtain rfl | ⟨rfl, hblank⟩ := h
  · rfl
  · rw [(hf _).mpr hblank]
    exact (hf []).mpr (List.forall_mem_nil _)

end Layout

open World Layout

structure Drops (data data' : CertData) : Prop where
  certificate : data'.certificate = data.certificate
  caData : Faded data.caData data'.caData
  privateKey : Faded data.privateKey data'.privateKey

namespace Destination

section Plans

variable {σ : Type} {f : Bytes → Bytes} {d : Destination σ} {data data' : CertData}

def hollow (slot : Option σ) (part : Option Bytes) : List σ :=
  if HasBlank part then slot.toList else []

def emptied (d : Destination σ) (data : CertData) : List σ :=
  hollow d.caApart data.caData ++ hollow d.keyApart data.privateKey

theorem caText_eq_nil_iff (d : Destination σ) (bs : Bytes) :
    d.caText bs = [] ↔ ∀ b ∈ bs, isLineBreak b := by
  cases d with
  | combined key => exact tidy_eq_nil_iff
  | separateCa key ca => exact tidy_eq_nil_iff
  | separateCert cert ca key => exact closed_eq_nil_iff

theorem certText_of_drops (drops : Drops data data') : d.certText data' = d.certText data := by
  have hca := drops.caData.eq_getD fun _ => tidy_eq_nil_iff
  have hkey := drops.privateKey.eq_getD fun _ => tidy_eq_nil_iff
  cases d with
  | combined key => simp only [certText, drops.certificate, hca, hkey]
  | separateCa key ca => simp only [certText, drops.certificate, hkey]
  | separateCert cert ca key =>
    have hclosed := drops.caData.eq_getD fun _ => closed_eq_nil_iff
    cases ca <;> simp only [certText, drops.certificate, hclosed]

theorem mem_hollow {slot : Option σ} {part : Option Bytes} {s : σ} :
    s ∈ hollow slot part ↔ slot = some s ∧ HasBlank part := by
  unfold hollow
  split
  next h => simp [h]
  next h => simp [h]

theorem mem_emptied {s : σ} : s ∈ d.emptied data ↔
    d.caApart = some s ∧ HasBlank data.caData ∨ d.keyApart = some s ∧ HasBlank data.privateKey := by
  rw [emptied, List.mem_append, mem_hollow, mem_hollow]

theorem length_hollow_le (slot : Option σ) {part part' : Option Bytes} (h : Faded part part') :
    (hollow slot part').length ≤ (hollow slot part).length := by
  obtain rfl | ⟨rfl, -⟩ := h
  · exact Nat.le_refl _
  · have hnil : hollow slot none = [] := if_neg fun h => h.1 rfl
    simp [hnil]

theorem ownPlan_of_hollow {slot : Option σ} {part part' : Option Bytes} (h : Faded part part')
    (hslot : hollow slot part = hollow slot part') :
    ownPlan f slot part = ownPlan f slot part' := by
  obtain rfl | ⟨rfl, hblank⟩ := h
  · rfl
  cases slot with
  | none => rfl
  | some s =>
    have hempty : part.getD [] = [] := by
      by_contra hne
      have hs : s ∈ hollow (some s) part := mem_hollow.mpr ⟨rfl, hne, hblank⟩
      rw [hslot] at hs
      exact (mem_hollow.mp hs).2.1 rfl
    rw [ownPlan, ownPlan, present_eq_none.mpr hempty]
    rfl

theorem plan_of_emptied (drops : Drops data data') (h : d.emptied data = d.emptied data') :
    d.plan data = d.plan data' := by
  have hca := length_hollow_le d.caApart drops.caData
  have hkey := length_hollow_le d.keyApart drops.privateKey
  have hlength := congrArg List.length h
  rw [emptied, emptied, List.length_append, List.length_append] at hlength
  -- Neither part has grown, so each of them is the same.
  obtain ⟨hca, hkey⟩ := List.append_inj h (by omega)
  rw [plan_split, plan_split, certText_of_drops drops, ownPlan_of_hollow drops.caData hca,
    ownPlan_of_hollow drops.privateKey hkey]

variable [DecidableEq σ]

def lost (d : Destination σ) (data data' : CertData) : List σ :=
  (d.emptied data).filter (· ∉ d.emptied data')

theorem mem_lost {s : σ} :
    s ∈ d.lost data data' ↔ s ∈ d.emptied data ∧ s ∉ d.emptied data' := by
  simp [lost]

theorem ownPlan_filter {slot : Option σ} {part part' : Option Bytes} (h : Faded part part')
    {ss : List σ} (hss : ∀ s, slot = some s → (s ∈ ss ↔ HasBlank part ∧ ¬ HasBlank part')) :
    (ownPlan f slot part).filter (·.1 ∉ ss) = ownPlan f slot part' := by
  obtain rfl | ⟨rfl, hblank⟩ := h
  · apply List.filter_eq_self.mpr
    intro q hq
    have hq' := hss q.1 (mem_ownPlan.mp hq).1
    simp [hq']
  · have hnil : ownPlan f slot none = [] := by cases slot <;> rfl
    rw [hnil, List.filter_eq_nil_iff]
    intro q hq
    obtain ⟨hslot, hne, -⟩ := mem_ownPlan.mp hq
    have hlost : q.1 ∈ ss := (hss q.1 hslot).mpr ⟨⟨hne, hblank⟩, fun h => h.1 rfl⟩
    simpa using hlost

theorem plan_filter (distinct : d.slots.Nodup) (drops : Drops data data') :
    (d.plan data).filter (·.1 ∉ d.lost data data') = d.plan data' := by
  have hca : ∀ s, d.caApart = some s →
      (s ∈ d.lost data data' ↔ HasBlank data.caData ∧ ¬ HasBlank data'.caData) := by
    intro s hs
    rw [mem_lost, mem_emptied, mem_emptied]
    simp [hs, (ne_of_caApart distinct hs).2]
  have hkey : ∀ s, d.keyApart = some s →
      (s ∈ d.lost data data' ↔ HasBlank data.privateKey ∧ ¬ HasBlank data'.privateKey) := by
    intro s hs
    have hne : d.caApart ≠ some s := fun h => (ne_of_caApart distinct h).2 hs
    rw [mem_lost, mem_emptied, mem_emptied]
    simp [hs, hne]
  have hcert : d.certSlot ∉ d.lost data data' := by
    intro h
    obtain ⟨h, -⟩ | ⟨h, -⟩ := mem_emptied.mp (mem_lost.mp h).1
    · exact (ne_of_caApart distinct h).1 rfl
    · exact ne_of_keyApart distinct h rfl
  rw [plan_split, plan_split, List.filter_append, ownPlan_filter drops.caData hca,
    List.filter_cons_of_pos (by simpa using hcert), ownPlan_filter drops.privateKey hkey,
    certText_of_drops drops]

end Plans

section Memory

variable {κ : Type} {w v : World κ} {ws : List (MemorySlot × Bytes)}

theorem writeAll_filter {ss : List MemorySlot} (writable : ∀ q ∈ ws, q.1 ∈ ss → q.1.Writable w)
    (h : ∀ t ∉ ss, w.memory t.name = v.memory t.name) :
    (w.perform (writeAll ws)).1 = (v.perform (writeAll (ws.filter (·.1 ∉ ss)))).1 ∧
      ∀ t ∉ ss, (w.perform (writeAll ws)).2.memory t.name =
        (v.perform (writeAll (ws.filter (·.1 ∉ ss)))).2.memory t.name := by
  induction ws generalizing w v with
  | nil => exact ⟨rfl, h⟩
  | cons q ws ih =>
    obtain ⟨s, bs⟩ := q
    obtain ⟨hwritable, writable⟩ := List.forall_mem_cons.mp writable
    have hnext : ∀ q ∈ ws, q.1 ∈ ss →
        q.1.Writable (s.stored bs (w.recorded (.slot .write s.name))) := by
      intro q hq hqs
      exact (MemorySlot.writable_stored _ _ _ _).mpr (writable q hq hqs)
    rw [writeAll, perform_bind, MemorySlot.perform_write]
    by_cases hs : s ∈ ss
    · have hfree : (w.memory s.name).writeFailure = none := hwritable hs
      rw [List.filter_cons_of_neg (by simpa using hs), hfree]
      -- Only the first run takes this step, and it changes no other slot.
      apply ih hnext
      intro t ht
      have hne : t ≠ s := fun hts => ht (hts ▸ hs)
      rw [MemorySlot.memory_stored_of_ne hne]
      exact h t ht
    · rw [List.filter_cons_of_pos (by simpa using hs), writeAll, perform_bind,
        MemorySlot.perform_write, ← h s hs]
      cases (w.memory s.name).writeFailure with
      | some e => exact ⟨rfl, h⟩
      | none =>
        apply ih hnext
        intro t ht
        have hagree : v.AgreeOn [t] w := List.forall_mem_singleton.mpr (h t ht)
        exact hagree.stored s bs _ t List.mem_cons_self

end Memory

end Destination

section Written

variable {κ : Type} {d : Destination MemorySlot} {data data' : CertData} {w : World κ}

open Destination

theorem mem_plan_of_emptied {s : MemorySlot} (h : s ∈ d.emptied data) : (s, []) ∈ d.plan data := by
  rw [plan_split]
  obtain ⟨hs, hne, hblank⟩ | ⟨hs, hne, hblank⟩ := mem_emptied.mp h
  · apply List.mem_append_left
    exact mem_ownPlan.mpr ⟨hs, hne, ((caText_eq_nil_iff d _).mpr hblank).symm⟩
  · apply List.mem_append_right
    apply List.mem_cons_of_mem
    exact mem_ownPlan.mpr ⟨hs, hne, (tidy_eq_nil_iff.mpr hblank).symm⟩

theorem ne_nil_of_mem_plan {s : MemorySlot} {text : Bytes} (h : (s, text) ∈ d.plan data)
    (hcert : s ≠ d.certSlot) (hs : s ∉ d.emptied data) : text ≠ [] := by
  rintro rfl
  rw [mem_emptied, not_or] at hs
  rw [plan_split] at h
  obtain h | h := List.mem_append.mp h
  · obtain ⟨hslot, hne, htext⟩ := mem_ownPlan.mp h
    exact hs.1 ⟨hslot, hne, (caText_eq_nil_iff d _).mp htext.symm⟩
  · obtain h | h := List.mem_cons.mp h
    · exact hcert (Prod.mk.inj h).1
    · obtain ⟨hslot, hne, htext⟩ := mem_ownPlan.mp h
      exact hs.2 ⟨hslot, hne, tidy_eq_nil_iff.mp htext.symm⟩

theorem writable_of_written (written : (w.perform (d.writeCert data)).1 = .ok ()) :
    ∀ s ∈ d.emptied data, s.Writable w := by
  intro s hs
  rw [← writeAll_plan] at written
  exact (MemorySlot.perform_writeAll_of_ok written).2 _ (mem_plan_of_emptied hs)

theorem data_of_emptied (distinct : d.slots.Nodup)
    (written : (w.perform (d.writeCert data)).1 = .ok ()) :
    ∀ s ∈ d.emptied data, ((w.perform (d.writeCert data)).2.memory s.name).data = some [] := by
  intro s hs
  rw [← writeAll_plan] at written ⊢
  rw [(MemorySlot.perform_writeAll_of_ok written).1, MemorySlot.memory_storeAll,
    MemorySlot.lastStored_of_mem (nodup_plan distinct data) (mem_plan_of_emptied hs)]
  rfl

theorem filled_or_kept {s : MemorySlot} (hcert : s ≠ d.certSlot) (hs : s ∉ d.emptied data)
    (w : World κ) : (w.perform (d.writeCert data)).2.memory s.name = w.memory s.name ∨
      ∃ text, ((w.perform (d.writeCert data)).2.memory s.name).data = some text ∧ text ≠ [] := by
  rw [← writeAll_plan, MemorySlot.memory_writeAll]
  cases h : s.lastStored (MemorySlot.goneThrough (d.plan data) w) with
  | none => exact .inl rfl
  | some text =>
    have hplan : (s, text) ∈ d.plan data :=
      (List.takeWhile_prefix _).subset (MemorySlot.mem_of_lastStored h)
    exact .inr ⟨text, rfl, ne_nil_of_mem_plan hplan hcert hs⟩

section Dropped

variable (drops : Drops data data') (distinct : d.slots.Nodup)

include drops distinct

theorem memory_of_lost (w : World κ) : ∀ s ∈ d.lost data data',
    (w.perform (d.writeCert data')).2.memory s.name = w.memory s.name := by
  intro s hs
  rw [← writeAll_plan, ← plan_filter distinct drops]
  apply memory_writeAll_of_not_mem
  intro q hq hname
  obtain rfl : q.1 = s := MemorySlot.eq_of_name hname
  exact of_decide_eq_true (List.mem_filter.mp hq).2 hs

theorem perform_of_writable (writable : ∀ s ∈ d.lost data data', s.Writable w) :
    (w.perform (d.writeCert data)).1 = (w.perform (d.writeCert data')).1 ∧
      ∀ s ∉ d.lost data data', (w.perform (d.writeCert data)).2.memory s.name =
        (w.perform (d.writeCert data')).2.memory s.name := by
  rw [← writeAll_plan, ← writeAll_plan, ← plan_filter distinct drops]
  apply writeAll_filter
  · intro q _ hq
    exact writable q.1 hq
  · intro _ _
    rfl

theorem data_same_iff (written : (w.perform (d.writeCert data)).1 = .ok ()) :
    (∀ s : MemorySlot, ((w.perform (d.writeCert data)).2.memory s.name).data =
        ((w.perform (d.writeCert data')).2.memory s.name).data) ↔
      ∀ s ∈ d.lost data data', (w.memory s.name).data = some [] := by
  have hempty := data_of_emptied distinct written
  have hkept := memory_of_lost drops distinct w
  constructor
  · intro same s hs
    rw [← hkept s hs, ← same s]
    exact hempty s (mem_lost.mp hs).1
  · intro empty s
    by_cases hs : s ∈ d.lost data data'
    · rw [hempty s (mem_lost.mp hs).1, hkept s hs, empty s hs]
    · have writable : ∀ s ∈ d.lost data data', s.Writable w :=
        fun s hs => writable_of_written written s (mem_lost.mp hs).1
      rw [(perform_of_writable drops distinct writable).2 s hs]

end Dropped

structure BlankParts (d : Destination MemorySlot) (data data' : CertData) (w : World κ) : Prop where
  result : (∀ s ∈ d.lost data data', s.Writable w) →
    (w.perform (d.writeCert data)).1 = (w.perform (d.writeCert data')).1
  others : (∀ s ∈ d.lost data data', s.Writable w) → ∀ s ∉ d.lost data data',
    (w.perform (d.writeCert data)).2.memory s.name =
      (w.perform (d.writeCert data')).2.memory s.name
  hindered : (∃ s ∈ d.lost data data', ¬ s.Writable w) →
    (w.perform (d.writeCert data)).1 ≠ .ok ()
  kept : ∀ s ∈ d.lost data data',
    (w.perform (d.writeCert data')).2.memory s.name = w.memory s.name
  emptied : (w.perform (d.writeCert data)).1 = .ok () → ∀ s ∈ d.emptied data,
    ((w.perform (d.writeCert data)).2.memory s.name).data = some []
  filled : ∀ s ≠ d.certSlot, s ∉ d.emptied data →
    (w.perform (d.writeCert data)).2.memory s.name = w.memory s.name ∨
      ∃ text, ((w.perform (d.writeCert data)).2.memory s.name).data = some text ∧ text ≠ []
  same_iff : (w.perform (d.writeCert data)).1 = .ok () →
    ((∀ s : MemorySlot, ((w.perform (d.writeCert data)).2.memory s.name).data =
        ((w.perform (d.writeCert data')).2.memory s.name).data) ↔
      ∀ s ∈ d.lost data data', (w.memory s.name).data = some [])

theorem blankParts_of_nodup (drops : Drops data data') (distinct : d.slots.Nodup) (w : World κ) :
    BlankParts d data data' w where
  result writable := (perform_of_writable drops distinct writable).1
  others writable := (perform_of_writable drops distinct writable).2
  hindered := by
    rintro ⟨s, hs, hfull⟩ written
    exact hfull (writable_of_written written s (mem_lost.mp hs).1)
  kept := memory_of_lost drops distinct w
  emptied written := data_of_emptied distinct written
  filled _ hcert hs := filled_or_kept hcert hs w
  same_iff written := data_same_iff drops distinct written

theorem written_of_drops (drops : Drops data data') (w : World κ) :
    (d.emptied data = d.emptied data' →
      w.perform (d.writeCert data) = w.perform (d.writeCert data')) ∧
    (d.slots.Nodup → BlankParts d data data' w) := by
  constructor
  · intro h
    rw [← writeAll_plan, ← writeAll_plan, plan_of_emptied drops h]
  · intro distinct
    exact blankParts_of_nodup drops distinct w

theorem written_of_drops_chain :
    let d : Destination MemorySlot := .separateCert ⟨"cert"⟩ none ⟨"key"⟩
    let data : CertData :=
      { certificate := [67, 10], privateKey := some [75, 10], caData := some [10] }
    let w : World Script := { authority := .empty, readings := fun _ => 0 }
    let whole := w.perform (d.writeCert data)
    whole = w.perform (d.writeCert { data with caData := none }) ∧
      BlankParts d data { data with caData := none } w := by
  intro d data w whole
  have drops : Drops data { data with caData := none } := by
    refine ⟨rfl, .inr ⟨rfl, ?_⟩, .inl rfl⟩
    exact List.forall_mem_singleton.mpr rfl
  obtain ⟨same, parts⟩ := written_of_drops (d := d) drops w
  exact ⟨same (by decide), parts (by decide)⟩

theorem exists_emptied_key :
    let d : Destination MemorySlot := .separateCert ⟨"cert"⟩ none ⟨"key"⟩
    let data : CertData := { certificate := [67, 10], privateKey := some [10], caData := none }
    let w : World Script :=
      { authority := .empty, readings := fun _ => 0,
        memory := fun n => { data := if n = "key" then some [75, 10] else none } }
    let written := w.perform (d.writeCert data)
    let without := w.perform (d.writeCert { data with privateKey := none })
    Drops data { data with privateKey := none } ∧ written.1 = .ok () ∧ without.1 = .ok () ∧
      (written.2.memory "key").data = some [] ∧
      (without.2.memory "key").data = some [75, 10] := by
  refine ⟨⟨rfl, .inl rfl, .inr ⟨rfl, ?_⟩⟩, rfl, rfl, rfl, rfl⟩
  exact List.forall_mem_singleton.mpr rfl

end Written

end CertLifecycle
