import CertLifecycle.Proofs.BlankLines
import CertLifecycle.Proofs.PlacedBlocks

namespace CertLifecycle

open World Layout

variable {κ : Type}

namespace Pem

def Holds (text : Bytes) (b : Block) : Prop :=
  ∃ f ∈ frames text, Reads f b

theorem holds_iff_mem {text : Bytes} {blocks : List Block} (h : parse text = .ok blocks)
    {b : Block} : Holds text b ↔ b ∈ blocks := by
  have hreads := parse_eq_ok.mp h
  constructor
  · rintro ⟨f, hf, hb⟩
    obtain ⟨c, hc, hread⟩ := exists_of_forall₂ hreads.flip hf
    obtain rfl : b = c := Except.ok.inj ((read_eq_ok.mpr hb).symm.trans (read_eq_ok.mpr hread))
    exact hc
  · intro hb
    exact exists_of_forall₂ hreads hb

theorem parse_tidy {text : Bytes} {blocks : List Block} (returns : ReturnsEndLines text)
    (accepted : parse text = .ok blocks)
    (plain : ∀ b ∈ blocks, b.headers = [] ∧ Utf8.Unfolded b.tag) :
    parse (tidy text) = .ok blocks :=
  (Certificate.parse_closed _).trans ((parse_collapse_iff returns accepted).mpr plain)

end Pem

namespace MemorySlot

theorem writable_storeAll (s : MemorySlot) (ws : List (MemorySlot × Bytes)) (w : World κ) :
    s.Writable (storeAll ws w) ↔ s.Writable w := by
  rw [Writable, memory_storeAll]
  rfl

end MemorySlot

namespace Destination

open MemorySlot

variable {d : Destination MemorySlot} {data : CertData} {w : World κ}

theorem ne_of_mem_keyless (distinct : d.slots.Nodup) (keyless : data.privateKey.getD [] = [])
    {s : MemorySlot} (hs : d.keyApart = some s) : ∀ q ∈ d.plan data, q.1 ≠ s := by
  rintro q hq rfl
  rw [plan_split, List.mem_append, List.mem_cons] at hq
  rcases hq with hca | rfl | hkey
  · exact (ne_of_caApart distinct (mem_ownPlan.mp hca).1).2 hs
  · exact ne_of_keyApart distinct hs rfl
  · exact (mem_ownPlan.mp hkey).2.1 keyless

theorem memory_keyless (distinct : d.slots.Nodup) (keyless : data.privateKey.getD [] = [])
    {s : MemorySlot} (hs : d.keyApart = some s) :
    (storeAll (d.plan data) w).memory s.name = w.memory s.name :=
  memory_storeAll_of_not_mem (ne_of_mem_keyless distinct keyless hs) w

theorem data_storeAll_certSlot (distinct : d.slots.Nodup) :
    ((storeAll (d.plan data) w).memory d.certSlot.name).data = some (d.certText data) := by
  have hmem : (d.certSlot, d.certText data) ∈ d.plan data := by
    rw [plan_split]
    exact List.mem_append_right _ List.mem_cons_self
  rw [memory_storeAll, lastStored_of_mem (nodup_plan distinct data) hmem]
  rfl

theorem data_storeAll_keyApart (distinct : d.slots.Nodup) {key : Bytes}
    (delivered : data.privateKey = some key) (nonempty : key ≠ []) {s : MemorySlot}
    (hs : d.keyApart = some s) :
    ((storeAll (d.plan data) w).memory s.name).data = some (tidy key) := by
  have hmem : (s, tidy key) ∈ d.plan data := by
    rw [plan_split]
    refine List.mem_append_right _ (List.mem_cons_of_mem _ ?_)
    rw [mem_ownPlan, delivered]
    exact ⟨hs, nonempty, rfl⟩
  rw [memory_storeAll, lastStored_of_mem (nodup_plan distinct data) hmem]
  rfl

/-- What two writes leave of the private key that came with the first, if the second brings none. -/
structure KeyAfter (d : Destination MemorySlot) (key : Bytes) (data : CertData)
    (u v : World κ) : Prop where
  -- A slot of its own is not written again.
  untouched : ∀ {s}, d.keyApart = some s →
    v.memory s.name = u.memory s.name ∧ (v.memory s.name).data = some (tidy key)
  -- A shared slot says what the second bundle says.
  refilled : d.keyApart = none →
    d.keySlot = d.certSlot ∧ (v.memory d.certSlot.name).data = some (d.certText data)
  survives : ∀ {blocks}, Pem.parse key = .ok blocks →
    (∀ b ∈ blocks, b.headers = [] ∧ Utf8.Unfolded b.tag) → ReturnsEndLines key →
    ((∃ text, (v.memory d.keySlot.name).data = some text ∧ ∀ b ∈ blocks, Pem.Holds text b) ↔
      d.keyApart ≠ none ∨ ∀ b ∈ blocks, Pem.Holds (d.certText data) b)

theorem keyAfter_keyless {first second : CertData} {key : Bytes} (distinct : d.slots.Nodup)
    (writable : ∀ s ∈ d.slots, s.Writable w) (delivered : first.privateKey = some key)
    (nonempty : key ≠ []) (keyless : second.privateKey.getD [] = []) :
    ∃ u v, w.perform (d.writeCert first) = (.ok (), u) ∧
      u.perform (d.writeCert second) = (.ok (), v) ∧ KeyAfter d key second u v := by
  let u := storeAll (d.plan first) w
  let v := storeAll (d.plan second) u
  have again : ∀ s ∈ d.slots, s.Writable u := by
    intro s hs
    exact (writable_storeAll s _ w).mpr (writable s hs)
  have untouched {s : MemorySlot} (hs : d.keyApart = some s) :
      v.memory s.name = u.memory s.name ∧ (v.memory s.name).data = some (tidy key) := by
    have hsame : v.memory s.name = u.memory s.name := memory_keyless distinct keyless hs
    refine ⟨hsame, ?_⟩
    rw [hsame]
    exact data_storeAll_keyApart distinct delivered nonempty hs
  have refilled (hs : d.keyApart = none) :
      d.keySlot = d.certSlot ∧ (v.memory d.certSlot.name).data = some (d.certText second) := by
    refine ⟨?_, data_storeAll_certSlot distinct⟩
    rw [keySlot_eq, hs]
    rfl
  refine ⟨u, v, perform_writeCert_of_writable writable, perform_writeCert_of_writable again,
    untouched, refilled, ?_⟩
  intro blocks accepted plain returns
  cases hs : d.keyApart with
  | some s =>
    have hslot : d.keySlot = s := by
      rw [keySlot_eq, hs]
      rfl
    refine iff_of_true ⟨tidy key, ?_, fun b hb => ?_⟩ (.inl (Option.some_ne_none s))
    · rw [hslot]
      exact (untouched hs).2
    · exact (Pem.holds_iff_mem (Pem.parse_tidy returns accepted plain)).mpr hb
  | none =>
    obtain ⟨hslot, htext⟩ := refilled hs
    rw [hslot, htext]
    simp

def keyedBundle : CertData := ⟨certArmour.text, some keyArmour.text, none⟩

def keylessBundle : CertData := ⟨certArmour.text, none, none⟩

theorem keyAfter_keyless_separateCert :
    let d : Destination MemorySlot := .separateCert ⟨"cert"⟩ none ⟨"key"⟩
    let w : World Script := { authority := .empty, readings := fun _ => 0 }
    ∃ u v text, w.perform (d.writeCert keyedBundle) = (.ok (), u) ∧
      u.perform (d.writeCert keylessBundle) = (.ok (), v) ∧
      (v.memory "key").data = some text ∧ Pem.Holds text keyArmour.block := by
  intro d w
  have written : ∃ u v, w.perform (d.writeCert keyedBundle) = (.ok (), u) ∧
      u.perform (d.writeCert keylessBundle) = (.ok (), v) ∧
      KeyAfter d keyArmour.text keylessBundle u v :=
    keyAfter_keyless (by decide) (fun _ _ => rfl) rfl (by decide) rfl
  obtain ⟨u, v, hfirst, hsecond, hafter⟩ := written
  have plain : ∀ b ∈ [keyArmour.block], b.headers = [] ∧ Utf8.Unfolded b.tag := by
    unfold Utf8.Unfolded
    decide +kernel
  have returns : ReturnsEndLines keyArmour.text := by
    unfold ReturnsEndLines
    decide +kernel
  obtain ⟨text, htext, hholds⟩ := (hafter.survives keyArmour.spells.parse_eq plain returns).mpr
    (.inl (Option.some_ne_none _))
  exact ⟨u, v, text, hfirst, hsecond, htext, hholds _ List.mem_cons_self⟩

theorem exists_key_overwritten :
    let d : Destination MemorySlot := .combined ⟨"key"⟩
    let w : World Script := { authority := .empty, readings := fun _ => 0 }
    ∃ u v stored left, w.perform (d.writeCert keyedBundle) = (.ok (), u) ∧
      u.perform (d.writeCert keylessBundle) = (.ok (), v) ∧
      (u.memory "key").data = some stored ∧ Pem.Holds stored keyArmour.block ∧
      (v.memory "key").data = some left ∧ ¬ Pem.Holds left keyArmour.block := by
  intro d w
  have hnone : Pem.Spells (tidy []) [] := Pem.Spells.nil.tidy
  have hstored : Pem.Spells (d.certText keyedBundle)
      ([certArmour.block] ++ [] ++ [keyArmour.block]) :=
    (certArmour.spells.tidy.append hnone).append keyArmour.spells.tidy
  have hleft : Pem.Spells (d.certText keylessBundle) ([certArmour.block] ++ [] ++ []) :=
    (certArmour.spells.tidy.append hnone).append hnone
  refine ⟨_, _, d.certText keyedBundle, d.certText keylessBundle, rfl, rfl, rfl, ?_, rfl, ?_⟩
  · rw [Pem.holds_iff_mem hstored.parse_eq]
    exact List.mem_append_right _ List.mem_cons_self
  · rw [Pem.holds_iff_mem hleft.parse_eq]
    decide

end Destination

end CertLifecycle
