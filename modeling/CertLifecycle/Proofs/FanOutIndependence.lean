import CertLifecycle.Proofs.FailedWrites
import Mathlib.Data.List.Perm.Basic

namespace CertLifecycle

open World

variable {κ σ α β ε : Type}

namespace World

def AgreeOn (ss : List MemorySlot) (w v : World κ) : Prop :=
  ∀ s ∈ ss, v.memory s.name = w.memory s.name

theorem AgreeOn.stored {ss : List MemorySlot} {w v : World κ} (h : w.AgreeOn ss v)
    (s : MemorySlot) (bs : Bytes) (e : Event) :
    (s.stored bs (w.recorded e)).AgreeOn ss (s.stored bs (v.recorded e)) := by
  intro t ht
  by_cases hts : t = s
  · rw [hts, MemorySlot.memory_stored, MemorySlot.memory_stored]
    rw [hts] at ht
    change { v.memory s.name with data := some bs } = { w.memory s.name with data := some bs }
    rw [h s ht]
  · rw [MemorySlot.memory_stored_of_ne hts, MemorySlot.memory_stored_of_ne hts]
    exact h t ht

end World

namespace Destination

theorem mem_certPlan {cert : σ} {ca : Option σ} {certificate : Bytes} {caData : Option Bytes}
    {q : σ × Bytes} (hq : q ∈ certPlan cert ca certificate caData) :
    q.1 = cert ∨ q.1 ∈ ca.toList := by
  unfold certPlan at hq
  split at hq
  · rw [List.mem_singleton.mp hq]
    exact .inl rfl
  · simp only [List.mem_cons, List.not_mem_nil, or_false] at hq
    obtain rfl | rfl := hq
    · exact .inr (by simp)
    · exact .inl rfl
  · rw [List.mem_singleton.mp hq]
    exact .inl rfl

theorem writeAll_congr {ws : List (MemorySlot × Bytes)} {ss : List MemorySlot}
    (hws : ∀ q ∈ ws, q.1 ∈ ss) {w v : World κ} (h : w.AgreeOn ss v) :
    (v.perform (writeAll ws)).1 = (w.perform (writeAll ws)).1 ∧
      (w.perform (writeAll ws)).2.AgreeOn ss (v.perform (writeAll ws)).2 := by
  induction ws generalizing w v with
  | nil => exact ⟨rfl, h⟩
  | cons q ws ih =>
    obtain ⟨s, bs⟩ := q
    obtain ⟨hs, hws⟩ := List.forall_mem_cons.mp hws
    rw [writeAll, perform_bind, perform_bind, MemorySlot.perform_write, MemorySlot.perform_write,
      h s hs]
    cases (w.memory s.name).writeFailure with
    | some e => exact ⟨rfl, h⟩
    | none => exact ih hws (h.stored s bs _)

theorem memory_writeAll_of_not_mem {ws : List (MemorySlot × Bytes)} {n : String}
    (h : ∀ q ∈ ws, q.1.name ≠ n) (w : World κ) :
    (w.perform (writeAll ws)).2.memory n = w.memory n := by
  have hne : ∀ q ∈ ws, q.1 ≠ ⟨n⟩ := by
    intro q hq he
    exact h q hq (congrArg MemorySlot.name he)
  obtain ⟨hrun, -⟩ | ⟨front, s, bs, back, e, hsplit, -, -, hrun⟩ :=
    MemorySlot.perform_writeAll ws w
  · rw [hrun]
    exact MemorySlot.memory_storeAll_of_not_mem hne w
  · rw [hrun]
    apply MemorySlot.memory_storeAll_of_not_mem (t := ⟨n⟩)
    intro q hq
    exact hne q (by simp [hsplit, hq])

theorem writeCert_congr (d : Destination MemorySlot) (data : CertData) {w v : World κ}
    (h : w.AgreeOn d.slots v) :
    (v.perform (d.writeCert data)).1 = (w.perform (d.writeCert data)).1 ∧
      (w.perform (d.writeCert data)).2.AgreeOn d.slots (v.perform (d.writeCert data)).2 := by
  rw [← writeAll_plan]
  exact writeAll_congr (fun q hq => mem_slots_of_plan hq) h

theorem memory_writeCert_of_not_mem {d : Destination MemorySlot} {n : String}
    (h : ∀ s ∈ d.slots, s.name ≠ n) (data : CertData) (w : World κ) :
    (w.perform (d.writeCert data)).2.memory n = w.memory n := by
  rw [← writeAll_plan]
  exact memory_writeAll_of_not_mem (fun q hq => h q.1 (mem_slots_of_plan hq)) w

theorem agreeOn_writeCert_of_disjoint {d e : Destination MemorySlot}
    (h : d.slots.Disjoint e.slots) (data : CertData) (w : World κ) :
    w.AgreeOn e.slots (w.perform (d.writeCert data)).2 := by
  intro s hs
  apply memory_writeCert_of_not_mem
  intro t ht he
  obtain rfl : t = s := MemorySlot.eq_of_name he
  exact h ht hs

end Destination

namespace FanOut

def Apart (f : FanOut σ) : Prop :=
  f.members.Pairwise fun d e => d.slots.Disjoint e.slots

def failure? : Except ε α → Option ε
  | .error e => some e
  | .ok _ => none

section Gathering

variable {action : α → ExceptT StorageError (Run κ) Unit} {report : α → StorageError → Run κ Unit}

def reported (action : α → ExceptT StorageError (Run κ) Unit)
    (report : α → StorageError → Run κ Unit) (w : World κ) (a : α) : World κ :=
  match w.perform (action a) with
  | (.ok (), v) => v
  | (.error e, v) => ((report a e).run v).2

theorem run_failuresOf_cons (a : α) (as : List α) (w : World κ) :
    (failuresOf action report (a :: as)).run w =
      ((failure? (w.perform (action a)).1).toList ++
          ((failuresOf action report as).run (reported action report w a)).1,
        ((failuresOf action report as).run (reported action report w a)).2) := by
  have hrun : (action a).run.run w = w.perform (action a) := rfl
  rw [failuresOf, run_bind, hrun, reported]
  rcases w.perform (action a) with ⟨e | _, v⟩
  · rfl
  · rfl

theorem world_failuresOf (as : List α) (w : World κ) :
    ((failuresOf action report as).run w).2 = as.foldl (reported action report) w := by
  induction as generalizing w with
  | nil => rfl
  | cons a as ih => rw [run_failuresOf_cons, List.foldl_cons, ih]

theorem failures_eq {as : List α}
    (apart : as.Pairwise fun a b => ∀ w : World κ,
      ((reported action report w a).perform (action b)).1 = (w.perform (action b)).1)
    (w : World κ) :
    ((failuresOf action report as).run w).1 =
      as.filterMap fun a => failure? (w.perform (action a)).1 := by
  induction as generalizing w with
  | nil => rfl
  | cons a as ih =>
    obtain ⟨ha, has⟩ := List.pairwise_cons.mp apart
    have hrest : (as.filterMap fun b =>
        failure? ((reported action report w a).perform (action b)).1) =
        as.filterMap fun b => failure? (w.perform (action b)).1 := by
      apply List.filterMap_congr
      intro b hb
      rw [ha b hb w]
    rw [run_failuresOf_cons, ih has, hrest, List.filterMap_cons]
    cases failure? (w.perform (action a)).1 <;> rfl

structure Aggregates (action : α → ExceptT StorageError (Run κ) Unit)
    (whole : ExceptT StorageError (Run κ) Unit) (as : List α) (w : World κ) : Prop where
  ok_iff : (w.perform whole).1 = .ok () ↔ ∀ a ∈ as, (w.perform (action a)).1 = .ok ()
  failed : (¬ ∀ a ∈ as, (w.perform (action a)).1 = .ok ()) → (w.perform whole).1 =
    .error (.aggregate (as.filterMap fun a => failure? (w.perform (action a)).1))

theorem failures_eq_nil_iff {as : List α} {w : World κ} :
    (as.filterMap fun a => failure? (w.perform (action a)).1) = [] ↔
      ∀ a ∈ as, (w.perform (action a)).1 = .ok () := by
  rw [List.filterMap_eq_nil_iff]
  apply forall₂_congr
  intro a _
  cases (w.perform (action a)).1 <;> simp [failure?]

theorem aggregates_of_eq {whole : ExceptT StorageError (Run κ) Unit} {as : List α} {w : World κ}
    (h : (w.perform whole).1 =
      aggregated (as.filterMap fun a => failure? (w.perform (action a)).1)) :
    Aggregates action whole as w := by
  constructor
  · rw [h, ← failures_eq_nil_iff]
    cases as.filterMap fun a => failure? (w.perform (action a)).1 <;> simp [aggregated]
  · intro hne
    rw [← failures_eq_nil_iff] at hne
    rw [h]
    cases hes : as.filterMap fun a => failure? (w.perform (action a)).1 with
    | nil => exact absurd hes hne
    | cons e es => rfl

end Gathering

section FallingBack

variable {action : α → ExceptT StorageError (Run κ) β}

structure FallsBack (action : α → ExceptT StorageError (Run κ) β)
    (whole : ExceptT StorageError (Run κ) β) (as : List α) (w : World κ) : Prop where
  first : ∀ {before a after b}, as = before ++ a :: after →
    (∀ c ∈ before, ∃ e, (w.perform (action c)).1 = .error e) →
    (w.perform (action a)).1 = .ok b → (w.perform whole).1 = .ok b
  last : ∀ {before a e}, as = before ++ [a] →
    (∀ c ∈ before, ∃ e, (w.perform (action c)).1 = .error e) →
    (w.perform (action a)).1 = .error e → (w.perform whole).1 = .error e

structure Observes (action : α → ExceptT StorageError (Run κ) β) : Prop where
  memory (a : α) (w : World κ) : (w.perform (action a)).2.memory = w.memory
  result (a : α) {w v : World κ} :
    v.memory = w.memory → (v.perform (action a)).1 = (w.perform (action a)).1

theorem Observes.again (h : Observes action) (a b : α) (w : World κ) :
    ((w.perform (action a)).2.perform (action b)).1 = (w.perform (action b)).1 :=
  h.result b (h.memory a w)

theorem run_firstOf_cons (last : StorageError) (a : α) (as : List α) (w : World κ) :
    (firstOf action last (a :: as)).run w = match w.perform (action a) with
      | (.ok b, v) => (.ok b, v)
      | (.error e, v) => (firstOf action e as).run v := by
  have hrun : (action a).run.run w = w.perform (action a) := rfl
  rw [firstOf, run_bind, hrun]
  rcases w.perform (action a) with ⟨e | b, v⟩ <;> rfl

theorem run_firstOf_of_error {last e : StorageError} {a : α} {w : World κ}
    (h : (w.perform (action a)).1 = .error e) (as : List α) :
    (firstOf action last (a :: as)).run w =
      (firstOf action e as).run (w.perform (action a)).2 := by
  rw [run_firstOf_cons]
  rcases hrun : w.perform (action a) with ⟨e' | b, v⟩
  · rw [hrun] at h
    cases h
    rfl
  · rw [hrun] at h
    cases h

theorem run_firstOf_of_ok {last : StorageError} {a : α} {b : β} {w : World κ}
    (h : (w.perform (action a)).1 = .ok b) (as : List α) :
    ((firstOf action last (a :: as)).run w).1 = .ok b := by
  rw [run_firstOf_cons]
  rcases hrun : w.perform (action a) with ⟨e' | b', v⟩
  · rw [hrun] at h
    cases h
  · rw [hrun] at h
    exact h

theorem run_firstOf_append (hobs : Observes action) {before : List α} {w : World κ}
    (hbefore : ∀ c ∈ before, ∃ e, (w.perform (action c)).1 = .error e) (last : StorageError)
    (as : List α) :
    ∃ e v, v.memory = w.memory ∧
      (firstOf action last (before ++ as)).run w = (firstOf action e as).run v := by
  induction before generalizing last w with
  | nil => exact ⟨last, w, rfl, rfl⟩
  | cons c before ih =>
    obtain ⟨⟨e, he⟩, hbefore⟩ := List.forall_mem_cons.mp hbefore
    have hagain : ∀ c' ∈ before,
        ∃ e, ((w.perform (action c)).2.perform (action c')).1 = .error e := by
      intro c' hc'
      obtain ⟨e', he'⟩ := hbefore c' hc'
      exact ⟨e', (hobs.again c c' w).trans he'⟩
    obtain ⟨e', v, hv, hrun⟩ := ih hagain e
    refine ⟨e', v, hv.trans (hobs.memory c w), ?_⟩
    rw [List.cons_append, run_firstOf_of_error he, hrun]

theorem fallsBack_of_observes (hobs : Observes action) (last : StorageError) (as : List α)
    (w : World κ) : FallsBack action (ExceptT.mk (firstOf action last as)) as w where
  first {before a after b} has hbefore ha := by
    obtain ⟨e, v, hv, hrun⟩ := run_firstOf_append hobs hbefore last (a :: after)
    rw [perform_mk, has, hrun]
    apply run_firstOf_of_ok
    rw [hobs.result a hv, ha]
  last {before a e} has hbefore ha := by
    obtain ⟨e', v, hv, hrun⟩ := run_firstOf_append hobs hbefore last [a]
    rw [perform_mk, has, hrun]
    have ha' : (v.perform (action a)).1 = .error e := (hobs.result a hv).trans ha
    rw [run_firstOf_of_error ha']
    rfl

end FallingBack

section Observing

theorem observes_readCert :
    Observes (Destination.readCert : Destination MemorySlot → ExceptT StorageError (Run κ) _) where
  memory d w := by
    have hread : Leads SameStorage (d.readCert : ExceptT StorageError (Run κ) _).run :=
      leads_destination_readCert Steady.read_sameStorage d
    exact (hread w).memory
  result d {w v} h := by
    rw [Destination.perform_readCert, Destination.perform_readCert, MemorySlot.seen,
      MemorySlot.seen, h]

theorem perform_canRead (s : MemorySlot) (w : World κ) :
    w.perform (Slot.canRead s) =
      ((MemorySlot.content (w.memory s.name).canReadFailure (w.memory s.name)).map fun _ => (),
        w.recorded (.slot .canRead s.name)) :=
  rfl

theorem perform_canWrite (s : MemorySlot) (w : World κ) :
    w.perform (Slot.canWrite s) =
      (((w.memory s.name).canWriteFailure.map .error).getD (.ok ()),
        w.recorded (.slot .canWrite s.name)) := by
  have hrecord : (record (.slot .canWrite s.name) : Run κ Unit).run w =
      ((), w.recorded (.slot .canWrite s.name)) := rfl
  have hcell : (s.cell : Run κ Cell).run (w.recorded (.slot .canWrite s.name)) =
      (w.memory s.name, w.recorded (.slot .canWrite s.name)) := rfl
  simp only [Slot.canWrite, perform_mk, run_bind, hrecord, hcell]
  cases (w.memory s.name).canWriteFailure with
  | some e => rfl
  | none => rfl

theorem observes_canRead :
    Observes (Destination.canRead : Destination MemorySlot → ExceptT StorageError (Run κ) _) where
  memory _ _ := rfl
  result d {w v} h := by
    rw [Destination.canRead, perform_canRead, perform_canRead, h]

theorem observes_canWriteAll :
    Observes (Destination.canWriteAll : List MemorySlot → ExceptT StorageError (Run κ) _) where
  memory ss w := by
    induction ss generalizing w with
    | nil => rfl
    | cons s ss ih =>
      rw [Destination.canWriteAll, perform_bind, perform_canWrite]
      cases (w.memory s.name).canWriteFailure with
      | some e => rfl
      | none => exact ih _
  result ss {w v} h := by
    induction ss generalizing w v with
    | nil => rfl
    | cons s ss ih =>
      rw [Destination.canWriteAll, perform_bind, perform_bind, perform_canWrite, perform_canWrite,
        h]
      cases (w.memory s.name).canWriteFailure with
      | some e => rfl
      | none => exact ih h

end Observing

variable {f : FanOut MemorySlot}

section Writing

variable {report : Destination MemorySlot → StorageError → Run κ Unit} {data : CertData}
variable (hreport : ∀ d e w, ((report d e).run w).2.memory = w.memory)

include hreport

theorem memory_reported (d : Destination MemorySlot) (w : World κ) :
    (reported (fun d => d.writeCert data) report w d).memory =
      (w.perform (d.writeCert data)).2.memory := by
  rw [reported]
  rcases w.perform (d.writeCert data) with ⟨e | _, v⟩
  · exact hreport d e v
  · rfl

theorem agreeOn_reported {d e : Destination MemorySlot} (h : d.slots.Disjoint e.slots)
    (w : World κ) : w.AgreeOn e.slots (reported (fun d => d.writeCert data) report w d) := by
  intro s hs
  rw [memory_reported hreport]
  exact Destination.agreeOn_writeCert_of_disjoint h data w s hs

theorem memory_writes {ds : List (Destination MemorySlot)}
    (apart : ds.Pairwise fun d e => d.slots.Disjoint e.slots) (w : World κ) :
    (∀ d ∈ ds, (w.perform (d.writeCert data)).2.AgreeOn d.slots
      (ds.foldl (reported (fun d => d.writeCert data) report) w)) ∧
    ∀ n, (∀ d ∈ ds, ∀ s ∈ d.slots, s.name ≠ n) →
      (ds.foldl (reported (fun d => d.writeCert data) report) w).memory n = w.memory n := by
  induction ds generalizing w with
  | nil => exact ⟨nofun, fun _ _ => rfl⟩
  | cons d ds ih =>
    obtain ⟨hd, hds⟩ := List.pairwise_cons.mp apart
    obtain ⟨hown, hothers⟩ := ih hds (reported (fun d => d.writeCert data) report w d)
    rw [List.foldl_cons]
    refine ⟨?_, ?_⟩
    · intro e he s hs
      obtain rfl | he := List.mem_cons.mp he
      -- The writes behind this one do not touch its slots.
      · rw [hothers, memory_reported hreport]
        intro d' hd' t ht hts
        obtain rfl : t = s := MemorySlot.eq_of_name hts
        exact hd d' hd' hs ht
      · rw [hown e he s hs]
        exact (Destination.writeCert_congr e data (agreeOn_reported hreport (hd e he) w)).2 s hs
    · intro n hn
      obtain ⟨hn, hns⟩ := List.forall_mem_cons.mp hn
      rw [hothers n hns, memory_reported hreport]
      exact Destination.memory_writeCert_of_not_mem hn data w

end Writing

/-- What a fan-out does, by what its members do alone. -/
structure Independent (f : FanOut MemorySlot) (data : CertData) (w : World κ) : Prop where
  slots : ∀ d ∈ f.members,
    (w.perform (d.writeCert data)).2.AgreeOn d.slots (w.perform (f.writeCert data)).2
  others : ∀ n, (∀ d ∈ f.members, ∀ s ∈ d.slots, s.name ≠ n) →
    (w.perform (f.writeCert data)).2.memory n = w.memory n
  order : ∀ g : FanOut MemorySlot, g.members.Perm f.members →
    (w.perform (g.writeCert data)).2.memory = (w.perform (f.writeCert data)).2.memory
  writeCert : Aggregates (fun d => d.writeCert data) (f.writeCert data) f.members w
  canWrite : Aggregates Destination.canWrite f.canWrite f.members w
  readCert : FallsBack Destination.readCert f.readCert f.members w
  canRead : FallsBack Destination.canRead f.canRead f.members w

def writeReport (d : Destination MemorySlot) (e : StorageError) : Run κ Unit :=
  logWarn ("unable to write certificate to " ++ d.text ++ ": " ++ e.message)

theorem perform_writeCert (f : FanOut MemorySlot) (data : CertData) (w : World κ) :
    w.perform (f.writeCert data) =
      (aggregated ((failuresOf (fun d => d.writeCert data) writeReport f.members).run w).1,
        ((failuresOf (fun d => d.writeCert data) writeReport f.members).run w).2) := rfl

theorem memory_writeReport (d : Destination MemorySlot) (e : StorageError) (w : World κ) :
    ((writeReport d e).run w).2.memory = w.memory := rfl

theorem memory_writeCert (apart : f.Apart) (data : CertData) (w : World κ) :
    (∀ d ∈ f.members,
      (w.perform (d.writeCert data)).2.AgreeOn d.slots (w.perform (f.writeCert data)).2) ∧
    ∀ n, (∀ d ∈ f.members, ∀ s ∈ d.slots, s.name ≠ n) →
      (w.perform (f.writeCert data)).2.memory n = w.memory n := by
  rw [perform_writeCert]
  dsimp only
  rw [world_failuresOf]
  exact memory_writes memory_writeReport apart w

theorem Apart.perm (apart : f.Apart) {g : FanOut MemorySlot} (h : g.members.Perm f.members) :
    g.Apart := by
  apply (h.pairwise_iff _).mpr apart
  intro d e hde s he hd
  exact hde hd he

theorem memory_writeCert_perm (apart : f.Apart) {g : FanOut MemorySlot}
    (h : g.members.Perm f.members) (data : CertData) (w : World κ) :
    (w.perform (g.writeCert data)).2.memory = (w.perform (f.writeCert data)).2.memory := by
  obtain ⟨hf, hfo⟩ := memory_writeCert apart data w
  obtain ⟨hg, hgo⟩ := memory_writeCert (apart.perm h) data w
  funext n
  by_cases hn : ∃ d ∈ f.members, ∃ s ∈ d.slots, s.name = n
  · obtain ⟨d, hd, s, hs, rfl⟩ := hn
    rw [hf d hd s hs, hg d (h.mem_iff.mpr hd) s hs]
  · have hnone : ∀ d ∈ f.members, ∀ s ∈ d.slots, s.name ≠ n :=
      fun d hd s hs he => hn ⟨d, hd, s, hs, he⟩
    rw [hfo n hnone, hgo n fun d hd => hnone d (h.mem_iff.mp hd)]

theorem independent {f : FanOut MemorySlot} (apart : f.Apart) (data : CertData) (w : World κ) :
    Independent f data w where
  slots := (memory_writeCert apart data w).1
  others := (memory_writeCert apart data w).2
  order _ h := memory_writeCert_perm apart h data w
  writeCert := by
    apply aggregates_of_eq
    rw [perform_writeCert, failures_eq]
    apply apart.imp
    intro d e hde w
    exact (Destination.writeCert_congr e data (agreeOn_reported memory_writeReport hde w)).1
  canWrite := by
    apply aggregates_of_eq
    rw [canWrite, perform_mk, run_bind, failures_eq]
    · rfl
    · apply List.pairwise_of_forall
      intro d e w
      have hmemory : (reported Destination.canWrite (fun _ _ => pure ()) w d).memory =
          (w.perform d.canWrite).2.memory := by
        rw [reported]
        rcases w.perform d.canWrite with ⟨_ | _, v⟩ <;> rfl
      exact observes_canWriteAll.result e.slots
        (hmemory.trans (observes_canWriteAll.memory d.slots w))
  readCert := fallsBack_of_observes observes_readCert _ _ w
  canRead := fallsBack_of_observes observes_canRead _ _ w

theorem independent_of_full_slot :
    let f : FanOut MemorySlot :=
      ⟨[.combined ⟨"first"⟩, .combined ⟨"second"⟩], List.cons_ne_nil _ _⟩
    let w : World Script :=
      { authority := .empty, readings := fun _ => 0,
        memory := fun n =>
          { writeFailure := if n = "first" then some (.other "disk full") else none } }
    f.Apart ∧ Independent f Destination.bareBundle w := by
  intro f w
  have apart : f.Apart := by simp [f, Apart, Destination.slots]
  exact ⟨apart, independent apart _ w⟩

end FanOut

end CertLifecycle
