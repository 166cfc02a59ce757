import CertLifecycle.Proofs.PemConcatenation
import CertLifecycle.Proofs.StorageFrames

namespace CertLifecycle

open World

variable {κ : Type}

namespace MemorySlot

def Writable (s : MemorySlot) (w : World κ) : Prop :=
  (w.memory s.name).writeFailure = none

def seen (s : MemorySlot) (w : World κ) : Except StorageError Bytes :=
  content (w.memory s.name).readFailure (w.memory s.name)

def storeAll (ws : List (MemorySlot × Bytes)) (w : World κ) : World κ :=
  ws.foldl (fun v q => q.1.stored q.2 (v.recorded (.slot .write q.1.name))) w

theorem eq_of_name {s t : MemorySlot} (h : s.name = t.name) : s = t := by
  cases s
  cases t
  exact congrArg mk h

theorem memory_stored_of_ne {s t : MemorySlot} (h : t ≠ s) (bs : Bytes) (w : World κ) :
    (s.stored bs w).memory t.name = w.memory t.name := by
  have hname : t.name ≠ s.name := fun he => h (eq_of_name he)
  simp [stored, hname]

theorem memory_stored (s : MemorySlot) (bs : Bytes) (w : World κ) :
    (s.stored bs w).memory s.name = { w.memory s.name with data := some bs } := by
  simp [stored]

theorem writable_stored (s t : MemorySlot) (bs : Bytes) (w : World κ) :
    t.Writable (s.stored bs w) ↔ t.Writable w := by
  by_cases h : t = s
  · rw [Writable, h, memory_stored]
    rfl
  · rw [Writable, memory_stored_of_ne h]
    rfl

theorem memory_storeAll_of_not_mem {ws : List (MemorySlot × Bytes)} {t : MemorySlot}
    (h : ∀ q ∈ ws, q.1 ≠ t) (w : World κ) : (storeAll ws w).memory t.name = w.memory t.name := by
  induction ws generalizing w with
  | nil => rfl
  | cons q ws ih =>
    rw [storeAll, List.foldl_cons]
    rw [List.forall_mem_cons] at h
    exact (ih h.2 _).trans (memory_stored_of_ne h.1.symm _ _)

theorem memory_storeAll_append (ws : List (MemorySlot × Bytes)) (s : MemorySlot) (bs : Bytes)
    (w : World κ) :
    (storeAll (ws ++ [(s, bs)]) w).memory s.name =
      { (storeAll ws w).memory s.name with data := some bs } := by
  rw [storeAll, List.foldl_append]
  exact memory_stored s bs _

theorem perform_writeAll (ws : List (MemorySlot × Bytes)) (w : World κ) :
    (w.perform (Destination.writeAll ws) = (.ok (), storeAll ws w) ∧ ∀ q ∈ ws, q.1.Writable w) ∨
    ∃ front s bs back e, ws = front ++ (s, bs) :: back ∧ (∀ q ∈ front, q.1.Writable w) ∧
      (w.memory s.name).writeFailure = some e ∧
      w.perform (Destination.writeAll ws) =
        (.error e, (storeAll front w).recorded (.slot .write s.name)) := by
  induction ws generalizing w with
  | nil => exact .inl ⟨rfl, by simp⟩
  | cons q ws ih =>
    obtain ⟨s, bs⟩ := q
    rw [Destination.writeAll, perform_bind, perform_write]
    cases hs : (w.memory s.name).writeFailure with
    | some e => exact .inr ⟨[], s, bs, ws, e, rfl, by simp, hs, rfl⟩
    | none =>
      obtain ⟨hrun, hws⟩ | ⟨front, t, cs, back, e, hws, hfront, ht, hrun⟩ :=
        ih (s.stored bs (w.recorded (.slot .write s.name)))
      · refine .inl ⟨hrun, ?_⟩
        rw [List.forall_mem_cons]
        exact ⟨hs, fun q hq => (writable_stored _ _ _ _).mp (hws q hq)⟩
      · refine .inr ⟨(s, bs) :: front, t, cs, back, e, by rw [hws]; rfl, ?_, ?_, hrun⟩
        · rw [List.forall_mem_cons]
          exact ⟨hs, fun q hq => (writable_stored _ _ _ _).mp (hfront q hq)⟩
        · by_cases hts : t = s
          · rw [hts, memory_stored] at ht
            rw [hts]
            exact ht
          · rw [memory_stored_of_ne hts] at ht
            exact ht

theorem perform_writeAll_of_ok {ws : List (MemorySlot × Bytes)} {w : World κ}
    (h : (w.perform (Destination.writeAll ws)).1 = .ok ()) :
    w.perform (Destination.writeAll ws) = (.ok (), storeAll ws w) ∧ ∀ q ∈ ws, q.1.Writable w := by
  obtain hrun | ⟨_, _, _, _, _, -, -, -, hrun⟩ := perform_writeAll ws w
  · exact hrun
  · rw [hrun] at h
    cases h

theorem perform_writeAll_of_writable {ws : List (MemorySlot × Bytes)} {w : World κ}
    (h : ∀ q ∈ ws, q.1.Writable w) :
    w.perform (Destination.writeAll ws) = (.ok (), storeAll ws w) := by
  obtain ⟨hrun, -⟩ | ⟨front, s, bs, back, e, hsplit, -, hfails, -⟩ := perform_writeAll ws w
  · exact hrun
  · have hs := h (s, bs) (by simp [hsplit])
    rw [Writable, hfails] at hs
    cases hs

def lastStored (s : MemorySlot) : List (MemorySlot × Bytes) → Option Bytes
  | [] => none
  | (t, bs) :: ws => (s.lastStored ws).or (if t = s then some bs else none)

def goneThrough (ws : List (MemorySlot × Bytes)) (w : World κ) : List (MemorySlot × Bytes) :=
  ws.takeWhile fun q => (w.memory q.1.name).writeFailure.isNone

theorem lastStored_append (s : MemorySlot) (vs ws : List (MemorySlot × Bytes)) :
    s.lastStored (vs ++ ws) = (s.lastStored ws).or (s.lastStored vs) := by
  induction vs with
  | nil => simp [lastStored]
  | cons q vs ih =>
    obtain ⟨t, bs⟩ := q
    simp only [List.cons_append, lastStored, ih, Option.or_assoc]

theorem lastStored_of_not_mem {s : MemorySlot} {ws : List (MemorySlot × Bytes)}
    (h : ∀ q ∈ ws, q.1 ≠ s) : s.lastStored ws = none := by
  induction ws with
  | nil => rfl
  | cons q ws ih =>
    obtain ⟨t, bs⟩ := q
    obtain ⟨ht, hws⟩ := List.forall_mem_cons.mp h
    rw [lastStored, ih hws, if_neg ht]
    rfl

theorem exists_lastStored {s : MemorySlot} {ws : List (MemorySlot × Bytes)}
    (h : ∃ q ∈ ws, q.1 = s) : ∃ text, s.lastStored ws = some text := by
  obtain ⟨⟨t, bs⟩, hq, rfl⟩ := h
  obtain ⟨front, back, rfl⟩ := List.append_of_mem hq
  rw [lastStored_append, lastStored, if_pos rfl]
  cases t.lastStored back with
  | none => exact ⟨bs, by simp⟩
  | some text => exact ⟨text, by simp⟩

theorem memory_storeAll (s : MemorySlot) (ws : List (MemorySlot × Bytes)) (w : World κ) :
    (storeAll ws w).memory s.name =
      { w.memory s.name with data := (s.lastStored ws).or (w.memory s.name).data } := by
  induction ws generalizing w with
  | nil => rfl
  | cons q ws ih =>
    obtain ⟨t, bs⟩ := q
    rw [storeAll, List.foldl_cons]
    refine (ih _).trans ?_
    by_cases ht : t = s
    · rw [← ht, memory_stored, lastStored, if_pos rfl]
      cases t.lastStored ws <;> rfl
    · rw [memory_stored_of_ne (Ne.symm ht), lastStored, if_neg ht, Option.or_none]
      rfl

theorem goneThrough_of_writable {ws : List (MemorySlot × Bytes)} {w : World κ}
    (h : ∀ q ∈ ws, q.1.Writable w) : goneThrough ws w = ws := by
  rw [goneThrough, List.takeWhile_eq_self_iff]
  intro q hq
  rw [h q hq]
  rfl

theorem goneThrough_of_unwritable {front back : List (MemorySlot × Bytes)} {s : MemorySlot}
    {bs : Bytes} {e : StorageError} {w : World κ} (h : ∀ q ∈ front, q.1.Writable w)
    (hs : (w.memory s.name).writeFailure = some e) :
    goneThrough (front ++ (s, bs) :: back) w = front := by
  have hfront : ∀ q ∈ front, (w.memory q.1.name).writeFailure.isNone = true := by
    intro q hq
    rw [h q hq]
    rfl
  rw [goneThrough, List.takeWhile_append_of_pos hfront, List.takeWhile_cons_of_neg (by simp [hs]),
    List.append_nil]

theorem memory_writeAll (s : MemorySlot) (ws : List (MemorySlot × Bytes)) (w : World κ) :
    (w.perform (Destination.writeAll ws)).2.memory s.name = { w.memory s.name with
      data := (s.lastStored (goneThrough ws w)).or (w.memory s.name).data } := by
  obtain ⟨hrun, hws⟩ | ⟨front, t, bs, back, e, rfl, hfront, ht, hrun⟩ := perform_writeAll ws w
  · rw [hrun, goneThrough_of_writable hws]
    exact memory_storeAll s ws w
  · rw [hrun, goneThrough_of_unwritable hfront ht]
    exact memory_storeAll s front w

theorem mem_of_lastStored {s : MemorySlot} {ws : List (MemorySlot × Bytes)} {text : Bytes}
    (h : s.lastStored ws = some text) : (s, text) ∈ ws := by
  induction ws with
  | nil => cases h
  | cons q ws ih =>
    obtain ⟨t, bs⟩ := q
    obtain hlast | ⟨-, hfirst⟩ := Option.or_eq_some_iff.mp h
    · exact List.mem_cons_of_mem _ (ih hlast)
    · obtain ⟨rfl, rfl⟩ : t = s ∧ bs = text := by simpa using hfirst
      exact List.mem_cons_self

theorem lastStored_of_mem {ws : List (MemorySlot × Bytes)}
    (distinct : (ws.map Prod.fst).Nodup) {q : MemorySlot × Bytes} (hq : q ∈ ws) :
    q.1.lastStored ws = some q.2 := by
  induction ws with
  | nil => cases hq
  | cons p ws ih =>
    obtain ⟨t, bs⟩ := p
    rw [List.map_cons, List.nodup_cons] at distinct
    obtain rfl | hq := List.mem_cons.mp hq
    · have hothers : ∀ q ∈ ws, q.1 ≠ t := by
        intro r hr ht
        exact distinct.1 (List.mem_map.mpr ⟨r, hr, ht⟩)
      rw [lastStored, lastStored_of_not_mem hothers, if_pos rfl]
      rfl
    · rw [lastStored, ih distinct.2 hq]
      rfl

end MemorySlot

namespace Destination

theorem perform_readCert (d : Destination MemorySlot) (w : World κ) :
    (w.perform d.readCert).1 =
      (d.certSlot.seen w).bind fun text => (Certificate.ofPem text).mapError .ofParse := by
  have hread : w.perform (Slot.read d.certSlot) =
      (d.certSlot.seen w, w.recorded (.slot .read d.certSlot.name)) := rfl
  rw [readCert, perform_bind, hread]
  cases d.certSlot.seen w <;> rfl

variable {d : Destination MemorySlot} {data : CertData} {w v : World κ}

theorem perform_writeCert_of_writable (writable : ∀ s ∈ d.slots, s.Writable w) :
    w.perform (d.writeCert data) = (.ok (), MemorySlot.storeAll (d.plan data) w) := by
  rw [← writeAll_plan]
  exact MemorySlot.perform_writeAll_of_writable fun q hq => writable q.1 (mem_slots_of_plan hq)

/-- The certificate's slot is stored and can be read, and a write behind it fails. -/
structure KeyLost (d : Destination MemorySlot) (data : CertData) (w : World κ) : Prop where
  readable : (w.memory d.certSlot.name).readFailure = none
  stored : ∀ q ∈ d.leading data, q.1.Writable w
  lost : ∃ q ∈ d.later data, ¬ q.1.Writable w

theorem seen_storeAll_of_not_mem {ws : List (MemorySlot × Bytes)} {s : MemorySlot}
    (h : ∀ q ∈ ws, q.1 ≠ s) (w : World κ) : s.seen (MemorySlot.storeAll ws w) = s.seen w := by
  rw [MemorySlot.seen, MemorySlot.memory_storeAll_of_not_mem h]
  rfl

theorem seen_storeAll_of_leading (distinct : d.slots.Nodup) {ws : List (MemorySlot × Bytes)}
    (hws : ∀ q ∈ ws, q.1 ≠ d.certSlot) (w : World κ) :
    d.certSlot.seen (MemorySlot.storeAll (d.leading data ++ ws) w) =
      MemorySlot.content (w.memory d.certSlot.name).readFailure
        { data := some (d.certText data) } := by
  obtain ⟨front, hlead, hfront⟩ := leading_split distinct data
  have hsplit : MemorySlot.storeAll (d.leading data ++ ws) w =
      MemorySlot.storeAll ws (MemorySlot.storeAll (d.leading data) w) := List.foldl_append
  rw [hsplit, seen_storeAll_of_not_mem hws, MemorySlot.seen, hlead,
    MemorySlot.memory_storeAll_append, MemorySlot.memory_storeAll_of_not_mem hfront]
  rfl

theorem writeCert_failed (distinct : d.slots.Nodup) {e : StorageError}
    (failed : w.perform (d.writeCert data) = (.error e, v)) :
    ((∃ q ∈ d.leading data, ¬ q.1.Writable w) ∧ d.certSlot.seen v = d.certSlot.seen w) ∨
      ((∀ q ∈ d.leading data, q.1.Writable w) ∧ (∃ q ∈ d.later data, ¬ q.1.Writable w) ∧
        d.certSlot.seen v = MemorySlot.content (w.memory d.certSlot.name).readFailure
          { data := some (d.certText data) }) := by
  rw [← writeAll_plan] at failed
  obtain ⟨hrun, -⟩ | ⟨front, s, bs, back, e', hplan, hfront, hs, hrun⟩ :=
    MemorySlot.perform_writeAll (d.plan data) w
  · rw [hrun] at failed
    cases failed
  have hv : d.certSlot.seen v = d.certSlot.seen (MemorySlot.storeAll front w) := by
    rw [hrun] at failed
    rw [← (Prod.mk.inj failed).2]
    rfl
  have hunwritable : ¬ s.Writable w := by
    intro h
    rw [MemorySlot.Writable, hs] at h
    cases h
  have hbehind (ws : List (MemorySlot × Bytes)) (hstored : front = d.leading data ++ ws)
      (hlater : d.later data = ws ++ (s, bs) :: back) :
      (∀ q ∈ d.leading data, q.1.Writable w) ∧ (∃ q ∈ d.later data, ¬ q.1.Writable w) ∧
        d.certSlot.seen v = MemorySlot.content (w.memory d.certSlot.name).readFailure
          { data := some (d.certText data) } := by
    refine ⟨fun q hq => hfront q (by simp [hstored, hq]),
      ⟨(s, bs), by simp [hlater], hunwritable⟩, ?_⟩
    rw [hv, hstored]
    exact seen_storeAll_of_leading distinct
      (fun q hq => later_ne_certSlot distinct data q (by simp [hlater, hq])) w
  -- The plan splits at the failed write and behind the certificate's; either may come first.
  obtain ⟨ws, hstored, hlater⟩ | ⟨ws, hlead, hrest⟩ := List.append_eq_append_iff.mp hplan
  · exact .inr (hbehind ws hstored hlater)
  cases ws with
  | nil => exact .inr (hbehind [] (by simpa using hlead.symm) hrest.symm)
  | cons q ws =>
    obtain ⟨rfl, -⟩ := List.cons.inj hrest
    obtain ⟨before, hsplit, hbefore⟩ := leading_split distinct data
    have hfront_eq : before = front ++ ((s, bs) :: ws).dropLast := by
      rw [← List.dropLast_append_of_ne_nil (List.cons_ne_nil _ _), ← hlead, hsplit,
        List.dropLast_concat]
    refine .inl ⟨⟨(s, bs), by simp [hlead], hunwritable⟩, ?_⟩
    rw [hv]
    exact seen_storeAll_of_not_mem (fun q hq => hbefore q (by simp [hfront_eq, hq])) w

def armoured (tag contents : Bytes) : Bytes :=
  Pem.beginMark ++ tag ++ Pem.dashes ++ [Layout.newline] ++ Base64.encode contents ++
    [Layout.newline] ++ Pem.endMark ++ tag ++ Pem.dashes ++ [Layout.newline]

def bareDer : Bytes :=
  [48, 64, 48, 54, 2, 1, 1, 48, 3, 6, 1, 42, 48, 0, 48, 30, 23, 13, 50, 48, 48, 49, 48, 49, 48,
    48, 48, 48, 48, 48, 90, 23, 13, 50, 48, 48, 52, 49, 48, 48, 48, 48, 48, 48, 48, 90, 48, 0, 48,
    8, 48, 3, 6, 1, 42, 3, 1, 0, 48, 3, 6, 1, 42, 3, 1, 0]

def bareText : Bytes :=
  armoured (Utf8.encode Certificate.tag) bareDer

def nextText : Bytes :=
  armoured (Utf8.encode Certificate.tag) (bareDer.set 6 2)

def fullKey : World Script where
  authority := .empty
  readings _ := 0
  memory n :=
    { data := some bareText
      writeFailure := if n = "key" then some (.other "disk full") else none }

/-- After a failed write the certificate that can be read is the one from before, unless the key was
lost; then it is the new one. -/
theorem readCert_of_failed_write (distinct : d.slots.Nodup) {e : StorageError}
    (failed : w.perform (d.writeCert data) = (.error e, v)) :
    (¬ KeyLost d data w → (v.perform d.readCert).1 = (w.perform d.readCert).1) ∧
      (KeyLost d data w →
        (v.perform d.readCert).1 = (Certificate.ofPem (d.certText data)).mapError .ofParse) := by
  rw [perform_readCert, perform_readCert]
  obtain ⟨⟨q, hq, hunwritable⟩, hseen⟩ | ⟨stored, lost, hseen⟩ := writeCert_failed distinct failed
  · exact ⟨fun _ => by rw [hseen], fun h => absurd (h.stored q hq) hunwritable⟩
  · rw [hseen]
    constructor
    · intro h
      cases hread : (w.memory d.certSlot.name).readFailure with
      | none => exact absurd ⟨hread, stored, lost⟩ h
      | some e =>
        rw [MemorySlot.seen, hread]
        rfl
    · intro h
      rw [h.readable]
      rfl

theorem readCert_of_full_slot :
    let data : CertData := ⟨nextText, some (armoured [75] [1]), some (armoured [67] [2])⟩
    let shared : Destination MemorySlot := .separateCa ⟨"key"⟩ ⟨"ca"⟩
    let apart : Destination MemorySlot := .separateCert ⟨"cert"⟩ (some ⟨"ca"⟩) ⟨"key"⟩
    ¬ KeyLost shared data fullKey ∧ KeyLost apart data fullKey ∧
      ((((fullKey.perform (shared.writeCert data)).2.perform shared.readCert).1.map
          Certificate.serial).toOption = some "01") ∧
      ((((fullKey.perform (apart.writeCert data)).2.perform apart.readCert).1.map
          Certificate.serial).toOption = some "02") := by
  intro data shared apart
  have hshared : fullKey.perform (shared.writeCert data) =
      (.error (.other "disk full"), (fullKey.perform (shared.writeCert data)).2) := rfl
  have hapart : fullKey.perform (apart.writeCert data) =
      (.error (.other "disk full"), (fullKey.perform (apart.writeCert data)).2) := rfl
  have hkept : ¬ KeyLost shared data fullKey := by
    rintro ⟨-, -, q, hq, -⟩
    cases hq
  have hlost : KeyLost apart data fullKey := by
    refine ⟨rfl, fun q hq => ?_, (⟨"key"⟩, Layout.tidy (armoured [75] [1])), .head _, nofun⟩
    have hslots : (apart.leading data).map Prod.fst = [⟨"ca"⟩, ⟨"cert"⟩] := rfl
    have hmem : q.1 ∈ (apart.leading data).map Prod.fst := List.mem_map_of_mem hq
    obtain h | h : q.1 = ⟨"ca"⟩ ∨ q.1 = ⟨"cert"⟩ := by simpa [hslots] using hmem
    · rw [h]
      rfl
    · rw [h]
      rfl
  refine ⟨hkept, hlost, ?_, ?_⟩
  · rw [(readCert_of_failed_write (by decide) hshared).1 hkept]
    decide +kernel
  · rw [(readCert_of_failed_write (by decide) hapart).2 hlost]
    decide +kernel

theorem exists_readCert_of_lost_key :
    let d : Destination MemorySlot := .separateCert ⟨"cert"⟩ none ⟨"key"⟩
    let w : World Script :=
      { authority := .empty, readings := fun _ => 0,
        memory := fun n =>
          { writeFailure := if n = "key" then some (.other "disk full") else none } }
    let written := w.perform (d.writeCert ⟨bareText, some [75], none⟩)
    written.1 = .error (.other "disk full") ∧ (w.perform d.readCert).1 = .error .notFound ∧
      ∃ c, (written.2.perform d.readCert).1 = .ok c :=
  ⟨rfl, rfl, exists_of_isOk (by decide +kernel)⟩

def bareBundle : CertData := ⟨bareText, none, none⟩

theorem exists_ofPem_bareBundle : ∃ c, Certificate.ofPem bareBundle.certificate = .ok c :=
  exists_of_isOk (by decide +kernel)

end Destination

end CertLifecycle
