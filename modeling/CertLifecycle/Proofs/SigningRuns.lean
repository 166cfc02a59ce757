import CertLifecycle.Proofs.RequestEvents
import CertLifecycle.Proofs.StoredLines

namespace CertLifecycle

open World Service

variable {κ : Type}

namespace Destination

theorem events_writeAll (ws : List (MemorySlot × Bytes)) (w : World κ) :
    ∃ written : List MemorySlot, written.Sublist (ws.map Prod.fst) ∧
      (w.perform (writeAll ws)).2.events =
        w.events ++ written.map fun t => .slot .write t.name := by
  obtain ⟨hrun, -⟩ | ⟨front, t, bs, back, e, hsplit, -, -, hrun⟩ := MemorySlot.perform_writeAll ws w
  · refine ⟨ws.map Prod.fst, .refl _, ?_⟩
    rw [hrun, (stores_storeAll ws w).events, List.map_map]
    rfl
  · refine ⟨front.map Prod.fst ++ [t], ?_, ?_⟩
    · rw [hsplit, List.map_append, List.map_cons]
      exact (List.Sublist.refl _).append ((List.nil_sublist _).cons_cons t)
    · rw [hrun]
      change (MemorySlot.storeAll front w).events ++ [.slot .write t.name] = _
      rw [(stores_storeAll front w).events, List.map_append, List.map_map, List.append_assoc]
      rfl

theorem memory_of_failed_last {ws : List (MemorySlot × Bytes)} {t : MemorySlot} {bs : Bytes}
    (hws : ∀ q ∈ ws, q.1.name ≠ t.name) {w v : World κ} {e : StorageError}
    (failed : w.perform (writeAll (ws ++ [(t, bs)])) = (.error e, v)) :
    v.memory t.name = w.memory t.name := by
  have hfront := memory_writeAll_of_not_mem hws w
  rw [writeAll_append, perform_bind] at failed
  -- Either the last write is not reached, or it fails itself and stores nothing.
  rcases hrun : w.perform (writeAll ws) with ⟨e' | _, x⟩ <;> rw [hrun] at hfront failed
  · cases failed
    exact hfront
  · dsimp only at failed hfront
    rw [writeAll_singleton, MemorySlot.perform_write] at failed
    cases hfails : (x.memory t.name).writeFailure with
    | none => simp [hfails] at failed
    | some e' =>
      simp only [hfails] at failed
      cases failed
      exact hfront

end Destination

namespace SigningStore

section

variable {σ : Type} (store : SigningStore σ) (signature : Signature)

theorem exists_layout_eq : ∃ text, store.layout signature =
    Destination.ownPlan Layout.closed store.ca signature.caData ++ [(store.cert, text)] := by
  rw [layout, ← Destination.certPlan_eq_certLayout]
  exact ⟨_, Destination.leading_eq (.separateCert store.cert store.ca store.cert)
    ⟨signature.certificate, none, signature.caData⟩⟩

theorem slots_layout :
    ((store.layout signature).map Prod.fst).Sublist (store.ca.toList ++ [store.cert]) := by
  obtain ⟨text, hlayout⟩ := store.exists_layout_eq signature
  rw [hlayout, List.map_append]
  exact (Destination.slots_ownPlan _ store.ca signature.caData).append (.refl _)

end

variable {store : SigningStore MemorySlot}

theorem events_writeSignature (store : SigningStore MemorySlot) (signature : Signature)
    (x : World κ) :
    ∃ written : List MemorySlot, written.Sublist (store.ca.toList ++ [store.cert]) ∧
      (x.perform (store.writeSignature signature)).2.events =
        x.events ++ written.map fun t => .slot .write t.name := by
  rw [← writeAll_layout]
  obtain ⟨written, hwritten, hevents⟩ := Destination.events_writeAll (store.layout signature) x
  exact ⟨written, hwritten.trans (store.slots_layout signature), hevents⟩

theorem memory_writeSignature_of_not_mem {n : String}
    (hn : ∀ t ∈ store.ca.toList ++ [store.cert], t.name ≠ n) (signature : Signature)
    (x : World κ) :
    (x.perform (store.writeSignature signature)).2.memory n = x.memory n := by
  rw [← writeAll_layout]
  apply Destination.memory_writeAll_of_not_mem
  intro q hq
  exact hn q.1 ((store.slots_layout signature).subset (List.mem_map_of_mem hq))

theorem memory_of_failed_writeSignature (apart : ∀ t ∈ store.ca.toList, t ≠ store.cert)
    {signature : Signature} {cause : StorageError} {x v : World κ}
    (failed : x.perform (store.writeSignature signature) = (.error cause, v)) :
    v.memory store.cert.name = x.memory store.cert.name := by
  obtain ⟨text, hlayout⟩ := store.exists_layout_eq signature
  rw [← writeAll_layout, hlayout] at failed
  refine Destination.memory_of_failed_last ?_ failed
  intro q hq hname
  have hca : store.ca = some q.1 := (Destination.mem_ownPlan.mp hq).1
  exact apart q.1 (by simp [hca]) (MemorySlot.eq_of_name hname)

theorem stores_of_writeSignature {signature : Signature} {x v : World κ}
    (written : x.perform (store.writeSignature signature) = (.ok (), v)) :
    Stores (store.layout signature) x v := by
  rw [← writeAll_layout] at written
  obtain ⟨hrun, -⟩ := MemorySlot.perform_writeAll_of_ok (congrArg Prod.fst written)
  rw [hrun] at written
  cases written
  exact stores_storeAll _ x

end SigningStore

section

variable [Authority κ]

structure AskedToSign (s : Service) (store : SigningStore MemorySlot) (args : IssueArgs)
    (w : World κ) (csr : Bytes) (o : Except LifecycleError Signature) (x : World κ) : Prop where
  read : store.csr.seen w = .ok csr
  request : (w.recorded (.slot .read store.csr.name)).perform (s.request (.sign csr args)) = (o, x)

inductive Signs (s : Service) (store : SigningStore MemorySlot) (args : IssueArgs) (w : World κ) :
    Except LifecycleError Unit → World κ → Prop
  | invalid (h : ¬ args.IsValid) : Signs s store args w (.error .invalidArgs) w
  | unread {e : StorageError} (read : store.csr.seen w = .error e) :
    Signs s store args w (.error (.readFailed e)) (w.recorded (.slot .read store.csr.name))
  | unanswered {csr : Bytes} {e : LifecycleError} {x : World κ}
    (asked : AskedToSign s store args w csr (.error e) x) : Signs s store args w (.error e) x
  | refused {csr : Bytes} {signature : Signature} {text : String} {x : World κ}
    (asked : AskedToSign s store args w csr (.ok signature) x) :
    Signs s store args w (.error (.invalidData text)) x
  | unwritten {csr : Bytes} {signature : Signature} {cause : StorageError} {x v : World κ}
    (asked : AskedToSign s store args w csr (.ok signature) x)
    (write : x.perform (store.writeSignature signature) = (.error cause, v)) :
    Signs s store args w (.error (.writeFailed cause)) v
  | written {csr : Bytes} {signature : Signature} {x v : World κ} (e : LogEvent)
    (asked : AskedToSign s store args w csr (.ok signature) x)
    (write : x.perform (store.writeSignature signature) = (.ok (), v)) :
    Signs s store args w (.ok ()) (v.logged e)

theorem signs_sign (s : Service) (store : SigningStore MemorySlot) (args : IssueArgs)
    (w : World κ) : Signs s store args w (w.perform (s.sign store args)).1
      (w.perform (s.sign store args)).2 := by
  by_cases valid : args.IsValid
  · have hread : w.perform store.readCsr =
        (store.csr.seen w, w.recorded (.slot .read store.csr.name)) := rfl
    rw [perform_sign s store valid, hread]
    cases read : store.csr.seen w with
    | error e => exact .unread read
    | ok csr =>
      dsimp only
      rcases request : (w.recorded (.slot .read store.csr.name)).perform
        (s.request (.sign csr args)) with ⟨e | signature, x⟩
      · exact .unanswered ⟨read, request⟩
      · dsimp only
        cases Certificate.ofPem signature.certificate with
        | error e => exact .refused ⟨read, request⟩
        | ok c =>
          dsimp only
          rcases write : x.perform (store.writeSignature signature) with ⟨cause | _, v⟩
          · exact .unwritten ⟨read, request⟩ write
          · exact .written _ ⟨read, request⟩ write
  · rw [Service.sign, if_pos valid]
    exact .invalid valid

/-- What a signing run adds to the record. Only the text that was read is sent, and the authority's
data goes before the certificate. -/
inductive SigningEvents (store : SigningStore MemorySlot) (args : IssueArgs) (w : World κ) :
    List Event → Prop
  | invalid (h : ¬ args.IsValid) : SigningEvents store args w []
  | unread {e : StorageError} (read : store.csr.seen w = .error e) :
    SigningEvents store args w [.slot .read store.csr.name]
  | asked {csr : Bytes} (read : store.csr.seen w = .ok csr) (calls : Nat)
    {written : List MemorySlot} (order : written.Sublist (store.ca.toList ++ [store.cert])) :
    SigningEvents store args w (.slot .read store.csr.name ::
      (List.replicate calls (.call .sign (.sign csr args)) ++
        written.map fun t => .slot .write t.name))

variable {s : Service} {store : SigningStore MemorySlot} {args : IssueArgs} {w x v : World κ}
variable {csr : Bytes} {o : Except LifecycleError Signature} {run : Except LifecycleError Unit}

namespace AskedToSign

theorem memory (asked : AskedToSign s store args w csr o x) : x.memory = w.memory :=
  (asking_of_request asked.request).memory

theorem events (asked : AskedToSign s store args w csr o x) {written : List MemorySlot}
    (order : written.Sublist (store.ca.toList ++ [store.cert]))
    (hv : v.events = x.events ++ written.map fun t => .slot .write t.name) :
    ∃ es, SigningEvents store args w es ∧ v.events = w.events ++ es := by
  obtain ⟨calls, hcalls⟩ := repeats_of_request asked.request
  refine ⟨_, .asked asked.read calls order, ?_⟩
  rw [hv, hcalls, recorded]
  simp only [List.append_assoc, List.cons_append, List.nil_append]

theorem events_unwritten (asked : AskedToSign s store args w csr o x) :
    ∃ es, SigningEvents store args w es ∧ x.events = w.events ++ es :=
  asked.events (List.nil_sublist _) (List.append_nil _).symm

theorem events_written (asked : AskedToSign s store args w csr o x) {signature : Signature}
    {result : Except StorageError Unit}
    (write : x.perform (store.writeSignature signature) = (result, v)) :
    ∃ es, SigningEvents store args w es ∧ v.events = w.events ++ es := by
  obtain ⟨written, hwritten, hevents⟩ := store.events_writeSignature signature x
  rw [write] at hevents
  exact asked.events hwritten hevents

end AskedToSign

namespace Signs

theorem events (h : Signs s store args w run v) :
    ∃ es, SigningEvents store args w es ∧ v.events = w.events ++ es := by
  cases h with
  | invalid h => exact ⟨[], .invalid h, (List.append_nil _).symm⟩
  | unread read => exact ⟨_, .unread read, rfl⟩
  | unanswered asked => exact asked.events_unwritten
  | refused asked => exact asked.events_unwritten
  | unwritten asked write => exact asked.events_written write
  | @written csr signature x v e asked write =>
    change ∃ es, SigningEvents store args w es ∧ v.events = w.events ++ es
    exact asked.events_written write

theorem memory (h : Signs s store args w run v) {n : String}
    (hn : ∀ t ∈ store.ca.toList ++ [store.cert], t.name ≠ n) : v.memory n = w.memory n := by
  have hwritten {csr : Bytes} {signature : Signature} {result : Except StorageError Unit}
      {x v : World κ} (asked : AskedToSign s store args w csr (.ok signature) x)
      (write : x.perform (store.writeSignature signature) = (result, v)) :
      v.memory n = w.memory n := by
    have hwrite := SigningStore.memory_writeSignature_of_not_mem hn signature x
    rw [write] at hwrite
    rw [hwrite, asked.memory]
  cases h with
  | invalid => rfl
  | unread => rfl
  | unanswered asked => rw [asked.memory]
  | refused asked => rw [asked.memory]
  | unwritten asked write => exact hwritten asked write
  | @written csr signature x v e asked write =>
    change v.memory n = w.memory n
    exact hwritten asked write

theorem memory_of_unwritten {e : LifecycleError} (h : Signs s store args w (.error e) v)
    (he : ∀ cause, e ≠ .writeFailed cause) : v.memory = w.memory := by
  cases h with
  | invalid => rfl
  | unread => rfl
  | unanswered asked => exact asked.memory
  | refused asked => exact asked.memory
  | unwritten => exact absurd rfl (he _)

theorem memory_cert_of_failed (apart : ∀ t ∈ store.ca.toList, t ≠ store.cert) {e : LifecycleError}
    (h : Signs s store args w (.error e) v) :
    v.memory store.cert.name = w.memory store.cert.name := by
  cases h with
  | invalid => rfl
  | unread => rfl
  | unanswered asked => rw [asked.memory]
  | refused asked => rw [asked.memory]
  | unwritten asked write =>
    rw [SigningStore.memory_of_failed_writeSignature apart write, asked.memory]

end Signs

structure SignatureStored (store : SigningStore MemorySlot) (args : IssueArgs) (w v : World κ)
    (csr : Bytes) (signature : Signature) (u x : World κ) : Prop where
  read : store.csr.seen w = .ok csr
  -- The signature is the answer to the last call.
  before : Repeats (.sign csr args) (w.recorded (.slot .read store.csr.name)) u
  answer : u.ask (.sign csr args) = (some (.ok signature), x)
  unchanged : x.memory = w.memory
  stores : Stores (store.layout signature) x v
  holds : ∀ q ∈ store.layout signature, (v.memory q.1.name).data = some q.2

theorem Signs.stored (apart : (store.ca.toList ++ [store.cert]).Nodup)
    (h : Signs s store args w (.ok ()) v) :
    ∃ csr signature u x, SignatureStored store args w v csr signature u x := by
  cases h with
  | @written csr signature x v e asked write =>
    obtain ⟨u, hbefore, hanswer⟩ := answered_of_request asked.request
    have hstores := SigningStore.stores_of_writeSignature write
    refine ⟨csr, signature, u, x, asked.read, hbefore, hanswer, asked.memory,
      ⟨hstores.events, hstores.memory⟩, ?_⟩
    intro q hq
    have distinct := apart.sublist (store.slots_layout signature)
    change (v.memory q.1.name).data = some q.2
    rw [hstores.memory, MemorySlot.lastStored_of_mem distinct hq]
    rfl

omit [Authority κ] in
theorem write_not_mem {es : List Event} (h : SigningEvents store args w es) {n : String}
    (hn : ∀ t ∈ store.ca.toList ++ [store.cert], t.name ≠ n) : .slot .write n ∉ es := by
  cases h with
  | invalid => exact List.not_mem_nil
  | unread => simp
  | @asked csr read calls written order =>
    have hwritten : ∀ t ∈ written, t.name ≠ n := fun t ht => hn t (order.subset ht)
    simpa [List.mem_replicate] using hwritten

structure SigningRun (store : SigningStore MemorySlot) (args : IssueArgs) (w : World κ)
    (run : Except LifecycleError Unit) (v : World κ) : Prop where
  events : ∃ es, SigningEvents store args w es ∧ .slot .write store.csr.name ∉ es ∧
    v.events = w.events ++ es
  -- The slot of the request is among those that stay as they were.
  others : store.csr.name ∉ (store.ca.toList ++ [store.cert]).map MemorySlot.name ∧
    ∀ n, n ∉ (store.ca.toList ++ [store.cert]).map MemorySlot.name → v.memory n = w.memory n
  failed : ∀ {e}, run = .error e → v.memory store.cert.name = w.memory store.cert.name ∧
    ((∀ cause, e ≠ .writeFailed cause) → v.memory = w.memory)
  signed : run = .ok () →
    ∃ csr signature u x, SignatureStored store args w v csr signature u x

theorem signingRun (s : Service) {store : SigningStore MemorySlot}
    (distinct : (store.csr :: store.cert :: store.ca.toList).Nodup) (args : IssueArgs)
    (w : World κ) : SigningRun store args w (w.perform (s.sign store args)).1
      (w.perform (s.sign store args)).2 := by
  have hperm : (store.cert :: store.ca.toList).Perm (store.ca.toList ++ [store.cert]) :=
    (List.perm_append_singleton _ _).symm
  obtain ⟨hcsr, hnodup⟩ := List.nodup_cons.mp distinct
  have unwritten : ∀ t ∈ store.ca.toList ++ [store.cert], t.name ≠ store.csr.name := by
    intro t ht hname
    obtain rfl := MemorySlot.eq_of_name hname
    exact hcsr (hperm.mem_iff.mpr ht)
  have hsigns := signs_sign s store args w
  constructor
  · obtain ⟨es, hes, hevents⟩ := hsigns.events
    exact ⟨es, hes, write_not_mem hes unwritten, hevents⟩
  · constructor
    · rw [List.mem_map]
      rintro ⟨t, ht, hname⟩
      exact unwritten t ht hname
    · intro n hn
      apply hsigns.memory
      rintro t ht rfl
      exact hn (List.mem_map_of_mem ht)
  · intro e he
    rw [he] at hsigns
    refine ⟨hsigns.memory_cert_of_failed ?_, hsigns.memory_of_unwritten⟩
    rintro t ht rfl
    exact (List.nodup_cons.mp hnodup).1 ht
  · intro hok
    rw [hok] at hsigns
    exact hsigns.stored (hperm.nodup_iff.mp hnodup)

end

def signing : Script
  | .sign => [{ answer := .error ⟨false, .text "busy"⟩ },
      { answer := .ok ⟨Destination.bareText, some [67, 65], "01"⟩ }]
  | _ => []

theorem signingRun_retried :
    let s : Service := { renewal := .fixed false }
    let store : SigningStore MemorySlot := ⟨⟨"csr"⟩, ⟨"cert"⟩, some ⟨"ca"⟩⟩
    let args : IssueArgs := { commonName := "a" }
    let w : World Script :=
      { authority := signing, readings := fun _ => 0,
        memory := fun n => { data := if n = "csr" then some [1, 2, 3] else none } }
    (store.csr :: store.cert :: store.ca.toList).Nodup ∧
      ∃ v csr signature u x, w.perform (s.sign store args) = (.ok (), v) ∧
        SignatureStored store args w v csr signature u x := by
  intro s store args w
  have distinct : (store.csr :: store.cert :: store.ca.toList).Nodup := by decide
  have ok : (w.perform (s.sign store args)).1 = .ok () := by
    obtain ⟨a, ha⟩ := exists_of_isOk (x := (w.perform (s.sign store args)).1)
      (by decide +kernel)
    exact ha
  obtain ⟨csr, signature, u, x, hsigned⟩ := (signingRun s distinct args w).signed ok
  exact ⟨distinct, _, csr, signature, u, x, Prod.ext ok rfl, hsigned⟩

end CertLifecycle
