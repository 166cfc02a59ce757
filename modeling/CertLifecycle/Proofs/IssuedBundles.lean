import CertLifecycle.Proofs.FailedWrites
import CertLifecycle.Proofs.IssueDecision
import CertLifecycle.Proofs.PemConcatenation

namespace CertLifecycle

open World Service Layout

variable {κ σ : Type}

namespace Destination

def front (d : Destination σ) (data : CertData) : Bytes :=
  match d with
  | .combined _ | .separateCa _ _ => tidy data.certificate
  | .separateCert _ _ _ => closed data.certificate

def behind (d : Destination σ) (data : CertData) : Bytes :=
  match d with
  | .combined _ => tidy (data.caData.getD []) ++ tidy (data.privateKey.getD [])
  | .separateCa _ _ => tidy (data.privateKey.getD [])
  | .separateCert _ none _ => closed (data.caData.getD [])
  | .separateCert _ (some _) _ => []

theorem front_append_behind (d : Destination σ) (data : CertData) :
    d.front data ++ d.behind data = d.certText data := by
  cases d with
  | combined key => simp [front, behind, certText]
  | separateCa key ca => rfl
  | separateCert cert ca key => cases ca <;> simp [front, behind, certText]

/-- The bundle can be read back as this certificate: all that stands behind it is well formed, and
the certificate is still the one that is found first. -/
structure ReadsBack (d : Destination σ) (data : CertData) (c : Certificate) : Prop where
  wellFormed : ∃ blocks, Pem.parse (Pem.remainder (d.front data) ++ d.behind data) = .ok blocks
  first : Certificate.ofPem (d.front data) = .ok c ∨
    Certificate.ofPem (d.front data) = .error .noCertificate ∧
      Certificate.ofPem (Pem.remainder (d.front data) ++ d.behind data) = .ok c

theorem readsBack_iff {d : Destination σ} {data : CertData} {c : Certificate} :
    Certificate.ofPem (d.certText data) = .ok c ↔ ReadsBack d data c := by
  rw [← front_append_behind, Certificate.ofPem_append]
  exact ⟨fun h => ⟨h.1, h.2⟩, fun h => ⟨h.wellFormed, h.first⟩⟩

theorem readsBack_of_apart {cert key : σ} {ca : Option σ} {data : CertData} {c : Certificate}
    (hc : Certificate.ofPem data.certificate = .ok c)
    (apart : (separateCert cert ca key).behind data = []) :
    ReadsBack (.separateCert cert ca key) data c := by
  rw [← readsBack_iff, ← front_append_behind, apart, List.append_nil]
  exact (Certificate.ofPem_closed data.certificate).trans hc

variable {d : Destination MemorySlot} {data : CertData} {w v : World κ}

theorem readCert_of_write (distinct : d.slots.Nodup)
    (readable : (w.memory d.certSlot.name).readFailure = none)
    (written : w.perform (d.writeCert data) = (.ok (), v)) :
    (v.perform d.readCert).1 = (Certificate.ofPem (d.certText data)).mapError .ofParse := by
  rw [← writeAll_plan] at written
  obtain ⟨hrun, -⟩ := MemorySlot.perform_writeAll_of_ok (congrArg Prod.fst written)
  rw [hrun] at written
  cases written
  rw [perform_readCert, plan, seen_storeAll_of_leading distinct (later_ne_certSlot distinct data),
    readable]
  rfl

end Destination

namespace Service

variable [Authority κ] [Slot σ (Run κ)] [Steady κ σ] [Described σ] {s : Service}
variable {store : BundleStore σ} {args : IssueArgs} {ex : Option Certificate} {c : Certificate}
variable {w v : World κ}

theorem asks_of_issued {i : Option Certificate}
    (h : w.perform (s.issue store args) = (.ok ⟨.issued, ex, i⟩, v)) :
    ∃ u, Operation.Asks s w (.issue store args) (.issue args) u ∧ w.SameStorage u ∧
      u.perform (s.issueNew store args ex) = (.ok ⟨.issued, ex, i⟩, v) := by
  by_cases valid : args.IsValid
  · rw [perform_issue s store valid] at h
    rcases hstored : found store w with ⟨_ | old, x⟩ <;> rw [hstored] at h <;>
      have hfound := sameStorage_of_found hstored
    · obtain rfl : ex = none := (issueNew_ok h).2
      exact ⟨x, .anew valid hstored, hfound, h⟩
    · dsimp only at h
      rcases hdue : x.perform (s.shouldIssue old) with ⟨e | _ | _, u⟩ <;> rw [hdue] at h
      · cases h
      · cases h
      · obtain rfl : ex = some old := (issueNew_ok h).2
        exact ⟨u, .replace valid hstored hdue, hfound.trans (sameStorage_of_shouldIssue hdue), h⟩
  · rw [issue, if_pos valid] at h
    cases h

omit [Steady κ σ] in
theorem issueNew_issued
    (h : w.perform (s.issueNew store args ex) = (.ok ⟨.issued, ex, some c⟩, v)) :
    ∃ data x y, w.perform (s.request (.issue args)) = (.ok data, x) ∧
      Certificate.ofPem data.certificate = .ok c ∧ x.perform (store.writeCert data) = (.ok (), y) ∧
      v = y.logged (issuedEvent c) := by
  rw [perform_issueNew] at h
  split at h
  · cases h
  next data x hrequest =>
    split at h
    · cases h
    next c' hparsed =>
      split at h
      · cases h
      next y hwritten =>
        cases h
        exact ⟨data, x, y, hrequest, hparsed, hwritten, rfl⟩

theorem readCert_of_issued {d : Destination MemorySlot} (distinct : d.slots.Nodup)
    (readable : (w.memory d.certSlot.name).readFailure = none)
    (issued : w.perform (s.issue (.single d) args) = (.ok ⟨.issued, ex, some c⟩, v)) :
    ∃ data u x, Operation.Asks s w (.issue (.single d) args) (.issue args) u ∧
      u.perform (s.request (.issue args)) = (.ok data, x) ∧
      Certificate.ofPem data.certificate = .ok c ∧
      ((v.perform d.readCert).1 = .ok c ↔ d.ReadsBack data c) ∧
      ((∃ cert ca key, d = .separateCert cert ca key) → d.behind data = [] →
        (v.perform d.readCert).1 = .ok c) := by
  obtain ⟨u, hasks, hstorage, hnew⟩ := asks_of_issued issued
  obtain ⟨data, x, y, hrequest, hc, hwritten, rfl⟩ := issueNew_issued hnew
  have hmemory : x.memory = w.memory :=
    (asking_of_request hrequest).memory.trans hstorage.memory
  have hread : (y.perform d.readCert).1 =
      (Certificate.ofPem (d.certText data)).mapError .ofParse :=
    Destination.readCert_of_write distinct (hmemory ▸ readable) hwritten
  have hlogged : ((y.logged (issuedEvent c)).perform d.readCert).1 = (y.perform d.readCert).1 := by
    rw [Destination.perform_readCert, Destination.perform_readCert]
    rfl
  have hiff : ((y.logged (issuedEvent c)).perform d.readCert).1 = .ok c ↔ d.ReadsBack data c := by
    rw [← Destination.readsBack_iff, hlogged, hread]
    cases Certificate.ofPem (d.certText data) <;> simp
  refine ⟨data, u, x, hasks, hrequest, hc, hiff, ?_⟩
  rintro ⟨cert, ca, key, rfl⟩ apart
  exact hiff.mpr (Destination.readsBack_of_apart hc apart)

def delivering (data : CertData) : Script
  | .issue => [{ answer := .ok data }]
  | _ => []

def encryptedKey : Bytes :=
  Pem.beginMark ++ Utf8.encode "RSA PRIVATE KEY" ++ Pem.dashes ++
    Utf8.encode "\nProc-Type: 4,ENCRYPTED\n\nAAAA\n" ++
    Pem.endMark ++ Utf8.encode "RSA PRIVATE KEY" ++ Pem.dashes ++ [newline]

def issuedWith (privateKey : Option Bytes) :
    Except LifecycleError IssueResult × World Script :=
  let w : World Script :=
    { authority := delivering ⟨Destination.bareText, privateKey, none⟩, readings := fun _ => 0 }
  w.perform (issue { renewal := .fixed false } (.single (.combined (MemorySlot.mk "key")))
    { commonName := "a" })

def isFirst : Except LifecycleError IssueResult → Bool
  | .ok ⟨.issued, none, some _⟩ => true
  | _ => false

theorem exists_of_isFirst {o : Except LifecycleError IssueResult} (h : isFirst o = true) :
    ∃ c, o = .ok ⟨.issued, none, some c⟩ := by
  unfold isFirst at h
  split at h
  next c => exact ⟨c, rfl⟩
  next => cases h

theorem issuedWith_reads_back :
    let d : Destination MemorySlot := .combined ⟨"key"⟩
    ∃ c, (issuedWith none).1 = .ok ⟨.issued, none, some c⟩ ∧
      ∃ data, Certificate.ofPem data.certificate = .ok c ∧
        (((issuedWith none).2.perform d.readCert).1 = .ok c ↔ d.ReadsBack data c) := by
  intro d
  obtain ⟨c, hc⟩ := exists_of_isFirst (o := (issuedWith none).1) (by decide +kernel)
  obtain ⟨data, -, -, -, -, hdata, hiff, -⟩ :=
    readCert_of_issued (d := d) (by decide) rfl (Prod.ext hc rfl)
  exact ⟨c, hc, data, hdata, hiff⟩

theorem unreadable_of_encrypted_key :
    let d : Destination MemorySlot := .combined ⟨"key"⟩
    ∃ c, (issuedWith (some encryptedKey)).1 = .ok ⟨.issued, none, some c⟩ ∧
      ((issuedWith (some encryptedKey)).2.perform d.readCert).1 ≠ .ok c := by
  intro d
  have hread : ((issuedWith (some encryptedKey)).2.perform d.readCert).1.isOk = false := by
    decide +kernel
  obtain ⟨c, hc⟩ := exists_of_isFirst (o := (issuedWith (some encryptedKey)).1) (by decide +kernel)
  refine ⟨c, hc, fun h => ?_⟩
  rw [h] at hread
  cases hread

end Service

end CertLifecycle
