import CertLifecycle.Proofs.FailedWrites
import CertLifecycle.Proofs.OperationFrames
import CertLifecycle.Proofs.RequestEvents
import CertLifecycle.Proofs.StoredContents

namespace CertLifecycle

open World Service

variable {κ σ : Type} [Authority κ] [Slot σ (Run κ)] [Described σ]

inductive Fetches (s : Service) (store : BundleStore σ) (commonName : String) (w : World κ) :
    Except LifecycleError IssueResult × World κ → Prop
  | unanswered {e : LifecycleError} {x : World κ}
    (request : w.perform (s.request (.readAcme commonName)) = (.error e, x)) :
    Fetches s store commonName w (.error e, x)
  | refused {data : CertData} {e : ParseError} {x : World κ}
    (request : w.perform (s.request (.readAcme commonName)) = (.ok data, x))
    (parse : Certificate.ofPem data.certificate = .error e) :
    Fetches s store commonName w
      (.error (.invalidData ("acme" ++ " certificate: " ++ e.message)), x)
  | unwritten {data : CertData} {c : Certificate} {cause : StorageError} {x v : World κ}
    (request : w.perform (s.request (.readAcme commonName)) = (.ok data, x))
    (parse : Certificate.ofPem data.certificate = .ok c)
    (write : (x.perform store.readCert).2.perform (store.writeCert data) = (.error cause, v)) :
    Fetches s store commonName w (.error (.writeFailed cause), v)
  | written {data : CertData} {c : Certificate} {x v : World κ}
    (request : w.perform (s.request (.readAcme commonName)) = (.ok data, x))
    (parse : Certificate.ofPem data.certificate = .ok c)
    (write : (x.perform store.readCert).2.perform (store.writeCert data) = (.ok (), v)) :
    Fetches s store commonName w
      (.ok ⟨acmeStatus c (x.perform store.readCert).1.toOption,
        (x.perform store.readCert).1.toOption, some c⟩, v)

theorem fetches_readAcme (s : Service) (store : BundleStore σ) (commonName : String)
    (w : World κ) : Fetches s store commonName w (w.perform (s.readAcme store commonName)) := by
  rw [perform_readAcme]
  rcases request : w.perform (s.request (.readAcme commonName)) with ⟨e | data, x⟩
  · exact .unanswered request
  · dsimp only
    cases parse : Certificate.ofPem data.certificate with
    | error e => exact .refused request parse
    | ok c =>
      dsimp only
      rcases write : (x.perform store.readCert).2.perform (store.writeCert data) with ⟨e | _, v⟩
      · exact .unwritten request parse write
      · exact .written request parse write

omit [Authority κ] [Slot σ (Run κ)] [Described σ] in
theorem acmeStatus_eq_issued {c : Certificate} {read : Except StorageError Certificate} :
    acmeStatus c read.toOption = .issued ↔ ∃ old, read = .ok old ∧ old.der ≠ c.der := by
  cases read with
  | error e => simp [Except.toOption, acmeStatus]
  | ok old => by_cases h : old.der = c.der <;> simp [Except.toOption, acmeStatus, h]

variable {s : Service} {store : BundleStore σ} {commonName : String} {w v x : World κ}

structure Fetched (s : Service) (commonName : String) (w : World κ) (data : CertData)
    (c : Certificate) (x : World κ) : Prop where
  request : w.perform (s.request (.readAcme commonName)) = (.ok data, x)
  last : ∃ u, Repeats (.readAcme commonName) w u ∧
    u.ask (.readAcme commonName) = (some (.ok data), x)
  accepted : Certificate.ofPem data.certificate = .ok c

omit [Slot σ (Run κ)] [Described σ] in
theorem fetched_of_request {data : CertData} {c : Certificate}
    (request : w.perform (s.request (.readAcme commonName)) = (.ok data, x))
    (accepted : Certificate.ofPem data.certificate = .ok c) : Fetched s commonName w data c x :=
  ⟨request, answered_of_request request, accepted⟩

structure FetchRun (s : Service) (store : BundleStore σ) (commonName : String) (w : World κ)
    (o : Except LifecycleError IssueResult) (v : World κ) : Prop where
  ok_iff : (∃ r, o = .ok r) ↔ ∃ data c x, Fetched s commonName w data c x ∧
    (w.perform (store.writeCert data)).1 = .ok ()
  failed_iff : ∀ cause, o = .error (.writeFailed cause) ↔ ∃ data c x,
    Fetched s commonName w data c x ∧ (w.perform (store.writeCert data)).1 = .error cause
  reports : ∀ {r}, o = .ok r → ∃ data c x, Fetched s commonName w data c x ∧ r.issued = some c ∧
    r.existing = (w.perform store.readCert).1.toOption ∧
    (r.status = .issued ↔ ∃ old, (w.perform store.readCert).1 = .ok old ∧ old.der ≠ c.der)
  -- Whether the certificate is another one or not, all of the bundle is written.
  contents : ∀ {data c x}, Fetched s commonName w data c x →
    (w.perform (store.writeCert data)).2.SameContents v
  -- Nothing but the calls happens if there is nothing to store.
  untouched : (¬ ∃ data c x, Fetched s commonName w data c x) →
    v = (w.perform (s.request (.readAcme commonName))).2 ∧ w.SameStorage v ∧
      Repeats (.readAcme commonName) w v

section

variable [Steady κ σ] [Contained κ σ]

omit [Described σ] in
theorem contents_at_write {o : Except LifecycleError CertData}
    (request : w.perform (s.request (.readAcme commonName)) = (o, x)) (store : BundleStore σ) :
    (x.perform store.readCert).1 = (w.perform store.readCert).1 ∧
      w.SameContents (x.perform store.readCert).2 := by
  have hasked : w.SameContents x := (asking_of_request request).toSameStorage.contents
  exact ⟨(byContents_readCert store hasked).1,
    hasked.trans (sameStorage_readCert store x).contents⟩

theorem writeCert_of_request {o : Except LifecycleError CertData}
    (request : w.perform (s.request (.readAcme commonName)) = (o, x)) {store : BundleStore σ}
    {data : CertData} {written : Except StorageError Unit}
    (write : (x.perform store.readCert).2.perform (store.writeCert data) = (written, v)) :
    (w.perform (store.writeCert data)).1 = written ∧
      (w.perform (store.writeCert data)).2.SameContents v := by
  have h : ((x.perform store.readCert).2.perform (store.writeCert data)).1 =
        (w.perform (store.writeCert data)).1 ∧
      (w.perform (store.writeCert data)).2.SameContents
        ((x.perform store.readCert).2.perform (store.writeCert data)).2 :=
    byContents_writeCert store data (contents_at_write request store).2
  rw [write] at h
  exact ⟨h.1.symm, h.2⟩

omit [Slot σ (Run κ)] [Described σ] [Steady κ σ] [Contained κ σ] in
theorem Fetched.unique {data data' : CertData} {c c' : Certificate} {y : World κ}
    (h : Fetched s commonName w data c x) (h' : Fetched s commonName w data' c' y) :
    data = data' ∧ c = c' ∧ x = y := by
  have hrequest := h.request.symm.trans h'.request
  cases hrequest
  have haccepted := h.accepted.symm.trans h'.accepted
  cases haccepted
  exact ⟨rfl, rfl, rfl⟩

omit [Steady κ σ] [Contained κ σ] in
theorem fetchRun_of_unfetched {e : LifecycleError} {o : Except LifecycleError CertData}
    (request : w.perform (s.request (.readAcme commonName)) = (o, x))
    (unfetched : ¬ ∃ data c x, Fetched s commonName w data c x)
    (he : ∀ cause, e ≠ .writeFailed cause) : FetchRun s store commonName w (.error e) x where
  ok_iff := by
    constructor
    · rintro ⟨r, hr⟩
      cases hr
    · rintro ⟨data, c, y, hfetched, -⟩
      exact absurd ⟨data, c, y, hfetched⟩ unfetched
  failed_iff cause := by
    constructor
    · intro h
      exact absurd (Except.error.inj h) (he cause)
    · rintro ⟨data, c, y, hfetched, -⟩
      exact absurd ⟨data, c, y, hfetched⟩ unfetched
  reports := nofun
  contents hfetched := absurd ⟨_, _, _, hfetched⟩ unfetched
  untouched _ := by
    refine ⟨?_, (asking_of_request request).toSameStorage, repeats_of_request request⟩
    rw [request]

omit [Steady κ σ] [Contained κ σ] in
theorem fetchRun_of_fetched {data : CertData} {c : Certificate} {y : World κ}
    {o : Except LifecycleError IssueResult} (fetched : Fetched s commonName w data c x)
    (contents : (w.perform (store.writeCert data)).2.SameContents y)
    (ok : (w.perform (store.writeCert data)).1 = .ok () →
      o = .ok ⟨acmeStatus c (w.perform store.readCert).1.toOption,
        (w.perform store.readCert).1.toOption, some c⟩)
    (failed : ∀ cause, (w.perform (store.writeCert data)).1 = .error cause →
      o = .error (.writeFailed cause)) : FetchRun s store commonName w o y where
  ok_iff := by
    constructor
    · rintro ⟨r, hr⟩
      cases hwritten : (w.perform (store.writeCert data)).1 with
      | error cause => cases hr.symm.trans (failed cause hwritten)
      | ok _ => exact ⟨data, c, x, fetched, hwritten⟩
    · rintro ⟨data', c', x', fetched', hwritten⟩
      obtain ⟨rfl, rfl, rfl⟩ := fetched.unique fetched'
      exact ⟨_, ok hwritten⟩
  failed_iff cause := by
    constructor
    · intro h
      cases hwritten : (w.perform (store.writeCert data)).1 with
      | error cause' =>
        cases h.symm.trans (failed cause' hwritten)
        exact ⟨data, c, x, fetched, hwritten⟩
      | ok _ => cases h.symm.trans (ok hwritten)
    · rintro ⟨data', c', x', fetched', hwritten⟩
      obtain ⟨rfl, rfl, rfl⟩ := fetched.unique fetched'
      exact failed cause hwritten
  reports {r} hr := by
    cases hwritten : (w.perform (store.writeCert data)).1 with
    | error cause => cases hr.symm.trans (failed cause hwritten)
    | ok _ =>
      cases hr.symm.trans (ok hwritten)
      exact ⟨data, c, x, fetched, rfl, rfl, acmeStatus_eq_issued⟩
  contents fetched' := by
    obtain ⟨rfl, rfl, rfl⟩ := fetched.unique fetched'
    exact contents
  untouched h := absurd ⟨data, c, x, fetched⟩ h

theorem fetchRun (s : Service) (store : BundleStore σ) (commonName : String) (w : World κ) :
    FetchRun s store commonName w (w.perform (s.readAcme store commonName)).1
      (w.perform (s.readAcme store commonName)).2 := by
  have hfetches := fetches_readAcme s store commonName w
  generalize w.perform (s.readAcme store commonName) = run at hfetches ⊢
  cases hfetches with
  | @unanswered e x request =>
    apply fetchRun_of_unfetched request
    · rintro ⟨data, c, y, hfetched⟩
      cases request.symm.trans hfetched.request
    · obtain rfl | ⟨cause, rfl⟩ := request_error request
      · exact nofun
      · exact nofun
  | @refused data e x request parse =>
    apply fetchRun_of_unfetched request
    · rintro ⟨data', c, y, hfetched⟩
      cases request.symm.trans hfetched.request
      cases parse.symm.trans hfetched.accepted
    · exact nofun
  | @unwritten data c cause x v request parse write =>
    obtain ⟨hwritten, hcontents⟩ := writeCert_of_request request write
    apply fetchRun_of_fetched (fetched_of_request request parse) hcontents
    · intro h
      cases hwritten.symm.trans h
    · intro cause' h
      cases hwritten.symm.trans h
      rfl
  | @written data c x v request parse write =>
    obtain ⟨hwritten, hcontents⟩ := writeCert_of_request request write
    apply fetchRun_of_fetched (fetched_of_request request parse) hcontents
    · intro _
      rw [(contents_at_write request store).1]
    · intro cause h
      cases hwritten.symm.trans h

end

def fetching : Script
  | .readAcme => [{ answer := .ok Destination.bareBundle }]
  | _ => []

theorem fetchRun_again :
    let s : Service := { renewal := .fixed false }
    let store : BundleStore MemorySlot :=
      .fanOut ⟨[.combined ⟨"first"⟩, .combined ⟨"second"⟩], List.cons_ne_nil _ _⟩
    let w : World Script :=
      { authority := fetching, readings := fun _ => 0,
        memory := fun n =>
          { data := if n = "second" then some Destination.bareText else none } }
    ∃ r c old, (w.perform (s.readAcme store "a")).1 = .ok r ∧ r.issued = some c ∧
      (w.perform store.readCert).1 = .ok old ∧ r.existing = some old ∧
      (r.status = .issued ↔ old.der ≠ c.der) := by
  intro s store w
  obtain ⟨r, hr⟩ := exists_of_isOk (x := (w.perform (s.readAcme store "a")).1)
    (by decide +kernel)
  obtain ⟨old, hold⟩ := exists_of_isOk (x := (w.perform store.readCert).1)
    (by decide +kernel)
  obtain ⟨data, c, x, -, hissued, hexisting, hstatus⟩ := (fetchRun s store "a" w).reports hr
  rw [hold] at hexisting hstatus
  refine ⟨r, c, old, hr, hissued, hold, hexisting, ?_⟩
  simpa using hstatus

end CertLifecycle
