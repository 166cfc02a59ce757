import CertLifecycle.Proofs.RetryIterations
import CertLifecycle.Proofs.StorageFrames

namespace CertLifecycle.Service

open World Retry

variable {κ σ : Type} {k : CaMethod}

def failure (k : CaMethod) : Failure → LifecycleError
  | .canceled => .canceled
  | .failed e => .authority k e

theorem failure_eq_canceled {f : Failure} : failure k f = .canceled ↔ f = .canceled := by
  cases f <;> simp [failure]

section Requests

variable [Authority κ]

theorem perform_request (s : Service) (r : CaRequest k) (w : World κ) :
    w.perform (s.request r) =
      (((Iteration.first s.retry w).outcome s.retry r).1.mapError (failure k),
        ((Iteration.first s.retry w).outcome s.retry r).2) := by
  have hrun : (Retry.run s.retry r : Run κ _).run w =
      (Iteration.first s.retry w).outcome s.retry r := rfl
  rw [request, perform_mk, run_bind, hrun]
  rcases (Iteration.first s.retry w).outcome s.retry r with ⟨(_ | _) | _, v⟩ <;> rfl

variable {s : Service} {r : CaRequest k} {w v : World κ}

theorem request_error {e : LifecycleError} (h : w.perform (s.request r) = (.error e, v)) :
    e = .canceled ∨ ∃ cause, e = .authority k cause := by
  rw [perform_request] at h
  cases hf : ((Iteration.first s.retry w).outcome s.retry r).1 with
  | ok a => simp [hf] at h
  | error f =>
    have hfailed := congrArg Prod.fst h
    rw [hf, mapError_error] at hfailed
    obtain rfl : failure k f = e := Except.error.inj hfailed
    cases f with
    | canceled => exact .inl rfl
    | failed cause => exact .inr ⟨cause, rfl⟩

theorem canceled_of_request (h : w.perform (s.request r) = (.error .canceled, v)) :
    v.canceled = true := by
  rw [perform_request] at h
  obtain ⟨hr, rfl⟩ := Prod.mk.inj h
  apply Iteration.canceled_of_outcome
  cases hf : ((Iteration.first s.retry w).outcome s.retry r).1 with
  | ok a => simp [hf] at hr
  | error f =>
    rw [hf] at hr
    rw [failure_eq_canceled.mp (Except.error.inj hr)]

theorem asking_request (s : Service) (r : CaRequest k) (w : World κ) :
    Asking k w (w.perform (s.request r)).2 := by
  rw [perform_request]
  exact Iteration.asking_outcome s.retry r (Iteration.first s.retry w)

theorem asking_of_request {o : Except LifecycleError k.Answer}
    (h : w.perform (s.request r) = (o, v)) : Asking k w v := by
  have hask : Asking k w (w.perform (s.request r)).2 := asking_request s r w
  rwa [h] at hask

theorem callsOf_lt_request (s : Service) (r : CaRequest k) (live : w.canceled = false) :
    w.callsOf k < (w.perform (s.request r)).2.callsOf k := by
  rw [perform_request]
  have h := (Iteration.asking_ask_outcome s.retry r (Iteration.first s.retry w) live).calls
  have hask : ((Iteration.first s.retry w).world.ask r).2.callsOf k = w.callsOf k + 1 :=
    callsOf_ask r w
  rw [hask] at h
  exact h

theorem perform_verify (s : Service) (c : Certificate) (w : World κ) :
    w.perform (s.verify c) = match w.perform (s.request .fetchCaChain) with
      | (.ok chain, v) => (Trust.verifyAt v.clock v.looked.clock c chain, v.looked.looked)
      | (.error e, v) => (.error e, v) := by
  rw [verify, perform_bind]
  rcases w.perform (s.request .fetchCaChain) with ⟨_ | _, v⟩ <;> rfl

end Requests

theorem decideAt_some (r : Renewal) (c : Certificate) (now : Int) :
    ∃ verdict, r.decideAt (some c) now = .ok verdict := by
  cases r <;> exact ⟨_, rfl⟩

theorem perform_decideRenewal {s : Service} {c : Certificate} {w : World κ}
    {verdict : Renewal.Verdict}
    (h : s.renewal.decideAt (some c) w.clock = .ok verdict) :
    ∃ v, w.perform (s.decideRenewal c) = (.ok verdict.renews, v) ∧
      (v = w.looked ∨ ∃ e, v = w.looked.logged e) := by
  have hnow : w.perform (ExceptT.lift Clock.now : ExceptT LifecycleError (Run κ) Int) =
      (.ok w.clock, w.looked) := rfl
  have hverdict : w.looked.perform (ExceptT.mk (pure (s.renewal.decideAt (some c) w.clock))) =
      (.ok verdict, w.looked) := by rw [h]; rfl
  rw [decideRenewal, perform_bind, hnow]
  simp only [perform_bind, hverdict]
  by_cases hv : verdict = .emptyWindow
  · simp only [if_pos hv]
    exact ⟨_, rfl, .inr ⟨_, rfl⟩⟩
  · simp only [if_neg hv]
    exact ⟨_, rfl, .inl rfl⟩

theorem perform_parsed (what : String) (text : Bytes) (w : World κ) :
    w.perform (parsed what text) = ((Certificate.ofPem text).mapError fun e =>
      .invalidData (what ++ " certificate: " ++ e.message), w) := rfl

theorem perform_writing (action : ExceptT StorageError (Run κ) Unit) (w : World κ) :
    w.perform (writing action) =
      ((w.perform action).1.mapError .writeFailed, (w.perform action).2) := rfl

theorem perform_reading {α : Type} (action : ExceptT StorageError (Run κ) α) (w : World κ) :
    w.perform (ExceptT.mk do return (← action.run).mapError LifecycleError.readFailed) =
      ((w.perform action).1.mapError .readFailed, (w.perform action).2) := rfl

def unreadableEvent (e : StorageError) : LogEvent :=
  { level := .warn, message := "unable to read existing certificate: " ++ e.message }

def unverifiedEvent (e : LifecycleError) : LogEvent :=
  { level := .warn, message := "existing certificate can not be verified, renewing: " ++ e.message }

def keptEvent (c : Certificate) : LogEvent :=
  { level := .info, message := "certificate " ++ c.serial ++ " is still valid until " ++
      Calendar.instantText c.notAfter ++ ", nothing to do" }

def issuedEvent (c : Certificate) : LogEvent :=
  { level := .info, message := "issued certificate " ++ c.serial ++ " for " ++ c.subject ++
      " valid until " ++ Calendar.instantText c.notAfter }

def signedEvent (signature : Signature) (c : Certificate) : LogEvent :=
  { level := .info, message := "signed certificate " ++ signature.serial ++ " valid until " ++
      Calendar.instantText c.notAfter }

def acmeStatus (fetched : Certificate) : Option Certificate → IssueStatus
  | some c => if c.der ≠ fetched.der then .issued else .noop
  | none => .noop

section Reading

variable [Slot σ (Run κ)]

def found (store : BundleStore σ) (w : World κ) : Option Certificate × World κ :=
  (existing store : Run κ (Option Certificate)).run w

theorem found_eq (store : BundleStore σ) (w : World κ) :
    found store w = match w.perform store.readCert with
      | (.ok c, v) => (some c, v)
      | (.error e, v) =>
        (none, if e.isNotFound = true then v else v.logged (unreadableEvent e)) := by
  have hrun : (store.readCert : ExceptT StorageError (Run κ) Certificate).run.run w =
      w.perform store.readCert := rfl
  rw [found, existing, run_bind, hrun]
  rcases w.perform store.readCert with ⟨e | _, v⟩
  · cases e <;> rfl
  · rfl

end Reading

section Issuing

variable [Authority κ]

theorem perform_shouldIssue (s : Service) (c : Certificate) (w : World κ) :
    w.perform (s.shouldIssue c) =
      if c.isExpiredAt w.clock = true then w.looked.perform (s.decideRenewal c)
      else match w.looked.perform (s.verify c) with
        | (.ok (), v) => v.perform (s.decideRenewal c)
        | (.error .canceled, v) => (.error .canceled, v)
        | (.error e, v) => (.ok true, v.logged (unverifiedEvent e)) := by
  have hnow : w.perform (ExceptT.lift Clock.now : ExceptT LifecycleError (Run κ) Int) =
      (.ok w.clock, w.looked) := rfl
  rw [shouldIssue, perform_bind, hnow]
  by_cases hexp : c.isExpiredAt w.clock = true
  · simp only [if_pos hexp]
  · have hverify : w.looked.perform (ExceptT.lift (s.verify c).run :
        ExceptT LifecycleError (Run κ) _) =
        (.ok (w.looked.perform (s.verify c)).1, (w.looked.perform (s.verify c)).2) := rfl
    simp only [if_neg hexp, perform_bind, hverify]
    rcases w.looked.perform (s.verify c) with ⟨e | _, v⟩
    · cases e <;> rfl
    · rfl

variable [Slot σ (Run κ)]

theorem perform_sign (s : Service) (store : SigningStore σ) {args : IssueArgs}
    (valid : args.IsValid) (w : World κ) :
    w.perform (s.sign store args) = match w.perform store.readCsr with
      | (.error e, v) => (.error (.readFailed e), v)
      | (.ok csr, v) => match v.perform (s.request (.sign csr args)) with
        | (.error e, u) => (.error e, u)
        | (.ok signature, u) => match Certificate.ofPem signature.certificate with
          | .error e => (.error (.invalidData ("signed" ++ " certificate: " ++ e.message)), u)
          | .ok c => match u.perform (store.writeSignature signature) with
            | (.error e, x) => (.error (.writeFailed e), x)
            | (.ok (), x) => (.ok (), x.logged (signedEvent signature c)) := by
  rw [sign, if_neg (not_not_intro valid)]
  simp only [perform_bind, perform_reading]
  rcases w.perform store.readCsr with ⟨e | csr, v⟩
  · rfl
  simp only [mapError_ok]
  rcases v.perform (s.request (.sign csr args)) with ⟨e | signature, u⟩
  · rfl
  simp only [perform_parsed, perform_writing]
  cases Certificate.ofPem signature.certificate with
  | error e => rfl
  | ok c =>
    simp only [mapError_ok]
    rcases u.perform (store.writeSignature signature) with ⟨_ | _, x⟩ <;> rfl

variable [Described σ]

theorem perform_readAcme (s : Service) (store : BundleStore σ) (commonName : String)
    (w : World κ) :
    w.perform (s.readAcme store commonName) =
      match w.perform (s.request (.readAcme commonName)) with
      | (.error e, v) => (.error e, v)
      | (.ok data, v) => match Certificate.ofPem data.certificate with
        | .error e => (.error (.invalidData ("acme" ++ " certificate: " ++ e.message)), v)
        | .ok c => match (v.perform store.readCert).2.perform (store.writeCert data) with
          | (.error e, u) => (.error (.writeFailed e), u)
          | (.ok (), u) => (.ok ⟨acmeStatus c (v.perform store.readCert).1.toOption,
              (v.perform store.readCert).1.toOption, some c⟩, u) := by
  rw [readAcme, perform_bind]
  rcases w.perform (s.request (.readAcme commonName)) with ⟨e | data, v⟩
  · rfl
  have hread : v.perform (ExceptT.lift (store.readCert).run : ExceptT LifecycleError (Run κ) _) =
      (.ok (v.perform store.readCert).1, (v.perform store.readCert).2) := rfl
  simp only [perform_bind, perform_parsed, perform_writing]
  cases Certificate.ofPem data.certificate with
  | error e => rfl
  | ok c =>
    simp only [mapError_ok, hread]
    rcases (v.perform store.readCert).2.perform (store.writeCert data) with ⟨_ | _, u⟩
    · rfl
    · cases (v.perform store.readCert).1.toOption <;> rfl

theorem perform_issueNew (s : Service) (store : BundleStore σ) (args : IssueArgs)
    (ex : Option Certificate) (w : World κ) :
    w.perform (s.issueNew store args ex) = match w.perform (s.request (.issue args)) with
      | (.error e, v) => (.error e, v)
      | (.ok data, v) => match Certificate.ofPem data.certificate with
        | .error e => (.error (.invalidData ("issued" ++ " certificate: " ++ e.message)), v)
        | .ok c => match v.perform (store.writeCert data) with
          | (.error e, u) => (.error (.writeFailed e), u)
          | (.ok (), u) => (.ok ⟨.issued, ex, some c⟩, u.logged (issuedEvent c)) := by
  rw [issueNew, perform_bind]
  rcases w.perform (s.request (.issue args)) with ⟨e | data, v⟩
  · rfl
  simp only [perform_bind, perform_parsed, perform_writing]
  cases Certificate.ofPem data.certificate with
  | error e => rfl
  | ok c =>
    simp only [mapError_ok]
    rcases v.perform (store.writeCert data) with ⟨_ | _, u⟩ <;> rfl

theorem perform_issue (s : Service) (store : BundleStore σ) {args : IssueArgs}
    (valid : args.IsValid) (w : World κ) :
    w.perform (s.issue store args) = match found store w with
      | (none, v) => v.perform (s.issueNew store args none)
      | (some c, v) => match v.perform (s.shouldIssue c) with
        | (.ok true, u) => u.perform (s.issueNew store args (some c))
        | (.ok false, u) => (.ok ⟨.noop, some c, none⟩, u.logged (keptEvent c))
        | (.error e, u) => (.error e, u) := by
  have hread : w.perform (ExceptT.lift (existing store) : ExceptT LifecycleError (Run κ) _) =
      (.ok (found store w).1, (found store w).2) := rfl
  rw [issue, if_neg (not_not_intro valid)]
  simp only [perform_bind, hread]
  rcases found store w with ⟨_ | c, v⟩
  · rfl
  simp only [perform_bind]
  rcases v.perform (s.shouldIssue c) with ⟨_ | _ | _, u⟩ <;> rfl

end Issuing

end CertLifecycle.Service

namespace CertLifecycle

inductive Operation (σ : Type) where
  | issue (store : BundleStore σ) (args : IssueArgs)
  | sign (store : SigningStore σ) (args : IssueArgs)
  | revoke (serial : String)
  | tidy
  | readAcme (store : BundleStore σ) (commonName : String)
  | verify (cert : Certificate)
  | fetchCa (store : BlobStore σ) (binary : Bool)
  | fetchCrl (store : BlobStore σ) (binary : Bool)

namespace Operation

variable {κ σ : Type}

abbrev Result : Operation σ → Type
  | .issue _ _ | .readAcme _ _ => IssueResult
  | .sign _ _ | .revoke _ | .tidy | .verify _ | .fetchCa _ _ | .fetchCrl _ _ => Unit

def action [Authority κ] [Slot σ (Run κ)] [Described σ] (s : Service) :
    (op : Operation σ) → ExceptT LifecycleError (Run κ) op.Result
  | .issue store args => s.issue store args
  | .sign store args => s.sign store args
  | .revoke serial => s.revoke serial
  | .tidy => s.tidy
  | .readAcme store commonName => s.readAcme store commonName
  | .verify cert => s.verify cert
  | .fetchCa store binary => s.fetchCa store binary
  | .fetchCrl store binary => s.fetchCrl store binary

def Requests : Operation σ → CaMethod → Prop
  | .issue _ _, k => k = .fetchCaChain ∨ k = .issue
  | .sign _ _, k => k = .sign
  | .revoke _, k => k = .revoke
  | .tidy, k => k = .tidy
  | .readAcme _ _, k => k = .readAcme
  | .verify _, k => k = .fetchCaChain
  | .fetchCa _ _, k => k = .fetchCa
  | .fetchCrl _ _, k => k = .fetchCrl

end Operation

end CertLifecycle
