import CertLifecycle.Proofs.OperationRuns

namespace CertLifecycle

open World

variable {κ σ : Type} {k : CaMethod}

namespace World

structure Calling (p : CaMethod → Prop) (w v : World κ) : Prop where
  others : ∀ j, ¬ p j → v.callsOf j = w.callsOf j
  lateCalls : v.lateCalls = w.lateCalls
  canceled : w.canceled = true → v.canceled = true

variable {p : CaMethod → Prop}

instance : IsPreorder (World κ) (Calling p) where
  refl _ := ⟨fun _ _ => rfl, rfl, id⟩
  trans _ _ _ h g := ⟨fun j hj => (g.others j hj).trans (h.others j hj),
    g.lateCalls.trans h.lateCalls, fun hw => g.canceled (h.canceled hw)⟩

theorem Aside.calling {w v : World κ} (h : w.Aside v) : Calling p w v :=
  ⟨fun j _ => h.calls j, h.lateCalls, h.canceled⟩

theorem Asking.calling {w v : World κ} (h : Asking k w v) (hk : p k) : Calling p w v :=
  ⟨fun j hj => h.others j fun he => hj (he ▸ hk), h.lateCalls, h.canceled⟩

class Lenient (R : World κ → World κ → Prop) : Prop extends IsPreorder (World κ) R where
  looked (w : World κ) : R w w.looked
  logged (e : LogEvent) (w : World κ) : R w (w.logged e)

instance : Lenient (SameStorage (κ := κ)) where
  looked := sameStorage_looked
  logged := sameStorage_logged

instance : Lenient (Calling (κ := κ) p) where
  looked _ := ⟨fun _ _ => rfl, rfl, id⟩
  logged e w := (aside_logged e w).calling

end World

namespace Service

variable {R : World κ → World κ → Prop} [Lenient R]

theorem leads_log (e : LogEvent) : Leads R (log e : Run κ Unit) := Lenient.logged e

theorem leads_now : Leads R (Clock.now : Run κ Int) := Lenient.looked

theorem leads_writing {action : ExceptT StorageError (Run κ) Unit} (h : Leads R action.run) :
    Leads R (writing action).run :=
  leads_bind h fun _ => leads_pure _

theorem leads_decideRenewal (s : Service) (c : Certificate) :
    Leads R (s.decideRenewal c : ExceptT LifecycleError (Run κ) Bool).run := by
  intro w
  obtain ⟨verdict, h⟩ := decideAt_some s.renewal c w.clock
  obtain ⟨v, hv, rfl | ⟨e, rfl⟩⟩ := perform_decideRenewal h
  · change R w (w.perform (s.decideRenewal c)).2
    rw [hv]
    exact Lenient.looked w
  · change R w (w.perform (s.decideRenewal c)).2
    rw [hv]
    exact trans_of R (Lenient.looked w) (Lenient.logged e _)

section Deciding

variable [Authority κ] {s : Service}
variable (hchain : Leads R (s.request .fetchCaChain : ExceptT LifecycleError (Run κ) _).run)

include hchain

theorem leads_verify (c : Certificate) :
    Leads R (s.verify c : ExceptT LifecycleError (Run κ) Unit).run :=
  leads_run_bind hchain fun _ => leads_run_bind leads_now fun _ => leads_run_bind leads_now fun _ =>
    leads_pure _

theorem leads_shouldIssue (c : Certificate) :
    Leads R (s.shouldIssue c : ExceptT LifecycleError (Run κ) Bool).run := by
  refine leads_run_bind leads_now fun now => ?_
  split
  · exact leads_decideRenewal s c
  refine leads_run_bind (leads_bind (leads_verify hchain c) fun _ => leads_pure _)
    fun verified => ?_
  split
  · exact leads_decideRenewal s c
  · exact leads_run_throw _
  · exact leads_run_bind (leads_log _) fun _ => leads_run_pure _

end Deciding

section Reading

variable [Slot σ (Run κ)]

theorem leads_existing
    (hread : ∀ s : σ, Leads R (Slot.read s : ExceptT StorageError (Run κ) _).run)
    (store : BundleStore σ) : Leads R (existing store : Run κ (Option Certificate)) := by
  refine leads_bind (leads_readCert hread store) fun x => ?_
  split
  · exact leads_pure _
  · split
    · exact leads_bind (leads_log _) fun _ => leads_pure _
    · exact leads_pure _

theorem calling_of_found [Steady κ σ] {p : CaMethod → Prop} {store : BundleStore σ} {w v : World κ}
    {o : Option Certificate} (h : found store w = (o, v)) : Calling p w v := by
  have hread : Calling p w (found store w).2 :=
    leads_existing (fun s w => (Steady.read_aside s w).calling) store w
  rwa [h] at hread

theorem sameStorage_of_found [Steady κ σ] {store : BundleStore σ} {w v : World κ}
    {o : Option Certificate} (h : found store w = (o, v)) : w.SameStorage v := by
  have hread : w.SameStorage (found store w).2 := leads_existing Steady.read_sameStorage store w
  rwa [h] at hread

theorem sameStorage_readCert [Steady κ σ] (store : BundleStore σ) (w : World κ) :
    w.SameStorage (w.perform store.readCert).2 :=
  leads_readCert Steady.read_sameStorage store w

theorem sameStorage_of_readCsr [Steady κ σ] {store : SigningStore σ} {w v : World κ}
    {o : Except StorageError Bytes} (h : w.perform store.readCsr = (o, v)) : w.SameStorage v := by
  have hread : w.SameStorage (w.perform store.readCsr).2 := Steady.read_sameStorage store.csr w
  rwa [h] at hread

end Reading

variable [Authority κ] {s : Service}

theorem leads_revoke {serial : String}
    (hrevoke : Leads R (s.request (.revoke serial) : ExceptT LifecycleError (Run κ) _).run) :
    Leads R (s.revoke serial : ExceptT LifecycleError (Run κ) _).run := by
  unfold revoke
  split
  · exact leads_run_throw _
  · exact leads_run_bind hrevoke fun _ => leads_log _

section Writing

variable [Slot σ (Run κ)]
variable (hwrite : ∀ (s : σ) bs, Leads R (Slot.write s bs : ExceptT StorageError (Run κ) _).run)

include hwrite

section Bundles

variable [Described σ]

theorem leads_issueNew {args : IssueArgs}
    (hissue : Leads R (s.request (.issue args) : ExceptT LifecycleError (Run κ) _).run)
    (store : BundleStore σ) (ex : Option Certificate) :
    Leads R (s.issueNew store args ex : ExceptT LifecycleError (Run κ) _).run :=
  leads_run_bind hissue fun _ => leads_run_bind (leads_pure _) fun _ =>
    leads_run_bind (leads_writing (leads_writeCert hwrite leads_log store _)) fun _ =>
      leads_run_bind (leads_log _) fun _ => leads_run_pure _

theorem leads_issue {args : IssueArgs}
    (hread : ∀ s : σ, Leads R (Slot.read s : ExceptT StorageError (Run κ) _).run)
    (hchain : Leads R (s.request .fetchCaChain : ExceptT LifecycleError (Run κ) _).run)
    (hissue : Leads R (s.request (.issue args) : ExceptT LifecycleError (Run κ) _).run)
    (store : BundleStore σ) :
    Leads R (s.issue store args : ExceptT LifecycleError (Run κ) _).run := by
  unfold issue
  split
  · exact leads_run_throw _
  refine leads_run_bind (leads_existing hread store) fun ex => ?_
  cases ex with
  | none => exact leads_issueNew hwrite hissue store none
  | some c =>
    refine leads_run_bind (leads_shouldIssue hchain c) fun due => ?_
    cases due with
    | true => exact leads_issueNew hwrite hissue store (some c)
    | false => exact leads_run_bind (leads_log _) fun _ => leads_run_pure _

omit hwrite in
theorem issue_of_found {args : IssueArgs} {store : BundleStore σ} {c : Certificate} {w v : World κ}
    (valid : args.IsValid) (stored : found store w = (some c, v))
    (hshould : R v (v.perform (s.shouldIssue c)).2)
    (hnew : ∀ u, v.perform (s.shouldIssue c) = (.ok true, u) →
      R u (u.perform (s.issueNew store args (some c))).2) :
    R v (w.perform (s.issue store args)).2 := by
  rw [perform_issue s store valid, stored]
  dsimp only
  rcases hdue : v.perform (s.shouldIssue c) with ⟨e | _ | _, u⟩
  · rwa [hdue] at hshould
  · rw [hdue] at hshould
    exact trans_of R hshould (Lenient.logged _ u)
  · rw [hdue] at hshould
    exact trans_of R hshould (hnew u hdue)

theorem leads_readAcme {commonName : String}
    (hread : ∀ s : σ, Leads R (Slot.read s : ExceptT StorageError (Run κ) _).run)
    (hacme : Leads R (s.request (.readAcme commonName) : ExceptT LifecycleError (Run κ) _).run)
    (store : BundleStore σ) :
    Leads R (s.readAcme store commonName : ExceptT LifecycleError (Run κ) _).run :=
  leads_run_bind hacme fun _ => leads_run_bind (leads_pure _) fun _ =>
    leads_run_bind (leads_bind (leads_readCert hread store) fun _ => leads_pure _) fun _ =>
      leads_run_bind (leads_writing (leads_writeCert hwrite leads_log store _)) fun _ =>
        leads_run_pure _

end Bundles

theorem leads_sign {args : IssueArgs}
    (hread : ∀ s : σ, Leads R (Slot.read s : ExceptT StorageError (Run κ) _).run)
    (hsign : ∀ csr, Leads R (s.request (.sign csr args) : ExceptT LifecycleError (Run κ) _).run)
    (store : SigningStore σ) :
    Leads R (s.sign store args : ExceptT LifecycleError (Run κ) _).run := by
  unfold sign
  split
  · exact leads_run_throw _
  · exact leads_run_bind (leads_bind (hread store.csr) fun _ => leads_pure _) fun csr =>
      leads_run_bind (hsign csr) fun _ => leads_run_bind (leads_pure _) fun _ =>
        leads_run_bind (leads_writing (leads_writeCertAndCa hwrite _ _ _ _)) fun _ => leads_log _

end Writing

theorem calling_request {p : CaMethod → Prop} (s : Service) (r : CaRequest k) (hk : p k) :
    Leads (Calling p) (s.request r : ExceptT LifecycleError (Run κ) _).run :=
  fun w => (asking_request s r w).calling hk

theorem sameStorage_request (s : Service) (r : CaRequest k) :
    Leads SameStorage (s.request r : ExceptT LifecycleError (Run κ) _).run :=
  fun w => (asking_request s r w).toSameStorage

theorem sameStorage_of_shouldIssue {c : Certificate} {w v : World κ}
    {o : Except LifecycleError Bool} (h : w.perform (s.shouldIssue c) = (o, v)) :
    w.SameStorage v := by
  have hshould : w.SameStorage (w.perform (s.shouldIssue c)).2 :=
    leads_shouldIssue (sameStorage_request s _) c w
  rwa [h] at hshould

end Service

theorem Operation.calling_action [Authority κ] [Slot σ (Run κ)] [Steady κ σ] [Described σ]
    (s : Service) (op : Operation σ) :
    Leads (Calling op.Requests) (op.action s : ExceptT LifecycleError (Run κ) _).run := by
  have hread (s : σ) : Leads (Calling op.Requests) (Slot.read s : ExceptT _ (Run κ) _).run :=
    fun w => (Steady.read_aside s w).calling
  have hwrite (s : σ) (bs : Bytes) :
      Leads (Calling op.Requests) (Slot.write s bs : ExceptT _ (Run κ) _).run :=
    fun w => (Steady.write_aside s bs w).calling
  have hprint (bs : Bytes) : Leads (Calling op.Requests) (Console.print bs : Run κ Unit) :=
    fun _ => ⟨fun _ _ => rfl, rfl, id⟩
  cases op with
  | issue store args =>
    exact Service.leads_issue hwrite hread (Service.calling_request s _ (.inl rfl))
      (Service.calling_request s _ (.inr rfl)) store
  | sign store args =>
    exact Service.leads_sign hwrite hread (fun csr => Service.calling_request s _ rfl) store
  | revoke serial => exact Service.leads_revoke (Service.calling_request s _ rfl)
  | tidy => exact Service.calling_request s _ rfl
  | readAcme store commonName =>
    exact Service.leads_readAcme hwrite hread (Service.calling_request s _ rfl) store
  | verify cert =>
    exact Service.leads_verify (R := Calling (· = .fetchCaChain))
      (Service.calling_request s _ rfl) cert
  | fetchCa store binary =>
    exact leads_run_bind (Service.calling_request s _ rfl) fun bs =>
      Service.leads_writing (leads_blob_write hwrite hprint store bs)
  | fetchCrl store binary =>
    exact leads_run_bind (Service.calling_request s _ rfl) fun bs =>
      Service.leads_writing (leads_blob_write hwrite hprint store bs)

end CertLifecycle
