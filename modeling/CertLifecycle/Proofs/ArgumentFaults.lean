import CertLifecycle.Proofs.ErrorOrigins
import CertLifecycle.Proofs.FetchedBundles
import CertLifecycle.Proofs.OperationCalls

namespace CertLifecycle

open World Service

variable {κ σ : Type}

def LifecycleError.IsArgument : LifecycleError → Prop
  | .invalidArgs | .emptySerial | .invalidThreshold _ => True
  | _ => False

def Outward (e : LifecycleError) : Prop :=
  ¬ e.IsArgument

namespace Service

theorem outward_store {α : Type} (what : String) (text : Bytes)
    (action : ExceptT StorageError (Run κ) Unit)
    {f : Certificate → ExceptT LifecycleError (Run κ) α} (hf : ∀ c, FailsWith Outward (f c)) :
    FailsWith Outward (do
      let c ← parsed what text
      writing action
      f c) :=
  failsWith_bind (failsWith_parsed (fun _ => id) what text) fun c =>
    failsWith_bind (failsWith_writing (fun _ => id) action) fun _ => hf c

variable [Authority κ]

theorem outward_request {k : CaMethod} (s : Service) (r : CaRequest k) :
    FailsWith Outward (s.request r : ExceptT LifecycleError (Run κ) _) :=
  failsWith_request id (fun _ => id) s r

theorem outward_verify (s : Service) (c : Certificate) :
    FailsWith Outward (s.verify c : ExceptT LifecycleError (Run κ) Unit) :=
  failsWith_bind (outward_request s _) (failsWith_afterChain (fun _ => id) (fun _ => id) c)

theorem outward_shouldIssue (s : Service) (c : Certificate) :
    FailsWith Outward (s.shouldIssue c : ExceptT LifecycleError (Run κ) Bool) := by
  intro w v e h
  rw [perform_shouldIssue] at h
  split at h
  · exact failsWith_decideRenewal s c _ v e h
  · split at h
    next => exact failsWith_decideRenewal s c _ v e h
    next => cases h; exact id
    next => cases h

variable [Slot σ (Run κ)]

theorem outward_sign (s : Service) (store : SigningStore σ) {args : IssueArgs}
    (valid : args.IsValid) :
    FailsWith Outward (s.sign store args : ExceptT LifecycleError (Run κ) Unit) := by
  rw [Service.sign, if_neg (not_not_intro valid)]
  refine failsWith_bind (failsWith_mapError fun _ _ _ _ => id) fun csr => ?_
  exact failsWith_bind (outward_request s _) fun _ => outward_store _ _ _ fun _ => failsWith_lift _

variable [Described σ]

theorem outward_issueNew (s : Service) (store : BundleStore σ) (args : IssueArgs)
    (ex : Option Certificate) :
    FailsWith Outward (s.issueNew store args ex : ExceptT LifecycleError (Run κ) IssueResult) :=
  failsWith_bind (outward_request s _) fun _ => outward_store _ _ _ fun _ =>
    failsWith_bind (failsWith_lift _) fun _ => failsWith_pure _

theorem outward_issue (s : Service) (store : BundleStore σ) {args : IssueArgs}
    (valid : args.IsValid) :
    FailsWith Outward (s.issue store args : ExceptT LifecycleError (Run κ) IssueResult) := by
  rw [issue, if_neg (not_not_intro valid)]
  refine failsWith_bind (failsWith_lift _) fun ex => ?_
  cases ex with
  | none => exact outward_issueNew s store args none
  | some c =>
    refine failsWith_bind (outward_shouldIssue s c) fun due => ?_
    cases due with
    | true => exact outward_issueNew s store args (some c)
    | false => exact failsWith_bind (failsWith_lift _) fun _ => failsWith_pure _

theorem outward_readAcme (s : Service) (store : BundleStore σ) (commonName : String) :
    FailsWith Outward (s.readAcme store commonName :
      ExceptT LifecycleError (Run κ) IssueResult) :=
  failsWith_bind (outward_request s _) fun _ =>
    failsWith_bind (failsWith_parsed (fun _ => id) _ _) fun _ =>
      failsWith_bind (failsWith_lift _) fun _ =>
        failsWith_bind (failsWith_writing (fun _ => id) _) fun _ => failsWith_pure _

end Service

namespace Operation

def refusal? : Operation σ → Option LifecycleError
  | .issue _ args | .sign _ args =>
    if Text.AllBlank args.commonName then some .invalidArgs else none
  | .revoke serial => if Text.AllBlank serial then some .emptySerial else none
  | .tidy | .readAcme _ _ | .verify _ | .fetchCa _ _ | .fetchCrl _ _ => none

variable [Authority κ] [Slot σ (Run κ)] [Described σ]

theorem perform_of_refusal {op : Operation σ} {e : LifecycleError} (h : op.refusal? = some e)
    (s : Service) (w : World κ) : w.perform (op.action s) = (.error e, w) := by
  cases op with
  | issue store args =>
    simp only [refusal?, Option.ite_none_right_eq_some, Option.some.injEq] at h
    obtain ⟨hblank, rfl⟩ := h
    have invalid : ¬ args.IsValid := not_not_intro hblank
    rw [action, Service.issue, if_pos invalid]
    rfl
  | sign store args =>
    simp only [refusal?, Option.ite_none_right_eq_some, Option.some.injEq] at h
    obtain ⟨hblank, rfl⟩ := h
    have invalid : ¬ args.IsValid := not_not_intro hblank
    rw [action, Service.sign, if_pos invalid]
    rfl
  | revoke serial =>
    simp only [refusal?, Option.ite_none_right_eq_some, Option.some.injEq] at h
    obtain ⟨hblank, rfl⟩ := h
    rw [action, Service.revoke, if_pos hblank]
    rfl
  | _ => cases h

theorem outward_action {op : Operation σ} (h : op.refusal? = none) (s : Service) :
    FailsWith Outward (op.action s : ExceptT LifecycleError (Run κ) op.Result) := by
  cases op with
  | issue store args =>
    have valid : args.IsValid := fun hblank => by simp [refusal?, hblank] at h
    exact outward_issue s store valid
  | sign store args =>
    have valid : args.IsValid := fun hblank => by simp [refusal?, hblank] at h
    exact outward_sign s store valid
  | revoke serial =>
    have given : ¬ Text.AllBlank serial := fun hblank => by simp [refusal?, hblank] at h
    rw [action, Service.revoke, if_neg given]
    exact failsWith_bind (outward_request s _) fun _ => failsWith_lift _
  | tidy => exact outward_request s _
  | readAcme store commonName => exact outward_readAcme s store commonName
  | verify cert => exact outward_verify s cert
  | fetchCa store binary =>
    exact failsWith_bind (outward_request s _) fun _ => failsWith_writing (fun _ => id) _
  | fetchCrl store binary =>
    exact failsWith_bind (outward_request s _) fun _ => failsWith_writing (fun _ => id) _

theorem refusal?_of_isArgument {op : Operation σ} {s : Service} {w v : World κ}
    {e : LifecycleError} (h : w.perform (op.action s) = (.error e, v)) (he : e.IsArgument) :
    op.refusal? = some e := by
  cases hr : op.refusal? with
  | none => exact absurd he (outward_action hr s w v e h)
  | some e' =>
    rw [perform_of_refusal hr] at h
    cases h
    rfl

structure ArgumentRun (s : Service) (op : Operation σ) (w : World κ) : Prop where
  -- Nothing happens, not even an entry in the log.
  refused : ∀ e, op.refusal? = some e → w.perform (op.action s) = (.error e, w)
  only : ∀ e v, w.perform (op.action s) = (.error e, v) → e.IsArgument → op.refusal? = some e
  -- A bundle is fetched whatever its name is.
  fetched : ∀ store commonName, op = .readAcme store commonName → w.canceled = false →
    w.callsOf .readAcme < (w.perform (op.action s)).2.callsOf .readAcme
  canceled : ∀ store commonName, op = .readAcme store commonName → w.canceled = true →
    w.perform (op.action s) = (.error .canceled, w)

theorem argumentRun [Steady κ σ] (s : Service) (op : Operation σ) (w : World κ) :
    ArgumentRun s op w where
  refused _ h := perform_of_refusal h s w
  only _ _ := refusal?_of_isArgument
  fetched store commonName hop live := by
    subst hop
    rw [callsOf_action_of_asks .readAcme]
    exact callsOf_lt_request s _ live
  canceled store commonName hop hc := by
    subst hop
    exact perform_of_reaches_canceled .readAcme .refl (.canceled hc)

theorem argumentRun_tabs :
    let s : Service := { renewal := .fixed true }
    let w : World Script := { authority := .empty, readings := fun _ => 0 }
    w.perform (s.revoke "\t\t") = (.error .emptySerial, w) := by
  intro s w
  exact (argumentRun s (.revoke "\t\t" : Operation MemorySlot) w).refused _ rfl

end Operation

theorem exists_fetched_blank :
    let s : Service := { renewal := .fixed false }
    let store : BundleStore MemorySlot := .single (.combined ⟨"k"⟩)
    let w : World Script :=
      { authority := fetching, readings := fun _ => 0, memory := fun _ => { data := some [75] } }
    let v := (w.perform (s.readAcme store " ")).2
    Text.AllBlank " " ∧ (∃ r, (w.perform (s.readAcme store " ")).1 = .ok r) ∧
      v.callsOf .readAcme = 1 ∧ (v.memory "k").data = some Destination.bareText := by
  intro s store w v
  refine ⟨by decide, exists_of_isOk (by decide +kernel), ?_, ?_⟩
  · decide +kernel
  · decide +kernel

end CertLifecycle
