import CertLifecycle.Proofs.ErrorOrigins
import CertLifecycle.Proofs.OperationFrames

namespace CertLifecycle

open World Retry Service

variable {κ σ α β : Type} {k : CaMethod}

def Unaborted (a : ExceptT LifecycleError (Run κ) α) : Prop :=
  ∀ w v : World κ, w.perform a ≠ (.error .canceled, v)

def Abortable (a : ExceptT LifecycleError (Run κ) α) : Prop :=
  ∀ w v : World κ, w.perform a = (.error .canceled, v) → v.canceled = true ∧ w.SameStorage v

theorem unaborted_iff {a : ExceptT LifecycleError (Run κ) α} :
    Unaborted a ↔ FailsWith (· ≠ .canceled) a := by
  constructor
  · rintro h w v _ hw rfl
    exact h w v hw
  · intro h w v hw
    exact h w v _ hw rfl

theorem unaborted_pure (x : α) : Unaborted (pure x : ExceptT LifecycleError (Run κ) α) :=
  unaborted_iff.mpr (failsWith_pure x)

theorem unaborted_throw {e : LifecycleError} (he : e ≠ .canceled) :
    Unaborted (throw e : ExceptT LifecycleError (Run κ) α) :=
  unaborted_iff.mpr (failsWith_throw he)

theorem unaborted_lift (a : Run κ α) :
    Unaborted (ExceptT.lift a : ExceptT LifecycleError (Run κ) α) :=
  unaborted_iff.mpr (failsWith_lift a)

theorem unaborted_bind {a : ExceptT LifecycleError (Run κ) α}
    {f : α → ExceptT LifecycleError (Run κ) β} (ha : Unaborted a) (hf : ∀ x, Unaborted (f x)) :
    Unaborted (a >>= f) :=
  unaborted_iff.mpr (failsWith_bind (unaborted_iff.mp ha) fun x => unaborted_iff.mp (hf x))

theorem unaborted_parsed (what : String) (text : Bytes) :
    Unaborted (parsed what text : ExceptT LifecycleError (Run κ) _) :=
  unaborted_iff.mpr (failsWith_parsed (by simp) what text)

theorem unaborted_writing (action : ExceptT StorageError (Run κ) Unit) :
    Unaborted (writing action) :=
  unaborted_iff.mpr (failsWith_writing (by simp) action)

theorem Unaborted.abortable {a : ExceptT LifecycleError (Run κ) α} (h : Unaborted a) :
    Abortable a :=
  fun w v hw => absurd hw (h w v)

theorem abortable_bind {a : ExceptT LifecycleError (Run κ) α}
    {f : α → ExceptT LifecycleError (Run κ) β} (ha : Abortable a)
    (hs : Leads SameStorage a.run) (hf : ∀ x, Abortable (f x)) : Abortable (a >>= f) := by
  intro w v h
  rw [perform_bind] at h
  rcases hw : w.perform a with ⟨e | x, u⟩
  · rw [hw] at h
    obtain ⟨he, rfl⟩ := Prod.mk.inj h
    obtain rfl : e = .canceled := Except.error.inj he
    exact ha w u hw
  · rw [hw] at h
    have hwu : w.SameStorage (w.perform a).2 := hs w
    rw [hw] at hwu
    obtain ⟨hc, huv⟩ := hf x u v h
    exact ⟨hc, hwu.trans huv⟩

theorem Trust.verifyAt_ne_canceled (anchorNow leafNow : Int) (c : Certificate) (chain : Bytes) :
    verifyAt anchorNow leafNow c chain ≠ .error .canceled := by
  intro h
  have hne : ErrorsIn (· ≠ .canceled) (verifyAt anchorNow leafNow c chain) :=
    errorsIn_verifyAt (by simp) (by simp) anchorNow leafNow c chain
  exact hne _ h rfl

namespace Service

theorem unaborted_reading (action : ExceptT StorageError (Run κ) α) :
    Unaborted (ExceptT.mk do return (← action.run).mapError LifecycleError.readFailed) :=
  unaborted_iff.mpr (failsWith_mapError fun _ _ e _ => by simp)

theorem unaborted_decideRenewal (s : Service) (c : Certificate) :
    Unaborted (s.decideRenewal c : ExceptT LifecycleError (Run κ) Bool) :=
  unaborted_iff.mpr (failsWith_decideRenewal s c)

theorem unaborted_store (what : String) (text : Bytes) (action : ExceptT StorageError (Run κ) Unit)
    {f : Certificate → ExceptT LifecycleError (Run κ) α} (hf : ∀ c, Unaborted (f c)) :
    Unaborted (do
      let c ← parsed what text
      writing action
      f c) :=
  unaborted_bind (unaborted_parsed what text) fun c =>
    unaborted_bind (unaborted_writing action) fun _ => hf c

theorem unaborted_afterChain (c : Certificate) (chain : Bytes) :
    Unaborted (do
      let anchorNow ← ExceptT.lift Clock.now
      let leafNow ← ExceptT.lift Clock.now
      ExceptT.mk (pure (Trust.verifyAt anchorNow leafNow c chain)) :
        ExceptT LifecycleError (Run κ) Unit) :=
  unaborted_iff.mpr (failsWith_afterChain (by simp) (by simp) c chain)

theorem unaborted_afterIssue [Slot σ (Run κ)] [Described σ] (store : BundleStore σ)
    (ex : Option Certificate) (data : CertData) :
    Unaborted (do
      let cert ← parsed "issued" data.certificate
      writing (store.writeCert data)
      ExceptT.lift (logInfo ("issued certificate " ++ cert.serial ++ " for " ++ cert.subject ++
        " valid until " ++ Calendar.instantText cert.notAfter))
      return ⟨.issued, ex, some cert⟩ : ExceptT LifecycleError (Run κ) IssueResult) :=
  unaborted_store _ _ _ fun _ => unaborted_bind (unaborted_lift _) fun _ => unaborted_pure _

section Aborting

variable [Authority κ]

theorem abortable_request (s : Service) (r : CaRequest k) :
    Abortable (s.request r : ExceptT LifecycleError (Run κ) _) := by
  intro w v h
  exact ⟨canceled_of_request h, (asking_of_request h).toSameStorage⟩

theorem abortable_request_bind (s : Service) (r : CaRequest k)
    {f : k.Answer → ExceptT LifecycleError (Run κ) α} (hf : ∀ a, Unaborted (f a)) :
    Abortable (s.request r >>= f) :=
  abortable_bind (abortable_request s r) (sameStorage_request s r) fun a => (hf a).abortable

theorem abortable_verify (s : Service) (c : Certificate) :
    Abortable (s.verify c : ExceptT LifecycleError (Run κ) Unit) :=
  abortable_request_bind s _ (unaborted_afterChain c)

theorem abortable_shouldIssue (s : Service) (c : Certificate) :
    Abortable (s.shouldIssue c : ExceptT LifecycleError (Run κ) Bool) := by
  intro w v h
  rw [perform_shouldIssue] at h
  split at h
  · exact absurd h (unaborted_decideRenewal s c _ v)
  · split at h
    next => exact absurd h (unaborted_decideRenewal s c _ v)
    next u hverify =>
      obtain rfl : u = v := (Prod.mk.inj h).2
      obtain ⟨hc, hwu⟩ := abortable_verify s c _ u hverify
      exact ⟨hc, (sameStorage_looked w).trans hwu⟩
    next => cases h

theorem abortable_revoke (s : Service) (serial : String) :
    Abortable (s.revoke serial : ExceptT LifecycleError (Run κ) Unit) := by
  by_cases blank : Text.AllBlank serial
  · rw [revoke, if_pos blank]
    exact (unaborted_throw (e := .emptySerial) (by simp)).abortable
  rw [revoke, if_neg blank]
  exact abortable_request_bind s _ fun _ => unaborted_lift _

variable [Slot σ (Run κ)]

theorem abortable_sign [Steady κ σ] (s : Service) (store : SigningStore σ) (args : IssueArgs) :
    Abortable (s.sign store args : ExceptT LifecycleError (Run κ) Unit) := by
  by_cases invalid : ¬ args.IsValid
  · rw [Service.sign, if_pos invalid]
    exact (unaborted_throw (e := .invalidArgs) (by simp)).abortable
  rw [Service.sign, if_neg invalid]
  refine abortable_bind (unaborted_reading _).abortable
    (leads_bind (Steady.read_sameStorage store.csr) fun _ => leads_pure _) fun csr => ?_
  exact abortable_request_bind s _ fun _ => unaborted_store _ _ _ fun _ => unaborted_lift _

variable [Described σ]

theorem abortable_issueNew (s : Service) (store : BundleStore σ) (args : IssueArgs)
    (ex : Option Certificate) :
    Abortable (s.issueNew store args ex : ExceptT LifecycleError (Run κ) IssueResult) :=
  abortable_request_bind s _ (unaborted_afterIssue store ex)

theorem abortable_issue [Steady κ σ] (s : Service) (store : BundleStore σ) (args : IssueArgs) :
    Abortable (s.issue store args : ExceptT LifecycleError (Run κ) IssueResult) := by
  by_cases invalid : ¬ args.IsValid
  · rw [issue, if_pos invalid]
    exact (unaborted_throw (e := .invalidArgs) (by simp)).abortable
  rw [issue, if_neg invalid]
  refine abortable_bind (unaborted_lift _).abortable (leads_existing Steady.read_sameStorage store)
    fun ex => ?_
  cases ex with
  | none => exact abortable_issueNew s store args none
  | some c =>
    refine abortable_bind (abortable_shouldIssue s c)
      (leads_shouldIssue (sameStorage_request s _) c) fun due => ?_
    cases due with
    | true => exact abortable_issueNew s store args (some c)
    | false => exact (unaborted_bind (unaborted_lift _) fun _ => unaborted_pure _).abortable

theorem abortable_action [Steady κ σ] (s : Service) (op : Operation σ) :
    Abortable (op.action s : ExceptT LifecycleError (Run κ) op.Result) := by
  cases op with
  | issue store args => exact abortable_issue s store args
  | sign store args => exact abortable_sign s store args
  | revoke serial => exact abortable_revoke s serial
  | tidy => exact abortable_request s _
  | readAcme store commonName =>
    exact abortable_request_bind s _ fun _ => unaborted_bind (unaborted_parsed _ _) fun _ =>
      unaborted_bind (unaborted_lift _) fun _ => unaborted_bind (unaborted_writing _) fun _ =>
        unaborted_pure _
  | verify cert => exact abortable_verify s cert
  | fetchCa store binary => exact abortable_request_bind s _ fun _ => unaborted_writing _
  | fetchCrl store binary => exact abortable_request_bind s _ fun _ => unaborted_writing _

end Aborting

end Service

namespace Operation

variable [Authority κ] [Slot σ (Run κ)] [Described σ]

/-- The requests that an operation comes to, each with the world that it is made in. -/
inductive Asks (s : Service) (w : World κ) :
    (op : Operation σ) → {k : CaMethod} → CaRequest k → World κ → Prop
  | chain {store args c v} (valid : args.IsValid) (stored : found store w = (some c, v))
    (unexpired : c.isExpiredAt v.clock = false) :
    Asks s w (.issue store args) .fetchCaChain v.looked
  | anew {store args v} (valid : args.IsValid) (missing : found store w = (none, v)) :
    Asks s w (.issue store args) (.issue args) v
  | replace {store args c v u} (valid : args.IsValid) (stored : found store w = (some c, v))
    (due : v.perform (s.shouldIssue c) = (.ok true, u)) :
    Asks s w (.issue store args) (.issue args) u
  | sign {store args csr v} (valid : args.IsValid)
    (stored : w.perform store.readCsr = (.ok csr, v)) :
    Asks s w (.sign store args) (.sign csr args) v
  | revoke {serial} (given : ¬ Text.AllBlank serial) : Asks s w (.revoke serial) (.revoke serial) w
  | tidy : Asks s w .tidy .tidy w
  | readAcme {store commonName} : Asks s w (.readAcme store commonName) (.readAcme commonName) w
  | verify {cert} : Asks s w (.verify cert) .fetchCaChain w
  | fetchCa {store binary} : Asks s w (.fetchCa store binary) (.fetchCa binary) w
  | fetchCrl {store binary} : Asks s w (.fetchCrl store binary) (.fetchCrl binary) w

/-- Whether the operation goes on when such a request failed: an issue run then replaces the
certificate that it could not verify. -/
def forgives : Operation σ → CaMethod → Bool
  | .issue _ _, .fetchCaChain => true
  | _, _ => false

variable {s : Service} {w u v : World κ} {op : Operation σ} {r : CaRequest k}

theorem perform_of_asks (h : Asks s w op r u) (hk : op.forgives k = false) :
    ∃ f : k.Answer → ExceptT LifecycleError (Run κ) op.Result, (∀ a, Unaborted (f a)) ∧
      w.perform (op.action s) = u.perform (s.request r >>= f) := by
  cases h with
  | chain valid stored unexpired => cases hk
  | @anew store args v valid missing =>
    refine ⟨_, unaborted_afterIssue store none, ?_⟩
    change w.perform (s.issue store args) = _
    rw [perform_issue s store valid, missing]
    rfl
  | @replace store args c v u valid stored due =>
    refine ⟨_, unaborted_afterIssue store (some c), ?_⟩
    change w.perform (s.issue store args) = _
    rw [perform_issue s store valid, stored]
    dsimp only
    rw [due]
    rfl
  | @sign store args csr v valid stored =>
    refine ⟨_, fun signature => unaborted_store "signed" signature.certificate
      (store.writeSignature signature) fun cert => unaborted_lift (logInfo
        ("signed certificate " ++ signature.serial ++ " valid until " ++
          Calendar.instantText cert.notAfter)), ?_⟩
    change w.perform (s.sign store args) = _
    rw [Service.sign, if_neg (not_not_intro valid), perform_bind, perform_reading, stored]
    rfl
  | @revoke serial given =>
    refine ⟨_, fun _ => unaborted_lift (logInfo ("revoked certificate " ++ serial)), ?_⟩
    change w.perform (s.revoke serial) = _
    rw [Service.revoke, if_neg given]
  | tidy =>
    exact ⟨_, fun _ => unaborted_pure (), congrArg w.perform bind_pure_unit.symm⟩
  | readAcme =>
    exact ⟨_, fun data => unaborted_bind (unaborted_parsed _ _) fun _ =>
      unaborted_bind (unaborted_lift _) fun _ => unaborted_bind (unaborted_writing _) fun _ =>
        unaborted_pure _, rfl⟩
  | verify => exact ⟨_, unaborted_afterChain _, rfl⟩
  | @fetchCa store binary => exact ⟨_, fun bs => unaborted_writing (store.write bs), rfl⟩
  | @fetchCrl store binary => exact ⟨_, fun bs => unaborted_writing (store.write bs), rfl⟩

theorem perform_of_asks_canceled (h : Asks s w op r u)
    (hr : u.perform (s.request r) = (.error .canceled, v)) :
    w.perform (op.action s) = (.error .canceled, v) := by
  cases hk : op.forgives k with
  | false =>
    obtain ⟨f, -, hf⟩ := perform_of_asks h hk
    rw [hf, perform_bind, hr]
  | true =>
    cases h with
    | @chain store args c x valid stored unexpired =>
      have hverify : x.looked.perform (s.verify c) = (.error .canceled, v) := by
        rw [perform_verify, hr]
      have hshould : x.perform (s.shouldIssue c) = (.error .canceled, v) := by
        rw [perform_shouldIssue, if_neg (Bool.eq_false_iff.mp unexpired), hverify]
      change w.perform (s.issue store args) = _
      rw [perform_issue s store valid, stored]
      dsimp only
      rw [hshould]
    | _ => cases hk

theorem perform_request_of_ends {i : Iteration κ} {o : Except Failure k.Answer × World κ}
    (hi : Iteration.Reaches s.retry r (.first s.retry u) i) (ho : Iteration.Ends r i o) :
    u.perform (s.request r) = (o.1.mapError (failure k), o.2) := by
  rw [perform_request, Iteration.outcome_of_reaches hi, Iteration.outcome_of_ends ho]

variable {i : Iteration κ}

theorem perform_of_reaches_canceled (h : op.Asks s w r u)
    (hi : Iteration.Reaches s.retry r (.first s.retry u) i)
    (ho : Iteration.Ends r i (.error .canceled, v)) :
    w.perform (op.action s) = (.error .canceled, v) :=
  perform_of_asks_canceled h (perform_request_of_ends hi ho)

theorem perform_of_paused {e : CaError} {x : World κ} (h : op.Asks s w r u)
    (hi : Iteration.Reaches s.retry r (.first s.retry u) i) (live : i.world.canceled = false)
    (answer : i.world.ask r = (some (.error e), x)) (retryable : e.permanent = false)
    (more : i.left ≠ 0)
    (hc : ((x.logged (retryEvent k (i.done + 1) i.delay e)).wait i.delay).2.canceled = true) :
    w.perform (op.action s) =
      (.error .canceled, ((x.logged (retryEvent k (i.done + 1) i.delay e)).wait i.delay).2) := by
  obtain ⟨j, hj, ho⟩ := Iteration.exists_ends_of_paused live answer retryable more hc
  exact perform_of_reaches_canceled h (hi.trans hj) ho

theorem perform_of_failed {e : CaError} (h : op.Asks s w r u)
    (hi : Iteration.Reaches s.retry r (.first s.retry u) i)
    (ho : Iteration.Ends r i (.error (.failed e), v)) :
    (u.perform (s.request r)).1 = .error (.authority k e) ∧
      (op.forgives k = false → (w.perform (op.action s)).1 = .error (.authority k e)) := by
  have hr : u.perform (s.request r) = (.error (.authority k e), v) := perform_request_of_ends hi ho
  refine ⟨congrArg Prod.fst hr, fun hk => ?_⟩
  obtain ⟨f, -, hf⟩ := perform_of_asks h hk
  rw [hf, perform_bind, hr]

omit [Described σ] in
theorem sameCalls_of_chain_canceled [Steady κ σ] (h : op.Asks s w .fetchCaChain u)
    (hr : u.perform (s.request .fetchCaChain) = (.error .canceled, v)) :
    v.callsOf .issue = w.callsOf .issue := by
  have hrequest := (asking_of_request hr).others .issue nofun
  cases h with
  | chain valid stored unexpired =>
    have hfound : Calling (fun _ => False) w _ := calling_of_found stored
    exact hrequest.trans (hfound.others .issue not_false)
  | verify => exact hrequest

theorem calling_issueNew [Steady κ σ] (s : Service) (store : BundleStore σ) (args : IssueArgs)
    (ex : Option Certificate) (w : World κ) :
    Calling (· = .issue) w (w.perform (s.issueNew store args ex)).2 :=
  leads_issueNew (fun s bs w => (Steady.write_aside s bs w).calling)
    (calling_request (p := (· = .issue)) s (.issue args) rfl) store ex w

theorem exists_asks_issue [Steady κ σ] {store : BundleStore σ} {args : IssueArgs}
    (hk : k = .fetchCaChain ∨ k = .issue)
    (h : (w.perform (s.issue store args)).2.callsOf k ≠ w.callsOf k) :
    ∃ (r : CaRequest k) (u : World κ), Asks s w (.issue store args) r u := by
  -- A branch that does not come to the request keeps to methods other than `k`.
  by_cases valid : args.IsValid
  · rcases hfound : found store w with ⟨_ | c, v⟩
    · obtain rfl | rfl := hk
      · refine absurd ?_ h
        rw [perform_issue s store valid, hfound]
        exact (trans_of _ (calling_of_found hfound)
          (calling_issueNew s store args none v)).others _ nofun
      · exact ⟨_, _, .anew valid hfound⟩
    · obtain rfl | rfl := hk
      · cases hexp : c.isExpiredAt v.clock with
        | false => exact ⟨_, _, .chain valid hfound hexp⟩
        | true =>
          refine absurd ?_ h
          refine (trans_of _ (calling_of_found hfound) (issue_of_found valid hfound ?_ fun u _ =>
            calling_issueNew s store args (some c) u)).others _ nofun
          rw [perform_shouldIssue, if_pos hexp]
          exact trans_of _ (Lenient.looked v) (leads_decideRenewal s c v.looked)
      · by_cases hdue : ∃ u, v.perform (s.shouldIssue c) = (.ok true, u)
        · obtain ⟨u, hu⟩ := hdue
          exact ⟨_, _, .replace valid hfound hu⟩
        · refine absurd ?_ h
          have hshould : Calling (· = .fetchCaChain) v (v.perform (s.shouldIssue c)).2 :=
            leads_shouldIssue (calling_request (p := (· = .fetchCaChain)) s _ rfl) c v
          exact (trans_of _ (calling_of_found hfound) (issue_of_found valid hfound hshould
            fun u hu => absurd ⟨u, hu⟩ hdue)).others _ nofun
  · refine absurd ?_ h
    rw [Service.issue, if_pos valid]
    rfl

theorem exists_asks [Steady κ σ] (h : (w.perform (op.action s)).2.callsOf k ≠ w.callsOf k) :
    ∃ (r : CaRequest k) (u : World κ), Asks s w op r u := by
  have hk : op.Requests k := by
    refine Classical.byContradiction fun hk => h ?_
    exact (calling_action s op w).others k hk
  cases op with
  | issue store args => exact exists_asks_issue hk h
  | sign store args =>
    obtain rfl : k = .sign := hk
    by_cases valid : args.IsValid
    · rcases hread : w.perform store.readCsr with ⟨e | csr, v⟩
      · have hrun : w.perform (s.sign store args) = (.error (.readFailed e), v) := by
          rw [Service.sign, if_neg (not_not_intro valid), perform_bind, perform_reading, hread]
          rfl
        have haside : w.Aside (w.perform store.readCsr).2 := Steady.read_aside store.csr w
        rw [hread] at haside
        refine absurd ?_ h
        change (w.perform (s.sign store args)).2.callsOf _ = _
        rw [hrun]
        exact haside.calls _
      · exact ⟨_, _, .sign valid hread⟩
    · refine absurd ?_ h
      change (w.perform (s.sign store args)).2.callsOf _ = _
      rw [Service.sign, if_pos valid]
      rfl
  | revoke serial =>
    obtain rfl : k = .revoke := hk
    by_cases blank : Text.AllBlank serial
    · refine absurd ?_ h
      change (w.perform (s.revoke serial)).2.callsOf _ = _
      rw [Service.revoke, if_pos blank]
      rfl
    · exact ⟨_, _, .revoke blank⟩
  | tidy =>
    obtain rfl : k = .tidy := hk
    exact ⟨_, _, .tidy⟩
  | readAcme store commonName =>
    obtain rfl : k = .readAcme := hk
    exact ⟨_, _, .readAcme⟩
  | verify cert =>
    obtain rfl : k = .fetchCaChain := hk
    exact ⟨_, _, .verify⟩
  | fetchCa store binary =>
    obtain rfl : k = .fetchCa := hk
    exact ⟨_, _, .fetchCa⟩
  | fetchCrl store binary =>
    obtain rfl : k = .fetchCrl := hk
    exact ⟨_, _, .fetchCrl⟩

end Operation

structure CancellationSafe [Authority κ] [Slot σ (Run κ)] [Described σ] (s : Service)
    (op : Operation σ) (w : World κ) : Prop where
  -- No request starts in a cancelled run.
  prompt : (w.perform (op.action s)).2.lateCalls = w.lateCalls
  -- Whatever is requested is a request that the other clauses are about.
  asked : ∀ k, (w.perform (op.action s)).2.callsOf k ≠ w.callsOf k →
    ∃ (r : CaRequest k) (u : World κ), op.Asks s w r u
  -- Without cancellation there is no `Canceled`, and with it nothing is stored.
  canceled : ∀ v, w.perform (op.action s) = (.error .canceled, v) →
    v.canceled = true ∧ w.SameStorage v
  -- Cancellation before an attempt.
  before : ∀ {k} {r : CaRequest k} {u : World κ} {i : Iteration κ}, op.Asks s w r u →
    Iteration.Reaches s.retry r (.first s.retry u) i → i.world.canceled = true →
    w.perform (op.action s) = (.error .canceled, i.world)
  -- Cancellation while a request is pending.
  pending : ∀ {k} {r : CaRequest k} {u : World κ} {i : Iteration κ}, op.Asks s w r u →
    Iteration.Reaches s.retry r (.first s.retry u) i → i.world.canceled = false →
    (i.world.asked r).CutShort (i.world.reply r).delay →
    w.perform (op.action s) = (.error .canceled, (i.world.ask r).2)
  -- Cancellation while the next attempt is waited for, up to the last moment.
  backoff : ∀ {k} {r : CaRequest k} {u v : World κ} {i : Iteration κ} {e : CaError},
    op.Asks s w r u → Iteration.Reaches s.retry r (.first s.retry u) i →
    i.world.canceled = false → i.world.ask r = (some (.error e), v) → e.permanent = false →
    i.left ≠ 0 →
    ((v.logged (retryEvent k (i.done + 1) i.delay e)).CutShort i.delay ∨
      (v.logged (retryEvent k (i.done + 1) i.delay e)).Tied i.delay) →
    w.perform (op.action s) =
      (.error .canceled, ((v.logged (retryEvent k (i.done + 1) i.delay e)).wait i.delay).2)
  -- A request that cancels the run itself still answers, and so does one whose answer comes at the
  -- moment of cancellation and counts first.
  answered : ∀ {k} {r : CaRequest k} {u : World κ} {i : Iteration κ} {a : k.Answer},
    op.Asks s w r u → Iteration.Reaches s.retry r (.first s.retry u) i →
    i.world.canceled = false → i.world.AnsweredLate r → (i.world.reply r).answer = .ok a →
    u.perform (s.request r) = (.ok a, (i.world.ask r).2) ∧
      (op.forgives k = false → (w.perform (op.action s)).1 ≠ .error .canceled)
  -- Such a failure is the result if no retry would follow it anyway.
  failed : ∀ {k} {r : CaRequest k} {u : World κ} {i : Iteration κ} {e : CaError},
    op.Asks s w r u → Iteration.Reaches s.retry r (.first s.retry u) i →
    i.world.canceled = false → i.world.AnsweredLate r → (i.world.reply r).answer = .error e →
    e.permanent = true ∨ i.left = 0 →
    (u.perform (s.request r)).1 = .error (.authority k e) ∧
      (op.forgives k = false → (w.perform (op.action s)).1 = .error (.authority k e))
  -- Otherwise it is not retried.
  unretried : ∀ {k} {r : CaRequest k} {u : World κ} {i : Iteration κ} {e : CaError},
    op.Asks s w r u → Iteration.Reaches s.retry r (.first s.retry u) i →
    i.world.canceled = false → i.world.AnsweredLate r → (i.world.reply r).answer = .error e →
    e.permanent = false → i.left ≠ 0 →
    w.perform (op.action s) =
      (.error .canceled, (i.world.ask r).2.logged (retryEvent k (i.done + 1) i.delay e))
  -- An issue run that is cancelled while it verifies issues nothing.
  unissued : ∀ {u v : World κ}, op.Asks s w .fetchCaChain u →
    u.perform (s.request .fetchCaChain) = (.error .canceled, v) →
    w.perform (op.action s) = (.error .canceled, v) ∧ v.callsOf .issue = w.callsOf .issue

section

variable [Authority κ] [Slot σ (Run κ)] [Described σ] [Steady κ σ]

theorem cancellationSafe (s : Service) (op : Operation σ) (w : World κ) :
    CancellationSafe s op w where
  prompt := (op.calling_action s w).lateCalls
  asked _ := Operation.exists_asks
  canceled v h := abortable_action s op w v h
  before h hi hc := Operation.perform_of_reaches_canceled h hi (.canceled hc)
  pending h hi live hcut := Operation.perform_of_reaches_canceled h hi
    (.cutShort live (Prod.ext (ask_of_cutShort hcut) rfl))
  backoff h hi live answer retryable more hcut :=
    Operation.perform_of_paused h hi live answer retryable more <|
      hcut.elim (fun hshort => canceled_of_wait (wait_of_cutShort hshort)) canceled_of_tied
  answered {k r u i a} h hi live late hanswer := by
    have hask : i.world.ask r = (some (.ok a), (i.world.ask r).2) := hanswer ▸ late.ask
    have hr : u.perform (s.request r) = (.ok a, (i.world.ask r).2) :=
      Operation.perform_request_of_ends hi (.answered live hask)
    refine ⟨hr, fun hk hw => ?_⟩
    obtain ⟨f, hf, hrun⟩ := Operation.perform_of_asks h hk
    rw [perform_bind, hr] at hrun
    exact hf a _ _ (hrun.symm.trans (Prod.ext hw rfl))
  failed {k r u i e} h hi live late hanswer hlast := by
    have hask : i.world.ask r = (some (.error e), (i.world.ask r).2) := hanswer ▸ late.ask
    cases hp : e.permanent with
    | true => exact Operation.perform_of_failed h hi (.permanent live hask hp)
    | false =>
      have hleft : i.left = 0 := hlast.resolve_left (by simp [hp])
      exact Operation.perform_of_failed h hi (.exhausted live hask hp hleft)
  unretried {k r u i e} h hi live late hanswer retryable more := by
    have hask : i.world.ask r = (some (.error e), (i.world.ask r).2) := hanswer ▸ late.ask
    have hc : ((i.world.ask r).2.logged (retryEvent k (i.done + 1) i.delay e)).canceled = true :=
      late.canceled
    have hwait := wait_snd_of_canceled hc i.delay
    have hrun := Operation.perform_of_paused h hi live hask retryable more (by rwa [hwait])
    rwa [hwait] at hrun
  unissued h hr :=
    ⟨Operation.perform_of_asks_canceled h hr, Operation.sameCalls_of_chain_canceled h hr⟩

end

def slowTidy : Script
  | .tidy => [{ delay := .ofMillis 5, answer := .ok () }]
  | _ => []

theorem tidy_canceled_while_pending :
    let w : World Script :=
      { authority := slowTidy, readings := fun _ => 0, cancelAt := some 2000000 }
    (w.perform ((.tidy : Operation MemorySlot).action { renewal := .fixed false })).1 =
      .error .canceled := by
  intro w
  have hcut : (w.asked .tidy).CutShort (w.reply .tidy).delay :=
    ⟨by decide, .inr ⟨2000000, rfl, by decide⟩⟩
  exact congrArg Prod.fst ((cancellationSafe { renewal := .fixed false }
    (.tidy : Operation MemorySlot) w).pending .tidy .refl rfl hcut)

end CertLifecycle
