import CertLifecycle.Proofs.RetryAnswers
import Mathlib.Data.Nat.Find

namespace CertLifecycle

open World Retry Service

variable {κ σ : Type} {k : CaMethod} [Authority κ]

namespace Retry.Iteration

variable {config : RetryConfig} {r : CaRequest k} {w : World κ} {i : Iteration κ}

theorem callsOf_of_ends {o : Except Failure k.Answer × World κ} (h : Ends r i o) :
    o.2.callsOf k ≤ i.world.callsOf k + 1 := by
  have hask := callsOf_ask r i.world
  cases h with
  | canceled => exact Nat.le_succ _
  | cutShort _ pending => rw [pending] at hask; exact Nat.le_of_eq hask
  | answered _ answer => rw [answer] at hask; exact Nat.le_of_eq hask
  | permanent _ answer _ => rw [answer] at hask; exact Nat.le_of_eq hask
  | exhausted _ answer _ _ => rw [answer] at hask; exact Nat.le_of_eq hask
  | @backoff v u e _ answer _ _ cut =>
    rw [answer] at hask
    have hwait := callsOf_wait (k := k) i.delay (v.logged (retryEvent k (i.done + 1) i.delay e))
    rw [cut] at hwait
    exact Nat.le_of_eq (hwait.trans hask)

theorem callsOf_outcome_le (config : RetryConfig) (r : CaRequest k) (w : World κ) :
    ((first config w).outcome config r).2.callsOf k ≤
      w.callsOf k + (config.maxRetries.toNat + 1) := by
  obtain ⟨i, hi, hend⟩ := exists_ends config r (first config w)
  obtain ⟨n, hn⟩ := exists_after_of_reaches hi
  have hcalls := callsOf_of_ends hend
  have hbefore := hn.calls
  have hleft := hn.left
  omega

theorem exists_endsAfter (live : ((first config w).outcome config r).2.canceled = false) :
    ∃ n ≤ config.maxRetries.toNat, EndsAfter config r w n ∧
      (∀ m < n, ¬ Final (answerAt r w m)) ∧
      (Final (answerAt r w n) ∨ n = config.maxRetries.toNat) := by
  by_cases h : ∃ n ≤ config.maxRetries.toNat, Final (answerAt r w n)
  · classical
    obtain ⟨hn, hfinal⟩ := Nat.find_spec h
    have hbefore (m : Nat) (hm : m < Nat.find h) : ¬ Final (answerAt r w m) := by
      intro hf
      exact Nat.find_min h hm ⟨by omega, hf⟩
    obtain ⟨i, hi⟩ := exists_after live hbefore hn
    exact ⟨_, hn, hi.ends live (.inl hfinal), hbefore, .inl hfinal⟩
  · have hnone (m : Nat) (hm : m ≤ config.maxRetries.toNat) : ¬ Final (answerAt r w m) :=
      fun hf => h ⟨m, hm, hf⟩
    have hbefore (m : Nat) (hm : m < config.maxRetries.toNat) : ¬ Final (answerAt r w m) :=
      hnone m (Nat.le_of_lt hm)
    obtain ⟨i, hi⟩ := exists_after live hbefore (Nat.le_refl _)
    exact ⟨_, Nat.le_refl _, hi.ends live (.inr rfl), hbefore, .inr rfl⟩

theorem callsOf_of_final (live : ((first config w).outcome config r).2.canceled = false)
    (h : Final (answerAt r w 0)) :
    ((first config w).outcome config r).2.callsOf k = w.callsOf k + 1 :=
  ((after_first config r w).ends live (.inl h)).calls

theorem callsOf_of_retryable (live : ((first config w).outcome config r).2.canceled = false)
    (h : ¬ Final (answerAt r w 0)) (more : config.maxRetries ≠ 0) :
    w.callsOf k + 2 ≤ ((first config w).outcome config r).2.callsOf k := by
  obtain ⟨n, -, hends, -, hlast⟩ := exists_endsAfter live
  have hmore : config.maxRetries.toNat ≠ 0 := fun h0 => more (UInt32.toNat_inj.mp h0)
  have hn : n ≠ 0 := by
    rintro rfl
    rcases hlast with hfinal | h0
    · exact h hfinal
    · exact hmore h0.symm
  have hcalls := hends.calls
  omega

theorem callsOf_of_all_retryable (live : ((first config w).outcome config r).2.canceled = false)
    (h : ∀ n ≤ config.maxRetries.toNat, ¬ Final (answerAt r w n)) :
    ((first config w).outcome config r).2.callsOf k =
      w.callsOf k + (config.maxRetries.toNat + 1) := by
  obtain ⟨n, hn, hends, -, hfinal | rfl⟩ := exists_endsAfter live
  · exact absurd hfinal (h n hn)
  · exact hends.calls

end Retry.Iteration

namespace Service

theorem callsOf_request (s : Service) (r : CaRequest k) (w : World κ) :
    (w.perform (s.request r)).2.callsOf k =
      ((Iteration.first s.retry w).outcome s.retry r).2.callsOf k := by
  rw [perform_request]

theorem callsOf_request_bind {α : Type} (s : Service) (r : CaRequest k)
    {f : k.Answer → ExceptT LifecycleError (Run κ) α}
    (hf : ∀ a, Leads (Calling fun _ => False) (f a).run) (w : World κ) :
    (w.perform (s.request r >>= f)).2.callsOf k = (w.perform (s.request r)).2.callsOf k := by
  rw [perform_bind]
  rcases w.perform (s.request r) with ⟨_ | a, v⟩
  · rfl
  · exact (hf a v).others k not_false

end Service

namespace Operation

variable [Slot σ (Run κ)] [Described σ] [Steady κ σ]
variable {s : Service} {op : Operation σ} {r : CaRequest k} {v w : World κ}

omit [Described σ] in
theorem callsOf_of_asks (h : op.Asks s v r w) : w.callsOf k = v.callsOf k := by
  cases h with
  | chain valid stored unexpired =>
    exact (calling_of_found (p := fun _ => False) stored).others _ id
  | anew valid missing => exact (calling_of_found (p := fun _ => False) missing).others _ id
  | @replace store args c x u valid stored due =>
    have hfound : Calling (· = .fetchCaChain) v x := calling_of_found stored
    have hshould : Calling (· = .fetchCaChain) x (x.perform (s.shouldIssue c)).2 :=
      leads_shouldIssue (calling_request (p := (· = .fetchCaChain)) s _ rfl) c x
    rw [due] at hshould
    exact (trans_of _ hfound hshould).others _ nofun
  | @sign store args csr u valid stored =>
    have hread : v.Aside (v.perform store.readCsr).2 := Steady.read_aside store.csr v
    rw [stored] at hread
    exact hread.calls _
  | _ => rfl

theorem calling_action_of_asks_chain {store : BundleStore σ} {args : IssueArgs}
    (h : Asks s v (.issue store args) .fetchCaChain w) :
    Calling (· = .issue) (w.perform (s.request .fetchCaChain)).2
      (v.perform (s.issue store args)).2 := by
  cases h with
  | @chain _ _ c x valid stored unexpired =>
    have hshould : Calling (· = .issue) (x.looked.perform (s.request .fetchCaChain)).2
        (x.perform (s.shouldIssue c)).2 := by
      have hdecide (u : World κ) : Calling (· = .issue) u (u.perform (s.decideRenewal c)).2 :=
        leads_decideRenewal s c u
      rw [perform_shouldIssue, if_neg (Bool.eq_false_iff.mp unexpired), perform_verify]
      rcases x.looked.perform (s.request .fetchCaChain) with ⟨e | chain, u⟩
      · cases e with
        | canceled => exact refl_of _ u
        | _ => exact Lenient.logged _ u
      · dsimp only
        have hlooked : Calling (· = .issue) u u.looked.looked :=
          trans_of _ (Lenient.looked u) (Lenient.looked u.looked)
        rcases Trust.verifyAt u.clock u.looked.clock c chain with e | _
        · cases e with
          | canceled => exact hlooked
          | _ => exact trans_of _ hlooked (Lenient.logged _ _)
        · exact trans_of _ hlooked (hdecide _)
    rw [perform_issue s store valid, stored]
    dsimp only
    rcases hdue : x.perform (s.shouldIssue c) with ⟨e | _ | _, u⟩ <;> rw [hdue] at hshould
    · exact hshould
    · exact trans_of _ hshould (Lenient.logged _ u)
    · exact trans_of _ hshould (calling_issueNew s store args (some c) u)

theorem callsOf_action_of_asks (h : op.Asks s v r w) :
    (v.perform (op.action s)).2.callsOf k = (w.perform (s.request r)).2.callsOf k := by
  have hread (t : σ) : Leads (Calling fun _ => False) (Slot.read t : ExceptT _ (Run κ) _).run :=
    fun w => (Steady.read_aside t w).calling
  have hwrite (t : σ) (bs : Bytes) :
      Leads (Calling fun _ => False) (Slot.write t bs : ExceptT _ (Run κ) _).run :=
    fun w => (Steady.write_aside t bs w).calling
  have hprint (bs : Bytes) : Leads (Calling fun _ => False) (Console.print bs : Run κ Unit) :=
    fun _ => ⟨fun _ _ => rfl, rfl, id⟩
  have hblob (store : BlobStore σ) (bs : Bytes) :
      Leads (Calling fun _ => False) (writing (store.write bs) : ExceptT _ (Run κ) Unit).run :=
    leads_writing (leads_blob_write hwrite hprint store bs)
  have hnew (store : BundleStore σ) (args : IssueArgs) (ex : Option Certificate) (u : World κ) :
      (u.perform (s.issueNew store args ex)).2.callsOf .issue =
        (u.perform (s.request (.issue args))).2.callsOf .issue :=
    callsOf_request_bind s _ (fun _ => leads_run_bind (leads_pure _) fun _ =>
      leads_run_bind (leads_writing (leads_writeCert hwrite leads_log store _)) fun _ =>
        leads_run_bind (leads_log _) fun _ => leads_run_pure _) u
  cases h with
  | chain valid stored unexpired =>
    exact (calling_action_of_asks_chain (.chain valid stored unexpired)).others _ nofun
  | @anew store args u valid missing =>
    change (v.perform (s.issue store args)).2.callsOf _ = _
    rw [perform_issue s store valid, missing]
    exact hnew store args none _
  | @replace store args c x u valid stored due =>
    change (v.perform (s.issue store args)).2.callsOf _ = _
    rw [perform_issue s store valid, stored]
    dsimp only
    rw [due]
    exact hnew store args (some c) _
  | @sign store args csr u valid stored =>
    change (v.perform (s.sign store args)).2.callsOf _ = _
    rw [Service.sign, if_neg (not_not_intro valid), perform_bind, perform_reading, stored]
    exact callsOf_request_bind s _ (fun _ => leads_run_bind (leads_pure _) fun _ =>
      leads_run_bind (leads_writing (leads_writeCertAndCa hwrite _ _ _ _)) fun _ => leads_log _) _
  | @revoke serial given =>
    change (v.perform (s.revoke serial)).2.callsOf _ = _
    rw [Service.revoke, if_neg given]
    exact callsOf_request_bind s _ (fun _ => leads_log _) v
  | tidy => rfl
  | @readAcme store commonName =>
    exact callsOf_request_bind s _ (fun _ => leads_run_bind (leads_pure _) fun _ =>
      leads_run_bind (leads_bind (leads_readCert hread store) fun _ => leads_pure _) fun _ =>
        leads_run_bind (leads_writing (leads_writeCert hwrite leads_log store _)) fun _ =>
          leads_run_pure _) v
  | verify =>
    exact callsOf_request_bind s _ (fun _ => leads_run_bind leads_now fun _ =>
      leads_run_bind leads_now fun _ => leads_pure _) v
  | @fetchCa store binary =>
    change (v.perform (s.request (.fetchCa binary) >>= fun bs => writing (store.write bs))).2.callsOf
      _ = _
    exact callsOf_request_bind s _ (hblob store) v
  | @fetchCrl store binary =>
    change (v.perform (s.request (.fetchCrl binary) >>= fun bs => writing (store.write bs))).2.callsOf
      _ = _
    exact callsOf_request_bind s _ (hblob store) v

end Operation

end CertLifecycle
