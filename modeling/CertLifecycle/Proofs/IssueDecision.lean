import CertLifecycle.Proofs.CancellationSafety

namespace CertLifecycle

open World Service

variable {κ σ : Type}

/-- A run that has just read the certificate keeps it: the strategy does not replace it, and it is
expired or the authority's chain verifies it. -/
inductive Keeps [Authority κ] (s : Service) (c : Certificate) (w : World κ) : Prop
  | expired (old : c.isExpiredAt w.clock = true)
    (kept : s.renewal.decideAt (some c) w.looked.clock = .ok .keep)
  | verified {chain : Bytes} {v : World κ} (current : c.isExpiredAt w.clock = false)
    (fetched : w.looked.perform (s.request .fetchCaChain) = (.ok chain, v))
    (genuine : Trust.verifyAt v.clock v.looked.clock c chain = .ok ())
    (kept : s.renewal.decideAt (some c) v.looked.looked.clock = .ok .keep)

structure Decides [Authority κ] [Slot σ (Run κ)] [Described σ] (s : Service)
    (store : BundleStore σ) (args : IssueArgs) (w : World κ) : Prop where
  noop_iff : (∃ r, (w.perform (s.issue store args)).1 = .ok r ∧ r.status = .noop) ↔
    ∃ c v, w.perform store.readCert = (.ok c, v) ∧ Keeps s c v
  -- A certificate that is kept is reported, nothing is issued and nothing is written.
  kept : ∀ {c v}, w.perform store.readCert = (.ok c, v) → Keeps s c v →
    ∃ u, w.perform (s.issue store args) = (.ok ⟨.noop, some c, none⟩, u) ∧
      u.callsOf .issue = w.callsOf .issue ∧ w.SameStorage u
  -- Without one to keep the authority is asked for another.
  replaced : (¬ ∃ c v, w.perform store.readCert = (.ok c, v) ∧ Keeps s c v) →
    w.callsOf .issue < (w.perform (s.issue store args)).2.callsOf .issue
  -- The chain is fetched for an unexpired certificate only.
  fetched : (w.perform (s.issue store args)).2.callsOf .fetchCaChain ≠ w.callsOf .fetchCaChain →
    ∃ c v, w.perform store.readCert = (.ok c, v) ∧ c.isExpiredAt v.clock = false
  existing : ∀ {r}, (w.perform (s.issue store args)).1 = .ok r →
    r.existing = (w.perform store.readCert).1.toOption
  -- Neither reading nor fetching nor verifying nor the strategy makes the run fail.
  failed : ∀ {e}, (w.perform (s.issue store args)).1 = .error e →
    (∃ cause, e = .authority .issue cause) ∨ (∃ text, e = .invalidData text) ∨
      ∃ cause, e = .writeFailed cause

namespace Service

variable {s : Service} {c : Certificate} {w v : World κ}

theorem decideRenewal_of_keep (h : s.renewal.decideAt (some c) w.clock = .ok .keep) :
    ∃ v, w.perform (s.decideRenewal c) = (.ok false, v) := by
  obtain ⟨v, hv, -⟩ := perform_decideRenewal h
  exact ⟨v, hv⟩

theorem decideRenewal_of_not_keep (h : s.renewal.decideAt (some c) w.clock ≠ .ok .keep) :
    ∃ v, w.perform (s.decideRenewal c) = (.ok true, v) := by
  obtain ⟨verdict, hverdict⟩ := decideAt_some s.renewal c w.clock
  obtain ⟨v, hv, -⟩ := perform_decideRenewal hverdict
  cases verdict with
  | keep => exact absurd hverdict h
  | renew => exact ⟨v, hv⟩
  | emptyWindow => exact ⟨v, hv⟩

section

variable [Slot σ (Run κ)] {store : BundleStore σ}

theorem found_of_readCert (h : w.perform store.readCert = (.ok c, v)) :
    found store w = (some c, v) := by
  rw [found_eq, h]

theorem readCert_of_found (h : found store w = (some c, v)) :
    w.perform store.readCert = (.ok c, v) := by
  rw [found_eq] at h
  split at h
  next hread =>
    cases h
    exact hread
  next => cases h

theorem found_of_unreadable {e : StorageError} (h : w.perform store.readCert = (.error e, v)) :
    ∃ u, found store w = (none, u) := by
  rw [found_eq, h]
  exact ⟨_, rfl⟩

end

variable [Authority κ]

theorem shouldIssue_of_keeps (h : Keeps s c w) :
    ∃ v, w.perform (s.shouldIssue c) = (.ok false, v) := by
  rw [perform_shouldIssue]
  cases h with
  | expired old kept =>
    rw [if_pos old]
    exact decideRenewal_of_keep kept
  | verified current fetched genuine kept =>
    rw [if_neg (Bool.eq_false_iff.mp current), perform_verify, fetched]
    dsimp only
    rw [genuine]
    exact decideRenewal_of_keep kept

theorem shouldIssue_of_not_keeps (h : ¬ Keeps s c w) :
    ∃ v, w.perform (s.shouldIssue c) = (.ok true, v) ∨
      w.perform (s.shouldIssue c) = (.error .canceled, v) := by
  rw [perform_shouldIssue]
  cases hexp : c.isExpiredAt w.clock with
  | true =>
    rw [if_pos rfl]
    obtain ⟨v, hv⟩ := decideRenewal_of_not_keep fun hk => h (.expired hexp hk)
    exact ⟨v, .inl hv⟩
  | false =>
    rw [if_neg Bool.false_ne_true, perform_verify]
    rcases hfetch : w.looked.perform (s.request .fetchCaChain) with ⟨e | chain, v⟩
    · obtain rfl | ⟨cause, rfl⟩ := request_error hfetch
      · exact ⟨v, .inr rfl⟩
      · exact ⟨_, .inl rfl⟩
    · dsimp only
      cases hverify : Trust.verifyAt v.clock v.looked.clock c chain with
      | ok _ =>
        obtain ⟨u, hu⟩ := decideRenewal_of_not_keep fun hk => h (.verified hexp hfetch hverify hk)
        exact ⟨u, .inl hu⟩
      | error e =>
        cases e with
        | canceled => exact absurd hverify (Trust.verifyAt_ne_canceled _ _ _ _)
        | _ => exact ⟨_, .inl rfl⟩

theorem eq_canceled_of_shouldIssue {e : LifecycleError}
    (h : w.perform (s.shouldIssue c) = (.error e, v)) : e = .canceled := by
  by_cases keeps : Keeps s c w
  · obtain ⟨u, hu⟩ := shouldIssue_of_keeps keeps
    rw [hu] at h
    cases h
  · obtain ⟨u, hu | hu⟩ := shouldIssue_of_not_keeps keeps
    · rw [hu] at h
      cases h
    · rw [hu] at h
      cases h
      rfl

variable [Slot σ (Run κ)] [Described σ]
variable {store : BundleStore σ} {args : IssueArgs} {ex : Option Certificate}

theorem issue_of_keeps [Steady κ σ] (valid : args.IsValid)
    (hread : w.perform store.readCert = (.ok c, v)) (h : Keeps s c v) :
    ∃ u, w.perform (s.issue store args) = (.ok ⟨.noop, some c, none⟩, u) ∧
      u.callsOf .issue = w.callsOf .issue ∧ w.SameStorage u := by
  have hfound := found_of_readCert hread
  obtain ⟨x, hshould⟩ := shouldIssue_of_keeps h
  have hrun : w.perform (s.issue store args) =
      (.ok ⟨.noop, some c, none⟩, x.logged (keptEvent c)) := by
    rw [perform_issue s store valid, hfound]
    dsimp only
    rw [hshould]
  have hnew (u : World κ) : v.perform (s.shouldIssue c) ≠ (.ok true, u) := by
    rw [hshould]
    exact nofun
  have hdecide : Calling (· = .fetchCaChain) v (v.perform (s.shouldIssue c)).2 :=
    leads_shouldIssue (calling_request (p := (· = .fetchCaChain)) s _ rfl) c v
  have hcalls := trans_of (Calling (· = .fetchCaChain)) (calling_of_found hfound)
    (issue_of_found valid hfound hdecide fun u hu => absurd hu (hnew u))
  have hstorage := (sameStorage_of_found hfound).trans (issue_of_found valid hfound
    (leads_shouldIssue (sameStorage_request s _) c v) fun u hu => absurd hu (hnew u))
  rw [hrun] at hcalls hstorage
  exact ⟨_, hrun, hcalls.others .issue nofun, hstorage⟩

theorem issue_of_not_keeps [Steady κ σ] (valid : args.IsValid)
    (live : (w.perform (s.issue store args)).2.canceled = false)
    (h : ¬ ∃ c v, w.perform store.readCert = (.ok c, v) ∧ Keeps s c v) :
    ∃ u : World κ, w.perform (s.issue store args) =
        u.perform (s.issueNew store args (w.perform store.readCert).1.toOption) ∧
      u.callsOf .issue = w.callsOf .issue := by
  rcases hread : w.perform store.readCert with ⟨e | c, v⟩
  · obtain ⟨u, hfound⟩ := found_of_unreadable hread
    refine ⟨u, ?_, (calling_of_found (p := fun _ => False) hfound).others .issue not_false⟩
    rw [perform_issue s store valid, hfound]
    rfl
  · have hfound := found_of_readCert hread
    obtain ⟨u, hdue | hcanceled⟩ := shouldIssue_of_not_keeps fun hk => h ⟨c, v, hread, hk⟩
    · refine ⟨u, ?_, ?_⟩
      · rw [perform_issue s store valid, hfound]
        dsimp only
        rw [hdue]
        rfl
      · have hdecide : Calling (· = .fetchCaChain) v (v.perform (s.shouldIssue c)).2 :=
          leads_shouldIssue (calling_request (p := (· = .fetchCaChain)) s _ rfl) c v
        rw [hdue] at hdecide
        exact (trans_of _ (calling_of_found hfound) hdecide).others .issue nofun
    · have hrun : w.perform (s.issue store args) = (.error .canceled, u) := by
        rw [perform_issue s store valid, hfound]
        dsimp only
        rw [hcanceled]
      have hu : u.canceled = true := (abortable_issue s store args w u hrun).1
      rw [hrun, hu] at live
      cases live

theorem callsOf_lt_issueNew [Steady κ σ]
    (live : (w.perform (s.issueNew store args ex)).2.canceled = false) :
    w.callsOf .issue < (w.perform (s.issueNew store args ex)).2.callsOf .issue := by
  have hw : w.canceled = false := by
    refine Bool.eq_false_iff.mpr fun hc => Bool.eq_false_iff.mp live ?_
    exact (Operation.calling_issueNew s store args ex w).canceled hc
  have hrequest := callsOf_lt_request s (.issue args) hw
  rw [perform_issueNew]
  rcases hr : w.perform (s.request (.issue args)) with ⟨e | data, v⟩ <;> rw [hr] at hrequest
  · exact hrequest
  dsimp only at hrequest ⊢
  cases Certificate.ofPem data.certificate with
  | error e => exact hrequest
  | ok c =>
    have hwrite : v.Aside (v.perform (store.writeCert data)).2 :=
      leads_writeCert Steady.write_aside aside_logged store data v
    rcases hw : v.perform (store.writeCert data) with ⟨e | _, u⟩ <;> rw [hw] at hwrite
    · exact Nat.lt_of_lt_of_eq hrequest (hwrite.calls .issue).symm
    · exact Nat.lt_of_lt_of_eq hrequest (hwrite.calls .issue).symm

theorem issueNew_ok {r : IssueResult} (h : w.perform (s.issueNew store args ex) = (.ok r, v)) :
    r.status = .issued ∧ r.existing = ex := by
  rw [perform_issueNew] at h
  split at h
  · cases h
  split at h
  · cases h
  split at h
  · cases h
  · cases h
    exact ⟨rfl, rfl⟩

theorem shouldIssue_of_noop {r : IssueResult} (h : w.perform (s.issue store args) = (.ok r, v))
    (noop : r.status = .noop) :
    ∃ c u x, found store w = (some c, u) ∧ u.perform (s.shouldIssue c) = (.ok false, x) ∧
      r = ⟨.noop, some c, none⟩ ∧ v = x.logged (keptEvent c) := by
  by_cases valid : args.IsValid
  · rw [perform_issue s store valid] at h
    rcases hfound : found store w with ⟨_ | c, u⟩ <;> rw [hfound] at h <;> dsimp only at h
    · rw [(issueNew_ok h).1] at noop
      cases noop
    rcases hdue : u.perform (s.shouldIssue c) with ⟨e | _ | _, x⟩ <;> rw [hdue] at h <;>
      dsimp only at h
    · cases h
    · cases h
      exact ⟨c, u, x, rfl, hdue, rfl, rfl⟩
    · rw [(issueNew_ok h).1] at noop
      cases noop
  · rw [issue, if_pos valid] at h
    cases h

theorem readCert_of_noop {r : IssueResult} (h : w.perform (s.issue store args) = (.ok r, v))
    (noop : r.status = .noop) :
    ∃ c, (w.perform store.readCert).1 = .ok c ∧ r = ⟨.noop, some c, none⟩ := by
  obtain ⟨c, u, x, hfound, -, hr, -⟩ := shouldIssue_of_noop h noop
  exact ⟨c, congrArg Prod.fst (readCert_of_found hfound), hr⟩

theorem issueNew_error {e : LifecycleError} (hw : e ≠ .canceled)
    (h : w.perform (s.issueNew store args ex) = (.error e, v)) :
    (∃ cause, e = .authority .issue cause) ∨ (∃ text, e = .invalidData text) ∨
      ∃ cause, e = .writeFailed cause := by
  rw [perform_issueNew] at h
  split at h
  next hrequest =>
    cases h
    obtain rfl | ⟨cause, rfl⟩ := request_error hrequest
    · exact absurd rfl hw
    · exact .inl ⟨cause, rfl⟩
  split at h
  · cases h
    exact .inr (.inl ⟨_, rfl⟩)
  split at h
  · cases h
    exact .inr (.inr ⟨_, rfl⟩)
  · cases h

end Service

theorem issue_decides [Authority κ] [Slot σ (Run κ)] [Described σ] [Steady κ σ] (s : Service)
    (store : BundleStore σ) {args : IssueArgs} (valid : args.IsValid) {w : World κ}
    (live : (w.perform (s.issue store args)).2.canceled = false) :
    Decides s store args w where
  noop_iff := by
    constructor
    · rintro ⟨r, hr, hnoop⟩
      refine Classical.byContradiction fun h => ?_
      obtain ⟨u, hrun, -⟩ := issue_of_not_keeps valid live h
      have hissued := (issueNew_ok (hrun.symm.trans (Prod.ext hr rfl))).1
      rw [hnoop] at hissued
      cases hissued
    · rintro ⟨c, v, hread, hk⟩
      obtain ⟨u, hrun, -, -⟩ := issue_of_keeps valid hread hk
      exact ⟨_, congrArg Prod.fst hrun, rfl⟩
  kept hread hk := issue_of_keeps valid hread hk
  replaced h := by
    obtain ⟨u, hrun, hcalls⟩ := issue_of_not_keeps valid live h
    rw [hrun] at live ⊢
    rw [← hcalls]
    exact callsOf_lt_issueNew live
  fetched h := by
    obtain ⟨r, u, hasks⟩ := Operation.exists_asks_issue (.inl rfl) h
    cases hasks with
    | @chain _ _ c v _ stored unexpired =>
      rw [found_eq] at stored
      split at stored
      next hread =>
        cases stored
        exact ⟨_, _, hread, unexpired⟩
      next => cases stored
  existing {r} hr := by
    by_cases h : ∃ c v, w.perform store.readCert = (.ok c, v) ∧ Keeps s c v
    · obtain ⟨c, v, hread, hk⟩ := h
      obtain ⟨u, hrun, -, -⟩ := issue_of_keeps valid hread hk
      rw [hrun] at hr
      cases hr
      rw [hread]
      rfl
    · obtain ⟨u, hrun, -⟩ := issue_of_not_keeps valid live h
      exact (issueNew_ok (hrun.symm.trans (Prod.ext hr rfl))).2
  failed {e} he := by
    by_cases h : ∃ c v, w.perform store.readCert = (.ok c, v) ∧ Keeps s c v
    · obtain ⟨c, v, hread, hk⟩ := h
      obtain ⟨u, hrun, -, -⟩ := issue_of_keeps valid hread hk
      rw [hrun] at he
      cases he
    · obtain ⟨u, hrun, -⟩ := issue_of_not_keeps valid live h
      refine issueNew_error ?_ (hrun.symm.trans (Prod.ext he rfl))
      rintro rfl
      have hc := (abortable_issue s store args w _ (Prod.ext he rfl)).1
      rw [hc] at live
      cases live

def refusing : Script
  | .issue => [{ answer := .error ⟨true, .text "refused"⟩ }]
  | _ => []

theorem issue_decides_refused :
    let w : World Script := { authority := refusing, readings := fun _ => 0 }
    Decides { renewal := .fixed false } (.single (.combined (MemorySlot.mk "key")))
      { commonName := "a" } w :=
  issue_decides _ _ (by decide) (by decide +kernel)

end CertLifecycle
