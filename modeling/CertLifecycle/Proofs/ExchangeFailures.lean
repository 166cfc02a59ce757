import CertLifecycle.Proofs.OperationCalls
import CertLifecycle.Proofs.ServerExchanges

namespace CertLifecycle

open World Retry Http

variable {k : CaMethod}

def CaMethod.readsBody : CaMethod → Bool
  | .revoke | .tidy => false
  | _ => true

namespace Remote

def answer (remote : Remote) (r : CaRequest k) : Except CaError k.Answer :=
  (Authority.respond remote r).1.answer

theorem answer_eq (remote : Remote) (r : CaRequest k) :
    remote.answer r = (remote.client.asked r remote.peer).mapError .ofVault := rfl

theorem answerAt_eq (r : CaRequest k) (w : World Remote) (n : Nat) :
    answerAt r w n = (authorityAfter r n w.authority).answer r := rfl

def Receives (remote : Remote) (r : CaRequest k) (response : Response) : Prop :=
  ∃ first, remote.client.opening? r = some first ∧ first.EndsWith remote.peer response

def Unanswered (remote : Remote) (r : CaRequest k) : Prop :=
  ∃ first, remote.client.opening? r = some first ∧ first.Unanswered remote.peer

def CutShort (remote : Remote) (r : CaRequest k) : Prop :=
  ∃ response, remote.Receives r response ∧ isSuccess response.status = true ∧ response.body = none

def Refuses (remote : Remote) (r : CaRequest k) (status : Nat) : Prop :=
  ∃ response, remote.Receives r response ∧ response.status = status ∧
    ¬ (200 ≤ status ∧ status < 300)

variable {remote : Remote} {r : CaRequest k} {status : Nat}

theorem asked_of_receives {response : Response} (h : remote.Receives r response) :
    remote.client.asked r remote.peer =
      VaultClient.accepted response >>= VaultClient.reading r := by
  obtain ⟨first, hfirst, hend⟩ := h
  exact VaultClient.asked_of_endsWith hfirst hend

theorem asked_of_refuses (h : remote.Refuses r status) :
    ∃ detail, remote.client.asked r remote.peer = .error (.status status detail) := by
  obtain ⟨response, hreceived, rfl, hstatus⟩ := h
  have hrefused : isSuccess response.status = false := by
    simpa [isSuccess] using hstatus
  refine ⟨VaultClient.refusal response, ?_⟩
  rw [asked_of_receives hreceived, VaultClient.accepted, hrefused]
  rfl

theorem answer_of_unanswered (h : remote.Unanswered r) :
    remote.answer r = .error (.ofVault (.http .transport)) := by
  obtain ⟨first, hfirst, hend⟩ := h
  rw [answer_eq, VaultClient.asked_of_unanswered hfirst hend]
  rfl

theorem bodyOf_none {response : Response} (h : response.body = none) :
    VaultClient.bodyOf response = .error (.http .body) := by
  rw [VaultClient.bodyOf, h]

theorem reading_of_cut {response : Response} (h : response.body = none)
    (hreads : k.readsBody = true) : VaultClient.reading r response = .error (.http .body) := by
  cases r with
  | revoke | tidy => cases hreads
  | _ => rw [VaultClient.reading, bodyOf_none h] <;> rfl

theorem exists_reading (response : Response) (hreads : k.readsBody = false) :
    ∃ a, VaultClient.reading r response = .ok a := by
  cases r with
  | revoke | tidy => exact ⟨_, rfl⟩
  | _ => cases hreads

theorem asked_of_cutShort (h : remote.CutShort r) :
    ∃ response, response.body = none ∧
      remote.client.asked r remote.peer = VaultClient.reading r response := by
  obtain ⟨response, hreceived, hsuccess, hcut⟩ := h
  refine ⟨response, hcut, ?_⟩
  rw [asked_of_receives hreceived, VaultClient.accepted, if_pos hsuccess]
  rfl

theorem answer_of_cutShort (h : remote.CutShort r) (hreads : k.readsBody = true) :
    remote.answer r = .error (.ofVault (.http .body)) := by
  obtain ⟨response, hcut, hasked⟩ := asked_of_cutShort h
  rw [answer_eq, hasked, reading_of_cut hcut hreads]
  rfl

theorem exists_answer_of_cutShort (h : remote.CutShort r) (hreads : k.readsBody = false) :
    ∃ a, remote.answer r = .ok a := by
  obtain ⟨response, -, hasked⟩ := asked_of_cutShort h
  obtain ⟨a, ha⟩ := exists_reading (r := r) response hreads
  refine ⟨a, ?_⟩
  rw [answer_eq, hasked, ha]
  rfl

def RefusesForGood (status : Nat) : Prop := 400 ≤ status ∧ status < 500 ∧ status ≠ 429

theorem permanent_ofVault_status (status : Nat) (detail : String) :
    (CaError.ofVault (.status status detail)).permanent = true ↔ RefusesForGood status := by
  simp [CaError.ofVault, VaultError.isPermanent, RefusesForGood, and_assoc]

end Remote

open Remote

section Calls

variable {σ : Type} [Slot σ (Run Remote)] [Described σ] [Steady Remote σ]
variable {s : Service} {op : Operation σ} {r : CaRequest k} {v w : World Remote}

theorem callsOf_action (h : op.Asks s v r w) :
    (v.perform (op.action s)).2.callsOf k =
      ((Iteration.first s.retry w).outcome s.retry r).2.callsOf k := by
  rw [Operation.callsOf_action_of_asks h, Service.callsOf_request]

theorem callsOf_action_le (h : op.Asks s v r w) :
    (v.perform (op.action s)).2.callsOf k ≤ v.callsOf k + (s.retry.maxRetries.toNat + 1) := by
  rw [callsOf_action h, ← Operation.callsOf_of_asks h]
  exact Iteration.callsOf_outcome_le s.retry r w

variable (live : ((Iteration.first s.retry w).outcome s.retry r).2.canceled = false)

include live

theorem callsOf_action_of_permanent (h : op.Asks s v r w) {e : CaError}
    (hanswer : w.authority.answer r = .error e) (hp : e.permanent = true) :
    (v.perform (op.action s)).2.callsOf k = v.callsOf k + 1 := by
  have hfinal : Final (answerAt r w 0) := by
    have hfirst : answerAt r w 0 = .error e := hanswer
    rw [hfirst]
    exact hp
  rw [callsOf_action h, Iteration.callsOf_of_final live hfinal, Operation.callsOf_of_asks h]

theorem callsOf_action_of_retryable (h : op.Asks s v r w) {e : CaError}
    (hanswer : w.authority.answer r = .error e) (hp : e.permanent = false)
    (more : s.retry.maxRetries ≠ 0) :
    v.callsOf k + 2 ≤ (v.perform (op.action s)).2.callsOf k := by
  have hretryable : ¬ Final (answerAt r w 0) := by
    have hfirst : answerAt r w 0 = .error e := hanswer
    rw [hfirst]
    exact Bool.eq_false_iff.mp hp
  rw [callsOf_action h, ← Operation.callsOf_of_asks h]
  exact Iteration.callsOf_of_retryable live hretryable more

end Calls

/-- Whatever else is in a refusal, its status decides how the request ends. -/
structure SettledByStatus (remote : Remote) (r : CaRequest k) (status : Nat) : Prop where
  failed : ∃ detail, remote.client.asked r remote.peer = .error (.status status detail) ∧
    remote.answer r = .error (.ofVault (.status status detail)) ∧
    ((CaError.ofVault (.status status detail)).permanent = true ↔ RefusesForGood status)
  -- A refusal for good is not asked for again.
  once : RefusesForGood status → ∀ {σ : Type} [Slot σ (Run Remote)] [Described σ]
    [Steady Remote σ] {s : Service} {op : Operation σ} {v w : World Remote}, op.Asks s v r w →
    w.authority = remote → ((Iteration.first s.retry w).outcome s.retry r).2.canceled = false →
    (v.perform (op.action s)).2.callsOf k = v.callsOf k + 1
  -- Any other is asked for again as often as retries allow.
  again : ¬ RefusesForGood status → ∀ {σ : Type} [Slot σ (Run Remote)] [Described σ]
    [Steady Remote σ] {s : Service} {op : Operation σ} {v w : World Remote}, op.Asks s v r w →
    w.authority = remote →
    (v.perform (op.action s)).2.callsOf k ≤ v.callsOf k + (s.retry.maxRetries.toNat + 1) ∧
    (((Iteration.first s.retry w).outcome s.retry r).2.canceled = false →
      (s.retry.maxRetries ≠ 0 → v.callsOf k + 2 ≤ (v.perform (op.action s)).2.callsOf k) ∧
      ((∀ n ≤ s.retry.maxRetries.toNat, ∃ status, ¬ RefusesForGood status ∧
          (authorityAfter r n remote).Refuses r status) →
        (v.perform (op.action s)).2.callsOf k = v.callsOf k + (s.retry.maxRetries.toNat + 1)))

theorem settledByStatus_of_refuses {remote : Remote} {r : CaRequest k} {status : Nat}
    (h : remote.Refuses r status) : SettledByStatus remote r status := by
  have hanswer {remote : Remote} {status : Nat} (h : remote.Refuses r status) :
      ∃ e, remote.answer r = .error e ∧ (e.permanent = true ↔ RefusesForGood status) := by
    obtain ⟨detail, hasked⟩ := asked_of_refuses h
    exact ⟨_, by rw [answer_eq, hasked]; rfl, permanent_ofVault_status status detail⟩
  obtain ⟨e, he, hp⟩ := hanswer h
  constructor
  · obtain ⟨detail, hasked⟩ := asked_of_refuses h
    exact ⟨detail, hasked, by rw [answer_eq, hasked]; rfl, permanent_ofVault_status status detail⟩
  · intro hgood σ _ _ _ s op v w hasks hw live
    exact callsOf_action_of_permanent live hasks (hw ▸ he) (hp.mpr hgood)
  · intro hpasses σ _ _ _ s op v w hasks hw
    refine ⟨callsOf_action_le hasks, fun live => ⟨fun more => ?_, fun hall => ?_⟩⟩
    · have hretryable : e.permanent = false := by
        rw [Bool.eq_false_iff]
        exact fun h => hpasses (hp.mp h)
      exact callsOf_action_of_retryable live hasks (hw ▸ he) hretryable more
    · rw [callsOf_action hasks, ← Operation.callsOf_of_asks hasks]
      refine Iteration.callsOf_of_all_retryable live fun n hn => ?_
      obtain ⟨status, hpasses, hrefuses⟩ := hall n hn
      obtain ⟨e, he, hp⟩ := hanswer hrefuses
      rw [answerAt_eq, hw, he]
      exact fun h => hpasses (hp.mp h)

def nearbyClient : VaultClient := ⟨{ address := "http://a", token := "t", role := "r" }⟩

def steadily (answer : Option Response) : Remote := ⟨nearbyClient, { answer := fun _ => answer }⟩

theorem exists_opening : ∃ first, nearbyClient.opening? (.fetchCa false) = some first :=
  Option.isSome_iff_exists.mp (by decide +kernel)

theorem unanswered_steadily : (steadily none).Unanswered (.fetchCa false) := by
  obtain ⟨first, hfirst⟩ := exists_opening
  exact ⟨first, hfirst, 0, first, _, Nat.zero_le _, .here, rfl⟩

theorem receives_steadily {response : Response} (h : ∀ r, next? r response = none) :
    (steadily (some response)).Receives (.fetchCa false) response := by
  obtain ⟨first, hfirst⟩ := exists_opening
  exact ⟨first, hfirst, 0, first, _, Nat.zero_le _, .here, rfl, h first⟩

theorem settledByStatus_of_forbidden :
    SettledByStatus (steadily (some ⟨403, none, none⟩)) (.fetchCa false) 403 :=
  settledByStatus_of_refuses ⟨_, receives_steadily fun _ => rfl, rfl, by decide⟩

structure LostExchange (remote : Remote) (r : CaRequest k) : Prop where
  -- Two of the methods are content without the body.
  failed : (∃ e, remote.answer r = .error e) ↔ remote.Unanswered r ∨ k.readsBody = true
  retryable : ∀ {e : CaError}, remote.answer r = .error e →
    (e.permanent = false ↔ remote.Unanswered r)
  again : remote.Unanswered r → ∀ {σ : Type} [Slot σ (Run Remote)] [Described σ]
    [Steady Remote σ] {s : Service} {op : Operation σ} {v w : World Remote}, op.Asks s v r w →
    w.authority = remote → ((Iteration.first s.retry w).outcome s.retry r).2.canceled = false →
    s.retry.maxRetries ≠ 0 → v.callsOf k + 2 ≤ (v.perform (op.action s)).2.callsOf k
  once : remote.CutShort r → k.readsBody = true → ∀ {σ : Type} [Slot σ (Run Remote)] [Described σ]
    [Steady Remote σ] {s : Service} {op : Operation σ} {v w : World Remote}, op.Asks s v r w →
    w.authority = remote → ((Iteration.first s.retry w).outcome s.retry r).2.canceled = false →
    (v.perform (op.action s)).2.callsOf k = v.callsOf k + 1

theorem lostExchange {remote : Remote} {r : CaRequest k}
    (h : remote.Unanswered r ∨ remote.CutShort r) : LostExchange remote r where
  failed := by
    constructor
    · rintro ⟨e, he⟩
      rcases h with h | h
      · exact .inl h
      · cases hreads : k.readsBody with
        | true => exact .inr rfl
        | false =>
          obtain ⟨a, ha⟩ := exists_answer_of_cutShort h hreads
          rw [ha] at he
          cases he
    · rintro (h' | hreads)
      · exact ⟨_, answer_of_unanswered h'⟩
      · rcases h with h | h
        · exact ⟨_, answer_of_unanswered h⟩
        · exact ⟨_, answer_of_cutShort h hreads⟩
  retryable {e} he := by
    constructor
    · intro hp
      refine h.resolve_right fun hcut => ?_
      cases hreads : k.readsBody with
      | true =>
        rw [answer_of_cutShort hcut hreads] at he
        cases he
        cases hp
      | false =>
        obtain ⟨a, ha⟩ := exists_answer_of_cutShort hcut hreads
        rw [ha] at he
        cases he
    · intro h'
      rw [answer_of_unanswered h'] at he
      cases he
      rfl
  again h' {σ _ _ _ s op v w} hasks hw live more :=
    callsOf_action_of_retryable live hasks (hw ▸ answer_of_unanswered h') rfl more
  once hcut hreads {σ _ _ _ s op v w} hasks hw live :=
    callsOf_action_of_permanent live hasks (hw ▸ answer_of_cutShort hcut hreads) rfl

theorem cutShort_steadily : (steadily (some ⟨200, none, none⟩)).CutShort (.fetchCa false) :=
  ⟨_, receives_steadily fun _ => rfl, rfl, rfl⟩

theorem lostExchange_steadily :
    LostExchange (steadily none) (.fetchCa false) ∧
      LostExchange (steadily (some ⟨200, none, none⟩)) (.fetchCa false) :=
  ⟨lostExchange (.inl unanswered_steadily), lostExchange (.inr cutShort_steadily)⟩

theorem exists_permanent_of_cutShort :
    (steadily (some ⟨200, none, none⟩)).CutShort (.fetchCa false) ∧
      ∃ e, (steadily (some ⟨200, none, none⟩)).answer (.fetchCa false) = .error e ∧
        e.permanent = true :=
  ⟨cutShort_steadily, _, answer_of_cutShort cutShort_steadily rfl, rfl⟩

end CertLifecycle
