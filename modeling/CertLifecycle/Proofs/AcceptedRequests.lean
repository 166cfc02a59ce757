import CertLifecycle.Proofs.ExchangeFailures

/-!
Whether the request itself was accepted where an exchange ends well. A redirect to a moved resource
drops the body on the way, and the last response then belongs to another request.
-/

namespace CertLifecycle

namespace Http

def DropsBody (status : Nat) : Prop := status = 301 ∨ status = 302 ∨ status = 303

namespace Peer

def Answered (p q : Peer) (sent : Request) (response : Response) : Prop :=
  ∃ earlier, p.received <+: earlier ∧ earlier ++ [sent] <+: q.received ∧
    p.answer (earlier ++ [sent]) = some response

def Succeeds (p q : Peer) : Prop :=
  ∃ sent response, p.Answered q sent response ∧ isSuccess response.status = true

def Accepts (p q : Peer) (body : Bytes) : Prop :=
  ∃ sent response, p.Answered q sent response ∧ isSuccess response.status = true ∧
    sent.method = .post ∧ sent.body = some body

def Diverts (p q : Peer) : Prop :=
  ∃ sent response, p.Answered q sent response ∧ DropsBody response.status ∧
    ∃ next, next? sent response = some next

variable {p q : Peer} {r sent : Request} {response : Response} {body : Bytes}

theorem not_answered_self : ¬ p.Answered p sent response := by
  rintro ⟨earlier, hearlier, hq, -⟩
  have h₁ := hearlier.length_le
  have h₂ := hq.length_le
  rw [List.length_append, List.length_singleton] at h₂
  omega

theorem answered_iff (hq : (p.after r).received <+: q.received) :
    p.Answered q sent response ↔
      (sent = r ∧ p.reply r = some response) ∨ (p.after r).Answered q sent response := by
  obtain ⟨more, hmore⟩ := hq
  constructor
  · rintro ⟨earlier, ⟨between, rfl⟩, ⟨rest, hrest⟩, hanswer⟩
    have hwhole : p.received ++ (between ++ [sent] ++ rest) = p.received ++ r :: more := by
      simpa [after] using hrest.trans hmore.symm
    have hlists : between ++ [sent] ++ rest = r :: more := List.append_cancel_left hwhole
    cases between with
    | nil =>
      obtain rfl : sent = r := (List.cons.inj hlists).1
      left
      exact ⟨rfl, by simpa [reply] using hanswer⟩
    | cons x between =>
      obtain rfl : x = r := (List.cons.inj hlists).1
      right
      refine ⟨p.received ++ x :: between, ⟨between, ?_⟩, ⟨rest, hrest⟩, hanswer⟩
      simp [after]
  · rintro (⟨rfl, hreply⟩ | ⟨earlier, hearlier, hsent, hanswer⟩)
    · exact ⟨p.received, List.prefix_rfl, ⟨more, hmore⟩, hreply⟩
    · have hp : p.received <+: (p.after r).received := List.prefix_append _ _
      exact ⟨earlier, hp.trans hearlier, hsent, hanswer⟩

theorem exists_answered_after (P : Request → Response → Prop) :
    (∃ sent response, p.Answered (p.after r) sent response ∧ P sent response) ↔
      ∃ response, p.reply r = some response ∧ P r response := by
  constructor
  · rintro ⟨sent, response, hanswered, hP⟩
    rcases (answered_iff List.prefix_rfl).mp hanswered with ⟨rfl, hr⟩ | hself
    · exact ⟨response, hr, hP⟩
    · exact absurd hself not_answered_self
  · rintro ⟨response, hr, hP⟩
    exact ⟨r, response, (answered_iff List.prefix_rfl).mpr (.inl ⟨rfl, hr⟩), hP⟩

theorem exists_answered_iff (hq : (p.after r).received <+: q.received) (hr : p.reply r = some response)
    (P : Request → Response → Prop) :
    (∃ sent response, p.Answered q sent response ∧ P sent response) ↔
      P r response ∨ ∃ sent response, (p.after r).Answered q sent response ∧ P sent response := by
  constructor
  · rintro ⟨sent, response', hanswered, hP⟩
    rcases (answered_iff hq).mp hanswered with ⟨rfl, hr'⟩ | hlater
    · obtain rfl : response = response' := Option.some.inj (hr.symm.trans hr')
      exact .inl hP
    · exact .inr ⟨sent, response', hlater, hP⟩
  · rintro (hP | ⟨sent, response', hlater, hP⟩)
    · exact ⟨r, response, (answered_iff hq).mpr (.inl ⟨rfl, hr⟩), hP⟩
    · exact ⟨sent, response', (answered_iff hq).mpr (.inr hlater), hP⟩

end Peer

inductive Exchanged : Request → Peer → Except HttpError Response × Peer → Prop
  | lost {r : Request} {p : Peer} (reply : p.reply r = none) :
    Exchanged r p (.error .transport, p.after r)
  | final {r : Request} {p : Peer} {response : Response} (reply : p.reply r = some response)
    (last : next? r response = none) : Exchanged r p (.ok response, p.after r)
  | abandoned {r next : Request} {p : Peer} {response : Response} (e : HttpError)
    (reply : p.reply r = some response) (moved : next? r response = some next) :
    Exchanged r p (.error e, p.after r)
  | redirected {r next : Request} {p : Peer} {response : Response}
    {o : Except HttpError Response × Peer} (reply : p.reply r = some response)
    (moved : next? r response = some next) (more : Exchanged next (p.after r) o) :
    Exchanged r p o

theorem exchanged_follow (left : Nat) (r : Request) (p : Peer) :
    Exchanged r p ((follow left r : StateM Peer _).run p) := by
  induction left generalizing r p with
  | zero =>
    rw [run_follow]
    cases hreply : p.reply r with
    | none => exact .lost hreply
    | some response =>
      dsimp only
      cases hnext : next? r response with
      | none => exact .final hreply hnext
      | some next => exact .abandoned _ hreply hnext
  | succ left ih =>
    rw [run_follow]
    cases hreply : p.reply r with
    | none => exact .lost hreply
    | some response =>
      dsimp only
      cases hnext : next? r response with
      | none => exact .final hreply hnext
      | some next =>
        dsimp only
        split
        · exact .redirected hreply hnext (ih next (p.after r))
        · exact .abandoned _ hreply hnext

theorem status_of_next? {r next : Request} {response : Response}
    (h : next? r response = some next) : isSuccess response.status = false := by
  simp only [next?, bind, Option.bind_eq_some_iff] at h
  obtain ⟨moved, hmoved, -⟩ := h
  have hstatus : 300 ≤ response.status := by
    unfold redirected? at hmoved
    split at hmoved
    · omega
    · split at hmoved
      · omega
      · cases hmoved
  simp only [isSuccess, Bool.and_eq_false_iff, decide_eq_false_iff_not]
  omega

theorem next?_cases {r next : Request} {response : Response} (h : next? r response = some next) :
    (¬ DropsBody response.status ∧ next.method = r.method ∧ next.body = r.body) ∨
      (DropsBody response.status ∧ next.body = none) := by
  simp only [next?, bind, Option.bind_eq_some_iff] at h
  obtain ⟨moved, hmoved, -, -, url, -, h⟩ := h
  cases h
  unfold redirected? at hmoved
  split at hmoved
  next hdrops =>
    cases hmoved
    exact .inr ⟨hdrops, rfl⟩
  next hkeeps =>
    split at hmoved
    · cases hmoved
      exact .inl ⟨hkeeps, rfl, rfl⟩
    · cases hmoved

namespace Exchanged

variable {r : Request} {p : Peer} {o : Except HttpError Response × Peer} {body : Bytes}

theorem received (h : Exchanged r p o) : (p.after r).received <+: o.2.received := by
  induction h with
  | lost | final | abandoned => exact List.prefix_rfl
  | redirected _ _ _ ih => exact (List.prefix_append _ _).trans ih

theorem succeeds_iff (h : Exchanged r p o) :
    p.Succeeds o.2 ↔ ∃ response, o.1 = .ok response ∧ isSuccess response.status = true := by
  unfold Peer.Succeeds
  induction h with
  | lost reply => rw [Peer.exists_answered_after, reply]; simp
  | final reply last => rw [Peer.exists_answered_after, reply]; simp
  | abandoned e reply moved =>
    rw [Peer.exists_answered_after, reply]
    simp [status_of_next? moved]
  | redirected reply moved more ih =>
    rw [Peer.exists_answered_iff ((List.prefix_append _ _).trans more.received) reply, ih,
      status_of_next? moved]
    simp

theorem not_accepts_of_body_none (h : Exchanged r p o) (hr : r.body = none) :
    ¬ p.Accepts o.2 body := by
  unfold Peer.Accepts
  induction h with
  | lost | final | abandoned => rw [Peer.exists_answered_after]; simp [hr]
  | redirected reply moved more ih =>
    have hnext := next?_cases moved
    rw [hr] at hnext
    rw [Peer.exists_answered_iff ((List.prefix_append _ _).trans more.received) reply]
    rintro (⟨-, -, hbody⟩ | hlater)
    · rw [hr] at hbody
      cases hbody
    · refine ih ?_ hlater
      rcases hnext with ⟨-, -, hb⟩ | ⟨-, hb⟩ <;> exact hb

theorem accepts_iff (h : Exchanged r p o) (hmethod : r.method = .post) (hbody : r.body = some body) :
    p.Accepts o.2 body ↔
      (∃ response, o.1 = .ok response ∧ isSuccess response.status = true) ∧ ¬ p.Diverts o.2 := by
  induction h with
  | lost reply =>
    unfold Peer.Accepts
    rw [Peer.exists_answered_after, reply]
    simp
  | final reply last =>
    unfold Peer.Accepts Peer.Diverts
    rw [Peer.exists_answered_after, Peer.exists_answered_after, reply]
    simp [hmethod, hbody, last]
  | abandoned e reply moved =>
    unfold Peer.Accepts
    rw [Peer.exists_answered_after, reply]
    simp [status_of_next? moved]
  | @redirected r next p response o reply moved more ih =>
    have hreceived : (p.after r).received <+: o.2.received :=
      (List.prefix_append _ _).trans more.received
    have haccepts : p.Accepts o.2 body ↔ (p.after r).Accepts o.2 body := by
      unfold Peer.Accepts
      rw [Peer.exists_answered_iff hreceived reply, status_of_next? moved]
      simp
    have hdiverts : p.Diverts o.2 ↔
        DropsBody response.status ∨ (p.after r).Diverts o.2 := by
      unfold Peer.Diverts
      rw [Peer.exists_answered_iff hreceived reply]
      simp [moved]
    rw [haccepts, hdiverts]
    rcases next?_cases moved with ⟨hkeeps, hm, hb⟩ | ⟨hdrops, hb⟩
    · rw [ih (hm.trans hmethod) (hb.trans hbody)]
      simp [hkeeps]
    · simp [hdrops, more.not_accepts_of_body_none hb]

end Exchanged

end Http

namespace VaultClient

open Http Vault Json

variable {k : CaMethod}

def served (c : VaultClient) (r : CaRequest k) (p : Peer) : Peer :=
  ((c.ask r : ExceptT VaultError (StateM Peer) _).run.run p).2

structure Settlement (c : VaultClient) (r : CaRequest k) (body : Tree) (p : Peer) : Prop where
  succeeds : (∃ a, c.asked r p = .ok a) ↔ p.Succeeds (c.served r p)
  accepted : p.Accepts (c.served r p) (Utf8.encode body.text) ↔
    (∃ a, c.asked r p = .ok a) ∧ ¬ p.Diverts (c.served r p)

theorem run_send_of_unsendable {c : VaultClient} {method : Method} {path : String}
    {body : Option Tree}
    (h : (Http.send method (c.config.url path) (c.headers body)
      (body.map fun t => Utf8.encode t.text) : StateM Peer _) = pure (.error .request)) (p : Peer) :
    (c.send method path body : ExceptT VaultError (StateM Peer) _).run.run p =
      (.error (.http .request), p) := by
  rw [send, ExceptT.run_mk]
  change (Http.send method (c.config.url path) (c.headers body)
    (body.map fun t => Utf8.encode t.text) >>= _ : StateM Peer _).run p = _
  rw [h]
  rfl

theorem run_ask_of_no_opening {c : VaultClient} {r : CaRequest k} {method : Method} {path : String}
    {body : Option Tree} (hendpoint : c.endpoint? r = some (method, path, body))
    (h : c.opening? r = none) (p : Peer) :
    (c.ask r : ExceptT VaultError (StateM Peer) _).run.run p = (.error (.http .request), p) := by
  have hsend : (Http.send method (c.config.url path) (c.headers body)
      (body.map fun t => Utf8.encode t.text) : StateM Peer _) = pure (.error .request) := by
    unfold Http.send
    split
    next url hurl =>
      split
      next hheaders =>
        have hheaders' : (c.headers body).all (isHeaderValue ·.2) = true := hheaders
        simp [opening?, hendpoint, hurl, hheaders'] at h
      next => rfl
    next => rfl
  rw [ask_eq c hendpoint, ExceptT.run_bind, run_bind, run_send_of_unsendable hsend]
  rfl

theorem method_of_opening {c : VaultClient} {r : CaRequest k} {method : Method} {path : String}
    {body : Option Tree} {first : Request} (hendpoint : c.endpoint? r = some (method, path, body))
    (h : c.opening? r = some first) :
    first.method = method ∧ first.body = body.map fun t => Utf8.encode t.text := by
  simp only [opening?, hendpoint, bind, Option.bind_some, Option.bind_eq_some_iff] at h
  obtain ⟨url, -, h⟩ := h
  split at h
  next => cases h; exact ⟨rfl, rfl⟩
  next => cases h

theorem settlement (c : VaultClient) {r : CaRequest k} {path : String} {body : Tree}
    (hendpoint : c.endpoint? r = some (.post, path, some body))
    (hreading : ∀ response, ∃ a, reading r response = .ok a) (p : Peer) :
    c.Settlement r body p := by
  cases hopening : c.opening? r with
  | none =>
    have hrun := run_ask_of_no_opening hendpoint hopening p
    have hserved : c.served r p = p := congrArg Prod.snd hrun
    have hasked : c.asked r p = .error (.http .request) := congrArg Prod.fst hrun
    constructor
    · rw [hserved, hasked]
      constructor
      · rintro ⟨a, ha⟩
        cases ha
      · rintro ⟨_, _, h, -⟩
        exact absurd h Peer.not_answered_self
    · rw [hserved, hasked]
      constructor
      · rintro ⟨_, _, h, -⟩
        exact absurd h Peer.not_answered_self
      · rintro ⟨⟨a, ha⟩, -⟩
        cases ha
  | some first =>
    have hrun := run_ask_of_opening hopening p
    have hexchanged := exchanged_follow maxRedirects first p
    generalize (follow maxRedirects first : StateM Peer _).run p = o at hrun hexchanged
    have hserved : c.served r p = o.2 := congrArg Prod.snd hrun
    have hasked : c.asked r p = outcome o.1 >>= reading r := congrArg Prod.fst hrun
    have hok : (∃ a, c.asked r p = .ok a) ↔
        ∃ response, o.1 = .ok response ∧ isSuccess response.status = true := by
      rw [hasked]
      cases o.1 with
      | error e => simp [outcome, bind, Except.bind]
      | ok response =>
        obtain ⟨a, ha⟩ := hreading response
        cases hstatus : isSuccess response.status <;>
          simp [outcome, accepted, hstatus, bind, Except.bind, ha]
    have hfirst := method_of_opening hendpoint hopening
    constructor
    · rw [hok, hserved]
      exact hexchanged.succeeds_iff.symm
    · rw [hok, hserved]
      exact hexchanged.accepts_iff hfirst.1 hfirst.2

theorem settlement_of_effects (c : VaultClient) (serial : String) (p : Peer) :
    c.Settlement (.revoke serial) (revokeRequest serial) p ∧ c.Settlement .tidy tidyRequest p :=
  ⟨c.settlement rfl (fun _ => ⟨_, rfl⟩) p, c.settlement rfl (fun _ => ⟨_, rfl⟩) p⟩

def toMovedPage : Response := ⟨302, some (Utf8.encode "/ui/"), some []⟩

def diverting : Peer where
  answer received := if received.length = 1 then some toMovedPage else some ⟨200, none, some []⟩

theorem exists_opening_moved :
    ∃ first next, nearbyClient.opening? (.revoke "17:b5") = some first ∧
      next? first toMovedPage = some next ∧ isHttp next.url = true := by
  have h : ((nearbyClient.opening? (.revoke "17:b5")).any fun first =>
      (next? first toMovedPage).any (isHttp ·.url)) = true := by decide +kernel
  obtain ⟨first, hfirst, h⟩ := (Option.any_eq_true _ _).mp h
  obtain ⟨next, hnext, hhttp⟩ := (Option.any_eq_true _ _).mp h
  exact ⟨first, next, hfirst, hnext, hhttp⟩

theorem exists_revoked_unaccepted :
    ∃ p, nearbyClient.asked (.revoke "17:b5") p = .ok () ∧
      ¬ p.Accepts (nearbyClient.served (.revoke "17:b5") p)
        (Utf8.encode (revokeRequest "17:b5").text) := by
  obtain ⟨first, next, hfirst, hnext, hhttp⟩ := exists_opening_moved
  have hreply : diverting.reply first = some toMovedPage := rfl
  refine ⟨diverting, ?_, ?_⟩
  · have hends : first.EndsWith diverting ⟨200, none, some []⟩ :=
      ⟨1, next, _, by decide, .there hreply hnext hhttp .here, rfl, rfl⟩
    rw [asked_of_endsWith hfirst hends]
    rfl
  · have hsettled : nearbyClient.Settlement (.revoke "17:b5") (revokeRequest "17:b5") diverting :=
      nearbyClient.settlement rfl (fun _ => ⟨_, rfl⟩) diverting
    have hserved : nearbyClient.served (.revoke "17:b5") diverting =
        ((follow maxRedirects first : StateM Peer _).run diverting).2 :=
      congrArg Prod.snd (run_ask_of_opening hfirst diverting)
    have hreceived := (exchanged_follow maxRedirects first diverting).received
    rw [← hserved] at hreceived
    rw [hsettled.accepted]
    rintro ⟨-, hstraight⟩
    apply hstraight
    exact ⟨first, toMovedPage, (Peer.answered_iff hreceived).mpr (.inl ⟨rfl, hreply⟩),
      .inr (.inl rfl), next, hnext⟩

end VaultClient

end CertLifecycle
