import CertLifecycle.World

namespace CertLifecycle

namespace Http

def Peer.after (p : Peer) (r : Request) : Peer := { p with received := p.received ++ [r] }

def Peer.reply (p : Peer) (r : Request) : Option Response := p.answer (p.received ++ [r])

theorem run_bind {α β : Type} (a : StateM Peer α) (f : α → StateM Peer β) (p : Peer) :
    (a >>= f).run p = (f (a.run p).1).run (a.run p).2 := rfl

theorem run_exchange (r : Request) (p : Peer) :
    (Exchange.exchange r : StateM Peer _).run p = (p.reply r, p.after r) := rfl

theorem run_follow (left : Nat) (r : Request) (p : Peer) :
    (follow left r : StateM Peer _).run p = match p.reply r with
      | none => (.error .transport, p.after r)
      | some response => match next? r response with
        | none => (.ok response, p.after r)
        | some next => match left with
          | 0 => (.error .tooManyRedirects, p.after r)
          | left + 1 =>
            if isHttp next.url = true then (follow left next : StateM Peer _).run (p.after r)
            else (.error .request, p.after r) := by
  rw [follow.eq_def, run_bind, run_exchange]
  cases p.reply r with
  | none => rfl
  | some response =>
    dsimp only
    cases next? r response with
    | none => rfl
    | some next =>
      cases left with
      | zero => rfl
      | succ left =>
        dsimp only
        split <;> rfl

namespace Request

variable {r last : Request} {p q : Peer} {response : Response} {n : Nat}

inductive Redirected : Nat → Request → Peer → Request → Peer → Prop
  | here {r : Request} {p : Peer} : Redirected 0 r p r p
  | there {n : Nat} {r next last : Request} {p q : Peer} {response : Response}
      (reply : p.reply r = some response)
      (moved : next? r response = some next) (http : isHttp next.url = true)
      (more : Redirected n next (p.after r) last q) : Redirected (n + 1) r p last q

def EndsWith (r : Request) (p : Peer) (response : Response) : Prop :=
  ∃ n last q, n ≤ maxRedirects ∧ Redirected n r p last q ∧ q.reply last = some response ∧
    next? last response = none

def Unanswered (r : Request) (p : Peer) : Prop :=
  ∃ n last q, n ≤ maxRedirects ∧ Redirected n r p last q ∧ q.reply last = none

theorem run_follow_of_redirected (h : Redirected n r p last q) (left : Nat) :
    (follow (left + n) r : StateM Peer _).run p = (follow left last : StateM Peer _).run q := by
  induction h with
  | here => rfl
  | there reply moved http more ih =>
    rw [run_follow, reply]
    simp only [moved, http, if_true]
    exact ih

theorem run_follow_of_endsWith (h : r.EndsWith p response) :
    ((follow maxRedirects r : StateM Peer _).run p).1 = .ok response := by
  obtain ⟨n, last, q, hn, hlast, hreply, hfinal⟩ := h
  have hrun := run_follow_of_redirected hlast (maxRedirects - n)
  rw [Nat.sub_add_cancel hn] at hrun
  rw [hrun, run_follow, hreply]
  simp only [hfinal]

theorem run_follow_of_unanswered (h : r.Unanswered p) :
    ((follow maxRedirects r : StateM Peer _).run p).1 = .error .transport := by
  obtain ⟨n, last, q, hn, hlast, hreply⟩ := h
  have hrun := run_follow_of_redirected hlast (maxRedirects - n)
  rw [Nat.sub_add_cancel hn] at hrun
  rw [hrun, run_follow, hreply]

end Request

end Http

namespace VaultClient

open Http Vault Json

variable {k : CaMethod}

/-- Where on the server a request goes, and what it carries; nowhere with a signing request that is
no text. -/
def endpoint? (c : VaultClient) : CaRequest k → Option (Method × String × Option Tree)
  | .issue args =>
    some (.post, c.config.pkiPath ("issue" ++ "/" ++ c.config.role),
      some (certificateRequest args none))
  | .sign csr args => (Utf8.decode? csr).map fun csr =>
    (.post, c.config.pkiPath ("sign" ++ "/" ++ c.config.role),
      some (certificateRequest args (some csr)))
  | .revoke serial => some (.post, c.config.pkiPath "revoke", some (revokeRequest serial))
  | .tidy => some (.post, c.config.pkiPath "tidy", some tidyRequest)
  | .readAcme commonName => some (.get, c.config.acmePath commonName, none)
  | .fetchCaChain => some (.get, c.config.pkiPath "ca_chain", none)
  | .fetchCa binary => some (.get, c.config.pkiPath (blobEndpoint "ca" binary), none)
  | .fetchCrl binary => some (.get, c.config.pkiPath (blobEndpoint "crl" binary), none)

def headers (c : VaultClient) (body : Option Tree) : List (String × String) :=
  (body.map fun _ => (contentType, "application/json")).toList ++
    [("X-Vault-Token", c.config.token)]

def request (c : VaultClient) (method : Method) (url : Url) (body : Option Tree) : Request :=
  ⟨method, url, c.headers body, body.map fun t => Utf8.encode t.text⟩

def opening? (c : VaultClient) (r : CaRequest k) : Option Request := do
  let (method, path, body) ← c.endpoint? r
  let url ← (Url.parse? (c.config.url path)).filter fun u => isHttp u && isSendable u
  if (c.headers body).all (isHeaderValue ·.2) then some (c.request method url body) else none

def reading : CaRequest k → Response → Except VaultError k.Answer
  | .issue _, response => do
    let d ← bodyOf response >>= decoded (decodeEnvelope IssuedData.ofTree)
    return ⟨Utf8.encode d.certificate, nonEmpty d.privateKey, d.caData⟩
  | .sign _ _, response => do
    let d ← bodyOf response >>= decoded (decodeEnvelope IssuedData.ofTree)
    match d.serialNumber.filter (· ≠ "") with
    | some serial => return ⟨Utf8.encode d.certificate, d.caData, serial⟩
    | none => throw (.missingField "serial_number")
  | .revoke _, _ => .ok ()
  | .tidy, _ => .ok ()
  | .readAcme _, response => do
    let s ← bodyOf response >>= decoded (decodeEnvelope (decodeEnvelope AcmeSecret.ofTree))
    if s.certificate = "" then throw (.missingField "certificate")
    return ⟨Utf8.encode s.certificate, nonEmpty s.privateKey, nonEmpty s.issuer⟩
  | .fetchCaChain, response => bodyOf response
  | .fetchCa _, response => bodyOf response
  | .fetchCrl _, response => bodyOf response

section

variable {m : Type → Type} [Monad m] [LawfulMonad m]

theorem lift_bind {ε α β : Type} (x : Except ε α) (f : α → ExceptT ε m β) :
    ((ExceptT.mk (pure x) : ExceptT ε m α) >>= f) = match x with
      | .ok a => f a
      | .error e => ExceptT.mk (pure (.error e)) := by
  apply ExceptT.ext
  rw [ExceptT.run_bind, ExceptT.run_mk, pure_bind]
  cases x <;> rfl

theorem ask_eq [Exchange m] (c : VaultClient) {r : CaRequest k} {method : Method} {path : String}
    {body : Option Tree} (h : c.endpoint? r = some (method, path, body)) :
    (c.ask r : ExceptT VaultError m k.Answer) =
      c.send method path body >>= fun response => ExceptT.mk (pure (reading r response)) := by
  have hsome {m m' : Method} {p p' : String} {b b' : Option Tree}
      (h : some (m, p, b) = some (m', p', b')) : m = m' ∧ p = p' ∧ b = b' := by
    simpa using h
  cases r with
  | issue args =>
    obtain ⟨rfl, rfl, rfl⟩ := hsome h
    rw [ask, issue, postIssue, post, bind_assoc]
    congr 1
    funext response
    rw [lift_bind, reading]
    cases bodyOf response >>= decoded (decodeEnvelope IssuedData.ofTree) <;> rfl
  | sign csr args =>
    obtain ⟨text, hcsr, h⟩ := Option.map_eq_some_iff.mp h
    obtain ⟨rfl, rfl, rfl⟩ := hsome (congrArg some h)
    rw [ask, sign, hcsr]
    dsimp only
    rw [postIssue, post, bind_assoc]
    congr 1
    funext response
    rw [lift_bind, reading]
    cases bodyOf response >>= decoded (decodeEnvelope IssuedData.ofTree) with
    | error e => rfl
    | ok d =>
      dsimp only [bind, Except.bind]
      cases d.serialNumber.filter (· ≠ "") <;> rfl
  | readAcme commonName =>
    obtain ⟨rfl, rfl, rfl⟩ := hsome h
    rw [ask, readAcme, getBytes, bind_assoc]
    congr 1
    funext response
    rw [reading, lift_bind]
    cases bodyOf response with
    | error e => rfl
    | ok text =>
      dsimp only
      rw [lift_bind]
      dsimp only [bind, Except.bind]
      cases decoded (decodeEnvelope (decodeEnvelope AcmeSecret.ofTree)) text with
      | error e => rfl
      | ok s =>
        dsimp only
        split
        · exact lift_bind (.error _) _
        · rfl
  | _ =>
    obtain ⟨rfl, rfl, rfl⟩ := hsome h
    rfl

end

def outcome : Except HttpError Response → Except VaultError Response
  | .ok response => accepted response
  | .error e => .error (.http e)

theorem run_send (c : VaultClient) {method : Method} {path : String} {body : Option Tree} {url : Url}
    (hurl : (Url.parse? (c.config.url path)).filter (fun u => isHttp u && isSendable u) = some url)
    (hheaders : (c.headers body).all (isHeaderValue ·.2) = true) (p : Peer) :
    (c.send method path body : ExceptT VaultError (StateM Peer) _).run.run p =
      ((follow maxRedirects (c.request method url body) : StateM Peer _).run p).map outcome id := by
  have hfollow : (Http.send method (c.config.url path) (c.headers body)
      (body.map fun t => Utf8.encode t.text) : StateM Peer _) =
      follow maxRedirects (c.request method url body) := by
    rw [Http.send, hurl]
    exact if_pos hheaders
  rw [send, ExceptT.run_mk]
  change (Http.send method (c.config.url path) (c.headers body)
    (body.map fun t => Utf8.encode t.text) >>= _ : StateM Peer _).run p = _
  rw [hfollow, run_bind]
  rcases (follow maxRedirects (c.request method url body) : StateM Peer _).run p with ⟨_ | _, q⟩ <;>
    rfl

def asked (c : VaultClient) (r : CaRequest k) (p : Peer) : Except VaultError k.Answer :=
  ((c.ask r : ExceptT VaultError (StateM Peer) _).run.run p).1

theorem run_ask_of_opening {c : VaultClient} {r : CaRequest k} {first : Request}
    (h : c.opening? r = some first) (p : Peer) :
    (c.ask r : ExceptT VaultError (StateM Peer) _).run.run p =
      ((follow maxRedirects first : StateM Peer _).run p).map (outcome · >>= reading r) id := by
  simp only [opening?, bind, Option.bind_eq_some_iff, Prod.exists] at h
  obtain ⟨method, path, body, hendpoint, url, hurl, h⟩ := h
  split at h
  next hheaders =>
    cases h
    rw [ask_eq c hendpoint, ExceptT.run_bind, run_bind, c.run_send hurl hheaders p]
    rcases (follow maxRedirects (c.request method url body) : StateM Peer _).run p with
      ⟨e | response, q⟩
    · rfl
    · dsimp only [Prod.map_apply]
      cases outcome (.ok response) <;> rfl
  next => cases h

theorem asked_of_opening {c : VaultClient} {r : CaRequest k} {first : Request}
    (h : c.opening? r = some first) (p : Peer) :
    c.asked r p =
      outcome ((follow maxRedirects first : StateM Peer _).run p).1 >>= reading r := by
  rw [asked, run_ask_of_opening h]
  rfl

variable {c : VaultClient} {r : CaRequest k} {first : Request} {p : Peer} {response : Response}

theorem asked_of_endsWith (h : c.opening? r = some first) (hend : first.EndsWith p response) :
    c.asked r p = accepted response >>= reading r := by
  rw [asked_of_opening h, Request.run_follow_of_endsWith hend]
  rfl

theorem asked_of_unanswered (h : c.opening? r = some first) (hend : first.Unanswered p) :
    c.asked r p = .error (.http .transport) := by
  rw [asked_of_opening h, Request.run_follow_of_unanswered hend]
  rfl

end VaultClient

end CertLifecycle
