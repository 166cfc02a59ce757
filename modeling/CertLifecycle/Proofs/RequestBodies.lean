import CertLifecycle.Proofs.AcceptedRequests
import CertLifecycle.Proofs.RecordTexts
import CertLifecycle.Proofs.TextEncodings

namespace CertLifecycle

open Json Http

namespace Vault

theorem under_append (key : String) (ms more : List (String × Tree)) :
    under key (ms ++ more) = under key ms ++ under key more := by
  simp [under]

theorem under_optionalMember_self (key : String) (value : Option String) :
    under key (optionalMember key value) = (value.map Tree.ofString).toList := by
  cases value <;> simp [optionalMember]

theorem under_optionalMember_of_ne {key other : String} (h : other ≠ key) (value : Option String) :
    under key (optionalMember other value) = [] := by
  cases value <;> simp [optionalMember, h]

theorem mem_optionalMember {key : String} {value : Option String} {m : String × Tree}
    (h : m ∈ optionalMember key value) : ∃ v, m = (key, .ofString v) := by
  cases value with
  | none => cases h
  | some v => exact ⟨v, List.mem_singleton.mp h⟩

def namesIn (text : Option String) : List String :=
  (text.map fun s => (s.toList.splitOn ',').map String.ofList).getD []

def IsEntry (name : String) : Prop :=
  name ≠ "" ∧ ',' ∉ name.toList

theorem namesIn_joined {names : List String} (h : ∀ name ∈ names, IsEntry name) :
    namesIn (joined names) = names := by
  cases names with
  | nil => rfl
  | cons name rest =>
    have hlists : (",".intercalate (name :: rest)).toList =
        [','].intercalate ((name :: rest).map String.toList) := String.toList_intercalate
    have hne : ",".intercalate (name :: rest) ≠ "" := by
      intro hempty
      have hname := (h name List.mem_cons_self).1
      cases rest with
      | nil => simp [hname] at hempty
      | cons _ _ => simp [hname] at hempty
    have hjoined : joined (name :: rest) = some (",".intercalate (name :: rest)) := by
      simp [joined, hne]
    have hapart : ∀ l ∈ (name :: rest).map String.toList, ',' ∉ l := by
      intro l hl
      obtain ⟨s, hs, rfl⟩ := List.mem_map.mp hl
      exact (h s hs).2
    rw [hjoined, namesIn, Option.map_some, Option.getD_some, hlists,
      List.splitOn_intercalate ',' hapart (by simp)]
    simp [List.map_map, Function.comp_def]

def memberNames : List String :=
  ["common_name", "ttl", "ip_sans", "alt_names", "csr"]

/-- The members say these arguments and this signing request; a member that is absent says that
there is nothing, and there are no further ones. -/
structure Tells (ms : List (String × Tree)) (args : IssueArgs) (csr : Option String) : Prop where
  commonName : under "common_name" ms = [.ofString args.commonName]
  ttl : under "ttl" ms = (args.ttl.map Tree.ofString).toList
  ipSans : ∃ text : Option String, under "ip_sans" ms = (text.map Tree.ofString).toList ∧
    namesIn text = args.ipSans
  altNames : ∃ text : Option String, under "alt_names" ms = (text.map Tree.ofString).toList ∧
    namesIn text = args.altNames
  csr : under "csr" ms = (csr.map Tree.ofString).toList
  noMore : ∀ m ∈ ms, m.1 ∈ memberNames

def Carries (body : Bytes) (args : IssueArgs) (csr : Option String) : Prop :=
  ∃ text ms, Utf8.decode body = .ok text ∧ Tree.read text = (.object ms true, []) ∧
    Tells ms args csr

theorem toList_map_ofString_inj {o o' : Option String}
    (h : (o.map Tree.ofString).toList = (o'.map Tree.ofString).toList) : o = o' := by
  cases o <;> cases o' <;> simp_all [Tree.ofString]

theorem Tells.unique {ms : List (String × Tree)} {args args' : IssueArgs} {csr csr' : Option String}
    (h : Tells ms args csr) (h' : Tells ms args' csr') : args = args' ∧ csr = csr' := by
  obtain ⟨ip, hip, hips⟩ := h.ipSans
  obtain ⟨ip', hip', hips'⟩ := h'.ipSans
  obtain ⟨alt, halt, halts⟩ := h.altNames
  obtain ⟨alt', halt', halts'⟩ := h'.altNames
  obtain rfl := toList_map_ofString_inj (hip.symm.trans hip')
  obtain rfl := toList_map_ofString_inj (halt.symm.trans halt')
  have hname : some args.commonName = some args'.commonName :=
    toList_map_ofString_inj (h.commonName.symm.trans h'.commonName)
  have httl := toList_map_ofString_inj (h.ttl.symm.trans h'.ttl)
  have hcsr := toList_map_ofString_inj (h.csr.symm.trans h'.csr)
  cases args
  cases args'
  simp_all

theorem Carries.unique {body : Bytes} {args args' : IssueArgs} {csr csr' : Option String}
    (h : Carries body args csr) (h' : Carries body args' csr') : args = args' ∧ csr = csr' := by
  obtain ⟨text, ms, htext, hms, htells⟩ := h
  obtain ⟨text', ms', htext', hms', htells'⟩ := h'
  rw [htext] at htext'
  cases htext'
  rw [hms] at hms'
  cases hms'
  exact htells.unique htells'

variable {args : IssueArgs} {csr : Option String}

theorem mem_certificateRequest {ms : List (String × Tree)} {closed : Bool}
    (h : certificateRequest args csr = .object ms closed) {m : String × Tree} (hm : m ∈ ms) :
    m.1 ∈ memberNames ∧ ∃ s, m.2 = .ofString s := by
  cases h
  simp only [List.mem_cons, List.mem_append] at hm
  obtain (((rfl | hm) | hm) | hm) | hm := hm
  · exact ⟨by simp [memberNames], _, rfl⟩
  all_goals
    obtain ⟨v, rfl⟩ := mem_optionalMember hm
    exact ⟨by simp [memberNames], v, rfl⟩

theorem written_certificateRequest (args : IssueArgs) (csr : Option String) :
    (certificateRequest args csr).Written := by
  refine .object fun m hm => ?_
  obtain ⟨-, s, hs⟩ := mem_certificateRequest rfl hm
  rw [hs]
  exact .ofString s

theorem tells_certificateRequest (hip : ∀ name ∈ args.ipSans, IsEntry name)
    (halt : ∀ name ∈ args.altNames, IsEntry name) (csr : Option String) :
    ∃ ms, certificateRequest args csr = .object ms true ∧ Tells ms args csr := by
  refine ⟨_, rfl, ?_, ?_, ⟨_, ?_, namesIn_joined hip⟩, ⟨_, ?_, namesIn_joined halt⟩, ?_,
    fun m hm => (mem_certificateRequest rfl hm).1⟩
  all_goals simp [under_append, under_optionalMember_self, under_optionalMember_of_ne]

theorem carries_certificateRequest (hip : ∀ name ∈ args.ipSans, IsEntry name)
    (halt : ∀ name ∈ args.altNames, IsEntry name) (csr : Option String) :
    Carries (Utf8.encode (certificateRequest args csr).text) args csr := by
  obtain ⟨ms, hms, htells⟩ := tells_certificateRequest hip halt csr
  have hread := read_text (written_certificateRequest args csr)
  exact ⟨_, ms, Utf8.decode_encode _, hread.trans (by rw [hms]), htells⟩

end Vault

namespace Http

theorem next?_repeats {r next : Request} {response : Response}
    (h : next? r response = some next) :
    (next.method = r.method ∧ next.body = r.body) ∨ (next.method = .get ∧ next.body = none) := by
  simp only [next?, bind, Option.bind_eq_some_iff] at h
  obtain ⟨moved, hmoved, -, -, url, -, h⟩ := h
  cases h
  unfold redirected? at hmoved
  split at hmoved
  · cases hmoved
    exact .inr ⟨rfl, rfl⟩
  · split at hmoved
    · cases hmoved
      exact .inl ⟨rfl, rfl⟩
    · cases hmoved

theorem Exchanged.exists_sent {r : Request} {p : Peer} {o : Except HttpError Response × Peer}
    (h : Exchanged r p o) : ∃ sent, o.2.received = p.received ++ r :: sent ∧
      ∀ q ∈ sent, (q.method = r.method ∧ q.body = r.body) ∨ (q.method = .get ∧ q.body = none) := by
  induction h with
  | lost | final | abandoned => exact ⟨[], rfl, fun q hq => absurd hq List.not_mem_nil⟩
  | @redirected r next p response o reply moved more ih =>
    obtain ⟨sent, hreceived, hsent⟩ := ih
    refine ⟨next :: sent, ?_, fun q hq => ?_⟩
    · rw [hreceived, Peer.after, List.append_assoc]
      rfl
    · have hnext := next?_repeats moved
      rcases List.mem_cons.mp hq with rfl | hq
      · exact hnext
      · rcases hsent q hq with ⟨hmethod, hbody⟩ | hget
        · rw [hmethod, hbody]
          exact hnext
        · exact .inr hget

end Http

namespace VaultClient

open Vault

variable {k : CaMethod}

/-- A request for a certificate as the server receives it: it opens with a body that carries the
arguments, every other request has the same body or none, and nothing else is sent. -/
structure Posts (c : VaultClient) (r : CaRequest k) (args : IssueArgs) (csr : Option String)
    (p : Peer) (sent : List Request) : Prop where
  received : (c.served r p).received = p.received ++ sent
  opening : sent.head? = c.opening? r
  posted : ∀ first, c.opening? r = some first → first.method = .post
  carried : ∀ q ∈ sent, q.method = .post → ∃ body, q.body = some body ∧ Carries body args csr
  bare : ∀ q ∈ sent, q.method = .get → q.body = none

theorem exists_posts {c : VaultClient} {r : CaRequest k} {path : String} {body : Tree}
    {args : IssueArgs} {csr : Option String}
    (hendpoint : c.endpoint? r = some (.post, path, some body))
    (hbody : Carries (Utf8.encode body.text) args csr) (p : Peer) :
    ∃ sent, c.Posts r args csr p sent := by
  cases hopening : c.opening? r with
  | none =>
    have hserved : c.served r p = p :=
      congrArg Prod.snd (run_ask_of_no_opening hendpoint hopening p)
    refine ⟨[], ?_, hopening.symm, ?_, fun q hq => absurd hq List.not_mem_nil,
      fun q hq => absurd hq List.not_mem_nil⟩
    · rw [hserved, List.append_nil]
    · rw [hopening]
      rintro _ ⟨⟩
  | some first =>
    have hserved : c.served r p = ((follow maxRedirects first : StateM Peer _).run p).2 :=
      congrArg Prod.snd (run_ask_of_opening hopening p)
    have hfirst := method_of_opening hendpoint hopening
    obtain ⟨sent, hreceived, hsent⟩ := (exchanged_follow maxRedirects first p).exists_sent
    have hall : ∀ q ∈ first :: sent, (q.method = .post ∧ q.body = some (Utf8.encode body.text)) ∨
        (q.method = .get ∧ q.body = none) := by
      intro q hq
      rcases List.mem_cons.mp hq with rfl | hq
      · exact .inl hfirst
      · rcases hsent q hq with ⟨hmethod, hbody⟩ | hget
        · exact .inl ⟨hmethod.trans hfirst.1, hbody.trans hfirst.2⟩
        · exact .inr hget
    refine ⟨first :: sent, hserved ▸ hreceived, hopening.symm, ?_, fun q hq hpost => ?_,
      fun q hq hget => ?_⟩
    · rintro r hr
      obtain rfl := Option.some.inj (hopening.symm.trans hr)
      exact hfirst.1
    · rcases hall q hq with ⟨-, hcarried⟩ | ⟨hget, -⟩
      · exact ⟨_, hcarried, hbody⟩
      · rw [hget] at hpost
        cases hpost
    · rcases hall q hq with ⟨hpost, -⟩ | ⟨-, hbare⟩
      · rw [hpost] at hget
        cases hget
      · exact hbare

structure Delivers (c : VaultClient) (args : IssueArgs) (p : Peer) : Prop where
  issued : ∃ sent, c.Posts (.issue args) args none p sent
  signed : ∀ {csr text}, Utf8.decode? csr = some text →
    ∃ sent, c.Posts (.sign csr args) args (some text) p sent
  unique : ∀ {body csr args' csr'}, Carries body args csr → Carries body args' csr' →
    args = args' ∧ csr = csr'

theorem delivers (c : VaultClient) {args : IssueArgs} (hip : ∀ name ∈ args.ipSans, IsEntry name)
    (halt : ∀ name ∈ args.altNames, IsEntry name) (p : Peer) : c.Delivers args p where
  issued := exists_posts rfl (carries_certificateRequest hip halt none) p
  signed {csr text} h := by
    have hendpoint : c.endpoint? (.sign csr args) =
        some (.post, c.config.pkiPath ("sign" ++ "/" ++ c.config.role),
          some (certificateRequest args (some text))) := congrArg (Option.map _) h
    exact exists_posts hendpoint (carries_certificateRequest hip halt _) p
  unique h h' := h.unique h'

def twoNames : IssueArgs := { commonName := "a\"b", ipSans := ["::1"], altNames := ["c", "d\n"] }

theorem delivers_twoNames : nearbyClient.Delivers twoNames diverting ∧
    ∃ first, nearbyClient.opening? (.issue twoNames) = some first := by
  refine ⟨nearbyClient.delivers ?_ ?_ diverting, Option.isSome_iff_exists.mp (by decide +kernel)⟩
  · simp [twoNames, IsEntry]
  · simp [twoNames, IsEntry]

end VaultClient

end CertLifecycle
