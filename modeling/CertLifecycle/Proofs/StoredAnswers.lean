import CertLifecycle.Proofs.CancellationSafety
import CertLifecycle.Proofs.FailedWrites
import CertLifecycle.Proofs.IssueDecision

namespace CertLifecycle

open World Service

variable {κ σ : Type} {k : CaMethod}

inductive Provision (σ : Type) where
  | issue (store : BundleStore σ) (args : IssueArgs)
  | sign (store : SigningStore σ) (args : IssueArgs)
  | readAcme (store : BundleStore σ) (commonName : String)

namespace Operation

variable [Authority κ] [Slot σ (Run κ)] {s : Service} {op : Operation σ} {w u : World κ}

theorem sameStorage_of_asks [Steady κ σ] {r : CaRequest k} (h : op.Asks s w r u) :
    w.SameStorage u := by
  cases h with
  | chain valid stored unexpired =>
    exact (sameStorage_of_found stored).trans (sameStorage_looked _)
  | anew valid missing => exact sameStorage_of_found missing
  | replace valid stored due =>
    exact (sameStorage_of_found stored).trans (sameStorage_of_shouldIssue due)
  | sign valid stored => exact sameStorage_of_readCsr stored
  | _ => exact .refl w

end Operation

namespace Provision

def operation : Provision σ → Operation σ
  | .issue store args => .issue store args
  | .sign store args => .sign store args
  | .readAcme store commonName => .readAcme store commonName

def method : Provision σ → CaMethod
  | .issue _ _ => .issue
  | .sign _ _ => .sign
  | .readAcme _ _ => .readAcme

def certificate : (p : Provision σ) → p.method.Answer → Bytes
  | .issue _ _, data | .readAcme _ _, data => CertData.certificate data
  | .sign _ _, signature => Signature.certificate signature

variable [Slot σ (Run κ)]

def atWrite : Provision σ → World κ → World κ
  | .issue _ _, x | .sign _ _, x => x
  | .readAcme store _, x => (x.perform store.readCert).2

variable [Authority κ]

structure Delivers (s : Service) (p : Provision σ) (w : World κ) (a : p.method.Answer)
    (x : World κ) : Prop where
  asked : ∃ r u, p.operation.Asks s w r u ∧ u.perform (s.request r) = (.ok a, x)
  accepted : ∃ c, Certificate.ofPem (p.certificate a) = .ok c

variable {s : Service} {p : Provision σ} {w u v x : World κ} {e : LifecycleError}

theorem asks_unique {r r' : CaRequest p.method} {u' : World κ} (h : p.operation.Asks s w r u)
    (h' : p.operation.Asks s w r' u') : r = r' ∧ u = u' := by
  cases p with
  | issue store args =>
    cases h with
    | anew _ missing =>
      cases h' with
      | anew _ missing' =>
        rw [missing] at missing'
        cases missing'
        exact ⟨rfl, rfl⟩
      | replace _ stored' _ =>
        rw [missing] at stored'
        cases stored'
    | replace _ stored due =>
      cases h' with
      | anew _ missing' =>
        rw [stored] at missing'
        cases missing'
      | replace _ stored' due' =>
        rw [stored] at stored'
        cases stored'
        rw [due] at due'
        cases due'
        exact ⟨rfl, rfl⟩
  | sign store args =>
    cases h with
    | sign _ stored =>
      cases h' with
      | sign _ stored' =>
        rw [stored] at stored'
        cases stored'
        exact ⟨rfl, rfl⟩
  | readAcme store commonName =>
    cases h
    cases h'
    exact ⟨rfl, rfl⟩

theorem Delivers.unique {a b : p.method.Answer} {y : World κ} (ha : Delivers s p w a x)
    (hb : Delivers s p w b y) : a = b ∧ x = y := by
  obtain ⟨r, u, hr, hrequest⟩ := ha.asked
  obtain ⟨r', u', hr', hrequest'⟩ := hb.asked
  obtain ⟨rfl, rfl⟩ := asks_unique hr hr'
  rw [hrequest] at hrequest'
  cases hrequest'
  exact ⟨rfl, rfl⟩

section

variable [Steady κ σ]

theorem sameStorage_of_request {r : CaRequest p.method} {o : Except LifecycleError p.method.Answer}
    (h : p.operation.Asks s w r u) (hrequest : u.perform (s.request r) = (o, x)) :
    w.SameStorage x :=
  (Operation.sameStorage_of_asks h).trans (asking_of_request hrequest).toSameStorage

theorem sameStorage_atWrite {a : p.method.Answer} (h : Delivers s p w a x) :
    w.SameStorage (p.atWrite x) := by
  obtain ⟨r, u, hr, hrequest⟩ := h.asked
  have hx : w.SameStorage x := sameStorage_of_request hr hrequest
  cases p with
  | issue store args => exact hx
  | sign store args => exact hx
  | readAcme store commonName => exact hx.trans (sameStorage_readCert store x)

end

variable [Described σ]

def write : (p : Provision σ) → p.method.Answer → ExceptT StorageError (Run κ) Unit
  | .issue store _, data | .readAcme store _, data => store.writeCert data
  | .sign store _, signature => store.writeSignature signature

structure EndsWith (s : Service) (p : Provision σ) (w : World κ) (a : p.method.Answer)
    (y : World κ) : Prop where
  world : (w.perform (p.operation.action s)).2 = (y.perform (p.write a)).2 ∨
    ∃ e, (w.perform (p.operation.action s)).2 = (y.perform (p.write a)).2.logged e
  ok_iff : (∃ o, (w.perform (p.operation.action s)).1 = .ok o) ↔
    (y.perform (p.write a)).1 = .ok ()
  error_iff : ∀ e, (w.perform (p.operation.action s)).1 = .error e ↔
    ∃ cause, e = .writeFailed cause ∧ (y.perform (p.write a)).1 = .error cause

theorem EndsWith.memory {a : p.method.Answer} {y : World κ} (h : EndsWith s p w a y) :
    (w.perform (p.operation.action s)).2.memory = (y.perform (p.write a)).2.memory := by
  obtain hworld | ⟨e, hworld⟩ := h.world
  · rw [hworld]
  · rw [hworld]
    rfl

structure FollowsRequest (s : Service) (p : Provision σ) (w : World κ)
    (o : Except LifecycleError p.method.Answer) (x : World κ) : Prop where
  failed : ∀ {e}, o = .error e → w.perform (p.operation.action s) = (.error e, x)
  refused : ∀ {a e}, o = .ok a → Certificate.ofPem (p.certificate a) = .error e →
    ∃ text, w.perform (p.operation.action s) = (.error (.invalidData text), x)
  accepted : ∀ {a c}, o = .ok a → Certificate.ofPem (p.certificate a) = .ok c →
    EndsWith s p w a (p.atWrite x)

theorem endsWith_of_ok {a : p.method.Answer} {y z : World κ} {o : p.operation.Result}
    (hrun : w.perform (p.operation.action s) = (.ok o, v))
    (hwrite : y.perform (p.write a) = (.ok (), z)) (h : v = z ∨ ∃ e, v = z.logged e) :
    EndsWith s p w a y := by
  constructor
  · rw [hrun, hwrite]
    exact h
  · rw [hrun, hwrite]
    exact ⟨fun _ => rfl, fun _ => ⟨o, rfl⟩⟩
  · intro e
    rw [hrun, hwrite]
    constructor
    · exact nofun
    · rintro ⟨cause, -, hcause⟩
      cases hcause

theorem endsWith_of_error {a : p.method.Answer} {y : World κ} {cause : StorageError}
    (hrun : w.perform (p.operation.action s) = (.error (.writeFailed cause), v))
    (hwrite : y.perform (p.write a) = (.error cause, v)) : EndsWith s p w a y := by
  constructor
  · rw [hrun, hwrite]
    exact .inl rfl
  · rw [hrun, hwrite]
    constructor
    · rintro ⟨o, ho⟩
      cases ho
    · exact nofun
  · intro e
    rw [hrun, hwrite]
    constructor
    · intro he
      cases he
      exact ⟨cause, rfl, rfl⟩
    · rintro ⟨cause', rfl, hcause⟩
      cases hcause
      rfl

theorem followsRequest_issueNew {store : BundleStore σ} {args : IssueArgs}
    {ex : Option Certificate} {o : Except LifecycleError CertData}
    (hrun : w.perform (s.issue store args) = u.perform (s.issueNew store args ex))
    (hrequest : u.perform (s.request (.issue args)) = (o, x)) :
    FollowsRequest s (.issue store args) w o x := by
  rw [perform_issueNew, hrequest] at hrun
  constructor
  · rintro e rfl
    exact hrun
  · rintro data e rfl hc
    dsimp only [certificate] at hrun hc
    rw [hc] at hrun
    exact ⟨_, hrun⟩
  · rintro data c rfl hc
    dsimp only [certificate] at hrun hc
    rw [hc] at hrun
    dsimp only at hrun
    rcases hwrite : x.perform (store.writeCert data) with ⟨e | _, y⟩ <;> rw [hwrite] at hrun
    · exact endsWith_of_error hrun hwrite
    · exact endsWith_of_ok hrun hwrite (.inr ⟨_, rfl⟩)

theorem followsRequest_sign {store : SigningStore σ} {args : IssueArgs} (valid : args.IsValid)
    {csr : Bytes} (stored : w.perform store.readCsr = (.ok csr, u))
    {o : Except LifecycleError Signature}
    (hrequest : u.perform (s.request (.sign csr args)) = (o, x)) :
    FollowsRequest s (.sign store args) w o x := by
  have hrun := perform_sign s store valid w
  rw [stored] at hrun
  dsimp only at hrun
  rw [hrequest] at hrun
  constructor
  · rintro e rfl
    exact hrun
  · rintro signature e rfl hc
    dsimp only [certificate] at hrun hc
    rw [hc] at hrun
    exact ⟨_, hrun⟩
  · rintro signature c rfl hc
    dsimp only [certificate] at hrun hc
    rw [hc] at hrun
    dsimp only at hrun
    rcases hwrite : x.perform (store.writeSignature signature) with ⟨e | _, y⟩ <;>
      rw [hwrite] at hrun
    · exact endsWith_of_error hrun hwrite
    · exact endsWith_of_ok hrun hwrite (.inr ⟨_, rfl⟩)

theorem followsRequest_readAcme {store : BundleStore σ} {commonName : String}
    {o : Except LifecycleError CertData}
    (hrequest : w.perform (s.request (.readAcme commonName)) = (o, x)) :
    FollowsRequest s (.readAcme store commonName) w o x := by
  have hrun := perform_readAcme s store commonName w
  rw [hrequest] at hrun
  constructor
  · rintro e rfl
    exact hrun
  · rintro data e rfl hc
    dsimp only [certificate] at hrun hc
    rw [hc] at hrun
    exact ⟨_, hrun⟩
  · rintro data c rfl hc
    dsimp only [certificate] at hrun hc
    rw [hc] at hrun
    dsimp only at hrun
    rcases hwrite : (x.perform store.readCert).2.perform (store.writeCert data) with
      ⟨e | _, y⟩ <;> rw [hwrite] at hrun
    · exact endsWith_of_error hrun hwrite
    · exact endsWith_of_ok hrun hwrite (.inl rfl)

theorem perform_of_asks_issue {store : BundleStore σ} {args : IssueArgs} {r : CaRequest .issue}
    (h : Operation.Asks s w (.issue store args) r u) :
    r = .issue args ∧
      ∃ ex, w.perform (s.issue store args) = u.perform (s.issueNew store args ex) := by
  cases h with
  | anew valid missing =>
    refine ⟨rfl, none, ?_⟩
    rw [perform_issue s store valid, missing]
  | @replace _ _ c _ _ valid stored due =>
    refine ⟨rfl, some c, ?_⟩
    rw [perform_issue s store valid, stored]
    dsimp only
    rw [due]

theorem followsRequest {r : CaRequest p.method} (h : p.operation.Asks s w r u)
    {o : Except LifecycleError p.method.Answer} (hrequest : u.perform (s.request r) = (o, x)) :
    FollowsRequest s p w o x := by
  cases p with
  | issue store args =>
    obtain ⟨rfl, ex, hrun⟩ := perform_of_asks_issue h
    exact followsRequest_issueNew hrun hrequest
  | sign store args =>
    cases h with
    | sign valid stored => exact followsRequest_sign valid stored hrequest
  | readAcme store commonName =>
    cases h with
    | readAcme => exact followsRequest_readAcme hrequest

theorem endsWith_of_delivers {a : p.method.Answer} (h : Delivers s p w a x) :
    EndsWith s p w a (p.atWrite x) := by
  obtain ⟨r, u, hr, hrequest⟩ := h.asked
  obtain ⟨c, hc⟩ := h.accepted
  exact (followsRequest hr hrequest).accepted rfl hc

structure StoresNothing (s : Service) (p : Provision σ) (w : World κ) : Prop where
  storage : w.SameStorage (w.perform (p.operation.action s)).2
  result : ∀ cause, (w.perform (p.operation.action s)).1 ≠ .error (.writeFailed cause)

theorem storesNothing_of_error (hv : w.SameStorage v) (he : ∀ cause, e ≠ .writeFailed cause)
    (hrun : w.perform (p.operation.action s) = (.error e, v)) : StoresNothing s p w := by
  constructor
  · rw [hrun]
    exact hv
  · rw [hrun]
    intro cause h
    exact he cause (Except.error.inj h)

variable [Steady κ σ]

theorem storesNothing_of_unasked_issue {store : BundleStore σ} {args : IssueArgs}
    (h : ¬ ∃ r u, Operation.Asks s w (.issue store args) (k := .issue) r u) :
    StoresNothing s (.issue store args) w := by
  by_cases valid : args.IsValid
  · rcases hfound : found store w with ⟨_ | c, v⟩
    · exact absurd ⟨_, _, .anew valid hfound⟩ h
    have hv : w.SameStorage v := sameStorage_of_found hfound
    have hrun := perform_issue s store valid w
    rw [hfound] at hrun
    dsimp only at hrun
    rcases hdue : v.perform (s.shouldIssue c) with ⟨e | _ | _, u⟩
    · have hu : v.SameStorage u := sameStorage_of_shouldIssue hdue
      rw [hdue] at hrun
      refine storesNothing_of_error (hv.trans hu) ?_ hrun
      rw [eq_canceled_of_shouldIssue hdue]
      exact nofun
    · have hu : v.SameStorage u := sameStorage_of_shouldIssue hdue
      rw [hdue] at hrun
      constructor
      · change w.SameStorage (w.perform (s.issue store args)).2
        rw [hrun]
        exact hv.trans (hu.trans (sameStorage_logged _ u))
      · change ∀ cause, (w.perform (s.issue store args)).1 ≠ _
        rw [hrun]
        exact nofun
    · exact absurd ⟨_, _, .replace valid hfound hdue⟩ h
  · apply storesNothing_of_error (e := .invalidArgs) (.refl w) nofun
    change w.perform (s.issue store args) = _
    rw [Service.issue, if_pos valid]
    rfl

theorem storesNothing_of_unasked (h : ¬ ∃ r u, p.operation.Asks s w (k := p.method) r u) :
    StoresNothing s p w := by
  cases p with
  | issue store args => exact storesNothing_of_unasked_issue h
  | sign store args =>
    by_cases valid : args.IsValid
    · rcases hread : w.perform store.readCsr with ⟨e | csr, v⟩
      · have hrun := perform_sign s store valid w
        rw [hread] at hrun
        exact storesNothing_of_error (sameStorage_of_readCsr hread) (by simp) hrun
      · exact absurd ⟨_, _, .sign valid hread⟩ h
    · apply storesNothing_of_error (e := .invalidArgs) (.refl w) nofun
      change w.perform (s.sign store args) = _
      rw [Service.sign, if_pos valid]
      rfl
  | readAcme store commonName => exact absurd ⟨_, _, .readAcme⟩ h

theorem storesNothing_of_undelivered (h : ¬ ∃ a x, Delivers s p w a x) : StoresNothing s p w := by
  by_cases asked : ∃ r u, p.operation.Asks s w (k := p.method) r u
  · obtain ⟨r, u, hr⟩ := asked
    rcases hrequest : u.perform (s.request r) with ⟨e | a, x⟩
    · apply storesNothing_of_error (sameStorage_of_request hr hrequest) ?_
        ((followsRequest hr hrequest).failed rfl)
      obtain rfl | ⟨cause, rfl⟩ := request_error hrequest
      · exact nofun
      · exact nofun
    · cases hc : Certificate.ofPem (p.certificate a) with
      | error e =>
        obtain ⟨text, hrun⟩ := (followsRequest hr hrequest).refused rfl hc
        exact storesNothing_of_error (sameStorage_of_request hr hrequest) (by simp) hrun
      | ok c => exact absurd ⟨a, x, ⟨r, u, hr, hrequest⟩, c, hc⟩ h
  · exact storesNothing_of_unasked asked

theorem sameStorage_of_noop {store : BundleStore σ} {args : IssueArgs} {r : IssueResult}
    (hrun : w.perform (s.issue store args) = (.ok r, v)) (hr : r.status = .noop) :
    w.SameStorage v := by
  have hnone : ¬ ∃ a x, Delivers s (.issue store args) w a x := by
    rintro ⟨a, x, h⟩
    obtain ⟨_, _, hasks, -⟩ := h.asked
    obtain ⟨-, ex, hissued⟩ := perform_of_asks_issue hasks
    rw [hrun] at hissued
    rw [(issueNew_ok hissued.symm).1] at hr
    cases hr
  have hstorage := (storesNothing_of_undelivered hnone).storage
  change w.SameStorage (w.perform (s.issue store args)).2 at hstorage
  rwa [hrun] at hstorage

structure StoresDelivered (s : Service) (p : Provision σ) (w : World κ) : Prop where
  unique : ∀ {a b : p.method.Answer} {x y : World κ},
    Delivers s p w a x → Delivers s p w b y → a = b ∧ x = y
  -- An accepted answer is written, in a cancelled run too.
  written : ∀ {a : p.method.Answer} {x : World κ}, Delivers s p w a x →
    w.SameStorage (p.atWrite x) ∧ EndsWith s p w a (p.atWrite x)
  unwritten : (¬ ∃ a x, Delivers s p w a x) →
    w.SameStorage (w.perform (p.operation.action s)).2
  failed : ∀ cause, (w.perform (p.operation.action s)).1 = .error (.writeFailed cause) ↔
    ∃ a x, Delivers s p w a x ∧ ((p.atWrite x).perform (p.write a)).1 = .error cause
  unchanged : ∀ {e v}, w.perform (p.operation.action s) = (.error e, v) →
    (∀ cause, e ≠ .writeFailed cause) → w.SameStorage v
  kept : ∀ {store args r v}, p = .issue store args →
    w.perform (s.issue store args) = (.ok r, v) → r.status = .noop → w.SameStorage v

theorem storesDelivered (s : Service) (p : Provision σ) (w : World κ) :
    StoresDelivered s p w where
  unique := Delivers.unique
  written h := ⟨sameStorage_atWrite h, endsWith_of_delivers h⟩
  unwritten h := (storesNothing_of_undelivered h).storage
  failed cause := by
    constructor
    · intro hrun
      have delivered : ∃ a x, Delivers s p w a x := by
        refine Classical.byContradiction fun h => ?_
        exact (storesNothing_of_undelivered h).result cause hrun
      obtain ⟨a, x, h⟩ := delivered
      obtain ⟨cause', he, hwrite⟩ := ((endsWith_of_delivers h).error_iff _).mp hrun
      cases he
      exact ⟨a, x, h, hwrite⟩
    · rintro ⟨a, x, h, hwrite⟩
      exact ((endsWith_of_delivers h).error_iff _).mpr ⟨cause, rfl, hwrite⟩
  unchanged {e v} hrun he := by
    have hnone : ¬ ∃ a x, Delivers s p w a x := by
      rintro ⟨a, x, h⟩
      obtain ⟨cause, rfl, -⟩ :=
        ((endsWith_of_delivers h).error_iff e).mp (congrArg Prod.fst hrun)
      exact he cause rfl
    have hstorage := (storesNothing_of_undelivered hnone).storage
    rwa [hrun] at hstorage
  kept {store args r v} hp hrun hr := by
    subst hp
    exact sameStorage_of_noop hrun hr

def lastMinute : Script
  | .issue => [{ cancels := true, answer := .ok Destination.bareBundle }]
  | _ => []

theorem storesDelivered_of_lastMinute :
    let s : Service := { renewal := .fixed false }
    let p : Provision MemorySlot := .issue (.single (.combined ⟨"key"⟩)) { commonName := "a" }
    let w : World Script := { authority := lastMinute, readings := fun _ => 0 }
    ∃ x : World Script, x.canceled = true ∧ Delivers s p w Destination.bareBundle x ∧
      EndsWith s p w Destination.bareBundle x := by
  intro s p w
  let r : CaRequest .issue := .issue { commonName := "a" }
  let u : World Script := w.recorded (.slot .read "key")
  have missing : found (.single (.combined (MemorySlot.mk "key"))) w = (none, u) := rfl
  have hask : u.ask r = (some (.ok Destination.bareBundle), u.asked r) :=
    ask_of_atOnce (by decide)
  have hrequest : u.perform (s.request r) = (.ok Destination.bareBundle, u.asked r) :=
    Operation.perform_request_of_ends .refl (.answered rfl hask)
  have delivers : Delivers s p w Destination.bareBundle (u.asked r) :=
    ⟨⟨r, u, .anew (by decide) missing, hrequest⟩, Destination.exists_ofPem_bareBundle⟩
  exact ⟨_, rfl, delivers, ((storesDelivered s p w).written delivers).2⟩

end Provision

end CertLifecycle
