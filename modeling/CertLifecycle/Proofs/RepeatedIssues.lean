import CertLifecycle.Proofs.FanOutIndependence
import CertLifecycle.Proofs.IssuedBundles
import CertLifecycle.Proofs.StoredAnswers

namespace CertLifecycle

open World Service

variable {κ : Type}

structure Delivery (κ : Type) where
  bundle : CertData
  world : World κ

namespace Destination

open MemorySlot

variable {d : Destination MemorySlot}

theorem certSlot_mem_slots {σ : Type} (d : Destination σ) : d.certSlot ∈ d.slots := by
  cases d <;> simp [certSlot, slots]

def lands (d : Destination MemorySlot) (y : Delivery κ) : Option Bytes :=
  d.certSlot.lastStored (goneThrough (d.plan y.bundle) y.world)

def held (d : Destination MemorySlot) : List (Delivery κ) → Option Bytes
  | [] => none
  | y :: ys => (d.lands y).or (d.held ys)

theorem data_writeCert (d : Destination MemorySlot) (data : CertData) (w : World κ) :
    ((w.perform (d.writeCert data)).2.memory d.certSlot.name).data =
      (d.lands ⟨data, w⟩).or (w.memory d.certSlot.name).data := by
  rw [← writeAll_plan, memory_writeAll]
  rfl

theorem lastStored_plan (distinct : d.slots.Nodup) (data : CertData) :
    d.certSlot.lastStored (d.plan data) = some (d.certText data) := by
  obtain ⟨front, hlead, -⟩ := leading_split distinct data
  rw [plan, hlead, lastStored_append, lastStored_append,
    lastStored_of_not_mem (later_ne_certSlot distinct data), Option.none_or]
  simp [lastStored]

theorem exists_lastStored_plan (d : Destination MemorySlot) (data : CertData) :
    ∃ text, d.certSlot.lastStored (d.plan data) = some text := by
  apply exists_lastStored
  rw [plan_split]
  exact ⟨_, List.mem_append_right _ List.mem_cons_self, rfl⟩

theorem lands_of_written {y : Delivery κ}
    (written : (y.world.perform (d.writeCert y.bundle)).1 = .ok ()) :
    d.lands y = d.certSlot.lastStored (d.plan y.bundle) := by
  rw [← writeAll_plan] at written
  rw [lands, goneThrough_of_writable (perform_writeAll_of_ok written).2]

theorem readCert_ok_iff {w : World κ} {c : Certificate} :
    (w.perform d.readCert).1 = .ok c ↔ (w.memory d.certSlot.name).readFailure = none ∧
      ∃ text, (w.memory d.certSlot.name).data = some text ∧ Certificate.ofPem text = .ok c := by
  rw [perform_readCert, seen]
  rcases w.memory d.certSlot.name with ⟨_ | text, _ | e, -, -, -⟩
  · simp [content, Except.bind]
  · simp [content, Except.bind]
  · cases hc : Certificate.ofPem text <;> simp [content, Except.bind, hc]
  · simp [content, Except.bind]

end Destination

namespace FanOut

variable {f : FanOut MemorySlot} {w v : World κ}

theorem data_writeCert (apart : f.Apart) (data : CertData) (w : World κ) :
    ∀ d ∈ f.members, ((w.perform (f.writeCert data)).2.memory d.certSlot.name).data =
      (d.lands ⟨data, w⟩).or (w.memory d.certSlot.name).data := by
  intro d hd
  rw [(memory_writeCert apart data w).1 d hd _ d.certSlot_mem_slots]
  exact d.data_writeCert data w

theorem exists_first_of_readCert {c : Certificate} (h : (w.perform f.readCert).1 = .ok c) :
    ∃ before d after, f.members = before ++ d :: after ∧
      (∀ e ∈ before, ∃ cause, (w.perform e.readCert).1 = .error cause) ∧
      (w.perform d.readCert).1 = .ok c := by
  have hback : FallsBack Destination.readCert f.readCert f.members w :=
    fallsBack_of_observes observes_readCert _ _ w
  have herror (d : Destination MemorySlot) (hd : (w.perform d.readCert).1.isOk = false) :
      ∃ cause, (w.perform d.readCert).1 = .error cause := by
    cases hread : (w.perform d.readCert).1 with
    | ok b => simp [hread, Except.isOk, Except.toBool] at hd
    | error cause => exact ⟨cause, rfl⟩
  cases hfind : f.members.find? fun d => (w.perform d.readCert).1.isOk with
  | some d =>
    obtain ⟨hd, before, after, hsplit, hbefore⟩ := List.find?_eq_some_iff_append.mp hfind
    have hfail : ∀ e ∈ before, ∃ cause, (w.perform e.readCert).1 = .error cause :=
      fun e he => herror e (by simpa using hbefore e he)
    obtain ⟨b, hb⟩ := exists_of_isOk hd
    have hwhole := hback.first hsplit hfail hb
    rw [hwhole] at h
    cases h
    exact ⟨before, d, after, hsplit, hfail, hb⟩
  | none =>
    have hfail : ∀ e ∈ f.members, ∃ cause, (w.perform e.readCert).1 = .error cause :=
      fun e he => herror e (by simpa using List.find?_eq_none.mp hfind e he)
    have hsplit := (List.dropLast_append_getLast f.nonempty).symm
    obtain ⟨cause, hlast⟩ := hfail _ (List.getLast_mem f.nonempty)
    have hwhole := hback.last hsplit (fun e he => hfail e (List.dropLast_subset _ he)) hlast
    rw [hwhole] at h
    cases h

section Running

variable [Authority κ]

/-- Issue runs from empty slots on, with what was delivered in them, the latest first. Between two
runs anything may change but what the members' slots hold. -/
inductive History (f : FanOut MemorySlot) : List (Delivery κ) → World κ → Prop
  | empty {w : World κ} (h : ∀ d ∈ f.members, ∀ t ∈ d.slots, (w.memory t.name).data = none) :
    History f [] w
  | between {ys} {w v : World κ} (h : History f ys w)
    (same : ∀ d ∈ f.members, ∀ t ∈ d.slots, (v.memory t.name).data = (w.memory t.name).data) :
    History f ys v
  | delivered {ys} {w x : World κ} {data : CertData} (s : Service) (args : IssueArgs)
    (h : History f ys w)
    (delivers : (Provision.issue (.fanOut f) args).Delivers s w data x) :
    History f (⟨data, x⟩ :: ys) (w.perform (s.issue (.fanOut f) args)).2
  | undelivered {ys} {w : World κ} (s : Service) (args : IssueArgs) (h : History f ys w)
    (none : ¬ ∃ data x, (Provision.issue (.fanOut f) args).Delivers s w data x) :
    History f ys (w.perform (s.issue (.fanOut f) args)).2

theorem data_of_delivers (apart : f.Apart) {s : Service} {args : IssueArgs} {data : CertData}
    {x : World κ} (h : (Provision.issue (.fanOut f) args).Delivers s w data x) :
    ∀ d ∈ f.members,
      ((w.perform (s.issue (.fanOut f) args)).2.memory d.certSlot.name).data =
        (d.lands ⟨data, x⟩).or (w.memory d.certSlot.name).data := by
  intro d hd
  have hmemory : (w.perform (s.issue (.fanOut f) args)).2.memory =
      (x.perform (f.writeCert data)).2.memory := (Provision.endsWith_of_delivers h).memory
  have hx : x.memory = w.memory := (Provision.sameStorage_atWrite h).memory
  rw [hmemory, data_writeCert apart data x d hd, hx]

theorem History.data (apart : f.Apart) {ys : List (Delivery κ)} (h : History f ys w) :
    ∀ d ∈ f.members, (w.memory d.certSlot.name).data = d.held ys := by
  induction h with
  | empty h => exact fun d hd => h d hd _ d.certSlot_mem_slots
  | between _ same ih =>
    intro d hd
    rw [same d hd _ d.certSlot_mem_slots, ih d hd]
  | delivered s args _ delivers ih =>
    intro d hd
    rw [data_of_delivers apart delivers d hd, ih d hd, Destination.held]
  | undelivered s args _ none ih =>
    intro d hd
    have hmemory := (Provision.storesNothing_of_undelivered none).storage.memory
    exact (congrArg (fun m => (m d.certSlot.name).data) hmemory).trans (ih d hd)

structure Kept (f : FanOut MemorySlot) (ys : List (Delivery κ)) (w v : World κ)
    (c : Certificate) : Prop where
  -- Nothing is repaired.
  storage : w.SameStorage v
  -- The certificate is that of the first member that can be read.
  first : ∃ before d after, f.members = before ++ d :: after ∧
    (∀ e ∈ before, ∃ cause, (v.perform e.readCert).1 = .error cause) ∧
    (v.perform d.readCert).1 = .ok c
  -- The others hold what last reached them, which may be older or nothing.
  holds : ∀ d ∈ f.members, (v.memory d.certSlot.name).data = d.held ys
  reads : ∀ d ∈ f.members, (v.perform d.readCert).1 = .ok c ↔
    (v.memory d.certSlot.name).readFailure = none ∧
      ∃ text, d.held ys = some text ∧ Certificate.ofPem text = .ok c
  -- A member that took the last delivery has the certificate if its layout reads back as that.
  provisioned : ∀ {y ys'}, ys = y :: ys' → ∀ d ∈ f.members,
    (y.world.perform (d.writeCert y.bundle)).1 = .ok () →
    (v.memory d.certSlot.name).readFailure = none →
    ((v.perform d.readCert).1 = .ok c ↔ ∃ text,
      d.certSlot.lastStored (d.plan y.bundle) = some text ∧ Certificate.ofPem text = .ok c) ∧
    (d.slots.Nodup → ((v.perform d.readCert).1 = .ok c ↔ d.ReadsBack y.bundle c))

theorem kept_of_noop (apart : f.Apart) {ys : List (Delivery κ)} (history : History f ys w)
    {s : Service} {args : IssueArgs} {r : IssueResult} {c : Certificate}
    (run : w.perform (s.issue (.fanOut f) args) = (.ok r, v)) (noop : r.status = .noop)
    (existing : r.existing = some c) : Kept f ys w v c := by
  have hstorage : w.SameStorage v := Provision.sameStorage_of_noop run noop
  have hholds : ∀ d ∈ f.members, (v.memory d.certSlot.name).data = d.held ys := by
    rw [hstorage.memory]
    exact history.data apart
  have hreads : ∀ d ∈ f.members, (v.perform d.readCert).1 = .ok c ↔
      (v.memory d.certSlot.name).readFailure = none ∧
        ∃ text, d.held ys = some text ∧ Certificate.ofPem text = .ok c := by
    intro d hd
    rw [Destination.readCert_ok_iff, hholds d hd]
  refine ⟨hstorage, ?_, hholds, hreads, ?_⟩
  · obtain ⟨c', hread, rfl⟩ := readCert_of_noop run noop
    cases existing
    obtain ⟨before, d, after, hsplit, hbefore, hd⟩ := exists_first_of_readCert hread
    have hsame (e : Destination MemorySlot) :
        (v.perform e.readCert).1 = (w.perform e.readCert).1 :=
      observes_readCert.result e hstorage.memory
    refine ⟨before, d, after, hsplit, ?_, ?_⟩
    · intro e he
      rw [hsame]
      exact hbefore e he
    · rw [hsame]
      exact hd
  · rintro y ys' rfl d hd written readable
    obtain ⟨text, htext⟩ := d.exists_lastStored_plan y.bundle
    have hheld : d.held (y :: ys') = some text := by
      rw [Destination.held, Destination.lands_of_written written, htext]
      rfl
    have hiff : (v.perform d.readCert).1 = .ok c ↔ Certificate.ofPem text = .ok c := by
      rw [hreads d hd, hheld]
      simp [readable]
    constructor
    · rw [hiff, htext]
      simp
    · intro distinct
      rw [Destination.lastStored_plan distinct] at htext
      cases htext
      rw [hiff]
      exact Destination.readsBack_iff

end Running

def twins : FanOut MemorySlot :=
  ⟨[.combined ⟨"first"⟩, .combined ⟨"second"⟩], List.cons_ne_nil _ _⟩

def halfFull : World Script where
  authority := delivering Destination.bareBundle
  readings _ := 2000000000
  memory n := { writeFailure := if n = "second" then some (.other "disk full") else none }

def issueOnce (w : World Script) : Except LifecycleError IssueResult × World Script :=
  w.perform (issue { renewal := .fixed false } (.fanOut twins) { commonName := "a" })

def cleared (w : World κ) : World κ :=
  { w with memory := fun n => { w.memory n with writeFailure := none } }

theorem data_cleared (w : World κ) (n : String) :
    ((cleared w).memory n).data = (w.memory n).data := rfl

def atFirstWrite : World Script :=
  ((halfFull.recorded (.slot .read "first")).recorded (.slot .read "second")).asked
    (.issue { commonName := "a" })

theorem apart_twins : twins.Apart := by
  simp [twins, Apart, Destination.slots]

theorem history_halfFull :
    History twins [⟨Destination.bareBundle, atFirstWrite⟩] (cleared (issueOnce halfFull).2) := by
  let r : CaRequest .issue := .issue { commonName := "a" }
  let u : World Script := (halfFull.recorded (.slot .read "first")).recorded (.slot .read "second")
  have missing : found (.fanOut twins) halfFull = (none, u) := rfl
  have hask : u.ask r = (some (.ok Destination.bareBundle), atFirstWrite) :=
    ask_of_atOnce (by decide)
  have hrequest : u.perform (request { renewal := .fixed false } r) =
      (.ok Destination.bareBundle, atFirstWrite) :=
    Operation.perform_request_of_ends .refl (.answered rfl hask)
  have delivers : (Provision.issue (.fanOut twins) { commonName := "a" }).Delivers
      { renewal := .fixed false } halfFull Destination.bareBundle atFirstWrite :=
    ⟨⟨r, u, .anew (by decide) missing, hrequest⟩, Destination.exists_ofPem_bareBundle⟩
  have begun : History twins [] halfFull := .empty fun _ _ _ _ => rfl
  exact .between (.delivered _ _ begun delivers) fun _ _ t _ => data_cleared _ t.name

def isKept : Except LifecycleError IssueResult → Bool
  | .ok ⟨.noop, some _, none⟩ => true
  | _ => false

theorem exists_of_isKept {o : Except LifecycleError IssueResult} (h : isKept o = true) :
    ∃ c, o = .ok ⟨.noop, some c, none⟩ := by
  unfold isKept at h
  split at h
  next c => exact ⟨c, rfl⟩
  next => cases h

theorem exists_kept_halfFull :
    ∃ c, (issueOnce (cleared (issueOnce halfFull).2)).1 = .ok ⟨.noop, some c, none⟩ :=
  exists_of_isKept (by decide +kernel)

theorem exists_unprovisioned_of_noop :
    twins.Apart ∧ (∀ n, (halfFull.memory n).data = none) ∧
      ∃ c v, issueOnce (cleared (issueOnce halfFull).2) = (.ok ⟨.noop, some c, none⟩, v) ∧
        ∃ d ∈ twins.members, (v.perform d.readCert).1 ≠ .ok c := by
  obtain ⟨c, hc⟩ := exists_kept_halfFull
  have run : issueOnce (cleared (issueOnce halfFull).2) = (.ok ⟨.noop, some c, none⟩, _) :=
    Prod.ext hc rfl
  refine ⟨apart_twins, fun _ => rfl, c, _, run, .combined ⟨"second"⟩, by simp [twins], ?_⟩
  intro hread
  obtain ⟨-, text, htext, -⟩ := Destination.readCert_ok_iff.mp hread
  have hheld : (Destination.combined ⟨"second"⟩).held
      [⟨Destination.bareBundle, atFirstWrite⟩] = none := rfl
  rw [(Provision.sameStorage_of_noop run rfl).memory,
    history_halfFull.data apart_twins _ (by simp [twins]), hheld] at htext
  cases htext

theorem kept_of_noop_halfFull :
    ∃ c v, issueOnce (cleared (issueOnce halfFull).2) = (.ok ⟨.noop, some c, none⟩, v) ∧
      Kept twins [⟨Destination.bareBundle, atFirstWrite⟩] (cleared (issueOnce halfFull).2) v c := by
  obtain ⟨c, hc⟩ := exists_kept_halfFull
  have run : issueOnce (cleared (issueOnce halfFull).2) = (.ok ⟨.noop, some c, none⟩, _) :=
    Prod.ext hc rfl
  exact ⟨c, _, run, kept_of_noop apart_twins history_halfFull run rfl rfl⟩

end FanOut

end CertLifecycle
