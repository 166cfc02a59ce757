import CertLifecycle.CommandLine.Launch
import CertLifecycle.Proofs.ArgumentFaults
import CertLifecycle.Proofs.DoubleOrder

namespace CertLifecycle

open World CommandLine

namespace Configuration

variable {c : Configuration}

theorem demand_eq_nil {kept : Bool} {path : List String} {rule : String} :
    demand kept path rule = [] ↔ kept = true := by
  cases kept <;> simp [demand]

theorem isValid_iff : c.IsValid ↔ c.server.violations = [] ∧ c.renewal.violations = [] ∧
    c.subject.violations = [] ∧ destinationViolations 0 c.destinations = [] := by
  simp only [IsValid, violations, List.append_eq_nil_iff, and_assoc]

section Threshold

open Renewal Double

variable {t : Float} {r : RenewalRule}

theorem minThreshold_ne_nan : (Percentage.ofInt minThreshold : Float) ≠ .nan := by
  decide +kernel

theorem maxThreshold_ne_nan : (Percentage.ofInt maxThreshold : Float) ≠ .nan := by
  decide +kernel

theorem isInRange_iff_not_lt : isInRange t = true ↔
    ¬ Percentage.ofInt maxThreshold < t ∧ ¬ t < Percentage.ofInt minThreshold := by
  simp [isInRange]

theorem inRange_iff_le : InRange t ↔
    Percentage.ofInt minThreshold ≤ t ∧ t ≤ Percentage.ofInt maxThreshold :=
  and_congr decide_eq_true_iff decide_eq_true_iff

theorem isInRange_iff : isInRange t = true ↔ InRange t ∨ t = .nan := by
  rw [isInRange_iff_not_lt, inRange_iff_le]
  by_cases ht : t = .nan
  · simp [ht, not_lt_nan, not_nan_lt]
  · rw [le_iff_not_lt minThreshold_ne_nan ht, le_iff_not_lt ht maxThreshold_ne_nan,
      or_iff_left ht, and_comm]

theorem not_inRange_nan : ¬ InRange (.nan : Float) :=
  fun h => not_le_nan _ (inRange_iff_le.mp h).1

theorem inRange_default : InRange defaultThreshold := by
  decide +kernel

theorem ofThreshold_eq_error_iff {err : LifecycleError} :
    Renewal.ofThreshold t = .error err ↔ ¬ InRange t ∧ err = .invalidThreshold t := by
  unfold Renewal.ofThreshold PercentageRenewal.ofThreshold?
  by_cases h : InRange t <;> simp [h, eq_comm]

theorem renewal_eq_error_iff {err : LifecycleError} (h : r.violations = []) :
    r.renewal = .error err ↔ r = ⟨some .nan, none⟩ ∧ err = .invalidThreshold .nan := by
  obtain ⟨threshold, always⟩ := r
  obtain ⟨hrange, -⟩ := List.append_eq_nil_iff.mp h
  cases always with
  | some always => simp [RenewalRule.renewal]
  | none =>
    cases threshold with
    | none => simp [RenewalRule.renewal, ofThreshold_eq_error_iff, inRange_default]
    | some t =>
      have ht : InRange t ∨ t = .nan := isInRange_iff.mp (demand_eq_nil.mp hrange)
      by_cases hnan : t = .nan
      · simp [RenewalRule.renewal, ofThreshold_eq_error_iff, hnan, not_inRange_nan]
      · simp [RenewalRule.renewal, ofThreshold_eq_error_iff, hnan, ht.resolve_right hnan]

end Threshold

end Configuration

def CliError.Refuses (refusal : Option LifecycleError) : CliError → Prop
  | .lifecycle cause => cause.IsArgument → refusal = some cause
  | _ => True

theorem CliError.eq_of_isInvalidArgs {x : Except CliError Unit}
    (h : (x matches .error (.lifecycle .invalidArgs)) = true) :
    x = .error (.lifecycle .invalidArgs) := by
  split at h
  · rfl
  · cases h

section Stores

open CliError

variable {refusal : Option LifecycleError} {e : Environment}

namespace Configuration

theorem errorsIn_slot (mode : Nat) (path : String) :
    ErrorsIn (Refuses refusal) (slot e mode path) := by
  refine errorsIn_bind ?_ fun _ => errorsIn_ok _
  unfold Environment.expandPath
  split
  · exact errorsIn_ok _
  · exact errorsIn_ok _
  · exact errorsIn_error trivial

theorem errorsIn_slot? (mode : Nat) (path : Option String) :
    ErrorsIn (Refuses refusal) (slot? e mode path) := by
  cases path with
  | none => exact errorsIn_ok _
  | some p => exact errorsIn_bind (errorsIn_slot mode p) fun _ => errorsIn_ok _

theorem errorsIn_destination (p : Paths) : ErrorsIn (Refuses refusal) (p.destination e) :=
  errorsIn_bind (errorsIn_slot? _ _) fun _ => errorsIn_bind (errorsIn_slot? _ _) fun _ =>
    errorsIn_bind (errorsIn_slot _ _) fun _ => errorsIn_mapError fun _ _ => trivial

theorem errorsIn_bundleStore (ps : List Paths) :
    ErrorsIn (Refuses refusal) (bundleStore e ps) := by
  unfold bundleStore
  split
  · exact errorsIn_error trivial
  · exact errorsIn_bind (errorsIn_destination _) fun _ => errorsIn_ok _
  · exact errorsIn_bind (errorsIn_mapM errorsIn_destination _) fun _ =>
      errorsIn_bind (errorsIn_mapError fun _ _ => trivial) fun _ => errorsIn_ok _

theorem errorsIn_signingStore (paths : Option SigningPaths) :
    ErrorsIn (Refuses refusal) (signingStore e paths) := by
  cases paths with
  | none => exact errorsIn_error trivial
  | some p =>
    exact errorsIn_bind (errorsIn_slot _ _) fun _ => errorsIn_bind (errorsIn_slot _ _) fun _ =>
      errorsIn_bind (errorsIn_slot? _ _) fun _ => errorsIn_ok _

theorem errorsIn_blobStore (path : Option String) :
    ErrorsIn (Refuses refusal) (blobStore e path) :=
  errorsIn_bind (errorsIn_slot? _ _) fun _ => errorsIn_ok _

end Configuration

end Stores

namespace CommandLine

open CliError CertLifecycle.Configuration

def Command.refusal? (s : Subject) : Command → Option LifecycleError
  | .issue | .sign => if Text.AllBlank s.commonName then some .invalidArgs else none
  | .revoke serial => if Text.AllBlank serial then some .emptySerial else none
  | .tidy | .readAcme | .verify | .fetchCa _ | .fetchCrl _ => none

namespace Runner

variable {κ α σ : Type}

theorem refuses_ofStorage {refusal : Option LifecycleError}
    (action : ExceptT StorageError (Run κ) α) :
    FailsWith (Refuses refusal) (ofStorage action) :=
  failsWith_mapError fun _ _ _ _ => trivial

variable [Authority κ]

theorem refuses_ofLifecycle [Slot σ (Run κ)] [Described σ] (op : Operation σ) (s : Service) :
    FailsWith (Refuses op.refusal?)
      (ofLifecycle (op.action s) : ExceptT CliError (Run κ) op.Result) :=
  failsWith_mapError fun _ _ _ h => Operation.refusal?_of_isArgument h

theorem refuses_run (r : Runner) (cmd : Command) :
    FailsWith (Refuses (cmd.refusal? r.configuration.subject))
      (r.run cmd : ExceptT CliError (Run κ) Unit) := by
  cases cmd with
  | issue =>
    exact failsWith_bind (failsWith_mk_pure (errorsIn_bundleStore _)) fun store =>
      failsWith_bind (refuses_ofStorage _) fun _ =>
        failsWith_bind
          (refuses_ofLifecycle (.issue store r.configuration.subject.issueArgs) r.service)
          fun _ => failsWith_lift _
  | readAcme =>
    exact failsWith_bind (failsWith_mk_pure (errorsIn_bundleStore _)) fun store =>
      failsWith_bind (refuses_ofStorage _) fun _ =>
        failsWith_bind (refuses_ofLifecycle (.readAcme store _) r.service) fun _ =>
          failsWith_lift _
  | verify =>
    exact failsWith_bind (failsWith_mk_pure (errorsIn_bundleStore _)) fun store =>
      failsWith_bind (refuses_ofStorage _) fun cert =>
        failsWith_bind (refuses_ofLifecycle (.verify cert : Operation FileSlot) r.service) fun _ =>
          failsWith_lift _
  | sign =>
    exact failsWith_bind (failsWith_mk_pure (errorsIn_signingStore _)) fun store =>
      failsWith_bind (refuses_ofStorage _) fun _ =>
        failsWith_bind (refuses_ofStorage _) fun _ =>
          refuses_ofLifecycle (.sign store r.configuration.subject.issueArgs) r.service
  | revoke serial => exact refuses_ofLifecycle (.revoke serial : Operation FileSlot) r.service
  | tidy => exact refuses_ofLifecycle (.tidy : Operation FileSlot) r.service
  | fetchCa der =>
    exact failsWith_bind (failsWith_mk_pure (errorsIn_blobStore _)) fun store =>
      refuses_ofLifecycle (.fetchCa store der) r.service
  | fetchCrl der =>
    exact failsWith_bind (failsWith_mk_pure (errorsIn_blobStore _)) fun store =>
      refuses_ofLifecycle (.fetchCrl store der) r.service

theorem fails_ofLifecycle [Slot σ (Run κ)] [Described σ] (op : Operation σ) {e : LifecycleError}
    (h : op.refusal? = some e) (s : Service) :
    Fails (ofLifecycle (op.action s) : ExceptT CliError (Run κ) op.Result) := by
  refine fails_mapError fun w v x hx => ?_
  rw [Operation.perform_of_refusal h] at hx
  cases hx

theorem fails_run {r : Runner} {cmd : Command} {e : LifecycleError}
    (h : cmd.refusal? r.configuration.subject = some e) :
    Fails (r.run cmd : ExceptT CliError (Run κ) Unit) := by
  cases cmd with
  | issue =>
    exact fails_bind _ fun store => fails_bind _ fun _ =>
      fails_bind_left
        (fails_ofLifecycle (.issue store r.configuration.subject.issueArgs) h r.service) _
  | sign =>
    exact fails_bind _ fun store => fails_bind _ fun _ => fails_bind _ fun _ =>
      fails_ofLifecycle (.sign store r.configuration.subject.issueArgs) h r.service
  | revoke serial => exact fails_ofLifecycle (.revoke serial : Operation FileSlot) h r.service
  | _ => cases h

end Runner

variable {c : Configuration} {e : Environment}

theorem checked_of_isValid (h : c.IsValid) : checked c = .ok c := by
  have hc : c.violations = [] := h
  rw [checked, hc]

theorem client_ne_lifecycle (s : Server) (cause : LifecycleError) :
    s.client e ≠ .error (.lifecycle cause) := by
  unfold Server.client
  split <;> simp

theorem launch_eq (h : c.IsValid) : Launch.ofConfiguration e c = (do
    let server ← c.server.client e
    return ⟨← Runner.ofConfiguration e c, server⟩) := by
  rw [Launch.ofConfiguration, checked_of_isValid h]
  rfl

theorem launch_error_iff (h : c.IsValid) {err : LifecycleError} :
    Launch.ofConfiguration e c = .error (.lifecycle err) ↔
      (∃ server, c.server.client e = .ok server) ∧ c.renewal.renewal = .error err := by
  rw [launch_eq h]
  cases hs : c.server.client e with
  | error cause =>
    have hne : cause ≠ .lifecycle err := fun hc => client_ne_lifecycle _ err (hc ▸ hs)
    simp only [reduceCtorEq, exists_false, false_and, iff_false]
    exact fun heq => hne (Except.error.inj heq)
  | ok server =>
    rw [Runner.ofConfiguration]
    cases c.renewal.renewal with
    | error err' =>
      constructor
      · intro heq
        cases heq
        exact ⟨⟨server, rfl⟩, rfl⟩
      · rintro ⟨-, ⟨⟩⟩
        rfl
    | ok renewal =>
      constructor
      · intro heq
        cases heq
      · rintro ⟨-, ⟨⟩⟩

theorem configuration_of_launch (h : c.IsValid) {l : Launch}
    (hl : Launch.ofConfiguration e c = .ok l) : l.runner.configuration = c := by
  rw [launch_eq h, Runner.ofConfiguration] at hl
  cases hs : c.server.client e <;> cases hr : c.renewal.renewal <;> rw [hs, hr] at hl <;> cases hl
  rfl

end CommandLine

namespace Configuration

/-- What the lifecycle's own checks still find in a configuration that keeps its rules. -/
structure ValidatedRuns (κ : Type) [Authority κ] (e : Environment) (c : Configuration) : Prop where
  threshold : ∀ err, c.renewal.renewal = .error err ↔
    c.renewal = ⟨some .nan, none⟩ ∧ err = .invalidThreshold .nan
  -- A name that is white space is a name to the configuration.
  name : c.subject.commonName ≠ "" ∧
    (c.subject.issueArgs.IsValid ↔ ∃ char ∈ c.subject.commonName.toList, Text.isBlank char = false)
  launch : ∀ err, Launch.ofConfiguration e c = .error (.lifecycle err) ↔
    (∃ server, c.server.client e = .ok server) ∧ c.renewal.renewal = .error err
  -- A serial number is no part of the configuration.
  only : ∀ l, Launch.ofConfiguration e c = .ok l → ∀ cmd (w v : World κ) err,
    w.perform (l.runner.run cmd) = (.error (.lifecycle err), v) → err.IsArgument →
      cmd.refusal? c.subject = some err
  refused : ∀ l, Launch.ofConfiguration e c = .ok l → ∀ cmd err,
    cmd.refusal? c.subject = some err →
      Fails (l.runner.run cmd : ExceptT CliError (Run κ) Unit)

theorem validatedRuns {κ : Type} [Authority κ] {c : Configuration} (h : c.IsValid)
    (e : Environment) : ValidatedRuns κ e c where
  threshold err := renewal_eq_error_iff (isValid_iff.mp h).2.1
  name := by
    refine ⟨of_decide_eq_true (demand_eq_nil.mp (isValid_iff.mp h).2.2.1), ?_⟩
    simp [IssueArgs.IsValid, Text.AllBlank, Subject.issueArgs]
  launch err := launch_error_iff h
  only l hl cmd w v err hv he := by
    have hrun := Runner.refuses_run l.runner cmd w v _ hv he
    rwa [configuration_of_launch h hl] at hrun
  refused l hl cmd err he := by
    rw [← configuration_of_launch h hl] at he
    exact Runner.fails_run he

theorem validatedRuns_daily :
    let c : Configuration :=
      { server := { address := "http://v", role := "r" }
        subject := { commonName := "a" }
        destinations := [{ key := "k.pem" }] }
    c.IsValid ∧ ValidatedRuns Script { token := some "t" } c := by
  intro c
  have h : c.IsValid := by decide +kernel
  exact ⟨h, validatedRuns h _⟩

theorem exists_refused_of_isValid :
    let e : Environment := { token := some "t" }
    let unordered : Configuration :=
      { server := { address := "http://v", role := "r" }
        renewal := { threshold := some .nan }
        subject := { commonName := "a" } }
    let blank : Configuration :=
      { server := { address := "http://v", role := "r" }
        renewal := { always := some true }
        subject := { commonName := " " }
        destinations := [{ key := "k.pem" }] }
    let w : World Script := { authority := .empty, readings := fun _ => 0 }
    (unordered.IsValid ∧
      Launch.ofConfiguration e unordered = .error (.lifecycle (.invalidThreshold .nan))) ∧
    blank.IsValid ∧ ¬ blank.subject.issueArgs.IsValid ∧
      ∃ l, Launch.ofConfiguration e blank = .ok l ∧
        (w.perform (l.runner.run .issue)).1 = .error (.lifecycle .invalidArgs) := by
  intro e unordered blank w
  have hu : unordered.IsValid := by decide +kernel
  have hb : blank.IsValid := by decide +kernel
  refine ⟨⟨hu, ?_⟩, hb, by decide +kernel, ?_⟩
  · have hr := (renewal_eq_error_iff (isValid_iff.mp hu).2.1).mpr ⟨rfl, rfl⟩
    exact (launch_error_iff hu).mpr ⟨⟨_, rfl⟩, hr⟩
  · refine ⟨_, launch_eq hb, ?_⟩
    exact CliError.eq_of_isInvalidArgs (by decide +kernel)

end Configuration

end CertLifecycle
