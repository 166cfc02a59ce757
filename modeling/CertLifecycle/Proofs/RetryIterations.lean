import CertLifecycle.Proofs.WorldRuns
import Mathlib.Logic.Relation

/-!
A run of attempts as a walk through iterations. Each iteration either ends the run or leads to the
next one, and the run ends as the last iteration of its walk does.
-/

namespace CertLifecycle.Retry

variable {κ : Type} {k : CaMethod}

structure Iteration (κ : Type) where
  left : Nat
  done : Nat
  delay : Duration
  world : World κ

namespace Iteration

def first (config : RetryConfig) (w : World κ) : Iteration κ :=
  ⟨config.maxRetries.toNat, 0, config.firstDelay, w⟩

variable [Authority κ]

def outcome (config : RetryConfig) (r : CaRequest k) (i : Iteration κ) :
    Except Failure k.Answer × World κ :=
  (attempts config r i.left i.done i.delay : Run κ _).run i.world

inductive Next (config : RetryConfig) (r : CaRequest k) : Iteration κ → Iteration κ → Prop
  | mk {left done : Nat} {delay : Duration} {w v u : World κ} {e : CaError}
    (live : w.canceled = false) (answer : w.ask r = (some (.error e), v))
    (retryable : e.permanent = false)
    (paused : (v.logged (retryEvent k (done + 1) delay e)).wait delay = (false, u)) :
    Next config r ⟨left + 1, done, delay, w⟩ ⟨left, done + 1, config.nextDelay delay, u⟩

inductive Ends (r : CaRequest k) (i : Iteration κ) : Except Failure k.Answer × World κ → Prop
  | canceled (hc : i.world.canceled = true) : Ends r i (.error .canceled, i.world)
  | cutShort {v : World κ} (live : i.world.canceled = false) (pending : i.world.ask r = (none, v)) :
    Ends r i (.error .canceled, v)
  | answered {v : World κ} {a : k.Answer} (live : i.world.canceled = false)
    (answer : i.world.ask r = (some (.ok a), v)) : Ends r i (.ok a, v)
  | permanent {v : World κ} {e : CaError} (live : i.world.canceled = false)
    (answer : i.world.ask r = (some (.error e), v)) (hp : e.permanent = true) :
    Ends r i (.error (.failed e), v.logged (permanentEvent k e))
  | exhausted {v : World κ} {e : CaError} (live : i.world.canceled = false)
    (answer : i.world.ask r = (some (.error e), v)) (retryable : e.permanent = false)
    (last : i.left = 0) :
    Ends r i (.error (.failed e), v.logged (exhaustedEvent k i.done e))
  | backoff {v u : World κ} {e : CaError} (live : i.world.canceled = false)
    (answer : i.world.ask r = (some (.error e), v)) (retryable : e.permanent = false)
    (more : i.left ≠ 0)
    (cut : (v.logged (retryEvent k (i.done + 1) i.delay e)).wait i.delay = (true, u)) :
    Ends r i (.error .canceled, u)

abbrev Reaches (config : RetryConfig) (r : CaRequest k) : Iteration κ → Iteration κ → Prop :=
  Relation.ReflTransGen (Next config r)

variable {config : RetryConfig} {r : CaRequest k} {i j : Iteration κ}

theorem outcome_eq (config : RetryConfig) (r : CaRequest k) (i : Iteration κ) :
    i.outcome config r =
      if i.world.canceled = true then (.error .canceled, i.world)
      else match i.world.ask r with
        | (none, v) => (.error .canceled, v)
        | (some (.ok a), v) => (.ok a, v)
        | (some (.error e), v) =>
          if e.permanent = true then (.error (.failed e), v.logged (permanentEvent k e))
          else match i.left with
            | 0 => (.error (.failed e), v.logged (exhaustedEvent k i.done e))
            | left + 1 =>
              match (v.logged (retryEvent k (i.done + 1) i.delay e)).wait i.delay with
              | (true, u) => (.error .canceled, u)
              | (false, u) =>
                outcome config r ⟨left, i.done + 1, config.nextDelay i.delay, u⟩ := by
  obtain ⟨left, done, delay, w⟩ := i
  rw [outcome, attempts.eq_def, World.run_isCanceled_bind]
  by_cases hc : w.canceled = true
  · rw [if_pos hc, if_pos hc, World.run_pure]
  rw [if_neg hc, if_neg hc, World.run_ask_bind]
  rcases w.ask r with ⟨_ | e | a, v⟩
  · rw [World.run_pure]
  · by_cases hp : e.permanent = true
    · simp only [if_pos hp, World.run_log_bind, World.run_pure]
    · cases left with
      | zero => simp only [if_neg hp, World.run_log_bind, World.run_pure]
      | succ left =>
        simp only [if_neg hp, World.run_log_bind, World.run_pause_bind]
        rcases (v.logged (retryEvent k (done + 1) delay e)).wait delay with ⟨_ | _, u⟩
        · simp only [outcome, if_neg Bool.false_ne_true]
        · simp only [if_pos, World.run_pure]
  · rw [World.run_pure]

theorem outcome_of_next (h : Next config r i j) : i.outcome config r = j.outcome config r := by
  cases h with
  | mk live answer retryable paused =>
    rw [outcome_eq]
    simp only [live, answer, retryable, paused, Bool.false_eq_true, if_false]

theorem outcome_of_reaches (h : Reaches config r i j) :
    i.outcome config r = j.outcome config r := by
  induction h with
  | refl => rfl
  | tail _ hstep ih => exact ih.trans (outcome_of_next hstep)

theorem outcome_of_ends {o : Except Failure k.Answer × World κ} (h : Ends r i o) :
    i.outcome config r = o := by
  rw [outcome_eq]
  cases h with
  | canceled hc => rw [if_pos hc]
  | cutShort live pending => simp only [live, pending, Bool.false_eq_true, if_false]
  | answered live answer => simp only [live, answer, Bool.false_eq_true, if_false]
  | permanent live answer hp => simp only [live, answer, hp, Bool.false_eq_true, if_false, if_true]
  | exhausted live answer retryable last =>
    simp only [live, answer, retryable, last, Bool.false_eq_true, if_false]
  | backoff live answer retryable more cut =>
    obtain ⟨n, hn⟩ := Nat.exists_eq_succ_of_ne_zero more
    simp only [live, answer, retryable, hn, cut, Bool.false_eq_true, if_false]

theorem ends_or_next (config : RetryConfig) (r : CaRequest k) (i : Iteration κ) :
    (∃ o, Ends r i o) ∨ ∃ j, Next config r i j ∧ j.left < i.left := by
  obtain ⟨left, done, delay, w⟩ := i
  by_cases hc : w.canceled = true
  · exact .inl ⟨_, .canceled hc⟩
  have live : w.canceled = false := by simpa using hc
  rcases hask : w.ask r with ⟨_ | e | a, v⟩
  · exact .inl ⟨_, .cutShort live hask⟩
  · by_cases hp : e.permanent = true
    · exact .inl ⟨_, .permanent live hask hp⟩
    have retryable : e.permanent = false := by simpa using hp
    cases left with
    | zero => exact .inl ⟨_, .exhausted live hask retryable rfl⟩
    | succ left =>
      rcases hwait : (v.logged (retryEvent k (done + 1) delay e)).wait delay with ⟨_ | _, u⟩
      · exact .inr ⟨_, .mk live hask retryable hwait, Nat.lt_succ_self left⟩
      · exact .inl ⟨_, .backoff live hask retryable (Nat.succ_ne_zero left) hwait⟩
  · exact .inl ⟨_, .answered live hask⟩

theorem exists_ends (config : RetryConfig) (r : CaRequest k) (i : Iteration κ) :
    ∃ j, Reaches config r i j ∧ Ends r j (i.outcome config r) := by
  -- By the retries that are left: each step to another iteration uses one up.
  induction hn : i.left using Nat.strongRecOn generalizing i with
  | ind n ih =>
    obtain ⟨o, ho⟩ | ⟨j, hj, hlt⟩ := ends_or_next config r i
    · exact ⟨i, .refl, outcome_of_ends ho ▸ ho⟩
    · obtain ⟨l, hl, he⟩ := ih j.left (hn ▸ hlt) j rfl
      exact ⟨l, .head hj hl, outcome_of_next hj ▸ he⟩

theorem live_of_next (h : Next config r i j) : i.world.canceled = false := by
  cases h with
  | mk live answer retryable paused => exact live

theorem asking_of_next (h : Next config r i j) : World.Asking k (i.world.ask r).2 j.world := by
  cases h with
  | mk live answer retryable paused =>
    rw [answer]
    exact (World.asking_logged _ _).trans (World.asking_of_wait paused)

variable {o : Except Failure k.Answer × World κ}

theorem asking_of_ends (live : i.world.canceled = false) (h : Ends r i o) :
    World.Asking k (i.world.ask r).2 o.2 := by
  cases h with
  | canceled hc => simp [live] at hc
  | cutShort _ pending => exact pending ▸ .refl _
  | answered _ answer => exact answer ▸ .refl _
  | permanent _ answer hp =>
    rw [answer]
    exact World.asking_logged _ _
  | exhausted _ answer retryable last =>
    rw [answer]
    exact World.asking_logged _ _
  | backoff _ answer retryable more cut =>
    rw [answer]
    exact (World.asking_logged _ _).trans (World.asking_of_wait cut)

theorem asking_of_reaches (h : Reaches config r i j) : World.Asking k i.world j.world := by
  induction h with
  | refl => exact .refl _
  | tail _ hstep ih =>
    exact (ih.trans (World.asking_ask r (live_of_next hstep))).trans (asking_of_next hstep)

theorem asking_outcome (config : RetryConfig) (r : CaRequest k) (i : Iteration κ) :
    World.Asking k i.world (i.outcome config r).2 := by
  obtain ⟨j, hj, he⟩ := exists_ends config r i
  apply (asking_of_reaches hj).trans
  by_cases hc : j.world.canceled = true
  · rw [outcome_of_reaches hj, outcome_of_ends (.canceled hc)]
    exact .refl _
  · have live : j.world.canceled = false := by simpa using hc
    exact (World.asking_ask r live).trans (asking_of_ends live he)

theorem asking_ask_outcome (config : RetryConfig) (r : CaRequest k) (i : Iteration κ)
    (live : i.world.canceled = false) :
    World.Asking k (i.world.ask r).2 (i.outcome config r).2 := by
  obtain ⟨o, ho⟩ | ⟨j, hj, -⟩ := ends_or_next config r i
  · rw [outcome_of_ends ho]
    exact asking_of_ends live ho
  · rw [outcome_of_next hj]
    exact (asking_of_next hj).trans (asking_outcome config r j)

theorem canceled_of_ends (h : Ends r i o) (ho : o.1 = .error .canceled) :
    o.2.canceled = true := by
  cases h with
  | canceled hc => exact hc
  | cutShort live pending => exact World.canceled_of_ask_none pending
  | answered live answer => simp at ho
  | permanent live answer hp => simp at ho
  | exhausted live answer retryable last => simp at ho
  | backoff live answer retryable more cut =>
    have hwait := World.canceled_of_wait (congrArg Prod.fst cut)
    rwa [cut] at hwait

theorem exists_ends_of_paused {v : World κ} {e : CaError} (live : i.world.canceled = false)
    (answer : i.world.ask r = (some (.error e), v)) (retryable : e.permanent = false)
    (more : i.left ≠ 0)
    (hc : ((v.logged (retryEvent k (i.done + 1) i.delay e)).wait i.delay).2.canceled = true) :
    ∃ j, Reaches config r i j ∧ Ends r j
      (.error .canceled, ((v.logged (retryEvent k (i.done + 1) i.delay e)).wait i.delay).2) := by
  obtain ⟨left, done, delay, w⟩ := i
  obtain ⟨left, rfl⟩ := Nat.exists_eq_succ_of_ne_zero more
  dsimp only at live answer hc ⊢
  cases hwait : ((v.logged (retryEvent k (done + 1) delay e)).wait delay).1 with
  | true => exact ⟨_, .refl, .backoff live answer retryable more (Prod.ext hwait rfl)⟩
  | false =>
    have hnext : Next config r ⟨left + 1, done, delay, w⟩
        ⟨left, done + 1, config.nextDelay delay, _⟩ :=
      .mk live answer retryable (Prod.ext hwait rfl)
    exact ⟨_, .single hnext, .canceled hc⟩

theorem canceled_of_outcome (ho : (i.outcome config r).1 = .error .canceled) :
    (i.outcome config r).2.canceled = true := by
  obtain ⟨j, -, he⟩ := exists_ends config r i
  exact canceled_of_ends he ho

end Iteration

end CertLifecycle.Retry
