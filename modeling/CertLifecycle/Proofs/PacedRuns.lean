import CertLifecycle.Proofs.RetryAnswers
import Mathlib.Data.List.Iterate

namespace CertLifecycle

open World

namespace World

variable {κ : Type}

theorem wakeTime_bounds (start : Nat) (d : Duration) :
    start + d.nanos ≤ wakeTime start d ∧
      wakeTime start d < start + d.nanos + Duration.millisecond := by
  unfold wakeTime
  have hpos : 0 < Duration.millisecond := by decide
  have hmod := Nat.mod_lt (start + d.nanos) hpos
  have hsplit := Nat.div_add_mod' (start + d.nanos) Duration.millisecond
  have hnext := Nat.add_mul ((start + d.nanos) / Duration.millisecond) 1 Duration.millisecond
  dsimp only
  split_ifs <;> omega

theorem timerSpan_le (d : Duration) : (timerSpan d).nanos ≤ d.nanos := by
  unfold timerSpan
  split_ifs with h
  · exact Nat.le_refl _
  · exact Nat.le_trans (by decide) (Nat.le_of_not_lt h)

theorem elapsed_wait_le (d : Duration) (w : World κ) :
    (w.wait d).2.elapsed ≤ max w.elapsed (w.wake d) := by
  unfold wait
  split_ifs
  · exact Nat.le_max_left _ _
  · exact Nat.le_max_left _ _
  · split
    · split_ifs
      · dsimp only
        omega
      · exact Nat.le_max_right _ _
    · exact Nat.le_max_right _ _

theorem wake_le_elapsed_wait {d : Duration} {w : World κ} (h : (w.wait d).1 = false) :
    w.wake d ≤ (w.wait d).2.elapsed := by
  have hwaited := waited d w
  generalize w.wait d = o at h hwaited ⊢
  cases hwaited with
  | atOnce hle => exact hle
  | before _ _ => cases h
  | meanwhile _ _ => cases h
  | tied t ht _ _ => exact ht.ge
  | whole t ht _ _ => exact ht.ge

end World

namespace Retry

structure Pause where
  delay : Duration
  start : Nat
  finish : Nat
  cut : Bool
  deriving DecidableEq, Repr

/-- The timer is never a whole millisecond late, and never early. It is cut short only by
cancellation, or where no clock bears the delay. -/
structure Pause.Timed (p : Pause) : Prop where
  finish_lt : p.finish < p.start + p.delay.nanos + Duration.millisecond
  le_finish : p.cut = false → p.start + (timerSpan p.delay).nanos ≤ p.finish

theorem timed_wait {κ : Type} (d : Duration) (w : World κ) :
    Pause.Timed ⟨d, w.elapsed, (w.wait d).2.elapsed, (w.wait d).1⟩ := by
  have hwake := wakeTime_bounds w.elapsed (timerSpan d)
  change _ ≤ w.wake d ∧ w.wake d < _ at hwake
  have hle := elapsed_wait_le d w
  have hspan := timerSpan_le d
  have hpos : 0 < Duration.millisecond := by decide
  constructor
  · dsimp only
    omega
  · intro hcut
    have hfinish := wake_le_elapsed_wait hcut
    dsimp only
    omega

abbrev Paced (m : Type → Type) := StateT (List Pause) m

section

variable {m : Type → Type} [Monad m]

instance [Journal m] : Journal (Paced m) where
  log e := StateT.lift (log e)

instance [AskAuthority m] : AskAuthority (Paced m) where
  ask r := StateT.lift (AskAuthority.ask r)

instance [Cancellation m] [Stopwatch m] : Cancellation (Paced m) where
  isCanceled := StateT.lift Cancellation.isCanceled
  pause d := do
    let start ← StateT.lift Stopwatch.elapsed
    let cut ← StateT.lift (Cancellation.pause d)
    let finish ← StateT.lift Stopwatch.elapsed
    modify (· ++ [⟨d, start, finish, cut⟩])
    return cut

end

variable {κ α β : Type} {k : CaMethod}

def pacedFrom (ps : List Pause) (w : World κ) (action : Paced (Run κ) α) :
    (α × List Pause) × World κ :=
  (action.run ps).run w

theorem pacedFrom_bind (ps : List Pause) (w : World κ) (a : Paced (Run κ) α)
    (f : α → Paced (Run κ) β) :
    pacedFrom ps w (a >>= f) =
      pacedFrom (pacedFrom ps w a).1.2 (pacedFrom ps w a).2 (f (pacedFrom ps w a).1.1) := rfl

theorem pacedFrom_pure (ps : List Pause) (w : World κ) (x : α) :
    pacedFrom ps w (pure x) = ((x, ps), w) := rfl

theorem pacedFrom_log (ps : List Pause) (w : World κ) (e : LogEvent) :
    pacedFrom ps w (log e) = (((), ps), w.logged e) := rfl

theorem pacedFrom_isCanceled (ps : List Pause) (w : World κ) :
    pacedFrom ps w Cancellation.isCanceled = ((w.canceled, ps), w) := rfl

theorem pacedFrom_pause (ps : List Pause) (w : World κ) (d : Duration) :
    pacedFrom ps w (Cancellation.pause d) =
      (((w.wait d).1, ps ++ [⟨d, w.elapsed, (w.wait d).2.elapsed, (w.wait d).1⟩]),
        (w.wait d).2) := rfl

theorem pacedFrom_ask [Authority κ] (ps : List Pause) (w : World κ) (r : CaRequest k) :
    pacedFrom ps w (AskAuthority.ask r) = (((w.ask r).1, ps), (w.ask r).2) := rfl

namespace Iteration

variable {config : RetryConfig} {r : CaRequest k} {i j : Iteration κ}
  {o : Except Failure k.Answer × World κ}

structure Follows (config : RetryConfig) (i : Iteration κ) (qs : List Pause) : Prop where
  delays : qs.map Pause.delay = List.iterate config.nextDelay i.delay qs.length
  length_le : qs.length ≤ i.left
  timed : ∀ q ∈ qs, q.Timed

theorem follows_nil (config : RetryConfig) (i : Iteration κ) : Follows config i [] :=
  ⟨rfl, Nat.zero_le _, nofun⟩

theorem follows_cut {q : Pause} (hq : q.delay = i.delay) (more : i.left ≠ 0) (htimed : q.Timed) :
    Follows config i [q] where
  delays := congrArg (fun d => [d]) hq
  length_le := Nat.pos_of_ne_zero more
  timed := by simpa using htimed

variable [Authority κ]

def paced (config : RetryConfig) (r : CaRequest k) (i : Iteration κ) (ps : List Pause) :
    (Except Failure k.Answer × List Pause) × World κ :=
  pacedFrom ps i.world (attempts config r i.left i.done i.delay)

def pauseTo (r : CaRequest k) (i : Iteration κ) (w : World κ) (cut : Bool) : Pause :=
  ⟨i.delay, (i.world.ask r).2.elapsed, w.elapsed, cut⟩

theorem timed_pauseTo {reply : Option (Except CaError k.Answer)} {v u : World κ} {e : LogEvent}
    {cut : Bool} (answer : i.world.ask r = (reply, v))
    (hwait : (v.logged e).wait i.delay = (cut, u)) : (i.pauseTo r u cut).Timed := by
  have htimed := timed_wait i.delay (v.logged e)
  rw [hwait] at htimed
  rw [pauseTo, answer]
  exact htimed

theorem paced_eq (config : RetryConfig) (r : CaRequest k) (i : Iteration κ) (ps : List Pause) :
    i.paced config r ps =
      if i.world.canceled = true then ((.error .canceled, ps), i.world)
      else match i.world.ask r with
        | (none, v) => ((.error .canceled, ps), v)
        | (some (.ok a), v) => ((.ok a, ps), v)
        | (some (.error e), v) =>
          if e.permanent = true then ((.error (.failed e), ps), v.logged (permanentEvent k e))
          else match i.left with
            | 0 => ((.error (.failed e), ps), v.logged (exhaustedEvent k i.done e))
            | left + 1 =>
              match (v.logged (retryEvent k (i.done + 1) i.delay e)).wait i.delay with
              | (true, u) => ((.error .canceled, ps ++ [i.pauseTo r u true]), u)
              | (false, u) =>
                paced config r ⟨left, i.done + 1, config.nextDelay i.delay, u⟩
                  (ps ++ [i.pauseTo r u false]) := by
  obtain ⟨left, done, delay, w⟩ := i
  rw [paced, attempts.eq_def, pacedFrom_bind, pacedFrom_isCanceled]
  dsimp only [pauseTo]
  by_cases hc : w.canceled = true
  · rw [if_pos hc, if_pos hc, pacedFrom_pure]
  rw [if_neg hc, if_neg hc, pacedFrom_bind, pacedFrom_ask]
  rcases w.ask r with ⟨_ | e | a, v⟩
  · rw [pacedFrom_pure]
  · by_cases hp : e.permanent = true
    · simp only [if_pos hp, pacedFrom_bind, pacedFrom_log, pacedFrom_pure]
    · cases left with
      | zero => simp only [if_neg hp, pacedFrom_bind, pacedFrom_log, pacedFrom_pure]
      | succ left =>
        simp only [if_neg hp, pacedFrom_bind, pacedFrom_log, pacedFrom_pause]
        obtain ⟨_ | _, u, hwait⟩ :
            ∃ c u, (v.logged (retryEvent k (done + 1) delay e)).wait delay = (c, u) :=
          ⟨_, _, rfl⟩
        · simp only [hwait, if_neg Bool.false_ne_true]
          rfl
        · simp only [hwait, if_true, pacedFrom_pure]
          rfl
  · rw [pacedFrom_pure]

theorem paced_of_next (h : Next config r i j) (ps : List Pause) :
    i.paced config r ps = j.paced config r (ps ++ [i.pauseTo r j.world false]) := by
  cases h with
  | mk live answer retryable paused =>
    rw [paced_eq]
    simp only [live, answer, retryable, paused, Bool.false_eq_true, if_false]

theorem paced_of_ends (h : Ends r i o) :
    (∀ ps, i.paced config r ps = ((o.1, ps), o.2)) ∨ o.1 = .error .canceled ∧ i.left ≠ 0 ∧
      (i.pauseTo r o.2 true).Timed ∧
        ∀ ps, i.paced config r ps = ((o.1, ps ++ [i.pauseTo r o.2 true]), o.2) := by
  simp only [paced_eq config r i]
  cases h with
  | canceled hc => exact .inl fun _ => if_pos hc
  | cutShort live pending => simp [live, pending]
  | answered live answer => simp [live, answer]
  | permanent live answer hp => simp [live, answer, hp]
  | exhausted live answer retryable last => simp [live, answer, retryable, last]
  | backoff live answer retryable more cut =>
    obtain ⟨n, hn⟩ := Nat.exists_eq_succ_of_ne_zero more
    refine .inr ⟨rfl, more, timed_pauseTo answer cut, ?_⟩
    simp [live, answer, retryable, hn, cut]

theorem Follows.next {qs : List Pause} (h : Follows config j qs) (hstep : Next config r i j) :
    Follows config i (i.pauseTo r j.world false :: qs) := by
  obtain ⟨hdelays, hlength, hall⟩ := h
  cases hstep with
  | mk live answer retryable paused =>
    refine ⟨?_, Nat.succ_le_succ hlength, ?_⟩
    · rw [List.map_cons, hdelays]
      rfl
    · exact List.forall_mem_cons.mpr ⟨timed_pauseTo answer paused, hall⟩

theorem exists_paced (config : RetryConfig) (r : CaRequest k) (i : Iteration κ) :
    ∃ qs, Follows config i qs ∧ ∀ ps, i.paced config r ps =
      (((i.outcome config r).1, ps ++ qs), (i.outcome config r).2) := by
  induction hn : i.left using Nat.strongRecOn generalizing i with
  | ind n ih =>
    obtain ⟨o, ho⟩ | ⟨j, hj, hlt⟩ := ends_or_next config r i
    · rw [outcome_of_ends ho]
      obtain hpaced | ⟨-, more, htimed, hpaced⟩ := paced_of_ends ho
      · refine ⟨[], follows_nil config i, fun ps => ?_⟩
        rw [hpaced, List.append_nil]
      · exact ⟨_, follows_cut rfl more htimed, hpaced⟩
    · obtain ⟨qs, hqs, hpaced⟩ := ih j.left (hn ▸ hlt) j rfl
      refine ⟨_, hqs.next hj, fun ps => ?_⟩
      rw [paced_of_next hj, hpaced, outcome_of_next hj, List.append_assoc]
      rfl

variable {w : World κ} {n : Nat}

theorem exists_paced_of_after (h : After config r w n i) :
    ∃ qs, qs.length = n ∧
      ∀ ps, (first config w).paced config r ps = i.paced config r (ps ++ qs) := by
  have hreached := h.reached
  rw [← h.done]
  clear h
  induction hreached with
  | refl => exact ⟨[], rfl, fun ps => by rw [List.append_nil]⟩
  | @tail l j _ hstep ih =>
    obtain ⟨qs, hlength, hpaced⟩ := ih
    refine ⟨qs ++ [l.pauseTo r j.world false], ?_, fun ps => ?_⟩
    · cases hstep
      simpa using hlength
    · rw [hpaced, paced_of_next hstep, List.append_assoc]

end Iteration

section

variable [Authority κ] {config : RetryConfig} {r : CaRequest k} {w : World κ} {n : Nat}

def pacedRun (config : RetryConfig) (r : CaRequest k) (w : World κ) :
    (Except Failure k.Answer × List Pause) × World κ :=
  pacedFrom [] w (run config r)

def pauses (config : RetryConfig) (r : CaRequest k) (w : World κ) : List Pause :=
  (pacedRun config r w).1.2

def plainRun (config : RetryConfig) (r : CaRequest k) (w : World κ) :
    Except Failure k.Answer × World κ :=
  (run config r : Run κ _).run w

open Iteration

theorem follows_pauses (config : RetryConfig) (r : CaRequest k) (w : World κ) :
    Follows config (first config w) (pauses config r w) ∧ pacedRun config r w =
      (((plainRun config r w).1, pauses config r w), (plainRun config r w).2) := by
  obtain ⟨qs, hqs, hpaced⟩ := exists_paced config r (first config w)
  have hrun : pacedRun config r w = (((plainRun config r w).1, qs), (plainRun config r w).2) :=
    hpaced []
  have heq : pauses config r w = qs := by rw [pauses, hrun]
  rw [heq]
  exact ⟨hqs, hrun⟩

theorem length_pauses (live : (plainRun config r w).2.canceled = false)
    (hretryable : ∀ m < n, ¬ Final (answerAt r w m)) (hn : n ≤ config.maxRetries.toNat)
    (hend : Final (answerAt r w n) ∨ n = config.maxRetries.toNat) :
    (pauses config r w).length = n := by
  obtain ⟨i, hi⟩ := exists_after live hretryable hn
  obtain ⟨qs, hlength, hpaced⟩ := exists_paced_of_after hi
  have hrun : pacedRun config r w = i.paced config r qs := hpaced []
  have hleft := hi.left
  change ((first config w).outcome config r).2.canceled = false at live
  rw [outcome_of_after hi] at live
  obtain ⟨o, ho⟩ | ⟨j, hj, -⟩ := ends_or_next config r i
  · obtain hnone | ⟨hcanceled, -⟩ := paced_of_ends ho
    · rw [pauses, hrun, hnone]
      exact hlength
    · rw [outcome_of_ends ho, canceled_of_ends ho hcanceled] at live
      cases live
  · -- Another iteration would need a retryable answer, and a retry that is left.
    have hreply := hi.reply
    cases hj with
    | mk _ answer retryable _ =>
      rw [answer_of_ask answer] at hreply
      dsimp only at hleft
      rw [← hreply, Final, retryable] at hend
      obtain hend | hend := hend
      · cases hend
      · omega

end

end Retry

end CertLifecycle
