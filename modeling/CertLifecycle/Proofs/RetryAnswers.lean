import CertLifecycle.Proofs.CancellationSafety
import Mathlib.Logic.Function.Iterate

namespace CertLifecycle

open World Retry Service

variable {κ σ α : Type} {k : CaMethod}

def RetryConfig.delayAt (config : RetryConfig) : Nat → Duration
  | 0 => config.firstDelay
  | n + 1 => config.nextDelay (config.delayAt n)

namespace Retry

def Final : Except CaError α → Prop
  | .ok _ => True
  | .error e => e.permanent = true

def retryEvents (config : RetryConfig) (k : CaMethod) (es : List CaError) : List LogEvent :=
  es.mapIdx fun n e => retryEvent k (n + 1) (config.delayAt n) e

def endEvents (k : CaMethod) (retries : Nat) : Except CaError α → List LogEvent
  | .ok _ => []
  | .error e => [if e.permanent = true then permanentEvent k e else exhaustedEvent k retries e]

theorem exists_retryable {a : Except CaError α} (h : ¬ Final a) :
    ∃ e, a = .error e ∧ e.permanent = false := by
  cases a with
  | ok a => exact absurd trivial h
  | error e => exact ⟨e, rfl, Bool.eq_false_iff.mpr h⟩

theorem retryEvents_concat (config : RetryConfig) (es : List CaError) (e : CaError) :
    retryEvents config k (es ++ [e]) = retryEvents config k es ++
      [retryEvent k (es.length + 1) (config.delayAt es.length) e] :=
  List.mapIdx_concat

theorem retry_warnings (config : RetryConfig) (es : List CaError) (n : Nat) (a : Except CaError α) :
    ((retryEvents config k es ++ endEvents k n a).filter (·.level = .warn)).map LogEvent.retry =
      (List.range es.length).map fun m => some (m + 1) := by
  have hretry : (retryEvents config k es).filter (·.level = .warn) = retryEvents config k es := by
    apply List.filter_eq_self.mpr
    intro event hevent
    obtain ⟨m, hm, rfl⟩ := List.mem_mapIdx.mp hevent
    rfl
  have hend : (endEvents k n a).filter (·.level = .warn) = [] := by
    cases a with
    | ok a => rfl
    | error e => cases hp : e.permanent <;> simp [endEvents, hp, permanentEvent, exhaustedEvent]
  rw [List.filter_append, hretry, hend, List.append_nil]
  apply List.ext_getElem
  · simp [retryEvents]
  · intro m hm hm'
    simp [retryEvents, retryEvent]

section

variable [Authority κ]

def authorityAfter (r : CaRequest k) (n : Nat) (a : κ) : κ :=
  (fun a => (Authority.respond a r).2)^[n] a

def answerAt (r : CaRequest k) (w : World κ) (n : Nat) : Except CaError k.Answer :=
  (Authority.respond (authorityAfter r n w.authority) r).1.answer

theorem authorityAfter_succ (r : CaRequest k) (n : Nat) (a : κ) :
    authorityAfter r (n + 1) a = (Authority.respond (authorityAfter r n a) r).2 :=
  Function.iterate_succ_apply' _ n a

namespace Iteration

variable {config : RetryConfig} {r : CaRequest k} {w : World κ} {i j : Iteration κ} {n : Nat}

structure After (config : RetryConfig) (r : CaRequest k) (w : World κ) (n : Nat)
    (i : Iteration κ) : Prop where
  reached : Reaches config r (.first config w) i
  left : i.left + n = config.maxRetries.toNat
  done : i.done = n
  delay : i.delay = config.delayAt n
  authority : i.world.authority = authorityAfter r n w.authority
  calls : i.world.callsOf k = w.callsOf k + n
  logs : ∃ es : List CaError, es.length = n ∧ (∀ e ∈ es, e.permanent = false) ∧
    (List.range n).map (answerAt r w) = es.map .error ∧
    i.world.logs = w.logs ++ retryEvents config k es

theorem after_first (config : RetryConfig) (r : CaRequest k) (w : World κ) :
    After config r w 0 (.first config w) where
  reached := .refl
  left := rfl
  done := rfl
  delay := rfl
  authority := rfl
  calls := rfl
  logs := ⟨[], rfl, nofun, rfl, (List.append_nil _).symm⟩

theorem After.reply (h : After config r w n i) : (i.world.reply r).answer = answerAt r w n := by
  rw [World.reply, h.authority, answerAt]

theorem After.step (h : After config r w n i) (hstep : Next config r i j) :
    After config r w (n + 1) j := by
  have hleft := h.left
  have hdone := h.done
  have hdelay := h.delay
  have hanswer := h.reply
  have hreached := h.reached.tail hstep
  have hcalls := callsOf_ask r i.world
  have hauthority := authority_ask r i.world
  have hlogs := logs_ask r i.world
  obtain ⟨es, hlength, hretryable, hes, hbefore⟩ := h.logs
  cases hstep with
  | @mk left done delay u v x e live answer retryable paused =>
    have hwait := congrArg Prod.snd paused
    rw [answer] at hcalls hauthority hlogs
    rw [answer_of_ask answer] at hanswer
    dsimp only at *
    subst hdone hdelay
    refine ⟨hreached, by dsimp only; omega, rfl, rfl, ?_, ?_, es ++ [e], ?_, ?_, ?_, ?_⟩
    · rw [← hwait, authority_wait, authorityAfter_succ, ← h.authority]
      exact hauthority
    · have hbefore := h.calls
      rw [← hwait, callsOf_wait]
      change v.callsOf k = _
      rw [hcalls, hbefore]
      omega
    · simp [hlength]
    · intro e' he'
      rcases List.mem_append.mp he' with he' | he'
      · exact hretryable e' he'
      · rw [List.mem_singleton.mp he']
        exact retryable
    · rw [List.range_succ, List.map_append, List.map_append, hes]
      simp [hanswer]
    · rw [← hwait, logs_wait]
      change v.logs ++ _ = _
      rw [hlogs, hbefore, retryEvents_concat, hlength, List.append_assoc]

theorem exists_after_of_reaches (h : Reaches config r (.first config w) i) :
    ∃ n, After config r w n i := by
  induction h with
  | refl => exact ⟨0, after_first config r w⟩
  | tail _ hstep ih =>
    obtain ⟨n, hn⟩ := ih
    exact ⟨n + 1, hn.step hstep⟩

theorem answered_of_live (live : (i.outcome config r).2.canceled = false) :
    ∃ v, i.world.ask r = (some (i.world.reply r).answer, v) ∧
      (Final (i.world.reply r).answer ∨ i.left = 0 →
        i.outcome config r = ((i.world.reply r).answer.mapError .failed,
          { v with logs := v.logs ++ endEvents k i.done (i.world.reply r).answer })) ∧
      (¬ Final (i.world.reply r).answer → i.left ≠ 0 → ∃ j, Next config r i j) := by
  obtain ⟨o, ho⟩ | ⟨j, hj, -⟩ := ends_or_next config r i
  · rw [outcome_of_ends ho] at live ⊢
    cases ho with
    | canceled hc =>
      rw [hc] at live
      cases live
    | cutShort _ pending =>
      rw [canceled_of_ask_none pending] at live
      cases live
    | @answered v a _ answer =>
      rw [answer_of_ask answer]
      refine ⟨v, answer, ?_, fun h => absurd trivial h⟩
      simp [endEvents]
    | @permanent v e _ answer hp =>
      rw [answer_of_ask answer]
      refine ⟨v, answer, ?_, fun h => absurd hp h⟩
      simp [endEvents, hp, World.logged]
    | @exhausted v e _ answer retryable last =>
      rw [answer_of_ask answer]
      refine ⟨v, answer, ?_, fun _ h => absurd last h⟩
      simp [endEvents, retryable, World.logged]
    | backoff live' answer retryable more cut =>
      have hc := canceled_of_ends (.backoff live' answer retryable more cut) rfl
      rw [live] at hc
      cases hc
  · refine ⟨(i.world.ask r).2, ?_, ?_, fun _ _ => ⟨j, hj⟩⟩
    · cases hj with
      | mk live answer retryable paused => rw [answer, answer_of_ask answer]
    · cases hj with
      | mk live answer retryable paused =>
        rw [answer_of_ask answer]
        rintro (hp | hleft)
        · rw [Final, retryable] at hp
          cases hp
        · cases hleft

structure EndsAfter (config : RetryConfig) (r : CaRequest k) (w : World κ) (n : Nat) : Prop where
  calls : ((first config w).outcome config r).2.callsOf k = w.callsOf k + (n + 1)
  result : ((first config w).outcome config r).1 = (answerAt r w n).mapError .failed
  logs : ∃ es : List CaError, es.length = n ∧ (∀ e ∈ es, e.permanent = false) ∧
    (List.range n).map (answerAt r w) = es.map .error ∧
    ((first config w).outcome config r).2.logs =
      w.logs ++ (retryEvents config k es ++ endEvents k n (answerAt r w n))
  warned : ((((first config w).outcome config r).2.logs.drop w.logs.length).filter
    (·.level = .warn)).map LogEvent.retry = (List.range n).map fun m => some (m + 1)

theorem outcome_of_after (h : After config r w n i) :
    (first config w).outcome config r = i.outcome config r :=
  outcome_of_reaches h.reached

variable (live : ((first config w).outcome config r).2.canceled = false)

include live

theorem exists_after (hretryable : ∀ m < n, ¬ Final (answerAt r w m))
    (hn : n ≤ config.maxRetries.toNat) : ∃ i, After config r w n i := by
  induction n with
  | zero => exact ⟨_, after_first config r w⟩
  | succ n ih =>
    obtain ⟨i, hi⟩ := ih (fun m hm => hretryable m (by omega)) (by omega)
    have hleft := hi.left
    rw [outcome_of_after hi] at live
    obtain ⟨v, -, -, hnext⟩ := answered_of_live live
    rw [hi.reply] at hnext
    obtain ⟨j, hj⟩ := hnext (hretryable n (by omega)) (by omega)
    exact ⟨j, hi.step hj⟩

theorem After.ends (h : After config r w n i)
    (hend : Final (answerAt r w n) ∨ n = config.maxRetries.toNat) : EndsAfter config r w n := by
  have hleft := h.left
  obtain ⟨es, hlength, hretryable, hes, hlogs⟩ := h.logs
  have hrun := outcome_of_after h
  rw [hrun] at live
  obtain ⟨v, hask, hlast, -⟩ := answered_of_live live
  have hcalls := callsOf_ask r i.world
  have hasked := logs_ask r i.world
  rw [hask] at hcalls hasked
  rw [h.reply] at hlast
  have hout := hlast (hend.imp_right fun hn => by omega)
  rw [h.done, hasked, hlogs, List.append_assoc] at hout
  rw [← hrun] at hout
  refine ⟨?_, by rw [hout], ⟨es, hlength, hretryable, hes, by rw [hout]⟩, ?_⟩
  · rw [hout]
    change v.callsOf k = _
    rw [hcalls, h.calls, Nat.add_assoc]
  · rw [hout, List.drop_left, retry_warnings, hlength]

end Iteration

end

end Retry

structure AnswersDecide [Authority κ] [Slot σ (Run κ)] [Described σ] (s : Service)
    (r : CaRequest k) (w : World κ) : Prop where
  -- The first answer that is final ends the run, if retries reach it.
  answered : ∀ {n}, Final (answerAt r w n) → (∀ m < n, ¬ Final (answerAt r w m)) →
    n ≤ s.retry.maxRetries.toNat → Iteration.EndsAfter s.retry r w n
  -- Otherwise the last retry does.
  exhausted : (∀ n ≤ s.retry.maxRetries.toNat, ¬ Final (answerAt r w n)) →
    Iteration.EndsAfter s.retry r w s.retry.maxRetries.toNat ∧
      ∃ e, e.permanent = false ∧ answerAt r w s.retry.maxRetries.toNat = .error e ∧
        ((Iteration.first s.retry w).outcome s.retry r).1 = .error (.failed e)
  -- Each retry is counted, and a 32-bit word holds the count.
  counted : ∀ {i j}, Iteration.Reaches s.retry r (.first s.retry w) i →
    Iteration.Next s.retry r i j →
    j.done = i.done + 1 ∧ j.done ≤ s.retry.maxRetries.toNat ∧ j.done < UInt32.size
  -- A failure is reported as that of the operation, with its cause.
  wrapped : ∀ {op : Operation σ} {v : World κ} {e : CaError}, op.Asks s v r w →
    ((Iteration.first s.retry w).outcome s.retry r).1 = .error (.failed e) →
    (w.perform (s.request r)).1 = .error (.authority k e) ∧
      (op.forgives k = false → (v.perform (op.action s)).1 = .error (.authority k e))

theorem answers_decide [Authority κ] [Slot σ (Run κ)] [Described σ] (s : Service)
    (r : CaRequest k) {w : World κ}
    (live : ((Iteration.first s.retry w).outcome s.retry r).2.canceled = false) :
    AnswersDecide (σ := σ) s r w where
  answered {n} hfinal hbefore hn := by
    obtain ⟨i, hi⟩ := Iteration.exists_after live hbefore hn
    exact hi.ends live (.inl hfinal)
  exhausted h := by
    obtain ⟨i, hi⟩ := Iteration.exists_after live (fun m hm => h m (by omega)) (Nat.le_refl _)
    have hends := hi.ends live (.inr rfl)
    obtain ⟨e, he, hp⟩ := exists_retryable (h _ (Nat.le_refl _))
    refine ⟨hends, e, hp, he, ?_⟩
    rw [hends.result, he]
    rfl
  counted {i j} hi hstep := by
    obtain ⟨n, hn⟩ := Iteration.exists_after_of_reaches hi
    have hleft := (hn.step hstep).left
    have hcount : j.done ≤ s.retry.maxRetries.toNat := by
      rw [(hn.step hstep).done]
      omega
    refine ⟨?_, hcount, ?_⟩
    · rw [(hn.step hstep).done, hn.done]
    · exact Nat.lt_of_le_of_lt hcount s.retry.maxRetries.toNat_lt
  wrapped {op v e} hasks hfailed := by
    obtain ⟨i, hi, hends⟩ := Iteration.exists_ends s.retry r (.first s.retry w)
    have hout : (Iteration.first s.retry w).outcome s.retry r =
        (.error (.failed e), ((Iteration.first s.retry w).outcome s.retry r).2) :=
      Prod.ext hfailed rfl
    rw [hout] at hends
    exact Operation.perform_of_failed hasks hi hends

def busyTwice : Script
  | .tidy =>
    [{ answer := .error ⟨false, .text "busy"⟩ }, { answer := .error ⟨false, .text "busy"⟩ },
      { answer := .ok () }]
  | _ => []

theorem tidy_answered_at_third :
    let w : World Script := { authority := busyTwice, readings := fun _ => 0 }
    Iteration.EndsAfter {} .tidy w 2 := by
  intro w
  have hdecide : AnswersDecide (σ := MemorySlot) { renewal := .fixed false } .tidy w :=
    answers_decide _ _ (by decide +kernel)
  refine hdecide.answered (n := 2) trivial ?_ (by decide)
  intro m hm
  match m, hm with
  | 0, _ => exact Bool.false_ne_true
  | 1, _ => exact Bool.false_ne_true

end CertLifecycle
