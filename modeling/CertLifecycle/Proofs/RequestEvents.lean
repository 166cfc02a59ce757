import CertLifecycle.Proofs.OperationRuns

namespace CertLifecycle

open World Retry Service

variable {κ : Type} {k : CaMethod}

namespace World

def Repeats (r : CaRequest k) (w v : World κ) : Prop :=
  ∃ n, v.events = w.events ++ List.replicate n (.call k r)

variable {r : CaRequest k} {w v : World κ}

theorem repeats_of_events (h : v.events = w.events) : Repeats r w v :=
  ⟨0, by simp [h]⟩

instance : IsPreorder (World κ) (Repeats r) where
  refl _ := repeats_of_events rfl
  trans w v u h g := by
    obtain ⟨m, hm⟩ := h
    obtain ⟨n, hn⟩ := g
    exact ⟨m + n, by rw [hn, hm, List.append_assoc, List.replicate_append_replicate]⟩

theorem repeats_logged (e : LogEvent) (w : World κ) : Repeats r w (w.logged e) :=
  repeats_of_events rfl

theorem events_wait (d : Duration) (w : World κ) : (w.wait d).2.events = w.events := by
  have h := waited d w
  generalize w.wait d = o at h ⊢
  cases h <;> rfl

theorem repeats_of_wait {d : Duration} {b : Bool} (h : w.wait d = (b, v)) : Repeats r w v := by
  have hwait := events_wait d w
  rw [h] at hwait
  exact repeats_of_events hwait

variable [Authority κ]

theorem events_ask (r : CaRequest k) (w : World κ) :
    (w.ask r).2.events = w.events ++ [.call k r] := by
  rw [ask_snd]
  split
  · rfl
  · exact events_wait _ _

theorem repeats_of_ask {o : Option (Except CaError k.Answer)} (h : w.ask r = (o, v)) :
    Repeats r w v := by
  have hask := events_ask r w
  rw [h] at hask
  exact ⟨1, hask⟩

end World

namespace Retry.Iteration

variable [Authority κ] {config : RetryConfig} {r : CaRequest k} {i j : Iteration κ}

theorem repeats_of_next (h : Next config r i j) : Repeats r i.world j.world := by
  cases h with
  | mk live answer retryable paused =>
    exact trans_of _ (repeats_of_ask answer)
      (trans_of _ (repeats_logged _ _) (repeats_of_wait paused))

theorem repeats_of_reaches (h : Reaches config r i j) : Repeats r i.world j.world := by
  induction h with
  | refl => exact refl_of _ _
  | tail _ hstep ih => exact trans_of _ ih (repeats_of_next hstep)

theorem repeats_of_ends {o : Except Failure k.Answer × World κ} (h : Ends r i o) :
    Repeats r i.world o.2 := by
  cases h with
  | canceled => exact refl_of _ _
  | cutShort _ pending => exact repeats_of_ask pending
  | answered _ answer => exact repeats_of_ask answer
  | permanent _ answer _ => exact trans_of _ (repeats_of_ask answer) (repeats_logged _ _)
  | exhausted _ answer _ _ => exact trans_of _ (repeats_of_ask answer) (repeats_logged _ _)
  | backoff _ answer _ _ cut =>
    exact trans_of _ (repeats_of_ask answer)
      (trans_of _ (repeats_logged _ _) (repeats_of_wait cut))

theorem repeats_outcome (config : RetryConfig) (r : CaRequest k) (i : Iteration κ) :
    Repeats r i.world (i.outcome config r).2 := by
  obtain ⟨j, hj, hend⟩ := exists_ends config r i
  exact trans_of _ (repeats_of_reaches hj) (repeats_of_ends hend)

theorem answered_of_outcome {a : k.Answer} {v : World κ} (h : i.outcome config r = (.ok a, v)) :
    ∃ u, Repeats r i.world u ∧ u.ask r = (some (.ok a), v) := by
  obtain ⟨j, hj, hend⟩ := exists_ends config r i
  rw [h] at hend
  cases hend with
  | answered _ answer => exact ⟨j.world, repeats_of_reaches hj, answer⟩

end Retry.Iteration

namespace Service

variable [Authority κ] {s : Service} {r : CaRequest k} {w v : World κ}

theorem repeats_of_request {o : Except LifecycleError k.Answer}
    (h : w.perform (s.request r) = (o, v)) : Repeats r w v := by
  rw [perform_request] at h
  obtain ⟨-, rfl⟩ := Prod.mk.inj h
  exact Iteration.repeats_outcome s.retry r (.first s.retry w)

theorem answered_of_request {a : k.Answer} (h : w.perform (s.request r) = (.ok a, v)) :
    ∃ u, Repeats r w u ∧ u.ask r = (some (.ok a), v) := by
  rw [perform_request] at h
  rcases hout : (Iteration.first s.retry w).outcome s.retry r with ⟨f | b, x⟩ <;> rw [hout] at h
  · cases h
  · cases h
    exact Iteration.answered_of_outcome hout

end Service

end CertLifecycle
