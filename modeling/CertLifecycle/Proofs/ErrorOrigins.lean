import CertLifecycle.Proofs.OperationRuns

namespace CertLifecycle

open World Retry Service

section

variable {ε ε' α β : Type} {P : ε → Prop} {Q : ε' → Prop}

def ErrorsIn (P : ε → Prop) (x : Except ε α) : Prop :=
  ∀ e, x = .error e → P e

theorem errorsIn_bind {x : Except ε α} {f : α → Except ε β}
    (hx : ErrorsIn P x) (hf : ∀ a, ErrorsIn P (f a)) : ErrorsIn P (x >>= f) := by
  intro e h
  cases x with
  | error e' => exact hx e (congrArg Except.error (Except.error.inj h))
  | ok a => exact hf a e h

theorem errorsIn_ok (a : α) : ErrorsIn P (.ok a) :=
  fun _ h => nomatch h

theorem errorsIn_error {e : ε} (h : P e) : ErrorsIn P (.error e : Except ε α) := by
  rintro _ ⟨⟩
  exact h

theorem errorsIn_mapM {f : α → Except ε β} (h : ∀ a, ErrorsIn P (f a)) (as : List α) :
    ErrorsIn P (as.mapM f) := by
  induction as with
  | nil => exact errorsIn_ok []
  | cons a as ih =>
    rw [List.mapM_cons]
    exact errorsIn_bind (h a) fun _ => errorsIn_bind ih fun _ => errorsIn_ok _

theorem errorsIn_mapError {g : ε → ε'} {x : Except ε α} (h : ErrorsIn (fun e => Q (g e)) x) :
    ErrorsIn Q (x.mapError g) := by
  cases x with
  | error e => exact errorsIn_error (h e rfl)
  | ok a => exact errorsIn_ok a

end

namespace Trust

variable {Q : LifecycleError → Prop}

theorem errorsIn_anchor (h : ∀ text, Q (.invalidData text)) (chain : Bytes) :
    ErrorsIn Q (anchor chain) := by
  refine errorsIn_bind (errorsIn_mapError fun _ _ => h _) fun blocks => ?_
  cases blocks with
  | nil => exact errorsIn_error (h _)
  | cons b bs =>
    dsimp only
    split
    · exact errorsIn_error (h _)
    · exact errorsIn_mapError fun _ _ => h _

theorem errorsIn_verifyAt (hdata : ∀ text, Q (.invalidData text))
    (hfailed : ∀ text, Q (.verificationFailed text)) (anchorNow leafNow : Int) (c : Certificate)
    (chain : Bytes) : ErrorsIn Q (verifyAt anchorNow leafNow c chain) := by
  refine errorsIn_bind (errorsIn_anchor hdata chain) fun ca => ?_
  dsimp only
  split
  · exact errorsIn_error (hfailed _)
  split
  · exact errorsIn_error (hfailed _)
  split
  · exact errorsIn_error (hfailed _)
  refine errorsIn_bind (errorsIn_mapError fun _ _ => hfailed _) fun _ => ?_
  split
  · exact errorsIn_error (hfailed _)
  · exact errorsIn_ok _

end Trust

section

variable {κ ε ε' α β : Type} {P : ε → Prop} {Q : ε' → Prop}

def FailsWith (P : ε → Prop) (a : ExceptT ε (Run κ) α) : Prop :=
  ∀ (w v : World κ) e, w.perform a = (.error e, v) → P e

theorem failsWith_pure (x : α) : FailsWith P (pure x : ExceptT ε (Run κ) α) :=
  fun _ _ _ h => nomatch h

theorem failsWith_throw {e : ε} (h : P e) : FailsWith P (throw e : ExceptT ε (Run κ) α) := by
  intro w v e' he
  cases he
  exact h

theorem failsWith_lift (a : Run κ α) : FailsWith P (ExceptT.lift a : ExceptT ε (Run κ) α) :=
  fun _ _ _ h => nomatch h

theorem failsWith_mk_pure {x : Except ε α} (h : ErrorsIn P x) :
    FailsWith P (ExceptT.mk (pure x) : ExceptT ε (Run κ) α) :=
  fun _ _ e he => h e (Prod.mk.inj he).1

theorem failsWith_bind {a : ExceptT ε (Run κ) α} {f : α → ExceptT ε (Run κ) β}
    (ha : FailsWith P a) (hf : ∀ x, FailsWith P (f x)) : FailsWith P (a >>= f) := by
  intro w v e h
  rw [perform_bind] at h
  rcases hw : w.perform a with ⟨e' | x, u⟩
  · rw [hw] at h
    obtain rfl : e' = e := Except.error.inj (Prod.mk.inj h).1
    exact ha w u e' hw
  · rw [hw] at h
    exact hf x u v e h

theorem failsWith_mapError {g : ε → ε'} {a : ExceptT ε (Run κ) α}
    (h : FailsWith (fun e => Q (g e)) a) :
    FailsWith Q (ExceptT.mk do return (← a.run).mapError g) :=
  fun w v e he =>
    errorsIn_mapError (fun e' h' => h w v e' (Prod.ext h' (Prod.mk.inj he).2)) e (Prod.mk.inj he).1

def Fails (a : ExceptT ε (Run κ) α) : Prop :=
  ∀ (w v : World κ) x, w.perform a ≠ (.ok x, v)

theorem fails_bind_left {a : ExceptT ε (Run κ) α} (h : Fails a) (f : α → ExceptT ε (Run κ) β) :
    Fails (a >>= f) := by
  intro w v y hy
  rw [perform_bind] at hy
  rcases hw : w.perform a with ⟨e | x, u⟩
  · rw [hw] at hy
    cases hy
  · exact h w u x hw

theorem fails_bind (a : ExceptT ε (Run κ) α) {f : α → ExceptT ε (Run κ) β}
    (h : ∀ x, Fails (f x)) : Fails (a >>= f) := by
  intro w v y hy
  rw [perform_bind] at hy
  rcases hw : w.perform a with ⟨e | x, u⟩
  · rw [hw] at hy
    cases hy
  · rw [hw] at hy
    exact h x u v y hy

theorem fails_mapError {g : ε → ε'} {a : ExceptT ε (Run κ) α} (h : Fails a) :
    Fails (ExceptT.mk do return (← a.run).mapError g) := by
  intro w v x hx
  have hx : (w.perform a).1.mapError g = .ok x := (Prod.mk.inj hx).1
  rcases hw : w.perform a with ⟨e | y, u⟩
  · rw [hw] at hx
    cases hx
  · exact h w u y hw

end

namespace Service

variable {κ : Type} {k : CaMethod} {Q : LifecycleError → Prop}

theorem failsWith_parsed (h : ∀ text, Q (.invalidData text)) (what : String) (text : Bytes) :
    FailsWith Q (parsed what text : ExceptT LifecycleError (Run κ) _) :=
  failsWith_mk_pure (errorsIn_mapError fun _ _ => h _)

theorem failsWith_writing (h : ∀ e, Q (.writeFailed e))
    (action : ExceptT StorageError (Run κ) Unit) : FailsWith Q (writing action) :=
  failsWith_mapError fun _ _ e _ => h e

theorem failsWith_decideRenewal (s : Service) (c : Certificate) :
    FailsWith Q (s.decideRenewal c : ExceptT LifecycleError (Run κ) Bool) := by
  intro w v e h
  obtain ⟨verdict, hv⟩ := decideAt_some s.renewal c w.clock
  obtain ⟨u, hu, -⟩ := perform_decideRenewal hv
  rw [hu] at h
  cases h

theorem failsWith_afterChain (hdata : ∀ text, Q (.invalidData text))
    (hfailed : ∀ text, Q (.verificationFailed text)) (c : Certificate) (chain : Bytes) :
    FailsWith Q (do
      let anchorNow ← ExceptT.lift Clock.now
      let leafNow ← ExceptT.lift Clock.now
      ExceptT.mk (pure (Trust.verifyAt anchorNow leafNow c chain)) :
        ExceptT LifecycleError (Run κ) Unit) :=
  failsWith_bind (failsWith_lift _) fun _ => failsWith_bind (failsWith_lift _) fun _ =>
    failsWith_mk_pure (Trust.errorsIn_verifyAt hdata hfailed _ _ c chain)

variable [Authority κ]

theorem failsWith_request (hcanceled : Q .canceled) (h : ∀ e, Q (.authority k e)) (s : Service)
    (r : CaRequest k) : FailsWith Q (s.request r : ExceptT LifecycleError (Run κ) _) := by
  intro w v e he
  rcases request_error he with rfl | ⟨cause, rfl⟩
  · exact hcanceled
  · exact h cause

end Service

end CertLifecycle
