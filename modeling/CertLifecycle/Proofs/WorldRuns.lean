import CertLifecycle.World

/-!
Actions of a simulated run as functions on worlds, and what they leave alone.
-/

namespace CertLifecycle

variable {κ ε ε' α β : Type}

def Event.isCall (k : CaMethod) : Event → Bool
  | .call m _ => m = k
  | .slot _ _ => false

def Event.isWrite : Event → Bool
  | .slot .write _ => true
  | _ => false

@[simp]
theorem mapError_ok (f : ε → ε') (a : α) : (Except.ok a : Except ε α).mapError f = .ok a := rfl

@[simp]
theorem mapError_error (f : ε → ε') (e : ε) :
    (Except.error e : Except ε α).mapError f = .error (f e) := rfl

theorem exists_of_isOk {ε α : Type} {x : Except ε α} (h : x.isOk = true) : ∃ a, x = .ok a := by
  cases x with
  | ok a => exact ⟨a, rfl⟩
  | error e => cases h

namespace World

def perform (w : World κ) (action : ExceptT ε (Run κ) α) : Except ε α × World κ :=
  action.run.run w

def clock (w : World κ) : Int := w.readings w.looks

def looked (w : World κ) : World κ := { w with looks := w.looks + 1 }

def logged (e : LogEvent) (w : World κ) : World κ := { w with logs := w.logs ++ [e] }

def callsOf (k : CaMethod) (w : World κ) : Nat := w.events.countP (Event.isCall k)

def slotWrites (w : World κ) : Nat := w.events.countP Event.isWrite

theorem run_pure (x : α) (w : World κ) : (pure x : Run κ α).run w = (x, w) := rfl

theorem run_bind (a : Run κ α) (f : α → Run κ β) (w : World κ) :
    (a >>= f).run w = (f (a.run w).1).run (a.run w).2 := rfl

theorem run_modifyGet_bind (g : World κ → α × World κ) (f : α → Run κ β) (w : World κ) :
    (modifyGet g >>= f).run w = (f (g w).1).run (g w).2 := rfl

theorem run_log_bind (e : LogEvent) (f : Unit → Run κ β) (w : World κ) :
    (log e >>= f).run w = (f ()).run (w.logged e) := rfl

theorem run_isCanceled_bind (f : Bool → Run κ β) (w : World κ) :
    (Cancellation.isCanceled >>= f).run w = (f w.canceled).run w := rfl

theorem run_pause_bind (d : Duration) (f : Bool → Run κ β) (w : World κ) :
    (Cancellation.pause d >>= f).run w = (f (w.wait d).1).run (w.wait d).2 :=
  run_modifyGet_bind _ f w

theorem run_ask_bind [Authority κ] {k : CaMethod} (r : CaRequest k)
    (f : Option (Except CaError k.Answer) → Run κ β) (w : World κ) :
    (AskAuthority.ask r >>= f).run w = (f (w.ask r).1).run (w.ask r).2 :=
  run_modifyGet_bind _ f w

theorem perform_mk (a : Run κ (Except ε α)) (w : World κ) :
    w.perform (ExceptT.mk a) = a.run w := rfl

theorem perform_bind (a : ExceptT ε (Run κ) α) (f : α → ExceptT ε (Run κ) β) (w : World κ) :
    w.perform (a >>= f) = match w.perform a with
      | (.ok x, v) => v.perform (f x)
      | (.error e, v) => (.error e, v) := by
  simp only [perform, ExceptT.run_bind, StateT.run_bind]
  rcases StateT.run a.run w with ⟨_ | _, v⟩ <;> rfl

structure SameStorage (w v : World κ) : Prop where
  memory : v.memory = w.memory
  files : v.files = w.files
  printed : v.printed = w.printed
  writes : v.slotWrites = w.slotWrites

theorem SameStorage.refl (w : World κ) : w.SameStorage w := ⟨rfl, rfl, rfl, rfl⟩

theorem SameStorage.trans {w v u : World κ} (h : w.SameStorage v) (g : v.SameStorage u) :
    w.SameStorage u :=
  ⟨g.memory.trans h.memory, g.files.trans h.files, g.printed.trans h.printed,
    g.writes.trans h.writes⟩

/-- From the first world to the second nothing was asked, the clock was not looked at, and no
cancellation was taken back. -/
structure Aside (w v : World κ) : Prop where
  authority : v.authority = w.authority
  calls : ∀ k, v.callsOf k = w.callsOf k
  lateCalls : v.lateCalls = w.lateCalls
  readings : v.readings = w.readings
  looks : v.looks = w.looks
  canceled : w.canceled = true → v.canceled = true

theorem Aside.refl (w : World κ) : w.Aside w := ⟨rfl, fun _ => rfl, rfl, rfl, rfl, id⟩

theorem Aside.trans {w v u : World κ} (h : w.Aside v) (g : v.Aside u) : w.Aside u :=
  ⟨g.authority.trans h.authority, fun k => (g.calls k).trans (h.calls k),
    g.lateCalls.trans h.lateCalls, g.readings.trans h.readings, g.looks.trans h.looks,
    fun hw => g.canceled (h.canceled hw)⟩

theorem aside_logged (e : LogEvent) (w : World κ) : w.Aside (w.logged e) :=
  ⟨rfl, fun _ => rfl, rfl, rfl, rfl, id⟩

theorem sameStorage_logged (e : LogEvent) (w : World κ) : w.SameStorage (w.logged e) :=
  ⟨rfl, rfl, rfl, rfl⟩

theorem sameStorage_looked (w : World κ) : w.SameStorage w.looked := ⟨rfl, rfl, rfl, rfl⟩

structure Asking (k : CaMethod) (w v : World κ) : Prop extends SameStorage w v where
  calls : w.callsOf k ≤ v.callsOf k
  others : ∀ j, j ≠ k → v.callsOf j = w.callsOf j
  lateCalls : v.lateCalls = w.lateCalls
  readings : v.readings = w.readings
  looks : v.looks = w.looks
  canceled : w.canceled = true → v.canceled = true

variable {k : CaMethod}

theorem Asking.refl (w : World κ) : Asking k w w :=
  ⟨.refl w, Nat.le_refl _, fun _ _ => rfl, rfl, rfl, rfl, id⟩

theorem Asking.trans {w v u : World κ} (h : Asking k w v) (g : Asking k v u) : Asking k w u :=
  ⟨h.toSameStorage.trans g.toSameStorage, Nat.le_trans h.calls g.calls,
    fun j hj => (g.others j hj).trans (h.others j hj), g.lateCalls.trans h.lateCalls,
    g.readings.trans h.readings, g.looks.trans h.looks, fun hw => g.canceled (h.canceled hw)⟩

theorem asking_logged (e : LogEvent) (w : World κ) : Asking k w (w.logged e) :=
  ⟨sameStorage_logged e w, Nat.le_of_eq rfl, fun _ _ => rfl, rfl, rfl, rfl, id⟩

def CutShort (w : World κ) (d : Duration) : Prop :=
  w.elapsed < w.wake d ∧ (w.canceled = true ∨
    ∃ t, w.cancelAt = some t ∧ (t < w.wake d ∨ t = w.wake d ∧ w.tieCancels = true))

def Tied (w : World κ) (d : Duration) : Prop :=
  w.elapsed < w.wake d ∧ w.canceled = false ∧ w.cancelAt = some (w.wake d)

inductive Waited (d : Duration) (w : World κ) : Bool × World κ → Prop
  | atOnce (h : w.wake d ≤ w.elapsed) : Waited d w (w.canceled && w.tieCancels, w)
  | before (h : w.CutShort d) (hc : w.canceled = true) : Waited d w (true, w)
  | meanwhile (t : Nat) (h : w.CutShort d) :
    Waited d w (true, { w with elapsed := max w.elapsed t, canceled := true, cancelAt := none })
  | tied (t : Nat) (ht : t = w.wake d) (h : w.Tied d) (lost : w.tieCancels = false) :
    Waited d w (false, { w with elapsed := t, canceled := true, cancelAt := none })
  | whole (t : Nat) (ht : t = w.wake d) (hc : w.canceled = false)
    (h : ∀ u, w.cancelAt = some u → w.wake d < u) : Waited d w (false, { w with elapsed := t })

theorem waited (d : Duration) (w : World κ) : Waited d w (w.wait d) := by
  unfold wait
  split
  next htime => exact .atOnce htime
  next htime =>
    have hlt : w.elapsed < w.wake d := by omega
    split
    next hc => exact .before ⟨hlt, .inl hc⟩ hc
    next hc =>
      have hc' : w.canceled = false := by simpa using hc
      split
      next t ht =>
        split
        next hle =>
          obtain hfirst | htie := Nat.lt_or_eq_of_le hle
          · rw [decide_eq_true hfirst, Bool.true_or]
            exact .meanwhile t ⟨hlt, .inr ⟨t, ht, .inl hfirst⟩⟩
          obtain hwon | hlost := Bool.eq_false_or_eq_true w.tieCancels
          · have hfirst : (decide (t < w.wake d) || w.tieCancels) = true := by simp [hwon]
            rw [hfirst]
            exact .meanwhile t ⟨hlt, .inr ⟨t, ht, .inr ⟨htie, hwon⟩⟩⟩
          · have hlast : (decide (t < w.wake d) || w.tieCancels) = false := by simp [htie, hlost]
            rw [hlast, htie, Nat.max_eq_right (Nat.le_of_lt hlt)]
            exact .tied _ rfl ⟨hlt, hc', htie ▸ ht⟩ hlost
        next hle =>
          refine .whole _ rfl hc' fun u hu => ?_
          obtain rfl : t = u := Option.some.inj (ht.symm.trans hu)
          omega
      next ht =>
        refine .whole _ rfl hc' fun u hu => ?_
        rw [ht] at hu
        cases hu

theorem not_cutShort_of_later {d : Duration} {w : World κ} (hc : w.canceled = false)
    (h : ∀ u, w.cancelAt = some u → w.wake d < u) : ¬ w.CutShort d := by
  rintro ⟨-, hw | ⟨u, hu, hfirst⟩⟩
  · rw [hc] at hw
    cases hw
  · have hlater := h u hu
    omega

theorem not_cutShort_of_tied {d : Duration} {w : World κ} (h : w.Tied d)
    (lost : w.tieCancels = false) : ¬ w.CutShort d := by
  obtain ⟨-, hc, hat⟩ := h
  rintro ⟨-, hw | ⟨u, hu, hfirst | ⟨-, hwon⟩⟩⟩
  · rw [hc] at hw
    cases hw
  · obtain rfl : w.wake d = u := Option.some.inj (hat.symm.trans hu)
    exact Nat.lt_irrefl _ hfirst
  · rw [lost] at hwon
    cases hwon

theorem canceled_of_wait {d : Duration} {w : World κ} (h : (w.wait d).1 = true) :
    (w.wait d).2.canceled = true := by
  have hw := waited d w
  generalize w.wait d = o at h hw ⊢
  cases hw with
  | atOnce _ => exact (Bool.and_eq_true_iff.mp h).1
  | before _ hc => exact hc
  | meanwhile _ _ => rfl
  | tied _ _ _ _ => cases h
  | whole _ _ _ _ => cases h

theorem wait_of_cutShort {d : Duration} {w : World κ} (hw : w.CutShort d) :
    (w.wait d).1 = true := by
  have h := waited d w
  generalize w.wait d = o at h ⊢
  cases h with
  | atOnce h => exact absurd hw.1 (Nat.not_lt.mpr h)
  | before _ _ => rfl
  | meanwhile _ _ => rfl
  | tied _ _ h lost => exact absurd hw (not_cutShort_of_tied h lost)
  | whole _ _ hc h => exact absurd hw (not_cutShort_of_later hc h)

theorem canceled_of_tied {d : Duration} {w : World κ} (hw : w.Tied d) :
    (w.wait d).2.canceled = true := by
  have h := waited d w
  generalize w.wait d = o at h ⊢
  cases h with
  | atOnce h => exact absurd hw.1 (Nat.not_lt.mpr h)
  | before _ hc => exact hc
  | meanwhile _ _ => rfl
  | tied _ _ _ _ => rfl
  | whole _ _ _ h => exact absurd (h _ hw.2.2) (Nat.lt_irrefl _)

theorem wait_snd_of_canceled {w : World κ} (hc : w.canceled = true) (d : Duration) :
    (w.wait d).2 = w := by
  unfold wait
  rw [if_pos hc]
  split <;> rfl

theorem asking_wait (d : Duration) (w : World κ) : Asking k w (w.wait d).2 := by
  have h := waited d w
  generalize w.wait d = o at h ⊢
  cases h with
  | atOnce _ => exact .refl w
  | before _ _ => exact .refl w
  | meanwhile _ _ =>
    exact ⟨⟨rfl, rfl, rfl, rfl⟩, Nat.le_of_eq rfl, fun _ _ => rfl, rfl, rfl, rfl, fun _ => rfl⟩
  | tied _ _ _ _ =>
    exact ⟨⟨rfl, rfl, rfl, rfl⟩, Nat.le_of_eq rfl, fun _ _ => rfl, rfl, rfl, rfl, fun _ => rfl⟩
  | whole _ _ _ _ =>
    exact ⟨⟨rfl, rfl, rfl, rfl⟩, Nat.le_of_eq rfl, fun _ _ => rfl, rfl, rfl, rfl, id⟩

theorem asking_of_wait {d : Duration} {w v : World κ} {b : Bool} (h : w.wait d = (b, v)) :
    Asking k w v := by
  have hw := asking_wait (k := k) d w
  rwa [h] at hw

theorem callsOf_wait (d : Duration) (w : World κ) : (w.wait d).2.callsOf k = w.callsOf k := by
  have h := waited d w
  generalize w.wait d = o at h ⊢
  cases h <;> rfl

theorem authority_wait (d : Duration) (w : World κ) : (w.wait d).2.authority = w.authority := by
  have h := waited d w
  generalize w.wait d = o at h ⊢
  cases h <;> rfl

theorem logs_wait (d : Duration) (w : World κ) : (w.wait d).2.logs = w.logs := by
  have h := waited d w
  generalize w.wait d = o at h ⊢
  cases h <;> rfl

variable [Authority κ]

theorem callsOf_asked (r : CaRequest k) (w : World κ) :
    (w.asked r).callsOf k = w.callsOf k + 1 := by
  simp [callsOf, asked, Event.isCall]

theorem asking_asked (r : CaRequest k) {w : World κ} (h : w.canceled = false) :
    Asking k w (w.asked r) := by
  refine ⟨⟨rfl, rfl, rfl, ?_⟩, ?_, ?_, ?_, rfl, rfl, ?_⟩
  · simp [slotWrites, asked, Event.isWrite]
  · simp [callsOf_asked]
  · intro j hj
    simp [callsOf, asked, Event.isCall, Ne.symm hj]
  · simp [asked, h]
  · simp [h]

theorem ask_snd (r : CaRequest k) (w : World κ) :
    (w.ask r).2 = if (w.asked r).wake (w.reply r).delay ≤ w.elapsed then w.asked r
      else ((w.asked r).wait (w.reply r).delay).2 := by
  unfold ask
  split
  · rfl
  · rcases (w.asked r).wait (w.reply r).delay with ⟨_ | _, v⟩ <;> rfl

theorem callsOf_ask (r : CaRequest k) (w : World κ) :
    (w.ask r).2.callsOf k = w.callsOf k + 1 := by
  rw [ask_snd]
  split
  · exact callsOf_asked r w
  · rw [callsOf_wait, callsOf_asked]

theorem authority_ask (r : CaRequest k) (w : World κ) :
    (w.ask r).2.authority = (Authority.respond w.authority r).2 := by
  rw [ask_snd]
  split
  · rfl
  · exact authority_wait _ _

theorem logs_ask (r : CaRequest k) (w : World κ) : (w.ask r).2.logs = w.logs := by
  rw [ask_snd]
  split
  · rfl
  · exact logs_wait _ _

theorem asking_ask (r : CaRequest k) {w : World κ} (h : w.canceled = false) :
    Asking k w (w.ask r).2 := by
  rw [ask_snd]
  split
  · exact asking_asked r h
  · exact (asking_asked r h).trans (asking_wait _ _)

inductive Asked (r : CaRequest k) (w : World κ) : Option (Except CaError k.Answer) × World κ → Prop
  | cutShort (h : (w.asked r).CutShort (w.reply r).delay) (v : World κ) (hc : v.canceled = true) :
    Asked r w (none, v)
  | atOnce (h : ¬ (w.asked r).CutShort (w.reply r).delay) :
    Asked r w (some (w.reply r).answer, w.asked r)
  | later (h : ¬ (w.asked r).CutShort (w.reply r).delay) (v : World κ)
    (hv : v = ((w.asked r).wait (w.reply r).delay).2) : Asked r w (some (w.reply r).answer, v)

theorem ask_asked (r : CaRequest k) (w : World κ) : Asked r w (w.ask r) := by
  unfold ask
  split
  next htime => exact .atOnce fun h => absurd h.1 (Nat.not_lt.mpr htime)
  next htime =>
    have h := waited (w.reply r).delay (w.asked r)
    have hcanceled := canceled_of_wait (d := (w.reply r).delay) (w := w.asked r)
    generalize hwait : (w.asked r).wait (w.reply r).delay = o at h hcanceled ⊢
    cases h with
    | atOnce h => exact absurd h htime
    | before h hc => exact .cutShort h _ hc
    | meanwhile _ h => exact .cutShort h _ rfl
    | tied _ _ h lost => exact .later (not_cutShort_of_tied h lost) _ (by rw [hwait])
    | whole _ _ hc h => exact .later (not_cutShort_of_later hc h) _ (by rw [hwait])

theorem ask_of_cutShort {r : CaRequest k} {w : World κ}
    (h : (w.asked r).CutShort (w.reply r).delay) : (w.ask r).1 = none := by
  have ho := ask_asked r w
  generalize w.ask r = o at ho ⊢
  cases ho with
  | cutShort _ _ _ => rfl
  | atOnce h' => exact absurd h h'
  | later h' _ _ => exact absurd h h'

theorem canceled_of_ask_none {r : CaRequest k} {w v : World κ} (h : w.ask r = (none, v)) :
    v.canceled = true := by
  have ho := ask_asked r w
  rw [h] at ho
  cases ho with
  | cutShort _ _ hc => exact hc

theorem answer_of_ask {r : CaRequest k} {w v : World κ} {a : Except CaError k.Answer}
    (h : w.ask r = (some a, v)) : (w.reply r).answer = a := by
  have ho := ask_asked r w
  rw [h] at ho
  cases ho <;> rfl

theorem ask_of_atOnce {r : CaRequest k} {w : World κ}
    (h : (w.asked r).wake (w.reply r).delay ≤ w.elapsed) :
    w.ask r = (some (w.reply r).answer, w.asked r) :=
  if_pos h

structure SelfCancels (r : CaRequest k) (w : World κ) : Prop where
  cancels : (w.reply r).cancels = true
  attached : w.attached = true
  atOnce : (w.asked r).wake (w.reply r).delay ≤ w.elapsed

/-- The answer counts, in a run that is cancelled by then: the request cancels the run itself and is
answered at once, or cancellation comes at the moment of the answer and does not count first. -/
inductive AnsweredLate (r : CaRequest k) (w : World κ) : Prop
  | atOnce (h : w.SelfCancels r)
  | tied (h : (w.asked r).Tied (w.reply r).delay) (lost : w.tieCancels = false)

theorem AnsweredLate.ask {r : CaRequest k} {w : World κ} (h : w.AnsweredLate r) :
    w.ask r = (some (w.reply r).answer, (w.ask r).2) := by
  cases h with
  | atOnce h => rw [ask_of_atOnce h.atOnce]
  | tied h lost =>
    have ho := ask_asked r w
    generalize w.ask r = o at ho ⊢
    cases ho with
    | cutShort h' _ _ => exact absurd h' (not_cutShort_of_tied h lost)
    | atOnce _ => rfl
    | later _ _ _ => rfl

theorem AnsweredLate.canceled {r : CaRequest k} {w : World κ} (h : w.AnsweredLate r) :
    (w.ask r).2.canceled = true := by
  cases h with
  | atOnce h =>
    rw [ask_of_atOnce h.atOnce]
    simp [asked, h.cancels, h.attached]
  | tied h _ =>
    have htime : ¬ (w.asked r).wake (w.reply r).delay ≤ w.elapsed := Nat.not_le.mpr h.1
    rw [ask_snd, if_neg htime]
    exact canceled_of_tied h

end World

end CertLifecycle
