import CertLifecycle.Proofs.WorldRuns
import CertLifecycle.Proofs.WritePlans
import Mathlib.Order.Defs.Unbundled

namespace CertLifecycle

variable {κ σ ε α β : Type}

namespace World

instance : IsPreorder (World κ) SameStorage where
  refl := .refl
  trans _ _ _ := .trans

instance : IsPreorder (World κ) Aside where
  refl := .refl
  trans _ _ _ := .trans

def recorded (e : Event) (w : World κ) : World κ := { w with events := w.events ++ [e] }

def Leads (R : World κ → World κ → Prop) (a : Run κ α) : Prop :=
  ∀ w, R w (a.run w).2

variable {R : World κ → World κ → Prop} [IsPreorder (World κ) R]

theorem leads_pure (x : α) : Leads R (pure x : Run κ α) := fun w => refl_of R w

theorem leads_bind {a : Run κ α} {f : α → Run κ β} (ha : Leads R a) (hf : ∀ x, Leads R (f x)) :
    Leads R (a >>= f) :=
  fun w => trans_of R (ha w) (hf (a.run w).1 (a.run w).2)

theorem leads_run_pure (x : α) : Leads R (pure x : ExceptT ε (Run κ) α).run := leads_pure _

theorem leads_run_throw (e : ε) : Leads R (throw e : ExceptT ε (Run κ) α).run := leads_pure _

theorem leads_run_mk_pure (x : Except ε α) :
    Leads R (ExceptT.mk (pure x) : ExceptT ε (Run κ) α).run := leads_pure x

theorem leads_run_bind {a : ExceptT ε (Run κ) α} {f : α → ExceptT ε (Run κ) β}
    (ha : Leads R a.run) (hf : ∀ x, Leads R (f x).run) : Leads R (a >>= f).run := by
  rw [ExceptT.run_bind]
  refine leads_bind ha fun x => ?_
  cases x with
  | ok x => exact hf x
  | error e => exact leads_pure _

end World

open World

/-- Reading such a slot leaves storage alone, and neither reading nor writing it asks the authority,
looks at the clock or takes a cancellation back. -/
class Steady (κ σ : Type) [Slot σ (Run κ)] : Prop where
  read_sameStorage (s : σ) : Leads SameStorage (Slot.read s : ExceptT StorageError (Run κ) _).run
  read_aside (s : σ) : Leads Aside (Slot.read s : ExceptT StorageError (Run κ) _).run
  write_aside (s : σ) (bs : Bytes) :
    Leads Aside (Slot.write s bs : ExceptT StorageError (Run κ) _).run

namespace MemorySlot

theorem perform_read (s : MemorySlot) (w : World κ) :
    w.perform (Slot.read s) =
      (content (w.memory s.name).readFailure (w.memory s.name), w.recorded (.slot .read s.name)) :=
  rfl

def stored (s : MemorySlot) (bs : Bytes) (w : World κ) : World κ :=
  { w with
    memory := fun n => if n = s.name then { w.memory n with data := some bs } else w.memory n }

theorem perform_write (s : MemorySlot) (bs : Bytes) (w : World κ) :
    w.perform (Slot.write s bs) = match (w.memory s.name).writeFailure with
      | some e => (.error e, w.recorded (.slot .write s.name))
      | none => (.ok (), s.stored bs (w.recorded (.slot .write s.name))) := by
  change (match (w.memory s.name).writeFailure with
    | some e => pure (Except.error e)
    | none => s.put bs >>= fun _ => pure (Except.ok ()) : Run κ (Except StorageError Unit)).run
      (w.recorded (.slot .write s.name)) = _
  cases (w.memory s.name).writeFailure <;> rfl

theorem aside_recorded (o : SlotOperation) (n : String) (w : World κ) :
    w.Aside (w.recorded (.slot o n)) :=
  ⟨rfl, fun k => by simp [recorded, callsOf, Event.isCall], rfl, rfl, rfl, id⟩

instance : Steady κ MemorySlot where
  read_sameStorage s w := ⟨rfl, rfl, rfl, by
    change (w.recorded (.slot .read s.name)).slotWrites = _
    simp [recorded, slotWrites, Event.isWrite]⟩
  read_aside s w := aside_recorded .read s.name w
  write_aside s bs w := by
    change w.Aside (w.perform (Slot.write s bs)).2
    rw [perform_write]
    cases (w.memory s.name).writeFailure with
    | some e => exact aside_recorded .write s.name w
    | none => exact (aside_recorded .write s.name w).trans ⟨rfl, fun _ => rfl, rfl, rfl, rfl, id⟩

end MemorySlot

namespace FileSlot

theorem aside_settle (w : World κ) : w.Aside w.settle := by
  unfold settle
  split
  · split
    · exact ⟨rfl, fun _ => rfl, rfl, rfl, rfl, fun _ => rfl⟩
    · exact .refl w
  · exact .refl w

theorem sameStorage_settle (w : World κ) : w.SameStorage w.settle := by
  unfold settle
  split
  · split <;> exact ⟨rfl, rfl, rfl, rfl⟩
  · exact .refl w

theorem perform_onFiles (action : FileSystem → FileSystem × Except StorageError α)
    (w : World κ) : w.perform (onFiles action) =
      ((action w.files).2, { w.settle with files := (action w.files).1 }) := by
  rw [← (sameStorage_settle w).files]
  rfl

theorem perform_read (s : FileSlot) (w : World κ) :
    w.perform (Slot.read s) = (s.read w.files, { w.settle with files := w.files }) :=
  perform_onFiles _ w

theorem perform_write (s : FileSlot) (bs : Bytes) (w : World κ) :
    w.perform (Slot.write s bs) =
      ((s.write bs w.files).2, { w.settle with files := (s.write bs w.files).1 }) :=
  perform_onFiles _ w

theorem aside_onFiles (action : FileSystem → FileSystem × Except StorageError α) :
    Leads Aside (onFiles action : ExceptT StorageError (Run κ) α).run :=
  fun w => (aside_settle w).trans ⟨rfl, fun _ => rfl, rfl, rfl, rfl, id⟩

instance : Steady κ FileSlot where
  read_sameStorage _ w := (sameStorage_settle w).trans ⟨rfl, rfl, rfl, rfl⟩
  read_aside _ := aside_onFiles _
  write_aside _ _ := aside_onFiles _

end FileSlot

namespace World

variable {R : World κ → World κ → Prop} [IsPreorder (World κ) R]

theorem leads_firstOf {action : α → ExceptT StorageError (Run κ) β}
    (h : ∀ a, Leads R (action a).run) (last : StorageError) (as : List α) :
    Leads R (FanOut.firstOf action last as) := by
  induction as generalizing last with
  | nil => exact leads_pure _
  | cons a as ih =>
    refine leads_bind (h a) fun x => ?_
    cases x with
    | ok b => exact leads_pure _
    | error e => exact ih e

variable [Slot σ (Run κ)]

section Reading

variable (hread : ∀ s : σ, Leads R (Slot.read s : ExceptT StorageError (Run κ) _).run)

include hread

theorem leads_destination_readCert (d : Destination σ) :
    Leads R (d.readCert : ExceptT StorageError (Run κ) _).run :=
  leads_run_bind (hread d.certSlot) fun _ => leads_run_mk_pure _

theorem leads_readCert (store : BundleStore σ) :
    Leads R (store.readCert : ExceptT StorageError (Run κ) _).run := by
  cases store with
  | single d => exact leads_destination_readCert hread d
  | fanOut f => exact leads_firstOf (leads_destination_readCert hread) _ _

end Reading

section Writing

variable (hwrite : ∀ (s : σ) bs, Leads R (Slot.write s bs : ExceptT StorageError (Run κ) _).run)

include hwrite

theorem leads_writeAll (ws : List (σ × Bytes)) :
    Leads R (Destination.writeAll ws : ExceptT StorageError (Run κ) _).run := by
  induction ws with
  | nil => exact leads_pure _
  | cons v ws ih => exact leads_run_bind (hwrite v.1 v.2) fun _ => ih

theorem leads_writeCertAndCa (cert : σ) (ca : Option σ) (certificate : Bytes)
    (caData : Option Bytes) :
    Leads R (Destination.writeCertAndCa cert ca certificate caData :
      ExceptT StorageError (Run κ) _).run := by
  rw [← Destination.writeAll_certPlan]
  exact leads_writeAll hwrite _

theorem leads_destination_writeCert (d : Destination σ) (data : CertData) :
    Leads R (d.writeCert data : ExceptT StorageError (Run κ) _).run := by
  rw [← Destination.writeAll_plan]
  exact leads_writeAll hwrite _

omit [IsPreorder (World κ) R] in
theorem leads_blob_write (hprint : ∀ bs, Leads R (Console.print bs : Run κ Unit))
    (store : BlobStore σ) (data : Bytes) :
    Leads R (store.write data : ExceptT StorageError (Run κ) _).run := by
  unfold BlobStore.write
  split
  · exact hwrite _ _
  · exact hprint data

end Writing

theorem leads_failuresOf {action : α → ExceptT StorageError (Run κ) Unit}
    {report : α → StorageError → Run κ Unit} (h : ∀ a, Leads R (action a).run)
    (hreport : ∀ a e, Leads R (report a e)) (as : List α) :
    Leads R (FanOut.failuresOf action report as) := by
  induction as with
  | nil => exact leads_pure _
  | cons a as ih =>
    refine leads_bind (h a) fun x => ?_
    cases x with
    | ok _ => exact ih
    | error e => exact leads_bind (hreport a e) fun _ => leads_bind ih fun _ => leads_pure _

theorem leads_writeCert [Described σ]
    (hwrite : ∀ (s : σ) bs, Leads R (Slot.write s bs : ExceptT StorageError (Run κ) _).run)
    (hlog : ∀ e, Leads R (log e : Run κ Unit)) (store : BundleStore σ) (data : CertData) :
    Leads R (store.writeCert data : ExceptT StorageError (Run κ) _).run := by
  cases store with
  | single d => exact leads_destination_writeCert hwrite d data
  | fanOut f =>
    exact leads_bind (leads_failuresOf (fun d => leads_destination_writeCert hwrite d data)
      (fun _ _ => hlog _) _) fun _ => leads_pure _

end World

end CertLifecycle
