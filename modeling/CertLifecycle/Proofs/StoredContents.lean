import CertLifecycle.Proofs.StorageFrames

/-!
Actions on the stores by what is stored: where the same is stored, reading and writing come to the
same and leave the same, whatever else differs between the worlds.
-/

namespace CertLifecycle

variable {κ σ ε α β : Type}

namespace World

structure SameContents (w v : World κ) : Prop where
  memory : v.memory = w.memory
  files : v.files = w.files

theorem SameContents.trans {w v u : World κ} (h : w.SameContents v) (g : v.SameContents u) :
    w.SameContents u :=
  ⟨g.memory.trans h.memory, g.files.trans h.files⟩

theorem SameStorage.contents {w v : World κ} (h : w.SameStorage v) : w.SameContents v :=
  ⟨h.memory, h.files⟩

def ByContents (a : Run κ α) : Prop :=
  ∀ {w v : World κ}, w.SameContents v →
    (a.run v).1 = (a.run w).1 ∧ (a.run w).2.SameContents (a.run v).2

theorem byContents_pure (x : α) : ByContents (pure x : Run κ α) := fun h => ⟨rfl, h⟩

theorem byContents_bind {a : Run κ α} {f : α → Run κ β} (ha : ByContents a)
    (hf : ∀ x, ByContents (f x)) : ByContents (a >>= f) := by
  intro w v h
  obtain ⟨hresult, hworld⟩ := ha h
  rw [run_bind, run_bind, hresult]
  exact hf _ hworld

theorem byContents_run_bind {a : ExceptT ε (Run κ) α} {f : α → ExceptT ε (Run κ) β}
    (ha : ByContents a.run) (hf : ∀ x, ByContents (f x).run) : ByContents (a >>= f).run := by
  rw [ExceptT.run_bind]
  refine byContents_bind ha fun x => ?_
  cases x with
  | ok x => exact hf x
  | error e => exact byContents_pure _

theorem byContents_log (e : LogEvent) : ByContents (log e : Run κ Unit) :=
  fun h => ⟨rfl, h.memory, h.files⟩

end World

open World

class Contained (κ σ : Type) [Slot σ (Run κ)] : Prop where
  read (s : σ) : ByContents (Slot.read s : ExceptT StorageError (Run κ) _).run
  write (s : σ) (bs : Bytes) : ByContents (Slot.write s bs : ExceptT StorageError (Run κ) _).run

instance : Contained κ MemorySlot where
  read s w v h := by
    change (v.perform (Slot.read s)).1 = (w.perform (Slot.read s)).1 ∧
      (w.perform (Slot.read s)).2.SameContents (v.perform (Slot.read s)).2
    rw [MemorySlot.perform_read, MemorySlot.perform_read, h.memory]
    exact ⟨rfl, h.memory, h.files⟩
  write s bs w v h := by
    change (v.perform (Slot.write s bs)).1 = (w.perform (Slot.write s bs)).1 ∧
      (w.perform (Slot.write s bs)).2.SameContents (v.perform (Slot.write s bs)).2
    rw [MemorySlot.perform_write, MemorySlot.perform_write, h.memory]
    cases (w.memory s.name).writeFailure with
    | some e => exact ⟨rfl, h.memory, h.files⟩
    | none =>
      refine ⟨rfl, ?_, h.files⟩
      change (fun n => if n = s.name then { v.memory n with data := some bs } else v.memory n) = _
      rw [h.memory]
      rfl

theorem FileSlot.byContents_onFiles (action : FileSystem → FileSystem × Except StorageError α) :
    ByContents (onFiles action : ExceptT StorageError (Run κ) α).run := by
  intro w v h
  change (v.perform (onFiles action)).1 = (w.perform (onFiles action)).1 ∧
    (w.perform (onFiles action)).2.SameContents (v.perform (onFiles action)).2
  rw [perform_onFiles, perform_onFiles, h.files]
  have hmemory : v.settle.memory = w.settle.memory := by
    rw [(sameStorage_settle v).memory, (sameStorage_settle w).memory, h.memory]
  exact ⟨rfl, hmemory, rfl⟩

instance : Contained κ FileSlot where
  read _ := FileSlot.byContents_onFiles _
  write _ _ := FileSlot.byContents_onFiles _

namespace World

theorem byContents_firstOf {action : α → ExceptT StorageError (Run κ) β}
    (h : ∀ a, ByContents (action a).run) (last : StorageError) (as : List α) :
    ByContents (FanOut.firstOf action last as) := by
  induction as generalizing last with
  | nil => exact byContents_pure _
  | cons a as ih =>
    refine byContents_bind (h a) fun x => ?_
    cases x with
    | ok b => exact byContents_pure _
    | error e => exact ih e

theorem byContents_failuresOf {action : α → ExceptT StorageError (Run κ) Unit}
    {report : α → StorageError → Run κ Unit} (h : ∀ a, ByContents (action a).run)
    (hreport : ∀ a e, ByContents (report a e)) (as : List α) :
    ByContents (FanOut.failuresOf action report as) := by
  induction as with
  | nil => exact byContents_pure _
  | cons a as ih =>
    refine byContents_bind (h a) fun x => ?_
    cases x with
    | ok _ => exact ih
    | error e =>
      exact byContents_bind (hreport a e) fun _ => byContents_bind ih fun _ => byContents_pure _

variable [Slot σ (Run κ)] [Contained κ σ]

theorem byContents_writeAll (ws : List (σ × Bytes)) :
    ByContents (Destination.writeAll ws : ExceptT StorageError (Run κ) _).run := by
  induction ws with
  | nil => exact byContents_pure _
  | cons v ws ih => exact byContents_run_bind (Contained.write v.1 v.2) fun _ => ih

theorem byContents_destination_readCert (d : Destination σ) :
    ByContents (d.readCert : ExceptT StorageError (Run κ) _).run :=
  byContents_run_bind (Contained.read d.certSlot) fun _ => byContents_pure _

theorem byContents_destination_writeCert (d : Destination σ) (data : CertData) :
    ByContents (d.writeCert data : ExceptT StorageError (Run κ) _).run := by
  rw [← Destination.writeAll_plan]
  exact byContents_writeAll _

theorem byContents_readCert (store : BundleStore σ) :
    ByContents (store.readCert : ExceptT StorageError (Run κ) _).run := by
  cases store with
  | single d => exact byContents_destination_readCert d
  | fanOut f => exact byContents_firstOf byContents_destination_readCert _ _

theorem byContents_writeCert [Described σ] (store : BundleStore σ) (data : CertData) :
    ByContents (store.writeCert data : ExceptT StorageError (Run κ) _).run := by
  cases store with
  | single d => exact byContents_destination_writeCert d data
  | fanOut f =>
    exact byContents_bind (byContents_failuresOf
      (fun d => byContents_destination_writeCert d data) (fun _ _ => byContents_log _) _)
        fun _ => byContents_pure _

end World

end CertLifecycle
