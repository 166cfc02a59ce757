import CertLifecycle.Storage.Store

namespace CertLifecycle.Destination

open Layout

variable {σ : Type}

def certPlan (cert : σ) (ca : Option σ) (certificate : Bytes) (caData : Option Bytes) :
    List (σ × Bytes) :=
  match ca, present caData with
  | none, some caData => [(cert, closed certificate ++ closed caData)]
  | some ca, some caData => [(ca, closed caData), (cert, closed certificate)]
  | _, none => [(cert, closed certificate)]

def keyPlan (key : σ) (privateKey : Option Bytes) : List (σ × Bytes) :=
  (present privateKey).toList.map fun bs => (key, tidy bs)

def leading (d : Destination σ) (data : CertData) : List (σ × Bytes) :=
  match d with
  | .combined key => [(key, tidy data.certificate ++ tidy (data.caData.getD []) ++
      tidy (data.privateKey.getD []))]
  | .separateCa key ca => (present data.caData).toList.map (fun bs => (ca, tidy bs)) ++
      [(key, tidy data.certificate ++ tidy (data.privateKey.getD []))]
  | .separateCert cert ca _ => certPlan cert ca data.certificate data.caData

def later (d : Destination σ) (data : CertData) : List (σ × Bytes) :=
  match d with
  | .combined _ | .separateCa _ _ => []
  | .separateCert _ _ key => keyPlan key data.privateKey

def plan (d : Destination σ) (data : CertData) : List (σ × Bytes) :=
  d.leading data ++ d.later data

def certText (d : Destination σ) (data : CertData) : Bytes :=
  match d with
  | .combined _ => tidy data.certificate ++ tidy (data.caData.getD []) ++
      tidy (data.privateKey.getD [])
  | .separateCa _ _ => tidy data.certificate ++ tidy (data.privateKey.getD [])
  | .separateCert _ none _ => closed data.certificate ++ closed (data.caData.getD [])
  | .separateCert _ (some _) _ => closed data.certificate

theorem present_eq_none {part : Option Bytes} : present part = none ↔ part.getD [] = [] := by
  cases part <;> simp [present]

theorem present_eq_some {part : Option Bytes} {bs : Bytes} :
    present part = some bs ↔ part.getD [] = bs ∧ bs ≠ [] := by
  cases part <;> simp [present, eq_comm]
  grind

def caApart : Destination σ → Option σ
  | .combined _ => none
  | .separateCa _ ca => some ca
  | .separateCert _ ca _ => ca

def keyApart : Destination σ → Option σ
  | .combined _ | .separateCa _ _ => none
  | .separateCert _ _ key => some key

def keySlot : Destination σ → σ
  | .combined key => key
  | .separateCa key _ => key
  | .separateCert _ _ key => key

theorem keySlot_eq (d : Destination σ) : d.keySlot = d.keyApart.getD d.certSlot := by
  cases d <;> rfl

def caText : Destination σ → Bytes → Bytes
  | .combined _ | .separateCa _ _ => tidy
  | .separateCert _ _ _ => closed

def ownPlan (f : Bytes → Bytes) (slot : Option σ) (part : Option Bytes) : List (σ × Bytes) :=
  slot.toList.flatMap fun s => (present part).toList.map fun bs => (s, f bs)

theorem mem_ownPlan {f : Bytes → Bytes} {slot : Option σ} {part : Option Bytes} {q : σ × Bytes} :
    q ∈ ownPlan f slot part ↔ slot = some q.1 ∧ part.getD [] ≠ [] ∧ q.2 = f (part.getD []) := by
  unfold ownPlan
  cases h : present part with
  | none => simp [present_eq_none.mp h]
  | some bs =>
    obtain ⟨rfl, hne⟩ := present_eq_some.mp h
    cases slot <;> simp [Prod.ext_iff, hne, eq_comm]

theorem slots_ownPlan (f : Bytes → Bytes) (slot : Option σ) (part : Option Bytes) :
    ((ownPlan f slot part).map Prod.fst).Sublist slot.toList := by
  unfold ownPlan
  cases slot with
  | none => exact .refl _
  | some s => cases present part <;> simp

theorem leading_eq (d : Destination σ) (data : CertData) : d.leading data =
    ownPlan d.caText d.caApart data.caData ++ [(d.certSlot, d.certText data)] := by
  cases d with
  | combined key => rfl
  | separateCa key ca => simp [leading, ownPlan, caText, caApart, certSlot, certText]
  | separateCert cert ca key =>
    have hblank : closed [] = [] := rfl
    cases h : present data.caData with
    | none =>
      cases ca <;> simp [leading, certPlan, ownPlan, caApart, certSlot, certText, h,
        present_eq_none.mp h, hblank]
    | some bs =>
      obtain ⟨hbs, -⟩ := present_eq_some.mp h
      cases ca <;> simp [leading, certPlan, ownPlan, caText, caApart, certSlot, certText, h, hbs]

theorem later_eq (d : Destination σ) (data : CertData) :
    d.later data = ownPlan tidy d.keyApart data.privateKey := by
  cases d with
  | combined key => rfl
  | separateCa key ca => rfl
  | separateCert cert ca key => simp [later, keyPlan, ownPlan, keyApart]

theorem plan_split (d : Destination σ) (data : CertData) :
    d.plan data = ownPlan d.caText d.caApart data.caData ++
      (d.certSlot, d.certText data) :: ownPlan tidy d.keyApart data.privateKey := by
  rw [plan, leading_eq, later_eq, List.append_assoc, List.singleton_append]

theorem slots_perm (d : Destination σ) :
    (d.caApart.toList ++ d.certSlot :: d.keyApart.toList).Perm d.slots := by
  cases d with
  | combined key => exact .refl _
  | separateCa key ca => exact .swap key ca []
  | separateCert cert ca key =>
    cases ca with
    | none => exact .refl _
    | some ca => exact (List.perm_append_singleton ca [cert, key]).symm

theorem slots_plan (d : Destination σ) (data : CertData) : ((d.plan data).map Prod.fst).Sublist
    (d.caApart.toList ++ d.certSlot :: d.keyApart.toList) := by
  rw [plan_split, List.map_append, List.map_cons]
  exact (slots_ownPlan _ _ _).append ((slots_ownPlan _ _ _).cons_cons _)

theorem mem_slots_of_plan {d : Destination σ} {data : CertData} {q : σ × Bytes}
    (hq : q ∈ d.plan data) : q.1 ∈ d.slots :=
  d.slots_perm.subset ((d.slots_plan data).subset (List.mem_map_of_mem hq))

section Distinct

variable {d : Destination σ} (distinct : d.slots.Nodup)

include distinct

theorem nodup_plan (data : CertData) : ((d.plan data).map Prod.fst).Nodup :=
  (d.slots_perm.nodup_iff.mpr distinct).sublist (d.slots_plan data)

theorem ne_of_caApart {s : σ} (h : d.caApart = some s) :
    s ≠ d.certSlot ∧ d.keyApart ≠ some s := by
  have hnodup := d.slots_perm.nodup_iff.mpr distinct
  rw [h, Option.toList_some, List.singleton_append, List.nodup_cons, List.mem_cons, not_or,
    Option.mem_toList] at hnodup
  exact hnodup.1

theorem ne_of_keyApart {s : σ} (h : d.keyApart = some s) : s ≠ d.certSlot := by
  have hnodup := (List.nodup_append.mp (d.slots_perm.nodup_iff.mpr distinct)).2.1
  rw [h, Option.toList_some, List.nodup_cons, List.mem_singleton] at hnodup
  exact Ne.symm hnodup.1

theorem leading_split (data : CertData) :
    ∃ front, d.leading data = front ++ [(d.certSlot, d.certText data)] ∧
      ∀ q ∈ front, q.1 ≠ d.certSlot := by
  refine ⟨_, d.leading_eq data, ?_⟩
  intro q hq
  exact (ne_of_caApart distinct (mem_ownPlan.mp hq).1).1

theorem later_ne_certSlot (data : CertData) : ∀ q ∈ d.later data, q.1 ≠ d.certSlot := by
  intro q hq
  rw [later_eq] at hq
  exact ne_of_keyApart distinct (mem_ownPlan.mp hq).1

end Distinct

variable {m : Type → Type} [Monad m] [Slot σ m]

def writeAll : List (σ × Bytes) → ExceptT StorageError m Unit
  | [] => pure ()
  | (s, bs) :: ws => do
    Slot.write s bs
    writeAll ws

variable [LawfulMonad m]

theorem writeAll_append (vs ws : List (σ × Bytes)) :
    (writeAll (vs ++ ws) : ExceptT StorageError m Unit) = writeAll vs >>= fun _ => writeAll ws := by
  induction vs with
  | nil => exact (pure_bind () fun _ => writeAll ws).symm
  | cons v vs ih =>
    obtain ⟨s, bs⟩ := v
    simp only [List.cons_append, writeAll, ih, bind_assoc]

theorem writeAll_singleton (s : σ) (bs : Bytes) :
    (writeAll [(s, bs)] : ExceptT StorageError m Unit) = Slot.write s bs :=
  bind_pure_unit

theorem writeAll_certPlan (cert : σ) (ca : Option σ) (certificate : Bytes)
    (caData : Option Bytes) :
    (writeAll (certPlan cert ca certificate caData) : ExceptT StorageError m Unit) =
      writeCertAndCa cert ca certificate caData := by
  cases hca : present caData with
  | none => cases ca <;> simp only [certPlan, writeCertAndCa, hca, writeAll_singleton]
  | some bs =>
    cases ca with
    | none => simp only [certPlan, writeCertAndCa, hca, writeAll_singleton]
    | some ca => simp only [certPlan, writeCertAndCa, hca, writeAll, bind_pure_unit]

theorem writeAll_keyPlan (key : σ) (privateKey : Option Bytes) :
    (writeAll (keyPlan key privateKey) : ExceptT StorageError m Unit) =
      if privateKey.getD [] ≠ [] then Slot.write key (tidy (privateKey.getD [])) else pure () := by
  unfold keyPlan
  cases h : present privateKey with
  | none => rw [if_neg (not_not_intro (present_eq_none.mp h))]; rfl
  | some bs =>
    obtain ⟨hbs, hne⟩ := present_eq_some.mp h
    rw [hbs, if_pos hne]
    exact writeAll_singleton key _

theorem writeAll_plan (d : Destination σ) (data : CertData) :
    (writeAll (d.plan data) : ExceptT StorageError m Unit) = d.writeCert data := by
  cases d with
  | combined key => exact writeAll_singleton _ _
  | separateCa key ca =>
    simp only [plan, leading, later, List.append_nil, writeCert]
    cases present data.caData with
    | none => exact writeAll_singleton _ _
    | some bs => simp only [Option.toList_some, List.map_cons, List.map_nil, List.singleton_append,
        writeAll, bind_pure_unit]
  | separateCert cert ca key =>
    simp only [plan, leading, later, writeCert, writeAll_append, writeAll_certPlan,
      writeAll_keyPlan]

end CertLifecycle.Destination
