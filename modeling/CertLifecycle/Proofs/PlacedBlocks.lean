import CertLifecycle.Proofs.ArmouredText
import CertLifecycle.Proofs.FailedWrites

namespace CertLifecycle

open World Layout

variable {κ σ : Type}

theorem MemorySlot.seen_storeAll {ws : List (MemorySlot × Bytes)}
    (distinct : (ws.map Prod.fst).Nodup) {q : MemorySlot × Bytes} (hq : q ∈ ws) {w : World κ}
    (readable : (w.memory q.1.name).readFailure = none) :
    q.1.seen (storeAll ws w) = .ok q.2 := by
  rw [seen, memory_storeAll, lastStored_of_mem distinct hq, readable]
  rfl

namespace Destination

structure Spelled (data : CertData) (certs cas keys : List Pem.Block) : Prop where
  certificate : Pem.Spells data.certificate certs
  caData : ∃ text, data.caData = some text ∧ Pem.Spells text cas
  privateKey : ∃ text, data.privateKey = some text ∧ Pem.Spells text keys
  certs_ne : certs ≠ []
  cas_ne : cas ≠ []
  keys_ne : keys ≠ []

def placed (d : Destination σ) (certs cas keys : List Pem.Block) : List (σ × List Pem.Block) :=
  match d with
  | .combined key => [(key, certs ++ cas ++ keys)]
  | .separateCa key ca => [(ca, cas), (key, certs ++ keys)]
  | .separateCert cert none key => [(cert, certs ++ cas), (key, keys)]
  | .separateCert cert (some ca) key => [(ca, cas), (cert, certs), (key, keys)]

variable {d : Destination σ} {data : CertData} {certs cas keys : List Pem.Block}

theorem placed_certSlot (d : Destination σ) (certs cas keys : List Pem.Block) :
    ∃ more, (d.certSlot, certs ++ more) ∈ d.placed certs cas keys := by
  cases d with
  | combined key => exact ⟨cas ++ keys, by simp [placed, certSlot]⟩
  | separateCa key ca => exact ⟨keys, by simp [placed, certSlot]⟩
  | separateCert cert ca key =>
    cases ca with
    | none => exact ⟨cas, by simp [placed, certSlot]⟩
    | some ca => exact ⟨[], by simp [placed, certSlot]⟩

theorem present_of_spells {text : Bytes} {blocks : List Pem.Block} (h : Pem.Spells text blocks)
    (hne : blocks ≠ []) : present (some text) = some text := by
  refine present_eq_some.mpr ⟨rfl, ?_⟩
  rintro rfl
  cases h
  exact hne rfl

theorem plan_spelled (d : Destination σ) (h : Spelled data certs cas keys) :
    List.Forall₂ (fun q p => q.1 = p.1 ∧ Pem.Spells q.2 p.2) (d.plan data)
      (d.placed certs cas keys) := by
  obtain ⟨hcerts, ⟨caText, hca, hcas⟩, ⟨keyText, hkey, hkeys⟩, -, cas_ne, keys_ne⟩ := h
  have hpresent := present_of_spells hcas cas_ne
  have hkeyPresent := present_of_spells hkeys keys_ne
  cases d with
  | combined key =>
    simp only [plan, leading, later, placed, hca, hkey, Option.getD_some, List.append_nil,
      List.forall₂_cons, List.forall₂_nil_left_iff, and_true, true_and]
    exact (hcerts.tidy.append hcas.tidy).append hkeys.tidy
  | separateCa key ca =>
    simp only [plan, leading, later, placed, hca, hkey, hpresent, Option.getD_some, Option.toList_some,
      List.map_cons, List.map_nil, List.append_nil, List.singleton_append,
      List.forall₂_cons, List.forall₂_nil_left_iff, and_true, true_and]
    exact ⟨hcas.tidy, hcerts.tidy.append hkeys.tidy⟩
  | separateCert cert ca key =>
    cases ca with
    | none =>
      simp only [plan, leading, later, placed, certPlan, keyPlan, hca, hkey, hpresent, hkeyPresent,
        Option.toList_some, List.map_cons, List.map_nil, List.cons_append, List.nil_append,
        List.forall₂_cons, List.forall₂_nil_left_iff, and_true, true_and]
      exact ⟨hcerts.closed.append hcas.closed, hkeys.tidy⟩
    | some ca =>
      simp only [plan, leading, later, placed, certPlan, keyPlan, hca, hkey, hpresent, hkeyPresent,
        Option.toList_some, List.map_cons, List.map_nil, List.cons_append, List.nil_append,
        List.forall₂_cons, List.forall₂_nil_left_iff, and_true, true_and]
      exact ⟨hcas.closed, hcerts.closed, hkeys.tidy⟩

theorem placed_slots (d : Destination σ) (certs cas keys : List Pem.Block) :
    ((d.placed certs cas keys).map Prod.fst).Perm d.slots := by
  refine .trans (.of_eq ?_) d.slots_perm
  cases d with
  | combined key => rfl
  | separateCa key ca => rfl
  | separateCert cert ca key => cases ca <;> rfl

/-- Placing a bundle keeps its blocks: each slot parses to those of the parts that belong in it, in
their order, and the certificate that is read back is the first of the certificate part. -/
theorem blocksPlaced {d : Destination MemorySlot} (distinct : d.slots.Nodup)
    (spelled : Spelled data certs cas keys) {w : World κ}
    (sound : ∀ s ∈ d.slots,
      (w.memory s.name).writeFailure = none ∧ (w.memory s.name).readFailure = none) :
    ∃ v, w.perform (d.writeCert data) = (.ok (), v) ∧
      (∀ q ∈ d.placed certs cas keys, ∃ text, q.1.seen v = .ok text ∧
        Pem.parse text = .ok q.2) ∧
      ∀ der, Certificate.firstDer certs = .ok der →
        (v.perform d.readCert).1 = (Certificate.ofDer der).mapError .ofParse := by
  have hplan := d.plan_spelled spelled
  have hslots : (d.plan data).map Prod.fst = (d.placed certs cas keys).map Prod.fst := by
    rw [← List.forall₂_eq_eq_eq, List.forall₂_map_left_iff, List.forall₂_map_right_iff]
    exact hplan.imp fun _ _ h => h.1
  have hperm : ((d.plan data).map Prod.fst).Perm d.slots :=
    hslots ▸ d.placed_slots certs cas keys
  have hsound : ∀ q ∈ d.plan data, q.1 ∈ d.slots :=
    fun q hq => hperm.mem_iff.mp (List.mem_map_of_mem hq)
  obtain ⟨hrun, -⟩ | ⟨front, s, bs, back, e, hsplit, -, hfails, -⟩ :=
    MemorySlot.perform_writeAll (d.plan data) w
  · have hfound : ∀ p ∈ d.placed certs cas keys, ∃ text,
        p.1.seen (MemorySlot.storeAll (d.plan data) w) = .ok text ∧ Pem.parse text = .ok p.2 := by
      intro p hp
      obtain ⟨q, hq, hslot, hspells⟩ := exists_of_forall₂ hplan hp
      have hseen := MemorySlot.seen_storeAll (hperm.nodup_iff.mpr distinct) hq
        (sound q.1 (hsound q hq)).2
      exact ⟨q.2, hslot ▸ hseen, hspells.parse_eq⟩
    refine ⟨MemorySlot.storeAll (d.plan data) w, by rw [← writeAll_plan, hrun], hfound, ?_⟩
    intro der hder
    obtain ⟨more, hcert⟩ := d.placed_certSlot certs cas keys
    obtain ⟨text, hseen, hparse⟩ := hfound _ hcert
    have hfirst : Certificate.firstDer (certs ++ more) = .ok der := by
      rw [Certificate.firstDer_append, hder]
    rw [perform_readCert, hseen]
    simp only [Except.bind]
    rw [Certificate.ofPem_of_parse hparse, hfirst]
    rfl
  · have hs := hsound (s, bs) (by simp [hsplit])
    rw [(sound s hs).1] at hfails
    cases hfails

def shortArmour (tag : String) (ne : tag ≠ "")
    (plain : (tag.toList.all fun c => c ≠ '-' ∧ c ≠ '\n' ∧ c ≠ '\r') = true) : Pem.Armour where
  tag := tag
  contents := [1, 2, 3]
  beginEnd := .crlf
  lines := [(Base64.encode [1, 2, 3], .crlf)]
  ends := [.crlf, .lf]
  tag_ne := ne
  tag_plain := by simpa using plain
  lines_ne := by simp [Base64.encode]
  lines_encode := rfl

def certArmour : Pem.Armour := shortArmour Certificate.tag (by decide) (by decide)

def keyArmour : Pem.Armour := shortArmour "PRIVATE KEY" (by decide) (by decide)

def spelledBundle : CertData :=
  ⟨certArmour.text ++ certArmour.text, some keyArmour.text, some certArmour.text⟩

theorem spelled_spelledBundle : Spelled spelledBundle [certArmour.block, certArmour.block]
    [certArmour.block] [keyArmour.block] :=
  ⟨certArmour.spells.append certArmour.spells, ⟨_, rfl, certArmour.spells⟩,
    ⟨_, rfl, keyArmour.spells⟩, by decide, by decide, by decide⟩

theorem blocksPlaced_crlf :
    let d : Destination MemorySlot := .separateCert ⟨"cert"⟩ none ⟨"key"⟩
    let w : World Script := { authority := .empty, readings := fun _ => 0 }
    ∃ v text, w.perform (d.writeCert spelledBundle) = (.ok (), v) ∧
      d.certSlot.seen v = .ok text ∧
      Pem.parse text = .ok [certArmour.block, certArmour.block, certArmour.block] := by
  intro d w
  obtain ⟨v, hrun, hfound, -⟩ := blocksPlaced (d := d) (by decide) spelled_spelledBundle (w := w)
    (fun _ _ => ⟨rfl, rfl⟩)
  obtain ⟨text, hseen, hparse⟩ := hfound (d.certSlot, _) List.mem_cons_self
  exact ⟨v, text, hrun, hseen, hparse⟩

end Destination

end CertLifecycle
