import CertLifecycle.CommandLine.Stores
import CertLifecycle.Proofs.FanOutIndependence
import CertLifecycle.Proofs.FileTrees

namespace CertLifecycle

open FileSystem

variable {κ σ : Type}

structure Landing where
  slot : FileSlot
  data : Bytes
  location : Location
  deriving DecidableEq

def landings : List (FileSlot × Bytes) → FileSystem → List Landing × FileSystem
  | [], fs => ([], fs)
  | (s, bs) :: ws, fs =>
    match s.write bs fs with
    | (gs, .ok ()) => (⟨s, bs, fs.goal s.path⟩ :: (landings ws gs).1, (landings ws gs).2)
    | (gs, .error _) => ([], gs)

def allLandings : List (List (FileSlot × Bytes)) → FileSystem → List Landing × FileSystem
  | [], fs => ([], fs)
  | ws :: more, fs =>
    ((landings ws fs).1 ++ (allLandings more (landings ws fs).2).1,
      (allLandings more (landings ws fs).2).2)

def lastAt (l : Location) (ls : List Landing) : Option Landing :=
  (ls.filter (·.location = l)).getLast?

theorem lastAt_append (l : Location) (ls ms : List Landing) :
    lastAt l (ls ++ ms) = (lastAt l ms).or (lastAt l ls) := by
  rw [lastAt, List.filter_append, List.getLast?_append]
  rfl

theorem lastAt_singleton_self {l : Location} {x : Landing} (h : x.location = l) :
    lastAt l [x] = some x := by simp [lastAt, h]

theorem mem_of_lastAt {l : Location} {ls : List Landing} {x : Landing} (h : lastAt l ls = some x) :
    x ∈ ls ∧ x.location = l := by
  have hmem := List.mem_of_mem_getLast? h
  simpa using List.mem_filter.mp hmem

structure Accounts (fs : FileSystem) (o : List Landing × FileSystem) : Prop where
  workingDirectory : o.2.workingDirectory = fs.workingDirectory
  last : ∀ l x mode, lastAt l o.1 = some x → x.slot.mode = some mode →
    o.2.get? l = some (.file x.data (mode &&& permissionBits))
  others : ∀ l, lastAt l o.1 = none → ∀ data mode,
    o.2.get? l = some (.file data mode) ↔ fs.get? l = some (.file data mode)

namespace Accounts

variable {fs gs hs : FileSystem} {ls ms : List Landing}

theorem of_grown {P : Location → Prop} (h : Grown P fs gs) : Accounts fs ([], gs) :=
  ⟨h.workingDirectory, nofun, fun _ _ _ _ => h.file_iff⟩

theorem append (h : Accounts fs (ls, gs)) (g : Accounts gs (ms, hs)) :
    Accounts fs (ls ++ ms, hs) := by
  refine ⟨g.workingDirectory.trans h.workingDirectory, ?_, ?_⟩
  · intro l x mode hx hmode
    rw [lastAt_append] at hx
    cases hlater : lastAt l ms with
    | some y =>
      rw [hlater] at hx
      cases hx
      exact g.last l x mode hlater hmode
    | none =>
      rw [hlater, Option.none_or] at hx
      exact (g.others l hlater _ _).mpr (h.last l x mode hx hmode)
  · intro l hl data mode
    rw [lastAt_append, Option.or_eq_none_iff] at hl
    rw [g.others l hl.1, h.others l hl.2]

theorem of_wrote {s : FileSlot} {bs : Bytes} (h : FileSlot.Wrote s bs fs (gs, .ok ())) :
    Accounts fs ([⟨s, bs, fs.goal s.path⟩], gs) := by
  obtain ⟨⟩ | @⟨made, hgrown, -⟩ := h
  refine ⟨hgrown.workingDirectory, ?_, ?_⟩
  · intro l x mode hx hmode
    obtain ⟨hmem, rfl⟩ := mem_of_lastAt hx
    obtain rfl := List.mem_singleton.mp hmem
    have hslot : s.mode = some mode := hmode
    rw [get?_set, if_pos rfl, hslot, modeAfter_some]
  · intro l hl data mode
    have hne : l ≠ fs.goal s.path := by
      rintro rfl
      have hself : lastAt (fs.goal s.path) [⟨s, bs, fs.goal s.path⟩] = some ⟨s, bs, _⟩ :=
        lastAt_singleton_self rfl
      rw [hself] at hl
      cases hl
    rw [get?_set, if_neg hne]
    exact hgrown.file_iff

end Accounts

theorem accounts_landings (ws : List (FileSlot × Bytes)) (fs : FileSystem) :
    Accounts fs (landings ws fs) := by
  induction ws generalizing fs with
  | nil => exact .of_grown (.refl (fun _ => False) fs)
  | cons v ws ih =>
    obtain ⟨s, bs⟩ := v
    have hwrote := s.wrote bs fs
    rw [landings]
    generalize s.write bs fs = o at hwrote
    rcases o with ⟨gs, e | u⟩
    · cases hwrote with
      | failed e hgrown => exact .of_grown hgrown
    · exact (Accounts.of_wrote hwrote).append (ih gs)

theorem accounts_allLandings (wss : List (List (FileSlot × Bytes))) (fs : FileSystem) :
    Accounts fs (allLandings wss fs) := by
  induction wss generalizing fs with
  | nil => exact .of_grown (.refl (fun _ => False) fs)
  | cons ws wss ih => exact (accounts_landings ws fs).append (ih _)

theorem mem_landings {ws : List (FileSlot × Bytes)} {fs : FileSystem} {x : Landing}
    (h : x ∈ (landings ws fs).1) : (x.slot, x.data) ∈ ws ∧ x.location = fs.goal x.slot.path := by
  induction ws generalizing fs with
  | nil => cases h
  | cons v ws ih =>
    obtain ⟨s, bs⟩ := v
    have hwrote := s.wrote bs fs
    rw [landings] at h
    generalize s.write bs fs = o at hwrote h
    rcases o with ⟨gs, e | u⟩
    · cases h
    · obtain rfl | h := List.mem_cons.mp h
      · exact ⟨List.mem_cons_self, rfl⟩
      · obtain ⟨hmem, hlocation⟩ := ih h
        have hdirectory := (Accounts.of_wrote hwrote).workingDirectory
        exact ⟨List.mem_cons_of_mem _ hmem, hlocation.trans (goal_congr hdirectory _)⟩

theorem mem_allLandings {wss : List (List (FileSlot × Bytes))} {fs : FileSystem} {x : Landing}
    (h : x ∈ (allLandings wss fs).1) :
    (∃ ws ∈ wss, (x.slot, x.data) ∈ ws) ∧ x.location = fs.goal x.slot.path := by
  induction wss generalizing fs with
  | nil => cases h
  | cons ws wss ih =>
    obtain h | h := List.mem_append.mp h
    · obtain ⟨hmem, hlocation⟩ := mem_landings h
      exact ⟨⟨ws, List.mem_cons_self, hmem⟩, hlocation⟩
    · obtain ⟨⟨ws', hws', hmem⟩, hlocation⟩ := ih h
      have hdirectory := (accounts_landings ws fs).workingDirectory
      exact ⟨⟨ws', List.mem_cons_of_mem _ hws', hmem⟩, hlocation.trans (goal_congr hdirectory _)⟩

theorem allLandings_append (wss vss : List (List (FileSlot × Bytes))) (fs : FileSystem) :
    allLandings (wss ++ vss) fs =
      ((allLandings wss fs).1 ++ (allLandings vss (allLandings wss fs).2).1,
        (allLandings vss (allLandings wss fs).2).2) := by
  induction wss generalizing fs with
  | nil => rfl
  | cons ws wss ih => simp only [List.cons_append, allLandings, ih, List.append_assoc]

theorem files_writeAll (ws : List (FileSlot × Bytes)) (w : World κ) :
    (w.perform (Destination.writeAll ws)).2.files = (landings ws w.files).2 := by
  induction ws generalizing w with
  | nil => rfl
  | cons v ws ih =>
    obtain ⟨s, bs⟩ := v
    rw [Destination.writeAll, World.perform_bind, FileSlot.perform_write, landings]
    rcases s.write bs w.files with ⟨gs, e | u⟩
    · rfl
    · exact ih _

namespace BundleStore

def members : BundleStore σ → List (Destination σ)
  | .single d => [d]
  | .fanOut f => f.members

def plans (store : BundleStore σ) (data : CertData) : List (List (σ × Bytes)) :=
  store.members.map (·.plan data)

theorem files_writeCert (store : BundleStore FileSlot) (data : CertData) (w : World κ) :
    (w.perform (store.writeCert data)).2.files = (allLandings (store.plans data) w.files).2 := by
  have hmember (d : Destination FileSlot) (w : World κ) :
      (w.perform (d.writeCert data)).2.files = (landings (d.plan data) w.files).2 := by
    rw [← Destination.writeAll_plan, files_writeAll]
  cases store with
  | single d => exact hmember d w
  | fanOut f =>
    have hall (report : Destination FileSlot → StorageError → Run κ Unit)
        (hreport : ∀ d e w, ((report d e).run w).2.files = w.files)
        (ds : List (Destination FileSlot)) :
        ((FanOut.failuresOf (fun d => d.writeCert data) report ds).run w).2.files =
          (allLandings (ds.map (·.plan data)) w.files).2 := by
      induction ds generalizing w with
      | nil => rfl
      | cons d ds ih =>
        have hfiles : (FanOut.reported (fun d => d.writeCert data) report w d).files =
            (landings (d.plan data) w.files).2 := by
          rw [← hmember d w, FanOut.reported]
          rcases w.perform (d.writeCert data) with ⟨e | _, v⟩
          · exact hreport d e v
          · rfl
        rw [FanOut.run_failuresOf_cons, ih, hfiles]
        rfl
    exact hall _ (fun _ _ _ => rfl) f.members

def written (store : BundleStore FileSlot) (calls : List CertData) (w : World κ) : World κ :=
  calls.foldl (fun w data => (w.perform (store.writeCert data)).2) w

theorem files_written (store : BundleStore FileSlot) (calls : List CertData) (w : World κ) :
    (store.written calls w).files = (allLandings (calls.flatMap store.plans) w.files).2 := by
  induction calls generalizing w with
  | nil => rfl
  | cons data calls ih =>
    rw [List.flatMap_cons, allLandings_append, ← files_writeCert]
    exact ih _

end BundleStore

namespace Destination

def openSlots : Destination σ → List σ
  | .combined _ => []
  | .separateCa _ ca => [ca]
  | .separateCert cert ca _ => cert :: ca.toList

open Layout

def openTexts (data : CertData) : List Bytes :=
  let caData := data.caData.getD []
  [closed data.certificate, closed data.certificate ++ closed caData, closed caData, tidy caData]

theorem mem_plan {d : Destination σ} {data : CertData} {q : σ × Bytes} (hq : q ∈ d.plan data) :
    q.1 = d.keySlot ∨ q.1 ∈ d.openSlots ∧ q.2 ∈ openTexts data := by
  rw [plan_split, List.mem_append, List.mem_cons] at hq
  obtain hca | rfl | hkey := hq
  · obtain ⟨hslot, -, htext⟩ := mem_ownPlan.mp hca
    right
    cases d with
    | combined key => cases hslot
    | separateCa key ca =>
      obtain rfl := Option.some.inj hslot
      simp [openSlots, openTexts, htext, caText]
    | separateCert cert ca key =>
      obtain rfl : ca = some q.1 := hslot
      simp [openSlots, openTexts, htext, caText]
  · cases d with
    | combined key => exact .inl rfl
    | separateCa key ca => exact .inl rfl
    | separateCert cert ca key =>
      right
      cases ca <;> simp [openSlots, openTexts, certSlot, certText]
  · obtain ⟨hslot, -, -⟩ := mem_ownPlan.mp hkey
    cases d with
    | combined key => cases hslot
    | separateCa key ca => cases hslot
    | separateCert cert ca key => exact .inl (Option.some.inj hslot).symm

end Destination

namespace Configuration

variable {e : Environment} {paths : List Paths} {store : BundleStore FileSlot}

def Paths.openPaths (p : Paths) : List String := p.cert.toList ++ p.ca.toList

def IsKeySlot (e : Environment) (paths : List Paths) (s : FileSlot) : Prop :=
  ∃ p ∈ paths, slot e keyMode p.key = .ok s

def IsOpenSlot (e : Environment) (paths : List Paths) (s : FileSlot) : Prop :=
  ∃ p ∈ paths, ∃ path ∈ p.openPaths, slot e publicMode path = .ok s

theorem slot?_eq_ok {mode : Nat} {path : Option String} {s : Option FileSlot}
    (h : slot? e mode path = .ok s) : ∀ t ∈ s, ∃ p ∈ path, slot e mode p = .ok t := by
  cases path with
  | none =>
    cases h
    exact nofun
  | some p =>
    obtain ⟨t, ht, hs⟩ := except_bind_eq_ok.mp h
    cases hs
    rintro _ ⟨⟩
    exact ⟨p, rfl, ht⟩

theorem destination_eq_ok {p : Paths} {d : Destination FileSlot} (h : p.destination e = .ok d) :
    slot e keyMode p.key = .ok d.keySlot ∧
      ∀ s ∈ d.openSlots, ∃ path ∈ p.openPaths, slot e publicMode path = .ok s := by
  obtain ⟨cert, hcert, h⟩ := except_bind_eq_ok.mp h
  obtain ⟨ca, hca, h⟩ := except_bind_eq_ok.mp h
  obtain ⟨key, hkey, h⟩ := except_bind_eq_ok.mp h
  have hopen : ∀ s, s ∈ cert ∨ s ∈ ca → ∃ path ∈ p.openPaths, slot e publicMode path = .ok s := by
    rintro s (hs | hs)
    · obtain ⟨path, hpath, hslot⟩ := slot?_eq_ok hcert s hs
      exact ⟨path, List.mem_append_left _ (Option.mem_toList.mpr hpath), hslot⟩
    · obtain ⟨path, hpath, hslot⟩ := slot?_eq_ok hca s hs
      exact ⟨path, List.mem_append_right _ (Option.mem_toList.mpr hpath), hslot⟩
  have hd := mapError_eq_ok.mp h
  unfold Destination.ofSlots at hd
  rcases cert with _ | cert
  · rcases ca with _ | ca
    · cases hd
      exact ⟨hkey, nofun⟩
    · cases hd
      refine ⟨hkey, fun s hs => hopen s (.inr ?_)⟩
      rw [List.mem_singleton.mp hs]
      rfl
  · cases hd
    refine ⟨hkey, fun s hs => hopen s ?_⟩
    obtain rfl | hs := List.mem_cons.mp hs
    · exact .inl rfl
    · exact .inr (Option.mem_toList.mp hs)

theorem bundleStore_eq_ok (h : bundleStore e paths = .ok store) :
    ∀ d ∈ store.members, ∃ p ∈ paths, p.destination e = .ok d := by
  unfold bundleStore at h
  split at h
  next => cases h
  next p =>
    obtain ⟨d, hd, hstore⟩ := except_bind_eq_ok.mp h
    cases hstore
    rintro _ hmem
    rw [List.mem_singleton.mp hmem]
    exact ⟨p, List.mem_singleton_self p, hd⟩
  next =>
    obtain ⟨ds, hds, h⟩ := except_bind_eq_ok.mp h
    obtain ⟨f, hf, hstore⟩ := except_bind_eq_ok.mp h
    cases hstore
    have hall := mapM_eq_ok.mp hds
    have hlist := mapError_eq_ok.mp hf
    unfold FanOut.ofList at hlist
    split at hlist
    next => cases hlist
    next =>
      cases hlist
      intro d hd
      exact exists_of_forall₂ hall hd

structure Settled (e : Environment) (paths : List Paths) (calls : List CertData)
    (fs : FileSystem) (ls : List Landing) (gs : FileSystem) : Prop where
  key : ∀ l x, lastAt l ls = some x → IsKeySlot e paths x.slot →
    gs.get? l = some (.file x.data 0o600)
  shared : ∀ l x, lastAt l ls = some x → IsOpenSlot e paths x.slot →
    gs.get? l = some (.file x.data 0o644)
  secret : ∀ x ∈ ls, IsKeySlot e paths x.slot ∨
    IsOpenSlot e paths x.slot ∧ ∃ data ∈ calls, x.data ∈ Destination.openTexts data
  unwritten : ∀ l, lastAt l ls = none → ∀ data mode,
    gs.get? l = some (.file data mode) ↔ fs.get? l = some (.file data mode)
  unnamed : ∀ l, (∀ p ∈ paths, ∀ path ∈ p.key :: p.openPaths, ∀ expanded,
      e.expandPath path = .ok expanded → fs.goal expanded ≠ l) → ∀ data mode,
    gs.get? l = some (.file data mode) ↔ fs.get? l = some (.file data mode)

theorem slot_eq_ok {mode : Nat} {path : String} {s : FileSlot} (h : slot e mode path = .ok s) :
    e.expandPath path = .ok s.path ∧ s.mode = some mode := by
  obtain ⟨expanded, hexpanded, hs⟩ := except_bind_eq_ok.mp h
  cases hs
  exact ⟨hexpanded, rfl⟩

theorem settled_of_bundles (h : bundleStore e paths = .ok store) (calls : List CertData)
    (w : World κ) : ∃ ls,
      allLandings (calls.flatMap store.plans) w.files = (ls, (store.written calls w).files) ∧
      Settled e paths calls w.files ls (store.written calls w).files := by
  have haccounts := accounts_allLandings (calls.flatMap store.plans) w.files
  have hmem : ∀ x ∈ (allLandings (calls.flatMap store.plans) w.files).1,
      (∃ ws ∈ calls.flatMap store.plans, (x.slot, x.data) ∈ ws) ∧
        x.location = w.files.goal x.slot.path := fun x hx => mem_allLandings hx
  rw [store.files_written calls w]
  refine ⟨_, rfl, ?_⟩
  generalize allLandings (calls.flatMap store.plans) w.files = o at haccounts hmem
  have hsecret : ∀ x ∈ o.1, IsKeySlot e paths x.slot ∨
      IsOpenSlot e paths x.slot ∧ ∃ data ∈ calls, x.data ∈ Destination.openTexts data := by
    intro x hx
    obtain ⟨⟨ws, hws, hplan⟩, -⟩ := hmem x hx
    obtain ⟨data, hdata, hws⟩ := List.mem_flatMap.mp hws
    obtain ⟨d, hd, rfl⟩ := List.mem_map.mp hws
    obtain ⟨p, hp, hpd⟩ := bundleStore_eq_ok h d hd
    obtain ⟨hkey, hopen⟩ := destination_eq_ok hpd
    rcases Destination.mem_plan hplan with hslot | ⟨hslot, htext⟩
    · exact .inl ⟨p, hp, hkey.trans (congrArg Except.ok hslot.symm)⟩
    · exact .inr ⟨⟨p, hp, hopen _ hslot⟩, data, hdata, htext⟩
  refine ⟨?_, ?_, hsecret, haccounts.others, ?_⟩
  · rintro l x hx ⟨p, -, hslot⟩
    exact haccounts.last l x _ hx (slot_eq_ok hslot).2
  · rintro l x hx ⟨p, -, path, -, hslot⟩
    exact haccounts.last l x _ hx (slot_eq_ok hslot).2
  · intro l hunnamed
    refine haccounts.others l ?_
    by_contra hsome
    obtain ⟨x, hx⟩ := Option.ne_none_iff_exists'.mp hsome
    obtain ⟨hxmem, hxl⟩ := mem_of_lastAt hx
    have hgoal : w.files.goal x.slot.path = l := (hmem x hxmem).2.symm.trans hxl
    rcases hsecret x hxmem with ⟨p, hp, hslot⟩ | ⟨⟨p, hp, path, hpath, hslot⟩, -⟩
    · exact hunnamed p hp _ List.mem_cons_self _ (slot_eq_ok hslot).1 hgoal
    · exact hunnamed p hp _ (List.mem_cons_of_mem _ hpath) _ (slot_eq_ok hslot).1 hgoal

def paired : Paths := { cert := some "c", key := "k" }

def looseWorld : World Script where
  authority := .empty
  files := { nodes := [([], .directory 0o755), (["k"], .file [1, 2] 0o666)], umask := 0 }
  readings _ := 0

def letters : CertData := { certificate := [67], privateKey := some [75] }

theorem settled_of_bundles_paired : ∃ store, bundleStore {} [paired] = .ok store ∧
    (store.written [letters] looseWorld).files.get? ["k"] = some (.file [75, 10] 0o600) := by
  have hstore : bundleStore {} [paired] =
      .ok (.single (.separateCert ⟨"c", some publicMode⟩ none ⟨"k", some keyMode⟩)) := rfl
  refine ⟨_, hstore, ?_⟩
  obtain ⟨ls, hls, hsettled⟩ := settled_of_bundles hstore [letters] looseWorld
  have hlast : lastAt ["k"] ls = some ⟨⟨"k", some keyMode⟩, [75, 10], ["k"]⟩ := by
    obtain rfl := congrArg Prod.fst hls
    decide +kernel
  exact hsettled.key _ _ hlast ⟨paired, List.mem_singleton_self _, rfl⟩

end Configuration

end CertLifecycle
