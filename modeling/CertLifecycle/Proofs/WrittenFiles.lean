import CertLifecycle.Proofs.PreflightChecks

namespace CertLifecycle

namespace FileSystem

variable {P : Location → Prop} {fs gs : FileSystem} {l : Location} {path name : String}
variable {names : List String} {mode : Option Nat} {data : Bytes}

structure MakesWay (path : String) (fs gs : FileSystem) : Prop where
  kept : ∀ l mode, fs.get? l = some (.directory mode) → gs.get? l = some (.directory mode)
  made : ∀ l, gs.HasDirectory l → fs.HasDirectory l ∨ fs.get? l = none ∧ fs.Passes path l

theorem Grown.makesWay (h : Grown (fs.Passes path) fs gs) : MakesWay path fs gs := by
  constructor
  · intro l mode hl
    rw [h.get?_of_ne_none (by simp [hl]), hl]
  · rintro l ⟨mode, hl⟩
    rcases h.node l with hsame | ⟨hpasses, hnone, -⟩
    · exact .inl ⟨mode, hsame.symm.trans hl⟩
    · exact .inr ⟨hnone, hpasses⟩

theorem MakesWay.set (h : MakesWay path fs gs) (hfree : ¬ gs.HasDirectory l) (m : Nat) :
    MakesWay path fs (gs.set l (.file data m)) := by
  constructor
  · intro k mode hk
    have hdirectory := h.kept k mode hk
    have hne : k ≠ l := by
      rintro rfl
      exact hfree ⟨mode, hdirectory⟩
    rw [get?_set, if_neg hne, hdirectory]
  · rintro k ⟨mode, hk⟩
    apply h.made
    rw [get?_set] at hk
    split at hk
    · cases hk
    · exact ⟨mode, hk⟩

theorem Grown.modeAfter_eq (h : Grown P fs gs) (l : Location) (given : Option Nat) :
    gs.modeAfter l given = fs.modeAfter l given := by
  have hmasked : gs.masked 0o666 = fs.masked 0o666 := by rw [masked, masked, h.umask]
  unfold modeAfter
  rw [hmasked]
  rcases h.node l with hsame | ⟨-, hnone, _, hnew⟩
  · rw [hsame]
  · rw [hnone, hnew]

theorem walk_of_lastName {p : Parts} (h : fs.lastName p = .ok (some (l, name)))
    (hstart : gs.workingDirectory = fs.workingDirectory)
    (hkept : ∀ k, fs.HasDirectory k → gs.HasDirectory k) (hle : byteLength name ≤ 255)
    (hnode : gs.get? (l ++ [name]) ≠ none) : gs.walk (gs.start p) p.names = .ok (l ++ [name]) := by
  obtain ⟨hname, hdot, hdots, hwalk, hl⟩ := lastName_eq_ok.mp h
  obtain ⟨hopen, hshort, hreach⟩ := walk_eq_ok_iff.mp ⟨hwalk, hl⟩
  obtain ⟨hwalk', hl'⟩ := walk_eq_ok_iff.mpr ⟨hopen.mono hkept, hshort, hreach⟩
  have henter : gs.enter l name = .ok (l ++ [name]) := by
    apply enter_eq_ok.mpr
    refine ⟨hl', ?_, fun _ _ => ⟨hle, hnode⟩⟩
    rw [descend, if_neg hdot, if_neg hdots]
  rw [start_congr hstart, ← List.dropLast_append_getLast? name hname, walk_append, hwalk']
  exact except_bind_eq_ok.mpr ⟨_, rfl, except_bind_eq_ok.mpr ⟨_, henter, rfl⟩⟩

theorem look_of_store (h : fs.store path mode data = .ok gs) :
    gs.look path = .ok (.file data (fs.modeAfter (fs.goal path) mode)) := by
  obtain ⟨p, l, name, hparts, hlast, hclosed, hle, hfree, hgs⟩ := store_eq_ok.mp h
  obtain ⟨hpath, rfl⟩ := parts_eq_ok.mp hparts
  have hgoal : fs.goal path = l ++ [name] := reach_of_lastName hlast
  have hstart : gs.workingDirectory = fs.workingDirectory := by rw [hgs, FileSystem.set]
  have hget : gs.get? (l ++ [name]) = some (.file data (fs.modeAfter (l ++ [name]) mode)) := by
    rw [hgs, get?_set, if_pos rfl]
  have hkept (k : Location) (hk : fs.HasDirectory k) : gs.HasDirectory k := by
    rw [hgs]
    exact hk.set hfree _
  rw [look_eq_ok, goal_congr hstart, hgoal]
  refine ⟨hpath, ?_, hget, fun _ => hclosed⟩
  apply walk_of_lastName hlast hstart hkept hle
  simp [hget]

end FileSystem

namespace FileSlot

open FileSystem

variable {κ : Type} {s : FileSlot} {data : Bytes} {fs gs : FileSystem}

structure Replaced (s : FileSlot) (data : Bytes) (fs gs : FileSystem) : Prop
    extends MakesWay s.path fs gs where
  read : s.read gs = .ok data
  configured : ∀ mode, s.mode = some mode →
    gs.look s.path = .ok (.file data (mode &&& 0o7777))
  inherited : s.mode = none → ∀ old mode, fs.get? (fs.goal s.path) = some (.file old mode) →
    gs.look s.path = .ok (.file data mode)
  fresh : s.mode = none → ¬ fs.HasFile (fs.goal s.path) →
    gs.look s.path = .ok (.file data (0o666 &&& (0o7777 ^^^ fs.umask)))
  others : ∀ l, l ≠ fs.goal s.path → ∀ bs mode,
    gs.get? l = some (.file bs mode) ↔ fs.get? l = some (.file bs mode)

structure Untouched (s : FileSlot) (fs gs : FileSystem) : Prop extends MakesWay s.path fs gs where
  files : ∀ l bs mode, gs.get? l = some (.file bs mode) ↔ fs.get? l = some (.file bs mode)

theorem look_write (h : (s.write data fs).2 = .ok ()) :
    (s.write data fs).1.look s.path = .ok (.file data (fs.modeAfter (fs.goal s.path) s.mode)) := by
  have hgrown := s.grown_makeParents fs
  unfold write at h ⊢
  generalize s.makeParents fs = o at hgrown h
  rcases o with ⟨gs, e | u⟩
  · cases h
  dsimp only at hgrown h ⊢
  cases hstore : gs.store s.path s.mode data with
  | error e =>
    rw [hstore] at h
    cases h
  | ok hs =>
    have hlook := look_of_store hstore
    rwa [goal_congr hgrown.workingDirectory, hgrown.modeAfter_eq] at hlook

theorem replaced_of_stored {gs : FileSystem} (hgrown : Grown (fs.Passes s.path) fs gs)
    (hfree : ¬ gs.HasDirectory (fs.goal s.path)) {hs : FileSystem} {m : Nat}
    (hset : hs = gs.set (fs.goal s.path) (.file data m))
    (hlook : hs.look s.path = .ok (.file data (fs.modeAfter (fs.goal s.path) s.mode))) :
    Replaced s data fs hs where
  toMakesWay := hset ▸ hgrown.makesWay.set hfree m
  read := by
    unfold read FileSystem.read
    rw [hlook]
    rfl
  configured mode hmode := by
    rw [hlook, hmode]
    rfl
  inherited hmode old mode hold := by
    rw [hlook, hmode, modeAfter, hold]
    rfl
  fresh hmode hnew := by
    rw [hlook, hmode, modeAfter]
    split
    next bs old hold => exact absurd ⟨bs, old, hold⟩ hnew
    next => rfl
  others l hl bs mode := by
    rw [hset, get?_set, if_neg hl]
    exact hgrown.file_iff

structure Framed (s : FileSlot) (data : Bytes) (w : World κ) : Prop where
  stored : ∀ v, w.perform (Slot.write s data) = (.ok (), v) →
    Replaced s data w.files v.files ∧ (v.perform (Slot.read s)).1 = .ok data
  failed : ∀ e v, w.perform (Slot.write s data) = (.error e, v) → Untouched s w.files v.files
  succeeds : w.files.WellFormed →
    ((w.perform (Slot.write s data)).1 = .ok () ↔ w.files.Storable s.path)
  wellFormed : w.files.WellFormed → (w.perform (Slot.write s data)).2.files.WellFormed

theorem write_framed (s : FileSlot) (data : Bytes) (w : World κ) : Framed s data w := by
  have hwrite := perform_write s data w
  have hwrote := s.wrote data w.files
  refine ⟨?_, ?_, ?_, ?_⟩
  · intro v hv
    rw [hwrite] at hv
    obtain ⟨hok, rfl⟩ := Prod.mk.inj hv
    have hlook := look_write hok
    rw [perform_read]
    generalize s.write data w.files = o at hwrote hok hlook
    cases hwrote with
    | failed e hgrown => cases hok
    | stored hgrown hfree =>
      have hreplaced := replaced_of_stored hgrown hfree rfl hlook
      exact ⟨hreplaced, hreplaced.read⟩
  · intro e v hv
    rw [hwrite] at hv
    obtain ⟨herror, rfl⟩ := Prod.mk.inj hv
    generalize s.write data w.files = o at hwrote herror
    cases hwrote with
    | failed e hgrown => exact ⟨hgrown.makesWay, fun _ _ _ => hgrown.file_iff⟩
    | stored hgrown hfree => cases herror
  · intro hw
    rw [hwrite]
    exact ⟨storable_of_write, write_of_storable hw⟩
  · intro hw
    rw [hwrite]
    exact wellFormed_write hw s data

end FileSlot

end CertLifecycle
