import CertLifecycle.Proofs.PathComponents

namespace CertLifecycle

namespace FileSystem

def HasDirectory (fs : FileSystem) (l : Location) : Prop := ∃ mode, fs.get? l = some (.directory mode)

def HasFile (fs : FileSystem) (l : Location) : Prop :=
  ∃ data mode, fs.get? l = some (.file data mode)

def descend (l : Location) (name : String) : Location :=
  if name = "." then l else if name = ".." then l.dropLast else l ++ [name]

def reach (l : Location) (names : List String) : Location := names.foldl descend l

def goal (fs : FileSystem) (path : String) : Location :=
  reach (fs.start (partsOf path)) (partsOf path).names

def Along (fs : FileSystem) (path : String) (l : Location) : Prop :=
  ∃ front, front <+: (partsOf path).names ∧ reach (fs.start (partsOf path)) front = l

def Passes (fs : FileSystem) (path : String) (l : Location) : Prop :=
  ∃ front, front <+: (partsOf path).names ∧ front ≠ (partsOf path).names ∧
    reach (fs.start (partsOf path)) front = l

variable {fs gs hs : FileSystem} {l k : Location} {name path : String} {names : List String}

theorem start_congr (h : gs.workingDirectory = fs.workingDirectory) (p : Parts) :
    gs.start p = fs.start p := by rw [start, start, h]

theorem goal_congr (h : gs.workingDirectory = fs.workingDirectory) (path : String) :
    gs.goal path = fs.goal path := by rw [goal, goal, start_congr h]

theorem along_congr (h : gs.workingDirectory = fs.workingDirectory) :
    gs.Along path l ↔ fs.Along path l := by rw [Along, Along, start_congr h]

theorem reach_append (l : Location) (front rest : List String) :
    reach l (front ++ rest) = reach (reach l front) rest := List.foldl_append

theorem reach_concat (l : Location) (front : List String) (name : String) :
    reach l (front ++ [name]) = descend (reach l front) name := by
  rw [reach_append]
  rfl

theorem requireDirectory_eq_ok {u : Unit} :
    fs.requireDirectory l = .ok u ↔ fs.HasDirectory l := by
  unfold requireDirectory HasDirectory
  rcases fs.get? l with _ | ⟨_ | _⟩ <;> simp

theorem enter_eq_ok : fs.enter l name = .ok k ↔
    fs.HasDirectory l ∧ k = descend l name ∧
      (name ≠ "." → name ≠ ".." → byteLength name ≤ 255 ∧ fs.get? k ≠ none) := by
  unfold enter
  rw [except_bind_eq_ok]
  simp only [requireDirectory_eq_ok, exists_and_left, exists_const, and_congr_right_iff]
  intro _
  by_cases hdot : name = "."
  · simp [hdot, descend, pure, Except.pure, eq_comm]
  by_cases hdots : name = ".."
  · simp [hdots, descend, pure, Except.pure, eq_comm]
  have hdescend : descend l name = l ++ [name] := by rw [descend, if_neg hdot, if_neg hdots]
  rw [if_neg hdot, if_neg hdots, hdescend, throw_bind_eq_ok]
  simp only [ne_eq, hdot, hdots, not_false_iff, forall_const, Nat.not_lt]
  cases hnode : fs.get? (l ++ [name]) with
  | none =>
    constructor
    · rintro ⟨-, h⟩
      cases h
    · rintro ⟨rfl, -, h⟩
      exact absurd hnode h
  | some n =>
    constructor
    · rintro ⟨hle, h⟩
      cases h
      exact ⟨rfl, hle, by rw [hnode]; simp⟩
    · rintro ⟨rfl, hle, -⟩
      exact ⟨hle, rfl⟩

theorem walk_append (l : Location) (front rest : List String) :
    fs.walk l (front ++ rest) = fs.walk l front >>= fun k => fs.walk k rest := by
  induction front generalizing l with
  | nil => rfl
  | cons name front ih =>
    rw [List.cons_append, walk, walk]
    cases fs.enter l name with
    | error e => rfl
    | ok k => exact ih k

theorem walk_eq (h : fs.walk l names = .ok k) : k = reach l names := by
  induction names generalizing l with
  | nil =>
    cases h
    rfl
  | cons name names ih =>
    obtain ⟨m, henter, hwalk⟩ := except_bind_eq_ok.mp h
    rw [ih hwalk, (enter_eq_ok.mp henter).2.1]
    rfl

theorem lastName_eq_ok {p : Parts} : fs.lastName p = .ok (some (l, name)) ↔
    p.names.getLast? = some name ∧ name ≠ "." ∧ name ≠ ".." ∧
      fs.walk (fs.start p) p.names.dropLast = .ok l ∧ fs.HasDirectory l := by
  unfold lastName
  cases p.names.getLast? with
  | none => simp [pure, Except.pure]
  | some last =>
    simp only [except_bind_eq_ok, requireDirectory_eq_ok, pure, Except.pure, Except.ok.injEq,
      Option.some.injEq]
    constructor
    · rintro ⟨m, hwalk, -, hmode, h⟩
      split at h
      next => cases h
      next hdots =>
        rw [not_or] at hdots
        cases h
        exact ⟨rfl, hdots.1, hdots.2, hwalk, hmode⟩
    · rintro ⟨rfl, hdot, hdots, hwalk, hmode⟩
      exact ⟨l, hwalk, (), hmode, if_neg (not_or.mpr ⟨hdot, hdots⟩)⟩

theorem reach_of_lastName {p : Parts} (h : fs.lastName p = .ok (some (l, name))) :
    reach (fs.start p) p.names = l ++ [name] := by
  obtain ⟨hlast, hdot, hdots, hwalk, -⟩ := lastName_eq_ok.mp h
  rw [← List.dropLast_append_getLast? name hlast, reach_concat, ← walk_eq hwalk, descend,
    if_neg hdot, if_neg hdots]

/-- The second tree has everything that is in the first, and beyond that only new directories, all
of them at such locations. -/
structure Grown (P : Location → Prop) (fs gs : FileSystem) : Prop where
  workingDirectory : gs.workingDirectory = fs.workingDirectory
  umask : gs.umask = fs.umask
  node : ∀ l, gs.get? l = fs.get? l ∨ P l ∧ fs.get? l = none ∧ gs.HasDirectory l

namespace Grown

variable {P Q : Location → Prop}

theorem refl (P : Location → Prop) (fs : FileSystem) : Grown P fs fs := ⟨rfl, rfl, fun _ => .inl rfl⟩

theorem trans (h : Grown P fs gs) (g : Grown P gs hs) : Grown P fs hs := by
  refine ⟨g.workingDirectory.trans h.workingDirectory, g.umask.trans h.umask, fun l => ?_⟩
  rcases g.node l with hg | ⟨hP, hnone, hnew⟩
  · rw [HasDirectory, hg]
    exact h.node l
  · rcases h.node l with hf | ⟨-, -, mode, hf⟩
    · exact .inr ⟨hP, hf.symm.trans hnone, hnew⟩
    · rw [hf] at hnone
      cases hnone

theorem mono (h : Grown P fs gs) (hPQ : ∀ l, P l → Q l) : Grown Q fs gs :=
  ⟨h.workingDirectory, h.umask, fun l => (h.node l).imp_right (And.imp_left (hPQ l))⟩

theorem get?_of_ne_none (h : Grown P fs gs) (hl : fs.get? l ≠ none) : gs.get? l = fs.get? l := by
  rcases h.node l with hl' | ⟨-, hnone, -⟩
  · exact hl'
  · exact absurd hnone hl

theorem file_iff (h : Grown P fs gs) {data : Bytes} {mode : Nat} :
    gs.get? l = some (.file data mode) ↔ fs.get? l = some (.file data mode) := by
  rcases h.node l with hl | ⟨-, hnone, _, hnew⟩
  · rw [hl]
  · rw [hnone, hnew]
    simp

end Grown

theorem makeDirectory_eq_ok : fs.makeDirectory path = .ok gs ↔
    ∃ p l name, parts path = .ok p ∧ fs.lastName p = .ok (some (l, name)) ∧
      byteLength name ≤ 255 ∧ fs.get? (l ++ [name]) = none ∧
      gs = fs.set (l ++ [name]) (.directory (fs.masked 0o777 ||| fs.inheritedBits l)) := by
  constructor
  · intro h
    obtain ⟨p, hparts, h⟩ := except_bind_eq_ok.mp h
    obtain ⟨_ | ⟨l, name⟩, hlast, h⟩ := except_bind_eq_ok.mp h
    · cases h
    · obtain ⟨hlong, h⟩ := throw_bind_eq_ok.mp h
      cases hnode : fs.get? (l ++ [name]) with
      | some n =>
        rw [hnode] at h
        cases h
      | none =>
        rw [hnode] at h
        cases h
        exact ⟨p, l, name, hparts, hlast, Nat.le_of_not_lt hlong, hnode, rfl⟩
  · rintro ⟨p, l, name, hparts, hlast, hlong, hnode, rfl⟩
    refine except_bind_eq_ok.mpr ⟨p, hparts, except_bind_eq_ok.mpr ⟨_, hlast, ?_⟩⟩
    refine throw_bind_eq_ok.mpr ⟨Nat.not_lt.mpr hlong, ?_⟩
    rw [hnode]
    rfl

theorem grown_makeDirectory (h : fs.makeDirectory path = .ok gs) : Grown (fs.Along path) fs gs := by
  obtain ⟨p, l, name, hparts, hlast, -, hnone, rfl⟩ := makeDirectory_eq_ok.mp h
  obtain ⟨-, rfl⟩ := parts_eq_ok.mp hparts
  refine ⟨rfl, rfl, fun k => ?_⟩
  rw [HasDirectory, get?_set]
  split
  next hk =>
    subst hk
    exact .inr ⟨⟨_, List.prefix_rfl, reach_of_lastName hlast⟩, hnone, _, rfl⟩
  next => exact .inl rfl

theorem grown_ensured (fs : FileSystem) (path : String) :
    Grown (fs.Along path) fs (fs.ensured path).1 := by
  unfold ensured
  cases h : fs.makeDirectory path with
  | ok gs => exact grown_makeDirectory h
  | error e => exact .refl _ fs

theorem passes_of_above {above : String} (h : PathText.Above above path) (hne : above ≠ "")
    (hl : fs.Along above l) : fs.Passes path l := by
  obtain ⟨front, hfront, rfl⟩ := hl
  obtain ⟨j, name, k, hnames, -⟩ := h.names
  have hlonger : (partsOf path).names = (partsOf above).names ++
      (List.replicate j "." ++ name :: List.replicate k ".") := by
    rw [← List.append_assoc]
    exact hnames
  refine ⟨front, ?_, ?_, by rw [start_above fs h hne]⟩
  · rw [hlonger]
    exact hfront.trans (List.prefix_append _ _)
  · rintro rfl
    have hle := hfront.length_le
    rw [hlonger] at hle
    simp only [List.length_append, List.length_cons] at hle
    omega

theorem along_of_passes (h : fs.Passes path l) : fs.Along path l := by
  obtain ⟨front, hfront, -, hreach⟩ := h
  exact ⟨front, hfront, hreach⟩

theorem fst_makeDirectories_empty (depth : Nat) (fs : FileSystem) :
    (makeDirectories depth fs "").1 = fs := by cases depth <;> rfl

theorem grown_above {depth : Nat} {above : String} (h : PathText.parent? path = some above)
    (hgrown : Grown (fs.Along above) fs (makeDirectories depth fs above).1) :
    Grown (fs.Along path) fs (makeDirectories depth fs above).1 := by
  by_cases hne : above = ""
  · rw [hne, fst_makeDirectories_empty]
    exact .refl _ fs
  · exact hgrown.mono fun l hl => along_of_passes (passes_of_above (PathText.above_of_parent? h) hne hl)

theorem grown_makeDirectories (depth : Nat) (fs : FileSystem) (path : String) :
    Grown (fs.Along path) fs (makeDirectories depth fs path).1 := by
  fun_induction makeDirectories depth fs path with
  | case1 fs path => exact .refl _ fs
  | case2 depth fs path hempty => exact .refl _ fs
  | case3 depth fs path hempty gs hmade => exact grown_makeDirectory hmade
  | case4 depth fs path hempty hmissing hroot => exact .refl _ fs
  | case5 depth fs path hempty hmissing above habove gs hmade ih =>
    have hgs := grown_above habove ih
    rw [hmade] at hgs
    refine hgs.trans ((grown_ensured gs path).mono fun l => ?_)
    exact (along_congr hgs.workingDirectory).mp
  | case6 depth fs path hempty hmissing above habove gs e hmade ih =>
    have hgs := grown_above habove ih
    rwa [hmade] at hgs
  | case7 depth fs path hempty e hmissing hfailed => exact .refl _ fs

def modeAfter (fs : FileSystem) (l : Location) (given : Option Nat) : Nat :=
  (given.map (· &&& permissionBits)).getD (match fs.get? l with
    | some (.file _ old) => old
    | _ => fs.masked 0o666)

theorem modeAfter_some (fs : FileSystem) (l : Location) (mode : Nat) :
    fs.modeAfter l (some mode) = mode &&& permissionBits := rfl

theorem store_eq_ok {mode : Option Nat} {data : Bytes} : fs.store path mode data = .ok gs ↔
    ∃ p l name, parts path = .ok p ∧ fs.lastName p = .ok (some (l, name)) ∧
      p.trailing = false ∧ byteLength name ≤ 255 ∧
      ¬ fs.HasDirectory (l ++ [name]) ∧
      gs = fs.set (l ++ [name]) (.file data (fs.modeAfter (l ++ [name]) mode)) := by
  constructor
  · intro h
    obtain ⟨p, hparts, h⟩ := except_bind_eq_ok.mp h
    obtain ⟨_ | ⟨l, name⟩, hlast, h⟩ := except_bind_eq_ok.mp h
    · cases h
    · obtain ⟨htrailing, h⟩ := throw_bind_eq_ok.mp h
      obtain ⟨hlong, h⟩ := throw_bind_eq_ok.mp h
      refine ⟨p, l, name, hparts, hlast, by simpa using htrailing, Nat.le_of_not_lt hlong, ?_⟩
      rw [modeAfter, HasDirectory]
      dsimp only at h
      rcases hget : fs.get? (l ++ [name]) with _ | ⟨_, old⟩ | m <;> rw [hget] at h
      · exact ⟨by simp, (Except.ok.inj h).symm⟩
      · exact ⟨by simp, (Except.ok.inj h).symm⟩
      · cases h
  · rintro ⟨p, l, name, hparts, hlast, htrailing, hlong, hfree, rfl⟩
    refine except_bind_eq_ok.mpr ⟨p, hparts, except_bind_eq_ok.mpr ⟨_, hlast, ?_⟩⟩
    refine throw_bind_eq_ok.mpr ⟨by simp [htrailing], ?_⟩
    refine throw_bind_eq_ok.mpr ⟨Nat.not_lt.mpr hlong, ?_⟩
    rw [modeAfter]
    rcases hget : fs.get? (l ++ [name]) with _ | ⟨_, old⟩ | m
    · rfl
    · rfl
    · exact absurd ⟨m, hget⟩ hfree

end FileSystem

namespace FileSlot

open FileSystem

theorem grown_makeParents (s : FileSlot) (fs : FileSystem) :
    Grown (fs.Passes s.path) fs (s.makeParents fs).1 := by
  unfold makeParents
  split
  next => exact .refl _ fs
  next above habove =>
    obtain ⟨habove, hne⟩ := Option.filter_eq_some_iff.mp habove
    have hbelow := PathText.above_of_parent? habove
    exact (grown_makeDirectories _ fs _).mono fun l => passes_of_above hbelow (by simpa using hne)

inductive Wrote (s : FileSlot) (data : Bytes) (fs : FileSystem) :
    FileSystem × Except StorageError Unit → Prop
  | failed {gs : FileSystem} (e : StorageError) (grown : Grown (fs.Passes s.path) fs gs) :
    Wrote s data fs (gs, .error e)
  | stored {gs : FileSystem} (grown : Grown (fs.Passes s.path) fs gs)
    (free : ¬ gs.HasDirectory (fs.goal s.path)) :
    Wrote s data fs
      (gs.set (fs.goal s.path) (.file data (gs.modeAfter (fs.goal s.path) s.mode)), .ok ())

theorem wrote (s : FileSlot) (data : Bytes) (fs : FileSystem) :
    Wrote s data fs (s.write data fs) := by
  have hgrown := s.grown_makeParents fs
  unfold write
  generalize s.makeParents fs = o at hgrown
  rcases o with ⟨gs, e | u⟩
  · exact .failed _ hgrown
  · dsimp only
    cases hstore : gs.store s.path s.mode data with
    | error e => exact .failed _ hgrown
    | ok hs =>
      obtain ⟨p, l, name, hparts, hlast, -, -, hfree, rfl⟩ := store_eq_ok.mp hstore
      obtain ⟨-, rfl⟩ := parts_eq_ok.mp hparts
      have hgoal : l ++ [name] = fs.goal s.path := by
        rw [← goal_congr hgrown.workingDirectory, ← reach_of_lastName hlast]
        rfl
      rw [hgoal] at hfree ⊢
      exact .stored hgrown hfree

end FileSlot

end CertLifecycle
