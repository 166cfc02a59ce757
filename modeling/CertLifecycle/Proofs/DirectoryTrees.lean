import CertLifecycle.Proofs.FileTrees

namespace CertLifecycle.FileSystem

structure WellFormed (fs : FileSystem) : Prop where
  root : fs.HasDirectory []
  workingDirectory : fs.HasDirectory fs.workingDirectory
  parent : ∀ l name, fs.get? (l ++ [name]) ≠ none → fs.HasDirectory l

def Throughout (P : Location → Prop) (l : Location) (names : List String) : Prop :=
  ∀ front, front <+: names → P (reach l front)

def Short (names : List String) : Prop := ∀ name ∈ names, byteLength name ≤ 255

variable {fs gs : FileSystem} {l k : Location} {name path : String} {names front : List String}
variable {P Q : Location → Prop}

theorem HasDirectory.ne_none (h : fs.HasDirectory l) : fs.get? l ≠ none := by
  obtain ⟨mode, h⟩ := h
  rw [h]
  simp

theorem HasDirectory.not_hasFile (h : fs.HasDirectory l) : ¬ fs.HasFile l := by
  obtain ⟨mode, h⟩ := h
  rintro ⟨data, mode', h'⟩
  rw [h] at h'
  cases h'

theorem HasDirectory.set (hk : fs.HasDirectory k) (hfree : ¬ fs.HasDirectory l) (n : FileNode) :
    (fs.set l n).HasDirectory k := by
  have hne : k ≠ l := by
    rintro rfl
    exact hfree hk
  obtain ⟨mode, hmode⟩ := hk
  exact ⟨mode, by rw [get?_set, if_neg hne, hmode]⟩

theorem hasDirectory_of_ne_none (h : fs.get? l ≠ none) (hfile : ¬ fs.HasFile l) :
    fs.HasDirectory l := by
  rcases hl : fs.get? l with _ | ⟨data, mode⟩ | mode
  · exact absurd hl h
  · exact absurd ⟨data, mode, hl⟩ hfile
  · exact ⟨mode, hl⟩

theorem Grown.hasDirectory (h : Grown P fs gs) (hl : fs.HasDirectory l) : gs.HasDirectory l := by
  obtain ⟨mode, hmode⟩ := hl
  exact ⟨mode, by rw [h.get?_of_ne_none (by rw [hmode]; simp), hmode]⟩

theorem Grown.hasFile_iff (h : Grown P fs gs) : gs.HasFile l ↔ fs.HasFile l := by
  simp only [HasFile, h.file_iff]

namespace Throughout

theorem mono (h : Throughout P l names) (hPQ : ∀ l, P l → Q l) : Throughout Q l names :=
  fun front hfront => hPQ _ (h front hfront)

theorem of_part (h : Throughout P l names) (hfront : front <+: names) : Throughout P l front :=
  fun _ hpre => h _ (hpre.trans hfront)

theorem first (h : Throughout P l names) : P l := h [] List.nil_prefix

theorem last (h : Throughout P l names) : P (reach l names) := h names List.prefix_rfl

theorem nil_iff : Throughout P l [] ↔ P l := by
  constructor
  · exact first
  · intro h front hfront
    rw [List.prefix_nil.mp hfront]
    exact h

theorem cons_iff : Throughout P l (name :: names) ↔ P l ∧ Throughout P (descend l name) names := by
  constructor
  · intro h
    exact ⟨h.first, fun front hfront => h (name :: front) (List.cons_prefix_cons.mpr ⟨rfl, hfront⟩)⟩
  · rintro ⟨hl, h⟩ front hfront
    cases front with
    | nil => exact hl
    | cons n front =>
      obtain ⟨rfl, hrest⟩ := List.cons_prefix_cons.mp hfront
      exact h front hrest

theorem concat_iff : Throughout P l (names ++ [name]) ↔
    Throughout P l names ∧ P (reach l (names ++ [name])) := by
  constructor
  · intro h
    exact ⟨h.of_part (List.prefix_append _ _), h.last⟩
  · rintro ⟨h, hlast⟩ front hfront
    obtain hfront | rfl := (List.prefix_concat_iff.mp hfront).symm
    · exact h front hfront
    · exact hlast

theorem append_dots_iff {j : Nat} :
    Throughout P l (names ++ List.replicate j ".") ↔ Throughout P l names := by
  induction j with
  | zero => rw [List.replicate_zero, List.append_nil]
  | succ j ih =>
    have hdot : reach l (names ++ List.replicate j "." ++ ["."]) =
        reach l (names ++ List.replicate j ".") := by
      rw [reach_concat]
      rfl
    rw [List.replicate_succ', ← List.append_assoc, concat_iff, hdot, ih, and_iff_left_iff_imp]
    exact fun h => (ih.mpr h).last

end Throughout

theorem byteLength_dots : byteLength "." ≤ 255 ∧ byteLength ".." ≤ 255 := by decide

theorem walk_eq_ok_iff : fs.walk l names = .ok k ∧ fs.HasDirectory k ↔
    Throughout fs.HasDirectory l names ∧ Short names ∧ k = reach l names := by
  induction names generalizing l with
  | nil =>
    rw [Throughout.nil_iff]
    constructor
    · rintro ⟨h, hk⟩
      cases h
      exact ⟨hk, nofun, rfl⟩
    · rintro ⟨hl, -, rfl⟩
      exact ⟨rfl, hl⟩
  | cons name names ih =>
    rw [Throughout.cons_iff, walk, except_bind_eq_ok]
    constructor
    · rintro ⟨⟨m, henter, hwalk⟩, hk⟩
      obtain ⟨hl, rfl, hname⟩ := enter_eq_ok.mp henter
      obtain ⟨hopen, hshort, rfl⟩ := ih.mp ⟨hwalk, hk⟩
      refine ⟨⟨hl, hopen⟩, List.forall_mem_cons.mpr ⟨?_, hshort⟩, rfl⟩
      by_cases hdot : name = "."
      · rw [hdot]
        exact byteLength_dots.1
      by_cases hdots : name = ".."
      · rw [hdots]
        exact byteLength_dots.2
      exact (hname hdot hdots).1
    · rintro ⟨⟨hl, hopen⟩, hshort, rfl⟩
      obtain ⟨hname, hshort⟩ := List.forall_mem_cons.mp hshort
      obtain ⟨hwalk, hk⟩ := ih.mpr ⟨hopen, hshort, rfl⟩
      exact ⟨⟨_, enter_eq_ok.mpr ⟨hl, rfl, fun _ _ => ⟨hname, hopen.first.ne_none⟩⟩, hwalk⟩, hk⟩

theorem enter_eq_error {e : IoError} (hfile : ¬ fs.HasFile l) (hshort : byteLength name ≤ 255)
    (h : fs.enter l name = .error e) : e = .notFound := by
  unfold enter at h
  cases hdirectory : fs.requireDirectory l with
  | error e' =>
    rw [hdirectory] at h
    cases h
    unfold requireDirectory at hdirectory
    rcases hl : fs.get? l with _ | ⟨data, mode⟩ | mode
    · rw [hl] at hdirectory
      cases hdirectory
      rfl
    · exact absurd ⟨data, mode, hl⟩ hfile
    · rw [hl] at hdirectory
      cases hdirectory
  | ok u =>
    simp only [hdirectory, bind, Except.bind, if_neg (Nat.not_lt.mpr hshort)] at h
    split at h
    · cases h
    · split at h
      · cases h
      · split at h
        · cases h
        · cases h
          rfl

theorem walk_eq_error {e : IoError} (hclear : Throughout (¬ fs.HasFile ·) l names)
    (hshort : Short names) (h : fs.walk l names = .error e) : e = .notFound := by
  induction names generalizing l with
  | nil => cases h
  | cons name names ih =>
    obtain ⟨hl, hclear⟩ := Throughout.cons_iff.mp hclear
    obtain ⟨hname, hshort⟩ := List.forall_mem_cons.mp hshort
    rw [walk] at h
    cases henter : fs.enter l name with
    | error e' =>
      rw [henter] at h
      cases h
      exact enter_eq_error hl hname henter
    | ok m =>
      rw [henter] at h
      rw [(enter_eq_ok.mp henter).2.1] at h
      exact ih hclear hshort h

def IsOpen (fs : FileSystem) (path : String) : Prop :=
  Throughout fs.HasDirectory (fs.start (partsOf path)) (partsOf path).names

def IsClear (fs : FileSystem) (path : String) : Prop :=
  Throughout (¬ fs.HasFile ·) (fs.start (partsOf path)) (partsOf path).names

theorem look_eq_ok {n : FileNode} : fs.look path = .ok n ↔
    IsPath path ∧ fs.walk (fs.start (partsOf path)) (partsOf path).names = .ok (fs.goal path) ∧
      fs.get? (fs.goal path) = some n ∧
      ((∃ data mode, n = .file data mode) → (partsOf path).trailing = false) := by
  have hfind : fs.look path = .ok n ↔ ∃ l, fs.find path = .ok (l, n) := by
    unfold look
    cases fs.find path <;> simp [Except.map, Prod.ext_iff]
  rw [hfind]
  constructor
  · rintro ⟨l, h⟩
    obtain ⟨p, hparts, h⟩ := except_bind_eq_ok.mp h
    obtain ⟨hpath, rfl⟩ := parts_eq_ok.mp hparts
    obtain ⟨k, hwalk, h⟩ := except_bind_eq_ok.mp h
    obtain rfl := walk_eq hwalk
    refine ⟨hpath, hwalk, ?_⟩
    rw [goal]
    rcases hget : fs.get? (reach (fs.start (partsOf path)) (partsOf path).names) with
      _ | ⟨_, _⟩ | _ <;> rw [hget] at h
    · cases h
    · dsimp only at h
      split at h
      next => cases h
      next htrailing =>
        cases h
        exact ⟨rfl, fun _ => by simpa using htrailing⟩
    · cases h
      exact ⟨rfl, by rintro ⟨_, _, h⟩; cases h⟩
  · rintro ⟨hpath, hwalk, hget, htrailing⟩
    refine ⟨fs.goal path, except_bind_eq_ok.mpr ⟨_, parts_partsOf hpath, ?_⟩⟩
    refine except_bind_eq_ok.mpr ⟨_, hwalk, ?_⟩
    rw [hget]
    cases n with
    | file data mode => rw [htrailing ⟨data, mode, rfl⟩]; rfl
    | directory mode => rfl

theorem look_eq_directory : (∃ mode, fs.look path = .ok (.directory mode)) ↔
    IsPath path ∧ fs.IsOpen path ∧ Short (partsOf path).names := by
  constructor
  · rintro ⟨mode, h⟩
    obtain ⟨hpath, hwalk, hget, -⟩ := look_eq_ok.mp h
    obtain ⟨hopen, hshort, -⟩ := walk_eq_ok_iff.mp ⟨hwalk, ⟨mode, hget⟩⟩
    exact ⟨hpath, hopen, hshort⟩
  · rintro ⟨hpath, hopen, hshort⟩
    obtain ⟨hwalk, mode, hget⟩ := walk_eq_ok_iff.mpr ⟨hopen, hshort, rfl⟩
    refine ⟨mode, look_eq_ok.mpr ⟨hpath, hwalk, hget, ?_⟩⟩
    rintro ⟨_, _, h⟩
    cases h

theorem isDirectory_iff : fs.isDirectory path = true ↔
    IsPath path ∧ fs.IsOpen path ∧ Short (partsOf path).names := by
  rw [← look_eq_directory, isDirectory]
  rcases fs.look path with _ | ⟨_ | _⟩ <;> simp

theorem isOpen_of_makeDirectory (h : fs.makeDirectory path = .ok gs) : gs.IsOpen path := by
  have hgrown := grown_makeDirectory h
  obtain ⟨p, l, name, hparts, hlast, -, -, rfl⟩ := makeDirectory_eq_ok.mp h
  obtain ⟨-, rfl⟩ := parts_eq_ok.mp hparts
  obtain ⟨hname, -, -, hwalk, hl⟩ := lastName_eq_ok.mp hlast
  obtain ⟨hopen, -, -⟩ := walk_eq_ok_iff.mp ⟨hwalk, hl⟩
  have hreach := reach_of_lastName hlast
  rw [IsOpen, start_congr hgrown.workingDirectory]
  rw [← List.dropLast_append_getLast? name hname] at hreach ⊢
  rw [Throughout.concat_iff, hreach]
  exact ⟨hopen.mono fun l => hgrown.hasDirectory, _, by rw [get?_set, if_pos rfl]⟩

theorem WellFormed.dropLast (hfs : fs.WellFormed) (h : fs.HasDirectory l) :
    fs.HasDirectory l.dropLast := by
  rcases List.eq_nil_or_concat l with rfl | ⟨l, name, rfl⟩
  · exact hfs.root
  · rw [List.concat_eq_append, List.dropLast_concat]
    rw [List.concat_eq_append] at h
    exact hfs.parent l name h.ne_none

theorem WellFormed.start (hfs : fs.WellFormed) (p : Parts) : fs.HasDirectory (fs.start p) := by
  unfold FileSystem.start
  split
  · exact hfs.root
  · exact hfs.workingDirectory

theorem requireDirectory_eq_error (h : ¬ fs.HasDirectory l) (hfile : ¬ fs.HasFile l) :
    fs.requireDirectory l = .error .notFound := by
  unfold requireDirectory
  rcases hl : fs.get? l with _ | ⟨data, mode⟩ | mode
  · rfl
  · exact absurd ⟨data, mode, hl⟩ hfile
  · exact absurd ⟨mode, hl⟩ h

theorem lastName_cases {p : Parts} (hfs : fs.WellFormed) (hshort : Short p.names)
    (hclear : Throughout (¬ fs.HasFile ·) (fs.start p) p.names) :
    (fs.lastName p = .ok none ∧ Throughout fs.HasDirectory (fs.start p) p.names) ∨
      (∃ l name, fs.lastName p = .ok (some (l, name)) ∧
        Throughout fs.HasDirectory (fs.start p) p.names.dropLast) ∨
      (fs.lastName p = .error .notFound ∧
        ¬ Throughout fs.HasDirectory (fs.start p) p.names.dropLast) := by
  unfold lastName
  rcases List.eq_nil_or_concat p.names with hnil | ⟨front, name, hnames⟩
  · rw [hnil]
    exact .inl ⟨rfl, Throughout.nil_iff.mpr (hfs.start p)⟩
  rw [List.concat_eq_append] at hnames
  rw [hnames] at hshort hclear ⊢
  rw [List.getLast?_concat, List.dropLast_concat, Throughout.concat_iff]
  obtain ⟨hfront, -⟩ := Throughout.concat_iff.mp hclear
  have hshortFront : Short front := fun n hn => hshort n (List.mem_append_left _ hn)
  cases hwalk : fs.walk (fs.start p) front with
  | error e =>
    obtain rfl := walk_eq_error hfront hshortFront hwalk
    refine .inr (.inr ⟨rfl, fun hopen => ?_⟩)
    rw [(walk_eq_ok_iff.mpr ⟨hopen, hshortFront, rfl⟩).1] at hwalk
    cases hwalk
  | ok l =>
    obtain rfl := walk_eq hwalk
    by_cases hl : fs.HasDirectory (reach (fs.start p) front)
    · obtain ⟨hopen, -, -⟩ := walk_eq_ok_iff.mp ⟨hwalk, hl⟩
      have hdirectory := requireDirectory_eq_ok (u := ()) |>.mpr hl
      simp only [bind, Except.bind, hdirectory, pure, Except.pure]
      by_cases hdots : name = "." ∨ name = ".."
      · refine .inl ⟨by rw [if_pos hdots], hopen, ?_⟩
        rw [reach_concat]
        rcases hdots with rfl | rfl
        · exact hl
        · exact hfs.dropLast hl
      · exact .inr (.inl ⟨_, name, by rw [if_neg hdots], hopen⟩)
    · refine .inr (.inr ⟨?_, fun hopen => hl hopen.last⟩)
      simp only [bind, Except.bind, requireDirectory_eq_error hl hfront.last]

theorem makeDirectory_cases (hfs : fs.WellFormed) (hpath : IsPath path)
    (hshort : Short (partsOf path).names) (hclear : fs.IsClear path) :
    (∃ gs, fs.makeDirectory path = .ok gs) ∨
      fs.makeDirectory path = .error .fileExists ∧ fs.IsOpen path ∨
      fs.makeDirectory path = .error .notFound ∧
        ¬ Throughout fs.HasDirectory (fs.start (partsOf path)) (partsOf path).names.dropLast := by
  unfold makeDirectory
  rw [parts_partsOf hpath]
  simp only [bind, Except.bind]
  rcases lastName_cases hfs hshort hclear with ⟨hlast, hopen⟩ | ⟨l, name, hlast, hfront⟩ | ⟨hlast, hnot⟩
  · rw [hlast]
    exact .inr (.inl ⟨rfl, hopen⟩)
  · obtain ⟨hname, -⟩ := lastName_eq_ok.mp hlast
    have hgoal := reach_of_lastName hlast
    have hnames := List.dropLast_append_getLast? name hname
    have hle : byteLength name ≤ 255 := hshort name (by rw [← hnames]; simp)
    rw [hlast]
    dsimp only
    rw [if_neg (Nat.not_lt.mpr hle)]
    cases hnode : fs.get? (l ++ [name]) with
    | none => exact .inl ⟨_, rfl⟩
    | some n =>
      refine .inr (.inl ⟨rfl, ?_⟩)
      have hthere : fs.HasDirectory (reach (fs.start (partsOf path)) (partsOf path).names) := by
        refine hasDirectory_of_ne_none ?_ hclear.last
        rw [hgoal, hnode]
        simp
      rw [← hnames] at hthere
      rw [IsOpen, ← hnames, Throughout.concat_iff]
      exact ⟨hfront, hthere⟩
  · rw [hlast]
    exact .inr (.inr ⟨rfl, hnot⟩)

theorem Grown.isClear_iff (h : Grown P fs gs) : gs.IsClear path ↔ fs.IsClear path := by
  simp only [IsClear, start_congr h.workingDirectory, h.hasFile_iff]

theorem Grown.isOpen (h : Grown P fs gs) (hopen : fs.IsOpen path) : gs.IsOpen path := by
  unfold IsOpen
  rw [start_congr h.workingDirectory]
  exact hopen.mono fun _ => h.hasDirectory

theorem wellFormed_makeDirectory (hfs : fs.WellFormed) (h : fs.makeDirectory path = .ok gs) :
    gs.WellFormed := by
  have hgrown := grown_makeDirectory h
  refine ⟨hgrown.hasDirectory hfs.root, ?_, ?_⟩
  · rw [hgrown.workingDirectory]
    exact hgrown.hasDirectory hfs.workingDirectory
  · obtain ⟨p, l, name, -, hlast, -, -, rfl⟩ := makeDirectory_eq_ok.mp h
    intro k n hkn
    rw [get?_set] at hkn
    split at hkn
    next hsame =>
      obtain ⟨rfl, -⟩ := List.append_inj' hsame rfl
      exact hgrown.hasDirectory (lastName_eq_ok.mp hlast).2.2.2.2
    next => exact hgrown.hasDirectory (hfs.parent k n hkn)

theorem wellFormed_ensured (hfs : fs.WellFormed) (path : String) : (fs.ensured path).1.WellFormed := by
  unfold ensured
  cases h : fs.makeDirectory path with
  | ok gs => exact wellFormed_makeDirectory hfs h
  | error e => exact hfs

theorem wellFormed_makeDirectories (depth : Nat) (hfs : fs.WellFormed) (path : String) :
    (makeDirectories depth fs path).1.WellFormed := by
  fun_induction makeDirectories depth fs path with
  | case1 | case2 | case4 | case7 => exact hfs
  | case3 depth fs path hempty gs hmade => exact wellFormed_makeDirectory hfs hmade
  | case5 depth fs path hempty hmissing above habove gs hmade ih =>
    have hgs := ih hfs
    rw [hmade] at hgs
    exact wellFormed_ensured hgs path
  | case6 depth fs path hempty hmissing above habove gs e hmade ih =>
    have hgs := ih hfs
    rwa [hmade] at hgs

theorem wellFormed_store {mode : Option Nat} {data : Bytes} (hfs : fs.WellFormed)
    (h : fs.store path mode data = .ok gs) : gs.WellFormed := by
  obtain ⟨p, l, name, -, hlast, -, -, hfree, rfl⟩ := store_eq_ok.mp h
  have hl := (lastName_eq_ok.mp hlast).2.2.2.2
  refine ⟨hfs.root.set hfree _, hfs.workingDirectory.set hfree _, ?_⟩
  intro k n hkn
  rw [get?_set] at hkn
  split at hkn
  next hsame =>
    obtain ⟨rfl, -⟩ := List.append_inj' hsame rfl
    exact hl.set hfree _
  next => exact (hfs.parent k n hkn).set hfree _

theorem ensured_spec (hfs : fs.WellFormed) (hpath : IsPath path)
    (hshort : Short (partsOf path).names) (hclear : fs.IsClear path)
    (habove : Throughout fs.HasDirectory (fs.start (partsOf path)) (partsOf path).names.dropLast) :
    (fs.ensured path).2 = .ok () ∧ (fs.ensured path).1.IsOpen path := by
  unfold ensured
  rcases makeDirectory_cases hfs hpath hshort hclear with ⟨gs, h⟩ | ⟨h, hopen⟩ | ⟨-, hnot⟩
  · rw [h]
    exact ⟨rfl, isOpen_of_makeDirectory h⟩
  · rw [h]
    exact ⟨if_pos (isDirectory_iff.mpr ⟨hpath, hopen, hshort⟩), hopen⟩
  · exact absurd habove hnot

theorem makeDirectories_spec {depth : Nat} (hfs : fs.WellFormed) (hpath : IsPath path)
    (htrimmed : PathText.Trimmed path.toList) (hshort : Short (partsOf path).names)
    (hclear : fs.IsClear path) (hdepth : path.length < depth) :
    (makeDirectories depth fs path).2 = .ok () ∧ (makeDirectories depth fs path).1.IsOpen path := by
  induction depth generalizing path with
  | zero => exact absurd hdepth (Nat.not_lt_zero _)
  | succ depth ih =>
    have hempty : path.isEmpty = false := by simpa using hpath.nonempty
    rw [makeDirectories, hempty, if_neg Bool.false_ne_true]
    rcases makeDirectory_cases hfs hpath hshort hclear with ⟨gs, h⟩ | ⟨h, hopen⟩ | ⟨h, hnot⟩
    · rw [h]
      exact ⟨rfl, isOpen_of_makeDirectory h⟩
    · rw [h]
      exact ⟨if_pos (isDirectory_iff.mpr ⟨hpath, hopen, hshort⟩), hopen⟩
    · rw [h]
      cases hparent : PathText.parent? path with
      | none =>
        -- Only the root has nothing above, and it is there.
        obtain ⟨hstart, k, hnames⟩ := names_of_parent?_eq_none fs hparent hpath.nonempty
        rw [hstart, hnames, List.dropLast_replicate, ← List.nil_append (List.replicate _ _),
          Throughout.append_dots_iff, Throughout.nil_iff] at hnot
        exact absurd hfs.root hnot
      | some above =>
        have habove := PathText.above_of_parent? hparent
        obtain ⟨j, name, k, hnames, hj, hk⟩ := habove.names
        obtain ⟨rfl, -⟩ := hk htrimmed
        have hpathNames : (partsOf path).names =
            (partsOf above).names ++ List.replicate j "." ++ [name] := hnames
        rw [hpathNames, List.dropLast_concat, Throughout.append_dots_iff] at hnot
        have hne : above ≠ "" := by
          rintro rfl
          exact hnot (Throughout.nil_iff.mpr (hfs.start _))
        have hpre : (partsOf above).names <+: (partsOf path).names := by
          rw [hpathNames, List.append_assoc]
          exact List.prefix_append _ _
        have hstart := start_above fs habove hne
        have hclearAbove : fs.IsClear above := by
          unfold IsClear
          rw [hstart]
          exact hclear.of_part hpre
        obtain ⟨hok, hopen⟩ := ih (isPath_above hpath habove hne) habove.trimmed
          (fun n hn => hshort n (hpre.mem hn)) hclearAbove (by have := habove.shorter; omega)
        have hgrown := grown_makeDirectories depth fs above
        have hwell := wellFormed_makeDirectories depth hfs above
        dsimp only
        generalize makeDirectories depth fs above = o at hok hopen hgrown hwell ⊢
        obtain ⟨gs, r⟩ := o
        obtain rfl : r = .ok () := hok
        refine ensured_spec hwell hpath hshort (hgrown.isClear_iff.mpr hclear) ?_
        rw [hpathNames, List.dropLast_concat, Throughout.append_dots_iff, ← start_above gs habove hne]
        exact hopen

end CertLifecycle.FileSystem
