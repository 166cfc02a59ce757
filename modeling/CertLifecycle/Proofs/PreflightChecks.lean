import CertLifecycle.Proofs.DirectoryTrees
import CertLifecycle.Proofs.StorageFrames
import Mathlib.Data.List.Induction

namespace CertLifecycle

namespace FileSystem

structure NamesFile (path : String) : Prop where
  isPath : IsPath path
  closed : (partsOf path).trailing = false
  short : Short (partsOf path).names
  named : ∃ name, (partsOf path).names.getLast? = some name ∧ name ≠ "." ∧ name ≠ ".."

/-- A file can be stored there: nothing but missing directories is in the way. -/
structure Storable (fs : FileSystem) (path : String) : Prop extends NamesFile path where
  passable : ∀ l, fs.Passes path l → ¬ fs.HasFile l ∧ l ≠ fs.goal path
  free : ¬ fs.HasDirectory (fs.goal path)

variable {fs gs : FileSystem} {l : Location} {path name : String} {names front : List String}

theorem passes_concat (h : (partsOf path).names = front ++ [name]) :
    fs.Passes path l ↔ ∃ part, part <+: front ∧ reach (fs.start (partsOf path)) part = l := by
  unfold Passes
  rw [h]
  constructor
  · rintro ⟨part, hpart, hne, hl⟩
    exact ⟨part, (List.prefix_concat_iff.mp hpart).resolve_left hne, hl⟩
  · rintro ⟨part, hpart, hl⟩
    refine ⟨part, hpart.trans (List.prefix_append _ _), ?_, hl⟩
    rintro rfl
    have hle := hpart.length_le
    rw [List.length_append, List.length_singleton] at hle
    omega

theorem parent?_cases (h : (partsOf path).names = front ++ [name]) (hdot : name ≠ ".") :
    (FileSlot.parent? path = none ∧ front = []) ∨
      ∃ above j, FileSlot.parent? path = some above ∧ above ≠ "" ∧ PathText.Above above path ∧
        front = (partsOf above).names ++ List.replicate j "." := by
  have hname : name ∈ (partsOf path).names := by
    rw [h]
    simp
  unfold FileSlot.parent?
  cases hparent : PathText.parent? path with
  | none =>
    obtain ⟨k, hk, -⟩ := PathText.replicate_of_parent?_eq_none hparent
    have hall : (partsOf path).names = List.replicate k "." := hk
    rw [hall] at hname
    exact absurd (List.eq_of_mem_replicate hname) hdot
  | some above =>
    have habove := PathText.above_of_parent? hparent
    obtain ⟨j, last, k, hnames, hj, -⟩ := habove.names
    have hsplit : front ++ [name] = (partsOf above).names ++ List.replicate j "." ++
        last :: List.replicate k "." := h.symm.trans hnames
    have hfront : front = (partsOf above).names ++ List.replicate j "." := by
      cases k with
      | zero => exact (List.append_inj' hsplit rfl).1
      | succ k =>
        rw [List.replicate_succ', ← List.cons_append, ← List.append_assoc] at hsplit
        have hlast := (List.append_inj' hsplit rfl).2
        exact absurd (List.cons.inj hlast).1 hdot
    by_cases hne : above = ""
    · subst hne
      obtain rfl := hj rfl
      exact .inl ⟨rfl, hfront⟩
    · exact .inr ⟨above, j, Option.filter_eq_some_iff.mpr ⟨rfl, by simpa using hne⟩, hne, habove,
        hfront⟩

theorem NamesFile.exists_names (h : NamesFile path) (fs : FileSystem) : ∃ front name,
    (partsOf path).names = front ++ [name] ∧ name ≠ "." ∧ name ≠ ".." ∧
      fs.goal path = reach (fs.start (partsOf path)) front ++ [name] := by
  obtain ⟨name, hlast, hdot, hdots⟩ := h.named
  have hnames := (List.dropLast_append_getLast? name hlast).symm
  refine ⟨_, name, hnames, hdot, hdots, ?_⟩
  rw [goal, hnames, List.dropLast_concat, reach_concat, descend, if_neg hdot, if_neg hdots]

theorem storable_of_open {P : Location → Prop} (hgrown : Grown P fs gs) (hpath : IsPath path)
    (hclosed : (partsOf path).trailing = false) (hnames : (partsOf path).names = front ++ [name])
    (hdot : name ≠ ".") (hdots : name ≠ "..") (hshort : Short front) (hle : byteLength name ≤ 255)
    (hopen : Throughout gs.HasDirectory (fs.start (partsOf path)) front)
    (hfree : ¬ gs.HasDirectory (fs.goal path)) : fs.Storable path := by
  refine ⟨⟨hpath, hclosed, ?_, name, by rw [hnames, List.getLast?_concat], hdot, hdots⟩, ?_,
    fun hd => hfree (hgrown.hasDirectory hd)⟩
  · intro n hn
    rw [hnames, List.mem_append, List.mem_singleton] at hn
    rcases hn with hn | rfl
    · exact hshort n hn
    · exact hle
  · intro k hk
    obtain ⟨part, hpart, rfl⟩ := (passes_concat hnames).mp hk
    have hdirectory := hopen part hpart
    refine ⟨fun hfile => hdirectory.not_hasFile (hgrown.hasFile_iff.mpr hfile), fun hgoal => ?_⟩
    rw [hgoal] at hdirectory
    exact hfree hdirectory

theorem exists_store_of_open (mode : Option Nat) (data : Bytes) (h : NamesFile path)
    (hnames : (partsOf path).names = front ++ [name])
    (hopen : Throughout fs.HasDirectory (fs.start (partsOf path)) front)
    (hfree : ¬ fs.HasDirectory (fs.goal path)) : ∃ gs, fs.store path mode data = .ok gs := by
  obtain ⟨last, hlast, hdot, hdots⟩ := h.named
  have hlastOf := hlast
  rw [hnames, List.getLast?_concat] at hlastOf
  obtain rfl := Option.some.inj hlastOf
  have hfront : (partsOf path).names.dropLast = front := by rw [hnames, List.dropLast_concat]
  have hshort : Short front := fun n hn => h.short n (by rw [hnames]; simp [hn])
  obtain ⟨hwalk, hl⟩ := walk_eq_ok_iff.mpr ⟨hopen, hshort, rfl⟩
  have hlastName : fs.lastName (partsOf path) =
      .ok (some (reach (fs.start (partsOf path)) front, name)) :=
    lastName_eq_ok.mpr ⟨hlast, hdot, hdots, by rw [hfront]; exact hwalk, hl⟩
  refine ⟨_, store_eq_ok.mpr ⟨_, _, _, parts_partsOf h.isPath, hlastName, h.closed,
    h.short _ (by rw [hnames]; simp), ?_, rfl⟩⟩
  rw [← reach_of_lastName hlastName]
  exact hfree

end FileSystem

namespace FileSlot

open FileSystem

variable {fs gs : FileSystem} {s : FileSlot} {data : Bytes}

theorem makeParents_spec (hfs : fs.WellFormed) (h : fs.Storable s.path) {front : List String}
    {name : String} (hnames : (partsOf s.path).names = front ++ [name]) (hdot : name ≠ ".") :
    (s.makeParents fs).2 = .ok () ∧
      Throughout (s.makeParents fs).1.HasDirectory (fs.start (partsOf s.path)) front := by
  unfold makeParents
  rcases parent?_cases hnames hdot with ⟨hparent, rfl⟩ | ⟨above, j, hparent, hne, habove, rfl⟩
  · rw [hparent]
    exact ⟨rfl, Throughout.nil_iff.mpr (hfs.start _)⟩
  · rw [hparent]
    have hstart := start_above fs habove hne
    have hpre : (partsOf above).names <+: (partsOf above).names ++ List.replicate j "." :=
      List.prefix_append _ _
    have hclear : fs.IsClear above := by
      intro part hpart
      rw [hstart]
      exact (h.passable _ ((passes_concat hnames).mpr ⟨part, hpart.trans hpre, rfl⟩)).1
    have hshort : Short (partsOf above).names := fun n hn =>
      h.short n (by rw [hnames]; exact List.mem_append_left _ (hpre.mem hn))
    obtain ⟨hok, hopen⟩ := makeDirectories_spec hfs (isPath_above h.isPath habove hne) habove.trimmed
      hshort hclear (Nat.lt_succ_self _)
    refine ⟨hok, ?_⟩
    rw [Throughout.append_dots_iff, ← hstart,
      ← start_congr (grown_makeDirectories _ fs above).workingDirectory]
    exact hopen

theorem storable_of_write (h : (s.write data fs).2 = .ok ()) : fs.Storable s.path := by
  have hgrown := s.grown_makeParents fs
  unfold write at h
  generalize s.makeParents fs = o at hgrown h
  rcases o with ⟨gs, e | u⟩
  · cases h
  dsimp only at hgrown h
  cases hstore : gs.store s.path s.mode data with
  | error e =>
    rw [hstore] at h
    cases h
  | ok hs =>
    obtain ⟨p, l, name, hparts, hlast, hclosed, hle, hfree, -⟩ := store_eq_ok.mp hstore
    obtain ⟨hpath, rfl⟩ := parts_eq_ok.mp hparts
    obtain ⟨hname, hdot, hdots, hwalk, hl⟩ := lastName_eq_ok.mp hlast
    obtain ⟨hopen, hshort, -⟩ := walk_eq_ok_iff.mp ⟨hwalk, hl⟩
    have hnames := (List.dropLast_append_getLast? name hname).symm
    rw [← reach_of_lastName hlast, start_congr hgrown.workingDirectory] at hfree
    rw [start_congr hgrown.workingDirectory] at hopen
    exact storable_of_open hgrown hpath hclosed hnames hdot hdots hshort hle hopen hfree

theorem write_of_storable (hfs : fs.WellFormed) (h : fs.Storable s.path) :
    (s.write data fs).2 = .ok () := by
  have hgrown := s.grown_makeParents fs
  obtain ⟨front, name, hnames, hdot, -, -⟩ := h.exists_names fs
  obtain ⟨hok, hopen⟩ := makeParents_spec hfs h hnames hdot
  unfold write
  generalize s.makeParents fs = o at hgrown hok hopen ⊢
  obtain ⟨gs, r⟩ := o
  obtain rfl : r = .ok () := hok
  have hfree : ¬ gs.HasDirectory (gs.goal s.path) := by
    rw [goal_congr hgrown.workingDirectory]
    intro hd
    rcases hgrown.node (fs.goal s.path) with hsame | ⟨hpasses, -⟩
    · exact h.free (by rwa [HasDirectory, ← hsame])
    · exact (h.passable _ hpasses).2 rfl
  rw [← start_congr hgrown.workingDirectory] at hopen
  obtain ⟨hs, hstore⟩ := exists_store_of_open s.mode data h.toNamesFile hnames hopen hfree
  dsimp only at hstore ⊢
  rw [hstore]

theorem wellFormed_write (hfs : fs.WellFormed) (s : FileSlot) (data : Bytes) :
    (s.write data fs).1.WellFormed := by
  have hparents : (s.makeParents fs).1.WellFormed := by
    unfold makeParents
    split
    · exact hfs
    · exact wellFormed_makeDirectories _ hfs _
  unfold write
  generalize s.makeParents fs = o at hparents ⊢
  rcases o with ⟨gs, e | u⟩
  · exact hparents
  · dsimp only at hparents ⊢
    cases hstore : gs.store s.path s.mode data with
    | error e => exact hparents
    | ok hs => exact wellFormed_store hparents hstore

end FileSlot

namespace FileSystem

variable {fs : FileSystem} {l k : Location} {path name : String} {names front : List String}

theorem prefix_reach (h : ".." ∉ names) : l <+: reach l names := by
  induction names generalizing l with
  | nil => exact List.prefix_rfl
  | cons name names ih =>
    rw [List.mem_cons, not_or] at h
    have hstep : l <+: descend l name := by
      unfold descend
      split_ifs with hdot hdots
      · exact List.prefix_rfl
      · exact absurd hdots.symm h.1
      · exact List.prefix_append _ _
    exact hstep.trans (ih h.2)

theorem WellFormed.above (hfs : fs.WellFormed) (h : fs.get? l ≠ none) (hk : k <+: l)
    (hne : k ≠ l) : fs.HasDirectory k := by
  obtain ⟨more, rfl⟩ := hk
  induction more using List.reverseRecOn with
  | nil => simp at hne
  | append_singleton more name ih =>
    rw [← List.append_assoc] at h
    have hparent := hfs.parent _ _ h
    by_cases hmore : more = []
    · rwa [hmore, List.append_nil] at hparent
    · exact ih hparent.ne_none (by simpa using hmore)

theorem walk_of_ne_none (hfs : fs.WellFormed) (hshort : Short names)
    (hdots : ".." ∉ names) (hlast : names.getLast? ≠ some ".")
    (hnode : fs.get? (reach l names) ≠ none) : fs.walk l names = .ok (reach l names) := by
  rcases List.eq_nil_or_concat names with rfl | ⟨front, name, rfl⟩
  · rfl
  rw [List.concat_eq_append] at hshort hdots hlast hnode ⊢
  have hdot : name ≠ "." := by simpa using hlast
  have hname : name ≠ ".." := by
    rintro rfl
    exact hdots (by simp)
  have hgoal : reach l (front ++ [name]) = reach l front ++ [name] := by
    rw [reach_concat, descend, if_neg hdot, if_neg hname]
  have hopen : Throughout fs.HasDirectory l front := by
    rintro part ⟨rest, rfl⟩
    have hrest : ".." ∉ rest := fun h => hdots (by simp [h])
    have hpart : reach l part <+: reach l (part ++ rest) := by
      rw [reach_append]
      exact prefix_reach hrest
    rw [hgoal] at hnode
    refine hfs.above hnode (hpart.trans (List.prefix_append _ _)) ?_
    intro heq
    have hle := hpart.length_le
    rw [heq, List.length_append, List.length_singleton] at hle
    omega
  obtain ⟨hwalk, hdirectory⟩ := walk_eq_ok_iff.mpr
    ⟨hopen, fun n hn => hshort n (List.mem_append_left _ hn), rfl⟩
  rw [walk_append, hwalk]
  refine except_bind_eq_ok.mpr ⟨_, rfl, except_bind_eq_ok.mpr ⟨_, enter_eq_ok.mpr ?_, rfl⟩⟩
  refine ⟨hdirectory, ?_, ?_⟩
  · exact reach_concat l front name
  · intro _ _
    exact ⟨hshort name (by simp), hnode⟩

theorem exists_look (hfs : fs.WellFormed) (hpath : IsPath path)
    (hclosed : (partsOf path).trailing = false) (hshort : Short (partsOf path).names)
    (hdots : ".." ∉ (partsOf path).names) (hlast : (partsOf path).names.getLast? ≠ some ".")
    {n : FileNode} (hnode : fs.get? (fs.goal path) = some n) : fs.look path = .ok n := by
  have hwalk := walk_of_ne_none hfs hshort hdots hlast (by
    rw [← goal, hnode]
    simp)
  exact look_eq_ok.mpr ⟨hpath, hwalk, hnode, fun _ => hclosed⟩

theorem closed_of_trimmed (h : PathText.Trimmed path.toList) (hroot : path.toList ≠ ['/']) :
    (partsOf path).trailing = false := by
  simpa [partsOf] using (h.resolve_left hroot).1

end FileSystem

namespace FileSlot

open FileSystem

variable {fs : FileSystem} {s : FileSlot} {path above : String}

theorem isClear_of_trimmed (hfs : fs.WellFormed) (hpath : IsPath path)
    (htrimmed : PathText.Trimmed path.toList) (hshort : Short (partsOf path).names)
    (hdots : ".." ∉ (partsOf path).names) (hlook : ∀ data mode, fs.look path ≠ .ok (.file data mode))
    (habove : ∀ above, parent? path = some above → fs.IsClear above) : fs.IsClear path := by
  have hstart : ¬ fs.HasFile (fs.start (partsOf path)) := (hfs.start _).not_hasFile
  cases hparent : PathText.parent? path with
  | none =>
    obtain ⟨-, k, hnames⟩ := names_of_parent?_eq_none fs hparent hpath.nonempty
    unfold IsClear
    rwa [hnames, ← List.nil_append (List.replicate _ _), Throughout.append_dots_iff,
      Throughout.nil_iff]
  | some a =>
    have ha := PathText.above_of_parent? hparent
    obtain ⟨j, name, k, hnames, hj, hk⟩ := ha.names
    obtain ⟨rfl, hdot⟩ := hk htrimmed
    have hpathNames : (partsOf path).names =
        (partsOf a).names ++ List.replicate j "." ++ [name] := hnames
    have hroot : path.toList ≠ ['/'] := by
      intro hroot
      have hnone : (partsOf path).names = [] := congrArg splitNames hroot
      simp [hnone] at hpathNames
    unfold IsClear
    rw [hpathNames, Throughout.concat_iff, ← hpathNames, Throughout.append_dots_iff]
    constructor
    · by_cases hne : a = ""
      · rw [hne]
        exact Throughout.nil_iff.mpr hstart
      · rw [← start_above fs ha hne]
        exact habove a (Option.filter_eq_some_iff.mpr ⟨hparent, by simpa using hne⟩)
    · rintro ⟨data, mode, hfile⟩
      by_cases hname : name = "."
      · -- The path is `.` itself.
        obtain rfl := hdot hname
        obtain rfl := hj rfl
        have hgoal : reach (fs.start (partsOf path)) (partsOf path).names =
            fs.start (partsOf path) := by
          rw [hpathNames, hname]
          rfl
        rw [hgoal] at hfile
        exact hstart ⟨data, mode, hfile⟩
      · refine hlook data mode (exists_look hfs hpath (closed_of_trimmed htrimmed hroot) hshort
          hdots ?_ hfile)
        rw [hpathNames, List.getLast?_concat]
        simpa using hname

theorem isClear_of_checkAbove (hfs : fs.WellFormed) {depth : Nat}
    (h : checkAbove fs.look (ancestors depth path) = .ok ()) (hdepth : path.length < depth)
    (hpath : IsPath path) (hshort : Short (partsOf path).names)
    (hdots : ".." ∉ (partsOf path).names) (hparent : parent? path = some above) :
    fs.IsClear above := by
  induction depth generalizing path above with
  | zero => exact absurd hdepth (Nat.not_lt_zero _)
  | succ depth ih =>
    obtain ⟨habove, hne⟩ := Option.filter_eq_some_iff.mp hparent
    have hbelow := PathText.above_of_parent? habove
    have hne : above ≠ "" := by simpa using hne
    obtain ⟨j, name, k, hnames, -⟩ := hbelow.names
    have hmem : ∀ n ∈ (partsOf above).names, n ∈ (partsOf path).names := by
      intro n hn
      have hpathNames : (partsOf path).names = (partsOf above).names ++ List.replicate j "." ++
          name :: List.replicate k "." := hnames
      rw [hpathNames, List.append_assoc]
      exact List.mem_append_left _ hn
    have hpathAbove : IsPath above := isPath_above hpath hbelow hne
    have hshortAbove : Short (partsOf above).names := fun n hn => hshort n (hmem n hn)
    have hdotsAbove : ".." ∉ (partsOf above).names := fun hn => hdots (hmem _ hn)
    rw [ancestors, hparent] at h
    dsimp only at h
    rw [checkAbove] at h
    split at h
    next => cases h
    next mode hlook =>
      obtain ⟨-, hopen, -⟩ := look_eq_directory.mp ⟨mode, hlook⟩
      exact hopen.mono fun _ hd => hd.not_hasFile
    next e hlook =>
      refine isClear_of_trimmed hfs hpathAbove hbelow.trimmed hshortAbove hdotsAbove ?_ ?_
      · intro data mode hfile
        rw [hlook] at hfile
        cases hfile
      · intro higher hhigher
        have hshorter := hbelow.shorter
        exact ih h (by omega) hpathAbove hshortAbove hdotsAbove hhigher

end FileSlot

namespace FileSystem

theorem storable_of_look {fs : FileSystem} {path : String} {data : Bytes} {mode : Nat}
    (hfs : fs.WellFormed) (h : fs.look path = .ok (.file data mode)) : fs.Storable path := by
  obtain ⟨hpath, hwalk, hget, hclosed⟩ := look_eq_ok.mp h
  have hfree : ¬ fs.HasDirectory (fs.goal path) := fun hd => hd.not_hasFile ⟨data, mode, hget⟩
  rcases List.eq_nil_or_concat (partsOf path).names with hnil | ⟨front, name, hnames⟩
  · rw [goal, hnil] at hfree
    exact absurd (hfs.start _) hfree
  rw [List.concat_eq_append] at hnames
  rw [hnames, walk_append] at hwalk
  obtain ⟨l, hfront, hlast⟩ := except_bind_eq_ok.mp hwalk
  obtain ⟨goal, henter, hgoal⟩ := except_bind_eq_ok.mp hlast
  obtain rfl := Except.ok.inj hgoal
  obtain ⟨hl, hdescend, hname⟩ := enter_eq_ok.mp henter
  obtain ⟨hopen, hshort, -⟩ := walk_eq_ok_iff.mp ⟨hfront, hl⟩
  have hdot : name ≠ "." := by
    rintro rfl
    rw [hdescend] at hfree
    exact hfree hl
  have hdots : name ≠ ".." := by
    rintro rfl
    rw [hdescend] at hfree
    exact hfree (hfs.dropLast hl)
  exact storable_of_open (.refl (fun _ => False) fs) hpath (hclosed ⟨_, _, rfl⟩) hnames hdot hdots
    hshort (hname hdot hdots).1 hopen hfree

end FileSystem

namespace FileSlot

open FileSystem

variable {κ : Type} {fs : FileSystem} {s : FileSlot}

theorem storable_of_canWrite (hfs : fs.WellFormed) (h : s.canWrite fs = .ok ())
    (hnames : NamesFile s.path) (hdots : ".." ∉ (partsOf s.path).names) : fs.Storable s.path := by
  unfold canWrite canWriteWhere at h
  cases hlook : fs.look s.path with
  | ok n =>
    rw [hlook] at h
    cases n with
    | file data mode => exact storable_of_look hfs hlook
    | directory mode => cases h
  | error e =>
    rw [hlook] at h
    obtain ⟨front, name, hsplit, hdot, -, hgoal⟩ := hnames.exists_names fs
    have hmissing : fs.get? (fs.goal s.path) = none := by
      by_contra hsome
      obtain ⟨n, hn⟩ := Option.ne_none_iff_exists'.mp hsome
      have hlast : (partsOf s.path).names.getLast? ≠ some "." := by
        rw [hsplit, List.getLast?_concat]
        simpa using hdot
      rw [exists_look hfs hnames.isPath hnames.closed hnames.short hdots hlast hn] at hlook
      cases hlook
    have hclear : Throughout (¬ fs.HasFile ·) (fs.start (partsOf s.path)) front := by
      rcases parent?_cases hsplit hdot with ⟨-, rfl⟩ | ⟨above, j, hparent, hne, habove, rfl⟩
      · exact Throughout.nil_iff.mpr (hfs.start _).not_hasFile
      · rw [Throughout.append_dots_iff, ← start_above fs habove hne]
        exact isClear_of_checkAbove hfs h (Nat.lt_succ_self _) hnames.isPath hnames.short hdots hparent
    refine ⟨hnames, ?_, fun hd => hd.ne_none hmissing⟩
    intro k hk
    obtain ⟨part, hpart, rfl⟩ := (passes_concat hsplit).mp hk
    refine ⟨hclear part hpart, fun heq => ?_⟩
    -- Without `..` no part of the path is as long as the whole of it.
    have hle : (reach (fs.start (partsOf s.path)) part).length ≤
        (reach (fs.start (partsOf s.path)) front).length := by
      obtain ⟨rest, rfl⟩ := hpart
      rw [reach_append]
      refine (prefix_reach fun hrest => hdots ?_).length_le
      rw [hsplit]
      simp [hrest]
    rw [heq, hgoal, List.length_append, List.length_singleton] at hle
    omega

theorem canRead_eq_notFound_iff : s.canRead fs = .error .notFound ↔ s.read fs = .error .notFound := by
  unfold canRead read FileSystem.read
  rcases fs.look s.path with e | ⟨data, mode⟩ | mode
  · simp [bind, Except.bind, Except.mapError]
  · exact ⟨nofun, nofun⟩
  · exact ⟨nofun, nofun⟩

theorem canRead_eq_ok_iff :
    s.canRead fs = .ok () ↔ (∃ data, s.read fs = .ok data) ∨ fs.isDirectory s.path = true := by
  unfold canRead read FileSystem.read isDirectory
  rcases fs.look s.path with e | ⟨data, mode⟩ | mode
  · simp [bind, Except.bind, Except.mapError]
  · exact ⟨fun _ => .inl ⟨data, rfl⟩, fun _ => rfl⟩
  · exact ⟨fun _ => .inr rfl, fun _ => rfl⟩

theorem read_of_isDirectory (h : fs.isDirectory s.path = true) :
    s.read fs = .error (.io .isADirectory) := by
  unfold isDirectory at h
  unfold read FileSystem.read
  rcases hlook : fs.look s.path with e | ⟨data, mode⟩ | mode
  · simp [hlook] at h
  · simp [hlook] at h
  · rfl

structure Preflight (s : FileSlot) (w : World κ) : Prop where
  untouched : (w.perform (Slot.canRead s)).2.files = w.files ∧
    (w.perform (Slot.canWrite s)).2.files = w.files
  notFound : (w.perform (Slot.canRead s)).1 = .error .notFound ↔
    (w.perform (Slot.read s)).1 = .error .notFound
  -- A directory passes for something that can be read.
  readable : (w.perform (Slot.canRead s)).1 = .ok () ↔
    (∃ data, (w.perform (Slot.read s)).1 = .ok data) ∨ w.files.isDirectory s.path = true
  unreadable : w.files.isDirectory s.path = true →
    (w.perform (Slot.read s)).1 = .error (.io .isADirectory)
  stores : ∀ data, ((w.perform (Slot.canWrite s)).2.perform (Slot.write s data)).1 = .ok () ↔
    w.files.Storable s.path
  writable : (w.perform (Slot.canWrite s)).1 = .ok () → ".." ∉ (partsOf s.path).names →
    (w.files.Storable s.path ↔ NamesFile s.path)

theorem preflight (w : World κ) (hw : w.files.WellFormed) (s : FileSlot) : s.Preflight w := by
  have hcanRead : w.perform (Slot.canRead s) =
      (s.canRead w.files, { w.settle with files := w.files }) := perform_onFiles _ w
  have hcanWrite : w.perform (Slot.canWrite s) =
      (s.canWrite w.files, { w.settle with files := w.files }) := perform_onFiles _ w
  have hread : w.perform (Slot.read s) = (s.read w.files, { w.settle with files := w.files }) :=
    perform_onFiles _ w
  have hwrite (data : Bytes) (v : World κ) : (v.perform (Slot.write s data)).1 =
      (s.write data v.files).2 := congrArg Prod.fst (perform_onFiles _ v)
  refine ⟨?_, ?_, ?_, ?_, ?_, ?_⟩
  · rw [hcanRead, hcanWrite]
    exact ⟨rfl, rfl⟩
  · rw [hcanRead, hread]
    exact canRead_eq_notFound_iff
  · rw [hcanRead, hread]
    exact canRead_eq_ok_iff
  · rw [hread]
    exact read_of_isDirectory
  · intro data
    rw [hwrite, hcanWrite]
    exact ⟨storable_of_write, write_of_storable hw⟩
  · rw [hcanWrite]
    intro hok hdots
    exact ⟨Storable.toNamesFile, fun hnames => storable_of_canWrite hw hok hnames hdots⟩

def bareWorld : World Script where
  authority := .empty
  readings _ := 0

theorem wellFormed_bareWorld : bareWorld.files.WellFormed := by
  refine ⟨⟨_, rfl⟩, ⟨_, rfl⟩, fun l name h => absurd ?_ h⟩
  simp [bareWorld, get?]

def keySlot : FileSlot := ⟨"keys/k.pem", some 0o600⟩

def keptWorld : World Script :=
  { bareWorld with files := (keySlot.write [75] bareWorld.files).1 }

theorem preflight_keptWorld :
    let next : FileSlot := ⟨"keys/next/k.pem", some 0o600⟩
    keptWorld.files.WellFormed ∧
      (keptWorld.perform (Slot.canRead keySlot)).1 = .ok () ∧
      (∃ data, (keptWorld.perform (Slot.read keySlot)).1 = .ok data) ∧
      (keptWorld.perform (Slot.canRead next)).1 = .error .notFound ∧
      (keptWorld.perform (Slot.read next)).1 = .error .notFound ∧
      (keptWorld.perform (Slot.canWrite next)).1 = .ok () ∧
      ∀ data, ((keptWorld.perform (Slot.canWrite next)).2.perform (Slot.write next data)).1 =
        .ok () := by
  intro next
  have hw : keptWorld.files.WellFormed := wellFormed_write wellFormed_bareWorld _ _
  have hkey : keySlot.Preflight keptWorld := preflight keptWorld hw keySlot
  have hnext : next.Preflight keptWorld := preflight keptWorld hw next
  obtain ⟨⟨⟩, hcanRead⟩ := exists_of_isOk (x := (keptWorld.perform (Slot.canRead keySlot)).1)
    (by decide +kernel)
  obtain ⟨⟨⟩, hcanWrite⟩ := exists_of_isOk (x := (keptWorld.perform (Slot.canWrite next)).1)
    (by decide +kernel)
  have hlook : keptWorld.files.look next.path = .error .notFound := by decide +kernel
  have hmissing : (keptWorld.perform (Slot.canRead next)).1 = .error .notFound := by
    change next.canRead keptWorld.files = _
    rw [canRead, hlook]
    rfl
  have hfile : ¬ keptWorld.files.isDirectory keySlot.path = true := by decide +kernel
  have hnames : NamesFile next.path := by
    refine ⟨⟨by decide, by decide, by decide +kernel⟩, by decide +kernel, ?_,
      "k.pem", by decide +kernel, by decide, by decide⟩
    have hshort : ∀ name ∈ (partsOf next.path).names, byteLength name ≤ 255 := by decide +kernel
    exact hshort
  have hstorable := (hnext.writable hcanWrite (by decide +kernel)).mpr hnames
  exact ⟨hw, hcanRead, (hkey.readable.mp hcanRead).resolve_right hfile, hmissing,
    hnext.notFound.mp hmissing, hcanWrite, fun data => (hnext.stores data).mpr hstorable⟩

theorem exists_misjudged : ∃ s t : FileSlot,
    (bareWorld.perform (Slot.canWrite s)).1 = .ok () ∧
      (bareWorld.perform (Slot.write s [])).1 = .error (.io .notFound) ∧
      (bareWorld.perform (Slot.canRead t)).1 = .ok () ∧
      (bareWorld.perform (Slot.read t)).1 = .error (.io .isADirectory) := by
  refine ⟨⟨"", none⟩, ⟨"/", none⟩, ?_, ?_, ?_, ?_⟩ <;> with_unfolding_all rfl

end FileSlot

end CertLifecycle
