import CertLifecycle.Proofs.TextEncodings
import CertLifecycle.Storage.FileSlot

namespace CertLifecycle

namespace FileSystem

theorem splitNames_append (front rest : List Char) :
    splitNames (front ++ '/' :: rest) = splitNames front ++ splitNames rest := by
  have hsplit := List.splitOn_append_cons_self front rest (a := '/')
  simp only [splitNames, PathText.separator, hsplit, List.filter_append, List.map_append]

theorem splitNames_nil : splitNames [] = [] := rfl

theorem splitNames_concat_slash (front : List Char) :
    splitNames (front ++ ['/']) = splitNames front := by
  rw [splitNames_append, splitNames_nil, List.append_nil]

theorem splitNames_of_no_slash {cs : List Char} (h : '/' ∉ cs) (hne : cs ≠ []) :
    splitNames cs = [String.ofList cs] := by
  simp [splitNames, PathText.separator, List.splitOn_eq_singleton h, hne]

end FileSystem

namespace PathText

open FileSystem

def Trimmed (cs : List Char) : Prop :=
  cs = ['/'] ∨ (cs.getLast? ≠ some '/' ∧ ¬ ['/', '.'] <:+ cs)

structure Cut (cs trimmed : List Char) : Prop where
  front : trimmed <+: cs
  nonempty : cs ≠ [] → trimmed ≠ []
  names : ∃ k, splitNames cs = splitNames trimmed ++ List.replicate k "."
  trimmed : Trimmed trimmed

theorem cut_reverse (r : List Char) : Cut r.reverse (trimEndReversed r).reverse := by
  fun_induction trimEndReversed r with
  | case1 => exact ⟨List.prefix_rfl, id, ⟨0, rfl⟩, .inl rfl⟩
  | case2 cs hne ih =>
    have hcs : cs ≠ [] := fun h => hne (by rw [h])
    refine ⟨?_, fun _ => ih.nonempty (by simpa using hcs), ?_, ih.trimmed⟩
    · rw [List.reverse_cons]
      exact ih.front.trans (List.prefix_append _ _)
    · rw [List.reverse_cons, splitNames_concat_slash]
      exact ih.names
  | case3 => exact ⟨⟨['.'], rfl⟩, by simp, ⟨1, rfl⟩, .inl rfl⟩
  | case4 cs hne ih =>
    refine ⟨?_, fun _ => ih.nonempty (by simp), ?_, ih.trimmed⟩
    · rw [List.reverse_cons]
      exact ih.front.trans (List.prefix_append _ _)
    · obtain ⟨k, hk⟩ := ih.names
      rw [List.reverse_cons, splitNames_concat_slash] at hk
      refine ⟨k + 1, ?_⟩
      rw [List.reverse_cons, List.reverse_cons, List.append_assoc, List.singleton_append,
        splitNames_append, hk, List.replicate_succ', List.append_assoc]
      rfl
  | case5 cs h₁ h₂ h₃ h₄ =>
    refine ⟨List.prefix_rfl, id, ⟨0, by simp⟩, .inr ⟨?_, ?_⟩⟩
    · rw [List.getLast?_reverse]
      intro hhead
      obtain ⟨rest, rfl⟩ := List.head?_eq_some_iff.mp hhead
      exact h₂ rest rfl
    · rw [← List.reverse_prefix, List.reverse_reverse]
      rintro ⟨rest, rfl⟩
      exact h₄ rest rfl

theorem cut (cs : List Char) : Cut cs (trimEnd cs) := by
  have h := cut_reverse cs.reverse
  rwa [List.reverse_reverse] at h

theorem trimEndReversed_of_trimmed {r : List Char} (h : Trimmed r.reverse) :
    trimEndReversed r = r := by
  fun_cases trimEndReversed r with
  | case1 => rfl
  | case2 cs hne =>
    rw [List.reverse_cons] at h
    rcases h with h | ⟨h, -⟩
    · have hcs : cs = [] := by simpa using h
      exact absurd (by rw [hcs]) hne
    · exact absurd List.getLast?_concat h
  | case3 =>
    rcases h with h | ⟨-, h⟩
    · cases h
    · exact absurd List.suffix_rfl h
  | case4 cs hne =>
    simp only [List.reverse_cons, List.append_assoc, List.singleton_append] at h
    rcases h with h | ⟨-, h⟩
    · have hlength := congrArg List.length h
      simp at hlength
    · exact absurd (List.suffix_append _ _) h
  | case5 => rfl

theorem trimEnd_of_trimmed {cs : List Char} (h : Trimmed cs) : trimEnd cs = cs := by
  rw [← List.reverse_reverse cs] at h
  rw [trimEnd, trimEndReversed_of_trimmed h, List.reverse_reverse]

structure Above (above path : String) : Prop where
  trimmed : Trimmed above.toList
  front : above.toList <+: path.toList
  shorter : above.length < path.length
  names : ∃ j name k, splitNames path.toList =
    splitNames above.toList ++ List.replicate j "." ++ name :: List.replicate k "." ∧
      (above = "" → j = 0) ∧ (Trimmed path.toList → k = 0 ∧ (name = "." → above = ""))

theorem exists_last {cs : List Char} (h : Trimmed cs) (hne : cs ≠ []) (hroot : cs ≠ ['/']) :
    ∃ front name, cs = front ++ name ∧ (front = [] ∨ ∃ rest, front = rest ++ ['/']) ∧
      '/' ∉ name ∧ name ≠ [] := by
  obtain ⟨hslash, -⟩ := h.resolve_left hroot
  refine ⟨(cs.reverse.dropWhile (· ≠ '/')).reverse, (cs.reverse.takeWhile (· ≠ '/')).reverse,
    ?_, ?_, ?_, ?_⟩
  · rw [← List.reverse_append, List.takeWhile_append_dropWhile, List.reverse_reverse]
  · have hhead := List.head?_dropWhile_not (· ≠ '/') cs.reverse
    cases hdrop : cs.reverse.dropWhile (· ≠ '/') with
    | nil => exact .inl rfl
    | cons c r =>
      rw [hdrop] at hhead
      obtain rfl : c = '/' := by simpa using hhead
      exact .inr ⟨r.reverse, List.reverse_cons⟩
  · intro hmem
    have hall := List.all_takeWhile (p := (· ≠ '/')) (l := cs.reverse)
    simpa using List.all_eq_true.mp hall _ (List.mem_reverse.mp hmem)
  · rw [← List.head?_reverse] at hslash
    cases hr : cs.reverse with
    | nil => exact absurd (by simpa using hr) hne
    | cons c r =>
      rw [hr] at hslash
      have hc : c ≠ '/' := by simpa using hslash
      simp [hc]

theorem parent?_of_trimEnd {path : String} {front name : List Char}
    (h : trimEnd path.toList = front ++ name) (hfront : front = [] ∨ ∃ rest, front = rest ++ ['/'])
    (hname : '/' ∉ name) (hne : name ≠ []) : parent? path = some (String.ofList (trimEnd front)) := by
  have hslash : ∀ c ∈ name.reverse, decide (c ≠ separator) = true := by
    intro c hc
    rw [decide_eq_true_eq]
    rintro rfl
    exact hname (List.mem_reverse.mp hc)
  have hdrop : ((front ++ name).reverse.dropWhile (· ≠ separator)).reverse = front := by
    rw [List.reverse_append, List.dropWhile_append_of_pos hslash]
    obtain rfl | ⟨rest, rfl⟩ := hfront
    · rfl
    · rw [List.reverse_append]
      simp [separator]
  unfold parent?
  rw [h]
  split
  next hnil => simp [hne] at hnil
  next hroot =>
    rcases front with _ | ⟨c, front⟩
    · rw [List.nil_append] at hroot
      rw [hroot] at hname
      simp at hname
    · simp [hne] at hroot
  next => rw [hdrop]

theorem splitNames_front_append {front name : List Char}
    (hfront : front = [] ∨ ∃ rest, front = rest ++ ['/']) (hname : '/' ∉ name) (hne : name ≠ []) :
    splitNames (front ++ name) = splitNames front ++ [String.ofList name] := by
  rw [← splitNames_of_no_slash hname hne]
  obtain rfl | ⟨rest, rfl⟩ := hfront
  · rfl
  · rw [List.append_assoc, List.singleton_append, splitNames_append, splitNames_concat_slash]

theorem eq_nil_of_trimEnd {cs : List Char} (h : String.ofList (trimEnd cs) = "") : cs = [] := by
  by_contra hne
  refine (cut cs).nonempty hne ?_
  rw [← String.toList_ofList (l := trimEnd cs), h]
  rfl

theorem front_eq_nil_of_dot {front : List Char} (h : Trimmed (front ++ ['.']))
    (hfront : front = [] ∨ ∃ rest, front = rest ++ ['/']) : front = [] := by
  obtain rfl | ⟨rest, rfl⟩ := hfront
  · rfl
  · rcases h with hroot | ⟨-, hsuffix⟩
    · have hlength := congrArg List.length hroot
      simp at hlength
    · exact absurd ⟨rest, by simp⟩ hsuffix

theorem above_of_parent? {path above : String} (h : parent? path = some above) :
    Above above path := by
  have hcut := cut path.toList
  have hne : trimEnd path.toList ≠ [] := by
    intro hnil
    simp [parent?, hnil] at h
  have hroot : trimEnd path.toList ≠ ['/'] := by
    intro hroot
    simp [parent?, hroot] at h
  obtain ⟨front, name, htrim, hfront, hname, hnameNe⟩ := exists_last hcut.trimmed hne hroot
  rw [parent?_of_trimEnd htrim hfront hname hnameNe] at h
  obtain rfl := Option.some.inj h
  have hcutFront := cut front
  obtain ⟨j, hj⟩ := hcutFront.names
  obtain ⟨k, hk⟩ := hcut.names
  rw [htrim, splitNames_front_append hfront hname hnameNe, hj] at hk
  refine ⟨?_, ?_, ?_, j, String.ofList name, k, ?_, ?_, ?_⟩
  · rw [String.toList_ofList]
    exact hcutFront.trimmed
  · have hwhole := hcut.front
    rw [htrim] at hwhole
    rw [String.toList_ofList]
    exact hcutFront.front.trans ((List.prefix_append _ _).trans hwhole)
  · have hlength := congrArg List.length htrim
    have hle := hcut.front.length_le
    have hle' := hcutFront.front.length_le
    have hpos := List.length_pos_iff.mpr hnameNe
    rw [List.length_append] at hlength
    rw [← String.length_toList, ← String.length_toList, String.toList_ofList]
    omega
  · rw [String.toList_ofList, hk]
    simp
  · intro he
    obtain rfl := eq_nil_of_trimEnd he
    have hlength := congrArg List.length hj
    rw [splitNames_nil, List.length_append, List.length_replicate, List.length_nil] at hlength
    omega
  · intro htrimmed
    rw [trimEnd_of_trimmed htrimmed] at htrim
    constructor
    · rw [htrim, splitNames_front_append hfront hname hnameNe, hj] at hk
      simpa using hk
    · intro hdot
      obtain rfl : name = ['.'] := by
        rw [← String.toList_ofList (l := name), hdot]
        rfl
      rw [htrim] at htrimmed
      obtain rfl := front_eq_nil_of_dot htrimmed hfront
      rw [List.prefix_nil.mp hcutFront.front]

theorem replicate_of_parent?_eq_none {path : String} (h : parent? path = none) :
    ∃ k, splitNames path.toList = List.replicate k "." ∧
      (path = "" ∨ path.toList.head? = some '/') := by
  have hcut := cut path.toList
  obtain ⟨k, hk⟩ := hcut.names
  unfold parent? at h
  split at h
  next hnil =>
    refine ⟨k, ?_, .inl ?_⟩
    · rw [hk, hnil]
      rfl
    · by_contra hne
      refine hcut.nonempty ?_ hnil
      simpa using hne
  next hroot =>
    refine ⟨k, ?_, .inr ?_⟩
    · rw [hk, hroot]
      rfl
    · obtain ⟨rest, hrest⟩ := hcut.front
      rw [← hrest, hroot]
      rfl
  next => cases h

end PathText

namespace FileSystem

open PathText

variable {path above : String} {p : Parts}

structure IsPath (path : String) : Prop where
  noNul : '\x00' ∉ path.toList
  nonempty : path ≠ ""
  short : byteLength path < 4096

def partsOf (path : String) : Parts where
  absolute := path.toList.head? = some '/'
  names := splitNames path.toList
  trailing := path.toList.getLast? = some '/'

theorem parts_eq_ok : parts path = .ok p ↔ IsPath path ∧ p = partsOf path := by
  have hpath : IsPath path ↔ '\x00' ∉ path.toList ∧ path.toList ≠ [] ∧ byteLength path < 4096 := by
    rw [ne_eq, String.toList_eq_nil_iff]
    exact ⟨fun h => ⟨h.noNul, h.nonempty, h.short⟩, fun h => ⟨h.1, h.2.1, h.2.2⟩⟩
  rw [hpath]
  unfold parts partsOf
  dsimp only
  split_ifs with hnul hempty hlong
  · simp [hnul]
  · simp [hempty]
  · simp [Nat.not_lt.mpr hlong]
  · simp [hnul, hempty, Nat.lt_of_not_le hlong, eq_comm]

theorem parts_partsOf (h : IsPath path) : parts path = .ok (partsOf path) :=
  parts_eq_ok.mpr ⟨h, rfl⟩

theorem isPath_above (h : IsPath path) (ha : Above above path) (hne : above ≠ "") :
    IsPath above := by
  refine ⟨fun hnul => h.noNul (ha.front.mem hnul), hne, ?_⟩
  have hle := Utf8.length_encode_le ha.front.sublist
  rw [String.ofList_toList, String.ofList_toList] at hle
  exact Nat.lt_of_le_of_lt hle h.short

theorem start_above (fs : FileSystem) (ha : Above above path) (hne : above ≠ "") :
    fs.start (partsOf above) = fs.start (partsOf path) := by
  have hhead : above.toList.head? = path.toList.head? := by
    obtain ⟨rest, hrest⟩ := ha.front
    rw [← hrest]
    cases hcs : above.toList with
    | nil => exact absurd (by simpa using hcs) hne
    | cons c cs => rfl
  unfold start partsOf
  rw [hhead]

theorem names_of_parent?_eq_none (fs : FileSystem) (h : parent? path = none) (hpath : path ≠ "") :
    fs.start (partsOf path) = [] ∧ ∃ k, (partsOf path).names = List.replicate k "." := by
  obtain ⟨k, hk, he⟩ := replicate_of_parent?_eq_none h
  refine ⟨?_, k, hk⟩
  have hhead := he.resolve_left hpath
  simp [start, partsOf, hhead]

end FileSystem

end CertLifecycle
