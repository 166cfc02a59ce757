import CertLifecycle.Proofs.AcceptedRequests
import CertLifecycle.Proofs.PercentEscapes
import CertLifecycle.Proofs.UrlFolders

namespace CertLifecycle

open Http

namespace Http.Url

def isOuter (c : Char) : Bool := c ≤ ' '

def counts (c : Char) : Bool := c ≠ '\t' && c ≠ '\n' && c ≠ '\r'

def counted (cs : List Char) : List Char :=
  ((cs.reverse.dropWhile isOuter).reverse).filter counts

theorem cleaned_append {s : String} {front name : List Char} (h : s.toList = front ++ '/' :: name) :
    cleaned s = (front.dropWhile isOuter).filter counts ++ '/' :: counted name := by
  have hslash {m : List Char} : ∀ a ∈ ('/' :: m).head?, isOuter a = false := by
    rintro a ⟨⟩
    rfl
  have hstart : (front ++ '/' :: name).dropWhile isOuter = front.dropWhile isOuter ++ '/' :: name :=
    dropWhile_append_of_head hslash
  have hend (cs : List Char) : ((cs ++ '/' :: name).reverse.dropWhile isOuter).reverse =
      cs ++ '/' :: (name.reverse.dropWhile isOuter).reverse := by
    have hreverse : (cs ++ '/' :: name).reverse = name.reverse ++ '/' :: cs.reverse := by simp
    rw [hreverse, dropWhile_append_of_head hslash]
    simp
  change ((((s.toList.dropWhile isOuter).reverse.dropWhile isOuter).reverse).filter counts) = _
  rw [h, hstart, hend, List.filter_append, List.filter_cons_of_pos rfl]
  rfl

theorem counted_sublist (cs : List Char) : (counted cs).Sublist cs := by
  refine List.filter_sublist.trans ?_
  rw [← List.reverse_sublist, List.reverse_reverse]
  exact List.dropWhile_sublist isOuter

theorem counted_eq_self_iff {cs : List Char} :
    counted cs = cs ↔ (∀ c ∈ cs.getLast?, isOuter c = false) ∧ ∀ c ∈ cs, counts c = true := by
  have hend : cs.reverse.dropWhile isOuter = cs.reverse ↔ ∀ c ∈ cs.getLast?, isOuter c = false := by
    rw [← List.head?_reverse]
    cases cs.reverse with
    | nil => simp
    | cons c cs =>
      rw [List.dropWhile_cons]
      cases hc : isOuter c with
      | false => simp [hc]
      | true =>
        have hlt : (cs.dropWhile isOuter).length < (c :: cs).length := by
          have hle := (List.dropWhile_sublist isOuter (l := cs)).length_le
          rw [List.length_cons]
          omega
        simp only [if_true, List.head?_cons, Option.mem_some_iff, forall_eq', hc,
          Bool.true_eq_false, iff_false]
        intro heq
        rw [heq] at hlt
        exact Nat.lt_irrefl _ hlt
  rw [← hend]
  constructor
  · intro h
    have hle := (List.filter_sublist (p := counts)
      (l := (cs.reverse.dropWhile isOuter).reverse)).length_le
    have hdrop := List.dropWhile_sublist isOuter (l := cs.reverse)
    have hlength := congrArg List.length h
    unfold counted at hlength
    have hwhole : cs.reverse.dropWhile isOuter = cs.reverse := by
      refine hdrop.eq_of_length_le ?_
      rw [List.length_reverse] at hle ⊢
      omega
    refine ⟨hwhole, ?_⟩
    rw [counted, hwhole, List.reverse_reverse, List.filter_eq_self] at h
    exact h
  · rintro ⟨hwhole, hall⟩
    rw [counted, hwhole, List.reverse_reverse, List.filter_eq_self]
    exact hall

theorem mem_filter_dropWhile {cs : List Char} {c : Char} (hc : endsPath c = true) :
    c ∈ (cs.dropWhile isOuter).filter counts ↔ c ∈ cs := by
  have hkept : isOuter c = false ∧ counts c = true := by
    simp only [endsPath, Bool.or_eq_true, decide_eq_true_eq] at hc
    rcases hc with rfl | rfl <;> decide
  rw [List.mem_filter]
  constructor
  · rintro ⟨h, -⟩
    exact (List.dropWhile_suffix _).mem h
  · intro h
    exact ⟨mem_dropWhile_of_not h hkept.1, hkept.2⟩

end Http.Url

namespace VaultConfig

def secretText (c : VaultConfig) (name : String) : String := c.url (c.acmePath name)

def IsPlain (c : VaultConfig) : Prop :=
  ∀ ch ∈ (c.secretText "").toList, Url.endsPath ch = false

def isSlash (c : Char) : Bool := c = '/'

def root (c : VaultConfig) : List Char := (c.address.toList.reverse.dropWhile isSlash).reverse

def folder (c : VaultConfig) : List Char :=
  (trimSlashes c.kvMount ++ "/data/".toList ++ trimSlashes c.acmePrefix).dropWhile isSlash

theorem toList_secretText (c : VaultConfig) (name : String) :
    (c.secretText name).toList = c.root ++ "/v1/".toList ++ c.folder ++ '/' :: name.toList := by
  have hdrop (more : List Char) :
      (trimSlashes c.kvMount ++ "/data/".toList ++ more).dropWhile isSlash =
        (trimSlashes c.kvMount ++ ['/']).dropWhile isSlash ++ "data/".toList ++ more := by
    have hd : ∀ a ∈ ("data/".toList ++ more).head?, isSlash a = false := by
      rintro a ⟨⟩
      rfl
    have h := Url.dropWhile_append_of_head (l := trimSlashes c.kvMount ++ ['/']) hd
    simpa using h
  have hpath : (c.acmePath name).toList = trimSlashes c.kvMount ++ "/data/".toList ++
      (trimSlashes c.acmePrefix ++ '/' :: name.toList) := by
    simp [acmePath, String.toList_append]
  have hurl : (c.secretText name).toList =
      c.root ++ "/v1/".toList ++ (c.acmePath name).toList.dropWhile isSlash := by
    unfold secretText url
    simp only [String.toList_append, String.toList_ofList]
    rfl
  rw [hurl, hpath, hdrop, folder, hdrop]
  simp

theorem endsPath_versioned : ∀ c ∈ "/v1/".toList, Url.endsPath c = false := by
  intro c hc
  have hall : "/v1/".toList.all (!Url.endsPath ·) = true := by decide
  simpa using List.all_eq_true.mp hall c hc

theorem isPlain_iff {c : VaultConfig} :
    c.IsPlain ↔ ∀ ch ∈ c.root ++ c.folder, Url.endsPath ch = false := by
  unfold IsPlain
  rw [toList_secretText, List.forall_mem_append, List.forall_mem_append, List.forall_mem_append,
    List.forall_mem_append]
  constructor
  · rintro ⟨⟨⟨hroot, -⟩, hfolder⟩, -⟩
    exact ⟨hroot, hfolder⟩
  · rintro ⟨hroot, hfolder⟩
    refine ⟨⟨⟨hroot, endsPath_versioned⟩, hfolder⟩, ?_⟩
    intro c hc
    rw [List.mem_singleton.mp hc]
    rfl

theorem cleaned_secretText (c : VaultConfig) (name : String) :
    Url.cleaned (c.secretText name) =
      (c.root.dropWhile Url.isOuter).filter Url.counts ++ "/v1/".toList ++
        (c.folder.filter Url.counts ++ '/' :: Url.counted name.toList) := by
  have hslash {m : List Char} : ∀ a ∈ ('/' :: m).head?, Url.isOuter a = false := by
    rintro a ⟨⟩
    rfl
  have hfront : (c.root ++ "/v1/".toList ++ c.folder).dropWhile Url.isOuter =
      c.root.dropWhile Url.isOuter ++ '/' :: ('v' :: '1' :: '/' :: c.folder) := by
    rw [← Url.dropWhile_append_of_head hslash]
    simp
  rw [Url.cleaned_append (c.toList_secretText name), hfront]
  simp [List.filter_append, Url.counts]

theorem exists_secretUrl (c : VaultConfig) : ∃ v : Option (Url × List Char),
    (∀ x ∈ v, isHttp x.1 = true ∧ (c.IsPlain ↔ ∀ ch ∈ x.2, Url.endsPath ch = false)) ∧
    ∀ name : String, (Url.parse? (c.secretText name)).filter isHttp =
      v.map fun x => x.1.withPath [] (x.2 ++ '/' :: Url.counted name.toList) := by
  obtain ⟨v, hv, hbelow⟩ := Url.exists_below ((c.root.dropWhile Url.isOuter).filter Url.counts)
  refine ⟨v.map fun x => (x.1, x.2 ++ c.folder.filter Url.counts), ?_, ?_⟩
  · intro x hx
    obtain ⟨y, hy, rfl⟩ := Option.map_eq_some_iff.mp hx
    obtain ⟨hhttp, hsuffix, hkept⟩ := hv y hy
    refine ⟨hhttp, ?_⟩
    -- No mark gets lost on the way from the text to the path, and none comes up.
    have hcounted {ch : Char} (hch : Url.endsPath ch = true) : Url.counts ch = true := by
      simp only [Url.endsPath, Bool.or_eq_true, decide_eq_true_eq] at hch
      rcases hch with rfl | rfl <;> rfl
    rw [isPlain_iff, List.forall_mem_append, List.forall_mem_append]
    constructor
    · rintro ⟨hroot, hfolder⟩
      refine ⟨fun ch hch => ?_, fun ch hch => hfolder ch (List.mem_of_mem_filter hch)⟩
      rcases List.mem_append.mp (hsuffix.mem hch) with hin | hin
      · exact hroot ch ((List.dropWhile_suffix _).mem (List.mem_of_mem_filter hin))
      · exact endsPath_versioned ch hin
    · rintro ⟨hpath, hfolder⟩
      constructor
      · intro ch hch
        by_contra hends
        rw [Bool.not_eq_false] at hends
        have hin := hkept ch ((Url.mem_filter_dropWhile hends).mpr hch) hends
        rw [hpath ch hin] at hends
        cases hends
      · intro ch hch
        by_contra hends
        rw [Bool.not_eq_false] at hends
        rw [hfolder ch (List.mem_filter.mpr ⟨hch, hcounted hends⟩)] at hends
        cases hends
  · intro name
    have hparse : Url.parse? (c.secretText name) = Url.ofCleaned? (Url.cleaned (c.secretText name)) :=
      rfl
    rw [hparse, cleaned_secretText, hbelow]
    cases v with
    | none => rfl
    | some x => simp

def Files (c : VaultConfig) (name : String) (u : Url) : Prop :=
  ∃ folder before s, Url.parse? (c.secretText "") = some folder ∧
    folder.path = .rooted (before ++ [""]) ∧ u.path = .rooted (before ++ [s]) ∧ u.query = none ∧
    percentDecode s.toList = Utf8.encode name

end VaultConfig

/-- What a name has to be to stand in a path as it is. -/
structure IsSegment (name : String) : Prop where
  unbroken : ∀ c ∈ name.toList, c ∉ ['/', '\\', '?', '#', '\t', '\n', '\r']
  closed : ∀ c ∈ name.toList.getLast?, ' ' < c
  named : Url.segmentKind name.toList = .name
  unescaped : percentDecode name.toList = Utf8.encode name

theorem isSegment_iff {name : String} : IsSegment name ↔
    (∀ c ∈ name.toList, Url.SchemeKind.hosted.isSlash c = false ∧ Url.endsPath c = false) ∧
      Url.counted name.toList = name.toList ∧ Url.segmentKind name.toList = .name ∧
      percentDecode name.toList = Utf8.encode name := by
  have hmark (c : Char) : c ∉ ['/', '\\', '?', '#', '\t', '\n', '\r'] ↔
      (Url.SchemeKind.hosted.isSlash c = false ∧ Url.endsPath c = false) ∧ Url.counts c = true := by
    simp [Url.SchemeKind.isSlash, Url.endsPath, Url.counts, and_assoc]
  have hlast (c : Char) : ' ' < c ↔ Url.isOuter c = false := by
    simp [Url.isOuter]
  rw [Url.counted_eq_self_iff]
  simp only [← hlast]
  constructor
  · rintro ⟨hunbroken, hclosed, hnamed, hunescaped⟩
    simp only [hmark] at hunbroken
    exact ⟨fun c hc => (hunbroken c hc).1, ⟨hclosed, fun c hc => (hunbroken c hc).2⟩, hnamed,
      hunescaped⟩
  · rintro ⟨hunbroken, ⟨hclosed, hcounts⟩, hnamed, hunescaped⟩
    refine ⟨fun c hc => ?_, hclosed, hnamed, hunescaped⟩
    rw [hmark]
    exact ⟨hunbroken c hc, hcounts c hc⟩

namespace Http.Url

theorem isSegment_of_path {u : Url} {before front : List String} {s name : String}
    (hu : schemeKind u.scheme = .hosted) (hname : name ≠ "")
    (hpath : (u.withPath before (counted name.toList)).path = .rooted (front ++ [s]))
    (hs : percentDecode s.toList = Utf8.encode name) : IsSegment name := by
  let part := (counted name.toList).takeWhile (!endsPath ·)
  obtain ⟨ss, z, hsplit, hz, -⟩ := exists_splitAtSlashes (k := .hosted) part
  have hwritten : s = written z := by
    obtain ⟨front', hsegments⟩ := exists_segments_last before ss z
    have hrooted : UrlPath.rooted (segments .hosted before (splitAtSlashes .hosted part)) =
        .rooted (front ++ [s]) := by
      rw [← hpath, withPath, hu]
    rw [hsplit, hsegments] at hrooted
    have hlists : front' ++ [written z] = front ++ [s] := UrlPath.rooted.inj hrooted
    simpa using (congrArg List.getLast? hlists).symm
  have hkind : segmentKind z = .name := by
    by_contra hkind
    rw [hwritten, written, if_neg hkind] at hs
    exact hname (Utf8.encode_injective (hs.symm.trans rfl))
  have hread : percentDecode z = Utf8.encode name := by
    rw [← hs, hwritten, written, if_pos hkind, String.toList_ofList, percentDecode_percentEncode]
  have hpart : part.Sublist (counted name.toList) := List.takeWhile_sublist _
  have hcounted := counted_sublist name.toList
  have hwhole : z = name.toList := by
    refine Utf8.eq_of_length_encode_le (hz.sublist.trans (hpart.trans hcounted)) ?_
    rw [String.ofList_toList, ← hread]
    exact length_percentDecode_le z
  -- The segment is the whole name, so nothing of the name got lost on the way to it.
  have hall : counted name.toList = name.toList := by
    refine hcounted.eq_of_length_le ?_
    have hle := (hz.sublist.trans hpart).length_le
    rwa [hwhole] at hle
  have hplain : part = name.toList := by
    refine (hpart.trans hcounted).eq_of_length_le ?_
    have hle := hz.sublist.length_le
    rwa [hwhole] at hle
  rw [isSegment_iff]
  refine ⟨fun c hc => ⟨?_, ?_⟩, hall, hwhole ▸ hkind, hwhole ▸ hread⟩
  · apply not_isSlash_of_mem_splitAtSlashes part z
    · rw [hsplit]
      exact List.mem_append_right _ (List.mem_singleton_self z)
    · rwa [hwhole]
  · rw [← hplain] at hc
    simpa using List.mem_takeWhile_imp hc

theorem toList_pathText (ss : List String) :
    (pathText (.rooted ss)).toList = ss.flatMap fun s => '/' :: s.toList := by
  simp only [pathText, String.toList_join, List.flatMap_map, String.toList_append]
  rfl

theorem withPath_of_isSegment {u : Url} (before : List String) {name : String}
    (hu : schemeKind u.scheme = .hosted) (h : IsSegment name) :
    (u.withPath before (counted name.toList)).path =
        .rooted (before ++ [String.ofList (percentEncode inPath name.toList)]) ∧
      (u.withPath before (counted name.toList)).query = none := by
  obtain ⟨hmarks, hcounted, hnamed, -⟩ := isSegment_iff.mp h
  have hplain : ∀ c ∈ name.toList, (!endsPath c) = true := fun c hc => by rw [(hmarks c hc).2]; rfl
  have htake : name.toList.takeWhile (!endsPath ·) = name.toList :=
    List.takeWhile_eq_self_iff.mpr hplain
  have hdrop : name.toList.dropWhile (!endsPath ·) = [] := List.dropWhile_eq_nil_iff.mpr hplain
  have hsplit : splitAtSlashes .hosted name.toList = [name.toList] :=
    splitAtSlashes_of_no_slash fun c hc => (hmarks c hc).1
  unfold withPath
  dsimp only
  rw [hcounted, htake, hdrop, hu, hsplit, segments_singleton, hnamed, if_neg (by decide), written,
    if_pos hnamed]
  exact ⟨rfl, rfl⟩

end Http.Url

namespace VaultConfig

variable {c : VaultConfig} {name : String} {u : Url}

theorem files_iff (hname : name ≠ "") (h : Url.parse? (c.secretText name) = some u)
    (hhttp : isHttp u = true) : c.Files name u ↔ c.IsPlain ∧ IsSegment name := by
  obtain ⟨v, hv, hsecret⟩ := c.exists_secretUrl
  have hu := hsecret name
  rw [h, Option.filter_some_pos hhttp] at hu
  obtain ⟨⟨base, path⟩, hbase, hu⟩ := Option.map_eq_some_iff.mp hu.symm
  obtain ⟨hbhttp, hplain⟩ := hv _ hbase
  have hk : Url.schemeKind base.scheme = .hosted := Url.schemeKind_of_isHttp hbhttp
  have hfolder : Url.parse? (c.secretText "") = some (base.withPath [] (path ++ ['/'])) := by
    have hempty := hsecret ""
    rw [hbase] at hempty
    exact (Option.filter_eq_some_iff.mp hempty).1
  dsimp only at hu hplain
  by_cases hends : ∀ ch ∈ path, Url.endsPath ch = false
  · obtain ⟨before, hbefore⟩ := Url.exists_withPath base hends
    have hfolderPath : (base.withPath [] (path ++ ['/'])).path = .rooted (before ++ [""]) := by
      rw [hbefore [], Url.withPath, hk]
      simp [Url.splitAtSlashes, Url.segments_singleton, Url.written, Url.segmentKind, Url.pointsOf,
        percentEncode]
    rw [hbefore] at hu
    subst hu
    constructor
    · rintro ⟨folder, front, s, -, -, hs, -, hread⟩
      exact ⟨hplain.mpr hends, Url.isSegment_of_path hk hname hs hread⟩
    · rintro ⟨-, hsegment⟩
      obtain ⟨hpath, hquery⟩ := Url.withPath_of_isSegment before hk hsegment
      refine ⟨_, before, _, hfolder, hfolderPath, hpath, hquery, ?_⟩
      rw [String.toList_ofList, percentDecode_percentEncode]
      exact hsegment.unescaped
  · constructor
    · -- The name is not in the path, so the last segment is that of the folder.
      rintro ⟨folder, front, s, hf, hfront, hs, -, hread⟩
      rw [hfolder] at hf
      obtain rfl := Option.some.inj hf
      have hends' : ∃ ch ∈ path, Url.endsPath ch = true := by simpa using hends
      have hsame (more : List Char) :=
        Url.path_withPath_of_ended base [] hends' more
      rw [hsame] at hfront
      rw [← hu, hsame, hfront] at hs
      have hlists := UrlPath.rooted.inj hs
      obtain rfl : s = "" := by simpa using (congrArg List.getLast? hlists).symm
      exact absurd (Utf8.encode_injective (hread.symm.trans rfl)) hname
    · rintro ⟨hp, -⟩
      exact absurd (hplain.mp hp) hends

theorem eq_of_files {other : String} {v : Url} (h : c.Files name u) (g : c.Files other v)
    (htarget : u.target = v.target) : name = other := by
  obtain ⟨folder, before, s, hfolder, hbefore, hs, hquery, hread⟩ := h
  obtain ⟨folder', before', t, hfolder', hbefore', ht, hquery', hread'⟩ := g
  obtain rfl : folder = folder' := Option.some.inj (hfolder.symm.trans hfolder')
  have hfront : before = before' := by
    have hlists := UrlPath.rooted.inj (hbefore.symm.trans hbefore')
    exact List.append_cancel_right hlists
  subst hfront
  have hst : s = t := by
    rw [Url.target, Url.target, hs, ht, hquery, hquery'] at htarget
    have hlists := congrArg String.toList htarget
    simp only [Url.toList_pathText, String.toList_append, List.flatMap_append, List.flatMap_singleton,
      Option.map_none, Option.getD_none, String.toList_empty, List.append_nil,
      List.append_cancel_left_eq, List.cons.injEq, true_and] at hlists
    exact String.toList_inj.mp hlists
  subst hst
  exact Utf8.encode_injective (hread.symm.trans hread')

end VaultConfig

namespace VaultClient

def readFrom? (c : VaultClient) (name : String) (p : Peer) : Option Url :=
  ((c.served (.readAcme name) p).received[p.received.length]?).map (·.url)

variable {c : VaultClient} {name : String} {p : Peer} {u : Url}

theorem readFrom?_eq : c.readFrom? name p = (c.opening? (.readAcme name)).map (·.url) := by
  unfold readFrom?
  cases hopening : c.opening? (.readAcme name) with
  | none =>
    have hserved : c.served (.readAcme name) p = p :=
      congrArg Prod.snd (run_ask_of_no_opening rfl hopening p)
    rw [hserved, List.getElem?_eq_none (Nat.le_refl _)]
  | some first =>
    have hserved : c.served (.readAcme name) p =
        ((follow maxRedirects first : StateM Peer _).run p).2 :=
      congrArg Prod.snd (run_ask_of_opening hopening p)
    have hreceived := (exchanged_follow maxRedirects first p).received
    rw [← hserved] at hreceived
    have hfirst : (p.after first).received[p.received.length]? = some first :=
      List.getElem?_concat_length
    rw [List.prefix_iff_getElem?.mp hreceived _ (List.getElem?_eq_some_iff.mp hfirst).1,
      ← List.getElem?_eq_getElem, hfirst]

theorem parse?_of_readFrom? (h : c.readFrom? name p = some u) :
    Url.parse? (c.config.secretText name) = some u ∧ isHttp u = true := by
  rw [readFrom?_eq] at h
  obtain ⟨first, hfirst, rfl⟩ := Option.map_eq_some_iff.mp h
  simp only [opening?, endpoint?, bind, Option.bind_some, Option.bind_eq_some_iff] at hfirst
  obtain ⟨url, hurl, hrequest⟩ := hfirst
  split at hrequest
  next =>
    cases hrequest
    obtain ⟨hparse, hhttp⟩ := Option.filter_eq_some_iff.mp hurl
    exact ⟨hparse, ((Bool.and_eq_true _ _).mp hhttp).1⟩
  next => cases hrequest

theorem filed_apart (hname : name ≠ "") (h : c.readFrom? name p = some u) :
    (c.config.Files name u ↔ c.config.IsPlain ∧ IsSegment name) ∧
      ∀ other q v, other ≠ "" → c.readFrom? other q = some v → c.config.IsPlain → IsSegment name →
        IsSegment other → u.target = v.target → name = other := by
  obtain ⟨hparse, hhttp⟩ := parse?_of_readFrom? h
  have hiff := VaultConfig.files_iff hname hparse hhttp
  refine ⟨hiff, ?_⟩
  intro other q v hother hv hplain hsegment hsegment' htarget
  obtain ⟨hparse', hhttp'⟩ := parse?_of_readFrom? hv
  have hfiles : c.config.Files name u := hiff.mpr ⟨hplain, hsegment⟩
  have hfiles' : c.config.Files other v :=
    (VaultConfig.files_iff hother hparse' hhttp').mpr ⟨hplain, hsegment'⟩
  exact VaultConfig.eq_of_files hfiles hfiles' htarget

def silent : Peer := { answer := fun _ => none }

theorem filed_apart_nearby : ∃ u, nearbyClient.readFrom? "a.example.com" silent = some u ∧
    nearbyClient.config.Files "a.example.com" u := by
  have hsome : (nearbyClient.readFrom? "a.example.com" silent).isSome = true := by
    rw [readFrom?_eq]
    decide +kernel
  obtain ⟨u, hu⟩ := Option.isSome_iff_exists.mp hsome
  have hplain : nearbyClient.config.IsPlain := by
    have hall : (nearbyClient.config.secretText "").toList.all (!Url.endsPath ·) = true := by
      decide +kernel
    intro c hc
    simpa using List.all_eq_true.mp hall c hc
  have hsegment : IsSegment "a.example.com" := by
    have hall : "a.example.com".toList.all
        (· ∉ ['/', '\\', '?', '#', '\t', '\n', '\r']) = true := by decide +kernel
    have hlast : "a.example.com".toList.getLast?.all (' ' < ·) = true := by decide +kernel
    refine ⟨fun c hc => ?_, fun c hc => ?_, by decide +kernel, by decide +kernel⟩
    · simpa using List.all_eq_true.mp hall c hc
    · rw [hc] at hlast
      simpa using hlast
  exact ⟨u, hu, (filed_apart (by decide) hu).1.mpr ⟨hplain, hsegment⟩⟩

theorem exists_shared_secret : ∃ u v, nearbyClient.readFrom? "a" silent = some u ∧
    nearbyClient.readFrom? "a#b" silent = some v ∧ u.target = v.target := by
  have hshared : ((nearbyClient.opening? (.readAcme "a")).any fun first =>
      (nearbyClient.opening? (.readAcme "a#b")).any fun second =>
        decide (first.url.target = second.url.target)) = true := by decide +kernel
  obtain ⟨first, hfirst, h⟩ := (Option.any_eq_true _ _).mp hshared
  obtain ⟨second, hsecond, h⟩ := (Option.any_eq_true _ _).mp h
  refine ⟨first.url, second.url, ?_, ?_, of_decide_eq_true h⟩
  · rw [readFrom?_eq, hfirst, Option.map_some]
  · rw [readFrom?_eq, hsecond, Option.map_some]

end VaultClient

end CertLifecycle
