import CertLifecycle.Http.Exchange
import Mathlib.Data.List.TakeWhile

namespace CertLifecycle.Http.Url

theorem dropWhile_append_of_head {α : Type} {p : α → Bool} {l m : List α}
    (h : ∀ a ∈ m.head?, p a = false) : (l ++ m).dropWhile p = l.dropWhile p ++ m := by
  induction l with
  | nil =>
    cases m with
    | nil => rfl
    | cons a m => simpa using h
  | cons a l ih =>
    by_cases ha : p a = true
    · simp [ha, ih]
    · simp [ha]

theorem takeWhile_append_of_head {α : Type} {p : α → Bool} {l m : List α}
    (h : ∀ a ∈ m.head?, p a = false) : (l ++ m).takeWhile p = l.takeWhile p := by
  induction l with
  | nil =>
    cases m with
    | nil => rfl
    | cons a m => simpa using h
  | cons a l ih =>
    by_cases ha : p a = true
    · simp [ha, ih]
    · simp [ha]

section Authority

abbrev Ends (c : Char) : Prop := SchemeKind.hosted.endsAuthority c = true

abbrev Within (cs : List Char) : Prop := ∀ c ∈ cs, ¬ Ends c

theorem ends_iff {c : Char} : Ends c ↔ c = '/' ∨ c = '\\' ∨ c = '?' ∨ c = '#' := by
  simp [Ends, SchemeKind.endsAuthority, SchemeKind.isSlash, or_assoc]

variable {cs : List Char}

theorem takeWhile_within (h : Within cs) {c : Char} (hc : Ends c) (more : List Char) :
    (cs ++ c :: more).takeWhile (!SchemeKind.hosted.endsAuthority ·) = cs := by
  rw [takeWhile_append_of_head (by simpa using hc), List.takeWhile_eq_self_iff]
  intro a ha
  simpa using h a ha

theorem length_takeWhile_at_lt (h : '@' ∈ cs) :
    (cs.reverse.takeWhile (· ≠ '@')).length < cs.length := by
  have hpre := List.takeWhile_prefix (fun c => decide (c ≠ '@')) (l := cs.reverse)
  have hle := hpre.length_le
  rw [List.length_reverse] at hle
  refine Nat.lt_of_le_of_ne hle fun heq => ?_
  have hall := hpre.eq_of_length (by rw [heq, List.length_reverse])
  have hat := List.takeWhile_eq_self_iff.mp hall '@' (List.mem_reverse.mpr h)
  simp at hat

theorem userinfo?_within (h : Within cs) : ∃ v : Option (String × String × List Char),
    (∀ x ∈ v, Within x.2.2) ∧ ∀ c more, Ends c →
      userinfo? .hosted (cs ++ c :: more) = v.map fun x => (x.1, x.2.1, x.2.2 ++ c :: more) := by
  by_cases hat : '@' ∈ cs
  · have hn := length_takeWhile_at_lt hat
    generalize hlength : (cs.reverse.takeWhile (· ≠ '@')).length = n at hn
    generalize hinfo : cs.take (cs.length - n - 1) = info
    have hle : info.length + 1 ≤ cs.length := by
      rw [← hinfo, List.length_take]
      omega
    have hrest : Within (cs.drop (info.length + 1)) := fun a ha => h a (List.mem_of_mem_drop ha)
    refine ⟨if info.isEmpty ∧ (cs.drop (info.length + 1)).isEmpty then none else
      some (String.ofList (percentEncode inUserinfo (info.takeWhile (· ≠ ':'))),
        String.ofList (percentEncode inUserinfo (info.dropWhile (· ≠ ':')).tail),
        cs.drop (info.length + 1)), ?_, ?_⟩
    · intro x hx
      split at hx
      · cases hx
      · cases hx
        exact hrest
    · intro c more hc
      have hhead : (((cs.drop (info.length + 1) ++ c :: more).head?.map
          SchemeKind.hosted.endsAuthority).getD false = true) ↔
          (cs.drop (info.length + 1)).isEmpty = true := by
        cases hcs : cs.drop (info.length + 1) with
        | nil => simpa using hc
        | cons a as =>
          rw [hcs] at hrest
          simpa using hrest a (by simp)
      unfold userinfo?
      rw [takeWhile_within h hc]
      dsimp only
      rw [if_pos hat, hlength, hinfo, List.drop_append_of_le_length hle]
      simp only [hhead]
      split <;> rfl
  · refine ⟨some ("", "", cs), ?_, ?_⟩
    · intro x hx
      cases hx
      exact h
    · intro c more hc
      unfold userinfo?
      rw [takeWhile_within h hc]
      dsimp only
      rw [if_neg hat]
      rfl

theorem hostLength_within (h : Within cs) {c : Char} (hc : Ends c) (more : List Char)
    (inBrackets : Bool) :
    hostLength .hosted inBrackets (cs ++ c :: more) = hostLength .hosted inBrackets cs := by
  induction cs generalizing inBrackets with
  | nil =>
    have hc' : SchemeKind.hosted.endsAuthority c = true := hc
    simp [hostLength, hc']
  | cons a cs ih =>
    rw [List.cons_append, hostLength, hostLength]
    split
    · rfl
    · rw [ih fun b hb => h b (List.mem_cons_of_mem _ hb)]

theorem hostLength_le (inBrackets : Bool) (cs : List Char) :
    hostLength .hosted inBrackets cs ≤ cs.length := by
  induction cs generalizing inBrackets with
  | nil => simp [hostLength]
  | cons a cs ih =>
    rw [hostLength]
    split
    · omega
    · have := ih (decide (a = '[') || (decide (a ≠ ']') && inBrackets))
      rw [List.length_cons]
      omega

theorem head?_drop_hostLength (h : Within cs) (inBrackets : Bool) :
    ∀ a ∈ (cs.drop (hostLength .hosted inBrackets cs)).head?, a = ':' := by
  induction cs generalizing inBrackets with
  | nil => simp
  | cons b cs ih =>
    rw [hostLength]
    split
    next hb =>
      have hends : SchemeKind.hosted.endsAuthority b = false := by simpa using h b (by simp)
      simp only [hends, Bool.false_or, Bool.and_eq_true, decide_eq_true_eq] at hb
      simpa using hb.1
    next => exact ih (fun a ha => h a (List.mem_cons_of_mem _ ha)) _

theorem portNumber?_within (h : Within cs) : ∃ v : Option (Option Nat), ∀ c more, Ends c →
    portNumber? (cs ++ c :: more) = v.map (·, c :: more) := by
  refine ⟨if 65535 < (cs.takeWhile Char.isDigit).foldl (fun n d => 10 * n + (d.toNat - 48)) 0 ∨
      cs.dropWhile Char.isDigit ≠ [] then none
    else some (if (cs.takeWhile Char.isDigit).isEmpty then none
      else some ((cs.takeWhile Char.isDigit).foldl (fun n d => 10 * n + (d.toNat - 48)) 0)), ?_⟩
  intro c more hc
  have hdigit : Char.isDigit c = false := by
    rcases ends_iff.mp hc with rfl | rfl | rfl | rfl <;> rfl
  have hhead : (!((cs.dropWhile Char.isDigit ++ c :: more).head?.all ("/\\?#".toList.contains ·))) =
      true ↔ cs.dropWhile Char.isDigit ≠ [] := by
    cases hcs : cs.dropWhile Char.isDigit with
    | nil =>
      rcases ends_iff.mp hc with rfl | rfl | rfl | rfl <;> simp
    | cons a as =>
      have ha : ¬ Ends a := h a ((List.dropWhile_suffix _).mem (by rw [hcs]; simp))
      rw [ends_iff] at ha
      simpa using ha
  unfold portNumber?
  rw [takeWhile_append_of_head (by simpa using hdigit),
    dropWhile_append_of_head (by simpa using hdigit)]
  simp only [hhead]
  split
  · rfl
  next hrest =>
    rw [not_or, not_not] at hrest
    rw [hrest.2]
    rfl

def portBehind? : List Char → Option (Option Nat × List Char)
  | ':' :: rest => portNumber? rest
  | rest => some (none, rest)

theorem portBehind?_of_ne {c : Char} (h : c ≠ ':') (more : List Char) :
    portBehind? (c :: more) = some (none, c :: more) := by
  unfold portBehind?
  split
  next heq => exact absurd (List.cons.inj heq).1 h
  next => rfl

theorem authority?_eq {scheme : String} (hk : schemeKind scheme = .hosted) (cs : List Char) :
    authority? scheme cs = (userinfo? .hosted cs).bind fun x =>
      (Host.ofText? (x.2.2.take (hostLength .hosted false x.2.2))).bind fun host =>
        if hostLength .hosted false x.2.2 = 0 ∧
            ((x.2.2.drop (hostLength .hosted false x.2.2)).head? = some ':' ∨ x.1 ≠ "" ∨ x.2.1 ≠ "")
          then none
        else (portBehind? (x.2.2.drop (hostLength .hosted false x.2.2))).map fun y =>
          (⟨x.1, x.2.1, host, y.1.filter (some · ≠ defaultPortNumber? scheme)⟩, y.2) := by
  unfold authority?
  rw [hk]
  dsimp only
  cases userinfo? .hosted cs with
  | none => rfl
  | some x =>
    obtain ⟨username, password, rest⟩ := x
    dsimp only [bind, Option.bind]
    rw [if_neg (by decide)]
    cases Host.ofText? (rest.take (hostLength .hosted false rest)) with
    | none => rfl
    | some host =>
      dsimp only
      split
      · rfl
      · generalize rest.drop (hostLength .hosted false rest) = behind
        cases behind with
        | nil => rfl
        | cons a more =>
          by_cases ha : a = ':'
          · subst ha
            cases hport : portNumber? more <;> simp only [portBehind?, hport] <;> rfl
          · rw [portBehind?_of_ne ha]
            split
            next heq => exact absurd (List.cons.inj heq).1 ha
            next => rfl

theorem ne_colon_of_ends {c : Char} (h : Ends c) : c ≠ ':' := by
  rintro rfl
  simp [ends_iff] at h

theorem portBehind?_within (h : Within cs) (hcolon : ∀ a ∈ cs.head?, a = ':') :
    ∃ v : Option (Option Nat), ∀ c more, Ends c →
      portBehind? (cs ++ c :: more) = v.map (·, c :: more) := by
  cases cs with
  | nil => exact ⟨some none, fun c more hc => portBehind?_of_ne (ne_colon_of_ends hc) more⟩
  | cons a as =>
    obtain rfl : a = ':' := hcolon a rfl
    exact portNumber?_within fun b hb => h b (List.mem_cons_of_mem _ hb)

theorem authority?_within {scheme : String} (hk : schemeKind scheme = .hosted) (h : Within cs) :
    ∃ v : Option Authority, ∀ c more, Ends c →
      authority? scheme (cs ++ c :: more) = v.map (·, c :: more) := by
  obtain ⟨v, hv, huser⟩ := userinfo?_within h
  cases v with
  | none =>
    refine ⟨none, fun c more hc => ?_⟩
    rw [authority?_eq hk, huser c more hc]
    rfl
  | some x =>
    obtain ⟨username, password, rest⟩ := x
    have hrest : Within rest := hv _ rfl
    have hcolon := head?_drop_hostLength hrest false
    have hn := hostLength_le false rest
    generalize hlength : hostLength .hosted false rest = n at hcolon hn
    obtain ⟨w, hw⟩ := portBehind?_within (fun a ha => hrest a (List.mem_of_mem_drop ha)) hcolon
    refine ⟨(Host.ofText? (rest.take n)).bind fun host =>
      if n = 0 ∧ ((rest.drop n).head? = some ':' ∨ username ≠ "" ∨ password ≠ "") then none
      else w.map fun p => ⟨username, password, host, p.filter (some · ≠ defaultPortNumber? scheme)⟩,
      fun c more hc => ?_⟩
    have hhead : (rest.drop n ++ c :: more).head? = some ':' ↔
        (rest.drop n).head? = some ':' := by
      cases rest.drop n with
      | nil => simpa using ne_colon_of_ends hc
      | cons a as => rfl
    rw [authority?_eq hk, huser c more hc]
    simp only [Option.map_some, Option.bind_some, hostLength_within hrest hc, hlength,
      List.take_append_of_le_length hn, List.drop_append_of_le_length hn, hhead, hw c more hc]
    cases Host.ofText? (rest.take n) with
    | none => rfl
    | some host =>
      simp only [Option.bind_some]
      split
      · rfl
      · cases w <;> rfl

theorem ofAuthority?_within {scheme : String} (hk : schemeKind scheme = .hosted) (h : Within cs) :
    ∃ v : Option Url, (∀ u ∈ v, u.scheme = scheme) ∧ ∀ c more, Ends c →
      ofAuthority? scheme (cs ++ c :: more) = v.map (·.withPathStart (c :: more)) := by
  obtain ⟨v, hv⟩ := authority?_within hk h
  refine ⟨v.map fun a => { scheme, username := a.username, password := a.password
                           host := some a.host, portNumber := a.portNumber
                           path := .rooted [] }, ?_, ?_⟩
  · intro u hu
    obtain ⟨a, -, rfl⟩ := Option.map_eq_some_iff.mp hu
    rfl
  · intro c more hc
    rw [ofAuthority?, hv c more hc]
    cases v <;> rfl

theorem exists_first_end (h : ∃ c ∈ cs, Ends c) :
    ∃ before c after, cs = before ++ c :: after ∧ Within before ∧ Ends c := by
  induction cs with
  | nil =>
    obtain ⟨c, hc, -⟩ := h
    cases hc
  | cons a cs ih =>
    by_cases ha : Ends a
    · exact ⟨[], a, cs, rfl, List.forall_mem_nil _, ha⟩
    · obtain ⟨c, hc, hends⟩ := h
      have hmem : c ∈ cs := by
        rcases List.mem_cons.mp hc with rfl | hc
        · exact absurd hends ha
        · exact hc
      obtain ⟨before, c, after, rfl, hbefore, hc⟩ := ih ⟨c, hmem, hends⟩
      exact ⟨a :: before, c, after, rfl, List.forall_mem_cons.mpr ⟨ha, hbefore⟩, hc⟩

end Authority

section Scheme

theorem scheme?_append (cs more : List Char) :
    scheme? (cs ++ '/' :: more) = (scheme? cs).map fun x => (x.1, x.2 ++ '/' :: more) := by
  have hslash : ∀ a ∈ ('/' :: more).head?, isSchemeChar a = false := by
    rintro a ⟨⟩
    rfl
  unfold scheme?
  rw [dropWhile_append_of_head hslash, takeWhile_append_of_head hslash]
  cases hcs : cs.dropWhile isSchemeChar with
  | nil => rfl
  | cons a rest =>
    cases cs with
    | nil => cases hcs
    | cons b cs =>
      by_cases ha : a = ':'
      · subst ha
        simp only [List.cons_append, List.head?_cons, Option.map_some, Option.getD_some]
        by_cases hb : Char.isAlpha b = true <;> simp [hb]
      · simp only [List.cons_append]
        split
        next heq => exact absurd (List.cons.inj heq).1 ha
        next =>
          split
          next heq => exact absurd (List.cons.inj heq).1 ha
          next => rfl

theorem scheme?_eq_some {cs rest : List Char} {scheme : String}
    (h : scheme? cs = some (scheme, rest)) :
    ∃ name, cs = name ++ ':' :: rest ∧ ∀ c ∈ name, isSchemeChar c = true := by
  unfold scheme? at h
  split at h
  next more hcs =>
    split at h
    · cases h
      refine ⟨cs.takeWhile isSchemeChar, ?_, fun c hc => List.mem_takeWhile_imp hc⟩
      rw [← hcs]
      exact List.takeWhile_append_dropWhile.symm
    · cases h
  next => cases h

theorem scheme_withPathStart (u : Url) (cs : List Char) :
    (u.withPathStart cs).scheme = u.scheme := by
  unfold withPathStart
  dsimp only
  split
  · split <;> rfl
  · split
    · rfl
    · split <;> rfl

variable {scheme : String} {cs : List Char} {u : Url}

theorem scheme_ofAuthority? (h : ofAuthority? scheme cs = some u) : u.scheme = scheme := by
  simp only [ofAuthority?, bind, Option.bind_eq_some_iff, Prod.exists] at h
  obtain ⟨a, rest, -, h⟩ := h
  cases h
  exact scheme_withPathStart _ _

theorem scheme_ofFile? (h : ofFile? cs = some u) : u.scheme = "file" := by
  unfold ofFile? at h
  dsimp only at h
  split at h
  · split at h
    · split at h
      · cases h; rfl
      · split at h
        · cases h; exact scheme_withPathStart _ _
        · simp only [bind, Option.bind_eq_some_iff] at h
          obtain ⟨host, -, h⟩ := h
          cases h
          exact scheme_withPathStart _ _
    · split at h <;> cases h <;> rfl
  · cases h; rfl
  · cases h; exact scheme_withPathStart _ _

theorem scheme_ofOther? (h : ofOther? scheme cs = some u) : u.scheme = scheme := by
  unfold ofOther? at h
  split at h
  · exact scheme_ofAuthority? h
  · cases h; rfl
  · cases h; rfl

theorem eq_file_of_schemeKind (h : schemeKind scheme = .file) : scheme = "file" := by
  unfold schemeKind at h
  split at h
  · cases h
  · split at h
    next hfile => exact hfile
    next => cases h

theorem scheme_ofScheme? (h : ofScheme? scheme cs = some u) : u.scheme = scheme := by
  unfold ofScheme? at h
  split at h
  next => exact scheme_ofAuthority? h
  next hk => rw [scheme_ofFile? h, eq_file_of_schemeKind hk]
  next => exact scheme_ofOther? h

end Scheme

section Path

variable {k : SchemeKind}

theorem splitAtSlashes_append (cs ds : List Char) :
    splitAtSlashes k (cs ++ '/' :: ds) = splitAtSlashes k cs ++ splitAtSlashes k ds := by
  induction cs with
  | nil =>
    have hslash : k.isSlash '/' = true := rfl
    simp [splitAtSlashes, hslash]
  | cons c cs ih =>
    rw [List.cons_append, splitAtSlashes, splitAtSlashes, ih]
    split
    · rfl
    · cases h : splitAtSlashes k cs with
      | nil => cases cs <;> grind [splitAtSlashes]
      | cons s ss => rfl

theorem exists_splitAtSlashes (cs : List Char) :
    ∃ ss z, splitAtSlashes k cs = ss ++ [z] ∧ z <:+ cs ∧ (ss = [] → z = cs) := by
  induction cs with
  | nil => exact ⟨[], [], rfl, List.suffix_rfl, fun _ => rfl⟩
  | cons c cs ih =>
    obtain ⟨ss, z, hsplit, hz, hall⟩ := ih
    rw [splitAtSlashes, hsplit]
    split
    · exact ⟨[] :: ss, z, rfl, hz.trans (List.suffix_cons c cs), nofun⟩
    · cases ss with
      | nil =>
        obtain rfl := hall rfl
        exact ⟨[], c :: z, rfl, List.suffix_rfl, fun _ => rfl⟩
      | cons s ss => exact ⟨(c :: s) :: ss, z, rfl, hz.trans (List.suffix_cons c cs), nofun⟩

theorem not_isSlash_of_mem_splitAtSlashes (cs : List Char) :
    ∀ s ∈ splitAtSlashes k cs, ∀ c ∈ s, k.isSlash c = false := by
  induction cs with
  | nil => simp [splitAtSlashes]
  | cons c cs ih =>
    rw [splitAtSlashes]
    split
    next => simpa using ih
    next hc =>
      have hc' : k.isSlash c = false := by simpa using hc
      split
      next => simpa using hc'
      next s ss hsplit =>
        rw [hsplit, List.forall_mem_cons] at ih
        rw [List.forall_mem_cons, List.forall_mem_cons]
        exact ⟨⟨hc', ih.1⟩, ih.2⟩

theorem splitAtSlashes_of_no_slash {cs : List Char} (h : ∀ c ∈ cs, k.isSlash c = false) :
    splitAtSlashes k cs = [cs] := by
  induction cs with
  | nil => rfl
  | cons c cs ih =>
    rw [List.forall_mem_cons] at h
    rw [splitAtSlashes, ih h.2, if_neg (by simp [h.1])]

theorem segments_cons (before : List String) (s : List Char) (rest : List (List Char)) :
    segments k before (s :: rest) = match segmentKind s with
      | .current => segments k (if rest.isEmpty then before ++ [""] else before) rest
      | .parent => segments k (if rest.isEmpty then dropLastSegment k before ++ [""]
          else dropLastSegment k before) rest
      | .name => segments k (before ++ [match k, before, driveLetter? s with
          | .file, [], some c => String.ofList [c, ':']
          | _, _, _ => String.ofList (percentEncode inPath s)]) rest := rfl

theorem exists_segments_append (before : List String) (ss : List (List Char)) :
    ∃ before', ∀ ts, ts ≠ [] → segments k before (ss ++ ts) = segments k before' ts := by
  induction ss generalizing before with
  | nil => exact ⟨before, fun _ _ => rfl⟩
  | cons s ss ih =>
    have hmore {ts : List (List Char)} (hts : ts ≠ []) : (ss ++ ts).isEmpty = false := by
      simp [hts]
    cases hs : segmentKind s with
    | current =>
      obtain ⟨before', h⟩ := ih before
      refine ⟨before', fun ts hts => ?_⟩
      rw [List.cons_append, segments_cons, hs]
      simpa [hmore hts] using h ts hts
    | parent =>
      obtain ⟨before', h⟩ := ih (dropLastSegment k before)
      refine ⟨before', fun ts hts => ?_⟩
      rw [List.cons_append, segments_cons, hs]
      simpa [hmore hts] using h ts hts
    | name =>
      obtain ⟨before', h⟩ := ih _
      refine ⟨before', fun ts hts => ?_⟩
      rw [List.cons_append, segments_cons, hs]
      exact h ts hts

def written (s : List Char) : String :=
  if segmentKind s = .name then String.ofList (percentEncode inPath s) else ""

theorem dropLastSegment_hosted (ss : List String) :
    dropLastSegment .hosted ss = ss.dropLast := by
  unfold dropLastSegment
  split
  · rw [if_neg (by simp)]
    rfl
  · rfl

theorem segments_singleton (before : List String) (s : List Char) :
    segments .hosted before [s] =
      (if segmentKind s = .parent then before.dropLast else before) ++ [written s] := by
  unfold written
  cases hs : segmentKind s with
  | current => simp [segments, hs]
  | parent => simp [segments, hs, dropLastSegment_hosted]
  | name => simp [segments, hs]

theorem exists_segments_last (before : List String) (ss : List (List Char)) (z : List Char) :
    ∃ front, segments .hosted before (ss ++ [z]) = front ++ [written z] := by
  obtain ⟨before', h⟩ := exists_segments_append (k := .hosted) before ss
  exact ⟨_, (h [z] (by simp)).trans (segments_singleton before' z)⟩

variable {u : Url} {cs : List Char}

theorem exists_withPath (u : Url) {folder : List Char} (hfolder : ∀ c ∈ folder, endsPath c = false) :
    ∃ before, ∀ name, u.withPath [] (folder ++ '/' :: name) = u.withPath before name := by
  have hplain : ∀ c ∈ folder ++ ['/'], (!endsPath c) = true := by
    intro c hc
    rcases List.mem_append.mp hc with hc | hc
    · rw [hfolder c hc]
      rfl
    · rw [List.mem_singleton.mp hc]
      rfl
  obtain ⟨before, hbefore⟩ := exists_segments_append (k := schemeKind u.scheme) []
    (splitAtSlashes (schemeKind u.scheme) folder)
  refine ⟨before, fun name => ?_⟩
  obtain ⟨ts, z, hsplit, -⟩ := exists_splitAtSlashes (k := schemeKind u.scheme)
    (name.takeWhile (!endsPath ·))
  have hassoc : folder ++ '/' :: name = folder ++ ['/'] ++ name := by simp
  have htake : (folder ++ '/' :: name).takeWhile (!endsPath ·) =
      folder ++ '/' :: name.takeWhile (!endsPath ·) := by
    rw [hassoc, List.takeWhile_append_of_pos hplain]
    simp
  have hdrop : (folder ++ '/' :: name).dropWhile (!endsPath ·) = name.dropWhile (!endsPath ·) := by
    rw [hassoc, List.dropWhile_append_of_pos hplain]
  unfold withPath
  dsimp only
  rw [htake, hdrop, splitAtSlashes_append, hbefore _ (by rw [hsplit]; simp)]

theorem path_withPath_of_ended (u : Url) (before : List String) (hcs : ∃ c ∈ cs, endsPath c = true)
    (name : List Char) : (u.withPath before (cs ++ name)).path = (u.withPath before cs).path := by
  have htake : (cs ++ name).takeWhile (!endsPath ·) = cs.takeWhile (!endsPath ·) := by
    obtain ⟨c, hc, hends⟩ := hcs
    induction cs with
    | nil => cases hc
    | cons a cs ih =>
      rw [List.cons_append, List.takeWhile_cons, List.takeWhile_cons]
      split
      next ha =>
        rw [ih]
        rcases List.mem_cons.mp hc with rfl | hc
        · simp [hends] at ha
        · exact hc
      next => rfl
  unfold withPath
  dsimp only
  rw [htake]

end Path

section Folder

theorem isHttp_iff {u : Url} : isHttp u = true ↔ u.scheme = "http" ∨ u.scheme = "https" := by
  simp [isHttp]

theorem schemeKind_of_isHttp {u : Url} (h : isHttp u = true) : schemeKind u.scheme = .hosted := by
  rcases isHttp_iff.mp h with h | h <;> rw [h] <;> rfl

def ofCleaned? (cs : List Char) : Option Url := do
  let (scheme, cs) ← scheme? cs
  ofScheme? scheme cs

theorem mem_dropWhile_of_not {α : Type} {p : α → Bool} {l : List α} {a : α} (h : a ∈ l)
    (ha : p a = false) : a ∈ l.dropWhile p := by
  rw [← List.takeWhile_append_dropWhile (p := p) (l := l), List.mem_append] at h
  refine h.resolve_left fun htake => ?_
  rw [List.mem_takeWhile_imp htake] at ha
  cases ha

theorem exists_below (address : List Char) : ∃ v : Option (Url × List Char),
    (∀ x ∈ v, isHttp x.1 = true ∧ x.2 <:+ address ++ "/v1/".toList ∧
      ∀ c ∈ address, endsPath c = true → c ∈ x.2) ∧
    ∀ more, (ofCleaned? (address ++ "/v1/".toList ++ more)).filter isHttp =
      v.map fun x => x.1.withPath [] (x.2 ++ more) := by
  have htext (more : List Char) : address ++ "/v1/".toList ++ more =
      address ++ '/' :: ('v' :: '1' :: '/' :: more) := by simp
  cases hscheme : scheme? address with
  | none =>
    refine ⟨none, by simp, fun more => ?_⟩
    rw [htext, ofCleaned?, scheme?_append, hscheme]
    rfl
  | some x =>
    obtain ⟨scheme, rest⟩ := x
    obtain ⟨name, haddress, hname⟩ := scheme?_eq_some hscheme
    by_cases hhttp : scheme = "http" ∨ scheme = "https"
    · have hk : schemeKind scheme = .hosted := by rcases hhttp with rfl | rfl <;> rfl
      -- Slashes in front of the authority go, so the first `v1` may become the host.
      have hfront (more : List Char) :
          (rest ++ '/' :: ('v' :: '1' :: '/' :: more)).dropWhile SchemeKind.hosted.isSlash =
            ((rest ++ ['/']).dropWhile SchemeKind.hosted.isSlash ++ ['v', '1', '/']) ++ more := by
        have hv : ∀ a ∈ ('v' :: '1' :: '/' :: more).head?, SchemeKind.hosted.isSlash a = false := by
          rintro a ⟨⟩
          rfl
        have happend := dropWhile_append_of_head (l := rest ++ ['/']) hv
        simpa using happend
      have hends : ∃ c ∈ (rest ++ ['/']).dropWhile SchemeKind.hosted.isSlash ++ ['v', '1', '/'],
          Ends c := ⟨'/', by simp, rfl⟩
      obtain ⟨before, c, after, hsplit, hbefore, hc⟩ := exists_first_end hends
      obtain ⟨v, hv, hauthority⟩ := ofAuthority?_within hk hbefore
      refine ⟨v.map fun u => (u, if SchemeKind.hosted.isSlash c then after else c :: after), ?_, ?_⟩
      · intro x hx
        obtain ⟨u, hu, rfl⟩ := Option.map_eq_some_iff.mp hx
        have hafter : (if SchemeKind.hosted.isSlash c then after else c :: after) <:+
            c :: after := by
          split
          · exact List.suffix_cons c after
          · exact List.suffix_rfl
        have hrest : c :: after <:+ rest ++ "/v1/".toList := by
          have hdrop : (rest ++ ['/']).dropWhile SchemeKind.hosted.isSlash ++ ['v', '1', '/'] <:+
              rest ++ "/v1/".toList := by
            have hsuffix := List.dropWhile_suffix SchemeKind.hosted.isSlash (l := rest ++ ['/'])
            obtain ⟨slashes, hslashes⟩ := hsuffix
            refine ⟨slashes, ?_⟩
            rw [← List.append_assoc, hslashes]
            simp
          rw [hsplit] at hdrop
          exact (List.suffix_append before (c :: after)).trans hdrop
        refine ⟨?_, hafter.trans (hrest.trans ?_), ?_⟩
        · exact isHttp_iff.mpr ((hv u hu).symm ▸ hhttp)
        · rw [haddress]
          exact ⟨name ++ [':'], by simp⟩
        · intro d hd hends
          have hslash : SchemeKind.hosted.isSlash d = false ∧ isSchemeChar d = false ∧ d ≠ ':' := by
            simp only [endsPath, Bool.or_eq_true, decide_eq_true_eq] at hends
            rcases hends with rfl | rfl <;> decide
          have hin : d ∈ before ++ c :: after := by
            rw [← hsplit, List.mem_append]
            left
            apply mem_dropWhile_of_not _ hslash.1
            rw [haddress, List.mem_append, List.mem_cons] at hd
            rcases hd with hd | hd | hd
            · rw [hname d hd] at hslash
              exact absurd hslash.2.1 (by decide)
            · exact absurd hd hslash.2.2
            · exact List.mem_append_left _ hd
          have hbehind : d ∈ c :: after := by
            refine (List.mem_append.mp hin).resolve_left fun hd => hbefore d hd ?_
            simp only [endsPath, Bool.or_eq_true, decide_eq_true_eq] at hends
            rcases hends with rfl | rfl <;> rfl
          dsimp only
          split
          next hcslash =>
            rcases List.mem_cons.mp hbehind with rfl | hd
            · rw [hcslash] at hslash
              exact absurd hslash.1 (by decide)
            · exact hd
          next => exact hbehind
      · intro more
        have hof : ofScheme? scheme (rest ++ '/' :: ('v' :: '1' :: '/' :: more)) =
            v.map fun u => u.withPath []
              ((if SchemeKind.hosted.isSlash c then after else c :: after) ++ more) := by
          rw [ofScheme?, hk]
          dsimp only
          rw [hfront, hsplit, List.append_assoc, List.cons_append, hauthority c _ hc]
          cases v with
          | none => rfl
          | some u =>
            have huk : schemeKind u.scheme = .hosted := (hv u rfl).symm ▸ hk
            simp only [Option.map_some, withPathStart, huk]
            split
            next => rfl
            next hslash => rw [if_neg (by simp)]; rfl
        rw [htext, ofCleaned?, scheme?_append, hscheme]
        change (ofScheme? scheme (rest ++ _)).filter isHttp = _
        rw [hof]
        cases v with
        | none => rfl
        | some u =>
          have hu : isHttp u = true := isHttp_iff.mpr ((hv u rfl).symm ▸ hhttp)
          exact Option.filter_some_pos hu
    · refine ⟨none, by simp, fun more => ?_⟩
      rw [htext, ofCleaned?, scheme?_append, hscheme, Option.map_none, Option.filter_eq_none_iff]
      intro u hu hhttp'
      have hscheme' : u.scheme = scheme := scheme_ofScheme? hu
      exact hhttp (hscheme' ▸ isHttp_iff.mp hhttp')

end Folder

end CertLifecycle.Http.Url
