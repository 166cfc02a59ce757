import CertLifecycle.Proofs.CommandLines

namespace CertLifecycle

namespace CommandLine

variable {path : Option String} {daemon : Bool} {rest argv : List Bytes} {args : Arguments}

theorem commandOptions_eq_error {c : Command} {e : CliError}
    (h : commandOptions path daemon c argv = .error e) (other : Option String) :
    commandOptions other daemon c argv = .error e := by
  fun_induction commandOptions path daemon c argv with
  | case1 daemon c =>
    unfold finish at h
    split at h
    next hc =>
      rw [commandOptions.eq_def]
      simpa [finish, hc] using h
    next => cases h
  | case5 daemon a name t hname v rest ha ih | case6 daemon a name t hname v rest ha ih =>
    rw [commandOptions.eq_def]
    simp only [ha, hname]
    cases hv : utf8 v with
    | error f =>
      rw [hv] at h
      exact h
    | ok s =>
      rw [hv] at h
      exact ih s h
  | _ => simp_all [commandOptions]

theorem command_eq_error {word : Bytes} {e : CliError}
    (h : command path daemon word rest = .error e) (other : Option String) :
    command other daemon word rest = .error e := by
  cases hs : utf8 word with
  | error f =>
    simp only [command, hs] at h ⊢
    exact h
  | ok s =>
    cases hc : Command.ofWord? s with
    | some c =>
      simp only [command, hs, bind, Except.bind, hc] at h ⊢
      exact commandOptions_eq_error h other
    | none =>
      simp only [command, hs, bind, Except.bind, hc] at h ⊢
      exact h

theorem options_eq_error_iff (path other : Option String) (daemon : Bool) (argv : List Bytes)
    (e : CliError) :
    options path daemon argv = .error e ↔ options other daemon argv = .error e := by
  obtain ⟨front, tail, rfl, hfront, hends⟩ := splits path daemon argv
  rw [options_flatMap front hfront, options_flatMap front hfront]
  obtain ⟨word, rest, rfl, hword⟩ | ⟨r, -, htail⟩ := hends
  · rw [options_word hword, options_word hword]
    exact ⟨fun h => command_eq_error h _, fun h => command_eq_error h _⟩
  · rw [htail, htail]

theorem separateValue?_eq_some_iff {v : Bytes} {s : String} : separateValue? v = some s ↔
    Utf8.decode? v = some s ∧ s ≠ "" ∧ s.toList.head? ≠ some '-' := by
  simp [separateValue?, Option.filter_eq_some_iff]

theorem separateValue?_encode {value : String} (hne : value ≠ "")
    (hdash : value.toList.head? ≠ some '-') : separateValue? (Utf8.encode value) = some value :=
  separateValue?_eq_some_iff.mpr ⟨Utf8.decode?_encode value, hne, hdash⟩

theorem options_separate (path : Option String) (daemon : Bool) (v : Bytes) (rest : List Bytes) :
    options path daemon ([dash, 99] :: v :: rest) = options (separateValue? v) daemon rest := rfl

theorem options_attached {v : Bytes} (hv : v ≠ []) (path : Option String) (daemon : Bool)
    (rest : List Bytes) :
    options path daemon ((dash :: 99 :: v) :: rest) = options (Utf8.decode? v) daemon rest := by
  obtain ⟨b, bs, rfl⟩ := List.exists_cons_of_ne_nil hv
  rfl

theorem encode_ne_nil {value : String} (hne : value ≠ "") : Utf8.encode value ≠ [] := by
  intro h
  have hvalue := Utf8.decode?_encode value
  rw [h] at hvalue
  exact hne (Option.some.inj hvalue).symm

theorem parse_config_forms (program : Bytes) (value : String) (rest : List Bytes)
    (hne : value ≠ "") (hdash : value.toList.head? ≠ some '-') :
    let v := Utf8.encode value
    let joined := Arguments.parse (program :: longOption "config" (some v) :: rest)
    let unjoined := Arguments.parse (program :: longOption "config" none :: v :: rest)
    Arguments.parse (program :: [dash, 99] :: v :: rest) = joined ∧
      Arguments.parse (program :: (dash :: 99 :: v) :: rest) = joined ∧
      unjoined = .error (.requiredValue "config") ∧
      (unjoined = joined ↔
        Arguments.parse (program :: rest) = .error (.requiredValue "config")) := by
  intro v joined unjoined
  have hv : Utf8.decode? v = some value := Utf8.decode?_encode value
  have hjoined : joined = options (some value) false rest := options_joined hv none false rest
  have hunjoined : unjoined = .error (.requiredValue "config") := options_unvalued none false _
  refine ⟨?_, ?_, hunjoined, ?_⟩
  · rw [hjoined, ← separateValue?_encode hne hdash]
    exact options_separate none false v rest
  · rw [hjoined, ← hv]
    exact options_attached (encode_ne_nil hne) none false rest
  · rw [hunjoined, hjoined, eq_comm]
    exact options_eq_error_iff (some value) none false rest _

theorem parse_config_forms_yaml :
    let v := Utf8.encode "a.yaml"
    let rest := [Utf8.encode "issue"]
    let joined := Arguments.parse ([] :: longOption "config" (some v) :: rest)
    let unjoined := Arguments.parse ([] :: longOption "config" none :: v :: rest)
    "a.yaml" ≠ "" ∧ "a.yaml".toList.head? ≠ some '-' ∧
      Arguments.parse ([] :: [dash, 99] :: v :: rest) = joined ∧
      Arguments.parse ([] :: (dash :: 99 :: v) :: rest) = joined ∧
      unjoined = .error (.requiredValue "config") ∧
      (unjoined = joined ↔ Arguments.parse ([] :: rest) = .error (.requiredValue "config")) :=
  ⟨by decide, by decide,
    parse_config_forms [] "a.yaml" [Utf8.encode "issue"] (by decide) (by decide)⟩

theorem parse_unjoined_config :
    Arguments.parse [[], [dash, 99], Utf8.encode "a.yaml", Utf8.encode "issue"] =
        .ok (.run ⟨some "a.yaml", false, .issue⟩) ∧
      Arguments.parse [[], Utf8.encode "--config", Utf8.encode "a.yaml", Utf8.encode "issue"] =
        .error (.requiredValue "config") :=
  ⟨by rfl, by rfl⟩

theorem configPath_of_command {word : Bytes}
    (h : command path daemon word rest = .ok (.run args)) : args.configPath = path := by
  obtain ⟨c, -, hoptions⟩ := exists_of_command h
  obtain ⟨back, -, -, hfinish⟩ := amends_of_commandOptions hoptions
  rw [(finish_eq_run_iff.mp hfinish).2]

theorem pathFrom_eq_self {front : List Leading} (h : ∀ o ∈ front, o.path? = none)
    (path : Option String) : pathFrom path front = path := by
  rw [pathFrom, List.filterMap_eq_nil_iff.mpr h]
  rfl

theorem pathFrom_append (path : Option String) (front more : List Leading) :
    pathFrom path (front ++ more) = pathFrom (pathFrom path front) more := by
  induction front generalizing path with
  | nil => rfl
  | cons o front ih => rw [List.cons_append, pathFrom_cons, ih, pathFrom_cons]

namespace Leading

variable {o : Leading} {v : Bytes}

theorem path?_of_value?_eq_none (h : o.value? = none) : o.path? = none := by
  cases o with
  | daemon => rfl
  | _ => cases h

theorem path?_of_isDaemon (h : o.isDaemon = true) : o.path? = none := by
  cases o with
  | daemon => rfl
  | _ => cases h

theorem path?_of_value? (h : o.value? = some v) : ∃ p, o.path? = some p ∧ ∀ s, p = some s ↔
    Utf8.decode? v = some s ∧ (o = .separate v → s ≠ "" ∧ s.toList.head? ≠ some '-') := by
  cases o with
  | daemon => cases h
  | joined w | attached b bs =>
    obtain rfl := Option.some.inj h
    exact ⟨_, rfl, fun s => (and_iff_left nofun).symm⟩
  | separate w =>
    obtain rfl := Option.some.inj h
    refine ⟨_, rfl, fun s => ?_⟩
    rw [separateValue?_eq_some_iff, forall_prop_of_true rfl]

end Leading

structure ConfigDecided (program : Bytes) : Prop where
  split : ∀ {argv args}, Arguments.parse (program :: argv) = .ok (.run args) →
    ∃ (front : List Leading) (word : Bytes) (rest : List Bytes),
      argv = front.flatMap Leading.words ++ word :: rest ∧ (∀ o ∈ front, o.Readable) ∧ IsWord word
  last : ∀ {before after : List Leading} {o : Leading} {v word : Bytes} {rest : List Bytes}
    {args : Arguments}, (∀ p ∈ before ++ o :: after, p.Readable) → IsWord word →
    o.value? = some v → (∀ p ∈ after, p.value? = none) →
    Arguments.parse (program :: (before ++ o :: after).flatMap Leading.words ++ word :: rest) =
      .ok (.run args) →
    ∀ s, args.configPath = some s ↔
      Utf8.decode? v = some s ∧ (o = .separate v → s ≠ "" ∧ s.toList.head? ≠ some '-')
  missing : ∀ {front : List Leading}, (∀ o ∈ front, o.Readable) →
    Arguments.parse (program :: front.flatMap Leading.words ++ [[dash, 99]]) =
        .error (.requiredValue "config") ∧
      ∀ rest, Arguments.parse (program :: front.flatMap Leading.words ++
        longOption "config" none :: rest) = .error (.requiredValue "config")
  unreadable : ∀ {front : List Leading} {v : Bytes} {rest : List Bytes}, (∀ o ∈ front, o.Readable) →
    Utf8.decode? v = none →
    Arguments.parse (program :: front.flatMap Leading.words ++
      longOption "config" (some v) :: rest) = .error .encoding
  swallowed : ∀ {front : List Leading} {v : Bytes} {rest : List Bytes}, (∀ o ∈ front, o.Readable) →
    (∀ s, Utf8.decode? v = some s → s = "" ∨ s.toList.head? = some '-') →
    Arguments.parse (program :: front.flatMap Leading.words ++ [dash, 99] :: v :: rest) =
      Arguments.parse (program :: (front.filter Leading.isDaemon).flatMap Leading.words ++ rest)

theorem config_decided (program : Bytes) : ConfigDecided program where
  split := by
    intro argv args h
    obtain ⟨front, word, rest, hargv, hfront, hword, -⟩ := exists_of_options h
    exact ⟨front, word, rest, hargv, hfront, hword⟩
  last := by
    intro before after o v word rest args hfront hword hvalue hafter h s
    obtain ⟨p, hp, hkept⟩ := Leading.path?_of_value? hvalue
    have hpath : pathFrom none (before ++ o :: after) = p := by
      rw [pathFrom_append, pathFrom_cons, hp, Option.getD_some]
      exact pathFrom_eq_self (fun q hq => Leading.path?_of_value?_eq_none (hafter q hq)) p
    have hcommand : options none false
        ((before ++ o :: after).flatMap Leading.words ++ word :: rest) = .ok (.run args) := h
    rw [options_flatMap _ hfront, options_word hword] at hcommand
    rw [configPath_of_command hcommand, hpath]
    exact hkept s
  missing := by
    intro front hfront
    refine ⟨options_flatMap front hfront none false [[dash, 99]], fun rest => ?_⟩
    exact (options_flatMap front hfront none false _).trans (options_unvalued _ _ rest)
  unreadable := by
    intro front v rest hfront hv
    exact (options_flatMap front hfront none false _).trans (options_unreadable hv _ _ rest)
  swallowed := by
    intro front v rest hfront hv
    have hnone : separateValue? v = none := by
      refine Option.eq_none_iff_forall_ne_some.mpr fun s hs => ?_
      obtain ⟨hs, hne, hdash⟩ := separateValue?_eq_some_iff.mp hs
      exact (hv s hs).elim hne hdash
    have hdaemons : ∀ o ∈ front.filter Leading.isDaemon, o.path? = none := fun o ho =>
      Leading.path?_of_isDaemon (List.mem_filter.mp ho).2
    have hreadable : ∀ o ∈ front.filter Leading.isDaemon, o.Readable := fun o ho =>
      hfront o (List.mem_filter.mp ho).1
    have hany : (front.filter Leading.isDaemon).any Leading.isDaemon =
        front.any Leading.isDaemon := by
      rw [List.any_filter]
      simp only [Bool.and_self]
    change options none false (front.flatMap Leading.words ++ [dash, 99] :: v :: rest) =
      options none false ((front.filter Leading.isDaemon).flatMap Leading.words ++ rest)
    rw [options_flatMap front hfront, options_flatMap _ hreadable, options_separate, hnone, hany,
      pathFrom_eq_self hdaemons]

theorem parse_swallowed_daemon :
    Arguments.parse [[], [dash, 99], Utf8.encode "--daemon", Utf8.encode "issue"] =
      .ok (.run ⟨none, false, .issue⟩) := by
  rfl

end CommandLine

end CertLifecycle
