import CertLifecycle.Proofs.OptionWords

namespace CertLifecycle

namespace CommandLine

variable {path : Option String} {daemon : Bool} {rest argv : List Bytes} {args : Arguments}

def pathFrom (path : Option String) (front : List Leading) : Option String :=
  (front.filterMap Leading.path?).getLast?.getD path

theorem pathFrom_cons (o : Leading) (front : List Leading) :
    pathFrom path (o :: front) = pathFrom (o.path?.getD path) front := by
  cases h : o.path? with
  | none => simp [pathFrom, h]
  | some p => simp [pathFrom, h, List.getLast?_cons]

theorem options_flatMap (front : List Leading) (h : ∀ o ∈ front, o.Readable)
    (path : Option String) (daemon : Bool) (rest : List Bytes) :
    options path daemon (front.flatMap Leading.words ++ rest) =
      options (pathFrom path front) (daemon || front.any Leading.isDaemon) rest := by
  induction front generalizing path daemon with
  | nil => simp [pathFrom]
  | cons o front ih =>
    rw [List.forall_mem_cons] at h
    rw [List.flatMap_cons, List.append_assoc, options_words o h.1, ih h.2, pathFrom_cons,
      List.any_cons, Bool.or_assoc]

theorem commandOptions_flatMap (back : List Trailing) {c : Command} (h : ∀ o ∈ back, o.Fits c)
    (path : Option String) (daemon : Bool) (rest : List Bytes) :
    commandOptions path daemon c (back.flatMap Trailing.words ++ rest) =
      commandOptions path (daemon || back.any Trailing.isDaemon) (c.after back) rest := by
  induction back generalizing daemon c with
  | nil => simp [Command.after_nil]
  | cons o back ih =>
    rw [List.forall_mem_cons] at h
    have hback : ∀ p ∈ back, p.Fits (c.after [o]) := fun p hp =>
      Command.fits_after.mpr (h.2 p hp)
    rw [List.flatMap_cons, List.append_assoc, commandOptions_words h.1, ih hback,
      ← Command.after_cons, List.any_cons, Bool.or_assoc]

def IsWord (word : Bytes) : Prop := long? word = none ∧ short? word = none

theorem options_word {word : Bytes} (h : IsWord word) (path : Option String) (daemon : Bool)
    (rest : List Bytes) : options path daemon (word :: rest) = command path daemon word rest := by
  rw [options.eq_def]
  simp only [h.1, h.2]

def Ends (argv : List Bytes) : Prop :=
  (∃ word rest, argv = word :: rest ∧ IsWord word) ∨
    ∃ r, (∀ args, r ≠ .ok (.run args)) ∧ ∀ path daemon, options path daemon argv = r

def Splits (argv : List Bytes) : Prop :=
  ∃ (front : List Leading) (rest : List Bytes),
    argv = front.flatMap Leading.words ++ rest ∧ (∀ o ∈ front, o.Readable) ∧ Ends rest

theorem Ends.splits (h : Ends argv) : Splits argv :=
  ⟨[], argv, rfl, fun _ h => absurd h List.not_mem_nil, h⟩

theorem splits_of_print (text : String)
    (h : ∀ path daemon, options path daemon argv = .ok (.print text)) : Splits argv := by
  refine Ends.splits (.inr ⟨_, fun args hrun => ?_, h⟩)
  cases hrun

theorem splits_of_error (e : CliError)
    (h : ∀ path daemon, options path daemon argv = .error e) : Splits argv := by
  refine Ends.splits (.inr ⟨_, fun args hrun => ?_, h⟩)
  cases hrun

theorem Splits.words_append (o : Leading) (ho : o.Readable) (h : Splits rest) :
    Splits (o.words ++ rest) := by
  obtain ⟨front, tail, rfl, hfront, hends⟩ := h
  refine ⟨o :: front, tail, ?_, List.forall_mem_cons.mpr ⟨ho, hfront⟩, hends⟩
  rw [List.flatMap_cons, List.append_assoc]

theorem attached_of_short? {a bs : Bytes} (h : short? a = some bs) : a = dash :: bs := by
  unfold short? at h
  split at h
  next b more =>
    split at h
    · cases h
    · rw [← Option.some.inj h]
      rfl
  next => cases h

theorem splits (path : Option String) (daemon : Bool) (argv : List Bytes) : Splits argv := by
  -- One case for each way to go on or to stop; what stops does so whatever was read before.
  induction path, daemon, argv using options.induct with
  | case1 => exact splits_of_print help fun _ _ => rfl
  | case2 path daemon a rest name hname v ha ih =>
    rw [eq_longOption_of_long? ha hname isName_config]
    cases hv : Utf8.decode? v with
    | some s => exact (ih s).words_append (.joined v) (Option.isSome_iff_exists.mpr ⟨s, hv⟩)
    | none =>
      exact splits_of_error _ fun path daemon => options_unreadable hv path daemon rest
  | case3 path daemon a rest name hname ha =>
    rw [eq_longOption_of_long? ha hname isName_config]
    exact splits_of_error _ fun path daemon => options_unvalued path daemon rest
  | case4 path daemon a rest name v ha hname ih =>
    rw [eq_longOption_of_long? ha hname isName_daemon]
    exact ih.words_append (.daemon v) trivial
  | case5 path daemon a rest name v ha hname =>
    refine splits_of_print help fun _ _ => ?_
    rw [options.eq_def]
    simp only [ha, hname]
  | case6 path daemon a rest name v ha hname =>
    refine splits_of_print version fun _ _ => ?_
    rw [options.eq_def]
    simp only [ha, hname]
  | case7 path daemon a rest name v ha hconfig hdaemon hhelp hversion =>
    refine splits_of_error .commandNotFound fun _ _ => ?_
    rw [options.eq_def]
    simp only [ha]
  | case8 path daemon a ha hshort v rest ih =>
    rw [attached_of_short? hshort]
    exact ih.words_append (.separate v) trivial
  | case9 path daemon a ha hshort =>
    refine splits_of_error (.requiredValue "config") fun _ _ => ?_
    rw [options.eq_def]
    simp only [ha, hshort]
  | case10 path daemon a rest ha v hv hshort ih =>
    obtain ⟨b, bs, rfl⟩ := List.exists_cons_of_ne_nil hv
    rw [attached_of_short? hshort]
    exact ih.words_append (.attached b bs) trivial
  | case11 path daemon a rest ha bs hshort =>
    refine splits_of_print help fun _ _ => ?_
    rw [options.eq_def]
    simp only [ha, hshort]
  | case12 path daemon a rest ha bs hc hvalue hh hshort =>
    refine splits_of_error .commandNotFound fun _ _ => ?_
    rw [options.eq_def]
    simp only [ha, hshort]
  | case13 path daemon a rest ha hshort => exact Ends.splits (.inl ⟨a, rest, rfl, ha, hshort⟩)

theorem exists_of_options (h : options path daemon argv = .ok (.run args)) :
    ∃ (front : List Leading) (word : Bytes) (rest : List Bytes),
      argv = front.flatMap Leading.words ++ word :: rest ∧ (∀ o ∈ front, o.Readable) ∧
        IsWord word ∧
        command (pathFrom path front) (daemon || front.any Leading.isDaemon) word rest =
          .ok (.run args) := by
  obtain ⟨front, tail, rfl, hfront, hends⟩ := splits path daemon argv
  rw [options_flatMap front hfront] at h
  obtain ⟨word, rest, rfl, hword⟩ | ⟨r, hr, htail⟩ := hends
  · rw [options_word hword] at h
    exact ⟨front, word, rest, rfl, hfront, hword, h⟩
  · rw [htail] at h
    exact absurd h (hr args)

def Amends (path : Option String) (daemon : Bool) (c : Command) (argv : List Bytes)
    (args : Arguments) : Prop :=
  ∃ back : List Trailing, argv = back.flatMap Trailing.words ∧ (∀ o ∈ back, o.Fits c) ∧
    finish path (daemon || back.any Trailing.isDaemon) (c.after back) = .ok (.run args)

theorem Amends.words_append (o : Trailing) {c : Command} (ho : o.Fits c)
    (h : Amends path (daemon || o.isDaemon) (c.after [o]) rest args) :
    Amends path daemon c (o.words ++ rest) args := by
  obtain ⟨back, rfl, hback, hfinish⟩ := h
  refine ⟨o :: back, rfl, ?_, ?_⟩
  · rw [List.forall_mem_cons]
    exact ⟨ho, fun p hp => Command.fits_after.mp (hback p hp)⟩
  · rwa [List.any_cons, ← Bool.or_assoc, Command.after_cons]

theorem exists_of_utf8 {α : Type} {bs : Bytes} {f : String → Except CliError α} {a : α}
    (h : utf8 bs >>= f = .ok a) : ∃ s, Utf8.decode? bs = some s ∧ f s = .ok a := by
  cases hs : Utf8.decode? bs with
  | some s => exact ⟨s, rfl, by rwa [utf8_of_decode? hs] at h⟩
  | none =>
    unfold utf8 at h
    rw [hs] at h
    cases h

theorem amends_of_commandOptions {c : Command}
    (h : commandOptions path daemon c argv = .ok (.run args)) : Amends path daemon c argv args := by
  -- The command is that of the options read so far, so each step amends it by one more.
  fun_induction commandOptions path daemon c argv with
  | case1 daemon c =>
    refine ⟨[], rfl, fun _ h => absurd h List.not_mem_nil, ?_⟩
    rwa [List.any_nil, Bool.or_false, Command.after_nil]
  | case3 daemon c a rest name v ha hname ih =>
    rw [eq_longOption_of_long? ha hname isName_daemon]
    refine Amends.words_append (.daemon v) trivial ?_
    rw [Trailing.isDaemon, Bool.or_true, Command.after_daemon]
    exact ih h
  | case5 daemon a name t hname v rest ha ih =>
    obtain ⟨s, hs, h⟩ := exists_of_utf8 h
    have fits : (Trailing.joined v).Fits (.revoke t) := Option.isSome_iff_exists.mpr ⟨s, hs⟩
    rw [eq_longOption_of_long? ha hname isName_serial]
    refine Amends.words_append _ fits ?_
    rw [Trailing.isDaemon, Bool.or_false, Command.after_serial (.joined v) hs]
    exact ih s h
  | case6 daemon a name t hname v rest ha ih =>
    obtain ⟨s, hs, h⟩ := exists_of_utf8 h
    have fits : (Trailing.separate v).Fits (.revoke t) := Option.isSome_iff_exists.mpr ⟨s, hs⟩
    rw [eq_longOption_of_long? ha hname isName_serial]
    refine Amends.words_append _ fits ?_
    rw [Trailing.isDaemon, Bool.or_false, Command.after_serial (.separate v) hs]
    exact ih s h
  | case8 daemon a rest name v ha der hname ih =>
    rw [eq_longOption_of_long? ha hname isName_der]
    refine Amends.words_append (.der v) trivial ?_
    rw [Trailing.isDaemon, Bool.or_false, Command.fetchCa_after_der]
    exact ih h
  | case9 daemon a rest name v ha der hname ih =>
    rw [eq_longOption_of_long? ha hname isName_der]
    refine Amends.words_append (.der v) trivial ?_
    rw [Trailing.isDaemon, Bool.or_false, Command.fetchCrl_after_der]
    exact ih h
  | case2 | case4 | case7 | case10 => cases h

namespace Command

def word : Command → String
  | .issue => "issue"
  | .sign => "sign"
  | .revoke _ => "revoke"
  | .tidy => "tidy"
  | .readAcme => "read-acme"
  | .verify => "verify"
  | .fetchCa _ => "fetch-ca"
  | .fetchCrl _ => "fetch-crl"

def bare : Command → Command
  | .revoke _ => .revoke ""
  | .fetchCa _ => .fetchCa false
  | .fetchCrl _ => .fetchCrl false
  | c => c

theorem ofWord?_word (c : Command) : ofWord? c.word = some c.bare := by
  cases c <;> rfl

theorem word_of_ofWord? {s : String} {c : Command} (h : ofWord? s = some c) :
    s = c.word ∧ c.bare = c := by
  unfold ofWord? at h
  split at h <;> cases h <;> exact ⟨rfl, rfl⟩

theorem word_after (back : List Trailing) (c : Command) : (c.after back).word = c.word := by
  cases c <;> rfl

theorem word_bare (c : Command) : c.bare.word = c.word := by
  cases c <;> rfl

theorem bare_bare (c : Command) : c.bare.bare = c.bare := by
  cases c <;> rfl

theorem bare_after (back : List Trailing) (c : Command) : (c.after back).bare = c.bare := by
  cases c <;> rfl

theorem fits_bare {o : Trailing} {c : Command} : o.Fits c.bare ↔ o.Fits c := by
  cases c <;> cases o <;> rfl

theorem isWord_word (c : Command) : IsWord (Utf8.encode c.word) := by
  cases c <;> simp only [word] <;> exact ⟨rfl, rfl⟩

theorem isName_word (c : Command) : IsName c.word := by
  cases c <;> simp only [word] <;> decide

end Command

def line (front : List Leading) (c : Command) (back : List Trailing) : List Bytes :=
  front.flatMap Leading.words ++ Utf8.encode c.word :: back.flatMap Trailing.words

/-- The options around the command are those that the arguments ask for. -/
structure Renders (a : Arguments) (front : List Leading) (back : List Trailing) : Prop where
  readable : ∀ o ∈ front, o.Readable
  fits : ∀ o ∈ back, o.Fits a.command
  path : a.configPath = pathFrom none front
  daemon : a.daemon = true ↔
    (∃ o ∈ front, o.isDaemon = true) ∨ ∃ o ∈ back, o.isDaemon = true
  serial : ∀ s, a.command = .revoke s →
    s ≠ "" ∧ (back.filterMap Trailing.serial?).getLast? = some s
  der : ∀ d, a.command = .fetchCa d ∨ a.command = .fetchCrl d →
    (d = true ↔ ∃ o ∈ back, o.isDer = true)

theorem finish_eq_run_iff {c : Command} : finish path daemon c = .ok (.run args) ↔
    c ≠ .revoke "" ∧ args = ⟨path, daemon, c⟩ := by
  unfold finish
  split
  next h => simp [h]
  next h => simp [h, eq_comm]

theorem getD_eq_iff {last : Option String} {s : String} :
    last.getD "" = s ∧ s ≠ "" ↔ s ≠ "" ∧ last = some s := by
  cases last with
  | none =>
    rw [Option.getD_none]
    exact iff_of_false (fun h => h.2 h.1.symm) (fun h => nomatch h.2)
  | some t => rw [Option.getD_some, Option.some.injEq, and_comm]

theorem any_isDer_eq_iff {back : List Trailing} {d : Bool} :
    back.any Trailing.isDer = d ↔ (d = true ↔ ∃ o ∈ back, o.isDer = true) := by
  rw [← List.any_eq_true, ← Bool.eq_iff_iff, eq_comm]

theorem after_bare_iff {c : Command} {back : List Trailing} :
    c.bare.after back = c ∧ c ≠ .revoke "" ↔
      (∀ s, c = .revoke s → s ≠ "" ∧ (back.filterMap Trailing.serial?).getLast? = some s) ∧
        ∀ d, c = .fetchCa d ∨ c = .fetchCrl d → (d = true ↔ ∃ o ∈ back, o.isDer = true) := by
  cases c with
  | revoke t => simpa [Command.bare, Command.after] using getD_eq_iff
  | fetchCa d => simpa [Command.bare, Command.after] using any_isDer_eq_iff
  | fetchCrl d => simpa [Command.bare, Command.after] using any_isDer_eq_iff
  | _ => simp [Command.bare, Command.after]

theorem command_word (c : Command) (path : Option String) (daemon : Bool) (rest : List Bytes) :
    command path daemon (Utf8.encode c.word) rest = commandOptions path daemon c.bare rest := by
  simp only [command, utf8_of_decode? (Utf8.decode?_encode c.word), bind, Except.bind,
    Command.ofWord?_word]

theorem exists_of_command {word : Bytes} (h : command path daemon word rest = .ok (.run args)) :
    ∃ c : Command, word = Utf8.encode c.word ∧
      commandOptions path daemon c.bare rest = .ok (.run args) := by
  obtain ⟨s, hs, h⟩ := exists_of_utf8 h
  split at h
  next c hc =>
    obtain ⟨rfl, hbare⟩ := Command.word_of_ofWord? hc
    exact ⟨c, Utf8.eq_encode_of_decode? hs (Command.isName_word c).2.2, by rwa [hbare]⟩
  next => cases h

theorem options_line {a : Arguments} {front : List Leading} {back : List Trailing}
    (h : Renders a front back) : options none false (line front a.command back) = .ok (.run a) := by
  have hfits : ∀ o ∈ back, o.Fits a.command.bare := fun o ho =>
    Command.fits_bare.mpr (h.fits o ho)
  have hdaemon : a.daemon = (front.any Leading.isDaemon || back.any Trailing.isDaemon) := by
    rw [Bool.eq_iff_iff, h.daemon, Bool.or_eq_true, List.any_eq_true, List.any_eq_true]
  obtain ⟨hafter, hne⟩ := after_bare_iff.mpr ⟨h.serial, h.der⟩
  rw [line, options_flatMap front h.readable, options_word (Command.isWord_word _), command_word,
    ← List.append_nil (back.flatMap _), commandOptions_flatMap back hfits, hafter]
  refine finish_eq_run_iff.mpr ⟨hne, ?_⟩
  rw [Bool.false_or, ← hdaemon, ← h.path]

theorem exists_renders_of_options {a : Arguments} (h : options none false argv = .ok (.run a)) :
    ∃ front back, Renders a front back ∧ argv = line front a.command back := by
  obtain ⟨front, word, rest, rfl, hfront, -, hcommand⟩ := exists_of_options h
  obtain ⟨c, rfl, hoptions⟩ := exists_of_command hcommand
  obtain ⟨back, rfl, hback, hfinish⟩ := amends_of_commandOptions hoptions
  obtain ⟨hne, rfl⟩ := finish_eq_run_iff.mp hfinish
  have hbare : (c.bare.after back).bare = c.bare := by
    rw [Command.bare_after, Command.bare_bare]
  obtain ⟨serial, der⟩ := after_bare_iff.mp ⟨congrArg (Command.after back) hbare, hne⟩
  refine ⟨front, back, ⟨hfront, ?_, rfl, ?_, serial, der⟩, ?_⟩
  · exact fun o ho => Command.fits_after.mpr (hback o ho)
  · rw [Bool.false_or, Bool.or_eq_true, List.any_eq_true, List.any_eq_true]
  · rw [line, Command.word_after, Command.word_bare]

theorem parse_eq_run_iff (program : Bytes) (argv : List Bytes) (a : Arguments) :
    Arguments.parse (program :: argv) = .ok (.run a) ↔
      ∃ front back, Renders a front back ∧ argv = line front a.command back := by
  change options none false argv = _ ↔ _
  constructor
  · exact exists_renders_of_options
  · rintro ⟨front, back, h, rfl⟩
    exact options_line h

example : Arguments.parse ([] :: line [.joined (Utf8.encode "a=b"), .daemon none] (.revoke "-1")
    [.joined [], .daemon none, .separate (Utf8.encode "-1")]) =
      .ok (.run ⟨some "a=b", true, .revoke "-1"⟩) := by
  rfl

end CommandLine

end CertLifecycle
