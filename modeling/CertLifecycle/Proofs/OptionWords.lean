import CertLifecycle.CommandLine.Arguments
import CertLifecycle.Proofs.CharacterCodes
import Mathlib.Data.List.TakeWhile

namespace CertLifecycle

namespace Utf8

theorem decode?_eq_some_iff {bs : Bytes} {s : String} :
    decode? bs = some s ↔ decode bs = .ok s := by
  unfold decode?
  cases decode bs <;> simp [Except.toOption]

theorem decode?_encode (s : String) : decode? (encode s) = some s :=
  decode?_eq_some_iff.mpr (decode_encode s)

theorem Codes.eq_flatMap {bs : Bytes} {cs : List Char} (h : Codes bs cs)
    (hcs : ∀ c ∈ cs, 0 < c.toNat ∧ c.toNat < 128) : bs = cs.flatMap String.utf8EncodeChar := by
  induction h with
  | nil => rfl
  | single hb h ih =>
    rw [List.forall_mem_cons] at hcs
    rw [List.flatMap_cons, encodeChar_char hb, ← ih hcs.2]
    rfl
  | @word word c hw bs cs h ih =>
    obtain ⟨hpos, hlt⟩ := hcs c List.mem_cons_self
    have hn : (UInt8.ofNat c.toNat).toNat = c.toNat := by
      rw [UInt8.toNat_ofNat']
      omega
    have hb : UInt8.ofNat c.toNat < 0x80 := by
      rw [UInt8.lt_iff_toNat_lt, hn]
      exact hlt
    have hzero : UInt8.ofNat c.toNat ≠ 0 := by
      intro he
      rw [he] at hn
      exact Nat.ne_of_lt hpos hn
    refine absurd ?_ (hw.wide _ hb hzero)
    rw [char, hn]
    exact (Char.ofNat_toNat c).symm

theorem eq_encode_of_decode? {bs : Bytes} {s : String} (h : decode? bs = some s)
    (hs : ∀ c ∈ s.toList, 0 < c.toNat ∧ c.toNat < 128) : bs = encode s :=
  (codes_of_decode (decode?_eq_some_iff.mp h)).eq_flatMap hs

end Utf8

namespace CommandLine

def longOption (name : String) : Option Bytes → Bytes
  | none => dash :: dash :: Utf8.encode name
  | some v => dash :: dash :: (Utf8.encode name ++ equals :: v)

def IsName (name : String) : Prop :=
  Utf8.encode name ≠ [] ∧ equals ∉ Utf8.encode name ∧
    ∀ c ∈ name.toList, 0 < c.toNat ∧ c.toNat < 128

-- Not by a search of all characters.
instance (name : String) : Decidable (IsName name) :=
  decidable_of_iff (Utf8.encode name ≠ [] ∧ equals ∉ Utf8.encode name ∧
    name.toList.all fun c => 0 < c.toNat ∧ c.toNat < 128) (by simp [IsName])

theorem isName_daemon : IsName "daemon" := by decide

theorem isName_config : IsName "config" := by decide

theorem isName_serial : IsName "serial" := by decide

theorem isName_der : IsName "der" := by decide

section Long

variable {name : String} {a bs : Bytes} {value : Option Bytes}

theorem long?_longOption (h : IsName name) (value : Option Bytes) :
    long? (longOption name value) = some (Utf8.encode name, value) := by
  obtain ⟨hne, heq, -⟩ := h
  have hall : ∀ b ∈ Utf8.encode name, decide (b ≠ equals) = true := by
    intro b hb
    exact decide_eq_true fun he => heq (he ▸ hb)
  obtain ⟨b, more, hname⟩ := List.exists_cons_of_ne_nil hne
  cases value with
  | none =>
    rw [hname] at hall
    simp only [longOption, dash, hname, long?, List.takeWhile_eq_self_iff.mpr hall,
      List.dropWhile_eq_nil_iff.mpr hall]
  | some v =>
    have htake : (Utf8.encode name ++ equals :: v).takeWhile (· ≠ equals) = Utf8.encode name := by
      rw [List.takeWhile_append_of_pos hall, List.takeWhile_cons_of_neg (by simp), List.append_nil]
    have hdrop : (Utf8.encode name ++ equals :: v).dropWhile (· ≠ equals) = equals :: v := by
      rw [List.dropWhile_append_of_pos hall, List.dropWhile_cons_of_neg (by simp)]
    rw [hname, List.cons_append] at htake hdrop
    simp only [longOption, dash, hname, List.cons_append, long?, htake, hdrop]

theorem eq_longOption_of_long? (h : long? a = some (bs, value))
    (hbs : Utf8.decode? bs = some name) (hname : IsName name) : a = longOption name value := by
  have hbs := Utf8.eq_encode_of_decode? hbs hname.2.2
  unfold long? at h
  split at h
  next b more =>
    have hsplit := List.takeWhile_append_dropWhile (p := (· ≠ equals)) (l := b :: more)
    have hhead := List.head?_dropWhile_not (· ≠ equals) (b :: more)
    dsimp only at h
    split at h
    next hdrop =>
      obtain ⟨htake, rfl⟩ := Prod.mk.inj (Option.some.inj h)
      rw [hdrop, List.append_nil, htake, hbs] at hsplit
      rw [longOption, hsplit]
      rfl
    next x v hdrop =>
      obtain ⟨htake, rfl⟩ := Prod.mk.inj (Option.some.inj h)
      rw [hdrop] at hhead
      have hx : x = equals := by simpa using hhead
      rw [hdrop, htake, hbs, hx] at hsplit
      rw [longOption, hsplit]
      rfl
  next => cases h

end Long

inductive Leading where
  | daemon (value : Option Bytes)
  | joined (value : Bytes)
  | attached (first : UInt8) (more : Bytes)
  | separate (value : Bytes)

namespace Leading

def words : Leading → List Bytes
  | .daemon v => [longOption "daemon" v]
  | .joined v => [longOption "config" (some v)]
  | .attached b bs => [dash :: 99 :: b :: bs]
  | .separate v => [[dash, 99], v]

def isDaemon : Leading → Bool
  | .daemon _ => true
  | .joined _ | .attached .. | .separate _ => false

def value? : Leading → Option Bytes
  | .daemon _ => none
  | .joined v | .separate v => some v
  | .attached b bs => some (b :: bs)

def path? : Leading → Option (Option String)
  | .daemon _ => none
  | .joined v => some (Utf8.decode? v)
  | .attached b bs => some (Utf8.decode? (b :: bs))
  | .separate v => some (separateValue? v)

def Readable : Leading → Prop
  | .joined v => (Utf8.decode? v).isSome
  | _ => True

end Leading

theorem utf8_of_decode? {bs : Bytes} {s : String} (h : Utf8.decode? bs = some s) :
    utf8 bs = .ok s := by
  unfold utf8
  rw [h]

theorem options_unvalued (path : Option String) (daemon : Bool) (rest : List Bytes) :
    options path daemon (longOption "config" none :: rest) = .error (.requiredValue "config") := by
  rw [options.eq_def]
  simp only [long?_longOption isName_config, Utf8.decode?_encode]

theorem options_unreadable {v : Bytes} (h : Utf8.decode? v = none) (path : Option String)
    (daemon : Bool) (rest : List Bytes) :
    options path daemon (longOption "config" (some v) :: rest) = .error .encoding := by
  rw [options.eq_def]
  simp only [long?_longOption isName_config, Utf8.decode?_encode, utf8, h]
  rfl

theorem options_joined {v : Bytes} {s : String} (h : Utf8.decode? v = some s)
    (path : Option String) (daemon : Bool) (rest : List Bytes) :
    options path daemon (longOption "config" (some v) :: rest) = options (some s) daemon rest := by
  rw [options.eq_def]
  simp only [long?_longOption isName_config, Utf8.decode?_encode, utf8_of_decode? h]
  rfl

theorem options_words (o : Leading) (h : o.Readable) (path : Option String) (daemon : Bool)
    (rest : List Bytes) :
    options path daemon (o.words ++ rest) =
      options (o.path?.getD path) (daemon || o.isDaemon) rest := by
  cases o with
  | daemon v =>
    rw [Leading.words, List.singleton_append, options.eq_def]
    simp only [long?_longOption isName_daemon, Utf8.decode?_encode]
    rw [Leading.isDaemon, Bool.or_true]
    rfl
  | joined v =>
    obtain ⟨s, hs⟩ := Option.isSome_iff_exists.mp h
    rw [Leading.words, List.singleton_append, options_joined hs, Leading.isDaemon, Bool.or_false,
      Leading.path?, hs, Option.getD_some]
  | attached b bs =>
    rw [Leading.words, List.singleton_append, options.eq_def]
    rw [Leading.isDaemon, Bool.or_false]
    rfl
  | separate v =>
    rw [Leading.isDaemon, Bool.or_false]
    rfl

inductive Trailing where
  | daemon (value : Option Bytes)
  | joined (value : Bytes)
  | separate (value : Bytes)
  | der (value : Option Bytes)

namespace Trailing

def words : Trailing → List Bytes
  | .daemon v => [longOption "daemon" v]
  | .joined v => [longOption "serial" (some v)]
  | .separate v => [longOption "serial" none, v]
  | .der v => [longOption "der" v]

def isDaemon : Trailing → Bool
  | .daemon _ => true
  | .joined _ | .separate _ | .der _ => false

def isDer : Trailing → Bool
  | .der _ => true
  | .daemon _ | .joined _ | .separate _ => false

def serial? : Trailing → Option String
  | .joined v | .separate v => Utf8.decode? v
  | .daemon _ | .der _ => none

def Fits : Trailing → Command → Prop
  | .daemon _, _ => True
  | .joined v, .revoke _ | .separate v, .revoke _ => (Utf8.decode? v).isSome
  | .der _, .fetchCa _ | .der _, .fetchCrl _ => True
  | _, _ => False

end Trailing

namespace Command

def after (back : List Trailing) : Command → Command
  | .revoke s => .revoke ((back.filterMap Trailing.serial?).getLast?.getD s)
  | .fetchCa d => .fetchCa (d || back.any Trailing.isDer)
  | .fetchCrl d => .fetchCrl (d || back.any Trailing.isDer)
  | c => c

variable {o : Trailing} {back : List Trailing} {c : Command}

theorem after_nil (c : Command) : c.after [] = c := by
  cases c <;> simp [after]

theorem after_cons (o : Trailing) (back : List Trailing) (c : Command) :
    c.after (o :: back) = (c.after [o]).after back := by
  cases c with
  | revoke s =>
    cases h : o.serial? with
    | none => simp [after, h]
    | some t => simp [after, h, List.getLast?_cons]
  | fetchCa d => simp [after, Bool.or_assoc]
  | fetchCrl d => simp [after, Bool.or_assoc]
  | _ => rfl

theorem after_daemon (v : Option Bytes) (c : Command) : c.after [.daemon v] = c := by
  cases c <;> simp [after, Trailing.serial?, Trailing.isDer]

theorem after_serial (o : Trailing) {s : String} (h : o.serial? = some s) (t : String) :
    (Command.revoke t).after [o] = .revoke s := by
  simp [after, h]

theorem fetchCa_after_der (v : Option Bytes) (d : Bool) :
    (Command.fetchCa d).after [.der v] = .fetchCa true := by
  simp [after, Trailing.isDer]

theorem fetchCrl_after_der (v : Option Bytes) (d : Bool) :
    (Command.fetchCrl d).after [.der v] = .fetchCrl true := by
  simp [after, Trailing.isDer]

theorem fits_after : o.Fits (c.after back) ↔ o.Fits c := by
  cases c <;> cases o <;> rfl

end Command

theorem commandOptions_words {o : Trailing} {c : Command} (h : o.Fits c) (path : Option String)
    (daemon : Bool) (rest : List Bytes) :
    commandOptions path daemon c (o.words ++ rest) =
      commandOptions path (daemon || o.isDaemon) (c.after [o]) rest := by
  cases o with
  | daemon v =>
    rw [Trailing.words, List.singleton_append, commandOptions.eq_def]
    simp only [long?_longOption isName_daemon, Utf8.decode?_encode]
    rw [Trailing.isDaemon, Bool.or_true, Command.after_daemon]
  | joined v =>
    cases c with
    | revoke t =>
      obtain ⟨s, hs⟩ := Option.isSome_iff_exists.mp h
      have hc := Command.after_serial (.joined v) hs t
      rw [Trailing.words, List.singleton_append, commandOptions.eq_def]
      simp only [long?_longOption isName_serial, Utf8.decode?_encode, utf8_of_decode? hs]
      rw [Trailing.isDaemon, Bool.or_false, hc]
      rfl
    | _ => exact h.elim
  | separate v =>
    cases c with
    | revoke t =>
      obtain ⟨s, hs⟩ := Option.isSome_iff_exists.mp h
      have hc := Command.after_serial (.separate v) hs t
      rw [Trailing.words, List.cons_append, List.singleton_append, commandOptions.eq_def]
      simp only [long?_longOption isName_serial, Utf8.decode?_encode, utf8_of_decode? hs]
      rw [Trailing.isDaemon, Bool.or_false, hc]
      rfl
    | _ => exact h.elim
  | der v =>
    rw [Trailing.words, List.singleton_append, commandOptions.eq_def]
    cases c with
    | fetchCa d =>
      simp only [long?_longOption isName_der, Utf8.decode?_encode]
      rw [Trailing.isDaemon, Bool.or_false, Command.fetchCa_after_der]
    | fetchCrl d =>
      simp only [long?_longOption isName_der, Utf8.decode?_encode]
      rw [Trailing.isDaemon, Bool.or_false, Command.fetchCrl_after_der]
    | _ => exact h.elim

end CommandLine

end CertLifecycle
