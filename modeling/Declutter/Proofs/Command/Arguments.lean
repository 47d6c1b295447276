import Declutter.Command.Arguments
import Declutter.Proofs.Except
import Mathlib.Logic.Relation
import Mathlib.Tactic.SplitIfs
/-!
How arguments are read. They are read in steps, each of which takes one or two arguments and adds
one item (`Arguments.Takes`); what a step takes does not depend on what was read before. So the
arguments that can be read are those that are made of items (`Arguments.Reads`), two lists of them
make one (`Arguments.Reads.append`), and an argument that starts with a hyphen starts an item
(`Arguments.Reads.split`).
-/

set_option autoImplicit false
set_option relaxedAutoImplicit false

namespace Declutter

/-- What is added to the arguments by one of them, or by a flag and its value. -/
inductive Item where
  | positional (argument : Text)
  | assign (flag : Flag) (value : Text)
deriving DecidableEq, Repr

theorem Flag.word_of_ofWord? {word : Text} {flag : Flag} (h : ofWord? word = some flag) :
    flag.word = word := by
  have hfound := List.find?_some h
  rwa [decide_eq_true_eq] at hfound

theorem Flag.letter?_of_ofLetter? {letter : Text} {flag : Flag} (h : ofLetter? letter = some flag) :
    flag.letter? = some letter := by
  have hfound := List.find?_some h
  rwa [decide_eq_true_eq] at hfound

namespace Arguments

variable {a b r : Arguments} {argument value : Text} {flag : Flag} {item : Item}
  {items more : List Item} {xs ys rest others : List Text}

/-- Adds an item. -/
def take (a : Arguments) : Item → Arguments
  | .positional argument => { a with positional := a.positional ++ [argument] }
  | .assign flag value => a.set flag value

/-! ### Steps -/

/-- The first arguments of a list make an item, and others are left. -/
inductive Takes : List Text → Item → List Text → Prop where
  | positional {argument : Text} {rest : List Text} (read : readOne argument = .ok .positional) :
      Takes (argument :: rest) (.positional argument) rest
  /-- A flag that takes no value. -/
  | switch {argument : Text} {rest : List Text} {flag : Flag}
      (read : readOne argument = .ok (.flag flag none))
        (takesNone : flag.takesValue = false) : Takes (argument :: rest) (.assign flag yes) rest
  /-- A flag with its value after an equals sign. -/
  | joined {argument value : Text} {rest : List Text} {flag : Flag}
      (read : readOne argument = .ok (.flag flag (some value)))
        (takesValue : flag.takesValue = true)
      (value_ne_nil : value ≠ []) : Takes (argument :: rest) (.assign flag value) rest
  /-- A flag with its value as the next argument. -/
  | spaced {argument value : Text} {rest : List Text} {flag : Flag}
      (read : readOne argument = .ok (.flag flag none)) (takesValue : flag.takesValue = true)
        (noHyphen : value.head? ≠ some 45) :
      Takes (argument :: value :: rest) (.assign flag value) rest

theorem inlineValue_eq_ok_iff {read : Text} :
    inlineValue flag value = .ok read ↔ flag.takesValue = true ∧ value ≠ [] ∧ value = read := by
  rw [inlineValue]
  split_ifs with htakes hempty
  · rw [Bool.not_eq_true'] at htakes
    simp [htakes]
  · simp [List.isEmpty_iff.mp hempty]
  · rw [Bool.not_eq_true', Bool.not_eq_false] at htakes
    rw [Except.ok.injEq, and_iff_right htakes, and_iff_right (mt List.isEmpty_iff.mpr hempty)]

/-- Arguments start with an item, or they cannot be read, whatever was read before. -/
theorem takes_or_fault (argument : Text) (rest : List Text) :
    (∃ item others, Takes (argument :: rest) item others) ∨
      ∃ fault, ∀ a, readFrom (argument :: rest) a = .error fault := by
  cases hread : readOne argument with
  | error fault => exact .inr ⟨fault, fun a ↦ by rw [readFrom, hread]⟩
  | ok read =>
    rcases read with _ | ⟨flag, _ | value⟩
    case positional => exact .inl ⟨_, _, .positional hread⟩
    case flag.some =>
      cases hinline : inlineValue flag value with
      | error fault => exact .inr ⟨fault, fun a ↦ by simp only [readFrom, hread, hinline]⟩
      | ok value' =>
        obtain ⟨htakes, hne, -⟩ := inlineValue_eq_ok_iff.mp hinline
        exact .inl ⟨_, _, .joined hread htakes hne⟩
    case flag.none =>
      cases htakes : flag.takesValue with
      | false => exact .inl ⟨_, _, .switch hread htakes⟩
      | true =>
        match rest with
        | [] =>
          exact .inr ⟨.missingValue flag, fun a ↦ by simp only [readFrom, hread, htakes, if_true]⟩
        | value :: others =>
          by_cases hhyphen : value.head? = some 45
          · exact .inr
              ⟨.missingValue flag,
                fun a ↦ by simp only [readFrom, hread, htakes, if_true, if_pos hhyphen]⟩
          · exact .inl ⟨_, _, .spaced hread htakes hhyphen⟩

namespace Takes

theorem readFrom_eq (h : Takes xs item others) (a : Arguments) :
    readFrom xs a = readFrom others (a.take item) := by
  cases h with
  | positional hread => rw [readFrom, hread, take]
  | switch hread htakes => simp only [readFrom, hread, htakes, take, if_neg Bool.false_ne_true]
  | joined hread htakes hne =>
    simp only [readFrom, hread, inlineValue_eq_ok_iff.mpr ⟨htakes, hne, rfl⟩, take]
  | spaced hread htakes hhyphen =>
    simp only [readFrom, hread, htakes, if_true, if_neg hhyphen, take]

theorem append (h : Takes xs item others) (ys : List Text) :
    Takes (xs ++ ys) item (others ++ ys) := by
  cases h with
  | positional hread => exact .positional hread
  | switch hread htakes => exact .switch hread htakes
  | joined hread htakes hne => exact .joined hread htakes hne
  | spaced hread htakes hhyphen => exact .spaced hread htakes hhyphen

theorem length_lt (h : Takes xs item others) : others.length < xs.length := by
  cases h <;> simp only [List.length_cons] <;> omega

/-- An argument that starts with a hyphen is not taken as a value. -/
theorem of_append {all : List Text} (h : Takes all item rest)
    (hall : all = argument :: (xs ++ value :: ys)) (hhyphen : value.head? = some 45) :
    ∃ others, rest = others ++ value :: ys ∧ Takes (argument :: xs) item others := by
  cases h with
  | positional hread =>
    obtain ⟨rfl, rfl⟩ := List.cons.inj hall
    exact ⟨xs, rfl, .positional hread⟩
  | switch hread htakes =>
    obtain ⟨rfl, rfl⟩ := List.cons.inj hall
    exact ⟨xs, rfl, .switch hread htakes⟩
  | joined hread htakes hne =>
    obtain ⟨rfl, rfl⟩ := List.cons.inj hall
    exact ⟨xs, rfl, .joined hread htakes hne⟩
  | spaced hread htakes hnot =>
    obtain ⟨rfl, hnext⟩ := List.cons.inj hall
    rcases List.cons_eq_append_iff.mp hnext with ⟨rfl, heq⟩ | ⟨others, rfl, rfl⟩
    · exact absurd ((List.cons.inj heq).1 ▸ hhyphen) hnot
    · exact ⟨others, rfl, .spaced hread htakes hnot⟩

end Takes

/-! ### Runs -/

/-- A list of arguments is made of items. -/
inductive Reads : List Text → List Item → Prop where
  | nil : Reads [] []
  | cons {xs others : List Text} {item : Item} {items : List Item} (first : Takes xs item others)
      (further : Reads others items) : Reads xs (item :: items)

/-- Arguments are made of items, or they cannot be read, whatever was read before. -/
theorem reads_or_fault (xs : List Text) :
    (∃ items, Reads xs items) ∨ ∃ fault, ∀ a, readFrom xs a = .error fault := by
  induction hlength : xs.length using Nat.strongRecOn generalizing xs with
  | ind n ih =>
    cases xs with
    | nil => exact .inl ⟨[], .nil⟩
    | cons argument rest =>
      rcases takes_or_fault argument rest with ⟨item, others, htakes⟩ | hfault
      · rcases ih others.length (hlength ▸ htakes.length_lt) others rfl with ⟨items, hitems⟩ |
          ⟨fault, hfault⟩
        · exact .inl ⟨_, .cons htakes hitems⟩
        · exact .inr ⟨fault, fun a ↦ by rw [htakes.readFrom_eq, hfault]⟩
      · exact .inr hfault

namespace Reads

/-- Once the items are read, it goes on with what follows. -/
theorem readFrom_append (h : Reads xs items) (ys : List Text) (a : Arguments) :
    readFrom (xs ++ ys) a = readFrom ys (items.foldl take a) := by
  induction h generalizing a with
  | nil => rfl
  | cons first _ ih => rw [(first.append ys).readFrom_eq, ih, List.foldl_cons]

theorem readFrom_eq (h : Reads xs items) (a : Arguments) :
    readFrom xs a = .ok (items.foldl take a) := by
  have happend := h.readFrom_append [] a
  rwa [List.append_nil, readFrom] at happend

theorem append (h : Reads xs items) (h' : Reads ys more) : Reads (xs ++ ys) (items ++ more) := by
  induction h with
  | nil => exact h'
  | cons first _ ih => exact .cons (first.append ys) ih

/-- Where an argument starts with a hyphen, an item starts. -/
theorem split (h : Reads (xs ++ value :: ys) items) (hhyphen : value.head? = some 45) :
    ∃ before after, items = before ++ after ∧ Reads xs before ∧ Reads (value :: ys) after := by
  generalize hall : xs ++ value :: ys = all at h
  induction h generalizing xs with
  | nil => exact absurd hall (List.append_ne_nil_of_right_ne_nil _ (List.cons_ne_nil _ _))
  | @cons all _ item items first further ih =>
    cases xs with
    | nil =>
      obtain rfl : value :: ys = all := hall
      exact ⟨[], _, rfl, .nil, .cons first further⟩
    | cons argument xs =>
      obtain ⟨others, hothers, htakes⟩ := first.of_append hall.symm hhyphen
      obtain ⟨before, after, rfl, hbefore, hafter⟩ := ih hothers.symm
      exact ⟨item :: before, after, rfl, .cons htakes hbefore, hafter⟩

end Reads

theorem exists_reads_of_read (h : read xs = .ok a) :
    ∃ items, Reads xs items ∧ a = items.foldl take {} := by
  rcases reads_or_fault xs with ⟨items, hitems⟩ | ⟨fault, hfault⟩
  · exact ⟨items, hitems, Except.ok.inj (h.symm.trans (hitems.readFrom_eq {}))⟩
  · exact nomatch h.symm.trans (hfault {})

/-! ### One list after another -/

theorem find?_replace (flags : List (Flag × Text)) (flag f : Flag) (value : Text) :
    ((flags.map fun g ↦ if g.1 = flag then (flag, value) else g).find? (·.1 = f)).map (·.2) =
      if f = flag then ((flags.find? (·.1 = flag)).map fun _ ↦ value)
      else (flags.find? (·.1 = f)).map (·.2) := by
  induction flags with
  | nil => split_ifs <;> rfl
  | cons g rest ih =>
    by_cases hg : g.1 = flag <;> by_cases hf : f = flag
    · simp [hg, hf]
    · simpa [hg, hf, Ne.symm hf] using ih
    · subst hf
      simpa [hg] using ih
    · by_cases hgf : g.1 = f
      · simp [hgf, hf]
      · simpa [hg, hf, hgf] using ih

theorem value?_set (a : Arguments) (flag : Flag) (value : Text) (f : Flag) :
    (a.set flag value).value? f = if f = flag then some value else a.value? f := by
  rw [set, Arguments.value?]
  cases hflag : a.value? flag with
  | some old =>
    obtain ⟨_, hfind, -⟩ := Option.map_eq_some_iff.mp hflag
    rw [has, hflag, Option.isSome_some, if_pos rfl, find?_replace, hfind]
    rfl
  | none =>
    rw [has, hflag, Option.isSome_none, if_neg Bool.false_ne_true, List.find?_append,
      List.find?_singleton]
    by_cases hf : f = flag
    · rw [Arguments.value?, Option.map_eq_none_iff] at hflag
      simp [hf, hflag]
    · simp [hf, Ne.symm hf, Arguments.value?]

/-- The arguments `r` are those of `a` with those of `b` after them. -/
structure Continues (a b r : Arguments) : Prop where
  positional : r.positional = a.positional ++ b.positional
  value? : ∀ f, r.value? f = (b.value? f).or (a.value? f)

namespace Continues

theorem refl (a : Arguments) : Continues a {} a where
  positional := (List.append_nil _).symm
  value? _ := rfl

theorem take (h : Continues a b r) (item : Item) : Continues a (b.take item) (r.take item) := by
  cases item with
  | positional argument =>
    refine ⟨?_, h.value?⟩
    rw [Arguments.take, Arguments.take, h.positional, List.append_assoc]
  | assign flag value =>
    refine ⟨h.positional, fun f ↦ ?_⟩
    rw [Arguments.take, Arguments.take, value?_set, value?_set, h.value?]
    split_ifs <;> rfl

theorem foldl (h : Continues a b r) (items : List Item) :
    Continues a (items.foldl Arguments.take b) (items.foldl Arguments.take r) := by
  induction items generalizing b r with
  | nil => exact h
  | cons item rest ih => exact ih (h.take item)

end Continues

/-- What follows arguments that can be read is read as for itself, and continues them. -/
theorem read_append (h : read xs = .ok a) (ys : List Text) :
    (∃ fault, read (xs ++ ys) = .error fault ∧ read ys = .error fault) ∨
      ∃ b r, read ys = .ok b ∧ read (xs ++ ys) = .ok r ∧ Continues a b r := by
  obtain ⟨items, hitems, rfl⟩ := exists_reads_of_read h
  rw [read, hitems.readFrom_append]
  rcases reads_or_fault ys with ⟨more, hmore⟩ | ⟨fault, hfault⟩
  · exact .inr ⟨_, _, hmore.readFrom_eq {}, hmore.readFrom_eq _, (Continues.refl _).foldl more⟩
  · exact .inl ⟨fault, hfault _, hfault _⟩

/-! ### Spellings -/

theorem readOne_word (flag : Flag) : readOne ("--" ++ flag.word) = .ok (.flag flag none) := by
  cases flag <;> rfl

theorem readOne_letter {letter : Text} (h : flag.letter? = some letter) :
    readOne ("-" ++ letter) = .ok (.flag flag none) := by
  cases flag <;> cases h <;> rfl

theorem readOne_joined (flag : Flag) (value : Text) :
    readOne ("--" ++ flag.word ++ "=" ++ value) = .ok (.flag flag (some value)) := by
  cases flag <;> rfl

/-- One flag is spelt in another way: with its word for its letter, or with its value after an
equals sign. -/
inductive Respelt : List Text → List Text → Prop where
  | word (xs ys : List Text) {flag : Flag} {letter : Text}
      (hasLetter : flag.letter? = some letter) : Respelt (xs ++ ("-" ++ letter) :: ys)
        (xs ++ ("--" ++ flag.word) :: ys)
  | joined (xs ys : List Text) {flag : Flag} {value : Text} (takesValue : flag.takesValue = true)
      (value_ne_nil : value ≠ []) :
      Respelt (xs ++ ("--" ++ flag.word) :: value :: ys)
        (xs ++ ("--" ++ flag.word ++ "=" ++ value) :: ys)

/-- Another spelling of a flag alone makes the same item. -/
theorem Takes.respell {t t' : Text} (h : Takes (t :: ys) item others)
    (ht : readOne t = .ok (.flag flag none)) (ht' : readOne t' = .ok (.flag flag none)) :
    Takes (t' :: ys) item others := by
  cases h with
  | positional hread => exact nomatch hread.symm.trans ht
  | switch hread htakes =>
    cases hread.symm.trans ht
    exact .switch ht' htakes
  | joined hread => cases hread.symm.trans ht
  | spaced hread htakes hhyphen =>
    cases hread.symm.trans ht
    exact .spaced ht' htakes hhyphen

theorem Takes.join (h : Takes (("--" ++ flag.word) :: value :: ys) item others)
    (htakes : flag.takesValue = true) (hne : value ≠ []) :
    Takes (("--" ++ flag.word ++ "=" ++ value) :: ys) item others := by
  have hword := readOne_word flag
  cases h with
  | positional hread => exact nomatch hread.symm.trans hword
  | switch hread hnot =>
    cases hread.symm.trans hword
    exact absurd (hnot.symm.trans htakes) Bool.false_ne_true
  | joined hread => cases hread.symm.trans hword
  | spaced hread =>
    cases hread.symm.trans hword
    exact .joined (readOne_joined flag value) htakes hne

/-- A flag that is spelt in another way makes the same items. -/
theorem Reads.respelt (h : Reads xs items) (hrespelt : Respelt xs ys) : Reads ys items := by
  cases hrespelt with
  | word before after hletter =>
    obtain ⟨_, _, rfl, hbefore, hafter⟩ := h.split rfl
    cases hafter with
    | cons first further =>
      exact hbefore.append (.cons (first.respell (readOne_letter hletter) (readOne_word _)) further)
  | joined before after htakes hne =>
    obtain ⟨_, _, rfl, hbefore, hafter⟩ := h.split rfl
    cases hafter with
    | cons first further => exact hbefore.append (.cons (first.join htakes hne) further)

/-! ### Flags that were given -/

/-- A flag that came without a value is written as its word. -/
theorem eq_of_readWord {body : Text} (h : readWord body = .ok (.flag flag none)) :
    body = flag.word := by
  rw [readWord] at h
  split at h
  · cases h
  · next found hfound =>
    obtain ⟨rfl, htail⟩ : found = flag ∧ _ = none := Argument.flag.inj (Except.ok.inj h)
    have hstarts : (body.takeWhile fun (u : CodeUnit) ↦ u != '=') <+: body :=
      List.takeWhile_prefix _
    have hlength : body.length ≤ (body.takeWhile fun (u : CodeUnit) ↦ u != '=').length := by
      refine List.drop_eq_nil_iff.mp ?_
      cases hdrop : body.drop (body.takeWhile fun (u : CodeUnit) ↦ u != '=').length with
      | nil => rfl
      | cons => exact nomatch (hdrop ▸ htail)
    rw [Flag.word_of_ofWord? hfound]
    exact (hstarts.eq_of_length_le hlength).symm

/-- An argument that is a flag alone is the word of the flag or its letter. -/
theorem eq_of_readOne (h : readOne argument = .ok (.flag flag none)) :
    argument = "--" ++ flag.word ∨ ∃ letter, flag.letter? = some letter ∧
    argument = "-" ++ letter := by
  unfold readOne at h
  split at h
  · exact .inl (eq_of_readWord h ▸ rfl)
  · split at h
    · next found hfound =>
      obtain ⟨rfl, -⟩ := Argument.flag.inj (Except.ok.inj h)
      exact .inr ⟨_, Flag.letter?_of_ofLetter? hfound, rfl⟩
    · cases h
  · cases h

/-- A flag with no letter that takes no value is added where its word is taken, and nowhere else. -/
theorem Takes.mem_iff (h : Takes xs item others) (htakes : flag.takesValue = false)
    (hletter : flag.letter? = none) :
    "--" ++ flag.word ∈ xs ↔ (∃ value, item = .assign flag value) ∨ "--" ++ flag.word ∈ others := by
  have hword := readOne_word flag
  cases h with
  | @positional argument _ hread =>
    have hne : "--" ++ flag.word ≠ argument := by
      rintro rfl
      cases hread.symm.trans hword
    simp [List.mem_cons, hne]
  | @switch argument _ found hread =>
    have hiff : "--" ++ flag.word = argument ↔ found = flag := by
      constructor
      · rintro rfl
        exact (Argument.flag.inj (Except.ok.inj (hread.symm.trans hword))).1
      · rintro rfl
        rcases eq_of_readOne hread with heq | ⟨letter, hsome, -⟩
        · exact heq.symm
        · exact nomatch hletter.symm.trans hsome
    rw [List.mem_cons, hiff]
    simp
  | @joined argument _ _ found hread hvalue =>
    have hne : "--" ++ flag.word ≠ argument := by
      rintro rfl
      cases hread.symm.trans hword
    have hfound : found ≠ flag := by
      rintro rfl
      exact Bool.false_ne_true (htakes.symm.trans hvalue)
    simp [List.mem_cons, hne, hfound]
  | @spaced argument value _ found hread hvalue hhyphen =>
    have hfound : found ≠ flag := by
      rintro rfl
      exact Bool.false_ne_true (htakes.symm.trans hvalue)
    have hne : "--" ++ flag.word ≠ argument := by
      rintro rfl
      exact hfound (Argument.flag.inj (Except.ok.inj (hread.symm.trans hword))).1
    have hvalue : "--" ++ flag.word ≠ value := by
      rintro rfl
      exact hhyphen rfl
    simp [List.mem_cons, hne, hvalue, hfound]

theorem has_take (a : Arguments) (item : Item) (flag : Flag) :
    (a.take item).has flag = true ↔ a.has flag = true ∨ ∃ value, item = .assign flag value := by
  cases item with
  | positional argument => simp [take, has, Arguments.value?]
  | assign found value =>
    rw [take, has, value?_set, has]
    by_cases hflag : flag = found
    · simp [hflag]
    · simp [hflag, Ne.symm hflag]

/-- A flag with no letter that takes no value was given if its word is an argument, wherever it
is. -/
theorem Reads.has_iff (h : Reads xs items) (htakes : flag.takesValue = false)
    (hletter : flag.letter? = none) (a : Arguments) :
    (items.foldl take a).has flag = true ↔ a.has flag = true ∨ "--" ++ flag.word ∈ xs := by
  induction h generalizing a with
  | nil => simp
  | cons first _ ih => rw [List.foldl_cons, ih, has_take, first.mem_iff htakes hletter, or_assoc]

theorem logLevel_of_read (h : read xs = .ok a) (usual : Option Text) :
    a.logLevel usual = if ("--verbose" : Text) ∈ xs then some LogLevel.debug.word
      else if ("--quiet" : Text) ∈ xs then some LogLevel.error.word else usual := by
  obtain ⟨items, hitems, rfl⟩ := exists_reads_of_read h
  have hgiven (flag : Flag) (htakes : flag.takesValue = false) (hletter : flag.letter? = none) :
      has (items.foldl take {}) flag = true ↔ "--" ++ flag.word ∈ xs :=
    (hitems.has_iff htakes hletter {}).trans (or_iff_right Bool.false_ne_true)
  simp only [logLevel, hgiven .verbose rfl rfl, hgiven .quiet rfl rfl]
  rfl

/-! ### Reading arguments -/

theorem fst_parse (xs : List Text) (usual : Option Text) : (parse xs usual).1 = read xs := by
  rw [parse]
  cases read xs <;> rfl

theorem snd_parse_of_error {fault : UsageFault} (h : read xs = .error fault) (usual : Option Text) :
    (parse xs usual).2 = usual := by
  rw [parse, h]

theorem snd_parse_of_ok (h : read xs = .ok a) (usual : Option Text) :
    (parse xs usual).2 = a.logLevel usual := by
  rw [parse, h]

theorem read_respelt (h : read xs = .ok a) (hrespelt : Relation.ReflTransGen Respelt xs ys) :
    read ys = .ok a := by
  obtain ⟨items, hitems, rfl⟩ := exists_reads_of_read h
  have hys : Reads ys items := by
    induction hrespelt with
    | refl => exact hitems
    | tail _ hlast ih => exact ih.respelt hlast
  exact hys.readFrom_eq {}

/-- After arguments that can be read, further ones are rejected as they are by themselves, or go on
from the first: their positional arguments come after, and their flags go before. Another spelling
of flags changes nothing. The level of the messages is set by `--verbose` and else by `--quiet`, and
a fault leaves it as it is. -/
theorem parse_composes :
    (∀ xs ys usual a, (parse xs usual).1 = .ok a →
      (∀ fault, (parse (xs ++ ys) usual).1 = .error fault ↔ (parse ys usual).1 = .error fault) ∧
      ∀ b, (parse ys usual).1 = .ok b → ∃ r, (parse (xs ++ ys) usual).1 = .ok r ∧
        r.positional = a.positional ++ b.positional ∧
        ∀ flag, r.value? flag = (b.value? flag).or (a.value? flag)) ∧
    (∀ xs ys usual a, (parse xs usual).1 = .ok a → Relation.ReflTransGen Respelt xs ys →
      parse ys usual = parse xs usual) ∧
    ∀ xs usual, (∀ fault, (parse xs usual).1 = .error fault → (parse xs usual).2 = usual) ∧
      ∀ a, (parse xs usual).1 = .ok a → (parse xs usual).2 =
        if ("--verbose" : Text) ∈ xs then some LogLevel.debug.word
        else if ("--quiet" : Text) ∈ xs then some LogLevel.error.word else usual := by
  refine ⟨fun xs ys usual a h ↦ ?_, fun xs ys usual a h hrespelt ↦ ?_,
    fun xs usual ↦ ⟨fun fault h ↦ ?_, fun a h ↦ ?_⟩⟩
  · rw [fst_parse] at h
    rw [fst_parse, fst_parse]
    rcases read_append h ys with ⟨fault, happend, hys⟩ | ⟨b, r, hys, happend, hr⟩
    · rw [happend, hys]
      exact ⟨fun _ ↦ Iff.rfl, fun _ hb ↦ nomatch hb⟩
    · rw [happend, hys]
      refine ⟨fun fault ↦ iff_of_false (nomatch ·) (nomatch ·), fun b' hb ↦ ?_⟩
      obtain rfl := Except.ok.inj hb
      exact ⟨r, rfl, hr.positional, hr.value?⟩
  · rw [fst_parse] at h
    rw [parse, parse, h, read_respelt h hrespelt]
  · rw [fst_parse] at h
    exact snd_parse_of_error h usual
  · rw [fst_parse] at h
    rw [snd_parse_of_ok h, logLevel_of_read h]

/-- Arguments with a flag by its letter. -/
def byLetter : List Text := ["-f", "log", "a.py", "--quiet"]

/-- Arguments with the same flag by its word, and its value after an equals sign. -/
def byWord : List Text := ["--functions=warn", "b.py", "--verbose"]

/-- One list after the other has the paths of both, the later value of the flag that both have, and
the flag that only the first one has. The flag of the first list can be spelt as in the second, and
the level is that of `--verbose`. -/
theorem parse_composes_functions :
    (∃ r, (parse (byLetter ++ byWord) none).1 = .ok r ∧
      r.positional = (["a.py", "b.py"] : List Text) ∧ r.value? .functions = some ("warn" : Text) ∧
      r.value? .quiet = some yes) ∧
    parse ["--functions=log", "a.py"] none = parse ["-f", "log", "a.py"] none ∧
    (parse ["-f", "log", "a.py", "--quiet", "b.py", "--verbose"] none).2 = some "debug" := by
  have hword : Respelt ["-f", "log", "a.py"] ["--functions", "log", "a.py"] :=
    @Respelt.word [] ["log", "a.py"] .functions "f" rfl
  have hjoined : Respelt ["--functions", "log", "a.py"] ["--functions=log", "a.py"] :=
    @Respelt.joined [] ["a.py"] .functions "log" rfl (by decide)
  have hletters : ((parse byLetter none).1.toOption).map (fun a ↦ (a.positional, a.value? .quiet)) =
      some ([("a.py" : Text)], some yes) := by decide +kernel
  have hwords : ((parse byWord none).1.toOption).map (fun b ↦
      (b.positional, b.value? .functions, b.value? .quiet)) =
        some ([("b.py" : Text)], some ("warn" : Text), none) := by decide +kernel
  obtain ⟨a, ha, hletter⟩ := Except.exists_of_map_toOption hletters
  obtain ⟨b, hb, hword'⟩ := Except.exists_of_map_toOption hwords
  simp only [Prod.mk.injEq] at hletter hword'
  obtain ⟨r, hr, hpaths, hvalue⟩ := (parse_composes.1 byLetter byWord none a ha).2 b hb
  have hlast : r.value? .functions = some ("warn" : Text) := by
    rw [hvalue, hword'.2.1, Option.some_or]
  have hfirst : r.value? .quiet = some yes := by rw [hvalue, hword'.2.2, hletter.2, Option.none_or]
  rw [hletter.1, hword'.1] at hpaths
  exact ⟨⟨r, hr, hpaths, hlast, hfirst⟩,
    parse_composes.2.1 _ _ none _ rfl (.tail (.single hword) hjoined),
    ((parse_composes.2.2 _ none).2 _ rfl).trans (if_pos (by decide))⟩

end Arguments

end Declutter
