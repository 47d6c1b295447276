import Declutter.Text.Basic
/-!
Regular expressions over code units, and matching by backtracking. A pattern is matched in one
direction: forwards, or backwards inside a look-behind.
-/

set_option autoImplicit false
set_option relaxedAutoImplicit false

namespace Declutter

/-- A letter, a digit or an underscore of ASCII. -/
def CodeUnit.isWordUnit (u : CodeUnit) : Bool := u.isAsciiLetter || u.isDigit || u == '_'

/-- A part of a class of units. -/
inductive ClassItem where
  | range (first last : CodeUnit)
  | digit (negated : Bool)
  | word (negated : Bool)
  | blank (negated : Bool)
deriving DecidableEq, Repr

def ClassItem.holds (u : CodeUnit) : ClassItem → Bool
  | range first last => first ≤ u && u ≤ last
  | digit negated => u.isDigit != negated
  | word negated => u.isWordUnit != negated
  | blank negated => u.isBlank != negated

/-- The units in one of the items, or in none of them if the class is negated. -/
structure UnitClass where
  negated : Bool
  items : List ClassItem
deriving DecidableEq, Repr

def UnitClass.holds (c : UnitClass) (u : CodeUnit) : Bool := (c.items.any (·.holds u)) != c.negated

/-- The class of a single unit. -/
def UnitClass.only (u : CodeUnit) : UnitClass := ⟨false, [.range u u]⟩

/-- Every unit that does not end a line. -/
def UnitClass.inLine : UnitClass :=
  ⟨true, [.range 10 10, .range 13 13, .range 0x2028 0x2029]⟩

/-- A regular expression. Groups are numbered from one in the order of their opening parentheses. -/
inductive Pattern where
  | empty
  | one (units : UnitClass)
  | sequence (p q : Pattern)
  | choice (p q : Pattern)
  | group (index : Nat) (p : Pattern)
  /-- Repeats `p`; the groups in it, `groups` many from number `first` on, are forgotten before each
  round. -/
  | repeated (p : Pattern) (min : Nat) (max : Option Nat) (greedy : Bool) (first groups : Nat)
  | start
  | finish
  | boundary (negated : Bool)
  | look (ahead negated : Bool) (p : Pattern)
  | back (index : Nat)
deriving DecidableEq, Repr

namespace Pattern

/-- A place between two units, with what the groups have matched so far. -/
structure Place where
  /-- The units before the place, the nearest first. -/
  behind : Text
  ahead : Text
  groups : List (Nat × Text) := []

namespace Place

/-- The place after one unit of the class, in the given direction. -/
def step? (forward : Bool) (units : UnitClass) (s : Place) : Option Place :=
  if forward then
    match s.ahead with
    | u :: rest =>
      if units.holds u then some { s with behind := u :: s.behind, ahead := rest } else none
    | [] => none
  else
    match s.behind with
    | u :: rest =>
      if units.holds u then some { s with behind := rest, ahead := u :: s.ahead } else none
    | [] => none

/-- The place after a text, in the given direction. -/
def over? (forward : Bool) (t : Text) (s : Place) : Option Place :=
  if forward then
    if t.isPrefixOf s.ahead then
      some { s with behind := t.reverse ++ s.behind, ahead := s.ahead.drop t.length }
    else none
  else
    if t.reverse.isPrefixOf s.behind then
      some { s with behind := s.behind.drop t.length, ahead := t ++ s.ahead }
    else none

/-- The text between two places of the same text, of which `s` was reached from `origin`. -/
def since (forward : Bool) (origin s : Place) : Text :=
  if forward then origin.ahead.take (origin.ahead.length - s.ahead.length)
  else s.ahead.take (s.ahead.length - origin.ahead.length)

/-- Whether a word starts or ends at the place. -/
def atBoundary (s : Place) : Bool :=
  s.behind.head?.any CodeUnit.isWordUnit != s.ahead.head?.any CodeUnit.isWordUnit

/-- The place without what the given groups have matched. -/
def forget (first groups : Nat) (s : Place) : Place :=
  { s with groups := s.groups.filter fun g ↦ g.1 < first || first + groups ≤ g.1 }

end Place

/-- Rounds of a repetition from a place on: at least `min`, at most `max`, and none without progress
beyond the least number. `bound` is more than the number of rounds that can follow. -/
def rounds (body : (Place → Option Place) → Place → Option Place) (greedy : Bool)
    (first groups : Nat) (done : Place → Option Place) : (bound min : Nat) → (max : Option Nat) →
    Place → Option Place
  | 0, _, _, _ => none
  | bound + 1, min, max, s =>
    if max = some 0 then done s
    else
      let again (_ : Unit) : Option Place :=
        body (fun s' ↦
            if min = 0 && s'.ahead.length == s.ahead.length then none
            else rounds body greedy first groups done bound (min - 1) (max.map (· - 1)) s')
          (s.forget first groups)
      if min ≠ 0 then again ()
      else if greedy then (again ()).or (done s)
      else (done s).or (again ())

/-- The first way, in order of preference, in which the pattern matches at a place and `done`
accepts the place where the match ends. -/
def run (forward : Bool) : Pattern → (done : Place → Option Place) → Place → Option Place
  | empty, done, s => done s
  | one units, done, s => (s.step? forward units).bind done
  | sequence p q, done, s =>
    if forward then run forward p (run forward q done) s else run forward q (run forward p done) s
  | choice p q, done, s => (run forward p done s).or (run forward q done s)
  | group index p, done, s =>
    run forward p (fun s' ↦ done { s' with groups := (index, s.since forward s') :: s'.groups }) s
  | repeated p min max greedy first groups, done, s =>
    rounds (run forward p) greedy first groups done (min + s.ahead.length + s.behind.length + 2) min
      max s
  | start, done, s => if s.behind.isEmpty then done s else none
  | finish, done, s => if s.ahead.isEmpty then done s else none
  | boundary negated, done, s => if s.atBoundary != negated then done s else none
  | look ahead negated p, done, s =>
    match run ahead p some s, negated with
    | some s', false => done { s with groups := s'.groups }
    | none, true => done s
    | _, _ => none
  | back index, done, s =>
    match s.groups.find? (·.1 == index) with
    | some (_, t) => (s.over? forward t).bind done
    | none => done s

/-- Whether the pattern matches from some place of `ahead` on, where `behind` is what comes
before. -/
def matchesFrom (p : Pattern) (behind : Text) : Text → Bool
  | [] => (p.run true some ⟨behind, [], []⟩).isSome
  | u :: rest =>
  (p.run true some ⟨behind, u :: rest, []⟩).isSome || matchesFrom p (u :: behind) rest

/-- Whether the pattern matches somewhere in the text. -/
def occursIn (p : Pattern) (t : Text) : Bool := p.matchesFrom [] t

end Pattern

end Declutter
