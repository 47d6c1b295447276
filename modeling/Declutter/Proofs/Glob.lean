import Declutter.Glob
import Declutter.Proofs.Pattern.Reading
import Declutter.Proofs.Text.Pieces
/-!
What patterns of paths mean. A pattern is read from left to right into parts, each as long as it can
be (`Glob.Reads`), and its parts generate a language (`Glob.language`). The expression that is made
of a pattern is valid for every pattern, and is read part by part (`Glob.ofText_expression`); it
matches the language of the parts (`Glob.generates?_eq`). So it is always known whether one of some
patterns speaks of a path (`Glob.isIgnored?_eq`).
-/

set_option autoImplicit false
set_option relaxedAutoImplicit false

open scoped Computability

namespace Declutter.Glob

/-! ### What patterns generate -/

/-- The texts without a line terminator. -/
def inLine : Language CodeUnit := {x | ∀ u ∈ x, u.isLineTerminator = false}

/-- The texts that a part of a pattern stands for. -/
def Token.language : Token → Language CodeUnit
  | folders => 1 + inLine * {[Path.separator]}
  | anything => inLine
  | run => {x | Path.separator ∉ x}
  | one => {x | ∃ u, u ≠ Path.separator ∧ x = [u]}
  | unit u => {[u]}

/-- The texts that the parts of a pattern generate one after the other. -/
def language (parts : List Token) : Language CodeUnit := (parts.map Token.language).prod

/-- A pattern is read from left to right into parts, each as long as it can be. -/
inductive Reads : Text → List Token → Prop where
  | nil : Reads [] []
  | folders {rest : Text} {parts : List Token} (h : Reads rest parts) :
      Reads ("**/" ++ rest) (.folders :: parts)
  | anything {rest : Text} {parts : List Token} (stops : rest.head? ≠ some Path.separator)
      (h : Reads rest parts) : Reads ("**" ++ rest) (.anything :: parts)
  | run {rest : Text} {parts : List Token} (stops : rest.head? ≠ some (CodeUnit.ofChar '*'))
      (h : Reads rest parts) : Reads ("*" ++ rest) (.run :: parts)
  | one {rest : Text} {parts : List Token} (h : Reads rest parts) :
      Reads ("?" ++ rest) (.one :: parts)
  | unit {u : CodeUnit} {rest : Text} {parts : List Token} (star : u ≠ CodeUnit.ofChar '*')
      (mark : u ≠ CodeUnit.ofChar '?') (h : Reads rest parts) : Reads (u :: rest) (.unit u :: parts)

theorem head?_ne {u : CodeUnit} {t : Text} (h : ∀ rest, t = u :: rest → False) : t.head? ≠ some u :=
  fun hhead ↦ by
  obtain ⟨rest, hrest⟩ := List.head?_eq_some_iff.mp hhead
  exact h rest hrest

theorem reads_tokens (pattern : Text) : Reads pattern (tokens pattern) := by
  fun_induction tokens pattern with
  | case1 rest ih => exact .folders ih
  | case2 rest hseparator ih => exact .anything (head?_ne hseparator) ih
  | case3 rest hfolders hstar ih => exact .run (head?_ne hstar) ih
  | case4 rest ih => exact .one ih
  | case5 u rest hfolders hanything hstar hmark ih => exact .unit hstar hmark ih
  | case6 => exact .nil

theorem tokens_anything {rest : Text} (h : rest.head? ≠ some Path.separator) :
    tokens ("**" ++ rest) = .anything :: tokens rest := by
  show tokens (42 :: 42 :: rest) = _
  rw [tokens]
  rintro after rfl
  exact h rfl

theorem tokens_run {rest : Text} (h : rest.head? ≠ some (CodeUnit.ofChar '*')) :
    tokens ("*" ++ rest) = .run :: tokens rest := by
  show tokens (42 :: rest) = _
  rw [tokens]
  · rintro after rfl
    exact h rfl
  · rintro after rfl
    exact h rfl

theorem tokens_unit {u : CodeUnit} {rest : Text} (star : u ≠ CodeUnit.ofChar '*')
    (mark : u ≠ CodeUnit.ofChar '?') : tokens (u :: rest) = .unit u :: tokens rest := by
  rw [tokens]
  · exact fun _ hu ↦ absurd hu star
  · exact fun _ hu ↦ absurd hu star
  · exact star
  · exact mark

theorem Reads.eq_tokens {pattern : Text} {parts : List Token} (h : Reads pattern parts) :
    parts = tokens pattern := by
  induction h with
  | nil => rfl
  | folders _ ih => rw [ih]; rfl
  | anything stops _ ih => rw [ih, tokens_anything stops]
  | run stops _ ih => rw [ih, tokens_run stops]
  | one _ ih => rw [ih]; rfl
  | unit star mark _ ih => rw [ih, tokens_unit star mark]

/-! ### The expression of a pattern -/

open Pattern

/-- The class of all units but the separator. -/
def inSegment : UnitClass := ⟨true, [.range Path.separator Path.separator]⟩

/-- The pattern that the expression of a part writes. -/
def Token.pattern : Token → Pattern
  | folders =>
    .repeated (chain .empty [.repeated (.one .inLine) 0 none true 1 0, .one (.only Path.separator)])
      0 (some 1) true 1 0
  | anything => .repeated (.one .inLine) 0 none true 1 0
  | run => .repeated (.one inSegment) 0 none true 1 0
  | one => .one inSegment
  | unit u => .one (.only u)

/-- A part that patterns can have: stars and question marks have a meaning of their own. -/
def Token.IsPart (p : Token) : Prop :=
  p ≠ .unit (CodeUnit.ofChar '*') ∧ p ≠ .unit (CodeUnit.ofChar '?')

theorem isWordUnit_of_isSpecial {u : CodeUnit} (h : isSpecial u = true) : u.isWordUnit = false := by
  have hall : (".+^$\x7b\x7d()|[]\\" : Text).all (!CodeUnit.isWordUnit ·) = true := by decide
  have hu := List.all_eq_true.mp hall u (List.contains_iff_mem.mp h)
  rwa [Bool.not_eq_true'] at hu

theorem not_mem_marks {u : CodeUnit} (h : isSpecial u = false) (star : u ≠ CodeUnit.ofChar '*')
    (mark : u ≠ CodeUnit.ofChar '?') : u ∉ Pattern.marks := by
  have hall : Pattern.marks.all
      (fun v ↦ isSpecial v || v == CodeUnit.ofChar '*' || v == CodeUnit.ofChar '?') = true := by
        decide
  intro hu
  have hmark := List.all_eq_true.mp hall u hu
  rw [Bool.or_eq_true, Bool.or_eq_true, beq_iff_eq, beq_iff_eq, h] at hmark
  rcases hmark with (hspecial | hstar) | hmark
  · cases hspecial
  · exact star hstar
  · exact mark hmark

theorem isTerm_anything : IsTerm 0 ".*" Token.anything.pattern := isAtom_dot.star

theorem isTerm_expression {p : Token} (h : p.IsPart) : IsTerm 1 p.expression p.pattern := by
  cases p with
  | folders =>
    have hinner : List.Forall₂ (IsTerm 0) [".*", "/"]
        [Token.anything.pattern, .one (.only Path.separator)] :=
      .cons isTerm_anything (.cons (isAtom_unit (by decide)).isTerm .nil)
    exact (isAtom_group hinner).optional
  | anything => exact isTerm_anything.mono (Nat.zero_le 1)
  | run => exact isAtom_class.star.mono (Nat.zero_le 1)
  | one => exact isAtom_class.isTerm.mono (Nat.zero_le 1)
  | unit u =>
    refine IsTerm.mono ?_ (Nat.zero_le 1)
    rw [Token.expression]
    split_ifs with hspecial
    · exact (isAtom_escaped (isWordUnit_of_isSpecial hspecial)).isTerm
    · exact (isAtom_unit (not_mem_marks (Bool.eq_false_iff.mpr hspecial) (fun hu ↦ h.1 (hu ▸ rfl))
        (fun hu ↦ h.2 (hu ▸ rfl)))).isTerm

theorem Reads.isPart {pattern : Text} {parts : List Token} (h : Reads pattern parts) :
    ∀ p ∈ parts, p.IsPart := by
  induction h with
  | nil => exact fun _ hp ↦ (List.not_mem_nil hp).elim
  | folders _ ih => exact List.forall_mem_cons.mpr ⟨⟨nofun, nofun⟩, ih⟩
  | anything _ _ ih => exact List.forall_mem_cons.mpr ⟨⟨nofun, nofun⟩, ih⟩
  | run _ _ ih => exact List.forall_mem_cons.mpr ⟨⟨nofun, nofun⟩, ih⟩
  | one _ ih => exact List.forall_mem_cons.mpr ⟨⟨nofun, nofun⟩, ih⟩
  | unit star mark _ ih =>
    exact List.forall_mem_cons.mpr
      ⟨⟨fun h ↦ star (Token.unit.inj h), fun h ↦ mark (Token.unit.inj h)⟩, ih⟩

/-- The expression of a pattern is valid, and it is read part by part. -/
theorem ofText_expression (pattern : Text) : Pattern.ofText (expression pattern) =
    .ok
      (.sequence (chain (.sequence .empty .start) ((tokens pattern).map Token.pattern))
        .finish) := by
  have hparts : List.Forall₂ (IsTerm 1) ((tokens pattern).map Token.expression)
      ((tokens pattern).map Token.pattern) := by
    rw [List.forall₂_map_left_iff, List.forall₂_map_right_iff, List.forall₂_same]
    exact fun p hp ↦ isTerm_expression ((reads_tokens pattern).isPart p hp)
  have hterms : List.Forall₂ (IsTerm 1)
    ([("^" : Text)] ++ (tokens pattern).map Token.expression ++ [("$" : Text)])
      ([.start] ++ (tokens pattern).map Token.pattern ++ [.finish]) :=
    List.rel_append (List.rel_append (.cons (isTerm_start.mono (Nat.zero_le 1)) .nil) hparts)
      (.cons (isTerm_finish.mono (Nat.zero_le 1)) .nil)
  have hflatten :
    ([("^" : Text)] ++ (tokens pattern).map Token.expression ++ [("$" : Text)]).flatten =
      expression pattern := by
    rw [List.flatten_append, List.flatten_append, List.flatten_singleton, List.flatten_singleton,
      ← List.flatMap_def, expression]
  have hread := ofText_flatten hterms (by rw [hflatten]; exact Nat.le_add_left 1 _)
  rw [hflatten] at hread
  rw [hread, chain, List.foldl_append, List.foldl_append]
  rfl

/-! ### Its language -/

theorem holds_inSegment (u : CodeUnit) : inSegment.holds u = true ↔ u ≠ Path.separator :=
  UnitClass.holds_except Path.separator u

theorem recognizes_anything : Token.anything.pattern.Recognizes inLine := by
  have hlanguage : UnitClass.inLine.language∗ = inLine := by
    ext x
    rw [UnitClass.mem_kstar_language]
    simp only [UnitClass.holds_inLine]
    rfl
  rw [← hlanguage]
  exact (recognizes_one _).star (UnitClass.nil_not_mem_language _) 1

theorem Token.recognizes_pattern (p : Token) : p.pattern.Recognizes p.language := by
  cases p with
  | folders =>
    have hinner :=
      recognizes_empty.chain
        (.cons recognizes_anything (.cons (recognizes_only Path.separator) .nil))
    rw [List.prod_cons, List.prod_singleton, one_mul] at hinner
    refine hinner.optional (fun hnil ↦ ?_) 1
    obtain ⟨x, -, y, hy, hxy⟩ := Language.mem_mul.mp hnil
    obtain rfl : y = [Path.separator] := hy
    exact List.append_ne_nil_of_right_ne_nil x (List.cons_ne_nil _ _) hxy
  | anything => exact recognizes_anything
  | run =>
    have hlanguage : inSegment.language∗ = Token.run.language := by
      ext x
      rw [UnitClass.mem_kstar_language]
      simp only [holds_inSegment]
      exact ⟨fun h hmem ↦ h _ hmem rfl, fun h u hu heq ↦ h (heq ▸ hu)⟩
    rw [← hlanguage]
    exact (recognizes_one _).star (UnitClass.nil_not_mem_language _) 1
  | one =>
    have hlanguage : inSegment.language = Token.one.language := by
      ext x
      exact exists_congr fun u ↦ and_congr_left' (holds_inSegment u)
    rw [← hlanguage]
    exact recognizes_one _
  | unit u => exact recognizes_only u

/-- A wildcard pattern matches what it generates. -/
theorem generates?_eq (pattern : Text) (path : Path) :
    ∃ answer, generates? pattern path = .ok answer ∧
    (answer = true ↔ subject pattern path ∈ language (tokens pattern)) := by
  have hparts : List.Forall₂ Recognizes ((tokens pattern).map Token.pattern)
      ((tokens pattern).map Token.language) := by
    rw [List.forall₂_map_left_iff, List.forall₂_map_right_iff, List.forall₂_same]
    exact fun p _ ↦ p.recognizes_pattern
  have hchain := recognizes_empty.chain hparts
  rw [one_mul] at hchain
  rw [generates?, ofText_expression]
  exact ⟨_, rfl, occursIn_chain_iff hchain _⟩

/-! ### Patterns that speak of a path -/

/-- The pattern speaks of the relative path. -/
inductive Speaks (pattern : Text) (path : Path) : Prop where
  /-- It is one of the segments. -/
  | segment (h : pattern ∈ path.pieces)
  /-- Without one separator at its end, it is the path or that of a directory above. -/
  | place {bare : Text} (bared : pattern = bare ++ [Path.separator] ∨
      pattern = bare ∧ pattern.getLast? ≠ some Path.separator)
      (h : path = bare ∨ ∃ below, path = bare ++ Path.separator :: below)
  /-- It has a wildcard and a separator, and generates the path. -/
  | whole {parts : List Token}
      (wild : CodeUnit.ofChar '*' ∈ pattern ∨ CodeUnit.ofChar '?' ∈ pattern)
        (separated : Path.separator ∈ pattern) (reads : Reads pattern parts)
          (h : path ∈ language parts)
  /-- It has a wildcard and no separator, and generates the last segment. -/
  | last {parts : List Token} {last : Text}
      (wild : CodeUnit.ofChar '*' ∈ pattern ∨ CodeUnit.ofChar '?' ∈ pattern)
        (whole : Path.separator ∉ pattern) (reads : Reads pattern parts)
          (ends : path.pieces.getLast? = some last)
      (h : last ∈ language parts)

theorem bare_eq_iff {pattern t : Text} : bare pattern = t ↔
    pattern = t ++ [Path.separator] ∨ pattern = t ∧ pattern.getLast? ≠ some Path.separator := by
  rw [bare]
  by_cases hlast : pattern.getLast? = some Path.separator
  · obtain ⟨s, rfl⟩ := List.getLast?_eq_some_iff.mp hlast
    rw [if_pos (beq_iff_eq.mpr hlast), List.dropLast_concat, List.append_cancel_right_eq,
      or_iff_left fun h ↦ h.2 hlast]
  · rw [if_neg fun h ↦ hlast (beq_iff_eq.mp h), and_iff_left hlast, iff_or_self]
    rintro rfl
    exact absurd (List.getLast?_concat ..) hlast

theorem covers_iff {pattern : Text} {path : Path} : covers pattern path = true ↔
    path = bare pattern ∨ ∃ below, path = bare pattern ++ Path.separator :: below := by
  rw [covers, Bool.or_eq_true, beq_iff_eq, List.isPrefixOf_iff_prefix]
  refine or_congr_right (exists_congr fun below ↦ ?_)
  rw [List.append_assoc, List.singleton_append, eq_comm]

theorem isWild_iff {pattern : Text} :
    isWild pattern = true ↔ CodeUnit.ofChar '*' ∈ pattern ∨ CodeUnit.ofChar '?' ∈ pattern := by
  rw [isWild, Bool.or_eq_true, List.contains_iff_mem, List.contains_iff_mem]
  rfl

theorem speaks_iff {pattern : Text} {path : Path} : Speaks pattern path ↔
    (pattern ∈ path.pieces ∨ covers pattern path = true) ∨
      isWild pattern = true ∧ subject pattern path ∈ language (tokens pattern) := by
  rw [covers_iff, isWild_iff, subject]
  constructor
  · intro h
    cases h with
    | segment h => exact .inl (.inl h)
    | place bared h => exact .inl (.inr (bare_eq_iff.mpr bared ▸ h))
    | whole wild separated reads h =>
      rw [if_pos (List.contains_iff_mem.mpr separated), ← reads.eq_tokens]
      exact .inr ⟨wild, h⟩
    | last wild whole reads ends h =>
      rw [if_neg fun hmem ↦ whole (List.contains_iff_mem.mp hmem), ← reads.eq_tokens, ends]
      exact .inr ⟨wild, h⟩
  · rintro ((h | h) | ⟨wild, h⟩)
    · exact .segment h
    · exact .place (bare_eq_iff.mp rfl) h
    · split_ifs at h with hseparator
      · exact .whole wild (List.contains_iff_mem.mp hseparator) (reads_tokens pattern) h
      · have hends : path.pieces.getLast? = some (path.pieces.getLast (Text.splitOn_ne_nil _ _)) :=
          List.getLast?_eq_some_getLast _
        rw [hends] at h
        exact .last wild (fun hmem ↦ hseparator (List.contains_iff_mem.mpr hmem))
          (reads_tokens pattern) hends h

theorem applies?_eq (pattern : Text) (path : Path) :
    ∃ answer, applies? path pattern = .ok answer ∧ (answer = true ↔ Speaks pattern path) := by
  rw [speaks_iff, applies?]
  split_ifs with hplace hwild
  · rw [Bool.or_eq_true, List.contains_iff_mem] at hplace
    exact ⟨true, rfl, iff_of_true rfl (.inl hplace)⟩
  · rw [Bool.or_eq_true, List.contains_iff_mem] at hplace
    obtain ⟨answer, heq, hanswer⟩ := generates?_eq pattern path
    exact ⟨answer, heq, by rw [or_iff_right hplace, and_iff_right hwild, hanswer]⟩
  · rw [Bool.or_eq_true, List.contains_iff_mem] at hplace
    exact ⟨false, rfl, iff_of_false Bool.false_ne_true (not_or.mpr ⟨hplace, fun h ↦ hwild h.1⟩)⟩

theorem isIgnored?_eq (patterns : List Text) (path : Path) :
    ∃ answer, isIgnored? patterns path = .ok answer ∧
    (answer = true ↔ ∃ pattern ∈ patterns, Speaks pattern path) := by
  induction patterns with
  | nil => exact ⟨false, rfl, by simp⟩
  | cons pattern rest ih =>
    obtain ⟨first, hfirst, hspeaks⟩ := applies?_eq pattern path
    rw [isIgnored?, hfirst]
    cases first with
    | true => exact ⟨true, rfl, iff_of_true rfl ⟨pattern, List.mem_cons_self, hspeaks.mp rfl⟩⟩
    | false =>
      obtain ⟨answer, heq, hanswer⟩ := ih
      refine ⟨answer, heq, ?_⟩
      rw [hanswer, List.exists_mem_cons_iff, or_iff_right fun h ↦
        Bool.false_ne_true (hspeaks.mpr h)]

/-- Whether one of the patterns speaks of a relative path always is answered, and rightly. -/
theorem isIgnored_iff (patterns : List Text) (path : Path) :
    isIgnored? patterns path = .ok (isIgnored patterns path) ∧
      (isIgnored patterns path = true ↔ ∃ pattern ∈ patterns, Speaks pattern path) := by
  obtain ⟨answer, heq, hanswer⟩ := isIgnored?_eq patterns path
  rw [isIgnored, heq]
  exact ⟨rfl, hanswer⟩

end Declutter.Glob
