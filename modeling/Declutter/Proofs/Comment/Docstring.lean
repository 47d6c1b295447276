import Declutter.Proofs.Comment.Code
import Declutter.Proofs.Python.Node
/-!
The docstrings of a program. A `Program.Block` is what the scan for docstrings has to know of a
Python program: statements on lines, with headers before some of them, in blocks. Blank lines,
comments and continuations may stand anywhere. The tree says which literals are docstrings
(`Program.Block.passages`): those that are, by themselves, the first statement of the module or of
the body of a definition.

The scan does without a tree. It finds the docstrings of the program and makes one too many of each
statement that ends in a colon and a literal in a one-line body of a definition
(`Program.Block.exceeds_found`), so that it is right exactly if there are none
(`Text.passages_program`). An annotation is such a statement (`Text.passages_mistakes_annotation`).
-/

set_option autoImplicit false
set_option relaxedAutoImplicit false

namespace Declutter

open Passage

namespace Program

/-! ### Programs -/

/-- Comments, blanks and continuations. -/
structure Trivia where
  lexemes : List Lexeme
  isTrivia : lexemes.all (·.kind.isTrivia) = true

/-- A statement that holds no block. It has code, which does not end in a colon. -/
structure Simple where
  lexemes : List Lexeme
  closes : closes 0 lexemes = true
  ends : (codeKinds lexemes).getLast?.any (· != .symbol (CodeUnit.ofChar ':')) = true

/-- A line of statements with semicolons between them, and perhaps one more after the last. -/
inductive Line where
  | last (s : Simple)
  | closed (s : Simple) (gap : Trivia)
  | more (s : Simple) (rest : Line)

/-- What makes the header of a definition: `def`, `async` and `def`, or `class`. -/
inductive Opener where
  | function
  | coroutine (gap : Trivia)
  | classDefinition

/-- The header of a block, up to its colon: of a definition, or of another compound statement. -/
structure Header where
  indentation : Trivia
  opener : Option Opener
  lexemes : List Lexeme
  closes : closes 0 lexemes = true

mutual

/-- A line of statements, a header with a line of statements behind it, or a header with a block
below it. A decorator is a line for itself, and so is a clause such as `else` with its block. -/
inductive Statement where
  | simple (line : Line)
  | oneLine (header : Header) (body : Line)
  | suite (header : Header) (gap : Trivia) (blanks : List Trivia) (first : Statement)
      (others : Block)

/-- Statements and blank lines. -/
inductive Block where
  | nil
  | blank (line : Trivia) (rest : Block)
  | more (s : Statement) (rest : Block)

end

/-! ### Their lexemes -/

def semicolon : Lexeme := ⟨.symbol (CodeUnit.ofChar ';'), ";"⟩

def colon : Lexeme := ⟨.symbol (CodeUnit.ofChar ':'), ":"⟩

def newline : Lexeme := ⟨.newline, "\n"⟩

def Line.lexemes : Line → List Lexeme
  | .last s => s.lexemes
  | .closed s gap => s.lexemes ++ semicolon :: gap.lexemes
  | .more s rest => s.lexemes ++ semicolon :: rest.lexemes

def Opener.lexemes : Opener → List Lexeme
  | .function => [⟨.word, "def"⟩]
  | .coroutine gap => ⟨.word, "async"⟩ :: (gap.lexemes ++ [⟨.word, "def"⟩])
  | .classDefinition => [⟨.word, "class"⟩]

/-- The lexemes of a header before its colon. -/
def Header.start (h : Header) : List Lexeme :=
  h.indentation.lexemes ++ (h.opener.elim [] Opener.lexemes ++ h.lexemes)

def Header.isDefinition (h : Header) : Bool := h.opener.isSome

def blankLines (lines : List Trivia) : List Lexeme := lines.flatMap (·.lexemes ++ [newline])

mutual

def Statement.lexemes : Statement → List Lexeme
  | .simple line => line.lexemes ++ [newline]
  | .oneLine header body => header.start ++ colon :: (body.lexemes ++ [newline])
  | .suite header gap blanks first others =>
    header.start ++ colon ::
    (gap.lexemes ++ newline :: (blankLines blanks ++ (first.lexemes ++ others.lexemes)))

def Block.lexemes : Block → List Lexeme
  | .nil => []
  | .blank line rest => line.lexemes ++ newline :: rest.lexemes
  | .more s rest => s.lexemes ++ rest.lexemes

end

/-! ### Their comments and literals -/

/-- The comments and literals of a line. Its first statement is a docstring if it stands in the
place of one and is a literal. -/
def Line.passages (isFirst : Bool) : Line → List (PassageKind × Text)
  | .last s => ofStatement (isFirst && isLone s.lexemes) s.lexemes
  | .closed s gap =>
    ofStatement (isFirst && isLone s.lexemes) s.lexemes ++ ofStatement false gap.lexemes
  | .more s rest => ofStatement (isFirst && isLone s.lexemes) s.lexemes ++ rest.passages false

mutual

/-- The comments and literals of a statement, which is the first one of the module or of the body of
a definition if `isFirst` says so. -/
def Statement.passages (isFirst : Bool) : Statement → List (PassageKind × Text)
  | .simple line => line.passages isFirst
  | .oneLine header body => ofStatement false header.start ++ body.passages header.isDefinition
  | .suite header gap blanks first others =>
    ofStatement false header.start ++
    (ofStatement false gap.lexemes ++ (ofStatement false (blankLines blanks) ++
      (first.passages header.isDefinition ++ others.passages false)))

/-- The comments and literals of a block. -/
def Block.passages (isFirst : Bool) : Block → List (PassageKind × Text)
  | .nil => []
  | .blank line rest => ofStatement false line.lexemes ++ rest.passages isFirst
  | .more s rest => s.passages isFirst ++ rest.passages false

end

/-- How many statements of a line end in a colon and a literal. -/
def Line.annotations : Line → Nat
  | .last s => (isAnnotated s.lexemes).toNat
  | .closed s _ => (isAnnotated s.lexemes).toNat
  | .more s rest => (isAnnotated s.lexemes).toNat + rest.annotations

mutual

/-- How many statements in one-line bodies of definitions end in a colon and a literal. -/
def Statement.annotations : Statement → Nat
  | .simple _ => 0
  | .oneLine header body => if header.isDefinition then body.annotations else 0
  | .suite _ _ _ first others => first.annotations + others.annotations

def Block.annotations : Block → Nat
  | .nil => 0
  | .blank _ rest => rest.annotations
  | .more s rest => s.annotations + rest.annotations

end

/-! ### Docstrings too many -/

/-- The first list is the second one, but that as many literals as the number says are docstrings in
the first one. -/
inductive Exceeds : List (PassageKind × Text) → List (PassageKind × Text) → Nat → Prop
  | nil : Exceeds [] [] 0
  | same {xs ys : List (PassageKind × Text)} {n : Nat} (x : PassageKind × Text)
      (h : Exceeds xs ys n) :
      Exceeds (x :: xs) (x :: ys) n
  | docstring {xs ys : List (PassageKind × Text)} {n : Nat} (t : Text) (h : Exceeds xs ys n) :
      Exceeds ((.docstring, t) :: xs) ((.literal, t) :: ys) (n + 1)

theorem exceeds_refl (xs : List (PassageKind × Text)) : Exceeds xs xs 0 := by
  induction xs with
  | nil => exact .nil
  | cons x xs ih => exact .same x ih

theorem Exceeds.append {xs ys xs' ys' : List (PassageKind × Text)} {m n : Nat} (h : Exceeds xs ys m)
    (h' : Exceeds xs' ys' n) : Exceeds (xs ++ xs') (ys ++ ys') (m + n) := by
  induction h with
  | nil => rwa [Nat.zero_add]
  | same x _ ih => exact .same x ih
  | @docstring _ _ m t _ ih =>
    rw [Nat.add_right_comm]
    exact .docstring t ih

theorem Exceeds.append_left (zs : List (PassageKind × Text)) {xs ys : List (PassageKind × Text)}
    {n : Nat} (h : Exceeds xs ys n) : Exceeds (zs ++ xs) (zs ++ ys) n := by
  have happend := (exceeds_refl zs).append h
  rwa [Nat.zero_add] at happend

/-- The lists are the same if no docstring is too many, and only then. -/
theorem Exceeds.eq_iff {xs ys : List (PassageKind × Text)} {n : Nat} (h : Exceeds xs ys n) :
    xs = ys ↔ n = 0 := by
  induction h with
  | nil => exact ⟨fun _ ↦ rfl, fun _ ↦ rfl⟩
  | same x _ ih => rw [List.cons_inj_right, ih]
  | docstring t _ _ => exact ⟨fun heq ↦ by simp at heq, fun heq ↦ absurd heq (Nat.succ_ne_zero _)⟩

section Statement

variable {xs : List Lexeme}

/-- A statement with a literal at the end of its code has one docstring more if this is one. -/
theorem exceeds_ofStatement (h : (codeKinds xs).getLast? = some .literal) :
    Exceeds (ofStatement true xs) (ofStatement false xs) 1 := by
  induction xs with
  | nil => exact nomatch h
  | cons x xs ih =>
    have hlater : ∀ k : LexemeKind, k ≠ .literal → (k :: codeKinds xs).getLast? = some .literal →
        (codeKinds xs).getLast? = some .literal := by
      intro k hk hlast
      rw [List.getLast?_cons] at hlast
      cases hks : (codeKinds xs).getLast? with
      | none =>
        rw [hks] at hlast
        exact absurd (Option.some.inj hlast) hk
      | some k' => rwa [hks] at hlast
    rw [codeKinds_cons] at h
    obtain ⟨kind, text⟩ := x
    cases kind with
    | comment => exact .same _ (ih h)
    | blank => exact ih h
    | continuation => exact ih h
    | newline => exact ih h
    | word => exact ih (hlater _ (by simp) h)
    | symbol u => exact ih (hlater _ (by simp) h)
    | literal =>
      rw [ofStatement, ofStatement]
      by_cases hnil : codeKinds xs = []
      · rw [hnil, ofStatement_of_codeKinds_eq_nil hnil true false]
        exact .docstring text (exceeds_refl _)
      · have hempty : (codeKinds xs).isEmpty = false := by
          rw [List.isEmpty_eq_false_iff]; exact hnil
        have hlast : (codeKinds xs).getLast? = some .literal := by
          rw [← h]
          exact (List.getLast?_cons_of_ne_nil hnil).symm
        rw [hempty]
        exact .same _ (ih hlast)

theorem getLast?_of_isAnnotated (h : isAnnotated xs = true) :
    (codeKinds xs).getLast? = some .literal := by
  rw [isAnnotated, List.isSuffixOf_iff_suffix] at h
  obtain ⟨ks, hks⟩ := h
  rw [← hks, List.getLast?_append]
  rfl

/-- A literal that is all of the code has no colon before it. -/
theorem isAnnotated_eq_false_of_isLone (h : isLone xs = true) : isAnnotated xs = false := by
  rw [isAnnotated, beq_iff_eq.mp h]
  rfl

/-- What the scan finds in a statement exceeds what is in it by an annotation behind the header of a
definition. -/
theorem exceeds_verdict (isFirst closed : Bool) :
    Exceeds (ofStatement (isFirst && isLone xs || closed && isAnnotated xs) xs)
      (ofStatement (isFirst && isLone xs) xs) (if closed then (isAnnotated xs).toNat else 0) := by
  cases hannotated : isAnnotated xs with
  | false =>
    rw [Bool.and_false, Bool.or_false, Bool.toNat_false, ite_self]
    exact exceeds_refl _
  | true =>
    have hlone : isLone xs = false := Bool.eq_false_iff.mpr fun hlone ↦ by
      rw [isAnnotated_eq_false_of_isLone hlone] at hannotated
      exact Bool.noConfusion hannotated
    rw [hlone, Bool.and_false, Bool.false_or, Bool.and_true]
    cases closed with
    | false => exact exceeds_refl _
    | true => exact exceeds_ofStatement (getLast?_of_isAnnotated hannotated)

end Statement

/-! ### The scan of a program -/

/-- The state of the scan at the start of a line. -/
def atLine (opensBody : Bool) : State := { opensBody }

variable {s : State} {rest : List Lexeme}

/-- Comments, blanks and continuations leave the state of the scan as it is. -/
theorem found_trivia (s : State) (t : Trivia) (rest : List Lexeme) :
    t.lexemes.foldl State.step s = s ∧
      found s (t.lexemes ++ rest) = ofStatement false t.lexemes ++ found s rest := by
  obtain ⟨xs, hxs⟩ := t
  induction xs with
  | nil => exact ⟨rfl, rfl⟩
  | cons x xs ih =>
    rw [List.all_cons, Bool.and_eq_true] at hxs
    obtain ⟨hstate, hfound⟩ := ih hxs.2
    obtain ⟨kind, text⟩ := x
    cases kind with
    | comment => exact ⟨hstate, congrArg _ hfound⟩
    | blank => exact ⟨hstate, hfound⟩
    | continuation => exact ⟨hstate, hfound⟩
    | newline => exact Bool.noConfusion hxs.1
    | literal => exact Bool.noConfusion hxs.1
    | word => exact Bool.noConfusion hxs.1
    | symbol => exact Bool.noConfusion hxs.1

theorem Simple.closes_of_depth (t : Simple) (hdepth : s.depth = 0) :
    Passage.closes s.depth t.lexemes = true :=
  hdepth ▸ t.closes

/-- Behind a line of statements no bracket is open, and there was code that does not end in a
colon. -/
theorem Line.foldl_step (l : Line) (hdepth : s.depth = 0) :
    (l.lexemes.foldl State.step s).depth = 0 ∧ (l.lexemes.foldl State.step s).line.size ≠ 0 ∧
      (l.lexemes.foldl State.step s).line.afterColon = false := by
  induction l generalizing s with
  | last t =>
    obtain ⟨hreads, hzero⟩ := State.reads_foldl (t.closes_of_depth hdepth)
    have hends := t.ends
    have hsize := hreads.size_eq
    have hcolon := hreads.afterColon_eq
    rw [Option.any_eq_true] at hends
    obtain ⟨k, hk, hne⟩ := hends
    have hpos := List.length_pos_of_mem (List.mem_of_getLast? hk)
    rw [hk, Option.map_some, Option.getD_some, beq_eq_false_iff_ne.mpr (bne_iff_ne.mp hne)]
      at hcolon
    exact ⟨hzero, by rw [Line.lexemes]; omega, hcolon⟩
  | closed t gap =>
    obtain ⟨-, hzero⟩ := State.reads_foldl (t.closes_of_depth hdepth)
    rw [Line.lexemes, List.foldl_append, List.foldl_cons, (found_trivia _ gap []).1]
    exact ⟨hzero, Nat.succ_ne_zero _, rfl⟩
  | more t l ih =>
    obtain ⟨-, hzero⟩ := State.reads_foldl (t.closes_of_depth hdepth)
    rw [Line.lexemes, List.foldl_append, List.foldl_cons]
    exact ih hzero

/-- A line feed behind the code of a line ends the line. -/
theorem found_newline_of_code (hdepth : s.depth = 0) (hsize : s.line.size ≠ 0)
    (rest : List Lexeme) :
    found s (newline :: rest) =
      found (atLine (s.line.opensDefinition && s.line.afterColon)) rest := by
  have hstep : s.step newline = atLine (s.line.opensDefinition && s.line.afterColon) := by
    change (if s.depth = 0 then s.endLine else s) = _
    rw [if_pos hdepth, State.endLine, if_neg hsize, hdepth]
    rfl
  rw [found, hstep]
  rfl

/-- Behind a line of statements, the next line does not start a body. -/
theorem Line.found_newline (l : Line) (hdepth : s.depth = 0) (rest : List Lexeme) :
    found (l.lexemes.foldl State.step s) (newline :: rest) = found (atLine false) rest := by
  obtain ⟨hzero, hsize, hcolon⟩ := l.foldl_step hdepth
  rw [found_newline_of_code hzero hsize, hcolon, Bool.and_false]

/-- What the scan finds in a statement. -/
theorem Simple.exists_found (t : Simple) (hdepth : s.depth = 0) (hsteady : s.line.IsSteady)
    (hrest : endsStatement 0 rest = true) :
    ∃ zs, found s (t.lexemes ++ rest) = zs ++ found (t.lexemes.foldl State.step s) rest ∧
      Exceeds zs (ofStatement (s.opensDocstring && isLone t.lexemes) t.lexemes)
        (if s.line.headerClosed then (isAnnotated t.lexemes).toNat else 0) := by
  have hfound := @found_append s _ rest (t.closes_of_depth hdepth) (.inl hsteady)
  rw [hrest, Bool.true_and] at hfound
  exact ⟨_, hfound, exceeds_verdict _ _⟩

/-- What the scan finds in a line of statements. -/
theorem Line.exists_found (l : Line) (hdepth : s.depth = 0) (hsteady : s.line.IsSteady)
    (hrest : endsStatement 0 rest = true) :
    ∃ zs, found s (l.lexemes ++ rest) = zs ++ found (l.lexemes.foldl State.step s) rest ∧
      Exceeds zs (l.passages s.opensDocstring)
        (if s.line.headerClosed then l.annotations else 0) := by
  induction l generalizing s with
  | last t => exact t.exists_found hdepth hsteady hrest
  | closed t gap =>
    have hends : endsStatement 0 (semicolon :: (gap.lexemes ++ rest)) = true := rfl
    obtain ⟨zs, hfound, hexceeds⟩ := t.exists_found hdepth hsteady hends
    obtain ⟨hstate, hgap⟩ := found_trivia ((t.lexemes.foldl State.step s).step semicolon) gap rest
    refine ⟨zs ++ ofStatement false gap.lexemes, ?_, hexceeds.append (exceeds_refl _)⟩
    rw [Line.lexemes, List.append_assoc, List.cons_append, hfound, List.foldl_append,
      List.foldl_cons, hstate, List.append_assoc, ← hgap]
    rfl
  | more t l ih =>
    have hends : endsStatement 0 (semicolon :: (l.lexemes ++ rest)) = true := rfl
    obtain ⟨zs, hfound, hexceeds⟩ := t.exists_found hdepth hsteady hends
    obtain ⟨hreads, hzero⟩ := State.reads_foldl (t.closes_of_depth hdepth)
    -- behind the semicolon, no literal is in the place of a docstring
    have hgrows := hreads.grows.trans
      (State.reads_symbol (t.lexemes.foldl State.step s) (CodeUnit.ofChar ';') ";").grows
    obtain ⟨zs', hfound', hexceeds'⟩ :=
      @ih ((t.lexemes.foldl State.step s).step semicolon) hzero (hgrows.isSteady hsteady)
    have hopens : ((t.lexemes.foldl State.step s).step semicolon).opensDocstring = false :=
      (if_neg (Nat.succ_ne_zero _)).trans (Bool.and_false _)
    have hclosed : ((t.lexemes.foldl State.step s).step semicolon).line.headerClosed =
        s.line.headerClosed :=
      hgrows.headerClosed_eq hsteady
    rw [hopens, hclosed] at hexceeds'
    have hboth := hexceeds.append hexceeds'
    refine ⟨zs ++ zs', ?_, ?_⟩
    · rw [Line.lexemes, List.append_assoc, List.cons_append, hfound, List.foldl_append,
        List.foldl_cons, List.append_assoc, ← hfound']
      rfl
    · rw [Line.passages, Line.annotations]
      cases hcase : s.line.headerClosed with
      | false => simpa [hcase] using hboth
      | true => simpa [hcase] using hboth

/-- The state of the scan behind the colon of a header. -/
structure IsBehindHeader (h : Header) (s : State) : Prop where
  depth_eq : s.depth = 0
  size_ne : s.line.size ≠ 0
  afterColon_eq : s.line.afterColon = true
  headerClosed_eq : s.line.headerClosed = h.isDefinition
  opensDefinition_eq : s.line.opensDefinition = h.isDefinition
  isSteady : s.line.IsSteady

theorem IsBehindHeader.opensDocstring_eq {h : Header} (hs : IsBehindHeader h s) :
    s.opensDocstring = h.isDefinition := by
  rw [State.opensDocstring, if_neg hs.size_ne, hs.headerClosed_eq, hs.afterColon_eq, Bool.and_true]

theorem ofStatement_append (xs ys : List Lexeme) :
    ofStatement false (xs ++ ys) = ofStatement false xs ++ ofStatement false ys := by
  induction xs with
  | nil => rfl
  | cons x xs ih =>
    obtain ⟨kind, text⟩ := x
    cases kind with
    | comment => exact congrArg _ ih
    | literal => exact congrArg _ ih
    | blank => exact ih
    | continuation => exact ih
    | newline => exact ih
    | word => exact ih
    | symbol => exact ih

/-- Behind the words that begin a definition. -/
theorem Opener.exists_found (o : Opener) (opensBody : Bool) (rest : List Lexeme) :
    ∃ s : State, s.depth = 0 ∧ s.line.opensDefinition = true ∧
      found (atLine opensBody) (o.lexemes ++ rest) = ofStatement false o.lexemes ++
      found s rest := by
  cases o with
  | function => exact ⟨(atLine opensBody).step ⟨.word, "def"⟩, rfl, rfl, rfl⟩
  | classDefinition => exact ⟨(atLine opensBody).step ⟨.word, "class"⟩, rfl, rfl, rfl⟩
  | coroutine gap =>
    have hgap :=
      (found_trivia ((atLine opensBody).step ⟨.word, "async"⟩) gap (⟨.word, "def"⟩ :: rest)).2
    refine ⟨((atLine opensBody).step ⟨.word, "async"⟩).step ⟨.word, "def"⟩, rfl, rfl, ?_⟩
    have hlexemes : ofStatement false (Opener.coroutine gap).lexemes =
        ofStatement false gap.lexemes := by
      refine (ofStatement_append gap.lexemes [⟨.word, "def"⟩]).trans ?_
      exact List.append_nil _
    rw [hlexemes, Opener.lexemes, List.cons_append, List.append_assoc]
    exact hgap

/-- The code of a header up to its colon. -/
theorem exists_found_colon {xs : List Lexeme} (hdepth : s.depth = 0) (h : closes 0 xs = true)
    (rest : List Lexeme) :
    ∃ s' : State, s'.depth = 0 ∧ s.line.Grows s'.line ∧
      found s (xs ++ colon :: rest) = ofStatement false xs ++ found (s'.step colon) rest := by
  have hcloses : closes s.depth xs = true := hdepth ▸ h
  obtain ⟨hreads, hzero⟩ := State.reads_foldl hcloses
  exact ⟨_, hzero, hreads.grows, @found_append s xs (colon :: rest) hcloses (.inr rfl)⟩

/-- A header makes no docstring. -/
theorem Header.exists_found (h : Header) (opensBody : Bool) (rest : List Lexeme) :
    ∃ s, IsBehindHeader h s ∧
      found (atLine opensBody) (h.start ++ colon :: rest) = ofStatement false h.start ++
      found s rest := by
  obtain ⟨indentation, opener, xs, hcloses⟩ := h
  have hindentation := fun rest ↦ (found_trivia (atLine opensBody) indentation rest).2
  simp only [Header.start, List.append_assoc, hindentation, ofStatement_append]
  cases opener with
  | none =>
    obtain ⟨s, hzero, hgrows, hfound⟩ := @exists_found_colon (atLine opensBody) xs rfl hcloses rest
    have hplain : s.line.IsPlain := hgrows.isPlain fun w hw ↦ nomatch hw
    have hclosed : s.line.headerClosed = false :=
      hgrows.headerClosed_eq (.inr fun w hw ↦ nomatch hw)
    refine ⟨s.step colon,
      ⟨hzero, Nat.succ_ne_zero _, rfl, ?_, hplain.opensDefinition_eq, .inr hplain⟩, ?_⟩
    · change (s.line.headerClosed || (_ && s.line.opensDefinition)) = false
      rw [hclosed, hplain.opensDefinition_eq, Bool.and_false, Bool.or_false]
    · exact congrArg _ hfound
  | some o =>
    obtain ⟨s, hdepth, hopens, hopener⟩ := o.exists_found opensBody (xs ++ colon :: rest)
    obtain ⟨s', hzero, hgrows, hfound⟩ := exists_found_colon hdepth hcloses rest
    have hopens' := hgrows.opensDefinition hopens
    have hclosed : (s'.step colon).line.headerClosed = true := by
      change (s'.line.headerClosed ||
        (_ && (depthAfter _ s'.depth == 0) && s'.line.opensDefinition)) = true
      rw [hopens', hzero]
      exact Bool.or_true _
    refine ⟨s'.step colon, ⟨hzero, Nat.succ_ne_zero _, rfl, hclosed, hopens', .inl hclosed⟩, ?_⟩
    rw [Option.elim, hopener, hfound]

/-- A blank line leaves it open whether a body starts. -/
theorem found_blank (opensBody : Bool) (t : Trivia) (rest : List Lexeme) :
    found (atLine opensBody) (t.lexemes ++ newline :: rest) =
      ofStatement false t.lexemes ++ found (atLine opensBody) rest := by
  rw [(found_trivia _ t _).2]
  rfl

theorem found_blankLines (opensBody : Bool) (lines : List Trivia) (rest : List Lexeme) :
    found (atLine opensBody) (blankLines lines ++ rest) =
      ofStatement false (blankLines lines) ++ found (atLine opensBody) rest := by
  induction lines with
  | nil => rfl
  | cons t lines ih =>
    have hnewline : ofStatement false [newline] = [] := rfl
    rw [blankLines, List.flatMap_cons, ← blankLines, List.append_assoc, List.append_assoc,
      List.singleton_append, found_blank, ih, ofStatement_append, ofStatement_append, hnewline,
      List.append_nil, List.append_assoc]

mutual

/-- What the scan finds in a statement. -/
theorem Statement.exists_found (t : Statement) (opensBody : Bool) (rest : List Lexeme) :
    ∃ zs, found (atLine opensBody) (t.lexemes ++ rest) = zs ++ found (atLine false) rest ∧
      Exceeds zs (t.passages opensBody) t.annotations := by
  cases t with
  | simple line =>
    obtain ⟨zs, hfound, hexceeds⟩ :=
      @Line.exists_found (atLine opensBody) (newline :: rest) line rfl (.inr fun w hw ↦ nomatch hw)
        rfl
    refine ⟨zs, ?_, hexceeds⟩
    rw [Statement.lexemes, List.append_assoc, List.singleton_append, hfound, line.found_newline rfl]
  | oneLine header body =>
    obtain ⟨s, hs, hheader⟩ := header.exists_found opensBody (body.lexemes ++ newline :: rest)
    obtain ⟨zs, hfound, hexceeds⟩ :=
      @Line.exists_found s (newline :: rest) body hs.depth_eq hs.isSteady rfl
    rw [hs.opensDocstring_eq, hs.headerClosed_eq] at hexceeds
    refine ⟨ofStatement false header.start ++ zs, ?_, hexceeds.append_left _⟩
    rw [Statement.lexemes]
    simp only [List.append_assoc, List.cons_append, List.nil_append]
    rw [hheader, hfound, body.found_newline hs.depth_eq]
  | suite header gap blanks first others =>
    obtain ⟨s, hs, hheader⟩ := header.exists_found opensBody
      (gap.lexemes ++ newline :: (blankLines blanks ++ (first.lexemes ++ (others.lexemes ++ rest))))
    have hline : ∀ rest, found s (gap.lexemes ++ newline :: (blankLines blanks ++ rest)) =
        ofStatement false gap.lexemes ++ (ofStatement false (blankLines blanks) ++
          found (atLine header.isDefinition) rest) := fun rest ↦ by
      rw [(found_trivia s gap _).2, found_newline_of_code hs.depth_eq hs.size_ne,
        hs.opensDefinition_eq, hs.afterColon_eq, Bool.and_true, found_blankLines]
    obtain ⟨zs, hfirst, hexceeds⟩ := first.exists_found header.isDefinition (others.lexemes ++ rest)
    obtain ⟨zs', hothers, hexceeds'⟩ := others.exists_found rest
    refine ⟨_, ?_,
      (((hexceeds.append hexceeds').append_left (ofStatement false (blankLines blanks))).append_left
        (ofStatement false gap.lexemes)).append_left (ofStatement false header.start)⟩
    rw [Statement.lexemes]
    simp only [List.append_assoc, List.cons_append]
    rw [hheader, hline, hfirst, hothers]

/-- What the scan finds in a block behind the first statement of a body. -/
theorem Block.exists_found (b : Block) (rest : List Lexeme) :
    ∃ zs, found (atLine false) (b.lexemes ++ rest) = zs ++ found (atLine false) rest ∧
      Exceeds zs (b.passages false) b.annotations := by
  cases b with
  | nil => exact ⟨[], rfl, .nil⟩
  | blank line b =>
    obtain ⟨zs, hfound, hexceeds⟩ := b.exists_found rest
    refine ⟨ofStatement false line.lexemes ++ zs, ?_, hexceeds.append_left _⟩
    rw [Block.lexemes, List.append_assoc, List.cons_append, found_blank, hfound, List.append_assoc]
  | more t b =>
    obtain ⟨zs, hfirst, hexceeds⟩ := t.exists_found false (b.lexemes ++ rest)
    obtain ⟨zs', hothers, hexceeds'⟩ := b.exists_found rest
    refine ⟨zs ++ zs', ?_, hexceeds.append hexceeds'⟩
    rw [Block.lexemes, List.append_assoc, hfirst, hothers, List.append_assoc]

end

/-- What the scan finds in a module. -/
theorem Block.exceeds_found : ∀ b :
    Block, Exceeds (found (atLine true) b.lexemes) (b.passages true) b.annotations
  | .nil => .nil
  | .blank line b => by
    rw [Block.lexemes, found_blank]
    exact b.exceeds_found.append_left _
  | .more t b => by
    obtain ⟨zs, hfirst, hexceeds⟩ := t.exists_found true b.lexemes
    obtain ⟨zs', hothers, hexceeds'⟩ := b.exists_found []
    rw [List.append_nil] at hothers
    have hend : found (atLine false) [] = [] := rfl
    rw [Block.lexemes, hfirst, hothers, hend, List.append_nil]
    exact hexceeds.append hexceeds'

/-- The program is that of the source. The last line of the source need not have a line feed at its
end. -/
def Block.Spells (b : Block) (source : Text) : Prop :=
  Lexeme.split source = b.lexemes ∨ Lexeme.split source ++ [newline] = b.lexemes

theorem endsStatement_concat (depth : Nat) (xs : List Lexeme) :
    endsStatement depth (xs ++ [newline]) = endsStatement depth xs := by
  induction xs with
  | nil => exact Bool.or_true _
  | cons x xs ih => rw [List.cons_append, endsStatement, endsStatement, ih]

/-- A line feed at the end makes no difference. -/
theorem found_concat (s : State) (xs : List Lexeme) : found s (xs ++ [newline]) = found s xs := by
  induction xs generalizing s with
  | nil => rfl
  | cons x xs ih =>
    have hkind : kindOf s x (xs ++ [newline]) = kindOf s x xs := by
      rw [kindOf, endsStatement_concat, ← kindOf]
    rw [List.cons_append, found, found, hkind, ih]

end Program

/-- The scan of a program finds its comments and literals, and the docstrings among them. Only a
literal at the end of a statement that ends in a colon and this literal, in a one-line body of a
definition, is taken for a docstring that is none. So the scan is right exactly if there is no such
statement. -/
theorem Text.passages_program {source : Text} {b : Program.Block} (h : b.Spells source) :
    Program.Exceeds (source.passages.map fun p ↦ (p.kind, p.span.read source)) (b.passages true)
      b.annotations ∧
      ((source.passages.map fun p ↦ (p.kind, p.span.read source)) = b.passages true ↔
        b.annotations = 0) := by
  have hexceeds : Program.Exceeds (source.passages.map fun p ↦ (p.kind, p.span.read source))
    (b.passages true)
      b.annotations := by
    have hfound : found (Program.atLine true) b.lexemes = found {} (Lexeme.split source) := by
      rcases h with hlexemes | hlexemes
      · rw [← hlexemes]
        rfl
      · rw [← hlexemes, Program.found_concat]
        rfl
    rw [source.map_read_passages, ← hfound]
    exact b.exceeds_found
  exact ⟨hexceeds, hexceeds.eq_iff⟩

/-! ### Docstrings by the tree of a text -/

namespace Python.Node

/-- The span of a statement that is a string literal and nothing else. -/
def loneLiteral? (n : Node) : Option Span :=
  match n.kind, n.code with
  | .expressionStatement, [⟨.string, _, span, _⟩] => if span = n.span then some span else none
  | _, _ => none

/-- The module and the bodies of the functions and classes in it. -/
def bodies (root : Node) : List Node :=
  root ::
    (root.all.filter fun n ↦ n.kind = .functionDefinition || n.kind = .classDefinition).flatMap
      fun n ↦
    n.children.filter (plays .body)

/-- The docstrings of a module by its tree. -/
def docstrings (root : Node) : List Span :=
  root.bodies.filterMap fun body ↦ body.code.head?.bind loneLiteral?

end Python.Node

/-- The texts of the docstrings of a program. -/
def Program.Block.docstrings (b : Block) : List Text :=
  ((b.passages true).filter (·.1 = .docstring)).map (·.2)

/-- A coroutine with a decorator and a docstring behind a comment and a blank line, a class with a
one-line body, and an annotation. -/
def Program.specimen : Program.Block :=
  let blank : Lexeme := ⟨.blank, " "⟩
  let code (t : Text) : Lexeme := ⟨.word, t⟩
  .more
    (.simple (.last ⟨[⟨.symbol (CodeUnit.ofChar '@'), "@"⟩, code "d"], by decide, by decide⟩)) <|
  .more (.suite
    ⟨⟨[], rfl⟩, some (.coroutine ⟨[blank], rfl⟩),
      [blank, code "f", ⟨.symbol (CodeUnit.ofChar '('), "("⟩, code "a", Program.colon,
        ⟨.literal, "'x'"⟩, ⟨.symbol (CodeUnit.ofChar ')'), ")"⟩], by decide⟩
    ⟨[blank, ⟨.comment, "# c"⟩], rfl⟩ [⟨[], rfl⟩]
    (.simple (.more ⟨[blank, ⟨.literal, "'f'"⟩], by decide, by decide⟩
      (.last ⟨[⟨.literal, "'g'"⟩], by decide, by decide⟩))) .nil) <|
  .more (.oneLine ⟨⟨[], rfl⟩, some .classDefinition, [blank, code "A"], by decide⟩
    (.last ⟨[blank, ⟨.literal, "'c'"⟩], by decide, by decide⟩)) <|
  .more (.simple (.last ⟨[code "x", Program.colon, ⟨.literal, "'y'"⟩], by decide, by decide⟩)) .nil

def Program.specimenText : Text := "@d\nasync def f(a:'x'): # c\n\n 'f';'g'\nclass A: 'c'\nx:'y'\n"

/-- The docstrings of the specimen are those of the tree that its text reads to. -/
theorem Text.passages_program_specimen :
    Program.specimen.Spells Program.specimenText ∧
      (Python.parse Program.specimenText).docstrings.map (·.read Program.specimenText) =
        Program.specimen.docstrings ∧
      Program.specimenText.passages.map (fun p ↦ (p.kind, p.span.read Program.specimenText)) =
        ([(.literal, "'x'"), (.comment, "# c"), (.docstring, "'f'"), (.literal, "'g'"),
          (.docstring, "'c'"), (.literal, "'y'")] : List (PassageKind × Text)) := by
  have hspells : Program.specimen.Spells Program.specimenText := .inl (by decide +kernel)
  exact ⟨hspells, by decide +kernel, (Text.passages_program hspells).2.mpr (by decide)⟩

/-! ### An annotation that is taken for a docstring -/

/-- An annotation in a one-line body. -/
def annotatedBody : Text := "def f(): x: \"T\"\n"

/-- The program of `annotatedBody`. The scan finds one docstring too many in it. -/
def Program.annotatedBody : Program.Block :=
  .more (.oneLine
    ⟨⟨[], rfl⟩, some .function,
      [⟨.blank, " "⟩, ⟨.word, "f"⟩, ⟨.symbol (CodeUnit.ofChar '('), "("⟩,
        ⟨.symbol (CodeUnit.ofChar ')'), ")"⟩], by decide⟩
    (.last ⟨[⟨.blank, " "⟩, ⟨.word, "x"⟩, Program.colon, ⟨.blank, " "⟩, ⟨.literal, "\"T\""⟩],
      by decide, by decide⟩)) .nil

example : Program.annotatedBody.Spells Declutter.annotatedBody ∧
    Program.annotatedBody.annotations = 1 ∧
    (Python.parse Declutter.annotatedBody).docstrings.map (·.read Declutter.annotatedBody) =
      Program.annotatedBody.docstrings :=
  ⟨.inl (by decide +kernel), by decide, by decide +kernel⟩

/-- The scan of a valid text need not find the docstrings of its tree. In `annotatedBody` the
literal is the annotation of a name and no statement of its own, but it comes right after a colon in
a line with the header of a definition. -/
theorem Text.passages_mistakes_annotation :
    ¬ ∀ source : Text, Python.check source = none →
      ∀ p ∈ source.passages, p.kind = .docstring ↔ p.span ∈ (Python.parse source).docstrings := by
  intro h
  have hcheck : Python.check annotatedBody = none := by decide +kernel
  have hpassages : annotatedBody.passages = [⟨.docstring, ⟨12, 15⟩⟩] := by decide +kernel
  have hdocstrings : (Python.parse annotatedBody).docstrings = [] := by decide +kernel
  have hmem :=
    (h annotatedBody hcheck ⟨.docstring, ⟨12, 15⟩⟩ (hpassages ▸ List.mem_singleton.mpr rfl)).mp rfl
  rw [hdocstrings] at hmem
  exact nomatch hmem

end Declutter
