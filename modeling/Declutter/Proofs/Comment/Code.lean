import Declutter.Proofs.Comment.Standing
/-!
The code of a statement, as the scan for docstrings sees it. A statement is a list of lexemes that
closes the brackets it opens and has line feeds only between them (`Passage.closes`). Where the scan
comes to the end of such a statement, it has made a docstring of none of its literals but perhaps
the last lexeme of its code, and of that one only if it is all of the code and stands in the place
of a docstring, or if it comes right after a colon behind the colon that ends the header of a
definition (`Passage.found_append`).
-/

set_option autoImplicit false
set_option relaxedAutoImplicit false

namespace Declutter

/-- The kinds of the lexemes that code is made of. -/
def LexemeKind.isCode : LexemeKind → Bool
  | .literal | .word | .symbol _ => true
  | .comment | .newline | .blank | .continuation => false

/-- The kinds of the lexemes that may stand between any two others. -/
def LexemeKind.isTrivia : LexemeKind → Bool
  | .comment | .blank | .continuation => true
  | .literal | .word | .symbol _ | .newline => false

namespace Passage

/-! ### The code of a statement -/

/-- The kinds of the lexemes of code, in order. -/
def codeKinds (xs : List Lexeme) : List LexemeKind := (xs.map (·.kind)).filter LexemeKind.isCode

/-- Lexemes of a statement, from where brackets are open to the given depth: they close these
brackets and those that they open, have line feeds only between brackets and no semicolons, and have
none of the words that begin a definition. -/
def closes (depth : Nat) : List Lexeme → Bool
  | [] => depth == 0
  | x :: xs =>
    match x.kind with
    | .newline => decide (0 < depth) && closes depth xs
    | .symbol u => u != ';' && (decide (0 < depth) || !isCloser u) && closes (depthAfter u depth) xs
    | .word => x.text != "def" && x.text != "class" && closes depth xs
    | .literal | .comment | .blank | .continuation => closes depth xs

/-- Whether the code is a single literal. -/
def isLone (xs : List Lexeme) : Bool := codeKinds xs == [.literal]

/-- Whether the code ends in a colon and a literal. -/
def isAnnotated (xs : List Lexeme) : Bool :=
  [.symbol (CodeUnit.ofChar ':'), .literal].isSuffixOf (codeKinds xs)

/-- The comments and literals of a statement with their texts. A literal that is the last lexeme of
the code is a docstring if `doc` says so. -/
def ofStatement (doc : Bool) : List Lexeme → List (PassageKind × Text)
  | [] => []
  | x :: xs =>
    match x.kind with
    | .comment => (.comment, x.text) :: ofStatement doc xs
    | .literal =>
      (if doc && (codeKinds xs).isEmpty then .docstring else .literal, x.text) :: ofStatement doc xs
    | _ => ofStatement doc xs

variable {s s' : State} {x : Lexeme} {xs rest : List Lexeme} {depth : Nat}

theorem codeKinds_cons (x : Lexeme) (xs : List Lexeme) :
    codeKinds (x :: xs) = if x.kind.isCode then x.kind :: codeKinds xs else codeKinds xs := by
  rw [codeKinds, List.map_cons, List.filter_cons, codeKinds]

/-- The code ends in a colon and a literal if these two are all of it, or if it does behind its
first lexeme. -/
theorem isSuffixOf_annotation_cons (k : LexemeKind) (ks : List LexemeKind) :
    [.symbol (CodeUnit.ofChar ':'), .literal].isSuffixOf (k :: ks) =
      (k == .symbol (CodeUnit.ofChar ':') && ks == [.literal] ||
        [.symbol (CodeUnit.ofChar ':'), .literal].isSuffixOf ks) := by
  rw [Bool.eq_iff_iff, Bool.or_eq_true, List.isSuffixOf_iff_suffix, List.isSuffixOf_iff_suffix,
    List.suffix_cons_iff, Bool.and_eq_true, beq_iff_eq, beq_iff_eq, List.cons_eq_cons, eq_comm,
    @eq_comm _ ks]

/-- A statement ends where the text after it says, if no code of it is left. -/
theorem endsStatement_append (h : closes depth xs = true) (rest : List Lexeme) :
    endsStatement depth (xs ++ rest) = ((codeKinds xs).isEmpty && endsStatement 0 rest) := by
  induction xs generalizing depth with
  | nil =>
    obtain rfl : depth = 0 := beq_iff_eq.mp h
    rfl
  | cons x xs ih =>
    obtain ⟨kind, text⟩ := x
    cases kind with
    | comment => exact ih h
    | blank => exact ih h
    | continuation => exact ih h
    | literal => rfl
    | word => rfl
    | newline =>
      rw [closes, Bool.and_eq_true, decide_eq_true_eq] at h
      have hdepth : (depth == 0) = false := beq_eq_false_iff_ne.mpr (Nat.pos_iff_ne_zero.mp h.1)
      rw [codeKinds_cons, List.cons_append, endsStatement, hdepth, Bool.false_or]
      exact ih h.2
    | symbol u =>
      rw [closes, Bool.and_eq_true, Bool.and_eq_true, bne_iff_ne] at h
      have hsemicolon : (u == CodeUnit.ofChar ';') = false := beq_eq_false_iff_ne.mpr h.1.1
      change (u == CodeUnit.ofChar ';' && depth == 0) = false
      rw [hsemicolon, Bool.false_and]

/-! ### The state of the scan -/

namespace LogicalLine

variable {l l' l'' : LogicalLine}

/-- The line does not start with a word that begins a definition. -/
def IsPlain (l : LogicalLine) : Prop := ∀ w ∈ l.words, w ≠ "def" ∧ w ≠ "class"

/-- The line has no header of a definition that is still open. -/
def IsSteady (l : LogicalLine) : Prop := l.headerClosed = true ∨ l.IsPlain

theorem IsPlain.opensDefinition_eq (h : l.IsPlain) : l.opensDefinition = false := by
  have hword : ∀ w ∈ l.words, (w == "def") = false ∧ (w == "class") = false := fun w hw ↦
    ⟨beq_eq_false_iff_ne.mpr (h w hw).1, beq_eq_false_iff_ne.mpr (h w hw).2⟩
  rw [opensDefinition]
  split
  · rfl
  · next first hwords =>
    obtain ⟨hdef, hclass⟩ := hword first (hwords ▸ List.mem_cons_self)
    rw [hdef, hclass, Bool.or_self]
  · next first second _ hwords =>
    obtain ⟨hdef, hclass⟩ := hword first (hwords ▸ List.mem_cons_self)
    obtain ⟨hdef', -⟩ := hword second (hwords ▸ List.mem_cons_of_mem _ List.mem_cons_self)
    rw [hdef, hclass, hdef', Bool.and_false, Bool.or_self]
    rfl

/-- A line that starts like a definition goes on like one. -/
theorem opensDefinition_word (w : Text) (h : l.opensDefinition = true) :
    (l.word w).opensDefinition = true := by
  obtain ⟨size, words, afterColon, headerClosed⟩ := l
  rw [word]
  by_cases hsize : size < 2
  · match words with
    | [] => exact Bool.noConfusion h
    | [first] =>
      simp only [hsize, if_true, opensDefinition] at h ⊢
      exact Bool.or_eq_true_iff.mpr (.inl h)
    | first :: second :: others =>
      simp only [hsize, if_true, opensDefinition] at h ⊢
      exact h
  · simp only [hsize, if_false]
    exact h

/-- The second line is what the first one becomes with more code on it. -/
structure Grows (l l' : LogicalLine) : Prop where
  isPlain : l.IsPlain → l'.IsPlain
  opensDefinition : l.opensDefinition = true → l'.opensDefinition = true
  headerClosed_eq : l.IsSteady → l'.headerClosed = l.headerClosed

theorem Grows.isSteady (h : l.Grows l') (hl : l.IsSteady) : l'.IsSteady :=
  hl.imp (fun hclosed ↦ (h.headerClosed_eq hl).trans hclosed) h.isPlain

theorem Grows.trans (h : l.Grows l') (h' : l'.Grows l'') : l.Grows l'' :=
  ⟨h'.isPlain ∘ h.isPlain, h'.opensDefinition ∘ h.opensDefinition,
    fun hl ↦ (h'.headerClosed_eq (h.isSteady hl)).trans (h.headerClosed_eq hl)⟩

end LogicalLine

/-- From the first state, the scan of lexemes with code of the given kinds, and no end of a logical
line among them, comes to the second state. -/
structure State.Reads (s : State) (ks : List LexemeKind) (s' : State) : Prop where
  grows : s.line.Grows s'.line
  opensBody_eq : s'.opensBody = s.opensBody
  size_eq : s'.line.size = s.line.size + ks.length
  afterColon_eq : s'.line.afterColon =
    (ks.getLast?.map (· == .symbol (CodeUnit.ofChar ':'))).getD s.line.afterColon

namespace State

theorem reads_nil (s : State) : s.Reads [] s := ⟨⟨id, id, fun _ ↦ rfl⟩, rfl, rfl, rfl⟩

theorem Reads.trans {s'' : State} {ks ks' : List LexemeKind} (h : s.Reads ks s')
    (h' : s'.Reads ks' s'') :
    s.Reads (ks ++ ks') s'' := by
  refine ⟨h.grows.trans h'.grows, h'.opensBody_eq.trans h.opensBody_eq, ?_, ?_⟩
  · rw [h'.size_eq, h.size_eq, List.length_append, Nat.add_assoc]
  · rw [h'.afterColon_eq, h.afterColon_eq, List.getLast?_append]
    cases ks'.getLast? <;> rfl

theorem reads_literal (s : State) (text : Text) : s.Reads [.literal] (s.step ⟨.literal, text⟩) :=
  ⟨⟨id, id, fun _ ↦ rfl⟩, rfl, rfl, rfl⟩

theorem reads_symbol (s : State) (u : CodeUnit) (text : Text) :
    s.Reads [.symbol u] (s.step ⟨.symbol u, text⟩) := by
  refine ⟨⟨id, id, fun hsteady ↦ ?_⟩, rfl, rfl, ?_⟩
  · rcases hsteady with hclosed | hplain
    · change (s.line.headerClosed || _) = s.line.headerClosed
      rw [hclosed, Bool.true_or]
    · change (s.line.headerClosed || (_ && s.line.opensDefinition)) = s.line.headerClosed
      rw [hplain.opensDefinition_eq, Bool.and_false, Bool.or_false]
  · change (u == CodeUnit.ofChar ':') = (LexemeKind.symbol u == .symbol (CodeUnit.ofChar ':'))
    rw [Bool.eq_iff_iff, beq_iff_eq, beq_iff_eq, LexemeKind.symbol.injEq]

theorem reads_word (s : State) {w : Text} (hdef : w ≠ "def") (hclass : w ≠ "class") :
    s.Reads [.word] (s.step ⟨.word, w⟩) := by
  have hplain : s.line.IsPlain → (s.line.word w).IsPlain := by
    intro hplain v hv
    rw [LogicalLine.word] at hv
    split_ifs at hv
    · rcases List.mem_append.mp hv with hv | hv
      · exact hplain v hv
      · obtain rfl := List.mem_singleton.mp hv
        exact ⟨hdef, hclass⟩
    · exact hplain v hv
  exact ⟨⟨hplain, LogicalLine.opensDefinition_word w, fun _ ↦ rfl⟩, rfl, rfl, rfl⟩

/-- One lexeme of a statement. -/
theorem reads_step (h : closes s.depth (x :: xs) = true) :
    s.Reads (codeKinds [x]) (s.step x) ∧ closes (s.step x).depth xs = true := by
  obtain ⟨kind, text⟩ := x
  cases kind with
  | comment => exact ⟨s.reads_nil, h⟩
  | blank => exact ⟨s.reads_nil, h⟩
  | continuation => exact ⟨s.reads_nil, h⟩
  | literal => exact ⟨s.reads_literal text, h⟩
  | newline =>
    rw [closes, Bool.and_eq_true, decide_eq_true_eq] at h
    have hstep : s.step ⟨.newline, text⟩ = s := if_neg (Nat.pos_iff_ne_zero.mp h.1)
    rw [hstep]
    exact ⟨s.reads_nil, h.2⟩
  | word =>
    rw [closes, Bool.and_eq_true, Bool.and_eq_true, bne_iff_ne, bne_iff_ne] at h
    exact ⟨s.reads_word h.1.1 h.1.2, h.2⟩
  | symbol u =>
    rw [closes, Bool.and_eq_true] at h
    exact ⟨s.reads_symbol u text, h.2⟩

/-- A whole statement, at the end of which no bracket is open. -/
theorem reads_foldl (h : closes s.depth xs = true) :
    s.Reads (codeKinds xs) (xs.foldl step s) ∧ (xs.foldl step s).depth = 0 := by
  induction xs generalizing s with
  | nil => exact ⟨s.reads_nil, beq_iff_eq.mp h⟩
  | cons x xs ih =>
    obtain ⟨hreads, hcloses⟩ := reads_step h
    obtain ⟨hlater, hdepth⟩ := ih hcloses
    have hkinds : codeKinds (x :: xs) = codeKinds [x] ++ codeKinds xs := by
      rw [codeKinds, List.map_cons, ← List.singleton_append, List.filter_append]
      rfl
    rw [hkinds]
    exact ⟨hreads.trans hlater, hdepth⟩

end State

/-! ### What the scan finds in a statement -/

/-- A statement without code has no literals. -/
theorem ofStatement_of_codeKinds_eq_nil (h : codeKinds xs = []) (doc doc' : Bool) :
    ofStatement doc xs = ofStatement doc' xs := by
  induction xs with
  | nil => rfl
  | cons x xs ih =>
    rw [codeKinds_cons] at h
    obtain ⟨kind, text⟩ := x
    cases kind with
    | comment => exact congrArg _ (ih h)
    | blank => exact ih h
    | continuation => exact ih h
    | newline => exact ih h
    | literal => exact nomatch h
    | word => exact nomatch h
    | symbol => exact nomatch h

/-- Behind a lexeme of code, a literal is in the place of a docstring only right after a colon. -/
theorem verdict_of_reads {ends : Bool} (hcode : x.kind.isCode = true)
    (h : s.Reads (codeKinds [x]) s') (hsteady : s.line.IsSteady ∨ ends = false) :
    (ends && (s'.opensDocstring && isLone xs || s'.line.headerClosed && isAnnotated xs)) =
      (ends && (s.line.headerClosed && isAnnotated (x :: xs))) := by
  rcases hsteady with hsteady | rfl
  · have hsingle : codeKinds [x] = [x.kind] := by rw [codeKinds_cons, if_pos hcode]; rfl
    have hsize := h.size_eq
    have hcolon := h.afterColon_eq
    rw [hsingle] at hsize hcolon
    have hopens : s'.opensDocstring =
        (s.line.headerClosed && x.kind == .symbol (CodeUnit.ofChar ':')) := by
      have hne : s'.line.size ≠ 0 := hsize ▸ Nat.succ_ne_zero _
      rw [State.opensDocstring, if_neg hne, h.grows.headerClosed_eq hsteady, hcolon]
      rfl
    rw [hopens, h.grows.headerClosed_eq hsteady, isAnnotated, isAnnotated, codeKinds_cons,
      if_pos hcode, isSuffixOf_annotation_cons, isLone, Bool.and_assoc, ← Bool.and_or_distrib_left]
  · rw [Bool.false_and, Bool.false_and]

/-- The scan makes a docstring of the literal at the end of a statement if it is all of its code and
stands in the place of a docstring, or if it comes right after a colon behind the header of a
definition; and only if nothing but the end of the statement comes after it. -/
theorem found_append (h : closes s.depth xs = true)
    (hsteady : s.line.IsSteady ∨ endsStatement 0 rest = false) :
    found s (xs ++ rest) =
      ofStatement (endsStatement 0 rest &&
          (s.opensDocstring && isLone xs || s.line.headerClosed && isAnnotated xs)) xs
        ++ found (xs.foldl State.step s) rest := by
  induction xs generalizing s with
  | nil => rfl
  | cons x xs ih =>
    obtain ⟨hreads, hcloses⟩ := State.reads_step h
    have hlater := ih hcloses (hsteady.imp_left hreads.grows.isSteady)
    have hverdict :=
      fun hcode : x.kind.isCode = true ↦ @verdict_of_reads s (s.step x) x xs _ hcode hreads hsteady
    obtain ⟨kind, text⟩ := x
    cases kind with
    | comment => exact congrArg _ hlater
    | blank => exact hlater
    | continuation => exact hlater
    | newline =>
      rw [closes, Bool.and_eq_true, decide_eq_true_eq] at h
      have hstep : s.step ⟨.newline, text⟩ = s := if_neg (Nat.pos_iff_ne_zero.mp h.1)
      rw [hstep] at hlater
      rw [List.cons_append, found, List.foldl_cons, hstep]
      exact hlater
    | word =>
      have hlone : isLone (⟨.word, text⟩ :: xs) = false := rfl
      rw [hlone, Bool.and_false, Bool.false_or, ← hverdict rfl]
      exact hlater
    | symbol u =>
      have hlone : isLone (⟨.symbol u, text⟩ :: xs) = false := rfl
      rw [hlone, Bool.and_false, Bool.false_or, ← hverdict rfl]
      exact hlater
    | literal =>
      have hlone : isLone (⟨.literal, text⟩ :: xs) = (codeKinds xs).isEmpty := by
        rw [isLone, codeKinds_cons]
        cases codeKinds xs <;> rfl
      have hends := endsStatement_append (show closes s.depth xs = true from h) rest
      have hkind : kindOf s ⟨.literal, text⟩ (xs ++ rest) =
          some
            (if s.opensDocstring && ((codeKinds xs).isEmpty && endsStatement 0 rest) then .docstring
            else .literal) := by
        rw [← hends]
        rfl
      rw [hverdict rfl] at hlater
      rw [List.cons_append, found, hkind, hlater, hlone, ofStatement]
      by_cases hnil : codeKinds xs = []
      · -- no code comes after the literal
        have hannotated : isAnnotated (⟨.literal, text⟩ :: xs) = false := by
          rw [isAnnotated, codeKinds_cons, hnil]
          rfl
        rw [hannotated, hnil, List.isEmpty_nil, Bool.and_false, Bool.or_false, Bool.true_and,
          Bool.and_true, Bool.and_true, Bool.and_false, Bool.and_comm,
          ofStatement_of_codeKinds_eq_nil hnil false (endsStatement 0 rest && s.opensDocstring)]
        rfl
      · have hempty : (codeKinds xs).isEmpty = false := by
          rw [List.isEmpty_eq_false_iff]; exact hnil
        rw [hempty, Bool.false_and, Bool.and_false, Bool.and_false, Bool.false_or]
        rfl

end Passage

end Declutter
