import Declutter.Proofs.Comment.Lexeme
/-!
What a lexeme needs to know of the text after it. A literal that is closed knows at most whether a
quote follows (`Lexeme.afterLiteral_cases`), and every lexeme knows at most the two units after it,
so that it comes first in any other text that goes on with the same units
(`Lexeme.IsFirst.append_congr`). If white space or a comment is taken from behind a lexeme, up to
the end of a line, only a stray backslash becomes another lexeme (`Lexeme.IsFirst.cut`).
-/

set_option autoImplicit false
set_option relaxedAutoImplicit false

namespace Declutter

namespace Lexeme

/-! ### Where a literal ends -/

/-- Induction on a text in which a backslash and the unit after it, or the line ending after it, go
together. -/
theorem escapeInduct {motive : Text → Prop} (nil : motive [])
    (lineEnding : ∀ t, motive t → motive (92 :: 13 :: 10 :: t))
    (escape : ∀ u t, (u = 13 → t.head? ≠ some 10) → motive t → motive (92 :: u :: t))
    (backslash : motive [92]) (plain : ∀ u t, u ≠ 92 → motive t → motive (u :: t)) : ∀ t, motive t
  | [] => nil
  | [u] => if h : u = 92 then h ▸ backslash else plain u [] h nil
  | u :: v :: t =>
    if h : u = 92 then
      if hcrlf : v = 13 ∧ t.head? = some 10 then by
        obtain ⟨rfl, hhead⟩ := hcrlf
        obtain ⟨s, rfl⟩ := List.head?_eq_some_iff.mp hhead
        exact h ▸ lineEnding s (escapeInduct nil lineEnding escape backslash plain s)
      else
        h ▸ escape v t (fun hv hhead ↦ hcrlf ⟨hv, hhead⟩)
          (escapeInduct nil lineEnding escape backslash plain t)
    else plain u (v :: t) h (escapeInduct nil lineEnding escape backslash plain (v :: t))

theorem ne_of_isQuote {u : CodeUnit} (h : isQuote u = true) : u ≠ 92 ∧ u ≠ 10 := by
  rw [isQuote, Bool.or_eq_true, beq_iff_eq, beq_iff_eq] at h
  rcases h with rfl | rfl <;> decide

/-- A part at the end of a text is not the text with a unit before it. -/
theorem ne_cons_of_suffix {t s : Text} {u : CodeUnit} (h : t <:+ s) : t ≠ u :: s := by
  rintro rfl
  exact absurd h.length_le (by simp)

section Closing

variable {quote : CodeUnit} {body rest : Text}

/-- The scanner for the end of a literal leaves a part at the end of the text, and it is past an
escape in one step. -/
structure SkipsEscapes (scan : Text → Text) : Prop where
  suffix : ∀ t, scan t <:+ t
  lineEnding : ∀ t, scan (92 :: 13 :: 10 :: t) = scan t
  escape : ∀ u t, (u = 13 → t.head? ≠ some 10) → scan (92 :: u :: t) = scan t

theorem skipsEscapes_afterSingle (quote : CodeUnit) : SkipsEscapes (afterSingle quote) where
  suffix := afterSingle_suffix quote
  lineEnding _ := rfl
  escape u t h := afterSingle.eq_3 quote u t fun _ hu ht ↦ h hu (ht ▸ rfl)

theorem skipsEscapes_afterTriple (quote : CodeUnit) : SkipsEscapes (afterTriple quote) where
  suffix := afterTriple_suffix quote
  lineEnding _ := rfl
  escape u t h := afterTriple.eq_3 quote u t fun _ hu ht ↦ h hu (ht ▸ rfl)

theorem afterSingle_plain (quote : CodeUnit) {u : CodeUnit} (t : Text) (h : u ≠ 92) :
    afterSingle quote (u :: t) = if u == quote then t else if u == '\n' then u :: t
      else afterSingle quote t :=
  afterSingle.eq_4 quote u t (fun _ hu _ ↦ h hu) fun _ _ hu _ ↦ h hu

theorem afterTriple_plain (quote : CodeUnit) {u : CodeUnit} (t : Text) (h : u ≠ 92) :
    afterTriple quote (u :: t) =
      if [quote, quote, quote].isPrefixOf (u :: t) then t.drop 2 else afterTriple quote t :=
  afterTriple.eq_4 quote u t (fun _ hu _ ↦ h hu) fun _ _ hu _ ↦ h hu

variable {scan : Text → Text} {width : Nat}

theorem SkipsEscapes.suffix_escape (hscan : SkipsEscapes scan) (u : CodeUnit) (t : Text) :
    scan (92 :: u :: t) <:+ t := by
  by_cases hcrlf : u = 13 ∧ t.head? = some 10
  · obtain ⟨rfl, hhead⟩ := hcrlf
    obtain ⟨s, rfl⟩ := List.head?_eq_some_iff.mp hhead
    rw [hscan.lineEnding]
    exact (hscan.suffix s).trans (List.suffix_cons 10 s)
  · rw [hscan.escape u t fun hu hhead ↦ hcrlf ⟨hu, hhead⟩]
    exact hscan.suffix t

/-- What a scanner that looks for closing quotes leaves of `body ++ rest` is `rest` for a reason
that is in the body: it ends in the closing quotes, at least `width` units of it; or it stops at a
line feed or at the end of the text, and does so before any other text of this kind. -/
def Ends (scan : Text → Text) (quote : CodeUnit) (width : Nat) (body rest : Text) : Prop :=
  (body.getLast? = some quote ∧ width ≤ body.length ∧ ∀ after, scan (body ++ after) = after) ∨
    (∃ s, rest = 10 :: s ∧ ∀ s', scan (body ++ 10 :: s') = 10 :: s') ∨ rest = []

/-- A scanner that goes on to a part of the body ends where it ends with that part. -/
theorem Ends.append_left (part : Text) (h : Ends scan quote width body rest)
    (hscan : ∀ after, (width ≤ body.length ∨ after.head? = some 10 ∧ rest.head? = some 10) →
      scan (part ++ (body ++ after)) = scan (body ++ after)) :
      Ends scan quote width (part ++ body) rest := by
  rcases h with ⟨hlast, hwidth, hafter⟩ | ⟨s, rfl, hafter⟩ | rfl
  · refine .inl ⟨?_, ?_, fun after ↦ ?_⟩
    · rw [List.getLast?_append, hlast, Option.some_or]
    · rw [List.length_append]
      omega
    · rw [List.append_assoc, hscan after (.inl hwidth), hafter]
  · refine .inr (.inl ⟨s, rfl, fun s' ↦ ?_⟩)
    rw [List.append_assoc, hscan (10 :: s') (.inr ⟨rfl, rfl⟩), hafter]
  · exact .inr (.inr rfl)

/-- A backslash at the end of the body takes what comes after it. -/
theorem SkipsEscapes.ends_backslash (hscan : SkipsEscapes scan) (h : scan (92 :: rest) = rest) :
    Ends scan quote width [92] rest := by
  cases rest with
  | nil => exact .inr (.inr rfl)
  | cons u s => exact absurd h (ne_cons_of_suffix (hscan.suffix_escape u s))

/-- The scanner is past an escape, unless the body ends between the two units of the line ending
after the backslash; then nothing is left. -/
theorem SkipsEscapes.ends_escape {u : CodeUnit} (hscan : SkipsEscapes scan) (hwidth : 0 < width)
    (hescape : u = 13 → body.head? ≠ some 10) (h : scan (92 :: u :: (body ++ rest)) = rest)
    (hbody : scan (body ++ rest) = rest → Ends scan quote width body rest) :
    Ends scan quote width (92 :: u :: body) rest := by
  have hapart : ∀ after : Text, (body = [] → after.head? = some 10 → rest.head? = some 10) →
    u = 13 →
      (body ++ after).head? ≠ some 10 := by
    rintro after hafter rfl hhead
    cases body with
    | cons v b => exact hescape rfl hhead
    | nil =>
      obtain ⟨s, rfl⟩ := List.head?_eq_some_iff.mp (hafter rfl hhead)
      exact ne_cons_of_suffix (hscan.suffix s) ((hscan.lineEnding s).symm.trans h)
  refine Ends.append_left [92, u] (hbody ?_) fun after hafter ↦ hscan.escape u _ (hapart after ?_)
  · rw [← hscan.escape u _ (hapart rest fun _ ↦ id)]
    exact h
  · rintro rfl -
    exact (hafter.resolve_left (Nat.not_le_of_lt hwidth)).2

/-- Nothing of a text belongs to a literal in single quotes only if the text is empty or starts with
a line feed. -/
theorem eq_nil_or_of_afterSingle_eq_self (h : afterSingle quote rest = rest) :
    rest = [] ∨ rest.head? = some 10 := by
  revert h
  fun_cases afterSingle quote rest with
  | case1 => exact fun _ ↦ .inl rfl
  | case2 s =>
    have hsuffix := (afterSingle_suffix quote s).trans (List.suffix_append [13, 10] s)
    exact fun h ↦ absurd h (ne_cons_of_suffix hsuffix)
  | case3 u s =>
    exact fun h ↦
      absurd h (ne_cons_of_suffix ((afterSingle_suffix quote s).trans (List.suffix_cons u s)))
  | case4 u s => exact fun h ↦ absurd h (ne_cons_of_suffix (List.suffix_refl s))
  | case5 u s _ _ _ hten =>
    obtain rfl := beq_iff_eq.mp hten
    exact fun _ ↦ .inr rfl
  | case6 u s => exact fun h ↦ absurd h (ne_cons_of_suffix (afterSingle_suffix quote s))

theorem eq_nil_of_afterTriple_eq_self (h : afterTriple quote rest = rest) : rest = [] := by
  revert h
  fun_cases afterTriple quote rest with
  | case1 => exact fun _ ↦ rfl
  | case2 s =>
    have hsuffix := (afterTriple_suffix quote s).trans (List.suffix_append [13, 10] s)
    exact fun h ↦ absurd h (ne_cons_of_suffix hsuffix)
  | case3 u s =>
    exact fun h ↦
      absurd h (ne_cons_of_suffix ((afterTriple_suffix quote s).trans (List.suffix_cons u s)))
  | case4 u s => exact fun h ↦ absurd h (ne_cons_of_suffix (List.drop_suffix 2 s))
  | case5 u s => exact fun h ↦ absurd h (ne_cons_of_suffix (afterTriple_suffix quote s))

/-- A literal in single quotes stops at its closing quote, at a line feed or at the end of the
text. -/
theorem ends_afterSingle (hquote : isQuote quote = true)
    (h : afterSingle quote (body ++ rest) = rest) :
    Ends (afterSingle quote) quote 1 body rest := by
  induction body using escapeInduct with
  | nil =>
    rcases eq_nil_or_of_afterSingle_eq_self h with rfl | hhead
    · exact .inr (.inr rfl)
    · obtain ⟨s, rfl⟩ := List.head?_eq_some_iff.mp hhead
      have hten : ((10 : CodeUnit) == quote) = false :=
        beq_eq_false_iff_ne.mpr (ne_of_isQuote hquote).2.symm
      refine .inr (.inl ⟨s, rfl, fun s' ↦ ?_⟩)
      rw [List.nil_append, afterSingle_plain quote s' (by decide), hten]
      rfl
  | lineEnding b ih => exact (ih h).append_left [92, 13, 10] fun _ _ ↦ rfl
  | escape u b hescape ih =>
    exact (skipsEscapes_afterSingle quote).ends_escape Nat.one_pos hescape h ih
  | backslash => exact (skipsEscapes_afterSingle quote).ends_backslash h
  | plain u b hu ih =>
    rw [List.cons_append, afterSingle_plain quote _ hu] at h
    split_ifs at h with hclose hten
    · obtain rfl := beq_iff_eq.mp hclose
      obtain rfl : b = [] := List.append_left_eq_self.mp h
      refine .inl ⟨rfl, le_rfl, fun after ↦ ?_⟩
      rw [List.singleton_append, afterSingle_plain u after hu, if_pos hclose]
    · exact absurd h (ne_cons_of_suffix (List.suffix_append b rest)).symm
    · refine (ih h).append_left [u] fun after _ ↦ ?_
      rw [List.singleton_append, afterSingle_plain quote _ hu, if_neg hclose, if_neg hten]

/-- Whether three quotes stand at the start is decided by the first units. -/
theorem isPrefixOf_triple_congr {u : CodeUnit} {after : Text} (hquote : quote ≠ 10)
    (h : 3 ≤ body.length ∨ after.head? = some 10 ∧ rest.head? = some 10) :
    [quote, quote, quote].isPrefixOf (u :: (body ++ after)) =
      [quote, quote, quote].isPrefixOf (u :: (body ++ rest)) := by
  have hten : (quote == 10) = false := beq_eq_false_iff_ne.mpr hquote
  rcases body with _ | ⟨v, _ | ⟨w, b⟩⟩
  · obtain ⟨hafter, hrest⟩ := h.resolve_left (by simp)
    obtain ⟨s, rfl⟩ := List.head?_eq_some_iff.mp hafter
    obtain ⟨s', rfl⟩ := List.head?_eq_some_iff.mp hrest
    simp only [List.nil_append, List.isPrefixOf, hten, Bool.false_and, Bool.and_false]
  · obtain ⟨hafter, hrest⟩ := h.resolve_left (by simp)
    obtain ⟨s, rfl⟩ := List.head?_eq_some_iff.mp hafter
    obtain ⟨s', rfl⟩ := List.head?_eq_some_iff.mp hrest
    simp only [List.cons_append, List.nil_append, List.isPrefixOf, hten, Bool.false_and,
      Bool.and_false]
  · rfl

/-- A literal in triple quotes stops at the closing quotes or at the end of the text. -/
theorem ends_afterTriple (hquote : isQuote quote = true)
    (h : afterTriple quote (body ++ rest) = rest) :
    Ends (afterTriple quote) quote 3 body rest := by
  induction body using escapeInduct with
  | nil => exact .inr (.inr (eq_nil_of_afterTriple_eq_self h))
  | lineEnding b ih => exact (ih h).append_left [92, 13, 10] fun _ _ ↦ rfl
  | escape u b hescape ih =>
    exact (skipsEscapes_afterTriple quote).ends_escape (Nat.succ_pos 2) hescape h ih
  | backslash => exact (skipsEscapes_afterTriple quote).ends_backslash h
  | plain u b hu ih =>
    rw [List.cons_append, afterTriple_plain quote _ hu] at h
    split_ifs at h with hclose
    · -- the closing quotes are the last three units of the body
      obtain ⟨s, hs⟩ := List.isPrefixOf_iff_prefix.mp hclose
      obtain ⟨rfl, hclosing⟩ := List.cons_eq_cons.mp hs
      change [quote, quote] ++ s = b ++ rest at hclosing
      rw [← hclosing] at h
      change s = rest at h
      rw [h] at hclosing
      obtain rfl : b = [quote, quote] := (List.append_cancel_right hclosing).symm
      refine .inl ⟨rfl, le_rfl, fun after ↦ ?_⟩
      rw [List.cons_append, afterTriple_plain quote _ hu]
      simp
    · refine (ih h).append_left [u] fun after hafter ↦ ?_
      rw [List.singleton_append, afterTriple_plain quote _ hu,
        isPrefixOf_triple_congr (ne_of_isQuote hquote).2 hafter, if_neg hclose]

/-- Two quotes that are not at the start are not there in another text either, if there is a unit
before it or no quote at its start. -/
theorem not_isPrefixOf_double {after : Text}
    (hhead : after.head? = some quote → rest.head? = some quote)
    (hbody : body = [] → after.head? ≠ some quote)
    (h : ¬ [quote, quote].isPrefixOf (body ++ rest) = true) :
    ¬ [quote, quote].isPrefixOf (body ++ after) = true := by
  rcases body with _ | ⟨u, _ | ⟨v, b⟩⟩
  · intro hprefix
    obtain ⟨s, rfl⟩ := List.isPrefixOf_iff_prefix.mp hprefix
    exact hbody rfl rfl
  · intro hprefix
    obtain ⟨s, hs⟩ := List.isPrefixOf_iff_prefix.mp hprefix
    obtain ⟨rfl, rfl⟩ := List.cons_eq_cons.mp hs
    obtain ⟨s', rfl⟩ := List.head?_eq_some_iff.mp (hhead rfl)
    exact h (List.isPrefixOf_iff_prefix.mpr ⟨s', rfl⟩)
  · exact h

/-- The literal that starts with a quote stops for a reason that is in the literal. What closes it
is its last unit; but the two quotes of an empty literal close it only if no third one follows. -/
theorem afterLiteral_cases (hquote : isQuote quote = true)
    (h : afterLiteral (quote :: (body ++ rest)) = rest) :
    (body.getLast? = some quote ∧
      ∀ after : Text, (after.head? = some quote → rest.head? = some quote) →
        afterLiteral (quote :: (body ++ after)) = after) ∨
      (∃ s, rest = 10 :: s ∧ ∀ s', afterLiteral (quote :: (body ++ 10 :: s')) = 10 :: s') ∨
      rest = [] := by
  rw [afterLiteral] at h
  split_ifs at h with htriple
  · have hcut : ∃ b, body = quote :: quote :: b := by
      obtain ⟨s, hs⟩ := List.isPrefixOf_iff_prefix.mp htriple
      rw [← hs] at h
      have hsuffix : rest <:+ s := h ▸ afterTriple_suffix quote s
      rcases body with _ | ⟨u, _ | ⟨v, b⟩⟩
      · exact absurd hs.symm (ne_cons_of_suffix (hsuffix.trans (List.suffix_cons quote s)))
      · exact absurd (List.cons_eq_cons.mp hs).2.symm (ne_cons_of_suffix hsuffix)
      · simp only [List.cons_append, List.cons.injEq] at hs
        obtain ⟨rfl, rfl, -⟩ := hs
        exact ⟨b, rfl⟩
    obtain ⟨b, rfl⟩ := hcut
    rcases ends_afterTriple hquote h with ⟨hlast, -, hafter⟩ | ⟨s, rfl, hafter⟩ | rfl
    · refine .inl ⟨?_, fun after _ ↦ ?_⟩
      · rw [List.getLast?_cons_cons, List.getLast?_cons, hlast]
        rfl
      · exact (if_pos htriple).trans (hafter after)
    · exact .inr (.inl ⟨s, rfl, fun s' ↦ (if_pos htriple).trans (hafter s')⟩)
    · exact .inr (.inr rfl)
  · rcases ends_afterSingle hquote h with ⟨hlast, hwidth, hafter⟩ | ⟨s, rfl, hafter⟩ | rfl
    · refine .inl ⟨hlast, fun after hhead ↦ ?_⟩
      have hbody : body ≠ [] := List.ne_nil_of_length_pos hwidth
      exact (if_neg (not_isPrefixOf_double hhead (fun h ↦ absurd h hbody) htriple)).trans
        (hafter after)
    · have hten : ∀ t : Text, (10 :: t).head? ≠ some quote := fun t ht ↦
        (ne_of_isQuote hquote).2 (Option.some.inj ht).symm
      refine .inr (.inl ⟨s, rfl, fun s' ↦ ?_⟩)
      have hnot := not_isPrefixOf_double (fun ht ↦ absurd ht (hten s')) (fun _ ↦ hten s') htriple
      exact (if_neg hnot).trans (hafter s')
    · exact .inr (.inr rfl)

end Closing

end Lexeme

/-! ### Seams -/

/-- A text starts with a line ending as its first two units do. -/
theorem Text.startsWithEnding_cons_cons (u v : CodeUnit) (s t : Text) :
    Text.startsWithEnding (u :: v :: s) = Text.startsWithEnding (u :: v :: t) := rfl

theorem Text.startsWithEnding_eq_true {t : Text} :
    t.startsWithEnding = true ↔ (∃ s, t = 10 :: s) ∨ ∃ s, t = 13 :: 10 :: s := by
  rw [Text.startsWithEnding, Bool.or_eq_true, List.isPrefixOf_iff_prefix,
    List.isPrefixOf_iff_prefix]
  exact or_congr (exists_congr fun _ ↦ eq_comm) (exists_congr fun _ ↦ eq_comm)

/-- One unit that is no carriage return says whether a line ending stands at the start. -/
theorem Text.startsWithEnding_cons_of_ne {u : CodeUnit} (h : u ≠ 13) (s t : Text) :
    Text.startsWithEnding (u :: s) = Text.startsWithEnding (u :: t) := by
  have hcr : ((13 : CodeUnit) == u) = false := beq_eq_false_iff_ne.mpr h.symm
  simp only [Text.startsWithEnding, List.isPrefixOf, hcr, Bool.false_and, Bool.or_false]

/-- What ends a line before `rest`: a line ending, or nothing if nothing comes after it. -/
def Text.IsEnding (ending rest : Text) : Prop :=
  ending = [10] ∨ ending = [13, 10] ∨ ending = [] ∧ rest = []

/-- The texts meet where something was cut out up to the end of a line: the first one ends a line,
or it ends in a unit that is not blank and the second one is empty or starts with a line ending. -/
def Text.IsSeam (before after : Text) : Prop :=
  before.EndsLine ∨ (∃ u, before.getLast? = some u ∧ u.isBlank = false) ∧
    (after = [] ∨ after.startsWithEnding = true)

/-- After a seam inside a line there is the end of the line. -/
theorem Text.IsSeam.head?_after {before after : Text} (h : before.IsSeam after)
    (hnot : ¬ before.EndsLine) :
    ∀ u ∈ after.head?, u = 10 ∨ u = 13 := by
  intro u hu
  rcases (h.resolve_left hnot).2 with rfl | hending
  · exact nomatch hu
  · rcases Text.startsWithEnding_eq_true.mp hending with ⟨s, rfl⟩ | ⟨s, rfl⟩
    · exact .inl (Option.some.inj hu).symm
    · exact .inr (Option.some.inj hu).symm

theorem Text.IsSeam.of_append {before part after : Text} (h : (before ++ part).IsSeam after)
    (hne : part ≠ []) :
    part.IsSeam after := by
  have hlast : (before ++ part).getLast? = part.getLast? := by
    rw [List.getLast?_append, List.getLast?_eq_some_getLast hne, Option.some_or]
  rw [IsSeam, EndsLine, hlast] at h
  exact h

/-- What comes before a seam does not end between a carriage return and a line feed. -/
theorem Text.IsSeam.ne_return {after : Text} (h : Text.IsSeam [13] after) : False := by
  rcases h with hends | ⟨⟨u, hu, hnot⟩, -⟩
  · exact Bool.noConfusion (hends 13 rfl)
  · obtain rfl := Option.some.inj hu
    exact Bool.noConfusion hnot

/-- No line ending is at the start of white space on a line and the number sign of a comment. -/
theorem Text.startsWithEnding_append {blanks rest : Text} (hline : blanks.IsOnLine)
    (hrest : rest.head? = some (CodeUnit.ofChar '#')) :
    Text.startsWithEnding (blanks ++ rest) = false := by
  obtain ⟨s, rfl⟩ := List.head?_eq_some_iff.mp hrest
  have hnot : ∀ u ∈ blanks, ((10 : CodeUnit) == u) = false :=
    fun u hu ↦ Bool.beq_comm.trans (hline u hu)
  rcases blanks with _ | ⟨u, _ | ⟨v, b⟩⟩
  · rfl
  · rw [List.forall_mem_singleton] at hnot
    simp only [startsWithEnding, List.cons_append, List.isPrefixOf, hnot, Bool.false_and,
      Bool.false_or]
    exact Bool.and_false _
  · rw [List.forall_mem_cons, List.forall_mem_cons] at hnot
    simp only [startsWithEnding, List.cons_append, List.isPrefixOf, hnot.1, hnot.2.1,
      Bool.false_and, Bool.and_false, Bool.or_self]

/-! ### A lexeme before another text -/

namespace Lexeme

variable {x : Lexeme} {rest : Text}

/-- The quote that closes a literal is its last unit. -/
theorem getLast?_literal (mark : Text) {body : Text} {quote : CodeUnit}
    (h : body.getLast? = some quote) :
    (mark ++ quote :: body).getLast? = some quote := by
  rw [List.getLast?_append, List.getLast?_cons, h]
  rfl

/-- A lexeme knows at most two units of the text after it. -/
theorem IsFirst.append_congr {part : Text} (h : x.IsFirst (part ++ rest)) (hne : part ≠ [])
    (hcr : part ≠ [13]) (rest' : Text) : x.IsFirst (part ++ rest') := by
  obtain ⟨u, part, rfl⟩ := List.exists_cons_of_ne_nil hne
  have hending : Text.startsWithEnding (u :: part ++ rest') =
      Text.startsWithEnding (u :: part ++ rest) := by
    cases part with
    | nil => exact Text.startsWithEnding_cons_of_ne (fun hu ↦ hcr (congrArg (fun v ↦ [v]) hu)) _ _
    | cons v part => exact Text.startsWithEnding_cons_cons u v _ _
  cases h with
  | comment line stop =>
    refine .comment line ?_
    rcases stop with hnil | hhead | ⟨s, hs⟩
    · exact absurd hnil (List.cons_ne_nil u _)
    · exact .inr (.inl hhead)
    · cases part with
      | nil => exact absurd (congrArg (fun v ↦ [v]) (List.cons_eq_cons.mp hs).1) hcr
      | cons v part =>
        simp only [List.cons_append, List.cons.injEq] at hs
        obtain ⟨rfl, rfl, -⟩ := hs
        exact .inr (.inr ⟨part ++ rest', rfl⟩)
  | continuation _ hending => exact .continuation _ hending
  | newline => exact .newline _
  | literal hquote hmark hword stop =>
    refine .literal hquote hmark hword ?_
    rcases afterLiteral_cases hquote stop with ⟨-, hafter⟩ | ⟨s, hs, hafter⟩ | hnil
    · exact hafter _ id
    · obtain ⟨rfl, -⟩ := List.cons_eq_cons.mp hs
      exact hafter (part ++ rest')
    · exact absurd hnil (List.cons_ne_nil u _)
  | word hne hword stop plain => exact .word hne hword stop plain
  | blank _ hblank => exact .blank _ hblank
  | symbol hsymbol stop => exact .symbol hsymbol fun hu ↦ hending.trans (stop hu)

theorem StopsComment.startsWithEnding {body : Text} (h : StopsComment body rest) (hne : rest ≠ []) :
    rest.startsWithEnding = true := by
  rcases h with hnil | ⟨hhead, -⟩ | hcrlf
  · exact absurd hnil hne
  · obtain ⟨s, hs⟩ := List.head?_eq_some_iff.mp hhead
    exact Text.startsWithEnding_eq_true.mpr (.inl ⟨s, hs⟩)
  · exact Text.startsWithEnding_eq_true.mpr (.inr hcrlf)

/-- A word ends at a seam. -/
theorem isFirst_word_of_isSeam {w after : Text} (hne : w ≠ [])
    (hword : ∀ u ∈ w, isWordUnit u = true) (hseam : w.IsSeam after) : IsFirst ⟨.word, w⟩ after := by
  have hnot : ¬ w.EndsLine := fun hends ↦ by
    have hunit := hword _ (List.getLast_mem hne)
    have hnewline := beq_iff_eq.mp (hends _ (List.getLast?_eq_some_getLast hne))
    rw [hnewline] at hunit
    exact Bool.noConfusion hunit
  refine .word hne hword (fun u hu ↦ ?_) (fun u hu hquote ↦ ?_)
  · rcases hseam.head?_after hnot u hu with rfl | rfl <;> rfl
  · rcases hseam.head?_after hnot u hu with rfl | rfl <;> exact Bool.noConfusion hquote

/-- At a seam behind a lexeme, it is still the first one, or it is a backslash that now makes a
continuation of the line. -/
theorem IsFirst.of_isSeam {after : Text} (h : x.IsFirst rest) (hne : rest ≠ [])
    (hending : rest.startsWithEnding = false) (hseam : x.text.IsSeam after) :
    x.IsFirst after ∨
      x = ⟨.symbol (CodeUnit.ofChar '\\'), [CodeUnit.ofChar '\\']⟩ ∧
      after.startsWithEnding = true := by
  cases h with
  | comment line stop => exact absurd (stop.startsWithEnding hne) (ne_true_of_eq_false hending)
  | continuation _ hending => exact .inl (.continuation _ hending)
  | newline => exact .inl (.newline _)
  | @literal mark body _ quote hquote hmark hword stop =>
    refine .inl (.literal hquote hmark hword ?_)
    rcases afterLiteral_cases hquote stop with ⟨hlast, hafter⟩ | ⟨s, rfl, -⟩ | hnil
    · have hnot : ¬ (mark ++ quote :: body).EndsLine := fun hends ↦
        (ne_of_isQuote hquote).2 (beq_iff_eq.mp (hends quote (getLast?_literal mark hlast)))
      refine hafter after fun hhead ↦ ?_
      rcases hseam.head?_after hnot quote hhead with rfl | rfl <;> exact Bool.noConfusion hquote
    · exact Bool.noConfusion hending
    · exact absurd hnil hne
  | word hnonempty hword stop plain => exact .inl (isFirst_word_of_isSeam hnonempty hword hseam)
  | blank _ hblank => exact .inl (.blank _ hblank)
  | @symbol u _ hsymbol stop =>
    by_cases hu : u = CodeUnit.ofChar '\\' ∧ after.startsWithEnding = true
    · exact .inr ⟨by rw [hu.1], hu.2⟩
    · exact .inl (.symbol hsymbol fun hslash ↦ eq_false_of_ne_true fun hafter ↦ hu ⟨hslash, hafter⟩)

end Lexeme

end Declutter
