import Declutter.Proofs.Comment.Linewise
/-!
Taking comments out of a text whose lines end in a carriage return and a line feed. A carriage
return is an escape with a backslash before it, belongs to the ending of a line behind a comment,
and is a blank elsewhere; yet all that comes out is as with line feeds alone
(`Text.strip_withReturns`). The scans of the two texts go side by side (`Lexeme.Gains`): the one of
the text with carriage returns sees a blank more before each line feed, or a literal that was not
closed takes the carriage return. Where one text has a course from comment to comment, the other one
has the same course with carriage returns (`Strip.Course.withReturns`).
-/

set_option autoImplicit false
set_option relaxedAutoImplicit false

namespace Declutter

open Lexeme

namespace Text

variable {s t : Text}

/-! ### Carriage returns before line feeds -/

/-- The text with a carriage return before each line feed. -/
def withReturns (t : Text) : Text := t.flatMap fun u ↦ if u.isNewline then [13, 10] else [u]

@[simp] theorem withReturns_nil : withReturns [] = [] := rfl

@[simp] theorem withReturns_newline (t : Text) :
    withReturns (10 :: t) = 13 :: 10 :: t.withReturns := rfl

theorem withReturns_cons {u : CodeUnit} (h : u ≠ 10) (t : Text) :
    withReturns (u :: t) = u :: withReturns t := by
  have hu : u.isNewline = false := beq_eq_false_iff_ne.mpr h
  rw [withReturns, List.flatMap_cons, hu]
  rfl

@[simp] theorem withReturns_append (s t : Text) :
    withReturns (s ++ t) = s.withReturns ++ t.withReturns :=
  List.flatMap_append

/-- A part of a line has no line feed to which a carriage return would be added. -/
theorem IsOnLine.withReturns_eq (h : t.IsOnLine) : t.withReturns = t := by
  induction t with
  | nil => rfl
  | cons u t ih =>
    rw [IsOnLine, List.forall_mem_cons] at h
    exact (withReturns_cons (beq_eq_false_iff_ne.mp h.1) t).trans (congrArg _ (ih h.2))

theorem withReturns_eq_nil_iff : t.withReturns = [] ↔ t = [] := by
  refine ⟨fun h ↦ ?_, fun h ↦ by rw [h, withReturns_nil]⟩
  cases t with
  | nil => rfl
  | cons u t =>
    by_cases hu : u = 10
    · rw [hu, withReturns_newline] at h
      exact nomatch h
    · rw [withReturns_cons hu] at h
      exact nomatch h

/-- A text keeps its last unit. -/
theorem getLast?_withReturns (t : Text) : t.withReturns.getLast? = t.getLast? := by
  rcases List.eq_nil_or_concat t with rfl | ⟨s, u, rfl⟩
  · rfl
  · rw [List.concat_eq_append, withReturns_append, List.getLast?_concat, List.getLast?_append]
    by_cases hu : u = 10
    · rw [hu]
      rfl
    · rw [withReturns_cons hu]
      rfl

theorem EndsLine.withReturns (h : t.EndsLine) : t.withReturns.EndsLine := fun u hu ↦
  h u (getLast?_withReturns t ▸ hu)

/-- The last line of a text has no line feed, and the lines before it still end before it. -/
theorem lastLine_withReturns (t : Text) : t.withReturns.lastLine = t.lastLine := by
  obtain ⟨lines, part, rfl, hlines, hpart⟩ := exists_cut_lastLine t
  rw [withReturns_append, hpart.withReturns_eq, lastLine_of_cut hlines.withReturns hpart,
    lastLine_of_cut hlines hpart]

theorem lineFeeds_withReturns (t : Text) : t.withReturns.lineFeeds = t.lineFeeds := by
  induction t with
  | nil => rfl
  | cons u t ih =>
    have hcons := lineFeeds_append [u] t
    rw [List.singleton_append] at hcons
    by_cases hu : u = 10
    · have hending := lineFeeds_append [13, 10] (withReturns t)
      rw [hcons, hu, withReturns_newline, ← ih]
      exact hending
    · have hlater := lineFeeds_append [u] (withReturns t)
      rw [hcons, withReturns_cons hu, ← ih]
      exact hlater

/-- A text starts as it did, or with a carriage return. -/
theorem eq_or_mem_head?_of_withReturns {u : CodeUnit} (h : u ∈ t.withReturns.head?) :
    u = 13 ∨ u ∈ t.head? := by
  cases t with
  | nil => exact nomatch h
  | cons v t =>
    by_cases hv : v = 10
    · rw [hv, withReturns_newline] at h
      exact .inl (Option.some.inj h).symm
    · rw [withReturns_cons hv] at h
      exact .inr h

/-- A text without carriage returns starts with a line ending if it still does with them. -/
theorem startsWithEnding_withReturns (h : 13 ∉ t) :
    t.withReturns.startsWithEnding = t.startsWithEnding := by
  cases t with
  | nil => rfl
  | cons u t =>
    by_cases hu : u = 10
    · rw [hu, withReturns_newline]
      rfl
    · have hreturn : u ≠ 13 := fun hu ↦ h (hu ▸ List.mem_cons_self)
      rw [withReturns_cons hu, startsWithEnding_cons_of_ne hreturn _ t]

end Text

namespace Lexeme

/-! ### The end of a literal -/

section Literals

variable {quote : CodeUnit} {t : Text}

theorem ne_return_of_isQuote (h : isQuote quote = true) : quote ≠ 13 := by
  rintro rfl
  exact Bool.noConfusion h

variable {scan : Text → Text}

/-- A scanner is past an escape with a carriage return in one step as without it. -/
theorem SkipsEscapes.escape_withReturns (hscan : SkipsEscapes scan) {u : CodeUnit} (hu : u ≠ 13)
    (t : Text) :
    scan (92 :: u :: t) = scan t ∧ scan (Text.withReturns (92 :: u :: t)) = scan t.withReturns := by
  refine ⟨hscan.escape u t fun h ↦ absurd h hu, ?_⟩
  rw [Text.withReturns_cons (by decide)]
  by_cases hten : u = 10
  · rw [hten, Text.withReturns_newline, hscan.lineEnding]
  · rw [Text.withReturns_cons hten, hscan.escape u _ fun h ↦ absurd h hu]

/-- What is left of a backslash has no line feed. -/
theorem SkipsEscapes.backslash_withReturns (hscan : SkipsEscapes scan) :
    scan (Text.withReturns [92]) = (scan [92]).withReturns := by
  have hline : (scan [92]).IsOnLine := fun u hu ↦ by
    obtain rfl := List.mem_singleton.mp ((hscan.suffix [92]).mem hu)
    rfl
  exact hline.withReturns_eq.symm

/-- A literal in single quotes ends where it ended; only if a line feed ends it, the carriage return
before the line feed belongs to it. -/
theorem afterSingle_withReturns (hquote : isQuote quote = true) (hreturn : 13 ∉ t) :
    afterSingle quote t.withReturns = (afterSingle quote t).withReturns ∨
      ∃ s, afterSingle quote t = 10 :: s ∧
      afterSingle quote t.withReturns = 10 :: Text.withReturns s := by
  induction t using escapeInduct with
  | nil => exact .inl rfl
  | lineEnding => simp at hreturn
  | escape u t hescape ih =>
    simp only [List.mem_cons, not_or] at hreturn
    obtain ⟨hskip, hskip'⟩ :=
      (skipsEscapes_afterSingle quote).escape_withReturns (Ne.symm hreturn.2.1) t
    rw [hskip, hskip']
    exact ih hreturn.2.2
  | backslash => exact .inl (skipsEscapes_afterSingle quote).backslash_withReturns
  | plain u t hu ih =>
    by_cases hten : u = 10
    · -- the line feed ends the literal, behind its carriage return
      have hopen : ((10 : CodeUnit) == quote) = false :=
        beq_eq_false_iff_ne.mpr (ne_of_isQuote hquote).2.symm
      have hopen' : ((13 : CodeUnit) == quote) = false :=
        beq_eq_false_iff_ne.mpr (ne_return_of_isQuote hquote).symm
      have hends : ∀ s : Text, afterSingle quote (10 :: s) = 10 :: s := fun s ↦ by
        rw [afterSingle_plain quote s (by decide), hopen]
        rfl
      refine .inr ⟨t, hten ▸ hends t, ?_⟩
      rw [hten, Text.withReturns_newline, afterSingle_plain quote _ (by decide), hopen']
      exact hends _
    · have hfalse : (u == CodeUnit.ofChar '\n') = false := beq_eq_false_iff_ne.mpr hten
      rw [Text.withReturns_cons hten, afterSingle_plain quote t hu, afterSingle_plain quote _ hu,
        hfalse]
      by_cases hclose : (u == quote) = true
      · exact .inl (by rw [if_pos hclose, if_pos hclose])
      · rw [if_neg hclose, if_neg hclose]
        exact ih fun h ↦ hreturn (List.mem_cons_of_mem u h)

/-- Quotes at the start of a text are there with carriage returns, with the same text after them. -/
theorem isPrefixOf_replicate_withReturns (hquote : isQuote quote = true) (n : Nat) (t : Text) :
    (List.replicate n quote).isPrefixOf t.withReturns = (List.replicate n quote).isPrefixOf t ∧
      ((List.replicate n quote).isPrefixOf t = true →
        t.withReturns.drop n = Text.withReturns (t.drop n)) := by
  induction n generalizing t with
  | zero => exact ⟨by simp, fun _ ↦ rfl⟩
  | succ n ih =>
    rw [List.replicate_succ]
    cases t with
    | nil => exact ⟨rfl, fun _ ↦ rfl⟩
    | cons u t =>
      by_cases hu : u = 10
      · have hten : (quote == (10 : CodeUnit)) = false :=
          beq_eq_false_iff_ne.mpr (ne_of_isQuote hquote).2
        have hreturn : (quote == (13 : CodeUnit)) = false :=
          beq_eq_false_iff_ne.mpr (ne_return_of_isQuote hquote)
        simp [hu, List.isPrefixOf, hten, hreturn]
      · rw [Text.withReturns_cons hu, List.isPrefixOf, List.isPrefixOf, (ih t).1,
          List.drop_succ_cons, List.drop_succ_cons]
        exact ⟨rfl, fun h ↦ (ih t).2 ((Bool.and_eq_true _ _).mp h).2⟩

/-- A literal in triple quotes ends where it ended. -/
theorem afterTriple_withReturns (hquote : isQuote quote = true) (hreturn : 13 ∉ t) :
    afterTriple quote t.withReturns = (afterTriple quote t).withReturns := by
  induction t using escapeInduct with
  | nil => rfl
  | lineEnding => simp at hreturn
  | escape u t hescape ih =>
    simp only [List.mem_cons, not_or] at hreturn
    obtain ⟨hskip, hskip'⟩ :=
      (skipsEscapes_afterTriple quote).escape_withReturns (Ne.symm hreturn.2.1) t
    rw [hskip, hskip', ih hreturn.2.2]
  | backslash => exact (skipsEscapes_afterTriple quote).backslash_withReturns
  | plain u t hu ih =>
    have hlater := ih fun h ↦ hreturn (List.mem_cons_of_mem u h)
    obtain ⟨hopening, hdrop⟩ := isPrefixOf_replicate_withReturns hquote 3 (u :: t)
    simp only [List.replicate] at hopening hdrop
    by_cases hten : u = 10
    · -- no quote is in the line ending
      have hskip : ∀ (v : CodeUnit) (s : Text), v ≠ 92 → v ≠ quote →
          afterTriple quote (v :: s) = afterTriple quote s :=
        fun v s hslash hv ↦ by
          have hopen : (quote == v) = false := beq_eq_false_iff_ne.mpr hv.symm
          rw [afterTriple_plain quote s hslash, List.isPrefixOf, hopen, Bool.false_and,
            if_neg Bool.false_ne_true]
      have hopen : (10 : CodeUnit) ≠ quote := (ne_of_isQuote hquote).2.symm
      rw [hten, Text.withReturns_newline, hskip 13 _ (by decide) (ne_return_of_isQuote hquote).symm,
        hskip 10 _ (by decide) hopen, hskip 10 _ (by decide) hopen, hlater]
    · rw [Text.withReturns_cons hten] at hopening hdrop ⊢
      rw [afterTriple_plain quote t hu, afterTriple_plain quote _ hu, hopening]
      by_cases hclose : [quote, quote, quote].isPrefixOf (u :: t) = true
      · rw [if_pos hclose, if_pos hclose]
        exact hdrop hclose
      · rw [if_neg hclose, if_neg hclose, hlater]

/-- A literal ends where it ended, or a line feed ends it and the carriage return before the line
feed belongs to it. -/
theorem afterLiteral_withReturns (hquote : isQuote quote = true) (hreturn : 13 ∉ t) :
    afterLiteral (quote :: t.withReturns) = (afterLiteral (quote :: t)).withReturns ∨
      ∃ s, afterLiteral (quote :: t) = 10 :: s ∧
      afterLiteral (quote :: t.withReturns) = 10 :: Text.withReturns s := by
  obtain ⟨hopening, hdrop⟩ := isPrefixOf_replicate_withReturns hquote 2 t
  simp only [List.replicate] at hopening hdrop
  rw [afterLiteral, afterLiteral, hopening]
  by_cases htriple : [quote, quote].isPrefixOf t = true
  · rw [if_pos htriple, if_pos htriple, hdrop htriple]
    exact .inl (afterTriple_withReturns hquote fun h ↦ hreturn (List.mem_of_mem_drop h))
  · rw [if_neg htriple, if_neg htriple]
    exact afterSingle_withReturns hquote hreturn

end Literals

/-! ### Two scans side by side -/

/-- The lexemes of a text and those of the text with carriage returns. A carriage return is a blank
before its line feed, and it belongs to a continuation of the line, to a literal that goes over the
end of the line, and to a literal that the end of the line stops. -/
inductive Gains : List Lexeme → List Lexeme → Prop
  | nil : Gains [] []
  | onLine {xs ys : List Lexeme} (x : Lexeme) (hline : x.text.IsOnLine) (h : Gains xs ys) :
      Gains (x :: xs) (x :: ys)
  | newline {xs ys : List Lexeme} (h : Gains xs ys) :
      Gains (⟨.newline, [10]⟩ :: xs) (⟨.blank, [13]⟩ :: ⟨.newline, [10]⟩ :: ys)
  | continuation {xs ys : List Lexeme} (h : Gains xs ys) :
      Gains (⟨.continuation, [92, 10]⟩ :: xs) (⟨.continuation, [92, 13, 10]⟩ :: ys)
  | literal {xs ys : List Lexeme} (t : Text) (h : Gains xs ys) :
      Gains (⟨.literal, t⟩ :: xs) (⟨.literal, t.withReturns⟩ :: ys)
  | stopped {xs ys : List Lexeme} (t : Text) (h : Gains xs ys) :
      Gains (⟨.literal, t⟩ :: ⟨.newline, [10]⟩ :: xs)
      (⟨.literal, t.withReturns ++ [13]⟩ :: ⟨.newline, [10]⟩ :: ys)

variable {xs ys : List Lexeme} {rest : Text}

theorem Gains.textOf_eq (h : Gains xs ys) : textOf ys = (textOf xs).withReturns := by
  induction h with
  | nil => rfl
  | onLine x hline _ ih =>
    rw [textOf_cons, textOf_cons, Text.withReturns_append, hline.withReturns_eq, ih]
  | newline _ ih => simp [ih]
  | continuation _ ih => simp [ih, Text.withReturns_cons]
  | literal t _ ih => rw [textOf_cons, textOf_cons, Text.withReturns_append, ih]
  | stopped t _ ih => simp [ih]

/-- Where the first of the two scans comes to a line feed, the second one comes to its carriage
return. -/
theorem Gains.exists_of_newline {n : Text} (h : Gains (⟨.newline, n⟩ :: xs) ys) (hn : n = [10]) :
    ∃ zs, ys = ⟨.blank, [13]⟩ :: ⟨.newline, [10]⟩ :: zs ∧ Gains xs zs := by
  cases h with
  | onLine _ hline => exact absurd (hline 10 (hn ▸ List.mem_singleton.mpr rfl)) (by decide)
  | newline h => exact ⟨_, rfl, h⟩

/-- A text that starts with a line feed has it as its first lexeme. -/
theorem IsScan.exists_of_head?_newline (h : IsScan xs rest) (hrest : rest.head? ≠ some 10)
    {s : Text} (htext : textOf xs ++ rest = 10 :: s) : ∃ xs', xs = ⟨.newline, [10]⟩ :: xs' := by
  cases xs with
  | nil => exact absurd (congrArg List.head? htext) hrest
  | cons x xs =>
    have hsplit := h.1.split_eq
    rw [textOf_cons, List.append_assoc] at htext
    rw [htext] at hsplit
    exact ⟨xs,
      congrArg (· :: xs) (List.cons_eq_cons.mp (hsplit.symm.trans (IsFirst.newline s).split_eq)).1⟩

theorem StopsComment.withReturns {body : Text} (h : StopsComment body rest) (hreturn : 13 ∉ rest) :
    StopsComment body rest.withReturns := by
  rcases h with rfl | ⟨hhead, -⟩ | ⟨s, rfl⟩
  · exact .inl rfl
  · obtain ⟨s, rfl⟩ := List.head?_eq_some_iff.mp hhead
    exact .inr (.inr ⟨Text.withReturns s, rfl⟩)
  · exact absurd List.mem_cons_self hreturn

theorem IsFirst.comment_withReturns {t : Text} (h : IsFirst ⟨.comment, t⟩ rest)
    (hreturn : 13 ∉ rest) :
    IsFirst ⟨.comment, t⟩ rest.withReturns := by
  cases h with
  | comment line stop => exact .comment line (stop.withReturns hreturn)

/-- The scan of a text with carriage returns sees what gains them in the scan of the text. -/
theorem IsScan.exists_gains (h : IsScan xs rest) (hreturn : 13 ∉ textOf xs ++ rest)
    (hrest : rest.head? ≠ some 10) :
    ∃ ys, Gains xs ys ∧ IsScan ys rest.withReturns := by
  induction xs with
  | nil => exact ⟨[], .nil, trivial⟩
  | cons x xs ih =>
    obtain ⟨hfirst, hscan⟩ := h
    rw [textOf_cons, List.append_assoc, List.mem_append, not_or] at hreturn
    obtain ⟨hreturnText, hreturnRest⟩ := hreturn
    obtain ⟨ys, hgains, hys⟩ := ih hscan hreturnRest
    have hafter : textOf ys ++ rest.withReturns = (textOf xs ++ rest).withReturns := by
      rw [hgains.textOf_eq, Text.withReturns_append]
    cases hfirst with
    | @comment body _ line stop =>
      have hstop := stop.withReturns hreturnRest
      exact ⟨_, .onLine _ (List.forall_mem_cons.mpr ⟨rfl, line⟩) hgains,
        .comment line (hafter ▸ hstop), hys⟩
    | continuation _ hending =>
      rcases hending with rfl | rfl
      · exact ⟨_, .continuation hgains, .continuation _ (.inr rfl), hys⟩
      · simp at hreturnText
    | newline => exact ⟨_, .newline hgains, .blank _ rfl, .newline _, hys⟩
    | @literal mark body _ quote hquote hmark hword stop =>
      have hmarkLine : Text.IsOnLine mark := fun u hu ↦ (of_isWordUnit (hword u hu)).2.2.1
      have hbody : 13 ∉ body ++ (textOf xs ++ rest) := fun h ↦ by
        rcases List.mem_append.mp h with h | h
        · exact hreturnText (List.mem_append_right _ (List.mem_cons_of_mem _ h))
        · exact hreturnRest h
      have htext : (mark ++ quote :: body).withReturns = mark ++ quote :: body.withReturns := by
        rw [Text.withReturns_append, hmarkLine.withReturns_eq,
          Text.withReturns_cons (ne_of_isQuote hquote).2]
      have hstop := afterLiteral_withReturns hquote hbody
      rw [stop, Text.withReturns_append] at hstop
      rcases hstop with hstop | ⟨s, hs, hstop⟩
      · exact ⟨_, .literal _ hgains, htext ▸ .literal hquote hmark hword (hafter ▸ hstop), hys⟩
      · -- the literal stops at a line feed, and the carriage return before it belongs to it
        obtain ⟨xs, rfl⟩ := hscan.exists_of_head?_newline hrest hs
        obtain ⟨zs, rfl, hzs⟩ := hgains.exists_of_newline rfl
        rw [hs, Text.withReturns_newline] at hafter hstop
        have hnext : textOf (⟨.newline, [10]⟩ :: zs) ++ rest.withReturns = 10 ::
            Text.withReturns s :=
          (List.cons_eq_cons.mp hafter).2
        refine ⟨_, .stopped _ hzs, ?_, hys.2⟩
        rw [htext, hnext, List.append_assoc, List.cons_append]
        refine @IsFirst.literal mark (body.withReturns ++ [13]) _ quote hquote hmark hword ?_
        rwa [List.append_assoc, List.singleton_append]
    | word hne hword stop plain =>
      have hline : Text.IsOnLine _ := fun u hu ↦ (of_isWordUnit (hword u hu)).2.2.1
      refine ⟨_, .onLine _ hline hgains, .word hne hword (fun u hu ↦ ?_) (fun u hu hquote ↦ ?_),
        hys⟩
      · rcases Text.eq_or_mem_head?_of_withReturns (hafter ▸ hu) with rfl | hu
        · rfl
        · exact stop u hu
      · rcases Text.eq_or_mem_head?_of_withReturns (hafter ▸ hu) with rfl | hu
        · exact Bool.noConfusion hquote
        · exact plain u hu hquote
    | @blank u _ hblank =>
      have hu : u.isNewline = false := by
        rcases eq_of_isInlineBlank hblank with rfl | rfl | rfl | rfl | rfl <;> rfl
      exact ⟨_, .onLine _ (List.forall_mem_singleton.mpr hu) hgains, .blank _ hblank, hys⟩
    | @symbol u _ hsymbol stop =>
      have hu : u.isNewline = false := by
        simp only [isSymbolUnit, Bool.not_eq_true', Bool.or_eq_false_iff] at hsymbol
        exact hsymbol.1.1.1.2
      refine ⟨_, .onLine _ (List.forall_mem_singleton.mpr hu) hgains,
        .symbol hsymbol fun hslash ↦ ?_, hys⟩
      rw [hafter, Text.startsWithEnding_withReturns hreturnRest]
      exact stop hslash

/-- The lexemes of a text without carriage returns gain them in the text with them. -/
theorem gains_split {t : Text} (hreturn : 13 ∉ t) : Gains (split t) (split t.withReturns) := by
  obtain ⟨htext, hscan⟩ := isScan_split t
  obtain ⟨ys, hgains, hys⟩ := hscan.exists_gains (by rwa [htext, List.append_nil]) (by simp)
  have hsplit := hys.split_eq
  rw [hgains.textOf_eq, htext, Text.withReturns_nil, List.append_nil, split, List.append_nil]
    at hsplit
  exact hsplit ▸ hgains

/-! ### What is seen -/

theorem map_found_cons (s : Passage.State) (x : Lexeme) (xs : List Lexeme) :
    (Passage.found s (x :: xs)).map (·.1) =
      (Passage.kindOf s x xs).toList ++ (Passage.found (s.step x) xs).map (·.1) := by
  rw [Passage.found, List.map_append]
  cases Passage.kindOf s x xs <;> rfl

/-- A statement ends where it ended. -/
theorem Gains.endsStatement_eq (h : Gains xs ys) (depth : Nat) :
    Passage.endsStatement depth ys = Passage.endsStatement depth xs := by
  induction h with
  | nil => rfl
  | onLine x _ _ ih => rw [Passage.endsStatement, Passage.endsStatement, ih]
  | newline _ ih => exact congrArg (depth == 0 || ·) ih
  | continuation _ ih => exact ih
  | literal => rfl
  | stopped => rfl

/-- The passages that the two scans find are of the same kinds: a blank leaves the state of the scan
as it is. -/
theorem Gains.map_found_eq (h : Gains xs ys) (s : Passage.State) :
    (Passage.found s ys).map (·.1) = (Passage.found s xs).map (·.1) := by
  induction h generalizing s with
  | nil => rfl
  | @onLine xs ys x _ h ih =>
    have hkind : Passage.kindOf s x ys = Passage.kindOf s x xs := by
      rw [Passage.kindOf, h.endsStatement_eq, ← Passage.kindOf]
    rw [map_found_cons, map_found_cons, hkind, ih]
  | newline _ ih => exact ih _
  | continuation _ ih => exact ih _
  | @literal xs ys t h ih =>
    have hkind : Passage.kindOf s ⟨.literal, t.withReturns⟩ ys =
        Passage.kindOf s ⟨.literal, t⟩ xs := by
      simp only [Passage.kindOf, h.endsStatement_eq]
    rw [map_found_cons, map_found_cons, hkind]
    exact congrArg _ (ih _)
  | @stopped xs ys t h ih =>
    have hkind : Passage.kindOf s ⟨.literal, t.withReturns ++ [13]⟩ (⟨.newline, [10]⟩ :: ys) =
        Passage.kindOf s ⟨.literal, t⟩ (⟨.newline, [10]⟩ :: xs) := by
      have hends : Passage.endsStatement s.depth (⟨.newline, [10]⟩ :: ys) =
          Passage.endsStatement s.depth (⟨.newline, [10]⟩ :: xs) :=
          congrArg (_ || ·) (h.endsStatement_eq s.depth)
      simp only [Passage.kindOf, hends]
    rw [map_found_cons, map_found_cons, hkind]
    exact congrArg _ (ih _)

end Lexeme

/-- The sighting is seen as the other one in the text with carriage returns. -/
structure Sighting.Gains (s s' : Sighting) : Prop where
  kind_eq : s'.lexeme.kind = s.lexeme.kind
  before_eq : s'.before = s.before.withReturns
  comment : s.lexeme.kind = .comment → s'.lexeme = s.lexeme

namespace Lexeme

variable {xs ys : List Lexeme}

/-- Both scans see the same comments and literals, the comments with the same text. -/
theorem Gains.forall₂_sightings (h : Gains xs ys) (before : Text) :
    List.Forall₂ Sighting.Gains (sightings before xs) (sightings before.withReturns ys) := by
  induction h generalizing before with
  | nil => exact .nil
  | @onLine xs ys x hline _ ih =>
    have hlater := ih (before ++ x.text)
    rw [Text.withReturns_append, hline.withReturns_eq] at hlater
    rw [sightings, sightings]
    split_ifs
    · exact .cons ⟨rfl, rfl, fun _ ↦ rfl⟩ hlater
    · exact hlater
  | newline _ ih =>
    have hlater := ih (before ++ [10])
    rw [sightings_cons_of_not _ _ rfl, sightings_cons_of_not _ _ rfl, sightings_cons_of_not _ _ rfl,
      List.append_assoc]
    rwa [Text.withReturns_append] at hlater
  | continuation _ ih =>
    have hlater := ih (before ++ [92, 10])
    rw [sightings_cons_of_not _ _ rfl, sightings_cons_of_not _ _ rfl]
    rwa [Text.withReturns_append, Text.withReturns_cons (by decide)] at hlater
  | literal t _ ih =>
    have hlater := ih (before ++ t)
    rw [Text.withReturns_append] at hlater
    exact .cons ⟨rfl, rfl, fun hkind ↦ LexemeKind.noConfusion hkind⟩ hlater
  | @stopped xs ys t _ ih =>
    have hlater := ih (before ++ t ++ [10])
    have hbefore : Text.withReturns (before ++ t ++ [10]) = before.withReturns ++
        (t.withReturns ++ [13]) ++ [10] := by
      simp
    rw [hbefore] at hlater
    refine .cons ⟨rfl, rfl, fun hkind ↦ LexemeKind.noConfusion hkind⟩ ?_
    rwa [sightings_cons_of_not _ _ rfl, sightings_cons_of_not _ _ rfl]

end Lexeme

/-- A comment is a directive of both texts or of none: the line before it is the same, and as many
line feeds are before it. -/
theorem Sighting.Gains.isRemoved_eq {s s' : Sighting} (h : s.Gains s') (rules : CommentRules) :
    s'.isRemoved rules = s.isRemoved rules := by
  by_cases hkind : s.lexeme.kind = .comment
  · have hempty : s'.before.isEmpty = s.before.isEmpty := by
      rw [h.before_eq, Bool.eq_iff_iff, List.isEmpty_iff, List.isEmpty_iff,
        Text.withReturns_eq_nil_iff]
    have hdirective : s'.isDirective = s.isDirective := by
      rw [isDirective, isDirective, hempty, h.before_eq, Text.lineFeeds_withReturns,
        Text.lastLine_withReturns, h.comment hkind]
    rw [isRemoved, isRemoved, hdirective, h.comment hkind]
  · have hnot : (s.lexeme.kind == .comment) = false := beq_eq_false_iff_ne.mpr hkind
    rw [isRemoved, isRemoved, h.kind_eq, hnot]
    rfl

namespace Strip

variable {rules : CommentRules} {before : Text}

/-! ### Two courses side by side -/

theorem Leaves.withReturns {kept ending left : Text} (h : Leaves rules kept ending left) :
    Leaves rules kept.withReturns ending.withReturns left.withReturns := by
  cases h with
  | alone h =>
    have hleaves := @Leaves.alone rules kept.withReturns ending.withReturns h.withReturns
    by_cases hpreserve : rules.preserveBlankLines = true
    · rwa [if_pos hpreserve] at hleaves ⊢
    · rwa [if_neg hpreserve] at hleaves ⊢
  | behind h =>
    rw [← Text.getLast?_withReturns] at h
    exact .behind h

theorem withReturns_isEnding {ending rest : Text} (h : ending.IsEnding rest)
    (hreturn : 13 ∉ ending) :
    ending.withReturns.IsEnding rest.withReturns := by
  rcases h with rfl | rfl | ⟨rfl, rfl⟩
  · exact .inr (.inl rfl)
  · exact absurd List.mem_cons_self hreturn
  · exact .inr (.inr ⟨rfl, rfl⟩)

/-- The first comment that goes is the first one that goes in the text with carriage returns. -/
theorem Cut.exists_withReturns (c : Cut rules before) (hreturn : 13 ∉ c.text) :
    ∃ c' : Cut rules before.withReturns, c'.text = c.text.withReturns ∧
    c'.past = c.past.withReturns ∧
      c'.kept = c.kept.withReturns ∧ c'.left = c.left.withReturns ∧
      c'.rest = c.rest.withReturns := by
  have hcomment := c.isOnLine_comment.withReturns_eq
  have hblanks := c.isOnLine.withReturns_eq
  have hbefore : (before ++ (c.kept ++ c.blanks)).withReturns =
      before.withReturns ++ (c.kept.withReturns ++ c.blanks) := by
    rw [Text.withReturns_append, Text.withReturns_append, hblanks]
  have hafter : (c.comment ++ (c.ending ++ c.rest)).withReturns =
      c.comment ++ (c.ending.withReturns ++ c.rest.withReturns) := by
    rw [Text.withReturns_append, Text.withReturns_append, hcomment]
  have htext : c.text = textOf c.lexemes ++ (c.comment ++ (c.ending ++ c.rest)) := by
    rw [c.textOf_eq, Cut.text, List.append_assoc]
  have hhead : (c.comment ++ (c.ending ++ c.rest)).head? ≠ some 10 := by
    rw [List.head?_append, c.head?_comment, Option.some_or]
    decide
  obtain ⟨ys, hgains, hys⟩ := c.isScan.exists_gains (htext ▸ hreturn) hhead
  simp only [Cut.text, List.mem_append, not_or] at hreturn
  obtain ⟨-, -, -, hending, hrest⟩ := hreturn
  have hfirst : IsFirst ⟨.comment, c.comment⟩ (c.ending.withReturns ++ c.rest.withReturns) := by
    rw [← Text.withReturns_append]
    exact c.isFirst.comment_withReturns fun h ↦ (List.mem_append.mp h).elim hending hrest
  have hremoved : Sighting.isRemoved rules
      ⟨before.withReturns ++ (c.kept.withReturns ++ c.blanks), ⟨.comment, c.comment⟩⟩ = true := by
    have hgains : Sighting.Gains ⟨before ++ (c.kept ++ c.blanks), ⟨.comment, c.comment⟩⟩
        ⟨before.withReturns ++ (c.kept.withReturns ++ c.blanks), ⟨.comment, c.comment⟩⟩ :=
      ⟨rfl, hbefore.symm, fun _ ↦ rfl⟩
    exact (hgains.isRemoved_eq rules).trans c.isRemoved
  have hstays := forall_mem_of_forall₂ (fun s s' hs h ↦ (h.isRemoved_eq rules).trans hs)
    (hgains.forall₂_sightings before) c.stays
  have htextOf : textOf ys = c.kept.withReturns ++ c.blanks := by
    rw [hgains.textOf_eq, c.textOf_eq, Text.withReturns_append, hblanks]
  refine ⟨⟨ys, c.kept.withReturns, c.blanks, c.comment, c.ending.withReturns, c.left.withReturns,
    c.rest.withReturns, c.endsLine.withReturns, hafter ▸ hys, htextOf, hstays, c.isBlank,
    c.isOnLine, hfirst, hremoved, withReturns_isEnding c.isEnding hending, c.leaves.withReturns⟩,
    ?_, ?_, rfl, rfl, rfl⟩
  · simp only [Cut.text, Text.withReturns_append, hblanks, hcomment]
  · simp only [Cut.past, Text.withReturns_append, hblanks, hcomment]

/-- A course through a text is one through the text with carriage returns. -/
theorem Course.withReturns {t out : Text} (h : Course rules before t out) (hreturn : 13 ∉ t) :
    Course rules before.withReturns t.withReturns out.withReturns := by
  induction h with
  | @stay before t hstays =>
    have hgains := (gains_split hreturn).forall₂_sightings before
    exact .stay
      (forall_mem_of_forall₂ (fun s s' hs h ↦ (h.isRemoved_eq rules).trans hs) hgains hstays)
  | @cut before out c _ ih =>
    obtain ⟨c', htext, hpast, hkept, hleft, hrest⟩ := c.exists_withReturns hreturn
    have hlater := ih fun h ↦ hreturn (by simp [Cut.text, h])
    rw [← hpast, ← hrest] at hlater
    have hcut := Course.cut c' hlater
    rwa [htext, hkept, hleft, ← Text.withReturns_append, ← Text.withReturns_append] at hcut

/-- The texts of the comments that go are those of the sightings that go. -/
theorem map_read_removed (source : Text) (rules : CommentRules) :
    (removed source rules).map (·.span.read source) =
      ((sightings [] (split source)).filter (·.isRemoved rules)).map (·.lexeme.text) := by
  have hgoes := source.forall₂_marks_filter rules id
  rw [← List.forall₂_eq_eq_eq, List.forall₂_map_left_iff, List.forall₂_map_right_iff]
  exact hgoes.flip.imp fun p s h ↦ by rw [h.span_eq, h.standsIn.read_span]

theorem map_read_removed_withReturns {source : Text} (rules : CommentRules)
    (hreturn : 13 ∉ source) :
    (removed source.withReturns rules).map (·.span.read source.withReturns) =
      (removed source rules).map (·.span.read source) := by
  have hseen : List.Forall₂ Sighting.Gains
    ((sightings [] (split source)).filter (·.isRemoved rules))
      ((sightings [] (split source.withReturns)).filter (·.isRemoved rules)) := by
    refine List.rel_filter (fun s s' h ↦ ?_) ((gains_split hreturn).forall₂_sightings [])
    change s.isRemoved rules = true ↔ s'.isRemoved rules = true
    rw [h.isRemoved_eq]
  have hcomments : ∀ s ∈ (sightings [] (split source)).filter (·.isRemoved rules),
      s.lexeme.kind = .comment := by
    intro s hs
    have hremoved := (List.mem_filter.mp hs).2
    rw [Sighting.isRemoved, Bool.and_eq_true, Bool.and_eq_true, beq_iff_eq] at hremoved
    exact hremoved.1.1
  rw [map_read_removed, map_read_removed, ← List.forall₂_eq_eq_eq, List.forall₂_map_left_iff,
    List.forall₂_map_right_iff]
  have hboth := (List.forall₂_and_left _ _).mpr ⟨hcomments, hseen⟩
  exact hboth.flip.imp fun s' s h ↦ by rw [h.2.comment h.1]

end Strip

/-- Taking comments out of a text without carriage returns and out of the same text with a carriage
return before each line feed comes to the same: the texts that are left differ in the carriage
returns alone, the comments that go have the same texts in the same order, and the passages of the
two texts are of the same kinds in the same order. -/
theorem Text.strip_withReturns (source : Text) (rules : CommentRules) (hreturn : 13 ∉ source) :
    ∃ stripped removed removed', source.strip rules = .ok (stripped, removed) ∧
      source.withReturns.strip rules = .ok (stripped.withReturns, removed') ∧
      removed'.map (·.span.read source.withReturns) = removed.map (·.span.read source) ∧
      source.withReturns.passages.map (·.kind) = source.passages.map (·.kind) := by
  obtain ⟨stripped, hcourse, hstrip⟩ := source.exists_strip rules
  obtain ⟨stripped', hcourse', hstrip'⟩ := source.withReturns.exists_strip rules
  have hsame : stripped' = stripped.withReturns := by
    have happly := (hcourse.withReturns hreturn).applyAll_edits
    rw [hcourse'.applyAll_edits] at happly
    exact Except.ok.inj happly
  refine ⟨stripped, _, _, hstrip, hsame ▸ hstrip', Strip.map_read_removed_withReturns rules hreturn,
    ?_⟩
  have hkinds : ∀ t : Text, t.passages.map (·.kind) = (Passage.found {} (split t)).map (·.1) :=
    fun t ↦ by
    rw [← t.map_read_passages, List.map_map]
    rfl
  rw [hkinds, hkinds, (gains_split hreturn).map_found_eq]

/-- A comment behind code, and a literal that goes over the end of a line and is stopped by the end
of the next one. -/
def stoppedLiteral : Text := "x = 1  # a\n'b\\\nc\ny\n"

theorem Text.strip_withReturns_stoppedLiteral :
    13 ∉ stoppedLiteral ∧ ∃ removed',
      stoppedLiteral.withReturns.strip {} = .ok ("x = 1\r\n'b\\\r\nc\r\ny\r\n", removed') ∧
      removed'.map (·.span.read stoppedLiteral.withReturns) = ["# a"] ∧
      stoppedLiteral.withReturns.passages.map (·.kind) = [.comment, .literal] := by
  have hreturn : 13 ∉ stoppedLiteral := by decide
  obtain ⟨stripped, removed, removed', hstrip, hstrip', hread, hkinds⟩ :=
    Text.strip_withReturns stoppedLiteral {} hreturn
  have hresult : (stoppedLiteral.strip {}).toOption.map
    (fun r ↦ (r.1, r.2.map (·.span.read stoppedLiteral))) =
      some (("x = 1\n'b\\\nc\ny\n" : Text), (["# a"] : List Text)) := by decide +kernel
  rw [hstrip] at hresult
  obtain ⟨rfl, hremoved⟩ := Prod.mk.inj (Option.some.inj hresult)
  exact ⟨hreturn, removed', hstrip', hread.trans hremoved, hkinds.trans (by decide +kernel)⟩

end Declutter
