import Declutter.Comment.Lexeme
import Declutter.Proofs.Text.Offset
/-!
What a lexeme is, said without the scanner. `Lexeme.IsFirst` says of a lexeme and a text after it
that the two make a text which starts with that lexeme: there is a constructor for each kind, with
what the kind demands of its own units and of the units that follow. The scanner finds exactly these
lexemes (`Lexeme.isFirst_next`, `Lexeme.IsFirst.next_eq`), so that splitting a text gives the one
list of lexemes that make the text and are each first where they stand (`Lexeme.isScan_split`,
`Lexeme.IsScan.split_eq`).
-/

set_option autoImplicit false
set_option relaxedAutoImplicit false

namespace Declutter

/-- Whether the text starts with a line ending: a line feed, or a carriage return and a line
feed. -/
def Text.startsWithEnding (t : Text) : Bool := [10].isPrefixOf t || [13, 10].isPrefixOf t

namespace Lexeme

/-! ### Lexemes of each kind -/

/-- The text that lexemes make. -/
def textOf (xs : List Lexeme) : Text := xs.flatMap (·.text)

@[simp] theorem textOf_nil : textOf [] = [] := rfl

@[simp] theorem textOf_cons (x : Lexeme) (xs : List Lexeme) :
    textOf (x :: xs) = x.text ++ textOf xs :=
  List.flatMap_cons

@[simp] theorem textOf_append (xs ys : List Lexeme) : textOf (xs ++ ys) = textOf xs ++ textOf ys :=
  List.flatMap_append

/-- A unit that makes a lexeme of no other kind. -/
def isSymbolUnit (u : CodeUnit) : Bool :=
  !(u == '#' || u == '\n' || isQuote u || isWordUnit u || isInlineBlank u)

/-- The comment with this text after the number sign stops where `rest` begins: at the end of the
text or at a line ending, of which it takes no unit. -/
def StopsComment (body rest : Text) : Prop :=
  rest = [] ∨ (rest.head? = some 10 ∧ body.getLast? ≠ some 13) ∨ ∃ s, rest = 13 :: 10 :: s

/-- The lexeme comes first in a text in which `rest` comes after it. -/
inductive IsFirst : Lexeme → Text → Prop
  | comment {body rest : Text} (line : body.IsOnLine) (stop : StopsComment body rest) :
      IsFirst ⟨.comment, CodeUnit.ofChar '#' :: body⟩ rest
  | continuation {ending : Text} (rest : Text) (hending : ending = [10] ∨ ending = [13, 10]) :
      IsFirst ⟨.continuation, CodeUnit.ofChar '\\' :: ending⟩ rest
  | newline (rest : Text) : IsFirst ⟨.newline, [10]⟩ rest
  /-- A literal is a quote and what belongs to it, after a word that makes a literal of it or after
  none. -/
  | literal {mark body rest : Text} {quote : CodeUnit} (hquote : isQuote quote = true)
      (hmark : mark = [] ∨ isLiteralPrefix mark = true) (hword : ∀ u ∈ mark, isWordUnit u = true)
      (stop : afterLiteral (quote :: (body ++ rest)) = rest) :
      IsFirst ⟨.literal, mark ++ quote :: body⟩ rest
  | word {w rest : Text} (hne : w ≠ []) (hword : ∀ u ∈ w, isWordUnit u = true)
      (stop : ∀ u ∈ rest.head?, isWordUnit u = false)
      (plain : ∀ u ∈ rest.head?, isQuote u = true → isLiteralPrefix w = false) :
      IsFirst ⟨.word, w⟩ rest
  | blank {u : CodeUnit} (rest : Text) (hblank : isInlineBlank u = true) :
      IsFirst ⟨.blank, [u]⟩ rest
  | symbol {u : CodeUnit} {rest : Text} (hsymbol : isSymbolUnit u = true)
      (stop : u = CodeUnit.ofChar '\\' → rest.startsWithEnding = false) : IsFirst
        ⟨.symbol u, [u]⟩ rest

/-! ### Where literals and comments end -/

theorem afterSingle_suffix (quote : CodeUnit) (t : Text) : afterSingle quote t <:+ t := by
  fun_induction afterSingle quote t with
  | case1 => exact List.suffix_refl _
  | case2 rest ih => exact ih.trans ⟨[92, 13, 10], rfl⟩
  | case3 u rest _ ih => exact ih.trans ⟨[92, u], rfl⟩
  | case4 u rest => exact List.suffix_cons u rest
  | case5 u rest => exact List.suffix_refl _
  | case6 u rest _ _ _ _ ih => exact ih.trans (List.suffix_cons u rest)

theorem afterTriple_suffix (quote : CodeUnit) (t : Text) : afterTriple quote t <:+ t := by
  fun_induction afterTriple quote t with
  | case1 => exact List.suffix_refl _
  | case2 rest ih => exact ih.trans ⟨[92, 13, 10], rfl⟩
  | case3 u rest _ ih => exact ih.trans ⟨[92, u], rfl⟩
  | case4 u rest => exact (List.drop_suffix 2 rest).trans (List.suffix_cons u rest)
  | case5 u rest _ _ _ ih => exact ih.trans (List.suffix_cons u rest)

theorem afterLiteral_suffix (quote : CodeUnit) (t : Text) : afterLiteral (quote :: t) <:+ t := by
  rw [afterLiteral]
  split_ifs
  · exact (afterTriple_suffix quote _).trans (List.drop_suffix 2 t)
  · exact afterSingle_suffix quote t

/-- What is left after a comment, and the comment itself. -/
theorem afterComment_spec (t : Text) :
    ∃ body, t = body ++ afterComment t ∧ body.IsOnLine ∧ StopsComment body (afterComment t) := by
  have hline : ∀ u ∈ t.takeWhile (!·.isNewline), u.isNewline = false := fun u hu ↦ by
    simpa using List.mem_takeWhile_imp hu
  have hcut : t = t.takeWhile (!·.isNewline) ++ t.dropWhile (!·.isNewline) :=
    List.takeWhile_append_dropWhile.symm
  have hhead := List.head?_dropWhile_not (!·.isNewline) t
  unfold afterComment
  generalize t.takeWhile (!·.isNewline) = line at hline hcut ⊢
  generalize t.dropWhile (!·.isNewline) = ending at hhead hcut ⊢
  cases ending with
  | nil => exact ⟨line, hcut, hline, .inl rfl⟩
  | cons v s =>
    obtain rfl : v = 10 := by simpa [CodeUnit.isNewline] using hhead
    dsimp only
    split_ifs with hlast
    · rw [beq_iff_eq, List.getLast?_eq_some_iff] at hlast
      obtain ⟨body, rfl⟩ := hlast
      refine ⟨body, ?_, fun u hu ↦ hline u (List.mem_append_left _ hu), .inr (.inr ⟨s, rfl⟩)⟩
      rw [hcut, List.append_assoc, List.singleton_append]
    · exact ⟨line, hcut, hline, .inr (.inl ⟨rfl, fun h ↦ hlast (beq_iff_eq.mpr h)⟩)⟩

theorem afterComment_append {body rest : Text} (hline : body.IsOnLine)
    (hstop : StopsComment body rest) :
    afterComment (body ++ rest) = rest := by
  have hnot : ∀ u ∈ body, (!u.isNewline) = true := fun u hu ↦ by rw [hline u hu]; rfl
  have htake : (body ++ rest).takeWhile (!·.isNewline) = body ++ rest.takeWhile (!·.isNewline) :=
    List.takeWhile_append_of_pos hnot
  have hdrop : (body ++ rest).dropWhile (!·.isNewline) = rest.dropWhile (!·.isNewline) :=
    List.dropWhile_append_of_pos hnot
  unfold afterComment
  rw [htake, hdrop]
  rcases hstop with rfl | ⟨hhead, hlast⟩ | ⟨s, rfl⟩
  · rfl
  · obtain ⟨s, rfl⟩ := List.head?_eq_some_iff.mp hhead
    have hten : CodeUnit.isNewline 10 = true := rfl
    simp only [List.dropWhile_cons, List.takeWhile_cons, hten, Bool.not_true,
      Bool.false_eq_true, if_false, List.append_nil, beq_iff_eq, if_neg hlast]
  · have hten : CodeUnit.isNewline 10 = true := rfl
    have hthirteen : CodeUnit.isNewline 13 = false := rfl
    simp only [List.dropWhile_cons, List.takeWhile_cons, hten, hthirteen, Bool.not_true,
      Bool.not_false, Bool.false_eq_true, if_true, if_false, List.getLast?_append,
      List.getLast?_singleton, Option.some_or, beq_self_eq_true]

/-! ### The scanner finds these lexemes -/

theorem cut_append (kind : LexemeKind) (part rest : Text) :
    cut kind (part ++ rest) rest = (⟨kind, part⟩, rest) := by
  rw [cut, List.length_append, Nat.add_sub_cancel, List.take_left]

theorem isFirst_of_cut {kind : LexemeKind} {t part rest : Text} (ht : t = part ++ rest)
    (h : IsFirst ⟨kind, part⟩ rest) :
    (cut kind t rest).1.text ++ (cut kind t rest).2 = t ∧
    (cut kind t rest).1.IsFirst (cut kind t rest).2 := by
  rw [ht, cut_append]
  exact ⟨rfl, h⟩

/-- A lexeme and the text after it make the text that is scanned, and the lexeme comes first in
it. -/
theorem isFirst_next (u : CodeUnit) (t : Text) :
    (next u t).1.text ++ (next u t).2 = u :: t ∧ (next u t).1.IsFirst (next u t).2 := by
  have hword : ∀ v ∈ t.takeWhile isWordUnit, isWordUnit v = true := fun v ↦ List.mem_takeWhile_imp
  have hcut : t = t.takeWhile isWordUnit ++ t.dropWhile isWordUnit :=
    List.takeWhile_append_dropWhile.symm
  have hstop := List.head?_dropWhile_not isWordUnit t
  unfold next
  dsimp only
  split_ifs with hsign hlf hcrlf hnewline hquote hunit hliteral hblank
  · obtain rfl := beq_iff_eq.mp hsign
    obtain ⟨body, hbody, hline, hstops⟩ := afterComment_spec t
    exact isFirst_of_cut (congrArg _ hbody) (.comment hline hstops)
  · rw [Bool.and_eq_true, beq_iff_eq, List.isPrefixOf_iff_prefix] at hlf
    obtain ⟨rfl, rest, rfl⟩ := hlf
    exact isFirst_of_cut rfl (.continuation rest (.inl rfl))
  · rw [Bool.and_eq_true, beq_iff_eq, List.isPrefixOf_iff_prefix] at hcrlf
    obtain ⟨rfl, rest, rfl⟩ := hcrlf
    exact isFirst_of_cut rfl (.continuation rest (.inr rfl))
  · obtain rfl := beq_iff_eq.mp hnewline
    exact isFirst_of_cut rfl (.newline t)
  · obtain ⟨body, hbody⟩ := afterLiteral_suffix u t
    have hstops : afterLiteral (u :: (body ++ afterLiteral (u :: t))) = afterLiteral (u :: t) := by
      rw [hbody]
    exact isFirst_of_cut (congrArg _ hbody.symm)
      (.literal hquote (.inl rfl) (fun _ h ↦ nomatch h) hstops)
  · rw [Bool.and_eq_true, Option.any_eq_true] at hliteral
    obtain ⟨⟨quote, hhead, hquote'⟩, hmark⟩ := hliteral
    obtain ⟨after, hafter⟩ := List.head?_eq_some_iff.mp hhead
    obtain ⟨body, hbody⟩ := afterLiteral_suffix quote after
    rw [hafter]
    have hstops : afterLiteral (quote :: (body ++ afterLiteral (quote :: after))) =
        afterLiteral (quote :: after) := by rw [hbody]
    refine isFirst_of_cut ?_
      (.literal hquote' (.inr hmark) (List.forall_mem_cons.mpr ⟨hunit, hword⟩) hstops)
    rw [List.append_assoc, List.cons_append, List.cons_append, hbody, ← hafter, ← hcut]
  · refine ⟨?_, .word (List.cons_ne_nil _ _) (List.forall_mem_cons.mpr ⟨hunit, hword⟩) ?_ ?_⟩
    · rw [List.cons_append, ← hcut]
    · intro v hv
      rw [Option.mem_def.mp hv] at hstop
      exact hstop
    · intro v hv hquote'
      rw [Option.mem_def.mp hv, Option.any_some, hquote', Bool.true_and] at hliteral
      exact eq_false_of_ne_true hliteral
  · exact isFirst_of_cut rfl (.blank t hblank)
  · refine isFirst_of_cut rfl (.symbol ?_ ?_)
    · simp only [isSymbolUnit, hsign, hnewline, hquote, hunit, hblank, Bool.or_self, Bool.not_false]
    · rintro rfl
      rw [beq_self_eq_true, Bool.true_and] at hlf hcrlf
      exact Bool.or_eq_false_iff.mpr ⟨eq_false_of_ne_true hlf, eq_false_of_ne_true hcrlf⟩

/-- The classes for which the scanner asks before it asks for words do not hold units of words. -/
theorem of_isWordUnit {u : CodeUnit} (h : isWordUnit u = true) :
    (u == '#') = false ∧ (u == '\\') = false ∧ (u == '\n') = false ∧ isQuote u = false := by
  refine ⟨?_, ?_, ?_, ?_⟩ <;> refine eq_false_of_ne_true fun hu ↦ ?_
  · obtain rfl := beq_iff_eq.mp hu
    exact Bool.noConfusion h
  · obtain rfl := beq_iff_eq.mp hu
    exact Bool.noConfusion h
  · obtain rfl := beq_iff_eq.mp hu
    exact Bool.noConfusion h
  · rw [isQuote, Bool.or_eq_true, beq_iff_eq, beq_iff_eq] at hu
    rcases hu with rfl | rfl <;> exact Bool.noConfusion h

theorem eq_of_isInlineBlank {u : CodeUnit} (h : isInlineBlank u = true) :
    u = 9 ∨ u = 11 ∨ u = 12 ∨ u = 13 ∨ u = 32 := by
  simp only [isInlineBlank, Bool.or_eq_true, Bool.and_eq_true, decide_eq_true_eq, bne_iff_ne,
    beq_iff_eq] at h
  rcases h with ⟨⟨hle, hge⟩, hne⟩ | rfl
  · have hle' : 9 ≤ u.toNat := hle
    have hge' : u.toNat ≤ 13 := hge
    have hne' : u.toNat ≠ 10 := fun h10 ↦ hne (UInt16.toNat_inj.mp h10)
    simp only [← UInt16.toNat_inj]
    change u.toNat = 9 ∨ u.toNat = 11 ∨ u.toNat = 12 ∨ u.toNat = 13 ∨ u.toNat = 32
    omega
  · simp

theorem takeWhile_append_of_head {p : CodeUnit → Bool} {part rest : Text}
    (hpart : ∀ u ∈ part, p u = true) (hrest : ∀ u ∈ rest.head?, p u = false) :
    (part ++ rest).takeWhile p = part ∧ (part ++ rest).dropWhile p = rest := by
  rw [List.takeWhile_append_of_pos hpart, List.dropWhile_append_of_pos hpart]
  cases rest with
  | nil => exact ⟨List.append_nil part, rfl⟩
  | cons u rest =>
    rw [List.takeWhile_cons_of_neg (by simp [hrest u rfl]),
      List.dropWhile_cons_of_neg (by simp [hrest u rfl])]
    exact ⟨List.append_nil part, rfl⟩

theorem next_of_isQuote {quote : CodeUnit} (t : Text) (h : isQuote quote = true) :
    next quote t = cut .literal (quote :: t) (afterLiteral (quote :: t)) := by
  rw [isQuote, Bool.or_eq_true, beq_iff_eq, beq_iff_eq] at h
  rcases h with rfl | rfl <;> rfl

theorem next_of_isInlineBlank {u : CodeUnit} (t : Text) (h : isInlineBlank u = true) :
    next u t = cut .blank (u :: t) t := by
  rcases eq_of_isInlineBlank h with rfl | rfl | rfl | rfl | rfl <;> rfl

/-- A word is a lexeme unless it is the mark of a literal that begins right after it. -/
theorem next_of_isWordUnit {u : CodeUnit} {w rest : Text}
    (hword : ∀ v ∈ u :: w, isWordUnit v = true) (hrest : ∀ v ∈ rest.head?, isWordUnit v = false) :
    next u (w ++ rest) =
      if rest.head?.any isQuote && isLiteralPrefix (u :: w) then
        cut .literal (u :: (w ++ rest)) (afterLiteral rest)
      else (⟨.word, u :: w⟩, rest) := by
  rw [List.forall_mem_cons] at hword
  obtain ⟨hsign, hslash, hnewline, hquote⟩ := of_isWordUnit hword.1
  obtain ⟨htake, hdrop⟩ := takeWhile_append_of_head hword.2 hrest
  simp only [next, hsign, hslash, hnewline, hquote, hword.1, htake, hdrop, Bool.false_and,
    Bool.false_eq_true, if_true, if_false]

theorem next_of_isSymbolUnit {u : CodeUnit} {t : Text} (h : isSymbolUnit u = true)
    (hstop : u = 92 → t.startsWithEnding = false) : next u t = cut (.symbol u) (u :: t) t := by
  simp only [isSymbolUnit, Bool.not_eq_true', Bool.or_eq_false_iff] at h
  obtain ⟨⟨⟨⟨hsign, hnewline⟩, hquote⟩, hunit⟩, hblank⟩ := h
  have hslash : ((u == '\\') && [10].isPrefixOf t) = false ∧
      ((u == '\\') && [13, 10].isPrefixOf t) = false := by
    cases hslash : (u == CodeUnit.ofChar '\\') with
    | false => exact ⟨rfl, rfl⟩
    | true => exact Bool.or_eq_false_iff.mp (hstop (beq_iff_eq.mp hslash))
  simp only [next, hsign, hslash.1, hslash.2, hnewline, hquote, hunit, hblank,
    Bool.false_eq_true, if_false]

/-- The scanner takes the lexeme that comes first. -/
theorem IsFirst.next_eq {x : Lexeme} {rest : Text} (h : x.IsFirst rest) :
    ∃ u t, x.text ++ rest = u :: t ∧ next u t = (x, rest) := by
  cases h with
  | @comment body _ line stop =>
    refine ⟨CodeUnit.ofChar '#', body ++ rest, rfl, ?_⟩
    have hnext : next (CodeUnit.ofChar '#') (body ++ rest) =
      cut .comment (CodeUnit.ofChar '#' :: (body ++ rest)) (afterComment (body ++ rest)) := rfl
    rw [hnext, afterComment_append line stop]
    exact cut_append .comment (CodeUnit.ofChar '#' :: body) rest
  | continuation _ hending =>
    rcases hending with rfl | rfl
    · exact ⟨92, 10 :: rest, rfl, cut_append .continuation [92, 10] rest⟩
    · exact ⟨92, 13 :: 10 :: rest, rfl, cut_append .continuation [92, 13, 10] rest⟩
  | newline => exact ⟨10, rest, rfl, cut_append .newline [10] rest⟩
  | @literal mark body _ quote hquote hmark hword stop =>
    cases mark with
    | nil =>
      refine ⟨quote, body ++ rest, rfl, ?_⟩
      rw [next_of_isQuote _ hquote, stop]
      exact cut_append .literal (quote :: body) rest
    | cons u w =>
      have hstop : ∀ v ∈ (quote :: (body ++ rest)).head?, isWordUnit v = false := by
        intro v hv
        obtain rfl := Option.some.inj hv
        exact eq_false_of_ne_true fun hunit ↦
          Bool.noConfusion (hquote.symm.trans (of_isWordUnit hunit).2.2.2)
      have hmark' : isLiteralPrefix (u :: w) = true := hmark.resolve_left (List.cons_ne_nil u w)
      refine ⟨u, w ++ quote :: (body ++ rest), by simp, ?_⟩
      rw [next_of_isWordUnit hword hstop, stop, List.head?_cons, Option.any_some, hquote, hmark']
      have hcut := cut_append .literal (u :: w ++ quote :: body) rest
      rwa [List.append_assoc, List.cons_append, List.cons_append] at hcut
  | @word w _ hne hword stop plain =>
    obtain ⟨u, w, rfl⟩ := List.exists_cons_of_ne_nil hne
    have hplain : (rest.head?.any isQuote && isLiteralPrefix (u :: w)) = false := by
      refine Bool.and_eq_false_iff.mpr ?_
      cases hhead : rest.head?.any isQuote with
      | false => exact .inl rfl
      | true =>
        obtain ⟨v, hv, hquote⟩ := (Option.any_eq_true _ _).mp hhead
        exact .inr (plain v hv hquote)
    refine ⟨u, w ++ rest, rfl, ?_⟩
    rw [next_of_isWordUnit hword stop, hplain]
    rfl
  | @blank u _ hblank =>
    exact ⟨u, rest, rfl, (next_of_isInlineBlank rest hblank).trans (cut_append .blank [u] rest)⟩
  | @symbol u _ hsymbol stop =>
    exact ⟨u, rest, rfl,
      (next_of_isSymbolUnit hsymbol stop).trans (cut_append (.symbol u) [u] rest)⟩

/-! ### Splitting -/

/-- Each of the lexemes is first where it stands in the text that they make with `rest`. -/
def IsScan : List Lexeme → Text → Prop
  | [], _ => True
  | x :: xs, rest => x.IsFirst (textOf xs ++ rest) ∧ IsScan xs rest

theorem isScan_append {xs ys : List Lexeme} {rest : Text} :
    IsScan (xs ++ ys) rest ↔ IsScan xs (textOf ys ++ rest) ∧ IsScan ys rest := by
  induction xs with
  | nil => exact ⟨fun h ↦ ⟨trivial, h⟩, fun h ↦ h.2⟩
  | cons x xs ih =>
    rw [List.cons_append, IsScan, IsScan, textOf_append, List.append_assoc, ih, and_assoc]

theorem IsFirst.split_eq {x : Lexeme} {rest : Text} (h : x.IsFirst rest) :
    split (x.text ++ rest) = x :: split rest := by
  obtain ⟨u, t, htext, hnext⟩ := h.next_eq
  rw [htext, split, hnext]

theorem IsScan.split_eq {xs : List Lexeme} {rest : Text} (h : IsScan xs rest) :
    split (textOf xs ++ rest) = xs ++ split rest := by
  induction xs with
  | nil => rfl
  | cons x xs ih => rw [textOf_cons, List.append_assoc, h.1.split_eq, ih h.2, List.cons_append]

/-- The lexemes of a text make the text, and each is first where it stands. -/
theorem isScan_split (t : Text) : textOf (split t) = t ∧ IsScan (split t) [] := by
  induction t using split.induct with
  | case1 =>
    rw [split]
    exact ⟨rfl, trivial⟩
  | case2 u rest ih =>
    obtain ⟨htext, hfirst⟩ := isFirst_next u rest
    rw [split, textOf_cons, ih.1, htext, IsScan, ih.1, List.append_nil]
    exact ⟨rfl, hfirst, ih.2⟩

end Lexeme

end Declutter
