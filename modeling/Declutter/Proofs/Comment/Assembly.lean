import Declutter.Proofs.Comment.Standing
/-!
Scanning undoes assembly. An `Item` is a piece of Python text of which it is known what it is: a
comment, a literal with its mark, its quotes and its body, a word, a blank, a line ending, an
operator, or a continuation of the line. Items make a text in which each is what it is if no word or
literal comes right after another and every comment is at the end of its line (`Item.IsAssembly`).
The scan of such a text finds its comments and its literals at their offsets, and nothing else
(`Text.passages_assembly`). What an item needs to know of the text after it is what `Lexeme.IsFirst`
asks for, so that the items of an assembly are the lexemes of their text.
-/

set_option autoImplicit false
set_option relaxedAutoImplicit false

namespace Declutter

namespace Lexeme

/-! ### Literals -/

/-- The quotes that open a literal, and that close it. -/
def delimiter (quote : CodeUnit) (triple : Bool) : Text :=
  if triple then [quote, quote, quote] else [quote]

/-- A body of a literal: units and escapes, of which none is where the closing quotes begin. An
escape is a backslash (92) and the unit after it, or a backslash and a carriage return with its line
feed (13, 10). Only a literal in triple quotes goes over a line feed without a backslash. -/
inductive IsBody (quote : CodeUnit) (triple : Bool) : Text → Prop
  | nil : IsBody quote triple []
  | lineEnding {body : Text} (h : IsBody quote triple body) :
      IsBody quote triple (92 :: 13 :: 10 :: body)
  | escape {u : CodeUnit} {body : Text} (hescape : u = 13 → body.head? ≠ some 10)
      (h : IsBody quote triple body) :
      IsBody quote triple (92 :: u :: body)
  | plain {u : CodeUnit} {body : Text} (hplain : u ≠ 92) (line : triple = false → u ≠ 10)
      (inside : ¬ delimiter quote triple <+: u :: (body ++ delimiter quote triple))
      (h : IsBody quote triple body) :
      IsBody quote triple (u :: body)

section Literal

variable {quote : CodeUnit} {triple : Bool} {body rest : Text}

theorem delimiter_false (quote : CodeUnit) : delimiter quote false = [quote] := rfl

theorem delimiter_true (quote : CodeUnit) : delimiter quote true = [quote, quote, quote] := rfl

theorem head?_delimiter (quote : CodeUnit) (triple : Bool) (t : Text) :
    (delimiter quote triple ++ t).head? = some quote := by
  cases triple <;> rfl

/-- A scanner that is past an escape, and past a unit at which the closing quotes do not begin, in
one step, is past the body when it comes to the closing quotes. -/
theorem IsBody.scan_eq {scan : Text → Text} (h : IsBody quote triple body)
    (hquote : isQuote quote = true) (rest : Text) (hscan : SkipsEscapes scan)
    (hplain : ∀ u t, u ≠ 92 → (triple = false → u ≠ 10) → ¬ delimiter quote triple <+: u :: t →
      scan (u :: t) = scan t) :
    scan (body ++ (delimiter quote triple ++ rest)) = scan (delimiter quote triple ++ rest) := by
  induction h with
  | nil => rfl
  | lineEnding _ ih => exact (hscan.lineEnding _).trans ih
  | @escape u body hescape _ ih =>
    refine (hscan.escape u _ fun hu ↦ ?_).trans ih
    cases body with
    | nil =>
      intro hten
      have hhead := (head?_delimiter quote triple rest).symm.trans hten
      exact (ne_of_isQuote hquote).2 (Option.some.inj hhead)
    | cons v body => exact hescape hu
  | @plain u body hu line inside _ ih =>
    refine (hplain u _ hu line fun hprefix ↦ inside ?_).trans ih
    refine List.prefix_of_prefix_length_le hprefix ⟨rest, by simp⟩ ?_
    simp only [List.length_cons, List.length_append]
    omega

theorem IsBody.afterSingle_eq (h : IsBody quote false body) (hquote : isQuote quote = true)
    (rest : Text) :
    afterSingle quote (body ++ quote :: rest) = rest := by
  have hscan := h.scan_eq hquote rest (skipsEscapes_afterSingle quote) fun u t hu line inside ↦ by
    have hclose : ¬ (u == quote) = true :=
      fun hclose ↦ inside ⟨t, by rw [beq_iff_eq.mp hclose]; rfl⟩
    rw [afterSingle_plain quote t hu, if_neg hclose, if_neg (by simpa using line rfl)]
  rw [delimiter_false, List.singleton_append] at hscan
  rw [hscan, afterSingle_plain quote rest (ne_of_isQuote hquote).1, if_pos (beq_self_eq_true quote)]

theorem IsBody.afterTriple_eq (h : IsBody quote true body) (hquote : isQuote quote = true)
    (rest : Text) :
    afterTriple quote (body ++ (delimiter quote true ++ rest)) = rest := by
  have hscan := h.scan_eq hquote rest (skipsEscapes_afterTriple quote) fun u t hu _ inside ↦ by
    have hopen : ¬ [quote, quote, quote].isPrefixOf (u :: t) = true := fun hprefix ↦
      inside (List.isPrefixOf_iff_prefix.mp hprefix)
    rw [afterTriple_plain quote t hu, if_neg hopen]
  have hclose : [quote, quote, quote].isPrefixOf (quote :: ([quote, quote] ++ rest)) = true :=
    List.isPrefixOf_iff_prefix.mpr ⟨rest, rfl⟩
  rw [hscan, delimiter_true, List.cons_append, afterTriple_plain quote _ (ne_of_isQuote hquote).1,
    if_pos hclose]
  rfl

/-- A literal in single quotes with a body does not begin like one in triple quotes; nor does one
without a body if no further quote comes after it. -/
theorem IsBody.not_isPrefixOf_double (h : IsBody quote false body) (hquote : isQuote quote = true)
    (hrest : rest.head? ≠ some quote) :
    ¬ [quote, quote].isPrefixOf (body ++ quote :: rest) = true := by
  intro hprefix
  obtain ⟨t, ht⟩ := List.isPrefixOf_iff_prefix.mp hprefix
  cases h with
  | nil =>
    rw [List.nil_append, List.cons_append, List.cons_eq_cons] at ht
    exact hrest (by rw [← ht.2]; rfl)
  | lineEnding => exact (ne_of_isQuote hquote).1 (List.cons_eq_cons.mp ht).1
  | escape => exact (ne_of_isQuote hquote).1 (List.cons_eq_cons.mp ht).1
  | @plain u body _ _ inside =>
    exact inside ⟨body ++ [quote], congrArg (· :: _) (List.cons_eq_cons.mp ht).1⟩

/-- The scanner leaves what comes after a literal, unless an empty literal is followed by a third
quote. -/
theorem IsBody.afterLiteral_eq (h : IsBody quote triple body) (hquote : isQuote quote = true)
    (hrest : rest.head? ≠ some quote) :
    afterLiteral (delimiter quote triple ++ (body ++ (delimiter quote triple ++ rest))) = rest := by
  cases triple with
  | false =>
    rw [delimiter_false, List.singleton_append, List.singleton_append, afterLiteral,
      if_neg (h.not_isPrefixOf_double hquote hrest), h.afterSingle_eq hquote]
  | true =>
    have hopen := h.afterTriple_eq hquote rest
    rw [delimiter_true] at hopen ⊢
    rw [List.cons_append, afterLiteral, if_pos (List.isPrefixOf_iff_prefix.mpr ⟨_, rfl⟩)]
    exact hopen

/-- The marks of literals are words. -/
theorem isWordUnit_of_isLiteralPrefix {mark : Text} (h : isLiteralPrefix mark = true) :
    ∀ u ∈ mark, isWordUnit u = true := by
  have hletters : literalPrefixes.all (fun w ↦ w.all CodeUnit.isAsciiLetter) = true := by decide
  intro u hu
  have hword := List.all_eq_true.mp hletters _ (List.contains_iff_mem.mp h)
  have hlower := List.all_eq_true.mp hword _ (List.mem_map_of_mem hu)
  rw [isWordUnit, Bool.or_eq_true, Bool.or_eq_true, Bool.or_eq_true]
  refine .inl (.inl (.inl ?_))
  rw [CodeUnit.isAsciiLetter]
  cases hupper : u.isAsciiUpper with
  | true => rfl
  | false => simpa [hupper, CodeUnit.isAsciiLetter] using hlower

end Literal

/-! ### Items -/

/-- What ends a line, with a carriage return or without. -/
def lineEnding (withReturn : Bool) : Text := if withReturn then [13, 10] else [10]

/-- A piece of text of which it is known what it is. -/
inductive Item
  | comment (body : Text) (line : body.IsOnLine) (last : body.getLast? ≠ some 13)
  | literal (mark : Text) (quote : CodeUnit) (triple : Bool) (body : Text)
      (hmark : mark = [] ∨ isLiteralPrefix mark = true) (hquote : isQuote quote = true)
      (hbody : IsBody quote triple body)
  | word (w : Text) (hne : w ≠ []) (hword : ∀ u ∈ w, isWordUnit u = true)
  | blank (u : CodeUnit) (hblank : isInlineBlank u = true)
  | newline (withReturn : Bool)
  | operator (u : CodeUnit) (hsymbol : isSymbolUnit u = true) (hslash : u ≠ CodeUnit.ofChar '\\')
  | continuation (withReturn : Bool)

namespace Item

/-- The text of an item. -/
def text : Item → Text
  | comment body _ _ => CodeUnit.ofChar '#' :: body
  | literal mark quote triple body _ _ _ =>
    mark ++ (delimiter quote triple ++ (body ++ delimiter quote triple))
  | word w _ _ => w
  | blank u _ => [u]
  | newline withReturn => lineEnding withReturn
  | operator u _ _ => [u]
  | continuation withReturn => CodeUnit.ofChar '\\' :: lineEnding withReturn

/-- The text that items make. -/
def assemble (items : List Item) : Text := items.flatMap text

/-- Whether the item is a comment, if it is a comment or a literal. -/
def isComment? : Item → Option Bool
  | comment .. => some true
  | literal .. => some false
  | _ => none

/-- Words and literals, which must not touch each other. -/
def isSolid : Item → Bool
  | literal .. => true
  | word .. => true
  | _ => false

/-- The comments and literals among items of which the first starts at an offset, each with its span
and with whether it is a comment. -/
def passagesFrom (start : Nat) : List Item → List (Bool × Span)
  | [] => []
  | x :: items =>
    (x.isComment?.map fun isComment ↦ (isComment, ⟨start, start + x.text.length⟩)).toList
      ++ passagesFrom (start + x.text.length) items

/-- Each item can come before the items after it: a comment is at the end of its line, and no word
or literal comes right after another. -/
def IsAssembly : List Item → Prop
  | [] => True
  | x :: items =>
    (x.isComment? = some true → assemble items = [] ∨ (assemble items).startsWithEnding = true) ∧
      (x.isSolid = true → ∀ y ∈ items.head?, y.isSolid = false) ∧ IsAssembly items

instance : ∀ items, Decidable (IsAssembly items)
  | [] => isTrue trivial
  | x :: items =>
    have : Decidable (IsAssembly items) := instDecidableIsAssembly items
    inferInstanceAs (Decidable
      ((x.isComment? = some true → assemble items = [] ∨ (assemble items).startsWithEnding = true) ∧
        (x.isSolid = true → ∀ y ∈ items.head?, y.isSolid = false) ∧ IsAssembly items))

variable {x : Item} {items : List Item} {rest : Text}

theorem assemble_cons (x : Item) (items : List Item) :
    assemble (x :: items) = x.text ++ assemble items :=
  List.flatMap_cons

/-- An item that is neither a word nor a literal does not begin like one. -/
theorem exists_text_of_not_isSolid (h : x.isSolid = false) :
    ∃ u t, x.text = u :: t ∧ isWordUnit u = false ∧ isQuote u = false := by
  cases x with
  | comment body => exact ⟨_, body, rfl, rfl, rfl⟩
  | literal => exact Bool.noConfusion h
  | word => exact Bool.noConfusion h
  | blank u hblank =>
    refine ⟨u, [], rfl, ?_⟩
    rcases eq_of_isInlineBlank hblank with rfl | rfl | rfl | rfl | rfl <;> exact ⟨rfl, rfl⟩
  | newline withReturn => cases withReturn <;> exact ⟨_, _, rfl, rfl, rfl⟩
  | operator u hsymbol =>
    refine ⟨u, [], rfl, ?_⟩
    simp only [isSymbolUnit, Bool.not_eq_true', Bool.or_eq_false_iff] at hsymbol
    exact ⟨hsymbol.1.2, hsymbol.1.1.2⟩
  | continuation withReturn => exact ⟨_, _, rfl, rfl, rfl⟩

/-- What comes after a word or a literal does not begin like one. -/
theorem IsAssembly.head?_assemble (h : IsAssembly (x :: items)) (hsolid : x.isSolid = true) :
    ∀ u ∈ (assemble items).head?, isWordUnit u = false ∧ isQuote u = false := by
  intro u hu
  cases items with
  | nil => exact nomatch hu
  | cons y items =>
    obtain ⟨v, t, htext, hv⟩ := exists_text_of_not_isSolid (h.2.1 hsolid y rfl)
    rw [assemble_cons, htext] at hu
    obtain rfl := Option.some.inj hu
    exact hv

/-! ### The lexemes of an assembly -/

/-- The lexemes that the scan of an assembly makes of an item. -/
def lexemes (x : Item) : List Lexeme :=
  match x with
  | comment .. => [⟨.comment, x.text⟩]
  | literal .. => [⟨.literal, x.text⟩]
  | word .. => [⟨.word, x.text⟩]
  | blank .. => [⟨.blank, x.text⟩]
  | newline false => [⟨.newline, [10]⟩]
  | newline true => [⟨.blank, [13]⟩, ⟨.newline, [10]⟩]
  | operator u _ _ => [⟨.symbol u, x.text⟩]
  | continuation .. => [⟨.continuation, x.text⟩]

theorem textOf_lexemes (x : Item) : textOf x.lexemes = x.text := by
  cases x with
  | newline withReturn => cases withReturn <;> rfl
  | _ => exact List.append_nil _

theorem textOf_flatMap_lexemes (items : List Item) :
    textOf (items.flatMap lexemes) = assemble items := by
  induction items with
  | nil => rfl
  | cons x items ih => rw [List.flatMap_cons, textOf_append, textOf_lexemes, ih, assemble_cons]

/-- An item of an assembly is first where it stands. -/
theorem IsAssembly.isScan_lexemes (h : IsAssembly (x :: items)) :
    IsScan x.lexemes (assemble items) := by
  have hhead := h.head?_assemble
  cases x with
  | comment body line last =>
    refine ⟨.comment line ?_, trivial⟩
    rcases h.1 rfl with hnil | hending
    · exact .inl hnil
    rcases Text.startsWithEnding_eq_true.mp hending with ⟨s, hs⟩ | hs
    · exact .inr (.inl ⟨by rw [textOf_nil, List.nil_append, hs]; rfl, last⟩)
    · exact .inr (.inr hs)
  | literal mark quote triple body hmark hquote hbody =>
    have hrest : (assemble items).head? ≠ some quote := by
      intro hquote'
      have hnot := (hhead rfl quote hquote').2
      rw [hquote] at hnot
      exact Bool.noConfusion hnot
    have hafter := hbody.afterLiteral_eq hquote hrest
    have hword : ∀ u ∈ mark, isWordUnit u = true := by
      rcases hmark with rfl | hmark
      · simp
      · exact isWordUnit_of_isLiteralPrefix hmark
    refine ⟨?_, trivial⟩
    cases triple with
    | false =>
      refine @IsFirst.literal mark (body ++ [quote]) _ quote hquote hmark hword ?_
      simpa [delimiter_false] using hafter
    | true =>
      refine @IsFirst.literal mark (quote :: quote :: (body ++ [quote, quote, quote])) _ quote
        hquote hmark hword ?_
      simpa [delimiter_true] using hafter
  | word w hne hword =>
    refine ⟨.word hne hword (fun u hu ↦ (hhead rfl u hu).1) (fun u hu hquote ↦ ?_), trivial⟩
    have hnot := (hhead rfl u hu).2
    rw [hquote] at hnot
    exact Bool.noConfusion hnot
  | blank u hblank => exact ⟨.blank _ hblank, trivial⟩
  | newline withReturn =>
    cases withReturn with
    | false => exact ⟨.newline _, trivial⟩
    | true => exact ⟨.blank _ rfl, .newline _, trivial⟩
  | operator u hsymbol hslash => exact ⟨.symbol hsymbol fun hu ↦ absurd hu hslash, trivial⟩
  | continuation withReturn =>
    refine ⟨.continuation _ ?_, trivial⟩
    cases withReturn with
    | false => exact .inl rfl
    | true => exact .inr rfl

/-- The lexemes of an assembly are those of its items. -/
theorem IsAssembly.split_assemble (h : IsAssembly items) :
    split (assemble items) = items.flatMap lexemes := by
  have hscan : IsScan (items.flatMap lexemes) [] := by
    induction items with
    | nil => trivial
    | cons x items ih =>
      rw [List.flatMap_cons, isScan_append, textOf_flatMap_lexemes, List.append_nil]
      exact ⟨h.isScan_lexemes, ih h.2.2⟩
  have hsplit := hscan.split_eq
  rw [textOf_flatMap_lexemes, List.append_nil] at hsplit
  rw [hsplit, split, List.append_nil]

/-- What is seen of an item is the item, if it is a comment or a literal. -/
theorem map_sightings_lexemes (before : Text) (x : Item) :
    (sightings before x.lexemes).map (fun s ↦ (s.lexeme.kind == .comment, s.span)) =
      (x.isComment?.map fun isComment ↦
        (isComment, ⟨before.length, before.length + x.text.length⟩)).toList := by
  cases x with
  | newline withReturn => cases withReturn <;> rfl
  | _ => rfl

theorem map_sightings_flatMap_lexemes (before : Text) (items : List Item) :
    (sightings before (items.flatMap lexemes)).map (fun s ↦ (s.lexeme.kind == .comment, s.span)) =
      passagesFrom before.length items := by
  induction items generalizing before with
  | nil => rfl
  | cons x items ih =>
    rw [List.flatMap_cons, sightings_append, List.map_append, map_sightings_lexemes,
      textOf_lexemes, ih, List.length_append, passagesFrom]

end Item

end Lexeme

open Lexeme

/-- The scan of a text that is put together from items finds the comments and the literals among
them, in order and at their offsets, and nothing else. -/
theorem Text.passages_assembly {items : List Item} (h : Item.IsAssembly items) :
    (Item.assemble items).passages.map (fun p ↦ (p.kind == .comment, p.span)) =
      Item.passagesFrom 0 items := by
  rw [Text.passages, h.split_assemble]
  exact (Passage.map_ofLexemes {} [] _).trans (Item.map_sightings_flatMap_lexemes [] items)

/-- A line with a word, an operator, a literal that holds a number sign behind an escaped quote, and
a comment, and a literal in triple quotes below it. -/
def Lexeme.Item.specimen : List Item :=
  [.word [120] (by simp) (List.forall_mem_singleton.mpr rfl), .blank 32 rfl,
    .operator 61 rfl (by decide), .literal [114, 66] 39 false [92, 39, 35] (.inr rfl) rfl
      (.escape (by decide) (.plain (by decide) (by decide) (by decide) .nil)),
    .blank 9 rfl, .comment [97, 39] (by simp [Text.IsOnLine, CodeUnit.isNewline]) (by decide),
      .newline true,
    .literal [] 34 true [34, 10] (.inl rfl) rfl
      (.plain (by decide) (by decide) (by decide)
        (.plain (by decide) (by decide) (by decide) .nil)),
    .continuation false, .newline false]

theorem Text.passages_assembly_specimen :
    Item.assemble Item.specimen = "x =rB'\\'#'\t#a'\r\n\"\"\"\"\n\"\"\"\\\n\n" ∧
      Item.IsAssembly Item.specimen ∧
      (Item.assemble Item.specimen).passages.map (fun p ↦ (p.kind == .comment, p.span)) =
        [(false, ⟨3, 10⟩), (true, ⟨11, 14⟩), (false, ⟨16, 24⟩)] :=
  ⟨by decide, by decide, Text.passages_assembly (by decide)⟩

end Declutter
