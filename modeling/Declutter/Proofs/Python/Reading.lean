import Declutter.Proofs.Python.Spacing
import Mathlib
/-!
What readers do to the cursor. Throughout, one source is read (`Source`). A cursor is placed if the
text at it is the rest of the source (`Cursor.IsPlaced`). A reader gives a property (`Parse.Gives`)
if from a placed cursor it goes forwards, to a value and a cursor that have the property, unless it
fails. Nothing is said of where it fails: what could not be read becomes a node of its own.

Every token has its lemma here, and so do the three ways to put readers together: one after the
other (`Parse.Gives.bind`), again and again (`Parse.givesIf_repeating`, for an invariant of the
loop), and one in place of another (`Parse.gives_orElse`). Looking ahead moves the cursor over
blanks, comments and continuations, but not off a token (`Parse.gives_look`).
-/

set_option autoImplicit false
set_option relaxedAutoImplicit false
set_option mvcgen.warning false

namespace Declutter.Python

open Std.Do

/-- The source that is read. -/
class Source where
  text : Text

variable [Source]

/-- At the offset the source has a unit of code. -/
def Source.IsCodeAt (i : Nat) : Prop := Source.text.hasAt CodeUnit.isCode i = true

/-- At the offset the source has an opening parenthesis. -/
def Source.IsOpenAt (i : Nat) : Prop := Source.text.hasAt (· == '(') i = true

/-- At the offset the source has a semicolon. -/
def Source.IsSemicolonAt (i : Nat) : Prop := Source.text.hasAt (· == ';') i = true

/-- At the offset the source has a colon. -/
def Source.IsColonAt (i : Nat) : Prop := Source.text.hasAt (· == ':') i = true

/-- In front of the offset the source has a unit of code. -/
def Source.EndsCode (i : Nat) : Prop := Source.IsCodeAt (i - 1)

/-- Unless a line of the source goes on behind a backslash, no code is left on the line that holds
the offset. -/
def Source.Closes (i : Nat) : Prop :=
  Source.text.isUnbroken = true → Source.text.closesLine i = true

@[grind →]
theorem Source.lt_length_of_isCodeAt {i : Nat} (h : Source.IsCodeAt i) :
    i < Source.text.length := Text.lt_length_of_hasAt h

/-! ### Cursors on the source -/

namespace Cursor

/-- The text at the cursor is what the source has from its offset on. Behind the last token read
there is no other token before the cursor. -/
structure IsPlaced (c : Cursor) : Prop where
  rest : c.rest = Source.text.drop c.offset
  offset_le : c.offset ≤ Source.text.length
  gap : Spacing Source.text 0 c.lastEnd c.offset

/-- The cursor `c'` is placed, and not before `c`. -/
structure Leads (c c' : Cursor) : Prop where
  placed : c'.IsPlaced
  offset : c.offset ≤ c'.offset
  lastEnd : c.lastEnd ≤ c'.lastEnd

variable {c c' c'' : Cursor} {n : Nat}

@[grind →]
theorem IsPlaced.lastEnd_le (h : c.IsPlaced) : c.lastEnd ≤ c.offset := h.gap.le

attribute [grind →] IsPlaced.offset_le IsPlaced.gap
attribute [grind →] Leads.placed Leads.offset Leads.lastEnd
attribute [grind intro] Leads

theorem IsPlaced.leads (h : c.IsPlaced) : c.Leads c := ⟨h, le_rfl, le_rfl⟩

theorem Leads.trans (h : c.Leads c') (h' : c'.Leads c'') : c.Leads c'' :=
  ⟨h'.placed, h.offset.trans h'.offset, h.lastEnd.trans h'.lastEnd⟩

@[grind →]
theorem IsPlaced.length (h : c.IsPlaced) : c.offset + c.rest.length = Source.text.length := by
  have hle := h.offset_le
  rw [h.rest, List.length_drop]
  omega

/-- Every unit at the cursor is a unit of the source. -/
theorem IsPlaced.hasAt {p : CodeUnit → Bool} (h : c.IsPlaced) {k : Nat}
    (hk : c.rest.hasAt p k = true) : Source.text.hasAt p (c.offset + k) = true := by
  rwa [h.rest, Text.hasAt, List.getElem?_drop] at hk

/-- Code at the cursor is code in the source. -/
theorem IsPlaced.isCodeAt (h : c.IsPlaced) {n : Nat} (hn : n ≤ c.rest.length) (hpos : 0 < n)
    (hcode : Text.isCode (c.rest.take n) = true) :
    Source.IsCodeAt c.offset ∧ Source.EndsCode (c.offset + n) := by
  have hat {k : Nat} (hk : k < n) : Source.IsCodeAt (c.offset + k) := by
    have hlt : k < (c.rest.take n).length := by
      rw [List.length_take]
      omega
    refine h.hasAt (Text.hasAt_eq_true.mpr ⟨(c.rest.take n)[k], ?_, ?_⟩)
    · rw [List.getElem_take, List.getElem?_eq_getElem]
    · exact List.all_eq_true.mp hcode _ (List.getElem_mem hlt)
  refine ⟨hat hpos, ?_⟩
  rw [Source.EndsCode, Nat.add_sub_assoc hpos]
  exact hat (by omega)

theorem IsPlaced.skip (h : c.IsPlaced) (hn : n ≤ c.rest.length)
    (hgap : Spacing Source.text 0 c.offset (c.offset + n)) : c.Leads (c.skip n) := by
  have hlength := h.length
  refine ⟨⟨?_, ?_, h.gap.trans hgap⟩, Nat.le_add_right _ _, le_rfl⟩
  · rw [Cursor.skip, h.rest, List.drop_drop]
  · change c.offset + n ≤ Source.text.length
    omega

theorem IsPlaced.skip_filler (h : c.IsPlaced) (hn : n ≤ c.rest.length)
    (hfiller : (c.rest.take n).all CodeUnit.isFiller = true) : c.Leads (c.skip n) := by
  refine h.skip hn (.of_forall (Nat.le_add_right _ _) fun k hk hlt ↦ ?_)
  obtain ⟨k, rfl⟩ := Nat.exists_eq_add_of_le hk
  have hk : k < (c.rest.take n).length := by
    rw [List.length_take]
    omega
  refine h.hasAt (Text.hasAt_eq_true.mpr ⟨(c.rest.take n)[k], ?_, ?_⟩)
  · rw [List.getElem_take, List.getElem?_eq_getElem]
  · exact List.all_eq_true.mp hfiller _ (List.getElem_mem hk)

theorem IsPlaced.take (h : c.IsPlaced) (hn : n ≤ c.rest.length) : c.Leads (c.take n) := by
  have hlength := h.length
  refine ⟨⟨?_, ?_, .refl _⟩, Nat.le_add_right _ _, h.lastEnd_le.trans (Nat.le_add_right _ _)⟩
  · rw [Cursor.take, Cursor.skip, h.rest, List.drop_drop]
  · change c.offset + n ≤ Source.text.length
    omega

/-- It does not matter which blocks or literals are open at the cursor. -/
@[grind ←]
theorem IsPlaced.update {lastEnd : Nat} (h : c.IsPlaced)
    (hgap : Spacing Source.text 0 lastEnd c.offset) (columns : List Nat) (inFormat : Bool) :
    IsPlaced ⟨c.rest, c.offset, lastEnd, columns, inFormat⟩ :=
  ⟨h.rest, h.offset_le, hgap⟩

/-- A mark that consists of code begins and ends with it. -/
theorem isCodeAt_of_atMark (m : Text) (hm : m.isCode = true) (hne : m ≠ []) ⦃c : Cursor⦄
    (hc : c.IsPlaced) (h : c.atMark m = true) :
    Source.IsCodeAt c.offset ∧ Source.EndsCode (c.offset + m.length) ∧ 0 < m.length := by
  have hpos := List.length_pos_iff.mpr hne
  have hprefix := c.mark_isPrefix
  rw [beq_iff_eq.mp h] at hprefix
  rw [List.prefix_iff_eq_take.mp hprefix] at hm
  obtain ⟨hcode, hends⟩ := hc.isCodeAt hprefix.length_le hpos hm
  exact ⟨hcode, hends, hpos⟩

theorem isCodeAt_of_atAnyMark (ms : List Text) (hms : ∀ m ∈ ms, m.isCode = true ∧ m ≠ [])
    ⦃c : Cursor⦄ (hc : c.IsPlaced) (h : c.atAnyMark ms = true) :
    Source.IsCodeAt c.offset ∧ Source.EndsCode (c.offset + c.mark.length) ∧ 0 < c.mark.length :=
  have hm := hms c.mark (List.contains_iff_mem.mp h)
  isCodeAt_of_atMark c.mark hm.1 hm.2 hc (beq_iff_eq.mpr rfl)

@[grind →]
theorem IsPlaced.isCodeAt_of_atMark {s : String} (h : c.IsPlaced) (hs : c.atMark s = true)
    (hvisible : (!s.toList.isEmpty && s.toList.all Text.isVisible) = true) :
    Source.IsCodeAt c.offset ∧ Source.EndsCode (c.offset + s.toList.length) ∧
      (Text.ofString s).length = s.toList.length := by
  rw [Bool.and_eq_true] at hvisible
  obtain ⟨hcode, hlength⟩ := Text.isCode_ofString hvisible.2
  have hne : Text.ofString s ≠ [] := fun hnil ↦ by
    rw [hnil, List.length_nil, eq_comm, List.length_eq_zero_iff] at hlength
    rw [hlength] at hvisible
    exact Bool.noConfusion hvisible.1
  obtain ⟨hat, hends, -⟩ := Cursor.isCodeAt_of_atMark s hcode hne h hs
  exact ⟨hat, hlength ▸ hends, hlength⟩

/-- A mark at the cursor is one in the source. -/
theorem IsPlaced.hasAt_of_atMark {m : Text} {u : CodeUnit} (h : c.IsPlaced) (hm : m = [u])
    (hc : c.atMark m = true) : Source.text.hasAt (· == u) c.offset = true := by
  obtain ⟨rest, hrest⟩ := c.mark_isPrefix
  rw [beq_iff_eq.mp hc, h.rest, hm] at hrest
  rw [Text.hasAt, ← List.head?_drop, ← hrest, List.singleton_append, List.head?_cons,
    Option.any_some, beq_self_eq_true]

theorem IsPlaced.isOpenAt_of_atMark (h : c.IsPlaced) (hc : c.atMark "(" = true) :
    Source.IsOpenAt c.offset := h.hasAt_of_atMark (by decide) hc

theorem IsPlaced.isSemicolonAt_of_atMark (h : c.IsPlaced) (hc : c.atMark ";" = true) :
    Source.IsSemicolonAt c.offset ∧ 1 ≤ c.rest.length := by
  refine ⟨h.hasAt_of_atMark (by decide) hc, ?_⟩
  have hlength := c.mark_isPrefix.length_le
  rw [beq_iff_eq.mp hc] at hlength
  exact hlength

theorem IsPlaced.isColonAt_of_atUnit (h : c.IsPlaced) (hc : c.atUnit ':' = true) :
    Source.IsColonAt c.offset := by
  rw [Source.IsColonAt, Text.hasAt, ← List.head?_drop, ← h.rest, beq_iff_eq.mp hc]
  rfl

grind_pattern IsPlaced.isOpenAt_of_atMark => c.IsPlaced, c.atMark (Text.ofString "(")
grind_pattern IsPlaced.isSemicolonAt_of_atMark => c.IsPlaced, c.atMark (Text.ofString ";")
grind_pattern IsPlaced.isColonAt_of_atUnit => c.IsPlaced, c.atUnit (CodeUnit.ofChar ':')

theorem isCodeAt_of_atUnit (u : CodeUnit) (hu : u.isCode = true) ⦃c : Cursor⦄ (hc : c.IsPlaced)
    (h : c.atUnit u = true) : Source.IsCodeAt c.offset ∧ Source.EndsCode (c.offset + 1) := by
  obtain ⟨rest, hrest⟩ := List.head?_eq_some_iff.mp (beq_iff_eq.mp h)
  refine hc.isCodeAt (length_pos_of_atUnit h) one_pos ?_
  rw [hrest, List.take_succ_cons, List.take_zero, Text.isCode, List.all_cons, hu]
  rfl

theorem IsPlaced.isCodeAt_of_wordLength (h : c.IsPlaced) (hword : wordLength c.rest ≠ 0) :
    Source.IsCodeAt c.offset ∧ Source.EndsCode (c.offset + wordLength c.rest) :=
  h.isCodeAt (wordLength_le _) (Nat.pos_of_ne_zero hword) (isCode_wordLength _)

theorem IsPlaced.isCodeAt_of_numberLength (h : c.IsPlaced) (hnumber : numberLength c.rest ≠ 0) :
    Source.IsCodeAt c.offset ∧ Source.EndsCode (c.offset + numberLength c.rest) :=
  h.isCodeAt (numberLength_le _) (Nat.pos_of_ne_zero hnumber) (isCode_numberLength _)

/-- A string literal begins with code. -/
@[grind →]
theorem IsPlaced.isCodeAt_of_startsString (h : c.IsPlaced)
    (hs : Layout.startsString c.rest = true) : Source.IsCodeAt c.offset := by
  have hhead := (Layout.startsToken_of_startsString hs).2
  rwa [h.rest, List.head?_drop] at hhead

/-- Behind the letters in front of a string literal there are quotes. -/
theorem IsPlaced.isCode_quote (h : c.IsPlaced) (hs : Layout.startsString c.rest = true)
    (h' : c'.IsPlaced)
    (hoffset : c'.offset = c.offset + (c.rest.takeWhile Layout.isStringPrefix).length)
    (letters : Text) : (Delimiter.ofPrefix letters c'.rest).quote.isCode = true := by
  have hrest : c'.rest = c.rest.drop (c.rest.takeWhile Layout.isStringPrefix).length := by
    rw [h'.rest, hoffset, ← List.drop_drop, ← h.rest]
  have hdrop : c.rest.drop (c.rest.takeWhile Layout.isStringPrefix).length =
      c.rest.dropWhile Layout.isStringPrefix := by
    conv_lhs =>
      arg 2
      rw [← List.takeWhile_append_dropWhile (p := Layout.isStringPrefix) (l := c.rest)]
    exact List.drop_left
  rw [hrest, hdrop]
  exact Delimiter.isCode_quote hs

grind_pattern IsPlaced.isCode_quote =>
  Delimiter.ofPrefix letters c'.rest, Layout.startsString c.rest

theorem IsPlaced.endsCode_of_closes {d : Delimiter} (h : c.IsPlaced)
    (hd : d.closes c.rest = true) (hquote : d.quote.isCode = true) :
    Source.EndsCode (c.offset + d.width) :=
  (h.isCodeAt (d.width_le_of_closes hd) d.width_pos (d.isCode_of_closes hd hquote)).2

end Cursor

/-! ### Readers -/

namespace Parse

variable {α β : Type} {c : Cursor}

/-- If the reader succeeds from the cursor `c`, which is placed, then it went forwards, to a value
and a cursor that satisfy `Q`. -/
abbrev Gives (p : Parse α) (c : Cursor) (Q : α → Cursor → Prop) : Prop :=
  ⦃fun c' ↦ ⌜c' = c⌝⦄ p ⦃post⟨fun a c' ↦ ⌜c.IsPlaced → c.Leads c' ∧ Q a c'⌝, fun _ ↦ ⌜True⌝⟩⦄

/-- `P` holds of the outcome of a reader, unless it failed. -/
def Holds (P : α → Cursor → Prop) : Except Nat (α × Cursor) → Prop
  | .ok (a, c') => P a c'
  | .error _ => True

/-- What is right of the outcome of a reader that gives `Q`. -/
def Outcome (c : Cursor) (Q : α → Cursor → Prop) : Except Nat (α × Cursor) → Prop :=
  Holds fun a c' ↦ c.IsPlaced → c.Leads c' ∧ Q a c'

variable {p : Parse α} {Q : α → Cursor → Prop} {R : β → Cursor → Prop}

@[grind =]
theorem outcome_ok {a : α} {c' : Cursor} :
    Outcome c Q (.ok (a, c')) ↔ (c.IsPlaced → c.Leads c' ∧ Q a c') := .rfl

theorem outcome_error (i : Nat) : Outcome c Q (.error i) := trivial

theorem Outcome.imp {c' : Cursor} {P : α → Cursor → Prop} {r : Except Nat (α × Cursor)}
    (h : Outcome c' P r) (hc : c.Leads c') (hP : ∀ a c'', P a c'' → Q a c'') : Outcome c Q r := by
  cases r with
  | ok r =>
    obtain ⟨hleads, hholds⟩ := outcome_ok.mp h hc.placed
    exact outcome_ok.mpr fun _ ↦ ⟨hc.trans hleads, hP _ _ hholds⟩
  | error i => trivial

theorem Outcome.of_not_isPlaced {r : Except Nat (α × Cursor)} (hc : ¬ c.IsPlaced) :
    Outcome c Q r := by
  cases r with
  | ok r => exact outcome_ok.mpr fun h ↦ absurd h hc
  | error i => trivial

omit [Source] in
theorem triple_iff {P : α → Cursor → Prop} :
    ⦃fun c' ↦ ⌜c' = c⌝⦄ p ⦃post⟨fun a c' ↦ ⌜P a c'⌝, fun _ ↦ ⌜True⌝⟩⦄ ↔ Holds P (p c) := by
  have hrun := @WP.StateT_run (Except Nat) (.except Nat .pure) _ _ c
    (fun r ↦ ⌜Holds P (.ok r)⌝, fun i ↦ ⌜Holds P (.error i)⌝, ()) _ p
  constructor
  · intro h
    exact Except.of_wp_eq rfl _ (hrun ▸ fun _ ↦ h c rfl)
  · rintro h c' rfl
    refine (congrArg ULift.down hrun).mp ?_
    change (wp⟦p c'⟧ _).down
    cases hr : p c' with
    | ok r =>
      rw [hr] at h
      exact (congrArg ULift.down (WP.pure (m := Except Nat) r _)).mpr h
    | error i => exact (congrArg ULift.down WP.throw_Except).mpr trivial

theorem gives_iff : p.Gives c Q ↔ Outcome c Q (p c) := triple_iff

theorem Gives.of_run {a : α} {c' : Cursor} (h : p.Gives c Q) (hr : p.run c = .ok (a, c')) :
    c.IsPlaced → c.Leads c' ∧ Q a c' := by
  have h := gives_iff.mp h
  change p c = _ at hr
  rwa [hr] at h

theorem gives_of_isPlaced (h : c.IsPlaced → Outcome c Q (p c)) : p.Gives c Q := by
  by_cases hc : c.IsPlaced
  · exact gives_iff.mpr (h hc)
  · exact gives_iff.mpr (.of_not_isPlaced hc)

theorem gives_pure {a : α} (ha : Q a c) : (pure a : Parse α).Gives c Q :=
  gives_iff.mpr (outcome_ok.mpr fun hc ↦ ⟨hc.leads, ha⟩)

theorem gives_offset : offset.Gives c fun i c' ↦ i = c.offset ∧ c' = c :=
  gives_iff.mpr (outcome_ok.mpr fun hc ↦ ⟨hc.leads, rfl, rfl⟩)

theorem gives_get : (get : Parse Cursor).Gives c fun c₁ c' ↦ c₁ = c ∧ c' = c :=
  gives_iff.mpr (outcome_ok.mpr fun hc ↦ ⟨hc.leads, rfl, rfl⟩)

theorem Gives.bind {q : α → Parse β} (hp : p.Gives c Q)
    (hq : ∀ a c', c.Leads c' → Q a c' → (q a).Gives c' R) : (p >>= q).Gives c R := by
  refine gives_of_isPlaced fun hc ↦ ?_
  have hp := gives_iff.mp hp
  change Outcome c R (Except.bind (p c) fun r ↦ q r.1 r.2)
  cases hr : p c with
  | ok r =>
    rw [hr] at hp
    obtain ⟨hleads, hholds⟩ := outcome_ok.mp hp hc
    exact (gives_iff.mp (hq r.1 r.2 hleads hholds)).imp hleads fun _ _ ↦ id
  | error i => trivial

theorem gives_ite {P : Prop} [Decidable P] {q : Parse α} (hp : P → p.Gives c Q)
    (hq : ¬ P → q.Gives c Q) : (if P then p else q).Gives c Q := by
  split_ifs with h
  · exact hp h
  · exact hq h

theorem Gives.imp {P : α → Cursor → Prop} (h : p.Gives c P)
    (hP : ∀ a c', c.Leads c' → P a c' → Q a c') : p.Gives c Q := by
  refine gives_of_isPlaced fun hc ↦ ?_
  have h := gives_iff.mp h
  cases hr : p c with
  | ok r =>
    rw [hr] at h
    obtain ⟨hleads, hholds⟩ := outcome_ok.mp h hc
    exact outcome_ok.mpr fun _ ↦ ⟨hleads, hP _ _ hleads hholds⟩
  | error i => trivial

/-- For a reader that ends with a call, which reads from a cursor other than `c`. -/
theorem gives_of_outcome (h : ⦃fun c' ↦ ⌜c' = c⌝⦄ p
      ⦃post⟨fun a c' ↦ ⌜Outcome c Q (.ok (a, c'))⌝, fun _ ↦ ⌜True⌝⟩⦄) : p.Gives c Q := h

/-- If the reader succeeds from the cursor `c` and the text there is as it has to be, then it gives
`Q`. -/
abbrev GivesIf (p : Parse α) (P : Prop) (c : Cursor) (Q : α → Cursor → Prop) : Prop :=
  ⦃fun c' ↦ ⌜c' = c⌝⦄ p
    ⦃post⟨fun a c' ↦ ⌜c.IsPlaced → P → c.Leads c' ∧ Q a c'⌝, fun _ ↦ ⌜True⌝⟩⦄

theorem givesIf_of_gives {P : Prop} (h : P → p.Gives c Q) : p.GivesIf P c Q := by
  refine triple_iff.mpr ?_
  cases hr : p c with
  | ok r =>
    intro hc hP
    have hgives := gives_iff.mp (h hP)
    rw [hr] at hgives
    exact hgives hc
  | error i => trivial

theorem GivesIf.gives {P : Prop} (h : p.GivesIf P c Q) (hP : P) : p.Gives c Q := by
  have hholds := triple_iff.mp h
  refine gives_iff.mpr ?_
  cases hr : p c with
  | ok r =>
    rw [hr] at hholds
    exact fun hc ↦ hholds hc hP
  | error i => trivial

-- the condition after a call must not be taken for that of the reader itself
attribute [irreducible] Outcome

@[spec]
theorem gives_fail : (fail : Parse α).Gives c fun _ _ ↦ False :=
  gives_iff.mpr (outcome_error _)

/-- A token that is too long is no step forwards. -/
@[spec]
theorem givesIf_take (n : Nat) : (take n).GivesIf (n ≤ c.rest.length) c fun _ c' ↦
    c'.offset = c.offset + n ∧ c'.lastEnd = c.offset + n := by
  mvcgen [take] with grind [Cursor.IsPlaced.take, Cursor.take, Cursor.skip]

@[spec]
theorem gives_takeWord : takeWord.Gives c fun _ c' ↦
    c.offset < c'.lastEnd ∧ Source.IsCodeAt c.offset ∧ Source.EndsCode c'.lastEnd := by
  mvcgen [takeWord] with grind [Cursor.wordLength_le, Cursor.IsPlaced.isCodeAt_of_wordLength]

@[spec]
theorem gives_keyword (w : Text) : (keyword w).Gives c fun _ c' ↦
    c.offset < c'.lastEnd ∧ Source.IsCodeAt c.offset ∧ Source.EndsCode c'.lastEnd := by
  mvcgen [keyword] with grind

@[spec]
theorem gives_mark (m : Text) : (mark m).Gives c fun _ c' ↦
    c'.lastEnd = c.offset + m.length ∧ c.atMark m = true := by
  mvcgen [mark] with grind

@[spec]
theorem gives_unit (u : CodeUnit) : (unit u).Gives c fun _ c' ↦
    c'.lastEnd = c.offset + 1 ∧ c.atUnit u = true := by
  mvcgen [unit] with grind

/-! ### Looking ahead -/

end Parse

/-- What is ahead of the cursor `c` as reported where `e` may come next. -/
@[grind] def Ahead.IsAt (e : Expected) (c : Cursor) : Ahead → Prop
  | .newline => e.newline = true ∧ Source.Closes c.offset
  | .indent _ => e.indent = true
  | .dedent => e.dedent = true ∧ Source.Closes c.offset
  | .string => StartsToken c.rest ∧ Layout.startsString c.rest = true
  | .code => StartsToken c.rest
  | .finish => c.rest = []

/-- Where the line structure has nothing to say, a token comes next or nothing does. -/
theorem Ahead.IsAt.startsToken {e : Expected} {ahead : Ahead} {c : Cursor} (h : ahead.IsAt e c)
    (hnewline : e.newline = false) (hindent : e.indent = false) (hdedent : e.dedent = false) :
    c.rest = [] ∨ StartsToken c.rest := by
  cases ahead <;> grind

namespace Cursor

variable {c c' c'' : Cursor}

/-- Where the line structure ends a statement or a block, no code is left on the line. -/
theorem IsPlaced.closes (h : c.IsPlaced)
    (hblank : Text.isUnbroken c.rest = true →
      (c.rest.takeWhile (!·.isNewline)).all CodeUnit.isBlank = true) :
    Source.Closes c.offset := fun hunbroken ↦
  Text.closesLine_of_blank (h.rest ▸ hblank (h.rest ▸ Text.isUnbroken_drop hunbroken _))

@[grind →]
theorem IsPlaced.closes_of_nil (h : c.IsPlaced) (hnil : c.rest = []) : Source.Closes c.offset :=
  h.closes fun _ ↦ hnil ▸ rfl

/-- Between the cursors there are only blanks, comments and continuations, and nothing at all if a
token is at the first one. -/
structure Passes (c c' : Cursor) : Prop extends c.Leads c' where
  lastEnd_eq : c'.lastEnd = c.lastEnd
  still : StartsToken c.rest → c' = c

theorem IsPlaced.passes (h : c.IsPlaced) : c.Passes c := ⟨h.leads, rfl, fun _ ↦ rfl⟩

theorem Passes.trans (h : c.Passes c') (h' : c'.Passes c'') : c.Passes c'' where
  toLeads := h.toLeads.trans h'.toLeads
  lastEnd_eq := h'.lastEnd_eq.trans h.lastEnd_eq
  still htoken := by
    obtain rfl := h.still htoken
    exact h'.still htoken

theorem IsPlaced.passes_gap (h : c.IsPlaced) :
    c.Passes (c.skip (c.rest.takeWhile isGap).length) := by
  refine ⟨h.skip_filler (List.takeWhile_prefix _).length_le (isFiller_gap _), rfl,
    fun htoken ↦ ?_⟩
  rw [htoken.gap]
  rfl

theorem IsPlaced.passes_comment (h : c.IsPlaced) (hcomment : c.atUnit '#' = true) :
    c.Passes (c.skip (c.rest.takeWhile (!·.isNewline)).length) := by
  refine ⟨h.skip (List.takeWhile_prefix _).length_le ?_, rfl, fun htoken ↦
    Bool.noConfusion (htoken.comment.symm.trans hcomment)⟩
  have hsign : Source.text.hasAt (· == '#') c.offset = true := by
    rw [Text.hasAt, ← List.head?_drop, ← h.rest, beq_iff_eq.mp hcomment]
    rfl
  have hlength := congrArg List.length (Text.slice_lineEnd Source.text c.offset)
  rw [Text.length_slice (Text.lineEnd_le _ _), ← h.rest] at hlength
  have hend : c.offset + (c.rest.takeWhile (!·.isNewline)).length =
      Source.text.lineEnd c.offset := by
    have hle := Text.le_lineEnd h.offset_le
    omega
  exact .comment hsign (hend ▸ .refl _)

theorem IsPlaced.passes_continuation (h : c.IsPlaced) (hn : ¬ continuationLength c.rest = 0) :
    c.Passes (c.skip (continuationLength c.rest)) :=
  ⟨h.skip_filler (continuationLength_le _) (isFiller_continuation _), rfl,
    fun htoken ↦ absurd htoken.continuation hn⟩

/-- Up to a string literal. -/
theorem IsPlaced.passes_afterGap (h : c.IsPlaced) :
    c.Passes (c.skip (c.rest.length - (Parse.afterGap c.rest).length)) := by
  refine ⟨h.skip_filler (Nat.sub_le _ _) (isFiller_afterGap _), rfl, fun htoken ↦ ?_⟩
  rw [Parse.afterGap_of_startsToken htoken, Nat.sub_self]
  rfl

omit [Source] in
theorem startsString_skip {e : Expected}
    (h : Layout.read e c.columns c.inFormat c.rest = .string) :
    Layout.startsString (c.skip (c.rest.length - (Parse.afterGap c.rest).length)).rest = true := by
  rw [skip, ← List.suffix_iff_eq_drop.mp (Parse.afterGap_isSuffix c.rest)]
  exact Layout.startsString_afterGap h

omit [Source] in
/-- Behind the blanks there is a token, if neither a comment nor a continuation is there. -/
theorem startsToken_skip_gap
    (hnonempty : ¬ (c.skip (c.rest.takeWhile isGap).length).rest.isEmpty = true)
    (hcomment : ¬ (c.skip (c.rest.takeWhile isGap).length).atUnit '#' = true)
    (hcontinuation : continuationLength (c.skip (c.rest.takeWhile isGap).length).rest = 0) :
    StartsToken (c.skip (c.rest.takeWhile isGap).length).rest := by
  refine ⟨fun hnil ↦ hnonempty (List.isEmpty_iff.mpr hnil), ?_, Bool.eq_false_iff.mpr hcomment,
    hcontinuation⟩
  rw [skip, (drop_takeWhile_isGap c.rest).1]
  exact (drop_takeWhile_isGap c.rest).2

end Cursor

namespace Parse

variable {α β : Type} {c : Cursor}

omit [Source] in
theorem lookOver_succ (e : Expected) (bound : Nat) (c : Cursor) :
    lookOver e (bound + 1) c =
      let c' := c.skip (c.rest.takeWhile Cursor.isGap).length
      match Layout.read e c.columns c.inFormat c.rest with
      | .newline => .ok (.newline, c)
      | .indent column => .ok (.indent column, c)
      | .dedent => if e.dedent then .ok (.dedent, c) else .error c.offset
      | .string => .ok (.string, c.skip (c.rest.length - (afterGap c.rest).length))
      | .plain =>
        if c'.rest.isEmpty then .ok (.finish, c')
        else if c'.atUnit '#' then
          lookOver e bound (c'.skip (c'.rest.takeWhile (!·.isNewline)).length)
        else if Cursor.continuationLength c'.rest = 0 then .ok (.code, c')
        else lookOver e bound (c'.skip (Cursor.continuationLength c'.rest)) := by
  rw [lookOver]
  simp only [bind, StateT.bind, get, getThe, MonadStateOf.get, StateT.get, set, pure,
    Except.bind, Except.pure]
  cases Layout.read e c.columns c.inFormat c.rest with
  | newline | indent | string => rfl
  | dedent => cases e.dedent <;> rfl
  | plain =>
    dsimp only
    split_ifs <;> rfl

theorem gives_lookOver (e : Expected) (bound : Nat) (c : Cursor) :
    (lookOver e bound).Gives c fun ahead c' ↦ c.Passes c' ∧ ahead.IsAt e c' := by
  induction bound generalizing c with
  | zero => exact gives_iff.mpr (outcome_error _)
  | succ bound ih =>
    refine gives_of_isPlaced fun hc ↦ ?_
    have hnext : ∀ c', c.Passes c' →
        Outcome c (fun ahead c' ↦ c.Passes c' ∧ ahead.IsAt e c') (lookOver e bound c') :=
      fun c' hc' ↦ (gives_iff.mp (ih c')).imp hc'.toLeads
        fun _ _ h ↦ ⟨hc'.trans h.1, h.2⟩
    have hgap := hc.passes_gap
    rw [lookOver_succ]
    extract_lets c'
    split
    · next hread =>
      exact outcome_ok.mpr fun _ ↦ ⟨hc.leads, hc.passes, Layout.newline_of_read hread,
        hc.closes (Layout.blank_of_read (.inl hread))⟩
    · next column hread =>
      exact outcome_ok.mpr fun _ ↦ ⟨hc.leads, hc.passes, Layout.indent_of_read hread⟩
    · next hread =>
      split_ifs with hdedent
      · exact outcome_ok.mpr fun _ ↦ ⟨hc.leads, hc.passes, hdedent,
          hc.closes (Layout.blank_of_read (.inr hread))⟩
      · exact outcome_error _
    · next hread =>
      have hstring := Cursor.startsString_skip hread
      exact outcome_ok.mpr fun _ ↦ ⟨hc.passes_afterGap.toLeads, hc.passes_afterGap,
        (Layout.startsToken_of_startsString hstring).1, hstring⟩
    · split_ifs with hempty hcomment hcontinuation
      · exact outcome_ok.mpr fun _ ↦ ⟨hgap.toLeads, hgap, List.isEmpty_iff.mp hempty⟩
      · exact hnext _ (hgap.trans (hgap.placed.passes_comment hcomment))
      · exact outcome_ok.mpr fun _ ↦ ⟨hgap.toLeads, hgap,
          Cursor.startsToken_skip_gap hempty hcomment hcontinuation⟩
      · exact hnext _ (hgap.trans (hgap.placed.passes_continuation hcontinuation))

@[spec]
theorem gives_look (e : Expected) : (look e).Gives c fun ahead c' ↦
    c'.lastEnd = c.lastEnd ∧ ahead.IsAt e c' ∧ (StartsToken c.rest → c' = c) :=
  gives_of_isPlaced fun hc ↦
    (gives_iff.mp (gives_lookOver e (c.rest.length + 1) c)).imp hc.leads
      fun _ _ h ↦ ⟨h.1.lastEnd_eq, h.2, h.1.still⟩

/-! ### Repetition and choice -/

/-- What holds before a loop and is preserved by its step, holds after it, together with what the
loop ends on. -/
theorem gives_iterate {I : α → Cursor → Prop} {E : α → Prop} {step : α → Parse (Option α)}
    (hstep : ∀ a c', c.Leads c' → I a c' →
      (step a).Gives c' fun r c'' ↦ I (r.getD a) c'' ∧ (r = none → E a))
    (bound : Nat) (a : α) (c' : Cursor) (hc : c.Leads c') (ha : I a c') :
    (iterate step bound a).Gives c' fun b c'' ↦ I b c'' ∧ E b := by
  induction bound generalizing a c' with
  | zero => exact gives_iff.mpr (outcome_error _)
  | succ bound ih =>
    refine (hstep a c' hc ha).bind fun r c'' hc'' hr ↦ ?_
    cases r with
    | none => exact gives_pure ⟨hr.1, hr.2 rfl⟩
    | some b => exact ih b c'' (hc.trans hc'') hr.1

theorem gives_repeating_until {I : α → Cursor → Prop} {E : α → Prop} {step : α → Parse (Option α)}
    {a : α} (ha : I a c) (hstep : ∀ a c', c.Leads c' → I a c' →
      (step a).Gives c' fun r c'' ↦ I (r.getD a) c'' ∧ (r = none → E a)) :
    (repeating a step).Gives c fun b c' ↦ I b c' ∧ E b := by
  refine gives_of_isPlaced fun hc ↦ ?_
  have hloop := gives_iterate hstep (c.rest.length + 2) a c hc.leads ha
  exact (gives_iff.mp hloop :)

theorem gives_repeating {I : α → Cursor → Prop} {step : α → Parse (Option α)} {a : α} (ha : I a c)
    (hstep : ∀ a c', c.Leads c' → I a c' → (step a).Gives c' fun r c'' ↦ I (r.getD a) c'') :
    (repeating a step).Gives c I :=
  (gives_repeating_until (E := fun _ ↦ True) ha fun a c' hc ha ↦
    (hstep a c' hc ha).imp fun _ _ _ h ↦ ⟨h, fun _ ↦ trivial⟩).imp fun _ _ _ h ↦ h.1

/-- What the reading of the loop is asked to preserve is `I`. -/
theorem givesIf_repeating (I : α → Cursor → Prop) (a : α) (step : α → Parse (Option α)) (c : Cursor)
    (hstep : ∀ a c', c.Leads c' → I a c' → (step a).Gives c' fun r c'' ↦ I (r.getD a) c'') :
    (repeating a step).GivesIf (I a c) c I :=
  givesIf_of_gives fun ha ↦ gives_repeating ha hstep

/-- For a loop that ends only where `E` holds. -/
theorem givesIf_repeating_until (I : α → Cursor → Prop) (E : α → Prop) (a : α)
    (step : α → Parse (Option α)) (c : Cursor)
    (hstep : ∀ a c', c.Leads c' → I a c' →
      (step a).Gives c' fun r c'' ↦ I (r.getD a) c'' ∧ (r = none → E a)) :
    (repeating a step).GivesIf (I a c) c fun b c' ↦ I b c' ∧ E b :=
  givesIf_of_gives fun ha ↦ gives_repeating_until ha hstep

theorem gives_orElse {p q : Parse α} {Q : α → Cursor → Prop} (hp : p.Gives c Q) (hq : q.Gives c Q) :
    (orElse p q).Gives c Q := by
  have hp := gives_iff.mp hp
  have hq := gives_iff.mp hq
  refine gives_iff.mpr ?_
  rw [orElse]
  split
  · next r hr =>
    rwa [hr] at hp
  · split
    · next r hr =>
      rwa [hr] at hq
    · exact outcome_error _

end Parse

end Declutter.Python
