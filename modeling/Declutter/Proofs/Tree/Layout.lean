import Declutter.Proofs.Tree.Deletion
import Declutter.Proofs.Tree.Shape
import Mathlib.Data.List.Chain
/-!
How the statements of a text lie in it. A tree is laid out (`Tree.IsLaidOut`) if its spans start and
stop on code, neighbours are in order with at most one semicolon and closed comments between them,
clauses start with a header that ends in a colon, and after a compound statement or a clause only
blanks, semicolons and a comment are on the line.

Two statements of a block are then related by `Span.Precedes`, neighbours or not. That is all that
deleting some of them and writing the others back needs: see `Span.Precedes.advances_le` for a
deletion before a statement that stays, `Span.Precedes.le_retreats` for a deletion after it, and
`Span.Precedes.advances_le_retreats` for two deletions.
-/

set_option autoImplicit false
set_option relaxedAutoImplicit false

namespace Declutter

/-! ### Layout -/

/-- A span of code: it does not start at a semicolon, and neither its first nor its last unit is
blank. -/
structure Span.IsCode (t : Text) (s : Span) : Prop where
  lt : s.start < s.stop
  length : s.stop ≤ t.length
  first : t.hasAt CodeUnit.isSolid s.start = true
  last : ¬ t.hasAt CodeUnit.isBlank (s.stop - 1) = true

/-- The span `b` comes after `a`, and not in a comment that starts between them. -/
structure Span.Follows (t : Text) (a b : Span) : Prop where
  le : a.stop ≤ b.start
  uncommented : t.Uncommented a.stop b.start

/-- The span `b` comes after `a` with at most one semicolon between them, comments aside. -/
structure Span.FollowsInBlock (t : Text) (a b : Span) : Prop extends Span.Follows t a b where
  semicolons : (Text.uncomment false (t.slice a.stop b.start)).count (CodeUnit.ofChar ';') ≤ 1

/-- The statements of a block, each after the other. -/
structure Block.IsLaidOut (t : Text) (b : Block) : Prop where
  code : ∀ s ∈ b.statements, s.span.IsCode t
  follows : (b.statements.map (·.span)).IsChain (Span.FollowsInBlock t)

/-- From the start of a clause through a colon before its block. -/
def Clause.IsHeader (t : Text) (cl : Clause) (header : Span) : Prop :=
  header.start = cl.span.start ∧ ∃ colon, header.stop = colon + 1 ∧ cl.span.start ≤ colon ∧
    colon < cl.body.span.start ∧ t.hasAt (· == ':') colon = true

/-- A clause in a construct: it starts with a header, holds its block, which holds its statements,
and is the last code on its last line. -/
structure Clause.IsLaidOut (t : Text) (cl : Clause) : Prop where
  code : cl.span.IsCode t
  header : ∃ header, cl.IsHeader t header
  body : cl.body.IsLaidOut t
  body_stop_le : cl.body.span.stop ≤ cl.span.stop
  statements : ∀ s ∈ cl.body.statements, cl.body.span.start ≤ s.span.start ∧
    s.span.stop ≤ cl.body.span.stop
  closes : t.closesLine cl.span.stop = true

/-- The clauses of a construct, each after the other and all inside the construct. -/
structure Construct.IsLaidOut (t : Text) (c : Construct) : Prop where
  clauses : ∀ cl ∈ c.clauses, cl.IsLaidOut t
  inside : ∀ cl ∈ c.clauses, c.span.start ≤ cl.span.start ∧ cl.span.stop ≤ c.span.stop
  follows : (c.clauses.map (·.span)).IsChain (Span.Follows t)
  closes : t.closesLine c.span.stop = true

/-- A leaf does not stop at a semicolon, and a compound statement is the last code on its last
line. -/
def Statement.IsLaidOut (t : Text) : Statement → Prop
  | .expression span _ | .inert span _ => ¬ t.hasAt (· == ';') (span.stop - 1) = true
  | .compound c => c.IsLaidOut t
  | .placeholder _ => True

/-- The statements of the tree at every depth lie in its source as the grammar lays out a text. -/
structure Tree.IsLaidOut (tree : Tree) : Prop where
  body : tree.body.IsLaidOut tree.source
  statements : ∀ s ∈ tree.body.all, s.IsLaidOut tree.source

/-! ### Order in a block -/

namespace Span

variable {t : Text} {a b c : Span} {i j : Nat}

/-- What deleting around a statement needs to know of its span: it starts on code, and either it
stops on code or no code is left on its last line. -/
structure IsFenced (t : Text) (s : Span) : Prop where
  lt : s.start < s.stop
  length : s.stop ≤ t.length
  first : t.hasAt CodeUnit.isSolid s.start = true
  fence : t.closesLine s.stop = true ∨ ∃ l, s.stop = l + 1 ∧ t.hasAt CodeUnit.isSolid l = true

/-- The span `b` is that of a later statement in the block of `a`: the next one, or one with code
between. -/
inductive Precedes (t : Text) (a b : Span) : Prop where
  | next (follows : FollowsInBlock t a b)
  | apart {k : Nat} (le : a.stop ≤ k) (lt : k < b.start) (solid : t.hasAt CodeUnit.isSolid k = true)
      (uncommented : t.Uncommented a.stop k)

namespace Precedes

theorem le (h : Precedes t a b) : a.stop ≤ b.start := by
  cases h with
  | next follows => exact follows.le
  | apart le lt _ _ => exact le.trans lt.le

theorem trans_next (hab : FollowsInBlock t a b) (hb : b.IsFenced t) (hbc : b.stop ≤ c.start) :
    Precedes t a c :=
  .apart hab.le (hb.lt.trans_le hbc) hb.first hab.uncommented

/-- After `a` there is code that is in no comment, at the start of `b` or before. -/
theorem exists_solid (h : Precedes t a b) (hb : b.IsFenced t) :
    ∃ k ≤ b.start, a.stop ≤ k ∧ t.hasAt CodeUnit.isSolid k = true ∧ t.Uncommented a.stop k := by
  cases h with
  | next follows => exact ⟨b.start, le_rfl, follows.le, hb.first, follows.uncommented⟩
  | apart le lt solid uncommented => exact ⟨_, lt.le, le, solid, uncommented⟩

/-- If no code is left on the last line of `a`, then `b` starts on a later line. -/
theorem nextLine_le (h : Precedes t a b) (hb : b.IsFenced t)
    (hcloses : t.closesLine a.stop = true) :
    t.nextLine a.stop ≤ t.lineStart b.start := by
  obtain ⟨k, hkb, hak, hsolid, hopen⟩ := h.exists_solid hb
  obtain ⟨n, hn, han, hnewline⟩ := Text.exists_newline_of_closesLine hcloses hak hsolid hopen
  exact Text.nextLine_le_lineStart han (hn.trans_le hkb) hnewline

/-- A deletion of `b` starts after `a`. -/
theorem le_retreats (h : Precedes t a b) (ha : a.IsFenced t) (hb : b.IsFenced t)
    (hi : t.Retreats b.start i) : a.stop ≤ i := by
  rcases ha.fence with hcloses | ⟨l, hl, hsolid⟩
  · exact (Text.le_nextLine ha.length).trans ((h.nextLine_le hb hcloses).trans hi.lineStart_le)
  · have hlt := h.le
    rw [hl]
    exact hi.lt (by omega) hsolid

/-- A deletion of `a` stops before `b`, and before its line if only blanks are before `b` on it. -/
theorem advances_le (h : Precedes t a b) (ha : a.IsFenced t) (hb : b.IsFenced t)
    (hi : t.Advances a.stop i) : i ≤ t.lead b.start := by
  rw [Text.lead]
  split_ifs with hblank
  · rcases ha.fence with hcloses | ⟨l, hl, hsolid⟩
    · exact (hi.le_nextLine ha.length).trans (h.nextLine_le hb hcloses)
    · have hle := h.le
      have hlt : l < t.lineStart b.start := Text.lt_lineStart_of_blank hblank (by omega)
        (Text.lt_length_of_hasAt hsolid) (Text.not_blank_of_isSolid hsolid)
      have hnewline := Text.newline_before_lineStart (t := t) (i := b.start) (by omega)
      have hne : l ≠ t.lineStart b.start - 1 := fun heq ↦
        Text.not_newline_of_isSolid hsolid (heq ▸ hnewline)
      have hnext := Text.nextLine_le_of_newline (i := a.stop) (by omega) hnewline
      exact (hi.le_nextLine ha.length).trans (by omega)
  · obtain ⟨k, hkb, hak, hsolid, hopen⟩ := h.exists_solid hb
    exact (hi.le_of_isSolid hak hsolid hopen).trans hkb

/-- Deletions of `a` and `b` do not meet if more than a separator is between them. -/
theorem advances_le_retreats (h : Precedes t a b) (ha : a.IsFenced t) (hb : b.IsFenced t)
    (hi : t.Advances a.stop i) (hj : t.Retreats b.start j)
    (hseparator : Edit.isSeparator (t.slice a.stop b.start) = false) : i ≤ j := by
  cases h with
  | next follows =>
    exact hi.le_retreats hj follows.le (hb.lt.le.trans hb.length) ha.fence hb.first
      follows.uncommented follows.semicolons hseparator
  | apart le lt solid uncommented =>
    exact (hi.le_of_isSolid le solid uncommented).trans (hj.lt lt solid).le

end Precedes

/-- No code is in a separator. -/
theorem not_isSolid_of_isSeparator {k : Nat} (hj : j ≤ t.length)
    (h : Edit.isSeparator (t.slice i j) = true) (hi : i ≤ k) (hk : k < j) :
    ¬ t.hasAt CodeUnit.isSolid k = true := by
  obtain ⟨m, hm⟩ := Edit.afterSeparator?_slice (hi.trans hk.le) hj (beq_iff_eq.mp h)
  exact hm.not_isSolid hi hk

/-- The statements of a block precede each other in their order. -/
theorem pairwise_precedes {spans : List Span} (hfenced : ∀ s ∈ spans, s.IsFenced t)
    (h : spans.IsChain (FollowsInBlock t)) : spans.Pairwise (Precedes t) := by
  induction spans with
  | nil => exact .nil
  | cons a rest ih =>
    rw [List.forall_mem_cons] at hfenced
    cases rest with
    | nil => exact List.pairwise_singleton _ _
    | cons b rest =>
      rw [List.isChain_cons_cons] at h
      have hrest := ih hfenced.2 h.2
      have hb := (List.forall_mem_cons.mp hfenced.2).1
      refine List.pairwise_cons.mpr ⟨List.forall_mem_cons.mpr ⟨.next h.1, fun c hc ↦ ?_⟩, hrest⟩
      exact .trans_next h.1 hb ((List.pairwise_cons.mp hrest).1 c hc).le

end Span

/-- A statement that is laid out is fenced: a leaf stops on code, after a compound statement no code
is left on the line. -/
theorem Statement.IsLaidOut.isFenced {t : Text} {s : Statement} (h : s.IsLaidOut t)
    (hfresh : s.IsFresh) (hcode : s.span.IsCode t) : s.span.IsFenced t := by
  refine ⟨hcode.lt, hcode.length, hcode.first, ?_⟩
  have hleaf : ¬ t.hasAt (· == ';') (s.span.stop - 1) = true →
      ∃ l, s.span.stop = l + 1 ∧ t.hasAt CodeUnit.isSolid l = true := by
    intro hsemicolon
    have hlt := hcode.lt
    refine ⟨s.span.stop - 1, by omega, ?_⟩
    have hlength : s.span.stop - 1 < t.length := by have := hcode.length; omega
    have hget := List.getElem?_eq_getElem hlength
    have hblank := hcode.last
    rw [Text.hasAt, hget, Option.any_some] at hsemicolon hblank
    rw [Text.hasAt, hget, Option.any_some, CodeUnit.isSolid]
    simpa [hblank] using hsemicolon
  cases s with
  | expression span value => exact .inr (hleaf h)
  | inert span type => exact .inr (hleaf h)
  | compound c => exact .inl h.closes
  | placeholder span => exact hfresh.elim

/-! ### Decidability -/

section Decidability

variable (t : Text)

instance (s : Span) : Decidable (s.IsCode t) :=
  decidable_of_iff (s.start < s.stop ∧ s.stop ≤ t.length ∧ t.hasAt CodeUnit.isSolid s.start = true ∧
      ¬ t.hasAt CodeUnit.isBlank (s.stop - 1) = true)
    ⟨fun ⟨h₁, h₂, h₃, h₄⟩ ↦ ⟨h₁, h₂, h₃, h₄⟩, fun ⟨h₁, h₂, h₃, h₄⟩ ↦ ⟨h₁, h₂, h₃, h₄⟩⟩

instance : DecidableRel (Span.Follows t) := fun a b ↦
  decidable_of_iff (a.stop ≤ b.start ∧ t.Uncommented a.stop b.start)
    ⟨fun ⟨h₁, h₂⟩ ↦ ⟨h₁, h₂⟩, fun ⟨h₁, h₂⟩ ↦ ⟨h₁, h₂⟩⟩

instance : DecidableRel (Span.FollowsInBlock t) := fun a b ↦
  decidable_of_iff (Span.Follows t a b ∧
      (Text.uncomment false (t.slice a.stop b.start)).count (CodeUnit.ofChar ';') ≤ 1)
    ⟨fun ⟨h₁, h₂⟩ ↦ ⟨h₁, h₂⟩, fun ⟨h₁, h₂⟩ ↦ ⟨h₁, h₂⟩⟩

instance (b : Block) : Decidable (b.IsLaidOut t) :=
  decidable_of_iff ((∀ s ∈ b.statements, s.span.IsCode t) ∧
      (b.statements.map (·.span)).IsChain (Span.FollowsInBlock t))
    ⟨fun ⟨h₁, h₂⟩ ↦ ⟨h₁, h₂⟩, fun ⟨h₁, h₂⟩ ↦ ⟨h₁, h₂⟩⟩

theorem Clause.exists_isHeader_iff {cl : Clause} :
    (∃ header, cl.IsHeader t header) ↔
      ∃ colon < cl.body.span.start, cl.span.start ≤ colon ∧ t.hasAt (· == ':') colon = true := by
  constructor
  · rintro ⟨_, _, colon, -, hstart, hstop, hcolon⟩
    exact ⟨colon, hstop, hstart, hcolon⟩
  · rintro ⟨colon, hstop, hstart, hcolon⟩
    exact ⟨⟨cl.span.start, colon + 1⟩, rfl, colon, rfl, hstart, hstop, hcolon⟩

instance (cl : Clause) (header : Span) : Decidable (cl.IsHeader t header) :=
  decidable_of_iff
    (header.start = cl.span.start ∧ ∃ colon < cl.body.span.start, header.stop = colon + 1 ∧
      cl.span.start ≤ colon ∧ t.hasAt (· == ':') colon = true)
    ⟨fun ⟨h₁, colon, h₂, h₃, h₄, h₅⟩ ↦ ⟨h₁, colon, h₃, h₄, h₂, h₅⟩,
      fun ⟨h₁, colon, h₃, h₄, h₂, h₅⟩ ↦ ⟨h₁, colon, h₂, h₃, h₄, h₅⟩⟩

instance (cl : Clause) : Decidable (cl.IsLaidOut t) :=
  decidable_of_iff (cl.span.IsCode t ∧
      (∃ colon < cl.body.span.start, cl.span.start ≤ colon ∧ t.hasAt (· == ':') colon = true) ∧
      cl.body.IsLaidOut t ∧ cl.body.span.stop ≤ cl.span.stop ∧
      (∀ s ∈ cl.body.statements, cl.body.span.start ≤ s.span.start ∧
        s.span.stop ≤ cl.body.span.stop) ∧
      t.closesLine cl.span.stop = true)
    ⟨fun ⟨h₁, h₂, h₃, h₄, h₅, h₆⟩ ↦ ⟨h₁, (Clause.exists_isHeader_iff t).mpr h₂, h₃, h₄, h₅, h₆⟩,
      fun ⟨h₁, h₂, h₃, h₄, h₅, h₆⟩ ↦ ⟨h₁, (Clause.exists_isHeader_iff t).mp h₂, h₃, h₄, h₅, h₆⟩⟩

instance (c : Construct) : Decidable (c.IsLaidOut t) :=
  decidable_of_iff ((∀ cl ∈ c.clauses, cl.IsLaidOut t) ∧
      (∀ cl ∈ c.clauses, c.span.start ≤ cl.span.start ∧ cl.span.stop ≤ c.span.stop) ∧
      (c.clauses.map (·.span)).IsChain (Span.Follows t) ∧ t.closesLine c.span.stop = true)
    ⟨fun ⟨h₁, h₂, h₃, h₄⟩ ↦ ⟨h₁, h₂, h₃, h₄⟩, fun ⟨h₁, h₂, h₃, h₄⟩ ↦ ⟨h₁, h₂, h₃, h₄⟩⟩

instance : (s : Statement) → Decidable (s.IsLaidOut t)
  | .expression span _ | .inert span _ =>
    inferInstanceAs (Decidable (¬ t.hasAt (· == ';') (span.stop - 1) = true))
  | .compound c => inferInstanceAs (Decidable (c.IsLaidOut t))
  | .placeholder _ => inferInstanceAs (Decidable True)

end Decidability

instance (tree : Tree) : Decidable tree.IsLaidOut :=
  decidable_of_iff (tree.body.IsLaidOut tree.source ∧ ∀ s ∈ tree.body.all, s.IsLaidOut tree.source)
    ⟨fun ⟨h₁, h₂⟩ ↦ ⟨h₁, h₂⟩, fun ⟨h₁, h₂⟩ ↦ ⟨h₁, h₂⟩⟩

end Declutter
