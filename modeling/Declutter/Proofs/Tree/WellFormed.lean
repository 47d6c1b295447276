import Declutter.Proofs.Tree.Gaps
/-!
Well-formed trees. A span is trimmed if something is in it and no blank at its end. In a well-formed
tree nothing is missing, every construct has clauses and every clause has a statement; the spans of
statements, blocks, clauses and constructs are trimmed, lie one after the other, and are inside each
other. Such a tree is fresh and ordered.

Trimming keeps spans inside each other, although each is trimmed by itself: a span that holds code
is trimmed to no less than that code (`Span.trimEnd_of_contains`).
-/

set_option autoImplicit false
set_option relaxedAutoImplicit false

namespace Declutter

/-! ### Trimmed spans -/

namespace Span

variable {t : Text} {s p : Span} {k : Nat}

/-- The span begins with a unit that is not blank. -/
structure BeginsOnCode (t : Text) (s : Span) : Prop where
  lt : s.start < s.stop
  first : ¬ t.hasAt CodeUnit.isBlank s.start = true

instance (t : Text) (s : Span) : Decidable (s.BeginsOnCode t) :=
  decidable_of_iff (s.start < s.stop ∧ ¬ t.hasAt CodeUnit.isBlank s.start = true)
    ⟨fun ⟨h₁, h₂⟩ ↦ ⟨h₁, h₂⟩, fun ⟨h₁, h₂⟩ ↦ ⟨h₁, h₂⟩⟩

/-- A span with something in it and no blank at its end. -/
structure IsTrimmed (t : Text) (s : Span) : Prop where
  lt : s.start < s.stop
  length : s.stop ≤ t.length
  last : ¬ t.hasAt CodeUnit.isBlank (s.stop - 1) = true

/-- Trimming cuts a span behind the last of its units that are not blank. -/
theorem trimEnd_stop (hlength : s.stop ≤ t.length) (hstart : s.start ≤ k) (hstop : k < s.stop)
    (hcode : ¬ t.hasAt CodeUnit.isBlank k = true) :
    k < (s.trimEnd t).stop ∧ (s.trimEnd t).stop ≤ s.stop ∧
      ¬ t.hasAt CodeUnit.isBlank ((s.trimEnd t).stop - 1) = true := by
  have hnotBlank : ¬ (t.slice s.start s.stop).isBlank = true := fun hblank ↦
    hcode (Text.hasAt_of_all_slice hblank hstart hstop (hstop.trans_le hlength))
  obtain ⟨part, blanks, hslice, ⟨u, hlast, hu⟩, hblanks⟩ := Text.exists_trimEnd hnotBlank
  have htrim : (s.trimEnd t).stop = s.start + part.length := by
    rw [trimEnd, hslice, Text.trimEnd_append ⟨u, hlast, hu⟩ hblanks]
  have hlengths : part.length + blanks.length = s.stop - s.start := by
    rw [← List.length_append, ← hslice, Text.length_slice hlength]
  have hpos : 0 < part.length := List.length_pos_of_ne_nil fun hnil ↦ by
    rw [hnil] at hlast
    cases hlast
  have hget : ∀ j < s.stop - s.start, t[s.start + j]? = (part ++ blanks)[j]? := fun j hj ↦ by
    rw [← hslice, Text.getElem?_slice, if_pos (by omega)]
  rw [htrim]
  refine ⟨Nat.lt_of_not_le fun hle ↦ hcode ?_, by omega, ?_⟩
  · -- behind what is left after trimming there are only blanks
    have hk := hget (k - s.start) (by omega)
    rw [Nat.add_sub_cancel' hstart, List.getElem?_append_right (by omega)] at hk
    have hlt : k - s.start - part.length < blanks.length := by omega
    rw [List.getElem?_eq_getElem hlt] at hk
    exact Text.hasAt_eq_true.mpr ⟨_, hk, List.all_eq_true.mp hblanks _ (List.getElem_mem hlt)⟩
  · have hu' := hget (part.length - 1) (by omega)
    rw [List.getElem?_append_left (by omega), ← List.getLast?_eq_getElem?, hlast] at hu'
    rw [Nat.add_sub_assoc hpos, Text.hasAt, hu', Option.any_some, hu]
    exact Bool.false_ne_true

/-- What trimming cuts off is blank. -/
theorem blank_of_trimEnd_le (hlength : s.stop ≤ t.length) (hk : (s.trimEnd t).stop ≤ k)
    (hstop : k < s.stop) : t.hasAt CodeUnit.isBlank k = true :=
  by_contra fun hcode ↦
    (trimEnd_stop hlength ((Nat.le_add_right _ _).trans hk) hstop hcode).1.not_ge hk

theorem BeginsOnCode.isTrimmed_trimEnd (h : s.BeginsOnCode t) (hlength : s.stop ≤ t.length) :
    (s.trimEnd t).IsTrimmed t ∧ s.Contains (s.trimEnd t) := by
  obtain ⟨hlt, hle, hlast⟩ := trimEnd_stop hlength le_rfl h.lt h.first
  exact ⟨⟨hlt, hle.trans hlength, hlast⟩, ⟨le_rfl, hle⟩⟩

/-- A span that holds a trimmed one still holds it once it is trimmed itself. -/
theorem trimEnd_of_contains (h : s.Contains p) (hp : p.IsTrimmed t) (hlength : s.stop ≤ t.length) :
    (s.trimEnd t).IsTrimmed t ∧ (s.trimEnd t).Contains p ∧ s.Contains (s.trimEnd t) := by
  have hstart := h.start
  have hstop := h.stop
  have hlt := hp.lt
  obtain ⟨hpiece, hle, hlast⟩ :=
    trimEnd_stop hlength (k := p.stop - 1) (by omega) (by omega) hp.last
  have hbegin : (s.trimEnd t).start = s.start := rfl
  refine ⟨⟨by omega, hle.trans hlength, hlast⟩, ⟨hstart, by omega⟩, ⟨le_rfl, hle⟩⟩

end Span

/-! ### Well-formed trees -/

/-- A block in which nothing is missing. Its statements are trimmed, one after the other and inside
the block. -/
structure Block.IsWellFormed (t : Text) (b : Block) : Prop where
  excised : b.excised = []
  unmarked : b.emptied = false
  trimmed : ∀ s ∈ b.statements, s.span.IsTrimmed t
  apart : b.statements.Pairwise fun s u ↦ s.span.stop ≤ u.span.start
  inside : ∀ s ∈ b.statements, b.span.Contains s.span

/-- A clause with a well-formed block in it that has a statement. -/
structure Clause.IsWellFormed (t : Text) (cl : Clause) : Prop where
  trimmed : cl.span.IsTrimmed t
  inside : cl.span.Contains cl.body.span
  body : cl.body.IsWellFormed t
  statements : cl.body.statements ≠ []

/-- A construct in which nothing is missing. It has clauses, all well-formed, one after the other
and inside the construct. -/
structure Construct.IsWellFormed (t : Text) (c : Construct) : Prop where
  dropped : c.dropped = []
  nonempty : c.clauses ≠ []
  clauses : ∀ cl ∈ c.clauses, cl.IsWellFormed t
  apart : c.clauses.Pairwise fun a b ↦ a.span.stop ≤ b.span.start
  inside : ∀ cl ∈ c.clauses, c.span.Contains cl.span

/-- A statement that is no placeholder and, if it is compound, a well-formed construct. -/
def Statement.IsWellFormed (t : Text) : Statement → Prop
  | .compound c => c.IsWellFormed t
  | .placeholder _ => False
  | .expression .. | .inert .. => True

/-- A tree whose blocks and constructs are well-formed at every depth. -/
structure Tree.IsWellFormed (tree : Tree) : Prop where
  body : tree.body.IsWellFormed tree.source
  statements : ∀ s ∈ tree.body.all, s.IsWellFormed tree.source

theorem Block.IsWellFormed.isOrdered {t : Text} {b : Block} (h : b.IsWellFormed t) : b.IsOrdered :=
  h.apart.imp_of_mem fun hs _ hle ↦ (h.trimmed _ hs).lt.le.trans hle

/-- A well-formed tree is fresh. -/
theorem Tree.IsWellFormed.isFresh {tree : Tree} (h : tree.IsWellFormed) : tree.IsFresh where
  excised := h.body.excised
  statements s hs := by
    have hs := h.statements s hs
    cases s with
    | compound c =>
      exact ⟨hs.dropped, hs.nonempty, fun cl hcl ↦ (hs.clauses cl hcl).body.excised,
        fun cl hcl ↦ (hs.clauses cl hcl).statements⟩
    | placeholder => exact hs
    | expression | inert => trivial

/-- A well-formed tree is ordered. -/
theorem Tree.IsWellFormed.isOrdered {tree : Tree} (h : tree.IsWellFormed) : tree.IsOrdered where
  body := h.body.isOrdered
  statements s hs := by
    have hs := h.statements s hs
    cases s with
    | compound c =>
      refine ⟨?_, fun cl hcl ↦ (hs.clauses cl hcl).body.isOrdered⟩
      exact hs.apart.imp_of_mem fun ha _ hle ↦ (hs.clauses _ ha).trimmed.lt.le.trans hle
    | placeholder | expression | inert => trivial

end Declutter
