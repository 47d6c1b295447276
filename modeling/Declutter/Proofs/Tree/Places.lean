import Declutter.Proofs.Tree.Settling
import Declutter.Proofs.Tree.Walk
import Mathlib.Data.List.Perm.Basic
/-!
Where the parts of a tree are. The places of a block are the spans of the statements in it and of
those that were excised from it; the places of a construct are the spans of its clauses, there or
dropped. Removal changes which of them are still there, but not the places: pruning a block
(`Block.places_prune`), filling a clause (`Clause.places_fill`) and settling a construct
(`Construct.places_settle`) keep them up to their order.
-/

set_option autoImplicit false
set_option relaxedAutoImplicit false

namespace Declutter

open scoped List

/-- The spans of the statements of a block and of the statements excised from it. -/
def Block.places (b : Block) : List Span := b.statements.map (·.span) ++ b.excised

/-- The spans of the clauses of a construct and of the clauses dropped from it. -/
def Construct.places (c : Construct) : List Span := c.clauses.map (·.span) ++ c.dropped

/-! ### Spans in order -/

namespace Span

variable {spans : List Span}

theorem pairwise_start_sortByStart (spans : List Span) :
    (sortByStart spans).Pairwise fun a b ↦ a.start ≤ b.start := by
  have hsorted : (sortByStart spans).Pairwise fun a b ↦ decide (a.start ≤ b.start) = true :=
    List.pairwise_mergeSort
      (fun a b c hab hbc ↦ by
        rw [decide_eq_true_eq] at hab hbc ⊢
        exact Nat.le_trans hab hbc)
      (fun a b ↦ by
        rw [Bool.or_eq_true, decide_eq_true_eq, decide_eq_true_eq]
        exact Nat.le_total _ _) spans
  exact hsorted.imp of_decide_eq_true

/-- Spans that are ordered by their starts one way or the other are in order once they are
sorted. -/
theorem pairwise_sortByStart {R : Span → Span → Prop} (h : spans.Pairwise fun a b ↦ R a b ∨ R b a)
    (hstart : ∀ a ∈ spans, ∀ b, R a b → a.start < b.start) : (sortByStart spans).Pairwise R := by
  have hperm : sortByStart spans ~ spans := List.mergeSort_perm _ _
  have hsymm := hperm.symm.pairwise h fun hor ↦ Or.symm hor
  refine ((pairwise_start_sortByStart spans).and hsymm).imp_of_mem fun {a b} _ hb ⟨hle, hor⟩ ↦
    hor.resolve_right fun hba ↦ ?_
  have hlt := hstart b (hperm.mem_iff.mp hb) a hba
  omega

/-- Spans in the order of their starts are what sorting gives, whatever order they are given in. -/
theorem sortByStart_eq {ordered : List Span} (h : spans ~ ordered)
    (hordered : ordered.Pairwise fun a b ↦ a.start < b.start) : sortByStart spans = ordered := by
  have hbeside : spans.Pairwise fun a b ↦ a.start < b.start ∨ b.start < a.start :=
    h.symm.pairwise (hordered.imp Or.inl) Or.symm
  have hsorted := pairwise_sortByStart hbeside fun _ _ _ hlt ↦ hlt
  have hperm : sortByStart spans ~ ordered := (List.mergeSort_perm _ _).trans h
  refine hperm.eq_of_pairwise (fun a b _ _ hab hba ↦ ?_) hsorted hordered
  omega

end Span

variable {targets : TargetSet} {policy : Policy}

/-! ### Blocks -/

/-- What is left of a statement is the statement itself, or what is left of a construct. -/
theorem Statement.cases_of_mem_prune {s kept : Statement} (h : kept ∈ (s.prune targets policy).1) :
    kept = s ∨ ∃ c d, s = .compound c ∧ kept = .compound d ∧
      ((c.pruneInner targets policy).settle policy).1 = some d := by
  cases s with
  | expression span value =>
    rw [prune] at h
    split_ifs at h
    · cases h
    · exact .inl (Option.some.inj h).symm
  | placeholder span =>
    rw [prune] at h
    exact .inl (Option.some.inj h).symm
  | inert span type =>
    rw [prune] at h
    exact .inl (Option.some.inj h).symm
  | compound c =>
    rw [fst_prune_compound] at h
    obtain ⟨d, hsettle, rfl⟩ := Option.map_eq_some_iff.mp h
    exact .inr ⟨c, d, rfl, rfl, hsettle⟩

/-- What is left of a statement has the span of the statement. -/
theorem Statement.span_of_mem_prune {s kept : Statement} (h : kept ∈ (s.prune targets policy).1) :
    kept.span = s.span := by
  obtain rfl | ⟨c, d, rfl, rfl, hsettle⟩ := cases_of_mem_prune h
  · rfl
  · exact (Construct.settles_of_settle hsettle).2.1

/-- Every statement is kept or leaves its span behind. -/
theorem Statement.spans_pruneAll (statements : List Statement) :
    (Statement.pruneAll targets policy statements).kept.map (·.span) ++
      (Statement.pruneAll targets policy statements).excised ~ statements.map (·.span) := by
  induction statements with
  | nil => exact .nil
  | cons s rest ih =>
    rw [pruneAll, List.map_cons]
    cases hprune : (s.prune targets policy).1 with
    | some kept =>
      dsimp only
      rw [List.map_cons, span_of_mem_prune hprune]
      exact ih.cons s.span
    | none => exact List.perm_middle.trans (ih.cons s.span)

theorem Block.places_prune (b : Block) : (b.prune targets policy).1.places ~ b.places := by
  obtain ⟨span, statements, excised, emptied⟩ := b
  rw [prune]
  have hspans := (@Statement.spans_pruneAll targets policy statements).append_right excised
  refine List.Perm.trans ?_ hspans
  rw [places, List.append_assoc]
  exact List.perm_append_comm.append_left _

/-! ### Clauses -/

namespace Clause

theorem span_fill (cl : Clause) : cl.fill.1.span = cl.span := by
  rw [fill]
  split <;> rfl

theorem bodySpan_fill (cl : Clause) : cl.fill.1.body.span = cl.body.span := by
  rw [fill]
  split <;> rfl

/-- A placeholder is at an excised statement. -/
theorem places_fill {cl : Clause} (h : cl.body.statements = []) :
    cl.fill.1.body.places = cl.body.places := by
  rw [fill]
  split
  · rfl
  · next anchor rest hexcised =>
    rw [Block.places, Block.places, h, hexcised]
    rfl

theorem span_fillEmptied (cl : Clause) : cl.fillEmptied.1.span = cl.span := by
  rw [fillEmptied]
  split_ifs
  · exact cl.span_fill
  · rfl

/-- The statements of a filled clause: what it held, or a placeholder at an excised statement. -/
theorem forall_statements_fill {P : Statement → Prop} {cl : Clause}
    (hplaceholder : ∀ anchor ∈ cl.body.excised, P (.placeholder anchor))
    (hbefore : ∀ s ∈ cl.body.statements, P s) : ∀ s ∈ cl.fill.1.body.statements, P s := by
  rw [fill]
  split
  · exact hbefore
  · next anchor rest hexcised =>
    rw [hexcised] at hplaceholder
    exact List.forall_mem_singleton.mpr (hplaceholder anchor List.mem_cons_self)

end Clause

/-- What holds of the clauses before settling, and of those filled that are emptied, holds of all
afterwards. -/
theorem Settles.forall_clauses {P : Clause → Prop} {handled : Bool} {before after : List Clause}
    (h : Settles policy handled before after) (hbefore : ∀ cl ∈ before, P cl)
    (hfill : ∀ cl ∈ before, cl.body.emptied = true → P cl.fill.1) : ∀ cl ∈ after, P cl := by
  induction h with
  | nil => exact hbefore
  | keep _ _ ih =>
    rw [List.forall_mem_cons] at hbefore hfill
    exact List.forall_mem_cons.mpr ⟨hbefore.1, ih hbefore.2 hfill.2⟩
  | fill emptied _ _ ih =>
    rw [List.forall_mem_cons] at hbefore hfill
    exact List.forall_mem_cons.mpr ⟨hfill.1 emptied, ih hbefore.2 hfill.2⟩
  | drop _ _ _ _ ih =>
    rw [List.forall_mem_cons] at hbefore hfill
    exact ih hbefore.2 hfill.2

/-! ### Constructs -/

namespace Construct

theorem spans_dropFrom (handled : Bool) (clauses : List Clause) :
    (dropFrom handled clauses).kept.map (·.span) ++ (dropFrom handled clauses).dropped ~
      clauses.map (·.span) := by
  induction clauses with
  | nil => exact .nil
  | cons cl rest ih =>
    rw [dropFrom]
    dsimp only
    split_ifs
    · exact ih.cons cl.span
    · rw [← List.append_assoc, List.map_cons]
      exact (List.perm_append_singleton _ _).trans (ih.cons cl.span)
    · rw [List.map_cons, List.map_cons, cl.span_fill]
      exact ih.cons cl.span

theorem places_settle {c d : Construct} (h : (c.settle policy).1 = some d) :
    d.places ~ c.places := by
  unfold settle at h
  split_ifs at h
  · obtain rfl := Option.some.inj h
    rfl
  · cases policy with
    | keep =>
      obtain rfl := Option.some.inj h
      rfl
    | fill =>
      obtain rfl := Option.some.inj h
      have hspans : (c.fillEmptied.1.clauses).map (·.span) = c.clauses.map (·.span) := by
        rw [fillEmptied, List.map_map, List.map_map]
        exact List.map_congr_left fun cl _ ↦ cl.span_fillEmptied
      rw [places, hspans]
      rfl
    | remove =>
      simp only [discardEmptied] at h
      split_ifs at h
      obtain rfl := Option.some.inj h
      have hsorted : Span.sortByStart (c.dropped ++ (dropFrom c.isHandled c.clauses).dropped) ~
          (dropFrom c.isHandled c.clauses).dropped ++ c.dropped :=
        (List.mergeSort_perm _ _).trans List.perm_append_comm
      refine (hsorted.append_left _).trans ?_
      rw [← List.append_assoc]
      exact (spans_dropFrom _ _).append_right _

theorem places_pruneInner (c : Construct) : (c.pruneInner targets policy).places = c.places := by
  rw [places, pruneInner, List.map_map]
  exact congrArg (· ++ c.dropped) (List.map_congr_left fun cl _ ↦ cl.span_prune targets policy)

end Construct

end Declutter
