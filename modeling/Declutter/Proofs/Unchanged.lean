import Declutter.Proofs.Comment.Settled
import Declutter.Proofs.Tree.PrunedGaps
/-!
A text that a removal leaves as it was. Nothing was done to it: no call and no comment went, and
neither did anything else that is counted (`Removal.isIdle_of_unchanged`). A call that goes takes a
parenthesis along, which nothing puts back, and a comment that goes makes the text shorter.
-/

set_option autoImplicit false
set_option relaxedAutoImplicit false

namespace Declutter

open scoped List

/-- Nothing was done to the text. -/
structure Cleaned.IsIdle (t : Cleaned) : Prop where
  tally : t.tally = 0
  commentsRemoved : t.commentsRemoved = 0

/-- A tree as the grammar makes it of its source: nothing is missing in it yet, its statements are
laid out, and its calls are spelt with parentheses. -/
structure Tree.IsRegular (tree : Tree) : Prop where
  fresh : tree.IsFresh
  laidOut : tree.IsLaidOut
  spelt : tree.IsSpelt

instance (tree : Tree) : Decidable tree.IsRegular :=
  decidable_of_iff (tree.IsFresh ∧ tree.IsLaidOut ∧ tree.IsSpelt)
    ⟨fun ⟨h₁, h₂, h₃⟩ ↦ ⟨h₁, h₂, h₃⟩, fun ⟨h₁, h₂, h₃⟩ ↦ ⟨h₁, h₂, h₃⟩⟩

namespace Removal

variable {removal : Removal}

/-- The last step of a removal only takes units away, and takes some if it counts a comment. -/
theorem strip_sublist {t stripped : Text} {count : Nat}
    (h : removal.strip t = .ok (stripped, count)) :
    stripped <+ t ∧ (count ≠ 0 → stripped.length < t.length) := by
  rw [strip] at h
  split_ifs at h
  · split at h
    · next text removed hstrip =>
      obtain ⟨rfl, rfl⟩ := Prod.mk.inj (Except.ok.inj h)
      obtain ⟨hsublist, hshorter⟩ := Text.strip_sublist hstrip
      exact ⟨hsublist, fun hne ↦ hshorter fun hnil ↦ hne (congrArg List.length hnil)⟩
    · cases h
  · obtain ⟨rfl, rfl⟩ := Prod.mk.inj (Except.ok.inj h)
    exact ⟨.refl _, fun hne ↦ absurd rfl hne⟩

/-- If the text comes back as it was, then nothing was done to it. -/
theorem isIdle_of_unchanged {parse : Text → Python.Node} {source : Text} {cleaned : Cleaned}
    (htree : ∀ tree, Python.readTree source parse = .ok tree → tree.IsRegular)
    (h : removal.apply source parse = .ok cleaned) (hunchanged : cleaned.changed = false) :
    cleaned.IsIdle := by
  obtain ⟨policy, targets, tree, rendered, -, -, hread, hrendered, -, hstrip, hchanged, htally⟩ :=
    exists_of_apply h
  obtain ⟨hfresh, hlaid, hspelt⟩ := htree tree hread
  have hsource : tree.source = source := by rw [(Python.readTree_eq_ok_iff.mp hread).2]
  have htext : cleaned.text = source := by simpa using hchanged.symm.trans hunchanged
  obtain ⟨hsublist, hshorter⟩ := strip_sublist hstrip
  rw [htext] at hsublist hshorter
  have hnone : ∀ u ∈ tree.body.all, targets.isHit u = false := by
    intro u hu
    by_contra hhit
    rw [Bool.not_eq_false] at hhit
    have hlt := Tree.count_render_prune_lt hfresh hlaid hspelt hu hhit hrendered
    have hle := hsublist.count_le (CodeUnit.ofChar '(')
    rw [hsource] at hlt
    omega
  have hsame : rendered = source :=
    (Except.ok.inj (hrendered.symm.trans (Tree.render_prune_of_not_isHit hfresh.gaps hnone))).trans
      hsource
  refine ⟨htally.trans (Tree.prune_of_not_isHit hnone).1, ?_⟩
  by_contra hne
  have hlt := hshorter hne
  rw [hsame] at hlt
  exact lt_irrefl _ hlt

end Removal

end Declutter
