import Declutter.Proofs.Comment.Settled
import Declutter.Proofs.Tree.Refusal
/-!
When a removal has no result although its settings are valid and its source is Python. Either a
deletion is refused for what stands on the lines of what is deleted, or the text that is written
does not read as Python again; nothing else goes wrong (`Removal.exists_apply_iff`). Both happen: a
deletion looks at the lines of the text as they stand, while a line that ends in a backslash goes on
in the next one (`Removal.apply_refuses`).
-/

set_option autoImplicit false
set_option relaxedAutoImplicit false

namespace Declutter

variable {parse : Text → Python.Node} {removal : Removal} {policy : Policy} {targets : TargetSet}
  {source : Text} {tree : Tree}

/-- Taking out comments is never why there is no result. -/
theorem Removal.exists_strip (removal : Removal) (t : Text) :
    ∃ result, removal.strip t = .ok result := by
  obtain ⟨stripped, -, hstrip⟩ := t.exists_strip removal.comments
  rw [strip, hstrip]
  split_ifs
  · exact ⟨_, rfl⟩
  · exact ⟨_, rfl⟩

/-- A removal with valid settings has a result exactly if every deletion in the pruned tree can be
made and the text that is written reads as Python again, should the policy demand that. -/
theorem Removal.exists_apply_iff (hpolicy : Policy.ofWord removal.policy = .ok policy)
    (htargets : TargetSet.ofNames removal.targets = .ok targets)
    (htree : Python.readTree source parse = .ok tree) (hfresh : tree.IsFresh)
    (hlaid : tree.IsLaidOut) :
    (∃ cleaned, removal.apply source parse = .ok cleaned) ↔
      (tree.prune targets policy).1.body.IsWritable source ∧
        ∀ text, (tree.prune targets policy).1.render = .ok text → policy.demandsSyntax = true →
          text ≠ source → Python.check text parse = none := by
  have hsource : tree.source = source := by rw [(Python.readTree_eq_ok_iff.mp htree).2]
  have hrenders : (∃ text, (tree.prune targets policy).1.render = .ok text) ↔
      (tree.prune targets policy).1.body.IsWritable tree.source :=
      Tree.exists_render_prune_iff hfresh hlaid
  rw [hsource] at hrenders
  rw [← hrenders]
  constructor
  · rintro ⟨cleaned, h⟩
    obtain ⟨rendered, hrendered, hcheck, -⟩ := exists_rendered hpolicy htargets htree h
    refine ⟨⟨rendered, hrendered⟩, fun text htext ↦ ?_⟩
    obtain rfl := Except.ok.inj (hrendered.symm.trans htext)
    exact hcheck
  · rintro ⟨⟨rendered, hrendered⟩, hcheck⟩
    obtain ⟨⟨text, count⟩, hstrip⟩ := removal.exists_strip rendered
    refine ⟨⟨text, text != source, (tree.prune targets policy).2, count⟩, ?_⟩
    simp only [apply, hpolicy, htargets, htree, hrendered, hstrip, Except.mapError, bind,
      Except.bind]
    split
    · next hdemands =>
      rw [Bool.and_eq_true, bne_iff_ne] at hdemands
      rw [hcheck rendered hrendered hdemands.1 hdemands.2]
      rfl
    · rfl

/-- A text with a call that has its line for itself, but for a semicolon and a comment. -/
def loneCall : Text := "f(1)\nprint(2) ;  # c\n"

/-- The call in `loneCall` can be deleted: there is a result. -/
theorem Removal.exists_apply_loneCall :
    ∃ tree, Python.readTree loneCall = .ok tree ∧ tree.IsFresh ∧ tree.IsLaidOut ∧
      (tree.prune ⟨["print"]⟩ .fill).1.body.IsWritable loneCall := by
  have hread :=
    Python.readTree_eq_ok_iff.mpr ⟨(by decide +kernel : Python.check loneCall = none), rfl⟩
  refine ⟨_, hread, ?_⟩
  have hfresh : Tree.IsFresh
      ⟨loneCall, Python.Lowering.block loneCall (Python.parse loneCall)⟩ := by decide +kernel
  have hlaid : Tree.IsLaidOut
      ⟨loneCall, Python.Lowering.block loneCall (Python.parse loneCall)⟩ := by decide +kernel
  have hresult : ((Removal.apply {} loneCall).toOption).map (·.changed) = some true := by
    decide +kernel
  obtain ⟨cleaned, happly, -⟩ := Except.exists_of_map_toOption hresult
  have hiff :=
    @Removal.exists_apply_iff Python.parse {} .fill ⟨["print"]⟩ loneCall _ rfl rfl hread
      hfresh hlaid
  exact ⟨hfresh, hlaid, (hiff.mp ⟨cleaned, happly⟩).1⟩

/-! ### A removal that is refused -/

/-- A text with a call whose line goes on in the empty line after it. -/
def goingOnInBlank : Text := "print(1) \\\n\nx=1\n"

/-- Not every text that reads as Python can be cleaned. In `goingOnInBlank` the call begins its
line, and its deletion is refused for the backslash behind it. -/
theorem Removal.apply_refuses :
    ¬ ∀ (removal : Removal) (policy : Policy) (targets : TargetSet) (source : Text) (tree : Tree),
      Policy.ofWord removal.policy = .ok policy → policy ≠ .keep → removal.removeComments = false →
      TargetSet.ofNames removal.targets = .ok targets → Python.readTree source = .ok tree →
      ∃ cleaned, removal.apply source = .ok cleaned := by
  intro h
  have hcheck : Python.check goingOnInBlank = none := by decide +kernel
  have hresult : ((Removal.apply {} goingOnInBlank).toOption).map (·.changed) = none := by
    decide +kernel
  obtain ⟨cleaned, happly⟩ := h {} .fill ⟨["print"]⟩ goingOnInBlank _ rfl (by decide) rfl rfl
    (Python.readTree_eq_ok_iff.mpr ⟨hcheck, rfl⟩)
  rw [happly] at hresult
  exact nomatch hresult

end Declutter
