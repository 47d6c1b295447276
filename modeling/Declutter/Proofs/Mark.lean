import Declutter.Proofs.Removal
import Declutter.Proofs.Tree.Gaps
/-!
What becomes of a byte order mark. The mark is a unit of the text, so it stays as long as no edit
starts with the text (`Edit.isMarked_applyAll`). But it counts as a blank, so what only the mark
stands before has its line for itself, and goes with that line and the mark
(`Removal.apply_unmarks`).

Whatever else goes, the mark stays (`Removal.isMarked_apply`): an edit of a pruned tree starts at
one of the gaps in the tree, at a separator before the gap, or with its line
(`Edit.start_pos_ofBlock`), and the edit of a comment starts with blanks before the comment or with
its line (`Strip.start_pos_removal`).
-/

set_option autoImplicit false
set_option relaxedAutoImplicit false

namespace Declutter

/-- The unit that a file may begin with to say how it is encoded. -/
def CodeUnit.byteOrderMark : CodeUnit := 0xFEFF

/-- The text begins with a byte order mark. -/
def Text.IsMarked (t : Text) : Prop := t.head? = some .byteOrderMark

instance (t : Text) : Decidable t.IsMarked := inferInstanceAs (Decidable (t.head? = _))

/-- A slice of a marked text that is not empty begins with the mark if it begins with the text. -/
theorem Text.IsMarked.slice_eq_cons {t : Text} (h : t.IsMarked) {i : Nat} (hi : 0 < i) :
    t.slice 0 i = .byteOrderMark :: t.slice 1 i :=
  Text.slice_eq_cons hi (List.head?_eq_getElem?.symm.trans h)

/-! ### Edits -/

namespace Edit

variable {t text : Text} {e : Edit} {s : Span} {edits : List Edit}

theorem isMarked_splice (he : 0 < e.start) (h : t.IsMarked) : (e.splice t).IsMarked := by
  obtain ⟨rest, rfl⟩ := List.head?_eq_some_iff.mp h
  obtain ⟨n, hn⟩ := Nat.exists_eq_succ_of_ne_zero (n := e.start.toNat) (by omega)
  rw [splice, hn, List.take_succ_cons]
  rfl

/-- A text stays marked if none of the edits starts with it. -/
theorem isMarked_applyAll (h : applyAll edits t = .ok text) (hedits : ∀ e ∈ edits, 0 < e.start)
    (ht : t.IsMarked) : text.IsMarked := by
  have hsorted : ∀ e ∈ edits.mergeSort le, 0 < e.start := fun e he ↦
    hedits e ((edits.mergeSort_perm le).mem_iff.mp he)
  unfold applyAll at h
  dsimp only at h
  split at h
  · cases h
  · obtain rfl := Except.ok.inj h
    generalize edits.mergeSort le = sorted at hsorted
    induction sorted with
    | nil => exact ht
    | cons e rest ih =>
      rw [List.forall_mem_cons] at hsorted
      exact isMarked_splice hsorted.1 (ih hsorted.2)

/-! ### Deletions -/

/-- A separator does not begin a marked text: it takes a semicolon and padding only, and the mark is
neither. -/
theorem preceding_ne_nil {i : Nat} {preceding : Text} (ht : t.IsMarked) (hi : 0 < i)
    (h : beforeSeparator? (t.slice 0 i) = some preceding) : preceding ≠ [] := by
  rintro rfl
  rw [beforeSeparator?, Option.map_eq_some_iff] at h
  obtain ⟨following, hfollowing, hnil⟩ := h
  obtain rfl := List.reverse_eq_nil_iff.mp hnil
  obtain ⟨padding₁, padding₂, hslice, h₁, h₂⟩ := afterSeparator?_eq_some hfollowing
  have hmem : CodeUnit.byteOrderMark ∈ (t.slice 0 i).reverse := by
    rw [ht.slice_eq_cons hi]
    exact List.mem_reverse.mpr List.mem_cons_self
  rw [hslice, List.append_nil] at hmem
  rcases List.mem_append.mp hmem with hmem | hmem
  · exact absurd (h₁ _ hmem) (by decide)
  · rcases List.mem_cons.mp hmem with heq | hmem
    · exact absurd heq (by decide)
    · exact absurd (h₂ _ hmem) (by decide)

/-- A marked text keeps its mark if a statement is deleted that does not begin the text. -/
theorem start_pos_deleteStatement (ht : t.IsMarked) (hlead : 0 < t.lead s.start)
    (he : deleteStatement t s = .ok e) : 0 < e.start := by
  have hstart : 0 < s.start := hlead.trans_le (t.lead_le _)
  unfold deleteStatement at he
  dsimp only at he
  by_cases hblank : (t.slice (t.lineStart s.start) s.start).isBlank = true
  · rw [Text.lead, if_pos hblank] at hlead
    rw [if_pos hblank] at he
    split at he
    · split_ifs at he
      · obtain rfl := Except.ok.inj he
        exact Int.ofNat_lt.mpr hlead
      · obtain rfl := Except.ok.inj he
        exact Int.ofNat_lt.mpr hstart
    · split_ifs at he
      obtain rfl := Except.ok.inj he
      exact Int.ofNat_lt.mpr hlead
  · rw [if_neg hblank] at he
    split at he
    · next preceding _ hpreceding =>
      obtain rfl := Except.ok.inj he
      refine Int.ofNat_lt.mpr ?_
      rcases (t.lineStart s.start).eq_zero_or_pos with hzero | hpos
      · rw [hzero] at hpreceding
        exact Nat.lt_add_left _ (List.length_pos_iff.mpr (preceding_ne_nil ht hstart hpreceding))
      · exact Nat.lt_add_right _ hpos
    · obtain rfl := Except.ok.inj he
      exact Int.ofNat_lt.mpr hstart
    · obtain rfl := Except.ok.inj he
      exact Int.ofNat_lt.mpr hstart

theorem start_pos_deleteClause (hlead : 0 < t.lead s.start) (he : deleteClause t s = .ok e) :
    0 < e.start := by
  obtain ⟨rfl, hblank⟩ := deleteClause_eq_ok he
  rw [Text.lead, if_pos hblank] at hlead
  exact Int.ofNat_lt.mpr hlead

end Edit

/-- A text keeps its first unit if a comment is taken out that does not begin the text. -/
theorem Strip.start_pos_removal {t : Text} {s : Span} (preserveBlankLines : Bool)
    (hlead : 0 < t.lead s.start) :
    0 < (removal t preserveBlankLines s).start := by
  rw [removal]
  by_cases hblank : (t.slice (t.lineStart s.start) s.start).isBlank = true
  · rw [Text.lead, if_pos hblank] at hlead
    rw [if_pos hblank]
    exact Int.ofNat_lt.mpr hlead
  · rw [if_neg hblank]
    have hne := mt Text.trimEnd_eq_nil_iff.mp hblank
    exact Int.ofNat_lt.mpr (Nat.lt_add_left _ (List.length_pos_iff.mpr hne))

/-! ### Trees -/

/-- No edit of a block starts with a marked text, unless something that is missing in the block
began the text. -/
theorem Edit.start_pos_ofBlock {t : Text} {edits : List Edit} {b : Block} (ht : t.IsMarked)
    (hgaps : ∀ x ∈ b.gaps, 0 < t.lead x.start) (h : ofBlock t b = .ok edits) :
    ∀ e ∈ edits, 0 < e.start := by
  intro e he
  cases fills_ofBlock h e he with
  | run among mem edit =>
    obtain ⟨x, hx, hstart⟩ := exists_start_of_mem_runsOf mem
    exact start_pos_deleteStatement ht (hstart ▸ hgaps x (among hx)) edit
  | clause mem edit => exact start_pos_deleteClause (hgaps _ mem) edit
  | placeholder mem => exact Int.ofNat_lt.mpr ((hgaps _ mem).trans_le (t.lead_le _))

/-- A tree is written back with the mark of its source, unless something that is missing in it began
the text. -/
theorem Tree.isMarked_render {tree : Tree} {text : Text} (hmarked : tree.source.IsMarked)
    (hgaps : ∀ x ∈ tree.body.gaps, 0 < tree.source.lead x.start) (h : tree.render = .ok text) :
    text.IsMarked := by
  obtain ⟨edits, hedits, happly⟩ := Except.bind_eq_ok_iff.mp h
  exact Edit.isMarked_applyAll (Except.mapError_eq_ok_iff.mp happly)
    (Edit.start_pos_ofBlock hmarked hgaps hedits) hmarked

/-! ### Removals -/

/-- A text without its comments keeps the mark, unless one of them began the text. -/
theorem Text.isMarked_strip {t stripped : Text} {rules : CommentRules} {removed : List Passage}
    (hmarked : t.IsMarked) (hcomments : ∀ c ∈ Strip.removed t rules, 0 < t.lead c.span.start)
    (h : t.strip rules = .ok (stripped, removed)) : stripped.IsMarked := by
  obtain ⟨text, happly, hresult⟩ := Except.bind_eq_ok_iff.mp h
  obtain ⟨rfl, -⟩ := Prod.mk.inj (Except.ok.inj hresult)
  exact Edit.isMarked_applyAll happly
    (List.forall_mem_map.mpr fun c hc ↦ Strip.start_pos_removal _ (hcomments c hc)) hmarked

/-- A byte order mark stays, unless a statement, a clause or a comment goes that begins the text but
for blanks on its first line. -/
theorem Removal.isMarked_apply {parse : Text → Python.Node} {removal : Removal} {policy : Policy}
    {targets : TargetSet} {source : Text} {tree : Tree} {cleaned : Cleaned}
    (hpolicy : Policy.ofWord removal.policy = .ok policy)
    (htargets : TargetSet.ofNames removal.targets = .ok targets)
    (htree : Python.readTree source parse = .ok tree) (hmarked : source.IsMarked)
    (hgaps : ∀ x ∈ (tree.prune targets policy).1.body.gaps, 0 < source.lead x.start)
    (hcomments : removal.removeComments = true →
      ∀ text, (tree.prune targets policy).1.render = .ok text →
      ∀ c ∈ Strip.removed text removal.comments, 0 < text.lead c.span.start)
    (h : removal.apply source parse = .ok cleaned) : cleaned.text.IsMarked := by
  obtain ⟨rendered, hrendered, -, hstrip⟩ := exists_rendered hpolicy htargets htree h
  have hsource : (tree.prune targets policy).1.source = source := by
    rw [Tree.source_prune, (Python.readTree_eq_ok_iff.mp htree).2]
  have hkept : rendered.IsMarked :=
    Tree.isMarked_render (hsource.symm ▸ hmarked) (hsource.symm ▸ hgaps) hrendered
  rw [strip] at hstrip
  split_ifs at hstrip with hremove
  · split at hstrip
    · next stripped removed hstripped =>
      obtain ⟨rfl, -⟩ := Prod.mk.inj (Except.ok.inj hstrip)
      exact Text.isMarked_strip hkept (hcomments hremove rendered hrendered) hstripped
    · cases hstrip
  · obtain ⟨rfl, -⟩ := Prod.mk.inj (Except.ok.inj hstrip)
    exact hkept

/-- A marked text in which the first statement stays. -/
def markedText : Text := "\ufeffx\nprint(1)\n"

/-- The call in `markedText` begins its line, which is not the first one: the mark stays. -/
theorem Removal.isMarked_apply_markedText :
    ∃ tree cleaned, Python.readTree markedText = .ok tree ∧ markedText.IsMarked ∧
      (∀ x ∈ (tree.prune ⟨["print"]⟩ .fill).1.body.gaps, 0 < markedText.lead x.start) ∧
      Removal.apply {} markedText = .ok cleaned ∧ cleaned.text.IsMarked := by
  have hcheck : Python.check markedText = none := by decide +kernel
  have hread := Python.readTree_eq_ok_iff.mpr ⟨hcheck, rfl⟩
  have hresult : ((Removal.apply {} markedText).toOption).map (·.changed) = some true := by
    decide +kernel
  obtain ⟨cleaned, happly, -⟩ := Except.exists_of_map_toOption hresult
  have hgaps : ∀ x ∈ ((Tree.mk markedText
      (Python.Lowering.block markedText (Python.parse markedText))).prune ⟨["print"]⟩
        .fill).1.body.gaps,
      0 < markedText.lead x.start := by decide +kernel
  have hmarked :=
    @Removal.isMarked_apply Python.parse {} .fill ⟨["print"]⟩ markedText _ cleaned rfl rfl hread
      (by decide) hgaps (fun hremove ↦ absurd hremove (by decide)) happly
  exact ⟨_, cleaned, hread, by decide, hgaps, happly, hmarked⟩

/-! ### A mark that is lost -/

/-- A marked text whose first line is a call. -/
def markedCall : Text := "\ufeffprint(1)\ny\n"

/-- A byte order mark need not stay. In `markedCall` only the mark is before the call, which is
taken away with its line. -/
theorem Removal.apply_unmarks :
    ¬ ∀ (removal : Removal) (source : Text) (tree : Tree) (cleaned : Cleaned), source.IsMarked →
      Python.readTree source = .ok tree → removal.apply source = .ok cleaned →
      cleaned.text.IsMarked := by
  intro h
  have hcheck : Python.check markedCall = none := by decide +kernel
  have hresult : ((Removal.apply {} markedCall).toOption).map (·.text) = some ("y\n" : Text) := by
    decide +kernel
  obtain ⟨cleaned, happly, htext⟩ := Except.exists_of_map_toOption hresult
  have hmarked :=
    h {} markedCall _ cleaned (by decide) (Python.readTree_eq_ok_iff.mpr ⟨hcheck, rfl⟩) happly
  rw [htext] at hmarked
  exact absurd hmarked (by decide)

end Declutter
