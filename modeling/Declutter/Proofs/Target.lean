import Declutter.Target
import Declutter.Proofs.Text.Pieces
import Declutter.Proofs.Except
import Mathlib.Data.List.Nodup
/-!
A call is a target if its callee spells the segments of one of the given names, all of them and in
their order (`TargetSet.isTarget_iff`). A callee spells segments by names and fields alone
(`Expression.Spells`). Targets are compared as joined texts; that decides the segments, since
neither those of an accepted name nor those of a callee hold a dot
(`TargetSet.segments_eq_of_join_eq`).

A set of targets holds the paths of the given names, each once (`TargetSet.mem_paths_foldlM`), so
that the order and the repetition of names make no difference to what is a target, and the paths as
names give the set again.
-/

set_option autoImplicit false
set_option relaxedAutoImplicit false

namespace Declutter

/-! ### What a callee spells -/

namespace Expression

/-- The expression is made of names and fields alone, and these are the segments from left to
right. -/
inductive Spells : Expression → List Text → Prop
  | name (span : Span) (id : Text) : Spells (.name span id) [id]
  | field {object : Expression} {segments : List Text} (span : Span) (label : Text)
      (h : Spells object segments) :
      Spells (.field span object label) (segments ++ [label])

/-- The identifiers of an expression, as far as it is looked into. -/
def identifiers : Expression → List Text
  | call _ callee _ => callee.identifiers
  | name _ id => [id]
  | field _ object label => object.identifiers ++ [label]
  | other _ => []

variable {e : Expression} {segments : List Text}

theorem Spells.ne_nil (h : e.Spells segments) : segments ≠ [] := by
  cases h <;> simp

theorem Spells.identifiers_eq (h : e.Spells segments) : e.identifiers = segments := by
  induction h with
  | name span id => rfl
  | field span label _ ih => rw [identifiers, ih]

/-- The path of an expression is what it spells. -/
theorem path?_eq_some_iff : e.path? = some segments ↔ e.Spells segments := by
  constructor
  · intro h
    induction e generalizing segments with
    | name span id =>
      obtain rfl := Option.some.inj h
      exact .name span id
    | field span object label ih =>
      obtain ⟨path, hpath, rfl⟩ := Option.map_eq_some_iff.mp h
      exact .field span label (ih hpath)
    | call => exact nomatch h
    | other => exact nomatch h
  · intro h
    induction h with
    | name span id => rfl
    | field span label _ ih => rw [path?, ih, Option.map_some]

end Expression

namespace TargetSet

/-! ### Segments and paths -/

/-- The unit between the segments of a name. -/
def dot : CodeUnit := '.'

/-- The text names no call, or all of its segments are identifiers. -/
def IsAccepted (name : Text) : Prop :=
  name.isBlank = true ∨ ∀ s ∈ segments name, isIdentifier s = true

/-- The path of a name: its segments with dots between them. -/
def pathOf (name : Text) : Text := Text.join [dot] (segments name)

variable {s name p : Text} {names : List Text} {targets acc : TargetSet}

theorem bounds_of_isNameUnit {u : CodeUnit} (h : isNameUnit u = true) :
    48 ≤ u.toNat ∧ u.toNat ≤ 122 := by
  simp only [isNameUnit, CodeUnit.isAsciiLetter, CodeUnit.isAsciiUpper, CodeUnit.isAsciiLower,
    CodeUnit.isDigit, Bool.or_eq_true, Bool.and_eq_true, decide_eq_true_eq, beq_iff_eq,
    UInt16.le_iff_toNat_le, ← UInt16.toNat_inj, CodeUnit.ofChar, UInt16.toNat_ofNat',
    Char.reduceToNat, Nat.reducePow, Nat.reduceMod] at h
  omega

theorem not_isBlank_of_isNameUnit {u : CodeUnit} (h : isNameUnit u = true) : u.isBlank = false := by
  have hbounds := bounds_of_isNameUnit h
  simp only [CodeUnit.isBlank, Bool.or_eq_false_iff, Bool.and_eq_false_iff, decide_eq_false_iff_not,
    beq_eq_false_iff_ne, UInt16.le_iff_toNat_le, ne_eq, ← UInt16.toNat_inj, CodeUnit.ofChar,
    UInt16.toNat_ofNat', Char.reduceToNat, UInt16.reduceToNat, Nat.reducePow, Nat.reduceMod]
  omega

theorem isNameUnit_of_isIdentifier (h : isIdentifier s = true) : ∀ u ∈ s, isNameUnit u = true := by
  cases s with
  | nil => exact Bool.noConfusion h
  | cons u rest =>
    rw [isIdentifier, Bool.and_eq_true, List.all_eq_true] at h
    refine List.forall_mem_cons.mpr ⟨?_, h.2⟩
    rw [isNameUnit, Bool.or_right_comm, h.1, Bool.true_or]

theorem dot_not_mem_of_isIdentifier (h : isIdentifier s = true) : dot ∉ s := fun hdot ↦ by
  have hunit := isNameUnit_of_isIdentifier h dot hdot
  exact Bool.noConfusion hunit

/-- Identifiers are trimmed. -/
theorem trim_of_isIdentifier (h : isIdentifier s = true) : s.trim = s :=
  Text.trim_of_not_isBlank fun u hu ↦ not_isBlank_of_isNameUnit (isNameUnit_of_isIdentifier h u hu)

theorem segments_ne_nil (name : Text) : segments name ≠ [] :=
  mt List.map_eq_nil_iff.mp (Text.splitOn_ne_nil dot name)

/-- Blanks around a name make no difference. -/
theorem segments_trim (name : Text) : segments name.trim = segments name :=
  Text.map_trim_splitOn_trim (show dot.isBlank = false from rfl) name

/-- Joined segments that hold no dots are the same only if the segments are. -/
theorem segments_eq_of_join_eq {first second : List Text} (hfirst : first ≠ [])
    (hsecond : second ≠ []) (hfirstDots : ∀ s ∈ first, dot ∉ s)
    (hsecondDots : ∀ s ∈ second, dot ∉ s) (h : Text.join [dot] first = Text.join [dot] second) :
    first = second := by
  rw [← Text.splitOn_join hfirst hfirstDots, h, Text.splitOn_join hsecond hsecondDots]

section Accepted

variable (haccepted : IsAccepted name) (hname : name.isBlank = false)

include haccepted hname

theorem IsAccepted.isIdentifier : ∀ s ∈ segments name, isIdentifier s = true :=
  haccepted.resolve_left (ne_true_of_eq_false hname)

/-- The path of a name has the segments of the name. -/
theorem IsAccepted.segments_pathOf : segments (pathOf name) = segments name := by
  have hidentifier := haccepted.isIdentifier hname
  have hsplit : Text.splitOn dot (pathOf name) = segments name :=
    Text.splitOn_join (segments_ne_nil name) fun s hs ↦
      dot_not_mem_of_isIdentifier (hidentifier s hs)
  have htrim : (segments name).map Text.trim = (segments name).map id :=
    List.map_congr_left fun s hs ↦ trim_of_isIdentifier (hidentifier s hs)
  calc segments (pathOf name) = (Text.splitOn dot (pathOf name)).map Text.trim := rfl
    _ = segments name := by rw [hsplit, htrim, List.map_id]

/-- The path of a name, as a name, has itself as its path. -/
theorem IsAccepted.pathOf_pathOf : pathOf (pathOf name) = pathOf name := by
  rw [pathOf, haccepted.segments_pathOf hname]
  rfl

theorem IsAccepted.pathOf_isAccepted : IsAccepted (pathOf name) := by
  refine .inr ?_
  rw [haccepted.segments_pathOf hname]
  exact haccepted.isIdentifier hname

/-- A blank text has no identifier as its segment. -/
theorem IsAccepted.not_isBlank_pathOf : (pathOf name).isBlank = false := by
  refine eq_false_of_ne_true fun hblank ↦ ?_
  have hidentifier := haccepted.isIdentifier hname
  have hsegments : segments (pathOf name) = [[]] := by
    rw [← segments_trim, Text.trim_eq_nil_iff.mpr hblank]
    rfl
  rw [← haccepted.segments_pathOf hname, hsegments] at hidentifier
  exact Bool.noConfusion (hidentifier [] List.mem_cons_self)

end Accepted

/-! ### The set of given names -/

/-- The targets with the path of a name, if it names a call. -/
def withName (targets : TargetSet) (name : Text) : TargetSet :=
  if name.isBlank then targets
  else if targets.paths.contains (pathOf name) then targets else ⟨targets.paths ++ [pathOf name]⟩

theorem insert_eq_ok_iff : acc.insert name = .ok targets ↔ IsAccepted name ∧
    acc.withName name = targets := by
  rw [insert, segments_trim, withName]
  dsimp only
  by_cases hblank : name.isBlank = true
  · rw [if_pos (List.isEmpty_iff.mpr (Text.trim_eq_nil_iff.mpr hblank)), if_pos hblank,
      Except.ok.injEq]
    exact (and_iff_right (.inl hblank)).symm
  · have hnot : ¬ name.trim.isEmpty = true := fun hempty ↦
      hblank (Text.trim_eq_nil_iff.mp (List.isEmpty_iff.mp hempty))
    rw [if_neg hnot, if_neg hblank, IsAccepted, or_iff_right hblank]
    cases hfind : (segments name).find? (!isIdentifier ·) with
    | some segment =>
      refine iff_of_false (fun h ↦ nomatch h) ?_
      rintro ⟨hall, -⟩
      have hbad := List.find?_some hfind
      rw [hall segment (List.mem_of_find?_eq_some hfind)] at hbad
      exact Bool.noConfusion hbad
    | none =>
      rw [List.find?_eq_none] at hfind
      have hall : ∀ s ∈ segments name, isIdentifier s = true := fun s hs ↦ by simpa using hfind s hs
      rw [and_iff_right hall, Except.ok.injEq]
      simp only [List.contains_iff_mem]
      exact Iff.rfl

theorem foldlM_insert_eq_ok_iff : names.foldlM insert acc = .ok targets ↔
    (∀ name ∈ names, IsAccepted name) ∧ names.foldl withName acc = targets := by
  induction names generalizing acc with
  | nil =>
    rw [List.foldlM_nil, List.foldl_nil, and_iff_right (by simp)]
    exact Except.ok.injEq acc targets ▸ Iff.rfl
  | cons name rest ih =>
    rw [List.foldlM_cons, Except.bind_eq_ok_iff, List.forall_mem_cons, List.foldl_cons]
    constructor
    · rintro ⟨next, hinsert, hrest⟩
      obtain ⟨haccepted, rfl⟩ := insert_eq_ok_iff.mp hinsert
      obtain ⟨hall, hfold⟩ := ih.mp hrest
      exact ⟨⟨haccepted, hall⟩, hfold⟩
    · rintro ⟨⟨haccepted, hall⟩, hfold⟩
      exact ⟨_, insert_eq_ok_iff.mpr ⟨haccepted, rfl⟩, ih.mpr ⟨hall, hfold⟩⟩

theorem mem_paths_withName :
    p ∈ (acc.withName name).paths ↔ p ∈ acc.paths ∨ name.isBlank = false ∧ p = pathOf name := by
  rw [withName]
  simp only [List.contains_iff_mem]
  split_ifs with hblank hmem
  · simp [hblank]
  · refine ⟨.inl, fun h ↦ h.elim id fun ⟨_, hp⟩ ↦ hp ▸ hmem⟩
  · simp [hblank]

/-- The paths in the set are those of the given names. -/
theorem mem_paths_foldl :
    p ∈ (names.foldl withName acc).paths ↔
      p ∈ acc.paths ∨ ∃ name ∈ names, name.isBlank = false ∧ p = pathOf name := by
  induction names generalizing acc with
  | nil => simp
  | cons name rest ih =>
    rw [List.foldl_cons, ih, mem_paths_withName, List.exists_mem_cons_iff, or_assoc]

theorem nodup_paths_foldl (h : acc.paths.Nodup) : (names.foldl withName acc).paths.Nodup := by
  induction names generalizing acc with
  | nil => exact h
  | cons name rest ih =>
    refine ih ?_
    rw [withName]
    simp only [List.contains_iff_mem]
    split_ifs with hblank hmem
    · exact h
    · exact h
    · rw [← List.concat_eq_append, List.nodup_concat]
      exact ⟨hmem, h⟩

/-- Paths that are not in the set yet, given as names, are added to it one after the other. -/
theorem foldl_withName_of_pathOf {paths : List Text}
    (h : ∀ p ∈ paths, p.isBlank = false ∧ pathOf p = p) (hnodup : (acc.paths ++ paths).Nodup) :
    paths.foldl withName acc = ⟨acc.paths ++ paths⟩ := by
  induction paths generalizing acc with
  | nil => rw [List.foldl_nil, List.append_nil]
  | cons p rest ih =>
    rw [List.forall_mem_cons] at h
    have hmem : p ∉ acc.paths := fun hp ↦
      List.disjoint_of_nodup_append hnodup hp List.mem_cons_self
    have hadd : acc.withName p = ⟨acc.paths ++ [p]⟩ := by
      rw [withName, h.1.1, h.1.2, if_neg Bool.false_ne_true,
        if_neg (mt List.contains_iff_mem.mp hmem)]
    rw [List.foldl_cons, hadd, ih h.2 (by rwa [List.append_assoc])]
    simp

/-! ### Targets -/

/-- A call is a target if the joined path of its callee is in the set. -/
theorem isTarget_eq_true_iff {e : Expression} : targets.isTarget e = true ↔
    ∃ span callee arguments path, e = .call span callee arguments ∧ callee.Spells path ∧
      Text.join [dot] path ∈ targets.paths := by
  constructor
  · intro h
    cases e with
    | call span callee arguments =>
      rw [isTarget] at h
      cases hpath : callee.path? with
      | none =>
        rw [hpath] at h
        exact nomatch h
      | some path =>
        rw [hpath] at h
        exact ⟨span, callee, arguments, path, rfl, Expression.path?_eq_some_iff.mp hpath,
          List.contains_iff_mem.mp h⟩
    | name | field | other => exact nomatch h
  · rintro ⟨span, callee, arguments, path, rfl, hspells, hmem⟩
    rw [isTarget, Expression.path?_eq_some_iff.mpr hspells]
    exact List.contains_iff_mem.mpr hmem

/-- A call is a target exactly if its callee spells, by names and fields alone, the segments of one
of the given names that is not blank: the name cut at its dots, each piece without the blanks around
it. Other names with the same members make the same calls targets, whatever their order and
repetition. The paths in the set, given as names, make the set again. -/
theorem isTarget_iff (h : ofNames names = .ok targets) :
    (∀ e : Expression, (∀ id ∈ e.identifiers, dot ∉ id) → (targets.isTarget e = true ↔
      ∃ span callee arguments segments, e = .call span callee arguments ∧ callee.Spells segments ∧
        ∃ name ∈ names, name.isBlank = false ∧ segments = (name.splitOn dot).map Text.trim)) ∧
    (∀ others : List Text, (∀ name, name ∈ others ↔ name ∈ names) →
      ∃ same, ofNames others = .ok same ∧ ∀ e, same.isTarget e = targets.isTarget e) ∧
    ofNames targets.paths = .ok targets := by
  obtain ⟨haccepted, htargets⟩ := foldlM_insert_eq_ok_iff.mp h
  have hpaths : ∀ p, p ∈ targets.paths ↔ ∃ name ∈ names, name.isBlank = false ∧ p = pathOf name :=
    fun p ↦ by
    rw [← htargets, mem_paths_foldl]
    simp
  refine ⟨fun e hdots ↦ ?_, fun others hothers ↦ ?_, ?_⟩
  · rw [isTarget_eq_true_iff]
    constructor
    · rintro ⟨span, callee, arguments, path, rfl, hspells, hmem⟩
      obtain ⟨name, hname, hblank, hpath⟩ := (hpaths _).mp hmem
      refine ⟨span, callee, arguments, path, rfl, hspells, name, hname, hblank, ?_⟩
      have hidentifier := (haccepted name hname).isIdentifier hblank
      exact segments_eq_of_join_eq hspells.ne_nil (segments_ne_nil name)
        (hspells.identifiers_eq ▸ hdots) (fun s hs ↦ dot_not_mem_of_isIdentifier (hidentifier s hs))
          hpath
    · rintro ⟨span, callee, arguments, path, rfl, hspells, name, hname, hblank, rfl⟩
      exact ⟨span, callee, arguments, _, rfl, hspells, (hpaths _).mpr ⟨name, hname, hblank, rfl⟩⟩
  · refine ⟨others.foldl withName ⟨[]⟩, foldlM_insert_eq_ok_iff.mpr
      ⟨fun name hname ↦ haccepted name ((hothers name).mp hname), rfl⟩, fun e ↦ ?_⟩
    rw [Bool.eq_iff_iff, isTarget_eq_true_iff, isTarget_eq_true_iff]
    have hsame : ∀ p, p ∈ (others.foldl withName ⟨[]⟩).paths ↔ p ∈ targets.paths := fun p ↦ by
      rw [hpaths, mem_paths_foldl]
      simp [hothers]
    simp only [hsame]
  · have hself : ∀ p ∈ targets.paths, p.isBlank = false ∧ pathOf p = p ∧ IsAccepted p :=
      fun p hp ↦ by
      obtain ⟨name, hname, hblank, rfl⟩ := (hpaths p).mp hp
      have hname' := haccepted name hname
      exact ⟨hname'.not_isBlank_pathOf hblank, hname'.pathOf_pathOf hblank,
        hname'.pathOf_isAccepted hblank⟩
    have hnodup : targets.paths.Nodup := htargets ▸ nodup_paths_foldl List.nodup_nil
    exact foldlM_insert_eq_ok_iff.mpr ⟨fun p hp ↦ (hself p hp).2.2,
      foldl_withName_of_pathOf (fun p hp ↦ ⟨(hself p hp).1, (hself p hp).2.1⟩) hnodup⟩

/-- A call of `logging.info`. -/
def infoCall : Expression :=
  .call ⟨0, 14⟩ (.field ⟨0, 12⟩ (.name ⟨0, 7⟩ "logging") "info") ⟨12, 14⟩

theorem isTarget_infoCall :
    ofNames [" print ", "", "logging . info", "print"] = .ok ⟨["print", "logging.info"]⟩ ∧
    (∀ id ∈ infoCall.identifiers, dot ∉ id) ∧
    isTarget ⟨["print", "logging.info"]⟩ infoCall = true ∧
    (∀ name, name ∈ (["logging . info", "", " print ", "print"] : List Text) ↔
      name ∈ ([" print ", "", "logging . info", "print"] : List Text)) ∧
    (∃ same, ofNames ["logging . info", "", " print ", "print"] = .ok same ∧
      same.isTarget infoCall = true) ∧
    ofNames ["print", "logging.info"] = .ok ⟨["print", "logging.info"]⟩ := by
  have hnames : ofNames [" print ", "", "logging . info", "print"] =
      .ok ⟨["print", "logging.info"]⟩ := by rfl
  have hdots : ∀ id ∈ infoCall.identifiers, dot ∉ id := by decide
  have hothers : ∀ name, name ∈ (["logging . info", "", " print ", "print"] : List Text) ↔
      name ∈ ([" print ", "", "logging . info", "print"] : List Text) := fun name ↦ by
    simp only [List.mem_cons]
    tauto
  obtain ⟨hiff, hsame, hagain⟩ := isTarget_iff hnames
  have htarget : isTarget ⟨["print", "logging.info"]⟩ infoCall = true :=
    (hiff infoCall hdots).mpr
      ⟨_, _, _, _, rfl, .field _ _ (.name _ _), "logging . info", by decide, by decide, by decide⟩
  obtain ⟨same, hsame', htargets⟩ := hsame _ hothers
  exact ⟨hnames, hdots, htarget, hothers, ⟨same, hsame', (htargets infoCall).trans htarget⟩, hagain⟩

end TargetSet

end Declutter
