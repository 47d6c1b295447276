import Declutter.Proofs.Disk.Search
/-!
Which files a search finds, and in which order. Whether a file is found is a matter of its location
alone (`Search.Wants`), so that none is lost and none is found that should not be; the files stand
in the order of their relative paths (`Search.pairwise_lt_files`); and the order in which
directories are read makes no difference (`Search.files_eq_of_reordered`).
-/

set_option autoImplicit false
set_option relaxedAutoImplicit false

namespace Declutter

/-! ### Order of texts -/

/-- The order of texts is the lexicographic one. -/
theorem Text.before_iff {s t : Text} : Text.before s t = true ↔ s < t := by
  induction s generalizing t with
  | nil =>
    cases t with
    | nil => exact iff_of_false Bool.false_ne_true (List.lt_irrefl [])
    | cons v t => exact iff_of_true rfl (List.nil_lt_cons v t)
  | cons u s ih =>
    cases t with
    | nil => exact iff_of_false Bool.false_ne_true (List.not_lt_nil _)
    | cons v t =>
      rw [before, Bool.or_eq_true, Bool.and_eq_true, decide_eq_true_eq, beq_iff_eq, ih,
        List.cons_lt_cons_iff]

/-! ### Names of Python files -/

namespace Path

variable {name : Text}

theorem name_of_isName (h : IsName name) : Path.name name = name := by
  rw [Path.name, pieces, Text.splitOn_of_not_mem h.no_separator,
    List.filter_cons_of_pos (by rw [Bool.not_eq_true', List.isEmpty_eq_false_iff]; exact h.ne_nil)]
  rfl

theorem lastDot?_append_extension (t : Text) : lastDot? (t ++ (".py" : Text)) = some t.length := by
  have hreverse : (t ++ (".py" : Text)).reverse = [121, 112, 46] ++ t.reverse := List.reverse_append
  have hfirst : ([121, 112, 46] ++ t.reverse).findIdx? (fun u : CodeUnit ↦ u == '.') = some 2 := rfl
  have hlength : (t ++ (".py" : Text)).length = t.length + 3 := List.length_append
  rw [lastDot?, hreverse, hfirst, hlength, Option.map_some]
  exact congrArg some (by omega)

/-- A name that does not start with a dot is that of a Python file if it ends in the extension. -/
theorem isPython_iff (h : IsName name) (hshown : name.head? ≠ some (CodeUnit.ofChar '.')) :
    isPython name = true ↔ (".py" : Text) <:+ name := by
  have hempty : ([] : Text) ≠ ".py" := by decide
  rw [isPython, decide_eq_true_eq, extension, name_of_isName h]
  constructor
  · intro hextension
    split at hextension
    · split_ifs at hextension
      · exact absurd hextension hempty
      · exact hextension ▸ List.drop_suffix _ _
    · exact absurd hextension hempty
  · rintro ⟨t, rfl⟩
    have hstem : t.length ≠ 0 := fun hnil ↦ hshown (by rw [List.length_eq_zero_iff.mp hnil]; rfl)
    rw [lastDot?_append_extension]
    dsimp only
    rw [if_neg (not_or.mpr ⟨hstem, h.ne_dots⟩), List.drop_left]

end Path

namespace Search

variable {s : Search} {above l : Location} {name next : Text} {rest : List Text}
  {es es' : List Named} {f g : FoundFile}

/-! ### The locations of the files that are found -/

/-- What a search in the directory at `above` asks of the location of a file below it. -/
structure Wants (s : Search) (above l : Location) : Prop where
  /-- The last name ends in the extension of Python files. -/
  python : ∃ name, l.getLast? = some name ∧ (".py" : Text) <:+ name
  /-- No name starts with a dot. -/
  shown : ∀ name ∈ l, name.head? ≠ some (CodeUnit.ofChar '.')
  /-- Only a recursive search goes down. -/
  near : l.length = 1 ∨ s.recursive = true
  entered : ∀ name ∈ l.dropLast, name ∉ skippedDirectories
  /-- Neither the location nor that of a directory on the way is to be passed over. -/
  kept : ∀ part, part ≠ [] → part <+: l →
    Glob.isIgnored s.ignore (Text.join [Path.separator] (above ++ part)) = false

theorem not_isHidden_iff : (!isHidden name) = true ↔ name.head? ≠ some (CodeUnit.ofChar '.') := by
  rw [Bool.not_eq_true', isHidden, beq_eq_false_iff_ne]
  rfl

theorem enters_iff : s.enters above name = true ↔ s.recursive = true ∧
    name.head? ≠ some (CodeUnit.ofChar '.') ∧ name ∉ skippedDirectories ∧
    s.isIgnored (above ++ [name]) = false := by
  rw [enters, Bool.and_eq_true, Bool.and_eq_true, Bool.and_eq_true, not_isHidden_iff,
    Bool.not_eq_true', Bool.not_eq_true', ← Bool.not_eq_true, List.contains_iff_mem,
    and_assoc, and_assoc]

theorem takes_iff (hname : Path.IsName name) : s.takes above name = true ↔
    name.head? ≠ some (CodeUnit.ofChar '.') ∧ (".py" : Text) <:+ name ∧
    s.isIgnored (above ++ [name]) = false := by
  rw [takes, Bool.and_eq_true, Bool.and_eq_true, not_isHidden_iff, Bool.not_eq_true', and_assoc]
  exact and_congr_right fun hshown ↦ and_congr_left' (Path.isPython_iff hname hshown)

/-- The parts at the start of a location are its first name and those that go on from there. -/
theorem forall_part_cons {P : Location → Prop} : (∀ part, part ≠ [] → part <+: name :: l → P part) ↔
    P [name] ∧ ∀ part, part ≠ [] → part <+: l → P (name :: part) := by
  constructor
  · refine fun h ↦ ⟨h _ (List.cons_ne_nil _ _) (List.prefix_append [name] l), fun part _ hpart ↦ ?_⟩
    exact h _ (List.cons_ne_nil _ _) (List.cons_prefix_cons.mpr ⟨rfl, hpart⟩)
  · rintro ⟨hfirst, hfurther⟩ part hne hpart
    obtain ⟨first, more, rfl⟩ := List.exists_cons_of_ne_nil hne
    obtain ⟨rfl, hmore⟩ := List.cons_prefix_cons.mp hpart
    by_cases hnil : more = []
    · exact hnil ▸ hfirst
    · exact hfurther more hnil hmore

theorem wants_singleton_iff (hname : Path.IsName name) :
    s.Wants above [name] ↔ s.takes above name = true := by
  rw [takes_iff hname]
  constructor
  · intro h
    obtain ⟨last, hlast, hpython⟩ := h.python
    obtain rfl : name = last := Option.some.inj hlast
    exact ⟨h.shown _ (List.mem_singleton_self _), hpython,
      h.kept [name] (List.cons_ne_nil _ _) List.prefix_rfl⟩
  · rintro ⟨hshown, hpython, hkept⟩
    refine ⟨⟨name, rfl, hpython⟩, List.forall_mem_singleton.mpr hshown, .inl rfl,
      fun _ hmem ↦ (List.not_mem_nil hmem).elim,
      forall_part_cons.mpr ⟨hkept, fun part hne hpart ↦ ?_⟩⟩
    exact absurd (List.prefix_nil.mp hpart) hne

theorem wants_cons_iff (hl : l ≠ []) :
    s.Wants above (name :: l) ↔ s.enters above name = true ∧ s.Wants (above ++ [name]) l := by
  have hlast : (name :: l).getLast? = l.getLast? := List.getLast?_cons_of_ne_nil hl
  have hdrop : (name :: l).dropLast = name :: l.dropLast := List.dropLast_cons_of_ne_nil hl
  have happend (part : Location) : above ++ [name] ++ part = above ++ name :: part := by
    rw [List.append_assoc, List.singleton_append]
  rw [enters_iff]
  constructor
  · intro h
    have hkept := forall_part_cons.mp h.kept
    have hentered := List.forall_mem_cons.mp (hdrop ▸ h.entered)
    have hshown := List.forall_mem_cons.mp h.shown
    have hrecursive : s.recursive = true := h.near.resolve_left fun hlength ↦
      hl (List.length_eq_zero_iff.mp (Nat.succ.inj hlength))
    exact ⟨⟨hrecursive, hshown.1, hentered.1, hkept.1⟩, hlast ▸ h.python, hshown.2,
      .inr hrecursive, hentered.2,
      fun part hne hpart ↦ by rw [happend]; exact hkept.2 part hne hpart⟩
  · rintro ⟨⟨hrecursive, hshown, hentered, hkept⟩, h⟩
    refine ⟨hlast.symm ▸ h.python, List.forall_mem_cons.mpr ⟨hshown, h.shown⟩, .inr hrecursive, ?_,
      forall_part_cons.mpr ⟨hkept, fun part hne hpart ↦ ?_⟩⟩
    · rw [hdrop]
      exact List.forall_mem_cons.mpr ⟨hentered, h.entered⟩
    · rw [← happend]
      exact h.kept part hne hpart

/-- A search gets to the files at the locations that it wants. -/
theorem reaches_iff (hl : ∀ name ∈ l, Path.IsName name) :
    s.reaches above l = true ↔ s.Wants above l := by
  induction l generalizing above with
  | nil =>
    exact iff_of_false Bool.false_ne_true fun h ↦ by obtain ⟨_, hnone, -⟩ := h.python; cases hnone
  | cons name rest ih =>
    rw [List.forall_mem_cons] at hl
    by_cases hrest : rest = []
    · rw [hrest]
      exact (wants_singleton_iff hl.1).symm
    · rw [reaches_cons s above name hrest, Bool.and_eq_true, wants_cons_iff hrest, ih hl.2]

/-! ### The order of the files that are found -/

theorem le_iff : le f g = true ↔ f.relativePath ≤ g.relativePath := by
  rw [le, Bool.not_eq_true', ← Bool.not_eq_true, Text.before_iff]
  rfl

/-- Found files stand in the order of their relative paths. -/
theorem pairwise_le_files (s : Search) (es : List Named) :
    (s.files es).Pairwise fun f g ↦ le f g = true := by
  refine List.pairwise_mergeSort (fun f g h hfg hgh ↦ ?_) (fun f g ↦ ?_) _
  · rw [le_iff] at hfg hgh ⊢
    exact List.le_trans hfg hgh
  · rw [Bool.or_eq_true, le_iff, le_iff]
    exact List.le_total _ _

/-- No two found files have the same relative path, so that the order is strict. -/
theorem pairwise_lt_files (h : (Entry.directory es).IsSound) :
    (s.files es).Pairwise fun f g ↦ f.relativePath < g.relativePath := by
  have hne : (s.files es).Pairwise fun f g ↦ f.location ≠ g.location :=
    List.pairwise_map.mp (nodup_files h)
  refine ((pairwise_le_files s es).and hne).imp_of_mem fun {f g} hf hg hfg ↦ ?_
  have hle := le_iff.mp hfg.1
  by_contra hlt
  exact hfg.2 (location_inj h hf hg (List.le_antisymm hle hlt))

/-! ### Trees in another order -/

end Search

/-- The same tree, with the entries of its directories in another order. -/
inductive Entry.Reordered : Entry → Entry → Prop where
  | refl (e : Entry) : Reordered e e
  | trans {e₁ e₂ e₃ : Entry} (first : Reordered e₁ e₂) (second : Reordered e₂ e₃) : Reordered e₁ e₃
  /-- Another order of the entries of a directory. -/
  | entries {es es' : List Named} (perm : es.Perm es') : Reordered (.directory es) (.directory es')
  /-- Another order further down. -/
  | inner {e e' : Entry} (name : Text) (before after : List Named) (inner : Reordered e e') :
      Reordered (.directory (before ++ ⟨name, e⟩ :: after))
        (.directory (before ++ ⟨name, e'⟩ :: after))

namespace Search

variable {s : Search} {above : Location} {name : Text} {e e' : Entry} {es es' : List Named}

theorem filesOf_eq (s : Search) (above : Location) (name : Text) (es : List Named) :
    filesOf s above ⟨name, .directory es⟩ =
      if s.enters above name then es.flatMap (filesOf s (above ++ [name])) else [] := by
  rw [filesOf, filesAmong_eq]

theorem perm_filesOf_directory
    (h : (es.flatMap (filesOf s (above ++ [name]))).Perm
      (es'.flatMap (filesOf s (above ++ [name])))) :
    (filesOf s above ⟨name, .directory es⟩).Perm (filesOf s above ⟨name, .directory es'⟩) := by
  rw [filesOf_eq, filesOf_eq]
  split_ifs
  · exact h
  · exact .refl _

/-- In another order of the tree, the same files are found among the entries of a directory, and at
or below it. -/
theorem perm_filesOf (s : Search) (h : e.Reordered e') :
    (∀ above, (e.entries.flatMap (filesOf s above)).Perm (e'.entries.flatMap (filesOf s above))) ∧
      ∀ above name, (filesOf s above ⟨name, e⟩).Perm (filesOf s above ⟨name, e'⟩) := by
  induction h with
  | refl => exact ⟨fun _ ↦ .refl _, fun _ _ ↦ .refl _⟩
  | trans _ _ first second =>
    exact ⟨fun above ↦ (first.1 above).trans (second.1 above),
      fun above name ↦ (first.2 above name).trans (second.2 above name)⟩
  | entries perm =>
    exact ⟨fun _ ↦ perm.flatMap_right _, fun _ _ ↦ perm_filesOf_directory (perm.flatMap_right _)⟩
  | inner child before after _ ih =>
    have hentries (above : Location) :=
      ((ih.2 above child).append_right (after.flatMap (filesOf s above))).append_left
        (before.flatMap (filesOf s above))
    simp only [← List.flatMap_cons, ← List.flatMap_append] at hentries
    exact ⟨hentries, fun above name ↦ perm_filesOf_directory (hentries _)⟩

/-- The order in which directories are read makes no difference. -/
theorem files_eq_of_reordered (h : (Entry.directory es).IsSound)
    (horder : (Entry.directory es).Reordered (.directory es')) : s.files es' = s.files es := by
  have hperm : (s.files es').Perm (s.files es) := by
    have hamong := (perm_filesOf s horder).1 []
    rw [Entry.entries, Entry.entries, ← filesAmong_eq, ← filesAmong_eq] at hamong
    exact (List.mergeSort_perm _ le).trans (hamong.symm.trans (List.mergeSort_perm _ le).symm)
  refine hperm.eq_of_pairwise (fun f g hf hg hfg hgf ↦ ?_) (pairwise_le_files s es')
    (pairwise_le_files s es)
  have hpath := List.le_antisymm (le_iff.mp hfg) (le_iff.mp hgf)
  have hf := hperm.mem_iff.mp hf
  exact List.inj_on_of_nodup_map (nodup_files h) hf hg (location_inj h hf hg hpath)

/-! ### What a search finds -/

/-- A search of a directory finds the files at the locations that it wants, each of them once, in
the order of their relative paths; and it finds the same files in the same order when directories
are read in other orders. -/
theorem run_finds {d : Disk} {base : Location} {p : Path} (s : Search)
    (hsound : (Entry.directory es).IsSound) (hread : d.read? base p = some (.directory es)) :
    ∃ found, s.run d base p = .ok found ∧
      (∀ f, f ∈ found ↔ s.Wants [] f.location ∧
        ∃ bytes, (Entry.directory es).at? f.location = some (.file bytes) ∧ f.size = bytes.length) ∧
      (found.Pairwise fun f g ↦ f.relativePath < g.relativePath) ∧
      ∀ d' es', (Entry.directory es).Reordered (.directory es') →
      Disk.read? d' base p = some (.directory es') →
        s.run d' base p = .ok found := by
  refine ⟨s.files es, by rw [run, hread], fun f ↦ ?_, pairwise_lt_files hsound,
    fun d' es' horder hread' ↦ ?_⟩
  · rw [mem_files_iff hsound]
    constructor
    · rintro ⟨bytes, hsize, hat, hreaches⟩
      exact ⟨(reaches_iff (hsound.of_at? hat).1).mp hreaches, bytes, hat, hsize⟩
    · rintro ⟨hwants, bytes, hat, hsize⟩
      exact ⟨bytes, hsize, hat, (reaches_iff (hsound.of_at? hat).1).mpr hwants⟩
  · rw [run, hread', ← files_eq_of_reordered hsound horder]

/-- A directory with a file, a link to it, and a directory for build output. -/
def specimen : List Named :=
  [⟨"m.py", .file [120]⟩, ⟨"l.py", .link "m.py"⟩, ⟨"build", .directory [⟨"b.py", .file []⟩]⟩]

theorem run_finds_specimen :
    ∃ found, run ⟨true, ["b.py"]⟩ (.directory specimen) [] "/" = .ok found ∧
      run ⟨true, ["b.py"]⟩ (.directory specimen.reverse) [] "/" = .ok found ∧
      ⟨["m.py"], 1⟩ ∈ found ∧ ⟨["build", "b.py"], 0⟩ ∉ found := by
  have hsound : (Entry.directory specimen).IsSound := by
    refine .directory (by decide) (by decide)
      (List.forall_mem_cons.mpr
        ⟨.file _, List.forall_mem_cons.mpr ⟨.link _, List.forall_mem_singleton.mpr ?_⟩⟩)
    exact .directory (by decide) (by decide) (List.forall_mem_singleton.mpr (.file _))
  have hread : Disk.read? (.directory specimen) [] "/" = some (.directory specimen) := rfl
  obtain ⟨found, hrun, hfound, -, horder⟩ := run_finds ⟨true, ["b.py"]⟩ hsound hread
  refine ⟨found, hrun, horder _ _ (.entries (List.reverse_perm specimen).symm) rfl, ?_, ?_⟩
  · rw [hfound]
    exact ⟨(wants_singleton_iff (by decide)).mpr (by decide), _, rfl, rfl⟩
  · rw [hfound]
    rintro ⟨hwants, -⟩
    exact hwants.entered "build" (by decide) (by decide)

end Search

end Declutter
