import Declutter.Disk.Backup
import Declutter.Proofs.Disk.Walk
/-!
Copying a file. Making the directories of a path adds directories and nothing else
(`Disk.addsDirectories_makeDirectories`). A copy that succeeds adds one file, where nothing was,
with the bytes that were copied (`Disk.Gains`); a copy that fails adds no file
(`Backup.create_spec`).
-/

set_option autoImplicit false
set_option relaxedAutoImplicit false

namespace Declutter

/-! ### The name of a copy -/

namespace Path

theorem separator_not_mem_name (p : Path) : separator ∉ p.name := by
  rw [name]
  cases hlast : (p.pieces.filter (!·.isEmpty)).getLast? with
  | none => exact List.not_mem_nil
  | some last =>
    exact no_separator_of_mem_pieces last (List.mem_of_mem_filter (List.mem_of_getLast? hlast))

theorem separator_not_mem_stem (p : Path) : separator ∉ p.stem :=
  fun hmem ↦ p.separator_not_mem_name (List.mem_of_mem_take hmem)

theorem separator_not_mem_extension (p : Path) : separator ∉ p.extension := by
  rw [extension]
  split
  · split_ifs
    · exact List.not_mem_nil
    · exact fun hmem ↦ p.separator_not_mem_name (List.mem_of_mem_drop hmem)
  · exact List.not_mem_nil

end Path

theorem Text.separator_not_mem_ofNat (n : Nat) : Path.separator ∉ Text.ofNat n := by
  intro hmem
  obtain ⟨c, hc, heq⟩ := List.mem_map.mp hmem
  have hdigit : c.isDigit = true := Nat.isDigit_of_mem_toDigits (by decide) (by decide) hc
  rw [Char.isDigit, Bool.and_eq_true, decide_eq_true_eq, decide_eq_true_eq] at hdigit
  have hle : 48 ≤ c.toNat := hdigit.1
  have hge : c.toNat ≤ 57 := hdigit.2
  have htoNat := congrArg UInt16.toNat heq
  simp only [CodeUnit.ofChar, UInt16.toNat_ofNat', Path.separator] at htoNat
  have hslash : '/'.toNat % 2 ^ 16 = 47 := rfl
  omega

theorem Text.separator_not_mem_ofInt (n : Int) : Path.separator ∉ Text.ofInt n := by
  cases n with
  | ofNat n => exact separator_not_mem_ofNat n
  | negSucc n => exact List.not_mem_cons_of_ne_of_not_mem (by decide) (separator_not_mem_ofNat _)

namespace Instant

theorem separator_not_mem_twoDigits (n : Nat) : Path.separator ∉ twoDigits n := by
  refine List.not_mem_append (fun hmem ↦ ?_) (Text.separator_not_mem_ofNat n)
  have hzero := List.eq_of_mem_replicate hmem
  revert hzero
  decide

theorem separator_not_mem_stamp (t : Instant) : Path.separator ∉ t.stamp := by
  rw [stamp]
  split_ifs
  · simp only [List.mem_append, not_or, separator_not_mem_twoDigits, Text.separator_not_mem_ofInt,
      not_false_eq_true, and_true, true_and]
    decide
  · decide

end Instant

/-- The name of a copy is a name: it has an underscore, and no separator. -/
theorem Backup.isName_name (file : Path) (now : Instant) (n : Nat) :
    Path.IsName (name file now n) := by
  have hunderscore : CodeUnit.ofChar '_' ∈ name file now n := by
    refine List.mem_append_left _
      (List.mem_append_left _ (List.mem_append_left _ (List.mem_append_right _ ?_)))
    decide
  have hne : ∀ t : Text, CodeUnit.ofChar '_' ∉ t → name file now n ≠ t :=
    fun t ht heq ↦ ht (heq ▸ hunderscore)
  refine ⟨hne _ (by decide), hne _ (by decide), hne _ (by decide), ?_⟩
  rw [name]
  simp only [List.mem_append, not_or, file.separator_not_mem_stem, file.separator_not_mem_extension,
    now.separator_not_mem_stamp, not_false_eq_true, and_true, true_and]
  refine ⟨by decide, ?_⟩
  split_ifs
  · exact List.not_mem_nil
  · exact List.not_mem_append (by decide) (Text.separator_not_mem_ofNat n)

/-! ### Making directories -/

namespace Disk

variable {d d' : Disk} {here there : Location} {pieces : List Text}

/-- The disk `d'` is the disk `d` with some directories more. -/
structure AddsDirectories (d d' : Disk) : Prop where
  directory : ∀ l, d.hasDirectory l = true → d'.hasDirectory l = true
  leaf : ∀ l, d'.leaf? l = d.leaf? l

namespace AddsDirectories

theorem refl (d : Disk) : AddsDirectories d d := ⟨fun _ h ↦ h, fun _ ↦ rfl⟩

theorem trans {d'' : Disk} (h : AddsDirectories d d') (h' : AddsDirectories d' d'') :
    AddsDirectories d d'' :=
  ⟨fun l hl ↦ h'.directory l (h.directory l hl), fun l ↦ (h'.leaf l).trans (h.leaf l)⟩

theorem toExtends (h : AddsDirectories d d') : Extends d d' where
  directory := h.directory
  link l _ hl := (h.leaf l).trans hl
  file l bytes hl := ⟨bytes, (h.leaf l).trans hl⟩

end AddsDirectories

/-- A directory that is made where nothing was is there, and everything else is as before. -/
theorem makeDirectory_spec {name : Text} (hsound : d.IsSound) (hhere : d.hasDirectory here = true)
    (hname : Path.IsName name) (hnone : d.at? (here ++ [name]) = none) :
    (d.put (here ++ [name]) (.directory [])).IsSound ∧
      hasDirectory (d.put (here ++ [name]) (.directory [])) (here ++ [name]) = true ∧
      AddsDirectories d (d.put (here ++ [name]) (.directory [])) := by
  obtain ⟨es, hes⟩ := hasDirectory_iff.mp hhere
  have hnames : ∀ step ∈ here ++ [name], Path.IsName step :=
    List.forall_mem_append.mpr ⟨(hsound.of_at? hes).1, List.forall_mem_singleton.mpr hname⟩
  exact ⟨hsound.put .empty hnames, (hasDirectory_makeDirectory hhere hnone).mpr (.inr rfl),
    fun l hl ↦ (hasDirectory_makeDirectory hhere hnone).mpr (.inl hl),
    fun l ↦ leaf?_makeDirectory hhere hnone⟩

/-- Making the directories along the pieces of a path adds directories and nothing else. -/
theorem makeDirectories_spec (hsound : d.IsSound) (hhere : d.hasDirectory here = true)
    (hpieces : ∀ piece ∈ pieces, Path.separator ∉ piece) :
    (makeDirectories d here pieces).1.IsSound ∧
    AddsDirectories d (makeDirectories d here pieces).1 := by
  induction pieces generalizing d here with
  | nil => exact ⟨hsound, .refl d⟩
  | cons piece rest ih =>
    rw [List.forall_mem_cons] at hpieces
    rw [makeDirectories]
    split_ifs with hskip hup
    · exact ih hsound hhere hpieces.2
    · exact ih hsound (hasDirectory_dropLast hhere) hpieces.2
    · have hname : Path.IsName piece := ⟨(not_or.mp hskip).1, (not_or.mp hskip).2, hup, hpieces.1⟩
      split
      · next hnone =>
        obtain ⟨hsound', hnew, hadds⟩ := makeDirectory_spec hsound hhere hname hnone
        exact (ih hsound' hnew hpieces.2).imp_right hadds.trans
      · next es hes => exact ih hsound (hasDirectory_iff.mpr ⟨es, hes⟩) hpieces.2
      · exact ⟨hsound, .refl d⟩
      · split
        · next there htrace =>
          split_ifs with hthere
          · exact ih hsound hthere hpieces.2
          · exact ⟨hsound, .refl d⟩
        · exact ⟨hsound, .refl d⟩

/-- Directories that were made are not made again, as long as they stay. -/
theorem makeDirectories_again {d₁ : Disk} (hsound : d.IsSound) (hhere : d.hasDirectory here = true)
    (hpieces : ∀ piece ∈ pieces, Path.separator ∉ piece)
    (h : makeDirectories d here pieces = (d₁, some there)) (hextends : Extends d₁ d') :
    makeDirectories d' here pieces = (d', some there) := by
  induction pieces generalizing d here with
  | nil =>
    obtain ⟨rfl, hthere⟩ := Prod.mk.inj h
    rw [makeDirectories, hthere]
  | cons piece rest ih =>
    have hspec := makeDirectories_spec hsound hhere hpieces
    rw [h] at hspec
    have hkept : Extends d d' := hspec.2.toExtends.trans hextends
    rw [List.forall_mem_cons] at hpieces
    rw [makeDirectories] at h ⊢
    split_ifs at h ⊢ with hskip hup
    · exact ih hsound hhere hpieces.2 h
    · exact ih hsound (hasDirectory_dropLast hhere) hpieces.2 h
    · have hname : Path.IsName piece := ⟨(not_or.mp hskip).1, (not_or.mp hskip).2, hup, hpieces.1⟩
      split at h
      · next hnone =>
        obtain ⟨hsound', hnew, -⟩ := makeDirectory_spec hsound hhere hname hnone
        have hrest := (makeDirectories_spec hsound' hnew hpieces.2).2.toExtends
        rw [h] at hrest
        obtain ⟨es', hes'⟩ := hasDirectory_iff.mp (hextends.directory _ (hrest.directory _ hnew))
        rw [hes']
        exact ih hsound' hnew hpieces.2 h
      · next es hes =>
        have hdirectory : d.hasDirectory (here ++ [piece]) = true := hasDirectory_iff.mpr ⟨es, hes⟩
        obtain ⟨es', hes'⟩ := hasDirectory_iff.mp (hkept.directory _ hdirectory)
        rw [hes']
        exact ih hsound hdirectory hpieces.2 h
      · cases h
      · next target hlink =>
        rw [at?_of_leaf? (hkept.link _ _ (leaf?_eq_of_at? hlink rfl))]
        dsimp only
        split at h
        · next found hfound =>
          obtain ⟨left, hleads⟩ := exists_leads_of_trace hfound
          rw [(hkept.leads hleads).trace_eq]
          dsimp only
          split_ifs at h with hdirectory
          · rw [if_pos
              (show Option.any Entry.isDirectory (d'.at? found) =
                true from hkept.directory _ hdirectory)]
            exact ih hsound hdirectory hpieces.2 h
          · cases h
        · cases h

/-! ### Adding a file -/

/-- The disk `d'` is the disk `d` with some directories more, and with a file at a place where
nothing was. -/
structure Gains (d d' : Disk) (bytes : List UInt8) (l : Location) : Prop where
  directory : ∀ m, d.hasDirectory m = true → d'.hasDirectory m = true
  leaf : ∀ m, d'.leaf? m = if m = l then some (.file bytes) else d.leaf? m
  vacant : d.at? l = none

theorem AddsDirectories.bytes? {base : Location} {p : Path} {bytes : List UInt8}
    (h : AddsDirectories d d') (hbytes : d.bytes? base p = some bytes) :
    d'.bytes? base p = some bytes := by
  obtain ⟨l, hfind, hleaf⟩ := bytes?_eq_some_iff.mp hbytes
  exact bytes?_eq_some_iff.mpr ⟨l, h.toExtends.find? hfind, (h.leaf l).trans hleaf⟩

namespace Gains

variable {bytes : List UInt8} {l : Location}

theorem leaf_of_ne {m : Location} {e : Entry} (h : Gains d d' bytes l) (hm : d.leaf? m = some e) :
    d'.leaf? m = some e := by
  have hne : m ≠ l := by
    rintro rfl
    rw [leaf?_eq_none_of_at? h.vacant] at hm
    cases hm
  rw [h.leaf, if_neg hne, hm]

theorem toExtends (h : Gains d d' bytes l) : Extends d d' where
  directory := h.directory
  link _ _ hm := h.leaf_of_ne hm
  file _ bytes hm := ⟨bytes, h.leaf_of_ne hm⟩

/-- What could be read can still be read. -/
theorem bytes? {base : Location} {p : Path} {old : List UInt8} (h : Gains d d' bytes l)
    (hold : d.bytes? base p = some old) : d'.bytes? base p = some old := by
  obtain ⟨m, hfind, hleaf⟩ := bytes?_eq_some_iff.mp hold
  exact bytes?_eq_some_iff.mpr ⟨m, h.toExtends.find? hfind, h.leaf_of_ne hleaf⟩

theorem of_addsDirectories {d₁ : Disk} (hadds : AddsDirectories d d₁) (h : Gains d₁ d' bytes l) :
    Gains d d' bytes l where
  directory m hm := h.directory m (hadds.directory m hm)
  leaf _ := by rw [h.leaf, hadds.leaf]
  vacant := hadds.toExtends.vacant h.vacant

/-- A new file in a directory. -/
theorem put {directory : Location} {name : Text} (hdirectory : d.hasDirectory directory = true)
    (hvacant : d.at? (directory ++ [name]) = none) :
    Gains d (d.put (directory ++ [name]) (.file bytes)) bytes (directory ++ [name]) where
  directory _ hm :=
    (hasDirectory_put hdirectory (hasDirectory_eq_false_of_at? hvacant) rfl).trans hm
  leaf _ := leaf?_put hdirectory (hasDirectory_eq_false_of_at? hvacant) rfl
  vacant := hvacant

end Gains

end Disk

/-! ### Copies -/

namespace Backup

open Disk

variable {d d' : Disk} {base : Location} {file directory : Path} {now : Instant}
  {bytes : List UInt8}

/-- The search for a free candidate stops at the first that is free, or at the last that it
tries. -/
theorem exists_firstFree (d : Disk) (base : Location) (file directory : Path) (now : Instant)
    (bound n : Nat) :
    ∃ m, firstFree d base file directory now bound n = candidate file directory now m ∧ n ≤ m ∧
      (∀ k, n ≤ k → k < m → d.isPresent base (candidate file directory now k) = true) ∧
      (d.isPresent base (candidate file directory now m) = true → m = n + bound) := by
  induction bound generalizing n with
  | zero =>
    exact ⟨n, rfl, Nat.le_refl n, fun k hk hlt ↦ absurd hk (Nat.not_le.mpr hlt), fun _ ↦ rfl⟩
  | succ bound ih =>
    rw [firstFree]
    split_ifs with hpresent
    · obtain ⟨m, heq, hle, hbelow, hlast⟩ := ih (n + 1)
      refine ⟨m, heq, Nat.le_of_succ_le hle, fun k hk hlt ↦ ?_, fun h ↦ by rw [hlast h]; omega⟩
      rcases Nat.eq_or_lt_of_le hk with rfl | hk
      · exact hpresent
      · exact hbelow k hk hlt
    · exact ⟨n, rfl, Nat.le_refl n, fun k hk hlt ↦ absurd hk (Nat.not_le.mpr hlt),
        fun h ↦ absurd h hpresent⟩

/-- A candidate is a name in the directory of the copies. -/
theorem candidate_eq (hdirectory : directory ≠ []) (n : Nat) :
    candidate file directory now n =
      Path.ofSimple directory.isAbsolute
        (Path.simplify directory.isAbsolute directory.pieces ++ [name file now n]) := by
  have hchild := Path.child_join hdirectory (List.cons_ne_nil (name file now n) [])
    (List.forall_mem_singleton.mpr (isName_name file now n))
  rw [Text.join] at hchild
  rw [candidate, hchild]

section Create

variable (hsound : d.IsSound) (hhere : d.hasDirectory (origin directory.isAbsolute base) = true)
include hsound hhere

/-- A file that is made anew at a candidate is made where nothing was, and the candidate leads to
it. -/
theorem gains_of_createNew? {n : Nat} (hdirectory : directory ≠ [])
    (h : createNew? d base (candidate file directory now n) bytes = some d') :
    d'.IsSound ∧ ∃ l, Gains d d' bytes l ∧
    d.isPresent base (candidate file directory now n) = false ∧
      d'.find? base (candidate file directory now n) = some l := by
  have hname := isName_name file now n
  have hnames := List.forall_mem_singleton.mpr hname
  have hsegments : Path.IsSimple directory.isAbsolute
      (Path.simplify directory.isAbsolute directory.pieces) :=
    Path.isSimple_simplify Path.no_separator_of_mem_pieces
  rw [candidate_eq hdirectory] at h ⊢
  rw [createNew?, Path.parent_ofSimple hsegments hname, Path.name_ofSimple hsegments hname] at h
  obtain ⟨place, hplace, hput⟩ := Option.bind_eq_some_iff.mp h
  dsimp only at hput
  split_ifs at hput with hcan
  obtain rfl := Option.some.inj hput
  rw [Bool.and_eq_true, Option.isNone_iff_eq_none] at hcan
  obtain ⟨hthere, hvacant⟩ := hcan
  have hgains : Gains d (d.put (place ++ [name file now n]) (.file bytes)) bytes
      (place ++ [name file now n]) :=
    .put hthere hvacant
  obtain ⟨es, hes⟩ := hasDirectory_iff.mp hthere
  have hleaf : leaf? (d.put (place ++ [name file now n]) (.file bytes))
    (place ++ [name file now n]) =
      some (.file bytes) := (hgains.leaf _).trans (if_pos rfl)
  refine ⟨hsound.put (.file bytes) (List.forall_mem_append.mpr ⟨(hsound.of_at? hes).1, hnames⟩), _,
    hgains, ?_, ?_⟩
  · rw [isPresent, find?_ofSimple_concat_of_none hhere hsegments hname hplace hthere hvacant,
      Option.isSome_none]
  · exact find?_ofSimple_append (hgains.directory _ hhere) hsegments hnames
      (hgains.toExtends.find? hplace) (at?_of_leaf? hleaf) (Entry.file_ne_link bytes)

/-- What copying a file does to a disk. A copy that fails adds no file; one that succeeds adds a
file with the same bytes, at a path that led nowhere before. -/
theorem create_spec (now : Instant) (hbytes : d.bytes? base file = some bytes) :
    (create d base file directory now).1.IsSound ∧
      ((∃ fault, (create d base file directory now).2 = .error fault) ∧
          AddsDirectories d (create d base file directory now).1 ∨
        ∃ copy l, (create d base file directory now).2 = .ok copy ∧
          Gains d (create d base file directory now).1 bytes l ∧ d.isPresent base copy = false ∧
          find? (create d base file directory now).1 base copy = some l) := by
  by_cases hdirectory : directory = []
  · rw [hdirectory]
    exact ⟨hsound, .inl ⟨⟨_, rfl⟩, .refl d⟩⟩
  have hspec : (makeDirectories d (origin directory.isAbsolute base) directory.pieces).1.IsSound ∧
      AddsDirectories d (makeDirectories d (origin directory.isAbsolute base) directory.pieces).1 :=
    makeDirectories_spec hsound hhere Path.no_separator_of_mem_pieces
  unfold create
  rw [List.isEmpty_eq_false_iff.mpr hdirectory, if_neg Bool.false_ne_true, ← origin]
  cases hmade : makeDirectories d (origin directory.isAbsolute base) directory.pieces with
  | mk d₁ made =>
    rw [hmade] at hspec
    obtain ⟨hsound₁, hadds⟩ := hspec
    cases made with
    | none => exact ⟨hsound₁, .inl ⟨⟨_, rfl⟩, hadds⟩⟩
    | some there =>
      dsimp only
      obtain ⟨n, hn, -⟩ :=
        exists_firstFree d₁ base file directory now
          (entriesBeside d₁ base (candidate file directory now 0)) 0
      rw [hadds.bytes? hbytes, hn]
      dsimp only
      cases hcreate : createNew? d₁ base (candidate file directory now n) bytes with
      | none => exact ⟨hsound₁, .inl ⟨⟨_, rfl⟩, hadds⟩⟩
      | some d₂ =>
        obtain ⟨hsound₂, l, hgains, habsent, hfind⟩ :=
          gains_of_createNew? hsound₁ (hadds.directory _ hhere) hdirectory hcreate
        exact ⟨hsound₂, .inr ⟨_, l, rfl, hgains.of_addsDirectories hadds,
          hadds.toExtends.isPresent habsent, hfind⟩⟩

end Create

end Backup

end Declutter
