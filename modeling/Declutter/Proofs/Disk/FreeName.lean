import Declutter.Proofs.Disk.Backup
import Mathlib.Data.List.Perm.Subperm
import Mathlib.Order.Bounds.Basic
/-!
The name of a copy. The names that are tried are names of their own (`Backup.name_injective`), so
that more of them than the directory has entries cannot all be taken: the search ends, and it ends
at the first name that is free (`Backup.exists_isLeast`). A copy takes its own name away and leaves
every other name as it is, so that copies of files of one name, made one after the other, take the
names in their order (`Backup.createEach_eq`).
-/

set_option autoImplicit false
set_option relaxedAutoImplicit false

namespace Declutter

/-! ### Names that are tried -/

theorem CodeUnit.toNat_ofChar_of_isDigit {c : Char} (h : c.isDigit = true) :
    (CodeUnit.ofChar c).toNat = c.toNat := by
  rw [Char.isDigit, Bool.and_eq_true, decide_eq_true_eq, decide_eq_true_eq] at h
  have hle : c.toNat ≤ 57 := h.2
  exact Nat.mod_eq_of_lt (by omega)

/-- The digits of a number are read off its text. -/
theorem Text.map_ofNat (n : Nat) :
    (Text.ofNat n).map (fun u ↦ Char.ofNat u.toNat) = Nat.toDigits 10 n := by
  rw [Text.ofNat, List.map_map]
  refine (List.map_congr_left fun c hc ↦ ?_).trans (List.map_id _)
  have hdigit : c.isDigit = true := Nat.isDigit_of_mem_toDigits (by decide) (by decide) hc
  rw [Function.comp_apply, CodeUnit.toNat_ofChar_of_isDigit hdigit, Char.ofNat_toNat, id]

theorem Text.ofNat_injective : Function.Injective Text.ofNat := by
  intro n m h
  have hdigits : Nat.toDigits 10 n = Nat.toDigits 10 m := by rw [← map_ofNat, h, map_ofNat]
  calc
    n = Nat.ofDigitChars 10 (Nat.toDigits 10 n) 0 := Nat.ofDigitChars_ten_toDigits.symm
    _ = Nat.ofDigitChars 10 (Nat.toDigits 10 m) 0 := by rw [hdigits]
    _ = m := Nat.ofDigitChars_ten_toDigits

namespace Backup

open Disk

variable {d d₁ d₂ : Disk} {base there l : Location} {file directory : Path} {now : Instant}
  {bytes : List UInt8} {n m : Nat}

/-- Different numbers make different names. -/
theorem name_injective (file : Path) (now : Instant) : Function.Injective (name file now) := by
  intro n m h
  have hnumber := List.append_cancel_left (List.append_cancel_right h)
  split_ifs at hnumber with hn hm hm
  · rw [hn, hm]
  · cases hnumber
  · cases hnumber
  · exact Text.ofNat_injective (List.append_cancel_left hnumber)

/-- A name is made of the stem, the extension and the stamp alone. -/
theorem candidate_congr {file' : Path} {now' : Instant} (hstem : file'.stem = file.stem)
    (hextension : file'.extension = file.extension) (hstamp : now'.stamp = now.stamp) :
    candidate file' directory now' n = candidate file directory now n := by
  rw [candidate, candidate, name, name, hstem, hextension, hstamp]

/-- The directory of the copies, as the candidates name it. -/
def place (directory : Path) : Path :=
  Path.ofSimple directory.isAbsolute (Path.simplify directory.isAbsolute directory.pieces)

theorem isSimple_place (directory : Path) :
    Path.IsSimple directory.isAbsolute (Path.simplify directory.isAbsolute directory.pieces) :=
  Path.isSimple_simplify Path.no_separator_of_mem_pieces

section Candidate

variable (hdirectory : directory ≠ [])
include hdirectory

theorem parent_candidate : (candidate file directory now n).parent = place directory := by
  rw [candidate_eq hdirectory,
    Path.parent_ofSimple (isSimple_place directory) (isName_name file now n), place]

theorem name_candidate : (candidate file directory now n).name = name file now n := by
  rw [candidate_eq hdirectory,
    Path.name_ofSimple (isSimple_place directory) (isName_name file now n)]

end Candidate

/-! ### The first free name -/

section Free

variable (hhere : d.hasDirectory (origin directory.isAbsolute base) = true)
  (hdirectory : directory ≠ [])
include hhere hdirectory

/-- Where a candidate is present, its name is the name of an entry of the directory. -/
theorem mem_of_isPresent (h : d.isPresent base (candidate file directory now n) = true) :
    ∃ es, d.read? base (place directory) = some (.directory es) ∧
    name file now n ∈ es.map (·.name) := by
  rw [isPresent, candidate_eq hdirectory] at h
  obtain ⟨l, hl⟩ := Option.isSome_iff_exists.mp h
  obtain ⟨found, hplace, hfound, e, he⟩ :=
    exists_of_find?_ofSimple_concat hhere (isSimple_place directory) (isName_name file now n) hl
  obtain ⟨es, hes⟩ := hasDirectory_iff.mp hfound
  rw [Entry.at?_append, hes, Option.bind_some, Entry.at?_cons] at he
  obtain ⟨child, hchild, -⟩ := Option.bind_eq_some_iff.mp he
  exact ⟨es, by rw [read?, place, hplace, Option.bind_some, hes],
    List.mem_map.mpr ⟨_, Entry.mem_entries_of_child? hchild, rfl⟩⟩

/-- One candidate more than the directory has entries, and they are not all present. -/
theorem exists_absent (file : Path) (now : Instant) :
    ∃ n ≤ entriesBeside d base (candidate file directory now 0),
    d.isPresent base (candidate file directory now n) = false := by
  by_contra hnone
  have hall : ∀ n ≤ entriesBeside d base (candidate file directory now 0),
      d.isPresent base (candidate file directory now n) = true :=
    fun n hn ↦ by_contra fun habsent ↦ hnone ⟨n, hn, Bool.eq_false_iff.mpr habsent⟩
  obtain ⟨es, hes, -⟩ := mem_of_isPresent hhere hdirectory (hall 0 (Nat.zero_le _))
  have hentries : entriesBeside d base (candidate file directory now 0) = es.length := by
    rw [entriesBeside, parent_candidate hdirectory, hes]
    rfl
  rw [hentries] at hall
  have hsubset : (List.range (es.length + 1)).map (name file now) ⊆ es.map (·.name) := by
    intro t ht
    obtain ⟨n, hn, rfl⟩ := List.mem_map.mp ht
    obtain ⟨es', hes', hname⟩ :=
      mem_of_isPresent hhere hdirectory (hall n (Nat.le_of_lt_succ (List.mem_range.mp hn)))
    cases hes.symm.trans hes'
    exact hname
  have hnodup : ((List.range (es.length + 1)).map (name file now)).Nodup :=
    List.nodup_range.map (name_injective file now)
  have hlength := (List.subperm_of_subset hnodup hsubset).length_le
  rw [List.length_map, List.length_map, List.length_range] at hlength
  omega

/-- The search finds the first candidate that is free. -/
theorem exists_isLeast (file : Path) (now : Instant) : ∃ n,
    IsLeast {n | d.isPresent base (candidate file directory now n) = false} n ∧
    n ≤ entriesBeside d base (candidate file directory now 0) ∧
    firstFree d base file directory now (entriesBeside d base (candidate file directory now 0)) 0 =
      candidate file directory now n := by
  obtain ⟨k, hk, habsent⟩ := exists_absent hhere hdirectory file now
  obtain ⟨n, heq, -, hbelow, hlast⟩ :=
    exists_firstFree d base file directory now
      (entriesBeside d base (candidate file directory now 0)) 0
  have hle : ∀ m, d.isPresent base (candidate file directory now m) = false → n ≤ m := fun m hm ↦ by
    by_contra! hlt
    exact Bool.noConfusion (hm.symm.trans (hbelow m (Nat.zero_le m) hlt))
  refine ⟨n, ⟨Bool.eq_false_iff.mpr fun hpresent ↦ ?_, hle⟩, (hle k habsent).trans hk, heq⟩
  -- the last candidate that is tried is free if all before it are present
  have hn : n = k :=
    Nat.le_antisymm (hle k habsent) (by rw [hlast hpresent, Nat.zero_add]; exact hk)
  exact Bool.noConfusion (habsent.symm.trans (hn ▸ hpresent))

end Free

/-- When the directory has been made, the copy goes to the first candidate that is free. -/
theorem create_eq_ok (hdirectory : directory ≠ [])
    (hmade : makeDirectories d (origin directory.isAbsolute base) directory.pieces =
      (d₁, some there))
    (hhere : d₁.hasDirectory (origin directory.isAbsolute base) = true)
    (hleast : IsLeast {n | d₁.isPresent base (candidate file directory now n) = false} n)
    (hbytes : d₁.bytes? base file = some bytes)
    (hnew : createNew? d₁ base (candidate file directory now n) bytes = some d₂) :
    create d base file directory now = (d₂, .ok (candidate file directory now n)) := by
  obtain ⟨m, hm, -, hfirst⟩ := exists_isLeast hhere hdirectory file now
  unfold create
  rw [List.isEmpty_eq_false_iff.mpr hdirectory, if_neg Bool.false_ne_true, ← origin, hmade]
  dsimp only
  rw [hfirst, hm.unique hleast, hbytes]
  dsimp only
  rw [hnew]

/-! ### One copy after the other -/

/-- Copies files into a directory, one after the other, each with its time. -/
def createEach (base : Location) (directory : Path) :
    Disk → List (Path × Instant) → Disk × List (Except Fault Path)
  | d, [] => (d, [])
  | d, (file, now) :: rest =>
    let (d, result) := create d base file directory now
    let (d, results) := createEach base directory d rest
    (d, result :: results)

/-- The disk has a directory for the copies, at the location `l`. -/
structure HasPlace (d : Disk) (base : Location) (directory : Path) (l : Location) : Prop where
  sound : d.IsSound
  origin : d.hasDirectory (origin directory.isAbsolute base) = true
  find : d.find? base (place directory) = some l
  directory : d.hasDirectory l = true

namespace HasPlace

variable (h : HasPlace d base directory l) (hdirectory : directory ≠ [])
include h hdirectory

/-- A name that no entry has is free. -/
theorem isPresent_eq_false (hvacant : d.at? (l ++ [name file now n]) = none) :
    d.isPresent base (candidate file directory now n) = false := by
  rw [isPresent, candidate_eq hdirectory,
    find?_ofSimple_concat_of_none h.origin (isSimple_place directory) (isName_name file now n)
      h.find h.directory hvacant, Option.isSome_none]

/-- A file can be made under a name that no entry has. -/
theorem createNew?_eq_some (hvacant : d.at? (l ++ [name file now n]) = none) (bytes : List UInt8) :
    createNew? d base (candidate file directory now n) bytes =
      some (d.put (l ++ [name file now n]) (.file bytes)) := by
  have hcan : (d.at? l).any Entry.isDirectory && (d.at? (l ++ [name file now n])).isNone := by
    rw [Bool.and_eq_true, Option.isNone_iff_eq_none]
    exact ⟨h.directory, hvacant⟩
  rw [createNew?, parent_candidate hdirectory, name_candidate hdirectory, h.find]
  exact if_pos hcan

omit hdirectory in
/-- A copy leaves the directory of the copies in its place. -/
theorem put (hvacant : d.at? (l ++ [name file now n]) = none) (bytes : List UInt8) :
    HasPlace (d.put (l ++ [name file now n]) (.file bytes)) base directory l := by
  obtain ⟨es, hes⟩ := hasDirectory_iff.mp h.directory
  have hnames := List.forall_mem_append.mpr
    ⟨(h.sound.of_at? hes).1, List.forall_mem_singleton.mpr (isName_name file now n)⟩
  have hgains : Gains d (d.put (l ++ [name file now n]) (.file bytes)) bytes
      (l ++ [name file now n]) :=
    .put h.directory hvacant
  exact {
    sound := h.sound.put (.file bytes) hnames
    origin := hgains.directory _ h.origin
    find := hgains.toExtends.find? h.find
    directory := hgains.directory _ h.directory }

/-- The path of a copy leads to it. -/
theorem isPresent_put (hvacant : d.at? (l ++ [name file now n]) = none) (bytes : List UInt8) :
    isPresent (d.put (l ++ [name file now n]) (.file bytes)) base (candidate file directory now n) =
      true := by
  have hput := h.put hvacant bytes
  have hfile := Entry.at?_put_append d (l ++ [name file now n]) (.file bytes) []
  rw [List.append_nil, Entry.at?_nil] at hfile
  rw [isPresent, candidate_eq hdirectory,
    find?_ofSimple_append hput.origin (isSimple_place directory)
      (List.forall_mem_singleton.mpr (isName_name file now n)) hput.find hfile
        (Entry.file_ne_link bytes)]
  rfl

end HasPlace

/-! ### Copies in a row -/

section Row

variable {copies : List (Path × Instant)}

/-- The copies of files of one name into a directory that has the names below `n` and none of those
from `n` on take the names from `n` on. -/
theorem createEach_eq (hsound : d.IsSound)
    (horigin : d.hasDirectory (origin directory.isAbsolute base) = true)
    (hdirectory : directory ≠ [])
    (hmade : makeDirectories d (origin directory.isAbsolute base) directory.pieces =
      (d₁, some there)) (hplace : HasPlace d₁ base directory l)
    (htaken : ∀ m < n, d₁.isPresent base (candidate file directory now m) = true)
    (hfree : ∀ m < copies.length, d₁.at? (l ++ [name file now (n + m)]) = none)
    (hcopies : ∀ c ∈ copies, c.1.stem = file.stem ∧ c.1.extension = file.extension ∧
      c.2.stamp = now.stamp ∧ ∃ bytes, d₁.bytes? base c.1 = some bytes) :
    (createEach base directory d copies).2 =
      (List.range' n copies.length).map fun m ↦ .ok (candidate file directory now m) := by
  induction copies generalizing d d₁ n with
  | nil => rfl
  | cons c rest ih =>
    obtain ⟨source, time⟩ := c
    rw [List.forall_mem_cons] at hcopies
    obtain ⟨⟨hstem, hextension, hstamp, bytes, hbytes⟩, hrest⟩ := hcopies
    have hvacant : d₁.at? (l ++ [name file now n]) = none := hfree 0 (Nat.succ_pos _)
    have hgains : Gains d₁ (d₁.put (l ++ [name file now n]) (.file bytes)) bytes
        (l ++ [name file now n]) :=
      .put hplace.directory hvacant
    have hleast : IsLeast {m | d₁.isPresent base (candidate source directory time m) = false}
        n := by
      simp only [candidate_congr hstem hextension hstamp]
      refine ⟨hplace.isPresent_eq_false hdirectory hvacant, fun m hm ↦ Nat.not_lt.mp fun hlt ↦ ?_⟩
      exact Bool.noConfusion (hm.symm.trans (htaken m hlt))
    have hnew := hplace.createNew?_eq_some hdirectory hvacant bytes
    rw [← candidate_congr hstem hextension hstamp] at hnew
    have hcreate := create_eq_ok hdirectory hmade hplace.origin hleast hbytes hnew
    have hagain :=
      makeDirectories_again hsound horigin Path.no_separator_of_mem_pieces hmade hgains.toExtends
    have hnext :=
      ih (hplace.put hvacant bytes).sound (hplace.put hvacant bytes).origin hagain (n := n + 1)
        (hplace.put hvacant bytes) ?taken ?free ?copies
    case taken =>
      intro m hm
      rcases Nat.eq_or_lt_of_le (Nat.le_of_lt_succ hm) with rfl | hlt
      · exact hplace.isPresent_put hdirectory hvacant bytes
      · by_contra habsent
        exact Bool.noConfusion
          ((hgains.toExtends.isPresent (eq_false_of_ne_true habsent)).symm.trans (htaken m hlt))
    case free =>
      intro m hm
      have hne : name file now (n + 1 + m) ≠ name file now n := fun heq ↦ by
        have := name_injective file now heq
        omega
      rw [Entry.at?_put_sibling hne, Nat.add_right_comm]
      exact hfree (m + 1) (Nat.succ_lt_succ hm)
    case copies =>
      refine fun c hc ↦ ⟨(hrest c hc).1, (hrest c hc).2.1, (hrest c hc).2.2.1, ?_⟩
      obtain ⟨bytes', hbytes'⟩ := (hrest c hc).2.2.2
      exact ⟨bytes', hgains.bytes? hbytes'⟩
    rw [createEach, hcreate]
    dsimp only
    rw [hnext, List.length_cons, List.range'_succ, List.map_cons,
      candidate_congr hstem hextension hstamp]

end Row

/-! ### The names that copies take -/

/-- A name that is not among those of a directory has no entry. -/
theorem at?_concat_eq_none {es : List Named} {t : Text} (hl : d.at? l = some (.directory es))
    (ht : t ∉ es.map (·.name)) : d.at? (l ++ [t]) = none := by
  rw [Entry.at?_append, hl, Option.bind_some, Entry.at?_cons]
  cases hchild : (Entry.directory es).child? t with
  | none => rfl
  | some child => exact absurd (List.mem_map_of_mem (Entry.mem_entries_of_child? hchild)) ht

/-- Once the directory for the copies has been made, a copy of any file that can be read goes to the
first of its candidates at which nothing is present, unless a link that leads nowhere has the name;
the search ends after as many tries as the directory has entries. Copies of files of one name, made
one after the other in a directory that has none of the names, take the first names in their
order. -/
theorem copies_take_first_free_names (hsound : d.IsSound)
    (horigin : d.hasDirectory (origin directory.isAbsolute base) = true)
    (hdirectory : directory ≠ [])
    (hmade : makeDirectories d (origin directory.isAbsolute base) directory.pieces =
      (d₁, some there)) :
    (∀ file now, ∃ n, IsLeast {n | d₁.isPresent base (candidate file directory now n) = false} n ∧
      n ≤ entriesBeside d₁ base (candidate file directory now 0) ∧
      ∀ bytes d₂, d₁.bytes? base file = some bytes →
        createNew? d₁ base (candidate file directory now n) bytes = some d₂ →
        create d base file directory now = (d₂, .ok (candidate file directory now n))) ∧
    ∀ file now es (copies : List (Path × Instant)),
      d₁.read? base (candidate file directory now 0).parent = some (.directory es) →
      (∀ n < copies.length, name file now n ∉ es.map (·.name)) →
      (∀ c ∈ copies, c.1.stem = file.stem ∧ c.1.extension = file.extension ∧ c.2.stamp = now.stamp ∧
        ∃ bytes, d.bytes? base c.1 = some bytes) →
      (createEach base directory d copies).2 =
        (List.range copies.length).map fun n ↦ .ok (candidate file directory now n) := by
  have hspec :=
    makeDirectories_spec hsound horigin (Path.no_separator_of_mem_pieces (p := directory))
  rw [hmade] at hspec
  obtain ⟨hsound₁, hadds⟩ := hspec
  have horigin₁ := hadds.directory _ horigin
  constructor
  · intro file now
    obtain ⟨n, hleast, hbound, -⟩ := exists_isLeast horigin₁ hdirectory file now
    exact ⟨n, hleast, hbound, fun bytes d₂ hbytes hnew ↦
      create_eq_ok hdirectory hmade horigin₁ hleast hbytes hnew⟩
  · intro file now es copies hread hfree hcopies
    rw [parent_candidate hdirectory, read?] at hread
    obtain ⟨l, hfind, hl⟩ := Option.bind_eq_some_iff.mp hread
    rw [List.range_eq_range']
    refine createEach_eq hsound horigin hdirectory hmade
      ⟨hsound₁, horigin₁, hfind, hasDirectory_iff.mpr ⟨es, hl⟩⟩
      (fun m hm ↦ absurd hm (Nat.not_lt_zero m)) (fun m hm ↦ ?_) fun c hc ↦ ?_
    · rw [Nat.zero_add]
      exact at?_concat_eq_none hl (hfree m hm)
    · obtain ⟨hstem, hextension, hstamp, bytes, hbytes⟩ := hcopies c hc
      exact ⟨hstem, hextension, hstamp, bytes, hadds.bytes? hbytes⟩

/-- Two files of one name, in two directories. -/
def specimen : Disk := .directory [⟨"p", .directory [⟨"m.py", .file [120]⟩]⟩, ⟨"m.py", .file [121]⟩]

theorem copies_take_first_free_names_specimen :
    (createEach [] "/b" specimen [("/p/m.py", ⟨0⟩), ("/m.py", ⟨0⟩)]).2 =
      [.ok "/b/m_19700101_000000.py", .ok "/b/m_19700101_000000_1.py"] := by
  have hsound : specimen.IsSound := by
    refine .directory (by decide) (by decide)
      (List.forall_mem_cons.mpr ⟨?_, List.forall_mem_singleton.mpr (.file _)⟩)
    exact .directory (by decide) (by decide) (List.forall_mem_singleton.mpr (.file _))
  have horigin : specimen.hasDirectory (origin (Path.isAbsolute "/b") []) = true := rfl
  have hrow := (copies_take_first_free_names hsound horigin (by decide) rfl).2
    "/m.py" ⟨0⟩ [] [("/p/m.py", ⟨0⟩), ("/m.py", ⟨0⟩)] rfl (fun _ _ ↦ List.not_mem_nil)
    (List.forall_mem_cons.mpr ⟨⟨by decide, by decide, rfl, _, rfl⟩, List.forall_mem_singleton.mpr
      ⟨rfl, rfl, rfl, _, rfl⟩⟩)
  rw [hrow]
  decide +kernel

end Backup

end Declutter
