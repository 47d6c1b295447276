import Declutter.Disk.Search
import Declutter.Proofs.Disk.Walk
import Mathlib.Data.List.Nodup
/-!
What a search finds: the files below its directory to which it gets (`Search.mem_files_iff`), each
of them once (`Search.nodup_files`). The path of a found file leads to it
(`Search.find?_child_relativePath`), and no two files that are found have the same relative path
(`Search.location_inj`).
-/

set_option autoImplicit false
set_option relaxedAutoImplicit false

namespace Declutter

namespace Search

variable {s : Search} {above : Location} {name : Text} {e : Entry} {es : List Named}
  {f g : FoundFile}

theorem filesAmong_eq (s : Search) (above : Location) (es : List Named) :
    filesAmong s above es = es.flatMap (filesOf s above) := by
  induction es with
  | nil => rfl
  | cons n rest ih => rw [filesAmong, ih, List.flatMap_cons]

/-- Whether a search gets to a file at a location below `above`: it enters every directory on the
way and takes the file. -/
def reaches (s : Search) : (above l : Location) → Bool
  | _, [] => false
  | above, [name] => s.takes above name
  | above, name :: next :: rest => s.enters above name && reaches s (above ++ [name]) (next :: rest)

theorem reaches_cons (s : Search) (above : Location) (name : Text) {l : Location} (hl : l ≠ []) :
    s.reaches above (name :: l) = (s.enters above name && s.reaches (above ++ [name]) l) := by
  cases l with
  | nil => exact absurd rfl hl
  | cons => rfl

/-- The files that are found at or below an entry are the files of the entry that the search gets
to. -/
theorem mem_filesOf_iff (he : e.IsSound) : f ∈ filesOf s above ⟨name, e⟩ ↔
    ∃ m bytes, f = ⟨above ++ name :: m, bytes.length⟩ ∧ e.at? m = some (.file bytes) ∧
      s.reaches above (name :: m) = true := by
  induction he generalizing name above with
  | file bytes =>
    rw [filesOf]
    constructor
    · intro hf
      split_ifs at hf with htakes
      · exact ⟨[], bytes, List.mem_singleton.mp hf, Entry.at?_nil _, htakes⟩
      · cases hf
    · rintro ⟨m, bytes', rfl, hat, hreaches⟩
      cases m with
      | nil =>
        obtain rfl := Entry.file.inj (Option.some.inj ((Entry.at?_nil _).symm.trans hat))
        exact (if_pos hreaches).symm ▸ List.mem_singleton_self _
      | cons => exact absurd (Entry.isDirectory_of_at?_cons hat) Bool.false_ne_true
  | link target =>
    rw [filesOf]
    refine iff_of_false List.not_mem_nil ?_
    rintro ⟨m, bytes, -, hat, -⟩
    cases m with
    | nil => cases (Entry.at?_nil _).symm.trans hat
    | cons => exact Bool.false_ne_true (Entry.isDirectory_of_at?_cons hat)
  | @directory es nodup isName inner ih =>
    have hsound := Entry.IsSound.directory nodup isName inner
    rw [filesOf]
    constructor
    · intro hf
      split_ifs at hf with henters
      · rw [filesAmong_eq] at hf
        obtain ⟨⟨child, entry⟩, hn, hf⟩ := List.mem_flatMap.mp hf
        obtain ⟨m, bytes, rfl, hat, hreaches⟩ := (ih _ hn).mp hf
        refine ⟨child :: m, bytes, by rw [List.append_assoc, List.singleton_append], ?_, ?_⟩
        · rw [Entry.at?_cons, hsound.child?_of_mem hn, Option.bind_some, hat]
        · rw [reaches_cons s above name (List.cons_ne_nil _ _), henters, hreaches, Bool.and_self]
      · cases hf
    · rintro ⟨m, bytes, rfl, hat, hreaches⟩
      cases m with
      | nil => cases (Entry.at?_nil _).symm.trans hat
      | cons child m =>
        rw [reaches_cons s above name (List.cons_ne_nil _ _), Bool.and_eq_true] at hreaches
        rw [Entry.at?_cons] at hat
        obtain ⟨entry, hchild, hat⟩ := Option.bind_eq_some_iff.mp hat
        have hmem := Entry.mem_entries_of_child? hchild
        rw [if_pos hreaches.1, filesAmong_eq]
        refine List.mem_flatMap.mpr ⟨_, hmem, (ih _ hmem).mpr ⟨m, bytes, ?_, hat, hreaches.2⟩⟩
        rw [List.append_assoc, List.singleton_append]

/-- Entries with names of their own do not share a location. -/
theorem disjoint_filesOf {n n' : Named} (hn : n.entry.IsSound) (hn' : n'.entry.IsSound)
    (hne : n.name ≠ n'.name) :
    ((filesOf s above n).map (·.location)).Disjoint ((filesOf s above n').map (·.location)) := by
  intro l hl hl'
  obtain ⟨f, hf, rfl⟩ := List.mem_map.mp hl
  obtain ⟨g, hg, hlocation⟩ := List.mem_map.mp hl'
  obtain ⟨name, entry⟩ := n
  obtain ⟨name', entry'⟩ := n'
  obtain ⟨m, _, rfl, -⟩ := (mem_filesOf_iff hn).mp hf
  obtain ⟨m', _, rfl, -⟩ := (mem_filesOf_iff hn').mp hg
  exact hne (List.cons.inj (List.append_cancel_left hlocation)).1.symm

theorem nodup_filesAmong (hnames : (es.map (·.name)).Nodup) (hes : ∀ n ∈ es, n.entry.IsSound)
    (h : ∀ n ∈ es, ((filesOf s above n).map (·.location)).Nodup) :
    ((filesAmong s above es).map (·.location)).Nodup := by
  rw [filesAmong_eq, List.map_flatMap, List.nodup_flatMap]
  refine ⟨h, (List.pairwise_map.mp hnames).imp_of_mem fun hn hn' hne ↦ ?_⟩
  exact disjoint_filesOf (hes _ hn) (hes _ hn') hne

theorem nodup_filesOf (he : e.IsSound) : ((filesOf s above ⟨name, e⟩).map (·.location)).Nodup := by
  induction he generalizing name above with
  | file bytes =>
    rw [filesOf]
    split_ifs
    · exact List.nodup_singleton _
    · exact List.nodup_nil
  | link target =>
    rw [filesOf]
    exact List.nodup_nil
  | @directory es nodup isName inner ih =>
    rw [filesOf]
    split_ifs
    · exact nodup_filesAmong nodup inner fun n hn ↦ by
        cases n
        exact ih _ hn
    · exact List.nodup_nil

theorem nodup_files (h : (Entry.directory es).IsSound) : ((s.files es).map (·.location)).Nodup := by
  have hperm := (List.mergeSort_perm (filesAmong s [] es) le).map (·.location)
  refine hperm.nodup_iff.mpr
    (nodup_filesAmong h.entries.1 (fun n hn ↦ (h.entries.2 n hn).2) fun n hn ↦ ?_)
  cases n
  exact nodup_filesOf (h.entries.2 _ hn).2

/-- The files that are found in a directory are the files below it that the search gets to. -/
theorem mem_files_iff (h : (Entry.directory es).IsSound) : f ∈ s.files es ↔
    ∃ bytes, f.size = bytes.length ∧ (Entry.directory es).at? f.location = some (.file bytes) ∧
      s.reaches [] f.location = true := by
  rw [files, (List.mergeSort_perm (filesAmong s [] es) le).mem_iff, filesAmong_eq, List.mem_flatMap]
  constructor
  · rintro ⟨⟨name, entry⟩, hn, hf⟩
    obtain ⟨m, bytes, rfl, hat, hreaches⟩ := (mem_filesOf_iff (h.entries.2 _ hn).2).mp hf
    refine ⟨bytes, rfl, ?_, hreaches⟩
    rw [List.nil_append, Entry.at?_cons, h.child?_of_mem hn, Option.bind_some, hat]
  · rintro ⟨bytes, hsize, hat, hreaches⟩
    obtain ⟨location, size⟩ := f
    obtain rfl : size = bytes.length := hsize
    cases location with
    | nil => cases hreaches
    | cons name m =>
      rw [Entry.at?_cons] at hat
      obtain ⟨entry, hchild, hat⟩ := Option.bind_eq_some_iff.mp hat
      have hmem := Entry.mem_entries_of_child? hchild
      exact ⟨_, hmem, (mem_filesOf_iff (h.entries.2 _ hmem).2).mpr ⟨m, bytes, rfl, hat, hreaches⟩⟩

/-- A file that is found in a directory is a file below it. -/
theorem exists_of_mem_files (h : (Entry.directory es).IsSound) (hf : f ∈ s.files es) :
    f.location ≠ [] ∧ (∀ name ∈ f.location, Path.IsName name) ∧
      ∃ bytes, (Entry.directory es).at? f.location = some (.file bytes) := by
  obtain ⟨bytes, -, hat, -⟩ := (mem_files_iff h).mp hf
  refine ⟨fun hnil ↦ ?_, (h.of_at? hat).1, bytes, hat⟩
  rw [hnil, Entry.at?_nil] at hat
  cases hat

theorem pieces_relativePath (hne : f.location ≠ []) (h : ∀ name ∈ f.location, Path.IsName name) :
    Path.pieces f.relativePath = f.location :=
  Text.splitOn_join hne fun name hname ↦ (h name hname).no_separator

/-- Files that are found have relative paths of their own. -/
theorem location_inj (h : (Entry.directory es).IsSound) (hf : f ∈ s.files es) (hg : g ∈ s.files es)
    (hpath : f.relativePath = g.relativePath) : f.location = g.location := by
  obtain ⟨hfne, hfnames, -⟩ := exists_of_mem_files h hf
  obtain ⟨hgne, hgnames, -⟩ := exists_of_mem_files h hg
  rw [← pieces_relativePath hfne hfnames, ← pieces_relativePath hgne hgnames, hpath]

theorem run_eq_ok {d : Disk} {base place : Location} {p : Path}
    (hplace : d.find? base p = some place) (hat : d.at? place = some (.directory es)) :
    s.run d base p = .ok (s.files es) := by
  rw [run, Disk.read?, hplace, Option.bind_some, hat]

/-- The path of a found file leads to the file. -/
theorem find?_child_relativePath {d : Disk} {base place : Location} {segments : List Text}
    (hsound : d.IsSound) (hroot : d.isDirectory = true)
    (hsegments : ∀ name ∈ segments, Path.IsName name)
    (hplace : d.find? base (Path.ofSegments segments) = some place)
    (hat : d.at? place = some (.directory es)) (hf : f ∈ s.files es) :
    d.find? base (Path.child (Path.ofSegments segments) f.relativePath) =
      some (place ++ f.location) := by
  obtain ⟨hne, hnames, bytes, hbytes⟩ := exists_of_mem_files (hsound.of_at? hat).2 hf
  have hsimple := Path.isSimple_of_isName true hsegments
  have hsimplify : Path.simplify true (Path.ofSegments segments).pieces = segments :=
    Path.simplify_pieces_ofSimple hsimple
  have hnonempty : Path.ofSegments segments ≠ [] := List.cons_ne_nil _ _
  have hchild := Path.child_join hnonempty hne hnames
  have hfile : d.at? (place ++ f.location) = some (.file bytes) := by
    rw [Entry.at?_append, hat, Option.bind_some, hbytes]
  rw [FoundFile.relativePath, hchild, Path.isAbsolute_ofSegments, hsimplify]
  exact Disk.find?_ofSimple_append (hroot : d.hasDirectory [] = true) hsimple hnames hplace hfile
    (Entry.file_ne_link bytes)

end Search

end Declutter
