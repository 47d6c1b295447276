import Declutter.Disk.Basic
import Declutter.Proofs.Path
import Mathlib.Data.List.Nodup
/-!
What stands where on a disk. A disk is seen through its leaves, the files and links at their
locations (`Disk.leaf?`), and its directories (`Disk.hasDirectory`). Putting a leaf into a directory
changes the one leaf (`Disk.leaf?_put`) and no directory (`Disk.hasDirectory_put`), and making a
directory changes no leaf (`Disk.leaf?_makeDirectory`).

A disk is sound if its entries have names, and no two entries of one directory have the same name
(`Entry.IsSound`).
-/

set_option autoImplicit false
set_option relaxedAutoImplicit false

namespace Declutter

/-! ### Locations -/

namespace Entry

variable {e new : Entry} {l m : Location} {name : Text}

@[simp] theorem at?_nil (e : Entry) : e.at? [] = some e := by rw [at?]

theorem at?_cons (e : Entry) (name : Text) (rest : Location) :
    e.at? (name :: rest) = (e.child? name).bind (·.at? rest) := by rw [at?]

theorem at?_append (e : Entry) (l m : Location) : e.at? (l ++ m) = (e.at? l).bind (·.at? m) := by
  induction l generalizing e with
  | nil => rw [List.nil_append, at?_nil, Option.bind_some]
  | cons name rest ih =>
    rw [List.cons_append, at?_cons, at?_cons, Option.bind_assoc]
    exact congrArg _ (funext ih)

theorem file_ne_link (bytes : List UInt8) (target : Path) : file bytes ≠ link target :=
  Entry.noConfusion

theorem directory_ne_link (es : List Named) (target : Path) : directory es ≠ link target :=
  Entry.noConfusion

theorem isDirectory_of_child? {name : Text} {inner : Entry} (h : e.child? name = some inner) :
    e.isDirectory = true := by
  cases e with
  | directory => rfl
  | file => cases h
  | link => cases h

theorem isDirectory_of_at?_cons {rest : Location} {inner : Entry}
    (h : e.at? (name :: rest) = some inner) :
    e.isDirectory = true := by
  rw [at?_cons] at h
  obtain ⟨_, hchild, -⟩ := Option.bind_eq_some_iff.mp h
  exact isDirectory_of_child? hchild

/-! ### Putting an entry -/

theorem find?_update (es : List Named) (f : Option Entry → Entry) (n : Text) :
    (Named.update name f es).find? (·.name == n) =
      if n = name then some ⟨name, f ((es.find? (·.name == name)).map (·.entry))⟩
      else es.find? (·.name == n) := by
  induction es with
  | nil =>
    rw [Named.update, List.find?_singleton, beq_eq_decide]
    by_cases hn : n = name
    · simp [hn]
    · simp [hn, Ne.symm hn]
  | cons first rest ih =>
    rw [Named.update]
    by_cases hfirst : first.name = name
    · subst hfirst
      by_cases hn : n = first.name
      · simp [hn]
      · simp [hn, Ne.symm hn]
    · by_cases hn : n = name
      · subst hn
        simp [hfirst, ih]
      · by_cases hn' : first.name = n
        · simp [hn, hn']
        · simp [hfirst, hn, hn', ih]

theorem child?_put (e : Entry) (name : Text) (rest : Location) (new : Entry) (n : Text) :
    (e.put (name :: rest) new).child? n =
      if n = name then some (((e.child? name).getD (directory [])).put rest new)
      else e.child? n := by
  rw [put, child?, entries, find?_update]
  split_ifs <;> rfl

/-- What is at and below the location of the new entry. -/
theorem at?_put_append (e : Entry) (l : Location) (new : Entry) (m : Location) :
    (e.put l new).at? (l ++ m) = new.at? m := by
  induction l generalizing e with
  | nil => rw [put, List.nil_append]
  | cons name rest ih =>
    rw [List.cons_append, at?_cons, child?_put, if_pos rfl, Option.bind_some, ih]

/-- Beside the new entry nothing changes. -/
theorem at?_put_sibling {other : Text} (hne : other ≠ name) (e : Entry) (l : Location)
    (new : Entry) :
    (e.put (l ++ [name]) new).at? (l ++ [other]) = e.at? (l ++ [other]) := by
  induction l generalizing e with
  | nil => rw [List.nil_append, List.nil_append, at?_cons, at?_cons, child?_put, if_neg hne]
  | cons step rest ih =>
    rw [List.cons_append, List.cons_append, at?_cons, at?_cons, child?_put, if_pos rfl,
      Option.bind_some, ih]
    cases e.child? step with
    | some child => rfl
    | none => cases rest <;> rfl

end Entry

/-! ### Leaves and directories -/

namespace Disk

/-- The file or the link at a location. -/
def leaf? (d : Disk) (l : Location) : Option Entry := (d.at? l).filter (!·.isDirectory)

/-- Whether a directory is at a location. -/
def hasDirectory (d : Disk) (l : Location) : Bool := (d.at? l).any Entry.isDirectory

variable {d : Disk} {directory l : Location} {name : Text} {e : Entry}

theorem leaf?_eq_some_iff : d.leaf? l = some e ↔ d.at? l = some e ∧ e.isDirectory = false := by
  rw [leaf?, Option.filter_eq_some_iff, Bool.not_eq_true']

theorem hasDirectory_iff : d.hasDirectory l = true ↔ ∃ es, d.at? l = some (.directory es) := by
  rw [hasDirectory, Option.any_eq_true]
  constructor
  · rintro ⟨e, he, hdirectory⟩
    cases e with
    | directory es => exact ⟨es, he⟩
    | file => cases hdirectory
    | link => cases hdirectory
  · rintro ⟨es, hes⟩
    exact ⟨_, hes, rfl⟩

theorem leaf?_eq_none_of_hasDirectory (h : d.hasDirectory l = true) : d.leaf? l = none := by
  obtain ⟨es, hes⟩ := hasDirectory_iff.mp h
  rw [leaf?, hes]
  rfl

/-- The way to anything leads through directories. -/
theorem hasDirectory_of_at?_append {m : Location} (hm : m ≠ []) (h : d.at? (l ++ m) = some e) :
    d.hasDirectory l = true := by
  obtain ⟨name, rest, rfl⟩ := List.exists_cons_of_ne_nil hm
  rw [Entry.at?_append] at h
  obtain ⟨inner, hinner, hrest⟩ := Option.bind_eq_some_iff.mp h
  rw [hasDirectory, hinner, Option.any_some]
  exact Entry.isDirectory_of_at?_cons hrest

/-- Nothing is below a location at which there is no directory. -/
theorem at?_append_eq_none {m : Location} (hm : m ≠ []) (h : d.hasDirectory l = false) :
    d.at? (l ++ m) = none := by
  cases hat : d.at? (l ++ m) with
  | none => rfl
  | some e =>
    rw [hasDirectory_of_at?_append hm hat] at h
    exact Bool.noConfusion h

theorem at?_cons_of_isDirectory_eq_false {rest : Location} (he : e.isDirectory = false) :
    e.at? (name :: rest) = none :=
  at?_append_eq_none (l := []) (List.cons_ne_nil _ _) he

/-- An entry that is put into a directory changes nothing beside it: a location that is neither at
nor below the entry is a directory on the way to it, or what is there is as before. -/
theorem at?_put_beside (new : Entry) (hdirectory : d.hasDirectory directory = true)
    (hbeside : ∀ m, l ≠ directory ++ name :: m) :
    (hasDirectory (d.put (directory ++ [name]) new) l = true ∧ d.hasDirectory l = true) ∨
      (d.put (directory ++ [name]) new).at? l = d.at? l := by
  induction directory generalizing d l with
  | nil =>
    cases l with
    | nil => exact .inl ⟨rfl, hdirectory⟩
    | cons first rest =>
      have hfirst : first ≠ name := fun heq ↦ hbeside rest (by rw [heq, List.nil_append])
      refine .inr ?_
      rw [List.nil_append, Entry.at?_cons, Entry.at?_cons, Entry.child?_put, if_neg hfirst]
  | cons step directory ih =>
    obtain ⟨es, hes⟩ := hasDirectory_iff.mp hdirectory
    cases l with
    | nil => exact .inl ⟨rfl, Entry.isDirectory_of_at?_cons hes⟩
    | cons first rest =>
      rw [hasDirectory, hasDirectory, List.cons_append, Entry.at?_cons, Entry.at?_cons,
        Entry.child?_put]
      by_cases hfirst : first = step
      · subst hfirst
        rw [Entry.at?_cons] at hes
        obtain ⟨child, hchild, hat⟩ := Option.bind_eq_some_iff.mp hes
        rw [if_pos rfl, hchild, Option.getD_some, Option.bind_some, Option.bind_some]
        exact ih (d := child) (l := rest) (hasDirectory_iff.mpr ⟨es, hat⟩) fun m hm ↦
          hbeside m (by rw [hm, List.cons_append])
      · exact .inr (by rw [if_neg hfirst])

theorem at?_put_below (d : Disk) (directory : Location) (name : Text) (new : Entry) (m : Location) :
    (d.put (directory ++ [name]) new).at? (directory ++ name :: m) = new.at? m := by
  rw [List.append_cons directory name m, Entry.at?_put_append]

section Put

variable (hdirectory : d.hasDirectory directory = true)
include hdirectory

/-- A leaf that is put into a directory, in the place of no directory, changes the one leaf. -/
theorem leaf?_put (hplace : d.hasDirectory (directory ++ [name]) = false)
    (he : e.isDirectory = false) :
    leaf? (d.put (directory ++ [name]) e) l = if l = directory ++ [name] then some e
      else d.leaf? l := by
  by_cases hbelow : ∃ m, l = directory ++ name :: m
  · obtain ⟨m, rfl⟩ := hbelow
    rw [leaf?, at?_put_below]
    cases m with
    | nil => rw [if_pos rfl, Entry.at?_nil, Option.filter_some, he, Bool.not_false, if_pos rfl]
    | cons next rest =>
      rw [if_neg (by simp), at?_cons_of_isDirectory_eq_false he, leaf?, List.append_cons,
        at?_append_eq_none (List.cons_ne_nil _ _) hplace]
  · rw [if_neg fun hl ↦ hbelow ⟨[], hl⟩]
    rcases at?_put_beside e hdirectory (not_exists.mp hbelow) with ⟨hnew, hold⟩ | hsame
    · rw [leaf?_eq_none_of_hasDirectory hnew, leaf?_eq_none_of_hasDirectory hold]
    · rw [leaf?, hsame, leaf?]

theorem hasDirectory_put (hplace : d.hasDirectory (directory ++ [name]) = false)
    (he : e.isDirectory = false) :
    hasDirectory (d.put (directory ++ [name]) e) l = d.hasDirectory l := by
  by_cases hbelow : ∃ m, l = directory ++ name :: m
  · obtain ⟨m, rfl⟩ := hbelow
    rw [hasDirectory, at?_put_below]
    cases m with
    | nil => rw [hplace, Entry.at?_nil, Option.any_some, he]
    | cons next rest =>
      rw [at?_cons_of_isDirectory_eq_false he, hasDirectory, List.append_cons,
        at?_append_eq_none (List.cons_ne_nil _ _) hplace]
  · rcases at?_put_beside e hdirectory (not_exists.mp hbelow) with ⟨hnew, hold⟩ | hsame
    · rw [hnew, hold]
    · rw [hasDirectory, hsame, hasDirectory]

/-- A directory that is made where nothing was changes no leaf. -/
theorem leaf?_makeDirectory (hplace : d.at? (directory ++ [name]) = none) :
    leaf? (d.put (directory ++ [name]) (.directory [])) l = d.leaf? l := by
  by_cases hbelow : ∃ m, l = directory ++ name :: m
  · obtain ⟨m, rfl⟩ := hbelow
    have hnone : d.at? (directory ++ name :: m) = none := by
      rw [List.append_cons, Entry.at?_append, hplace, Option.bind_none]
    rw [leaf?, leaf?, at?_put_below, hnone]
    cases m with
    | nil => rw [Entry.at?_nil]; rfl
    | cons next rest => rfl
  · rcases at?_put_beside (.directory []) hdirectory (not_exists.mp hbelow) with ⟨hnew, hold⟩ |
      hsame
    · rw [leaf?_eq_none_of_hasDirectory hnew, leaf?_eq_none_of_hasDirectory hold]
    · rw [leaf?, hsame, leaf?]

theorem hasDirectory_makeDirectory (hplace : d.at? (directory ++ [name]) = none) :
    hasDirectory (d.put (directory ++ [name]) (.directory [])) l = true ↔
      d.hasDirectory l = true ∨ l = directory ++ [name] := by
  by_cases hbelow : ∃ m, l = directory ++ name :: m
  · obtain ⟨m, rfl⟩ := hbelow
    have hnone : d.at? (directory ++ name :: m) = none := by
      rw [List.append_cons, Entry.at?_append, hplace, Option.bind_none]
    rw [hasDirectory, hasDirectory, at?_put_below, hnone]
    cases m with
    | nil => simp [Entry.isDirectory]
    | cons next rest => simp [Entry.at?, Entry.child?, Entry.entries]
  · have hne : l ≠ directory ++ [name] := fun hl ↦ hbelow ⟨[], hl⟩
    rw [or_iff_left hne]
    rcases at?_put_beside (.directory []) hdirectory (not_exists.mp hbelow) with ⟨hnew, hold⟩ |
      hsame
    · rw [hnew, hold]
    · rw [hasDirectory, hsame, hasDirectory]

end Put

end Disk

/-! ### Sound disks -/

/-- A disk in which every entry of a directory has a name, and no other entry of the directory has
it. -/
inductive Entry.IsSound : Entry → Prop where
  | file (bytes : List UInt8) : IsSound (.file bytes)
  | link (target : Path) : IsSound (.link target)
  | directory {es : List Named} (nodup : (es.map (·.name)).Nodup)
      (isName : ∀ n ∈ es, Path.IsName n.name) (inner : ∀ n ∈ es, n.entry.IsSound) : IsSound
        (.directory es)

namespace Entry

variable {e new : Entry} {l : Location} {name : Text}

theorem IsSound.empty : (Entry.directory []).IsSound :=
  .directory List.nodup_nil (fun _ hn ↦ (List.not_mem_nil hn).elim) fun _ hn ↦
    (List.not_mem_nil hn).elim

theorem IsSound.entries (h : e.IsSound) : (e.entries.map (·.name)).Nodup ∧
    ∀ n ∈ e.entries, Path.IsName n.name ∧ n.entry.IsSound := by
  cases h with
  | file => exact ⟨List.nodup_nil, fun _ hn ↦ (List.not_mem_nil hn).elim⟩
  | link => exact ⟨List.nodup_nil, fun _ hn ↦ (List.not_mem_nil hn).elim⟩
  | directory nodup isName inner => exact ⟨nodup, fun n hn ↦ ⟨isName n hn, inner n hn⟩⟩

/-- The entry that is found under a name has this name. -/
theorem name_of_find? {es : List Named} {n : Named} (h : es.find? (·.name == name) = some n) :
    n.name = name := by
  have hname := List.find?_some h
  rwa [beq_iff_eq] at hname

theorem mem_entries_of_child? {inner : Entry} (h : e.child? name = some inner) :
    ⟨name, inner⟩ ∈ e.entries := by
  obtain ⟨⟨found, inner⟩, hfind, rfl⟩ := Option.map_eq_some_iff.mp h
  obtain rfl : found = name := name_of_find? hfind
  exact List.mem_of_find?_eq_some hfind

/-- In a sound directory, every entry is found under its name. -/
theorem IsSound.child?_of_mem (h : e.IsSound) {n : Named} (hn : n ∈ e.entries) :
    e.child? n.name = some n.entry := by
  have hfound : (e.entries.find? (·.name == n.name)).isSome = true :=
    List.find?_isSome.mpr ⟨n, hn, beq_iff_eq.mpr rfl⟩
  obtain ⟨m, hm⟩ := Option.isSome_iff_exists.mp hfound
  rw [child?, hm,
    List.inj_on_of_nodup_map h.entries.1 (List.mem_of_find?_eq_some hm) hn (name_of_find? hm)]
  rfl

theorem IsSound.of_child? (h : e.IsSound) {inner : Entry} (hchild : e.child? name = some inner) :
    Path.IsName name ∧ inner.IsSound :=
  h.entries.2 _ (mem_entries_of_child? hchild)

theorem IsSound.of_at? (h : e.IsSound) {inner : Entry} (hat : e.at? l = some inner) :
    (∀ name ∈ l, Path.IsName name) ∧ inner.IsSound := by
  induction l generalizing e with
  | nil =>
    obtain rfl := Option.some.inj ((at?_nil e).symm.trans hat)
    exact ⟨fun _ hname ↦ (List.not_mem_nil hname).elim, h⟩
  | cons name rest ih =>
    rw [at?_cons] at hat
    obtain ⟨child, hchild, hrest⟩ := Option.bind_eq_some_iff.mp hat
    obtain ⟨hname, hsound⟩ := h.of_child? hchild
    obtain ⟨hnames, hinner⟩ := ih hsound hrest
    exact ⟨List.forall_mem_cons.mpr ⟨hname, hnames⟩, hinner⟩

theorem names_update (es : List Named) (f : Option Entry → Entry) :
    (Named.update name f es).map (·.name) =
      if name ∈ es.map (·.name) then es.map (·.name) else es.map (·.name) ++ [name] := by
  induction es with
  | nil => rfl
  | cons first rest ih =>
    rw [Named.update]
    by_cases hfirst : first.name = name
    · simp [hfirst]
    · simp only [beq_iff_eq, hfirst, if_false, List.map_cons, ih, List.mem_cons,
        Ne.symm hfirst, false_or]
      split_ifs <;> rfl

/-- An updated entry is one of those before, or has the name and what the update gives to it. -/
theorem forall_mem_update {P : Named → Prop} {es : List Named} {f : Option Entry → Entry}
    (hes : ∀ n ∈ es, P n) (hnew : P ⟨name, f none⟩) (hold : ∀ n ∈ es, P ⟨name, f (some n.entry)⟩) :
    ∀ n ∈ Named.update name f es, P n := by
  induction es with
  | nil => exact List.forall_mem_singleton.mpr hnew
  | cons first rest ih =>
    rw [List.forall_mem_cons] at hes hold
    rw [Named.update]
    split_ifs
    · exact List.forall_mem_cons.mpr ⟨hold.1, hes.2⟩
    · exact List.forall_mem_cons.mpr ⟨hes.1, ih hes.2 hold.2⟩

/-- Putting a sound entry at a location made of names keeps a disk sound. -/
theorem IsSound.put (h : e.IsSound) (hnew : new.IsSound) (hl : ∀ name ∈ l, Path.IsName name) :
    (e.put l new).IsSound := by
  induction l generalizing e with
  | nil => rwa [Entry.put]
  | cons name rest ih =>
    rw [List.forall_mem_cons] at hl
    obtain ⟨hnodup, hentries⟩ := h.entries
    have hupdated : ∀ n ∈
      Named.update name (fun old ↦ Entry.put (old.getD (.directory [])) rest new) e.entries,
        Path.IsName n.name ∧ n.entry.IsSound :=
      forall_mem_update hentries ⟨hl.1, ih .empty hl.2⟩ fun n hn ↦ ⟨hl.1, ih (hentries n hn).2 hl.2⟩
    rw [Entry.put]
    refine .directory ?_ (fun n hn ↦ (hupdated n hn).1) fun n hn ↦ (hupdated n hn).2
    rw [names_update]
    split_ifs with hmem
    · exact hnodup
    · exact List.nodup_append_comm.mpr (List.nodup_cons.mpr ⟨hmem, hnodup⟩)

end Entry

end Declutter
