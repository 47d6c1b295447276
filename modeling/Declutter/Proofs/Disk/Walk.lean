import Declutter.Proofs.Disk.Entry
/-!
Where paths lead. What happens on the way is described once, step by step (`Disk.Leads`). A path
that leads somewhere goes on leading there as long as directories and links stay
(`Disk.Extends.find?`). Below the place to which a path leads, the names of entries lead to the
entries (`Disk.find?_ofSimple_append`), and the name of nothing leads nowhere
(`Disk.find?_ofSimple_concat_of_none`).
-/

set_option autoImplicit false
set_option relaxedAutoImplicit false

namespace Declutter

namespace Disk

variable {d d' : Disk} {jump : Location → List Text → Option Location} {here l : Location}
  {pieces rest : List Text} {piece name : Text} {e : Entry}

/-! ### What is at a location -/

theorem leaf?_eq_of_at? (h : d.at? l = some e) (he : e.isDirectory = false) : d.leaf? l = some e :=
  leaf?_eq_some_iff.mpr ⟨h, he⟩

theorem at?_of_leaf? (h : d.leaf? l = some e) : d.at? l = some e := (leaf?_eq_some_iff.mp h).1

/-- A leaf is in a directory. -/
theorem exists_directory_of_leaf? (hroot : d.isDirectory = true) (h : d.leaf? l = some e) :
    ∃ directory name, l = directory ++ [name] ∧ d.hasDirectory directory = true := by
  obtain ⟨hat, hleaf⟩ := leaf?_eq_some_iff.mp h
  have hne : l ≠ [] := by
    rintro rfl
    obtain rfl := Option.some.inj ((Entry.at?_nil d).symm.trans hat)
    exact Bool.noConfusion (hleaf.symm.trans hroot)
  refine ⟨l.dropLast, l.getLast hne, (List.dropLast_append_getLast hne).symm, ?_⟩
  rw [← List.dropLast_append_getLast hne] at hat
  exact hasDirectory_of_at?_append (List.cons_ne_nil _ _) hat

theorem bytes?_eq_some_iff {base : Location} {p : Path} {bytes : List UInt8} :
    d.bytes? base p = some bytes ↔ ∃ l, d.find? base p = some l ∧
    d.leaf? l = some (.file bytes) := by
  have hread : d.bytes? base p = some bytes ↔ d.read? base p = some (.file bytes) := by
    rw [bytes?]
    split
    · next read hread => rw [hread, Option.some_inj, Option.some_inj, Entry.file.injEq]
    · next hother => exact iff_of_false (fun h ↦ nomatch h) (hother bytes)
  rw [hread, read?, Option.bind_eq_some_iff]
  exact exists_congr fun l ↦ and_congr_right fun _ ↦
    ⟨fun h ↦ leaf?_eq_of_at? h rfl, at?_of_leaf?⟩

/-! ### Steps of a walk -/

section Steps

variable (jump)

theorem walk_cons : walk jump d here (piece :: rest) =
    if d.hasDirectory here = true then
      if piece = [] ∨ piece = "." then walk jump d here rest
      else if piece = ".." then walk jump d here.dropLast rest
      else
        match d.at? (here ++ [piece]) with
        | some (.link target) =>
          jump (if target.isAbsolute then [] else here) (target.pieces ++ rest)
        | some _ => walk jump d (here ++ [piece]) rest
        | none => none
    else none := by
  rw [walk]
  rfl

theorem hasDirectory_of_walk (h : walk jump d here (piece :: rest) = some l) :
    d.hasDirectory here = true := by
  rw [walk_cons] at h
  by_contra hnot
  rw [if_neg hnot] at h
  cases h

variable (hhere : d.hasDirectory here = true)
include hhere

theorem walk_skip (hpiece : piece = [] ∨ piece = ".") :
    walk jump d here (piece :: rest) = walk jump d here rest := by
  rw [walk_cons, if_pos hhere, if_pos hpiece]

theorem walk_up : walk jump d here (".." :: rest) = walk jump d here.dropLast rest := by
  rw [walk_cons, if_pos hhere, if_neg (by decide), if_pos rfl]

variable (hskip : ¬ (piece = [] ∨ piece = ".")) (hup : piece ≠ "..")
include hskip hup

theorem walk_link {target : Path} (h : d.leaf? (here ++ [piece]) = some (.link target)) :
    walk jump d here (piece :: rest) =
      jump (if target.isAbsolute then [] else here) (target.pieces ++ rest) := by
  rw [walk_cons, if_pos hhere, if_neg hskip, if_neg hup, at?_of_leaf? h]

theorem walk_down (h : d.at? (here ++ [piece]) = some e) (he : ∀ target, e ≠ .link target) :
    walk jump d here (piece :: rest) = walk jump d (here ++ [piece]) rest := by
  rw [walk_cons, if_pos hhere, if_neg hskip, if_neg hup, h]
  cases e with
  | link target => exact absurd rfl (he target)
  | file => rfl
  | directory => rfl

theorem walk_nowhere (h : d.at? (here ++ [piece]) = none) :
    walk jump d here (piece :: rest) = none := by
  rw [walk_cons, if_pos hhere, if_neg hskip, if_neg hup, h]

end Steps

/-- A walk with some number of links is a walk. -/
theorem exists_walk_eq_trace (d : Disk) (links : Nat) : ∃ jump, trace d links = walk jump d := by
  cases links with
  | zero => exact ⟨_, rfl⟩
  | succ links => exact ⟨_, rfl⟩

/-! ### Ways -/

/-- The pieces of a path lead from a location to `l` through at most so many links, of which `left`
are left over. Each piece leaves the walk where it is, or takes it up, through a link or down. -/
inductive Leads (d : Disk) (l : Location) (left : Nat) :
    (links : Nat) → Location → List Text → Prop where
  | arrive : Leads d l left left l []
  | stay {links : Nat} {here : Location} {piece : Text} {rest : List Text}
      (directory : d.hasDirectory here = true) (skip : piece = [] ∨ piece = ".")
      (further : Leads d l left links here rest) : Leads d l left links here (piece :: rest)
  | climb {links : Nat} {here : Location} {rest : List Text}
      (directory : d.hasDirectory here = true)
        (further : Leads d l left links here.dropLast rest) : Leads d l left links here
          (".." :: rest)
  | follow {links : Nat} {here : Location} {piece : Text} {rest : List Text} {target : Path}
      (directory : d.hasDirectory here = true) (skip : ¬ (piece = [] ∨ piece = "."))
        (up : piece ≠ "..")
      (link : d.leaf? (here ++ [piece]) = some (.link target))
      (further : Leads d l left links (if target.isAbsolute then [] else here)
        (target.pieces ++ rest)) :
      Leads d l left (links + 1) here (piece :: rest)
  | descend {links : Nat} {here : Location} {piece : Text} {rest : List Text} {e : Entry}
      (directory : d.hasDirectory here = true) (skip : ¬ (piece = [] ∨ piece = "."))
        (up : piece ≠ "..")
      (found : d.at? (here ++ [piece]) = some e) (notLink : ∀ target, e ≠ .link target)
      (further : Leads d l left links (here ++ [piece]) rest) : Leads d l left links here
        (piece :: rest)

theorem exists_leads_of_walk {links : Nat}
    (hjump : ∀ here pieces, jump here pieces = some l → ∃ left fewer, links = fewer + 1 ∧
      Leads d l left fewer here pieces)
    (h : walk jump d here pieces = some l) : ∃ left, Leads d l left links here pieces := by
  induction pieces generalizing here with
  | nil =>
    obtain rfl := Option.some.inj h
    exact ⟨links, .arrive⟩
  | cons piece rest ih =>
    have hhere := hasDirectory_of_walk jump h
    by_cases hskip : piece = [] ∨ piece = "."
    · rw [walk_skip jump hhere hskip] at h
      exact (ih h).imp fun left hleft ↦ .stay hhere hskip hleft
    by_cases hup : piece = ".."
    · subst hup
      rw [walk_up jump hhere] at h
      exact (ih h).imp fun left hleft ↦ .climb hhere hleft
    cases hat : d.at? (here ++ [piece]) with
    | none =>
      rw [walk_nowhere jump hhere hskip hup hat] at h
      cases h
    | some e =>
      by_cases hlink : ∃ target, e = .link target
      · obtain ⟨target, rfl⟩ := hlink
        have hleaf := leaf?_eq_of_at? hat rfl
        rw [walk_link jump hhere hskip hup hleaf] at h
        obtain ⟨left, fewer, rfl, hleft⟩ := hjump _ _ h
        exact ⟨left, .follow hhere hskip hup hleaf hleft⟩
      · have hnot := not_exists.mp hlink
        rw [walk_down jump hhere hskip hup hat hnot] at h
        exact (ih h).imp fun left hleft ↦ .descend hhere hskip hup hat hnot hleft

/-- Where a path leads, there is a way. -/
theorem exists_leads_of_trace {links : Nat} (h : trace d links here pieces = some l) :
    ∃ left, Leads d l left links here pieces := by
  induction links generalizing here pieces with
  | zero => exact exists_leads_of_walk (fun _ _ hnone ↦ (Option.some_ne_none l hnone.symm).elim) h
  | succ links ih =>
    exact exists_leads_of_walk (fun _ _ hjump ↦ (ih hjump).imp fun left hleft ↦ ⟨links, rfl, hleft⟩)
      h

namespace Leads

variable {left links : Nat}

/-- Further pieces are followed from where the way ends, with the links that are left over. -/
theorem trace_append (h : Leads d l left links here pieces) (more : List Text) :
    trace d links here (pieces ++ more) = trace d left l more := by
  induction h with
  | arrive => rw [List.nil_append]
  | @stay links _ _ _ hhere hskip _ ih =>
    obtain ⟨jump, hjump⟩ := exists_walk_eq_trace d links
    rw [← ih, hjump]
    exact walk_skip jump hhere hskip
  | @climb links _ _ hhere _ ih =>
    obtain ⟨jump, hjump⟩ := exists_walk_eq_trace d links
    rw [← ih, hjump]
    exact walk_up jump hhere
  | @follow links _ _ _ _ hhere hskip hup hlink _ ih =>
    rw [← ih, List.append_assoc]
    exact walk_link (trace d links) hhere hskip hup hlink
  | @descend links _ _ _ _ hhere hskip hup hat hnot _ ih =>
    obtain ⟨jump, hjump⟩ := exists_walk_eq_trace d links
    rw [← ih, hjump]
    exact walk_down jump hhere hskip hup hat hnot

theorem trace_eq (h : Leads d l left links here pieces) : trace d links here pieces = some l := by
  obtain ⟨jump, hjump⟩ := exists_walk_eq_trace d left
  have htrace := h.trace_append []
  rwa [List.append_nil, hjump, walk] at htrace

/-- A way along a longer path passes the end of the shorter one. -/
theorem split {more : List Text} (h : Leads d l left links here (pieces ++ more)) :
    ∃ place fewer, Leads d place fewer links here pieces ∧ Leads d l left fewer place more := by
  generalize hall : pieces ++ more = all at h
  induction h generalizing pieces with
  | arrive =>
    obtain ⟨rfl, rfl⟩ := List.append_eq_nil_iff.mp hall
    exact ⟨_, _, .arrive, .arrive⟩
  | stay hhere hskip hfurther ih =>
    rcases List.append_eq_cons_iff.mp hall with ⟨rfl, rfl⟩ | ⟨pieces, rfl, hrest⟩
    · exact ⟨_, _, .arrive, .stay hhere hskip hfurther⟩
    · obtain ⟨place, fewer, hplace, hmore⟩ := ih hrest.symm
      exact ⟨place, fewer, .stay hhere hskip hplace, hmore⟩
  | climb hhere hfurther ih =>
    rcases List.append_eq_cons_iff.mp hall with ⟨rfl, rfl⟩ | ⟨pieces, rfl, hrest⟩
    · exact ⟨_, _, .arrive, .climb hhere hfurther⟩
    · obtain ⟨place, fewer, hplace, hmore⟩ := ih hrest.symm
      exact ⟨place, fewer, .climb hhere hplace, hmore⟩
  | follow hhere hskip hup hlink hfurther ih =>
    rcases List.append_eq_cons_iff.mp hall with ⟨rfl, rfl⟩ | ⟨pieces, rfl, hrest⟩
    · exact ⟨_, _, .arrive, .follow hhere hskip hup hlink hfurther⟩
    · obtain ⟨place, fewer, hplace, hmore⟩ := ih (by rw [hrest, List.append_assoc])
      exact ⟨place, fewer, .follow hhere hskip hup hlink hplace, hmore⟩
  | descend hhere hskip hup hat hnot hfurther ih =>
    rcases List.append_eq_cons_iff.mp hall with ⟨rfl, rfl⟩ | ⟨pieces, rfl, hrest⟩
    · exact ⟨_, _, .arrive, .descend hhere hskip hup hat hnot hfurther⟩
    · obtain ⟨place, fewer, hplace, hmore⟩ := ih hrest.symm
      exact ⟨place, fewer, .descend hhere hskip hup hat hnot hplace, hmore⟩

/-- The way to a name ends at an entry of the name. -/
theorem exists_of_name (h : Leads d l left links here [name]) (hname : Path.IsName name) :
    d.hasDirectory here = true ∧ ∃ e, d.at? (here ++ [name]) = some e := by
  have hskip := not_or.mpr ⟨hname.ne_nil, hname.ne_dot⟩
  cases h with
  | stay _ hstay => exact absurd hstay hskip
  | climb => exact absurd rfl hname.ne_dots
  | follow hhere _ _ hlink => exact ⟨hhere, _, at?_of_leaf? hlink⟩
  | descend hhere _ _ hat => exact ⟨hhere, _, hat⟩

end Leads

theorem hasDirectory_dropLast (h : d.hasDirectory here = true) :
    d.hasDirectory here.dropLast = true := by
  by_cases hne : here = []
  · rwa [hne] at h ⊢
  · obtain ⟨es, hes⟩ := hasDirectory_iff.mp h
    rw [← List.dropLast_append_getLast hne] at hes
    exact hasDirectory_of_at?_append (List.cons_ne_nil _ _) hes

/-- What a way leads to is there, and is no link, if the way starts at such a place. -/
theorem Leads.exists_entry {left links : Nat} (hroot : d.isDirectory = true)
    (h : Leads d l left links here pieces)
    (hhere : ∃ e, d.at? here = some e ∧ ∀ target, e ≠ .link target) :
    ∃ e, d.at? l = some e ∧ ∀ target, e ≠ .link target := by
  have hdirectory : ∀ {here : Location}, d.hasDirectory here = true →
      ∃ e, d.at? here = some e ∧ ∀ target, e ≠ .link target := fun h ↦ by
    obtain ⟨es, hes⟩ := hasDirectory_iff.mp h
    exact ⟨_, hes, Entry.directory_ne_link es⟩
  induction h with
  | arrive => exact hhere
  | stay _ _ _ ih => exact ih hhere
  | climb hup _ ih => exact ih (hdirectory (hasDirectory_dropLast hup))
  | follow hfrom _ _ _ _ ih =>
    refine ih ?_
    split_ifs
    · exact hdirectory hroot
    · exact hdirectory hfrom
  | descend _ _ _ hat hnot _ ih => exact ih ⟨_, hat, hnot⟩

theorem exists_of_leadsToDirectory {base : Location} {p : Path}
    (h : d.leadsToDirectory base p = true) :
    ∃ place es, d.find? base p = some place ∧ d.at? place = some (.directory es) := by
  rw [leadsToDirectory, read?] at h
  cases hfind : d.find? base p with
  | none =>
    rw [hfind] at h
    cases h
  | some place =>
    rw [hfind, Option.bind_some] at h
    obtain ⟨es, hes⟩ := hasDirectory_iff.mp h
    exact ⟨place, es, rfl, hes⟩

/-- An absolute path that leads somewhere, and not to a directory, leads to a file. -/
theorem exists_file_of_find? {base : Location} {p : Path} (hroot : d.isDirectory = true)
    (habsolute : p.isAbsolute = true) (h : d.find? base p = some l)
    (hnot : d.leadsToDirectory base p = false) : ∃ bytes, d.leaf? l = some (.file bytes) := by
  rw [find?, if_pos habsolute] at h
  have hhere : d.hasDirectory [] = true := hroot
  obtain ⟨es, hes⟩ := hasDirectory_iff.mp hhere
  obtain ⟨left, hleads⟩ := exists_leads_of_trace h
  obtain ⟨e, hat, hlink⟩ := hleads.exists_entry hroot ⟨_, hes, Entry.directory_ne_link es⟩
  rw [leadsToDirectory, read?, find?, if_pos habsolute, h, Option.bind_some, hat, Option.any_some]
    at hnot
  cases e with
  | file bytes => exact ⟨bytes, leaf?_eq_of_at? hat rfl⟩
  | link target => exact absurd rfl (hlink target)
  | directory => cases hnot

/-! ### Disks that extend each other -/

/-- The disk `d'` has what `d` has, in the same places: its directories and links as they are, and
its files, with the same bytes or with others. -/
structure Extends (d d' : Disk) : Prop where
  directory : ∀ l, d.hasDirectory l = true → d'.hasDirectory l = true
  link : ∀ l target, d.leaf? l = some (.link target) → d'.leaf? l = some (.link target)
  file : ∀ l bytes, d.leaf? l = some (.file bytes) → ∃ bytes', d'.leaf? l = some (.file bytes')

/-- A location at which there is neither a directory nor a leaf is vacant. -/
theorem at?_eq_none (hdirectory : d.hasDirectory l = false) (hleaf : d.leaf? l = none) :
    d.at? l = none := by
  cases hat : d.at? l with
  | none => rfl
  | some e =>
    rw [hasDirectory, hat, Option.any_some] at hdirectory
    rw [leaf?_eq_of_at? hat hdirectory] at hleaf
    cases hleaf

theorem leaf?_eq_none_of_at? (h : d.at? l = none) : d.leaf? l = none := by
  rw [leaf?, h, Option.filter_none]

theorem hasDirectory_eq_false_of_at? (h : d.at? l = none) : d.hasDirectory l = false := by
  rw [hasDirectory, h, Option.any_none]

theorem hasDirectory_eq_false_of_leaf? (h : d.leaf? l = some e) : d.hasDirectory l = false := by
  obtain ⟨hat, he⟩ := leaf?_eq_some_iff.mp h
  rw [hasDirectory, hat, Option.any_some, he]

namespace Extends

theorem refl (d : Disk) : Extends d d := ⟨fun _ h ↦ h, fun _ _ h ↦ h, fun _ bytes h ↦ ⟨bytes, h⟩⟩

theorem trans {d'' : Disk} (h : Extends d d') (h' : Extends d' d'') : Extends d d'' where
  directory l hl := h'.directory l (h.directory l hl)
  link l target hl := h'.link l target (h.link l target hl)
  file l bytes hl := by
    obtain ⟨bytes', hbytes'⟩ := h.file l bytes hl
    exact h'.file l bytes' hbytes'

theorem isDirectory (h : Extends d d') (hroot : d.isDirectory = true) : d'.isDirectory = true :=
  h.directory [] hroot

/-- What is there and is no link is there in a disk that extends it, and is no link. -/
theorem at?_of_not_link (h : Extends d d') (hat : d.at? l = some e)
    (he : ∀ target, e ≠ .link target) :
    ∃ e', d'.at? l = some e' ∧ ∀ target, e' ≠ .link target := by
  cases e with
  | link target => exact absurd rfl (he target)
  | file bytes =>
    obtain ⟨bytes', hbytes'⟩ := h.file l bytes (leaf?_eq_of_at? hat rfl)
    exact ⟨_, at?_of_leaf? hbytes', Entry.file_ne_link bytes'⟩
  | directory es =>
    obtain ⟨es', hes'⟩ := hasDirectory_iff.mp (h.directory l (hasDirectory_iff.mpr ⟨es, hat⟩))
    exact ⟨_, hes', Entry.directory_ne_link es'⟩

/-- Where nothing is, nothing was. -/
theorem vacant (h : Extends d d') (hl : d'.at? l = none) : d.at? l = none := by
  have hleaf := leaf?_eq_none_of_at? hl
  refine at?_eq_none (eq_false_of_ne_true fun hdirectory ↦ ?_)
    (Option.eq_none_iff_forall_ne_some.mpr fun e he ↦ ?_)
  · exact Bool.noConfusion ((hasDirectory_eq_false_of_at? hl).symm.trans (h.directory l hdirectory))
  · obtain ⟨hat, hnot⟩ := leaf?_eq_some_iff.mp he
    cases e with
    | link target => exact Option.some_ne_none _ ((h.link l target he).symm.trans hleaf)
    | file bytes =>
      obtain ⟨bytes', hbytes'⟩ := h.file l bytes he
      exact Option.some_ne_none _ (hbytes'.symm.trans hleaf)
    | directory => cases hnot

/-- A way through a disk is a way through every disk that extends it. -/
theorem leads {left links : Nat} (h : Extends d d') (hleads : Leads d l left links here pieces) :
    Leads d' l left links here pieces := by
  induction hleads with
  | arrive => exact .arrive
  | stay hhere hskip _ ih => exact .stay (h.directory _ hhere) hskip ih
  | climb hhere _ ih => exact .climb (h.directory _ hhere) ih
  | follow hhere hskip hup hlink _ ih =>
    exact .follow (h.directory _ hhere) hskip hup (h.link _ _ hlink) ih
  | descend hhere hskip hup hat hnot _ ih =>
    obtain ⟨e', hat', hnot'⟩ := h.at?_of_not_link hat hnot
    exact .descend (h.directory _ hhere) hskip hup hat' hnot' ih

/-- A path that leads somewhere leads there in every disk that extends the disk. -/
theorem find? {base : Location} {p : Path} (h : Extends d d') (hfind : d.find? base p = some l) :
    d'.find? base p = some l := by
  obtain ⟨left, hleads⟩ := exists_leads_of_trace hfind
  exact (h.leads hleads).trace_eq

theorem isPresent {base : Location} {p : Path} (h : Extends d d')
    (hp : d'.isPresent base p = false) :
    d.isPresent base p = false := by
  cases hfind : d.find? base p with
  | none => rw [Disk.isPresent, hfind, Option.isSome_none]
  | some l =>
    rw [Disk.isPresent, h.find? hfind] at hp
    cases hp

end Extends

/-! ### Writing a file -/

section Overwrite

variable {bytes new : List UInt8} (hroot : d.isDirectory = true)
  (h : d.leaf? l = some (.file bytes))
include hroot h

theorem leaf?_overwrite {m : Location} :
    leaf? (d.put l (.file new)) m = if m = l then some (.file new) else d.leaf? m := by
  obtain ⟨directory, name, rfl, hdirectory⟩ := exists_directory_of_leaf? hroot h
  exact leaf?_put hdirectory (hasDirectory_eq_false_of_leaf? h) rfl

theorem hasDirectory_overwrite {m : Location} :
    hasDirectory (d.put l (.file new)) m = d.hasDirectory m := by
  obtain ⟨directory, name, rfl, hdirectory⟩ := exists_directory_of_leaf? hroot h
  exact hasDirectory_put hdirectory (hasDirectory_eq_false_of_leaf? h) rfl

/-- A disk on which a file is written extends the disk. -/
theorem extends_overwrite : Extends d (d.put l (.file new)) where
  directory m hm := (hasDirectory_overwrite hroot h).trans hm
  link m target hm := by
    have hne : m ≠ l := by
      rintro rfl
      cases hm.symm.trans h
    rw [leaf?_overwrite hroot h, if_neg hne, hm]
  file m bytes' hm := by
    rw [leaf?_overwrite hroot h]
    split_ifs
    · exact ⟨new, rfl⟩
    · exact ⟨bytes', hm⟩

end Overwrite

theorem isSound_overwrite {bytes : List UInt8} (hsound : d.IsSound) (h : d.leaf? l = some e) :
    (d.put l (.file bytes)).IsSound :=
  hsound.put (.file bytes) (hsound.of_at? (at?_of_leaf? h)).1

/-! ### Longer paths -/

section Longer

variable {k : Nat} {more names segments : List Text} {base place : Location}

/-- The names of entries, followed from a directory, lead to the last of them. -/
theorem trace_names (hnames : ∀ name ∈ names, Path.IsName name)
    (hat : d.at? (here ++ names) = some e) (he : ∀ target, e ≠ .link target) :
    trace d k here names = some (here ++ names) := by
  obtain ⟨jump, hjump⟩ := exists_walk_eq_trace d k
  rw [hjump]
  induction names generalizing here with
  | nil => rw [walk, List.append_nil]
  | cons name rest ih =>
    rw [List.forall_mem_cons] at hnames
    have hskip := not_or.mpr ⟨hnames.1.ne_nil, hnames.1.ne_dot⟩
    have hhere := hasDirectory_of_at?_append (List.cons_ne_nil _ _) hat
    rw [List.append_cons] at hat ⊢
    obtain ⟨next, hnext, hnot⟩ : ∃ next, d.at? (here ++ [name]) = some next ∧
        ∀ target, next ≠ .link target := by
      by_cases hrest : rest = []
      · rw [hrest, List.append_nil] at hat
        exact ⟨e, hat, he⟩
      · obtain ⟨es, hes⟩ := hasDirectory_iff.mp (hasDirectory_of_at?_append hrest hat)
        exact ⟨_, hes, Entry.directory_ne_link es⟩
    rw [walk_down jump hhere hskip hnames.1.ne_dots hnext hnot, ih hnames.2 hat]

/-- The name of nothing leads nowhere. -/
theorem trace_name_of_none (hname : Path.IsName name) (hhere : d.hasDirectory here = true)
    (hat : d.at? (here ++ [name]) = none) : trace d k here [name] = none := by
  obtain ⟨jump, hjump⟩ := exists_walk_eq_trace d k
  rw [hjump]
  exact walk_nowhere jump hhere (not_or.mpr ⟨hname.ne_nil, hname.ne_dot⟩) hname.ne_dots hat

/-- The location from which a path is seen, where `base` is the working directory. -/
def origin (absolute : Bool) (base : Location) : Location := if absolute then [] else base

section Simple

variable {absolute : Bool} (hhere : d.hasDirectory (origin absolute base) = true)
  (hsegments : Path.IsSimple absolute segments)
include hhere hsegments

theorem find?_ofSimple : d.find? base (Path.ofSimple absolute segments) =
    trace d mostLinks (origin absolute base) segments := by
  obtain ⟨jump, hjump⟩ := exists_walk_eq_trace d mostLinks
  rw [find?, Path.isAbsolute_ofSimple hsegments, hjump]
  by_cases hne : segments = []
  · subst hne
    cases absolute with
    | true => exact (walk_skip jump hhere (.inl rfl)).trans (walk_skip jump hhere (.inl rfl))
    | false => exact walk_skip jump hhere (.inr rfl)
  · rw [Path.pieces_ofSimple hsegments hne]
    cases absolute with
    | true => exact walk_skip jump hhere (.inl rfl)
    | false => rfl

theorem find?_ofSimple_append (hnames : ∀ name ∈ names, Path.IsName name)
    (hplace : d.find? base (Path.ofSimple absolute segments) = some place)
    (hat : d.at? (place ++ names) = some e) (he : ∀ target, e ≠ .link target) :
    d.find? base (Path.ofSimple absolute (segments ++ names)) = some (place ++ names) := by
  rw [find?_ofSimple hhere hsegments] at hplace
  obtain ⟨left, hleads⟩ := exists_leads_of_trace hplace
  rw [find?_ofSimple hhere (hsegments.append hnames), hleads.trace_append,
    trace_names hnames hat he]

theorem find?_ofSimple_concat_of_none (hname : Path.IsName name)
    (hplace : d.find? base (Path.ofSimple absolute segments) = some place)
    (hdirectory : d.hasDirectory place = true) (hat : d.at? (place ++ [name]) = none) :
    d.find? base (Path.ofSimple absolute (segments ++ [name])) = none := by
  rw [find?_ofSimple hhere hsegments] at hplace
  obtain ⟨left, hleads⟩ := exists_leads_of_trace hplace
  rw [find?_ofSimple hhere (hsegments.append (List.forall_mem_singleton.mpr hname)),
    hleads.trace_append, trace_name_of_none hname hdirectory hat]

/-- The path of a name in a directory leads to an entry of the name, if it leads anywhere. -/
theorem exists_of_find?_ofSimple_concat (hname : Path.IsName name)
    (h : d.find? base (Path.ofSimple absolute (segments ++ [name])) = some l) :
    ∃ place, d.find? base (Path.ofSimple absolute segments) = some place ∧
    d.hasDirectory place = true ∧
      ∃ e, d.at? (place ++ [name]) = some e := by
  rw [find?_ofSimple hhere (hsegments.append (List.forall_mem_singleton.mpr hname))] at h
  obtain ⟨left, hleads⟩ := exists_leads_of_trace h
  obtain ⟨place, fewer, hplace, hrest⟩ := hleads.split
  exact ⟨place, by rw [find?_ofSimple hhere hsegments, hplace.trace_eq], hrest.exists_of_name hname⟩

end Simple

end Longer

end Disk

end Declutter
