import Declutter.Proofs.Run.Start
/-!
No content of a file is lost by careful runs: runs that are dry or make copies (`Run.IsCareful`).
Within one such run every file whose bytes change has a copy of its own, which is new and holds the
bytes to the end of the run (`Run.Keeps`), whether or not other files could be copied. So any number
of careful runs leave every content somewhere (`Run.keeps_contents`), although the copies of one run
are files like any others for the next.
-/

set_option autoImplicit false
set_option relaxedAutoImplicit false

namespace Declutter

namespace Run

/-- A copy of the given bytes that a run on the disk `d` reports: its path led nowhere before the
run, and leads after it to a place where nothing was and where the bytes are now. -/
structure IsCopy (env : Environment) (d : Disk) (r : Run) (bytes : List UInt8)
    (copy : Path) : Prop where
  reported : copy ∈ r.summary.backups
  absent : d.isPresent env.base copy = false
  held : ∃ place, r.disk.find? env.base copy = some place ∧ d.at? place = none ∧
    r.disk.leaf? place = some (.file bytes)

/-- Whether a run on the disk `d` has changed the bytes of the file at a location. -/
def Changes (d : Disk) (r : Run) (l : Location) (bytes : List UInt8) : Prop :=
  d.leaf? l = some (.file bytes) ∧ r.disk.leaf? l ≠ some (.file bytes)

/-- Every file whose bytes the run has changed has a copy of its own. -/
def Keeps (env : Environment) (d : Disk) (r : Run) : Prop :=
  r.summary.backups.Nodup ∧
    ∃ copyOf : Location → Path,
      (∀ l bytes, Changes d r l bytes → IsCopy env d r bytes (copyOf l)) ∧
      ∀ l l' bytes bytes', Changes d r l bytes → Changes d r l' bytes' →
      copyOf l = copyOf l' → l = l'

/-- A request whose run on the disk is dry or makes copies. The directory for temporary files is
seen from a directory that is there. -/
structure IsCareful (env : Environment) (request : Request) (d : Disk) : Prop where
  temporary : d.hasDirectory (Disk.origin env.temporary.isAbsolute env.base) = true
  keeping : ∀ plan, planOn env request d = .ok plan → plan.dryRun = true ∨ plan.backup = true

/-- The disks that come of a disk by careful runs, one after another. -/
inductive Reaches (d : Disk) : Disk → Prop where
  | refl : Reaches d d
  | run {d' : Disk} (env : Environment) (request : Request) (before : Reaches d d')
      (careful : IsCareful env request d') : Reaches d (start env request d').disk

variable {env : Environment} {request : Request} {plan : Plan} {d d' : Disk} {jobs : List Job}
  {saves : List Save} {r : Run} {l : Location} {bytes : List UInt8}

/-! ### One run -/

/-- A request for a dry run, or for copies, is careful. -/
theorem IsCareful.of_request
    (htemporary : d.hasDirectory (Disk.origin env.temporary.isAbsolute env.base) = true)
    (h : request.dryRun = some true ∨ request.backup = some true) : IsCareful env request d where
  temporary := htemporary
  keeping plan hplan := by
    obtain ⟨-, hdry, hbackup, -⟩ := Plan.of_make hplan
    rcases h with h | h
    · exact .inl (by rw [hdry, h, Option.getD_some])
    · exact .inr (by rw [hbackup, h, Option.getD_some])

theorem keeps_of_disk_eq (hdisk : r.disk = d) (hbackups : r.summary.backups = []) :
    Keeps env d r := by
  have hnone : ∀ {l bytes}, ¬ Changes d r l bytes := fun h ↦ h.2 (hdisk ▸ h.1)
  exact ⟨hbackups ▸ List.nodup_nil, fun _ ↦ [], fun _ _ h ↦ (hnone h).elim,
    fun _ _ _ _ h ↦ (hnone h).elim⟩

namespace Progress

/-- What a run has changed, it has copied. -/
theorem exists_save (h : Progress env plan d jobs saves r) (hjobs : ∀ j ∈ jobs, j.IsOn env d)
    (hkeeping : plan.dryRun = true ∨ plan.backup = true) (hchanges : Changes d r l bytes) :
    ∃ s ∈ saves, s.source.location = l ∧ s.source.bytes = bytes := by
  obtain ⟨hbefore, hafter⟩ := hchanges
  rcases hkeeping with hdry | hcopies
  · exact absurd ((h.dry hdry).1 ▸ hbefore) hafter
  · obtain ⟨j, hj, rfl⟩ : ∃ j ∈ jobs, j.location = l := by
      by_contra hnone
      exact hafter (h.others l _ hbefore fun j hj hl ↦ hnone ⟨j, hj, hl.symm⟩)
    obtain rfl : j.bytes = bytes :=
      Entry.file.inj (Option.some.inj ((hjobs j hj).leaf.symm.trans hbefore))
    obtain ⟨s, hs, rfl⟩ := h.copied hcopies j hj hafter
    exact ⟨s, hs, rfl, rfl⟩

theorem isCopy (h : Progress env plan d jobs saves r) {s : Save} (hs : s ∈ saves) :
    IsCopy env d r s.source.bytes s.copy := by
  obtain ⟨-, hnew⟩ := h.isNew s hs
  exact ⟨h.backups ▸ List.mem_map_of_mem hs, hnew.absent, s.place, hnew.find,
    hnew.vacant, hnew.leaf⟩

theorem keeps (h : Progress env plan d jobs saves r) (hjobs : ∀ j ∈ jobs, j.IsOn env d)
    (hkeeping : plan.dryRun = true ∨ plan.backup = true) : Keeps env d r := by
  have hnodup : (saves.map (·.copy)).Nodup := h.backups ▸ h.nodup
  have hcopy : ∀ l, ∃ copy, ∀ bytes, Changes d r l bytes →
      ∃ s ∈ saves, s.source.location = l ∧ s.source.bytes = bytes ∧ s.copy = copy := by
    intro l
    by_cases hl : ∃ bytes, Changes d r l bytes
    · obtain ⟨bytes, hbytes⟩ := hl
      obtain ⟨s, hs, hlocation, hsource⟩ := h.exists_save hjobs hkeeping hbytes
      refine ⟨s.copy, fun bytes' hbytes' ↦ ⟨s, hs, hlocation, ?_, rfl⟩⟩
      exact hsource.trans (Entry.file.inj (Option.some.inj (hbytes.1.symm.trans hbytes'.1)))
    · exact ⟨[], fun bytes hbytes ↦ (hl ⟨bytes, hbytes⟩).elim⟩
  choose copyOf hcopyOf using hcopy
  refine ⟨h.nodup, copyOf, fun l bytes hchanges ↦ ?_, fun l l' bytes bytes' hchanges hchanges' heq ↦
    ?_⟩
  · obtain ⟨s, hs, -, rfl, hcopy⟩ := hcopyOf l bytes hchanges
    exact hcopy ▸ h.isCopy hs
  · obtain ⟨s, hs, rfl, -, hcopy⟩ := hcopyOf l bytes hchanges
    obtain ⟨s', hs', rfl, -, hcopy'⟩ := hcopyOf l' bytes' hchanges'
    rw [List.inj_on_of_nodup_map hnodup hs hs' (hcopy.trans (heq.trans hcopy'.symm))]

end Progress

section Start

variable (hsound : d.IsSound) (hroot : d.isDirectory = true) (hcareful : IsCareful env request d)
include hsound hroot hcareful

/-- A careful run leaves a sound disk and keeps what it changes. -/
theorem start_keeps :
    (start env request d).disk.IsSound ∧ (start env request d).disk.isDirectory = true ∧
      Keeps env d (start env request d) := by
  rcases start_cases hcareful.temporary hsound hroot with
    ⟨hdisk, hbackups⟩ | ⟨plan, jobs, saves, hplan, hjobs, hprogress⟩
  · refine ⟨?_, ?_, keeps_of_disk_eq hdisk hbackups⟩
    · rwa [hdisk]
    · rwa [hdisk]
  · exact ⟨hprogress.sound, hprogress.grows.isDirectory hroot,
      hprogress.keeps hjobs (hcareful.keeping plan hplan)⟩

end Start

/-- What a run keeps is somewhere after it. -/
theorem Keeps.exists_leaf (h : Keeps env d r) (hbytes : d.leaf? l = some (.file bytes)) :
    ∃ l', r.disk.leaf? l' = some (.file bytes) := by
  obtain ⟨-, copyOf, hcopyOf, -⟩ := h
  by_cases hchanged : r.disk.leaf? l = some (.file bytes)
  · exact ⟨l, hchanged⟩
  · obtain ⟨place, -, -, hplace⟩ := (hcopyOf l bytes ⟨hbytes, hchanged⟩).held
    exact ⟨place, hplace⟩

/-! ### Many runs -/

theorem Reaches.isSound (h : Reaches d d') (hsound : d.IsSound) (hroot : d.isDirectory = true) :
    d'.IsSound ∧ d'.isDirectory = true := by
  induction h with
  | refl => exact ⟨hsound, hroot⟩
  | run env request before careful ih =>
    obtain ⟨hsound', hroot', -⟩ := start_keeps ih.1 ih.2 careful
    exact ⟨hsound', hroot'⟩

theorem Reaches.exists_leaf (h : Reaches d d') (hsound : d.IsSound) (hroot : d.isDirectory = true)
    (hbytes : d.leaf? l = some (.file bytes)) : ∃ l', d'.leaf? l' = some (.file bytes) := by
  induction h with
  | refl => exact ⟨l, hbytes⟩
  | run env request before careful ih =>
    obtain ⟨hsound', hroot'⟩ := before.isSound hsound hroot
    obtain ⟨l', hl'⟩ := ih
    obtain ⟨-, -, hkeeps⟩ := start_keeps hsound' hroot' careful
    exact hkeeps.exists_leaf hl'

/-- Careful runs lose no content of a file, and each of them copies what it changes. -/
theorem keeps_contents (hsound : d.IsSound) (hroot : d.isDirectory = true) (h : Reaches d d') :
    (∀ l bytes, d.leaf? l = some (.file bytes) → ∃ l', d'.leaf? l' = some (.file bytes)) ∧
      ∀ env request, IsCareful env request d' → Keeps env d' (start env request d') := by
  refine ⟨fun l bytes hbytes ↦ h.exists_leaf hsound hroot hbytes, fun env request hcareful ↦ ?_⟩
  obtain ⟨hsound', hroot'⟩ := h.isSound hsound hroot
  exact (start_keeps hsound' hroot' hcareful).2.2

/-- The first run on the specimen changes the file and copies it into the same directory; the second
run comes to the copy as well. -/
theorem keeps_contents_specimen :
    ∃ first second : Run, first = start specimenEnvironment specimenRequest specimen ∧
      second = start specimenEnvironment specimenRequest first.disk ∧
      first.disk.bytes? [] "/p/m.py" = some (Utf8.encode "x = 1\n") ∧
      (∃ l, second.disk.leaf? l = some (.file (Utf8.encode "x = 1\nprint(x)\n"))) ∧
      Keeps specimenEnvironment first.disk second := by
  have hsound := isSound_specimen
  have hcareful : IsCareful specimenEnvironment specimenRequest specimen :=
    .of_request rfl (.inr rfl)
  have hfirst := Reaches.run specimenEnvironment specimenRequest .refl hcareful
  have hcareful' : IsCareful specimenEnvironment specimenRequest
      (start specimenEnvironment specimenRequest specimen).disk :=
    .of_request (hfirst.isSound hsound rfl).2 (.inr rfl)
  have hsecond := Reaches.run specimenEnvironment specimenRequest hfirst hcareful'
  refine ⟨_, _, rfl, rfl, by decide +kernel, ?_, ?_⟩
  · exact (keeps_contents hsound rfl hsecond).1 ["p", "m.py"] _ rfl
  · exact (keeps_contents hsound rfl hfirst).2 _ _ hcareful'

end Run

end Declutter
