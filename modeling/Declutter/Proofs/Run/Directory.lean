import Declutter.Proofs.Run.Start
/-!
The run on a directory as the runs of its files one by one. What becomes of a file depends on its
own bytes and on whether a copy of it could be made (`Run.IsPointwise.files`), and on no other file,
although the run writes files and makes copies among them as it goes. A dry run for the same request
leaves the disk as it is and comes to the same totals, except for the copies
(`Run.start_directory`).
-/

set_option autoImplicit false
set_option relaxedAutoImplicit false

namespace Declutter

namespace Run

/-- What a run has made of the disk `d` when it was to handle the files `found` in the directory at
`place`. -/
structure IsPointwise (env : Environment) (plan : Plan) (d : Disk) (place : Location)
    (found : List FoundFile) (r : Run) : Prop where
  /-- Each file that was found holds what its own bytes make it hold. -/
  files : ∀ f ∈ found, ∃ bytes, d.leaf? (place ++ f.location) = some (.file bytes) ∧
    r.disk.leaf? (place ++ f.location) =
      some (.file (plan.bytesAfter r.summary f.relativePath bytes))
  /-- Every other file is as before, and so is every link. -/
  others : ∀ l e, d.leaf? l = some e → (∀ f ∈ found, l ≠ place ++ f.location) →
    r.disk.leaf? l = some e
  directories : ∀ l, d.hasDirectory l = true → r.disk.hasDirectory l = true
  /-- The places of the reported copies are those at which there was nothing and there is a file or
  a link now. -/
  copies : ∀ l, (d.at? l = none ∧ (r.disk.leaf? l).isSome = true) ↔
    ∃ copy ∈ r.summary.backups, r.disk.find? env.base copy = some l

variable {env : Environment} {request : Request} {plan : Plan} {d : Disk} {place : Location}
  {found : List FoundFile} {saves : List Save} {r : Run} {path : Path}

theorem Progress.isPointwise
    (h : Progress env plan d (found.map (Job.ofFound env d path place)) saves r)
    (hjobs : ∀ j ∈ found.map (Job.ofFound env d path place), j.IsOn env d) :
    IsPointwise env plan d place found r where
  files f hf := by
    have hj := List.mem_map_of_mem (f := Job.ofFound env d path place) hf
    exact ⟨_, (hjobs _ hj).leaf, h.files _ hj⟩
  others l e hl hne := by
    refine h.others l e hl fun j hj ↦ ?_
    obtain ⟨f, hf, rfl⟩ := List.mem_map.mp hj
    exact hne f hf
  directories := h.grows.directory
  copies l := by
    constructor
    · rintro ⟨hvacant, hsome⟩
      obtain ⟨e, he⟩ := Option.isSome_iff_exists.mp hsome
      obtain ⟨s, hs, rfl⟩ := h.new l e (Disk.leaf?_eq_none_of_at? hvacant) he
      exact ⟨s.copy, h.backups ▸ List.mem_map_of_mem hs, (h.isNew s hs).2.find⟩
    · rintro ⟨copy, hcopy, hfind⟩
      rw [h.backups] at hcopy
      obtain ⟨s, hs, rfl⟩ := List.mem_map.mp hcopy
      obtain ⟨-, hnew⟩ := h.isNew s hs
      obtain rfl : s.place = l := Option.some.inj (hnew.find.symm.trans hfind)
      exact ⟨hnew.vacant, by rw [hnew.leaf, Option.isSome_some]⟩

/-- The run on a directory is the run of its files one by one, and a dry run tells its totals
beforehand. -/
theorem start_directory (hsound : d.IsSound) (hroot : d.isDirectory = true)
    (htemporary : d.hasDirectory (Disk.origin env.temporary.isAbsolute env.base) = true)
    (hdirectory : d.leadsToDirectory env.base (targetOf env request) = true)
    (hplan : planOn env request d = .ok plan) :
    (∃ place found, d.find? env.base (targetOf env request) = some place ∧
      Search.run ⟨plan.recursive, plan.ignore⟩ d env.base (targetOf env request) = .ok found ∧
      IsPointwise env plan d place found (start env request d)) ∧
    (start env { request with dryRun := some true } d).disk = d ∧
    ((∀ x ∈ (start env request d).summary.failures, x.isOfCopy = false) →
      (start env { request with dryRun := some true } d).summary =
        { (start env request d).summary with backups := [] }) := by
  obtain ⟨place, es, saves, hplace, hes, hprogress⟩ :=
    exists_progress_start_directory htemporary hsound hroot hdirectory hplan
  have hdirectory' : d.leadsToDirectory env.base
      (targetOf env { request with dryRun := some true }) = true :=
    hdirectory
  obtain ⟨place', es', saves', hplace', hes', hdry⟩ :=
    exists_progress_start_directory htemporary hsound hroot hdirectory' (planOn_dryRun hplan)
  obtain rfl : place = place' := Option.some.inj (hplace.symm.trans hplace')
  obtain rfl : es = es' := Entry.directory.inj (Option.some.inj (hes.symm.trans hes'))
  have hagenda := agenda_ofFound (s := ⟨plan.recursive, plan.ignore⟩) hsound hroot
    (Path.forall_isName_segmentsFrom _ _) hplace hes
  obtain ⟨hdisk, hsummary⟩ := hdry.dry rfl
  refine ⟨⟨place, _, hplace, Search.run_eq_ok hplace hes, hprogress.isPointwise hagenda.isOn⟩,
    hdisk, fun hnone ↦ ?_⟩
  -- Both runs come to the totals of the same files, for the plans remove the same.
  rw [hsummary, hprogress.totals hnone]
  rfl

/-- The file is copied into the directory that is cleaned, and then written; the dry run foretells
this. -/
theorem start_directory_specimen :
    specimen.IsSound ∧ ∃ plan place found,
      planOn specimenEnvironment specimenRequest specimen = .ok plan ∧ plan.dryRun = false ∧
      IsPointwise specimenEnvironment plan specimen place found
        (start specimenEnvironment specimenRequest specimen) ∧
      (start specimenEnvironment specimenRequest specimen).summary.backups =
        ["/p/m_19700101_000000.py"] ∧
      (start specimenEnvironment { specimenRequest with dryRun := some true } specimen).summary =
        { (start specimenEnvironment specimenRequest specimen).summary with backups := [] } := by
  have hplan : ((planOn specimenEnvironment specimenRequest specimen).toOption.map (·.dryRun)) =
      some false := by
    decide +kernel
  obtain ⟨plan, hplan, hdry⟩ := Except.exists_of_map_toOption hplan
  obtain ⟨⟨place, found, -, -, hpointwise⟩, -, htotals⟩ :=
    start_directory isSound_specimen rfl rfl (by decide +kernel) hplan
  exact ⟨isSound_specimen, plan, place, found, hplan, hdry, hpointwise, by decide +kernel,
    htotals (by decide +kernel)⟩

end Run

end Declutter
