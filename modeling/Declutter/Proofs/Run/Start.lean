import Declutter.Proofs.Run.Progress
import Declutter.Proofs.Disk.Search
import Declutter.Proofs.Except
/-!
From a request to the files that its run handles. A run that gets no plan changes nothing
(`Run.start_refused`). A run that gets one makes progress through the files that are found in the
directory (`Run.exists_progress_start_directory`), or through the one file (`Run.start_cases`).
-/

set_option autoImplicit false
set_option relaxedAutoImplicit false

namespace Declutter

/-! ### Plans -/

namespace Plan

variable {env : Environment} {request : Request} {settings : Settings} {place : Path} {plan : Plan}

/-- The directory of the copies is the one for temporary files, or its path is absolute. -/
theorem backupDirectoryOf_cases (env : Environment) (request : Request) (settings : Settings)
    (place : Path) :
    (backupDirectoryOf env request settings place).isAbsolute = true ∨
      backupDirectoryOf env request settings place = env.temporary := by
  unfold backupDirectoryOf
  dsimp only
  split
  · exact .inl (Path.isAbsolute_ofSegments _)
  · exact .inl (Path.isAbsolute_ofSegments _)
  · exact .inr rfl

/-- What a plan takes over as it is from the request and from where the run takes place. -/
theorem of_make (h : (make env request settings place).2 = .ok plan) :
    plan.backupDirectory = backupDirectoryOf env request settings place ∧
      plan.dryRun = request.dryRun.getD false ∧ plan.backup = request.backup.getD settings.backup ∧
      plan.packages = env.packages := by
  unfold make at h
  split at h
  · cases h
  · obtain ⟨_, -, rfl⟩ := Except.map_eq_ok_iff.mp h
    exact ⟨rfl, rfl, rfl, rfl⟩

/-- A request for a dry run gets the same plan, for a dry run. -/
theorem make_dryRun (h : (make env request settings place).2 = .ok plan) :
    (make env { request with dryRun := some true } settings place).2 =
      .ok { plan with dryRun := true } := by
  unfold make at h ⊢
  dsimp only
  split at h
  · cases h
  · obtain ⟨targets, htargets, rfl⟩ := Except.map_eq_ok_iff.mp h
    rw [htargets]
    rfl

end Plan

namespace Run

/-- The absolute path of what a request is about. -/
def targetOf (env : Environment) (request : Request) : Path :=
  Path.resolve env.directory request.path

/-- The plan that a run makes for a request on a disk. -/
def planOn (env : Environment) (request : Request) (d : Disk) : Except SettingFault Plan :=
  let path := targetOf env request
  let place := if d.leadsToDirectory env.base path then path else path.parent
  (Plan.make env request (settings env d place).1 place).2

variable {env : Environment} {request : Request} {d : Disk} {plan : Plan} {r : Run}

/-- The directory of the copies is seen from one that is there. -/
theorem hasDirectory_origin_of_planOn (hroot : d.isDirectory = true)
    (htemporary : d.hasDirectory (Disk.origin env.temporary.isAbsolute env.base) = true)
    (h : planOn env request d = .ok plan) :
    d.hasDirectory (Disk.origin plan.backupDirectory.isAbsolute env.base) = true := by
  rw [(Plan.of_make h).1]
  rcases Plan.backupDirectoryOf_cases env request _ _ with habsolute | heq
  · rw [habsolute]
    exact hroot
  · rwa [heq]

/-- A plan is carried out with the packages that are there. -/
theorem packages_of_planOn (h : planOn env request d = .ok plan) : plan.packages = env.packages :=
  (Plan.of_make h).2.2.2

theorem planOn_dryRun (h : planOn env request d = .ok plan) :
    planOn env { request with dryRun := some true } d = .ok { plan with dryRun := true } :=
  Plan.make_dryRun h

/-! ### The start of a run -/

/-- A run on nothing, or without a plan, changes nothing. -/
theorem start_refused (h : d.isPresent env.base (targetOf env request) = false ∨
    ∃ fault, planOn env request d = .error fault) :
    (start env request d).disk = d ∧ (start env request d).summary.backups = [] := by
  unfold planOn at h
  unfold start
  rw [targetOf] at h
  dsimp only at h ⊢
  cases hpresent : d.isPresent env.base (Path.resolve env.directory request.path) with
  | false =>
    rw [if_pos (by decide)]
    exact ⟨rfl, rfl⟩
  | true =>
    obtain ⟨fault, hfault⟩ := h.resolve_left (by rw [hpresent]; decide)
    rw [if_neg (by decide)]
    generalize Plan.make env request _ _ = made at hfault ⊢
    obtain ⟨warnings, made⟩ := made
    obtain rfl := hfault
    exact ⟨rfl, rfl⟩

/-- A run with a plan carries it out. -/
theorem exists_start_eq (hpresent : d.isPresent env.base (targetOf env request) = true)
    (hplan : planOn env request d = .ok plan) :
    ∃ r : Run, start env request d = r.carryOut env request plan (targetOf env request)
        (d.leadsToDirectory env.base (targetOf env request)) ∧ r.disk = d ∧ r.summary = {} := by
  unfold planOn at hplan
  unfold start
  rw [targetOf] at hpresent hplan ⊢
  dsimp only at hplan ⊢
  rw [hpresent, if_neg (by decide)]
  generalize Plan.make env request _ _ = made at hplan ⊢
  obtain ⟨warnings, made⟩ := made
  obtain rfl := hplan
  exact ⟨_, rfl, rfl, rfl⟩

/-! ### The files of a run -/

/-- Of a directory, the files that are found are handled. -/
theorem exists_carryOut_directory (env : Environment) (request : Request) {path : Path}
    {found : List FoundFile}
    (h : Search.run ⟨plan.recursive, plan.ignore⟩ r.disk env.base path = .ok found) :
    ∃ (r' : Run) (plain : Bool), r'.disk = r.disk ∧ r'.summary = r.summary ∧
      (r.carryOut env request plan path true).disk = (r'.files env plan plain path found).disk ∧
      (r.carryOut env request plan path true).summary =
        (r'.files env plan plain path found).summary := by
  unfold carryOut
  dsimp only
  have hsearch : ∀ message,
      Search.run ⟨plan.recursive, plan.ignore⟩ (r.tell message).disk env.base path = .ok found :=
      fun _ ↦ h
  rw [if_pos rfl, directory, hsearch]
  dsimp only
  refine ⟨_, _, ?_, ?_, rfl, rfl⟩
  · split_ifs <;> rfl
  · split_ifs <;> rfl

/-- Of anything else, the file itself is handled if it is one for Python. -/
theorem exists_carryOut_file (env : Environment) (request : Request) (plan : Plan) (r : Run)
    {path : Path} (h : path.isPython = true) :
    ∃ (r' : Run) (plain : Bool), r'.disk = r.disk ∧ r'.summary = r.summary ∧
      (r.carryOut env request plan path false).disk =
        (r'.file env plan plain request.path path).disk ∧
      (r.carryOut env request plan path false).summary =
        (r'.file env plan plain request.path path).summary := by
  unfold carryOut
  dsimp only
  rw [h, if_neg Bool.false_ne_true, if_pos rfl]
  refine ⟨_, _, ?_, ?_, rfl, rfl⟩
  · rfl
  · rfl

theorem carryOut_other (env : Environment) (request : Request) (plan : Plan) (r : Run) {path : Path}
    (h : path.isPython = false) :
    (r.carryOut env request plan path false).disk = r.disk ∧
      (r.carryOut env request plan path false).summary.backups = r.summary.backups := by
  unfold carryOut
  dsimp only
  rw [h, if_neg Bool.false_ne_true, if_neg Bool.false_ne_true]
  exact ⟨rfl, rfl⟩

/-- A file that was found, as a run comes to it. -/
def Job.ofFound (env : Environment) (d : Disk) (path : Path) (place : Location)
    (f : FoundFile) : Job where
  shown := f.relativePath
  path := Path.child path f.relativePath
  location := place ++ f.location
  bytes := (d.bytes? env.base (Path.child path f.relativePath)).getD []

section Directory

variable {segments : List Text} {place : Location} {es : List Named} {s : Search}

theorem agenda_ofFound (hsound : d.IsSound) (hroot : d.isDirectory = true)
    (hsegments : ∀ name ∈ segments, Path.IsName name)
    (hplace : d.find? env.base (Path.ofSegments segments) = some place)
    (hat : d.at? place = some (.directory es)) :
    Agenda env d ((s.files es).map (Job.ofFound env d (Path.ofSegments segments) place)) := by
  have hes := (hsound.of_at? hat).2
  have hnodup := Search.nodup_files (s := s) hes
  refine ⟨List.forall_mem_map.mpr fun f hf ↦ ?_, ?_, ?_⟩
  · have hfind := Search.find?_child_relativePath hsound hroot hsegments hplace hat hf
    obtain ⟨-, -, bytes, hbytes⟩ := Search.exists_of_mem_files hes hf
    have hleaf : d.leaf? (place ++ f.location) = some (.file bytes) :=
      Disk.leaf?_eq_of_at? (by rw [Entry.at?_append, hat, Option.bind_some, hbytes]) rfl
    refine ⟨hfind, ?_⟩
    rw [Job.ofFound, Disk.bytes?_eq_some_iff.mpr ⟨_, hfind, hleaf⟩, Option.getD_some, hleaf]
  · have hmap : ((s.files es).map (Job.ofFound env d (Path.ofSegments segments) place)).map
      (·.location) =
        ((s.files es).map (·.location)).map (place ++ ·) := by
      rw [List.map_map, List.map_map]
      rfl
    rw [hmap]
    exact hnodup.map (List.append_right_injective place)
  · have hmap : ((s.files es).map (Job.ofFound env d (Path.ofSegments segments) place)).map
      (·.shown) =
        (s.files es).map (·.relativePath) := by
      rw [List.map_map]
      rfl
    rw [hmap]
    refine (List.Nodup.of_map _ hnodup).map_on fun f hf g hg hpath ↦ ?_
    exact List.inj_on_of_nodup_map hnodup hf hg (Search.location_inj hes hf hg hpath)

end Directory

section Start

variable (htemporary : d.hasDirectory (Disk.origin env.temporary.isAbsolute env.base) = true)
  (hsound : d.IsSound) (hroot : d.isDirectory = true)
include htemporary hsound hroot

/-- The run on a directory makes progress through the files that are found in it. -/
theorem exists_progress_start_directory
    (hdirectory : d.leadsToDirectory env.base (targetOf env request) = true)
    (hplan : planOn env request d = .ok plan) :
    ∃ place es saves, d.find? env.base (targetOf env request) = some place ∧
      d.at? place = some (.directory es) ∧
      Progress env plan d
        ((Search.files ⟨plan.recursive, plan.ignore⟩ es).map
          (Job.ofFound env d (targetOf env request) place))
        saves (start env request d) := by
  obtain ⟨place, es, hplace, hes⟩ := Disk.exists_of_leadsToDirectory hdirectory
  have hpresent : d.isPresent env.base (targetOf env request) = true := by
    rw [Disk.isPresent, hplace, Option.isSome_some]
  obtain ⟨r, hstart, hdisk, hsummary⟩ := exists_start_eq hpresent hplan
  have hsearch : Search.run ⟨plan.recursive, plan.ignore⟩ r.disk env.base (targetOf env request) =
      .ok (Search.files ⟨plan.recursive, plan.ignore⟩ es) := by
    rw [hdisk]
    exact Search.run_eq_ok hplace hes
  obtain ⟨r', plain, hdisk', hsummary', hafter, htotals⟩ :=
    exists_carryOut_directory env request hsearch
  rw [hdirectory] at hstart
  have hagenda : Agenda env d ((Search.files ⟨plan.recursive, plan.ignore⟩ es).map
      (Job.ofFound env d (targetOf env request) place)) :=
    agenda_ofFound hsound hroot (Path.forall_isName_segmentsFrom _ _) hplace hes
  obtain ⟨saves, hprogress⟩ := exists_progress_foldl plain
    (hasDirectory_origin_of_planOn hroot htemporary hplan) hsound hroot hagenda (hdisk'.trans hdisk)
    (hsummary'.trans hsummary)
  rw [List.foldl_map] at hprogress
  refine ⟨place, es, saves, hplace, hes, hprogress.congr ?_ ?_⟩
  · rw [hstart, hafter]
    rfl
  · rw [hstart, htotals]
    rfl

/-- The run on a file for Python makes progress through this file. -/
theorem exists_progress_start_file
    (hdirectory : d.leadsToDirectory env.base (targetOf env request) = false)
    (hpresent : d.isPresent env.base (targetOf env request) = true)
    (hpython : (targetOf env request).isPython = true) (hplan : planOn env request d = .ok plan) :
    ∃ l bytes saves, d.find? env.base (targetOf env request) = some l ∧
    d.leaf? l = some (.file bytes) ∧
      Progress env plan d [⟨request.path, targetOf env request, l, bytes⟩] saves
        (start env request d) := by
  obtain ⟨r, hstart, hdisk, hsummary⟩ := exists_start_eq hpresent hplan
  rw [hdirectory] at hstart
  obtain ⟨l, hfind⟩ := Option.isSome_iff_exists.mp hpresent
  obtain ⟨bytes, hleaf⟩ :=
    Disk.exists_file_of_find? hroot (Path.isAbsolute_ofSegments _) hfind hdirectory
  obtain ⟨r', plain, hdisk', hsummary', hafter, htotals⟩ :=
    exists_carryOut_file env request plan r hpython
  have hagenda : Agenda env d [⟨request.path, targetOf env request, l, bytes⟩] :=
    ⟨List.forall_mem_singleton.mpr ⟨hfind, hleaf⟩, List.nodup_singleton _, List.nodup_singleton _⟩
  obtain ⟨saves, hprogress⟩ := exists_progress_foldl plain
    (hasDirectory_origin_of_planOn hroot htemporary hplan) hsound hroot hagenda (hdisk'.trans hdisk)
    (hsummary'.trans hsummary)
  exact ⟨l, bytes, saves, hfind, hleaf, hprogress.congr (hstart ▸ hafter) (hstart ▸ htotals)⟩

/-- A run changes nothing, or it makes progress through some files, by a plan. -/
theorem start_cases :
    ((start env request d).disk = d ∧ (start env request d).summary.backups = []) ∨
      ∃ plan jobs saves, planOn env request d = .ok plan ∧ (∀ j ∈ jobs, j.IsOn env d) ∧
        Progress env plan d jobs saves (start env request d) := by
  by_cases hrefused : d.isPresent env.base (targetOf env request) = false ∨
      ∃ fault, planOn env request d = .error fault
  · exact .inl (start_refused hrefused)
  rw [not_or, Bool.not_eq_false] at hrefused
  obtain ⟨hpresent, hnot⟩ := hrefused
  obtain ⟨plan, hplan⟩ : ∃ plan, planOn env request d = .ok plan := by
    cases hmade : planOn env request d with
    | error fault => exact absurd ⟨fault, hmade⟩ hnot
    | ok plan => exact ⟨plan, rfl⟩
  cases hdirectory : d.leadsToDirectory env.base (targetOf env request) with
  | true =>
    obtain ⟨place, es, saves, hplace, hes, hprogress⟩ :=
      exists_progress_start_directory htemporary hsound hroot hdirectory hplan
    exact .inr ⟨plan, _, saves, hplan,
      (agenda_ofFound hsound hroot (Path.forall_isName_segmentsFrom _ _) hplace hes).isOn,
      hprogress⟩
  | false =>
    cases hpython : (targetOf env request).isPython with
    | false =>
      obtain ⟨r, hstart, hdisk, hsummary⟩ := exists_start_eq hpresent hplan
      obtain ⟨hafter, hbackups⟩ := carryOut_other env request plan r hpython
      rw [hstart, hdirectory, hafter, hbackups, hsummary]
      exact .inl ⟨hdisk, rfl⟩
    | true =>
      obtain ⟨l, bytes, saves, hfind, hleaf, hprogress⟩ :=
        exists_progress_start_file htemporary hsound hroot hdirectory hpresent hpython hplan
      exact .inr ⟨plan, _, saves, hplan, List.forall_mem_singleton.mpr ⟨hfind, hleaf⟩, hprogress⟩

end Start

/-! ### A disk with one file -/

def specimen : Disk :=
  .directory [⟨"p", .directory [⟨"m.py", .file (Utf8.encode "x = 1\nprint(x)\n")⟩]⟩]

def specimenEnvironment : Environment := { directory := "/", temporary := "/tmp", now := ⟨0⟩ }

/-- Copies go to the directory that is cleaned. -/
def specimenRequest : Request := { path := "/p", backup := some true, backupDirectory := some "/p" }

theorem isSound_specimen : specimen.IsSound :=
  .directory (by decide) (by decide) (List.forall_mem_singleton.mpr
    (.directory (by decide) (by decide) (List.forall_mem_singleton.mpr (.file _))))

end Run

end Declutter
