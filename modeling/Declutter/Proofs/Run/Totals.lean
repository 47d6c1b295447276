import Declutter.Proofs.Python.Parse
import Declutter.Proofs.Run.Start
/-!
What the totals of a run say. They count the files by what becomes of each, and a file of which
nothing could be made is in none of their sums. If every copy could be made that was asked for, the
sums are those of the modified files alone (`Run.start_totals`), for nothing was done to a file that
stays unchanged.

If a copy fails, its file is left as it was and is in the sums nevertheless
(`Run.start_sums_failed`).
-/

set_option autoImplicit false
set_option relaxedAutoImplicit false

namespace Declutter

/-! ### Sums -/

theorem sum_map_filter_eq {α : Type} {p : α → Bool} {f : α → Nat} {l : List α}
    (h : ∀ x ∈ l, p x = false → f x = 0) : ((l.filter p).map f).sum = (l.map f).sum := by
  induction l with
  | nil => rfl
  | cons x rest ih =>
    rw [List.forall_mem_cons] at h
    have hrest := ih h.2
    rw [List.filter_cons, List.map_cons, List.sum_cons]
    split_ifs with hx
    · rw [List.map_cons, List.sum_cons, hrest]
    · rw [hrest, h.1 (eq_false_of_ne_true hx), Nat.zero_add]

/-- Texts to which nothing was done do not matter to the sums. -/
theorem Summary.Sums.filter {s : Summary} {results : List Cleaned} {p : Cleaned → Bool}
    (h : s.Sums results) (hidle : ∀ t ∈ results, p t = false → t.IsIdle) :
    s.Sums (results.filter p) where
  calls := by
    rw [h.calls, sum_map_filter_eq fun t ht hp ↦ ?_]
    rw [(hidle t ht hp).tally]
    rfl
  comments := by
    rw [h.comments, sum_map_filter_eq fun t ht hp ↦ (hidle t ht hp).commentsRemoved]
  commented := by
    rw [h.commented, List.countP_filter]
    refine List.countP_congr fun t ht ↦ ?_
    cases hp : p t with
    | true => rw [Bool.and_true]
    | false => simp [(hidle t ht hp).commentsRemoved]
  placeholders := by
    rw [h.placeholders, sum_map_filter_eq fun t ht hp ↦ ?_]
    rw [(hidle t ht hp).tally]
    rfl
  constructs := by
    rw [h.constructs, sum_map_filter_eq fun t ht hp ↦ ?_]
    rw [(hidle t ht hp).tally]
    rfl

namespace Run

/-- The parser reads the file, if it is Python at all, to a tree as the grammar makes it. -/
def Job.IsRegular (parse : Text → Python.Node) (j : Job) : Prop := ∀ source tree,
  Utf8.decode? j.bytes = some source → Python.readTree source parse = .ok tree → tree.IsRegular

/-- The files that a run handles by a plan: those that are found in the directory, or the one file
for Python. -/
def worklist (env : Environment) (request : Request) (plan : Plan) (d : Disk) : List Job :=
  let target := targetOf env request
  match d.find? env.base target with
  | none => []
  | some place =>
    if d.leadsToDirectory env.base target then
      match Search.run ⟨plan.recursive, plan.ignore⟩ d env.base target with
      | .ok found => found.map (Job.ofFound env d target place)
      | .error _ => []
    else if target.isPython then [⟨request.path, target, place, (d.bytes? env.base target).getD []⟩]
    else []

variable {env : Environment} {request : Request} {plan : Plan} {d : Disk} {jobs : List Job}
  {s : Summary} {j : Job}

/-! ### Accounts -/

/-- Every file has one of three fates. -/
theorem length_eq_countP (f : Job → Fate) (jobs : List Job) : jobs.length =
    jobs.countP (f · = .modified) + (jobs.filter (f · = .failed)).length +
    jobs.countP (f · = .unchanged) := by
  induction jobs with
  | nil => rfl
  | cons j rest ih =>
    cases hj : f j <;> simp [hj] <;> omega

theorem Accounts.balance (h : Accounts plan jobs s) : s.filesProcessed =
    s.filesModified + s.failures.length + jobs.countP (plan.fate s · = .unchanged) := by
  have hfailed := congrArg List.length h.failed
  rw [List.length_map, List.length_map] at hfailed
  rw [h.processed, h.modified, hfailed]
  exact length_eq_countP (plan.fate s) jobs

/-- A regular file that stays unchanged has nothing done to it. -/
theorem isIdle_of_cleaned? {t : Cleaned} (hregular : j.IsRegular plan.packages.parse)
    (h : plan.cleaned? j = some t) (hunchanged : t.changed = false) : t.IsIdle := by
  unfold Plan.cleaned? Plan.outcome at h
  split at h
  · cases h
  · next source hdecode =>
    cases happly : plan.removal.apply source plan.packages.parse with
    | error fault =>
      rw [happly] at h
      cases h
    | ok cleaned =>
      rw [happly] at h
      obtain rfl := Option.some.inj h
      exact Removal.isIdle_of_unchanged (hregular source · hdecode) happly hunchanged

/-- Without a failed copy, what was made of the modified files is what was made of any file and is
new. -/
theorem filterMap_cleaned?_modified (hnone : ∀ x ∈ s.failures, x.isOfCopy = false) :
    (jobs.filter (plan.fate s · = .modified)).filterMap plan.cleaned? =
      (jobs.filterMap plan.cleaned?).filter (·.changed) := by
  rw [List.filterMap_filter, List.filter_filterMap]
  refine List.filterMap_congr fun j _ ↦ ?_
  cases houtcome : plan.outcome j.bytes with
  | error fault =>
    rw [Plan.cleaned?_of_error houtcome]
    exact ite_self _
  | ok t =>
    rw [Plan.cleaned?_of_ok houtcome, Option.filter_some]
    cases hchanged : t.changed with
    | false => simp [Plan.fate_of_unchanged houtcome hchanged]
    | true =>
      have hlacks : s.lacksCopy j.shown = false :=
        List.any_eq_false.mpr fun x hx ↦ by simp [hnone x hx]
      simp [Plan.fate_of_changed houtcome hchanged, hlacks]

/-! ### Regular files -/

/-- By the grammar a file is regular exactly if its statements are laid out. -/
theorem Job.isRegular_iff : j.IsRegular Python.parse ↔ ∀ source tree,
    Utf8.decode? j.bytes = some source → Python.readTree source = .ok tree → tree.IsLaidOut :=
  forall₄_congr fun _ _ _ hread ↦ Python.isRegular_iff_isLaidOut hread

/-- A file in which no line goes on behind a backslash is regular. -/
theorem Job.isRegular_of_isUnbroken (h : ∀ source, Utf8.decode? j.bytes = some source →
    source.isUnbroken = true) : j.IsRegular Python.parse :=
  Job.isRegular_iff.mpr fun source _ hdecode hread ↦
    Python.isLaidOut_of_readTree hread (h source hdecode)

/-- A plan for `specimen`, whose one file is regular. -/
theorem exists_planOn_specimen (request : Request)
    (h : (planOn specimenEnvironment request specimen).toOption.map (fun plan ↦
      (worklist specimenEnvironment request plan specimen).map (·.bytes)) =
        some [Utf8.encode "x = 1\nprint(x)\n"]) :
    ∃ plan, planOn specimenEnvironment request specimen = .ok plan ∧
      ∀ j ∈ worklist specimenEnvironment request plan specimen,
      j.IsRegular specimenEnvironment.packages.parse := by
  obtain ⟨plan, hplan, hbytes⟩ := Except.exists_of_map_toOption h
  refine ⟨plan, hplan, fun j hj ↦ ?_⟩
  have hmem : j.bytes ∈ [Utf8.encode "x = 1\nprint(x)\n"] := hbytes ▸ List.mem_map_of_mem hj
  rw [List.mem_singleton] at hmem
  have hdecode : Utf8.decode? j.bytes = some "x = 1\nprint(x)\n" := by
    rw [hmem]
    decide +kernel
  refine Job.isRegular_of_isUnbroken fun source hsource ↦ ?_
  obtain rfl := Option.some.inj (hdecode.symm.trans hsource)
  decide

/-! ### Runs -/

section Start

variable (hsound : d.IsSound) (hroot : d.isDirectory = true)
  (htemporary : d.hasDirectory (Disk.origin env.temporary.isAbsolute env.base) = true)
  (hplan : planOn env request d = .ok plan)
  (htarget : d.leadsToDirectory env.base (targetOf env request) = true ∨
    d.isPresent env.base (targetOf env request) = true ∧ (targetOf env request).isPython = true)
include hsound hroot htemporary hplan htarget

/-- A run keeps the accounts of its files. -/
theorem start_accounts :
    Accounts plan (worklist env request plan d) (start env request d).summary := by
  unfold worklist
  dsimp only
  cases hdirectory : d.leadsToDirectory env.base (targetOf env request) with
  | true =>
    obtain ⟨place, es, saves, hplace, hes, hprogress⟩ :=
      exists_progress_start_directory htemporary hsound hroot hdirectory hplan
    rw [hplace, Search.run_eq_ok hplace hes]
    exact hprogress.accounts
  | false =>
    obtain ⟨hpresent, hpython⟩ :=
      htarget.resolve_left (by rw [hdirectory]; exact Bool.false_ne_true)
    obtain ⟨l, bytes, saves, hfind, hleaf, hprogress⟩ :=
      exists_progress_start_file htemporary hsound hroot hdirectory hpresent hpython hplan
    rw [hfind, hpython, Disk.bytes?_eq_some_iff.mpr ⟨l, hfind, hleaf⟩]
    exact hprogress.accounts

/-- The totals of a run count each of its files once, as modified, as failed or as unchanged, and
note the failed ones in their order. The sums leave out each file of which nothing could be made. If
no copy failed, they are the sums over the modified files. -/
theorem start_totals :
    Accounts plan (worklist env request plan d) (start env request d).summary ∧
    (start env request d).summary.filesProcessed = (start env request d).summary.filesModified +
      (start env request d).summary.failures.length +
      (worklist env request plan d).countP
        (plan.fate (start env request d).summary · = .unchanged) ∧
    ((∀ x ∈ (start env request d).summary.failures, x.isOfCopy = false) →
      (∀ j ∈ worklist env request plan d, j.IsRegular env.packages.parse) →
      (start env request d).summary.Sums (((worklist env request plan d).filter
        (plan.fate (start env request d).summary · = .modified)).filterMap plan.cleaned?)) := by
  have haccounts := start_accounts hsound hroot htemporary hplan htarget
  refine ⟨haccounts, haccounts.balance, fun hnone hregular ↦ ?_⟩
  rw [filterMap_cleaned?_modified hnone]
  refine haccounts.sums.filter fun t ht hunchanged ↦ ?_
  obtain ⟨j, hj, hcleaned⟩ := List.mem_filterMap.mp ht
  exact isIdle_of_cleaned? (packages_of_planOn hplan ▸ hregular j hj) hcleaned hunchanged

end Start

/-- The sums of a run on `specimen`, whose one file loses a call, are those of that file. -/
theorem start_totals_specimen :
    ∃ plan, planOn specimenEnvironment specimenRequest specimen = .ok plan ∧
      (∀ j ∈ worklist specimenEnvironment specimenRequest plan specimen,
        j.IsRegular specimenEnvironment.packages.parse) ∧
      (start specimenEnvironment specimenRequest specimen).summary.Sums
        (((worklist specimenEnvironment specimenRequest plan specimen).filter
          (plan.fate (start specimenEnvironment specimenRequest specimen).summary · =
            .modified)).filterMap
          plan.cleaned?) ∧
      (start specimenEnvironment specimenRequest specimen).summary.filesModified = 1 ∧
      (start specimenEnvironment specimenRequest specimen).summary.callsRemoved = 1 := by
  obtain ⟨plan, hplan, hregular⟩ := exists_planOn_specimen specimenRequest (by decide +kernel)
  obtain ⟨-, -, hsums⟩ := start_totals isSound_specimen rfl (by decide +kernel) hplan
    (.inl (by decide +kernel))
  obtain ⟨hfailures, hmodified, hcalls⟩ :
      (start specimenEnvironment specimenRequest specimen).summary.failures = [] ∧
      (start specimenEnvironment specimenRequest specimen).summary.filesModified = 1 ∧
      (start specimenEnvironment specimenRequest specimen).summary.callsRemoved = 1 := by
    decide +kernel
  refine ⟨plan, hplan, hregular, hsums (fun x hx ↦ ?_) hregular, hmodified, hcalls⟩
  rw [hfailures] at hx
  exact (List.not_mem_nil hx).elim

/-! ### A copy that fails -/

/-- A request in which the copies are to go into a directory of the name that a file has. -/
def blockedRequest : Request := { specimenRequest with backupDirectory := some "/p/m.py" }

/-- The sums need not be those of the modified files. The copies that `blockedRequest` asks for
cannot be made, so that no file is modified, and yet a call is counted as removed. -/
theorem start_sums_failed :
    ¬ ∀ (env : Environment) (request : Request) (plan : Plan) (d : Disk), env.packages = {} →
    d.IsSound →
      d.isDirectory = true → d.hasDirectory (Disk.origin env.temporary.isAbsolute env.base) = true →
      planOn env request d = .ok plan → d.leadsToDirectory env.base (targetOf env request) = true →
      (∀ j ∈ worklist env request plan d, j.IsRegular env.packages.parse) →
      (start env request d).summary.Sums (((worklist env request plan d).filter
        (plan.fate (start env request d).summary · = .modified)).filterMap plan.cleaned?) := by
  intro h
  obtain ⟨plan, hplan, hregular⟩ := exists_planOn_specimen blockedRequest (by decide +kernel)
  have hdirectory : specimen.leadsToDirectory specimenEnvironment.base
      (targetOf specimenEnvironment blockedRequest) = true := by
    decide +kernel
  have haccounts := start_accounts isSound_specimen rfl (by decide +kernel) hplan (.inl hdirectory)
  have hsums := h _ _ plan _ rfl isSound_specimen rfl (by decide +kernel) hplan hdirectory hregular
  -- no file is modified, so that nothing is in the sums
  obtain ⟨hmodified, hcalls⟩ :
    (start specimenEnvironment blockedRequest specimen).summary.filesModified = 0 ∧
      (start specimenEnvironment blockedRequest specimen).summary.callsRemoved = 1 := by
    decide +kernel
  have hnone := hmodified.symm.trans haccounts.modified
  rw [List.countP_eq_length_filter, eq_comm, List.length_eq_zero_iff] at hnone
  have hzero := hsums.calls
  rw [hnone, hcalls] at hzero
  cases hzero

end Run

end Declutter
