import Declutter.Proofs.Run.Accounts
import Mathlib.Data.List.Induction
import Mathlib.Data.List.Nodup
/-!
A run over several files. `Run.Progress` says what holds of a run after it has handled some of its
files, compared with the disk on which it began; it holds at the start (`Run.Progress.start`), one
more file keeps it (`Run.Progress.step`), and so it holds of every run over files
(`Run.exists_progress_foldl`).

The copies that a run makes may lie among the files that it has yet to handle. They do not stand in
its way, for each of them is at a place where nothing was when the run began.
-/

set_option autoImplicit false
set_option relaxedAutoImplicit false

namespace Declutter

/-- The totals of a run over files, apart from the copies. -/
def Plan.total (plan : Plan) (jobs : List Run.Job) : Summary :=
  jobs.foldl (fun s j ↦ plan.account j.shown j.bytes s) {}

theorem Plan.total_concat (plan : Plan) (jobs : List Run.Job) (j : Run.Job) :
    plan.total (jobs ++ [j]) = plan.account j.shown j.bytes (plan.total jobs) :=
  List.foldl_concat _ _ _ _

namespace Run

/-- The files of a run: all are on the disk, and no two share a place or a name in messages. -/
structure Agenda (env : Environment) (d : Disk) (jobs : List Job) : Prop where
  isOn : ∀ j ∈ jobs, j.IsOn env d
  locations : (jobs.map (·.location)).Nodup
  names : (jobs.map (·.shown)).Nodup

/-- What holds of a run that began on the disk `d` after it has handled the files `done` and made
the copies `saves`. -/
structure Progress (env : Environment) (plan : Plan) (d : Disk) (done : List Job)
    (saves : List Save) (r : Run) :
    Prop where
  sound : r.disk.IsSound
  grows : d.Extends r.disk
  files : ∀ j ∈ done,
    r.disk.leaf? j.location = some (.file (plan.bytesAfter r.summary j.shown j.bytes))
  others : ∀ l e, d.leaf? l = some e → (∀ j ∈ done, l ≠ j.location) → r.disk.leaf? l = some e
  new : ∀ l e, d.leaf? l = none → r.disk.leaf? l = some e → ∃ s ∈ saves, s.place = l
  backups : r.summary.backups = saves.map (·.copy)
  nodup : r.summary.backups.Nodup
  isNew : ∀ s ∈ saves, s.source ∈ done ∧ s.IsNew env d r.disk
  copied : plan.backup = true → ∀ j ∈ done, r.disk.leaf? j.location ≠ some (.file j.bytes) →
    ∃ s ∈ saves, s.source = j
  noted : ∀ x ∈ r.summary.failures, ∃ j ∈ done, x.file = j.shown
  dry : plan.dryRun = true → r.disk = d ∧ r.summary = plan.total done
  accounts : Accounts plan done r.summary
  totals : (∀ x ∈ r.summary.failures, x.isOfCopy = false) →
    { r.summary with backups := [] } = plan.total done

variable {env : Environment} {plan : Plan} {d : Disk} {jobs done : List Job}
  {saves : List Save} {j : Job} {r r' : Run} {save? : Option Save}

/-- What is noted of one file does not bear on another. -/
theorem Handles.bytesAfter_of_ne (h : Handles env plan j r r' save?) {k : Job}
    (hne : k.shown ≠ j.shown) :
    plan.bytesAfter r'.summary k.shown k.bytes = plan.bytesAfter r.summary k.shown k.bytes := by
  rw [Plan.bytesAfter, h.lacksCopy_of_ne hne, Plan.bytesAfter]

namespace Progress

theorem start (hsound : d.IsSound) (hdisk : r.disk = d) (hsummary : r.summary = {}) :
    Progress env plan d [] [] r where
  sound := hdisk ▸ hsound
  grows := hdisk ▸ .refl _
  files _ hj := (List.not_mem_nil hj).elim
  others _ _ hl _ := hdisk ▸ hl
  new _ e hnone hsome := (Option.some_ne_none e (hsome.symm.trans (hdisk ▸ hnone))).elim
  backups := hsummary ▸ rfl
  nodup := hsummary ▸ List.nodup_nil
  isNew _ hs := (List.not_mem_nil hs).elim
  copied _ _ hj := (List.not_mem_nil hj).elim
  noted x hx := (List.not_mem_nil (hsummary ▸ hx : x ∈ ({} : Summary).failures)).elim
  dry _ := ⟨hdisk, hsummary⟩
  accounts := hsummary ▸ .nil
  totals _ := hsummary ▸ rfl

/-- What is put out does not matter. -/
theorem congr (h : Progress env plan d done saves r) (hdisk : r'.disk = r.disk)
    (hsummary : r'.summary = r.summary) : Progress env plan d done saves r' := by
  obtain ⟨disk, output, errors, summary⟩ := r'
  obtain rfl : disk = r.disk := hdisk
  obtain rfl : summary = r.summary := hsummary
  exact { h with }

/-- A file that has yet to be handled is as it was. -/
theorem isOn (h : Progress env plan d done saves r) (hj : j.IsOn env d)
    (hapart : ∀ k ∈ done, j.location ≠ k.location) : j.IsOn env r.disk :=
  ⟨h.grows.find? hj.find, h.others _ _ hj.leaf hapart⟩

/-- The path of a copy that was made leads somewhere. -/
theorem isPresent_of_mem (h : Progress env plan d done saves r) {copy : Path}
    (hcopy : copy ∈ r.summary.backups) :
    r.disk.isPresent env.base copy = true := by
  rw [h.backups] at hcopy
  obtain ⟨s, hs, rfl⟩ := List.mem_map.mp hcopy
  rw [Disk.isPresent, (h.isNew s hs).2.find, Option.isSome_some]

/-- Handling one more file. -/
theorem step (h : Progress env plan d done saves r) (hj : j.IsOn env d)
    (hapart : ∀ k ∈ done, j.location ≠ k.location) (hnames : ∀ k ∈ done, j.shown ≠ k.shown)
    (hh : Handles env plan j r r' save?) :
    Progress env plan d (done ++ [j]) (saves ++ save?.toList) r' := by
  -- The files that were handled before, and the copies that were made, are not touched.
  have hdone : ∀ k ∈ done, r'.disk.leaf? k.location = r.disk.leaf? k.location := fun k hk ↦ by
    rw [hh.others _ _ (h.files k hk) (hapart k hk).symm, h.files k hk]
  have hplaces : ∀ s ∈ saves, s.place ≠ j.location := by
    rintro s hs hplace
    have hvacant := Disk.leaf?_eq_none_of_at? (h.isNew s hs).2.vacant
    exact Option.some_ne_none _ (hj.leaf.symm.trans (hplace ▸ hvacant))
  obtain ⟨more, hmore, hmoreNames⟩ := hh.noted
  refine {
    sound := hh.sound
    grows := h.grows.trans hh.grows
    files := fun k hk ↦ ?files
    others := fun l e hl hne ↦ ?others
    new := fun l e hnone hsome ↦ ?new
    backups := by rw [hh.backups, h.backups, List.map_append]
    nodup := ?nodup
    isNew := fun s hs ↦ ?isNew
    copied := fun hcopies k hk hne ↦ ?copied
    noted := fun x hx ↦ ?noted
    dry := fun hdry ↦ ?dry
    accounts := h.accounts.step hh hnames
    totals := fun hnone ↦ ?totals }
  case files =>
    rcases List.mem_append.mp hk with hk | hk
    · rw [hdone k hk, h.files k hk, hh.bytesAfter_of_ne (hnames k hk).symm]
    · rw [List.mem_singleton.mp hk, hh.file]
  case others =>
    have hdone' : ∀ k ∈ done, l ≠ k.location := fun k hk ↦ hne k (List.mem_append_left _ hk)
    exact hh.others _ _ (h.others l e hl hdone')
      (hne j (List.mem_append_right _ (List.mem_singleton_self _)))
  case new =>
    cases hbefore : r.disk.leaf? l with
    | none =>
      obtain ⟨s, hs, hplace⟩ := hh.new l e hbefore hsome
      exact ⟨s, List.mem_append_right _ (Option.mem_toList.mpr hs), hplace⟩
    | some e' =>
      obtain ⟨s, hs, hplace⟩ := h.new l e' hnone hbefore
      exact ⟨s, List.mem_append_left _ hs, hplace⟩
  case nodup =>
    rw [hh.backups]
    refine List.nodup_append'.mpr ⟨h.nodup, ?_, fun copy hcopy hnew ↦ ?_⟩
    · cases save? with
      | none => exact List.nodup_nil
      | some s => exact List.nodup_singleton _
    · obtain ⟨s, hs, rfl⟩ := List.mem_map.mp hnew
      have habsent := (hh.isNew s (Option.mem_toList.mp hs)).2.absent
      exact Bool.noConfusion (habsent.symm.trans (h.isPresent_of_mem hcopy))
  case isNew =>
    rcases List.mem_append.mp hs with hs | hs
    · obtain ⟨hsource, hnew⟩ := h.isNew s hs
      exact ⟨List.mem_append_left _ hsource, hnew.absent, hnew.vacant, hh.grows.find? hnew.find,
        hh.others _ _ hnew.leaf (hplaces s hs)⟩
    · obtain ⟨rfl, hnew⟩ := hh.isNew s (Option.mem_toList.mp hs)
      exact ⟨List.mem_append_right _ (List.mem_singleton_self _), h.grows.isPresent hnew.absent,
        h.grows.vacant hnew.vacant, hnew.find, hnew.leaf⟩
  case copied =>
    rcases List.mem_append.mp hk with hk | hk
    · obtain ⟨s, hs, hsource⟩ := h.copied hcopies k hk (hdone k hk ▸ hne)
      exact ⟨s, List.mem_append_left _ hs, hsource⟩
    · obtain rfl := List.mem_singleton.mp hk
      obtain ⟨s, hs⟩ := Option.isSome_iff_exists.mp (hh.copied hcopies hne)
      exact ⟨s, List.mem_append_right _ (Option.mem_toList.mpr hs), (hh.isNew s hs).1⟩
  case noted =>
    rw [hmore] at hx
    rcases List.mem_append.mp hx with hx | hx
    · obtain ⟨k, hk, hname⟩ := h.noted x hx
      exact ⟨k, List.mem_append_left _ hk, hname⟩
    · exact ⟨j, List.mem_append_right _ (List.mem_singleton_self _), hmoreNames x hx⟩
  case dry =>
    rw [Plan.total_concat, ← (h.dry hdry).2, ← (h.dry hdry).1]
    exact hh.dry hdry
  case totals =>
    rw [Plan.total_concat, ← h.totals fun x hx ↦ hnone x (hmore ▸ List.mem_append_left _ hx)]
    exact hh.totals hnone

end Progress

/-- A run over files makes progress through all of them. -/
theorem exists_progress_foldl (plain : Bool)
    (hhere : d.hasDirectory (Disk.origin plan.backupDirectory.isAbsolute env.base) = true)
    (hsound : d.IsSound) (hroot : d.isDirectory = true) (hjobs : Agenda env d jobs)
    (hdisk : r.disk = d) (hsummary : r.summary = {}) :
    ∃ saves, Progress env plan d jobs saves
      (jobs.foldl (fun r j ↦ r.file env plan plain j.shown j.path) r) := by
  induction jobs using List.reverseRecOn with
  | nil => exact ⟨[], .start hsound hdisk hsummary⟩
  | append_singleton done j ih =>
    obtain ⟨hisOn, hlocations, hnames⟩ := hjobs
    rw [List.map_append, List.nodup_append'] at hlocations hnames
    have hapart : ∀ k ∈ done, j.location ≠ k.location := fun k hk heq ↦
      hlocations.2.2 (List.mem_map_of_mem hk) (heq ▸ List.mem_singleton_self _)
    have hnamesApart : ∀ k ∈ done, j.shown ≠ k.shown := fun k hk heq ↦
      hnames.2.2 (List.mem_map_of_mem hk) (heq ▸ List.mem_singleton_self _)
    rw [List.forall_mem_append, List.forall_mem_singleton] at hisOn
    obtain ⟨saves, hprogress⟩ := ih ⟨hisOn.1, hlocations.1, hnames.1⟩
    have hfresh : ∀ x ∈
      (done.foldl (fun r j ↦ r.file env plan plain j.shown j.path) r).summary.failures,
        x.file ≠ j.shown := fun x hx heq ↦ by
      obtain ⟨k, hk, hname⟩ := hprogress.noted x hx
      exact hnamesApart k hk (heq.symm.trans hname)
    obtain ⟨save?, hhandles⟩ := exists_handles_file (hprogress.grows.directory _ hhere)
      hprogress.sound (hprogress.grows.isDirectory hroot) (hprogress.isOn hisOn.2 hapart)
        hfresh plain
    rw [List.foldl_concat]
    exact ⟨_, hprogress.step hisOn.2 hapart hnamesApart hhandles⟩

end Run

end Declutter
