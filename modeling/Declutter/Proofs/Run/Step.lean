import Declutter.Proofs.Disk.Backup
import Declutter.Run.Cleaning
/-!
What a run does with one file (`Run.Handles`), said once for the four ways in which it can come out:
the file is left, it is left because no copy could be made of it, it is overwritten, or it is copied
and then overwritten. The steps of `Run.file` are followed here and nowhere else
(`Run.exists_handles_file`).
-/

set_option autoImplicit false
set_option relaxedAutoImplicit false

namespace Declutter

/-! ### What a plan makes of a file -/

/-- Whether a file failed because no copy could be made of it. -/
def Failure.isOfCopy (x : Failure) : Bool := ("backup failed: " : Text).isPrefixOf x.reason

/-- Whether it is noted of a file that no copy could be made of it. -/
def Summary.lacksCopy (s : Summary) (shown : Text) : Bool :=
  s.failures.any fun x ↦ x.file == shown && x.isOfCopy

theorem isOfCopy_backup (shown : Text) (fault : Backup.Fault) :
    Failure.isOfCopy ⟨shown, (FileFault.backup fault).message⟩ = true :=
  List.isPrefixOf_iff_prefix.mpr (List.prefix_append _ _)

/-- No other message reads like that of a copy that failed. -/
theorem isOfCopy_iff (shown : Text) (fault : FileFault) :
    Failure.isOfCopy ⟨shown, fault.message⟩ = true ↔ ∃ reason, fault = .backup reason := by
  cases fault with
  | backup reason => exact iff_of_true (isOfCopy_backup shown reason) ⟨reason, rfl⟩
  | unreadable => exact iff_of_false Bool.false_ne_true (by rintro ⟨_, h⟩; cases h)
  | undecodable => exact iff_of_false Bool.false_ne_true (by rintro ⟨_, h⟩; cases h)
  | removal fault =>
    have hother : Failure.isOfCopy ⟨shown, fault.message⟩ = false := by
      cases fault with
      | source fault =>
        obtain ⟨problem, line, column⟩ := fault
        cases problem <;> rfl
      | setting fault => cases fault <;> rfl
      | render fault =>
        cases fault with
        | edit fault => cases fault <;> rfl
        | _ => rfl
      | result => rfl
    exact iff_of_false (hother ▸ Bool.false_ne_true) (by rintro ⟨_, h⟩; cases h)

theorem Summary.lacksCopy_eq_false {s : Summary} {shown : Text}
    (h : ∀ x ∈ s.failures, x.file ≠ shown) :
    s.lacksCopy shown = false := by
  refine List.any_eq_false.mpr fun x hx hboth ↦ h x hx ?_
  exact eq_of_beq (Bool.and_eq_true_iff.mp hboth).1

/-- It is noted of a file that no copy could be made as soon as this fails. -/
theorem Summary.lacksCopy_of_failures {s : Summary} {failures : List Failure} {shown : Text}
    {fault : Backup.Fault}
    (h : s.failures = failures ++ [⟨shown, (FileFault.backup fault).message⟩]) :
    s.lacksCopy shown = true := by
  rw [lacksCopy, h, List.any_append, List.any_cons, isOfCopy_backup, beq_self_eq_true]
  simp

namespace Plan

/-- What removal makes of a file with the given bytes. -/
def outcome (plan : Plan) (bytes : List UInt8) : Except FileFault Cleaned :=
  match Utf8.decode? bytes with
  | none => .error .undecodable
  | some before => (plan.removal.apply before plan.packages.parse).mapError .removal

/-- The bytes that are to be written to a file with the given bytes: the encoded text after removal,
if the bytes are a text, removal succeeds and the text changed. -/
def rewrite? (plan : Plan) (bytes : List UInt8) : Option (List UInt8) :=
  match plan.outcome bytes with
  | .error _ => none
  | .ok t => if t.changed then some (Utf8.encode t.text) else none

/-- The totals after one more file, which has the given bytes, apart from the copy that is made of
it. -/
def account (plan : Plan) (shown : Text) (bytes : List UInt8) (s : Summary) : Summary :=
  let s := { s with filesProcessed := s.filesProcessed + 1 }
  match plan.outcome bytes with
  | .error fault => { s with failures := s.failures ++ [⟨shown, fault.message⟩] }
  | .ok t =>
    let s := s.add t
    if t.changed then { s with filesModified := s.filesModified + 1 } else s

/-- The totals after one more file that was cleaned and of which no copy could be made. -/
def accountLacking (shown : Text) (t : Cleaned) (fault : Backup.Fault) (s : Summary) : Summary :=
  let s := Summary.add { s with filesProcessed := s.filesProcessed + 1 } t
  { s with failures := s.failures ++ [⟨shown, (FileFault.backup fault).message⟩] }

/-- The bytes that a file with the given bytes holds after a run with the totals `s`. -/
def bytesAfter (plan : Plan) (s : Summary) (shown : Text) (bytes : List UInt8) : List UInt8 :=
  match plan.rewrite? bytes with
  | none => bytes
  | some new => if plan.dryRun || s.lacksCopy shown then bytes else new

variable {plan : Plan} {shown : Text} {bytes new : List UInt8} {s : Summary} {fault : FileFault}
  {t : Cleaned}

section Error

variable (h : plan.outcome bytes = .error fault)
include h

theorem rewrite?_of_error : plan.rewrite? bytes = none := by rw [rewrite?, h]

theorem account_of_error : plan.account shown bytes s =
    { s with
      filesProcessed := s.filesProcessed + 1
      failures := s.failures ++ [⟨shown, fault.message⟩] } := by
  rw [account, h]

end Error

section Ok

variable (h : plan.outcome bytes = .ok t)
include h

theorem rewrite?_of_ok :
    plan.rewrite? bytes = if t.changed then some (Utf8.encode t.text) else none := by
  rw [rewrite?, h]

theorem account_of_ok (shown : Text) (s : Summary) : plan.account shown bytes s =
    let s := Summary.add { s with filesProcessed := s.filesProcessed + 1 } t
    if t.changed then { s with filesModified := s.filesModified + 1 } else s := by
  rw [account, h]

end Ok

theorem backups_account : (plan.account shown bytes s).backups = s.backups := by
  unfold account
  split
  · rfl
  · dsimp only
    split_ifs <;> rfl

/-- The totals do not depend on the copies before. -/
theorem account_with_backups (backups : List Text) :
    plan.account shown bytes { s with backups } = { plan.account shown bytes s with backups } := by
  unfold account
  split
  · rfl
  · dsimp only
    split_ifs <;> rfl

/-- Of a file that is to be written, no failure is noted. -/
theorem failures_account_of_rewrite? (h : plan.rewrite? bytes = some new) :
    (plan.account shown bytes s).failures = s.failures := by
  unfold account
  unfold rewrite? at h
  split
  · next fault hfault =>
    rw [hfault] at h
    cases h
  · dsimp only
    split_ifs <;> rfl

/-- What is noted is noted under the name of the file. -/
theorem failures_account (plan : Plan) (shown : Text) (bytes : List UInt8) (s : Summary) :
    ∃ more, (plan.account shown bytes s).failures = s.failures ++ more ∧
    ∀ x ∈ more, x.file = shown := by
  unfold account
  split
  · exact ⟨_, rfl, fun x hx ↦ by rw [List.mem_singleton.mp hx]⟩
  · refine ⟨[], ?_, fun x hx ↦ (List.not_mem_nil hx).elim⟩
    dsimp only
    split_ifs <;> exact (List.append_nil _).symm

end Plan

namespace Run

/-! ### Messages -/

@[simp] theorem disk_log (env : Environment) (level : LogLevel) (t : Text) (r : Run) :
    (r.log env level t).disk = r.disk := rfl

@[simp] theorem summary_log (env : Environment) (level : LogLevel) (t : Text) (r : Run) :
    (r.log env level t).summary = r.summary := rfl

@[simp] theorem disk_countModified (r : Run) : r.countModified.disk = r.disk := rfl

@[simp] theorem summary_countModified (r : Run) :
    r.countModified.summary = { r.summary with filesModified := r.summary.filesModified + 1 } := rfl

/-! ### One file -/

/-- A file as a run comes to it: its name in messages, its path, the location to which the path
leads, and its bytes. -/
structure Job where
  shown : Text
  path : Path
  location : Location
  bytes : List UInt8

/-- A copy of a file, by its path, and the place of the copy. -/
structure Save where
  source : Job
  copy : Path
  place : Location

/-- The path of the file leads to its location, and its bytes are there. -/
structure Job.IsOn (env : Environment) (d : Disk) (j : Job) : Prop where
  find : d.find? env.base j.path = some j.location
  leaf : d.leaf? j.location = some (.file j.bytes)

/-- A copy that is new on the disk `d'`: on the disk `d` its path leads nowhere and nothing is at
its place, and on the disk `d'` its path leads there and it holds the bytes of its source. -/
structure Save.IsNew (env : Environment) (d d' : Disk) (s : Save) : Prop where
  absent : d.isPresent env.base s.copy = false
  vacant : d.at? s.place = none
  find : d'.find? env.base s.copy = some s.place
  leaf : d'.leaf? s.place = some (.file s.source.bytes)

/-- What happens to the run `r` when it handles the file `j`, where `save?` is the copy that is made
of it. -/
structure Handles (env : Environment) (plan : Plan) (j : Job) (r r' : Run)
    (save? : Option Save) : Prop where
  sound : r'.disk.IsSound
  grows : r.disk.Extends r'.disk
  file : r'.disk.leaf? j.location = some (.file (plan.bytesAfter r'.summary j.shown j.bytes))
  others : ∀ l e, r.disk.leaf? l = some e → l ≠ j.location → r'.disk.leaf? l = some e
  new : ∀ l e, r.disk.leaf? l = none → r'.disk.leaf? l = some e → ∃ s ∈ save?, s.place = l
  backups : r'.summary.backups = r.summary.backups ++ save?.toList.map (·.copy)
  isNew : ∀ s ∈ save?, s.source = j ∧ s.IsNew env r.disk r'.disk
  copied : plan.backup = true → r'.disk.leaf? j.location ≠ some (.file j.bytes) →
    save?.isSome = true
  noted : ∃ more, r'.summary.failures = r.summary.failures ++ more ∧ ∀ x ∈ more, x.file = j.shown
  dry : plan.dryRun = true → r'.disk = r.disk ∧ r'.summary = plan.account j.shown j.bytes r.summary
  account : { r'.summary with backups := [] } =
    plan.account j.shown j.bytes { r.summary with backups := [] } ∨
    ∃ t fault, plan.outcome j.bytes = .ok t ∧ t.changed = true ∧
      { r'.summary with backups := [] } =
        Plan.accountLacking j.shown t fault { r.summary with backups := [] }

variable {env : Environment} {plan : Plan} {j : Job} {r r' : Run} {new : List UInt8} {t : Cleaned}

namespace Handles

/-- If no copy failed, then the file was counted as its bytes say. -/
theorem totals {save? : Option Save} (h : Handles env plan j r r' save?)
    (hnone : ∀ x ∈ r'.summary.failures, x.isOfCopy = false) :
    { r'.summary with backups := [] } =
      plan.account j.shown j.bytes { r.summary with backups := [] } := by
  refine h.account.resolve_right ?_
  rintro ⟨t, fault, -, -, hlacking⟩
  have hfailures : r'.summary.failures = r.summary.failures ++
      [⟨j.shown, (FileFault.backup fault).message⟩] :=
    congrArg Summary.failures hlacking
  refine Bool.noConfusion ((isOfCopy_backup j.shown fault).symm.trans (hnone _ ?_))
  rw [hfailures]
  exact List.mem_append_right _ (List.mem_singleton_self _)

section

variable (hj : j.IsOn env r.disk)
include hj

/-- There is nothing to write, or nothing is to be written. -/
theorem left (hsound : r.disk.IsSound) (guard : plan.rewrite? j.bytes = none ∨ plan.dryRun = true)
    (disk : r'.disk = r.disk) (summary : r'.summary = plan.account j.shown j.bytes r.summary) :
    Handles env plan j r r' none where
  sound := disk ▸ hsound
  grows := disk ▸ .refl _
  file := by
    have hbytes : plan.bytesAfter r'.summary j.shown j.bytes = j.bytes := by
      unfold Plan.bytesAfter
      rcases guard with hnone | hdry
      · rw [hnone]
      · rw [hdry, Bool.true_or]
        split <;> rfl
    rw [hbytes, disk, hj.leaf]
  others l e hl _ := disk ▸ hl
  new l e hnone hsome := by
    rw [disk, hnone] at hsome
    cases hsome
  backups := by
    rw [summary, Plan.backups_account, Option.toList_none, List.map_nil, List.append_nil]
  isNew s hs := nomatch hs
  copied _ hne := absurd (disk ▸ hj.leaf) hne
  noted := summary ▸ Plan.failures_account plan j.shown j.bytes r.summary
  dry _ := ⟨disk, summary⟩
  account := .inl (by rw [Plan.account_with_backups, ← summary])

/-- No copy could be made. -/
theorem refused {fault : Backup.Fault} (h : plan.outcome j.bytes = .ok t)
    (hchanged : t.changed = true) (writes : plan.dryRun = false) (sound : r'.disk.IsSound)
    (disk : r.disk.AddsDirectories r'.disk)
    (summary : r'.summary = Plan.accountLacking j.shown t fault r.summary) :
    Handles env plan j r r' none where
  sound := sound
  grows := disk.toExtends
  file := by
    have hlacks : r'.summary.lacksCopy j.shown = true :=
      Summary.lacksCopy_of_failures (congrArg Summary.failures summary)
    rw [Plan.bytesAfter, Plan.rewrite?_of_ok h, hchanged, hlacks, Bool.or_true, disk.leaf, hj.leaf]
    rfl
  others l e hl _ := (disk.leaf l).trans hl
  new l e hnone hsome := by
    rw [disk.leaf, hnone] at hsome
    cases hsome
  backups := by
    rw [summary, Option.toList_none, List.map_nil, List.append_nil]
    rfl
  isNew s hs := nomatch hs
  copied _ hne := absurd ((disk.leaf _).trans hj.leaf) hne
  noted := ⟨_, congrArg Summary.failures summary, fun x hx ↦ by rw [List.mem_singleton.mp hx]⟩
  dry hdry := Bool.noConfusion (hdry.symm.trans writes)
  account := .inr ⟨t, fault, h, hchanged, by rw [summary]; rfl⟩

section Written

variable (hroot : r.disk.isDirectory = true) (rewrite : plan.rewrite? j.bytes = some new)
  (writes : plan.dryRun = false) (hfresh : ∀ x ∈ r.summary.failures, x.file ≠ j.shown)
include hroot rewrite writes hfresh

omit hj hroot in
theorem bytesAfter_of_written (failures : r'.summary.failures = r.summary.failures) :
    plan.bytesAfter r'.summary j.shown j.bytes = new := by
  have hlacks : r'.summary.lacksCopy j.shown = false :=
    Summary.lacksCopy_eq_false (by rwa [failures])
  rw [Plan.bytesAfter, rewrite]
  dsimp only
  rw [writes, hlacks, Bool.or_false, if_neg Bool.false_ne_true]

/-- The file was overwritten, and no copy was asked for. -/
theorem overwritten (hsound : r.disk.IsSound) (copies : plan.backup = false)
    (disk : r'.disk = r.disk.put j.location (.file new))
    (summary : r'.summary = plan.account j.shown j.bytes r.summary) :
    Handles env plan j r r' none where
  sound := disk ▸ Disk.isSound_overwrite hsound hj.leaf
  grows := disk ▸ Disk.extends_overwrite hroot hj.leaf
  file := by
    rw [bytesAfter_of_written rewrite writes hfresh
      (summary ▸ Plan.failures_account_of_rewrite? rewrite), disk,
      Disk.leaf?_overwrite hroot hj.leaf, if_pos rfl]
  others l e hl hne := by rw [disk, Disk.leaf?_overwrite hroot hj.leaf, if_neg hne, hl]
  new l e hnone hsome := by
    have hne : l ≠ j.location := fun hl ↦ Option.some_ne_none _ ((hl ▸ hj.leaf).symm.trans hnone)
    rw [disk, Disk.leaf?_overwrite hroot hj.leaf, if_neg hne, hnone] at hsome
    cases hsome
  backups := by
    rw [summary, Plan.backups_account, Option.toList_none, List.map_nil, List.append_nil]
  isNew s hs := nomatch hs
  copied hcopies := Bool.noConfusion (hcopies.symm.trans copies)
  noted := summary ▸ Plan.failures_account plan j.shown j.bytes r.summary
  dry hdry := Bool.noConfusion (hdry.symm.trans writes)
  account := .inl (by rw [Plan.account_with_backups, ← summary])

/-- The file was copied, and then overwritten. -/
theorem saved {d : Disk} {copy : Path} {place : Location} (hsound : d.IsSound)
    (gains : r.disk.Gains d j.bytes place) (absent : r.disk.isPresent env.base copy = false)
    (find : d.find? env.base copy = some place) (disk : r'.disk = d.put j.location (.file new))
    (summary : r'.summary =
      { plan.account j.shown j.bytes r.summary with backups := r.summary.backups ++ [copy] }) :
    Handles env plan j r r' (some ⟨j, copy, place⟩) := by
  have hroot' : d.isDirectory = true := gains.directory [] hroot
  have hleaf : d.leaf? j.location = some (.file j.bytes) := gains.leaf_of_ne hj.leaf
  have hfailures : r'.summary.failures = r.summary.failures :=
    summary ▸ Plan.failures_account_of_rewrite? rewrite
  have hapart : place ≠ j.location := by
    rintro rfl
    exact Option.some_ne_none _ (hj.leaf.symm.trans (Disk.leaf?_eq_none_of_at? gains.vacant))
  refine {
    sound := disk ▸ Disk.isSound_overwrite hsound hleaf
    grows := gains.toExtends.trans (disk ▸ Disk.extends_overwrite hroot' hleaf)
    file := ?file
    others := fun l e hl hne ↦ ?others
    new := fun l e hnone hsome ↦ ?new
    backups := summary ▸ rfl
    isNew := fun s hs ↦ ?isNew
    copied := fun _ _ ↦ rfl
    noted := ⟨[], hfailures.trans (List.append_nil _).symm, fun x hx ↦ (List.not_mem_nil hx).elim⟩
    dry := fun hdry ↦ Bool.noConfusion (hdry.symm.trans writes)
    account := .inl (by rw [Plan.account_with_backups, summary]) }
  case file =>
    rw [bytesAfter_of_written rewrite writes hfresh hfailures, disk,
      Disk.leaf?_overwrite hroot' hleaf, if_pos rfl]
  case others =>
    rw [disk, Disk.leaf?_overwrite hroot' hleaf, if_neg hne]
    exact gains.leaf_of_ne hl
  case new =>
    have hne : l ≠ j.location := fun hl ↦ Option.some_ne_none _ ((hl ▸ hj.leaf).symm.trans hnone)
    rw [disk, Disk.leaf?_overwrite hroot' hleaf, if_neg hne, gains.leaf, hnone] at hsome
    split_ifs at hsome with hl
    exact ⟨_, rfl, hl.symm⟩
  case isNew =>
    obtain rfl := Option.some.inj hs
    refine ⟨rfl, absent, gains.vacant, ?_, ?_⟩
    · rw [disk]
      exact (Disk.extends_overwrite hroot' hleaf).find? find
    · rw [disk, Disk.leaf?_overwrite hroot' hleaf, if_neg hapart, gains.leaf, if_pos rfl]

end Written

end

end Handles

/-! ### Steps of a run -/

/-- A file of which nothing can be made is left. -/
theorem Handles.of_error {fault : FileFault} (hj : j.IsOn env r.disk) (hsound : r.disk.IsSound)
    (h : plan.outcome j.bytes = .error fault) (disk : r'.disk = r.disk)
    (summary : r'.summary =
      { r.summary with
        filesProcessed := r.summary.filesProcessed + 1
        failures := r.summary.failures ++ [⟨j.shown, fault.message⟩] }) :
    Handles env plan j r r' none :=
  .left hj hsound (.inl (Plan.rewrite?_of_error h)) disk
    (summary.trans (Plan.account_of_error h).symm)

theorem write_of_find? {path : Path} {l : Location} (new : Text)
    (h : r.disk.find? env.base path = some l) :
    r.write env path new = { r with disk := r.disk.put l (.file (Utf8.encode new)) } := by
  rw [write, h]

section Backup

variable {shown : Text} {path : Path} {d : Disk} (copies : plan.backup = true)
include copies

theorem backup_of_error {fault : Backup.Fault}
    (h : Backup.create r.disk env.base path plan.backupDirectory
      (env.clock r.summary.filesProcessed) = (d, .error fault)) :
      r.backup env plan shown path = .error ({ r with disk := d }, fault) := by
  rw [backup, if_pos copies, h]

/-- The run after a copy was made has the copy on its disk and among its totals. -/
theorem backup_of_ok (shown : Text) {copy : Path}
    (h : Backup.create r.disk env.base path plan.backupDirectory
      (env.clock r.summary.filesProcessed) = (d, .ok copy)) :
    ∃ r', r.backup env plan shown path = .ok r' ∧ r'.disk = d ∧
      r'.summary = { r.summary with backups := r.summary.backups ++ [copy] } := by
  rw [backup, if_pos copies, h]
  exact ⟨_, rfl, rfl, rfl⟩

end Backup

section File

variable (hhere : r.disk.hasDirectory (Disk.origin plan.backupDirectory.isAbsolute env.base) = true)
  (hsound : r.disk.IsSound) (hroot : r.disk.isDirectory = true) (hj : j.IsOn env r.disk)
  (hfresh : ∀ x ∈ r.summary.failures, x.file ≠ j.shown)
include hhere hsound hroot hj hfresh

/-- Writing the text of a file, where `r'` is the run after the text was counted. -/
theorem exists_handles_save (h : plan.outcome j.bytes = .ok t) (hchanged : t.changed = true)
    (writes : plan.dryRun = false) (hdisk : r'.disk = r.disk)
    (hsummary : r'.summary =
      Summary.add { r.summary with filesProcessed := r.summary.filesProcessed + 1 } t) :
    ∃ save?, Handles env plan j r (r'.save env plan j.shown j.path t) save? := by
  have rewrite : plan.rewrite? j.bytes = some (Utf8.encode t.text) := by
    rw [Plan.rewrite?_of_ok h, hchanged, if_pos rfl]
  have haccount : r'.countModified.summary = plan.account j.shown j.bytes r.summary := by
    rw [Plan.account_of_ok h, hchanged, if_pos rfl, summary_countModified, hsummary]
  cases copies : plan.backup with
  | false =>
    have hfind : r'.disk.find? env.base j.path = some j.location := hdisk ▸ hj.find
    have hback : r'.backup env plan j.shown j.path = .ok r' := by
      rw [backup, copies, if_neg Bool.false_ne_true]
    rw [save, hback]
    refine ⟨none, .overwritten hj hroot rewrite writes hfresh hsound copies ?_ ?_⟩
    · rw [disk_log, disk_countModified, write_of_find? _ hfind, hdisk]
    · rw [summary_log, write_of_find? _ hfind]
      exact haccount
  | true =>
    have hbytes : r.disk.bytes? env.base j.path = some j.bytes :=
      Disk.bytes?_eq_some_iff.mpr ⟨j.location, hj.find, hj.leaf⟩
    obtain ⟨hsound', hcase⟩ :=
      Backup.create_spec hsound hhere (env.clock r'.summary.filesProcessed) hbytes
    cases hcreate : Backup.create r.disk env.base j.path plan.backupDirectory
        (env.clock r'.summary.filesProcessed) with
    | mk d made =>
      rw [hcreate] at hsound' hcase
      rw [← hdisk] at hcreate
      rcases hcase with ⟨⟨fault, rfl⟩, hadds⟩ | ⟨copy, place, rfl, hgains, habsent, hcopy⟩
      · rw [save, backup_of_error copies hcreate]
        refine ⟨none,
          .refused hj h hchanged writes hsound' hadds (?_ : _ = Plan.accountLacking _ _ fault _)⟩
        rw [Plan.accountLacking, ← hsummary]
        rfl
      · obtain ⟨r₁, hback, hdisk₁, hsummary₁⟩ := backup_of_ok copies j.shown hcreate
        have hfind₁ : r₁.disk.find? env.base j.path = some j.location := by
          rw [hdisk₁]
          exact hgains.toExtends.find? hj.find
        have hbackups : r'.summary.backups = r.summary.backups := by
          rw [hsummary]
          rfl
        rw [save, hback]
        refine ⟨_, .saved hj hroot rewrite writes hfresh hsound' hgains habsent hcopy ?_ ?_⟩
        · rw [disk_log, disk_countModified, write_of_find? _ hfind₁, hdisk₁]
        · rw [summary_log, summary_countModified, write_of_find? _ hfind₁, hsummary₁,
            ← haccount, hbackups, summary_countModified]

/-- Going on with a file whose text was cleaned, where `r'` is the run after the file was
counted. -/
theorem exists_handles_finish (plain : Bool) (before : Text) (h : plan.outcome j.bytes = .ok t)
    (hdisk : r'.disk = r.disk)
    (hsummary : r'.summary = { r.summary with filesProcessed := r.summary.filesProcessed + 1 }) :
    ∃ save?, Handles env plan j r (r'.finish env plan plain j.shown j.path before t) save? := by
  have haccount := Plan.account_of_ok h j.shown r.summary
  have hrewrite := Plan.rewrite?_of_ok h
  -- Whether a warning is put out changes neither the disk nor the totals.
  obtain ⟨r₁, hfinish, hdisk₁, hsummary₁⟩ : ∃ r₁ : Run,
    (r'.finish env plan plain j.shown j.path before t =
      if !t.changed then r₁.log env .debug (j.shown ++ ": unchanged")
      else if plan.dryRun then r₁.preview plan plain j.shown before t.text
      else r₁.save env plan j.shown j.path t) ∧ r₁.disk = r.disk ∧
        r₁.summary = r'.summary.add t := by
    refine ⟨_, rfl, ?_, ?_⟩
    · split_ifs
      · exact hdisk
      · exact hdisk
    · split_ifs <;> rfl
  rw [hsummary] at hsummary₁
  rw [hfinish]
  cases hchanged : t.changed with
  | false =>
    rw [hchanged, if_neg Bool.false_ne_true] at haccount hrewrite
    exact ⟨none, .left hj hsound (.inl hrewrite) hdisk₁ (hsummary₁.trans haccount.symm)⟩
  | true =>
    rw [hchanged, if_pos rfl] at haccount
    have hcounted : r₁.countModified.summary = plan.account j.shown j.bytes r.summary := by
      rw [haccount, summary_countModified, hsummary₁]
    rw [Bool.not_true, if_neg Bool.false_ne_true]
    split_ifs with hdry
    · exact ⟨none, .left hj hsound (.inr hdry) hdisk₁ hcounted⟩
    · exact exists_handles_save hhere hsound hroot hj hfresh h hchanged (eq_false_of_ne_true hdry)
        hdisk₁ hsummary₁

/-- A run handles the files that it comes to. -/
theorem exists_handles_file (plain : Bool) :
    ∃ save?, Handles env plan j r (r.file env plan plain j.shown j.path) save? := by
  have hbytes : r.disk.bytes? env.base j.path = some j.bytes :=
    Disk.bytes?_eq_some_iff.mpr ⟨j.location, hj.find, hj.leaf⟩
  unfold file
  simp only [hbytes]
  cases hdecode : Utf8.decode? j.bytes with
  | none =>
    have houtcome : plan.outcome j.bytes = .error .undecodable := by rw [Plan.outcome, hdecode]
    exact ⟨none, .of_error hj hsound houtcome rfl rfl⟩
  | some before =>
    have houtcome :
        plan.outcome j.bytes = (plan.removal.apply before plan.packages.parse).mapError
          .removal := by
      rw [Plan.outcome, hdecode]
    dsimp only
    cases happly : plan.removal.apply before plan.packages.parse with
    | error fault =>
      have hfault : plan.outcome j.bytes = .error (.removal fault) :=
        houtcome.trans (by rw [happly]; rfl)
      exact ⟨none, .of_error hj hsound hfault rfl rfl⟩
    | ok t =>
      exact exists_handles_finish hhere hsound hroot hj hfresh plain before
        (houtcome.trans (by rw [happly]; rfl)) rfl rfl

end File

end Run

end Declutter
