import Declutter.Proofs.Run.Step
import Mathlib.Algebra.BigOperators.Group.List.Basic
import Mathlib.Algebra.Ring.Nat
/-!
The totals of a run. Each file is modified, fails or stays unchanged (`Run.Fate`), and the totals
count it so; the other totals are sums over the files that were cleaned (`Run.Accounts`). One more
file keeps the accounts (`Run.Accounts.step`).

A file that was cleaned and of which no copy could be made fails, and is in these sums all the same:
they are taken before the copy is made.
-/

set_option autoImplicit false
set_option relaxedAutoImplicit false

namespace Declutter

/-- The sums among the totals are those of what was done to the given texts. -/
structure Summary.Sums (s : Summary) (results : List Cleaned) : Prop where
  calls : s.callsRemoved = (results.map (·.tally.callsRemoved)).sum
  comments : s.commentsRemoved = (results.map (·.commentsRemoved)).sum
  commented : s.filesWithCommentsRemoved = results.countP (0 < ·.commentsRemoved)
  placeholders : s.placeholdersInserted = (results.map (·.tally.placeholdersInserted)).sum
  constructs : s.constructsRemoved = (results.map (·.tally.constructsRemoved)).sum

namespace Summary.Sums

variable {s : Summary} {results : List Cleaned} {t : Cleaned}

theorem add (h : s.Sums results) (t : Cleaned) : (s.add t).Sums (results ++ [t]) := by
  constructor
  · simp [Summary.add, h.calls]
  · simp [Summary.add, h.comments]
  · simp [Summary.add, h.commented, List.countP_singleton]
  · simp [Summary.add, h.placeholders]
  · simp [Summary.add, h.constructs]

/-- The copies are not among the sums. -/
theorem of_with_backups (h : ({ s with backups := [] } : Summary).Sums results) : s.Sums results :=
  { h with }

end Summary.Sums

namespace Run

/-- What becomes of a file in a run. -/
inductive Fate where
  | modified | failed | unchanged
deriving DecidableEq

end Run

namespace Plan

open Run

/-- What becomes of a file in a run with the totals `s`. It fails if it cannot be cleaned, or if it
is to be written and no copy of it could be made. -/
def fate (plan : Plan) (s : Summary) (j : Job) : Fate :=
  match plan.outcome j.bytes with
  | .error _ => .failed
  | .ok t => if !t.changed then .unchanged else if s.lacksCopy j.shown then .failed else .modified

/-- What removal makes of a file, if it makes anything of it. -/
def cleaned? (plan : Plan) (j : Job) : Option Cleaned := (plan.outcome j.bytes).toOption

variable {plan : Plan} {j : Job} {s : Summary} {t : Cleaned} {fault : FileFault}

theorem fate_of_error (h : plan.outcome j.bytes = .error fault) (s : Summary) :
    plan.fate s j = .failed := by
  rw [fate, h]

theorem fate_of_unchanged (h : plan.outcome j.bytes = .ok t) (hchanged : t.changed = false)
    (s : Summary) :
    plan.fate s j = .unchanged := by
  rw [fate, h]
  exact if_pos (by rw [hchanged]; rfl)

theorem fate_of_changed (h : plan.outcome j.bytes = .ok t) (hchanged : t.changed = true) :
    plan.fate s j = if s.lacksCopy j.shown then .failed else .modified := by
  rw [fate, h]
  exact if_neg (by rw [hchanged]; exact Bool.false_ne_true)

theorem cleaned?_of_error (h : plan.outcome j.bytes = .error fault) : plan.cleaned? j = none := by
  rw [cleaned?, h]
  rfl

theorem cleaned?_of_ok (h : plan.outcome j.bytes = .ok t) : plan.cleaned? j = some t := by
  rw [cleaned?, h]
  rfl

end Plan

namespace Run

/-- The totals `s` of a run over the files `jobs`. -/
structure Accounts (plan : Plan) (jobs : List Job) (s : Summary) : Prop where
  processed : s.filesProcessed = jobs.length
  modified : s.filesModified = jobs.countP (plan.fate s · = .modified)
  failed : s.failures.map (·.file) = (jobs.filter (plan.fate s · = .failed)).map (·.shown)
  sums : s.Sums (jobs.filterMap plan.cleaned?)

variable {env : Environment} {plan : Plan} {jobs : List Job} {j k : Job} {r r' : Run}
  {save? : Option Save} {s s' : Summary} {t : Cleaned}

/-- What is noted of one file does not bear on another. -/
theorem Handles.lacksCopy_of_ne (h : Handles env plan j r r' save?) (hne : k.shown ≠ j.shown) :
    r'.summary.lacksCopy k.shown = r.summary.lacksCopy k.shown := by
  obtain ⟨more, hmore, hnames⟩ := h.noted
  have hnone : (more.any fun x ↦ x.file == k.shown && x.isOfCopy) = false := by
    refine List.any_eq_false.mpr fun x hx hboth ↦ hne ?_
    rw [← hnames x hx, eq_of_beq (Bool.and_eq_true_iff.mp hboth).1]
  rw [Summary.lacksCopy, hmore, List.any_append, hnone, Bool.or_false, Summary.lacksCopy]

namespace Accounts

theorem nil : Accounts plan [] {} := ⟨rfl, rfl, rfl, rfl, rfl, rfl, rfl, rfl⟩

/-- No failure is noted of another file. -/
theorem ne_of_mem_failures (h : Accounts plan jobs s) (hnames : ∀ k ∈ jobs, j.shown ≠ k.shown) :
    ∀ x ∈ s.failures, x.file ≠ j.shown := by
  intro x hx heq
  have hfile := List.mem_map_of_mem (f := (·.file)) hx
  rw [h.failed] at hfile
  obtain ⟨k, hk, hname⟩ := List.mem_map.mp hfile
  exact hnames k (List.mem_filter.mp hk).1 (hname.trans heq).symm

/-- One more file, which meets its fate. -/
theorem concat {fate : Fate} (h : Accounts plan jobs s)
    (hfates : ∀ k ∈ jobs, plan.fate s' k = plan.fate s k) (hfate : plan.fate s' j = fate)
    (processed : s'.filesProcessed = s.filesProcessed + 1)
    (modified : s'.filesModified = s.filesModified + if fate = .modified then 1 else 0)
    (failed : s'.failures.map (·.file) = s.failures.map (·.file) ++ if fate = .failed then [j.shown]
      else []) (sums : s'.Sums (jobs.filterMap plan.cleaned? ++ (plan.cleaned? j).toList)) :
    Accounts plan (jobs ++ [j]) s' where
  processed := by rw [processed, h.processed, List.length_append, List.length_singleton]
  modified := by
    have hcount : jobs.countP (plan.fate s' · = .modified) =
        jobs.countP (plan.fate s · = .modified) :=
      List.countP_congr fun k hk ↦ by rw [hfates k hk]
    rw [modified, h.modified, List.countP_append, hcount, List.countP_singleton, hfate]
    simp only [decide_eq_true_eq]
  failed := by
    have hfilter : jobs.filter (plan.fate s' · = .failed) = jobs.filter (plan.fate s · = .failed) :=
      List.filter_congr fun k hk ↦ by rw [hfates k hk]
    rw [failed, h.failed, List.filter_append, hfilter, List.map_append,
      List.filter_singleton, hfate]
    split_ifs <;> simp_all
  sums := by
    rw [List.filterMap_append]
    cases hcleaned : plan.cleaned? j <;> simpa [hcleaned] using sums

/-- One more file that was cleaned, where `more` is what is noted of it. -/
theorem concat_of_ok {fate : Fate} {more : List Failure} (h : Accounts plan jobs s)
    (hfates : ∀ k ∈ jobs, plan.fate s' k = plan.fate s k) (houtcome : plan.outcome j.bytes = .ok t)
    (hfate : plan.fate s' j = fate)
    (hmore : more.map (·.file) = if fate = .failed then [j.shown] else [])
    (haccount : { s' with backups := [] } =
      { Summary.add { s with filesProcessed := s.filesProcessed + 1, backups := [] } t with
        filesModified := s.filesModified + if fate = .modified then 1 else 0
        failures := s.failures ++ more }) : Accounts plan (jobs ++ [j]) s' := by
  have hsums := h.sums
  have hmodified := congrArg Summary.filesModified haccount
  have hfailures : s'.failures = s.failures ++ more := (congrArg Summary.failures haccount :)
  refine h.concat hfates hfate (congrArg Summary.filesProcessed haccount) hmodified ?_ ?_
  · rw [hfailures, List.map_append, hmore]
  · rw [Plan.cleaned?_of_ok houtcome, Option.toList_some]
    exact .of_with_backups (haccount ▸ { hsums.add t with })

/-- One more file that could not be cleaned. -/
theorem concat_of_error {fault : FileFault} (h : Accounts plan jobs s)
    (hfates : ∀ k ∈ jobs, plan.fate s' k = plan.fate s k)
    (houtcome : plan.outcome j.bytes = .error fault)
    (haccount : { s' with backups := [] } = plan.account j.shown j.bytes { s with backups := [] }) :
    Accounts plan (jobs ++ [j]) s' := by
  have hsums := h.sums
  rw [Plan.account_of_error houtcome] at haccount
  have hmodified := congrArg Summary.filesModified haccount
  have hfailures := congrArg Summary.failures haccount
  refine h.concat hfates (Plan.fate_of_error houtcome _) (congrArg Summary.filesProcessed haccount)
    hmodified ?_ ?_
  · exact (congrArg (List.map Failure.file) hfailures).trans List.map_append
  · rw [Plan.cleaned?_of_error houtcome, Option.toList_none, List.append_nil]
    exact .of_with_backups (haccount ▸ { hsums with })

/-- One more file. -/
theorem step (h : Accounts plan jobs r.summary) (hh : Handles env plan j r r' save?)
    (hnames : ∀ k ∈ jobs, j.shown ≠ k.shown) : Accounts plan (jobs ++ [j]) r'.summary := by
  have hfates : ∀ k ∈ jobs, plan.fate r'.summary k = plan.fate r.summary k := fun k hk ↦ by
    rw [Plan.fate, hh.lacksCopy_of_ne (hnames k hk).symm, Plan.fate]
  rcases hh.account with haccount | ⟨t, fault, houtcome, hchanged, haccount⟩
  · cases houtcome : plan.outcome j.bytes with
    | error fault => exact h.concat_of_error hfates houtcome haccount
    | ok t =>
      rw [Plan.account_of_ok houtcome] at haccount
      cases hchanged : t.changed with
      | false =>
        rw [hchanged, if_neg Bool.false_ne_true] at haccount
        exact h.concat_of_ok hfates houtcome (Plan.fate_of_unchanged houtcome hchanged _)
          List.map_nil (haccount.trans (by simp [Summary.add]))
      | true =>
        rw [hchanged, if_pos rfl] at haccount
        have hfailures : r'.summary.failures = r.summary.failures :=
          (congrArg Summary.failures haccount :)
        have hlacks : r'.summary.lacksCopy j.shown = false :=
          Summary.lacksCopy_eq_false (hfailures ▸ h.ne_of_mem_failures hnames)
        have hfate : plan.fate r'.summary j = .modified := by
          rw [Plan.fate_of_changed houtcome hchanged, hlacks, if_neg Bool.false_ne_true]
        exact h.concat_of_ok hfates houtcome hfate List.map_nil
          (haccount.trans (by simp [Summary.add]))
  · have hfailures : r'.summary.failures = r.summary.failures ++
        [⟨j.shown, (FileFault.backup fault).message⟩] :=
      (congrArg Summary.failures haccount :)
    have hfate : plan.fate r'.summary j = .failed := by
      rw [Plan.fate_of_changed houtcome hchanged, Summary.lacksCopy_of_failures hfailures,
        if_pos rfl]
    exact h.concat_of_ok hfates houtcome hfate rfl haccount

end Accounts

end Run

end Declutter
