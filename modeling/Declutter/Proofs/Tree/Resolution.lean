import Declutter.Proofs.Tree.Balance
/-!
What settling a construct does with each of its clauses. A clause stays, is filled, or goes, and a
`Verdict` writes down which (`Construct.IsResolved`): exactly the emptied clauses do not stay, each
of them is filled or goes, and the tally counts them (`Construct.settle_resolves`). So every emptied
clause is settled once, and a construct that has been settled by `fill` or `remove` has none left:
policies that come after do nothing (`Construct.settle_once`).

The verdicts are reached from the last clause to the first, since an `elif` can go only if nothing
after it is left.
-/

set_option autoImplicit false
set_option relaxedAutoImplicit false

namespace Declutter

open scoped List

/-- The roles of clauses that can go. -/
theorem Role.mem_of_canGo {role : Role} {trailing handled : Bool}
    (h : role.canGo trailing handled = true) :
    role ∈ [Role.elif, .orElse, .cleanup] := by
  cases role with
  | primary | handler | case => exact Bool.noConfusion h
  | elif | orElse | cleanup => decide

/-! ### Verdicts -/

/-- What becomes of a clause when its construct is settled. -/
inductive Clause.Outcome where
  | stays | filled | goes
deriving DecidableEq, Repr

/-- A clause, and what becomes of it. -/
structure Clause.Verdict where
  clause : Clause
  outcome : Clause.Outcome

namespace Clause.Verdict

/-- What is left of the clause. -/
def left? (v : Verdict) : Option Clause :=
  match v.outcome with
  | .stays => some v.clause
  | .filled => some v.clause.fill.1
  | .goes => none

/-- Whether the clause goes. -/
def isGone (v : Verdict) : Bool := v.outcome = .goes

/-- What is counted of verdicts. -/
def tally (verdicts : List Verdict) : Tally :=
  { placeholdersInserted := verdicts.countP (·.outcome = .filled)
    clausesRemoved := verdicts.countP isGone }

/-- The verdict on a clause before clauses of which the verdicts are known. -/
def on (policy : Policy) (handled : Bool) (c : Clause) (later : List Verdict) : Verdict where
  clause := c
  outcome :=
    if c.body.emptied = false ∨ policy = .keep then .stays
    else if policy = .remove ∧ c.role.canGo (later.all isGone) handled = true then .goes
    else .filled

/-- The verdicts on the clauses of a construct, which has a handler or has none. -/
def ofClauses (policy : Policy) (handled : Bool) : List Clause → List Verdict
  | [] => []
  | c :: rest =>
    on policy handled c (ofClauses policy handled rest) :: ofClauses policy handled rest

variable {policy : Policy} {handled : Bool} {c : Clause} {clauses : List Clause} {v : Verdict}
  {later : List Verdict}

theorem on_of_stays (h : c.body.emptied = false ∨ policy = .keep) :
    on policy handled c later = ⟨c, .stays⟩ := by
  rw [on, if_pos h]

theorem on_of_goes (h : ¬ (c.body.emptied = false ∨ policy = .keep))
    (hgo : policy = .remove ∧ c.role.canGo (later.all isGone) handled = true) :
    on policy handled c later = ⟨c, .goes⟩ := by
  rw [on, if_neg h, if_pos hgo]

theorem on_of_filled (h : ¬ (c.body.emptied = false ∨ policy = .keep))
    (hgo : ¬ (policy = .remove ∧ c.role.canGo (later.all isGone) handled = true)) :
    on policy handled c later = ⟨c, .filled⟩ := by
  rw [on, if_neg h, if_neg hgo]

theorem outcome_on_eq_stays_iff :
    (on policy handled c later).outcome = .stays ↔ c.body.emptied = false ∨ policy = .keep := by
  by_cases h : c.body.emptied = false ∨ policy = .keep
  · rw [on_of_stays h]
    exact iff_of_true rfl h
  · refine iff_of_false ?_ h
    rw [on, if_neg h]
    dsimp only
    split_ifs <;> simp

/-- A clause goes only under `remove`, and only where its role lets it go. -/
theorem of_outcome_on_eq_goes (h : (on policy handled c later).outcome = .goes) :
    policy = .remove ∧ c.role.canGo (later.all isGone) handled = true := by
  rw [on] at h
  dsimp only at h
  split_ifs at h with hstays hgo
  exact hgo

theorem map_clause_ofClauses (policy : Policy) (handled : Bool) (clauses : List Clause) :
    (ofClauses policy handled clauses).map (·.clause) = clauses := by
  induction clauses with
  | nil => rfl
  | cons c rest ih =>
    rw [ofClauses, List.map_cons, ih]
    rfl

/-- Each verdict is the verdict on a clause, before clauses of which the verdicts come later in the
list. -/
theorem exists_of_mem_ofClauses (h : v ∈ ofClauses policy handled clauses) :
    v.clause ∈ clauses ∧ ∃ later, v = on policy handled v.clause later := by
  induction clauses with
  | nil => exact nomatch h
  | cons c rest ih =>
    rcases List.mem_cons.mp h with rfl | h
    · exact ⟨List.mem_cons_self, _, rfl⟩
    · exact (ih h).imp_left (List.mem_cons_of_mem c)

/-- Where an `elif` goes, so do all clauses after it. -/
theorem pairwise_elif (policy : Policy) (handled : Bool) (clauses : List Clause) :
    (ofClauses policy handled clauses).Pairwise fun v w ↦
      v.outcome = .goes → v.clause.role = .elif → w.outcome = .goes := by
  induction clauses with
  | nil => exact .nil
  | cons c rest ih =>
    refine .cons (fun w hw hgoes helif ↦ ?_) ih
    obtain ⟨-, hgo⟩ := of_outcome_on_eq_goes hgoes
    have hrole : c.role = .elif := helif
    rw [hrole] at hgo
    exact of_decide_eq_true (List.all_eq_true.mp hgo w hw)

/-- The tally of one verdict more. -/
theorem tally_cons (v : Verdict) (later : List Verdict) :
    tally (v :: later) = tally later +
      match v.outcome with
      | .stays => 0
      | .filled => { placeholdersInserted := 1 }
      | .goes => { clausesRemoved := 1 } := by
  obtain ⟨c, outcome⟩ := v
  cases outcome <;> ext <;> simp [tally, isGone]

/-- Every emptied clause is filled or goes, unless empty blocks are kept. -/
theorem countP_ofClauses (hpolicy : policy ≠ .keep) (clauses : List Clause) :
    (ofClauses policy handled clauses).countP (·.outcome = .filled) +
        (ofClauses policy handled clauses).countP isGone =
      clauses.countP (·.body.emptied) := by
  induction clauses with
  | nil => rfl
  | cons c rest ih =>
    rw [ofClauses, List.countP_cons, List.countP_cons, List.countP_cons, ← ih]
    cases hemptied : c.body.emptied with
    | false =>
      rw [on_of_stays (.inl hemptied)]
      simp [isGone]
    | true =>
      have hnot : ¬ (c.body.emptied = false ∨ policy = .keep) := by simp [hemptied, hpolicy]
      by_cases hgo : policy = .remove ∧
        c.role.canGo ((ofClauses policy handled rest).all isGone) handled = true
      · rw [on_of_goes hnot hgo]
        simp [isGone, Nat.add_assoc]
      · rw [on_of_filled hnot hgo]
        simp [isGone, Nat.add_right_comm]

end Clause.Verdict

/-! ### Settled constructs -/

/-- The construct `d` is what is left of `c`, by a verdict on each of the clauses of `c`. -/
structure Construct.IsResolved (policy : Policy) (c d : Construct)
    (verdicts : List Clause.Verdict) : Prop where
  kind : d.kind = c.kind
  span : d.span = c.span
  clauses : verdicts.map (·.clause) = c.clauses
  /-- What is left of the clauses is in their order. -/
  left : d.clauses = verdicts.filterMap Clause.Verdict.left?
  dropped : d.dropped ~ c.dropped ++ (verdicts.filter Clause.Verdict.isGone).map (·.clause.span)
  stays : ∀ v ∈ verdicts, v.outcome = .stays ↔ v.clause.body.emptied = false ∨ policy = .keep
  goes : ∀ v ∈ verdicts, v.outcome = .goes → policy = .remove ∧
    v.clause.role ∈ [.elif, .orElse, .cleanup]
  elif : verdicts.Pairwise fun v w ↦ v.outcome = .goes → v.clause.role = .elif → w.outcome = .goes
  cleanup : ∀ v ∈ verdicts, v.outcome = .goes → v.clause.role = .cleanup →
    ∃ w ∈ verdicts, w.clause.role = .handler ∧ w.outcome ≠ .goes

namespace Construct

open Clause (Verdict)

/-- The emptied clauses have a place for a placeholder. -/
def IsReady (c : Construct) : Prop :=
  ∀ cl ∈ c.clauses, cl.body.emptied = true → cl.body.excised ≠ []

instance (c : Construct) : Decidable c.IsReady :=
  inferInstanceAs (Decidable (∀ cl ∈ c.clauses, cl.body.emptied = true → cl.body.excised ≠ []))

/-- The construct settled by one policy after the other, as long as something of it is left. -/
def settleAll : List Policy → Construct → Option Construct × Tally
  | [], c => (some c, 0)
  | policy :: policies, c =>
    match c.settle policy with
    | (some d, tally) => ((settleAll policies d).1, tally + (settleAll policies d).2)
    | (none, tally) => (none, tally)

variable {policy : Policy} {handled : Bool} {c d : Construct} {clauses : List Clause}

/-- Dropping from the last clause to the first carries out the verdicts. -/
theorem dropFrom_eq (h : ∀ cl ∈ clauses, cl.body.emptied = true → cl.body.excised ≠ []) :
    (dropFrom handled clauses).kept = (Verdict.ofClauses .remove handled clauses).filterMap
      Verdict.left? ∧
    (dropFrom handled clauses).dropped =
      (((Verdict.ofClauses .remove handled clauses).filter Verdict.isGone).map
        (·.clause.span)).reverse ∧
    (dropFrom handled clauses).trailing = (Verdict.ofClauses .remove handled clauses).all
      Verdict.isGone ∧
    (dropFrom handled clauses).tally =
      Verdict.tally (Verdict.ofClauses .remove handled clauses) := by
  induction clauses with
  | nil => exact ⟨rfl, rfl, rfl, rfl⟩
  | cons cl rest ih =>
    rw [List.forall_mem_cons] at h
    obtain ⟨hkept, hdropped, htrailing, htally⟩ := ih h.2
    rw [dropFrom, Verdict.ofClauses, Verdict.tally_cons]
    dsimp only
    rw [htrailing]
    split_ifs with hemptied hgo
    · rw [Verdict.on_of_stays (.inl (by simpa using hemptied))]
      refine ⟨?_, hdropped, rfl, ?_⟩
      · rw [hkept]
        rfl
      · rw [htally, add_zero]
    · have hnot : ¬ (cl.body.emptied = false ∨ Policy.remove = .keep) := by simpa using hemptied
      rw [Verdict.on_of_goes hnot ⟨rfl, hgo⟩]
      refine ⟨hkept, ?_, rfl, ?_⟩
      · rw [hdropped, List.filter_cons_of_pos (by rfl), List.map_cons, List.reverse_cons]
      · rw [htally]
    · have hnot : ¬ (cl.body.emptied = false ∨ Policy.remove = .keep) := by simpa using hemptied
      obtain ⟨anchor, others, hexcised⟩ :=
        List.exists_cons_of_ne_nil (h.1 (by simpa using hemptied))
      rw [Verdict.on_of_filled hnot fun hgo' ↦ hgo hgo'.2]
      refine ⟨?_, hdropped, rfl, ?_⟩
      · rw [hkept]
        rfl
      · rw [htally, Clause.fill, hexcised]

/-- What stays as it is: the clauses, and the count of what was done to them. -/
theorem ofClauses_of_stays (handled : Bool)
    (h : ∀ cl ∈ clauses, cl.body.emptied = false ∨ policy = .keep) :
    (Verdict.ofClauses policy handled clauses).filterMap Verdict.left? = clauses ∧
    (Verdict.ofClauses policy handled clauses).filter Verdict.isGone = [] ∧
    Verdict.tally (Verdict.ofClauses policy handled clauses) = 0 := by
  induction clauses with
  | nil => exact ⟨rfl, rfl, rfl⟩
  | cons cl rest ih =>
    rw [List.forall_mem_cons] at h
    obtain ⟨hleft, hgone, htally⟩ := ih h.2
    rw [Verdict.ofClauses, Verdict.on_of_stays h.1, Verdict.tally_cons]
    refine ⟨?_, hgone, ?_⟩
    · rw [List.filterMap_cons_some (by rfl), hleft]
    · rw [htally, add_zero]

theorem ofClauses_fill (handled : Bool)
    (h : ∀ cl ∈ clauses, cl.body.emptied = true → cl.body.excised ≠ []) :
    (Verdict.ofClauses .fill handled clauses).filterMap Verdict.left? =
      clauses.map (·.fillEmptied.1) ∧
    (Verdict.ofClauses .fill handled clauses).filter Verdict.isGone = [] ∧
    Verdict.tally (Verdict.ofClauses .fill handled clauses) =
      (clauses.map (·.fillEmptied.2)).sum := by
  induction clauses with
  | nil => exact ⟨rfl, rfl, rfl⟩
  | cons cl rest ih =>
    rw [List.forall_mem_cons] at h
    obtain ⟨hleft, hgone, htally⟩ := ih h.2
    rw [Verdict.ofClauses, List.map_cons, List.map_cons, List.sum_cons, Verdict.tally_cons,
      htally, add_comm, Clause.fillEmptied]
    split_ifs with hemptied
    · obtain ⟨anchor, others, hexcised⟩ := List.exists_cons_of_ne_nil (h.1 hemptied)
      rw [Verdict.on_of_filled (by simp [hemptied]) (by simp)]
      refine ⟨?_, hgone, ?_⟩
      · rw [List.filterMap_cons_some (by rfl), hleft]
      · rw [Clause.fill, hexcised]
    · rw [Verdict.on_of_stays (.inl (eq_false_of_ne_true hemptied))]
      refine ⟨?_, hgone, rfl⟩
      rw [List.filterMap_cons_some (by rfl), hleft]

/-- What the verdicts say of each clause, whatever is made of them. -/
theorem isResolved_of (hkind : d.kind = c.kind) (hspan : d.span = c.span)
    (hleft : d.clauses = (Verdict.ofClauses policy c.isHandled c.clauses).filterMap Verdict.left?)
    (hdropped : d.dropped ~ c.dropped ++
      ((Verdict.ofClauses policy c.isHandled c.clauses).filter Verdict.isGone).map
        (·.clause.span)) :
    c.IsResolved policy d (Verdict.ofClauses policy c.isHandled c.clauses) where
  kind := hkind
  span := hspan
  clauses := Verdict.map_clause_ofClauses policy c.isHandled c.clauses
  left := hleft
  dropped := hdropped
  elif := Verdict.pairwise_elif policy c.isHandled c.clauses
  stays v hv := by
    obtain ⟨-, later, hon⟩ := Verdict.exists_of_mem_ofClauses hv
    rw [hon]
    exact Verdict.outcome_on_eq_stays_iff
  goes v hv hgoes := by
    obtain ⟨-, later, hon⟩ := Verdict.exists_of_mem_ofClauses hv
    rw [hon] at hgoes
    obtain ⟨hremove, hgo⟩ := Verdict.of_outcome_on_eq_goes hgoes
    exact ⟨hremove, Role.mem_of_canGo hgo⟩
  cleanup v hv hgoes hrole := by
    obtain ⟨-, later, hon⟩ := Verdict.exists_of_mem_ofClauses hv
    rw [hon] at hgoes
    obtain ⟨-, hgo⟩ := Verdict.of_outcome_on_eq_goes hgoes
    rw [hrole] at hgo
    -- the construct has a handler, and handlers do not go
    have hhandled : c.clauses.any (·.role = .handler) = true := hgo
    obtain ⟨cl, hcl, hhandler⟩ := List.any_eq_true.mp hhandled
    rw [← Verdict.map_clause_ofClauses policy c.isHandled c.clauses] at hcl
    obtain ⟨w, hw, rfl⟩ := List.mem_map.mp hcl
    refine ⟨w, hw, of_decide_eq_true hhandler, fun hgone ↦ ?_⟩
    obtain ⟨-, later', hon'⟩ := Verdict.exists_of_mem_ofClauses hw
    rw [hon'] at hgone
    obtain ⟨-, hgo'⟩ := Verdict.of_outcome_on_eq_goes hgone
    rw [of_decide_eq_true hhandler] at hgo'
    exact Bool.noConfusion hgo'

/-- What settling leaves of a construct, and what it counts, is what the verdicts say; only the
blocks that are kept empty are counted otherwise. -/
theorem settle_resolves (hready : c.IsReady) (h : (c.settle policy).1 = some d) :
    c.IsResolved policy d (Verdict.ofClauses policy c.isHandled c.clauses) ∧
    (policy ≠ .keep →
      (c.settle policy).2 = Verdict.tally (Verdict.ofClauses policy c.isHandled c.clauses)) := by
  unfold settle at h ⊢
  split_ifs at h ⊢ with hcount
  · obtain rfl := Option.some.inj h
    obtain ⟨hleft, hgone, htally⟩ :=
      @ofClauses_of_stays policy c.clauses c.isHandled fun cl hcl ↦
        .inl (emptiedCount_eq_zero_iff.mp hcount cl hcl)
    exact ⟨isResolved_of rfl rfl hleft.symm (by rw [hgone, List.map_nil, List.append_nil]),
      fun _ ↦ htally.symm⟩
  · cases policy with
    | keep =>
      obtain rfl := Option.some.inj h
      obtain ⟨hleft, hgone, -⟩ :=
        @ofClauses_of_stays .keep c.clauses c.isHandled fun cl _ ↦ .inr rfl
      exact ⟨isResolved_of rfl rfl hleft.symm (by rw [hgone, List.map_nil, List.append_nil]),
        fun hne ↦ absurd rfl hne⟩
    | fill =>
      obtain rfl := Option.some.inj h
      obtain ⟨hleft, hgone, htally⟩ := ofClauses_fill c.isHandled hready
      refine ⟨isResolved_of rfl rfl ?_ (by rw [hgone, List.map_nil, List.append_nil]; rfl),
        fun _ ↦ ?_⟩
      · rw [hleft, fillEmptied, List.map_map]
        rfl
      · dsimp only [fillEmptied]
        rw [htally, List.map_map]
        rfl
    | remove =>
      dsimp only [discardEmptied] at h ⊢
      obtain ⟨hkept, hdropped, -, htally⟩ := @dropFrom_eq c.isHandled c.clauses hready
      split_ifs at h ⊢ with hall
      obtain rfl := Option.some.inj h
      refine ⟨isResolved_of rfl rfl hkept ?_, fun _ ↦ htally⟩
      refine (List.mergeSort_perm _ _).trans (List.Perm.append_left _ ?_)
      rw [hdropped]
      exact List.reverse_perm _

/-- No emptied clause is left where clauses are filled or go. -/
theorem IsResolved.emptiedCount_eq_zero {verdicts : List Verdict}
    (h : c.IsResolved policy d verdicts) (hready : c.IsReady) (hpolicy : policy ≠ .keep) :
    d.emptiedCount = 0 := by
  rw [emptiedCount_eq_zero_iff, h.left]
  intro cl hcl
  obtain ⟨v, hv, hleft⟩ := List.mem_filterMap.mp hcl
  have hclause : v.clause ∈ c.clauses := h.clauses ▸ List.mem_map_of_mem hv
  have hstays := h.stays v hv
  obtain ⟨before, outcome⟩ := v
  cases outcome with
  | stays =>
    obtain rfl := Option.some.inj hleft
    exact (hstays.mp rfl).resolve_right hpolicy
  | filled =>
    obtain rfl := Option.some.inj hleft
    have hemptied : before.body.emptied = true := by
      refine eq_true_of_ne_false fun hnot ↦ ?_
      exact Clause.Outcome.noConfusion (hstays.mpr (.inl hnot))
    obtain ⟨anchor, others, hexcised⟩ := List.exists_cons_of_ne_nil (hready before hclause hemptied)
    rw [Clause.fill, hexcised]
  | goes => simp [Verdict.left?] at hleft

/-- Where no clause is emptied, policies do nothing. -/
theorem settleAll_of_emptiedCount (h : c.emptiedCount = 0) (policies : List Policy) :
    c.settleAll policies = (some c, 0) := by
  induction policies with
  | nil => rfl
  | cons policy policies ih =>
    have hsettle : c.settle policy = (some c, 0) := by
      unfold settle
      rw [if_pos h]
    rw [settleAll, hsettle]
    dsimp only
    rw [ih, add_zero]

/-- One policy alone. -/
theorem settleAll_singleton (policy : Policy) (c : Construct) :
    c.settleAll [policy] = c.settle policy := by
  rw [settleAll]
  obtain ⟨left, tally⟩ := c.settle policy
  cases left with
  | none => rfl
  | some d => exact Prod.ext rfl (add_zero tally)

theorem exists_settle_fill (c : Construct) : ∃ d, (c.settle .fill).1 = some d := by
  unfold settle
  split_ifs
  · exact ⟨c, rfl⟩
  · exact ⟨c.fillEmptied.1, rfl⟩

/-- Where a construct goes, nothing else is counted. -/
theorem settle_of_eq_none (h : (c.settle policy).1 = none) :
    c.settle policy = (none, { constructsRemoved := 1 }) := by
  obtain ⟨rfl, hcount, hbinds, hempty⟩ := settle_eq_none_iff.mp h
  have hall : (c.clauses.all (·.body.statements.isEmpty) && !c.kind.bindsName) = true := by
    rw [hbinds, Bool.not_false, Bool.and_true, List.all_eq_true]
    exact fun cl hcl ↦ List.isEmpty_iff.mpr (hempty cl hcl)
  unfold settle
  rw [if_neg hcount]
  dsimp only [discardEmptied]
  rw [if_pos hall]

/-- What is counted where a construct is left: each emptied clause, as filled or as gone. -/
theorem exists_tally_settle (hready : c.IsReady) (hpolicy : policy ≠ .keep)
    (h : (c.settle policy).1 = some d) :
    ∃ filled gone,
    (c.settle policy).2 = { placeholdersInserted := filled, clausesRemoved := gone } ∧
      filled + gone = c.emptiedCount ∧ (policy = .fill → gone = 0) := by
  obtain ⟨hresolved, htally⟩ := settle_resolves hready h
  have hcount := @Verdict.countP_ofClauses policy c.isHandled hpolicy c.clauses
  have hlength : c.clauses.countP (·.body.emptied) = c.emptiedCount := List.countP_eq_length_filter
  rw [hlength] at hcount
  refine ⟨_, _, htally hpolicy, hcount, ?_⟩
  rintro rfl
  exact List.countP_eq_zero.mpr fun v hv hgone ↦
    Policy.noConfusion (hresolved.goes v hv (of_decide_eq_true hgone)).1

/-- Each emptied clause of a construct is settled once. `keep` leaves the construct as it is and
counts the emptied clauses; `fill` puts a placeholder into each of them; `remove` takes the
construct away and counts only that, or fills some of them and takes the others away. What is left
of a construct is what verdicts on its clauses say: clauses that are not emptied stay as they are,
and all that are left are in their order; an `elif` goes only if all clauses after it go, and a
cleanup only where a handler is left. After `fill` or `remove` no policies do anything more, and a
`keep` before them changes nothing but its own count. -/
theorem settle_once (c : Construct) (hready : c.IsReady) :
    c.settle .keep = (some c, { emptyBlocksKept := c.emptiedCount }) ∧
    (∃ d, c.settle .fill = (some d, { placeholdersInserted := c.emptiedCount })) ∧
    (c.settle .remove = (none, { constructsRemoved := 1 }) ∨
      ∃ d filled gone,
      c.settle .remove = (some d, { placeholdersInserted := filled, clausesRemoved := gone }) ∧
        filled + gone = c.emptiedCount) ∧
    (∀ policy d, (c.settle policy).1 = some d → ∃ verdicts, c.IsResolved policy d verdicts) ∧
    (∀ policy d, policy ≠ .keep → (c.settle policy).1 = some d →
      ∀ policies, d.settleAll policies = (some d, 0)) ∧
    ∀ policy, c.settleAll [.keep, policy] =
      ((c.settle policy).1, { emptyBlocksKept := c.emptiedCount } + (c.settle policy).2) := by
  refine ⟨settle_keep c, ?_, ?_, fun policy d h ↦ ⟨_, (settle_resolves hready h).1⟩, ?_,
    fun policy ↦ ?_⟩
  · obtain ⟨d, hd⟩ := c.exists_settle_fill
    obtain ⟨filled, gone, htally, hcount, hgone⟩ := exists_tally_settle hready (by simp) hd
    rw [hgone rfl, Nat.add_zero] at hcount
    rw [hgone rfl, hcount] at htally
    exact ⟨d, Prod.ext hd htally⟩
  · cases hd : (c.settle .remove).1 with
    | none => exact .inl (settle_of_eq_none hd)
    | some d =>
      obtain ⟨filled, gone, htally, hcount, -⟩ := exists_tally_settle hready (by simp) hd
      exact .inr ⟨d, filled, gone, Prod.ext hd htally, hcount⟩
  · intro policy d hpolicy hd
    exact settleAll_of_emptiedCount
      ((settle_resolves hready hd).1.emptiedCount_eq_zero hready hpolicy)
  · rw [settleAll, settle_keep]
    dsimp only
    rw [settleAll_singleton]

/-- An attempt of whose clauses all but the first are emptied. -/
def emptiedAttempt : Construct where
  kind := .attempt
  span := ⟨0, 51⟩
  clauses :=
    [⟨.primary, ⟨0, 8⟩, ⟨⟨7, 8⟩, [.expression ⟨7, 8⟩ (.name ⟨7, 8⟩ "x")], [], false⟩⟩,
      ⟨.handler, ⟨9, 24⟩, ⟨⟨21, 24⟩, [], [⟨21, 24⟩], true⟩⟩,
      ⟨.orElse, ⟨25, 36⟩, ⟨⟨33, 36⟩, [], [⟨33, 36⟩], true⟩⟩,
      ⟨.cleanup, ⟨37, 51⟩, ⟨⟨48, 51⟩, [], [⟨48, 51⟩], true⟩⟩]
  dropped := []

/-- The handler of the attempt is filled, and so its cleanup can go. -/
theorem settle_once_emptiedAttempt :
    emptiedAttempt.IsReady ∧
    emptiedAttempt.settle .keep = (some emptiedAttempt, { emptyBlocksKept := 3 }) ∧
    (∃ d, emptiedAttempt.settle .fill = (some d, { placeholdersInserted := 3 })) ∧
    (emptiedAttempt.settle .remove).2 = { placeholdersInserted := 1, clausesRemoved := 2 } ∧
    ∃ d, (emptiedAttempt.settle .remove).1 = some d ∧
    d.clauses.map (·.role) = [.primary, .handler] ∧
      d.settleAll [.keep, .fill, .remove] = (some d, 0) := by
  have hready : emptiedAttempt.IsReady := by decide
  obtain ⟨hkeep, hfill, -, -, hlater, -⟩ := settle_once emptiedAttempt hready
  exact ⟨hready, hkeep, hfill, by decide, _, rfl, by decide, hlater .remove _ (by decide) rfl _⟩

end Construct

end Declutter
