import Declutter.Text.Distance
import Mathlib.Data.List.Infix
import Mathlib.Data.List.MinMax
import Mathlib.Order.Bounds.Basic
/-!
The edit distance of two texts is the least number of edits that turn the one into the other, where
an edit inserts, deletes or replaces one unit anywhere in the text (`Text.isLeast_distance`).

The table is filled row by row. A row for a longer text goes on where the row for the shorter one
ends (`Text.distances_concat`), so that its entries are the distances from all beginnings of the
text (`Text.distances_eq`), and an entry comes from the three beside it
(`Text.distance_concat_concat`). Where the units are equal the entry on the diagonal is taken as it
is. That is right because neighbours in the table differ by one at most (`Text.distance_concat_le`,
`Text.distance_le_concat`): then an edit brings a text nearer to another one by one at most
(`Text.IsUnitEdit.distance_le`), and no edits are fewer than the table says
(`Text.EditsIn.distance_le`). As many as it says are enough (`Text.editsIn_distance`).

Of several words the suggestion is the first nearest one, if it is near enough
(`Text.suggestion?_eq`).
-/

set_option autoImplicit false
set_option relaxedAutoImplicit false

namespace Declutter

namespace Text

/-! ### Edits -/

/-- One edit: a unit is inserted, deleted or replaced. -/
inductive IsUnitEdit : Text → Text → Prop
  | insert (before after : Text) (u : CodeUnit) :
      IsUnitEdit (before ++ after) (before ++ u :: after)
  | delete (before after : Text) (u : CodeUnit) :
      IsUnitEdit (before ++ u :: after) (before ++ after)
  | replace (before after : Text) (u v : CodeUnit) :
      IsUnitEdit (before ++ u :: after) (before ++ v :: after)

/-- So many edits, one after the other, turn the one text into the other. -/
inductive EditsIn : Nat → Text → Text → Prop
  | refl (s : Text) : EditsIn 0 s s
  | step {n : Nat} {s r t : Text} (edit : IsUnitEdit s r) (rest : EditsIn n r t) :
      EditsIn (n + 1) s t

variable {m n : Nat} {r s t : Text} {u v : CodeUnit}

theorem IsUnitEdit.symm (h : IsUnitEdit s t) : IsUnitEdit t s := by
  cases h with
  | insert before after u => exact .delete before after u
  | delete before after u => exact .insert before after u
  | replace before after u v => exact .replace before after v u

theorem IsUnitEdit.append_right (h : IsUnitEdit s t) (after : Text) :
    IsUnitEdit (s ++ after) (t ++ after) := by
  cases h with
  | insert before rest u =>
    rw [List.append_assoc, List.append_assoc]
    exact .insert before (rest ++ after) u
  | delete before rest u =>
    rw [List.append_assoc, List.append_assoc]
    exact .delete before (rest ++ after) u
  | replace before rest u v =>
    rw [List.append_assoc, List.append_assoc]
    exact .replace before (rest ++ after) u v

theorem isUnitEdit_insert_last (s : Text) (u : CodeUnit) : IsUnitEdit s (s ++ [u]) := by
  have hinsert := IsUnitEdit.insert s [] u
  rwa [List.append_nil] at hinsert

namespace EditsIn

theorem single (h : IsUnitEdit s t) : EditsIn 1 s t := .step h (.refl t)

theorem trans (h : EditsIn m s r) (h' : EditsIn n r t) : EditsIn (m + n) s t := by
  induction h with
  | refl => rwa [Nat.zero_add]
  | step edit _ ih =>
    rw [Nat.add_right_comm]
    exact .step edit (ih h')

theorem symm (h : EditsIn n s t) : EditsIn n t s := by
  induction h with
  | refl s => exact .refl s
  | step edit _ ih => exact ih.trans (single edit.symm)

theorem append_right (h : EditsIn n s t) (after : Text) : EditsIn n (s ++ after) (t ++ after) := by
  induction h with
  | refl => exact .refl _
  | step edit _ ih => exact .step (edit.append_right after) ih

theorem eq_of_zero (h : EditsIn 0 s t) : s = t := by
  cases h
  rfl

/-- A text is put together unit by unit. -/
theorem of_nil (t : Text) : EditsIn t.length [] t := by
  induction t using List.reverseRecOn with
  | nil => exact .refl []
  | append_singleton t v ih =>
    rw [List.length_append]
    exact ih.trans (single (isUnitEdit_insert_last t v))

end EditsIn

/-! ### The table -/

/-- The entry of the table for one more unit of both texts, from the entries above it, before it and
above that. -/
def entry (u v : CodeUnit) (above left diagonal : Nat) : Nat :=
  if u = v then diagonal else 1 + min (min above left) diagonal

theorem entry_cases (u v : CodeUnit) (above left diagonal : Nat) :
    (u = v ∧ entry u v above left diagonal = diagonal) ∨ entry u v above left diagonal = above + 1 ∨
      entry u v above left diagonal = left + 1 ∨ entry u v above left diagonal = diagonal + 1 := by
  rw [entry]
  split_ifs with h
  · exact .inl ⟨h, rfl⟩
  · omega

theorem distanceEntries_concat {t : Text} {row : List Nat} (h : t.length = row.length)
    (u v : CodeUnit) (left diagonal above : Nat) :
    distanceEntries u left diagonal (t ++ [v]) (row ++ [above]) =
      distanceEntries u left diagonal t row ++
        [entry u v above ((distanceEntries u left diagonal t row).getLastD left)
          (row.getLastD diagonal)] := by
  induction t generalizing left diagonal row with
  | nil =>
    obtain rfl := List.length_eq_zero_iff.mp h.symm
    rfl
  | cons w t ih =>
    cases row with
    | nil => exact absurd h (Nat.succ_ne_zero _)
    | cons other row =>
      rw [List.cons_append, List.cons_append, distanceEntries, distanceEntries]
      rw [ih (Nat.succ_inj.mp h), List.getLastD_cons, List.getLastD_cons, List.cons_append]

theorem nextDistances_concat {t : Text} {row : List Nat} (h : row.length = t.length + 1)
    (u v : CodeUnit) (above : Nat) :
    nextDistances (t ++ [v]) (row ++ [above]) u =
      nextDistances t row u ++
      [entry u v above ((nextDistances t row u).getLastD 0) (row.getLastD 0)] := by
  cases row with
  | nil => exact absurd h.symm (Nat.succ_ne_zero _)
  | cons first row =>
    rw [List.cons_append, nextDistances, nextDistances]
    rw [distanceEntries_concat (Nat.succ_inj.mp h).symm, List.getLastD_cons, List.getLastD_cons,
      List.cons_append]

theorem length_distanceEntries {row : List Nat} (h : t.length = row.length) (u : CodeUnit)
    (left diagonal : Nat) :
    (distanceEntries u left diagonal t row).length = t.length := by
  induction t generalizing left diagonal row with
  | nil => rfl
  | cons w t ih =>
    cases row with
    | nil => exact absurd h (Nat.succ_ne_zero _)
    | cons other row =>
      rw [distanceEntries, List.length_cons, ih (Nat.succ_inj.mp h), List.length_cons]

theorem distances_concat_left (s t : Text) (u : CodeUnit) :
    distances (s ++ [u]) t = nextDistances t (distances s t) u := List.foldl_concat _ _ _ _

theorem length_distances (s t : Text) : (distances s t).length = t.length + 1 := by
  induction s using List.reverseRecOn with
  | nil => exact List.length_range
  | append_singleton s u ih =>
    rw [distances_concat_left]
    generalize distances s t = row at ih
    cases row with
    | nil => exact absurd ih.symm (Nat.succ_ne_zero _)
    | cons first row =>
      rw [nextDistances, List.length_cons, length_distanceEntries (Nat.succ_inj.mp ih).symm]

theorem distance_eq_getLastD (s t : Text) : distance s t = (distances s t).getLastD 0 :=
  List.getLastD_eq_getLast?.symm

/-- The row for a longer text is the row for the shorter one and one more entry. -/
theorem distances_concat (s t : Text) (v : CodeUnit) :
    distances s (t ++ [v]) = distances s t ++ [distance s (t ++ [v])] := by
  suffices hrow : ∃ e, distances s (t ++ [v]) = distances s t ++ [e] by
    obtain ⟨e, he⟩ := hrow
    have hlast := distance_eq_getLastD s (t ++ [v])
    rw [he, List.getLastD_concat] at hlast
    rw [hlast, he]
  induction s using List.reverseRecOn with
  | nil => exact ⟨t.length + 1, by rw [distances, List.length_append]; exact List.range_succ⟩
  | append_singleton s u ih =>
    obtain ⟨e, he⟩ := ih
    rw [distances_concat_left, distances_concat_left, he,
      nextDistances_concat (length_distances s t)]
    exact ⟨_, rfl⟩

theorem distance_concat_concat (s t : Text) (u v : CodeUnit) :
    distance (s ++ [u]) (t ++ [v]) =
      entry u v (distance s (t ++ [v])) (distance (s ++ [u]) t) (distance s t) := by
  rw [distance_eq_getLastD (s ++ [u]) (t ++ [v]), distances_concat_left, distances_concat,
    nextDistances_concat (length_distances s t), List.getLastD_concat, ← distances_concat_left,
    ← distance_eq_getLastD, ← distance_eq_getLastD]

theorem distance_nil_left (t : Text) : distance [] t = t.length := by
  rw [distance_eq_getLastD, distances, List.foldl_nil, List.range_succ, List.getLastD_concat]

theorem distances_nil_right (s : Text) : distances s [] = [s.length] := by
  induction s using List.reverseRecOn with
  | nil => rfl
  | append_singleton s u ih =>
    rw [distances_concat_left, ih, List.length_append]
    rfl

theorem distance_nil_right (s : Text) : distance s [] = s.length := by
  rw [distance_eq_getLastD, distances_nil_right]
  rfl

/-- A row of the table holds the distances from all beginnings of the second text. -/
theorem distances_eq (s t : Text) : distances s t = t.inits.map (distance s) := by
  induction t using List.reverseRecOn with
  | nil =>
    rw [distances_nil_right, ← distance_nil_right]
    rfl
  | append_singleton t v ih =>
    rw [distances_concat, ih, List.inits_append, List.map_append]
    rfl

theorem getLast?_distances (s t : Text) : (distances s t).getLast? = some (distance s t) := by
  rcases List.eq_nil_or_concat t with rfl | ⟨t, v, rfl⟩
  · rw [distances_nil_right, distance_nil_right, List.getLast?_singleton]
  · rw [List.concat_eq_append, distances_concat, List.getLast?_concat]

/-! ### Neighbours in the table -/

/-- Induction along the table, from its first row and its first column. -/
theorem tableInduct {motive : Text → Text → Prop} (nilLeft : ∀ t, motive [] t)
    (nilRight : ∀ s, motive s [])
    (concat : ∀ s t u v, motive s t → motive s (t ++ [v]) → motive (s ++ [u]) t →
      motive (s ++ [u]) (t ++ [v])) :
    ∀ s t, motive s t := by
  intro s t
  induction s using List.reverseRecOn generalizing t with
  | nil => exact nilLeft t
  | append_singleton s u ihs =>
    induction t using List.reverseRecOn with
    | nil => exact nilRight _
    | append_singleton t v iht => exact concat s t u v (ihs t) (ihs (t ++ [v])) iht

theorem entry_comm (u v : CodeUnit) (above left diagonal : Nat) :
    entry u v above left diagonal = entry v u left above diagonal := by
  rw [entry, entry, Nat.min_comm above left]
  exact if_congr eq_comm rfl rfl

theorem distance_comm (s t : Text) : distance s t = distance t s := by
  induction s, t using tableInduct with
  | nilLeft t => rw [distance_nil_left, distance_nil_right]
  | nilRight s => rw [distance_nil_left, distance_nil_right]
  | concat s t u v hdiagonal habove hleft =>
    rw [distance_concat_concat, distance_concat_concat, hdiagonal, habove, hleft, entry_comm]

theorem distance_self (s : Text) : distance s s = 0 := by
  induction s using List.reverseRecOn with
  | nil => rfl
  | append_singleton s u ih => rw [distance_concat_concat, entry, if_pos rfl, ih]

/-- If the entries of a row fall by one at most from each to the next, those of the row below are
greater by one at most. -/
theorem distance_concat_le_of (h : ∀ t v, distance s t ≤ distance s (t ++ [v]) + 1) (u : CodeUnit)
    (t : Text) :
    distance (s ++ [u]) t ≤ distance s t + 1 := by
  rcases List.eq_nil_or_concat t with rfl | ⟨t, v, rfl⟩
  · rw [distance_nil_right, distance_nil_right, List.length_append, List.length_singleton]
  · have hright := h t v
    rw [List.concat_eq_append, distance_concat_concat, entry]
    split_ifs <;> omega

theorem distance_le_concat (s t : Text) (v : CodeUnit) :
    distance s t ≤ distance s (t ++ [v]) + 1 := by
  -- by induction on the rows, since each row is bounded by the one above it
  induction s using List.reverseRecOn generalizing t v with
  | nil =>
    rw [distance_nil_left, distance_nil_left, List.length_append]
    omega
  | append_singleton s u ih =>
    have hbelow := distance_concat_le_of ih u t
    have hright := ih t v
    rw [distance_concat_concat, entry]
    split_ifs <;> omega

theorem distance_concat_le (s t : Text) (u : CodeUnit) : distance (s ++ [u]) t ≤ distance s t + 1 :=
  distance_concat_le_of (distance_le_concat s) u t

theorem distance_le_concat_left (s t : Text) (u : CodeUnit) :
    distance s t ≤ distance (s ++ [u]) t + 1 := by
  rw [distance_comm s t, distance_comm (s ++ [u]) t]
  exact distance_le_concat t s u

theorem distance_replace_last_le (s t : Text) (u v : CodeUnit) :
    distance (s ++ [u]) t ≤ distance (s ++ [v]) t + 1 := by
  induction t using List.reverseRecOn with
  | nil =>
    rw [distance_nil_right, distance_nil_right, List.length_append, List.length_append]
    exact Nat.le_succ _
  | append_singleton t w ih =>
    have hright := distance_le_concat s t w
    have hbelow := distance_le_concat_left s t v
    rw [distance_concat_concat, distance_concat_concat, entry, entry]
    split_ifs <;> omega

/-! ### Edits in the table -/

/-- A bound on how much nearer one text is than another, to any third one, stays if the same units
are put behind both. -/
theorem distance_append_le (h : ∀ t, distance s t ≤ distance r t + 1) (after t : Text) :
    distance (s ++ after) t ≤ distance (r ++ after) t + 1 := by
  induction after using List.reverseRecOn generalizing t with
  | nil => simpa using h t
  | append_singleton after u ih =>
    rw [← List.append_assoc, ← List.append_assoc]
    induction t using List.reverseRecOn with
    | nil =>
      have hlength := ih []
      rw [distance_nil_right, distance_nil_right] at hlength ⊢
      simp only [List.length_append] at hlength ⊢
      omega
    | append_singleton t v iht =>
      have hdiagonal := ih t
      have habove := ih (t ++ [v])
      rw [distance_concat_concat, distance_concat_concat, entry, entry]
      split_ifs <;> omega

/-- One edit makes a distance smaller by one at most. -/
theorem IsUnitEdit.distance_le (h : IsUnitEdit s r) (t : Text) :
    distance s t ≤ distance r t + 1 := by
  cases h with
  | insert before after u =>
    rw [List.append_cons]
    exact distance_append_le (fun t ↦ distance_le_concat_left before t u) after t
  | delete before after u =>
    rw [List.append_cons]
    exact distance_append_le (fun t ↦ distance_concat_le before t u) after t
  | replace before after u v =>
    rw [List.append_cons, List.append_cons before v]
    exact distance_append_le (fun t ↦ distance_replace_last_le before t u v) after t

theorem EditsIn.distance_le (h : EditsIn n s t) : distance s t ≤ n := by
  induction h with
  | refl s => exact (distance_self s).le
  | step edit _ ih => exact (edit.distance_le _).trans (Nat.succ_le_succ ih)

/-- As many edits as the table says are enough. -/
theorem editsIn_distance (s t : Text) : EditsIn (distance s t) s t := by
  induction s, t using tableInduct with
  | nilLeft t =>
    rw [distance_nil_left]
    exact .of_nil t
  | nilRight s =>
    rw [distance_nil_right]
    exact (EditsIn.of_nil s).symm
  | concat s t u v hdiagonal habove hleft =>
    rw [distance_concat_concat]
    rcases entry_cases u v (distance s (t ++ [v])) (distance (s ++ [u]) t) (distance s t) with
      ⟨rfl, hentry⟩ | hentry | hentry | hentry <;> rw [hentry]
    · exact hdiagonal.append_right [u]
    · exact .step (isUnitEdit_insert_last s u).symm habove
    · exact hleft.trans (.single (isUnitEdit_insert_last t v))
    · exact (hdiagonal.append_right [u]).trans (.single (.replace t [] u v))

/-- The edit distance is the least number of edits that turn the one text into the other. -/
theorem isLeast_distance (s t : Text) : IsLeast {n | EditsIn n s t} (distance s t) :=
  ⟨editsIn_distance s t, fun _ h ↦ h.distance_le⟩

example : distance "kitten" "sitting" = 3 := by decide

theorem distance_eq_zero_iff : distance s t = 0 ↔ s = t := by
  refine ⟨fun h ↦ (h ▸ editsIn_distance s t).eq_of_zero, ?_⟩
  rintro rfl
  exact distance_self s

theorem distance_triangle (s r t : Text) : distance s t ≤ distance s r + distance r t :=
  ((editsIn_distance s r).trans (editsIn_distance r t)).distance_le

/-! ### Suggestions -/

/-- How far a candidate is from the input. -/
def away (input candidate : Text) : Nat := distance input.toLower candidate.toLower

/-- The first least element has greater ones before it and none that is smaller behind it. -/
theorem argmin_eq_some_iff_append {α : Type} {f : α → Nat} {xs : List α} {x : α} :
    xs.argmin f = some x ↔
      ∃ before after, xs = before ++ x :: after ∧ (∀ y ∈ before, f x < f y) ∧
      ∀ y ∈ after, f x ≤ f y := by
  induction xs generalizing x with
  | nil => simp
  | cons y xs ih =>
    rw [List.argmin_cons]
    constructor
    · intro h
      cases hmin : xs.argmin f with
      | none =>
        rw [hmin] at h
        obtain rfl := Option.some.inj h
        exact ⟨[], xs, rfl, by simp, by simp [List.argmin_eq_none.mp hmin]⟩
      | some m =>
        rw [hmin] at h
        dsimp only at h
        split_ifs at h with hlt <;> obtain rfl := Option.some.inj h
        · obtain ⟨before, after, rfl, hbefore, hafter⟩ := ih.mp hmin
          exact ⟨y :: before, after, rfl, List.forall_mem_cons.mpr ⟨hlt, hbefore⟩, hafter⟩
        · refine ⟨[], xs, rfl, by simp, fun z hz ↦ ?_⟩
          exact (Nat.le_of_not_lt hlt).trans (List.le_of_mem_argmin hz hmin)
    · rintro ⟨_ | ⟨z, before⟩, after, hxs, hbefore, hafter⟩
      · obtain ⟨rfl, rfl⟩ := List.cons_eq_cons.mp hxs
        cases hmin : xs.argmin f with
        | none => rfl
        | some m => exact if_neg (Nat.not_lt_of_le (hafter m (List.argmin_mem hmin)))
      · obtain ⟨rfl, rfl⟩ := List.cons_eq_cons.mp hxs
        rw [List.forall_mem_cons] at hbefore
        rw [ih.mpr ⟨before, after, rfl, hbefore.2, hafter⟩]
        exact if_pos hbefore.1

theorem nearer_none (input c : Text) :
    nearer input none c = if away input c ≤ 3 then some (c, away input c) else none := by
  rw [nearer]
  exact if_congr (by rw [Option.all_none, Bool.and_true, decide_eq_true_eq]; rfl) rfl rfl

theorem nearer_some (input c : Text) {b : Text} (h : away input b ≤ 3) :
    nearer input (some (b, away input b)) c =
      if away input c < away input b then some (c, away input c) else some (b, away input b) := by
  rw [nearer]
  refine if_congr ?_ rfl rfl
  rw [Option.all_some, Bool.and_eq_true, decide_eq_true_eq, decide_eq_true_eq]
  exact ⟨And.right, fun hlt ↦ ⟨hlt.le.trans h, hlt⟩⟩

/-- Of the candidates the first nearest one is the best, if it is near enough. -/
theorem foldl_nearer (input : Text) (candidates : List Text) :
    candidates.foldl (nearer input) none =
      ((candidates.argmin (away input)).filter (away input · ≤ 3)).map fun c ↦
        (c, away input c) := by
  have hkept : ∀ c, away input c ≤ 3 → (some c).filter (away input · ≤ 3) = some c := fun c hc ↦ by
    rw [Option.filter_some, if_pos (decide_eq_true hc)]
  have hlost : ∀ c, ¬ away input c ≤ 3 → (some c).filter (away input · ≤ 3) = none := fun c hc ↦ by
    rw [Option.filter_some, if_neg (by simpa using hc)]
  induction candidates using List.reverseRecOn with
  | nil => rfl
  | append_singleton candidates c ih =>
    rw [List.foldl_concat, ih, List.argmin_concat]
    cases candidates.argmin (away input) with
    | none =>
      rw [Option.filter_none, Option.map_none, nearer_none]
      split_ifs with hc
      · rw [hkept c hc, Option.map_some]
      · rw [hlost c hc, Option.map_none]
    | some b =>
      dsimp only
      by_cases hb : away input b ≤ 3
      · rw [hkept b hb, Option.map_some, nearer_some input c hb]
        split_ifs with hlt
        · rw [hkept c (hlt.le.trans hb), Option.map_some]
        · rw [hkept b hb, Option.map_some]
      · -- no candidate before this one is near enough
        rw [hlost b hb, Option.map_none, nearer_none]
        by_cases hc : away input c ≤ 3
        · rw [if_pos hc, if_pos (hc.trans_lt (Nat.lt_of_not_le hb)), hkept c hc, Option.map_some]
        · rw [if_neg hc]
          split_ifs
          · rw [hlost c hc, Option.map_none]
          · rw [hlost b hb, Option.map_none]

theorem suggestion?_eq (input : Text) (candidates : List Text) :
    suggestion? input candidates = (candidates.argmin (away input)).filter (away input · ≤ 3) := by
  rw [suggestion?, foldl_nearer, Option.map_map]
  exact Option.map_id'

theorem suggestion?_eq_some_iff {input c : Text} {candidates : List Text} :
    suggestion? input candidates = some c ↔
      away input c ≤ 3 ∧ ∃ before after, candidates = before ++ c :: after ∧
        (∀ d ∈ before, away input c < away input d) ∧ ∀ d ∈ after, away input c ≤ away input d := by
  rw [suggestion?_eq, Option.filter_eq_some_iff, argmin_eq_some_iff_append, decide_eq_true_eq]
  exact and_comm

theorem suggestion?_eq_none_iff {input : Text} {candidates : List Text} :
    suggestion? input candidates = none ↔ ∀ c ∈ candidates, 3 < away input c := by
  rw [suggestion?_eq, Option.filter_eq_none_iff]
  refine ⟨fun h c hc ↦ ?_, fun h c hc ↦ ?_⟩
  · obtain ⟨m, hm⟩ : ∃ m, candidates.argmin (away input) = some m :=
      Option.ne_none_iff_exists'.mp fun hnone ↦ List.ne_nil_of_mem hc (List.argmin_eq_none.mp hnone)
    have hfar : ¬ away input m ≤ 3 := by simpa using h m hm
    exact (Nat.lt_of_not_le hfar).trans_le (List.le_of_mem_argmin hc hm)
  · simpa using h c (List.argmin_mem hc)

/-- The table ends in the least number of edits that turn the one text into the other; so it ends in
zero only for equal texts, it does not matter which text comes first, and no detour is shorter. Each
of its rows holds the distances from the beginnings of the second text. Of the candidates the
suggestion is the first of those that are nearest to the input, if these are near enough, and
otherwise there is none. -/
theorem suggestion?_nearest :
    (∀ s t : Text, distances s t = t.inits.map (distance s) ∧
      (distances s t).getLast? = some (distance s t) ∧ IsLeast {n | EditsIn n s t} (distance s t) ∧
      (distance s t = 0 ↔ s = t) ∧ distance s t = distance t s ∧
        ∀ r, distance s t ≤ distance s r + distance r t) ∧
      ∀ (input : Text) (candidates : List Text),
        (∀ c, suggestion? input candidates = some c ↔
          away input c ≤ 3 ∧ ∃ before after, candidates = before ++ c :: after ∧
            (∀ d ∈ before, away input c < away input d) ∧
            ∀ d ∈ after, away input c ≤ away input d) ∧
          (suggestion? input candidates = none ↔ ∀ c ∈ candidates, 3 < away input c) :=
  ⟨fun s t ↦ ⟨distances_eq s t, getLast?_distances s t, isLeast_distance s t, distance_eq_zero_iff,
      distance_comm s t, fun r ↦ distance_triangle s r t⟩,
    fun _ _ ↦ ⟨fun _ ↦ suggestion?_eq_some_iff, suggestion?_eq_none_iff⟩⟩

end Text

end Declutter
