/-!
Computations that can fail. What a composed computation did when it succeeded is read off step by
step: each step succeeded, and the next one went on with its value.
-/

set_option autoImplicit false
set_option relaxedAutoImplicit false

namespace Declutter

namespace Except

variable {ε η α β : Type}

theorem bind_eq_ok_iff {x : Except ε α} {f : α → Except ε β} {b : β} :
    (x >>= f) = .ok b ↔ ∃ a, x = .ok a ∧ f a = .ok b := by
  cases x with
  | error => simp [bind, Except.bind]
  | ok => simp [bind, Except.bind]

theorem mapError_eq_ok_iff {x : Except ε α} {f : ε → η} {a : α} :
    x.mapError f = .ok a ↔ x = .ok a := by
  cases x with
  | error e =>
    show Except.error (f e) = .ok a ↔ _
    simp
  | ok b =>
    show Except.ok b = .ok a ↔ _
    simp

theorem map_eq_ok_iff {x : Except ε α} {f : α → β} {b : β} :
    x.map f = .ok b ↔ ∃ a, x = .ok a ∧ f a = b := by
  cases x with
  | error => exact iff_of_false (fun h ↦ nomatch h) fun ⟨_, h, _⟩ ↦ nomatch h
  | ok a =>
    exact ⟨fun h ↦ ⟨a, rfl, Except.ok.inj h⟩, fun ⟨_, h, hb⟩ ↦ by rw [Except.ok.inj h, ← hb]; rfl⟩

theorem exists_of_map_toOption {x : Except ε α} {f : α → β} {b : β}
    (h : x.toOption.map f = some b) : ∃ a, x = .ok a ∧ f a = b := by
  cases x with
  | error => cases h
  | ok a => exact ⟨a, rfl, Option.some.inj h⟩

/-- A computation that succeeded on every element of a list gave a value for each of them. -/
theorem exists_of_mapM [Inhabited β] {f : α → Except ε β} {l : List α} {values : List β}
    (h : l.mapM f = .ok values) :
    ∃ value : α → β, (∀ a ∈ l, f a = .ok (value a)) ∧ values = l.map value := by
  refine ⟨fun a ↦ (f a).toOption.getD default, ?_⟩
  induction l generalizing values with
  | nil =>
    obtain rfl := Except.ok.inj h
    exact ⟨fun _ ha ↦ (List.not_mem_nil ha).elim, rfl⟩
  | cons a rest ih =>
    simp only [List.mapM_cons, bind_eq_ok_iff] at h
    obtain ⟨b, hb, others, hothers, hvalues⟩ := h
    obtain rfl := Except.ok.inj hvalues
    obtain ⟨hrest, hmap⟩ := ih hothers
    have hvalue : (f a).toOption.getD default = b := by
      rw [hb]
      rfl
    refine ⟨List.forall_mem_cons.mpr ⟨?_, hrest⟩, ?_⟩
    · exact hb.trans (congrArg Except.ok hvalue.symm)
    · rw [List.map_cons, hvalue, ← hmap]

/-- A computation that goes through a list and collects what it finds at each element. -/
theorem exists_of_collect {f : α → Except ε (List β)} {collect : List α → Except ε (List β)}
    (hnil : collect [] = .ok [])
    (hcons : ∀ a rest, collect (a :: rest) = do
      let first ← f a
      let others ← collect rest
      return first ++ others)
    {l : List α} {values : List β} (h : collect l = .ok values) :
    ∃ value : α → List β, (∀ a ∈ l, f a = .ok (value a)) ∧ values = l.flatMap value := by
  have hmapM : ∃ found, l.mapM f = .ok found ∧ values = found.flatten := by
    induction l generalizing values with
    | nil =>
      obtain rfl := Except.ok.inj (hnil.symm.trans h)
      exact ⟨[], rfl, rfl⟩
    | cons a rest ih =>
      simp only [hcons, bind_eq_ok_iff] at h
      obtain ⟨first, hfirst, others, hothers, hvalues⟩ := h
      obtain rfl := Except.ok.inj hvalues
      obtain ⟨found, hfound, rfl⟩ := ih hothers
      refine ⟨first :: found, ?_, rfl⟩
      rw [List.mapM_cons, hfirst, hfound]
      rfl
  obtain ⟨found, hfound, rfl⟩ := hmapM
  obtain ⟨value, hvalue, rfl⟩ := exists_of_mapM hfound
  exact ⟨value, hvalue, List.flatMap_def.symm⟩

/-- Going through a list succeeds exactly if the computation succeeds on every element. -/
theorem exists_mapM_iff {f : α → Except ε β} {l : List α} :
    (∃ values, l.mapM f = .ok values) ↔ ∀ a ∈ l, ∃ b, f a = .ok b := by
  induction l with
  | nil => exact iff_of_true ⟨[], rfl⟩ (fun _ ha ↦ (List.not_mem_nil ha).elim)
  | cons a rest ih =>
    rw [List.forall_mem_cons, ← ih]
    simp only [List.mapM_cons, bind_eq_ok_iff]
    constructor
    · rintro ⟨_, b, hb, others, hothers, -⟩
      exact ⟨⟨b, hb⟩, others, hothers⟩
    · rintro ⟨⟨b, hb⟩, others, hothers⟩
      exact ⟨b :: others, b, hb, others, hothers, rfl⟩

/-- Going through a list and collecting what is found succeeds exactly if it does so at every
element. -/
theorem exists_collect_iff {f : α → Except ε (List β)} {collect : List α → Except ε (List β)}
    (hnil : collect [] = .ok [])
    (hcons : ∀ a rest, collect (a :: rest) = do
      let first ← f a
      let others ← collect rest
      return first ++ others)
    {l : List α} : (∃ values, collect l = .ok values) ↔ ∀ a ∈ l, ∃ found, f a = .ok found := by
  induction l with
  | nil => exact iff_of_true ⟨[], hnil⟩ (fun _ ha ↦ (List.not_mem_nil ha).elim)
  | cons a rest ih =>
    rw [List.forall_mem_cons, ← ih]
    simp only [hcons, bind_eq_ok_iff]
    constructor
    · rintro ⟨_, first, hfirst, others, hothers, -⟩
      exact ⟨⟨first, hfirst⟩, others, hothers⟩
    · rintro ⟨⟨first, hfirst⟩, others, hothers⟩
      exact ⟨first ++ others, first, hfirst, others, hothers, rfl⟩

end Except

end Declutter
