import Declutter.Path
import Declutter.Proofs.Text.Pieces
import Mathlib.Data.List.Induction
/-!
Absolute paths and their segments. Names are what a path has between its separators (`Path.IsName`).
A path that is made of names has them as its segments: its directory and its last name are found
again (`Path.parent_ofSegments`, `Path.name_ofSegments`), and the path of a name in a directory has
one name more (`Path.child_join`).
-/

set_option autoImplicit false
set_option relaxedAutoImplicit false

namespace Declutter

namespace Path

/-! ### Names and segments -/

/-- A text that names an entry of a directory, and nothing else in a path. -/
structure IsName (t : Text) : Prop where
  ne_nil : t ≠ []
  ne_dot : t ≠ "."
  ne_dots : t ≠ ".."
  no_separator : separator ∉ t

instance (t : Text) : Decidable (IsName t) :=
  decidable_of_iff (t ≠ [] ∧ t ≠ "." ∧ t ≠ ".." ∧ separator ∉ t)
    ⟨fun ⟨h₁, h₂, h₃, h₄⟩ ↦ ⟨h₁, h₂, h₃, h₄⟩, fun ⟨h₁, h₂, h₃, h₄⟩ ↦ ⟨h₁, h₂, h₃, h₄⟩⟩

variable {absolute : Bool} {names parts segments above : List Text} {name piece : Text}
  {directory p : Path}

theorem push_of_isName (h : IsName name) : push absolute above name = name :: above := by
  unfold push
  rw [if_neg (not_or.mpr ⟨h.ne_nil, h.ne_dot⟩), if_neg h.ne_dots]

theorem push_skip (h : piece = [] ∨ piece = ".") : push absolute above piece = above := by
  unfold push
  rw [if_pos h]

theorem push_dots_nil (absolute : Bool) :
    push absolute [] ".." = if absolute then [] else [".."] := by
  cases absolute <;> decide

theorem push_dots_cons (absolute : Bool) (last : Text) (rest : List Text) :
    push absolute (last :: rest) ".." = if last = ".." then (".." : Text) :: last :: rest
      else rest := by
  have hskip : ¬ ((".." : Text) = [] ∨ (".." : Text) = ".") := by decide
  rw [push, if_neg hskip, if_pos rfl]

/-- A piece is passed over, or goes up, or is a name. -/
theorem piece_cases (h : separator ∉ piece) : (piece = [] ∨ piece = ".") ∨ piece = ".." ∨
    IsName piece := by
  by_cases hskip : piece = [] ∨ piece = "."
  · exact .inl hskip
  by_cases hup : piece = ".."
  · exact .inr (.inl hup)
  rw [not_or] at hskip
  exact .inr (.inr ⟨hskip.1, hskip.2, hup, h⟩)

theorem simplify_concat (absolute : Bool) (parts : List Text) (piece : Text) :
    simplify absolute (parts ++ [piece]) =
      (push absolute (simplify absolute parts).reverse piece).reverse := by
  rw [simplify, simplify, List.foldl_concat, List.reverse_reverse]

theorem simplify_append (h : ∀ name ∈ names, IsName name) :
    simplify absolute (parts ++ names) = simplify absolute parts ++ names := by
  induction names generalizing parts with
  | nil => rw [List.append_nil, List.append_nil]
  | cons name rest ih =>
    rw [List.forall_mem_cons] at h
    rw [List.append_cons, ih h.2, simplify_concat, push_of_isName h.1, List.reverse_cons,
      List.reverse_reverse, List.append_assoc, List.singleton_append]

/-- Segments that are as they are after simplification. -/
structure IsSimple (absolute : Bool) (segments : List Text) : Prop where
  simplify_eq : simplify absolute segments = segments
  ne_nil : ∀ segment ∈ segments, segment ≠ []
  ne_dot : ∀ segment ∈ segments, segment ≠ "."
  no_separator : ∀ segment ∈ segments, separator ∉ segment

theorem IsSimple.append (h : IsSimple absolute segments) (hnames : ∀ name ∈ names, IsName name) :
    IsSimple absolute (segments ++ names) where
  simplify_eq := by rw [simplify_append hnames, h.simplify_eq]
  ne_nil := List.forall_mem_append.mpr ⟨h.ne_nil, fun name hname ↦ (hnames name hname).ne_nil⟩
  ne_dot := List.forall_mem_append.mpr ⟨h.ne_dot, fun name hname ↦ (hnames name hname).ne_dot⟩
  no_separator :=
    List.forall_mem_append.mpr ⟨h.no_separator, fun name hname ↦ (hnames name hname).no_separator⟩

theorem isSimple_nil (absolute : Bool) : IsSimple absolute [] :=
  ⟨rfl, fun _ h ↦ (List.not_mem_nil h).elim, fun _ h ↦ (List.not_mem_nil h).elim,
    fun _ h ↦ (List.not_mem_nil h).elim⟩

/-- Names are simple segments of any path. -/
theorem isSimple_of_isName (absolute : Bool) (h : ∀ name ∈ names, IsName name) :
    IsSimple absolute names :=
  (isSimple_nil absolute).append h

/-- Leaving out the last of simple segments leaves them simple. -/
theorem IsSimple.of_concat (h : IsSimple absolute (segments ++ [name])) (hup : name ≠ "..") :
    IsSimple absolute segments := by
  have hmem : name ∈ segments ++ [name] := List.mem_append_right _ (List.mem_singleton_self _)
  have hname : IsName name := ⟨h.ne_nil _ hmem, h.ne_dot _ hmem, hup, h.no_separator _ hmem⟩
  have hsimplify := h.simplify_eq
  rw [simplify_append (List.forall_mem_singleton.mpr hname)] at hsimplify
  exact ⟨List.append_cancel_right hsimplify, fun _ hs ↦ h.ne_nil _ (List.mem_append_left _ hs),
    fun _ hs ↦ h.ne_dot _ (List.mem_append_left _ hs),
    fun _ hs ↦ h.no_separator _ (List.mem_append_left _ hs)⟩

/-- Taking one more piece to simple segments, which are held from the last to the first, keeps them
simple. -/
theorem IsSimple.push (h : IsSimple absolute above.reverse) (hpiece : separator ∉ piece) :
    IsSimple absolute (Path.push absolute above piece).reverse := by
  rcases piece_cases hpiece with hskip | rfl | hname
  · rwa [push_skip hskip]
  · cases above with
    | nil =>
      rw [push_dots_nil]
      cases absolute with
      | true => exact isSimple_nil true
      | false => exact ⟨by decide, by decide, by decide, by decide⟩
    | cons last rest =>
      by_cases hlast : last = ".."
      · have hpush : Path.push absolute (last :: rest) ".." = (".." : Text) :: last :: rest := by
          rw [push_dots_cons, if_pos hlast]
        rw [hpush, List.reverse_cons]
        refine ⟨?_, List.forall_mem_append.mpr ⟨h.ne_nil, by decide⟩,
          List.forall_mem_append.mpr ⟨h.ne_dot, by decide⟩,
          List.forall_mem_append.mpr ⟨h.no_separator, by decide⟩⟩
        rw [simplify_concat, h.simplify_eq, List.reverse_reverse, hpush, List.reverse_cons]
      · rw [push_dots_cons, if_neg hlast]
        rw [List.reverse_cons] at h
        exact h.of_concat hlast
  · rw [push_of_isName hname, List.reverse_cons]
    exact h.append (List.forall_mem_singleton.mpr hname)

theorem isSimple_simplify (h : ∀ part ∈ parts, separator ∉ part) :
    IsSimple absolute (simplify absolute parts) := by
  induction parts using List.reverseRecOn with
  | nil => exact isSimple_nil absolute
  | append_singleton parts piece ih =>
    rw [List.forall_mem_append] at h
    rw [simplify_concat]
    refine IsSimple.push ?_ (h.2 piece (List.mem_singleton_self _))
    rw [List.reverse_reverse]
    exact ih h.1

/-- The segments of an absolute path do not go up. -/
theorem ne_dots_push (h : ∀ segment ∈ above, segment ≠ "..") (hpiece : separator ∉ piece) :
    ∀ segment ∈ push true above piece, segment ≠ ".." := by
  rcases piece_cases hpiece with hskip | rfl | hname
  · rwa [push_skip hskip]
  · cases above with
    | nil => exact fun _ hmem ↦ (List.not_mem_nil (push_dots_nil true ▸ hmem)).elim
    | cons last rest =>
      rw [push_dots_cons, if_neg (h last List.mem_cons_self)]
      exact fun segment hmem ↦ h segment (List.mem_cons_of_mem _ hmem)
  · rw [push_of_isName hname]
    exact List.forall_mem_cons.mpr ⟨hname.ne_dots, h⟩

theorem forall_isName_simplify (h : ∀ part ∈ parts, separator ∉ part) :
    ∀ name ∈ simplify true parts, IsName name := by
  have hdots : ∀ segment ∈ (simplify true parts).reverse, segment ≠ ".." := by
    induction parts using List.reverseRecOn with
    | nil => exact fun _ hmem ↦ (List.not_mem_nil hmem).elim
    | append_singleton parts piece ih =>
      rw [List.forall_mem_append] at h
      rw [simplify_concat, List.reverse_reverse]
      exact ne_dots_push (ih h.1) (h.2 piece (List.mem_singleton_self _))
  have hsimple : IsSimple true (simplify true parts) := isSimple_simplify h
  exact fun name hname ↦ ⟨hsimple.ne_nil name hname, hsimple.ne_dot name hname,
    hdots name (List.mem_reverse.mpr hname), hsimple.no_separator name hname⟩

theorem no_separator_of_mem_pieces {p : Path} : ∀ piece ∈ p.pieces, separator ∉ piece :=
  fun _ ↦ Text.not_mem_of_mem_splitOn

/-! ### Paths made of segments -/

theorem pieces_append (p q : Path) : pieces (p ++ separator :: q) = p.pieces ++ q.pieces :=
  Text.splitOn_append p q

theorem isAbsolute_append (hp : p ≠ []) (q : Text) : isAbsolute (p ++ q) = p.isAbsolute := by
  cases p with
  | nil => exact absurd rfl hp
  | cons u rest => rfl

theorem isAbsolute_ofSegments (segments : List Text) : isAbsolute (ofSegments segments) = true := by
  rw [isAbsolute, ofSegments, List.head?_cons, beq_self_eq_true]

theorem join_eq_nil_iff (h : IsSimple absolute segments) :
    Text.join [separator] segments = [] ↔ segments = [] := by
  cases segments with
  | nil => exact iff_of_true rfl rfl
  | cons first rest =>
    refine iff_of_false (fun hjoin ↦ ?_) (List.cons_ne_nil _ _)
    cases rest with
    | nil => exact h.ne_nil first (List.mem_singleton_self _) hjoin
    | cons next rest =>
      obtain ⟨hfirst, -⟩ := List.append_eq_nil_iff.mp hjoin
      exact h.ne_nil first List.mem_cons_self (List.append_eq_nil_iff.mp hfirst).1

/-- The simplified path with the given segments. -/
def ofSimple (absolute : Bool) (segments : List Text) : Path :=
  if absolute then ofSegments segments
  else if segments = [] then "." else Text.join [separator] segments

/-- Simplifying a path that does not end in a separator gives the path of its simple segments. -/
theorem normalize_eq (hlast : p.pieces.getLast? ≠ some []) :
    normalize p = ofSimple p.isAbsolute (simplify p.isAbsolute p.pieces) := by
  have htail : (p.getLast? == some separator) = false :=
    beq_eq_false_iff_ne.mpr fun hseparator ↦ hlast (Text.getLast?_splitOn_of_getLast? hseparator)
  have hsimple : IsSimple p.isAbsolute (simplify p.isAbsolute p.pieces) :=
    isSimple_simplify no_separator_of_mem_pieces
  have hempty := join_eq_nil_iff hsimple
  unfold normalize ofSimple
  simp only [htail, Bool.false_and, Bool.false_eq_true, if_false, List.append_nil,
    List.isEmpty_iff, hempty, ofSegments]

section Simple

variable (h : IsSimple absolute segments)
include h

/-- The pieces of a path that is made of simple segments: the segments, and nothing before the first
separator if the path is absolute. -/
theorem pieces_ofSimple (hne : segments ≠ []) :
    pieces (ofSimple absolute segments) = if absolute then [] :: segments else segments := by
  have hjoin : pieces (Text.join [separator] segments) = segments :=
    Text.splitOn_join hne h.no_separator
  unfold ofSimple
  cases absolute with
  | true =>
    rw [if_pos rfl, if_pos rfl, ofSegments, ← List.nil_append (separator :: _),
      pieces_append, hjoin]
    rfl
  | false => rw [if_neg Bool.false_ne_true, if_neg hne, if_neg Bool.false_ne_true, hjoin]

theorem isAbsolute_ofSimple : isAbsolute (ofSimple absolute segments) = absolute := by
  unfold ofSimple
  cases absolute with
  | true => rw [if_pos rfl, isAbsolute_ofSegments]
  | false =>
    rw [if_neg Bool.false_ne_true]
    split_ifs with hne
    · decide
    · obtain ⟨first, rest, rfl⟩ := List.exists_cons_of_ne_nil hne
      have hfirst : first.head? ≠ some separator :=
        fun hhead ↦ h.no_separator first List.mem_cons_self (List.mem_of_head? hhead)
      have hhead : (Text.join [separator] (first :: rest)).head? = first.head? := by
        cases rest with
        | nil => rfl
        | cons next rest =>
          exact (congrArg _ (List.append_assoc _ _ _)).trans
            (List.head?_append_of_ne_nil _ (h.ne_nil first List.mem_cons_self))
      rw [isAbsolute, hhead, beq_eq_false_iff_ne]
      exact hfirst

theorem ofSimple_ne_nil : ofSimple absolute segments ≠ [] := by
  unfold ofSimple
  split_ifs with habsolute hne
  · exact List.cons_ne_nil _ _
  · decide
  · exact fun hjoin ↦ hne ((join_eq_nil_iff h).mp hjoin)

theorem simplify_pieces_ofSimple :
    simplify absolute (pieces (ofSimple absolute segments)) = segments := by
  by_cases hne : segments = []
  · subst hne
    cases absolute <;> decide
  · rw [pieces_ofSimple h hne]
    split_ifs
    · rw [simplify, List.foldl_cons, push_skip (.inl rfl)]
      exact h.simplify_eq
    · exact h.simplify_eq

variable (hname : IsName name)
include hname

/-- A path that is made of segments ends in the last of them. -/
theorem name_ofSimple : Path.name (ofSimple absolute (segments ++ [name])) = name := by
  have hsimple := h.append (List.forall_mem_singleton.mpr hname)
  have hkept : ((segments ++ [name]).filter (!·.isEmpty)) = segments ++ [name] := by
    refine List.filter_eq_self.mpr fun n hn ↦ ?_
    rw [Bool.not_eq_true', List.isEmpty_eq_false_iff]
    exact hsimple.ne_nil n hn
  have hlast : ((pieces (ofSimple absolute (segments ++ [name]))).filter (!·.isEmpty)) = segments ++
      [name] := by
    rw [pieces_ofSimple hsimple (List.append_ne_nil_of_right_ne_nil _ (List.cons_ne_nil _ _))]
    split_ifs
    · rw [List.filter_cons_of_neg (by decide), hkept]
    · exact hkept
  rw [Path.name, hlast, List.getLast?_concat, Option.getD_some]

/-- The directory of a path that is made of segments: the path without its last name. -/
theorem parent_ofSimple :
    parent (ofSimple absolute (segments ++ [name])) = ofSimple absolute segments := by
  have hsimple := h.append (List.forall_mem_singleton.mpr hname)
  have hpieces : pieces (ofSimple absolute (segments ++ [name]) ++ ("/.." : Text)) =
      pieces (ofSimple absolute (segments ++ [name])) ++ [(".." : Text)] := pieces_append _ ".."
  have hlast : (pieces (ofSimple absolute (segments ++ [name]) ++ ("/.." : Text))).getLast? ≠
      some [] := by
    rw [hpieces, List.getLast?_concat]
    decide
  rw [parent, normalize_eq hlast, isAbsolute_append (ofSimple_ne_nil hsimple),
    isAbsolute_ofSimple hsimple, hpieces, simplify_concat, simplify_pieces_ofSimple hsimple,
    List.reverse_concat, push_dots_cons, if_neg hname.ne_dots, List.reverse_reverse]

end Simple

/-- The path of an entry below a directory. -/
theorem child_join (hdirectory : directory ≠ []) (hne : names ≠ [])
    (h : ∀ name ∈ names, IsName name) :
    child directory (Text.join [separator] names) =
      ofSimple directory.isAbsolute (simplify directory.isAbsolute directory.pieces ++ names) := by
  have hpieces : pieces (directory ++ separator :: Text.join [separator] names) =
      directory.pieces ++ names := by
    rw [pieces_append, pieces.eq_def (Text.join _ _),
      Text.splitOn_join hne fun name hname ↦ (h name hname).no_separator]
  have hlast : (directory.pieces ++ names).getLast? ≠ some [] := by
    intro hsome
    rw [List.getLast?_append_of_ne_nil _ hne] at hsome
    exact (h _ (List.mem_of_getLast? hsome)).ne_nil rfl
  rw [child, List.isEmpty_eq_false_iff.mpr hdirectory, if_neg Bool.false_ne_true,
    normalize_eq (hpieces ▸ hlast), hpieces, isAbsolute_append hdirectory, simplify_append h]

/-- A resolved path is made of names. -/
theorem forall_isName_segmentsFrom (base p : Path) : ∀ name ∈ segmentsFrom base p, IsName name := by
  refine forall_isName_simplify ?_
  split_ifs
  · exact no_separator_of_mem_pieces
  · exact List.forall_mem_append.mpr ⟨no_separator_of_mem_pieces, no_separator_of_mem_pieces⟩

end Path

end Declutter
