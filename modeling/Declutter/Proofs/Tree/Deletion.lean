import Declutter.Proofs.Text.Separator
/-!
What goes along with a statement that is deleted: on either side one semicolon with the padding
around it, or the rest of the line (`Edit.retreats_of_deleteStatement`). A deletion stops short of
every solid unit around the statement (`Text.Retreats.lt`, `Text.Advances.le_of_isSolid`), and two
deletions do not meet unless a separator is all that is between the statements
(`Text.Advances.le_retreats`).
-/

set_option autoImplicit false
set_option relaxedAutoImplicit false

namespace Declutter

namespace Text

/-- Where the deletion of a statement that starts at `i` can start: with the statement, with a
separator before it, or with its line if only blanks are before it. -/
inductive Retreats (t : Text) (i : Nat) : Nat → Prop where
  | stay : Retreats t i i
  | separator {a m : Nat} (separates : t.Separates a i m) (line : t.lineStart i ≤ a) :
      Retreats t i a
  | line (blank : (t.slice (t.lineStart i) i).isBlank = true) : Retreats t i (t.lineStart i)

/-- Where the deletion of a statement that stops at `i` can stop: with the statement, with a
separator after it, or with its line if nothing but blanks, semicolons and a comment is left
there. -/
inductive Advances (t : Text) (i : Nat) : Nat → Prop where
  | stay : Advances t i i
  | separator {b m : Nat} (separates : t.Separates i b m) (line : b ≤ t.lineEnd i) : Advances t i b
  | line (closes : t.closesLine i = true) : Advances t i (t.nextLine i)

variable {t : Text} {i j k a b : Nat}

namespace Retreats

theorem le (h : t.Retreats i a) : a ≤ i := by
  cases h with
  | stay => exact le_rfl
  | separator separates _ => exact (separates.le.trans_lt separates.lt).le
  | line => exact lineStart_le t i

theorem lineStart_le (h : t.Retreats i a) : t.lineStart i ≤ a := by
  cases h with
  | stay => exact Text.lineStart_le t i
  | separator _ line => exact line
  | line => exact le_rfl

/-- Solid units before the statement are not deleted. -/
theorem lt (h : t.Retreats i a) (hk : k < i) (hsolid : t.hasAt CodeUnit.isSolid k = true) :
    k < a := by
  cases h with
  | stay => exact hk
  | separator separates _ => exact Nat.lt_of_not_le fun hle ↦ separates.not_isSolid hle hk hsolid
  | line blank =>
    exact lt_lineStart_of_blank blank hk (lt_length_of_hasAt hsolid) (not_blank_of_isSolid hsolid)

end Retreats

namespace Advances

theorem le (h : t.Advances i b) (hi : i ≤ t.length) : i ≤ b := by
  cases h with
  | stay => exact le_rfl
  | separator separates _ => exact (separates.le.trans_lt separates.lt).le
  | line => exact le_nextLine hi

theorem le_nextLine (h : t.Advances i b) (hi : i ≤ t.length) : b ≤ t.nextLine i := by
  cases h with
  | stay => exact Text.le_nextLine hi
  | separator _ line =>
    rw [nextLine]
    split_ifs <;> omega
  | line => exact le_rfl

/-- Solid units after the statement are not deleted, unless they are in a comment. -/
theorem le_of_isSolid (h : t.Advances i b) (hk : i ≤ k) (hsolid : t.hasAt CodeUnit.isSolid k = true)
    (hopen : t.Uncommented i k) : b ≤ k := by
  cases h with
  | stay => exact hk
  | separator separates _ => exact Nat.le_of_not_lt fun hlt ↦ separates.not_isSolid hk hlt hsolid
  | line closes =>
    obtain ⟨n, hn, hin, hnewline⟩ := exists_newline_of_closesLine closes hk hsolid hopen
    exact (nextLine_le_of_newline hin hnewline).trans hn

/-- The deletions of two statements do not meet if more than a separator is between them: on one
line, each of them would need a semicolon of its own. -/
theorem le_retreats (hb : t.Advances i b) (ha : t.Retreats j a) (hij : i ≤ j) (hj : j ≤ t.length)
    (hfence : t.closesLine i = true ∨ ∃ l, i = l + 1 ∧ t.hasAt CodeUnit.isSolid l = true)
    (hsolid : t.hasAt CodeUnit.isSolid j = true) (hopen : t.Uncommented i j)
    (hcount : (uncomment false (t.slice i j)).count (CodeUnit.ofChar ';') ≤ 1)
    (hseparator : Edit.isSeparator (t.slice i j) = false) : b ≤ a := by
  by_cases hbreak : ∃ n < j, i ≤ n ∧ t.hasAt CodeUnit.isNewline n = true
  · obtain ⟨n, hn, hin, hnewline⟩ := hbreak
    exact (hb.le_nextLine (hij.trans hj)).trans
      ((nextLine_le_lineStart hin hn hnewline).trans ha.lineStart_le)
  · -- everything happens on one line, and the first statement ends in a solid unit
    obtain ⟨l, rfl, hlast⟩ := hfence.resolve_left fun hcloses ↦
      hbreak (exists_newline_of_closesLine hcloses hij hsolid hopen)
    have hla : l < a := ha.lt (by omega) hlast
    have hbj : b ≤ j := hb.le_of_isSolid hij hsolid hopen
    have hsigns : ∀ k, l + 1 ≤ k → k < j → ¬ t.hasAt (· == '#') k = true := fun k hk hkj hsign ↦ by
      obtain ⟨n, hn, hkn, hnewline⟩ := hopen k hkj.le hk hsign
      exact hbreak ⟨n, hn, by omega, hnewline⟩
    cases hb with
    | stay => exact hla
    | line closes => exact absurd (exists_newline_of_closesLine closes hij hsolid hopen) hbreak
    | @separator _ m hm _ =>
      cases ha with
      | stay => exact hbj
      | line blank =>
        have hstart := newline_before_lineStart (t := t) (i := j) (by omega)
        have hne : l ≠ t.lineStart j - 1 := fun heq ↦ not_newline_of_isSolid hlast (heq ▸ hstart)
        have hle := Text.lineStart_le t j
        exact absurd ⟨t.lineStart j - 1, by omega, by omega, hstart⟩ hbreak
      | @separator _ n hn _ =>
        have hmle := hm.le
        have hmlt := hm.lt
        have hnle := hn.le
        have hnlt := hn.lt
        exfalso
        rcases Nat.lt_trichotomy m n with hlt | heq | hgt
        · have htwo := two_le_count_uncomment hmle hlt hnlt hm.semicolon hn.semicolon hsigns
          omega
        · subst heq
          have hall : t.Separates (l + 1) j m := by
            refine ⟨hmle, hnlt, hm.semicolon, fun k hk hkj hne ↦ ?_⟩
            by_cases hkb : k < b
            · exact hm.padding k hk hkb hne
            · exact hn.padding k (by omega) hkj hne
          rw [Edit.isSeparator_slice hall] at hseparator
          exact Bool.noConfusion hseparator
        · have htwo := two_le_count_uncomment (i := l + 1) (by omega) hgt (by omega) hn.semicolon
            hm.semicolon hsigns
          omega

end Advances

end Text

namespace Edit

variable {t : Text} {s : Span} {e : Edit}

theorem deleteLines_lineEnd (t : Text) (i j : Nat) :
    deleteLines t i (t.lineEnd j) = deletion i (t.nextLine j) := rfl

/-- What the scan for a separator after a statement finds, and what the line holds if no code
follows. -/
theorem advances_of_afterSeparator? {i : Nat} {following : Text} (hi : i ≤ t.length)
    (h : afterSeparator? (t.slice i (t.lineEnd i)) = some following) :
    t.Advances i (i + ((t.slice i (t.lineEnd i)).length - following.length)) ∧
      (holdsNoCode following = true → t.closesLine i = true) := by
  have hstop := Text.le_lineEnd hi
  have hend := t.lineEnd_le i
  obtain ⟨m, hm⟩ := afterSeparator?_slice hstop hend h
  have hlt := hm.le.trans_lt hm.lt
  refine ⟨?_, fun hcode ↦ ?_⟩
  · have heq : i + ((t.slice i (t.lineEnd i)).length - following.length) =
        t.lineEnd i - following.length := by
      rw [Text.length_slice hend]
      omega
    rw [heq]
    exact .separator hm (Nat.sub_le _ _)
  · obtain ⟨padding₁, padding₂, hslice, h₁, h₂⟩ := afterSeparator?_eq_some h
    refine Text.closesLine_of_slice hslice (fun u hu ↦ ?_) hcode
    rcases List.mem_append.mp hu with hu | hu
    · exact CodeUnit.not_isSolid_of_isPadding (h₁ u hu)
    · rcases List.mem_cons.mp hu with rfl | hu
      · rfl
      · exact CodeUnit.not_isSolid_of_isPadding (h₂ u hu)

/-- A statement is deleted together with separators or lines around it. -/
theorem retreats_of_deleteStatement (hstart : s.start ≤ t.length) (hstop : s.stop ≤ t.length)
    (h : deleteStatement t s = .ok e) :
    ∃ a b, e = deletion a b ∧ t.Retreats s.start a ∧ t.Advances s.stop b := by
  unfold deleteStatement at h
  dsimp only at h
  by_cases hblank : (t.slice (t.lineStart s.start) s.start).isBlank = true
  · rw [if_pos hblank] at h
    split at h
    · next following hfollowing =>
      obtain ⟨hadvances, hcloses⟩ := advances_of_afterSeparator? hstop hfollowing
      split_ifs at h with hcode
      · obtain rfl := Except.ok.inj h
        exact ⟨_, _, deleteLines_lineEnd _ _ _, .line hblank, .line (hcloses hcode)⟩
      · obtain rfl := Except.ok.inj h
        exact ⟨_, _, rfl, .stay, hadvances⟩
    · split_ifs at h with hcode
      obtain rfl := Except.ok.inj h
      have hcloses :=
        Text.closesLine_of_slice (List.nil_append _).symm (fun _ hu ↦ nomatch hu) hcode
      exact ⟨_, _, deleteLines_lineEnd _ _ _, .line hblank, .line hcloses⟩
  · rw [if_neg hblank] at h
    split at h
    · next preceding _ hpreceding =>
      obtain rfl := Except.ok.inj h
      obtain ⟨m, hm⟩ := beforeSeparator?_slice (t.lineStart_le s.start) hstart hpreceding
      exact ⟨_, _, rfl, .separator hm (Nat.le_add_right _ _), .stay⟩
    · next following _ hfollowing =>
      obtain rfl := Except.ok.inj h
      exact ⟨_, _, rfl, .stay, (advances_of_afterSeparator? hstop hfollowing).1⟩
    · obtain rfl := Except.ok.inj h
      exact ⟨_, _, rfl, .stay, .stay⟩

/-- A clause is deleted with all of its lines. -/
theorem deleteClause_eq_ok (h : deleteClause t s = .ok e) :
    e = deletion (t.lineStart s.start) (t.nextLine s.stop) ∧
      (t.slice (t.lineStart s.start) s.start).isBlank = true := by
  unfold deleteClause at h
  dsimp only at h
  split_ifs at h with hblank hcode
  obtain rfl := Except.ok.inj h
  exact ⟨deleteLines_lineEnd _ _ _, by simpa using hblank⟩

end Edit

end Declutter
