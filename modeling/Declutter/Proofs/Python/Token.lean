import Declutter.Proofs.Text.Offset
import Declutter.Python.StringLiteral
import Mathlib.Tactic.IntervalCases
/-!
Tokens of a Python text. A token is no longer than the text it stands at the head of. It begins and
ends with code: its first and its last unit are no blanks, neither for the grammar nor for what
trims text, and no comment or semicolon starts at them (`CodeUnit.isCode`). What the line structure
takes for the head of a string literal is one (`Layout.startsString_afterGap`).
-/

set_option autoImplicit false
set_option relaxedAutoImplicit false

namespace Declutter

/-! ### Units of code -/

namespace CodeUnit

/-- A unit that is no white space and no blank between tokens, and at which neither a comment nor
another statement starts. -/
def isCode (u : CodeUnit) : Bool :=
  !u.isBlank && !Python.Cursor.isGap u && u != '#' && u != ';'

/-- The units that are not code. -/
def gaps : List Nat :=
  [9, 10, 11, 12, 13, 32, 35, 59, 0xA0, 0x1680, 0x2000, 0x2001, 0x2002, 0x2003, 0x2004, 0x2005,
    0x2006, 0x2007, 0x2008, 0x2009, 0x200A, 0x200B, 0x2028, 0x2029, 0x202F, 0x205F, 0x2060, 0x3000,
    0xFEFF]

theorem isCode_of_not_mem_gaps {u : CodeUnit} (h : u.toNat ∉ gaps) : u.isCode = true := by
  by_contra hcode
  have hgap : u.isBlank = true ∨ Python.Cursor.isGap u = true ∨ u = '#' ∨ u = ';' := by
    simp only [isCode, Bool.and_eq_true, Bool.not_eq_true', bne_iff_ne, ne_eq] at hcode
    by_contra hnone
    simp only [not_or, Bool.not_eq_true, ← and_assoc] at hnone
    exact hcode hnone
  refine h ?_
  simp only [isBlank, Python.Cursor.isGap, Bool.or_eq_true, Bool.and_eq_true, decide_eq_true_eq,
    beq_iff_eq, UInt16.le_iff_toNat_le, ← UInt16.toNat_inj, ofChar, UInt16.toNat_ofNat',
    Char.reduceToNat, UInt16.reduceToNat, Nat.reducePow, Nat.reduceMod] at hgap
  simp only [gaps, List.mem_cons, List.not_mem_nil, or_false]
  omega

theorem isCode_iff {u : CodeUnit} : u.isCode = true ↔
    u.isBlank = false ∧ Python.Cursor.isGap u = false ∧ u ≠ '#' ∧ u ≠ ';' := by
  simp [isCode, and_assoc]

/-- No unit of an identifier is a unit that is not code. -/
theorem not_isContinue_of_mem_gaps : ∀ p ∈ gaps,
    IdentifierClass.isStart p = false ∧ IdentifierClass.isContinue p = false := by
  decide +kernel

theorem isCode_of_isStart {u : CodeUnit} (h : IdentifierClass.isStart u.toNat = true) :
    u.isCode = true :=
  isCode_of_not_mem_gaps fun hmem ↦ by
    rw [(not_isContinue_of_mem_gaps _ hmem).1] at h
    exact Bool.noConfusion h

theorem isCode_of_isContinue {u : CodeUnit} (h : IdentifierClass.isContinue u.toNat = true) :
    u.isCode = true :=
  isCode_of_not_mem_gaps fun hmem ↦ by
    rw [(not_isContinue_of_mem_gaps _ hmem).2] at h
    exact Bool.noConfusion h

theorem isCode_of_isHexDigit {u : CodeUnit} (h : u.isHexDigit = true) : u.isCode = true := by
  refine isCode_of_not_mem_gaps ?_
  simp only [isHexDigit, isDigit, Bool.or_eq_true, Bool.and_eq_true, decide_eq_true_eq,
    UInt16.le_iff_toNat_le, ofChar, UInt16.toNat_ofNat', Char.reduceToNat, Nat.reducePow,
    Nat.reduceMod] at h
  simp only [gaps, List.mem_cons, List.not_mem_nil, or_false]
  omega

theorem isCode_of_isDigit {u : CodeUnit} (h : u.isDigit = true) : u.isCode = true :=
  isCode_of_isHexDigit (by rw [isHexDigit, h]; rfl)

theorem isCode_of_ascii {u : CodeUnit} (h : 33 ≤ u.toNat) (h' : u.toNat ≤ 126)
    (hcomment : u.toNat ≠ 35) (hsemicolon : u.toNat ≠ 59) : u.isCode = true := by
  refine isCode_of_not_mem_gaps ?_
  simp only [gaps, List.mem_cons, List.not_mem_nil, or_false]
  omega

theorem isCode_of_isLowSurrogate {u : CodeUnit} (h : u.isLowSurrogate = true) :
    u.isCode = true := by
  refine isCode_of_not_mem_gaps ?_
  simp only [isLowSurrogate, Bool.and_eq_true, decide_eq_true_eq, UInt16.le_iff_toNat_le,
    UInt16.lt_iff_toNat_lt, UInt16.reduceToNat] at h
  simp only [gaps, List.mem_cons, List.not_mem_nil, or_false]
  omega

theorem isCode_of_isHighSurrogate {u : CodeUnit} (h : u.isHighSurrogate = true) :
    u.isCode = true := by
  refine isCode_of_not_mem_gaps ?_
  simp only [isHighSurrogate, Bool.and_eq_true, decide_eq_true_eq, UInt16.le_iff_toNat_le,
    UInt16.lt_iff_toNat_lt, UInt16.reduceToNat] at h
  simp only [gaps, List.mem_cons, List.not_mem_nil, or_false]
  omega

end CodeUnit

namespace Text

/-- A text has at least one unit for each character. -/
theorem length_le_ofString (s : String) : s.toList.length ≤ (ofString s).length := by
  rw [ofString]
  induction s.toList with
  | nil => exact le_rfl
  | cons ch rest ih =>
    have hunits : 1 ≤ (CodeUnit.ofCodePoint ch.toNat).length := by
      rw [CodeUnit.ofCodePoint]
      split_ifs <;> simp
    rw [List.flatMap_cons, List.length_append, List.length_cons]
    omega

grind_pattern length_le_ofString => (ofString s).length

/-- Whether a text consists of code. -/
def isCode (t : Text) : Bool := t.all CodeUnit.isCode

/-- A visible ASCII character at which neither a comment nor another statement starts. -/
@[grind]
def isVisible (ch : Char) : Bool :=
  33 ≤ ch.toNat && ch.toNat ≤ 126 && ch.toNat != 35 && ch.toNat != 59

/-- A string of visible ASCII characters has a unit of code for each of them. -/
theorem isCode_ofString {s : String} (h : s.toList.all isVisible = true) :
    (ofString s).isCode = true ∧ (ofString s).length = s.toList.length := by
  rw [ofString]
  generalize s.toList = chars at h ⊢
  induction chars with
  | nil => exact ⟨rfl, rfl⟩
  | cons ch rest ih =>
    rw [List.all_cons, Bool.and_eq_true] at h
    obtain ⟨hcode, hlength⟩ := ih h.2
    simp only [isVisible, Bool.and_eq_true, decide_eq_true_eq, bne_iff_ne, ne_eq] at h
    have hunit : CodeUnit.ofCodePoint ch.toNat = [UInt16.ofNat ch.toNat] := by
      rw [CodeUnit.ofCodePoint, if_pos (by omega)]
    have htoNat : (UInt16.ofNat ch.toNat).toNat = ch.toNat := by
      rw [UInt16.toNat_ofNat']
      omega
    have hfirst : CodeUnit.isCode (UInt16.ofNat ch.toNat) = true := by
      refine CodeUnit.isCode_of_ascii ?_ ?_ ?_ ?_ <;> omega
    rw [List.flatMap_cons, hunit]
    refine ⟨?_, congrArg (· + 1) hlength⟩
    rw [isCode, List.singleton_append, List.all_cons, hfirst]
    exact hcode

variable {t : Text} {n k : Nat}

/-- Code behind code. -/
theorem isCode_take_add (hn : isCode (t.take n) = true) (hk : isCode ((t.drop n).take k) = true) :
    isCode (t.take (n + k)) = true := by
  rw [List.take_add, isCode, List.all_append, Bool.and_eq_true]
  exact ⟨hn, hk⟩

end Text

namespace Python

/-! ### Words, numbers and marks -/

namespace Cursor

variable {t : Text} {c : Cursor}

theorem wordTail_le (t : Text) : wordTail t ≤ t.length := by
  induction t using wordTail.induct with
  | case1 => exact le_rfl
  | case2 u hu => rw [wordTail, if_pos hu, List.length_singleton]
  | case3 u hu => rw [wordTail, if_neg hu]; exact Nat.zero_le _
  | case4 u v rest hpair hjoined ih =>
    rw [wordTail, if_pos hpair, if_pos hjoined, List.length_cons, List.length_cons]
    omega
  | case5 u v rest hpair hjoined =>
    rw [wordTail, if_pos hpair, if_neg hjoined]
    exact Nat.zero_le _
  | case6 u v rest hpair hu ih =>
    rw [wordTail, if_neg hpair, if_pos hu, List.length_cons]
    omega
  | case7 u v rest hpair hu =>
    rw [wordTail, if_neg hpair, if_neg hu]
    exact Nat.zero_le _

theorem wordLength_le (t : Text) : wordLength t ≤ t.length := by
  rcases t with - | ⟨u, - | ⟨v, rest⟩⟩
  · exact le_rfl
  · rw [wordLength, List.length_singleton]
    split_ifs <;> omega
  · have htail := wordTail_le rest
    have htail' := wordTail_le (v :: rest)
    rw [List.length_cons] at htail'
    rw [wordLength, List.length_cons, List.length_cons]
    split_ifs <;> omega

theorem isCode_wordTail (t : Text) : Text.isCode (t.take (wordTail t)) = true := by
  induction t using wordTail.induct with
  | case1 => rfl
  | case2 u hu =>
    rw [wordTail, if_pos hu]
    simp [Text.isCode, CodeUnit.isCode_of_isContinue hu]
  | case3 u hu => rw [wordTail, if_neg hu]; rfl
  | case4 u v rest hpair hjoined ih =>
    rw [Bool.and_eq_true] at hpair
    rw [wordTail, if_pos (by simp [hpair]), if_pos hjoined, Nat.add_comm]
    simp only [Text.isCode, List.take_succ_cons, List.all_cons,
      CodeUnit.isCode_of_isHighSurrogate hpair.1, CodeUnit.isCode_of_isLowSurrogate hpair.2]
    exact ih
  | case5 u v rest hpair hjoined => rw [wordTail, if_pos hpair, if_neg hjoined]; rfl
  | case6 u v rest hpair hu ih =>
    rw [wordTail, if_neg hpair, if_pos hu, Nat.add_comm]
    simp only [Text.isCode, List.take_succ_cons, List.all_cons, CodeUnit.isCode_of_isContinue hu]
    exact ih
  | case7 u v rest hpair hu => rw [wordTail, if_neg hpair, if_neg hu]; rfl

/-- A word consists of code. -/
theorem isCode_wordLength (t : Text) : Text.isCode (t.take (wordLength t)) = true := by
  rcases t with - | ⟨u, - | ⟨v, rest⟩⟩
  · rfl
  · rw [wordLength]
    split_ifs with hu
    · simp [Text.isCode, CodeUnit.isCode_of_isStart hu]
    · rfl
  · rw [wordLength]
    split_ifs with hpair hjoined hu
    · rw [Bool.and_eq_true] at hpair
      simp only [Nat.add_comm 2, Text.isCode, List.take_succ_cons, List.all_cons,
        CodeUnit.isCode_of_isHighSurrogate hpair.1, CodeUnit.isCode_of_isLowSurrogate hpair.2]
      exact isCode_wordTail rest
    · rfl
    · simp only [Nat.add_comm 1, Text.isCode, List.take_succ_cons, List.all_cons,
        CodeUnit.isCode_of_isStart hu]
      exact isCode_wordTail (v :: rest)
    · rfl

theorem digitsLength_le (t : Text) : digitsLength t ≤ t.length := by
  fun_induction digitsLength t <;> grind

theorem isCode_digitsLength (t : Text) : Text.isCode (t.take (digitsLength t)) = true := by
  have hunderscore : (CodeUnit.ofChar '_').isCode = true := by decide
  fun_induction digitsLength t <;> grind [Text.isCode, CodeUnit.isCode_of_isDigit]

theorem groupedLength_le (p : CodeUnit → Bool) (t : Text) : groupedLength p t ≤ t.length := by
  fun_induction groupedLength p t <;> grind

theorem exponentLength_le (t : Text) : exponentLength t ≤ t.length := by
  rcases t with - | ⟨u, - | ⟨v, rest⟩⟩ <;> grind [exponentLength, digitsLength_le]

theorem numberSuffixLength_le (t : Text) : numberSuffixLength t ≤ t.length := by
  cases t <;> grind [numberSuffixLength]

theorem basedLength_le (p : CodeUnit → Bool) (t : Text) : basedLength p t ≤ t.length := by
  have hgroup := groupedLength_le p (t.drop 2)
  cases hrest : t.drop (2 + groupedLength p (t.drop 2)) with
  | nil => grind [basedLength]
  | cons u rest =>
    have hlength := congrArg List.length hrest
    grind [basedLength]

theorem decimalLength_le (t : Text) : decimalLength t ≤ t.length := by
  have hwhole := digitsLength_le t
  have hfraction := digitsLength_le (t.drop (digitsLength t + 1))
  grind [decimalLength, exponentLength_le, numberSuffixLength_le]

theorem numberLength_le (t : Text) : numberLength t ≤ t.length := by
  unfold numberLength
  extract_lets based
  have hbased : based ≤ t.length := by
    unfold based
    split
    · split_ifs
      · exact basedLength_le _ _
      · exact basedLength_le _ _
      · exact basedLength_le _ _
      · exact Nat.zero_le _
    · exact Nat.zero_le _
  split_ifs
  · exact decimalLength_le t
  · exact hbased

theorem isCode_groupedLength {p : CodeUnit → Bool} (hp : ∀ u, p u = true → u.isCode = true)
    (t : Text) : Text.isCode (t.take (groupedLength p t)) = true := by
  have hunderscore : (CodeUnit.ofChar '_').isCode = true := by decide
  fun_induction groupedLength p t <;> grind [Text.isCode]

theorem isCode_exponentLength (t : Text) : Text.isCode (t.take (exponentLength t)) = true := by
  have hletters : (CodeUnit.ofChar 'e').isCode = true ∧ (CodeUnit.ofChar 'E').isCode = true ∧
      (CodeUnit.ofChar '+').isCode = true ∧ (CodeUnit.ofChar '-').isCode = true := by decide
  rcases t with - | ⟨u, - | ⟨v, rest⟩⟩
  · rfl
  · grind [exponentLength, Text.isCode]
  · have hsigned := isCode_digitsLength rest
    have hplain := isCode_digitsLength (v :: rest)
    grind [exponentLength, Text.isCode]

theorem isCode_numberSuffixLength (t : Text) :
    Text.isCode (t.take (numberSuffixLength t)) = true := by
  have hletters : (CodeUnit.ofChar 'l').isCode = true ∧ (CodeUnit.ofChar 'L').isCode = true ∧
      (CodeUnit.ofChar 'j').isCode = true ∧ (CodeUnit.ofChar 'J').isCode = true := by decide
  cases t <;> grind [numberSuffixLength, Text.isCode]

theorem isCode_basedLength {p : CodeUnit → Bool} (hp : ∀ u, p u = true → u.isCode = true)
    (h : Text.isCode (t.take 2) = true) : Text.isCode (t.take (basedLength p t)) = true := by
  have hletters : (CodeUnit.ofChar 'l').isCode = true ∧ (CodeUnit.ofChar 'L').isCode = true := by
    decide
  have hdigits := Text.isCode_take_add h (isCode_groupedLength hp (t.drop 2))
  unfold basedLength
  extract_lets n
  split_ifs with hnone hsuffix
  · rfl
  · refine Text.isCode_take_add hdigits ?_
    cases hrest : t.drop (2 + groupedLength p (t.drop 2)) <;> grind [Text.isCode]
  · exact hdigits

theorem isCode_decimalLength (t : Text) : Text.isCode (t.take (decimalLength t)) = true := by
  have hpoint : (CodeUnit.ofChar '.').isCode = true := by decide
  have hwhole := isCode_digitsLength t
  unfold decimalLength
  extract_lets whole fraction point mantissa body
  have hmantissa : Text.isCode (t.take mantissa) = true := by
    change Text.isCode (t.take (whole + point)) = true
    refine Text.isCode_take_add hwhole ?_
    unfold point
    split_ifs with hhead hnone
    · rfl
    · refine Text.isCode_take_add (n := 1) ?_ ?_
      · cases hrest : t.drop whole <;> grind [Text.isCode]
      · rw [List.drop_drop]
        exact isCode_digitsLength _
    · rfl
  split_ifs with hnone
  · rfl
  · change Text.isCode (t.take (mantissa + exponentLength (t.drop mantissa) + _)) = true
    exact Text.isCode_take_add (Text.isCode_take_add hmantissa (isCode_exponentLength _))
      (isCode_numberSuffixLength _)

/-- A number consists of code. -/
theorem isCode_numberLength (t : Text) : Text.isCode (t.take (numberLength t)) = true := by
  unfold numberLength
  extract_lets based
  have hbased : Text.isCode (t.take based) = true := by
    unfold based
    split
    · next u rest =>
      have hzero : CodeUnit.isCode 48 = true ∧ CodeUnit.isCode 49 = true := by decide
      have hbase {a b : CodeUnit} (ha : a.isCode = true) (hb : b.isCode = true)
          (hu : (u == a || u == b) = true) :
          Text.isCode (List.take 2 (48 :: u :: rest)) = true := by
        have hcode : u.isCode = true := by grind
        simp [Text.isCode, hzero, hcode]
      split_ifs with hx ho hb
      · refine isCode_basedLength (fun _ ↦ CodeUnit.isCode_of_isHexDigit) ?_
        exact hbase (by decide) (by decide) hx
      · refine isCode_basedLength (fun v hv ↦ CodeUnit.isCode_of_isDigit ?_) ?_
        · rw [Bool.and_eq_true, decide_eq_true_eq, decide_eq_true_eq] at hv
          have hle : v ≤ CodeUnit.ofChar '9' := UInt16.le_trans hv.2 (by decide)
          exact Bool.and_eq_true_iff.mpr ⟨decide_eq_true hv.1, decide_eq_true hle⟩
        · exact hbase (by decide) (by decide) ho
      · refine isCode_basedLength (fun v hv ↦ ?_) (hbase (by decide) (by decide) hb)
        rw [Bool.or_eq_true, beq_iff_eq, beq_iff_eq] at hv
        obtain rfl | rfl := hv
        · exact hzero.1
        · exact hzero.2
      · rfl
    · rfl
  split_ifs with hnone
  · exact isCode_decimalLength t
  · exact hbased

theorem continuationLength_le (t : Text) : continuationLength t ≤ t.length := by
  fun_cases continuationLength t <;> simp

/-- The mark at the cursor is at the head of the text. -/
theorem mark_isPrefix (c : Cursor) : c.mark <+: c.rest := by
  rw [mark]
  cases hfound : longMarks.find? (fun m ↦ m.isPrefixOf c.rest) with
  | none => exact List.take_prefix 1 c.rest
  | some m => exact List.isPrefixOf_iff_prefix.mp (List.find?_some hfound :)

theorem mark_length_le (c : Cursor) : c.mark.length ≤ c.rest.length := c.mark_isPrefix.length_le

grind_pattern mark_length_le => c.mark.length

@[grind →]
theorem length_le_of_atMark {m : Text} (h : c.atMark m = true) : m.length ≤ c.rest.length := by
  rw [← beq_iff_eq.mp h]
  exact c.mark_length_le

@[grind →]
theorem length_pos_of_atUnit {u : CodeUnit} (h : c.atUnit u = true) : 0 < c.rest.length := by
  rw [atUnit, beq_iff_eq] at h
  exact List.length_pos_iff.mpr fun hnil ↦ nomatch (hnil ▸ h :)

end Cursor

/-! ### Where tokens begin -/

/-- A token begins the text: it is not empty, and neither is something to be passed over at its
head. -/
structure StartsToken (t : Text) : Prop where
  nonempty : t ≠ []
  gap : t.takeWhile Cursor.isGap = []
  comment : (t.head? == some (CodeUnit.ofChar '#')) = false
  continuation : Cursor.continuationLength t = 0

variable {t rest : Text}

/-- What is left behind the blanks. -/
theorem drop_takeWhile_isGap (t : Text) :
    t.drop (t.takeWhile Cursor.isGap).length = t.dropWhile Cursor.isGap ∧
    (t.dropWhile Cursor.isGap).takeWhile Cursor.isGap = [] := by
  induction t with
  | nil => exact ⟨rfl, rfl⟩
  | cons u rest ih =>
    by_cases hu : Cursor.isGap u = true
    · rwa [List.takeWhile_cons_of_pos hu, List.dropWhile_cons_of_pos hu, List.length_cons,
        List.drop_succ_cons]
    · rw [List.takeWhile_cons_of_neg hu, List.dropWhile_cons_of_neg hu]
      exact ⟨rfl, List.takeWhile_cons_of_neg hu⟩

namespace Parse

theorem afterGap_isSuffix (t : Text) : afterGap t <:+ t := by
  fun_induction afterGap t with
  | case1 rest ih => exact ih.trans ⟨[92, 13, 10], rfl⟩
  | case2 rest ih => exact ih.trans ⟨[92, 10], rfl⟩
  | case3 u rest _ _ hu ih => exact ih.trans (List.suffix_cons u rest)
  | case4 u rest => exact List.suffix_rfl
  | case5 => exact List.suffix_rfl

/-- Nothing is passed over in front of a token. -/
theorem afterGap_of_startsToken (h : StartsToken t) : afterGap t = t := by
  obtain ⟨-, hgap, -, hcontinuation⟩ := h
  cases t with
  | nil => rfl
  | cons u rest =>
    have hu : ¬ Cursor.isGap u = true := fun hu ↦ by
      rw [List.takeWhile_cons_of_pos hu] at hgap
      exact List.cons_ne_nil _ _ hgap
    rw [afterGap, if_neg hu]
    · rintro tail rfl rfl
      exact absurd hcontinuation (by decide : (3 : Nat) ≠ 0)
    · rintro tail rfl rfl
      exact absurd hcontinuation (by decide : (2 : Nat) ≠ 0)

end Parse

namespace Layout

variable {heed : Bool} {g g' : Gap} {e : Expected} {columns : List Nat} {inFormat : Bool}

/-- The line structure says what may come next. -/
theorem newline_of_read (h : read e columns inFormat t = .newline) : e.newline = true := by
  grind [read]

theorem indent_of_read {column : Nat} (h : read e columns inFormat t = .indent column) :
    e.indent = true := by
  grind [read]

/-- The units with which a string literal can begin. -/
def openers : Text := ['f', 'F', 'r', 'R', 'b', 'B', 'u', 'U', '"', '\'', 96]

theorem isCode_of_mem_openers {u : CodeUnit} (hu : u ∈ openers) :
    u.isCode = true ∧ u ≠ '#' ∧ u ≠ 92 := by
  have hall : openers.all (fun u ↦ u.isCode && u != '#' && u != 92) = true := by decide
  simpa [and_assoc] using List.all_eq_true.mp hall u hu

theorem exists_of_startsString (h : startsString t = true) :
    ∃ u rest, t = u :: rest ∧ u ∈ openers := by
  cases t with
  | nil => exact Bool.noConfusion h
  | cons u rest =>
    refine ⟨u, rest, rfl, ?_⟩
    have hopens : isStringPrefix u = true ∨ isQuote u = true := by
      by_cases hprefix : isStringPrefix u = true
      · exact .inl hprefix
      · rw [startsString, List.dropWhile_cons_of_neg hprefix] at h
        exact .inr h
    simp only [isStringPrefix, isQuote, Bool.or_eq_true, beq_iff_eq] at hopens
    simp only [openers, List.mem_cons, List.not_mem_nil, or_false]
    simpa only [or_assoc] using hopens

/-- Behind the letters in front of a string literal there is its quote. -/
theorem length_takeWhile_lt (h : startsString t = true) :
    (t.takeWhile isStringPrefix).length < t.length := by
  have happend := congrArg List.length
    (List.takeWhile_append_dropWhile (p := isStringPrefix) (l := t))
  rw [List.length_append] at happend
  have hquote : 0 < (t.dropWhile isStringPrefix).length := by
    refine List.length_pos_iff.mpr fun hnil ↦ ?_
    rw [startsString, hnil] at h
    exact Bool.noConfusion h
  omega

/-- A string literal is a token, and it begins with code. -/
theorem startsToken_of_startsString (h : startsString t = true) :
    StartsToken t ∧ t.head?.any CodeUnit.isCode = true := by
  obtain ⟨u, rest, rfl, hu⟩ := exists_of_startsString h
  obtain ⟨hcode, hcomment, hbackslash⟩ := isCode_of_mem_openers hu
  have hgap : ¬ Cursor.isGap u = true := Bool.eq_false_iff.mp (CodeUnit.isCode_iff.mp hcode).2.1
  refine ⟨⟨List.cons_ne_nil _ _, List.takeWhile_cons_of_neg hgap, ?_, ?_⟩, hcode⟩
  · exact beq_eq_false_iff_ne.mpr fun heq ↦ hcomment (Option.some.inj heq)
  · unfold Cursor.continuationLength
    split <;> grind

/-- The column of a comment is not forgotten. -/
theorem commentColumn_of_skip (h : skip heed g t = some (g', rest))
    (hnone : g'.commentColumn = none) : g.commentColumn = none := by
  fun_induction skip heed g t <;> grind

/-- If no comment was passed, then only blanks and continuations were. -/
theorem afterGap_of_skip (h : skip heed g t = some (g', rest)) (hcode : g.inComment = false)
    (hnone : g'.commentColumn = none) : Parse.afterGap t = Parse.afterGap rest ∨ rest = [] := by
  fun_induction skip heed g t
  case case12 =>
    -- the comment that starts here is remembered
    exact absurd (commentColumn_of_skip h hnone) (Option.some_ne_none _)
  all_goals grind [Parse.afterGap, Cursor.isGap]

/-- What the line structure takes for the head of a string literal is one. -/
theorem startsString_afterGap (h : read e columns inFormat t = .string) :
    startsString (Parse.afterGap t) = true := by
  unfold read at h
  split at h
  · exact nomatch h
  · next g rest hskip =>
    dsimp only at h
    split_ifs at h with _ _ _ hstring
    rw [Bool.and_eq_true, Bool.and_eq_true, Option.isNone_iff_eq_none] at hstring
    obtain ⟨⟨hnone, -⟩, hstarts⟩ := hstring
    obtain hgap | rfl := afterGap_of_skip hskip rfl hnone
    · rwa [hgap, Parse.afterGap_of_startsToken (startsToken_of_startsString hstarts).1]
    · exact Bool.noConfusion hstarts

end Layout

/-! ### Quotes -/

namespace Delimiter

variable {d : Delimiter} {letters t : Text}

theorem width_pos (d : Delimiter) : 0 < d.width := by
  rw [width]
  split_ifs <;> omega

theorem width_ofPrefix_le (letters : Text) (h : t ≠ []) :
    (ofPrefix letters t).width ≤ t.length := by
  have hpos := List.length_pos_iff.mpr h
  rw [width]
  split_ifs with htriple
  · dsimp only [ofPrefix] at htriple
    split at htriple
    · simp
    · exact Bool.noConfusion htriple
  · exact hpos

theorem width_le_of_closes (h : d.closes t = true) : d.width ≤ t.length := by
  have hlength := (List.isPrefixOf_iff_prefix.mp h).length_le
  rwa [List.length_replicate] at hlength

theorem isCode_of_closes (h : d.closes t = true) (hquote : d.quote.isCode = true) :
    Text.isCode (t.take d.width) = true := by
  have hprefix := List.isPrefixOf_iff_prefix.mp h
  rw [List.prefix_iff_eq_take, List.length_replicate] at hprefix
  rw [← hprefix, Text.isCode, List.all_replicate, hquote, ite_self]

/-- The quotes of a literal are code. -/
theorem isCode_quote (h : Layout.startsString t = true) :
    (ofPrefix letters (t.dropWhile Layout.isStringPrefix)).quote.isCode = true := by
  rw [Layout.startsString] at h
  cases hquote : t.dropWhile Layout.isStringPrefix with
  | nil =>
    rw [hquote] at h
    exact Bool.noConfusion h
  | cons u rest =>
    rw [hquote] at h
    have hmem : u ∈ Layout.openers := by
      simp only [List.head?_cons, Option.any_some, Layout.isQuote, Bool.or_eq_true, beq_iff_eq] at h
      simp only [Layout.openers, List.mem_cons, List.not_mem_nil, or_false]
      tauto
    exact (Layout.isCode_of_mem_openers hmem).1

end Delimiter

/-- The closing quotes of a literal are in the text. -/
theorem StringLiteral.closes_of_nextPart {d : Delimiter} {counted : Bool}
    (h : nextPart d counted t = .close) : d.closes t = true := by
  fun_cases nextPart d counted t <;> grind [nextPart]

end Python

end Declutter
