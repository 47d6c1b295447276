import Declutter.Text.Basic
/-!
The lexemes of a Python text, as far as comments and string literals need them. Splitting works on
any text: the lexemes, one after the other, are the text again, whether it is valid Python or not.
-/

set_option autoImplicit false
set_option relaxedAutoImplicit false

namespace Declutter

/-- The kinds of lexemes. A `symbol` is a single unit: an operator, a bracket, or a stray
backslash. -/
inductive LexemeKind where
  | comment | literal | word | newline | blank | continuation
  | symbol (unit : CodeUnit)
deriving DecidableEq, Repr

/-- A piece of text with its kind. -/
structure Lexeme where
  kind : LexemeKind
  text : Text
deriving DecidableEq, Repr

namespace Lexeme

/-- A unit of a word: an ASCII letter, digit or underscore, or any unit beyond ASCII. -/
def isWordUnit (u : CodeUnit) : Bool := u.isAsciiLetter || u.isDigit || u == '_' || 0x80 ≤ u

/-- An ASCII blank that does not end a line. -/
def isInlineBlank (u : CodeUnit) : Bool := (9 ≤ u && u ≤ 13 && u != '\n') || u == ' '

def isQuote (u : CodeUnit) : Bool := u == '"' || u == '\''

/-- The words that make a literal of the quote after them, in any case of the letters. -/
def literalPrefixes : List Text := ["r", "u", "b", "f", "br", "rb", "fr", "rf"]

def isLiteralPrefix (word : Text) : Bool := literalPrefixes.contains word.toLowerAscii

/-- The rest of a text after the end of a literal in single quotes whose opening quote is behind. An
escape is a backslash and the unit after it, or a backslash (92) and a line ending (13, 10). An
unterminated literal ends before the line feed. -/
def afterSingle (quote : CodeUnit) : Text → Text
  | [] => []
  | 92 :: 13 :: 10 :: rest => afterSingle quote rest
  | 92 :: _ :: rest => afterSingle quote rest
  | u :: rest =>
    if u == quote then rest else if u == '\n' then u :: rest else afterSingle quote rest

/-- The rest of a text after the end of a literal in triple quotes whose opening quotes are
behind. -/
def afterTriple (quote : CodeUnit) : Text → Text
  | [] => []
  | 92 :: 13 :: 10 :: rest => afterTriple quote rest
  | 92 :: _ :: rest => afterTriple quote rest
  | u :: rest =>
    if [quote, quote, quote].isPrefixOf (u :: rest) then rest.drop 2 else afterTriple quote rest

/-- The rest of a text after the literal that starts with the quote at its head. -/
def afterLiteral : Text → Text
  | [] => []
  | quote :: rest =>
    if [quote, quote].isPrefixOf rest then afterTriple quote (rest.drop 2)
    else afterSingle quote rest

/-- The rest of a text after the comment at its head: the comment ends before its line ending. -/
def afterComment (t : Text) : Text :=
  let line := t.takeWhile (!·.isNewline)
  match t.dropWhile (!·.isNewline) with
  | [] => []
  | ending => if line.getLast? == some 13 then 13 :: ending else ending

/-- The lexeme of the given kind that ends where `rest` begins. -/
def cut (kind : LexemeKind) (t rest : Text) : Lexeme × Text :=
  (⟨kind, t.take (t.length - rest.length)⟩, rest)

/-- The first lexeme of the text `u :: rest`, and what comes after it. -/
def next (u : CodeUnit) (rest : Text) : Lexeme × Text :=
  let t := u :: rest
  if u == '#' then cut .comment t (afterComment rest)
  else if u == '\\' && [10].isPrefixOf rest then cut .continuation t (rest.drop 1)
  else if u == '\\' && [13, 10].isPrefixOf rest then cut .continuation t (rest.drop 2)
  else if u == '\n' then cut .newline t rest
  else if isQuote u then cut .literal t (afterLiteral t)
  else if isWordUnit u then
    let word := u :: rest.takeWhile isWordUnit
    let after := rest.dropWhile isWordUnit
    if after.head?.any isQuote && isLiteralPrefix word then cut .literal t (afterLiteral after)
    else (⟨.word, word⟩, after)
  else if isInlineBlank u then cut .blank t rest
  else cut (.symbol u) t rest

theorem length_afterSingle_le (quote : CodeUnit) (t : Text) :
    (afterSingle quote t).length ≤ t.length := by
  fun_induction afterSingle quote t <;> simp_all <;> omega

theorem length_afterTriple_le (quote : CodeUnit) (t : Text) :
    (afterTriple quote t).length ≤ t.length := by
  fun_induction afterTriple quote t <;> simp_all <;> omega

theorem length_afterLiteral_lt (u : CodeUnit) (t : Text) :
    (afterLiteral (u :: t)).length < (u :: t).length := by
  simp only [afterLiteral, List.length_cons]
  split
  · have h := length_afterTriple_le u (t.drop 2)
    simp only [List.length_drop] at h
    omega
  · have h := length_afterSingle_le u t
    omega

theorem length_dropWhile_le (p : CodeUnit → Bool) (t : Text) : (t.dropWhile p).length ≤ t.length :=
  (List.dropWhile_suffix p).length_le

theorem length_afterComment_le (t : Text) : (afterComment t).length ≤ t.length := by
  have hl : (t.takeWhile (!·.isNewline)).length + (t.dropWhile (!·.isNewline)).length =
      t.length := by
    rw [← List.length_append, List.takeWhile_append_dropWhile]
  unfold afterComment
  generalize t.takeWhile (!·.isNewline) = line at hl ⊢
  generalize t.dropWhile (!·.isNewline) = ending at hl ⊢
  cases ending with
  | nil => simp
  | cons v ending =>
    cases line with
    | nil => simp at hl ⊢; omega
    | cons w line =>
      simp only [List.length_cons] at hl
      dsimp only
      split <;> simp only [List.length_cons] <;> omega

/-- What comes after a literal whose quote follows a word is shorter than what comes after the
word's first unit. -/
theorem length_afterLiteral_dropWhile_lt {rest : Text}
    (h : (rest.dropWhile isWordUnit).head?.any isQuote = true) :
    (afterLiteral (rest.dropWhile isWordUnit)).length < rest.length := by
  have hword := length_dropWhile_le isWordUnit rest
  cases hafter : rest.dropWhile isWordUnit with
  | nil => rw [hafter] at h; cases h
  | cons v after =>
    rw [hafter] at hword
    exact Nat.lt_of_lt_of_le (length_afterLiteral_lt v after) hword

/-- A lexeme takes at least one unit. -/
theorem length_next_lt (u : CodeUnit) (rest : Text) :
    (next u rest).2.length < (u :: rest).length := by
  have hdrop (n : Nat) : (rest.drop n).length < (u :: rest).length :=
    Nat.lt_succ_of_le (List.drop_suffix n rest).length_le
  have hword : (rest.dropWhile isWordUnit).length < (u :: rest).length :=
    Nat.lt_succ_of_le (length_dropWhile_le isWordUnit rest)
  unfold next
  dsimp only [cut]
  split
  · exact Nat.lt_succ_of_le (length_afterComment_le rest)
  split
  · exact hdrop 1
  split
  · exact hdrop 2
  split
  · exact hdrop 0
  split
  · exact length_afterLiteral_lt u rest
  split
  · -- a word, or the prefix of a literal
    split
    · next hprefix =>
      have hquote := (Bool.and_eq_true _ _ ▸ hprefix).1
      exact Nat.lt_succ_of_lt (length_afterLiteral_dropWhile_lt hquote)
    · exact hword
  split
  · exact hdrop 0
  · exact hdrop 0

/-- The lexemes of a text, in order. -/
def split : Text → List Lexeme
  | [] => []
  | u :: rest => (next u rest).1 :: split (next u rest).2
termination_by t => t.length
decreasing_by exact length_next_lt u rest

end Lexeme

end Declutter
