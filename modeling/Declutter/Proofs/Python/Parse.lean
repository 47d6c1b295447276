import Declutter.Proofs.Python.Compound
import Declutter.Proofs.Python.LaidOut
import Declutter.Proofs.Unchanged
/-!
The tree of a text. The rules of the grammar read one another, so what holds of each rule if it
holds of the readers for the symbols in it, holds of all readers however deep symbols are nested
(`Grammar.gives_reader`). So every text has a concrete syntax tree over it (`isTreeOf_parse`) whose
calls are spelt with parentheses (`isSpelt_parse`), unless something is wrong with the text.

The statement tree of a text is therefore well-formed (`isWellFormed_of_readTree`), which makes it
fresh and ordered, and its calls are spelt (`isSpelt_of_readTree`). Whether its statements are laid
out as well is a question of the text, and all that is left to ask (`isRegular_iff_isLaidOut`):
behind a backslash the line of a compound statement goes on. Where no line does, they are
(`isLaidOut_of_readTree`), so that the tree is regular (`isRegular_of_readTree`).
-/

set_option autoImplicit false
set_option relaxedAutoImplicit false

namespace Declutter.Python

/-! ### The grammar as a whole -/

namespace Grammar

open Parse

variable [Source]

/-- A rule reads what a reader has to read if the readers for the symbols in it do. -/
theorem gives_rule {read : Reader} (hread : ∀ s c, (read s).Gives c (Node.IsReadAs s c))
    (s : Symbol) (c : Cursor) : (rule read s).Gives c (Node.IsReadAs s c) := by
  have hphrase {p : Parse Node} (hp : p.Gives c fun n c' ↦ n.IsRead c c') :
      p.Gives c (Node.IsReadAs s c) :=
    hp.imp fun _ _ _ h ↦ ⟨h.2.1, h.2.2.1, .inr ⟨h.1, h.2.2.2⟩⟩
  cases s with
  | expression f => exact hphrase (gives_expressionRule hread f)
  | operand f => exact hphrase (gives_operandRule hread f)
  | hole => exact hphrase (gives_holeRule hread)
  | type f => exact hphrase (gives_typeRule hread f)
  | casePattern f => exact hphrase (gives_casePatternRule hread f)
  | simplePattern f => exact hphrase (gives_simplePatternRule hread f)
  | compound =>
    exact (gives_compoundStatement hread).imp fun _ _ _ h ↦ ⟨h.1, h.2.1, .inl ⟨rfl, h.2.2⟩⟩

/-- Every reader reads what it has to, however deep symbols may be nested. -/
theorem gives_reader (depth : Nat) (s : Symbol) (c : Cursor) :
    (reader depth s).Gives c (Node.IsReadAs s c) := by
  induction depth generalizing s c with
  | zero => exact gives_fail.imp fun _ _ _ h ↦ h.elim
  | succ depth ih => exact gives_rule ih s c

theorem gives_fileItems (depth : Nat) (c : Cursor) :
    (fileItems (reader depth)).Gives c fun statements c' ↦
      Node.AreLaid c.lastEnd statements c'.lastEnd ∧
        Node.AreItems Node.IsStatement c.lastEnd statements c'.lastEnd ∧
        Source.Closes c'.lastEnd :=
  gives_blockItems _ (fun _ ↦ gives_statementLine (gives_reader depth)) c

end Grammar

/-! ### The tree of a text -/

/-- The cursor at the beginning of a text, behind a byte order mark. -/
def Cursor.atStart (source : Text) : Cursor where
  rest := (afterByteOrderMark source).1
  offset := (afterByteOrderMark source).2
  lastEnd := (afterByteOrderMark source).2

theorem Cursor.isPlaced_atStart [Source] : (Cursor.atStart Source.text).IsPlaced := by
  have hmark (t : Text) : (afterByteOrderMark t).1 = t.drop (afterByteOrderMark t).2 ∧
      (afterByteOrderMark t).2 ≤ t.length := by
    fun_cases afterByteOrderMark t with
    | case1 rest => exact ⟨rfl, Nat.le_add_left _ _⟩
    | case2 => exact ⟨rfl, Nat.zero_le _⟩
  exact ⟨(hmark _).1, (hmark _).2, .refl _⟩

/-- Code is not before the end of the blanks. -/
theorem Cursor.IsPlaced.le_of_isCodeAt [Source] {c : Cursor} {i : Nat} (h : c.IsPlaced)
    (hcode : Source.IsCodeAt i) (hle : c.offset ≤ i) :
    c.offset + (c.rest.takeWhile Cursor.isGap).length ≤ i := by
  by_contra hlt
  have hi : i - c.offset < (c.rest.takeWhile Cursor.isGap).length := by omega
  have hgap := List.mem_takeWhile_imp (List.getElem_mem hi)
  obtain ⟨u, hu, hisCode⟩ := Text.hasAt_eq_true.mp hcode
  have hrest : c.rest[i - c.offset]? = some u := by
    rw [h.rest, List.getElem?_drop, Nat.add_sub_cancel' hle]
    exact hu
  have heq := (List.takeWhile_prefix Cursor.isGap).getElem hi
  rw [(List.getElem?_eq_some_iff.mp hrest).2] at heq
  rw [heq, (CodeUnit.isCode_iff.mp hisCode).2.1] at hgap
  exact Bool.noConfusion hgap

/-- Statements that begin with code are laid behind the blanks. -/
theorem Node.AreLaid.skip_gap [Source] {c : Cursor} {nodes : List Node} {j : Nat}
    (h : AreLaid c.offset nodes j) (hc : c.IsPlaced) (hitems : ∀ n ∈ nodes, n.IsItem)
    (hj : j ≤ Source.text.length) :
    AreLaid (Source.text.length - (c.rest.dropWhile Cursor.isGap).length) nodes
      Source.text.length := by
  cases nodes with
  | nil => exact Nat.sub_le _ _
  | cons n rest =>
    refine AreLaid.mono ⟨fun hn ↦ ⟨?_, (h.1 hn).2⟩, h.2⟩ le_rfl hj
    have hfirst := hc.le_of_isCodeAt (hitems n List.mem_cons_self).code (h.1 hn).1
    have hlength := hc.length
    have hsplit := congrArg List.length
      (List.takeWhile_append_dropWhile (p := Cursor.isGap) (l := c.rest))
    rw [List.length_append] at hsplit
    omega

/-- The reading of all statements of a text. -/
def readItems (source : Text) : Except Nat (List Node × Cursor) :=
  (Grammar.fileItems (Grammar.reader (Grammar.depthBound source.length))).run
    (Cursor.atStart source)

/-- Where the blanks at the beginning of a text end. -/
def firstCode (source : Text) : Nat :=
  source.length - ((Cursor.atStart source).rest.dropWhile Cursor.isGap).length

/-- The tree of a text holds its statements, or the error that reading them ended with. -/
theorem parse_cases (source : Text) :
    (∃ items c, readItems source = .ok (items, c) ∧
      parse source = ⟨.module, none, ⟨firstCode source, source.length⟩, items⟩) ∨
    ∃ i, parse source = ⟨.module, none, ⟨firstCode source, source.length⟩,
      [⟨.error, none, ⟨i, source.length⟩, []⟩]⟩ := by
  unfold parse readItems firstCode Cursor.atStart
  obtain ⟨rest, offset⟩ := afterByteOrderMark source
  dsimp only
  cases (Grammar.fileItems (Grammar.reader (Grammar.depthBound source.length))).run
      ⟨rest, offset, offset, [], false⟩ with
  | ok r => exact .inl ⟨r.1, r.2, rfl, rfl⟩
  | error i => exact .inr ⟨i, rfl⟩

/-- The statements of a text with nothing wrong in it. -/
theorem exists_items_of_parse [Source] (h : (parse Source.text).problem? = none) :
    ∃ items,
      parse Source.text =
        ⟨.module, none, ⟨firstCode Source.text, Source.text.length⟩, items⟩ ∧
      Node.AreLaid (firstCode Source.text) items Source.text.length ∧
      (∀ n ∈ items, n.IsItem ∧ n.IsStatement) ∧
      items.IsChain fun a b ↦ Source.Spaced a.span.stop b.span.start := by
  have hc : (Cursor.atStart Source.text).IsPlaced := Cursor.isPlaced_atStart
  have hnone := ((Node.problem?_eq_none_iff_children _).mp h).2
  obtain ⟨items, c, hread, hparse⟩ | ⟨i, hparse⟩ := parse_cases Source.text
  · obtain ⟨hleads, hlaid, hitems, -⟩ := (Grammar.gives_fileItems _ _).of_run hread hc
    have hstop : c.lastEnd ≤ Source.text.length :=
      hleads.placed.lastEnd_le.trans hleads.placed.offset_le
    rw [hparse] at hnone
    obtain ⟨hitems, hspaced⟩ := hitems hnone
    exact ⟨items, hparse, hlaid.skip_gap hc (fun n hn ↦ (hitems n hn).1) hstop, hitems,
      hspaced.next⟩
  · rw [hparse] at hnone
    exact absurd (hnone _ (List.mem_singleton_self _)) (Option.some_ne_none _)

theorem isSound_parse [Source] (h : (parse Source.text).problem? = none) :
    (parse Source.text).IsSound := by
  obtain ⟨items, hparse, hlaid, -⟩ := exists_items_of_parse h
  rw [hparse]
  exact Node.isSound_mk hlaid rfl nofun nofun

theorem isTreeOf_parse_text [Source] (h : (parse Source.text).problem? = none) :
    (parse Source.text).IsTreeOf Source.text := by
  obtain ⟨items, hparse, -, hitems, -⟩ := exists_items_of_parse h
  refine ⟨?_, fun n hn ↦ (isSound_parse h h n hn).1, fun s hs ↦ ?_⟩
  · rw [hparse]
  · have hmem := Lowering.mem_children_of_mem_code hs
    rw [hparse] at hmem
    exact Source.beginsOnCode (hitems s hmem).1.lt (hitems s hmem).1.code

theorem isLaidOut_parse_text [Source] (h : (parse Source.text).problem? = none)
    (hunbroken : Source.text.isUnbroken = true) :
    (Tree.mk Source.text (Lowering.block Source.text (parse Source.text))).IsLaidOut := by
  obtain ⟨items, hparse, -, hitems, hspaced⟩ := exists_items_of_parse h
  have htree := isTreeOf_parse_text h
  have horderly : Lowering.IsOrderly (parse Source.text) :=
    ⟨⟨htree.length, htree.arranged, (Node.problem?_eq_none_iff _).mp h⟩,
      fun n hn ↦ (isSound_parse h h n hn).2.1⟩
  have hchildren : (parse Source.text).children = items := by rw [hparse]
  exact Lowering.isLaidOut_tree horderly (hchildren ▸ hitems) (hchildren ▸ hspaced) hunbroken

variable {source : Text}

/-- Unless something is wrong with the text, its tree is one over the text. -/
theorem isTreeOf_parse (h : (parse source).problem? = none) : (parse source).IsTreeOf source :=
  @isTreeOf_parse_text ⟨source⟩ h

/-- Unless something is wrong with the text, the calls in it are spelt with parentheses. -/
theorem isSpelt_parse (h : (parse source).problem? = none) :
    ∀ n ∈ (parse source).all, n.IsSpelt source := fun n hn ↦
  (@isSound_parse ⟨source⟩ h h n hn).2.2

/-! ### The statement tree of a text -/

namespace Lowering

variable {n m : Node}

/-- An expression is a call only if a node in it is one. -/
theorem exists_call_of_expression {span arguments : Span} {callee : Expression}
    (h : expression source n = .call span callee arguments) : ∃ m ∈ n.all, m.kind = .call := by
  induction n using Node.childInduct with
  | node n ih =>
    revert h
    fun_cases expression source n with
    | case1 label span function arguments =>
      exact fun _ ↦ ⟨_, Node.mem_all_self _, rfl⟩
    | case4 label span inner =>
      intro h
      obtain ⟨m, hm, hcall⟩ := ih inner List.mem_cons_self h
      exact ⟨m, Node.all_subset (Node.mem_all_of_mem_cons (by simp)) hm, hcall⟩
    | _ => nofun

theorem exists_call_of_soleExpression {span arguments : Span} {callee : Expression}
    (h : soleExpression source n = .call span callee arguments) : ∃ m ∈ n.all, m.kind = .call := by
  rw [soleExpression] at h
  split at h
  · next value hvalue =>
    have hmem : value ∈ n.children := mem_children_of_mem_code (hvalue ▸ List.mem_cons_self)
    obtain ⟨m, hm, hcall⟩ := exists_call_of_expression h
    exact ⟨m, Node.all_subset (n.inner_subset (Node.mem_inner n.mem_all_self hmem)) hm, hcall⟩
  · cases h

/-- The parenthesis of a call in a node is in its span, also after trimming. -/
theorem mem_read_of_isSpelt (h : IsSound source n) (hm : m ∈ n.all) (hcall : m.kind = .call)
    (hspelt : m.IsSpelt source) : CodeUnit.ofChar '(' ∈ (n.span.trimEnd source).read source := by
  obtain ⟨function, arguments, hchildren, hlt, hopen⟩ := hspelt hcall
  have hchild : arguments ∈ m.children := by simp [hchildren]
  obtain ⟨hstart, hstop⟩ :=
    Node.contains_of_mem_all h.arranged (n.inner_subset (Node.mem_inner hm hchild))
  obtain ⟨u, hu, hparen⟩ := Text.hasAt_eq_true.mp hopen
  obtain rfl : u = '(' := beq_iff_eq.mp hparen
  have hcode : ¬ source.hasAt CodeUnit.isBlank arguments.span.start = true := fun hblank ↦ by
    obtain ⟨v, hv, hblank⟩ := Text.hasAt_eq_true.mp hblank
    obtain rfl := Option.some.inj (hu.symm.trans hv)
    exact absurd hblank (by decide)
  obtain ⟨hlt', -, -⟩ := Span.trimEnd_stop h.length hstart (hlt.trans_le hstop) hcode
  refine List.mem_of_getElem? (i := arguments.span.start - n.span.start) ?_
  have hbegin : (n.span.trimEnd source).start = n.span.start := rfl
  rw [Span.read, Text.getElem?_slice, hbegin, Nat.add_sub_cancel' hstart, if_pos hlt']
  exact hu

theorem IsStatementOf.of_expression {span : Span} {value : Expression}
    (h : IsStatementOf source n (.expression span value)) :
    span = n.span.trimEnd source ∧ value = soleExpression source n := by
  cases h
  exact ⟨rfl, rfl⟩

/-- The statements inside the statement that is made of a sound node are spelt as the calls in the
node are. -/
theorem isSpelt_statement (h : IsSound source n) (hspelt : ∀ m ∈ n.all, m.IsSpelt source) :
    ∀ u ∈ (statement source n).all, u.IsSpelt source := by
  induction n using Node.induct with
  | node n ih =>
    have hmade : IsStatementOf source n (statement source n) := isStatementOf_statement n
    cases hs : statement source n with
    | expression span value =>
      rw [hs] at hmade
      rw [Statement.all_expression]
      refine List.forall_mem_singleton.mpr ?_
      obtain ⟨rfl, hvalue⟩ := hmade.of_expression
      cases value with
      | call =>
        obtain ⟨m, hm, hcall⟩ := exists_call_of_soleExpression hvalue.symm
        exact mem_read_of_isSpelt h hm hcall (hspelt m hm)
      | name | field | other => trivial
    | inert span type =>
      rw [Statement.all_inert]
      exact List.forall_mem_singleton.mpr trivial
    | placeholder span =>
      rw [hs] at hmade
      cases hmade
    | compound c =>
      rw [hs] at hmade
      refine Statement.forall_all_compound.mpr ⟨trivial, fun cl hcl s hs ↦ ?_⟩
      obtain ⟨m, hm, suite, hsuite, hbody⟩ := exists_suite hmade cl hcl
      rw [hbody, block_eq] at hs
      obtain ⟨x, hx, rfl⟩ := List.mem_map.mp hs
      have hinner : x ∈ n.inner :=
        Node.mem_inner (n.inner_subset (mem_inner_of_suite? hm hsuite))
          (mem_children_of_mem_code hx)
      exact ih x hinner (h.of_mem (n.inner_subset hinner)) fun m hm ↦
        hspelt m (Node.all_subset (n.inner_subset hinner) hm)

end Lowering

variable {tree : Tree}

/-- The statement tree of a text is well-formed. -/
theorem isWellFormed_of_readTree (h : readTree source = .ok tree) : tree.IsWellFormed := by
  obtain ⟨hcheck, rfl⟩ := readTree_eq_ok_iff.mp h
  have hproblem : (parse source).problem? = none := Option.map_eq_none_iff.mp hcheck
  exact Lowering.isWellFormed_tree (isTreeOf_parse hproblem) hproblem

/-- The calls in the statement tree of a text are spelt with parentheses. -/
theorem isSpelt_of_readTree (h : readTree source = .ok tree) : tree.IsSpelt := by
  obtain ⟨hcheck, rfl⟩ := readTree_eq_ok_iff.mp h
  have hproblem : (parse source).problem? = none := Option.map_eq_none_iff.mp hcheck
  have htree := isTreeOf_parse hproblem
  have hsound : Lowering.IsSound source (parse source) :=
    ⟨htree.length, htree.arranged, (Node.problem?_eq_none_iff _).mp hproblem⟩
  refine Block.forall_all.mpr fun s hs ↦ ?_
  rw [Lowering.block_eq] at hs
  obtain ⟨n, hn, rfl⟩ := List.mem_map.mp hs
  have hchild := Lowering.mem_children_of_mem_code hn
  exact Lowering.isSpelt_statement (hsound.child hchild) fun m hm ↦
    isSpelt_parse hproblem m (Node.all_subset ((parse source).inner_subset
      (Node.mem_inner (parse source).mem_all_self hchild)) hm)

/-- The tree of a text is as the grammar makes it exactly if its statements are laid out. -/
theorem isRegular_iff_isLaidOut (h : readTree source = .ok tree) :
    tree.IsRegular ↔ tree.IsLaidOut :=
  ⟨Tree.IsRegular.laidOut, fun hlaid ↦
    ⟨(isWellFormed_of_readTree h).isFresh, hlaid, isSpelt_of_readTree h⟩⟩

/-- Where no line goes on behind a backslash, the statement tree of a text is laid out. -/
theorem isLaidOut_of_readTree (h : readTree source = .ok tree)
    (hunbroken : source.isUnbroken = true) : tree.IsLaidOut := by
  obtain ⟨hcheck, rfl⟩ := readTree_eq_ok_iff.mp h
  exact @isLaidOut_parse_text ⟨source⟩ (Option.map_eq_none_iff.mp hcheck) hunbroken

/-- So the tree is as the grammar makes it. -/
theorem isRegular_of_readTree (h : readTree source = .ok tree)
    (hunbroken : source.isUnbroken = true) : tree.IsRegular :=
  (isRegular_iff_isLaidOut h).mpr (isLaidOut_of_readTree h hunbroken)

/-- Behind this `if` its line goes on with a backslash. -/
def continuedText : Text := "if a: f() \\\n\ng()\n"

example : check continuedText = none ∧ ¬ (Tree.mk continuedText
    (Lowering.block continuedText (parse continuedText))).IsLaidOut := by
  decide +kernel

end Declutter.Python
