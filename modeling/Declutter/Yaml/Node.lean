import Declutter.Yaml.BlockScalar
import Declutter.Yaml.Tag
/-!
Reading nodes: scalars, and collections in block and in flow style. Where a node may stand, and what
may follow on the same line, depends on the indentation of the node around it.
-/

set_option autoImplicit false
set_option relaxedAutoImplicit false

namespace Declutter.Yaml

/-! ### State -/

/-- A place, and what has been named so far in the document. -/
structure Reading where
  cursor : Cursor
  /-- The values of anchored nodes, the last first. A collection has no items until it is
  complete. -/
  anchors : List (Text × Value) := []
  handles : List (Text × Text) := []

abbrev Read := StateT Reading (Except Fault)

namespace Read

def cursor : Read Cursor := return (← get).cursor

def move (c : Cursor) : Read Unit := modify fun s ↦ { s with cursor := c }

def skip (n : Nat) : Read Unit := do move ((← cursor).advance n)

/-- Passes blanks, comments and line breaks, and counts the breaks. -/
def separate : Read Nat := do
  let (c, breaks) := (← cursor).separate true
  move c
  return breaks

/-- Gives the value of the anchored node from now on. -/
def register (anchor : Option Text) (v : Value) : Read Unit :=
  match anchor with
  | some name => modify fun s ↦ { s with anchors := (name, v) :: s.anchors }
  | none => return ()

/-- The result of a reader that may find nothing at the place. -/
def attempt {α : Type} (r : Cursor → Except Fault (Option (α × Cursor))) : Read (Option α) := do
  match ← (r (← cursor) : Except Fault _) with
  | some (a, c) =>
    move c
    return some a
  | none => return none

end Read

open Read

/-- Where a node stands. -/
inductive Context where
  | flowIn | flowOut | blockIn | blockOut
deriving DecidableEq, Repr

def Context.isBlock : Context → Bool
  | blockIn | blockOut => true
  | flowIn | flowOut => false

/-- What is known of a node before it is read. -/
structure Request where
  /-- The indentation of the node around it. -/
  parent : Int
  context : Context
  /-- Whether the node may start on a later line. -/
  seek : Bool
  /-- Whether a block collection may start on this line. -/
  compact : Bool

/-- A node that has been read, or the missing node, which is null. -/
structure Node where
  /-- Whether there is anything of a node at the place: content, a tag or an anchor. -/
  present : Bool
  value : Value
  kind : Option Kind := none
  /-- Whether the node is the sign of a merge. -/
  isMerge : Bool := false

/-! ### Mappings -/

/-- The entries of a mapping so far. -/
structure Entries where
  entries : List (Text × Value) := []
  /-- The keys that come from a merge only, which an entry of the mapping's own replaces. -/
  merged : List Text := []

namespace Entries

def has (m : Entries) (key : Text) : Bool := m.entries.any (·.1 == key)

/-- The entries with a new value of a key, at the key's first place. -/
def put (m : Entries) (key : Text) (v : Value) : List (Text × Value) :=
  if m.has key then m.entries.map fun e ↦ if e.1 == key then (key, v) else e
  else m.entries ++ [(key, v)]

/-- Takes over the entries of a compound value whose keys are new. -/
def mergeOne (m : Entries) (source : Value) : Except Fault Entries :=
  match source.entries? with
  | none => .error .badMerge
  | some entries =>
    .ok (entries.foldl (fun m (k, v) ↦
      if m.has k then m else { entries := m.put k v, merged := k :: m.merged }) m)

/-- Takes over the entries of a compound value, or of each in a list of them. -/
def merge (m : Entries) : Value → Except Fault Entries
  | .list sources => sources.foldlM mergeOne m
  | source => mergeOne m source

/-- Adds an entry. -/
def store (m : Entries) (isMerge : Bool) (key value : Value) : Except Fault Entries :=
  match key.keyText? with
  | none => .error .nestedKey
  | some k =>
    if isMerge then m.merge value
    else if m.has k && !m.merged.contains k then .error (.duplicateKey k)
    else .ok { entries := m.put k value, merged := m.merged.filter (· != k) }

end Entries

/-! ### Flow collections -/

/-- A flow collection so far. -/
structure FlowItems where
  items : List Value := []
  entries : Entries := {}

/-- Adds what stands between two commas; `value` is there if a colon is. -/
def FlowItems.add (isMapping : Bool) (r : FlowItems) (key : Node) (value : Option Value) :
    Except Fault FlowItems := do
  if isMapping then
    return { r with entries := ← r.entries.store key.isMerge key.value (value.getD .null) }
  else match value with
    | some v =>
      let pair ← ({} : Entries).store key.isMerge key.value v
      return { r with items := r.items ++ [.map pair.entries] }
    | none => return { r with items := r.items ++ [key.value] }

/-- The items of a flow collection up to the unit `stop`; `expectItem` says whether an item may come
next. -/
def flowItems (inner : Request → Read Node) (indent : Int) (isMapping : Bool) (stop : CodeUnit) :
    (bound : Nat) → (expectItem : Bool) → FlowItems → Read FlowItems
  | 0, _, _ => throw (.unfinished "flow collection")
  | bound + 1, expectItem, r => do
    let item : Request := ⟨indent, .flowIn, false, true⟩
    let _ ← separate
    let c ← cursor
    match c.peek with
    | none => throw (.unfinished "flow collection")
    | some u =>
      if u == stop then
        skip 1
        return r
      else if !expectItem then throw .commaExpected
      else if u == ',' then throw .contentExpected
      else
        let explicit := u == '?' && c.nextIs isSpace
        if explicit then
          skip 1
          let _ ← separate
        let line := (← cursor).line
        let key ← inner item
        let _ ← separate
        let c ← cursor
        let r ←
          if (explicit || c.line == line) && c.peek == some 58 then do
            skip 1
            let _ ← separate
            let v ← inner item
            r.add isMapping key (some v.value)
          else r.add isMapping key (if explicit then some .null else none)
        let _ ← separate
        let c ← cursor
        if c.peek == some 44 then
          skip 1
          flowItems inner indent isMapping stop bound true r
        else flowItems inner indent isMapping stop bound false r

/-- The flow collection at the place, if there is one. -/
def flowCollection (inner : Request → Read Node) (indent : Int) (anchor : Option Text) :
    Read (Option (Kind × Value)) := do
  let c ← cursor
  let bound := c.rest.length + 1
  match c.peek with
  | some 91 =>
    register anchor (.list [])
    skip 1
    let r ← flowItems inner indent false 93 bound true {}
    return some (.sequence, .list r.items)
  | some 123 =>
    register anchor (.map [])
    skip 1
    let r ← flowItems inner indent true 125 bound true {}
    return some (.mapping, .map r.entries.entries)
  | _ => return none

/-! ### Block collections -/

/-- What comes after an item of a block collection indented by `indent`: whether the collection goes
on. -/
def goesOn (what : Text) (indent : Nat) (line : Nat) : Read Bool := do
  let c ← cursor
  if (c.line == line || indent < c.indent) && c.peek.isSome then throw (.badIndentation what)
  else return indent ≤ c.indent

/-- The items of a block sequence from a place on; nothing if there is no hyphen. -/
def blockItems (inner : Request → Read Node) (indent : Nat) :
    (bound : Nat) → Option (List Value) → Read (Option (List Value))
  | 0, items => return items
  | bound + 1, items => do
    let c ← cursor
    if c.peek.isNone then return items
    else if c.tabbed then throw .tabIndentation
    else if c.peek != some 45 || !c.nextIs isSpace then return items
    else
      let before := items.getD []
      skip 1
      let breaks ← separate
      let c ← cursor
      if breaks ≠ 0 ∧ c.indent ≤ indent then
        blockItems inner indent bound (some (before ++ [.null]))
      else
        let item ← inner ⟨indent, .blockIn, false, true⟩
        let items := some (before ++ [item.value])
        let _ ← separate
        if ← goesOn "sequence" indent c.line then blockItems inner indent bound items
        else return items

/-- The block sequence at the place, if there is one. -/
def blockSequence (inner : Request → Read Node) (anchor : Option Text) :
    Read (Option (List Value)) := do
  let c ← cursor
  if c.tabbed then return none
  register anchor (.list [])
  blockItems inner c.column (c.rest.length + 1) none

/-- A block mapping so far. -/
structure BlockEntries where
  entries : Entries := {}
  /-- A key after a question mark whose value has not come yet. -/
  waiting : Option Value := none

/-- Adds the key that is waiting, with null for its value. -/
def BlockEntries.settle (r : BlockEntries) : Except Fault BlockEntries := do
  match r.waiting with
  | some key => return { entries := ← r.entries.store false key .null }
  | none => return r

/-- What an attempt to read a block mapping has found. -/
inductive BlockMapping where
  /-- Nothing; `looked` says whether a key was looked for. -/
  | absent (looked : Bool)
  /-- A node that is not the key of a mapping. -/
  | alone (node : Node)
  | found (entries : List (Text × Value))

/-- What the next entry of a block mapping starts with. -/
inductive EntryStart where
  /-- A question mark, or the colon after the key that is waiting. -/
  | marked (isKey : Bool)
  /-- A key and a colon. -/
  | key (node : Node)
  | other (outcome : BlockMapping)

/-- Reads the start of an entry; `first` says whether it is the first one. -/
def entryStart (inner : Request → Read Node) (flowIndent : Int) (first : Bool) (r : BlockEntries) :
    Read EntryStart := do
  let c ← cursor
  if c.holds (fun (u : CodeUnit) ↦ u == '?' || u == ':') && c.nextIs isSpace then
    let isKey := c.peek == some 63
    if !isKey && r.waiting.isNone then throw .keyExpected
    skip 1
    return .marked isKey
  else
    let node ← inner ⟨flowIndent, .flowOut, false, true⟩
    if !node.present then return .other (.absent true)
    let after ← cursor
    if after.line ≠ c.line then
      if first then return .other (.alone node) else throw .multilineKey
    let after := after.skipWhile CodeUnit.isPadding
    move after
    if after.peek != some 58 then
      if first then return .other (.alone node) else throw .colonExpected
    skip 1
    if !(← cursor).holds isSpace then throw .blankExpected
    return .key node

/-- The entries of a block mapping from a place on. -/
def blockEntries (inner : Request → Read Node) (indent : Nat) (flowIndent : Int) :
    (bound : Nat) → (first : Bool) → BlockEntries → Read BlockMapping
  | 0, _, r => return .found r.entries.entries
  | bound + 1, first, r => do
    let c ← cursor
    let finish (r : BlockEntries) : Read BlockMapping := do
      let r ← r.settle
      return .found r.entries.entries
    let next (r : BlockEntries) : Read BlockMapping := do
      let _ ← separate
      if ← goesOn "mapping" indent c.line then blockEntries inner indent flowIndent bound false r
      else finish r
    if c.peek.isNone then
      if first then return .absent false else finish r
    else if r.waiting.isNone && c.tabbed then throw .tabIndentation
    else
      match ← entryStart inner flowIndent first r with
      | .marked true => do
        let r ← r.settle
        let key ← inner ⟨indent, .blockOut, true, true⟩
        next { r with waiting := some key.value }
      | .marked false => do
        let value ← inner ⟨indent, .blockOut, true, true⟩
        next { entries := ← r.entries.store false (r.waiting.getD .null) value.value }
      | .key key => do
        let r ← r.settle
        let value ← inner ⟨indent, .blockOut, true, false⟩
        next { entries := ← r.entries.store key.isMerge key.value value.value }
      | .other (.absent looked) => if first then return .absent looked else finish r
      | .other other => return other

/-- The block mapping at the place, if there is one. -/
def blockMapping (inner : Request → Read Node) (flowIndent : Int) (anchor : Option Text) :
    Read BlockMapping := do
  let c ← cursor
  if c.tabbed then return .absent false
  register anchor (.map [])
  blockEntries inner c.column flowIndent (c.rest.length + 1) true {}

/-! ### Nodes -/

/-- What stands before the content of a node, and where the content may stand. -/
structure Properties where
  tag : Option Text := none
  anchor : Option Text := none
  /-- How the line of the content is indented compared with the node around it. -/
  depth : Ordering := .gt
  /-- Whether a line break was passed. -/
  fresh : Bool := false
  /-- Whether a block collection may follow the properties. -/
  collections : Bool

/-- Passes what separates a node from what is before it, and notes how its line is indented. -/
def seekContent (parent : Int) (p : Properties) : Read (Bool × Properties) := do
  if (← separate) = 0 then return (false, p)
  else return (true, { p with depth := compare ((← cursor).indent : Int) parent, fresh := true })

/-- The name of the anchor, or of the alias, at a place after its mark. -/
def anchorName (what : Text) (c : Cursor) : Except Fault (Text × Cursor) :=
  let name := c.span fun u ↦ !isSpace u && !isFlowMark u
  if name.isEmpty then .error (.unnamed what) else .ok (name, c.advance name.length)

/-- The anchor at the place, if there is one. -/
def anchor? (c : Cursor) : Except Fault (Option (Text × Cursor)) :=
  if c.peek == some 38 then (anchorName "anchor" (c.advance 1)).map some else .ok none

/-- The tag and the anchor of a node, in any order. -/
def properties (q : Request) : (bound : Nat) → Properties → Read Properties
  | 0, p => return p
  | bound + 1, p => do
    let onward (p : Properties) : Read Properties := do
      let (moved, p) ← seekContent q.parent p
      properties q bound { p with collections := moved && q.context.isBlock }
    let c ← cursor
    if c.peek == some 33 && p.tag.isSome then throw (.repeatedProperty "a tag")
    match ← attempt (Tag.read? (← get).handles) with
    | some tag => onward { p with tag := some tag }
    | none =>
      if c.peek == some 38 && p.anchor.isSome then throw (.repeatedProperty "an anchor")
      match ← attempt anchor? with
      | some name => onward { p with anchor := some name }
      | none => return p

/-- The value of the alias at the place, if there is one, and what separates it from what
follows. -/
def aliased? : Read (Option Value) := do
  let c ← cursor
  if c.peek == some 42 then
    let (name, c) ← (anchorName "alias" (c.advance 1) : Except Fault _)
    match (← get).anchors.find? (·.1 == name) with
    | some (_, v) =>
      move c
      let _ ← separate
      return some v
    | none => throw (.unknownAlias name)
  else return none

/-- The content of a node with its properties, of which some content does away with. -/
structure Content where
  present : Bool
  value : Value := .null
  kind : Option Kind := none
  tag : Option Text
  anchor : Option Text

/-- A scalar or an alias at the place. -/
def scalarContent (q : Request) (flowIndent : Int) (tag anchor : Option Text) : Read Content := do
  let scalar (t : Text) (tag : Option Text) : Content := ⟨true, .text t, some .scalar, tag, anchor⟩
  let block ← if q.context.isBlock then attempt (block? flowIndent) else pure none
  match block with
  | some t => return scalar t tag
  | none =>
    match ← attempt quoted? with
    | some t => return scalar t tag
    | none =>
      match ← aliased? with
      | some v =>
        if tag.isSome || anchor.isSome then throw .aliasWithProperties
        return ⟨true, v, none, tag, anchor⟩
      | none =>
        match ← attempt (plain? flowIndent (q.context == .flowIn)) with
        | some t => return scalar t (tag.or (some Tag.implicit))
        | none => return ⟨false, .null, none, tag, anchor⟩

/-- The content of a node after its properties. -/
def content (inner : Request → Read Node) (q : Request) (p : Properties) : Read Content := do
  let flowIndent := if q.context.isBlock then q.parent + 1 else q.parent
  let missing : Content := ⟨false, .null, none, p.tag, p.anchor⟩
  let sequence (items : List Value) : Content :=
    ⟨true, .list items, some .sequence, p.tag, p.anchor⟩
  let flow (tag anchor : Option Text) : Read Content := do
    match ← flowCollection inner flowIndent anchor with
    | some (kind, v) => return ⟨true, v, some kind, tag, anchor⟩
    | none => scalarContent q flowIndent tag anchor
  let collections := p.collections && (p.fresh || q.compact)
  if p.depth == .gt then
    if collections then
      match ← blockSequence inner p.anchor with
      | some items => return sequence items
      | none =>
        match ← blockMapping inner flowIndent p.anchor with
        | .found entries => return ⟨true, .map entries, some .mapping, p.tag, p.anchor⟩
        | .alone node => return ⟨true, node.value, node.kind, p.tag, p.anchor⟩
        | .absent true => flow none none
        | .absent false => flow p.tag p.anchor
    else flow p.tag p.anchor
  else if p.depth == .eq && q.context == .blockOut && collections then
    match ← blockSequence inner p.anchor with
    | some items => return sequence items
    | none => return missing
  else return missing

/-- What a node whose type is left to its text stands for. Only a scalar can be one. -/
def resolveImplicit (kind : Option Kind) (v : Value) : Except Fault (Value × Bool) :=
  match v, kind with
  | .null, _ => .ok (.null, false)
  | .text t, some .scalar =>
    if t = Scalar.mergeSign then .ok (v, true) else .ok ((Scalar.resolve? t).getD v, false)
  | .number _, _ => .error (.unresolvedTag Tag.implicit)
  | _, some .scalar => .ok (v, false)
  | _, _ => .error (.unresolvedTag Tag.implicit)

/-- What content stands for by its tag, and whether that is the sign of a merge. -/
def Content.resolve (r : Content) : Except Fault (Value × Bool) :=
  match r.tag with
  | none => .ok (r.value, false)
  | some tag =>
    if tag = Tag.implicit then resolveImplicit r.kind r.value
    else if tag = Tag.literal then .ok (r.value, false)
    else (Tag.apply tag r.kind r.value).map fun v ↦ (v, tag = Tag.merge)

/-- One node, where `inner` reads the nodes in it. -/
def node (inner : Request → Read Node) (q : Request) : Read Node := do
  let start : Properties := { collections := q.context.isBlock }
  let p ← if q.seek then do pure (← seekContent q.parent start).2 else pure start
  let p ← if p.depth == .gt then do properties q ((← cursor).rest.length + 1) p else pure p
  let r ← content inner q p
  let (v, isMerge) ← (r.resolve : Except Fault _)
  if r.present || p.depth == .gt || r.tag != some Tag.literal then register r.anchor v
  return { present := r.present || r.tag.isSome || r.anchor.isSome, value := v, kind :=
    r.kind, isMerge }

/-- A node with others nested in it at most `depth` deep. -/
def nodeWithin : (depth : Nat) → Request → Read Node
  | 0, _ => throw .tooDeep
  | depth + 1, q => node (nodeWithin depth) q

end Declutter.Yaml
