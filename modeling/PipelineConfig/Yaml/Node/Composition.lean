import PipelineConfig.Yaml.Node
import PipelineConfig.Yaml.Token.Lexer

/-!
# From tokens to a document

`Document.ofTokens` reads the first document off the tokens of a text by recursive descent. Each
function takes the tokens of one construct from the front. Where the tokens do not complete a
construct there is a fault: all tokens are dropped, so that the constructs around it find nothing
more, and every place that still lacks a node gets the one that is `unread`.

An anchor is numbered by the count of the names used before it, so that giving a name a second
time does not add a number. Of two nodes with one number the later one is meant.
-/

namespace PipelineConfig.Yaml

/-- What is left of the tokens, and what has been seen of names and handles. -/
structure Composition where
  tokens : List Token
  handles : List (List Char × List Char)
  names : List (List Char × Nat)
  owners : List (Nat × Nat)
  nodes : List (Nat × Node)
  size : Nat

/-- A reader of tokens. -/
abbrev Composer := StateM Composition

namespace Composer

/-- The next token, which stays; behind a fault there is none. -/
def peek : Composer (Option Token) := do
  return (← get).tokens.head?

/-- Drop the next token. -/
def skip : Composer Unit :=
  modify (fun s => { s with tokens := s.tokens.drop 1 })

/-- Give up reading. -/
def stop : Composer Unit :=
  modify (fun s => { s with tokens := [] })

/-- Give up reading where a node should be. -/
def fault : Composer Node := do
  stop
  pure .unread

/-- Give up reading where an item or the end of a sequence should be. -/
def faultyItems : Composer (List Node) := do
  return [← fault]

/-- Give up reading where an entry or the end of a mapping should be. -/
def faultyEntries : Composer (List (Node × Node)) := do
  return [(← fault, .unread)]

/-- Count nodes. -/
def count (n : Nat) : Composer Unit :=
  modify (fun s => { s with size := s.size + n })

/-- The node that stands where the text has nothing. -/
def absent : Composer Node := do
  count 1
  pure Node.absent

/-- Number an anchor. The node itself is recorded once it is complete. -/
def announce (name : List Char) : Composer Nat := do
  let s ← get
  let id := s.names.length
  let serial := s.owners.length
  set { s with
    names := (name, id) :: s.names.filter (fun p => p.1 ≠ name)
    owners := (id, serial) :: s.owners }
  pure serial

/-- Record the node of an anchor. -/
def record (serial? : Option Nat) (node : Node) : Composer Node := do
  match serial? with
  | some serial => modify (fun s => { s with nodes := (serial, node) :: s.nodes })
  | none => pure ()
  pure node

/-- Write a tag out in full. A handle that has no meaning is a fault. -/
def fullTag (handle suffix : List Char) : Composer String := do
  if handle = [] then pure (String.ofList suffix)
  else match (← get).handles.find? (fun p => p.1 = handle) with
    | some (_, expansion) => pure (String.ofList (expansion ++ suffix))
    | none =>
      stop
      pure ""

/-- The properties in front of a node: an anchor and a tag, in either order, each at most once. -/
def properties : Composer (Option Nat × Option String) := do
  match ← peek with
  | some (.anchor name) =>
    skip
    match ← peek with
    | some (.tag handle suffix) =>
      skip
      let tag ← fullTag handle suffix
      let serial ← announce name
      pure (some serial, some tag)
    | _ =>
      let serial ← announce name
      pure (some serial, none)
  | some (.tag handle suffix) =>
    skip
    match ← peek with
    | some (.anchor name) =>
      skip
      let tag ← fullTag handle suffix
      let serial ← announce name
      pure (some serial, some tag)
    | _ =>
      let tag ← fullTag handle suffix
      pure (none, some tag)
  | _ => pure (none, none)

mutual

/-- A node. Block collections count only where `block` says so, and a sequence without
indentation of its own only where `indentless` does. -/
def node : (fuel : Nat) → (block indentless : Bool) → Composer Node
  | 0, _, _ => fault
  | fuel + 1, block, indentless => do
    match ← peek with
    | some (.reference name) =>
      skip
      count 1
      match (← get).names.find? (fun p => p.1 = name) with
      | some (_, id) => pure (.reference id)
      | none => fault
    | _ =>
      let (serial?, tag?) ← properties
      match ← peek with
      | none => fault
      | some (.scalar style text) =>
        skip
        count 1
        record serial? (.scalar tag? style (String.ofList text))
      | some .flowSequenceStart =>
        skip
        count 2
        let items ← flowItems fuel true
        record serial? (.sequence tag? items)
      | some .flowMappingStart =>
        skip
        count 2
        let entries ← flowEntries fuel true
        record serial? (.mapping tag? entries)
      | some t =>
        if indentless && t = .blockEntry then do
          count 2
          let items ← indentlessItems fuel
          record serial? (.sequence tag? items)
        else if block && t = .blockSequenceStart then do
          skip
          count 2
          let items ← blockItems fuel
          record serial? (.sequence tag? items)
        else if block && t = .blockMappingStart then do
          skip
          count 2
          let entries ← blockEntries fuel
          record serial? (.mapping tag? entries)
        else if serial?.isSome || tag?.isSome then do
          count 1
          record serial? (.scalar tag? .plain "")
        else fault
termination_by structural fuel => fuel

/-- A node, or nothing where one of some tokens follows. -/
def nodeUnless : (fuel : Nat) → (ends : List Token) → (block indentless : Bool) → Composer Node
  | 0, _, _, _ => fault
  | fuel + 1, ends, block, indentless => do
    match ← peek with
    | some t => if ends.contains t then absent else node fuel block indentless
    | none => fault
termination_by structural fuel => fuel

/-- The value of an entry, behind its key. Without a colon the value is absent. -/
def entryValue : (fuel : Nat) → (ends : List Token) → (block indentless : Bool) → Composer Node
  | 0, _, _, _ => fault
  | fuel + 1, ends, block, indentless => do
    match ← peek with
    | some .value =>
      skip
      nodeUnless fuel ends block indentless
    | some _ => absent
    | none => fault
termination_by structural fuel => fuel

/-- The items of a block sequence up to its end. -/
def blockItems : (fuel : Nat) → Composer (List Node)
  | 0 => faultyItems
  | fuel + 1 => do
    match ← peek with
    | some .blockEntry =>
      skip
      let item ← nodeUnless fuel [.blockEntry, .blockEnd] true false
      let items ← blockItems fuel
      pure (item :: items)
    | some .blockEnd =>
      skip
      pure []
    | _ => faultyItems
termination_by structural fuel => fuel

/-- The items of a sequence that is not indented more deeply than its key. -/
def indentlessItems : (fuel : Nat) → Composer (List Node)
  | 0 => faultyItems
  | fuel + 1 => do
    match ← peek with
    | some .blockEntry =>
      skip
      let item ← nodeUnless fuel [.blockEntry, .key, .value, .blockEnd] true false
      let items ← indentlessItems fuel
      pure (item :: items)
    | some _ => pure []
    | none => faultyItems
termination_by structural fuel => fuel

/-- The entries of a block mapping up to its end. -/
def blockEntries : (fuel : Nat) → Composer (List (Node × Node))
  | 0 => faultyEntries
  | fuel + 1 => do
    match ← peek with
    | some .key =>
      skip
      let key ← nodeUnless fuel [.key, .value, .blockEnd] true true
      let v ← entryValue fuel [.key, .value, .blockEnd] true true
      let entries ← blockEntries fuel
      pure ((key, v) :: entries)
    | some .blockEnd =>
      skip
      pure []
    | _ => faultyEntries
termination_by structural fuel => fuel

/-- The items of a sequence in brackets up to its end. An item may be a single pair, which makes a
mapping of one entry; a pair without a key takes the token behind the question mark with it. -/
def flowItems : (fuel : Nat) → (first : Bool) → Composer (List Node)
  | 0, _ => faultyItems
  | fuel + 1, first => do
    match ← peek with
    | some .flowSequenceEnd =>
      skip
      pure []
    | t? =>
      if !first then (if t? = some .flowEntry then skip else stop)
      match ← peek with
      | none => faultyItems
      | some .flowSequenceEnd =>
        skip
        pure []
      | some .key =>
        skip
        count 2
        let next ← peek
        let key ←
          if next = some .value ∨ next = some .flowEntry ∨ next = some .flowSequenceEnd then do
            skip
            absent
          else node fuel false false
        let v ← entryValue fuel [.flowEntry, .flowSequenceEnd] false false
        let items ← flowItems fuel false
        pure (.mapping none [(key, v)] :: items)
      | some _ =>
        let item ← node fuel false false
        let items ← flowItems fuel false
        pure (item :: items)
termination_by structural fuel => fuel

/-- The entries of a mapping in braces up to its end. -/
def flowEntries : (fuel : Nat) → (first : Bool) → Composer (List (Node × Node))
  | 0, _ => faultyEntries
  | fuel + 1, first => do
    match ← peek with
    | some .flowMappingEnd =>
      skip
      pure []
    | t? =>
      if !first then (if t? = some .flowEntry then skip else stop)
      match ← peek with
      | none => faultyEntries
      | some .flowMappingEnd =>
        skip
        pure []
      | some .key =>
        skip
        let key ← nodeUnless fuel [.value, .flowEntry, .flowMappingEnd] false false
        let v ← entryValue fuel [.flowEntry, .flowMappingEnd] false false
        let entries ← flowEntries fuel false
        pure ((key, v) :: entries)
      | some _ =>
        let key ← node fuel false false
        let v ← if (← peek).isSome then absent else fault
        let entries ← flowEntries fuel false
        pure ((key, v) :: entries)
termination_by structural fuel => fuel

end

/-- The directives in front of a document. Versions other than 1.1 and 1.2, a second version and a
second meaning of a handle are faults. -/
def directives : (fuel : Nat) → (versioned : Bool) → Composer Unit
  | 0, _ => stop
  | fuel + 1, versioned => do
    match ← peek with
    | some (.versionDirective major minor) =>
      if versioned || major ≠ 1 || (minor ≠ 1 && minor ≠ 2) then stop
      else do
        skip
        directives fuel true
    | some (.tagDirective handle expansion) =>
      if (← get).handles.any (fun p => p.1 = handle) then stop
      else do
        modify (fun s => { s with handles := (handle, expansion) :: s.handles })
        skip
        directives fuel versioned
    | _ => pure ()

/-- The handles that every document has unless it gives them another meaning. -/
def standardHandles : List (List Char × List Char) :=
  [(['!'], ['!']), (['!', '!'], "tag:yaml.org,2002:".toList)]

/-- Whether a token ends a document or begins the next one. -/
def isBoundary : Token → Bool
  | .versionDirective _ _ | .tagDirective _ _ | .documentStart | .documentEnd | .streamEnd => true
  | _ => false

/-- The root of the first document; a text of blanks and comments has none. -/
def root (fuel : Nat) : Composer (Option Node) := do
  match ← peek with
  | none => some <$> fault
  | some .streamEnd => pure none
  | some t =>
    if isBoundary t && t ≠ .documentEnd then do
      directives fuel false
      modify (fun s => { s with handles := s.handles ++ standardHandles })
      if (← peek) = some .documentStart then skip else stop
      match ← peek with
      | none => some <$> fault
      | some t => if isBoundary t then some <$> absent else some <$> node fuel true false
    else do
      modify (fun s => { s with handles := standardHandles })
      some <$> node fuel true false

/-- The first document. -/
def document (fuel : Nat) : Composer Document := do
  let root? ← root fuel
  if (← peek) = some .documentEnd then skip
  let s ← get
  let rest := s.tokens.dropWhile (· = .documentEnd)
  let anchored := s.owners.filterMap (fun (id, serial) =>
    (s.nodes.find? (fun p => p.1 = serial)).map (fun p => (id, p.2)))
  pure { root? := root?, anchored := anchored, size := s.size, alone := rest = [.streamEnd] }

end Composer

/-- The first document of some tokens. -/
def Document.ofTokens (tokens : List Token) : Document :=
  let fuel := 4 * tokens.length + 8
  ((Composer.document fuel).run
    { tokens := tokens, handles := [], names := [], owners := [], nodes := [], size := 0 }).1

/-- The first document of a text. -/
def Document.ofText (s : String) : Document :=
  Document.ofTokens (Token.ofText s.toList)

end PipelineConfig.Yaml
