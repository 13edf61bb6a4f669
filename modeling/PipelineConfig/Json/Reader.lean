import PipelineConfig.Json.Basic
import PipelineConfig.Value.Reading

/-!
# Reading JSON

The reader is strict: no comments, no trailing commas, no raw control characters in strings, no
unpaired surrogates, nothing after the document, and at most 127 levels of arrays and objects.

It builds its result through a `Json.Builder`, which says what each kind of node becomes. Two
builders are used: `Json.tree` makes the tree of the text, and `Value.builder` makes a
configuration value on the way, without a tree in between. Keys are texts for a tree; as a part of a
configuration value they are values of their own, and whoever builds may refuse one. Of two members
of an object with one name the later one stays in both.
-/

namespace PipelineConfig

/-- What each kind of node becomes. -/
structure Json.Builder (α : Type) where
  null : α
  bool : Bool → α
  int : Int → α
  float : Float → α
  string : String → α
  array : List α → α
  /-- The name under which the member with this key is kept, unless the key is refused. -/
  key? : String → Option String
  object : List (String × α) → α

/-- The builder of trees. -/
def Json.tree : Json.Builder Json where
  null := .null
  bool := .bool
  int := .int
  float := .float
  string := .string
  array := .array
  key? := some
  object members := .object (Assoc.ofList members)

/-- The builder of trees in which the outermost object keeps all its members, also those with one
name; each node has the tree for its place inside another and the tree for the outermost place. -/
def Json.outline : Json.Builder (Json × Json) where
  null := (.null, .null)
  bool b := (.bool b, .bool b)
  int n := (.int n, .int n)
  float x := (.float x, .float x)
  string s := (.string s, .string s)
  array items := (.array (items.map Prod.fst), .array (items.map Prod.fst))
  key? := some
  object members :=
    let members := members.map (fun m => (m.1, m.2.1))
    (.object (Assoc.ofList members), .object members)

/-- The builder of configuration values. A key is read as a value first. -/
def Value.builder : Json.Builder Value where
  null := .null
  bool := .bool
  int := Value.ofWhole
  float := .float
  string := .string
  array := .sequence
  key? s := (Value.string s).keyText?
  object members := .mapping (Assoc.ofList members)

namespace Json

/-! ### Tokens -/

/-- The blanks between tokens. -/
def isSpace (c : Char) : Bool :=
  c = ' ' || c = '\n' || c = '\r' || c = '\t'

/-- Drop the blanks at the front. -/
def skipSpace (cs : List Char) : List Char :=
  cs.dropWhile isSpace

/-- The value of a hexadecimal digit of either case. -/
def hexValue? (c : Char) : Option Nat :=
  if '0' ≤ c ∧ c ≤ '9' then some (c.toNat - '0'.toNat)
  else if 'a' ≤ c ∧ c ≤ 'f' then some (c.toNat - 'a'.toNat + 10)
  else if 'A' ≤ c ∧ c ≤ 'F' then some (c.toNat - 'A'.toNat + 10)
  else none

/-- The number that four hexadecimal digits write. -/
def hex4? (a b c d : Char) : Option Nat := do
  let a ← hexValue? a
  let b ← hexValue? b
  let c ← hexValue? c
  let d ← hexValue? d
  some (4096 * a + 256 * b + 16 * c + d)

/-- The character that a letter after a backslash stands for. -/
def unescape? : Char → Option Char
  | '"' => some '"'
  | '\\' => some '\\'
  | '/' => some '/'
  | 'b' => some (Char.ofNat 8)
  | 'f' => some (Char.ofNat 12)
  | 'n' => some '\n'
  | 'r' => some '\r'
  | 't' => some '\t'
  | _ => none

/-- Read the rest of a string, up to its closing quote. -/
def stringRest? : List Char → Option (List Char × List Char)
  | [] => none
  | '"' :: rest => some ([], rest)
  | '\\' :: 'u' :: a :: b :: c :: d :: rest =>
    match hex4? a b c d with
    | none => none
    | some n =>
      if n < 0xD800 ∨ 0xDFFF < n then
        (stringRest? rest).map (fun p => (Char.ofNat n :: p.1, p.2))
      else if 0xDC00 ≤ n then none
      else match rest with
        | '\\' :: 'u' :: e :: f :: g :: h :: rest =>
          match hex4? e f g h with
          | none => none
          | some m =>
            if m < 0xDC00 ∨ 0xDFFF < m then none
            else
              let c := Char.ofNat (0x10000 + (n - 0xD800) * 0x400 + (m - 0xDC00))
              (stringRest? rest).map (fun p => (c :: p.1, p.2))
        | _ => none
  | '\\' :: e :: rest =>
    match unescape? e with
    | none => none
    | some c => (stringRest? rest).map (fun p => (c :: p.1, p.2))
  | c :: rest =>
    if c.toNat < 32 then none
    else (stringRest? rest).map (fun p => (c :: p.1, p.2))

/-! ### Documents -/

mutual

/-- Read one value; `levels` more arrays and objects may open. -/
def value? {α : Type} (b : Builder α) :
    (fuel levels : Nat) → List Char → Option (α × List Char)
  | 0, _, _ => none
  | fuel + 1, levels, cs =>
    match skipSpace cs with
    | 'n' :: 'u' :: 'l' :: 'l' :: rest => some (b.null, rest)
    | 't' :: 'r' :: 'u' :: 'e' :: rest => some (b.bool true, rest)
    | 'f' :: 'a' :: 'l' :: 's' :: 'e' :: rest => some (b.bool false, rest)
    | '"' :: rest => (stringRest? rest).map (fun p => (b.string (String.ofList p.1), p.2))
    | '[' :: rest =>
      match levels with
      | 0 => none
      | levels + 1 =>
        match skipSpace rest with
        | ']' :: rest => some (b.array [], rest)
        | rest => (items? b fuel levels rest).map (fun p => (b.array p.1, p.2))
    | '\x7b' :: rest =>
      match levels with
      | 0 => none
      | levels + 1 =>
        match skipSpace rest with
        | '\x7d' :: rest => some (b.object [], rest)
        | rest => (members? b fuel levels rest).map (fun p => (b.object p.1, p.2))
    | cs =>
      match Number.read? cs with
      | none => none
      | some (.int n, rest) => some (b.int n, rest)
      | some (.float x, rest) => some (b.float x, rest)
termination_by structural fuel => fuel

/-- Read the items of an array and its closing bracket. -/
def items? {α : Type} (b : Builder α) :
    (fuel levels : Nat) → List Char → Option (List α × List Char)
  | 0, _, _ => none
  | fuel + 1, levels, cs =>
    match value? b fuel levels cs with
    | none => none
    | some (item, rest) =>
      match skipSpace rest with
      | ']' :: rest => some ([item], rest)
      | ',' :: rest => (items? b fuel levels rest).map (fun p => (item :: p.1, p.2))
      | _ => none
termination_by structural fuel => fuel

/-- Read the members of an object and its closing brace. -/
def members? {α : Type} (b : Builder α) :
    (fuel levels : Nat) → List Char → Option (List (String × α) × List Char)
  | 0, _, _ => none
  | fuel + 1, levels, cs =>
    match skipSpace cs with
    | '"' :: rest =>
      match stringRest? rest with
      | none => none
      | some (name, rest) =>
        match skipSpace rest with
        | ':' :: rest =>
          match value? b fuel levels rest with
          | none => none
          | some (v, rest) =>
            match b.key? (String.ofList name) with
            | none => none
            | some key =>
              match skipSpace rest with
              | '\x7d' :: rest => some ([(key, v)], rest)
              | ',' :: rest => (members? b fuel levels rest).map (fun p => ((key, v) :: p.1, p.2))
              | _ => none
        | _ => none
    | _ => none
termination_by structural fuel => fuel

end

/-- The number of levels of arrays and objects that a document may have. -/
def maxLevels : Nat := 127

/-- Read a whole document through a builder. -/
def readWith? {α : Type} (b : Builder α) (s : String) : Option α :=
  let cs := s.toList
  match value? b (2 * cs.length + 2) maxLevels cs with
  | some (v, rest) => if skipSpace rest = [] then some v else none
  | none => none

/-- The tree of a text. -/
def read? (s : String) : Option Json :=
  readWith? tree s

end Json

/-- The tree of a text, in which the outermost object keeps all its members. -/
def Json.readOutline? (s : String) : Option Json :=
  (Json.readWith? Json.outline s).map Prod.snd

/-- The configuration value of a JSON text, read without a tree. -/
def Value.readJson? (s : String) : Option Value :=
  Json.readWith? Value.builder s

end PipelineConfig
