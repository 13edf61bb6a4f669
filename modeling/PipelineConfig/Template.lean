import PipelineConfig.ConfigError

/-!
# References inside texts

A text of a configuration may refer to other entries as `$(name)`, with ASCII letters, digits and
dots in the name. `Template.pieces` cuts a text into references and plain characters; substituting
replaces each reference by the text it names, or by nothing where the name is absent or null.

What is substituted may hold references again, and neighbouring text may join into new ones, so
`interpolate` repeats the substitution until none is left, at most `maxPasses` times.
-/

namespace PipelineConfig.Template

/-- A piece of a text: a character, or a reference to a name. -/
inductive Piece
  | char (c : Char)
  | reference (name : String)
  deriving DecidableEq, Repr

/-- The characters of names in references. -/
def isNameChar (c : Char) : Bool :=
  c.isAlphanum || c = '.'

/-- The name of the reference that begins a text, if one does. -/
def reference? : List Char → Option (List Char)
  | '$' :: '(' :: rest =>
    match rest.dropWhile isNameChar with
    | ')' :: _ => some (rest.takeWhile isNameChar)
    | _ => none
  | _ => none

/-- The pieces of a text after passing over some characters of it. -/
def piecesFrom : (passed : Nat) → List Char → List Piece
  | _, [] => []
  | passed + 1, _ :: rest => piecesFrom passed rest
  | 0, c :: rest =>
    match reference? (c :: rest) with
    | some name => .reference (String.ofList name) :: piecesFrom (name.length + 2) rest
    | none => .char c :: piecesFrom 0 rest

/-- The pieces of a text. -/
def pieces (cs : List Char) : List Piece :=
  piecesFrom 0 cs

/-- The names referred to in some characters, in order of appearance. -/
def names (cs : List Char) : List String :=
  (pieces cs).filterMap (fun p => match p with
    | .reference name => some name
    | .char _ => none)

/-- The names that a text refers to, in order of appearance. -/
def references (text : String) : List String :=
  names text.toList

/-- Whether every reference of a text names a text that is not empty. -/
def isResolvable (text : String) (lookup : Mapping) : Bool :=
  (references text).all (fun name => match Assoc.get? lookup name with
    | some (.string s) => !s.isEmpty
    | _ => false)

/-! ### Substitution -/

/-- The number of passes after which references count as endless. -/
def maxPasses : Nat := 10

/-- The text that a reference stands for; `key` names the value it is in. -/
def valueOf (key : String) (lookup : Mapping) (name : String) : Except ConfigError (List Char) :=
  match Assoc.get? lookup name with
  | some (.string s) => .ok s.toList
  | none | some .null => .ok []
  | some other => .error (.referenceNotText name key other.kind)

/-- Replace every reference among some pieces. -/
def substitutePieces (key : String) (lookup : Mapping) :
    List Piece → Except ConfigError (List Char)
  | [] => .ok []
  | .char c :: rest => do
    let more ← substitutePieces key lookup rest
    .ok (c :: more)
  | .reference name :: rest => do
    let text ← valueOf key lookup name
    let more ← substitutePieces key lookup rest
    .ok (text ++ more)

/-- Replace every reference of a text once. -/
def substitute (key : String) (lookup : Mapping) (cs : List Char) :
    Except ConfigError (List Char) :=
  substitutePieces key lookup (pieces cs)

/-- Replace references until none is left, as long as passes are left. -/
def interpolateChars (key : String) (lookup : Mapping) :
    (passes : Nat) → List Char → Except ConfigError (List Char)
  | passes, cs =>
    if names cs = [] then .ok cs
    else match passes with
      | 0 => .error (.endlessReferences key maxPasses)
      | passes + 1 => do
        let next ← substitute key lookup cs
        interpolateChars key lookup passes next

/-- Resolve the references of a text; `key` names it in errors. -/
def interpolate (key text : String) (lookup : Mapping) : Except ConfigError String := do
  let cs ← interpolateChars key lookup maxPasses text.toList
  .ok (String.ofList cs)

/-- Resolve one entry of a mapping: texts at the top level only. -/
def interpolateEntry (lookup : Mapping) (entry : String × Value) :
    Except ConfigError (String × Value) :=
  match entry.2 with
  | .string s => do
    let resolved ← interpolate entry.1 s lookup
    .ok (entry.1, .string resolved)
  | other => .ok (entry.1, other)

/-- Resolve the texts of a mapping against the mapping itself. -/
def interpolateMapping (config : Mapping) : Except ConfigError Mapping :=
  config.mapM (interpolateEntry config)

end PipelineConfig.Template
