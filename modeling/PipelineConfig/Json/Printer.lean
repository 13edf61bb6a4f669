import PipelineConfig.Json.Basic

/-!
# Printing JSON

`Json.compact` prints a tree without any space, `Json.pretty` with one item a line and two spaces
of indentation a level; empty arrays and objects stay on their line in both. In strings the quote,
the backslash and the control characters below U+0020 are escaped, the common ones by letter and
the rest as `\u00xx`; everything else stands as it is.
-/

namespace PipelineConfig

namespace Json

/-- One hexadecimal digit in lower case. -/
def hexDigit (n : Nat) : Char :=
  Nat.digitChar n

/-- A character inside a JSON string. -/
def escapeChar (c : Char) : List Char :=
  match c with
  | '"' => ['\\', '"']
  | '\\' => ['\\', '\\']
  | '\n' => ['\\', 'n']
  | '\r' => ['\\', 'r']
  | '\t' => ['\\', 't']
  | c =>
    if c.toNat = 8 then ['\\', 'b']
    else if c.toNat = 12 then ['\\', 'f']
    else if c.toNat < 32 then
      ['\\', 'u', '0', '0', hexDigit (c.toNat / 16), hexDigit (c.toNat % 16)]
    else [c]

/-- A text between quotes. -/
def quote (s : String) : List Char :=
  '"' :: s.toList.flatMap escapeChar ++ ['"']

/-- The text of a whole number. -/
def intText (n : Int) : List Char :=
  if n < 0 then '-' :: Nat.toDigits 10 n.natAbs else Nat.toDigits 10 n.natAbs

mutual

/-- Print without spaces. -/
def compact : Json → List Char
  | .null => ['n', 'u', 'l', 'l']
  | .bool true => ['t', 'r', 'u', 'e']
  | .bool false => ['f', 'a', 'l', 's', 'e']
  | .int n => intText n
  | .float x => Decimal.jsonText x
  | .string s => quote s
  | .array items => '[' :: (compactItems items ++ [']'])
  | .object members => '\x7b' :: (compactMembers members ++ ['\x7d'])
termination_by structural j => j

/-- Print the items of an array with commas between them. -/
def compactItems : List Json → List Char
  | [] => []
  | [j] => compact j
  | j :: k :: rest => compact j ++ ',' :: compactItems (k :: rest)
termination_by structural js => js

/-- Print the members of an object with commas between them. -/
def compactMembers : List (String × Json) → List Char
  | [] => []
  | [(name, j)] => quote name ++ ':' :: compact j
  | (name, j) :: m :: rest => quote name ++ ':' :: (compact j ++ ',' :: compactMembers (m :: rest))
termination_by structural ms => ms

end

/-- A new line with its indentation. -/
def newline (level : Nat) : List Char :=
  '\n' :: List.replicate (2 * level) ' '

mutual

/-- Print over several lines, starting at a level of indentation. -/
def prettyAt (level : Nat) : Json → List Char
  | .null => ['n', 'u', 'l', 'l']
  | .bool true => ['t', 'r', 'u', 'e']
  | .bool false => ['f', 'a', 'l', 's', 'e']
  | .int n => intText n
  | .float x => Decimal.jsonText x
  | .string s => quote s
  | .array [] => ['[', ']']
  | .array items => '[' :: (prettyItems (level + 1) items ++ newline level ++ [']'])
  | .object [] => ['\x7b', '\x7d']
  | .object members =>
    '\x7b' :: (prettyMembers (level + 1) members ++ newline level ++ ['\x7d'])
termination_by structural j => j

/-- Print the items of an array, one a line. -/
def prettyItems (level : Nat) : List Json → List Char
  | [] => []
  | [j] => newline level ++ prettyAt level j
  | j :: k :: rest =>
    newline level ++ prettyAt level j ++ ',' :: prettyItems level (k :: rest)
termination_by structural js => js

/-- Print the members of an object, one a line. -/
def prettyMembers (level : Nat) : List (String × Json) → List Char
  | [] => []
  | [(name, j)] => newline level ++ quote name ++ ':' :: ' ' :: prettyAt level j
  | (name, j) :: m :: rest =>
    newline level ++ quote name ++ ':' :: ' ' ::
      (prettyAt level j ++ ',' :: prettyMembers level (m :: rest))
termination_by structural ms => ms

end

/-- The compact text of a tree. -/
def compactText (j : Json) : String :=
  String.ofList (compact j)

/-- The text of a tree over several lines. -/
def prettyText (j : Json) : String :=
  String.ofList (prettyAt 0 j)

end Json

/-- The text of a value where one is shown: scalars as they are, null and collections as JSON. -/
def Value.display (v : Value) : String :=
  match v.scalarText? with
  | some s => s
  | none => v.toJson.compactText

end PipelineConfig
