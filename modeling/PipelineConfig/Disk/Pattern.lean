import PipelineConfig.Text.Blank

/-!
# File name patterns

In a pattern `?` stands for any character, `*` for any characters, and brackets for one character
of some, or with an exclamation mark for one that is none of them; everything else stands for
itself. Two asterisks as a whole part of a path stand for any directories. ASCII letters match in
either case.
-/

namespace PipelineConfig

/-- A part of a pattern. -/
inductive PatternToken
  | char (c : Char)
  | anyChar
  | oneOf (ranges : List (Char × Char))
  | noneOf (ranges : List (Char × Char))
  | anyChars
  | anyFolders
  deriving DecidableEq, Repr

/-- What is wrong with a pattern. -/
inductive PatternFault
  | brackets | folders | asterisks
  deriving DecidableEq, Repr

/-- The wording of a fault. -/
def PatternFault.message : PatternFault → String
  | .brackets => "invalid range pattern"
  | .folders => "recursive wildcards must form a single path component"
  | .asterisks => "wildcards are either regular \x60*\x60 or recursive \x60**\x60"

/-- A fault, and the character at which it is seen. -/
structure PatternError where
  position : Nat
  fault : PatternFault
  deriving DecidableEq, Repr

/-- The message of an error. -/
def PatternError.message (e : PatternError) : String :=
  "Pattern syntax error near position " ++ toString e.position ++ ": " ++ e.fault.message

namespace Pattern

/-! ### Reading -/

/-- The ranges that the characters between brackets write. -/
def ranges : List Char → List (Char × Char)
  | a :: '-' :: b :: rest => (a, b) :: ranges rest
  | a :: rest => (a, a) :: ranges rest
  | [] => []

/-- What stands between brackets, and what follows them; there is always a first character. -/
def bracketed? : List Char → Option (List Char × List Char)
  | first :: rest => (Text.cut? ']' rest).map (fun p => (first :: p.1, p.2))
  | [] => none

/-- The token that begins with an opening bracket, whose rest is given. -/
def brackets? : List Char → Option (PatternToken × List Char)
  | '!' :: rest => (bracketed? rest).map (fun p => (.noneOf (ranges p.1), p.2))
  | rest => (bracketed? rest).map (fun p => (.oneOf (ranges p.1), p.2))

/-- Read the tokens of a pattern; `before?` is the character before. The steps are as many as there
are characters. -/
def readFrom : (steps position : Nat) → (before? : Option Char) → List Char →
    Except PatternError (List PatternToken)
  | 0, _, _, _ => .ok []
  | _, _, _, [] => .ok []
  | steps + 1, position, before?, c :: rest => do
    if c = '?' then
      let more ← readFrom steps (position + 1) (some c) rest
      .ok (.anyChar :: more)
    else if c = '*' then
      let asterisks := 1 + (rest.takeWhile (· == '*')).length
      let after := rest.drop (asterisks - 1)
      let position' := position + asterisks
      if asterisks = 1 then
        let more ← readFrom steps position' (some '*') after
        .ok (.anyChars :: more)
      else if 2 < asterisks then .error ⟨position + 2, .asterisks⟩
      else if before? = none ∨ before? = some '/' then
        match after with
        | [] => .ok [.anyFolders]
        | '/' :: after =>
          let more ← readFrom steps (position' + 1) (some '/') after
          .ok (.anyFolders :: more)
        | _ => .error ⟨position', .folders⟩
      else .error ⟨position - 1, .folders⟩
    else if c = '[' then
      match brackets? rest with
      | none => .error ⟨position, .brackets⟩
      | some (token, after) =>
        let more ← readFrom steps (position + 1 + (rest.length - after.length)) (some ']') after
        .ok (token :: more)
    else
      let more ← readFrom steps (position + 1) (some c) rest
      .ok (.char c :: more)

/-- The tokens of a pattern. -/
def read (cs : List Char) : Except PatternError (List PatternToken) :=
  readFrom cs.length 0 none cs

/-- The name that a pattern without anything special stands for. -/
def name? : List PatternToken → Option (List Char)
  | [] => some []
  | .char c :: rest => (name? rest).map (c :: ·)
  | _ => none

/-- Whether a pattern stands for any directories. -/
def isRecursive (ts : List PatternToken) : Bool :=
  ts.contains .anyFolders

/-! ### Matching -/

/-- Whether two characters are the same but for the case of ASCII letters. -/
def sameChar (a b : Char) : Bool :=
  a.toLower = b.toLower

/-- Whether a character is in a range; a range between two letters has them in either case. -/
def inRange (c : Char) (range : Char × Char) : Bool :=
  let (first, last) := range
  if first = last then sameChar c first
  else
    (first ≤ c && c ≤ last)
      || (first.isAlpha && last.isAlpha
        && first.toLower ≤ c.toLower && c.toLower ≤ last.toLower)

/-- Whether a token stands for a character. -/
def admits (t : PatternToken) (c : Char) : Bool :=
  match t with
  | .char d => sameChar c d
  | .anyChar => true
  | .oneOf ranges => ranges.any (inRange c)
  | .noneOf ranges => !ranges.any (inRange c)
  | .anyChars | .anyFolders => false

/-- Whether a pattern stands for a name. -/
def matchesName : List PatternToken → List Char → Bool
  | [], [] => true
  | [], _ :: _ => false
  | .anyChars :: ts, [] => matchesName ts []
  | .anyChars :: ts, c :: cs => matchesName ts (c :: cs) || matchesName (.anyChars :: ts) cs
  | _ :: _, [] => false
  | t :: ts, c :: cs => admits t c && matchesName ts cs
termination_by ts cs => (ts.length, cs.length)

end Pattern

end PipelineConfig
