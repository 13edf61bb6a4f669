/-!
# A place in a YAML text

The lexer of YAML needs to know at which column and on which line it stands, because both decide
what a character means. A `Cursor` is the text that is left together with that place. Five
characters break lines; a carriage return with a line feed behind it is one break, and every break
reads as a line feed apart from the two Unicode separators, which stay themselves.
-/

namespace PipelineConfig.Yaml

/-! ### Classes of characters -/

/-- The characters that break a line. -/
def isBreak (c : Char) : Bool :=
  c = '\n' || c = '\r' || c.toNat = 0x85 || c.toNat = 0x2028 || c.toNat = 0x2029

/-- Spaces and tabs. -/
def isGap (c : Char) : Bool :=
  c = ' ' || c = '\t'

/-- The characters of words: ASCII letters and digits, the hyphen and the underscore. -/
def isWordChar (c : Char) : Bool :=
  c.isAlphanum || c = '-' || c = '_'

/-- The characters that may stand in a document at all. -/
def isPrintable (c : Char) : Bool :=
  let n := c.toNat
  n = 9 || n = 10 || n = 13 || (0x20 ≤ n && n ≤ 0x7E) || n = 0x85
    || (0xA0 ≤ n && n ≤ 0xD7FF) || (0xE000 ≤ n && n ≤ 0xFFFD) || 0x10000 ≤ n

/-- A text with a place in it. -/
structure Cursor where
  rest : List Char
  index : Nat
  line : Nat
  column : Nat

namespace Cursor

/-- The start of a text. -/
def start (cs : List Char) : Cursor :=
  ⟨cs, 0, 0, 0⟩

/-! ### Looking ahead -/

/-- The next character has a property; there may be none. -/
def at? (c : Cursor) (n : Nat) (p : Char → Bool) : Bool :=
  match c.rest.drop n with
  | [] => false
  | x :: _ => p x

/-- The character `n` places ahead is the given one. -/
def isChar (c : Cursor) (n : Nat) (x : Char) : Bool :=
  c.at? n (· == x)

/-- The text is used up `n` places ahead. -/
def isEnd (c : Cursor) (n : Nat) : Bool :=
  (c.rest.drop n).isEmpty

/-- A break or the end is `n` places ahead. -/
def isBreakOrEnd (c : Cursor) (n : Nat) : Bool :=
  c.isEnd n || c.at? n isBreak

/-- A space, a tab, a break or the end is `n` places ahead. -/
def isBlankOrEnd (c : Cursor) (n : Nat) : Bool :=
  c.isBreakOrEnd n || c.at? n isGap

/-- A marker of three equal characters stands at the beginning of a line, alone. -/
def isMarker (c : Cursor) (x : Char) : Bool :=
  c.column = 0 && c.isChar 0 x && c.isChar 1 x && c.isChar 2 x && c.isBlankOrEnd 3

/-- The start or the end marker of a document stands here. -/
def isDocumentMarker (c : Cursor) : Bool :=
  c.isMarker '-' || c.isMarker '.'

/-! ### Moving on -/

/-- Pass over some characters of one line. -/
def skip (c : Cursor) (n : Nat) : Cursor :=
  ⟨c.rest.drop n, c.index + n, c.line, c.column + n⟩

/-- Take the characters of one line that have a property. -/
def takeWhile (c : Cursor) (p : Char → Bool) : List Char × Cursor :=
  let taken := c.rest.takeWhile p
  (taken, c.skip taken.length)

/-- Pass over the characters of one line that have a property. -/
def skipWhile (c : Cursor) (p : Char → Bool) : Cursor :=
  (c.takeWhile p).2

/-- Pass over the rest of the line. -/
def skipLine (c : Cursor) : Cursor :=
  c.skipWhile (fun x => !isBreak x)

/-- Take a line break, in its normal form; nothing when there is none. -/
def takeBreak (c : Cursor) : List Char × Cursor :=
  match c.rest with
  | '\r' :: '\n' :: rest => (['\n'], ⟨rest, c.index + 2, c.line + 1, 0⟩)
  | x :: rest =>
    if isBreak x then
      (if x.toNat = 0x2028 ∨ x.toNat = 0x2029 then [x] else ['\n'],
        ⟨rest, c.index + 1, c.line + 1, 0⟩)
    else ([], c)
  | [] => ([], c)

/-- Pass over the blanks and the comment at the end of a line; something else there is a fault. -/
def finishLine? (c : Cursor) : Option Cursor :=
  let c := c.skipWhile isGap
  let c := if c.isChar 0 '#' then c.skipLine else c
  if c.isBreakOrEnd 0 then some c.takeBreak.2 else none

end Cursor

end PipelineConfig.Yaml
