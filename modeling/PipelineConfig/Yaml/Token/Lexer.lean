import PipelineConfig.Yaml.Token.Scalars

/-!
# From YAML text to tokens

`Token.ofText` cuts a text into tokens. What makes this more than a matter of character classes is
the simple key: whether a scalar is a key shows only at the colon behind it, and then a `key` token
and perhaps the start of a mapping belong *in front of* what has been read already. The lexer
remembers the place of the last possible simple key at every level of brackets and inserts there.

The tokens of a faulty text end before the fault, without a `streamEnd`: a token that may still turn
out to begin a key when the fault is met does not count, nor does any token behind it.
-/

namespace PipelineConfig.Yaml

/-- A place where a simple key may have begun. `required` says that nothing but a key can be there. -/
structure SimpleKey where
  number : Nat
  required : Bool
  index : Nat
  line : Nat
  column : Nat

/-- Whether a place lies so far behind a possible key that it cannot be one: on another line, or
more than 1024 characters on. -/
def SimpleKey.isStale (k : SimpleKey) (c : Cursor) : Bool :=
  k.line < c.line || k.index + 1024 < c.index

/-- The state of the lexer. `emitted` holds the tokens so far, the last one first, and `count`
their number; `outer` are the possible keys of the enclosing levels of brackets. -/
structure Lexer where
  cursor : Cursor
  emitted : List Token
  count : Nat
  key? : Option SimpleKey
  outer : List (Option SimpleKey)
  indent : Int
  indents : List Int
  keyAllowed : Bool

namespace Lexer

/-- The lexer at the start of a text. -/
def start (cs : List Char) : Lexer :=
  { cursor := Cursor.start cs, emitted := [], count := 0, key? := none, outer := [],
    indent := -1, indents := [], keyAllowed := true }

/-- Whether the place is inside brackets. -/
def inFlow (l : Lexer) : Bool :=
  !l.outer.isEmpty

/-- Add a token. -/
def emit (l : Lexer) (t : Token) : Lexer :=
  { l with emitted := t :: l.emitted, count := l.count + 1 }

/-- Add a token in front of the token with a given number. -/
def emitAt (l : Lexer) (number : Nat) (t : Token) : Lexer :=
  let after := l.count - number
  { l with emitted := l.emitted.take after ++ t :: l.emitted.drop after, count := l.count + 1 }

/-! ### Simple keys -/

/-- A possible key that is stale is none; if it is required, that is a fault. -/
def fresh? (c : Cursor) : Option SimpleKey → Option (Option SimpleKey)
  | none => some none
  | some k =>
    if k.isStale c then (if k.required then none else some none) else some (some k)

/-- Forget the possible keys that the current place has made impossible. -/
def dropStaleKeys? (l : Lexer) : Option Lexer := do
  let key? ← fresh? l.cursor l.key?
  let outer ← l.outer.mapM (fresh? l.cursor)
  some { l with key? := key?, outer := outer }

/-- Forget the possible key of this level; a required one cannot be forgotten. -/
def dropKey? (l : Lexer) : Option Lexer :=
  match l.key? with
  | some k => if k.required then none else some { l with key? := none }
  | none => some l

/-- Remember the current place as a possible key, where keys are allowed. -/
def saveKey? (l : Lexer) : Option Lexer :=
  if l.keyAllowed then do
    let required := !l.inFlow && l.indent == l.cursor.column
    let l ← l.dropKey?
    some { l with
      key? := some ⟨l.count, required, l.cursor.index, l.cursor.line, l.cursor.column⟩ }
  else some l

/-- The tokens in front of the first one that may still turn out to begin a key. -/
def settled (l : Lexer) : List Token :=
  let undecided := (l.key? :: l.outer).filterMap (fun k? => match k? with
    | some k => if k.isStale l.cursor && !k.required then none else some k.number
    | none => none)
  l.emitted.drop (l.count - undecided.foldl min l.count)

/-! ### Indentation -/

/-- Open a block collection at a column that is deeper than the indentation so far. -/
def indentTo (l : Lexer) (column : Nat) (number? : Option Nat) (t : Token) : Lexer :=
  if l.inFlow then l
  else if l.indent < column then
    let l := { l with indents := l.indent :: l.indents, indent := column }
    match number? with
    | some number => l.emitAt number t
    | none => l.emit t
  else l

/-- Close the block collections that are indented more deeply than a column. -/
def closeDeeper (column : Int) : List Int → Lexer → Lexer
  | [], l => l
  | i :: rest, l =>
    if column < l.indent then
      closeDeeper column rest ({ l with indent := i, indents := rest }.emit .blockEnd)
    else l

/-- Come back to a column; inside brackets indentation has no meaning. -/
def unindentTo (l : Lexer) (column : Int) : Lexer :=
  if l.inFlow then l else closeDeeper column l.indents l

/-! ### Blanks and comments -/

/-- Pass over blanks, comments and line breaks. A tab is no blank where a key may begin. -/
def skipBlanks : (fuel : Nat) → Lexer → Lexer
  | 0, l => l
  | fuel + 1, l =>
    let c := l.cursor
    let c := if c.index = 0 && c.at? 0 (fun x => x.toNat = 0xFEFF) then c.skip 1 else c
    let tabs := l.inFlow || !l.keyAllowed
    let c := c.skipWhile (fun x => x = ' ' || (tabs && x = '\t'))
    let c := if c.isChar 0 '#' then c.skipLine else c
    if c.at? 0 isBreak then
      skipBlanks fuel { l with
        cursor := c.takeBreak.2
        keyAllowed := l.keyAllowed || !l.inFlow }
    else { l with cursor := c }

/-! ### Indicators -/

/-- Pass over some characters and add a token. -/
def indicator (l : Lexer) (n : Nat) (t : Token) : Lexer :=
  { l with cursor := l.cursor.skip n }.emit t

/-- The end of the text. -/
def streamEnd? (l : Lexer) : Option Lexer := do
  let l ← (l.unindentTo (-1)).dropKey?
  some (l.emit .streamEnd)

/-- The marker of the start or the end of a document. -/
def documentMarker? (l : Lexer) (t : Token) : Option Lexer := do
  let l ← (l.unindentTo (-1)).dropKey?
  some ({ l with keyAllowed := false }.indicator 3 t)

/-- An opening bracket. -/
def openFlow? (l : Lexer) (t : Token) : Option Lexer := do
  let l ← l.saveKey?
  let l := { l with outer := l.key? :: l.outer, key? := none, keyAllowed := true }
  some (l.indicator 1 t)

/-- A closing bracket. -/
def closeFlow? (l : Lexer) (t : Token) : Option Lexer := do
  let l ← l.dropKey?
  let l := match l.outer with
    | k :: rest => { l with key? := k, outer := rest }
    | [] => l
  some ({ l with keyAllowed := false }.indicator 1 t)

/-- A comma inside brackets. -/
def flowEntry? (l : Lexer) : Option Lexer := do
  let l ← l.dropKey?
  some ({ l with keyAllowed := true }.indicator 1 .flowEntry)

/-- The hyphen of a block sequence. -/
def blockEntry? (l : Lexer) : Option Lexer :=
  if !l.inFlow && !l.keyAllowed then none
  else do
    let l ← (l.indentTo l.cursor.column none .blockSequenceStart).dropKey?
    some ({ l with keyAllowed := true }.indicator 1 .blockEntry)

/-- The question mark of an explicit key. -/
def explicitKey? (l : Lexer) : Option Lexer :=
  if !l.inFlow && !l.keyAllowed then none
  else do
    let l ← (l.indentTo l.cursor.column none .blockMappingStart).dropKey?
    some ({ l with keyAllowed := !l.inFlow }.indicator 1 .key)

/-- The colon before a value. -/
def value? (l : Lexer) : Option Lexer :=
  match l.key? with
  | some k =>
    let l := (l.emitAt k.number .key).indentTo k.column (some k.number) .blockMappingStart
    some ({ l with key? := none, keyAllowed := false }.indicator 1 .value)
  | none =>
    if l.inFlow then some ({ l with keyAllowed := false }.indicator 1 .value)
    else if !l.keyAllowed then none
    else
      let l := l.indentTo l.cursor.column none .blockMappingStart
      some ({ l with keyAllowed := true }.indicator 1 .value)

/-! ### Directives -/

/-- The digits of a version number, at most nine. -/
def versionNumber? (c : Cursor) : Option (Nat × Cursor) :=
  let (ds, c) := c.takeWhile Char.isDigit
  if ds = [] ∨ 9 < ds.length then none
  else some (ds.foldl (fun n d => 10 * n + (d.toNat - '0'.toNat)) 0, c)

/-- One octet of an escape in a tag. -/
def octet? : List Char → Option Nat
  | '%' :: a :: b :: _ => do
    let a ← hexDigit? a
    let b ← hexDigit? b
    some (16 * a + b)
  | _ => none

/-- The further octets of a character escaped in a tag, added to its leading bits. -/
def moreOctets? : (octets : Nat) → Nat → Cursor → Option (Nat × Cursor)
  | 0, n, c => some (n, c)
  | octets + 1, n, c => do
    let o ← octet? c.rest
    if o / 64 = 2 then moreOctets? octets (64 * n + o % 64) (c.skip 3) else none

/-- A character that is escaped in a tag by its octets. -/
def escaped? (c : Cursor) : Option (Char × Cursor) := do
  let o ← octet? c.rest
  let c := c.skip 3
  let (n, c) ←
    if o < 128 then some (o, c)
    else if o / 32 = 6 then moreOctets? 1 (o % 32) c
    else if o / 16 = 14 then moreOctets? 2 (o % 16) c
    else if o / 8 = 30 then moreOctets? 3 (o % 8) c
    else none
  some (Char.ofNat n, c)

/-- The characters of tags; some only where a bracket cannot be meant. -/
def isTagChar (all : Bool) (c : Char) : Bool :=
  isWordChar c || [';', '/', '?', ':', '@', '&', '=', '+', '$', '.', '%', '!', '~', '*', '\'',
    '(', ')'].contains c || (all && [',', '[', ']'].contains c)

/-- The characters of a tag. -/
def tagChars? (all : Bool) : (fuel : Nat) → Cursor → Option (List Char × Cursor)
  | 0, _ => none
  | fuel + 1, c =>
    match c.rest with
    | x :: _ =>
      if !isTagChar all x then some ([], c)
      else do
        let (y, c) ← if x = '%' then escaped? c else some (x, c.skip 1)
        let (more, c) ← tagChars? all fuel c
        some (y :: more, c)
    | [] => some ([], c)

/-- A tag handle: `!`, or a word between two of them. Without the second one the flag is false. -/
def handle? (c : Cursor) : Option (List Char × Bool × Cursor) :=
  if c.isChar 0 '!' then
    let (word, c) := (c.skip 1).takeWhile isWordChar
    if c.isChar 0 '!' then some ('!' :: word ++ ['!'], true, c.skip 1)
    else some ('!' :: word, false, c)
  else none

/-- A directive, starting at its percent sign. -/
def directive? (l : Lexer) : Option Lexer := do
  let l ← (l.unindentTo (-1)).dropKey?
  let (name, c) := (l.cursor.skip 1).takeWhile isWordChar
  if name = [] || !c.isBlankOrEnd 0 then none
  let c := c.skipWhile isGap
  let (t, c) ←
    if name = ['Y', 'A', 'M', 'L'] then do
      let (major, c) ← versionNumber? c
      if !c.isChar 0 '.' then none
      let (minor, c) ← versionNumber? (c.skip 1)
      some (Token.versionDirective major minor, c)
    else if name = ['T', 'A', 'G'] then do
      let (handle, closed, c) ← handle? c
      if !closed && handle ≠ ['!'] then none
      if !c.at? 0 isGap then none
      let (expansion, c) ← tagChars? true (c.rest.length + 1) (c.skipWhile isGap)
      if expansion = [] || !c.isBlankOrEnd 0 then none
      some (Token.tagDirective handle expansion, c)
    else none
  let c ← c.finishLine?
  some ({ l with cursor := c, keyAllowed := false }.emit t)

/-! ### Properties of nodes -/

/-- An anchor or a reference to one, starting at its sign. -/
def name? (l : Lexer) (make : List Char → Token) : Option Lexer := do
  let l ← l.saveKey?
  let (name, c) := (l.cursor.skip 1).takeWhile isWordChar
  let ended := c.isBlankOrEnd 0
    || c.at? 0 (fun x => ['?', ':', ',', ']', '\x7d', '%', '@', '\x60'].contains x)
  if name = [] || !ended then none
  some ({ l with cursor := c, keyAllowed := false }.emit (make name))

/-- A tag, starting at its exclamation mark: verbatim, with a handle, or with a bare mark. -/
def tag? (l : Lexer) : Option Lexer := do
  let l ← l.saveKey?
  let c := l.cursor
  let fuel := c.rest.length + 1
  let (t, c) ←
    if c.isChar 1 '<' then do
      let (suffix, c) ← tagChars? true fuel (c.skip 2)
      if suffix = [] || !c.isChar 0 '>' then none
      some (Token.tag [] suffix, c.skip 1)
    else do
      let (handle, closed, c) ← handle? c
      if closed then do
        let (suffix, c) ← tagChars? false fuel c
        if suffix = [] then none
        some (Token.tag handle suffix, c)
      else do
        let (more, c) ← tagChars? false fuel c
        let suffix := handle.drop 1 ++ more
        some (if suffix = [] then Token.tag [] ['!'] else Token.tag ['!'] suffix, c)
  if c.isBlankOrEnd 0 || (l.inFlow && c.isChar 0 ',') then
    some ({ l with cursor := c, keyAllowed := false }.emit t)
  else none

/-! ### Scalars -/

/-- A block scalar. -/
def block? (l : Lexer) (style : Style) : Option Lexer := do
  let l ← l.dropKey?
  let (text, c) ← blockScalar? (style == .literal) l.indent l.cursor
  some ({ l with cursor := c, keyAllowed := true }.emit (.scalar style text))

/-- A quoted scalar. -/
def quoted? (l : Lexer) (single : Bool) : Option Lexer := do
  let l ← l.saveKey?
  let (text, c) ← quotedRest? single (l.cursor.rest.length + 1) (l.cursor.skip 1)
  some ({ l with cursor := c, keyAllowed := false }.emit (.scalar .quoted text))

/-- A plain scalar. After one that is left over a line break a key may begin. -/
def plain? (l : Lexer) : Option Lexer := do
  let l ← l.saveKey?
  let margin := (l.indent + 1).toNat
  let (text, broken, c) ←
    plainRest? l.inFlow margin (l.cursor.rest.length + 1) Folding.none l.cursor
  some ({ l with cursor := c, keyAllowed := broken }.emit (.scalar .plain text))

/-- The characters that no plain scalar begins with, unless a rule of its own admits them. -/
def isIndicator (c : Char) : Bool :=
  ['-', '?', ':', ',', '[', ']', '\x7b', '\x7d', '#', '&', '*', '!', '|', '>', '\'', '"', '%',
    '@', '\x60'].contains c

/-- Whether a plain scalar begins here. -/
def startsPlain (l : Lexer) : Bool :=
  let c := l.cursor
  !(c.isBlankOrEnd 0 || c.at? 0 isIndicator)
    || (c.isChar 0 '-' && !c.at? 1 isGap)
    || (!l.inFlow && (c.isChar 0 '?' || c.isChar 0 ':') && !c.isBlankOrEnd 1)

/-! ### The whole text -/

/-- Read the next token. -/
def next? (l : Lexer) : Option Lexer := do
  let l := l.skipBlanks (l.cursor.rest.length + 1)
  let l ← l.dropStaleKeys?
  let l := l.unindentTo l.cursor.column
  let c := l.cursor
  match c.rest with
  | [] => l.streamEnd?
  | x :: _ =>
    if c.column = 0 && x = '%' then l.directive?
    else if c.isMarker '-' then l.documentMarker? .documentStart
    else if c.isMarker '.' then l.documentMarker? .documentEnd
    else if x = '[' then l.openFlow? .flowSequenceStart
    else if x = '\x7b' then l.openFlow? .flowMappingStart
    else if x = ']' then l.closeFlow? .flowSequenceEnd
    else if x = '\x7d' then l.closeFlow? .flowMappingEnd
    else if x = ',' then l.flowEntry?
    else if x = '-' && c.isBlankOrEnd 1 then l.blockEntry?
    else if x = '?' && (l.inFlow || c.isBlankOrEnd 1) then l.explicitKey?
    else if x = ':' && (l.inFlow || c.isBlankOrEnd 1) then l.value?
    else if x = '*' then l.name? .reference
    else if x = '&' then l.name? .anchor
    else if x = '!' then l.tag?
    else if x = '|' && !l.inFlow then l.block? .literal
    else if x = '>' && !l.inFlow then l.block? .folded
    else if x = '\'' then l.quoted? true
    else if x = '"' then l.quoted? false
    else if l.startsPlain then l.plain?
    else none

/-- Read tokens until the text ends or is at fault. -/
def run : (fuel : Nat) → Lexer → List Token
  | 0, l => l.settled
  | fuel + 1, l =>
    match l.next? with
    | none => l.settled
    | some l =>
      match l.emitted with
      | .streamEnd :: _ => l.emitted
      | _ => run fuel l

end Lexer

/-- The tokens of a text, up to its end or to its first fault. -/
def Token.ofText (cs : List Char) : List Token :=
  if cs.all isPrintable then (Lexer.run (2 * cs.length + 2) (Lexer.start cs)).reverse
  else []

end PipelineConfig.Yaml
