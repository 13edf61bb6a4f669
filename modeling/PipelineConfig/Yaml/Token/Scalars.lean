import PipelineConfig.Yaml.Token
import PipelineConfig.Yaml.Cursor

/-!
# The scalars of YAML texts

Each way of writing a scalar has its own reading: plain, between single or double quotes, and as a
block that keeps or folds its lines. All of them fold in the same way: a single break between
words becomes a space, and of several breaks the first one goes away.

Loops over the text carry `fuel`, which callers set to more than the number of characters left.
-/

namespace PipelineConfig.Yaml

/-- What blanks between two words of a folded scalar amount to: `gap` are the blanks of one line,
`first` and `more` the breaks once a line has ended. -/
structure Folding where
  broken : Bool
  gap : List Char
  first : List Char
  more : List Char

namespace Folding

/-- No blanks. -/
def none : Folding := ⟨false, [], [], []⟩

/-- The text that the blanks leave between two words. -/
def text (f : Folding) : List Char :=
  if f.broken then
    if f.first = ['\n'] then (if f.more = [] then [' '] else f.more)
    else f.first ++ f.more
  else f.gap

/-- Take the blanks and breaks that follow. `margin?` is the column below which a tab at the
beginning of a line is a fault. -/
def take? (margin? : Option Nat) : (fuel : Nat) → Folding → Cursor → Option (Folding × Cursor)
  | 0, f, c => some (f, c)
  | fuel + 1, f, c =>
    match c.rest with
    | [] => some (f, c)
    | x :: _ =>
      if isGap x then
        let tooFarLeft := match margin? with
          | some margin => f.broken && x == '\t' && c.column < margin
          | _ => false
        if tooFarLeft then Option.none
        else take? margin? fuel (if f.broken then f else { f with gap := f.gap ++ [x] }) (c.skip 1)
      else if isBreak x then
        let (b, c) := c.takeBreak
        let f : Folding :=
          if f.broken then { f with more := f.more ++ b }
          else { broken := true, gap := [], first := b, more := [] }
        take? margin? fuel f c
      else some (f, c)

end Folding

/-! ### Quoted scalars -/

/-- The character that a letter after a backslash stands for in double quotes. -/
def escape? : Char → Option Char
  | '0' => some (Char.ofNat 0)
  | 'a' => some (Char.ofNat 7)
  | 'b' => some (Char.ofNat 8)
  | 't' => some '\t'
  | '\t' => some '\t'
  | 'n' => some '\n'
  | 'v' => some (Char.ofNat 11)
  | 'f' => some (Char.ofNat 12)
  | 'r' => some '\r'
  | 'e' => some (Char.ofNat 27)
  | ' ' => some ' '
  | '"' => some '"'
  | '/' => some '/'
  | '\\' => some '\\'
  | 'N' => some (Char.ofNat 0x85)
  | '_' => some (Char.ofNat 0xA0)
  | 'L' => some (Char.ofNat 0x2028)
  | 'P' => some (Char.ofNat 0x2029)
  | _ => none

/-- The number of hexadecimal digits that a letter after a backslash announces. -/
def codeLength? : Char → Option Nat
  | 'x' => some 2
  | 'u' => some 4
  | 'U' => some 8
  | _ => none

/-- The value of a hexadecimal digit. -/
def hexDigit? (c : Char) : Option Nat :=
  if '0' ≤ c ∧ c ≤ '9' then some (c.toNat - '0'.toNat)
  else if 'a' ≤ c ∧ c ≤ 'f' then some (c.toNat - 'a'.toNat + 10)
  else if 'A' ≤ c ∧ c ≤ 'F' then some (c.toNat - 'A'.toNat + 10)
  else none

/-- The character whose code the next digits write. -/
def codePoint? (digits : List Char) (length : Nat) : Option Char := do
  if digits.length ≠ length then none
  let n ← digits.foldlM (fun n d => (hexDigit? d).map (fun v => 16 * n + v)) 0
  if (0xD800 ≤ n ∧ n ≤ 0xDFFF) ∨ 0x10FFFF < n then none else some (Char.ofNat n)

/-- One word of a quoted scalar: up to a blank, a break or the closing quote. The flag says that
an escaped break has ended the word. -/
def quotedWord? (single : Bool) : (fuel : Nat) → Cursor → Option (List Char × Bool × Cursor)
  | 0, _ => none
  | fuel + 1, c =>
    match c.rest with
    | [] => some ([], false, c)
    | x :: rest =>
      if isGap x || isBreak x then some ([], false, c)
      else if single then
        if x = '\'' then
          match rest with
          | '\'' :: _ => cons? '\'' (quotedWord? single fuel (c.skip 2))
          | _ => some ([], false, c)
        else cons? x (quotedWord? single fuel (c.skip 1))
      else if x = '"' then some ([], false, c)
      else if x = '\\' then
        match rest with
        | [] => none
        | e :: digits =>
          if isBreak e then some ([], true, (c.skip 1).takeBreak.2)
          else match codeLength? e with
            | some n =>
              match codePoint? (digits.take n) n with
              | some y => cons? y (quotedWord? single fuel (c.skip (2 + n)))
              | none => none
            | none =>
              match escape? e with
              | some y => cons? y (quotedWord? single fuel (c.skip 2))
              | none => none
      else cons? x (quotedWord? single fuel (c.skip 1))
where
  /-- Put a character in front of a word. -/
  cons? (x : Char) : Option (List Char × Bool × Cursor) → Option (List Char × Bool × Cursor)
    | some (w, escaped, c) => some (x :: w, escaped, c)
    | none => none

/-- The rest of a quoted scalar after its opening quote, and the place after the closing one. -/
def quotedRest? (single : Bool) : (fuel : Nat) → Cursor → Option (List Char × Cursor)
  | 0, _ => none
  | fuel + 1, c =>
    if c.isDocumentMarker || c.isEnd 0 then none
    else match quotedWord? single (fuel + 1) c with
      | none => none
      | some (word, escaped, c) =>
        if c.isChar 0 (if single then '\'' else '"') then some (word, c.skip 1)
        else
          let f : Folding := { Folding.none with broken := escaped }
          match Folding.take? none (fuel + 1) f c with
          | none => none
          | some (f, c) =>
            match quotedRest? single fuel c with
            | none => none
            | some (more, c) => some (word ++ f.text ++ more, c)

/-! ### Plain scalars -/

/-- The characters that end a plain scalar inside brackets. -/
def isFlowIndicator (c : Char) : Bool :=
  c = ',' || c = '[' || c = ']' || c = '\x7b' || c = '\x7d'

/-- One word of a plain scalar. A colon right before a bracket is a fault inside brackets. -/
def plainWord? (inFlow : Bool) : (fuel : Nat) → Cursor → Option (List Char × Cursor)
  | 0, _ => none
  | fuel + 1, c =>
    match c.rest with
    | [] => some ([], c)
    | x :: _ =>
      if isGap x || isBreak x then some ([], c)
      else if inFlow && x = ':' && c.at? 1 (fun y => isFlowIndicator y || y = '?') then none
      else if (x = ':' && c.isBlankOrEnd 1) || (inFlow && isFlowIndicator x) then some ([], c)
      else match plainWord? inFlow fuel (c.skip 1) with
        | none => none
        | some (w, c) => some (x :: w, c)

/-- The words of a plain scalar, `folded` being what stands before the next word. The last flag
says that the scalar was left over a line break. -/
def plainRest? (inFlow : Bool) (margin : Nat) :
    (fuel : Nat) → Folding → Cursor → Option (List Char × Bool × Cursor)
  | 0, _, _ => none
  | fuel + 1, f, c =>
    if c.isDocumentMarker || c.isChar 0 '#' then some ([], f.broken, c)
    else match plainWord? inFlow (fuel + 1) c with
      | none => none
      | some (word, c) =>
        let lead := if word = [] then [] else f.text
        let f := if word = [] then f else Folding.none
        if !c.at? 0 (fun x => isGap x || isBreak x) then some (lead ++ word, f.broken, c)
        else match Folding.take? (some margin) (fuel + 1) f c with
          | none => none
          | some (f, c) =>
            if !inFlow && c.column < margin then some (lead ++ word, f.broken, c)
            else match plainRest? inFlow margin fuel f c with
              | none => none
              | some (more, broken, c) => some (lead ++ word ++ more, broken, c)

/-! ### Block scalars -/

/-- What becomes of the breaks at the end of a block scalar. -/
inductive Chomping
  | strip | clip | keep
  deriving DecidableEq

/-- The breaks before the next line of a block scalar that is not empty. `indent?` is the
indentation if it is known already, and `deepest` the deepest column seen. -/
def blockBreaks? (indent? : Option Nat) :
    (fuel deepest : Nat) → List Char → Cursor → Option (List Char × Nat × Cursor)
  | 0, _, _, _ => none
  | fuel + 1, deepest, breaks, c =>
    let allowed := match indent? with
      | some indent => indent - c.column
      | none => c.rest.length
    let c := c.skip (min allowed (c.rest.takeWhile (· == ' ')).length)
    let deepest := max deepest c.column
    let before := match indent? with
      | some indent => decide (c.column < indent)
      | none => true
    if before && c.isChar 0 '\t' then none
    else if c.at? 0 isBreak then
      let (b, c) := c.takeBreak
      blockBreaks? indent? fuel deepest (breaks ++ b) c
    else some (breaks, deepest, c)

/-- The lines of a block scalar. `lead` is the break that ended the line before, `breaks` the
empty lines after it, and `spaced` says that the line before began with a blank. -/
def blockLines? (literal : Bool) (chomping : Chomping) (indent : Nat) :
    (fuel : Nat) → (lead breaks : List Char) → (spaced : Bool) → Cursor →
    Option (List Char × Cursor)
  | 0, _, _, _, _ => none
  | fuel + 1, lead, breaks, spaced, c =>
    if c.column = indent && !c.isEnd 0 then
      let blank := c.at? 0 isGap
      let joint :=
        if !literal && lead = ['\n'] && !spaced && !blank then
          (if breaks = [] then [' '] else breaks)
        else lead ++ breaks
      let (line, c) := c.takeWhile (fun x => !isBreak x)
      let (lead, c) := c.takeBreak
      match blockBreaks? (some indent) (fuel + 1) 0 [] c with
      | none => none
      | some (breaks, _, c) =>
        match blockLines? literal chomping indent fuel lead breaks blank c with
        | none => none
        | some (more, c) => some (joint ++ line ++ more, c)
    else
      let tail := match chomping with
        | .strip => []
        | .clip => lead
        | .keep => lead ++ breaks
      some (tail, c)

/-- The indicators behind the `|` or `>` of a block scalar: chomping and, when it is given, the
depth of its indentation, in either order. -/
def blockHeader? (c : Cursor) : Option (Chomping × Option Nat × Cursor) :=
  let chomping? (c : Cursor) : Option (Chomping × Cursor) :=
    if c.isChar 0 '+' then some (.keep, c.skip 1)
    else if c.isChar 0 '-' then some (.strip, c.skip 1)
    else none
  let depth? (c : Cursor) : Option (Option Nat × Cursor) :=
    match c.rest with
    | x :: _ =>
      if x = '0' then none
      else if x.isDigit then some (some (x.toNat - '0'.toNat), c.skip 1)
      else some (none, c)
    | [] => some (none, c)
  match chomping? c with
  | some (chomping, c) => (depth? c).map (fun (d, c) => (chomping, d, c))
  | none =>
    match depth? c with
    | none => none
    | some (none, c) => some (.clip, none, c)
    | some (some d, c) =>
      match chomping? c with
      | some (chomping, c) => some (chomping, some d, c)
      | none => some (.clip, some d, c)

/-- A block scalar, starting at its `|` or `>`; `outer` is the indentation around it, `-1` at the
top level. -/
def blockScalar? (literal : Bool) (outer : Int) (c : Cursor) : Option (List Char × Cursor) := do
  let (chomping, depth?, c) ← blockHeader? (c.skip 1)
  let c ← c.finishLine?
  let fuel := c.rest.length + 2
  let indent? := depth?.map (fun d => (if 0 ≤ outer then outer.toNat else 0) + d)
  let (breaks, deepest, c) ← blockBreaks? indent? fuel 0 [] c
  let indent := indent?.getD (max (max deepest (outer + 1).toNat) 1)
  blockLines? literal chomping indent fuel [] breaks false c

end PipelineConfig.Yaml
