/-!
# Blank space, trimming and splitting

Texts are trimmed of the characters that Unicode calls white space, which is more than the ASCII
blanks: no-break and ideographic spaces count as well. Everything here works on lists of
characters; `Text.trim` and `Text.splitOn` are the forms for `String`.
-/

namespace PipelineConfig.Text

/-- The characters with the Unicode property White_Space. -/
def isBlank (c : Char) : Bool :=
  let n := c.toNat
  (9 ≤ n && n ≤ 13) || n = 0x20 || n = 0x85 || n = 0xA0 || n = 0x1680
    || (0x2000 ≤ n && n ≤ 0x200A) || n = 0x2028 || n = 0x2029 || n = 0x202F
    || n = 0x205F || n = 0x3000

/-- Drop blanks from both ends. -/
def trimChars (cs : List Char) : List Char :=
  ((cs.dropWhile isBlank).reverse.dropWhile isBlank).reverse

/-- A text without the blanks at its ends. -/
def trim (s : String) : String :=
  String.ofList (trimChars s.toList)

/-- Whether a text holds nothing but blanks. -/
def isBlankText (s : String) : Bool :=
  s.toList.all isBlank

/-- The segments between the occurrences of a separator; never empty. -/
def splitChars (sep : Char) : List Char → List (List Char)
  | [] => [[]]
  | c :: rest =>
    if c = sep then [] :: splitChars sep rest
    else match splitChars sep rest with
      | [] => [[c]]
      | seg :: segs => (c :: seg) :: segs

/-- The segments of a text between the occurrences of a separator. -/
def splitOn (sep : Char) (s : String) : List String :=
  (splitChars sep s.toList).map String.ofList

/-- What stands before and after the first occurrence of a character, if it occurs. -/
def cut? (sep : Char) : List Char → Option (List Char × List Char)
  | [] => none
  | c :: rest =>
    if c = sep then some ([], rest)
    else (cut? sep rest).map (fun p => (c :: p.1, p.2))

/-- Whether one text begins with another. -/
def startsWith (start : String) (s : String) : Bool :=
  start.toList.isPrefixOf s.toList

/-- A text without the occurrences of a character at its beginning. -/
def stripStart (c : Char) (s : String) : String :=
  String.ofList (s.toList.dropWhile (· == c))

/-- A text without the occurrences of a character at its end. -/
def stripEnd (c : Char) (s : String) : String :=
  String.ofList ((s.toList.reverse.dropWhile (· == c)).reverse)

/-- ASCII letters in lower case, everything else as it is. -/
def lowerAscii (s : String) : String :=
  String.ofList (s.toList.map Char.toLower)

end PipelineConfig.Text
