import PipelineConfig.Text.Blank

/-!
# Addresses

An address is read the way web addresses are: blanks at its ends and line breaks and tabs inside
are dropped, the scheme and the host are written in lower case, `.` and `..` are taken out of the
path, and characters that may not stand in a part of it are written as the percent-encoded bytes
of their UTF-8 form. An address of the schemes `http` and `https` (and a few others) has a host,
and in it a backslash is as good as a slash; in an address of any other scheme without `//` what
follows the scheme is taken as it stands.
-/

namespace PipelineConfig.Http

/-- An address, in its normal form. -/
structure Url where
  scheme : String
  /-- The host, with the port if it is not that of the scheme. -/
  host? : Option String
  path : String
  query? : Option String
  fragment? : Option String
  deriving DecidableEq, Repr

namespace Url

/-! ### Percent encoding -/

/-- An upper-case hexadecimal digit. -/
def upperHex (n : Nat) : Char :=
  (Nat.digitChar n).toUpper

/-- A byte, percent-encoded. -/
def percentByte (b : UInt8) : List Char :=
  ['%', upperHex (b.toNat / 16), upperHex (b.toNat % 16)]

/-- A character as it is, or percent-encoded if it may not stand there. Controls and whatever is
not ASCII may stand nowhere. -/
def percentChar (forbidden : List Char) (c : Char) : List Char :=
  if c.toNat < 0x20 ∨ 0x7F ≤ c.toNat ∨ c ∈ forbidden then
    c.toString.toUTF8.toList.flatMap percentByte
  else [c]

/-- Percent-encode what may not stand in a part. -/
def percentEncode (forbidden : List Char) (cs : List Char) : String :=
  String.ofList (cs.flatMap (percentChar forbidden))

/-- What may not stand in a fragment. -/
def forbiddenInFragment : List Char := [' ', '"', '<', '>', '\x60']

/-- What may not stand in a path. -/
def forbiddenInPath : List Char := forbiddenInFragment ++ ['#', '?', '\x7b', '\x7d']

/-- What may not stand in a query. -/
def forbiddenInQuery : List Char := [' ', '"', '#', '<', '>']

/-- What may not stand in a host. -/
def forbiddenInHost : List Char :=
  [' ', '#', '/', ':', '<', '>', '?', '@', '[', '\\', ']', '^', '|', '%']

/-! ### Parts -/

/-- The schemes whose addresses always have a host, with their ports. -/
def hostedSchemes : List (String × Nat) :=
  [("http", 80), ("https", 443), ("ws", 80), ("wss", 443), ("ftp", 21)]

/-- What is left of a text when it is read as an address. -/
def cleaned (cs : List Char) : List Char :=
  let outer (c : Char) : Bool := c.toNat ≤ 0x20
  let cs := ((cs.dropWhile outer).reverse.dropWhile outer).reverse
  cs.filter (fun c => c ≠ '\t' ∧ c ≠ '\n' ∧ c ≠ '\r')

/-- Whether a character may stand in a scheme. -/
def isSchemeChar (c : Char) : Bool :=
  c.isAlphanum || c = '+' || c = '-' || c = '.'

/-- The scheme of an address, and what follows its colon. -/
def readScheme? (cs : List Char) : Option (String × List Char) :=
  match Text.cut? ':' cs with
  | some (c :: rest, after) =>
    if c.isAlpha && rest.all isSchemeChar then
      some (Text.lowerAscii (String.ofList (c :: rest)), after)
    else none
  | _ => none

/-- Split off what follows the first occurrence of a character. -/
def cutOff (sep : Char) (cs : List Char) : List Char × Option (List Char) :=
  match Text.cut? sep cs with
  | some (before, after) => (before, some after)
  | none => (cs, none)

/-- The number that decimal digits write. -/
def decimal? (cs : List Char) : Option Nat :=
  if cs.all Char.isDigit then some (cs.foldl (fun n c => 10 * n + (c.toNat - '0'.toNat)) 0)
  else none

/-- Whether a character is a hexadecimal digit of either case. -/
def isHexDigit (c : Char) : Bool :=
  c.isDigit || ('a' ≤ c && c ≤ 'f') || ('A' ≤ c && c ≤ 'F')

/-- Whether a host may be written so; addresses in brackets may. -/
def isHost (cs : List Char) : Bool :=
  match cs with
  | [] => false
  | '[' :: rest =>
    rest.getLast? = some ']'
      && rest.dropLast.all (fun c => isHexDigit c || c = ':' || c = '.')
      && 2 < rest.length
  | cs => cs.all (fun c => 0x20 < c.toNat && c.toNat ≠ 0x7F && !forbiddenInHost.contains c)

/-- Split a host from its port. -/
def hostAndPort (cs : List Char) : List Char × Option (List Char) :=
  match cs with
  | '[' :: _ =>
    let (inside, after) := (cs.takeWhile (· ≠ ']'), cs.dropWhile (· ≠ ']'))
    match after with
    | ']' :: ':' :: port => (inside ++ [']'], some port)
    | after => (inside ++ after, none)
  | cs => cutOff ':' cs

/-- The host of an authority with its port, where it is not the usual one. Who is meant to log in
there is not part of it. -/
def readHost? (usualPort : Option Nat) (authority : List Char) : Option String := do
  let withoutUser := ((Text.splitChars '@' authority).getLast?).getD []
  let (host, port?) := hostAndPort withoutUser
  if !isHost host then none
  else
    let host := Text.lowerAscii (String.ofList host)
    match port? with
    | none => some host
    | some [] => some host
    | some digits => do
      let port ← decimal? digits
      if 65535 < port then none
      else if some port = usualPort then some host
      else some (host ++ ":" ++ toString port)

/-- Whether a segment of a path stands for the place itself. -/
def isHere (segment : String) : Bool :=
  segment = "." || Text.lowerAscii segment = "%2e"

/-- Whether a segment of a path stands for the place above. -/
def isAbove (segment : String) : Bool :=
  ["..", ".%2e", "%2e.", "%2e%2e"].contains (Text.lowerAscii segment)

/-- Take the segments that stand for a place out of a path, which is kept in reverse. -/
def settle : (done : List String) → List String → List String
  | done, [] => done.reverse
  | done, [last] =>
    if isAbove last then ("" :: done.tail).reverse
    else if isHere last then ("" :: done).reverse
    else (last :: done).reverse
  | done, segment :: next :: rest =>
    if isAbove segment then settle done.tail (next :: rest)
    else if isHere segment then settle done (next :: rest)
    else settle (segment :: done) (next :: rest)

/-- The path that some characters write, after the slash that it begins with. -/
def hostedPath (isSeparator : Char → Bool) (cs : List Char) : String :=
  let cs := cs.map (fun c => if isSeparator c then '/' else c)
  let segments := (Text.splitChars '/' cs).map (percentEncode forbiddenInPath)
  "/" ++ "/".intercalate (settle [] segments)

/-! ### Reading -/

/-- Whether a character separates the parts of a path. -/
def isSlash (c : Char) : Bool :=
  c = '/' || c = '\\'

/-- Read an address. -/
def read? (s : String) : Option Url := do
  let (scheme, rest) ← readScheme? (cleaned s.toList)
  let (rest, fragment?) := cutOff '#' rest
  let (rest, query?) := cutOff '?' rest
  let fragment? := fragment?.map (percentEncode forbiddenInFragment)
  match hostedSchemes.lookup scheme with
  | some port =>
    let query? := query?.map (percentEncode ('\'' :: forbiddenInQuery))
    let rest := rest.dropWhile isSlash
    let authority := rest.takeWhile (fun c => !isSlash c)
    let host ← readHost? (some port) authority
    let path := hostedPath isSlash (rest.drop (authority.length + 1))
    some ⟨scheme, some host, path, query?, fragment?⟩
  | none =>
    let query? := query?.map (percentEncode forbiddenInQuery)
    match rest with
    | '/' :: '/' :: rest =>
      let authority := rest.takeWhile (· ≠ '/')
      let path := if rest.length = authority.length then "" else
        hostedPath (· = '/') (rest.drop (authority.length + 1))
      some ⟨scheme, some (String.ofList authority), path, query?, fragment?⟩
    | '/' :: rest => some ⟨scheme, none, hostedPath (· = '/') rest, query?, fragment?⟩
    | rest => some ⟨scheme, none, percentEncode [] rest, query?, fragment?⟩

/-! ### Writing -/

/-- What a server is asked for: path and query. -/
def target (u : Url) : String :=
  u.path ++ (match u.query? with
    | some q => "?" ++ q
    | none => "")

/-- The text of an address. -/
def text (u : Url) : String :=
  u.scheme ++ ":" ++ (match u.host? with
      | some host => "//" ++ host
      | none => "")
    ++ u.target ++ (match u.fragment? with
      | some f => "#" ++ f
      | none => "")

/-- Whether requests can be sent there. -/
def isWeb (u : Url) : Bool :=
  u.scheme = "http" || u.scheme = "https"

end Url

end PipelineConfig.Http
