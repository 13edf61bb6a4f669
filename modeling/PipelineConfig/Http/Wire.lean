import PipelineConfig.Http.Message

/-!
# Messages as bytes

A request goes to its server as bytes, and the server closes the connection behind its response; so
the content of the response is all that follows its head. The head is made of lines, and an empty
line ends it.
-/

namespace PipelineConfig.Http

/-- The name of the server that an address leads to, and the number of the door there. -/
def Url.server? (u : Url) : Option (String × Nat) := do
  let host ← u.host?
  let (name, digits?) := Url.hostAndPort host.toList
  let port ← (digits?.bind Url.decimal?).or (Url.hostedSchemes.lookup u.scheme)
  some (String.ofList name, port)

/-- Lines as they are sent. -/
def sentLines (lines : List String) : String :=
  String.join (lines.map (fun line => line ++ "\r\n"))

/-- The headers of a request, those that the connection needs among them. -/
def Request.allHeaders (r : Request) : List (String × String) :=
  ("host", r.url.host?.getD "") :: r.headers
    ++ (if r.body.isEmpty then [] else [("content-length", toString r.body.utf8ByteSize)])

/-- The bytes of a request. -/
def Request.wire (r : Request) : ByteArray :=
  let first := r.method.name ++ " " ++ r.url.target ++ " HTTP/1.0"
  let head := first :: r.allHeaders.map (fun (name, v) => name ++ ": " ++ v) ++ [""]
  (sentLines head ++ r.body).toUTF8

/-- Split a message at the end of its head. -/
def splitHead? : List UInt8 → Option (List UInt8 × List UInt8)
  | [] => none
  | 13 :: 10 :: 13 :: 10 :: content => some ([], content)
  | b :: rest => (splitHead? rest).map (fun (head, content) => (b :: head, content))

/-- The text of some bytes. -/
def textOf? (bytes : List UInt8) : Option String :=
  String.fromUTF8? ⟨bytes.toArray⟩

/-- The status that the first line of a response tells. -/
def Status.ofHead? (head : String) : Option Status :=
  match Text.splitOn ' ' head with
  | version :: code :: _ =>
    if Text.startsWith "HTTP/" version && code.length = 3 then Url.decimal? (code.toList.take 3)
    else none
  | _ => none

/-- Read a response. Content that is no text is as good as none. -/
def Response.ofWire? (bytes : ByteArray) : Option Response := do
  let (head, content) ← splitHead? bytes.toList
  let status ← (textOf? head).bind Status.ofHead?
  some ⟨status, (textOf? content).getD ""⟩

end PipelineConfig.Http
