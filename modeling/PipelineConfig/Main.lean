import Std.Async.DNS
import Std.Async.TCP
import PipelineConfig.CommandLine.Supplies
import PipelineConfig.Disk.Glob
import PipelineConfig.Http.Wire

/-!
# The program on a machine

Here the program meets files, environment and network; what it does with them stands in
`CommandLine.run`. What a run may look at is fetched before it begins, so patterns are matched
against the working directory as it is then, and see nothing outside it. Requests go to servers
without encryption: to an address of the scheme `https` none is sent, and it stays without a
response.
-/

namespace PipelineConfig.Machine

/-! ### Files -/

/-- The message of a failure that has a number. -/
def numbered (details : String) (code : UInt32) : String :=
  details ++ " (os error " ++ toString code ++ ")"

/-- The failure to open, read or write that the system reports. -/
def failureOf : IO.Error → IoFailure
  | .noFileOrDirectory _ _ _ => .notFound
  | .permissionDenied _ code details => ⟨.permissionDenied, numbered details code⟩
  | .inappropriateType _ code details => ⟨.other, numbered details code⟩
  | .invalidArgument _ code details => ⟨.invalidInput, numbered details code⟩
  | e => ⟨.other, toString e⟩

/-- Go on without what could not be done. -/
def attempt {α : Type} (action : IO α) : IO (Except IoFailure α) := do
  match ← action.toBaseIO with
  | .ok a => pure (.ok a)
  | .error e => pure (.error (failureOf e))

/-- Open a file and read it. A directory opens too, but cannot be read. -/
def fetch (name : String) : IO (Except IoFailure ByteStream) := do
  let path := (← IO.currentDir).join name
  if name.isEmpty then pure (.error .notFound)
  else if ← path.isDir then pure (.ok ⟨.empty, some .isDirectory⟩)
  else return (← attempt (IO.FS.readBinFile path)).map (fun bytes => ⟨bytes, none⟩)

/-- Fetch files by name. -/
def fetchAll (names : List String) : IO (List (String × Except IoFailure ByteStream)) :=
  names.mapM (fun name => return (name, ← fetch name))

/-- Open files out of those that were fetched. -/
def openFetched (fetched : List (String × Except IoFailure ByteStream)) : OpenFile :=
  openLocalFile (fun name => (fetched.lookup name).getD (.error .notFound))

/-- The places of everything below a directory; links to directories are not followed. -/
partial def survey (folder : List String) : IO (List (Place × Bool)) := do
  let path := folder.foldl (fun path name => path.join name) (← IO.currentDir)
  match ← attempt path.readDir with
  | .error _ => pure []
  | .ok found => do
    let below ← found.toList.mapM (fun e => do
      let place := folder ++ [e.fileName]
      let isFolder ← e.path.isDir
      let isLink := match ← attempt e.path.symlinkMetadata with
        | .ok data => data.type == .symlink
        | .error _ => true
      let rest ← if isFolder && !isLink then survey place else pure []
      pure ((place, isFolder) :: rest))
    pure below.flatten

/-- The working directory, without what is in its files. -/
def workingDirectory : IO Disk := do
  let places ← survey []
  pure (.ofFiles (places.map (fun (place, isFolder) =>
    ("/".intercalate place, if isFolder then none else some .empty))))

/-- The files by the name `package.json` in a working directory. -/
def packageFiles (d : Disk) : List String :=
  (d.glob Checks.packagePattern).toOption.getD []

/-! ### The world of a run -/

/-- Everything that a run may look at. -/
def worldFor (a : CommandLine.Arguments) : IO CommandLine.World := do
  let named ← fetchAll a.namedFiles
  let disk ← if a.looksForFiles then workingDirectory else pure .empty
  let further ← fetchAll (a.furtherFiles (openFetched named) ++ packageFiles disk)
  let openFile := openFetched (named ++ further)
  let env ← (a.variableNames openFile).mapM (fun name => return (name, ← IO.getEnv name))
  pure ⟨openFile, disk.glob, fun name => (env.lookup name).getD none⟩

/-! ### Replies -/

/-- Receive until the server closes the connection. -/
partial def receive (socket : Std.Async.TCP.Socket.Client) (bytes : ByteArray) :
    Std.Async.Async ByteArray := do
  match ← socket.recv? 65536 with
  | none => pure bytes
  | some more => receive socket (bytes ++ more)

/-- The socket address of a door at an address of a machine. -/
def door (number : UInt16) : Std.Net.IPAddr → Std.Net.SocketAddress
  | .v4 address => .v4 ⟨address, number⟩
  | .v6 address => .v6 ⟨address, number⟩

/-- Send a request to a server, and wait for the response. -/
def exchange (name : String) (number : Nat) (request : Http.Request) :
    Std.Async.Async (Option Http.Response) := do
  match (← Std.Async.DNS.getAddrInfo name (toString number))[0]? with
  | none => pure none
  | some address => do
    let socket ← Std.Async.TCP.Socket.Client.mk
    socket.connect (door number.toUInt16 address)
    socket.send request.wire
    let bytes ← receive socket .empty
    pure (Http.Response.ofWire? bytes)

/-- The response to a request, if there is one. -/
def responseTo (request : Http.Request) : IO (Option Http.Response) := do
  match request.url.server? with
  | none => pure none
  | some (name, number) =>
    if request.url.scheme ≠ "http" then pure none
    else return (← attempt (exchange name number request).block).toOption.join

/-- The path of a new file in a directory, whose name begins with that of a parameter. -/
def newFileIn (directory parameter : String) : IO String := do
  let ending ← IO.rand 100000 999999
  pure (directory ++ "/" ++ parameter ++ toString ending)

/-- Answer a question about secret files. -/
def replyOnFile : (q : SecretFileQuestion) → IO (SecretFileReply q)
  | .makeDirectory => attempt (return (← IO.FS.createTempDir).toString)
  | .write directory parameter content => attempt do
    let path ← newFileIn directory parameter
    IO.FS.writeFile path content
    IO.setAccessRights path ⟨⟨true, true, false⟩, ⟨false, false, false⟩, ⟨false, false, false⟩⟩
    pure path
  | .removeDirectory directory => attempt (IO.FS.removeDirAll directory)

/-- Answer a question of the program. -/
def reply : (q : CommandLine.ProgramQuestion) → IO (CommandLine.ProgramReply q)
  | .send request => responseTo request
  | .write path content => attempt (IO.FS.writeFile path content)
  | .file question => replyOnFile question

end PipelineConfig.Machine

open PipelineConfig in
/-- Run the program, and say what it says. -/
def main (args : List String) : IO UInt32 := do
  let world ← match CommandLine.Arguments.read args with
    | .ok a => Machine.worldFor a
    | .error _ => pure ⟨fun _ => .error .notFound, fun _ => .ok [], fun _ => none⟩
  let ending ← (CommandLine.run world args).carry Machine.reply
  IO.print ending.output
  ending.lines.forM (fun line => IO.eprintln line)
  pure ending.code.toUInt32
