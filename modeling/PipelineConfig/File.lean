/-!
# Files and their failures

The library never touches a disk. Whoever uses it passes in an `OpenFile`, which answers a name
with the bytes behind it or says why there are none; reading may still fail after some of the
bytes. Text is UTF-8, and a stream that is not fails at its end.
-/

namespace PipelineConfig

/-- Why a file cannot be opened or read. -/
inductive IoCause
  | notFound | permissionDenied | unsupported | invalidData | invalidInput
  | isDirectory | notDirectory | nameTooLong | other
  deriving DecidableEq, Repr

/-- A failure to open or read a file, with its own message. -/
structure IoFailure where
  cause : IoCause
  message : String
  deriving DecidableEq, Repr

/-- What is behind a name: some bytes, after which reading may fail. -/
structure ByteStream where
  bytes : ByteArray
  failure? : Option IoFailure

/-- A way to open files by name. -/
abbrev OpenFile := String → Except IoFailure ByteStream

/-- The stream of a text. -/
def ByteStream.ofText (s : String) : ByteStream :=
  ⟨s.toUTF8, none⟩

namespace IoFailure

/-- There is nothing of that name. -/
def notFound : IoFailure :=
  ⟨.notFound, "No such file or directory (os error 2)"⟩

/-- A file stands where a directory should be. -/
def notDirectory : IoFailure :=
  ⟨.notDirectory, "Not a directory (os error 20)"⟩

/-- A directory stands where a file should be. -/
def isDirectory : IoFailure :=
  ⟨.isDirectory, "Is a directory (os error 21)"⟩

/-- Part of a name is longer than names may be. -/
def nameTooLong : IoFailure :=
  ⟨.nameTooLong, "File name too long (os error 36)"⟩

/-- The name cannot be a name. -/
def notAName : IoFailure :=
  ⟨.invalidInput, "file name contained an unexpected NUL byte"⟩

/-- The bytes are no text. -/
def notUtf8 : IoFailure :=
  ⟨.invalidData, "stream did not contain valid UTF-8"⟩

end IoFailure

/-- Read a stream to its end as text. -/
def ByteStream.readText (s : ByteStream) : Except IoFailure String :=
  match s.failure? with
  | some failure => .error failure
  | none =>
    match String.fromUTF8? s.bytes with
    | some text => .ok text
    | none => .error .notUtf8

/-- The stream of a text reads as the text. -/
theorem ByteStream.readText_ofText (s : String) : (ofText s).readText = .ok s := by
  have h : String.fromUTF8? s.toUTF8 = some s := dif_pos s.isValidUTF8
  simp only [readText, ofText, h]

end PipelineConfig
