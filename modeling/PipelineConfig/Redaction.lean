/-!
# Redaction

A `Redactor` knows the secrets that must not show. Each secret is known once, in the order of
registration, and the empty text is none. `Redactor.redact` replaces the secrets in a text by
asterisks, one secret after the other: the occurrences of a secret are taken from the left without
overlapping.
-/

namespace PipelineConfig

/-- The known secrets, the first one registered first. -/
structure Redactor where
  secrets : List String
  deriving DecidableEq, Repr

namespace Redactor

/-- No secrets. -/
def empty : Redactor := ⟨[]⟩

/-- Whether a secret is known. -/
def contains (r : Redactor) (secret : String) : Bool :=
  r.secrets.contains secret

/-- Make a secret known. -/
def register (r : Redactor) (secret : String) : Redactor :=
  if secret.isEmpty || r.contains secret then r else ⟨r.secrets ++ [secret]⟩

/-- What stands for a secret. -/
def mask : List Char := ['*', '*', '*', '*']

/-- Replace the occurrences of some characters, after passing over `passed` characters. -/
def maskFrom (secret : List Char) : (passed : Nat) → List Char → List Char
  | _, [] => []
  | passed + 1, _ :: rest => maskFrom secret passed rest
  | 0, c :: rest =>
    if secret.isPrefixOf (c :: rest) then mask ++ maskFrom secret (secret.length - 1) rest
    else c :: maskFrom secret 0 rest

/-- A text without the known secrets. -/
def redact (r : Redactor) (text : String) : String :=
  String.ofList (r.secrets.foldl (fun cs secret => maskFrom secret.toList 0 cs) text.toList)

end Redactor

end PipelineConfig
