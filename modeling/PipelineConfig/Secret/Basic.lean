import PipelineConfig.Dialog
import PipelineConfig.Redaction
import PipelineConfig.Resolution.StepConfig
import PipelineConfig.Secret.Error
import PipelineConfig.Secret.Files
import PipelineConfig.Secret.Path

/-!
# Looking up secrets

A lookup asks a key-value store, a service that issues tokens, and whoever keeps the files that
secrets are put into. So it is a `Dialog`; its questions are `SecretQuestion`s.

Someone may fire the cancellation while a provider is asked. Then the lookup does not wait for the
provider any longer, and from there on no provider is asked any more. But the provider may be just
in time: if its outcome is there at the very moment at which the cancellation is noticed, then it
counts, and the lookup goes on with it until it asks again.

What a lookup changes is its `SecretRun`: the configuration of the step, the secrets that must not
show, the directory of the secret files. Changes happen one at a time and are written down in the
order in which they happen, so the journal tells every state that a run has passed through.
-/

namespace PipelineConfig

/-! ### Questions -/

/-- What a lookup asks. -/
inductive SecretQuestion
  /-- The secret at a path of the key-value store. -/
  | read (path : String)
  /-- Tokens for systems. -/
  | issue (systems : List String)
  /-- Something about the files that secrets are put into. -/
  | file (question : SecretFileQuestion)
  deriving DecidableEq, Repr

/-- How a provider answers. -/
inductive Answer (α : Type)
  | found (a : α)
  | failed (e : SecretError)
  /-- The cancellation was fired meanwhile, and no outcome was there. -/
  | interrupted
  /-- The cancellation was fired meanwhile, but the outcome was there at the same moment. -/
  | inTime (outcome : Except SecretError α)

namespace Answer

/-- What a call comes to that is answered like this. -/
def outcome {α : Type} : Answer α → Except SecretError α
  | .found a => .ok a
  | .failed e => .error e
  | .interrupted => .error .cancelled
  | .inTime outcome => outcome

/-- Whether the cancellation was fired meanwhile. -/
def fires {α : Type} : Answer α → Bool
  | .found _ | .failed _ => false
  | .interrupted | .inTime _ => true

end Answer

/-- The replies to each question. -/
def SecretReply : SecretQuestion → Type
  | .read _ => Answer (Option SecretData)
  | .issue _ => Answer (List (String × String))
  | .file question => SecretFileReply question

/-- A computation that asks for secrets. -/
abbrev SecretDialog := Dialog SecretQuestion SecretReply

/-! ### Runs -/

/-- A change that a lookup makes. -/
inductive SecretEvent
  /-- A secret was made known as one that must not show. -/
  | masked (secret : String)
  /-- A secret was put into a file. -/
  | wrote (file content : String)
  /-- A parameter took a value. -/
  | adopted (parameter value : String)
  deriving DecidableEq, Repr

/-- The state of a lookup. -/
structure SecretRun where
  step : StepConfig
  redactor : Redactor
  /-- The directory of the secret files, once there is one. -/
  directory? : Option String
  cancelled : Bool
  /-- The changes so far, the first one first. -/
  journal : List SecretEvent

namespace SecretRun

/-- The state before anything has happened. -/
def start (step : StepConfig) : SecretRun :=
  ⟨step, .empty, none, false, []⟩

/-- What a change does. -/
def apply (s : SecretRun) : SecretEvent → SecretRun
  | .masked secret => { s with redactor := s.redactor.register secret }
  | .wrote _ _ => s
  | .adopted parameter v => { s with step := s.step.put parameter (.string v) }

/-- Make a change and write it down. -/
def perform (s : SecretRun) (e : SecretEvent) : SecretRun :=
  let changed := s.apply e
  { changed with journal := changed.journal ++ [e] }

/-- Take note of whether the cancellation was fired. -/
def heed (s : SecretRun) : (fired : Bool) → SecretRun
  | true => { s with cancelled := true }
  | false => s

/-- Whether a parameter has a value that counts. -/
def hasValue (s : SecretRun) (parameter : String) : Bool :=
  match s.step.get? parameter with
  | some v => !v.isUnset
  | none => false

end SecretRun

/-- A lookup: it asks, changes its state, and may fail; the state stays when it fails. -/
abbrev Lookup := ExceptT SecretError (StateT SecretRun SecretDialog)

namespace Lookup

/-- Carry a lookup on from a state. -/
def runFrom {α : Type} (l : Lookup α) (s : SecretRun) :
    SecretDialog (Except SecretError α × SecretRun) :=
  (ExceptT.run l).run s

/-- Ask a question. -/
def ask (q : SecretQuestion) : Lookup (SecretReply q) :=
  ExceptT.lift (StateT.lift (Dialog.question q))

/-- The state of the lookup. -/
def state : Lookup SecretRun := get

/-- Make a change. -/
def perform (e : SecretEvent) : Lookup Unit :=
  modify (fun s => s.perform e)

/-- Stop if the cancellation was fired. -/
def checkpoint : Lookup Unit := do
  if (← state).cancelled then throw .cancelled

/-- Wait for what a provider answers. -/
def await {α : Type} (provider : Lookup (Answer α)) : Lookup α := do
  let answer ← provider
  modify (fun s => s.heed answer.fires)
  MonadExcept.ofExcept answer.outcome

/-- Ask a provider, unless the cancellation was fired. -/
def consult {α : Type} (provider : Lookup (Answer α)) : Lookup α := do
  checkpoint
  await provider

/-- The secret at a path of the key-value store. -/
def read (path : String) : Lookup (Option SecretData) :=
  consult (ask (.read path))

/-- Tokens for systems. -/
def issue (systems : List String) : Lookup (List (String × String)) :=
  consult (ask (.issue systems))

end Lookup

end PipelineConfig
