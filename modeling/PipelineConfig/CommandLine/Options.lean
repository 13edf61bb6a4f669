import PipelineConfig.Text.Blank

/-!
# Options on a command line

A command takes options, and may hand the rest of the line on to one of its subcommands. An option
is written with two dashes and its name, or with one dash and its letter; letters without values
may be written together. A value follows the option or is attached to it: `--name=value`,
`-l=value`, `-lvalue`. What begins with a dash is never the value that follows.

A value is looked at when the next option or the end of the line shows that it is complete, so of
two mistakes the one that stands first is not always the one that is reported.
-/

namespace PipelineConfig.CommandLine

/-- What is wrong with a command line, or what it asks for instead of a command. -/
inductive UsageFault
  | unknownArgument
  | unknownSubcommand
  /-- An option that needs a value has none. -/
  | noValue
  /-- A value is not one that the option takes. -/
  | badValue
  /-- An option that takes no value has one. -/
  | needlessValue
  /-- An option that may be given once is given again. -/
  | givenTwice
  | missingArgument
  | missingSubcommand
  /-- There is nothing at all on the line. -/
  | nothingGiven
  | helpWanted
  | versionWanted
  deriving DecidableEq, Repr

/-- What an option does. -/
inductive OptionKind
  /-- It is given or not. -/
  | flag
  /-- It takes a value, and may be given once. -/
  | single
  /-- It takes a value each time that it is given. -/
  | repeated
  | help
  | version
  deriving DecidableEq, Repr

/-- An option. -/
structure OptionSpec where
  name : String
  letter? : Option Char
  kind : OptionKind
  /-- Whether a value is one that the option takes. -/
  admits : String → Bool

namespace OptionSpec

/-- Whether the option takes a value. -/
def takesValue (o : OptionSpec) : Bool :=
  o.kind = .single || o.kind = .repeated

end OptionSpec

/-- A command: its options and its subcommands. -/
structure CommandSpec where
  options : List OptionSpec
  subcommands : List String

/-- What has been read of the options of a command. -/
structure OptionValues where
  /-- The options that were given, each with its value; flags have the empty one. -/
  given : List (String × String)
  /-- The option that was read last, as long as its value may be missing or has not been looked
  at. -/
  pending? : Option (OptionSpec × Option String)

namespace OptionValues

/-- Nothing has been read. -/
def start : OptionValues := ⟨[], none⟩

/-- Whether an option was given. -/
def has (r : OptionValues) (name : String) : Bool :=
  r.given.any (fun g => g.1 = name)

/-- The values of an option. -/
def values (r : OptionValues) (name : String) : List String :=
  (r.given.filter (fun g => g.1 = name)).map Prod.snd

/-- The value of an option that may be given once. -/
def value? (r : OptionValues) (name : String) : Option String :=
  (r.values name).head?

/-- Take an option with its value. -/
def take (r : OptionValues) (o : OptionSpec) (v : String) : Except UsageFault OptionValues :=
  if o.kind ≠ .repeated && r.has o.name then .error .givenTwice
  else if o.takesValue && !o.admits v then .error .badValue
  else .ok { r with given := r.given ++ [(o.name, v)] }

/-- Look at the value of the option that was read last. -/
def settle (r : OptionValues) : Except UsageFault OptionValues :=
  match r.pending? with
  | none => .ok r
  | some (_, none) => .error .noValue
  | some (o, some v) => OptionValues.take { r with pending? := none } o v

/-- Whether the option that was read last has no value yet. -/
def awaitsValue (r : OptionValues) : Bool :=
  match r.pending? with
  | some (_, none) => true
  | _ => false

/-- Give the option that was read last its value. -/
def supply (r : OptionValues) (v : String) : OptionValues :=
  { r with pending? := r.pending?.map (fun (o, _) => (o, some v)) }

/-- Read an option without a value. -/
def readFlag (r : OptionValues) (o : OptionSpec) : Except UsageFault OptionValues := do
  let r ← r.settle
  match o.kind with
  | .help => .error .helpWanted
  | .version => .error .versionWanted
  | _ => r.take o ""

/-- Read an option that takes a value, which may be attached to it. -/
def readValued (r : OptionValues) (o : OptionSpec) (attached? : Option String) :
    Except UsageFault OptionValues := do
  let r ← r.settle
  match attached? with
  | some v => r.take o v
  | none => .ok { r with pending? := some (o, none) }

end OptionValues

namespace CommandSpec

/-- The option with a name. -/
def named? (c : CommandSpec) (name : String) : Option OptionSpec :=
  c.options.find? (fun o => o.name = name)

/-- The option with a letter. -/
def lettered? (c : CommandSpec) (letter : Char) : Option OptionSpec :=
  c.options.find? (fun o => o.letter? = some letter)

/-- Read an option by name, after its dashes. -/
def readNamed (c : CommandSpec) (r : OptionValues) (cs : List Char) :
    Except UsageFault OptionValues :=
  let (name, attached?) := match Text.cut? '=' cs with
    | some (name, v) => (name, some (String.ofList v))
    | none => (cs, none)
  match c.named? (String.ofList name) with
  | none => .error .unknownArgument
  | some o =>
    if o.takesValue then r.readValued o attached?
    else if attached?.isSome then .error .needlessValue
    else r.readFlag o

/-- Read options by their letters, after the dash. -/
def readLetters (c : CommandSpec) : OptionValues → List Char → Except UsageFault OptionValues
  | r, [] => .ok r
  | r, letter :: rest =>
    match c.lettered? letter with
    | none => .error .unknownArgument
    | some o =>
      if o.takesValue then
        let attached? := match rest with
          | [] => none
          | '=' :: v => some (String.ofList v)
          | v => some (String.ofList v)
        r.readValued o attached?
      else do
        let r ← r.readFlag o
        readLetters c r rest

/-- What is wrong with an argument that is no option. -/
def strayFault (c : CommandSpec) (afterDashes : Bool) (arg : String) : UsageFault :=
  if c.subcommands.isEmpty || (afterDashes && c.subcommands.contains arg) then .unknownArgument
  else .unknownSubcommand

/-- What comes of asking for help on something. -/
def helpFault (c : CommandSpec) : List String → UsageFault
  | [] => .helpWanted
  | [name] => if c.subcommands.contains name then .helpWanted else .unknownSubcommand
  | _ => .unknownSubcommand

/-- Read the options of a command up to its subcommand, which is given with the rest of the line.
The subcommand `help` ends the reading. -/
def read (c : CommandSpec) : OptionValues → List String →
    Except UsageFault (OptionValues × Option (String × List String))
  | r, [] => .ok (r, none)
  | r, arg :: rest =>
    if !r.awaitsValue && c.subcommands.contains arg then
      if arg = "help" then .error (c.helpFault rest) else .ok (r, some (arg, rest))
    else match arg.toList with
      | ['-', '-'] =>
        match rest with
        | [] => .ok (r, none)
        | stray :: _ => .error (c.strayFault true stray)
      | '-' :: '-' :: cs => do
        let r ← c.readNamed r cs
        read c r rest
      | '-' :: letter :: cs => do
        let r ← c.readLetters r (letter :: cs)
        read c r rest
      | _ =>
        if r.awaitsValue then read c (r.supply arg) rest
        else .error (c.strayFault false arg)

end CommandSpec

end PipelineConfig.CommandLine
