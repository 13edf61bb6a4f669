import PipelineConfig.Metadata.Basic
import PipelineConfig.Resolution.Context
import PipelineConfig.Value.Merge

/-!
# Aliases

Before a section of a document is merged, the parameters that it may set are brought under their
own names: a parameter without a value takes the value of the first of its aliases that has one.
Then the plain aliases are dropped, as long as they are not parameters themselves; the path aliases
stay, because what they lead into may be a parameter of its own.
-/

namespace PipelineConfig

/-- The value that a path of names leads to through nested mappings. -/
def Mapping.walk? (m : Mapping) : List String → Option Value
  | [] => none
  | [name] => Assoc.get? m name
  | name :: rest =>
    match Assoc.get? m name with
    | some (.mapping inner) => walk? inner rest
    | _ => none

namespace Alias

/-- The names on the path of an alias. -/
def path (a : Alias) : List String :=
  Text.splitOn '/' a.name

/-- Whether an alias is a plain name. -/
def isFlat (a : Alias) : Bool :=
  !a.name.toList.contains '/'

/-- The value that a section has at an alias; null counts as none. -/
def value? (a : Alias) (m : Mapping) : Option Value :=
  match m.walk? a.path with
  | some v => if v.isNull then none else some v
  | none => none

end Alias

namespace Parameter

/-- The first alias with a value in a section, and the value. -/
def aliased? (p : Parameter) (m : Mapping) : Option (Alias × Value) :=
  p.aliases.findSome? (fun a => (a.value? m).map (fun v => (a, v)))

/-- Bring one parameter under its own name, and say which deprecated alias that took. -/
def canonicalize (p : Parameter) (m : Mapping) : Mapping × List AliasUse :=
  if (m.nonNull? p.name).isSome then (m, [])
  else match p.aliased? m with
    | some (a, v) =>
      (Assoc.insert m p.name v, if a.deprecated then [⟨a.name, p.name⟩] else [])
    | none => (m, [])

end Parameter

/-- Bring parameters under their own names, one after the other. -/
def canonicalizeAll : List Parameter → Mapping → Mapping × List AliasUse
  | [], m => (m, [])
  | p :: rest, m =>
    let (m, uses) := p.canonicalize m
    let (m, more) := canonicalizeAll rest m
    (m, uses ++ more)

/-- The plain aliases of some parameters. -/
def flatAliases (parameters : List Parameter) : List String :=
  (parameters.flatMap Parameter.aliases).filterMap (fun a => if a.isFlat then some a.name else none)

/-- Apply the aliases of the admitted parameters to a section. -/
def applyAliases (parameters : List Parameter) (allow : List String) (m : Mapping) :
    Mapping × List AliasUse :=
  let admitted := parameters.filter (fun p => Mapping.admits allow p.name)
  let (m, uses) := canonicalizeAll admitted m
  let superseded := (flatAliases admitted).filter (fun name =>
    !parameters.any (fun p => p.name = name))
  (superseded.foldl Assoc.erase m, uses)

end PipelineConfig
