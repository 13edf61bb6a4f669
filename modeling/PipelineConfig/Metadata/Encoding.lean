import PipelineConfig.Json.Basic
import PipelineConfig.Metadata.Basic

/-!
# Writing step metadata

The document of a step's metadata as a tree, with every field that the document may have: what is
not there is null, or empty, as its type has it.
-/

namespace PipelineConfig

private def texts (l : List String) : Json := .array (l.map Json.string)

private def values (l : List Value) : Json := .array (l.map Value.toJson)

private def orNull {α : Type} (f : α → Json) : Option α → Json
  | some a => f a
  | none => .null

/-- The document of an alias. -/
def Alias.toJson (a : Alias) : Json :=
  .object [("name", .string a.name), ("deprecated", .bool a.deprecated)]

private def aliasList (l : List Alias) : Json := .array (l.map Alias.toJson)

/-- The document of a resource reference. -/
def ResourceReference.toJson (r : ResourceReference) : Json :=
  .object [("name", .string r.name), ("type", .string r.type), ("param", orNull .string r.param?),
    ("paths", texts r.paths), ("default", orNull .string r.default?),
    ("aliases", aliasList r.aliases)]

/-- The document of a condition. -/
def ParameterCondition.toJson (c : ParameterCondition) : Json :=
  .object [("conditionRef", .string c.conditionRef),
    ("params", .array (c.params.map (fun d =>
      .object [("name", .string d.name), ("value", .string d.value)])))]

private def conditionList (l : List ParameterCondition) : Json :=
  .array (l.map ParameterCondition.toJson)

/-- The document of a parameter. -/
def Parameter.toJson (p : Parameter) : Json :=
  .object [("name", .string p.name), ("description", .string p.description),
    ("longDescription", .string p.longDescription),
    ("resourceRef", .array (p.references.map ResourceReference.toJson)),
    ("scope", texts (p.scopes.map Scope.name)), ("type", .string p.type.name),
    ("mandatory", .bool p.mandatory), ("default", orNull Value.toJson p.default?),
    ("possibleValues", orNull values p.possibleValues?), ("aliases", aliasList p.aliases),
    ("conditions", conditionList p.conditions), ("secret", .bool p.secret)]

/-- The document of a secret of the surroundings. -/
def SecretInput.toJson (s : SecretInput) : Json :=
  .object [("name", .string s.name), ("description", .string s.description),
    ("type", .string s.type), ("aliases", aliasList s.aliases)]

/-- The document of a resource of the surroundings. -/
def ResourceInput.toJson (r : ResourceInput) : Json :=
  .object [("name", .string r.name), ("description", .string r.description),
    ("type", .string r.type), ("params", values r.params),
    ("conditions", conditionList r.conditions)]

/-- The document of a container. -/
def Container.toJson (c : Container) : Json :=
  .object [("name", .string c.name), ("image", .string c.image), ("command", texts c.command),
    ("shell", .string c.shell), ("workingDir", .string c.workingDir),
    ("readyCommand", .string c.readyCommand), ("imagePullPolicy", .string c.imagePullPolicy),
    ("env", values c.env), ("options", values c.options),
    ("conditions", conditionList c.conditions)]

/-- The document of the metadata of a step. -/
def Metadata.toJson (m : Metadata) : Json :=
  .object
    [("metadata", .object
      [("name", .string m.name), ("aliases", aliasList m.aliases),
        ("description", .string m.description), ("longDescription", .string m.longDescription)]),
      ("spec", .object
        [("inputs", .object
          [("params", .array (m.parameters.map Parameter.toJson)),
            ("resources", .array (m.resources.map ResourceInput.toJson)),
            ("secrets", .array (m.secrets.map SecretInput.toJson))]),
          ("outputs", orNull Value.toJson m.outputs?),
          ("containers", .array (m.containers.map Container.toJson)),
          ("sidecars", .array (m.sidecars.map Container.toJson))])]

end PipelineConfig
