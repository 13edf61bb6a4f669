import PipelineConfig.Pipeline.StageDefinition
import PipelineConfig.Proofs.Data

/-!
# Which format a text is in

A text is taken for a pipeline definition if it has the key `spec` when it is read as data, and for
stage conditions otherwise. The two readings that this involves do not agree on what a text has to
be. A pipeline definition has its own idea of each of its places, passes over names that it does not
know with all that is below them, and takes any scalar for a name, whatever its tag is. Data have
every key and every value in them, down to the last one.

So there are texts that are accepted as a pipeline definition, have `spec` as a key of their root,
and are taken for stage conditions all the same. `PipelineConfig.StageDefinition.ofText_of_accepted`
says which these are: those that say nothing as data, and those whose `spec` bears a local tag.
-/

namespace PipelineConfig.StageDefinition

/-- The key that a pipeline definition is told by is a word. -/
theorem isWord_spec : Yaml.Meaning.IsWord "spec" where
  notEmpty := by decide
  notNull := by decide
  notBool := by decide
  notInt := by decide
  notFloat := rfl

/-- **A document with these entries at its root can be told to be a pipeline definition.** -/
structure Recognizable (document : Yaml.Document) (es : List (Yaml.Node × Yaml.Node)) : Prop where
  /-- It says something as data. -/
  data : ∃ pairs, document.Says es pairs
  /-- `spec` is one of its keys, and bears no local tag. -/
  spec : ∃ e ∈ es, document.IsKey e.1 "spec"

/-- **What becomes of a pipeline definition** in a text whose root is a mapping: it is the
definition of the text exactly when it can be told to be one. Otherwise the text is read as stage
conditions. -/
theorem ofText_of_accepted {document s : String} {d : PipelineDefinition}
    {es : List (Yaml.Node × Yaml.Node)}
    (haccepted : PipelineDefinition.ofText document s = .ok d)
    (hroot : (Yaml.Document.ofText s).entries? = some es) :
    (ofText document s = .ok (.pipeline d) ↔ Recognizable (Yaml.Document.ofText s) es) ∧
      (¬ Recognizable (Yaml.Document.ofText s) es →
        ofText document s = (StageDocument.ofText document s).map conditions) := by
  have hkey_iff : Yaml.hasKey s "spec" = true ↔ Recognizable (Yaml.Document.ofText s) es := by
    rw [Yaml.hasKey_iff isWord_spec hroot]
    exact ⟨fun ⟨hdata, hspec⟩ => ⟨hdata, hspec⟩, fun ⟨hdata, hspec⟩ => ⟨hdata, hspec⟩⟩
  rw [ofText, haccepted, ← hkey_iff]
  by_cases hkey : Yaml.hasKey s "spec"
  · rw [if_pos hkey]
    exact ⟨iff_of_true rfl hkey, absurd hkey⟩
  · rw [if_neg hkey]
    refine ⟨iff_of_false (fun h => ?_) hkey, fun _ => rfl⟩
    obtain ⟨_, -, hformat⟩ := map_eq_ok_iff.mp h
    cases hformat

/-- Two texts with one stage each. Both are accepted as a pipeline definition, and the root of both
has the key `spec`. In a place that no definition looks at, the second one has a key twice, and
nothing is left of its stage. -/
theorem ofText_of_accepted_repeated_key :
    let text (key : String) :=
      "spec:\n  stages:\n    - name: Build\nextra:\n  a: 1\n  " ++ key ++ ": 2\n"
    ∃ d es d' es',
      PipelineDefinition.ofText "" (text "b") = .ok d ∧
      (Yaml.Document.ofText (text "b")).entries? = some es ∧
      ofText "" (text "b") = .ok (.pipeline d) ∧
      Recognizable (Yaml.Document.ofText (text "b")) es ∧
      PipelineDefinition.ofText "" (text "a") = .ok d' ∧
      d'.stages.map PipelineStage.name = ["Build"] ∧
      (Yaml.Document.ofText (text "a")).entries? = some es' ∧
      (∃ e ∈ es', (Yaml.Document.ofText (text "a")).IsKey e.1 "spec") ∧
      ofText "" (text "a") = .ok (.conditions ⟨[]⟩) ∧
      ¬ ∃ pairs, (Yaml.Document.ofText (text "a")).Says es' pairs := by
  intro text
  let names (s : String) :=
    (PipelineDefinition.ofText "" s).map (fun d => d.stages.map PipelineStage.name)
  have hd : names (text "b") = .ok ["Build"] := by decide +kernel
  have hes : (Yaml.Document.ofText (text "b")).entries?.isSome = true := by decide +kernel
  have hkey : Yaml.hasKey (text "b") "spec" = true := by decide +kernel
  obtain ⟨d, hd, -⟩ := map_eq_ok_iff.mp hd
  obtain ⟨es, hes⟩ := Option.isSome_iff_exists.mp hes
  have hpipeline : ofText "" (text "b") = .ok (.pipeline d) := by
    rw [ofText, if_pos hkey, hd]
    rfl
  have hrecognizable := (ofText_of_accepted hd hes).1.mp hpipeline
  have hd' : names (text "a") = .ok ["Build"] := by decide +kernel
  have hes' : (Yaml.Document.ofText (text "a")).entries?.any (fun es =>
      es.any (fun e => e.1.untagged? = some "spec")) = true := by decide +kernel
  have hkey' : Yaml.hasKey (text "a") "spec" = false := by decide +kernel
  have hread' : StageDocument.ofText "" (text "a") = .ok ⟨[]⟩ := by decide +kernel
  obtain ⟨d', hd', hstages'⟩ := map_eq_ok_iff.mp hd'
  obtain ⟨es', hes', hspec⟩ := (Option.any_eq_true _ _).mp hes'
  -- the key is there as it is written, whether or not the text says anything as data
  have hspec' : ∃ e ∈ es', (Yaml.Document.ofText (text "a")).IsKey e.1 "spec" := by
    obtain ⟨e, he, hk⟩ := List.any_eq_true.mp hspec
    exact ⟨e, he, Yaml.isKey_of_untagged? (of_decide_eq_true hk)⟩
  have hconditions : ofText "" (text "a") = .ok (.conditions ⟨[]⟩) := by
    rw [ofText, hkey', hread']
    rfl
  refine ⟨d, es, d', es', hd, hes, hpipeline, hrecognizable, hd', hstages', hes', hspec',
    hconditions, fun hdata' => ?_⟩
  have hpipeline' := (ofText_of_accepted hd' hes').1.mpr ⟨hdata', hspec'⟩
  rw [hconditions] at hpipeline'
  cases hpipeline'

end PipelineConfig.StageDefinition
