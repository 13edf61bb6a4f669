import Mathlib.Data.List.Basic
import PipelineConfig.Yaml.Decoding

/-!
# What a reading yields

A decoder reads data that is of its type, and often of a better form than the type says: no key
twice, a number in a range. Such a form is claimed of a reading as a whole, whatever the document
says and whether or not the reading succeeds: *if* it yields something, then something of that form
(`PipelineConfig.Yaml.Decoding.Yields`).

One law for each way to make a reading from others is all that is needed to establish a form for a
decoder. The one that matters most is the law of records
(`PipelineConfig.Yaml.Decoder.yields_record`): a record is of the form if its start is and if no
field leads out of it. In particular it need not be known which fields there are.
-/

namespace PipelineConfig.Yaml

namespace Decoding

variable {α β : Type} {P : α → Prop} {Q : β → Prop}

/-- **A reading yields only what has a property**, in whatever document and after however many
references. -/
def Yields (P : α → Prop) (x : Decoding α) : Prop :=
  ∀ document followed a followed', (x.run document).run followed = .ok (a, followed') → P a

theorem yields_pure {a : α} (h : P a) : Yields P (pure a) := by
  rintro document followed b followed' ⟨⟩
  exact h

theorem yields_fail (fault : Fault) : Yields P (fail fault) := by
  rintro document followed a followed' ⟨⟩

/-- What is read first may be relied on afterwards. -/
theorem Yields.bind {x : Decoding α} {f : α → Decoding β} (hx : Yields P x)
    (hf : ∀ a, P a → Yields Q (f a)) : Yields Q (x >>= f) := by
  intro document followed b followed' h
  change Except.bind ((x.run document).run followed)
    (fun r => ((f r.1).run document).run r.2) = .ok (b, followed') at h
  rcases hr : (x.run document).run followed with e | ⟨a, between⟩
  · rw [hr] at h
    cases h
  · rw [hr] at h
    exact hf a (hx _ _ _ _ hr) _ _ _ _ h

theorem yields_trivial (x : Decoding α) : Yields (fun _ => True) x :=
  fun _ _ _ _ _ => trivial

theorem yields_ofExcept {x : Except Fault α} (h : ∀ a, x = .ok a → P a) :
    Yields P (MonadExcept.ofExcept x : Decoding α) := by
  cases x with
  | error fault => exact yields_fail fault
  | ok a => exact yields_pure (h a rfl)

theorem Yields.map {x : Decoding α} {f : α → β} (hx : Yields P x) (hf : ∀ a, P a → Q (f a)) :
    Yields Q (f <$> x) := by
  rw [← bind_pure_comp]
  exact hx.bind fun a ha => yields_pure (hf a ha)

/-- Nothing needs to be known of what is read first. -/
theorem yields_bind {x : Decoding α} {f : α → Decoding β} (hf : ∀ a, Yields Q (f a)) :
    Yields Q (x >>= f) :=
  (yields_trivial x).bind fun a _ => hf a

/-- A walk yields what its steps yield. -/
theorem yields_mapM {f : α → Decoding β} (hf : ∀ a, Yields Q (f a)) (xs : List α) :
    Yields (fun ys => ∀ y ∈ ys, Q y) (xs.mapM f) := by
  induction xs with
  | nil => exact yields_pure (by simp)
  | cons x xs ih =>
    rw [List.mapM_cons]
    refine (hf x).bind fun y hy => ih.bind fun ys hys => yields_pure ?_
    rintro z (_ | ⟨_, hz⟩)
    · exact hy
    · exact hys z hz

end Decoding

namespace Decoder

open Decoding

variable {α : Type} {P : α → Prop}

/-- The values of a mapping are what the decoder of its values yields. -/
theorem yields_entries {item : Decoder α} (hitem : ∀ levels node, Yields P (item levels node))
    (levels : Nat) (node : Node) :
    Yields (fun es => ∀ e ∈ es, P e.2) (entries item levels node) := by
  refine yields_bind fun node => ?_
  split
  · split
    · exact yields_fail _
    · refine yields_mapM (fun e => ?_) _
      exact yields_bind fun name => (hitem _ _).bind fun a ha => yields_pure ha
  · split
    · exact yields_pure (by simp)
    · exact yields_fail _

/-- Something that may be null is what its decoder yields, if it is anything. -/
theorem yields_optional {item : Decoder α} (hitem : ∀ levels node, Yields P (item levels node))
    (levels : Nat) (node : Node) : Yields (fun a? => ∀ a ∈ a?, P a) (optional item levels node) := by
  have hnone : Yields (fun a? : Option α => ∀ a ∈ a?, P a) (pure none) := yields_pure (by simp)
  have hsome (node : Node) : Yields (fun a? => ∀ a ∈ a?, P a) (some <$> item levels node) :=
    (hitem levels node).map fun a ha => by simpa using ha
  refine yields_bind fun node => ?_
  split
  · split
    · split
      · split
        · exact hnone
        · exact yields_fail _
      · exact hsome _
    · split
      · exact hnone
      · exact hsome _
  · exact hsome _

theorem yields_orDefault {default : α} {item : Decoder α} (hdefault : P default)
    (hitem : ∀ levels node, Yields P (item levels node)) (levels : Nat) (node : Node) :
    Yields P (orDefault default item levels node) := by
  refine (yields_optional hitem levels node).bind fun a? ha => yields_pure ?_
  cases a? with
  | none => exact hdefault
  | some a => exact ha a rfl

theorem yields_readEntries {fields : Fields} {levels : Nat}
    {field : α → String → Node → Decoding α}
    (hfield : ∀ a name node, P a → Yields P (field a name node)) (es : List (Node × Node))
    (seen : List String) {a : α} (ha : P a) :
    Yields P (readEntries fields levels field es seen a) := by
  -- the invariant is `P` of what has been read so far; which fields these are plays no part
  induction es generalizing seen a with
  | nil =>
    rw [readEntries]
    split
    · exact yields_pure ha
    · exact yields_fail _
  | cons e es ih =>
    rw [readEntries]
    refine yields_bind fun name => ?_
    split
    · split
      · exact yields_fail _
      · exact ih seen ha
    · split
      · exact yields_fail _
      · exact (hfield a name e.2 ha).bind fun a' ha' => ih (name :: seen) ha'

/-- **A record has a form that its start has and that every field keeps.** -/
theorem yields_record {fields : Fields} {start : α}
    {field : (levels : Nat) → α → String → Node → Decoding α} (hstart : P start)
    (hfield : ∀ levels a name node, P a → Yields P (field levels a name node))
    (levels : Nat) (node : Node) : Yields P (record fields start field levels node) := by
  refine yields_bind fun node => ?_
  split
  · split
    · exact yields_fail _
    · exact yields_readEntries (hfield _) _ _ hstart
  · split
    · exact yields_pure hstart
    · exact yields_fail _

/-- What a text is read as has the form that its decoder yields. -/
theorem of_readText {decoder : Decoder α} (hd : ∀ levels node, Yields P (decoder levels node))
    {s : String} {a : α} (h : decoder.readText s = .ok a) : P a := by
  rw [readText] at h
  split at h
  · cases h
  · rename_i b followed hrun
    split at h
    · cases h
      exact hd _ _ _ _ _ _ hrun
    · cases h

end Decoder

end PipelineConfig.Yaml
