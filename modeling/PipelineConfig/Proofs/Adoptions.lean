import PipelineConfig.Proofs.Assoc
import PipelineConfig.Proofs.Redaction
import PipelineConfig.Secret.Resolution

/-!
# Adopted secrets

When a lookup finds a secret for a parameter, three things happen in a fixed order, each of which is
an event of the journal. The secret may be put into a file, it is made known as one that must not
show, and only then does the parameter take it, or the path of the file. This is an
`PipelineConfig.Adoption`, and the events of a lookup are those of its adoptions, one after the
other (`PipelineConfig.SecretRun.Adopts`).

Two things are read off a list of events, whatever they are:

* the configuration they leave behind holds under a name what was adopted for it last, or else what
  it held before (`PipelineConfig.SecretRun.get?_performAll`);
* every secret they mask is known afterwards (`PipelineConfig.SecretRun.contains_performAll`), and
  no secret is forgotten (`PipelineConfig.SecretRun.secrets_prefix_performAll`).

Adoptions in a row are always for different parameters, since one that has adopted a secret is no
longer without a value (`PipelineConfig.SecretRun.Adopts.trans`). So the parameters with adopted
secrets are those whose values have changed, no more and no fewer
(`PipelineConfig.SecretRun.Adopts.mem_parameters_iff`).
-/

namespace PipelineConfig

/-! ### Events -/

namespace SecretEvent

/-- The parameter that took a value, and the value. -/
def adopted? : SecretEvent → Option (String × String)
  | adopted parameter value => some (parameter, value)
  | _ => none

/-- The file that a secret was put into, and the secret. -/
def wrote? : SecretEvent → Option (String × String)
  | wrote file content => some (file, content)
  | _ => none

theorem adopted?_eq_some_iff {e : SecretEvent} {parameter value : String} :
    e.adopted? = some (parameter, value) ↔ e = .adopted parameter value := by
  cases e <;> simp [adopted?]

/-- The values that parameters took, in order. -/
def adoptedAmong (es : List SecretEvent) : List (String × String) :=
  es.filterMap adopted?

/-- The files that were written, in order, with what was put into them. -/
def wroteAmong (es : List SecretEvent) : List (String × String) :=
  es.filterMap wrote?

theorem adoptedAmong_cons (e : SecretEvent) (es : List SecretEvent) :
    adoptedAmong (e :: es) = e.adopted?.toList ++ adoptedAmong es := by
  rw [adoptedAmong, List.filterMap_cons, adoptedAmong]
  cases e.adopted? <;> rfl

theorem adoptedAmong_append (es es' : List SecretEvent) :
    adoptedAmong (es ++ es') = adoptedAmong es ++ adoptedAmong es' :=
  List.filterMap_append

theorem wroteAmong_append (es es' : List SecretEvent) :
    wroteAmong (es ++ es') = wroteAmong es ++ wroteAmong es' :=
  List.filterMap_append

theorem mem_adoptedAmong {es : List SecretEvent} {parameter value : String} :
    (parameter, value) ∈ adoptedAmong es ↔ .adopted parameter value ∈ es := by
  simp [adoptedAmong, List.mem_filterMap, adopted?_eq_some_iff]

end SecretEvent

namespace SecretRun

/-- Make some changes and write them down, one after the other. -/
def performAll (s : SecretRun) (es : List SecretEvent) : SecretRun :=
  es.foldl perform s

@[simp] theorem performAll_nil (s : SecretRun) : s.performAll [] = s := rfl

@[simp] theorem performAll_cons (s : SecretRun) (e : SecretEvent) (es : List SecretEvent) :
    s.performAll (e :: es) = (s.perform e).performAll es := rfl

theorem performAll_append (s : SecretRun) (es es' : List SecretEvent) :
    s.performAll (es ++ es') = (s.performAll es).performAll es' :=
  List.foldl_append

@[simp] theorem perform_journal (s : SecretRun) (e : SecretEvent) :
    (s.perform e).journal = s.journal ++ [e] := by
  cases e <;> rfl

theorem performAll_journal (s : SecretRun) (es : List SecretEvent) :
    (s.performAll es).journal = s.journal ++ es := by
  induction es generalizing s with
  | nil => simp
  | cons e es ih => rw [performAll_cons, ih, perform_journal, List.append_assoc]; rfl

theorem performAll_hooks (s : SecretRun) (es : List SecretEvent) :
    (s.performAll es).step.hooks = s.step.hooks := by
  induction es generalizing s with
  | nil => rfl
  | cons e es ih =>
    rw [performAll_cons, ih]
    cases e <;> rfl

theorem get?_perform (s : SecretRun) (e : SecretEvent) (key : String) :
    (s.perform e).step.get? key
      = ((Assoc.last? e.adopted?.toList key).map Value.string).or (s.step.get? key) := by
  cases e with
  | masked secret => rfl
  | wrote file content => rfl
  | adopted parameter value =>
    change Assoc.get? (Assoc.insert s.step.config parameter (.string value)) key = _
    rw [Assoc.get?_insert, SecretEvent.adopted?, Option.toList_some, Assoc.last?_cons]
    by_cases hkey : parameter = key
    · simp [hkey]
    · simp [hkey, StepConfig.get?]

/-- **What stands under a name after some changes** is what it took last, or else what stood there
before. -/
theorem get?_performAll (s : SecretRun) (es : List SecretEvent) (key : String) :
    (s.performAll es).step.get? key
      = ((Assoc.last? (SecretEvent.adoptedAmong es) key).map Value.string).or
          (s.step.get? key) := by
  induction es generalizing s with
  | nil => rfl
  | cons e es ih =>
    rw [performAll_cons, ih, get?_perform, SecretEvent.adoptedAmong_cons, Assoc.last?_append,
      Option.map_or, Option.or_assoc]

/-- No secret is forgotten. -/
theorem secrets_prefix_performAll (s : SecretRun) (es : List SecretEvent) :
    s.redactor.secrets <+: (s.performAll es).redactor.secrets := by
  induction es generalizing s with
  | nil => exact List.prefix_refl _
  | cons e es ih =>
    rw [performAll_cons]
    refine List.IsPrefix.trans ?_ (ih _)
    cases e with
    | masked secret => exact s.redactor.secrets_prefix_register secret
    | wrote file content => exact List.prefix_refl _
    | adopted parameter value => exact List.prefix_refl _

/-- What was made known as a secret is known from then on. -/
theorem contains_performAll {es : List SecretEvent} {secret : String} (hsecret : secret ≠ "")
    (s : SecretRun) (h : .masked secret ∈ es) :
    (s.performAll es).redactor.contains secret = true := by
  obtain ⟨before, after, rfl⟩ := List.append_of_mem h
  rw [performAll_append, performAll_cons]
  exact Redactor.contains_of_isPrefix (secrets_prefix_performAll _ after)
    (Redactor.contains_register hsecret)

/-! ### Runs that differ in nothing that shows -/

/-- Between two states no change was made. Whether there is a directory, and whether the
cancellation was fired, does not count as one. -/
structure Unmoved (s s' : SecretRun) : Prop where
  step : s'.step = s.step
  redactor : s'.redactor = s.redactor
  journal : s'.journal = s.journal

theorem Unmoved.refl (s : SecretRun) : s.Unmoved s := ⟨rfl, rfl, rfl⟩

theorem Unmoved.trans {s t u : SecretRun} (h : s.Unmoved t) (h' : t.Unmoved u) : s.Unmoved u :=
  ⟨h'.step.trans h.step, h'.redactor.trans h.redactor, h'.journal.trans h.journal⟩

theorem Unmoved.hasValue {s t : SecretRun} (h : s.Unmoved t) (parameter : String) :
    t.hasValue parameter = s.hasValue parameter := by
  rw [SecretRun.hasValue, h.step, SecretRun.hasValue]

theorem Unmoved.perform {s t : SecretRun} (h : s.Unmoved t) (e : SecretEvent) :
    (s.perform e).Unmoved (t.perform e) := by
  cases e <;> constructor <;> simp [SecretRun.perform, apply, h.step, h.redactor, h.journal]

theorem Unmoved.performAll {s t : SecretRun} (h : s.Unmoved t) (es : List SecretEvent) :
    (s.performAll es).Unmoved (t.performAll es) := by
  induction es generalizing s t with
  | nil => exact h
  | cons e es ih => exact ih (h.perform e)

end SecretRun

/-! ### Adoptions -/

/-- The adoption of a secret by a parameter. -/
structure Adoption where
  parameter : String
  secret : String
  source : SecretSource
  deriving DecidableEq, Repr

namespace Adoption

/-- The file that the secret is put into. -/
def file? (a : Adoption) : Option String :=
  match a.source with
  | .kvFile _ file => some file
  | _ => none

/-- What the parameter takes: the secret, or the path of the file with the secret. -/
def value (a : Adoption) : String :=
  a.file?.getD a.secret

/-- What happens before the parameter takes its value. -/
def preparation (a : Adoption) : List SecretEvent :=
  a.file?.toList.map (fun file => .wrote file a.secret) ++ [.masked a.secret]

/-- All that happens. -/
def events (a : Adoption) : List SecretEvent :=
  a.preparation ++ [.adopted a.parameter a.value]

/-- How the adoption is reported. -/
def resolved (a : Adoption) : ResolvedSecret :=
  ⟨a.parameter, a.source⟩

theorem adopted_not_mem_preparation (a : Adoption) (parameter value : String) :
    .adopted parameter value ∉ a.preparation := by
  simp [preparation]

theorem eq_of_adopted_mem_events {a : Adoption} {parameter value : String}
    (h : .adopted parameter value ∈ a.events) : a.parameter = parameter ∧ a.value = value := by
  rcases List.mem_append.mp h with hprepare | hlast
  · exact absurd hprepare (a.adopted_not_mem_preparation _ _)
  · obtain ⟨rfl, rfl⟩ := SecretEvent.adopted.inj (List.mem_singleton.mp hlast)
    exact ⟨rfl, rfl⟩

theorem masked_mem_events (a : Adoption) : .masked a.secret ∈ a.events := by
  simp [events, preparation]

theorem wrote_mem_events {a : Adoption} {file : String} (h : a.file? = some file) :
    .wrote file a.secret ∈ a.events := by
  simp [events, preparation, h]

theorem adoptedAmong_events (a : Adoption) :
    SecretEvent.adoptedAmong a.events = [(a.parameter, a.value)] := by
  rw [SecretEvent.adoptedAmong, events, preparation]
  cases a.file? <;> rfl

theorem keys_wroteAmong_events (a : Adoption) :
    Assoc.keys (SecretEvent.wroteAmong a.events) = a.file?.toList := by
  rw [SecretEvent.wroteAmong, events, preparation]
  cases a.file? <;> rfl

/-- The events of adoptions one after the other. -/
def eventsOf (as : List Adoption) : List SecretEvent :=
  as.flatMap events

theorem eventsOf_cons (a : Adoption) (as : List Adoption) :
    eventsOf (a :: as) = a.events ++ eventsOf as :=
  List.flatMap_cons

theorem eventsOf_append (as bs : List Adoption) :
    eventsOf (as ++ bs) = eventsOf as ++ eventsOf bs :=
  List.flatMap_append

theorem adoptedAmong_eventsOf (as : List Adoption) :
    SecretEvent.adoptedAmong (eventsOf as) = as.map (fun a => (a.parameter, a.value)) := by
  induction as with
  | nil => rfl
  | cons a as ih =>
    rw [eventsOf_cons, SecretEvent.adoptedAmong_append, adoptedAmong_events, ih]
    rfl

theorem keys_wroteAmong_eventsOf (as : List Adoption) :
    Assoc.keys (SecretEvent.wroteAmong (eventsOf as)) = as.filterMap file? := by
  induction as with
  | nil => rfl
  | cons a as ih =>
    rw [eventsOf_cons, SecretEvent.wroteAmong_append, Assoc.keys_append, keys_wroteAmong_events, ih,
      List.filterMap_cons]
    cases a.file? <;> rfl

/-- **A parameter has a value only when its adoption is over**: whenever one has taken a value in
the course of some adoptions, one of them is complete in which it did. -/
theorem exists_of_adopted_mem {as : List Adoption} {past : List SecretEvent}
    (hpast : past <+: eventsOf as) {parameter value : String}
    (h : .adopted parameter value ∈ past) :
    ∃ a ∈ as, a.parameter = parameter ∧ a.value = value ∧ a.events ⊆ past := by
  induction as generalizing past with
  | nil =>
    rw [List.prefix_nil.mp hpast] at h
    exact absurd h List.not_mem_nil
  | cons a as ih =>
    rw [eventsOf_cons] at hpast
    rcases List.prefix_or_prefix_of_prefix hpast (List.prefix_append a.events _) with
      hshort | ⟨later, rfl⟩
    · -- the first adoption is under way, so its parameter has a value only if it is complete
      rcases List.prefix_concat_iff.mp hshort with rfl | hprepare
      · obtain ⟨hparameter, hvalue⟩ := eq_of_adopted_mem_events h
        exact ⟨a, List.mem_cons_self, hparameter, hvalue, List.Subset.refl _⟩
      · exact absurd (hprepare.subset h) (a.adopted_not_mem_preparation _ _)
    · rcases List.mem_append.mp h with hfirst | hlater
      · obtain ⟨hparameter, hvalue⟩ := eq_of_adopted_mem_events hfirst
        exact ⟨a, List.mem_cons_self, hparameter, hvalue, List.subset_append_left _ _⟩
      · obtain ⟨b, hb, hparameter, hvalue, hsub⟩ :=
          ih ((List.prefix_append_right_inj a.events).mp hpast) hlater
        exact ⟨b, List.mem_cons_of_mem a hb, hparameter, hvalue,
          List.Subset.trans hsub (List.subset_append_right _ _)⟩

end Adoption

/-! ### Runs that adopt -/

namespace SecretRun

/-- Which slots count as empty. -/
theorem hasValue_eq_false_iff {s : SecretRun} {parameter : String} :
    s.hasValue parameter = false ↔ s.step.get? parameter = none ∨
      s.step.get? parameter = some .null ∨ s.step.get? parameter = some (.string "") := by
  rw [hasValue]
  rcases s.step.get? parameter with _ | v
  · simp
  · cases v <;> simp [Value.isUnset]

/-- From one state to another some parameters that had no value have adopted secrets, and nothing
else has happened. -/
structure Adopts (s : SecretRun) (as : List Adoption) (s' : SecretRun) : Prop where
  vacant : ∀ a ∈ as, s.hasValue a.parameter = false
  distinct : (as.map Adoption.parameter).Nodup
  secrets : ∀ a ∈ as, a.secret ≠ ""
  values : ∀ a ∈ as, a.value ≠ ""
  events : (s.performAll (Adoption.eventsOf as)).Unmoved s'

theorem Unmoved.adopts {s s' : SecretRun} (h : s.Unmoved s') : s.Adopts [] s' where
  vacant := by simp
  distinct := List.nodup_nil
  secrets := by simp
  values := by simp
  events := h

/-- A single adoption. -/
theorem adopts_singleton {s s' : SecretRun} {a : Adoption}
    (hvacant : s.hasValue a.parameter = false) (hsecret : a.secret ≠ "") (hvalue : a.value ≠ "")
    (hevents : (s.performAll a.events).Unmoved s') : s.Adopts [a] s' where
  vacant := by simpa using hvacant
  distinct := List.nodup_singleton _
  secrets := by simpa using hsecret
  values := by simpa using hvalue
  events := by simpa [Adoption.eventsOf] using hevents

namespace Adopts

variable {s t u : SecretRun} {as bs : List Adoption}

theorem step_eq (h : s.Adopts as t) : t.step = (s.performAll (Adoption.eventsOf as)).step :=
  h.events.step

/-- A parameter that has adopted a secret has the value that belongs to the adoption. -/
theorem get?_of_mem (h : s.Adopts as t) {a : Adoption} (ha : a ∈ as) :
    t.step.get? a.parameter = some (.string a.value) := by
  have hkeys : (Assoc.keys (as.map (fun a => (a.parameter, a.value)))).Nodup := by
    rw [Assoc.keys, List.map_map]
    exact h.distinct
  have hlast := Assoc.last?_of_mem hkeys (List.mem_map.mpr ⟨a, ha, rfl⟩)
  rw [h.step_eq, get?_performAll, Adoption.adoptedAmong_eventsOf, hlast]
  rfl

/-- What has adopted nothing is as it was. -/
theorem get?_of_not_mem (h : s.Adopts as t) {key : String}
    (hkey : key ∉ as.map Adoption.parameter) : t.step.get? key = s.step.get? key := by
  have hnone : Assoc.last? (as.map (fun a => (a.parameter, a.value))) key = none := by
    rw [Assoc.last?_eq_none_iff, Assoc.keys, List.map_map]
    exact hkey
  rw [h.step_eq, get?_performAll, Adoption.adoptedAmong_eventsOf, hnone]
  rfl

/-- What has no value afterwards has adopted nothing, and had no value before. -/
theorem vacant_of_vacant (h : s.Adopts as t) {key : String} (hkey : t.hasValue key = false) :
    key ∉ as.map Adoption.parameter ∧ s.hasValue key = false := by
  have hmem : key ∉ as.map Adoption.parameter := by
    intro hmem
    obtain ⟨a, ha, rfl⟩ := List.mem_map.mp hmem
    simp [hasValue, h.get?_of_mem ha, Value.isUnset, h.values a ha] at hkey
  rw [hasValue, h.get?_of_not_mem hmem] at hkey
  exact ⟨hmem, hkey⟩

/-- **One series of adoptions after the other** is one series. -/
theorem trans (h : s.Adopts as t) (h' : t.Adopts bs u) : s.Adopts (as ++ bs) u where
  vacant := by
    intro a ha
    rcases List.mem_append.mp ha with hfirst | hsecond
    · exact h.vacant a hfirst
    · exact (h.vacant_of_vacant (h'.vacant a hsecond)).2
  distinct := by
    rw [List.map_append]
    -- what the first series has filled is no longer vacant for the second
    refine List.Nodup.append h.distinct h'.distinct fun key hfirst hsecond => ?_
    obtain ⟨b, hb, rfl⟩ := List.mem_map.mp hsecond
    exact (h.vacant_of_vacant (h'.vacant b hb)).1 hfirst
  secrets := by
    intro a ha
    exact (List.mem_append.mp ha).elim (h.secrets a) (h'.secrets a)
  values := by
    intro a ha
    exact (List.mem_append.mp ha).elim (h.values a) (h'.values a)
  events := by
    rw [Adoption.eventsOf_append, performAll_append]
    exact (h.events.performAll _).trans h'.events

/-- A value differs from before exactly if the parameter has adopted a secret. -/
theorem mem_parameters_iff (h : s.Adopts as t) {key : String} :
    key ∈ as.map Adoption.parameter ↔ t.step.get? key ≠ s.step.get? key := by
  constructor
  · rintro hmem heq
    obtain ⟨a, ha, rfl⟩ := List.mem_map.mp hmem
    have hvacant := h.vacant a ha
    rw [h.get?_of_mem ha] at heq
    simp [hasValue, ← heq, Value.isUnset, h.values a ha] at hvacant
  · intro hchanged
    by_contra hmem
    exact hchanged (h.get?_of_not_mem hmem)

end Adopts

end SecretRun

end PipelineConfig
