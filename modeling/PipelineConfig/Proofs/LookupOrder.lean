import PipelineConfig.Proofs.Turns

/-!
# In which order secrets are looked up

Which calls filling the secret parameters makes depends on what is answered to them, since a secret
that is found ends the search for it and may decide where the next one is searched. This file says
it all the same, call by call, whatever the answers are, as long as the cancellation is not fired.

In a turn with the key-value store (`PipelineConfig.StoreTurn`) there is no call for a parameter
without a reference, nor for one that has a value. For any other the paths of its reference are
read in order (`PipelineConfig.Search`), and these depend on the configuration as it is by then. The
search goes on as long as paths are read in vain (`PipelineConfig.InVain`). The first secret with a
field for the parameter ends it, and the parameter takes what is in the field
(`PipelineConfig.Takes`); so does an error.

In a turn with the trust service (`PipelineConfig.IssuerTurn`) there is one call at most, and the
parameter takes the token if there is one.

All turns together are the run (`PipelineConfig.Secrets.lookup_order`).
-/

namespace PipelineConfig

/-- The cancellation is not fired during any call. -/
structure Respondent.Uninterrupted {σ : Type} (reply : Respondent σ) : Prop where
  read : ∀ path w, Answer.fires (reply (.read path) w).1 = false
  issue : ∀ systems w, Answer.fires (reply (.issue systems) w).1 = false

/-- An answer that leaves the cancellation alone is a plain one. -/
theorem Answer.found_or_failed {α : Type} {answer : Answer α} (h : answer.fires = false) :
    (∃ a, answer = .found a) ∨ ∃ e, answer = .failed e := by
  cases answer with
  | found a => exact Or.inl ⟨a, rfl⟩
  | failed e => exact Or.inr ⟨e, rfl⟩
  | interrupted | inTime outcome => cases h

/-- Providers whose answers are fixed do not fire it, if none of these answers does. -/
theorem Respondent.ofShelf_uninterrupted {store : String → Answer (Option SecretData)}
    {issuer : List String → Answer (List (String × String))}
    (hstore : ∀ path, (store path).fires = false)
    (hissuer : ∀ systems, (issuer systems).fires = false) :
    (Respondent.ofShelf store issuer).Uninterrupted :=
  ⟨fun path _ => hstore path, fun systems _ => hissuer systems⟩

/-! ### Fields of a secret -/

/-- A secret holds nothing in a field. -/
def SecretData.Lacks (data : SecretData) (field : String) : Prop :=
  Assoc.get? data field = none ∨ Assoc.get? data field = some ""

namespace Parameter

/-- The fields that may hold the value of a parameter: that of its own name, then those of its
aliases. -/
def fields (p : Parameter) : List String :=
  p.name :: p.aliases.map Alias.name

/-- A secret holds a value for a parameter: it is in the first of the fields that is not empty. -/
def FoundIn (p : Parameter) (data : SecretData) (value : String) : Prop :=
  ∃ before field after, p.fields = before ++ field :: after ∧
    Assoc.get? data field = some value ∧ value ≠ "" ∧ ∀ other ∈ before, data.Lacks other

variable {p : Parameter} {data : SecretData}

/-- What a field contributes, if it is not empty. -/
theorem field_eq_none_iff {field : String} :
    (match Assoc.get? data field with
      | some v => if v.isEmpty then none else some v
      | none => none) = none ↔ data.Lacks field := by
  rw [SecretData.Lacks]
  rcases Assoc.get? data field with _ | v
  · simp
  · simp [String.isEmpty_iff]

theorem fieldValue?_eq_some_iff {value : String} :
    p.fieldValue? data = some value ↔ p.FoundIn data value := by
  rw [fieldValue?, List.findSome?_eq_some_iff, FoundIn]
  constructor
  · rintro ⟨before, field, after, hfields, hvalue, hbefore⟩
    split at hvalue
    · rename_i v hget
      rw [Option.ite_none_left_eq_some, Option.some.injEq] at hvalue
      obtain ⟨hne, rfl⟩ := hvalue
      exact ⟨before, field, after, hfields, hget, by simpa using hne,
        fun other hother => field_eq_none_iff.mp (hbefore other hother)⟩
    · cases hvalue
  · rintro ⟨before, field, after, hfields, hget, hne, hbefore⟩
    refine ⟨before, field, after, hfields, ?_, fun other hother =>
      field_eq_none_iff.mpr (hbefore other hother)⟩
    rw [hget]
    simpa using hne

theorem fieldValue?_eq_none_iff :
    p.fieldValue? data = none ↔ ∀ field ∈ p.fields, data.Lacks field := by
  rw [fieldValue?, List.findSome?_eq_none_iff, fields]
  exact forall₂_congr fun field _ => field_eq_none_iff

end Parameter

/-! ### Turns with the store -/

section Store

variable {σ : Type} (reply : Respondent σ)

/-- **Paths that are read in vain**, with the calls for it, from one state of the respondent to
another: under none of them there is a secret with a field for the parameter. -/
inductive InVain (p : Parameter) : σ → List String → List (SecretQuestion × σ) → σ → Prop
  | none (w : σ) : InVain p w [] [] w
  | next {path : String} {paths : List String} {calls : List (SecretQuestion × σ)} {w w' w'' : σ}
      {data? : Option SecretData} (hanswer : reply (.read path) w = (Answer.found data?, w'))
      (hlacks : ∀ data, data? = some data → ∀ field ∈ p.fields, data.Lacks field)
      (hrest : InVain p w' paths calls w'') :
      InVain p w (path :: paths) ((.read path, w) :: calls) w''

/-- The directory of the secret files: it is there, or it is made. -/
inductive Directory (s : SecretRun) : σ → String → σ → Prop
  | there {directory : String} {w : σ} (h : s.directory? = some directory) :
      Directory s w directory w
  | made {directory : String} {w w' : σ} (h : s.directory? = none)
      (hmade : reply (.file .makeDirectory) w = (Except.ok directory, w')) :
      Directory s w directory w'

/-- **What becomes of a secret that was found** at a path for a parameter. -/
inductive Takes (p : Parameter) (path secret : String) (s : SecretRun) (w : σ) :
    Bool → Ending σ (Option ResolvedSecret) → Prop
  /-- The parameter takes it. -/
  | plain : Takes p path secret s w false
      ⟨.ok (some ⟨p.name, .kv path⟩), s.performAll [.masked secret, .adopted p.name secret], w⟩
  /-- It is put into a file, and the parameter takes the path of that. -/
  | file {directory file : String} {w₁ w₂ : σ} (hdirectory : Directory reply s w directory w₁)
      (hwritten : reply.writing directory p.name secret w₁ = (.ok file, w₂)) :
      Takes p path secret s w true
        ⟨.ok (some ⟨p.name, .kvFile path file⟩),
          { s with directory? := some directory }.performAll
            [.wrote file secret, .masked secret, .adopted p.name file], w₂⟩
  /-- There is no directory for files. -/
  | noDirectory {failure : IoFailure} {w₁ : σ} (hnone : s.directory? = none)
      (hfailed : reply (.file .makeDirectory) w = (Except.error failure, w₁)) :
      Takes p path secret s w true ⟨.error (.notWritten p.name failure), s, w₁⟩
  /-- The file cannot be written. -/
  | notWritten {directory : String} {failure : IoFailure} {w₁ w₂ : σ}
      (hdirectory : Directory reply s w directory w₁)
      (hfailed : reply.writing directory p.name secret w₁ = (.error failure, w₂)) :
      Takes p path secret s w true
        ⟨.error (.notWritten p.name failure), { s with directory? := some directory }, w₂⟩

/-- **The search for the value of a parameter** at some paths, with its calls and its end. -/
inductive Search (p : Parameter) (asFile : Bool) (s : SecretRun) (w : σ) :
    List String → List (SecretQuestion × σ) → Ending σ (Option ResolvedSecret) → Prop
  /-- All paths are read in vain, and nothing has changed. -/
  | exhausted {paths : List String} {calls : List (SecretQuestion × σ)} {w' : σ}
      (hvain : InVain reply p w paths calls w') : Search p asFile s w paths calls ⟨.ok none, s, w'⟩
  /-- An error ends the search. -/
  | failed {before after : List String} {path : String} {calls : List (SecretQuestion × σ)}
      {e : SecretError} {w' w'' : σ} (hvain : InVain reply p w before calls w')
      (hanswer : reply (.read path) w' = (Answer.failed e, w'')) :
      Search p asFile s w (before ++ path :: after) (calls ++ [(.read path, w')]) ⟨.error e, s, w''⟩
  /-- The first secret with a field for the parameter ends it, too. -/
  | found {before after : List String} {path : String} {calls : List (SecretQuestion × σ)}
      {data : SecretData} {secret : String} {w' w'' : σ}
      {ending : Ending σ (Option ResolvedSecret)} (hvain : InVain reply p w before calls w')
      (hanswer : reply (.read path) w' = (Answer.found (some data), w''))
      (hfound : p.FoundIn data secret) (htakes : Takes reply p path secret s w'' asFile ending) :
      Search p asFile s w (before ++ path :: after) (calls ++ [(.read path, w')]) ending

/-- **The turn of a parameter with the store.** -/
inductive StoreTurn : Turn σ → Prop
  /-- A parameter that refers to no secret is passed over, and so is one that has a value. -/
  | skipped {p : Parameter} {s : SecretRun} {w : σ}
      (hskip : p.kvReference? = none ∨ s.hasValue p.name = true) :
      StoreTurn ⟨p, s, w, [], ⟨.ok none, s, w⟩⟩
  /-- It cannot be said where to look. -/
  | noPath {p : Parameter} {s : SecretRun} {w : σ} {r : ResourceReference} {asFile : Bool}
      {cause : ConfigError} (hreference : p.kvReference? = some (r, asFile))
      (hvacant : s.hasValue p.name = false)
      (hpaths : r.secretPaths s.step.config = .error cause) :
      StoreTurn ⟨p, s, w, [], ⟨.error (.noPath cause), s, w⟩⟩
  /-- The value is searched at the paths that the reference gives by now. -/
  | search {p : Parameter} {s : SecretRun} {w : σ} {r : ResourceReference} {asFile : Bool}
      {paths : List String} {calls : List (SecretQuestion × σ)}
      {ending : Ending σ (Option ResolvedSecret)} (hreference : p.kvReference? = some (r, asFile))
      (hvacant : s.hasValue p.name = false) (hpaths : r.secretPaths s.step.config = .ok paths)
      (hsearch : Search reply p asFile s w paths calls ending) :
      StoreTurn ⟨p, s, w, calls, ending⟩

end Store

/-! ### Turns with the service -/

/-- A parameter names a system of the trust service: that which its reference has for a default. -/
def Parameter.NamesSystem (p : Parameter) (system : String) : Prop :=
  ∃ r, p.reference? trustEngineSecret = some r ∧ r.default? = some system ∧ system ≠ ""

section Issuer

variable {σ : Type} (reply : Respondent σ)

/-- **The turn of a parameter with the service.** -/
inductive IssuerTurn : Turn σ → Prop
  /-- A parameter that names no system is passed over, and so is one that has a value. -/
  | skipped {p : Parameter} {s : SecretRun} {w : σ}
      (hskip : (∀ system, ¬ p.NamesSystem system) ∨ s.hasValue p.name = true) :
      IssuerTurn ⟨p, s, w, [], ⟨.ok none, s, w⟩⟩
  /-- The parameter takes the token of its system. -/
  | issued {p : Parameter} {s : SecretRun} {w w' : σ} {system token : String}
      {tokens : List (String × String)} (hsystem : p.NamesSystem system)
      (hvacant : s.hasValue p.name = false)
      (hanswer : reply (.issue [system]) w = (Answer.found tokens, w'))
      (htoken : Assoc.get? tokens system = some token) (hne : token ≠ "") :
      IssuerTurn ⟨p, s, w, [(.issue [system], w)], ⟨.ok (some ⟨p.name, .trustService system⟩),
        s.performAll [.masked token, .adopted p.name token], w'⟩⟩
  /-- There is no token for it. -/
  | unissued {p : Parameter} {s : SecretRun} {w w' : σ} {system : String}
      {tokens : List (String × String)} (hsystem : p.NamesSystem system)
      (hvacant : s.hasValue p.name = false)
      (hanswer : reply (.issue [system]) w = (Answer.found tokens, w'))
      (htoken : Assoc.get? tokens system = none ∨ Assoc.get? tokens system = some "") :
      IssuerTurn ⟨p, s, w, [(.issue [system], w)], ⟨.ok none, s, w'⟩⟩
  /-- An error leaves the parameter without a value. -/
  | failed {p : Parameter} {s : SecretRun} {w w' : σ} {system : String} {e : SecretError}
      (hsystem : p.NamesSystem system) (hvacant : s.hasValue p.name = false)
      (hanswer : reply (.issue [system]) w = (Answer.failed e, w')) (he : e ≠ .cancelled) :
      IssuerTurn ⟨p, s, w, [(.issue [system], w)], ⟨.ok none, s, w'⟩⟩
  /-- Only a service that has been cancelled itself ends the run. -/
  | cancelled {p : Parameter} {s : SecretRun} {w w' : σ} {system : String}
      (hsystem : p.NamesSystem system) (hvacant : s.hasValue p.name = false)
      (hanswer : reply (.issue [system]) w = (Answer.failed .cancelled, w')) :
      IssuerTurn ⟨p, s, w, [(.issue [system], w)], ⟨.error .cancelled, s, w'⟩⟩

end Issuer

namespace Secrets

open Lookup

variable {σ : Type} {reply : Respondent σ} {p : Parameter} {s : SecretRun} {w : σ}

/-! ### The search -/

theorem carried_directoryFor (reply : Respondent σ) (parameter : String) (s : SecretRun) (w : σ) :
    (∃ directory w', Directory reply s w directory w' ∧
      (directoryFor parameter).carried reply s w
        = ⟨.ok directory, { s with directory? := some directory }, w'⟩) ∨
    ∃ failure w', s.directory? = none ∧
      reply (.file .makeDirectory) w = (Except.error failure, w') ∧
      (directoryFor parameter).carried reply s w
        = ⟨.error (.notWritten parameter failure), s, w'⟩ := by
  rw [directoryFor, carried_bind, carried_state]
  rcases hdirectory : s.directory? with _ | directory
  · rcases hmade : reply (.file .makeDirectory) w with ⟨failure | directory, w'⟩
    · right
      refine ⟨failure, w', rfl, rfl, ?_⟩
      simp [hdirectory, carried_bind, hmade]
    · left
      refine ⟨directory, w', .made hdirectory hmade, ?_⟩
      simp [hdirectory, carried_bind, hmade]
  · left
    refine ⟨directory, w, .there hdirectory, ?_⟩
    have hsame : { s with directory? := some directory } = s := by rw [← hdirectory]
    simp [hdirectory, hsame]

theorem takes_adopt (asFile : Bool) (path secret : String) :
    Takes reply p path secret s w asFile
      ((some <$> adopt p asFile path secret).carried reply s w) := by
  cases asFile with
  | false => exact .plain
  | true =>
    rw [carried_map, adopt, if_pos rfl, carried_bind, writeFile, carried_bind]
    rcases carried_directoryFor reply p.name s w with
      ⟨directory, w₁, hdirectory, hend⟩ | ⟨failure, w₁, hnone, hfailed, hend⟩
    · simp only [hend, carried_bind, carried_ask]
      rcases hwriting : reply.writing directory p.name secret w₁ with ⟨failure | file, w₂⟩
      · have hfailed : Takes reply p path secret s w true _ := .notWritten hdirectory hwriting
        rw [Respondent.writing] at hwriting
        rw [hwriting]
        exact hfailed
      · have hfile : Takes reply p path secret s w true _ := .file hdirectory hwriting
        rw [Respondent.writing] at hwriting
        rw [hwriting]
        exact hfile
    · rw [hend]
      exact .noDirectory hnone hfailed

/-- A path that is read in vain comes before those where the search goes on. -/
theorem search_cons {asFile : Bool} {path : String} {rest : List String}
    {calls : List (SecretQuestion × σ)} {ending : Ending σ (Option ResolvedSecret)} {w' : σ}
    {data? : Option SecretData} (hanswer : reply (.read path) w = (Answer.found data?, w'))
    (hlacks : ∀ data, data? = some data → ∀ field ∈ p.fields, data.Lacks field)
    (hrest : Search reply p asFile s w' rest calls ending) :
    Search reply p asFile s w (path :: rest) ((.read path, w) :: calls) ending := by
  cases hrest with
  | exhausted hvain => exact .exhausted (.next hanswer hlacks hvain)
  | failed hvain hfailed => exact .failed (.next hanswer hlacks hvain) hfailed
  | found hvain hdata hfound htakes => exact .found (.next hanswer hlacks hvain) hdata hfound htakes

/-- **Paths are searched in order.** -/
theorem search_searchPaths (hreply : reply.Uninterrupted) (hs : s.cancelled = false) (p : Parameter)
    (asFile : Bool) (paths : List String) (w : σ) :
    Search reply p asFile s w paths ((searchPaths p asFile paths).calls reply s w)
      ((searchPaths p asFile paths).carried reply s w) := by
  -- for the rest of the search the answers so far matter only by how they leave the respondent
  induction paths generalizing w with
  | nil => exact .exhausted (.none w)
  | cons path rest ih =>
    rw [searchPaths, carried_bind, calls_bind, carried_read hs, calls_read hs]
    have hplain := Answer.found_or_failed (hreply.read path w)
    rcases hanswer : reply (.read path) w with ⟨answer, w'⟩
    rw [hanswer] at hplain
    rcases hplain with ⟨data?, rfl⟩ | ⟨e, rfl⟩
    · simp only [Answer.ending_found]
      rcases hfield : data?.bind p.fieldValue? with _ | secret
      · refine search_cons hanswer ?_ (ih w')
        rintro data rfl
        exact Parameter.fieldValue?_eq_none_iff.mp hfield
      · obtain ⟨data, rfl, hvalue⟩ := Option.bind_eq_some_iff.mp hfield
        have hcalls : (some <$> adopt p asFile path secret).calls reply s w' = [] := by
          rw [calls_map, calls_adopt]
        simp only [hcalls]
        exact .found (.none w) hanswer (Parameter.fieldValue?_eq_some_iff.mp hvalue)
          (takes_adopt asFile path secret)
    · exact .failed (.none w) hanswer

/-! ### The turns -/

theorem storeTurn_of (hreply : reply.Uninterrupted) (p : Parameter) {s : SecretRun}
    (hs : s.cancelled = false) (w : σ) : StoreTurn reply (Turn.of searchStore reply p s w) := by
  rw [Turn.of, searchStore]
  rcases hreference : p.kvReference? with _ | ⟨r, asFile⟩
  · exact .skipped (Or.inl hreference)
  · simp only [carried_bind, calls_bind, carried_state, calls_state, List.nil_append]
    by_cases hvalue : s.hasValue p.name = true
    · simp only [if_pos hvalue]
      exact .skipped (Or.inr hvalue)
    · have hvacant : s.hasValue p.name = false := Bool.eq_false_iff.mpr hvalue
      simp only [if_neg hvalue]
      rcases hpaths : r.secretPaths s.step.config with cause | paths
      · exact .noPath hreference hvacant hpaths
      · exact .search hreference hvacant hpaths (search_searchPaths hreply hs p asFile paths w)

theorem system?_eq_some_iff {system : String} : system? p = some system ↔ p.NamesSystem system := by
  rw [system?, Parameter.NamesSystem]
  rcases p.reference? trustEngineSecret with _ | r
  · simp
  · rcases hdefault : r.default? with _ | name
    · simp [hdefault]
    · simp only [Option.bind_some, hdefault, Option.ite_none_left_eq_some, Option.some.injEq]
      constructor
      · rintro ⟨hne, rfl⟩
        exact ⟨r, rfl, hdefault, by simpa using hne⟩
      · rintro ⟨r', rfl, hsystem, hne⟩
        obtain rfl := Option.some.inj (hdefault.symm.trans hsystem)
        exact ⟨by simpa using hne, rfl⟩

theorem issuerTurn_of (hreply : reply.Uninterrupted) (p : Parameter) {s : SecretRun}
    (hs : s.cancelled = false) (w : σ) : IssuerTurn reply (Turn.of askIssuer reply p s w) := by
  rw [Turn.of, askIssuer]
  rcases hsystem : system? p with _ | system
  · refine .skipped (Or.inl fun system hnames => ?_)
    rw [system?_eq_some_iff.mpr hnames] at hsystem
    cases hsystem
  · have hnames := system?_eq_some_iff.mp hsystem
    simp only [carried_bind, calls_bind, carried_state, calls_state, List.nil_append]
    by_cases hvalue : s.hasValue p.name = true
    · simp only [if_pos hvalue]
      exact .skipped (Or.inr hvalue)
    · have hvacant : s.hasValue p.name = false := Bool.eq_false_iff.mpr hvalue
      simp only [if_neg hvalue, carried_bind, calls_bind, carried_tryCatch, calls_tryCatch,
        carried_issue hs, calls_issue hs]
      have hplain := Answer.found_or_failed (hreply.issue [system] w)
      rcases hanswer : reply (.issue [system]) w with ⟨answer, w'⟩
      rw [hanswer] at hplain
      rcases hplain with ⟨tokens, rfl⟩ | ⟨e, rfl⟩
      · simp only [Answer.ending_found, calls_adoptToken, List.append_nil]
        rw [adoptToken]
        rcases htoken : Assoc.get? tokens system with _ | token
        · exact .unissued hnames hvacant hanswer (Or.inl htoken)
        · by_cases hne : token = ""
          · subst hne
            exact .unissued hnames hvacant hanswer (Or.inr htoken)
          · simp only [String.isEmpty_iff, if_neg hne]
            exact .issued hnames hvacant hanswer htoken hne
      · by_cases he : e = .cancelled
        · subst he
          exact .cancelled hnames hvacant hanswer
        · have hturn := IssuerTurn.failed hnames hvacant hanswer he
          cases e with
          | cancelled => exact absurd rfl he
          | _ => exact hturn

theorem cancelled_of_storeTurn {t : Turn σ} (h : StoreTurn reply t) :
    t.ending.run.cancelled = t.run.cancelled := by
  cases h with
  | skipped hskip => rfl
  | noPath hreference hvacant hpaths => rfl
  | search hreference hvacant hpaths hsearch =>
    cases hsearch with
    | exhausted hvain => rfl
    | failed hvain hanswer => rfl
    | found hvain hanswer hfound htakes => cases htakes <;> rfl

theorem cancelled_of_issuerTurn {t : Turn σ} (h : IssuerTurn reply t) :
    t.ending.run.cancelled = t.run.cancelled := by
  cases h <;> rfl

/-- **A run in order**: its turns with the store and then its turns with the service. -/
structure InOrder (reply : Respondent σ) (providers : SecretProviders) (parameters : List Parameter)
    (s : SecretRun) (w : σ) (calls : List (SecretQuestion × σ))
    (ending : Ending σ (List ResolvedSecret)) (byStore byIssuer : List (Turn σ)) : Prop where
  /-- Each turn begins where the one before has ended. -/
  consecutive : Turns s w (byStore ++ byIssuer) ending
  /-- There are no calls but those of the turns. -/
  calls : calls = byStore.flatMap Turn.calls ++ byIssuer.flatMap Turn.calls
  storeTurn : ∀ t ∈ byStore, StoreTurn reply t
  issuerTurn : ∀ t ∈ byIssuer, IssuerTurn reply t
  /-- The parameters take their turns in the order of the list, with a provider that is there. -/
  storeOrder : byStore.map Turn.parameter <+: visited providers.store parameters
  issuerOrder : byIssuer.map Turn.parameter <+: visited providers.issuer parameters
  /-- It comes to the service only after all turns with the store. -/
  storeFirst : byIssuer ≠ [] → byStore.map Turn.parameter = visited providers.store parameters
  /-- The error of a turn is that of the run, and there is no turn after it. -/
  error : ∀ t ∈ byStore ++ byIssuer, ∀ e, t.ending.result = .error e →
    ending.result = .error e ∧ (byStore ++ byIssuer).getLast? = some t
  /-- Without an error all parameters take all turns. -/
  complete : ∀ found, ending.result = .ok found →
    byStore.map Turn.parameter = visited providers.store parameters ∧
      byIssuer.map Turn.parameter = visited providers.issuer parameters

/-- As long as the cancellation is not fired, every turn with the store ends as described, and none
fires it. -/
theorem forall_storeTurns (hreply : reply.Uninterrupted) (parameters : List Parameter)
    (hs : s.cancelled = false) (w : σ) :
    (∀ t ∈ turns searchStore reply parameters s w, StoreTurn reply t) ∧
      ((forEach searchStore parameters).carried reply s w).run.cancelled = false :=
  forall_turns (I := fun s => s.cancelled = false)
    (fun p _ w hs => storeTurn_of hreply p hs w)
    (fun _ ht hs => (cancelled_of_storeTurn ht).trans hs) parameters hs w

/-- Its turns are in order. -/
theorem inOrder_resolve (hreply : reply.Uninterrupted) (providers : SecretProviders)
    (parameters : List Parameter) (hs : s.cancelled = false) (w : σ) :
    InOrder reply providers parameters s w ((resolve providers parameters).calls reply s w)
      ((resolve providers parameters).carried reply s w)
      (storeTurns reply providers parameters s w) (issuerTurns reply providers parameters s w) := by
  obtain ⟨hstore, huncancelled⟩ :=
    forall_storeTurns hreply (visited providers.store parameters) hs w
  have hissuer : ∀ t ∈ issuerTurns reply providers parameters s w, IssuerTurn reply t := by
    rw [issuerTurns]
    rcases hend : (forEach searchStore (visited providers.store parameters)).carried reply s w with
      ⟨e | fromStore, s', w'⟩
    · exact fun t ht => absurd ht List.not_mem_nil
    · rw [hend] at huncancelled
      exact (forall_turns (I := fun s => s.cancelled = false) (P := IssuerTurn reply)
        (fun p s w hs => issuerTurn_of hreply p hs w)
        (fun t ht hs => (cancelled_of_issuerTurn ht).trans hs) _ huncancelled w').1
  obtain ⟨hturns, hcalls⟩ := turns_resolve reply providers parameters s w
  obtain ⟨hfirst, hthrough⟩ := parameters_storeTurns reply providers parameters s w
  obtain ⟨hsecond, hall⟩ := parameters_issuerTurns reply providers parameters s w
  exact {
    consecutive := hturns
    calls := hcalls
    storeTurn := hstore
    issuerTurn := hissuer
    storeOrder := hfirst
    issuerOrder := hsecond
    storeFirst := fun hne => hthrough (Or.inl hne)
    error := fun t ht e he => hturns.error_of_mem ht he
    complete := fun found hfound => ⟨hthrough (Or.inr ⟨found, hfound⟩), hall found hfound⟩ }

/-- **The order of the lookups**: whatever is answered, as long as the cancellation is not fired,
the calls of a run and its end are those of turns in order. -/
theorem lookup_order (hreply : reply.Uninterrupted) (providers : SecretProviders)
    (parameters : List Parameter) (hs : s.cancelled = false) (w : σ) :
    ∃ byStore byIssuer, InOrder reply providers parameters s w
      ((resolve providers parameters).calls reply s w)
      ((resolve providers parameters).carried reply s w) byStore byIssuer :=
  ⟨_, _, inOrder_resolve hreply providers parameters hs w⟩

/-- The second search goes where the first secret says, and finds a secret whose field for the name
of the parameter is empty, but not that for its alias. The port has a value already. -/
theorem lookup_order_adopted_path :
    let store : String → Answer (Option SecretData) := fun path =>
      if path = "shared/ci" then .found (some [("team", "blue")])
      else if path = "blue/login" then .found (some [("password", ""), ("secret", "s3cret")])
      else .found none
    let reply := Respondent.ofShelf store (fun _ => .found [("sonar", "t0ken")])
    let team := { Parameter.plain "team" with
      references := [⟨"ci", vaultSecret, none, ["shared/ci"], none, []⟩] }
    let password := { Parameter.plain "password" with
      aliases := [⟨"secret", false⟩]
      references := [⟨"login", vaultSecret, none,
        ["$(team)/old", "$(team)/login", "shared/login"], none, []⟩] }
    let port := { Parameter.plain "port" with references := team.references }
    let token := { Parameter.plain "token" with
      references := [⟨"sonar", trustEngineSecret, none, [], some "sonar", []⟩] }
    let s := SecretRun.start ⟨[("port", .bool false)], []⟩
    let whole := resolve ⟨true, true⟩ [token, team, port, password]
    let questions : List SecretQuestion :=
      [.read "shared/ci", .read "blue/old", .read "blue/login", .issue ["sonar"]]
    reply.Uninterrupted ∧ s.cancelled = false ∧
    (whole.calls reply s (.empty "secrets")).map Prod.fst = questions ∧
    ∃ byStore byIssuer, InOrder reply ⟨true, true⟩ [token, team, port, password] s (.empty "secrets")
        (whole.calls reply s (.empty "secrets")) (whole.carried reply s (.empty "secrets"))
        byStore byIssuer ∧
      ((byStore ++ byIssuer).flatMap Turn.calls).map Prod.fst = questions := by
  intro store reply team password port token s whole questions
  have hreply : reply.Uninterrupted := by
    refine Respondent.ofShelf_uninterrupted (fun path => ?_) fun _ => rfl
    simp only [store]
    split
    · rfl
    · split <;> rfl
  have hquestions : (whole.calls reply s (.empty "secrets")).map Prod.fst = questions := by
    decide +kernel
  obtain ⟨byStore, byIssuer, horder⟩ :=
    lookup_order hreply ⟨true, true⟩ [token, team, port, password] (s := s) rfl (.empty "secrets")
  refine ⟨hreply, rfl, hquestions, byStore, byIssuer, horder, ?_⟩
  rw [List.flatMap_append, ← horder.calls]
  exact hquestions

end Secrets

end PipelineConfig
