import PipelineConfig.Proofs.Filters
import PipelineConfig.Proofs.Lookups

/-!
# Filling secret parameters only upgrades

`PipelineConfig.Secrets.resolve` goes through the parameters twice, once for the key-value store and
once for the trust service, and it changes the configuration as it goes. A second visit sees what
the first one has left, and either may end at any question.

For each function there is a report on what it adopts, in the order in which they call each other:
the file for a secret, one path and then all paths of a parameter, one parameter and then all of
them. In every report an adoption is *called for* (`PipelineConfig.Adoption.CalledForBy`): there is
a provider for the source, and the parameter refers to it. All reports together say what filling may
change and what it leaves alone (`PipelineConfig.Secrets.resolve_upgrades`), and no more is needed
to know that nothing else is touched at an early end.
-/

namespace PipelineConfig

/-- A parameter calls for an adoption if the adoption is its own, there is a provider for the source,
and the parameter refers to it. -/
def Adoption.CalledForBy (providers : SecretProviders) (p : Parameter) (a : Adoption) : Prop :=
  a.parameter = p.name ∧
    match a.source with
    | .kv _ => providers.store = true ∧ ∃ r, p.kvReference? = some (r, false)
    | .kvFile _ _ => providers.store = true ∧ ∃ r, p.kvReference? = some (r, true)
    | .trustService system => providers.issuer = true ∧ Secrets.system? p = some system

namespace Secrets

open Lookup

variable {σ : Type} {reply : Respondent σ} {providers : SecretProviders}

/-! ### Files -/

theorem quiet_directoryFor (parameter : String) : (directoryFor parameter).Quiet reply := by
  refine quiet_state.bind fun s => ?_
  split
  · exact quiet_pure _
  · refine (quiet_ask (by simp)).bind fun made => ?_
    split
    · exact quiet_throw _
    · rename_i directory
      have hkept : (modify fun s => { s with directory? := some directory } : Lookup Unit).Quiet
          reply := quiet_modify fun s => ⟨rfl, rfl, rfl⟩
      exact hkept.bind fun _ => quiet_pure _

/-- Putting a secret into a file fails without a change, or the file is new and its writing is the
one change. -/
theorem carried_writeFile (hnames : reply.NamesFiles) (parameter content : String) (s : SecretRun)
    (w : σ) :
    (∃ e s' w', (writeFile parameter content).carried reply s w = ⟨.error e, s', w'⟩ ∧
      Idle reply s w s' w') ∨
    ∃ file t w', (writeFile parameter content).carried reply s w
        = ⟨.ok file, t.perform (.wrote file content), w'⟩ ∧
      file ≠ "" ∧ s.Unmoved t ∧
      ∀ files, reply.KeepsFiles files → Added (files w) [file] (files w') := by
  have hidle : Idle reply s w _ _ := quiet_directoryFor parameter s w
  rw [writeFile, carried_bind]
  rcases hend : (directoryFor parameter).carried reply s w with ⟨e | directory, t, w'⟩
  · rw [hend] at hidle
    exact Or.inl ⟨e, t, w', rfl, hidle⟩
  · rw [hend] at hidle
    have hask : Idle reply t w' t (reply (.file (.write directory parameter content)) w').2 :=
      quiet_ask (by simp) t w'
    simp only [carried_bind, carried_ask]
    rcases hreply : (reply.writing directory parameter content w').1 with failure | file
    · left
      rw [Respondent.writing] at hreply
      refine ⟨.notWritten parameter failure, t, _, ?_, hidle.trans hask⟩
      rw [hreply]
      rfl
    · right
      refine ⟨file, t, (reply.writing directory parameter content w').2, ?_,
        hnames _ _ _ _ _ hreply, hidle.unmoved, fun files hfiles => ?_⟩
      · rw [Respondent.writing] at hreply
        rw [hreply]
        rfl
      · exact (added_nil (hidle.kept files hfiles)).trans (hfiles.added hreply)

/-! ### The key-value store -/

/-- What comes of the field for a parameter is a secret, not the empty text. -/
theorem fieldValue?_ne_empty {p : Parameter} {data : SecretData} {secret : String}
    (h : p.fieldValue? data = some secret) : secret ≠ "" := by
  obtain ⟨field, -, hfield⟩ := List.exists_of_findSome?_eq_some h
  split at hfield
  · split at hfield
    · cases hfield
    · rename_i hempty
      obtain rfl := Option.some.inj hfield
      simpa using hempty
  · cases hfield

variable {s : SecretRun} {w : σ} {before : List ResolvedSecret}

theorem reports_adopt (hnames : reply.NamesFiles) {p : Parameter} {r : ResourceReference}
    {asFile : Bool} (hstore : providers.store = true)
    (hreference : p.kvReference? = some (r, asFile)) (path : String) {secret : String}
    (hsecret : secret ≠ "") (hvacant : s.hasValue p.name = false) :
    Reports reply (Adoption.CalledForBy providers p) s w before (adopt p asFile path secret)
      (fun found => before ++ [found]) := by
  cases asFile with
  | false =>
    let a : Adoption := ⟨p.name, secret, .kv path⟩
    have hadopts : s.Adopts [a] (s.performAll a.events) :=
      SecretRun.adopts_singleton hvacant hsecret hsecret (.refl _)
    exact reports_adoption rfl hadopts ⟨rfl, hstore, r, hreference⟩
      (fun files _ => added_nil (List.Subset.refl _)) rfl
  | true =>
    rcases carried_writeFile hnames p.name secret s w with
      ⟨e, s', w', hend, hidle⟩ | ⟨file, t, w', hend, hfile, hunmoved, hadded⟩
    · have hadopt : (adopt p true path secret).carried reply s w = ⟨.error e, s', w'⟩ := by
        rw [adopt, if_pos rfl, carried_bind, hend]
      exact reports_of_error hadopt hidle.progress
    · let a : Adoption := ⟨p.name, secret, .kvFile path file⟩
      have hadopts : s.Adopts [a] (t.performAll a.events) :=
        SecretRun.adopts_singleton hvacant hsecret hfile (hunmoved.performAll a.events)
      have hadopt : (adopt p true path secret).carried reply s w
          = ⟨.ok a.resolved, t.performAll a.events, w'⟩ := by
        rw [adopt, if_pos rfl, carried_bind, hend]
        rfl
      exact reports_adoption hadopt hadopts ⟨rfl, hstore, r, hreference⟩ hadded rfl

theorem reports_searchPaths (hnames : reply.NamesFiles) {p : Parameter} {r : ResourceReference}
    {asFile : Bool} (hstore : providers.store = true)
    (hreference : p.kvReference? = some (r, asFile)) (paths : List String)
    (hvacant : s.hasValue p.name = false) :
    Reports reply (Adoption.CalledForBy providers p) s w before (searchPaths p asFile paths)
      (fun found? => before ++ found?.toList) := by
  induction paths generalizing s w with
  | nil => exact reports_pure (by simp)
  | cons path rest ih =>
    refine (quiet_read path).bind_reports fun data? t w' hunmoved => ?_
    -- to ask is to change nothing, so the parameter is still vacant at the next path
    rw [← hunmoved.hasValue] at hvacant
    split
    · rename_i secret hfound
      obtain ⟨data, -, hfield⟩ := Option.bind_eq_some_iff.mp hfound
      refine Reports.map ?_
      exact reports_adopt hnames hstore hreference path (fieldValue?_ne_empty hfield) hvacant
    · exact ih hvacant

theorem reports_searchStore (hnames : reply.NamesFiles) (hstore : providers.store = true)
    (p : Parameter) :
    Reports reply (Adoption.CalledForBy providers p) s w before (searchStore p)
      (fun found? => before ++ found?.toList) := by
  rw [searchStore]
  split
  · exact reports_pure (by simp)
  · rename_i reference asFile hreference
    refine reports_state_bind ?_
    split
    · exact reports_pure (by simp)
    · rename_i hvacant
      split
      · exact reports_throw _
      · exact reports_searchPaths hnames hstore hreference _ (by simpa using hvacant)

/-! ### The trust service -/

theorem reports_adoptToken (hissuer : providers.issuer = true) {p : Parameter} {system : String}
    (hsystem : system? p = some system) (tokens : List (String × String))
    (hvacant : s.hasValue p.name = false) :
    Reports reply (Adoption.CalledForBy providers p) s w before (adoptToken p system tokens)
      (fun found? => before ++ found?.toList) := by
  rw [adoptToken]
  split
  · exact reports_pure (by simp)
  · rename_i token hfound
    split
    · exact reports_pure (by simp)
    · rename_i hempty
      have htoken : token ≠ "" := by simpa using hempty
      let a : Adoption := ⟨p.name, token, .trustService system⟩
      have hadopts : s.Adopts [a] (s.performAll a.events) :=
        SecretRun.adopts_singleton hvacant htoken htoken (.refl _)
      exact reports_adoption rfl hadopts ⟨rfl, hissuer, hsystem⟩
        (fun files _ => added_nil (List.Subset.refl _)) rfl

theorem reports_askIssuer (hissuer : providers.issuer = true) (p : Parameter) :
    Reports reply (Adoption.CalledForBy providers p) s w before (askIssuer p)
      (fun found? => before ++ found?.toList) := by
  rw [askIssuer]
  split
  · exact reports_pure (by simp)
  · rename_i system hsystem
    refine reports_state_bind ?_
    split
    · exact reports_pure (by simp)
    · rename_i hvacant
      refine ((quiet_issue [system]).tryCatch fun e => ?_).bind_reports fun tokens t w' hunmoved => ?_
      · split
        · exact quiet_throw _
        · exact quiet_pure _
      · rw [← hunmoved.hasValue] at hvacant
        exact reports_adoptToken hissuer hsystem tokens (by simpa using hvacant)

/-! ### All parameters -/

/-- To report on one parameter after the other is to report on all. -/
theorem reports_forEach {calledFor : Adoption → Prop}
    {f : Parameter → Lookup (Option ResolvedSecret)} {parameters : List Parameter}
    (hf : ∀ p ∈ parameters, ∀ s w before, Reports reply calledFor s w before (f p)
      (fun found? => before ++ found?.toList)) :
    Reports reply calledFor s w before (forEach f parameters) (fun found => before ++ found) := by
  -- the induction carries along what has been reported before
  induction parameters generalizing s w before with
  | nil => exact reports_pure (by simp)
  | cons p rest ih =>
    refine (hf p List.mem_cons_self s w before).bind fun found? s' w' => ?_
    have hrest := fun q hq => hf q (List.mem_cons_of_mem p hq)
    refine (ih hrest).bind fun more s'' w'' => ?_
    exact reports_pure (by simp)

/-- A provider that is there is asked for all parameters, one that is not for none. -/
theorem reports_forEach_of {f : Parameter → Lookup (Option ResolvedSecret)} {isThere : Bool}
    (hf : isThere = true → ∀ p s w before, Reports reply (Adoption.CalledForBy providers p) s w
      before (f p) (fun found? => before ++ found?.toList)) (parameters : List Parameter) :
    Reports reply (fun a => ∃ p ∈ parameters, a.CalledForBy providers p) s w before
      (if isThere then forEach f parameters else pure []) (fun found => before ++ found) := by
  split
  · rename_i hthere
    refine reports_forEach fun p hp s w before => ?_
    exact (hf hthere p s w before).mono fun a ha => ⟨p, hp, ha⟩
  · exact reports_pure (by simp)

/-- Filling the parameters is to ask one provider and then the other, as far as they are there. -/
theorem resolve_eq (providers : SecretProviders) (parameters : List Parameter) :
    resolve providers parameters =
      (if providers.store then forEach searchStore parameters else pure []) >>= fun fromStore =>
        (if providers.issuer then forEach askIssuer parameters else pure []) >>= fun fromIssuer =>
          pure (fromStore ++ fromIssuer) := by
  rw [resolve]
  split <;> split <;> rfl

theorem reports_resolve (hnames : reply.NamesFiles) (providers : SecretProviders)
    (parameters : List Parameter) :
    Reports reply (fun a => ∃ p ∈ parameters, a.CalledForBy providers p) s w before
      (resolve providers parameters) (fun found => before ++ found) := by
  rw [resolve_eq]
  refine (reports_forEach_of (fun hstore p s w before =>
    reports_searchStore hnames hstore p) parameters).bind fun fromStore s' w' => ?_
  refine (reports_forEach_of (fun hissuer p s w before =>
    reports_askIssuer hissuer p) parameters).bind fun fromIssuer s'' w'' => ?_
  exact reports_pure (by simp)

/-- **What filling the parameters adopts**: however it ends, every adoption is called for by one of
the parameters, and a result tells of all adoptions. -/
theorem resolve_adopts (hnames : reply.NamesFiles) (providers : SecretProviders)
    (parameters : List Parameter) (s : SecretRun) (w : σ) :
    ∃ as, Progress reply (fun a => ∃ p ∈ parameters, a.CalledForBy providers p) s w as
        ((resolve providers parameters).carried reply s w).run
        ((resolve providers parameters).carried reply s w).world ∧
      ∀ found, ((resolve providers parameters).carried reply s w).result = .ok found →
        found = as.map Adoption.resolved := by
  obtain ⟨as, hprogress, htold⟩ : Reports reply _ s w [] (resolve providers parameters) _ :=
    reports_resolve hnames providers parameters
  exact ⟨as, hprogress, htold⟩

/-! ### What filling leaves alone -/

/-- Whether a parameter may get a value: it refers to a secret of a provider that is there. -/
def Fillable (providers : SecretProviders) (p : Parameter) : Prop :=
  (providers.store = true ∧
      (p.reference? vaultSecret ≠ none ∨ p.reference? vaultSecretFile ≠ none)) ∨
    (providers.issuer = true ∧ p.reference? trustEngineSecret ≠ none)

theorem reference?_of_kvReference? {p : Parameter} {r : ResourceReference} {asFile : Bool}
    (h : p.kvReference? = some (r, asFile)) :
    p.reference? (if asFile then vaultSecretFile else vaultSecret) = some r := by
  rw [Parameter.kvReference?] at h
  rcases hplain : p.reference? vaultSecret with _ | r'
  · rcases hfile : p.reference? vaultSecretFile with _ | r'
    · simp [hplain, hfile] at h
    · simp_all
  · simp_all

theorem reference?_of_system? {p : Parameter} {system : String} (h : system? p = some system) :
    p.reference? trustEngineSecret ≠ none := by
  intro hnone
  rw [system?, hnone] at h
  cases h

/-- The parameter that an adoption belongs to refers to its source. -/
theorem reference?_of_calledForBy {p : Parameter} {a : Adoption} (h : a.CalledForBy providers p) :
    match a.source with
    | .kv _ => providers.store = true ∧ p.reference? vaultSecret ≠ none
    | .kvFile _ _ => providers.store = true ∧ p.reference? vaultSecretFile ≠ none
    | .trustService _ => providers.issuer = true ∧ p.reference? trustEngineSecret ≠ none := by
  obtain ⟨-, hsource⟩ := h
  split at hsource
  · obtain ⟨hstore, r, hr⟩ := hsource
    have hplain : p.reference? vaultSecret = some r := reference?_of_kvReference? hr
    exact ⟨hstore, by simp [hplain]⟩
  · obtain ⟨hstore, r, hr⟩ := hsource
    have hfile : p.reference? vaultSecretFile = some r := reference?_of_kvReference? hr
    exact ⟨hstore, by simp [hfile]⟩
  · exact ⟨hsource.1, reference?_of_system? hsource.2⟩

theorem fillable_of_calledForBy {p : Parameter} {a : Adoption} (h : a.CalledForBy providers p) :
    Fillable providers p := by
  have href := reference?_of_calledForBy h
  split at href
  · exact Or.inl ⟨href.1, Or.inl href.2⟩
  · exact Or.inl ⟨href.1, Or.inr href.2⟩
  · exact Or.inr href

/-- Only a parameter with a reference for it gets a file. -/
theorem reference?_of_file? {p : Parameter} {a : Adoption} (h : a.CalledForBy providers p)
    {file : String} (hfile : a.file? = some file) : p.reference? vaultSecretFile ≠ none := by
  have href := reference?_of_calledForBy h
  rw [Adoption.file?] at hfile
  split at hfile
  · rename_i hsource
    rw [hsource] at href
    exact href.2
  · cases hfile

/-- **Filling only upgrades**, whatever the providers answer, and whether it ends well or not.
Settings for collaborators stay. No name goes away, and a value that has changed is that of a
parameter that may get one; it was missing, null or empty, and is a text other than the empty one
now. A result names exactly the parameters whose values have changed, each once. -/
theorem resolve_upgrades {σ : Type} (reply : Respondent σ) (hnames : reply.NamesFiles)
    (providers : SecretProviders) (parameters : List Parameter) (s : SecretRun) (w : σ) :
    let ending := (resolve providers parameters).carried reply s w
    ending.run.step.hooks = s.step.hooks ∧
    (∀ key, s.step.get? key ≠ none → ending.run.step.get? key ≠ none) ∧
    (∀ key, ending.run.step.get? key ≠ s.step.get? key →
      (∃ p ∈ parameters, p.name = key ∧ Fillable providers p) ∧
      (s.step.get? key = none ∨ s.step.get? key = some .null ∨
        s.step.get? key = some (.string "")) ∧
      ∃ text, text ≠ "" ∧ ending.run.step.get? key = some (.string text)) ∧
    ∀ found, ending.result = .ok found →
      (found.map ResolvedSecret.parameter).Nodup ∧
      ∀ key, key ∈ found.map ResolvedSecret.parameter
        ↔ ending.run.step.get? key ≠ s.step.get? key := by
  intro ending
  obtain ⟨as, ⟨hadopts, hcalled, -⟩, htold⟩ := resolve_adopts hnames providers parameters s w
  have hchanged : ∀ key, ending.run.step.get? key ≠ s.step.get? key →
      ∃ a ∈ as, a.parameter = key := by
    intro key hkey
    exact List.mem_map.mp (hadopts.mem_parameters_iff.mpr hkey)
  refine ⟨?_, ?_, ?_, ?_⟩
  · exact (congrArg StepConfig.hooks hadopts.step_eq).trans (s.performAll_hooks _)
  · intro key hkey hgone
    obtain ⟨a, ha, rfl⟩ := hchanged key (by rw [hgone]; exact hkey.symm)
    rw [hadopts.get?_of_mem ha] at hgone
    cases hgone
  · intro key hkey
    obtain ⟨a, ha, rfl⟩ := hchanged key hkey
    obtain ⟨p, hp, hcall⟩ := hcalled a ha
    exact ⟨⟨p, hp, hcall.1.symm, fillable_of_calledForBy hcall⟩,
      SecretRun.hasValue_eq_false_iff.mp (hadopts.vacant a ha),
      a.value, hadopts.values a ha, hadopts.get?_of_mem ha⟩
  · intro found hfound
    have hnamed : found.map ResolvedSecret.parameter = as.map Adoption.parameter := by
      rw [htold found hfound, List.map_map]
      rfl
    rw [hnamed]
    exact ⟨hadopts.distinct, fun key => hadopts.mem_parameters_iff⟩

/-- One secret is found as it is, one goes into a file, one is a token. The user name is not found,
and the port has a value already. -/
theorem resolve_upgrades_three_sources :
    let store : String → Answer (Option SecretData) := fun path =>
      if path = "team/ci" then .found (some [("cert", "c3rt"), ("password", "s3cret")])
      else .found none
    let reply := Respondent.ofShelf store (fun _ => .found [("sonar", "t0ken")])
    let password := { Parameter.plain "password" with
      references := [⟨"ciSecretName", vaultSecret, none, ["$(vaultPath)/ci"], none, []⟩] }
    let cert := { Parameter.plain "cert" with
      references := [⟨"ciSecretName", vaultSecretFile, none, ["other", "team/ci"], none, []⟩] }
    let user := { Parameter.plain "user" with
      references := [⟨"ciSecretName", vaultSecret, none, ["team/ci"], none, []⟩] }
    let token := { Parameter.plain "token" with
      references := [⟨"sonarSecretName", trustEngineSecret, none, [], some "sonar", []⟩] }
    let port := { Parameter.plain "port" with references := password.references }
    let s := SecretRun.start ⟨[("password", .string ""), ("port", .bool false), ("token", .null),
      ("vaultPath", .string "team")], []⟩
    let ending := (resolve ⟨true, true⟩ [password, cert, user, token, port]).carried reply s
      (.empty "secrets")
    reply.NamesFiles ∧
    ending.result = .ok [⟨"password", .kv "team/ci"⟩, ⟨"cert", .kvFile "team/ci" "secrets/cert"⟩,
      ⟨"token", .trustService "sonar"⟩] ∧
    (∀ key, key ∈ ["password", "cert", "token"] ↔ ending.run.step.get? key ≠ s.step.get? key) ∧
    ["password", "cert", "token"].map ending.run.step.string?
      = [some "s3cret", some "secrets/cert", some "t0ken"] := by
  dsimp only
  refine ⟨?names, ?result, ((resolve_upgrades _ ?names _ _ _ _).2.2.2 _ ?result).2, ?values⟩
  case names => exact (Respondent.ofShelf_keepsFiles _ _).named
  case result => decide +kernel
  case values => decide +kernel

end Secrets

end PipelineConfig
