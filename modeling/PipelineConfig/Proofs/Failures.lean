import PipelineConfig.Proofs.LookupOrder

/-!
# When the trust service fails

A call to the trust service may fail, and then the parameter is left without a value, as if there
were no token for it. This file says that it is no more than that.

* **A failure is a missing token** (`PipelineConfig.Secrets.alike_resolve_lenient`). Take someone
  who answers as before, only with no tokens where a call for tokens has failed
  (`PipelineConfig.Respondent.lenient`). Nothing changes at all: not the end of the run, with its
  result, its state and the state that the respondent is in, and not one call. Nothing has to be
  known of the answers for this, the cancellation may even be fired during a call that fails.
* **The service never fails a run** (`PipelineConfig.Secrets.errorOf?_resolve`): without a
  cancellation the error of a run, if there is one, is that of its part with the key-value store.
* **A failure is no affair of other parameters** (`PipelineConfig.Secrets.resolve_apart`). Take two
  respondents that differ in what they answer for tokens, in any way, and nowhere else. The runs
  with the two make the same calls, and a name under which they leave different values is that of
  a parameter whose own call was answered differently.

`PipelineConfig.Secrets.service_failures` puts them together.

The first is about what lookups make of answers, and it is proved as the lookups are put together:
two respondents are *alike* for a lookup (`PipelineConfig.Lookup.Alike`) when it cannot tell them
apart, and they are alike for two lookups in a row when they are for each. The last compares two
runs, turn by turn, as two that go side by side.
-/

namespace PipelineConfig

/-! ### Answers for tokens -/

namespace Answer

/-- No tokens instead of a failure, unless it is that of a cancellation. -/
def lenient : Answer (List (String × String)) → Answer (List (String × String))
  | .failed .cancelled => .failed .cancelled
  | .failed _ => .found []
  | .inTime (.error .cancelled) => .inTime (.error .cancelled)
  | .inTime (.error _) => .inTime (.ok [])
  | answer => answer

/-- The token for a system, if there is one in an answer. -/
def token? (system : String) (answer : Answer (List (String × String))) : Option String :=
  match answer.outcome with
  | .ok tokens => (Assoc.get? tokens system).filter (fun token => !token.isEmpty)
  | .error _ => none

end Answer

namespace Respondent

variable {σ : Type}

/-- Someone who answers as before, only with no tokens where a call for tokens has failed. -/
def lenient (reply : Respondent σ) : Respondent σ
  | .read path, w => reply (.read path) w
  | .issue systems, w =>
    (Answer.lenient (reply (.issue systems) w).1, (reply (.issue systems) w).2)
  | .file question, w => reply (.file question) w

/-- **Two who differ in tokens only**: in what they answer for tokens, and nowhere else. -/
structure SameButTokens (reply reply' : Respondent σ) : Prop where
  read : ∀ path w, reply' (.read path) w = reply (.read path) w
  file : ∀ question w, reply' (.file question) w = reply (.file question) w
  world : ∀ systems w, (reply' (.issue systems) w).2 = (reply (.issue systems) w).2

theorem sameButTokens_lenient (reply : Respondent σ) : reply.SameButTokens reply.lenient :=
  ⟨fun _ _ => rfl, fun _ _ => rfl, fun _ _ => rfl⟩

/-- The cancellation is not fired, and the trust service does not tell of one either. -/
structure Uncancelled (reply : Respondent σ) : Prop extends reply.Uninterrupted where
  service : ∀ systems w, (reply (.issue systems) w).1 ≠ Answer.failed .cancelled

/-- Providers whose answers are fixed do not cancel anything, if none of these answers does. -/
theorem ofShelf_uncancelled {store : String → Answer (Option SecretData)}
    {issuer : List String → Answer (List (String × String))}
    (hstore : ∀ path, (store path).fires = false)
    (hissuer : ∀ systems, (issuer systems).fires = false ∧ issuer systems ≠ .failed .cancelled) :
    (ofShelf store issuer).Uncancelled where
  toUninterrupted := ofShelf_uninterrupted hstore fun systems => (hissuer systems).1
  service systems _ := (hissuer systems).2

end Respondent

/-! ### Respondents that a lookup cannot tell apart -/

namespace Lookup

variable {σ α β : Type} {reply reply' : Respondent σ}

/-- **Two respondents are alike for a lookup**: it ends in the same way with both, and it makes the
same calls. -/
def Alike (reply reply' : Respondent σ) (l : Lookup α) : Prop :=
  ∀ s w, l.carried reply' s w = l.carried reply s w ∧ l.calls reply' s w = l.calls reply s w

theorem alike_pure (a : α) : (pure a : Lookup α).Alike reply reply' := fun _ _ => ⟨rfl, rfl⟩

theorem alike_throw (e : SecretError) : (throw e : Lookup α).Alike reply reply' :=
  fun _ _ => ⟨rfl, rfl⟩

theorem alike_ofExcept (outcome : Except SecretError α) :
    (MonadExcept.ofExcept outcome : Lookup α).Alike reply reply' := by
  cases outcome with
  | error e => exact alike_throw e
  | ok a => exact alike_pure a

theorem alike_state : state.Alike reply reply' := fun _ _ => ⟨rfl, rfl⟩

theorem alike_modify (f : SecretRun → SecretRun) :
    (modify f : Lookup Unit).Alike reply reply' := fun _ _ => ⟨rfl, rfl⟩

theorem alike_perform (e : SecretEvent) : (perform e).Alike reply reply' := fun _ _ => ⟨rfl, rfl⟩

theorem alike_ask {q : SecretQuestion} (h : ∀ w, reply' q w = reply q w) :
    (ask q).Alike reply reply' := by
  intro s w
  rw [carried_ask, carried_ask, calls_ask, calls_ask, h w]
  exact ⟨rfl, rfl⟩

theorem Alike.bind {l : Lookup α} {f : α → Lookup β} (hl : l.Alike reply reply')
    (hf : ∀ a, (f a).Alike reply reply') : (l >>= f).Alike reply reply' := by
  intro s w
  rw [carried_bind, carried_bind, calls_bind, calls_bind, (hl s w).1, (hl s w).2]
  rcases l.carried reply s w with ⟨e | a, s', w'⟩
  · exact ⟨rfl, rfl⟩
  · simp only [(hf a s' w').1, (hf a s' w').2, and_self]

theorem Alike.map {l : Lookup α} (hl : l.Alike reply reply') (f : α → β) :
    (f <$> l).Alike reply reply' := by
  intro s w
  rw [carried_map, carried_map, calls_map, calls_map, (hl s w).1, (hl s w).2]
  exact ⟨rfl, rfl⟩

/-- To rework the outcome is neither to change anything nor to make a call. -/
theorem run_carried_bind_pure (l : Lookup α) (g : α → β) (s : SecretRun) (w : σ) :
    ((l >>= fun a => pure (g a)).carried reply s w).run = (l.carried reply s w).run := by
  rw [carried_bind]
  rcases l.carried reply s w with ⟨e | a, s', w'⟩ <;> rfl

theorem calls_bind_pure (l : Lookup α) (g : α → β) (s : SecretRun) (w : σ) :
    (l >>= fun a => pure (g a)).calls reply s w = l.calls reply s w := by
  rw [calls_bind]
  rcases l.carried reply s w with ⟨e | a, s', w'⟩ <;> exact List.append_nil _

theorem alike_consult {provider : Lookup (Answer α)} (h : provider.Alike reply reply') :
    (consult provider).Alike reply reply' := by
  have hcheckpoint : checkpoint.Alike reply reply' := by
    refine alike_state.bind fun s => ?_
    split
    · exact alike_throw _
    · exact alike_pure ()
  exact hcheckpoint.bind fun _ => h.bind fun answer =>
    (alike_modify _).bind fun _ => alike_ofExcept answer.outcome

end Lookup

namespace Secrets

open Lookup

variable {σ : Type} {reply reply' : Respondent σ}

/-! ### The store does not know of tokens -/

section SameButTokens

variable (h : reply.SameButTokens reply')
include h

theorem alike_directoryFor (parameter : String) :
    (directoryFor parameter).Alike reply reply' := by
  refine alike_state.bind fun s => ?_
  cases s.directory? with
  | some directory => exact alike_pure directory
  | none =>
    refine (alike_ask (h.file .makeDirectory)).bind fun made => ?_
    cases made with
    | error failure => exact alike_throw _
    | ok directory => exact (alike_modify _).bind fun _ => alike_pure directory

theorem alike_writeFile (parameter content : String) :
    (writeFile parameter content).Alike reply reply' := by
  refine (alike_directoryFor h parameter).bind fun directory => ?_
  refine (alike_ask (h.file (.write directory parameter content))).bind fun written => ?_
  cases written with
  | error failure => exact alike_throw _
  | ok file => exact (alike_perform _).bind fun _ => alike_pure file

theorem alike_adopt (p : Parameter) (asFile : Bool) (path secret : String) :
    (adopt p asFile path secret).Alike reply reply' := by
  cases asFile with
  | true =>
    exact (alike_writeFile h p.name secret).bind fun file =>
      (alike_perform _).bind fun _ => (alike_perform _).bind fun _ => alike_pure _
  | false => exact (alike_perform _).bind fun _ => (alike_perform _).bind fun _ => alike_pure _

theorem alike_searchPaths (p : Parameter) (asFile : Bool) (paths : List String) :
    (searchPaths p asFile paths).Alike reply reply' := by
  induction paths with
  | nil => exact alike_pure none
  | cons path rest ih =>
    have hread : (read path).Alike reply reply' := alike_consult (alike_ask (h.read path))
    refine hread.bind fun data? => ?_
    cases data?.bind p.fieldValue? with
    | some secret => exact (alike_adopt h p asFile path secret).map some
    | none => exact ih

/-- **A turn with the key-value store is the same** whoever issues tokens. -/
theorem alike_searchStore (p : Parameter) : (searchStore p).Alike reply reply' := by
  rw [searchStore]
  rcases p.kvReference? with _ | ⟨r, asFile⟩
  · exact alike_pure none
  · refine alike_state.bind fun s => ?_
    split
    · exact alike_pure none
    · cases r.secretPaths s.step.config with
      | error cause => exact alike_throw _
      | ok paths => exact alike_searchPaths h p asFile paths

end SameButTokens

/-- Respondents that are alike for every turn are alike for all turns. -/
theorem alike_forEach {f : Parameter → Lookup (Option ResolvedSecret)}
    (hf : ∀ p, (f p).Alike reply reply') (parameters : List Parameter) :
    (forEach f parameters).Alike reply reply' := by
  induction parameters with
  | nil => exact alike_pure []
  | cons p rest ih => exact (hf p).bind fun found? => ih.bind fun more => alike_pure _

/-! ### A failure is a missing token -/

/-- Tokens, or none if there is a failure other than a cancellation. -/
def issueOrNone (system : String) : Lookup (List (String × String)) :=
  tryCatch (issue [system]) (fun e =>
    match e with
    | .cancelled => throw .cancelled
    | _ => pure [])

theorem alike_issueOrNone_lenient (system : String) :
    (issueOrNone system).Alike reply reply.lenient := by
  intro s w
  rw [issueOrNone, carried_tryCatch, carried_tryCatch, calls_tryCatch, calls_tryCatch]
  rcases hs : s.cancelled with _ | _
  · rw [carried_issue hs, carried_issue hs, calls_issue hs, calls_issue hs]
    -- the two differ where an error is handled, and there both go on with no tokens
    simp only [Respondent.lenient]
    rcases (reply (.issue [system]) w).1 with tokens | e | _ | (e | tokens)
    · exact ⟨rfl, rfl⟩
    · cases e <;> exact ⟨rfl, rfl⟩
    · exact ⟨rfl, rfl⟩
    · cases e <;> exact ⟨rfl, rfl⟩
    · exact ⟨rfl, rfl⟩
  · have hcut (reply : Respondent σ) : (issue [system]).carried reply s w
        = ⟨.error .cancelled, s, w⟩ ∧ (issue [system]).calls reply s w = [] :=
      carried_consult_of_cancelled hs _
    rw [(hcut reply).1, (hcut reply.lenient).1, (hcut reply).2, (hcut reply.lenient).2]
    exact ⟨rfl, rfl⟩

theorem alike_adoptToken (p : Parameter) (system : String) (tokens : List (String × String)) :
    (adoptToken p system tokens).Alike reply reply' := by
  rw [adoptToken]
  split
  · exact alike_pure none
  · split
    · exact alike_pure none
    · exact (alike_perform _).bind fun _ => (alike_perform _).bind fun _ => alike_pure _

theorem alike_askIssuer_lenient (p : Parameter) : (askIssuer p).Alike reply reply.lenient := by
  rw [askIssuer]
  cases system? p with
  | none => exact alike_pure none
  | some system =>
    refine alike_state.bind fun s => ?_
    split
    · exact alike_pure none
    · exact (alike_issueOrNone_lenient system).bind fun tokens => alike_adoptToken p system tokens

/-- **A failure of the trust service is a missing token**: a run cannot tell them apart. -/
theorem alike_resolve_lenient (reply : Respondent σ) (providers : SecretProviders)
    (parameters : List Parameter) :
    (resolve providers parameters).Alike reply reply.lenient := by
  rw [resolve_eq, ← forEach_visited, ← forEach_visited]
  refine (alike_forEach (alike_searchStore reply.sameButTokens_lenient) _).bind fun fromStore => ?_
  exact (alike_forEach alike_askIssuer_lenient _).bind fun fromIssuer => alike_pure _

/-! ### Turns with the service that is not cancelled -/

section Turns

variable {s s' : SecretRun} {w : σ} {p : Parameter} {system : String}

/-- The system for which a parameter asks in its turn, unless the turn is passed over. -/
def asksFor? (s : SecretRun) (p : Parameter) : Option String :=
  if s.hasValue p.name then none else system? p

/-- The changes that a parameter makes to take a token. -/
def taking (p : Parameter) : Option String → List SecretEvent
  | none => []
  | some token => [.masked token, .adopted p.name token]

/-- A turn that is passed over. -/
theorem askIssuer_of_none (reply : Respondent σ) (h : asksFor? s p = none) (w : σ) :
    (askIssuer p).carried reply s w = ⟨.ok none, s, w⟩ ∧ (askIssuer p).calls reply s w = [] := by
  rw [askIssuer]
  rw [asksFor?] at h
  rcases hsystem : system? p with _ | system
  · exact ⟨rfl, rfl⟩
  · have hvalue : s.hasValue p.name = true := by
      by_contra hvacant
      rw [if_neg hvacant, hsystem] at h
      cases h
    simp only [carried_bind, calls_bind, carried_state, calls_state, if_pos hvalue]
    exact ⟨rfl, rfl⟩

/-- **A turn with a call**: what comes of it is settled by the token in the answer. -/
theorem askIssuer_of_some (hreply : reply.Uncancelled) (hs : s.cancelled = false)
    (h : asksFor? s p = some system) (w : σ) :
    (askIssuer p).carried reply s w
        = ⟨.ok ((Answer.token? system (reply (.issue [system]) w).1).map
              (fun _ => ⟨p.name, .trustService system⟩)),
            s.performAll (taking p (Answer.token? system (reply (.issue [system]) w).1)),
            (reply (.issue [system]) w).2⟩ ∧
      (askIssuer p).calls reply s w = [(.issue [system], w)] := by
  rw [asksFor?, Option.ite_none_left_eq_some] at h
  obtain ⟨hvacant, hsystem⟩ := h
  rw [askIssuer, hsystem]
  simp only [carried_bind, calls_bind, carried_state, calls_state, if_neg hvacant,
    carried_tryCatch, calls_tryCatch, carried_issue hs, calls_issue hs, List.nil_append]
  have hplain := Answer.found_or_failed (hreply.issue [system] w)
  rcases hanswer : reply (.issue [system]) w with ⟨answer, w'⟩
  rw [hanswer] at hplain
  rcases hplain with ⟨tokens, rfl⟩ | ⟨e, rfl⟩
  · simp only [Answer.ending_found, Answer.token?, Answer.outcome, calls_adoptToken, List.append_nil,
      and_true]
    rw [adoptToken]
    rcases Assoc.get? tokens system with _ | token
    · rfl
    · rcases hempty : token.isEmpty with _ | _
      · simp only [Option.filter, hempty]
        rfl
      · simp only [Option.filter, hempty]
        rfl
  · cases e with
    | cancelled => exact absurd (congrArg Prod.fst hanswer) (hreply.service [system] w)
    | _ => exact ⟨rfl, rfl⟩

theorem cancelled_performAll_taking (s : SecretRun) (p : Parameter) (token? : Option String) :
    (s.performAll (taking p token?)).cancelled = s.cancelled := by
  cases token? <;> rfl

/-- A parameter takes a token for itself. -/
theorem get?_performAll_taking {key : String} (hkey : key ≠ p.name) (s : SecretRun)
    (token? : Option String) :
    (s.performAll (taking p token?)).step.get? key = s.step.get? key := by
  rw [SecretRun.get?_performAll]
  cases token? with
  | none => rfl
  | some token =>
    have hlast : Assoc.last? (SecretEvent.adoptedAmong (taking p (some token))) key = none := by
      refine Assoc.last?_eq_none_iff.mpr ?_
      change key ∉ [p.name]
      simpa using hkey
    rw [hlast]
    rfl

/-- Without a cancellation a turn with the service ends well. -/
theorem askIssuer_ok (hreply : reply.Uncancelled) (hs : s.cancelled = false) (p : Parameter)
    (w : σ) :
    ∃ found? token? w', (askIssuer p).carried reply s w
      = ⟨.ok found?, s.performAll (taking p token?), w'⟩ := by
  rcases h : asksFor? s p with _ | system
  · exact ⟨none, none, w, (askIssuer_of_none reply h w).1⟩
  · exact ⟨_, _, _, (askIssuer_of_some hreply hs h w).1⟩

/-- So all turns with the service end well. -/
theorem forEach_askIssuer_ok (hreply : reply.Uncancelled) (parameters : List Parameter)
    (hs : s.cancelled = false) (w : σ) :
    ∃ found, ((forEach askIssuer parameters).carried reply s w).result = .ok found := by
  induction parameters generalizing s w with
  | nil => exact ⟨[], rfl⟩
  | cons p rest ih =>
    obtain ⟨found?, token?, w', hturn⟩ := askIssuer_ok hreply hs p w
    obtain ⟨found, hfound⟩ := ih ((cancelled_performAll_taking s p token?).trans hs) w'
    refine ⟨found?.toList ++ found, ?_⟩
    simp only [carried_forEach_cons, hturn, hfound]
    rfl

/-- **The trust service never fails a run**: the only error is that of a turn with the store. -/
theorem errorOf?_resolve (hreply : reply.Uncancelled) (providers : SecretProviders)
    (parameters : List Parameter) (hs : s.cancelled = false) (w : σ) :
    errorOf? ((resolve providers parameters).carried reply s w).result
      = errorOf? ((forEach searchStore (visited providers.store parameters)).carried
          reply s w).result := by
  have huncancelled := (forall_storeTurns hreply.toUninterrupted
    (visited providers.store parameters) hs w).2
  rw [resolve_eq, ← forEach_visited, ← forEach_visited, carried_bind]
  rcases hend : (forEach searchStore (visited providers.store parameters)).carried reply s w with
    ⟨e | fromStore, s', w'⟩
  · rfl
  · rw [hend] at huncancelled
    obtain ⟨found, hfound⟩ := forEach_askIssuer_ok hreply (visited providers.issuer parameters)
      huncancelled w'
    simp only [carried_bind]
    rcases hmore : (forEach askIssuer (visited providers.issuer parameters)).carried reply s' w'
      with ⟨e | fromIssuer, s'', w''⟩
    · rw [hmore] at hfound
      cases hfound
    · rfl

end Turns

/-! ### Two runs side by side -/

/-- A parameter is answered differently by two respondents, in a call of its own. -/
def AnsweredApart (reply reply' : Respondent σ) (calls : List (SecretQuestion × σ))
    (p : Parameter) : Prop :=
  ∃ system w, p.NamesSystem system ∧ (.issue [system], w) ∈ calls ∧
    (reply' (.issue [system]) w).1 ≠ (reply (.issue [system]) w).1

/-- Two runs are abreast: neither is cancelled, and they have the same values but for names that are
known to be apart. -/
structure Abreast (apart : String → Prop) (s s' : SecretRun) : Prop where
  running : s.cancelled = false
  running' : s'.cancelled = false
  values : ∀ key, s'.step.get? key = s.step.get? key ∨ apart key

variable {s s' : SecretRun} {apart : String → Prop}

theorem Abreast.mono {apart' : String → Prop} (h : Abreast apart s s')
    (hle : ∀ key, apart key → apart' key) : Abreast apart' s s' :=
  ⟨h.running, h.running', fun key => (h.values key).imp_right (hle key)⟩

theorem Abreast.asksFor? (h : Abreast apart s s') {p : Parameter} (hp : ¬ apart p.name) :
    asksFor? s' p = asksFor? s p := by
  rw [Secrets.asksFor?, Secrets.asksFor?, SecretRun.hasValue, SecretRun.hasValue,
    (h.values p.name).resolve_right hp]

theorem abreast_refl (hs : s.cancelled = false) : Abreast (fun _ => False) s s :=
  ⟨hs, hs, fun _ => Or.inl rfl⟩

theorem visited_sublist (isThere : Bool) (parameters : List Parameter) :
    (visited isThere parameters).Sublist parameters := by
  cases isThere with
  | true => exact List.Sublist.refl _
  | false => exact List.nil_sublist _

section SideBySide

variable (hreply : reply.Uncancelled) (hreply' : reply'.Uncancelled)
  (hsame : reply.SameButTokens reply')
include hreply hreply' hsame

/-- **A turn keeps two runs abreast**, but for the parameter itself if it is answered
differently. -/
theorem abreast_askIssuer (h : Abreast apart s s') {p : Parameter} (hp : ¬ apart p.name) (w : σ) :
    ∃ found? found?' t t' w',
      (askIssuer p).carried reply s w = ⟨.ok found?, t, w'⟩ ∧
      (askIssuer p).carried reply' s' w = ⟨.ok found?', t', w'⟩ ∧
      (askIssuer p).calls reply' s' w = (askIssuer p).calls reply s w ∧
      Abreast (fun key => apart key ∨
        p.name = key ∧ AnsweredApart reply reply' ((askIssuer p).calls reply s w) p) t t' := by
  have hasks := h.asksFor? hp
  rcases hsystem : asksFor? s p with _ | system
  · rw [hsystem] at hasks
    obtain ⟨hturn, hcalls⟩ := askIssuer_of_none reply hsystem w
    obtain ⟨hturn', hcalls'⟩ := askIssuer_of_none reply' hasks w
    exact ⟨none, none, s, s', w, hturn, hturn', hcalls'.trans hcalls.symm,
      h.mono fun key hkey => Or.inl hkey⟩
  · rw [hsystem] at hasks
    obtain ⟨hturn, hcalls⟩ := askIssuer_of_some hreply h.running hsystem w
    obtain ⟨hturn', hcalls'⟩ := askIssuer_of_some hreply' h.running' hasks w
    rw [hsame.world] at hturn'
    refine ⟨_, _, _, _, _, hturn, hturn', hcalls'.trans hcalls.symm, ?_⟩
    refine ⟨(cancelled_performAll_taking s p _).trans h.running,
      (cancelled_performAll_taking s' p _).trans h.running', fun key => ?_⟩
    by_cases hkey : key = p.name
    · subst hkey
      by_cases hanswer : (reply' (.issue [system]) w).1 = (reply (.issue [system]) w).1
      · left
        rw [SecretRun.get?_performAll, SecretRun.get?_performAll, hanswer,
          (h.values p.name).resolve_right hp]
      · right; right
        have hnames : system? p = some system := by
          rw [asksFor?, Option.ite_none_left_eq_some] at hsystem
          exact hsystem.2
        refine ⟨rfl, system, w, system?_eq_some_iff.mp hnames, ?_, hanswer⟩
        rw [hcalls]
        exact List.mem_singleton_self _
    · rw [get?_performAll_taking hkey, get?_performAll_taking hkey]
      exact (h.values key).imp_right Or.inl

/-- **All turns keep two runs abreast**, but for the parameters that are answered differently. -/
theorem abreast_forEach_askIssuer {parameters : List Parameter}
    (hnames : (parameters.map Parameter.name).Nodup) (h : Abreast apart s s')
    (hparameters : ∀ p ∈ parameters, ¬ apart p.name) (w : σ) :
    (forEach askIssuer parameters).calls reply' s' w
        = (forEach askIssuer parameters).calls reply s w ∧
      Abreast (fun key => apart key ∨ ∃ p ∈ parameters, p.name = key ∧
          AnsweredApart reply reply' ((forEach askIssuer parameters).calls reply s w) p)
        ((forEach askIssuer parameters).carried reply s w).run
        ((forEach askIssuer parameters).carried reply' s' w).run := by
  induction parameters generalizing s s' apart w with
  | nil => exact ⟨rfl, h.mono fun key hkey => Or.inl hkey⟩
  | cons p rest ih =>
    rw [List.map_cons, List.nodup_cons] at hnames
    obtain ⟨hp, hrest⟩ := hnames
    obtain ⟨found?, found?', t, t', w', hturn, hturn', hcalls, habreast⟩ :=
      abreast_askIssuer hreply hreply' hsame h (hparameters p List.mem_cons_self) w
    -- the name of a later parameter is another one, so nothing is known to be apart there
    have hlater : ∀ q ∈ rest, ¬ (apart q.name ∨ p.name = q.name ∧
        AnsweredApart reply reply' ((askIssuer p).calls reply s w) p) := by
      rintro q hq (hapart | ⟨hname, -⟩)
      · exact hparameters q (List.mem_cons_of_mem p hq) hapart
      · exact hp (hname ▸ List.mem_map_of_mem hq)
    obtain ⟨hcallsRest, habreastRest⟩ := ih hrest habreast hlater w'
    simp only [carried_forEach_cons, calls_forEach_cons, hturn, hturn', hcalls, hcallsRest,
      true_and]
    refine habreastRest.mono ?_
    rintro key ((hapart | ⟨rfl, system, v, hsystem, hcall, hanswer⟩) |
      ⟨q, hq, rfl, system, v, hsystem, hcall, hanswer⟩)
    · exact Or.inl hapart
    · exact Or.inr ⟨p, List.mem_cons_self, rfl, system, v, hsystem,
        List.mem_append_left _ hcall, hanswer⟩
    · exact Or.inr ⟨q, List.mem_cons_of_mem p hq, rfl, system, v, hsystem,
        List.mem_append_right _ hcall, hanswer⟩

/-- **What is answered for the token of one parameter is no affair of the others.** -/
theorem resolve_apart (providers : SecretProviders) {parameters : List Parameter}
    (hnames : (parameters.map Parameter.name).Nodup) (hs : s.cancelled = false) (w : σ) :
    (resolve providers parameters).calls reply' s w
        = (resolve providers parameters).calls reply s w ∧
      Abreast (fun key => ∃ p ∈ parameters, p.name = key ∧
          AnsweredApart reply reply' ((resolve providers parameters).calls reply s w) p)
        ((resolve providers parameters).carried reply s w).run
        ((resolve providers parameters).carried reply' s w).run := by
  have hissuer := visited_sublist providers.issuer parameters
  obtain ⟨hstore, hstoreCalls⟩ := alike_forEach (alike_searchStore hsame)
    (visited providers.store parameters) s w
  have hrunning := (forall_storeTurns hreply.toUninterrupted
    (visited providers.store parameters) hs w).2
  rw [resolve_eq, ← forEach_visited, ← forEach_visited, carried_bind, carried_bind, calls_bind,
    calls_bind, hstore, hstoreCalls]
  rcases hend : (forEach searchStore (visited providers.store parameters)).carried reply s w with
    ⟨e | fromStore, t, v⟩
  · rw [hend] at hrunning
    exact ⟨rfl, (abreast_refl hrunning).mono fun _ => False.elim⟩
  · rw [hend] at hrunning
    obtain ⟨hcalls, habreast⟩ := abreast_forEach_askIssuer hreply hreply' hsame
      (hnames.sublist (hissuer.map Parameter.name)) (abreast_refl hrunning) (fun _ _ => id) v
    simp only [calls_bind_pure, run_carried_bind_pure, hcalls, true_and]
    refine habreast.mono ?_
    rintro key (hapart | ⟨p, hp, hkey, system, z, hsystem, hcall, hanswer⟩)
    · exact hapart.elim
    · exact ⟨p, hissuer.subset hp, hkey, system, z, hsystem, List.mem_append_right _ hcall, hanswer⟩

end SideBySide

/-! ### Failures of the trust service -/

/-- A call of a turn fails. -/
def FailedIn (reply : Respondent σ) (t : Turn σ) : Prop :=
  ∃ system v e, (.issue [system], v) ∈ t.calls ∧
    (reply (.issue [system]) v).1 = Answer.failed e

/-- Unless it is cancelled, a turn with the service in which a call fails changes nothing. -/
theorem unchanged_of_failedIn (hreply : reply.Uncancelled) {t : Turn σ} (ht : IssuerTurn reply t)
    (hfailed : FailedIn reply t) : t.ending.run = t.run ∧ t.ending.result = .ok none := by
  obtain ⟨system, v, e, hcall, hanswer⟩ := hfailed
  cases ht with
  | skipped hskip => cases hcall
  | issued hsystem hvacant hfound htoken hne =>
    cases List.mem_singleton.mp hcall
    rw [hfound] at hanswer
    cases hanswer
  | unissued hsystem hvacant hfound htoken => exact ⟨rfl, rfl⟩
  | failed hsystem hvacant hfail he => exact ⟨rfl, rfl⟩
  | cancelled hsystem hvacant hcancelled =>
    exact absurd (congrArg Prod.fst hcancelled) (hreply.service _ _)

/-- **A failure of the trust service is a missing token, and no more than that.**

* With whoever answers a failed call with no tokens instead, the end of the run is the same, and so
  are the calls.
* Without a cancellation the error of the run, if there is one, is that of the run without the
  service. A turn in which a call fails leaves the run as it was.
* Without a cancellation, and with distinct names, what is answered for tokens is an affair of each
  parameter for itself. Whatever else is answered, the calls are the same, and where another value
  comes of it, this is the value of a parameter whose own call is answered differently. -/
theorem service_failures (reply : Respondent σ) (providers : SecretProviders)
    (parameters : List Parameter) (s : SecretRun) (w : σ) :
    ((resolve providers parameters).carried reply.lenient s w
        = (resolve providers parameters).carried reply s w ∧
      (resolve providers parameters).calls reply.lenient s w
        = (resolve providers parameters).calls reply s w) ∧
    (reply.Uncancelled → s.cancelled = false →
      errorOf? ((resolve providers parameters).carried reply s w).result
          = errorOf? ((resolve { providers with issuer := false } parameters).carried
              reply s w).result ∧
        (∀ t ∈ issuerTurns reply providers parameters s w, FailedIn reply t →
          t.ending.run = t.run ∧ t.ending.result = .ok none) ∧
        ∀ reply' : Respondent σ, reply'.Uncancelled → reply.SameButTokens reply' →
          (parameters.map Parameter.name).Nodup →
          (resolve providers parameters).calls reply' s w
              = (resolve providers parameters).calls reply s w ∧
            ∀ key, ((resolve providers parameters).carried reply' s w).run.step.get? key
                ≠ ((resolve providers parameters).carried reply s w).run.step.get? key →
              ∃ p ∈ parameters, p.name = key ∧
                AnsweredApart reply reply' ((resolve providers parameters).calls reply s w) p) := by
  refine ⟨alike_resolve_lenient reply providers parameters s w, fun hreply hs => ⟨?_, ?_, ?_⟩⟩
  · rw [errorOf?_resolve hreply providers parameters hs,
      errorOf?_resolve hreply { providers with issuer := false } parameters hs]
  · intro t ht hfailed
    have horder := inOrder_resolve hreply.toUninterrupted providers parameters hs w
    exact unchanged_of_failedIn hreply (horder.issuerTurn t ht) hfailed
  · intro reply' hreply' hsame hnames
    obtain ⟨hcalls, habreast⟩ := resolve_apart hreply hreply' hsame providers hnames hs w
    exact ⟨hcalls, fun key hkey => (habreast.values key).resolve_left hkey⟩

/-- There is no token for one parameter, since the service is down for its system. The run ends
well, and the other parameter has its token, as it has when the service is up again. -/
theorem service_failures_of_one_system :
    let store : String → Answer (Option SecretData) := fun _ => .found none
    let down : List String → Answer (List (String × String)) := fun systems =>
      if systems = ["sonar"] then .failed (.issuer "trust/tokens" (.other "down"))
      else .found [("jira", "t1cket")]
    let up : List String → Answer (List (String × String)) := fun systems =>
      if systems = ["sonar"] then .found [("sonar", "t0ken")] else .found [("jira", "t1cket")]
    let reply := Respondent.ofShelf store down
    let reply' := Respondent.ofShelf store up
    let token := { Parameter.plain "token" with
      references := [⟨"sonar", trustEngineSecret, none, [], some "sonar", []⟩] }
    let ticket := { Parameter.plain "ticket" with
      references := [⟨"jira", trustEngineSecret, none, [], some "jira", []⟩] }
    let whole := resolve ⟨true, true⟩ [token, ticket]
    let s := SecretRun.start ⟨[], []⟩
    let w := SecretShelf.empty "secrets"
    reply.Uncancelled ∧ reply'.Uncancelled ∧ reply.SameButTokens reply' ∧
    (whole.carried reply s w).result = .ok [⟨"ticket", .trustService "jira"⟩] ∧
    errorOf? (whole.carried reply s w).result
      = errorOf? ((resolve ⟨true, false⟩ [token, ticket]).carried reply s w).result ∧
    (whole.calls reply' s w).map Prod.fst = [.issue ["sonar"], .issue ["jira"]] ∧
    whole.calls reply' s w = whole.calls reply s w ∧
    ∀ key ≠ "token", (whole.carried reply' s w).run.step.get? key
      = (whole.carried reply s w).run.step.get? key := by
  intro store down up reply reply' token ticket whole s w
  have hreply : reply.Uncancelled := by
    refine Respondent.ofShelf_uncancelled (fun _ => rfl) fun systems => ?_
    simp only [down]
    split <;> exact ⟨rfl, nofun⟩
  have hreply' : reply'.Uncancelled := by
    refine Respondent.ofShelf_uncancelled (fun _ => rfl) fun systems => ?_
    simp only [up]
    split <;> exact ⟨rfl, nofun⟩
  have hsame : reply.SameButTokens reply' := ⟨fun _ _ => rfl, fun _ _ => rfl, fun _ _ => rfl⟩
  obtain ⟨herror, -, hapart⟩ :=
    (service_failures reply ⟨true, true⟩ [token, ticket] s w).2 hreply rfl
  obtain ⟨hcalls, hvalues⟩ := hapart reply' hreply' hsame (by decide)
  refine ⟨hreply, hreply', hsame, by rfl, herror, by decide +kernel, hcalls, ?_⟩
  intro key hkey
  by_contra hne
  obtain ⟨p, hp, hname, system, v, hsystem, -, hanswer⟩ := hvalues key hne
  rcases List.mem_pair.mp hp with rfl | rfl
  · exact hkey hname.symm
  · obtain rfl : system = "jira" :=
      Option.some.inj ((system?_eq_some_iff.mpr hsystem).symm.trans rfl)
    exact hanswer rfl

end Secrets

end PipelineConfig
