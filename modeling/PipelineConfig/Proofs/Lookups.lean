import PipelineConfig.Proofs.Adoptions
import PipelineConfig.Proofs.FirstError
import PipelineConfig.Proofs.Respondents

/-!
# What lookups adopt

A lookup is carried on with a respondent to its end (`PipelineConfig.Lookup.carried`), which may be
a result or an error; either way it leaves a state behind. What matters about it is a report: the
secrets that were adopted on the way (`PipelineConfig.Lookup.Reports`), be there a result or not. If
there is one, it tells of these adoptions, in their order, and of no others.

Reports are put together like the lookups themselves. A lookup that only asks adopts nothing
(`PipelineConfig.Lookup.Quiet`), and of two lookups in a row the second goes on with the report of
the first (`PipelineConfig.Lookup.Reports.bind`). So there is one report for each function that
fills secret parameters, and in the end one for `PipelineConfig.Secrets.resolve`.

The respondent is arbitrary, except that its files have paths. So a store may fail at any path, the
cancellation may be fired at any question, and nothing is lost from the report.
-/

namespace PipelineConfig

/-- How a lookup ends: with a result or an error, and in which states it leaves itself and whoever
has replied. -/
structure Ending (σ α : Type) where
  result : Except SecretError α
  run : SecretRun
  world : σ

namespace Lookup

variable {σ α β : Type}

/-- Carry a lookup on with a respondent to its end. -/
def carried (l : Lookup α) (reply : Respondent σ) (s : SecretRun) (w : σ) : Ending σ α :=
  let out := (l.runFrom s).runWith reply w
  ⟨out.1.1, out.1.2, out.2⟩

/-! ### Laws of carrying on -/

section Laws

theorem runFrom_bind (l : Lookup α) (f : α → Lookup β) (s : SecretRun) :
    (l >>= f).runFrom s = (l.runFrom s).bind (fun out => ExceptT.bindCont f out.1 out.2) := rfl

theorem runFrom_map (f : α → β) (l : Lookup α) (s : SecretRun) :
    (f <$> l).runFrom s
      = (l.runFrom s).bind (fun out => match out.1 with
        | .ok a => Dialog.outcome (.ok (f a), out.2)
        | .error e => Dialog.outcome (.error e, out.2)) := by
  change (l.runFrom s).bind _ = _
  congr 1
  funext ⟨result, s'⟩
  cases result <;> rfl

theorem runFrom_tryCatch (l : Lookup α) (handler : SecretError → Lookup α) (s : SecretRun) :
    (tryCatch l handler).runFrom s
      = (l.runFrom s).bind (fun out => match out.1 with
        | .ok a => Dialog.outcome (.ok a, out.2)
        | .error e => (handler e).runFrom out.2) := by
  change (l.runFrom s).bind _ = _
  congr 1
  funext ⟨result, s'⟩
  cases result <;> rfl

variable (reply : Respondent σ) (s : SecretRun) (w : σ)

@[simp] theorem carried_pure (a : α) :
    (pure a : Lookup α).carried reply s w = ⟨.ok a, s, w⟩ := rfl

@[simp] theorem carried_throw (e : SecretError) :
    (throw e : Lookup α).carried reply s w = ⟨.error e, s, w⟩ := rfl

@[simp] theorem carried_state : state.carried reply s w = ⟨.ok s, s, w⟩ := rfl

@[simp] theorem carried_modify (f : SecretRun → SecretRun) :
    (modify f : Lookup Unit).carried reply s w = ⟨.ok (), f s, w⟩ := rfl

@[simp] theorem carried_perform (e : SecretEvent) :
    (perform e).carried reply s w = ⟨.ok (), s.perform e, w⟩ := rfl

@[simp] theorem carried_ofExcept (outcome : Except SecretError α) :
    (MonadExcept.ofExcept outcome : Lookup α).carried reply s w = ⟨outcome, s, w⟩ := by
  cases outcome <;> rfl

@[simp] theorem carried_ask (q : SecretQuestion) :
    (ask q).carried reply s w = ⟨.ok (reply q w).1, s, (reply q w).2⟩ := rfl

/-- **One lookup after the other**: the second goes on where the first has ended, unless the first
has failed. -/
theorem carried_bind (l : Lookup α) (f : α → Lookup β) :
    (l >>= f).carried reply s w
      = match l.carried reply s w with
        | ⟨.ok a, s', w'⟩ => (f a).carried reply s' w'
        | ⟨.error e, s', w'⟩ => ⟨.error e, s', w'⟩ := by
  simp only [carried, runFrom_bind, Dialog.runWith_bind]
  rcases (l.runFrom s).runWith reply w with ⟨⟨result, s'⟩, w'⟩
  cases result <;> rfl

theorem carried_map (f : α → β) (l : Lookup α) :
    (f <$> l).carried reply s w
      = ⟨(l.carried reply s w).result.map f, (l.carried reply s w).run,
          (l.carried reply s w).world⟩ := by
  simp only [carried, runFrom_map, Dialog.runWith_bind]
  rcases (l.runFrom s).runWith reply w with ⟨⟨result, s'⟩, w'⟩
  cases result <;> rfl

theorem carried_tryCatch (l : Lookup α) (handler : SecretError → Lookup α) :
    (tryCatch l handler).carried reply s w
      = match l.carried reply s w with
        | ⟨.ok a, s', w'⟩ => ⟨.ok a, s', w'⟩
        | ⟨.error e, s', w'⟩ => (handler e).carried reply s' w' := by
  simp only [carried, runFrom_tryCatch, Dialog.runWith_bind]
  rcases (l.runFrom s).runWith reply w with ⟨⟨result, s'⟩, w'⟩
  cases result <;> rfl

end Laws

/-! ### Lookups that only ask -/

variable {reply : Respondent σ}

/-- From one point of a lookup to another there was no change, and no file went away. -/
structure Idle (reply : Respondent σ) (s : SecretRun) (w : σ) (s' : SecretRun) (w' : σ) :
    Prop where
  unmoved : s.Unmoved s'
  kept : ∀ files, reply.KeepsFiles files → files w ⊆ files w'

theorem Idle.refl (s : SecretRun) (w : σ) : Idle reply s w s w :=
  ⟨.refl s, fun _ _ => List.Subset.refl _⟩

theorem Idle.trans {s t u : SecretRun} {w x y : σ} (h : Idle reply s w t x)
    (h' : Idle reply t x u y) : Idle reply s w u y :=
  ⟨h.unmoved.trans h'.unmoved,
    fun files hfiles => List.Subset.trans (h.kept files hfiles) (h'.kept files hfiles)⟩

/-- A lookup is quiet if it makes no change, whatever it is told and however it ends. -/
def Quiet (reply : Respondent σ) (l : Lookup α) : Prop :=
  ∀ s w, Idle reply s w (l.carried reply s w).run (l.carried reply s w).world

theorem quiet_pure (a : α) : (pure a : Lookup α).Quiet reply := fun s w => .refl s w

theorem quiet_throw (e : SecretError) : (throw e : Lookup α).Quiet reply := fun s w => .refl s w

theorem quiet_ofExcept (outcome : Except SecretError α) :
    (MonadExcept.ofExcept outcome : Lookup α).Quiet reply := by
  cases outcome with
  | error e => exact quiet_throw e
  | ok a => exact quiet_pure a

theorem quiet_state : state.Quiet reply := fun s w => .refl s w

theorem quiet_modify {f : SecretRun → SecretRun} (hf : ∀ s : SecretRun, s.Unmoved (f s)) :
    (modify f : Lookup Unit).Quiet reply :=
  fun s _ => ⟨hf s, fun _ _ => List.Subset.refl _⟩

theorem quiet_ask {q : SecretQuestion} (hq : ∀ directory, q ≠ .file (.removeDirectory directory)) :
    (ask q).Quiet reply :=
  fun s w => ⟨.refl s, fun _ hfiles => hfiles.kept q w hq⟩

theorem Quiet.bind {l : Lookup α} {f : α → Lookup β} (hl : l.Quiet reply)
    (hf : ∀ a, (f a).Quiet reply) : (l >>= f).Quiet reply := by
  intro s w
  have hidle := hl s w
  rw [carried_bind]
  rcases hend : l.carried reply s w with ⟨_ | a, s', w'⟩
  · rw [hend] at hidle
    exact hidle
  · rw [hend] at hidle
    exact hidle.trans (hf a s' w')

theorem Quiet.tryCatch {l : Lookup α} {handler : SecretError → Lookup α} (hl : l.Quiet reply)
    (hhandler : ∀ e, (handler e).Quiet reply) : (tryCatch l handler).Quiet reply := by
  intro s w
  have hidle := hl s w
  rw [carried_tryCatch]
  rcases hend : l.carried reply s w with ⟨e | a, s', w'⟩
  · rw [hend] at hidle
    exact hidle.trans (hhandler e s' w')
  · rw [hend] at hidle
    exact hidle

theorem quiet_checkpoint : checkpoint.Quiet reply := by
  refine quiet_state.bind fun s => ?_
  split
  · exact quiet_throw _
  · exact quiet_pure ()

theorem quiet_await {provider : Lookup (Answer α)} (hprovider : provider.Quiet reply) :
    (await provider).Quiet reply := by
  refine hprovider.bind fun answer => Quiet.bind (quiet_modify fun s => ?_) fun _ => ?_
  · cases answer.fires <;> exact ⟨rfl, rfl, rfl⟩
  · exact quiet_ofExcept answer.outcome

theorem quiet_consult {provider : Lookup (Answer α)} (hprovider : provider.Quiet reply) :
    (consult provider).Quiet reply :=
  quiet_checkpoint.bind fun _ => quiet_await hprovider

theorem quiet_read (path : String) : (read path).Quiet reply :=
  quiet_consult (quiet_ask (by simp))

theorem quiet_issue (systems : List String) : (issue systems).Quiet reply :=
  quiet_consult (quiet_ask (by simp))

/-! ### Reports -/

/-- From one point of a lookup to another some secrets were adopted, and nothing else was changed.
Each adoption is one that is called for, and the files in which secrets are now are new. -/
structure Progress (reply : Respondent σ) (calledFor : Adoption → Prop) (s : SecretRun) (w : σ)
    (as : List Adoption) (s' : SecretRun) (w' : σ) : Prop where
  adopts : s.Adopts as s'
  called : ∀ a ∈ as, calledFor a
  added : ∀ files, reply.KeepsFiles files →
    Added (files w) (as.filterMap Adoption.file?) (files w')

variable {calledFor : Adoption → Prop} {before : List ResolvedSecret}

theorem Idle.progress {s s' : SecretRun} {w w' : σ} (h : Idle reply s w s' w') :
    Progress reply calledFor s w [] s' w' where
  adopts := h.unmoved.adopts
  called := by simp
  added := fun files hfiles => added_nil (h.kept files hfiles)

theorem Progress.trans {s t u : SecretRun} {w x y : σ} {as bs : List Adoption}
    (h : Progress reply calledFor s w as t x) (h' : Progress reply calledFor t x bs u y) :
    Progress reply calledFor s w (as ++ bs) u y where
  adopts := h.adopts.trans h'.adopts
  called := fun a ha => (List.mem_append.mp ha).elim (h.called a) (h'.called a)
  added := by
    intro files hfiles
    rw [List.filterMap_append]
    exact (h.added files hfiles).trans (h'.added files hfiles)

/-- A lookup reports on what it adopts from some point on: if it has a result, then what has been
reported before and its own adoptions make up what is reported afterwards. -/
def Reports (reply : Respondent σ) (calledFor : Adoption → Prop) (s : SecretRun) (w : σ)
    (before : List ResolvedSecret) (l : Lookup α) (after : α → List ResolvedSecret) : Prop :=
  ∃ as, Progress reply calledFor s w as (l.carried reply s w).run (l.carried reply s w).world ∧
    ∀ a, (l.carried reply s w).result = .ok a → after a = before ++ as.map Adoption.resolved

variable {s : SecretRun} {w : σ}

theorem reports_pure {after : α → List ResolvedSecret} {a : α} (h : after a = before) :
    Reports reply calledFor s w before (pure a) after := by
  refine ⟨[], (Idle.refl s w).progress, fun a' ha' => ?_⟩
  obtain rfl := Except.ok.inj ha'
  rw [h, List.map_nil, List.append_nil]

/-- A lookup that fails has nothing to tell, but may have adopted some secrets before. -/
theorem reports_of_error {l : Lookup α} {after : α → List ResolvedSecret} {as : List Adoption}
    {e : SecretError} {s' : SecretRun} {w' : σ} (hend : l.carried reply s w = ⟨.error e, s', w'⟩)
    (hprogress : Progress reply calledFor s w as s' w') :
    Reports reply calledFor s w before l after := by
  rw [Reports, hend]
  exact ⟨as, hprogress, by simp⟩

theorem reports_throw {after : α → List ResolvedSecret} (e : SecretError) :
    Reports reply calledFor s w before (throw e) after :=
  reports_of_error (carried_throw reply s w e) (Idle.refl s w).progress

/-- A lookup that makes a single adoption reports on that. -/
theorem reports_adoption {l : Lookup α} {after : α → List ResolvedSecret} {a : Adoption} {r : α}
    {s' : SecretRun} {w' : σ} (hend : l.carried reply s w = ⟨.ok r, s', w'⟩)
    (hadopts : s.Adopts [a] s') (hcalled : calledFor a)
    (hadded : ∀ files, reply.KeepsFiles files → Added (files w) a.file?.toList (files w'))
    (hafter : after r = before ++ [a.resolved]) :
    Reports reply calledFor s w before l after := by
  have hfile : [a].filterMap Adoption.file? = a.file?.toList := by
    cases h : a.file? <;> simp [h]
  rw [Reports, hend]
  refine ⟨[a], ⟨hadopts, by simpa using hcalled, fun files hfiles => ?_⟩, fun r' hr' => ?_⟩
  · rw [hfile]
    exact hadded files hfiles
  · obtain rfl := Except.ok.inj hr'
    exact hafter

/-- **One lookup after the other** reports first on the one, then on the other. -/
theorem Reports.bind {l : Lookup α} {f : α → Lookup β} {mid : α → List ResolvedSecret}
    {after : β → List ResolvedSecret} (hl : Reports reply calledFor s w before l mid)
    (hf : ∀ a s' w', Reports reply calledFor s' w' (mid a) (f a) after) :
    Reports reply calledFor s w before (l >>= f) after := by
  obtain ⟨as, hprogress, htold⟩ := hl
  have hbind := carried_bind reply s w l f
  rcases hend : l.carried reply s w with ⟨e | a, s', w'⟩
  · rw [hend] at hprogress hbind
    exact reports_of_error hbind hprogress
  · rw [hend] at hprogress htold hbind
    obtain ⟨bs, hmore, htoldMore⟩ := hf a s' w'
    rw [Reports, hbind]
    refine ⟨as ++ bs, hprogress.trans hmore, fun b hb => ?_⟩
    rw [htoldMore b hb, htold a rfl, List.map_append, List.append_assoc]

/-- A lookup that only asks leaves the report to what comes after it. -/
theorem Quiet.bind_reports {l : Lookup α} {f : α → Lookup β} {after : β → List ResolvedSecret}
    (hl : l.Quiet reply)
    (hf : ∀ a s' w', s.Unmoved s' → Reports reply calledFor s' w' before (f a) after) :
    Reports reply calledFor s w before (l >>= f) after := by
  have hidle := hl s w
  have hbind := carried_bind reply s w l f
  rcases hend : l.carried reply s w with ⟨e | a, s', w'⟩
  · rw [hend] at hidle hbind
    exact reports_of_error hbind hidle.progress
  · rw [hend] at hidle hbind
    obtain ⟨as, hprogress, htold⟩ := hf a s' w' hidle.unmoved
    rw [Reports, hbind]
    exact ⟨as, hidle.progress.trans hprogress, htold⟩

/-- A lookup that begins by looking at its own state. -/
theorem reports_state_bind {f : SecretRun → Lookup β} {after : β → List ResolvedSecret}
    (h : Reports reply calledFor s w before (f s) after) :
    Reports reply calledFor s w before (state >>= f) after :=
  h

theorem Reports.map {l : Lookup α} {f : α → β} {after : β → List ResolvedSecret}
    (h : Reports reply calledFor s w before l (fun a => after (f a))) :
    Reports reply calledFor s w before (f <$> l) after := by
  obtain ⟨as, hprogress, htold⟩ := h
  rw [Reports, carried_map]
  refine ⟨as, hprogress, fun b hb => ?_⟩
  obtain ⟨a, ha, rfl⟩ := map_eq_ok_iff.mp hb
  exact htold a ha

/-- What is called for may be widened. -/
theorem Reports.mono {calledFor' : Adoption → Prop} (hle : ∀ a, calledFor a → calledFor' a)
    {l : Lookup α} {after : α → List ResolvedSecret}
    (h : Reports reply calledFor s w before l after) :
    Reports reply calledFor' s w before l after := by
  obtain ⟨as, hprogress, htold⟩ := h
  exact ⟨as, ⟨hprogress.adopts, fun a ha => hle a (hprogress.called a ha), hprogress.added⟩, htold⟩

end Lookup

end PipelineConfig
