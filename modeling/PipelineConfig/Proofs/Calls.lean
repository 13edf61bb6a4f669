import PipelineConfig.Proofs.Lookups

/-!
# What providers are asked

A lookup asks two kinds of question. Those about files are its own affair; the others go to a
provider, and such a question is a *call*. This file says which calls a lookup makes with a
respondent, in order, and in which state of the respondent it makes each
(`PipelineConfig.Lookup.calls`).

Calls are put together like the lookups themselves: of two lookups in a row those of the first come
first, and those of the second follow if the first has a result
(`PipelineConfig.Lookup.calls_bind`). The only lookups that make a call on their own account are
`PipelineConfig.Lookup.read` and `PipelineConfig.Lookup.issue`, each of them one
(`PipelineConfig.Lookup.calls_read`), and what comes of it is what the provider answers
(`PipelineConfig.Answer.ending`).
-/

namespace PipelineConfig

namespace Dialog

variable {Q σ : Type} {R : Q → Type} {α β : Type}

/-- The questions that a dialog asks, in order, each with the state of whoever replies to it. -/
def asked (reply : (q : Q) → σ → R q × σ) : Dialog Q R α → σ → List (Q × σ)
  | outcome _, _ => []
  | ask q next, w => (q, w) :: (next (reply q w).1).asked reply (reply q w).2

theorem asked_bind (reply : (q : Q) → σ → R q × σ) (d : Dialog Q R α) (f : α → Dialog Q R β)
    (w : σ) :
    (d.bind f).asked reply w
      = d.asked reply w ++ (f (d.runWith reply w).1).asked reply (d.runWith reply w).2 := by
  induction d generalizing w with
  | outcome a => rfl
  | ask q next ih => exact congrArg ((q, w) :: ·) (ih (reply q w).1 (reply q w).2)

end Dialog

/-- Whether a question goes to a provider. -/
def SecretQuestion.isCall : SecretQuestion → Bool
  | .file _ => false
  | _ => true

/-- How a lookup ends that does no more than to ask a provider. -/
def Answer.ending {σ α : Type} (s : SecretRun) (w : σ) (answer : Answer α) : Ending σ α :=
  ⟨answer.outcome, s.heed answer.fires, w⟩

theorem Answer.ending_found {σ α : Type} (s : SecretRun) (w : σ) (a : α) :
    (Answer.found a).ending s w = ⟨.ok a, s, w⟩ := rfl

namespace Lookup

variable {σ α β : Type}

/-- **The calls that a lookup makes**, in order, each with the state of the respondent. -/
def calls (l : Lookup α) (reply : Respondent σ) (s : SecretRun) (w : σ) :
    List (SecretQuestion × σ) :=
  ((l.runFrom s).asked reply w).filter (fun c => c.1.isCall)

/-! ### Laws of calls -/

section Laws

variable (reply : Respondent σ) (s : SecretRun) (w : σ)

@[simp] theorem calls_pure (a : α) : (pure a : Lookup α).calls reply s w = [] := rfl

@[simp] theorem calls_throw (e : SecretError) : (throw e : Lookup α).calls reply s w = [] := rfl

@[simp] theorem calls_ofExcept (outcome : Except SecretError α) :
    (MonadExcept.ofExcept outcome : Lookup α).calls reply s w = [] := by
  cases outcome <;> rfl

@[simp] theorem calls_state : state.calls reply s w = [] := rfl

@[simp] theorem calls_modify (f : SecretRun → SecretRun) :
    (modify f : Lookup Unit).calls reply s w = [] := rfl

@[simp] theorem calls_perform (e : SecretEvent) : (perform e).calls reply s w = [] := rfl

@[simp] theorem calls_ask (q : SecretQuestion) :
    (ask q).calls reply s w = if q.isCall then [(q, w)] else [] := by
  change List.filter (fun c => c.1.isCall) [(q, w)] = _
  rw [List.filter_cons, List.filter_nil]

/-- **One lookup after the other**: first the calls of the one, then those of the other, unless the
first has failed. -/
theorem calls_bind (l : Lookup α) (f : α → Lookup β) :
    (l >>= f).calls reply s w
      = l.calls reply s w ++ match l.carried reply s w with
        | ⟨.ok a, s', w'⟩ => (f a).calls reply s' w'
        | ⟨.error _, _, _⟩ => [] := by
  simp only [calls, carried, runFrom_bind, Dialog.asked_bind, List.filter_append]
  rcases (l.runFrom s).runWith reply w with ⟨⟨result, s'⟩, w'⟩
  cases result <;> rfl

theorem calls_map (f : α → β) (l : Lookup α) : (f <$> l).calls reply s w = l.calls reply s w := by
  simp only [calls, runFrom_map, Dialog.asked_bind, List.filter_append]
  rcases (l.runFrom s).runWith reply w with ⟨⟨result, s'⟩, w'⟩
  cases result <;> exact List.append_nil _

theorem calls_tryCatch (l : Lookup α) (handler : SecretError → Lookup α) :
    (tryCatch l handler).calls reply s w
      = l.calls reply s w ++ match l.carried reply s w with
        | ⟨.ok _, _, _⟩ => []
        | ⟨.error e, s', w'⟩ => (handler e).calls reply s' w' := by
  simp only [calls, carried, runFrom_tryCatch, Dialog.asked_bind, List.filter_append]
  rcases (l.runFrom s).runWith reply w with ⟨⟨result, s'⟩, w'⟩
  cases result <;> rfl

end Laws

/-! ### Asking providers -/

variable {reply : Respondent σ} {s : SecretRun} {w : σ}

/-- Once the cancellation has been fired, no provider is asked. -/
theorem carried_consult_of_cancelled (hs : s.cancelled = true) (provider : Lookup (Answer α)) :
    (consult provider).carried reply s w = ⟨.error .cancelled, s, w⟩ ∧
      (consult provider).calls reply s w = [] := by
  have hcheck : checkpoint.carried reply s w = ⟨.error .cancelled, s, w⟩ ∧
      checkpoint.calls reply s w = [] := by
    rw [checkpoint, carried_bind, calls_bind]
    simp [hs]
  rw [consult, carried_bind, calls_bind, hcheck.1, hcheck.2]
  exact ⟨rfl, rfl⟩

/-- What comes of waiting for a provider is what is answered, in any state. -/
theorem carried_await {provider : Lookup (Answer α)} {answer : Answer α} {w' : σ}
    (hprovider : provider.carried reply s w = ⟨.ok answer, s, w'⟩) :
    (await provider).carried reply s w = answer.ending s w' ∧
      (await provider).calls reply s w = provider.calls reply s w := by
  simp [await, carried_bind, calls_bind, hprovider, Answer.ending]

/-- As long as the cancellation has not been fired, what comes of it is what is answered. -/
theorem carried_consult (hs : s.cancelled = false) {provider : Lookup (Answer α)}
    {answer : Answer α} {w' : σ} (hprovider : provider.carried reply s w = ⟨.ok answer, s, w'⟩) :
    (consult provider).carried reply s w = answer.ending s w' ∧
      (consult provider).calls reply s w = provider.calls reply s w := by
  have hcheck : checkpoint.carried reply s w = ⟨.ok (), s, w⟩ ∧
      checkpoint.calls reply s w = [] := by
    rw [checkpoint, carried_bind, calls_bind]
    simp [hs]
  rw [consult, carried_bind, calls_bind, hcheck.1, hcheck.2]
  exact carried_await hprovider

theorem carried_read (hs : s.cancelled = false) (path : String) :
    (read path).carried reply s w
      = Answer.ending s (reply (.read path) w).2 (reply (.read path) w).1 :=
  (carried_consult hs (carried_ask reply s w (.read path))).1

/-- **A path that is read is one call**, at once. -/
theorem calls_read (hs : s.cancelled = false) (path : String) :
    (read path).calls reply s w = [(.read path, w)] :=
  (carried_consult hs (carried_ask reply s w (.read path))).2

theorem carried_issue (hs : s.cancelled = false) (systems : List String) :
    (issue systems).carried reply s w
      = Answer.ending s (reply (.issue systems) w).2 (reply (.issue systems) w).1 :=
  (carried_consult hs (carried_ask reply s w (.issue systems))).1

theorem calls_issue (hs : s.cancelled = false) (systems : List String) :
    (issue systems).calls reply s w = [(.issue systems, w)] :=
  (carried_consult hs (carried_ask reply s w (.issue systems))).2

end Lookup

/-! ### Files are no affair of providers -/

namespace Secrets

open Lookup

variable {σ : Type} (reply : Respondent σ) (s : SecretRun) (w : σ)

theorem calls_directoryFor (parameter : String) : (directoryFor parameter).calls reply s w = [] := by
  rw [directoryFor, calls_bind, carried_state]
  rcases hdirectory : s.directory? with _ | directory
  · simp only [hdirectory, calls_bind, calls_ask, carried_ask, SecretQuestion.isCall]
    rcases (reply (.file .makeDirectory) w).1 with failure | directory <;>
      simp [calls_bind]
  · simp [hdirectory]

theorem calls_writeFile (parameter content : String) :
    (writeFile parameter content).calls reply s w = [] := by
  rw [writeFile, calls_bind, calls_directoryFor]
  rcases (directoryFor parameter).carried reply s w with ⟨e | directory, s', w'⟩
  · rfl
  · simp only [calls_bind, calls_ask, carried_ask, SecretQuestion.isCall]
    rcases (reply (.file (.write directory parameter content)) w').1 with failure | file <;>
      simp [calls_bind]

/-- **A secret is adopted without a call.** -/
theorem calls_adopt (p : Parameter) (asFile : Bool) (path secret : String) :
    (adopt p asFile path secret).calls reply s w = [] := by
  cases asFile with
  | false => rfl
  | true =>
    rw [adopt, if_pos rfl, calls_bind, calls_writeFile]
    rcases (writeFile p.name secret).carried reply s w with ⟨e | file, s', w'⟩ <;> rfl

theorem calls_adoptToken (p : Parameter) (system : String) (tokens : List (String × String)) :
    (adoptToken p system tokens).calls reply s w = [] := by
  rw [adoptToken]
  split
  · rfl
  · split <;> rfl

end Secrets

end PipelineConfig
