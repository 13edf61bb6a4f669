import PipelineConfig.Proofs.Turns
import PipelineConfig.Secret.Credentials

/-!
# What lookups keep

While a lookup is carried on, its own state changes and that of its respondent. Something that is
true of both may be true all the way, in whatever way the lookup ends; the lookup is said to *keep*
it then (`PipelineConfig.Lookup.Keeps`).

A lookup keeps what its parts keep, so it is enough to look at the smallest steps: calls to
providers (`PipelineConfig.Lookup.KeptByCalls`), changes that are written down
(`PipelineConfig.Lookup.KeptByChanges`), and files (`PipelineConfig.Secrets.KeptByFiles`). Filling
parameters keeps what all three of them keep (`PipelineConfig.Secrets.keeps_resolve`). Reading
credentials keeps it without a condition on files (`PipelineConfig.Credentials.keeps_exports`).
-/

namespace PipelineConfig

namespace Lookup

variable {σ α β : Type}

/-- A lookup keeps something that is true of its state and of whoever replies, however it ends. -/
def Keeps (reply : Respondent σ) (I : SecretRun → σ → Prop) (l : Lookup α) : Prop :=
  ∀ s w, I s w → I (l.carried reply s w).run (l.carried reply s w).world

variable {reply : Respondent σ} {I : SecretRun → σ → Prop}

theorem keeps_pure (a : α) : (pure a : Lookup α).Keeps reply I := fun _ _ h => h

theorem keeps_throw (e : SecretError) : (throw e : Lookup α).Keeps reply I := fun _ _ h => h

theorem keeps_ofExcept (outcome : Except SecretError α) :
    (MonadExcept.ofExcept outcome : Lookup α).Keeps reply I := by
  cases outcome with
  | error e => exact keeps_throw e
  | ok a => exact keeps_pure a

theorem keeps_state : state.Keeps reply I := fun _ _ h => h

theorem keeps_modify {f : SecretRun → SecretRun} (hf : ∀ s w, I s w → I (f s) w) :
    (modify f : Lookup Unit).Keeps reply I := hf

theorem keeps_ask {q : SecretQuestion} (hq : ∀ s w, I s w → I s (reply q w).2) :
    (ask q).Keeps reply I := hq

theorem Keeps.bind {l : Lookup α} {f : α → Lookup β} (hl : l.Keeps reply I)
    (hf : ∀ a, (f a).Keeps reply I) : (l >>= f).Keeps reply I := by
  intro s w h
  have hmid := hl s w h
  rw [carried_bind]
  rcases hend : l.carried reply s w with ⟨e | a, s', w'⟩
  · rw [hend] at hmid
    exact hmid
  · rw [hend] at hmid
    exact hf a s' w' hmid

theorem Keeps.map {f : α → β} {l : Lookup α} (hl : l.Keeps reply I) :
    (f <$> l).Keeps reply I := by
  intro s w h
  rw [carried_map]
  exact hl s w h

theorem Keeps.tryCatch {l : Lookup α} {handler : SecretError → Lookup α} (hl : l.Keeps reply I)
    (hhandler : ∀ e, (handler e).Keeps reply I) : (tryCatch l handler).Keeps reply I := by
  intro s w h
  have hmid := hl s w h
  rw [carried_tryCatch]
  rcases hend : l.carried reply s w with ⟨e | a, s', w'⟩
  · rw [hend] at hmid
    exact hhandler e s' w' hmid
  · rw [hend] at hmid
    exact hmid

theorem keeps_checkpoint : checkpoint.Keeps reply I := by
  refine keeps_state.bind fun s => ?_
  split
  · exact keeps_throw _
  · exact keeps_pure ()

/-- What changes keep that are written down. -/
def KeptByChanges (I : SecretRun → σ → Prop) : Prop :=
  ∀ (e : SecretEvent) s w, I s w → I (s.perform e) w

theorem keeps_perform (hchanges : KeptByChanges I) (e : SecretEvent) : (perform e).Keeps reply I :=
  keeps_modify (hchanges e)

/-- What calls to providers keep, and the cancellation that may be fired at one of them. -/
structure KeptByCalls (reply : Respondent σ) (I : SecretRun → σ → Prop) : Prop where
  answered : ∀ q : SecretQuestion, q.isCall = true → ∀ s w, I s w → I s (reply q w).2
  fired : ∀ s w, I s w → I { s with cancelled := true } w

/-- Calls to providers leave it at that if nothing has happened since some moment. -/
theorem keptByCalls_idle (s : SecretRun) (w : σ) : KeptByCalls reply (Idle reply s w) where
  answered := fun q hq s' w' h => h.trans (quiet_ask (by rintro d rfl; cases hq) s' w')
  fired := fun _ _ h => h.trans ⟨⟨rfl, rfl, rfl⟩, fun _ _ => List.Subset.refl _⟩

variable (hcalls : KeptByCalls reply I)
include hcalls

theorem keeps_await {provider : Lookup (Answer α)} (hprovider : provider.Keeps reply I) :
    (await provider).Keeps reply I := by
  refine hprovider.bind fun answer => Keeps.bind (keeps_modify fun s w hs => ?_) fun _ => ?_
  · cases answer.fires with
    | false => exact hs
    | true => exact hcalls.fired s w hs
  · exact keeps_ofExcept answer.outcome

theorem keeps_consult {provider : Lookup (Answer α)} (hprovider : provider.Keeps reply I) :
    (consult provider).Keeps reply I :=
  keeps_checkpoint.bind fun _ => keeps_await hcalls hprovider

theorem keeps_read (path : String) : (read path).Keeps reply I :=
  keeps_consult hcalls (keeps_ask (hcalls.answered (.read path) rfl))

theorem keeps_issue (systems : List String) : (issue systems).Keeps reply I :=
  keeps_consult hcalls (keeps_ask (hcalls.answered (.issue systems) rfl))

end Lookup

namespace Credentials

open Lookup

variable {σ : Type} {reply : Respondent σ} {I : SecretRun → σ → Prop}
  (hcalls : KeptByCalls reply I)
include hcalls

theorem keeps_firstSecret (paths : List String) : (firstSecret paths).Keeps reply I := by
  induction paths with
  | nil => exact keeps_pure none
  | cons path rest ih =>
    have hread : (await (ask (.read path))).Keeps reply I :=
      keeps_await hcalls (keeps_ask (hcalls.answered (.read path) rfl))
    refine hread.bind fun data? => ?_
    split
    · exact keeps_pure _
    · exact ih

theorem keeps_bundleExports (f : CredentialFamily) (config : Mapping) (position : Nat)
    (bundles : List String) : (bundleExports f config position bundles).Keeps reply I := by
  induction bundles generalizing position with
  | nil => exact keeps_pure []
  | cons bundle rest ih =>
    have hmore : ∀ found : List CredentialExport,
        (bundleExports f config (position + 1) rest >>= fun more => pure (found ++ more)).Keeps
          reply I := fun found => (ih _).bind fun more => keeps_pure _
    rw [bundleExports]
    split
    · exact (keeps_pure _).bind hmore
    · refine (keeps_firstSecret hcalls _).bind fun data? => ?_
      split
      · exact (keeps_pure _).bind hmore
      · exact (keeps_pure _).bind hmore

omit hcalls in
theorem keeps_masking (hchanges : KeptByChanges I) (found : List CredentialExport) :
    (found.forM fun e => perform (.masked e.value)).Keeps reply I := by
  induction found with
  | nil => exact keeps_pure PUnit.unit
  | cons e rest ih => exact (keeps_perform hchanges _).bind fun _ => ih

theorem keeps_familyExports (hchanges : KeptByChanges I) (config : Mapping)
    (f : CredentialFamily) : (familyExports config f).Keeps reply I :=
  keeps_checkpoint.bind fun _ => (keeps_bundleExports hcalls f config 0 _).bind fun found =>
    (keeps_masking hchanges found).bind fun _ => keeps_pure found

/-- Reading credentials keeps what calls and changes keep. -/
theorem keeps_exports (hchanges : KeptByChanges I) (providers : SecretProviders)
    (config : Mapping) : (exports providers config).Keeps reply I := by
  have hfamilies : ∀ fs, (exportsOfFamilies config fs).Keeps reply I := by
    intro fs
    induction fs with
    | nil => exact keeps_pure []
    | cons f rest ih =>
      exact (keeps_familyExports hcalls hchanges config f).bind fun _ =>
        ih.bind fun _ => keeps_pure _
  rw [exports]
  split
  · exact hfamilies families
  · exact keeps_pure []

end Credentials

namespace Secrets

open Lookup

variable {σ : Type} {reply : Respondent σ} {I : SecretRun → σ → Prop}

/-- What is kept when a new directory takes the place of none, and when a file is written. -/
structure KeptByFiles (reply : Respondent σ) (I : SecretRun → σ → Prop) : Prop where
  made : ∀ s w, s.directory? = none → I s w →
    I { s with directory? := (reply (.file .makeDirectory) w).1.toOption }
      (reply (.file .makeDirectory) w).2
  written : ∀ directory parameter content s w, I s w →
    I s (reply.writing directory parameter content w).2

theorem keeps_directoryFor (hfiles : KeptByFiles reply I) (parameter : String) :
    (directoryFor parameter).Keeps reply I := by
  intro s w h
  rw [directoryFor, carried_bind, carried_state]
  rcases hdirectory : s.directory? with _ | directory
  · have hmade := hfiles.made s w hdirectory h
    simp only [hdirectory, carried_bind, carried_ask]
    rcases hreply : reply (.file .makeDirectory) w with ⟨_ | directory, w'⟩
    · -- there still is none
      have hsame : { s with directory? := none } = s := by rw [← hdirectory]
      rw [hreply] at hmade
      simpa [Except.toOption, hsame] using hmade
    · rw [hreply] at hmade
      simpa [carried_bind, Except.toOption] using hmade
  · simpa [hdirectory] using h

variable (hchanges : KeptByChanges I)
include hchanges

theorem keeps_writeFile (hfiles : KeptByFiles reply I) (parameter content : String) :
    (writeFile parameter content).Keeps reply I := by
  refine (keeps_directoryFor hfiles parameter).bind fun directory => ?_
  refine (keeps_ask (hfiles.written directory parameter content)).bind fun written => ?_
  cases written with
  | error failure => exact keeps_throw _
  | ok file => exact (keeps_perform hchanges _).bind fun _ => keeps_pure file

theorem keeps_adopt (hfiles : KeptByFiles reply I) (p : Parameter) (asFile : Bool)
    (path secret : String) : (adopt p asFile path secret).Keeps reply I := by
  have hadopts : ∀ v (r : ResolvedSecret),
      (do perform (.masked secret); perform (.adopted p.name v); pure r).Keeps reply I :=
    fun v r => (keeps_perform hchanges _).bind fun _ => (keeps_perform hchanges _).bind fun _ =>
      keeps_pure r
  rw [adopt]
  split
  · exact (keeps_writeFile hchanges hfiles _ _).bind fun file => hadopts file _
  · exact hadopts secret _

variable (hcalls : KeptByCalls reply I)
include hcalls

theorem keeps_searchPaths (hfiles : KeptByFiles reply I) (p : Parameter) (asFile : Bool)
    (paths : List String) : (searchPaths p asFile paths).Keeps reply I := by
  induction paths with
  | nil => exact keeps_pure none
  | cons path rest ih =>
    refine (keeps_read hcalls path).bind fun data? => ?_
    split
    · exact (keeps_adopt hchanges hfiles p asFile path _).map
    · exact ih

theorem keeps_searchStore (hfiles : KeptByFiles reply I) (p : Parameter) :
    (searchStore p).Keeps reply I := by
  rw [searchStore]
  split
  · exact keeps_pure none
  · refine keeps_state.bind fun s => ?_
    split
    · exact keeps_pure none
    · split
      · exact keeps_throw _
      · exact keeps_searchPaths hchanges hcalls hfiles p _ _

omit hcalls in
theorem keeps_adoptToken (p : Parameter) (system : String) (tokens : List (String × String)) :
    (adoptToken p system tokens).Keeps reply I := by
  rw [adoptToken]
  split
  · exact keeps_pure none
  · split
    · exact keeps_pure none
    · exact (keeps_perform hchanges _).bind fun _ => (keeps_perform hchanges _).bind fun _ =>
        keeps_pure _

theorem keeps_askIssuer (p : Parameter) : (askIssuer p).Keeps reply I := by
  rw [askIssuer]
  split
  · exact keeps_pure none
  · refine keeps_state.bind fun s => ?_
    split
    · exact keeps_pure none
    · refine ((keeps_issue hcalls _).tryCatch fun e => ?_).bind fun tokens =>
        keeps_adoptToken hchanges p _ tokens
      -- only the cancellation is passed on
      cases e <;> first | exact keeps_throw _ | exact keeps_pure []

omit hchanges hcalls in
theorem keeps_forEach {f : Parameter → Lookup (Option ResolvedSecret)}
    (hf : ∀ p, (f p).Keeps reply I) (parameters : List Parameter) :
    (forEach f parameters).Keeps reply I := by
  induction parameters with
  | nil => exact keeps_pure []
  | cons p rest ih => exact (hf p).bind fun _ => ih.bind fun _ => keeps_pure _

/-- Filling the parameters keeps what calls, changes and files keep. -/
theorem keeps_resolve (hfiles : KeptByFiles reply I) (providers : SecretProviders)
    (parameters : List Parameter) : (resolve providers parameters).Keeps reply I := by
  rw [resolve_eq, ← forEach_visited, ← forEach_visited]
  exact (keeps_forEach (keeps_searchStore hchanges hcalls hfiles) _).bind fun _ =>
    (keeps_forEach (keeps_askIssuer hchanges hcalls) _).bind fun _ => keeps_pure _

end Secrets

end PipelineConfig
