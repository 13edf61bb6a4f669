import PipelineConfig.Proofs.Calls
import PipelineConfig.Proofs.Filling

/-!
# Filling secret parameters, turn by turn

`PipelineConfig.Secrets.resolve` gives each parameter its turn, first with the key-value store and
then with the trust service. A turn (`PipelineConfig.Turn`) begins in some state, makes some calls
and ends in some way, and that is all that the others see of it.

What a whole run amounts to can be said in terms of its turns alone. They are *consecutive*
(`PipelineConfig.Turns`): each begins where the one before has ended, an error ends them all, and
without an error all have a result. There is nothing else to a run: its calls are those of its turns
and its end is theirs (`PipelineConfig.Secrets.turns_resolve`).

This file is only about how turns follow each other. What happens within a turn does not matter
here, and of what a provider answers nothing is assumed.
-/

namespace PipelineConfig

/-- The turn of a parameter: the state in which it begins, its calls, and how it ends. -/
structure Turn (σ : Type) where
  parameter : Parameter
  run : SecretRun
  world : σ
  calls : List (SecretQuestion × σ)
  ending : Ending σ (Option ResolvedSecret)

/-- What a lookup for a parameter makes of its turn. -/
def Turn.of {σ : Type} (f : Parameter → Lookup (Option ResolvedSecret)) (reply : Respondent σ)
    (p : Parameter) (s : SecretRun) (w : σ) : Turn σ :=
  ⟨p, s, w, (f p).calls reply s w, (f p).carried reply s w⟩

/-- **Consecutive turns**, from a state of the lookup and one of the respondent to an end. -/
inductive Turns {σ : Type} : SecretRun → σ → List (Turn σ) → Ending σ (List ResolvedSecret) → Prop
  /-- Without a turn nothing happens. -/
  | none (s : SecretRun) (w : σ) : Turns s w [] ⟨.ok [], s, w⟩
  /-- An error is the end. -/
  | last {t : Turn σ} {e : SecretError} (he : t.ending.result = .error e) :
      Turns t.run t.world [t] ⟨.error e, t.ending.run, t.ending.world⟩
  /-- Otherwise the next turn begins where this one has ended. -/
  | next {t : Turn σ} {ts : List (Turn σ)} {found? : Option ResolvedSecret}
      {ending : Ending σ (List ResolvedSecret)} (hfound : t.ending.result = .ok found?)
      (hrest : Turns t.ending.run t.ending.world ts ending) :
      Turns t.run t.world (t :: ts)
        ⟨ending.result.map (fun more => found?.toList ++ more), ending.run, ending.world⟩

namespace Turns

variable {σ : Type} {s : SecretRun} {w : σ} {ts ts' : List (Turn σ)}
  {ending ending' : Ending σ (List ResolvedSecret)}

/-- **Turns that follow others** are consecutive with them, if these have ended well. -/
theorem append (h : Turns s w ts ending) {found : List ResolvedSecret}
    (hfound : ending.result = .ok found) (h' : Turns ending.run ending.world ts' ending') :
    Turns s w (ts ++ ts')
      ⟨ending'.result.map (fun more => found ++ more), ending'.run, ending'.world⟩ := by
  induction h generalizing found with
  | none s w =>
    obtain rfl := Except.ok.inj hfound
    have hsame : ending'.result.map (fun more => [] ++ more) = ending'.result := by
      cases ending'.result <;> rfl
    rw [hsame]
    exact h'
  | last he => cases hfound
  | @next t ts found? ending hturn hrest ih =>
    obtain ⟨more, hmore, rfl⟩ := map_eq_ok_iff.mp hfound
    have happended := next hturn (ih hmore h')
    have hsame : (ending'.result.map (fun more' => more ++ more')).map
        (fun more' => found?.toList ++ more')
          = ending'.result.map (fun more' => found?.toList ++ more ++ more') := by
      cases ending'.result <;> simp [Except.map]
    rw [hsame] at happended
    exact happended

/-- No turn comes after one with an error, and then the error is that of the whole. -/
theorem error_of_mem (h : Turns s w ts ending) {t : Turn σ} (ht : t ∈ ts) {e : SecretError}
    (he : t.ending.result = .error e) : ending.result = .error e ∧ ts.getLast? = some t := by
  induction h with
  | none s w => cases ht
  | last hlast =>
    obtain rfl := List.mem_singleton.mp ht
    obtain rfl := Except.error.inj (hlast.symm.trans he)
    exact ⟨rfl, rfl⟩
  | @next t' ts found? ending hturn hrest ih =>
    rcases List.mem_cons.mp ht with rfl | hlater
    · cases hturn.symm.trans he
    · obtain ⟨herror, hlast⟩ := ih hlater
      refine ⟨?_, ?_⟩
      · change ending.result.map _ = _
        rw [herror]
        rfl
      · rw [List.getLast?_cons, hlast]
        rfl

end Turns

namespace Secrets

open Lookup

variable {σ : Type} (f : Parameter → Lookup (Option ResolvedSecret)) (reply : Respondent σ)

/-! ### One parameter after the other -/

/-- The turns of some parameters, as far as it comes to them. -/
def turns : List Parameter → SecretRun → σ → List (Turn σ)
  | [], _, _ => []
  | p :: rest, s, w =>
    let t := Turn.of f reply p s w
    t :: match t.ending with
      | ⟨.ok _, s', w'⟩ => turns rest s' w'
      | ⟨.error _, _, _⟩ => []

theorem turns_cons_of_ok {p : Parameter} {s s' : SecretRun} {w w' : σ}
    {found? : Option ResolvedSecret} (h : (f p).carried reply s w = ⟨.ok found?, s', w'⟩)
    (rest : List Parameter) :
    turns f reply (p :: rest) s w = Turn.of f reply p s w :: turns f reply rest s' w' := by
  rw [turns, Turn.of, h]

theorem turns_cons_of_error {p : Parameter} {s s' : SecretRun} {w w' : σ} {e : SecretError}
    (h : (f p).carried reply s w = ⟨.error e, s', w'⟩) (rest : List Parameter) :
    turns f reply (p :: rest) s w = [Turn.of f reply p s w] := by
  rw [turns, Turn.of, h]

theorem carried_forEach_cons (p : Parameter) (rest : List Parameter) (s : SecretRun) (w : σ) :
    (forEach f (p :: rest)).carried reply s w = match (f p).carried reply s w with
      | ⟨.ok found?, s', w'⟩ =>
        ⟨((forEach f rest).carried reply s' w').result.map (fun more => found?.toList ++ more),
          ((forEach f rest).carried reply s' w').run,
          ((forEach f rest).carried reply s' w').world⟩
      | ⟨.error e, s', w'⟩ => ⟨.error e, s', w'⟩ := by
  rw [forEach, carried_bind]
  rcases (f p).carried reply s w with ⟨e | found?, s', w'⟩
  · rfl
  · simp only [carried_bind]
    rcases (forEach f rest).carried reply s' w' with ⟨e | more, s'', w''⟩ <;> rfl

theorem calls_forEach_cons (p : Parameter) (rest : List Parameter) (s : SecretRun) (w : σ) :
    (forEach f (p :: rest)).calls reply s w
      = (f p).calls reply s w ++ match (f p).carried reply s w with
        | ⟨.ok _, s', w'⟩ => (forEach f rest).calls reply s' w'
        | ⟨.error _, _, _⟩ => [] := by
  rw [forEach, calls_bind]
  congr 1
  rcases (f p).carried reply s w with ⟨e | found?, s', w'⟩
  · rfl
  · simp only [calls_bind]
    rcases (forEach f rest).carried reply s' w' with ⟨e | more, s'', w''⟩ <;> exact List.append_nil _

/-- **The turns of parameters are consecutive**, and the calls are those of the turns. -/
theorem turns_forEach (parameters : List Parameter) (s : SecretRun) (w : σ) :
    Turns s w (turns f reply parameters s w) ((forEach f parameters).carried reply s w) ∧
      (forEach f parameters).calls reply s w
        = (turns f reply parameters s w).flatMap Turn.calls := by
  induction parameters generalizing s w with
  | nil => exact ⟨.none s w, rfl⟩
  | cons p rest ih =>
    rw [carried_forEach_cons, calls_forEach_cons]
    rcases hend : (f p).carried reply s w with ⟨e | found?, s', w'⟩
    · rw [turns_cons_of_error f reply hend]
      have hlast := Turns.last (t := Turn.of f reply p s w) (congrArg Ending.result hend)
      rw [Turn.of, hend] at hlast ⊢
      exact ⟨hlast, by simp⟩
    · rw [turns_cons_of_ok f reply hend]
      obtain ⟨hrest, hcalls⟩ := ih s' w'
      have hstart : Turns (Turn.of f reply p s w).ending.run (Turn.of f reply p s w).ending.world
          (turns f reply rest s' w') ((forEach f rest).carried reply s' w') := by
        rw [Turn.of, hend]
        exact hrest
      have hnext := Turns.next (t := Turn.of f reply p s w) (congrArg Ending.result hend) hstart
      refine ⟨hnext, ?_⟩
      rw [List.flatMap_cons, ← hcalls]
      rfl

/-- The parameters take their turns in order, and all of them do unless there is an error. -/
theorem parameters_turns (parameters : List Parameter) (s : SecretRun) (w : σ) :
    (turns f reply parameters s w).map Turn.parameter <+: parameters ∧
    ∀ found, ((forEach f parameters).carried reply s w).result = .ok found →
      (turns f reply parameters s w).map Turn.parameter = parameters := by
  induction parameters generalizing s w with
  | nil => exact ⟨List.prefix_refl _, fun _ _ => rfl⟩
  | cons p rest ih =>
    rw [carried_forEach_cons]
    rcases hend : (f p).carried reply s w with ⟨e | found?, s', w'⟩
    · rw [turns_cons_of_error f reply hend]
      refine ⟨List.prefix_append [p] rest, fun found hfound => ?_⟩
      cases hfound
    · rw [turns_cons_of_ok f reply hend]
      obtain ⟨hbegun, hall⟩ := ih s' w'
      refine ⟨(List.prefix_cons_inj p).mpr hbegun, fun found hfound => ?_⟩
      obtain ⟨more, hmore, -⟩ := map_eq_ok_iff.mp hfound
      exact congrArg (p :: ·) (hall more hmore)

variable {f reply}

/-- **What every turn keeps holds when each begins**, and when all are over. So the turns are as they
are in states of which it holds. -/
theorem forall_turns {I : SecretRun → Prop} {P : Turn σ → Prop}
    (hturn : ∀ p s w, I s → P (Turn.of f reply p s w)) (hkeeps : ∀ t, P t → I t.run → I t.ending.run)
    (parameters : List Parameter) {s : SecretRun} (hs : I s) (w : σ) :
    (∀ t ∈ turns f reply parameters s w, P t) ∧
      I ((forEach f parameters).carried reply s w).run := by
  induction parameters generalizing s w with
  | nil => exact ⟨by simp [turns], hs⟩
  | cons p rest ih =>
    have hfirst := hturn p s w hs
    have hkept := hkeeps _ hfirst hs
    rw [carried_forEach_cons]
    rcases hend : (f p).carried reply s w with ⟨e | found?, s', w'⟩
    · rw [turns_cons_of_error f reply hend]
      rw [Turn.of, hend] at hkept
      exact ⟨by simpa using hfirst, hkept⟩
    · rw [turns_cons_of_ok f reply hend]
      rw [Turn.of, hend] at hkept
      obtain ⟨hrest, hover⟩ := ih hkept w'
      exact ⟨List.forall_mem_cons.mpr ⟨hfirst, hrest⟩, hover⟩

/-! ### One provider after the other -/

/-- The parameters that a provider is asked for: all of them if it is there. -/
def visited (isThere : Bool) (parameters : List Parameter) : List Parameter :=
  if isThere then parameters else []

theorem forEach_visited (isThere : Bool) (parameters : List Parameter) :
    forEach f (visited isThere parameters) = if isThere then forEach f parameters else pure [] := by
  cases isThere <;> rfl

variable (reply) (providers : SecretProviders) (parameters : List Parameter) (s : SecretRun) (w : σ)

/-- The turns with the key-value store. -/
def storeTurns : List (Turn σ) :=
  turns searchStore reply (visited providers.store parameters) s w

/-- The turns with the trust service, which come after those with the store have ended well. -/
def issuerTurns : List (Turn σ) :=
  match (forEach searchStore (visited providers.store parameters)).carried reply s w with
  | ⟨.ok _, s', w'⟩ => turns askIssuer reply (visited providers.issuer parameters) s' w'
  | ⟨.error _, _, _⟩ => []

/-- **A run is its turns**: first those with the store, then those with the service. -/
theorem turns_resolve :
    Turns s w
        (storeTurns reply providers parameters s w ++ issuerTurns reply providers parameters s w)
        ((resolve providers parameters).carried reply s w) ∧
      (resolve providers parameters).calls reply s w
        = (storeTurns reply providers parameters s w).flatMap Turn.calls
          ++ (issuerTurns reply providers parameters s w).flatMap Turn.calls := by
  obtain ⟨hstore, hstoreCalls⟩ :=
    turns_forEach searchStore reply (visited providers.store parameters) s w
  rw [resolve_eq, ← forEach_visited, ← forEach_visited, carried_bind, calls_bind, hstoreCalls,
    storeTurns, issuerTurns]
  rcases hend : (forEach searchStore (visited providers.store parameters)).carried reply s w with
    ⟨e | fromStore, s', w'⟩
  · rw [hend] at hstore
    exact ⟨by simpa using hstore, rfl⟩
  · rw [hend] at hstore
    obtain ⟨hissuer, hissuerCalls⟩ := turns_forEach askIssuer reply
      (visited providers.issuer parameters) s' w'
    have hboth := hstore.append rfl hissuer
    simp only [carried_bind, calls_bind, hissuerCalls]
    rcases hmore : (forEach askIssuer (visited providers.issuer parameters)).carried reply s' w' with
      ⟨e | fromIssuer, s'', w''⟩
    · rw [hmore] at hboth
      exact ⟨hboth, by simp⟩
    · rw [hmore] at hboth
      exact ⟨hboth, by simp⟩

/-- The parameters take their turns with the store in order; all of them have had theirs when it
comes to the service, or when the run ends well. -/
theorem parameters_storeTurns :
    (storeTurns reply providers parameters s w).map Turn.parameter
        <+: visited providers.store parameters ∧
    (issuerTurns reply providers parameters s w ≠ [] ∨
        (∃ found, ((resolve providers parameters).carried reply s w).result = .ok found) →
      (storeTurns reply providers parameters s w).map Turn.parameter
        = visited providers.store parameters) := by
  obtain ⟨hbegun, hall⟩ := parameters_turns searchStore reply
    (visited providers.store parameters) s w
  refine ⟨hbegun, fun hthrough => ?_⟩
  rw [issuerTurns, resolve_eq, ← forEach_visited, carried_bind] at hthrough
  rcases hend : (forEach searchStore (visited providers.store parameters)).carried reply s w with
    ⟨e | fromStore, s', w'⟩
  · rw [hend] at hthrough
    rcases hthrough with hne | ⟨found, hfound⟩
    · exact absurd rfl hne
    · cases hfound
  · exact hall fromStore (congrArg Ending.result hend)

/-- So they do with the service. -/
theorem parameters_issuerTurns :
    (issuerTurns reply providers parameters s w).map Turn.parameter
        <+: visited providers.issuer parameters ∧
    ∀ found, ((resolve providers parameters).carried reply s w).result = .ok found →
      (issuerTurns reply providers parameters s w).map Turn.parameter
        = visited providers.issuer parameters := by
  rw [issuerTurns, resolve_eq, ← forEach_visited, ← forEach_visited, carried_bind]
  rcases (forEach searchStore (visited providers.store parameters)).carried reply s w with
    ⟨e | fromStore, s', w'⟩
  · refine ⟨List.nil_prefix, fun found hfound => ?_⟩
    cases hfound
  · obtain ⟨hbegun, hall⟩ := parameters_turns askIssuer reply
      (visited providers.issuer parameters) s' w'
    refine ⟨hbegun, fun found hfound => ?_⟩
    simp only [carried_bind] at hfound
    rcases hmore : (forEach askIssuer (visited providers.issuer parameters)).carried reply s' w' with
      ⟨e | fromIssuer, s'', w''⟩
    · rw [hmore] at hfound
      cases hfound
    · exact hall fromIssuer (congrArg Ending.result hmore)

end Secrets

end PipelineConfig
