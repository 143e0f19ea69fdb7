import DeploymentRouting.Config.Basic
import DeploymentRouting.Proofs.Dispatch.Budget
import DeploymentRouting.Proofs.Dispatch.Trace
import DeploymentRouting.Proofs.Dispatch.Visits
import DeploymentRouting.Proofs.Registry.Records
import DeploymentRouting.Proofs.Selection.Chosen
/-!
Which deployments a request can come to. A name is looked up in the table of aliases for one
step at a time, but it is looked up again at each stage of a request: once when the request
begins, once when it is asked whether there are deployments at all, and once more when one of
them is chosen. Where an alias leads to another alias the stages look at different models.
-/
namespace DeploymentRouting

universe u

namespace Dispatch

variable {α : Type u}

/-- The deployment that a request has chosen and not yet left. -/
def target? (dispatch : Dispatch α) : Option Deployment :=
  match dispatch.phase with
  | .reserving _ deployment => some deployment
  | .calling call => some call.deployment
  | _ => none

/-- The deployment whose call is out. -/
def called? (dispatch : Dispatch α) : Option Deployment :=
  match dispatch.phase with
  | .calling call => some call.deployment
  | _ => none

/-- Whether the request has ended because there are no deployments for it. -/
def FoundNone (dispatch : Dispatch α) : Prop :=
  ∃ model, dispatch.phase = .finished (.error (.noDeployments model))

/-- The chosen deployment is registered for what the model at hand leads to when it is looked up
once more. -/
def ChosenFrom (registry : Registry) (dispatch : Dispatch α) : Prop :=
  ∀ deployment, dispatch.target? = some deployment →
    ∃ tier ∈ registry.candidates (registry.resolve dispatch.entry), deployment ∈ tier

variable {dispatch after : Dispatch α} {registry : Registry}

theorem target?_of_called? {deployment : Deployment}
    (h : dispatch.called? = some deployment) : dispatch.target? = some deployment := by
  unfold called? at h
  unfold target?
  split at h
  next hPhase =>
    rw [hPhase]
    exact h
  next => cases h

theorem chosenFrom_of_none (h : dispatch.target? = none) : dispatch.ChosenFrom registry := by
  intro deployment hTarget
  rw [h] at hTarget
  cases hTarget

theorem ChosenFrom.step (h : dispatch.ChosenFrom registry)
    (hActive : dispatch.isSuspended = false) {router : Router}
    (hRegistry : router.registry = registry) (now : Instant) (random : RandomSource) :
    (dispatch.step router now random).2.ChosenFrom registry := by
  subst hRegistry
  unfold Dispatch.step
  cases hPhase : dispatch.phase with
  | entering =>
      apply chosenFrom_of_none
      simp only [enter]
      split
      · rfl
      · split
        · simp only [target?, hPhase]
        · rfl
  | checking =>
      apply chosenFrom_of_none
      simp only [check]
      split
      · rfl
      · split <;> rfl
  | selecting looked =>
      -- The only step that chooses. The router looks the entry up before it looks for candidates.
      simp only
      cases hSelection : (router.select dispatch.entry dispatch.exclusions
          dispatch.request.estimate looked random).1 with
      | chosen deployment =>
          intro target hTarget
          cases hTarget
          exact Router.select_chosen hSelection
      | noneEligible =>
          apply chosenFrom_of_none
          simp only [withSelection]
          split <;> rfl
      | overflow => exact chosenFrom_of_none rfl
  | reserving looked deployment =>
      have hChosen := h deployment (by simp only [target?, hPhase])
      simp only [reserve]
      split
      next => exact chosenFrom_of_none rfl
      next =>
        dsimp only
        split
        next =>
          intro target hTarget
          cases hTarget
          exact hChosen
        next => exact chosenFrom_of_none rfl
  | calling call => simp [isSuspended, hPhase] at hActive
  | finished outcome => simp [isSuspended, hPhase] at hActive
  | halted stranded => simp [isSuspended, hPhase] at hActive

variable {maxAttempts : Nat}

/-- After its beginning a request never ends for want of deployments. -/
theorem not_foundNone_stepsTo (hStep : StepsTo maxAttempts dispatch after) :
    ¬after.FoundNone := by
  rintro ⟨model, hFinished⟩
  cases hStep with
  | fail hPhase outcome hReport hBegun =>
      cases hFinished
      exact hBegun model rfl
  | skip hPhase hAhead => cases hPhase.symm.trans hFinished
  | _ => cases hFinished

theorem not_foundNone_returnsTo (hReturn : ReturnsTo dispatch after) : ¬after.FoundNone := by
  rintro ⟨model, hFinished⟩
  cases hReturn with
  | retry hPhase error => cases hFinished
  | finish hPhase outcome hReport hBegun =>
      cases hFinished
      exact hBegun model rfl

/-- As long as a request has not fallen back it is at its first model. -/
theorem entry_stepsTo (hStep : StepsTo maxAttempts dispatch after)
    (hFallback : after.usedFallback = false) :
    dispatch.usedFallback = false ∧ after.entry = dispatch.entry := by
  cases hStep with
  | enter hPhase hAhead => cases hFallback
  | _ => exact ⟨hFallback, rfl⟩

theorem entry_returnsTo (hReturn : ReturnsTo dispatch after) :
    after.usedFallback = dispatch.usedFallback ∧ after.entry = dispatch.entry := by
  cases hReturn <;> exact ⟨rfl, rfl⟩

theorem chosenFrom_returnsTo (hReturn : ReturnsTo dispatch after) :
    after.ChosenFrom registry := by
  cases hReturn <;> exact chosenFrom_of_none rfl

/-- What a request has found out about its model. -/
structure Located (registry : Registry) (request : Request) (dispatch : Dispatch α) : Prop where
  primary : dispatch.usedFallback = false → dispatch.entry = registry.resolve request.model
  chosen : dispatch.ChosenFrom registry
  foundNone : dispatch.FoundNone ↔
    registry.candidates (registry.resolve request.model) = []

variable {request : Request} {moves : Nat} {itinerary : Itinerary}

theorem located_begin (router : Router) (request : Request) (now : Instant) :
    Located router.registry request (begin router request now : Dispatch α) := by
  simp only [begin]
  split
  next hNone =>
    exact {
      primary := fun _ => rfl
      chosen := chosenFrom_of_none rfl
      foundNone := ⟨fun _ => List.isEmpty_iff.mp hNone, fun _ => ⟨request.model, rfl⟩⟩ }
  next hSome =>
    exact {
      primary := fun _ => rfl
      chosen := chosenFrom_of_none rfl
      foundNone := by
        constructor
        · rintro ⟨model, hFinished⟩
          cases hFinished
        · intro hNone
          exact absurd (List.isEmpty_iff.mpr hNone) hSome }

/-- A request that goes on has found deployments. -/
theorem Located.foundNone_of_active (h : Located registry request dispatch)
    (hActive : ∀ model, dispatch.phase ≠ .finished (.error (.noDeployments model)))
    (hAfter : ¬after.FoundNone) :
    after.FoundNone ↔ registry.candidates (registry.resolve request.model) = [] := by
  refine ⟨fun hFound => absurd hFound hAfter, fun hNone => ?_⟩
  obtain ⟨model, hFinished⟩ := h.foundNone.mpr hNone
  exact absurd hFinished (hActive model)

theorem Course.located (h : Course (·.registry = registry) request moves itinerary dispatch) :
    Located registry request dispatch := by
  induction h with
  | begin router hRegistry now =>
      subst hRegistry
      exact located_begin router request now
  | @step _ _ dispatch prior hActive router hRegistry now random ih =>
      have hStep := stepsTo_step hActive router now random
      constructor
      case primary =>
        intro hFallback
        obtain ⟨hPrior, hSame⟩ := entry_stepsTo hStep hFallback
        rw [hSame]
        exact ih.primary hPrior
      case chosen => exact ih.chosen.step hActive hRegistry now random
      case foundNone =>
        refine ih.foundNone_of_active (fun model hFinished => ?_) (not_foundNone_stepsTo hStep)
        simp [isSuspended, hFinished] at hActive
  | @answer _ _ dispatch call prior hCall router hRegistry now ended ih =>
      have hReturn := returnsTo_answer hCall router now ended
      obtain ⟨hFallback, hEntry⟩ := entry_returnsTo hReturn
      constructor
      case primary =>
        rw [hFallback, hEntry]
        exact ih.primary
      case chosen => exact chosenFrom_returnsTo hReturn
      case foundNone =>
        refine ih.foundNone_of_active (fun model hFinished => ?_) (not_foundNone_returnsTo hReturn)
        cases hCall.symm.trans hFinished

/-- A request is told that there are no deployments if and only if there are none for what its
model leads to in two steps, and before any fallback it calls those alone that are registered
for what its model leads to in three. Where one step already leads to the end, both are the
candidates of the model itself. -/
theorem Course.looks_up_again
    (h : Course (·.registry = registry) request moves itinerary dispatch) :
    (dispatch.FoundNone ↔ registry.candidates (registry.resolve request.model) = []) ∧
      (∀ deployment, dispatch.called? = some deployment → dispatch.usedFallback = false →
        ∃ tier ∈ registry.candidates (registry.resolve (registry.resolve request.model)),
          deployment ∈ tier) ∧
      (registry.resolve (registry.resolve request.model) = registry.resolve request.model →
        registry.candidates (registry.resolve request.model) =
            registry.candidates request.model ∧
          registry.candidates (registry.resolve (registry.resolve request.model)) =
            registry.candidates request.model) := by
  have hLocated := h.located
  refine ⟨hLocated.foundNone, fun deployment hCalled hFallback => ?_, fun hStable => ?_⟩
  · rw [← hLocated.primary hFallback]
    exact hLocated.chosen deployment (target?_of_called? hCalled)
  · have hCandidates : registry.candidates (registry.resolve request.model) =
        registry.candidates request.model := by
      rw [Registry.candidates, Registry.candidates, hStable]
    rw [hStable]
    exact ⟨hCandidates, hCandidates⟩

/-- An alias that leads to another alias. -/
def chainedConfig : Config where
  aliases := Table.ofList [("a", "b"), ("b", "c")]

def servingDeployment (id model : String) : Deployment :=
  { pairDeployment id with modelNames := [model] }

/-- Some deployments under the aliases of that configuration. -/
def chainedRegistry (deployments : List Deployment) : Registry :=
  { deployments.foldl Registry.put {} with aliases := chainedConfig.aliases }

def chainedRouter (deployments : List Deployment) : Router :=
  { Router.new { strategy := .roundRobin } with registry := chainedRegistry deployments }

def chainedRequest : Request := { model := "a", payload := .null, deadline := 100 }

/-- A request for the first alias on its way to a call. -/
def chainedDispatch (deployments : List Deployment) : Dispatch Response :=
  (run 1 {} (fun _ _ state => state) 3 (chainedRouter deployments, ())
    (begin (chainedRouter deployments) chainedRequest 0)).2

theorem course_chained (deployments : List Deployment) :
    ∃ moves itinerary, Course (·.registry = chainedRegistry deployments) chainedRequest moves
      itinerary (chainedDispatch deployments) := by
  have hBegin : Course (·.registry = chainedRegistry deployments) chainedRequest 0
      { current := { model := (chainedRegistry deployments).resolve chainedRequest.model } }
      (begin (chainedRouter deployments) chainedRequest 0 : Dispatch Response) :=
    Course.begin (chainedRouter deployments) (Eq.refl (chainedRegistry deployments)) 0
  refine hBegin.run (fun before after hSetup hKind => ?_) 1 {} _ (fun _ _ _ hKind => hKind) 3 _ rfl
  exact hSetup.registry.trans hKind

/-- One deployment serves the second alias, and one the name behind it. -/
def bothDeployments : List Deployment :=
  [servingDeployment "d1" "b", servingDeployment "d2" "c"]

/-- Only the name behind the aliases is served. -/
def lastDeployment : List Deployment := [servingDeployment "d2" "c"]

/-- A request for the first alias calls what serves the name behind the second one. -/
theorem Course.looks_up_again_chained :
    ∃ deployment, (chainedDispatch bothDeployments).called? = some deployment ∧
      deployment.id = "d2" ∧ ¬(chainedDispatch bothDeployments).FoundNone ∧
      ∃ tier ∈ (chainedRegistry bothDeployments).candidates "c", deployment ∈ tier := by
  obtain ⟨moves, itinerary, hCourse⟩ := course_chained bothDeployments
  obtain ⟨hNone, hCalled, _⟩ := hCourse.looks_up_again
  have hId : (chainedDispatch bothDeployments).called?.map (·.id) = some "d2" := rfl
  obtain ⟨deployment, hDeployment, hId⟩ := Option.map_eq_some_iff.mp hId
  refine ⟨deployment, hDeployment, hId, fun hFound => ?_, hCalled deployment hDeployment rfl⟩
  have hSome : ((chainedRegistry bothDeployments).candidates "b").isEmpty = false := rfl
  rw [show (chainedRegistry bothDeployments).candidates "b" = [] from hNone.mp hFound] at hSome
  cases hSome

/-- So the deployment that is called need not be among the candidates for the name, and there
may be one to call where there are no candidates, under aliases that are valid and with an index
that agrees with the records. -/
theorem Course.calls_no_candidate :
    chainedConfig.validate = .ok () ∧
      (∀ deployments, (chainedRegistry deployments).aliases = chainedConfig.aliases ∧
        (chainedRegistry deployments).Indexed ∧
        ∃ moves itinerary, Course (·.registry = chainedRegistry deployments) chainedRequest moves
          itinerary (chainedDispatch deployments)) ∧
      (∃ deployment, (chainedDispatch bothDeployments).called? = some deployment ∧
        (chainedDispatch bothDeployments).usedFallback = false ∧
        ∀ tier ∈ (chainedRegistry bothDeployments).candidates chainedRequest.model,
          deployment ∉ tier) ∧
      (chainedRegistry lastDeployment).candidates chainedRequest.model = [] ∧
      (chainedDispatch lastDeployment).called?.isSome = true ∧
      ¬(chainedDispatch lastDeployment).FoundNone := by
  refine ⟨rfl, fun deployments => ⟨rfl, ?_, course_chained deployments⟩, ?_, rfl, rfl, ?_⟩
  · exact (Registry.indexed_empty.foldl_put deployments).withAliases chainedConfig.aliases
  · have hIds : ((chainedRegistry bothDeployments).candidates "a").flatten.map (·.id) = ["d1"] :=
      rfl
    have hId : (chainedDispatch bothDeployments).called?.map (·.id) = some "d2" := rfl
    obtain ⟨deployment, hDeployment, hId⟩ := Option.map_eq_some_iff.mp hId
    refine ⟨deployment, hDeployment, rfl, fun tier hTier hMem => ?_⟩
    have hListed : deployment.id ∈ ["d1"] := by
      rw [← hIds]
      exact List.mem_map_of_mem (List.mem_flatten.mpr ⟨tier, hTier, hMem⟩)
    rw [hId] at hListed
    exact absurd (List.mem_singleton.mp hListed) (by decide)
  · rintro ⟨model, hFinished⟩
    have hCalled : (chainedDispatch lastDeployment).called?.isSome = true := rfl
    rw [called?, hFinished] at hCalled
    cases hCalled

end Dispatch

end DeploymentRouting
