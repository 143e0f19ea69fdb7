import DeploymentRouting.Config.Apply
import DeploymentRouting.Proofs.Dispatch.Journal
import DeploymentRouting.Proofs.Dispatch.Outcome
/-!
When a request gives up on a model, and on its whole chain. It goes through the models of the
chain in their order. It leaves one of them when the attempts for it are used up or when nothing
can serve it, and it passes over a fallback for which nothing is registered.
-/
namespace DeploymentRouting

universe u

/-- A reason to leave a model of a chain. -/
inductive Leg.Due (settings : Settings) (request : Request) (chain : List String) (leg : Leg) :
    Prop where
  | usedUp (hAttempts : leg.stay.attempts.length = settings.maxAttempts)
  /-- Deployments already tried are not left out here. -/
  | noneServes
      (hNone : leg.router.NoneServes leg.stay.model request.excluded request.estimate leg.now)
  | passedOver (hFallback : leg.stay.model ∈ chain.tail)
      (hNone : leg.router.registry.candidates leg.stay.model = [])
      (hLooks : leg.stay.looks = []) (hCalls : leg.stay.calls = [])

namespace Journal

variable {journal : Journal}

/-- The models that the request has come to. -/
def models (journal : Journal) : List String := journal.stays.map Stay.model

theorem models_enter (h : journal.current? = none) (model : String) :
    (journal.enter model).models = journal.models ++ [model] := by
  rw [models, stays_enter h, List.map_append]
  rfl

@[simp] theorem models_leave (journal : Journal) (router : Router) (now : Instant) :
    (journal.leave router now).models = journal.models := by
  rw [models, stays_leave]
  rfl

@[simp] theorem models_look (journal : Journal) (look : Look) :
    (journal.look look).models = journal.models := by
  cases h : journal.current? <;> simp [models, stays, Journal.look, h]

@[simp] theorem models_call (journal : Journal) (deployment : Deployment) :
    (journal.call deployment).models = journal.models := by
  cases h : journal.current? <;> simp [models, stays, Journal.call, h]

end Journal

namespace Dispatch

variable {α : Type u} {settings : Settings} {request : Request} {journal next : Journal}
  {dispatch after : Dispatch α}

/-- Whether a request has failed at the end of its chain. -/
def gaveUp (dispatch : Dispatch α) : Bool :=
  match dispatch.phase with
  | .finished (.error (.retriesExhausted _ _ _)) | .finished (.error (.allUnavailable _)) => true
  | _ => false

theorem not_foundNone_of_active (hActive : dispatch.isSuspended = false) : ¬dispatch.FoundNone := by
  rintro ⟨model, hFinished⟩
  simp [isSuspended, hFinished] at hActive

/-- A request on its chain, which had reasons for leaving the models behind it. -/
structure AlongChain (settings : Settings) (request : Request) (journal : Journal)
    (dispatch : Dispatch α) : Prop where
  path : ∃ rest, journal.models ++ rest = journal.chain ∧
    (rest = dispatch.ahead ∨ dispatch.FoundNone)
  begun : journal.models ≠ []
  legs : ∀ leg ∈ journal.left, leg.Due settings request journal.chain
  atEnd : dispatch.gaveUp = true → journal.current? = none ∧ dispatch.ahead = []

namespace AlongChain

theorem path_of_active (h : AlongChain settings request journal dispatch)
    (hGoesOn : ¬dispatch.FoundNone) : journal.models ++ dispatch.ahead = journal.chain := by
  obtain ⟨rest, hPath, hRest⟩ := h.path
  rw [← hRest.resolve_right hGoesOn]
  exact hPath

/-- The request does not come to another model. -/
theorem goOn (h : AlongChain settings request journal dispatch) (hGoesOn : ¬dispatch.FoundNone)
    (hLeft : next.left = journal.left) (hChain : next.chain = journal.chain)
    (hModels : next.models = journal.models) (hAhead : after.ahead = dispatch.ahead)
    (hGaveUp : after.gaveUp = false) : AlongChain settings request next after where
  path := ⟨dispatch.ahead, by rw [hModels, hChain, h.path_of_active hGoesOn], .inl hAhead.symm⟩
  begun := hModels ▸ h.begun
  legs := by
    rw [hLeft, hChain]
    exact h.legs
  atEnd hOver := by
    rw [hGaveUp] at hOver
    cases hOver

theorem leave (h : AlongChain settings request journal dispatch) (hGoesOn : ¬dispatch.FoundNone)
    {stay : Stay} (hCurrent : journal.current? = some stay) {router : Router} {now : Instant}
    (hDue : Leg.Due settings request journal.chain ⟨stay, router, now⟩)
    (hAhead : after.ahead = dispatch.ahead) (hGaveUp : after.gaveUp = false) :
    AlongChain settings request (journal.leave router now) after where
  path := by
    refine ⟨dispatch.ahead, ?_, .inl hAhead.symm⟩
    rw [Journal.models_leave]
    exact h.path_of_active hGoesOn
  begun := by
    rw [Journal.models_leave]
    exact h.begun
  legs := by
    have hLeft : (journal.leave router now).left = journal.left ++ [⟨stay, router, now⟩] := by
      rw [Journal.leave, hCurrent]
      rfl
    rw [hLeft]
    exact List.forall_mem_append.mpr ⟨h.legs, List.forall_mem_singleton.mpr hDue⟩
  atEnd hOver := by
    rw [hGaveUp] at hOver
    cases hOver

/-- It comes to the next model, whatever its phase is then. -/
theorem enter (h : AlongChain settings request journal dispatch) (hGoesOn : ¬dispatch.FoundNone)
    (hNone : journal.current? = none) {model : String} {ahead : List String}
    (hAhead : dispatch.ahead = model :: ahead) (hForward : after.ahead = ahead)
    (hGaveUp : after.gaveUp = false) : AlongChain settings request (journal.enter model) after where
  path := by
    have hPath := h.path_of_active hGoesOn
    rw [hAhead] at hPath
    refine ⟨ahead, ?_, .inl hForward.symm⟩
    rw [Journal.models_enter hNone, List.append_assoc]
    exact hPath
  begun := by simp [Journal.models_enter hNone]
  legs := h.legs
  atEnd hOver := by
    rw [hGaveUp] at hOver
    cases hOver

/-- What comes ahead is not the first model of the chain. -/
theorem mem_tail_of_ahead (h : AlongChain settings request journal dispatch)
    (hGoesOn : ¬dispatch.FoundNone) {model : String} {ahead : List String}
    (hAhead : dispatch.ahead = model :: ahead) : model ∈ journal.chain.tail := by
  rw [← h.path_of_active hGoesOn, hAhead, List.tail_append_of_ne_nil h.begun]
  exact List.mem_append_right _ List.mem_cons_self

/-- A step leaves a model only with a reason. -/
theorem writes (h : AlongChain settings request journal dispatch)
    (hAgrees : Agrees request journal dispatch) (hActive : dispatch.isSuspended = false)
    (hBudget : dispatch.WithinBudget settings.maxAttempts) {router : Router}
    (hSettings : router.settings = settings) {now : Instant}
    (hWrites : Writes router now journal dispatch next after) :
    AlongChain settings request next after := by
  have hGoesOn := not_foundNone_of_active hActive
  cases hWrites with
  | fail hPhase hAhead outcome =>
      exact ⟨⟨_, h.path_of_active hGoesOn, .inl rfl⟩, h.begun, h.legs,
        fun _ => ⟨hAgrees.between hPhase, hAhead⟩⟩
  | @passOver model ahead hPhase hAhead hNone =>
      have hEntered : AlongChain settings request (journal.enter model)
          ({ dispatch with ahead, phase := .checking } : Dispatch α) :=
        h.enter hGoesOn (hAgrees.between hPhase) hAhead rfl rfl
      have hDue : Leg.Due settings request journal.chain ⟨{ model }, router, now⟩ :=
        .passedOver (h.mem_tail_of_ahead hGoesOn hAhead) hNone rfl rfl
      exact hEntered.leave (not_foundNone_of_active rfl) rfl hDue rfl (by simp [gaveUp, hPhase])
  | enter hPhase hAhead => exact h.enter hGoesOn (hAgrees.between hPhase) hAhead rfl rfl
  | usedUp hPhase hUsedUp =>
      obtain ⟨stay, hCurrent⟩ := hAgrees.within (by simp [hPhase]) (by simp [hPhase])
      have hAttempts : dispatch.entryAttempts = stay.attempts.length := by
        rw [hAgrees.remembers.attempts, Journal.looks_of_current hCurrent]
        rfl
      have hAll : stay.attempts.length = settings.maxAttempts :=
        hAttempts ▸ Nat.le_antisymm hBudget.attempts (hSettings ▸ hUsedUp)
      exact h.leave hGoesOn hCurrent (.usedUp hAll) rfl rfl
  | overdue hPhase => exact h.goOn hGoesOn rfl rfl rfl rfl rfl
  | ready hPhase => exact h.goOn hGoesOn rfl rfl rfl rfl rfl
  | found hPhase hServes => exact h.goOn hGoesOn rfl rfl (journal.models_look _) rfl rfl
  | secondPass hPhase hNone => exact h.goOn hGoesOn rfl rfl (journal.models_look _) rfl rfl
  | @noneLeft looked hPhase hNone hLast =>
      obtain ⟨stay, hCurrent⟩ := hAgrees.within (by simp [hPhase]) (by simp [hPhase])
      rw [hLast, hAgrees.requested, ← hAgrees.model stay hCurrent] at hNone
      have hLooked : AlongChain settings request
          (journal.look ⟨router, looked, dispatch.exclusions, none⟩) dispatch :=
        h.goOn hGoesOn rfl rfl (journal.models_look _) rfl (by simp [gaveUp, hPhase])
      exact hLooked.leave hGoesOn (Journal.current_look hCurrent _) (.noneServes hNone) rfl rfl
  | halt hPhase => exact h.goOn hGoesOn rfl rfl rfl rfl rfl
  | refused hPhase => exact h.goOn hGoesOn rfl rfl rfl rfl rfl
  | call hPhase call hDeployment =>
      exact h.goOn hGoesOn rfl rfl (journal.models_call _) rfl rfl
  | strand hPhase admission => exact h.goOn hGoesOn rfl rfl rfl rfl rfl

theorem answer (h : AlongChain settings request journal dispatch) {call : PendingCall}
    (hCall : dispatch.phase = .calling call) (router : Router) (now : Instant)
    (ended : CallEnd α) :
    AlongChain settings request journal (dispatch.answer router now ended).2 := by
  have hGoesOn : ¬dispatch.FoundNone := by
    rintro ⟨model, hFinished⟩
    cases hCall.symm.trans hFinished
  have hFail (error : BackendError) :
      AlongChain settings request journal (dispatch.fail router now call error).2 := by
    unfold Dispatch.fail
    split
    · exact h.goOn hGoesOn rfl rfl rfl rfl rfl
    · exact h.goOn hGoesOn rfl rfl rfl rfl rfl
  simp only [Dispatch.answer, hCall]
  cases ended with
  | success value => exact h.goOn hGoesOn rfl rfl rfl rfl rfl
  | failure error => exact hFail error
  | cutOff =>
      simp only [Dispatch.cutOff]
      split
      · exact h.goOn hGoesOn rfl rfl rfl rfl rfl
      · exact hFail _

theorem begin (settings : Settings) (router : Router) (request : Request) (now : Instant) :
    AlongChain settings request (Journal.begin router request)
      (Dispatch.begin router request now : Dispatch α) := by
  have hChain := router.fallbacks.chain_eq_cons (router.registry.resolve request.model)
    router.settings.maxFallbackDepth
  simp only [Dispatch.begin]
  split
  · exact ⟨⟨_, hChain.symm, .inr ⟨_, rfl⟩⟩, List.cons_ne_nil _ _, List.forall_mem_nil _,
      fun hOver => by cases hOver⟩
  · exact ⟨⟨_, hChain.symm, .inl rfl⟩, List.cons_ne_nil _ _, List.forall_mem_nil _,
      fun hOver => by cases hOver⟩

end AlongChain

theorem Journey.withinBudget (h : Journey settings request journal dispatch) :
    dispatch.WithinBudget settings.maxAttempts := by
  induction h with
  | begin router hSettings now => exact withinBudget_begin _ router request now
  | step prior hActive router hSettings now random ih =>
      exact ih.stepsTo (hSettings ▸ stepsTo_step hActive router now random)
  | answer prior hCall router hSettings now ended ih =>
      exact ih.returnsTo (returnsTo_answer hCall router now ended)

theorem Journey.alongChain (h : Journey settings request journal dispatch) :
    AlongChain settings request journal dispatch := by
  induction h with
  | begin router hSettings now => exact .begin settings router request now
  | step prior hActive router hSettings now random ih =>
      exact ih.writes prior.agrees hActive prior.withinBudget hSettings
        (writes_step hActive router now random _)
  | answer prior hCall router hSettings now ended ih => exact ih.answer hCall router now ended

/-- The chain is the one that was set when the request began. -/
theorem Journey.chain_eq (h : Journey settings request journal dispatch) :
    ∃ router : Router, router.settings = settings ∧ journal.chain =
      router.fallbacks.chain (router.registry.resolve request.model) settings.maxFallbackDepth := by
  induction h with
  | begin router hSettings now => exact ⟨router, hSettings, hSettings ▸ rfl⟩
  | step prior hActive router hSettings now random ih =>
      rw [Journal.chain_observe]
      exact ih
  | answer prior hCall router hSettings now ended ih => exact ih

/-- A request comes to the models of its chain in their order. It leaves one only when all
attempts for it have been made, or when nothing that may be chosen for it can serve, or when it
is a fallback without deployments, which takes no attempt. It fails at the end of the chain only
after it has left every model in this way. What may be chosen for a model are its own candidates
wherever looking it up once leads to the end. -/
theorem Journey.leaves_only_when_due (h : Journey settings request journal dispatch) :
    (∃ router : Router, router.settings = settings ∧ journal.chain = router.fallbacks.chain
        (router.registry.resolve request.model) settings.maxFallbackDepth) ∧
      journal.models <+: journal.chain ∧
      (∀ leg ∈ journal.left, leg.Due settings request journal.chain) ∧
      (dispatch.gaveUp = true → journal.left.map (·.stay.model) = journal.chain) ∧
      ∀ leg ∈ journal.left,
        leg.router.registry.resolve (leg.router.registry.resolve leg.stay.model) =
            leg.router.registry.resolve leg.stay.model →
          leg.router.registry.candidates (leg.router.registry.resolve leg.stay.model) =
            leg.router.registry.candidates leg.stay.model := by
  have hAlong := h.alongChain
  obtain ⟨rest, hPath, hRest⟩ := hAlong.path
  refine ⟨h.chain_eq, ⟨rest, hPath⟩, hAlong.legs, fun hGaveUp => ?_, fun leg _ hStable => ?_⟩
  · obtain ⟨hNone, hAhead⟩ := hAlong.atEnd hGaveUp
    have hGoesOn : ¬dispatch.FoundNone := by
      rintro ⟨model, hFinished⟩
      simp [gaveUp, hFinished] at hGaveUp
    have hAll := hAlong.path_of_active hGoesOn
    rw [hAhead, List.append_nil, Journal.models, Journal.stays, hNone, List.map_append,
      List.map_map] at hAll
    rw [← hAll]
    exact (List.append_nil _).symm
  · rw [Registry.candidates, Registry.candidates, hStable]

/-- Fallbacks of a model that is served by one deployment. -/
def failingConfig (fallbacks : List String) (aliases : Table String)
    (others : List ConfiguredDeployment) : Config where
  settings := { strategy := .roundRobin, maxAttempts := 1 }
  deployments := { id := "d0", modelName := "m", model := "x" } :: others
  fallbacks := Table.ofList [("m", fallbacks)]
  aliases := aliases

def failingRouter (config : Config) : Router :=
  (Router.ofConfig config).toOption.getD (Router.new {})

/-- A request for that model on a router of its own, up to the first call or the end. -/
def failingStart (router : Router) : Journal × Dispatch Response :=
  follow router 1 {} 3 (Journal.begin router Route.pairRequest, begin router Route.pairRequest 0)

/-- The call has failed, and the request goes on to its end. -/
def failingEnd (router : Router) : Journal × Dispatch Response :=
  follow router 11 {} 10 ((failingStart router).1,
    ((failingStart router).2.answer router 10 (.failure (.server 503 "busy"))).2)

theorem journey_failing (router : Router) {call : PendingCall}
    (hCall : (failingStart router).2.phase = .calling call) :
    Journey router.settings Route.pairRequest (failingEnd router).1 (failingEnd router).2 := by
  have hBegin : Journey router.settings Route.pairRequest (Journal.begin router Route.pairRequest)
      (begin router Route.pairRequest 0 : Dispatch Response) :=
    Journey.begin router (Eq.refl router.settings) 0
  have hStart := hBegin.follow (Eq.refl router.settings) 1 {} 3
  have hBusy := hStart.answer hCall router (Eq.refl router.settings) 10
    (.failure (.server 503 "busy"))
  exact hBusy.follow (Eq.refl router.settings) 11 {} 10

/-- A router that can fall back on a model without deployments, and on one whose only deployment
rests. -/
def restingRouter : Router :=
  { failingRouter (failingConfig ["n", "k"] ∅ [{ id := "d1", modelName := "k", model := "y" }]) with
    health := { records := Table.ofList [("d1", { cooldownUntil := some 100 })] } }

/-- The three models of its chain are left for the three reasons. -/
theorem Journey.leaves_only_when_due_resting :
    (failingEnd restingRouter).2.gaveUp = true ∧
      (failingEnd restingRouter).1.left.map (·.stay.model) = ["m", "n", "k"] ∧
      (failingEnd restingRouter).1.left.map (·.stay.attempts.length) = [1, 0, 0] ∧
      ∀ leg ∈ (failingEnd restingRouter).1.left,
        leg.Due restingRouter.settings Route.pairRequest ["m", "n", "k"] := by
  have hCalling : ∃ call, (failingStart restingRouter).2.phase = .calling call := ⟨_, rfl⟩
  obtain ⟨call, hCall⟩ := hCalling
  obtain ⟨_, _, hDue, hAll, _⟩ := (journey_failing restingRouter hCall).leaves_only_when_due
  have hChain : (failingEnd restingRouter).1.chain = ["m", "n", "k"] := rfl
  rw [hChain] at hDue hAll
  exact ⟨rfl, hAll rfl, rfl, hDue⟩

/-- A model with two aliases on the way to it, which is what another one falls back on. -/
def nestedConfig (served : String) : Config :=
  failingConfig ["a"] (Table.ofList [("a", "b"), ("b", "c")])
    [{ id := "d1", modelName := served, model := "y" }]

/-- But a fallback that is an alias of an alias is left although a deployment could serve it, under
configurations that are valid. If the deployment serves what the fallback stands for, it is a
candidate for the fallback, and no attempt is made. If it serves what comes after that, it is what
would be chosen for the fallback, and the fallback is passed over. -/
theorem Journey.leaves_what_could_serve :
    (∀ served ∈ ["b", "c"], (nestedConfig served).validate = .ok () ∧
      Router.ofConfig (nestedConfig served) = .ok (failingRouter (nestedConfig served)) ∧
      Journey (failingRouter (nestedConfig served)).settings Route.pairRequest
        (failingEnd (failingRouter (nestedConfig served))).1
        (failingEnd (failingRouter (nestedConfig served))).2 ∧
      (failingEnd (failingRouter (nestedConfig served))).2.gaveUp = true) ∧
      (∃ leg ∈ (failingEnd (failingRouter (nestedConfig "b"))).1.left,
        leg.stay.model = "a" ∧ leg.stay.attempts.length < leg.router.settings.maxAttempts ∧
        ∃ tier ∈ leg.router.registry.candidates leg.stay.model, ∃ deployment ∈ tier,
          leg.router.CanServe [] 0 leg.now deployment) ∧
      ∃ leg ∈ (failingEnd (failingRouter (nestedConfig "c"))).1.left,
        leg.stay.model = "a" ∧ leg.stay.looks = [] ∧
        ∃ deployment,
          (leg.router.select leg.stay.model [] 0 leg.now {}).1 = .chosen deployment := by
  refine ⟨?_, ?_, ?_⟩
  · refine List.forall_mem_cons.mpr ⟨⟨rfl, rfl, ?_, rfl⟩, List.forall_mem_singleton.mpr
      ⟨rfl, rfl, ?_, rfl⟩⟩
    · have hCalling : ∃ call, (failingStart (failingRouter (nestedConfig "b"))).2.phase =
          .calling call := ⟨_, rfl⟩
      obtain ⟨call, hCall⟩ := hCalling
      exact journey_failing _ hCall
    · have hCalling : ∃ call, (failingStart (failingRouter (nestedConfig "c"))).2.phase =
          .calling call := ⟨_, rfl⟩
      obtain ⟨call, hCall⟩ := hCalling
      exact journey_failing _ hCall
  · refine ⟨_, List.mem_cons_of_mem _ List.mem_cons_self, rfl, Nat.zero_lt_one, _,
      List.mem_cons_self, _, List.mem_cons_self, List.not_mem_nil, rfl, rfl⟩
  · exact ⟨_, List.mem_cons_of_mem _ List.mem_cons_self, rfl, rfl, _, rfl⟩

end Dispatch

end DeploymentRouting
