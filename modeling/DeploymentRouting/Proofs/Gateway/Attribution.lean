import DeploymentRouting.Proofs.Gateway.Frame
import DeploymentRouting.Proofs.Registry.Changes
/-!
Which model a request that was served is put down to, in the answer and in the account of its
cost. It is the entry of the chain at which a deployment was found. The deployment was looked up
through the aliases, but the entry is told as it stands in the chain, so where a list of
fallbacks names an alias, or an alias leads to another one, the deployment need not serve a model
of that name.
-/
namespace DeploymentRouting

universe u

/-- The deployment under an id serves what a name leads to when it is looked up twice. -/
def Registry.ServesBehind (registry : Registry) (id name : String) : Prop :=
  ∃ record, registry.get? id = some record ∧
    record.serves (registry.resolve (registry.resolve name)) = true

/-- Behind a name that is no alias there is nothing but the name. -/
theorem Registry.ServesBehind.serves {registry : Registry} {id name : String}
    (h : registry.ServesBehind id name) (hName : registry.aliases.get? name = none) :
    ∃ record, registry.get? id = some record ∧ record.serves name = true := by
  have hResolve : registry.resolve name = name := by rw [resolve, hName]; rfl
  obtain ⟨record, hRecord, hServes⟩ := h
  rw [hResolve, hResolve] at hServes
  exact ⟨record, hRecord, hServes⟩

namespace Dispatch

variable {α : Type u} {dispatch after : Dispatch α} {registry : Registry} {primary : String}
  {maxAttempts : Nat}

/-- A request is at its first model until it falls back, and never comes to it again. -/
structure OnChain (primary : String) (dispatch : Dispatch α) : Prop where
  fallback : dispatch.usedFallback = true ↔ dispatch.entry ≠ primary
  ahead : primary ∉ dispatch.ahead

theorem onChain_begin (router : Router) (request : Request) (now : Instant) :
    OnChain (router.registry.resolve request.model) (begin router request now : Dispatch α) := by
  simp only [begin]
  split
  next => exact ⟨by simp, List.not_mem_nil⟩
  next =>
    refine ⟨by simp, ?_⟩
    have hDistinct := router.fallbacks.nodup_chain (router.registry.resolve request.model)
      router.settings.maxFallbackDepth
    rw [Fallbacks.chain_eq_cons] at hDistinct
    exact (List.nodup_cons.mp hDistinct).1

theorem OnChain.stepsTo (h : dispatch.OnChain primary)
    (hStep : StepsTo maxAttempts dispatch after) : after.OnChain primary := by
  cases hStep with
  | skip hPhase hAhead =>
      exact ⟨h.fallback, fun hMem => h.ahead (hAhead ▸ List.mem_cons_of_mem _ hMem)⟩
  | enter hPhase hAhead =>
      refine ⟨⟨fun _ hSame => h.ahead ?_, fun _ => rfl⟩,
        fun hMem => h.ahead (hAhead ▸ List.mem_cons_of_mem _ hMem)⟩
      rw [hAhead, ← hSame]
      exact List.mem_cons_self
  | _ => exact ⟨h.fallback, h.ahead⟩

theorem OnChain.returnsTo (h : dispatch.OnChain primary) (hReturn : ReturnsTo dispatch after) :
    after.OnChain primary := by
  cases hReturn <;> exact ⟨h.fallback, h.ahead⟩

/-- What a request tells of its success: the model at hand, and a deployment that was found for
it. -/
def TellsOf (registry : Registry) (dispatch : Dispatch α) (delivery : Delivery α) : Prop :=
  delivery.modelUsed = dispatch.entry ∧ delivery.usedFallback = dispatch.usedFallback ∧
    ∃ tier ∈ registry.candidates (registry.resolve delivery.modelUsed),
      delivery.deployment ∈ tier

/-- A request that knows where it is on its chain, and tells what it did. -/
structure Attributed (registry : Registry) (primary : String) (dispatch : Dispatch α) :
    Prop where
  onChain : dispatch.OnChain primary
  chosen : dispatch.ChosenFrom registry
  tells : ∀ delivery, dispatch.phase = .finished (.ok delivery) →
    dispatch.TellsOf registry delivery

theorem attributed_begin (router : Router) (request : Request) (now : Instant) :
    Attributed router.registry (router.registry.resolve request.model)
      (begin router request now : Dispatch α) where
  onChain := onChain_begin router request now
  chosen := (located_begin router request now).chosen
  tells delivery hPhase := by
    simp only [begin] at hPhase
    split at hPhase <;> cases hPhase

/-- No step succeeds by itself, without the return of a call. -/
theorem phase_step_ne_ok (hActive : dispatch.isSuspended = false) (router : Router)
    (now : Instant) (random : RandomSource) (delivery : Delivery α) :
    (dispatch.step router now random).2.phase ≠ .finished (.ok delivery) := by
  intro hDelivered
  unfold Dispatch.step at hDelivered
  cases hPhase : dispatch.phase with
  | entering =>
      simp only [hPhase, enter] at hDelivered
      split at hDelivered
      · cases hDelivered
      · split at hDelivered <;> cases hDelivered
  | checking =>
      simp only [hPhase, check] at hDelivered
      split at hDelivered
      · cases hDelivered
      · split at hDelivered <;> cases hDelivered
  | selecting looked =>
      simp only [hPhase] at hDelivered
      cases hSelection : (router.select dispatch.entry dispatch.exclusions
          dispatch.request.estimate looked random).1 with
      | chosen deployment =>
          rw [hSelection] at hDelivered
          cases hDelivered
      | noneEligible =>
          rw [hSelection] at hDelivered
          simp only [withSelection] at hDelivered
          split at hDelivered <;> cases hDelivered
      | overflow =>
          rw [hSelection] at hDelivered
          cases hDelivered
  | reserving looked deployment =>
      simp only [hPhase] at hDelivered
      obtain ⟨_, _, _, hReserve⟩ | ⟨_, _, _, _, hReserve⟩ | ⟨_, _, _, _, hReserve⟩ :=
        dispatch.reserve_cases router now looked deployment
      all_goals
        rw [hReserve] at hDelivered
        cases hDelivered
  | calling call => simp [isSuspended, hPhase] at hActive
  | finished outcome => simp [isSuspended, hPhase] at hActive
  | halted stranded => simp [isSuspended, hPhase] at hActive

theorem Attributed.step (h : dispatch.Attributed registry primary) {router : Router}
    (hRegistry : router.registry = registry) (now : Instant) (random : RandomSource) :
    (dispatch.step router now random).2.Attributed registry primary := by
  cases hActive : dispatch.isSuspended with
  | true =>
      rw [step_of_suspended hActive]
      exact h
  | false =>
      exact {
        onChain := h.onChain.stepsTo (stepsTo_step hActive router now random)
        chosen := h.chosen.step hActive hRegistry now random
        tells := fun delivery hPhase =>
          absurd hPhase (phase_step_ne_ok hActive router now random delivery) }

theorem Attributed.answer (h : dispatch.Attributed registry primary) (router : Router)
    (now : Instant) (ended : CallEnd α) :
    (dispatch.answer router now ended).2.Attributed registry primary := by
  cases hPhase : dispatch.phase with
  | calling call =>
      have hReturn := returnsTo_answer hPhase router now ended
      refine ⟨h.onChain.returnsTo hReturn, chosenFrom_returnsTo hReturn, ?_⟩
      intro delivery hDelivered
      obtain ⟨value, _, rfl⟩ := served_of_answer hPhase hDelivered
      obtain ⟨hFallback, hEntry⟩ := entry_returnsTo hReturn
      exact ⟨hEntry.symm, hFallback.symm,
        h.chosen call.deployment (by simp only [target?, hPhase])⟩
  | _ =>
      simp only [Dispatch.answer, hPhase]
      exact h

end Dispatch

/-- The account that a reply gives of a request that was served. -/
def Reply.account? : Reply → Option (Routed Unit)
  | .response routed => some { routed with response := () }
  | .stream routed => some routed
  | .nothing | .failed _ | .item _ => none

/-- What holds of every account of a request: the deployment serves what the model that is told
leads to, and a fallback is told if and only if that model is not the one the request began
with. -/
structure Registry.Accounts (registry : Registry) (request : Request) (account : Routed Unit) :
    Prop where
  serves : registry.ServesBehind account.deployment account.modelUsed
  fallback : account.usedFallback = true ↔ account.modelUsed ≠ registry.resolve request.model

/-- A request accounts for the delivery in which it ends. -/
theorem Dispatch.Attributed.accounts {α : Type} {registry : Registry} {request : Request}
    {dispatch : Dispatch α} {delivery : Delivery α} (hIndexed : registry.Indexed)
    (h : dispatch.Attributed registry (registry.resolve request.model))
    (hPhase : dispatch.phase = .finished (.ok delivery)) :
    registry.Accounts request (delivery.routed ()) := by
  obtain ⟨hModel, hFallback, tier, hTier, hMem⟩ := h.tells delivery hPhase
  refine ⟨⟨delivery.deployment, ?_⟩, ?_⟩
  · exact hIndexed.mem_candidates.mp (List.mem_flatten.mpr ⟨tier, hTier, hMem⟩)
  · change delivery.usedFallback = true ↔ delivery.modelUsed ≠ _
    rw [hModel, hFallback]
    exact h.onChain.fallback

/-- Reading a stream changes neither its deployment nor its model. -/
theorem RoutedStream.read_tells (router : Router) (now : Instant) (stream : RoutedStream)
    (arrival : Arrival) :
    (stream.read router now arrival).2.1.deployment = stream.deployment ∧
      (stream.read router now arrival).2.1.modelUsed = stream.modelUsed := by
  unfold RoutedStream.read
  split
  · cases arrival <;> exact ⟨rfl, rfl⟩
  · unfold RoutedStream.poll
    split <;> exact ⟨rfl, rfl⟩

namespace Session

variable {β : Type} {registry : Registry} {request : Request} {router : Router}
  {session : Session β} {told : Option (Routed Unit)}

/-- The last account that has been given of a request, after one more reply. -/
def toldAfter (told : Option (Routed Unit)) (reply : Reply) : Option (Routed Unit) :=
  reply.account?.or told

/-- The sessions of one request on routers of one registry, with the account that has been given
of it. The router may be another one at each move, since others act on it in between. -/
inductive Run (registry : Registry) (request : Request) :
    Option (Routed Unit) → Session β → Prop where
  | begin (router : Router) (hRegistry : router.registry = registry) (streamed : Bool)
      (now : Instant) : Run registry request none (Session.begin router streamed request now).2.1
  | act {told : Option (Routed Unit)} {session : Session β}
      (prior : Run registry request told session) (router : Router)
      (hRegistry : router.registry = registry) (now : Instant) (move : Move β) :
      Run registry request (toldAfter told (session.act router now move).2.2)
        (session.act router now move).2.1

/-- A session on its way can account for itself, and a stream is the one that was told of. -/
def Attributed (registry : Registry) (request : Request) (told : Option (Routed Unit)) :
    Session β → Prop
  | .whole route => route.dispatch.Attributed registry (registry.resolve request.model)
  | .opening route => route.dispatch.Attributed registry (registry.resolve request.model)
  | .reading stream => ∃ account, told = some account ∧
      stream.deployment = account.deployment ∧ stream.modelUsed = account.modelUsed
  | .done => True

theorem attributed_begin (hRegistry : router.registry = registry) (streamed : Bool)
    (request : Request) (now : Instant) :
    (Session.begin (β := β) router streamed request now).2.1.Attributed registry request none := by
  have hRequest : ∀ {α : Type}, Dispatch.Attributed registry (registry.resolve request.model)
      (Dispatch.begin (router.reserveCaller request now).1 request now : Dispatch α) := by
    intro α
    have hBegun := Dispatch.attributed_begin (α := α) (router.reserveCaller request now).1 request
      now
    rwa [(router.sameSetup_reserveCaller request now).registry, hRegistry] at hBegun
  exact begin_cases trivial (fun _ => hRequest) (fun _ => hRequest) streamed

theorem Attributed.act (h : session.Attributed registry request told)
    (hRegistry : router.registry = registry) (now : Instant) (move : Move β) :
    (session.act router now move).2.1.Attributed registry request
      (toldAfter told (session.act router now move).2.2) := by
  unfold Session.act
  split
  case h_1 route random | h_5 route random => exact Dispatch.Attributed.step h hRegistry now random
  case h_2 route ended | h_6 route ended => exact Dispatch.Attributed.answer h router now ended
  case h_3 route =>
    split
    · trivial
    · trivial
    · exact h
  case h_7 route =>
    split
    next delivery hDelivered => exact ⟨delivery.routed (), rfl, rfl, rfl⟩
    · trivial
    · exact h
  case h_9 stream arrival =>
    obtain ⟨account, hTold, hDeployment, hModel⟩ := h
    obtain ⟨hSameDeployment, hSameModel⟩ := stream.read_tells router now arrival
    exact ⟨account, hTold, hSameDeployment.trans hDeployment, hSameModel.trans hModel⟩
  case h_11 => exact h
  all_goals trivial

/-- Whatever a session does, the account that it gives is sound. -/
theorem Attributed.account (hIndexed : registry.Indexed)
    (h : session.Attributed registry request told) (router : Router) (now : Instant)
    (move : Move β) {account : Routed Unit}
    (hAccount : (session.act router now move).2.2.account? = some account) :
    registry.Accounts request account := by
  unfold Session.act at hAccount
  split at hAccount
  case h_3 | h_7 =>
    split at hAccount
    next delivery hDelivered =>
      cases hAccount
      exact Dispatch.Attributed.accounts hIndexed h hDelivered
    · cases hAccount
    · cases hAccount
  all_goals cases hAccount

theorem Run.attributed (h : Run registry request told session) :
    session.Attributed registry request told := by
  induction h with
  | begin router hRegistry streamed now => exact attributed_begin hRegistry streamed request now
  | act prior router hRegistry now move ih => exact ih.act hRegistry now move

theorem Run.accounts (hIndexed : registry.Indexed) (h : Run registry request told session)
    {account : Routed Unit} (hTold : told = some account) :
    registry.Accounts request account := by
  induction h with
  | begin router hRegistry streamed now => cases hTold
  | act prior router hRegistry now move ih =>
      rcases Option.or_eq_some_iff.mp hTold with hNew | ⟨_, hOld⟩
      · exact prior.attributed.account hIndexed router now move hNew
      · exact ih hOld

/-- An event is of the deployment and the model that the account tells. -/
theorem Attributed.event (h : session.Attributed registry request told) (router : Router)
    (now : Instant) {move : Move β} {event : SpendEvent}
    (hEvent : session.event? move = some event) :
    ∃ account, toldAfter told (session.act router now move).2.2 = some account ∧
      event.deployment = account.deployment ∧ event.model = account.modelUsed := by
  unfold event? at hEvent
  split at hEvent
  next route =>
    split at hEvent
    next delivery hDelivered =>
      cases hEvent
      refine ⟨delivery.routed (), ?_, rfl, rfl⟩
      simp only [Session.act, hDelivered]
      rfl
    · cases hEvent
  next stream arrival =>
    split at hEvent
    · cases hEvent
      exact h
    · cases hEvent
  · cases hEvent

end Session

/-- What can be said of a router that is built of a configuration: its index agrees with its
records, and its aliases are those of the configuration. -/
theorem Router.ofConfig_setup {config : Config} {built : Router}
    (h : Router.ofConfig config = .ok built) :
    built.registry.Indexed ∧ built.registry.aliases = config.aliases := by
  unfold ofConfig at h
  cases hValid : config.validate with
  | error fault => rw [hValid] at h; cases h
  | ok _ =>
      rw [hValid] at h
      change (Router.new config.settings).apply config = .ok built at h
      rw [apply_eq] at h
      split at h
      next records callerLimits _ =>
        cases h
        exact ⟨indexed_takeOver Registry.indexed_empty config records callerLimits, rfl⟩
      next => cases h

namespace Session

variable {β : Type} {config : Config} {built : Router} {request : Request} {session : Session β}
  {told : Option (Routed Unit)}

/-- What is left of a router, an account and a session after moves at one instant. -/
def play (now : Instant) :
    List (Move β) → Router × Option (Routed Unit) × Session β →
      Router × Option (Routed Unit) × Session β
  | [], state => state
  | move :: rest, (router, told, session) =>
      let (router, session, reply) := session.act router now move
      play now rest (router, toldAfter told reply, session)

theorem Run.play {registry : Registry} (now : Instant) (moves : List (Move β))
    {state : Router × Option (Routed Unit) × Session β} (hRegistry : state.1.registry = registry)
    (h : Run registry request state.2.1 state.2.2) :
    Run registry request (play now moves state).2.1 (play now moves state).2.2 := by
  induction moves generalizing state with
  | nil => exact h
  | cons move rest ih =>
      exact ih ((sameSetup_act state.1 now state.2.2 move).registry.trans hRegistry)
        (h.act state.1 hRegistry now move)

/-- A request that was served is put down to a model whose name leads, looked up twice, to what
the deployment serves, and to a fallback if and only if that is not the model that the request
leads to. Where the name is no alias the deployment serves a model of that name. The cost is
reported for the same deployment and the same model, and nothing else is reported. -/
theorem Run.attributes (hBuilt : Router.ofConfig config = .ok built)
    (h : Run built.registry request told session) :
    (∀ account, told = some account →
      built.registry.ServesBehind account.deployment account.modelUsed ∧
        (account.usedFallback = true ↔
          account.modelUsed ≠ built.registry.resolve request.model) ∧
        (config.aliases.get? account.modelUsed = none →
          ∃ record, built.registry.get? account.deployment = some record ∧
            record.serves account.modelUsed = true)) ∧
      ∀ (router : Router) (now : Instant) (move : Move β),
        (session.act router now move).1.spend =
            (router.notifySome (session.event? move)).spend ∧
          ∀ event, session.event? move = some event →
            ∃ account, toldAfter told (session.act router now move).2.2 = some account ∧
              event.deployment = account.deployment ∧ event.model = account.modelUsed := by
  obtain ⟨hIndexed, hAliases⟩ := Router.ofConfig_setup hBuilt
  refine ⟨fun account hTold => ?_, fun router now move =>
    ⟨session.spend_act router now move, fun event hEvent => h.attributed.event router now hEvent⟩⟩
  obtain ⟨hServes, hFallback⟩ := h.accounts hIndexed hTold
  exact ⟨hServes, hFallback, fun hName => hServes.serves (hAliases ▸ hName)⟩

/-- The deployment of `m` falls back on `spare`, an alias of `n`. -/
def spareConfig : Config where
  settings := { strategy := .roundRobin, maxAttempts := 1 }
  deployments :=
    [{ id := "d1", modelName := "m", model := "x" }, { id := "d2", modelName := "n", model := "y" }]
  fallbacks := Table.ofList [("m", ["spare"])]
  aliases := Table.ofList [("spare", "n")]

def spareRouter : Router := (Router.ofConfig spareConfig).toOption.getD (Router.new {})

def spareRequest : Request := { model := "m", payload := .null, deadline := 100 }

/-- The first deployment fails, and the second one answers in its place. -/
def spareMoves : List (Move Unit) :=
  [.step {}, .step {}, .step {}, .answerWhole (.failure (.server 503 "busy")), .step {}, .step {},
    .step {}, .step {}, .step {}, .answerWhole (.success { payload := .null }), .finish]

/-- A request for `m` on a router that reports costs. -/
def spareStart : Router × Option (Routed Unit) × Session Unit :=
  (spareRouter.withSpend, none, (Session.begin spareRouter.withSpend false spareRequest 0).2.1)

def spareState : Router × Option (Routed Unit) × Session Unit := play 0 spareMoves spareStart

theorem run_spareState : Run spareRouter.registry spareRequest spareState.2.1 spareState.2.2 := by
  have hBegin : Run spareRouter.registry spareRequest spareStart.2.1 spareStart.2.2 :=
    Run.begin spareRouter.withSpend (Eq.refl spareRouter.registry) false 0
  have hRegistry : spareStart.1.registry = spareRouter.registry := rfl
  unfold spareState
  exact Run.play 0 spareMoves hRegistry hBegin

/-- What the account tells leads to what the deployment serves, through the alias. -/
theorem Run.attributes_spare :
    Router.ofConfig spareConfig = .ok spareRouter ∧
      ∃ account, spareState.2.1 = some account ∧ account.deployment = "d2" ∧
        account.modelUsed = "spare" ∧ account.usedFallback = true ∧
        spareRouter.registry.ServesBehind "d2" "spare" := by
  have hBuilt : Router.ofConfig spareConfig = .ok spareRouter := rfl
  have hTold : spareState.2.1.map (fun account => (account.deployment, account.modelUsed)) =
      some ("d2", "spare") := rfl
  obtain ⟨account, hAccount, hNames⟩ := Option.map_eq_some_iff.mp hTold
  obtain ⟨hDeployment, hModel⟩ := Prod.mk.inj hNames
  obtain ⟨hServes, hFallback, _⟩ := (Run.attributes hBuilt run_spareState).1 account hAccount
  rw [hModel] at hFallback
  refine ⟨hBuilt, account, hAccount, hDeployment, hModel, hFallback.mpr (by decide +kernel), ?_⟩
  rwa [hDeployment, hModel] at hServes

/-- But the deployment that is told serves no model of the name that is told and for which the
cost is reported, under a configuration that is valid. -/
theorem Run.tells_unserved :
    spareConfig.validate = .ok () ∧ Router.ofConfig spareConfig = .ok spareRouter ∧
      Run spareRouter.registry spareRequest spareState.2.1 spareState.2.2 ∧
      spareState.1.spend.map (·.waiting) =
        some [{ caller := none, deployment := "d2", model := "spare", tokens := 0 }] ∧
      ∃ account, spareState.2.1 = some account ∧
        ¬∃ record, spareRouter.registry.get? account.deployment = some record ∧
          record.serves account.modelUsed = true := by
  refine ⟨rfl, rfl, run_spareState, by decide +kernel, ?_⟩
  have hTold : spareState.2.1.map (fun account =>
      ((spareRouter.registry.get? account.deployment).map (·.serves account.modelUsed))) =
        some (some false) := by decide +kernel
  obtain ⟨account, hAccount, hServes⟩ := Option.map_eq_some_iff.mp hTold
  refine ⟨account, hAccount, ?_⟩
  rintro ⟨record, hRecord, hServed⟩
  rw [hRecord, Option.map_some, hServed] at hServes
  cases hServes

end Session

end DeploymentRouting
