import DeploymentRouting.Config.Apply
import DeploymentRouting.Proofs.Limiter.Log
import DeploymentRouting.Stream
/-!
A router with all requests that were ever made of it. Each request is a session, which its
owner moves on step by step and may drop at any time; the steps of different sessions come in
any order. Beside the sessions stands the history of the limiter: which of its own steps each
step of a session has made. It is only written, never read.
-/
namespace DeploymentRouting

universe u

/-- A request in the hands of its owner. -/
inductive Session (β : Type) where
  /-- It is on its way to a whole response. -/
  | whole (route : Route Response)
  /-- It is on its way to the first chunk of a stream. -/
  | opening (route : Route (Option Chunk × β))
  | reading (stream : RoutedStream)
  | done

/-- What the owner of a session gets from a step. -/
inductive Reply where
  | nothing
  | failed (error : RoutingError)
  | response (routed : Routed Response)
  | stream (routed : Routed Unit)
  | item (item : StreamItem)

/-- Whether nothing comes after it: an error, a whole response, or the end of a stream. -/
def Reply.isFinal : Reply → Bool
  | .failed _ | .response _ | .item .ended => true
  | .nothing | .stream _ | .item _ => false

/-- The place on a deployment that a request has: that of the call that is out, of the one that
succeeded, or of the one that could not be timed. -/
def Phase.place? {α : Type u} : Phase α → Option Admission
  | .calling call => some call.admission
  | .finished (.ok delivery) => some delivery.admission
  | .halted (some (_, admission)) => some admission
  | _ => none

def Route.place? {α : Type u} (route : Route α) : Party → Option Admission
  | .deployment => route.dispatch.phase.place?
  | .caller => route.callerAdmission

def StreamPhase.isClosed : StreamPhase → Bool
  | .closed => true
  | .opening _ | .reading | .closing => false

/-- The place that a stream has for a party. A closed stream has none. -/
def RoutedStream.place? (stream : RoutedStream) (party : Party) : Option Admission :=
  if stream.phase.isClosed then none
  else match party with
    | .deployment => some stream.admission
    | .caller => stream.callerAdmission

def Dispatch.stepMoves {α : Type u} (holder : Nat) (dispatch : Dispatch α) :
    List Limiter.Move :=
  match dispatch.phase with
  | .reserving looked deployment =>
      [.reserve holder .deployment deployment.id deployment.limits dispatch.request.estimate
        looked]
  | _ => []

/-- The steps of the limiter at the end of a call. A call that succeeded keeps its place. -/
def Dispatch.answerMoves {α : Type u} (holder : Nat) (now : Instant) (ended : CallEnd α)
    (dispatch : Dispatch α) : List Limiter.Move :=
  match dispatch.phase, ended with
  | .calling _, .failure _ => [.settle holder .deployment 0 now]
  | .calling _, .cutOff =>
      if dispatch.request.isExpired now then [.abandon holder .deployment now]
      else [.settle holder .deployment 0 now]
  | _, _ => []

/-- Both places are given back, as far as there are two. -/
def settleMoves (holder : Nat) (tokens : Nat) (now : Instant) : List Limiter.Move :=
  [.settle holder .deployment tokens now, .settle holder .caller tokens now]

def abandonMoves (holder : Nat) (now : Instant) : List Limiter.Move :=
  [.abandon holder .deployment now, .abandon holder .caller now]

/-- What the reader of a stream gets, from the backend or without it. -/
def RoutedStream.read (router : Router) (now : Instant) (stream : RoutedStream)
    (arrival : Arrival) : Router × RoutedStream × StreamItem :=
  if stream.asksBackend then stream.receive router now arrival else stream.poll router now

/-- Whether the next item of a stream is its end. -/
def RoutedStream.closesOn (stream : RoutedStream) (arrival : Arrival) : Bool :=
  match stream.phase, arrival with
  | .closing, _ => true
  | .opening none, .ended | .reading, .ended => true
  | _, _ => false

namespace Session

variable {β : Type}

/-- What the owner of a session can do, and what a backend can. -/
inductive Move (β : Type) where
  | step (random : RandomSource)
  | answerWhole (ended : CallEnd Response)
  | answerStream (ended : CallEnd (Option Chunk × β))
  /-- Takes the outcome. -/
  | finish
  /-- Asks for the next item. The arrival counts if the backend has to be asked. -/
  | read (arrival : Arrival)
  | drop

/-- Begins a session. A caller that is refused gets its error at once. -/
def begin (router : Router) (streamed : Bool) (request : Request) (now : Instant) :
    Router × Session β × Reply :=
  if streamed then
    match Route.begin router request now with
    | (router, .error error) => (router, .done, .failed error)
    | (router, .ok route) => (router, .opening route, .nothing)
  else
    match Route.begin router request now with
    | (router, .error error) => (router, .done, .failed error)
    | (router, .ok route) => (router, .whole route, .nothing)

theorem router_begin (router : Router) (streamed : Bool) (request : Request) (now : Instant) :
    (Session.begin (β := β) router streamed request now).1 =
      (router.reserveCaller request now).1 := by
  unfold Session.begin Route.begin
  rcases router.reserveCaller request now with ⟨after, refusal | place⟩ <;> cases streamed <;> rfl

/-- A session is over at once, if its caller is refused, or a request begins in it. -/
theorem begin_cases {motive : Session β → Prop} {router : Router} {request : Request}
    {now : Instant} (done : motive .done)
    (whole : ∀ callerAdmission, motive (.whole {
      callerAdmission, dispatch := .begin (router.reserveCaller request now).1 request now }))
    (opening : ∀ callerAdmission, motive (.opening {
      callerAdmission, dispatch := .begin (router.reserveCaller request now).1 request now }))
    (streamed : Bool) : motive (Session.begin router streamed request now).2.1 := by
  unfold Session.begin Route.begin
  generalize router.reserveCaller request now = reserved at whole opening
  obtain ⟨after, refusal | place⟩ := reserved
  · cases streamed <;> exact done
  · cases streamed with
    | false => exact whole place
    | true => exact opening place

/-- One step of a session. What does not fit its state has no effect. -/
def act (router : Router) (now : Instant) :
    Session β → Move β → Router × Session β × Reply
  | .whole route, .step random =>
      let (router, dispatch) := route.dispatch.step router now random
      (router, .whole { route with dispatch }, .nothing)
  | .whole route, .answerWhole ended =>
      let (router, dispatch) := route.dispatch.answer router now ended
      (router, .whole { route with dispatch }, .nothing)
  | .whole route, .finish =>
      match route.dispatch.phase with
      | .finished (.ok delivery) =>
          let (router, routed) := route.settleResponse router now delivery
          (router, .done, .response routed)
      | .finished (.error error) => (route.settleFailure router now, .done, .failed error)
      | _ => (router, .whole route, .nothing)
  | .whole route, .drop => (route.cancel router now, .done, .nothing)
  | .opening route, .step random =>
      let (router, dispatch) := route.dispatch.step router now random
      (router, .opening { route with dispatch }, .nothing)
  | .opening route, .answerStream ended =>
      let (router, dispatch) := route.dispatch.answer router now ended
      (router, .opening { route with dispatch }, .nothing)
  | .opening route, .finish =>
      match route.dispatch.phase with
      | .finished (.ok delivery) =>
          let stream :=
            RoutedStream.ofDelivery route.dispatch.request route.callerAdmission delivery
          (router, .reading stream, .stream (delivery.routed ()))
      | .finished (.error error) => (route.settleFailure router now, .done, .failed error)
      | _ => (router, .opening route, .nothing)
  | .opening route, .drop => (route.cancel router now, .done, .nothing)
  | .reading stream, .read arrival =>
      let (router, stream, item) := stream.read router now arrival
      (router, .reading stream, .item item)
  | .reading stream, .drop => (stream.drop router now, .done, .nothing)
  | session, _ => (router, session, .nothing)

def isOver : Session β → Bool
  | .done => true
  | .reading stream => stream.phase.isClosed
  | .whole _ | .opening _ => false

def place? (party : Party) : Session β → Option Admission
  | .whole route => route.place? party
  | .opening route => route.place? party
  | .reading stream => stream.place? party
  | .done => none

def holds (party : Party) (key : String) (session : Session β) : Bool :=
  (session.place? party).any (·.isOn party key)

def beginMoves (holder : Nat) (router : Router) (request : Request) (now : Instant) :
    List Limiter.Move :=
  match request.caller with
  | none => []
  | some caller =>
      match router.callerLimits.get? caller with
      | none => []
      | some limits => [.reserve holder .caller caller limits request.estimate now]

/-- The steps of the limiter in a step of a session. -/
def limiterMoves (holder : Nat) (now : Instant) : Session β → Move β → List Limiter.Move
  | .whole route, .step _ => route.dispatch.stepMoves holder
  | .whole route, .answerWhole ended => route.dispatch.answerMoves holder now ended
  | .whole route, .finish =>
      match route.dispatch.phase with
      | .finished (.ok delivery) =>
          settleMoves holder (chargedTokens route.dispatch.request delivery.value.usage) now
      | .finished (.error _) => [.settle holder .caller 0 now]
      | _ => []
  | .opening route, .step _ => route.dispatch.stepMoves holder
  | .opening route, .answerStream ended => route.dispatch.answerMoves holder now ended
  | .opening route, .finish =>
      match route.dispatch.phase with
      | .finished (.error _) => [.settle holder .caller 0 now]
      | _ => []
  | .reading stream, .read arrival =>
      if stream.closesOn arrival then
        settleMoves holder (chargedTokens stream.request stream.usage) now
      else []
  | .whole _, .drop | .opening _, .drop | .reading _, .drop => abandonMoves holder now
  | _, _ => []

end Session

/-- The limiter without some keys, as far as nothing is out on them. -/
def Limiter.forgetAll (limiter : Limiter) (ids : List String) : Limiter :=
  ids.foldl (fun limiter id => (limiter.forget id).1) limiter

/-- A router, the sessions in the order in which they began, and the history of the limiter.
The number of a session is the holder of its places. -/
structure Gateway (β : Type) where
  router : Router
  sessions : List (Session β) := []
  history : List Limiter.Move := []

namespace Gateway

variable {β : Type}

def log (settings : Settings) (gateway : Gateway β) : Limiter.Log :=
  Limiter.Log.run settings.rateLimitWindow gateway.history

def begin (gateway : Gateway β) (streamed : Bool) (request : Request) (now : Instant) :
    Gateway β :=
  let holder := gateway.sessions.length
  let moves := Session.beginMoves holder gateway.router request now
  let (router, session, _) := Session.begin gateway.router streamed request now
  { router, sessions := gateway.sessions ++ [session], history := gateway.history ++ moves }

/-- A step of the session with a number, if there is one. -/
def act (gateway : Gateway β) (number : Nat) (move : Session.Move β) (now : Instant) :
    Gateway β :=
  match gateway.sessions[number]? with
  | none => gateway
  | some session =>
      let moves := session.limiterMoves number now move
      let (router, session, _) := session.act gateway.router now move
      { router
        sessions := gateway.sessions.set number session
        history := gateway.history ++ moves }

/-- The states that a router can come to with its requests. Whoever manages the router may
change everything but the limiter, from which they can only remove keys. -/
inductive Reachable (settings : Settings) : Gateway β → Prop where
  | start : Reachable settings { router := Router.new settings }
  | manage {gateway : Gateway β} (prior : Reachable settings gateway) (router : Router)
      (ids : List String)
      (hLimiter : router.limiter = gateway.router.limiter.forgetAll ids) :
      Reachable settings
        { gateway with router, history := gateway.history ++ ids.map Limiter.Move.forget }
  | begin {gateway : Gateway β} (prior : Reachable settings gateway) (streamed : Bool)
      (request : Request) (now : Instant) :
      Reachable settings (gateway.begin streamed request now)
  | act {gateway : Gateway β} (prior : Reachable settings gateway) (number : Nat)
      (move : Session.Move β) (now : Instant) :
      Reachable settings (gateway.act number move now)

end Gateway

/-- What whoever manages a router can do to it. -/
inductive Operation where
  | register (deployment : Deployment)
  | deregister (id : String)
  | reload (deployments : List Deployment)
  | apply (config : Config)
  | addAlias (name target : String)
  | setFallbacks (model : String) (list : List String)
  | setCallerLimits (caller : String) (limits : Limits)

/-- The router after an operation, which changes nothing if it fails. -/
def Operation.perform (router : Router) : Operation → Router
  | .register deployment => (router.register deployment).toOption.getD router
  | .deregister id => (router.deregister id).1
  | .reload deployments => (router.reload deployments).toOption.getD router
  | .apply config => (router.apply config).toOption.getD router
  | .addAlias name target => router.addAlias name target
  | .setFallbacks model list => router.setFallbacks model list
  | .setCallerLimits caller limits => router.setCallerLimits caller limits

namespace Router

variable {router after : Router}

theorem limiter_register {deployment : Deployment} (h : router.register deployment = .ok after) :
    after.limiter = router.limiter := by
  unfold register at h
  cases hRegistry : router.registry.register deployment with
  | error fault => rw [hRegistry] at h; cases h
  | ok registered => rw [hRegistry] at h; cases h; rfl

theorem limiter_registerAll {deployments : List Deployment}
    (h : router.registerAll deployments = .ok after) : after.limiter = router.limiter := by
  induction deployments generalizing router with
  | nil => cases h; rfl
  | cons deployment rest ih =>
      unfold registerAll at h
      cases hFirst : router.register deployment with
      | error fault => rw [hFirst] at h; cases h
      | ok middle =>
          rw [hFirst] at h
          exact (ih h).trans (limiter_register hFirst)

theorem limiter_deregister (router : Router) (id : String) :
    ∃ ids, (router.deregister id).1.limiter = router.limiter.forgetAll ids := by
  unfold deregister
  split
  · exact ⟨[], rfl⟩
  · exact ⟨[id], rfl⟩

theorem limiter_deregister_foldl (router : Router) (stale : List String) :
    ∃ ids, (stale.foldl (fun router id => (router.deregister id).1) router).limiter =
      router.limiter.forgetAll ids := by
  induction stale generalizing router with
  | nil => exact ⟨[], rfl⟩
  | cons id stale ih =>
      obtain ⟨first, hFirst⟩ := router.limiter_deregister id
      obtain ⟨rest, hRest⟩ := ih (router.deregister id).1
      refine ⟨first ++ rest, hRest.trans ?_⟩
      rw [hFirst, Limiter.forgetAll, Limiter.forgetAll, Limiter.forgetAll, List.foldl_append]

theorem limiter_reload {deployments : List Deployment}
    (h : router.reload deployments = .ok after) :
    ∃ ids, after.limiter = router.limiter.forgetAll ids := by
  unfold reload at h
  split at h
  · cases h
  · cases hAll : router.registerAll deployments with
    | error fault => rw [hAll] at h; cases h
    | ok middle =>
        rw [hAll] at h
        cases h
        rw [← limiter_registerAll hAll]
        exact limiter_deregister_foldl ..

theorem limiter_apply {config : Config} (h : router.apply config = .ok after) :
    ∃ ids, after.limiter = router.limiter.forgetAll ids := by
  unfold apply at h
  cases hRecords : config.records with
  | error fault => rw [hRecords] at h; cases h
  | ok records =>
      cases hLimits : config.limitsOfCallers with
      | error fault => rw [hRecords, hLimits] at h; cases h
      | ok callerLimits =>
          rw [hRecords, hLimits] at h
          change (((router.reload records).mapError GatewayError.deployment).bind _) = _ at h
          cases hReload : router.reload records with
          | error fault => rw [hReload] at h; cases h
          | ok reloaded =>
              rw [hReload] at h
              cases h
              obtain ⟨ids, hLimiter⟩ := limiter_reload hReload
              exact ⟨ids, hLimiter⟩

end Router

theorem Operation.limiter_perform (router : Router) (operation : Operation) :
    ∃ ids, (operation.perform router).limiter = router.limiter.forgetAll ids := by
  cases operation with
  | register deployment =>
      simp only [perform]
      cases hAnswer : router.register deployment with
      | error fault => exact ⟨[], rfl⟩
      | ok after => exact ⟨[], Router.limiter_register hAnswer⟩
  | deregister id => exact router.limiter_deregister id
  | reload deployments =>
      simp only [perform]
      cases hAnswer : router.reload deployments with
      | error fault => exact ⟨[], rfl⟩
      | ok after => exact Router.limiter_reload hAnswer
  | apply config =>
      simp only [perform]
      cases hAnswer : router.apply config with
      | error fault => exact ⟨[], rfl⟩
      | ok after => exact Router.limiter_apply hAnswer
  | addAlias name target => exact ⟨[], rfl⟩
  | setFallbacks model list => exact ⟨[], rfl⟩
  | setCallerLimits caller limits => exact ⟨[], rfl⟩

/-- Every operation leads to a state that can be reached. -/
theorem Gateway.Reachable.operate {β : Type} {settings : Settings} {gateway : Gateway β}
    (h : Reachable settings gateway) (operation : Operation) :
    ∃ history,
      Reachable settings { gateway with router := operation.perform gateway.router, history } := by
  obtain ⟨ids, hLimiter⟩ := operation.limiter_perform gateway.router
  exact ⟨_, h.manage (operation.perform gateway.router) ids hLimiter⟩

end DeploymentRouting
