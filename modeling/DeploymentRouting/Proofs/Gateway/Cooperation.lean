import DeploymentRouting.Proofs.Dispatch.Granted
import DeploymentRouting.Proofs.Router.Reachable
/-!
Sessions that take turns. A session gives way to others only where it waits for a backend or is
done, and between two such places it makes its steps alone. Then nobody comes between the choice
of a deployment and the request for its place, and so no deployment that was chosen ever refuses
one: a request makes as many calls as it makes attempts. Only a deployment whose call cannot be
timed is chosen and not called, and that ends the whole program.
-/
namespace DeploymentRouting

universe u

namespace Dispatch

variable {α : Type u}

/-- The deployment that is about to be asked for a place, at which cost and after which look at
the clock. -/
def asks? (dispatch : Dispatch α) : Option (Deployment × Nat × Instant) :=
  match dispatch.phase with
  | .reserving looked deployment => some (deployment, dispatch.request.estimate, looked)
  | _ => none

def pending? (dispatch : Dispatch α) : Option PendingCall :=
  match dispatch.phase with
  | .calling call => some call
  | _ => none

/-- The attempts that a request reports, if it is done and reports any. -/
def reported? (dispatch : Dispatch α) : Option Nat :=
  match dispatch.phase with
  | .finished outcome => reportedAttempts? outcome
  | _ => none

variable {settings : Settings} {router : Router} {itinerary : Itinerary} {dispatch : Dispatch α}

/-- A request that is suspended makes no step. -/
theorem step_of_suspended (hSuspended : dispatch.isSuspended = true) (router : Router)
    (now : Instant) (random : RandomSource) :
    dispatch.step router now random = (router, dispatch) := by
  unfold isSuspended at hSuspended
  unfold Dispatch.step
  cases hPhase : dispatch.phase <;> simp_all

/-- So there is nothing to be seen of it. -/
theorem observe_self_of_suspended (hSuspended : dispatch.isSuspended = true)
    (itinerary : Itinerary) : itinerary.observe dispatch dispatch = itinerary := by
  unfold isSuspended at hSuspended
  unfold Itinerary.observe
  cases hPhase : dispatch.phase <;> simp_all [Visit.observe]

/-- A step of a request that may be suspended, and is none then. -/
theorem Undisturbed.step_observe (h : dispatch.Undisturbed settings router itinerary)
    (hSettings : router.settings = settings) (now : Instant) (random : RandomSource) :
    (dispatch.step router now random).2.Undisturbed settings (dispatch.step router now random).1
      (itinerary.observe dispatch (dispatch.step router now random).2) := by
  cases hActive : dispatch.isSuspended with
  | false => exact h.step hActive hSettings now random
  | true =>
      rw [step_of_suspended hActive, observe_self_of_suspended hActive]
      exact h

/-- What is reported is the number of calls, as a 32-bit counter shows it. -/
theorem Undisturbed.eq_of_reported? (h : dispatch.Undisturbed settings router itinerary)
    {count : Nat} (hReported : dispatch.reported? = some count) :
    count = Counter.wrap32 itinerary.calls.length ∧
      (settings.maxAttempts * (1 + settings.maxFallbackDepth) ≤ Counter.top32 →
        count = itinerary.calls.length) := by
  unfold reported? at hReported
  split at hReported
  next outcome hFinished => exact h.reported hFinished hReported
  next => cases hReported

/-- The step after a choice is a call, if that can be timed, and no refusal is held against the
deployment. -/
theorem Undisturbed.step_of_asks {deployment : Deployment} {cost : Nat} {looked : Instant}
    (h : dispatch.Undisturbed settings router itinerary)
    (hAsks : dispatch.asks? = some (deployment, cost, looked)) :
    ∃ admission, (router.reserve deployment cost looked).2 = .ok admission ∧
      ∀ now random, (dispatch.step router now random).1.health = router.health ∧
        (deployment.timeoutFits looked = true →
          ∃ call, (dispatch.step router now random).2.pending? = some call ∧
            call.deployment = deployment ∧ call.admission = admission) ∧
        (deployment.timeoutFits looked = false →
          (dispatch.step router now random).2.phase = .halted (some (deployment, admission))) := by
  unfold asks? at hAsks
  cases hPhase : dispatch.phase with
  | reserving instant chosen =>
      rw [hPhase] at hAsks
      cases hAsks
      have hStep := fun now => dispatch.reserve_of_admits now (h.admits looked deployment hPhase)
      obtain ⟨admission, hGranted, _⟩ := hStep 0
      refine ⟨admission, hGranted, fun now random => ?_⟩
      obtain ⟨other, hOther, hReserve⟩ := hStep now
      cases hGranted.symm.trans hOther
      simp only [Dispatch.step, hPhase, hReserve]
      refine ⟨rfl, fun hFits => ?_, fun hOver => ?_⟩
      · rw [if_pos hFits]
        exact ⟨_, rfl, rfl, rfl⟩
      · simp only [hOver, Bool.false_eq_true, if_false]
  | _ =>
      rw [hPhase] at hAsks
      cases hAsks

/-- A call that ends, or an end that comes to a request without a call. -/
theorem Undisturbed.answer_of_suspended (h : dispatch.Undisturbed settings router itinerary)
    (hSuspended : dispatch.isSuspended = true) (hSettings : router.settings = settings)
    (now : Instant) (ended : CallEnd α) (other : Router) :
    (dispatch.answer router now ended).2.Undisturbed settings other itinerary := by
  cases hPhase : dispatch.phase with
  | calling call => exact h.answer hPhase hSettings now ended other
  | _ =>
      simp only [Dispatch.answer, hPhase]
      exact h.elsewhere hSuspended other

end Dispatch

namespace Session

variable {β : Type}

/-- Reads something off the request of a session, while it is on its way. -/
def view {γ : Sort u} (onWay : {α : Type} → Dispatch α → γ) (after : γ) : Session β → γ
  | .whole route => onWay route.dispatch
  | .opening route => onWay route.dispatch
  | .reading _ | .done => after

/-- Whether a session makes no steps: it waits for a backend or for its owner, or is done. -/
def isSuspended : Session β → Bool := view Dispatch.isSuspended true

def asks? : Session β → Option (Deployment × Nat × Instant) := view Dispatch.asks? none

def pending? : Session β → Option PendingCall := view Dispatch.pending? none

def reported? : Session β → Option Nat := view Dispatch.reported? none

/-- The deployment that a session has chosen and not yet called. -/
def chosen : Session β → List String := view (fun dispatch => dispatch.phase.chosen) []

/-- Whether a session lets others act. One that has ended the program, with a deployment that it
cannot call, lets nobody act any more. -/
def givesWay (session : Session β) : Bool := session.isSuspended && session.chosen.isEmpty

def Undisturbed (settings : Settings) (router : Router) (itinerary : Itinerary) :
    Session β → Prop :=
  view (fun dispatch => dispatch.Undisturbed settings router itinerary) (itinerary.Granted [])

/-- The itinerary of the request of a session after a step. -/
def observe (itinerary : Itinerary) : Session β → Session β → Itinerary
  | .whole before, .whole after => itinerary.observe before.dispatch after.dispatch
  | .opening before, .opening after => itinerary.observe before.dispatch after.dispatch
  | _, _ => itinerary

variable {settings : Settings} {router : Router} {itinerary : Itinerary} {session : Session β}

/-- A session begins undisturbed. -/
theorem undisturbed_begin (hSettings : router.settings = settings) (streamed : Bool)
    (request : Request) (now : Instant) (other : Router) :
    (Session.begin (β := β) router streamed request now).2.1.Undisturbed settings other
      { current := { model := router.registry.resolve request.model } } := by
  have hCaller := router.sameSetup_reserveCaller request now
  have hRequest : ∀ {α : Type}, Dispatch.Undisturbed settings other
      { current := { model := router.registry.resolve request.model } }
      (Dispatch.begin (router.reserveCaller request now).1 request now : Dispatch α) := by
    intro α
    have hBegun := Dispatch.undisturbed_begin (α := α) (hCaller.settings.trans hSettings) request
      now other
    rwa [hCaller.registry] at hBegun
  exact begin_cases (Dispatch.granted_new _) (fun _ => hRequest) (fun _ => hRequest) streamed

/-- To give way is to be suspended. -/
theorem suspended_of_givesWay (hGivesWay : session.givesWay = true) :
    session.isSuspended = true :=
  (Bool.and_eq_true_iff.mp hGivesWay).1

namespace Undisturbed

/-- All attempts of a session have led to calls, but for the one that it has chosen last. -/
theorem granted (h : session.Undisturbed settings router itinerary) :
    itinerary.Granted session.chosen := by
  cases session with
  | whole route => exact Dispatch.Undisturbed.granted h
  | opening route => exact Dispatch.Undisturbed.granted h
  | reading stream => exact h
  | done => exact h

/-- What others do while a session is suspended does not disturb it. -/
theorem elsewhere (h : session.Undisturbed settings router itinerary)
    (hSuspended : session.isSuspended = true) (other : Router) :
    session.Undisturbed settings other itinerary := by
  cases session with
  | whole route => exact Dispatch.Undisturbed.elsewhere h hSuspended other
  | opening route => exact Dispatch.Undisturbed.elsewhere h hSuspended other
  | reading stream => exact h
  | done => exact h

/-- All attempts of a session that gives way have led to calls. -/
theorem granted_of_givesWay (h : session.Undisturbed settings router itinerary)
    (hGivesWay : session.givesWay = true) : itinerary.Granted [] := by
  have hNone := List.isEmpty_iff.mp (Bool.and_eq_true_iff.mp hGivesWay).2
  exact hNone ▸ h.granted

/-- Whatever happens to a session that gives way, it makes no attempt. -/
theorem act (h : session.Undisturbed settings router itinerary)
    (hGivesWay : session.givesWay = true) (hSettings : router.settings = settings)
    (now : Instant) (move : Move β) (other : Router) :
    (session.act router now move).2.1.Undisturbed settings other itinerary := by
  have hSuspended := suspended_of_givesWay hGivesWay
  have hSame := h.elsewhere hSuspended other
  have hGranted := h.granted_of_givesWay hGivesWay
  unfold Session.act
  split
  case h_1 route random =>
    rw [Dispatch.step_of_suspended hSuspended]
    exact hSame
  case h_2 route ended =>
    exact Dispatch.Undisturbed.answer_of_suspended h hSuspended hSettings now ended other
  case h_3 route =>
    split
    · exact hGranted
    · exact hGranted
    · exact hSame
  case h_4 route => exact hGranted
  case h_5 route random =>
    rw [Dispatch.step_of_suspended hSuspended]
    exact hSame
  case h_6 route ended =>
    exact Dispatch.Undisturbed.answer_of_suspended h hSuspended hSettings now ended other
  case h_7 route =>
    split
    · exact hGranted
    · exact hGranted
    · exact hSame
  case h_8 route => exact hGranted
  case h_9 stream arrival => exact h
  case h_10 stream => exact h
  case h_11 => exact hSame

/-- A step of a session, on the router on which it has made the one before. -/
theorem step (h : session.Undisturbed settings router itinerary)
    (hSettings : router.settings = settings) (now : Instant) (random : RandomSource) :
    (session.act router now (.step random)).2.1.Undisturbed settings
      (session.act router now (.step random)).1
      (session.observe itinerary (session.act router now (.step random)).2.1) := by
  cases session with
  | whole route => exact Dispatch.Undisturbed.step_observe h hSettings now random
  | opening route => exact Dispatch.Undisturbed.step_observe h hSettings now random
  | reading stream => exact h
  | done => exact h

/-- A session that asks for a place gets it. -/
theorem step_of_asks {deployment : Deployment} {cost : Nat} {looked : Instant}
    (h : session.Undisturbed settings router itinerary)
    (hAsks : session.asks? = some (deployment, cost, looked)) :
    ∃ admission, (router.reserve deployment cost looked).2 = .ok admission ∧
      ∀ now random, (session.act router now (.step random)).1.health = router.health ∧
        (deployment.timeoutFits looked = true →
          ∃ call, (session.act router now (.step random)).2.1.pending? = some call ∧
            call.deployment = deployment ∧ call.admission = admission) ∧
        (deployment.timeoutFits looked = false →
          (session.act router now (.step random)).2.1.isSuspended = true ∧
            (session.act router now (.step random)).2.1.chosen = [deployment.id]) := by
  have hStranded {α : Type} {dispatch : Dispatch α} {admission : Admission}
      (hPhase : dispatch.phase = .halted (some (deployment, admission))) :
      dispatch.isSuspended = true ∧ dispatch.phase.chosen = [deployment.id] := by
    rw [Dispatch.isSuspended, hPhase]
    exact ⟨rfl, rfl⟩
  cases session with
  | whole route =>
      obtain ⟨admission, hGranted, hStep⟩ := Dispatch.Undisturbed.step_of_asks h hAsks
      exact ⟨admission, hGranted, fun now random => ⟨(hStep now random).1, (hStep now random).2.1,
        fun hOver => hStranded ((hStep now random).2.2 hOver)⟩⟩
  | opening route =>
      obtain ⟨admission, hGranted, hStep⟩ := Dispatch.Undisturbed.step_of_asks h hAsks
      exact ⟨admission, hGranted, fun now random => ⟨(hStep now random).1, (hStep now random).2.1,
        fun hOver => hStranded ((hStep now random).2.2 hOver)⟩⟩
  | reading stream => cases hAsks
  | done => cases hAsks

/-- A session reports as many attempts as it has made calls, as a 32-bit counter shows them. -/
theorem reported (h : session.Undisturbed settings router itinerary) {count : Nat}
    (hReported : session.reported? = some count) :
    count = Counter.wrap32 itinerary.calls.length ∧
      (settings.maxAttempts * (1 + settings.maxFallbackDepth) ≤ Counter.top32 →
        count = itinerary.calls.length) := by
  cases session with
  | whole route => exact Dispatch.Undisturbed.eq_of_reported? h hReported
  | opening route => exact Dispatch.Undisturbed.eq_of_reported? h hReported
  | reading stream => cases hReported
  | done => cases hReported

end Undisturbed

end Session

namespace Gateway

variable {β : Type} {settings : Settings} {gateway : Gateway β} {itineraries : Nat → Itinerary}

/-- All sessions give way. -/
def AtRest (gateway : Gateway β) : Prop :=
  ∀ session ∈ gateway.sessions, session.givesWay = true

instance (gateway : Gateway β) : Decidable gateway.AtRest :=
  inferInstanceAs (Decidable (∀ session ∈ gateway.sessions, session.givesWay = true))

/-- The states that a router can come to when its sessions take turns, with the itinerary of each
session. Steps of a session are made while all others give way. Everything else happens while all
sessions do: calls end, sessions begin or are dropped, and whoever manages the router may do to it
what they like, and take and give back places of their own. -/
inductive Cooperative (settings : Settings) : Gateway β → (Nat → Itinerary) → Prop where
  | start (itineraries : Nat → Itinerary) :
      Cooperative settings { router := Router.new settings } itineraries
  | manage {gateway : Gateway β} {itineraries : Nat → Itinerary}
      (prior : Cooperative settings gateway itineraries) (hRest : gateway.AtRest)
      (router : Router) (hSettings : router.settings = settings) (history : List Limiter.Move) :
      Cooperative settings { gateway with router, history } itineraries
  | begin {gateway : Gateway β} {itineraries : Nat → Itinerary}
      (prior : Cooperative settings gateway itineraries) (hRest : gateway.AtRest)
      (streamed : Bool) (request : Request) (now : Instant) :
      Cooperative settings (gateway.begin streamed request now) fun number =>
        if number = gateway.sessions.length then
          { current := { model := gateway.router.registry.resolve request.model } }
        else itineraries number
  | act {gateway : Gateway β} {itineraries : Nat → Itinerary}
      (prior : Cooperative settings gateway itineraries) (hRest : gateway.AtRest)
      (number : Nat) (move : Session.Move β) (now : Instant) :
      Cooperative settings (gateway.act number move now) itineraries
  | step {gateway : Gateway β} {itineraries : Nat → Itinerary} {session : Session β}
      (prior : Cooperative settings gateway itineraries) (number : Nat)
      (hSession : gateway.sessions[number]? = some session)
      (hOthers : ∀ waiting ∈ gateway.sessions.eraseIdx number, waiting.givesWay = true)
      (now : Instant) (random : RandomSource) :
      Cooperative settings (gateway.act number (.step random) now) fun other =>
        if other = number then
          session.observe (itineraries number)
            (session.act gateway.router now (.step random)).2.1
        else itineraries other

/-- No session has been disturbed on its way. -/
structure Undisturbed (settings : Settings) (gateway : Gateway β)
    (itineraries : Nat → Itinerary) : Prop where
  router : gateway.router.settings = settings
  sessions : ∀ (number : Nat) (session : Session β),
    gateway.sessions[number]? = some session →
      session.Undisturbed settings gateway.router (itineraries number)

/-- A move changes the router and the session that makes it, and no other session. -/
theorem act_of_some {number : Nat} {session : Session β}
    (hSession : gateway.sessions[number]? = some session) (move : Session.Move β)
    (now : Instant) :
    (gateway.act number move now).router = (session.act gateway.router now move).1 ∧
      ∀ other, (gateway.act number move now).sessions[other]? =
        if other = number then some (session.act gateway.router now move).2.1
        else gateway.sessions[other]? := by
  rw [Gateway.act, hSession]
  refine ⟨rfl, fun other => ?_⟩
  by_cases hOther : other = number
  · subst hOther
    have hLess : other < gateway.sessions.length := (List.getElem?_eq_some_iff.mp hSession).1
    simp [hLess]
  · simp [hOther, Ne.symm hOther]

/-- So what holds of the session that has moved, and of all others, holds of all sessions. -/
theorem forall_sessions_act {number : Nat} {session : Session β}
    (hSession : gateway.sessions[number]? = some session) {move : Session.Move β} {now : Instant}
    {Holds : Nat → Session β → Prop} (hActed : Holds number (session.act gateway.router now move).2.1)
    (hOthers : ∀ other waiting, other ≠ number → gateway.sessions[other]? = some waiting →
      Holds other waiting) :
    ∀ other acted, (gateway.act number move now).sessions[other]? = some acted →
      Holds other acted := by
  intro other acted hOther
  rw [(act_of_some hSession move now).2] at hOther
  split at hOther
  next hHere =>
    subst hHere
    cases hOther
    exact hActed
  next hThere => exact hOthers other acted hThere hOther

/-- Where there is no session there is no move. -/
theorem act_of_none {number : Nat} (hNone : gateway.sessions[number]? = none)
    (move : Session.Move β) (now : Instant) : gateway.act number move now = gateway := by
  rw [Gateway.act, hNone]

theorem AtRest.givesWay (hRest : gateway.AtRest) {number : Nat} {session : Session β}
    (hSession : gateway.sessions[number]? = some session) : session.givesWay = true :=
  hRest session (List.mem_of_getElem? hSession)

theorem AtRest.suspended (hRest : gateway.AtRest) {number : Nat} {session : Session β}
    (hSession : gateway.sessions[number]? = some session) : session.isSuspended = true :=
  Session.suspended_of_givesWay (hRest.givesWay hSession)

namespace Undisturbed

/-- What is managed between moves disturbs no session. -/
theorem manage (h : gateway.Undisturbed settings itineraries) (hRest : gateway.AtRest)
    {router : Router} (hSettings : router.settings = settings) (history : List Limiter.Move) :
    Undisturbed settings { gateway with router, history } itineraries where
  router := hSettings
  sessions number session hSession :=
    (h.sessions number session hSession).elsewhere (hRest.suspended hSession) router

/-- A new session begins undisturbed beside all others. -/
theorem begin (h : gateway.Undisturbed settings itineraries) (hRest : gateway.AtRest)
    (streamed : Bool) (request : Request) (now : Instant) :
    Undisturbed settings (gateway.begin streamed request now) fun number =>
      if number = gateway.sessions.length then
        { current := { model := gateway.router.registry.resolve request.model } }
      else itineraries number where
  router :=
    (Session.sameSetup_begin (β := β) gateway.router streamed request now).settings.trans h.router
  sessions number session hSession := by
    have hSessions : (gateway.begin streamed request now).sessions = gateway.sessions ++
        [(Session.begin (β := β) gateway.router streamed request now).2.1] := rfl
    rw [hSessions] at hSession
    rcases Nat.lt_trichotomy number gateway.sessions.length with hOld | hNew | hBeyond
    · rw [List.getElem?_append_left hOld] at hSession
      simp only [Nat.ne_of_lt hOld, if_false]
      exact (h.sessions number session hSession).elsewhere (hRest.suspended hSession) _
    · subst hNew
      rw [List.getElem?_concat_length] at hSession
      cases hSession
      simp only [if_true]
      exact Session.undisturbed_begin h.router streamed request now _
    · rw [List.getElem?_eq_none (by rw [List.length_append, List.length_singleton]; omega)]
        at hSession
      cases hSession

/-- A move that is no step disturbs nobody, since all others are at rest. -/
theorem act (h : gateway.Undisturbed settings itineraries) (hRest : gateway.AtRest)
    (number : Nat) (move : Session.Move β) (now : Instant) :
    (gateway.act number move now).Undisturbed settings itineraries := by
  cases hSession : gateway.sessions[number]? with
  | none =>
      rw [act_of_none hSession]
      exact h
  | some session =>
      have hRouter := (act_of_some hSession move now).1
      constructor
      case router =>
        rw [hRouter]
        exact (session.sameSetup_act gateway.router now move).settings.trans h.router
      case sessions =>
        refine forall_sessions_act hSession ?_ fun other waiting _ hOther => ?_
        · exact (h.sessions number session hSession).act (hRest.givesWay hSession) h.router now
            move _
        · exact (h.sessions other waiting hOther).elsewhere (hRest.suspended hOther) _

/-- A step may be made while all others give way. -/
theorem step {session : Session β} (h : gateway.Undisturbed settings itineraries) {number : Nat}
    (hSession : gateway.sessions[number]? = some session)
    (hOthers : ∀ waiting ∈ gateway.sessions.eraseIdx number, waiting.givesWay = true)
    (now : Instant) (random : RandomSource) :
    (gateway.act number (.step random) now).Undisturbed settings fun other =>
      if other = number then
        session.observe (itineraries number) (session.act gateway.router now (.step random)).2.1
      else itineraries other := by
  have hRouter := (act_of_some hSession (.step random) now).1
  constructor
  case router =>
    rw [hRouter]
    exact (session.sameSetup_act gateway.router now _).settings.trans h.router
  case sessions =>
    refine forall_sessions_act hSession ?_ fun other waiting hThere hOther => ?_
    · rw [hRouter, if_pos rfl]
      exact (h.sessions number session hSession).step h.router now random
    · rw [if_neg hThere]
      have hWaiting : waiting ∈ gateway.sessions.eraseIdx number :=
        List.mem_eraseIdx_iff_getElem?.mpr ⟨other, hThere, hOther⟩
      exact (h.sessions other waiting hOther).elsewhere
        (Session.suspended_of_givesWay (hOthers waiting hWaiting)) _

end Undisturbed

/-- So nobody is ever disturbed where tasks switch only when they wait. -/
theorem Cooperative.undisturbed (h : Cooperative settings gateway itineraries) :
    gateway.Undisturbed settings itineraries := by
  induction h with
  | start itineraries => exact ⟨rfl, fun number session hSession => by simp at hSession⟩
  | manage prior hRest router hSettings history ih => exact ih.manage hRest hSettings history
  | begin prior hRest streamed request now ih => exact ih.begin hRest streamed request now
  | act prior hRest number move now ih => exact ih.act hRest number move now
  | step prior number hSession hOthers now random ih => exact ih.step hSession hOthers now random

/-- The look that a choice takes at a limiter agrees with what a request for the place is answered,
whatever the state of the limiter. So where sessions take turns, a deployment that was chosen gives
its place in the next step of its session, no refusal is held against it, and it is called, unless
no clock can show the end of its timeout and the program ends. The deployments that a request has
called are those that it has chosen, in order and but for one that it is about to call or cannot
call, and the attempts that it reports are its calls, as a 32-bit counter shows them. -/
theorem Cooperative.attempts_called (h : Cooperative settings gateway itineraries) :
    (∀ (limiter : Limiter) (key : String) (limits : Limits) (cost : Nat) (now : Instant),
      limiter.admits key limits cost now = true ↔
        ∃ admission, (limiter.reserve .deployment key limits cost now).2 = .ok admission) ∧
      (∀ (number : Nat) (session : Session β) (deployment : Deployment) (cost : Nat)
        (looked : Instant), gateway.sessions[number]? = some session →
        session.asks? = some (deployment, cost, looked) →
        ∃ admission, (gateway.router.reserve deployment cost looked).2 = .ok admission ∧
          ∀ now random,
            (gateway.act number (.step random) now).router.health = gateway.router.health ∧
            ∃ after, (gateway.act number (.step random) now).sessions[number]? = some after ∧
              (deployment.timeoutFits looked = true →
                ∃ call, after.pending? = some call ∧ call.deployment = deployment ∧
                  call.admission = admission) ∧
              (deployment.timeoutFits looked = false →
                after.isSuspended = true ∧ after.chosen = [deployment.id])) ∧
      ∀ (number : Nat) (session : Session β), gateway.sessions[number]? = some session →
        (itineraries number).Granted session.chosen ∧
          (itineraries number).attempts =
            (itineraries number).calls.length + session.chosen.length ∧
          ∀ count, session.reported? = some count →
            count = Counter.wrap32 (itineraries number).calls.length ∧
            (settings.maxAttempts * (1 + settings.maxFallbackDepth) ≤ Counter.top32 →
              count = (itineraries number).calls.length) := by
  have hSessions := h.undisturbed.sessions
  refine ⟨Limiter.admits_iff, fun number session deployment cost looked hSession hAsks => ?_,
    fun number session hSession => ?_⟩
  · obtain ⟨admission, hGranted, hStep⟩ := (hSessions number session hSession).step_of_asks hAsks
    refine ⟨admission, hGranted, fun now random => ?_⟩
    obtain ⟨hRouter, hAfter⟩ := act_of_some hSession (.step random) now
    obtain ⟨hHealth, hCall, hStranded⟩ := hStep now random
    rw [hRouter]
    exact ⟨hHealth, _, (hAfter number).trans (if_pos rfl), hCall, hStranded⟩
  · have hSound := hSessions number session hSession
    exact ⟨hSound.granted, hSound.granted.attempts_eq, fun count => hSound.reported⟩

/-- Two deployments that take one call at one time. -/
def narrowRouter : Router :=
  let narrow (id : String) : Deployment :=
    { pairDeployment id with limits := { parallel := some 1 } }
  { pairRouter with
    registry :=
      { records := Table.ofList [("d1", narrow "d1"), ("d2", narrow "d2")]
        index := Table.ofList [("m", ["d1", "d2"])] } }

/-- The first request is in a call of `d1`. The second one has chosen `d2`. -/
def narrowGateway : Gateway Unit :=
  let request : Request := { model := "m", payload := .null, deadline := 100 }
  let called := ((((Gateway.begin { router := narrowRouter } false request 0).act
    0 (.step {}) 1).act 0 (.step {}) 2).act 0 (.step {}) 3)
  ((called.begin true request 4).act 1 (.step {}) 5).act 1 (.step {}) 6

theorem Cooperative.attempts_called_narrow :
    ∃ itineraries, Cooperative { strategy := .roundRobin } narrowGateway itineraries ∧
      (itineraries 1).attempts = (itineraries 1).calls.length + 1 ∧
      ∃ admission after call,
        (narrowGateway.act 1 (.step {}) 7).sessions[1]? = some after ∧
        after.pending? = some call ∧ call.deployment.id = "d2" ∧ call.admission = admission := by
  have hStart : Cooperative (β := Unit) { strategy := .roundRobin } _ _ :=
    Cooperative.start fun _ => { current := { model := "" } }
  have hManaged := hStart.manage (by decide +kernel) narrowRouter rfl []
  have hBegun := hManaged.begin (by decide +kernel) false
    { model := "m", payload := .null, deadline := 100 } 0
  have hCalled := ((hBegun.step 0 rfl (by decide +kernel) 1 {}).step 0 rfl (by decide +kernel)
    2 {}).step 0 rfl (by decide +kernel) 3 {}
  have hBegunToo := hCalled.begin (by decide +kernel) true
    { model := "m", payload := .null, deadline := 100 } 4
  have hChosen := (hBegunToo.step 1 rfl (by decide +kernel) 5 {}).step 1 rfl (by decide +kernel)
    6 {}
  have hSecond : narrowGateway.sessions[1]?.map (fun session =>
      (session.asks?.map fun asks => (asks.1.id, asks.1.timeoutFits asks.2.2), session.chosen)) =
        some (some ("d2", true), ["d2"]) := by
    decide +kernel
  obtain ⟨session, hSession, hShown⟩ := Option.map_eq_some_iff.mp hSecond
  obtain ⟨hAsked, hList⟩ := Prod.mk.inj hShown
  obtain ⟨⟨deployment, cost, looked⟩, hAsks, hAsked⟩ := Option.map_eq_some_iff.mp hAsked
  obtain ⟨hId, hFits⟩ := Prod.mk.inj hAsked
  obtain ⟨_, hCall, hCounts⟩ := hChosen.attempts_called
  obtain ⟨admission, _, hStep⟩ := hCall 1 session deployment cost looked hSession hAsks
  obtain ⟨_, after, hAfter, hCalled, _⟩ := hStep 7 {}
  obtain ⟨call, hPending, hDeployment, hAdmission⟩ := hCalled hFits
  have hAttempts := (hCounts 1 session hSession).2.1
  rw [hList] at hAttempts
  exact ⟨_, hChosen, hAttempts, admission, after, call, hAfter, hPending,
    hDeployment ▸ hId, hAdmission⟩

end Gateway

end DeploymentRouting
