import DeploymentRouting.Proofs.Gateway.Frame
import DeploymentRouting.Proofs.Health.Cooldown
/-!
What a request tells of its attempts. An attempt is over when its deployment gives no place, or
when the call of it has returned. Then, and only then, the health of that deployment hears of it,
and it hears one outcome. The records and the counts of all deployments that were not attempted
stay as they are.
-/
namespace DeploymentRouting

universe u

/-! ## Attempts -/

/-- How a call ended, whatever it brought back. -/
def CallEnd.bare {α : Type u} : CallEnd α → CallEnd Unit
  | .success _ => .success ()
  | .failure error => .failure error
  | .cutOff => .cutOff

/-- An attempt that is over. -/
inductive Attempt where
  /-- The deployment gave no place. -/
  | refused (deployment : Deployment) (instant : Instant)
  | called (call : PendingCall) (ended : CallEnd Unit) (instant : Instant)

namespace Attempt

def deployment : Attempt → Deployment
  | .refused deployment _ => deployment
  | .called call _ _ => call.deployment

def call? : Attempt → Option PendingCall
  | .refused _ _ => none
  | .called call _ _ => some call

def instant : Attempt → Instant
  | .refused _ instant => instant
  | .called _ _ instant => instant

/-- What an attempt says about the health of its deployment. It does not matter whether a call
was cut off by the deadline of the deployment or by that of its request. -/
def outcome : Attempt → Outcome
  | .refused _ _ => .rateLimited
  | .called _ (.success _) _ => .success
  | .called _ (.failure error) _ => error.outcome
  | .called _ .cutOff _ => .retriableError

/-- The latency of a call that succeeded. -/
def latency? : Attempt → Option Duration
  | .called call (.success _) instant => some (instant - call.start)
  | .called _ _ _ | .refused _ _ => none

/-- What is reported of an attempt: one outcome, and before it the latency if there is one. -/
def reports (attempt : Attempt) : List Report :=
  (attempt.latency?.map (Report.latency attempt.deployment.id)).toList ++
    [.outcome attempt.deployment.id attempt.outcome attempt.instant]

end Attempt

namespace HealthTracker

variable {tracker : HealthTracker} {attempt : Attempt} {id : String}

/-- The tracker after all that is reported of an attempt. -/
def hear (tracker : HealthTracker) (attempt : Attempt) : HealthTracker :=
  attempt.reports.foldl learn tracker

/-- Of an attempt no other record hears. -/
theorem get?_hear (h : attempt.deployment.id ≠ id) :
    (tracker.hear attempt).records.get? id = tracker.records.get? id := by
  have hOutcome : ∀ tracker : HealthTracker,
      (tracker.addOutcome attempt.deployment.id attempt.outcome attempt.instant).1.records.get?
        id = tracker.records.get? id := fun tracker =>
    (Table.get?_insert ..).trans (if_neg (Ne.symm h))
  have hLatency : ∀ latency,
      (tracker.addLatency attempt.deployment.id latency).records.get? id =
        tracker.records.get? id := fun latency =>
    (Table.get?_insert ..).trans (if_neg (Ne.symm h))
  cases hSample : attempt.latency? with
  | none =>
      simp only [hear, Attempt.reports, hSample]
      exact hOutcome tracker
  | some latency =>
      simp only [hear, Attempt.reports, hSample]
      exact (hOutcome _).trans (hLatency latency)

end HealthTracker

/-! ## Moves of a request -/

namespace Dispatch

variable {α : Type u}

/-- The attempt that is over with a step. -/
def refused? (before after : Dispatch α) : Option Attempt :=
  match before.phase, after.phase with
  | .reserving looked deployment, .checking => some (.refused deployment looked)
  | _, _ => none

/-- The attempt that is over with the end of a call. -/
def returned? (dispatch : Dispatch α) (now : Instant) (ended : CallEnd α) : Option Attempt :=
  dispatch.pending?.map fun call => .called call ended.bare now

/-- The call that a step sends out. -/
def sent? (before after : Dispatch α) : Option PendingCall :=
  if before.pending?.isNone then after.pending? else none

/-- The deployment whose call cannot be timed, with its place. -/
def stranded? (dispatch : Dispatch α) : Option (Deployment × Admission) :=
  match dispatch.phase with
  | .halted stranded => stranded
  | _ => none

/-- What a step is stranded with. -/
def strands? (before after : Dispatch α) : Option (Deployment × Admission) :=
  if before.stranded?.isNone then after.stranded? else none

variable (dispatch : Dispatch α) (router : Router) (now : Instant)

/-- The health hears of a step that is refused its place, and of no other. -/
theorem health_step (random : RandomSource) :
    (dispatch.step router now random).1.health =
      (dispatch.refused? (dispatch.step router now random).2).elim router.health
        router.health.hear := by
  unfold Dispatch.step
  cases hPhase : dispatch.phase with
  | reserving looked deployment =>
      have hHealth : (router.reserve deployment dispatch.request.estimate looked).1.health =
          router.health := rfl
      obtain ⟨_, _, hPlace, hReserve⟩ | ⟨_, _, hPlace, _, hReserve⟩ | ⟨_, _, hPlace, _, hReserve⟩ :=
        dispatch.reserve_cases router now looked deployment
      all_goals
        rw [hPlace] at hHealth
        simp only [refused?, hPhase, hReserve]
        rw [← hHealth]
        rfl
  | _ =>
      simp only [refused?, hPhase]
      rfl

/-- It hears of every call that has returned. -/
theorem health_answer (ended : CallEnd α) :
    (dispatch.answer router now ended).1.health =
      (dispatch.returned? now ended).elim router.health router.health.hear := by
  unfold Dispatch.answer
  cases hPhase : dispatch.phase with
  | calling call =>
      have hFailed : ∀ error : BackendError, (dispatch.fail router now call error).1.health =
          (router.health.addOutcome call.deployment.id error.outcome now).1 := by
        intro error
        simp only [Dispatch.fail]
        split <;> rfl
      simp only [returned?, pending?, hPhase]
      cases ended with
      | success value => rfl
      | failure error => exact hFailed error
      | cutOff =>
          simp only [Dispatch.cutOff]
          split
          · rfl
          · exact hFailed _
  | _ =>
      simp only [returned?, pending?, hPhase]
      rfl

/-- A deployment that is asked for a place refuses, or it is called, or the request is stranded
with it. -/
theorem attempted_of_reserving {looked : Instant} {deployment : Deployment}
    (hPhase : dispatch.phase = .reserving looked deployment) (random : RandomSource) :
    (∃ attempt, dispatch.refused? (dispatch.step router now random).2 = some attempt ∧
        attempt.deployment = deployment) ∨
      (∃ call, dispatch.sent? (dispatch.step router now random).2 = some call ∧
        call.deployment = deployment) ∨
      ∃ stranded, dispatch.strands? (dispatch.step router now random).2 = some stranded ∧
        stranded.1 = deployment := by
  obtain ⟨_, _, _, hReserve⟩ | ⟨_, _, _, _, hReserve⟩ | ⟨_, _, _, _, hReserve⟩ :=
    dispatch.reserve_cases router now looked deployment
  all_goals
    simp only [Dispatch.step, refused?, sent?, pending?, strands?, stranded?, hPhase, hReserve]
  · exact .inl ⟨_, rfl, rfl⟩
  · exact .inr (.inl ⟨_, rfl, rfl⟩)
  · exact .inr (.inr ⟨_, rfl, rfl⟩)

/-- After the end of a call none is out. -/
theorem pending?_answer (ended : CallEnd α) :
    (dispatch.answer router now ended).2.pending? = none := by
  cases hPhase : dispatch.phase with
  | calling call =>
      have hReturn := returnsTo_answer hPhase router now ended
      generalize (dispatch.answer router now ended).2 = after at hReturn
      cases hReturn <;> rfl
  | _ => simp only [Dispatch.answer, pending?, hPhase]

/-- What a request is stranded with it stays stranded with. -/
theorem stranded?_of_step {router : Router} {now : Instant} (random : RandomSource)
    (h : (dispatch.step router now random).2.stranded? = none) : dispatch.stranded? = none := by
  cases hActive : dispatch.isSuspended with
  | true =>
      rw [step_of_suspended hActive] at h
      exact h
  | false =>
      unfold isSuspended at hActive
      unfold stranded?
      cases hPhase : dispatch.phase <;> simp_all

/-- The end of a call does not bring back a request that was stranded. -/
theorem stranded?_of_answer {router : Router} {now : Instant} (ended : CallEnd α)
    (h : (dispatch.answer router now ended).2.stranded? = none) : dispatch.stranded? = none := by
  cases hPhase : dispatch.phase with
  | halted stranded =>
      simp only [Dispatch.answer, hPhase] at h
      exact h
  | _ => rw [stranded?, hPhase]

/-- A step ends no call, and sends one out only if none is out. -/
theorem calls_step (random : RandomSource) :
    dispatch.pending?.toList ++ (dispatch.sent? (dispatch.step router now random).2).toList =
      (dispatch.step router now random).2.pending?.toList := by
  cases hPending : dispatch.pending? with
  | none => simp only [sent?, hPending, Option.isNone_none, if_true, Option.toList_none,
      List.nil_append]
  | some call =>
      have hSuspended : dispatch.isSuspended = true := by
        unfold pending? at hPending
        unfold isSuspended
        split at hPending
        next hPhase => rw [hPhase]
        next => cases hPending
      rw [step_of_suspended hSuspended]
      simp only [sent?, hPending, Option.isNone_some, Bool.false_eq_true, if_false,
        Option.toList_none, List.append_nil]

/-- A refusal is an attempt without a call. -/
theorem call?_refused? (after : Dispatch α) :
    (dispatch.refused? after).bind Attempt.call? = none := by
  unfold refused?
  split <;> rfl

/-- The call that has returned is the one that was out. -/
theorem call?_returned? (ended : CallEnd α) :
    (dispatch.returned? now ended).bind Attempt.call? = dispatch.pending? := by
  unfold returned?
  cases dispatch.pending? <;> rfl

end Dispatch

/-- One move of a request on the router as it was then. -/
structure Touch where
  before : Router
  after : Router
  /-- The call that went out with it. -/
  sent? : Option PendingCall := none
  /-- The attempt that was over with it. -/
  ended? : Option Attempt := none
  /-- The deployment that was stranded with it. -/
  stranded? : Option Deployment := none

/-- The deployments that were attempted with a move, by their ids. -/
def Touch.attempted (touch : Touch) : List String :=
  (touch.sent?.map (·.deployment.id)).toList ++ (touch.ended?.map (·.deployment.id)).toList ++
    (touch.stranded?.map (·.id)).toList

namespace Session

variable {β : Type}

/-- The call that a move sends out. -/
def sent? (before after : Session β) : Option PendingCall :=
  if before.pending?.isNone then after.pending? else none

def stranded? : Session β → Option (Deployment × Admission) := view Dispatch.stranded? none

/-- What a move strands a session with. -/
def strands? (before after : Session β) : Option (Deployment × Admission) :=
  if before.stranded?.isNone then after.stranded? else none

/-- The attempt that is over with a move. -/
def ended? (session : Session β) (now : Instant) (move : Move β) (after : Session β) :
    Option Attempt :=
  match session, move, after with
  | .whole route, .step _, .whole after => route.dispatch.refused? after.dispatch
  | .opening route, .step _, .opening after => route.dispatch.refused? after.dispatch
  | .whole route, .answerWhole ended, _ => route.dispatch.returned? now ended
  | .opening route, .answerStream ended, _ => route.dispatch.returned? now ended
  | _, _, _ => none

def touch (router : Router) (now : Instant) (session : Session β) (move : Move β) : Touch where
  before := router
  after := (session.act router now move).1
  sent? := session.sent? (session.act router now move).2.1
  ended? := session.ended? now move (session.act router now move).2.1
  stranded? := (session.strands? (session.act router now move).2.1).map Prod.fst

/-- A request from its beginning on, with all that it has done on its router. The router may be
another one at each move, since others act on it in between. A call that is out is waited for. -/
inductive Dealings : List Touch → Session β → Prop where
  | begin (router : Router) (streamed : Bool) (request : Request) (now : Instant) :
      Dealings [{ before := router, after := (begin (β := β) router streamed request now).1 }]
        (begin router streamed request now).2.1
  | act {touches : List Touch} {session : Session β} (prior : Dealings touches session)
      (router : Router) (now : Instant) (move : Move β)
      (hWaits : move = .drop → session.pending? = none) :
      Dealings (touches ++ [session.touch router now move]) (session.act router now move).2.1

end Session

/-! ## What is told -/

section Quiet

variable (router : Router) (now : Instant)

theorem Router.health_settleSome (place : Option Admission) (actual : Nat) :
    (router.settleSome place actual now).health = router.health := by
  cases place <;> rfl

theorem Router.health_abandonSome (place : Option Admission) :
    (router.abandonSome place now).health = router.health := by
  cases place <;> rfl

/-- To settle what was served touches counts, not health. -/
theorem health_settleServed (request : Request) (callerAdmission : Option Admission)
    (admission : Admission) (deployment modelUsed : String) (usage : Option TokenUsage) :
    (settleServed router now request callerAdmission admission deployment modelUsed
      usage).health = router.health :=
  Router.health_settleSome ..

/-- A request that is given up is not heard of. -/
theorem Route.health_cancel {α : Type u} (route : Route α) :
    (route.cancel router now).health = router.health := by
  rw [Route.cancel, Router.health_abandonSome]
  unfold Dispatch.cancel
  split <;> rfl

/-- Nor is a stream that is dropped. -/
theorem RoutedStream.health_drop (stream : RoutedStream) :
    (stream.drop router now).health = router.health := by
  unfold RoutedStream.drop
  split
  · rfl
  all_goals exact Router.health_abandonSome ..

/-- Nor is anything that is read from a stream. -/
theorem RoutedStream.health_read (stream : RoutedStream) (arrival : Arrival) :
    (stream.read router now arrival).1.health = router.health := by
  cases hCloses : stream.closesOn arrival with
  | true =>
      rw [stream.read_closing hCloses]
      exact health_settleServed ..
  | false => rw [(stream.read_open hCloses router now).1]

end Quiet

namespace Session

variable {β : Type} (router : Router) (now : Instant) (session : Session β) (move : Move β)

/-- Nothing changes health but an attempt that is over. -/
theorem health_touch :
    (session.touch router now move).after.health =
      (session.touch router now move).ended?.elim router.health router.health.hear := by
  cases session with
  | whole route =>
      cases move with
      | step random => exact route.dispatch.health_step router now random
      | answerWhole ended => exact route.dispatch.health_answer router now ended
      | drop => exact route.health_cancel router now
      | finish =>
          simp only [touch, Session.act, ended?]
          split
          · exact health_settleServed ..
          · exact Router.health_settleSome ..
          · rfl
      | _ => rfl
  | opening route =>
      cases move with
      | step random => exact route.dispatch.health_step router now random
      | answerStream ended => exact route.dispatch.health_answer router now ended
      | drop => exact route.health_cancel router now
      | finish =>
          simp only [touch, Session.act, ended?]
          split
          · rfl
          · exact Router.health_settleSome ..
          · rfl
      | _ => rfl
  | reading stream =>
      cases move with
      | read arrival => exact stream.health_read router now arrival
      | drop => exact stream.health_drop router now
      | _ => rfl
  | done => cases move <;> rfl

/-- No call is out when a session begins. -/
theorem pending?_begin (streamed : Bool) (request : Request) :
    (begin (β := β) router streamed request now).2.1.pending? = none := by
  have hBegun : ∀ {α : Type} (router : Router),
      (Dispatch.begin router request now : Dispatch α).pending? = none := by
    intro α router
    unfold Dispatch.begin
    dsimp only
    split <;> rfl
  exact begin_cases (motive := fun session => session.pending? = none) rfl
    (fun _ => hBegun _) (fun _ => hBegun _) streamed

/-- A call that was out before a move or went out with it is still out, or its attempt is over. -/
theorem calls_touch (hWaits : move = .drop → session.pending? = none) :
    session.pending?.toList ++ (session.touch router now move).sent?.toList =
      ((session.touch router now move).ended?.bind Attempt.call?).toList ++
        (session.act router now move).2.1.pending?.toList := by
  have hStep : ∀ {α : Type} (dispatch : Dispatch α) (random : RandomSource),
      dispatch.pending?.toList ++ (dispatch.sent? (dispatch.step router now random).2).toList =
        ((dispatch.refused? (dispatch.step router now random).2).bind Attempt.call?).toList ++
          (dispatch.step router now random).2.pending?.toList := by
    intro α dispatch random
    rw [dispatch.call?_refused?]
    exact dispatch.calls_step router now random
  have hAnswer : ∀ {α : Type} (dispatch : Dispatch α) (ended : CallEnd α),
      dispatch.pending?.toList ++ (dispatch.sent? (dispatch.answer router now ended).2).toList =
        ((dispatch.returned? now ended).bind Attempt.call?).toList ++
          (dispatch.answer router now ended).2.pending?.toList := by
    intro α dispatch ended
    rw [dispatch.call?_returned?, dispatch.pending?_answer, Dispatch.sent?,
      dispatch.pending?_answer, ite_self]
  -- Any other move comes while no call is out and sends none, or has no effect.
  have hQuiet : ∀ {after : Session β}, after.pending? = none → session.pending? = none →
      session.pending?.toList ++ (session.sent? after).toList = after.pending?.toList := by
    intro after hAfter hBefore
    rw [sent?, hAfter, hBefore, ite_self]
    rfl
  have hSame : session.pending?.toList ++ (session.sent? session).toList =
      session.pending?.toList := by
    cases hPending : session.pending? <;> simp [sent?, hPending]
  cases session with
  | whole route =>
      cases move with
      | step random => exact hStep route.dispatch random
      | answerWhole ended => exact hAnswer route.dispatch ended
      | drop => exact hQuiet rfl (hWaits rfl)
      | finish =>
          simp only [touch, Session.act, ended?]
          split
          next hPhase => exact hQuiet rfl (by simp only [pending?, view, Dispatch.pending?, hPhase])
          next hPhase => exact hQuiet rfl (by simp only [pending?, view, Dispatch.pending?, hPhase])
          next => exact hSame
      | _ => exact hSame
  | opening route =>
      cases move with
      | step random => exact hStep route.dispatch random
      | answerStream ended => exact hAnswer route.dispatch ended
      | drop => exact hQuiet rfl (hWaits rfl)
      | finish =>
          simp only [touch, Session.act, ended?]
          split
          next hPhase => exact hQuiet rfl (by simp only [pending?, view, Dispatch.pending?, hPhase])
          next hPhase => exact hQuiet rfl (by simp only [pending?, view, Dispatch.pending?, hPhase])
          next => exact hSame
      | _ => exact hSame
  | reading stream => cases move <;> rfl
  | done => cases move <;> rfl

end Session

/-! ## What is left alone -/

namespace Limiter

/-- A step of a holder that asks for places on some deployments only. -/
def Move.AsksFor (holder : Nat) (keys : List String) : Move → Prop
  | .reserve other party key _ _ _ => other = holder ∧ (party = .deployment → key ∈ keys)
  | .settle other _ _ _ | .abandon other _ _ => other = holder
  | .forget _ => False

namespace Log

variable {log : Log} {holder : Nat} {keys : List String}

/-- A holder whose places on deployments are all on some of them. -/
def Within (log : Log) (holder : Nat) (keys : List String) : Prop :=
  ∀ admission ∈ log.outOf holder .deployment, admission.key ∈ keys

/-- Each place that is out is one of its own party. -/
theorem party_of_mem_outOf {party : Party} {admission : Admission}
    (h : admission ∈ log.outOf holder party) : admission.party = party := by
  obtain ⟨grant, hGrant, rfl⟩ := List.mem_map.mp h
  have hWith := (List.mem_filter.mp hGrant).2
  simp only [Grant.isOutWith, Bool.and_eq_true, beq_iff_eq] at hWith
  exact hWith.2

/-- Places that come back are no others than those that were out. -/
theorem Within.giveBack (h : log.Within holder keys) (party : Party) (now : Instant)
    (cost : Admission → Nat) :
    (log.giveBack holder party now cost).Within holder keys ∧
      ∀ key, key ∉ keys → (log.giveBack holder party now cost).limiter.cell? .deployment key =
        log.limiter.cell? .deployment key := by
  cases hOut : log.outOf holder party with
  | nil =>
      rw [giveBack_of_nil hOut]
      exact ⟨h, fun _ _ => rfl⟩
  | cons admission rest =>
      refine ⟨fun other hOther => ?_, fun key hKey => ?_⟩
      · rw [outOf_giveBack hOut] at hOther
        split at hOther
        next hHere =>
          refine h other ?_
          rw [hHere.2, hOut]
          exact List.mem_cons_of_mem admission hOther
        next => exact h other hOther
      · rw [giveBack_of_cons hOut, settle_cell?, if_neg]
        rintro ⟨hParty, rfl⟩
        have hMem : admission ∈ log.outOf holder party := hOut ▸ List.mem_cons_self
        have hHere : party = .deployment := (party_of_mem_outOf hMem).symm.trans hParty.symm
        subst hHere
        exact hKey (h admission hMem)

/-- A move for some keys leaves the cells of all others alone. -/
theorem Within.perform (h : log.Within holder keys) {move : Move}
    (hMove : move.AsksFor holder keys) :
    (log.perform move).Within holder keys ∧
      ∀ key, key ∉ keys →
        (log.perform move).limiter.cell? .deployment key = log.limiter.cell? .deployment key := by
  cases move with
  | reserve other party key limits cost now =>
      obtain ⟨rfl, hKey⟩ := hMove
      refine ⟨fun admission hMem => ?_, fun elsewhere hElsewhere => ?_⟩
      · rw [outOf_perform_reserve] at hMem
        split at hMem
        next hHere =>
          rcases List.mem_append.mp hMem with hOld | hNew
          · exact h admission hOld
          · rw [reserve_snd] at hNew
            split at hNew
            · cases hNew
            · rw [List.mem_singleton.mp hNew]
              exact hKey hHere.2.symm
        next => exact h admission hMem
      · rw [(perform_reserve_cases ..).1, reserve_cell?, if_neg]
        rintro ⟨hParty, rfl⟩
        exact hElsewhere (hKey hParty.symm)
  | settle other party actual now =>
      cases hMove
      exact h.giveBack party now _
  | abandon other party now =>
      cases hMove
      exact h.giveBack party now _
  | forget key => exact hMove.elim

/-- So do moves one after the other. -/
theorem Within.performAll (h : log.Within holder keys) {moves : List Move}
    (hMoves : ∀ move ∈ moves, move.AsksFor holder keys) :
    (log.performAll moves).Within holder keys ∧
      ∀ key, key ∉ keys → (log.performAll moves).limiter.cell? .deployment key =
        log.limiter.cell? .deployment key := by
  refine performAll_induction (motive := fun after => after.Within holder keys ∧
    ∀ key, key ∉ keys →
      after.limiter.cell? .deployment key = log.limiter.cell? .deployment key)
    ⟨h, fun _ _ => rfl⟩ fun middle move hMove hMiddle => ?_
  obtain ⟨hWithin, hSame⟩ := hMiddle.1.perform (hMoves move hMove)
  exact ⟨hWithin, fun key hKey => (hSame key hKey).trans (hMiddle.2 key hKey)⟩

end Log

end Limiter

namespace Session

variable {β : Type} {router : Router} {session : Session β} {keys : List String} {holder : Nat}

/-- The places of a session as a log of their own, with one holder. -/
def placesOn (session : Session β) (limiter : Limiter) : Limiter.Log where
  limiter := limiter
  grants := ((session.place? .deployment).toList ++ (session.place? .caller).toList).map
    fun admission => { holder := 0, admission, instant := 0 }

/-- Each place of a session is for the party it should be for, and on a deployment among some. -/
def Within (keys : List String) (session : Session β) : Prop :=
  ∀ party admission, session.place? party = some admission →
    admission.party = party ∧ (party = .deployment → admission.key ∈ keys)

/-- The places that a session is laid out with are those that it has. -/
theorem Within.outOf_placesOn (h : session.Within keys) (limiter : Limiter) (party : Party) :
    (session.placesOn limiter).outOf 0 party = (session.place? party).toList := by
  have hParty := fun party admission hPlace => (h party admission hPlace).1
  cases hDeployment : session.place? .deployment with
  | none =>
      cases hCaller : session.place? .caller with
      | none => cases party <;> simp [placesOn, Limiter.Log.outOf, hDeployment, hCaller]
      | some caller =>
          have hSecond := hParty .caller caller hCaller
          cases party <;> simp [placesOn, Limiter.Log.outOf, Limiter.Grant.isOutWith,
            Limiter.Grant.isOut, hDeployment, hCaller, hSecond]
  | some deployment =>
      have hFirst := hParty .deployment deployment hDeployment
      cases hCaller : session.place? .caller with
      | none => cases party <;> simp [placesOn, Limiter.Log.outOf, Limiter.Grant.isOutWith,
            Limiter.Grant.isOut, hDeployment, hCaller, hFirst]
      | some caller =>
          have hSecond := hParty .caller caller hCaller
          cases party <;> simp [placesOn, Limiter.Log.outOf, Limiter.Grant.isOutWith,
            Limiter.Grant.isOut, hDeployment, hCaller, hFirst, hSecond]

/-- Places that a log and a session agree on are within what the log has. -/
theorem within_of_outOf {log : Limiter.Log} (h : log.Within 0 keys)
    (hPlaces : ∀ party, log.outOf 0 party = (session.place? party).toList) :
    session.Within keys := by
  intro party admission hPlace
  have hMem : admission ∈ log.outOf 0 party := by
    rw [hPlaces, hPlace]
    exact List.mem_singleton_self admission
  refine ⟨Limiter.Log.party_of_mem_outOf hMem, ?_⟩
  rintro rfl
  exact h admission hMem

theorem Within.placesOn (h : session.Within keys) (limiter : Limiter) :
    (session.placesOn limiter).Within 0 keys := by
  intro admission hMem
  rw [h.outOf_placesOn, Option.mem_toList] at hMem
  exact (h .deployment admission hMem).2 rfl

/-- A request asks for a place on a deployment only if it attempts it. -/
theorem asksFor_stepMoves {α : Type} {dispatch : Dispatch α} {router : Router} {now : Instant}
    {random : RandomSource}
    (hSent : ∀ call, dispatch.sent? (dispatch.step router now random).2 = some call →
      call.deployment.id ∈ keys)
    (hRefused : ∀ attempt, dispatch.refused? (dispatch.step router now random).2 = some attempt →
      attempt.deployment.id ∈ keys)
    (hStranded : ∀ stranded, dispatch.strands? (dispatch.step router now random).2 = some stranded →
      stranded.1.id ∈ keys) :
    ∀ step ∈ dispatch.stepMoves holder, step.AsksFor holder keys := by
  unfold Dispatch.stepMoves
  split
  next looked deployment hPhase =>
    refine List.forall_mem_singleton.mpr ⟨rfl, fun _ => ?_⟩
    obtain ⟨attempt, hAttempt, rfl⟩ | ⟨call, hCall, rfl⟩ | ⟨stranded, hStrands, rfl⟩ :=
      dispatch.attempted_of_reserving router now hPhase random
    · exact hRefused attempt hAttempt
    · exact hSent call hCall
    · exact hStranded stranded hStrands
  next => exact List.forall_mem_nil _

theorem asksFor_answerMoves {α : Type} (dispatch : Dispatch α) (now : Instant)
    (ended : CallEnd α) :
    ∀ step ∈ dispatch.answerMoves holder now ended, step.AsksFor holder keys := by
  unfold Dispatch.answerMoves
  split
  · exact List.forall_mem_singleton.mpr rfl
  · split <;> exact List.forall_mem_singleton.mpr rfl
  · exact List.forall_mem_nil _

/-- A move of a session asks only for deployments that are attempted with it. -/
theorem asksFor_limiterMoves {now : Instant} {move : Move β}
    (hAttempted : ∀ id ∈ (session.touch router now move).attempted, id ∈ keys) :
    ∀ step ∈ session.limiterMoves holder now move, step.AsksFor holder keys := by
  have hSent : ∀ call, (session.touch router now move).sent? = some call →
      call.deployment.id ∈ keys := fun call hCall =>
    hAttempted _ (List.mem_append_left _
      (List.mem_append_left _ (by rw [hCall]; exact List.mem_singleton_self _)))
  have hEnded : ∀ attempt, (session.touch router now move).ended? = some attempt →
      attempt.deployment.id ∈ keys := fun attempt hAttempt =>
    hAttempted _ (List.mem_append_left _
      (List.mem_append_right _ (by rw [hAttempt]; exact List.mem_singleton_self _)))
  have hStranded : ∀ stranded, session.strands? (session.act router now move).2.1 = some stranded →
      stranded.1.id ∈ keys := fun stranded hStrands =>
    hAttempted _ (List.mem_append_right _
      (by simp only [touch, hStrands]; exact List.mem_singleton_self _))
  have hSettle : ∀ tokens, ∀ step ∈ settleMoves holder tokens now,
      step.AsksFor holder keys := fun _ =>
    List.forall_mem_cons.mpr ⟨rfl, List.forall_mem_singleton.mpr rfl⟩
  have hAbandon : ∀ step ∈ abandonMoves holder now, step.AsksFor holder keys :=
    List.forall_mem_cons.mpr ⟨rfl, List.forall_mem_singleton.mpr rfl⟩
  cases session with
  | whole route =>
      cases move with
      | step random => exact asksFor_stepMoves hSent hEnded hStranded
      | answerWhole ended => exact asksFor_answerMoves route.dispatch now ended
      | drop => exact hAbandon
      | finish =>
          simp only [limiterMoves]
          split
          · exact hSettle _
          · exact List.forall_mem_singleton.mpr rfl
          · exact List.forall_mem_nil _
      | _ => exact List.forall_mem_nil _
  | opening route =>
      cases move with
      | step random => exact asksFor_stepMoves hSent hEnded hStranded
      | answerStream ended => exact asksFor_answerMoves route.dispatch now ended
      | drop => exact hAbandon
      | finish =>
          simp only [limiterMoves]
          split
          · exact List.forall_mem_singleton.mpr rfl
          · exact List.forall_mem_nil _
      | _ => exact List.forall_mem_nil _
  | reading stream =>
      cases move with
      | read arrival =>
          simp only [limiterMoves]
          split
          · exact hSettle _
          · exact List.forall_mem_nil _
      | drop => exact hAbandon
      | _ => exact List.forall_mem_nil _
  | done => cases move <;> exact List.forall_mem_nil _

theorem asksFor_beginMoves (router : Router) (request : Request) (now : Instant) :
    ∀ step ∈ beginMoves holder router request now, step.AsksFor holder keys := by
  unfold beginMoves
  split
  · exact List.forall_mem_nil _
  · split
    · exact List.forall_mem_nil _
    · exact List.forall_mem_singleton.mpr ⟨rfl, nofun⟩

/-- A session never touches the cells of deployments that it does not attempt. -/
theorem Within.act (h : session.Within keys) {now : Instant} {move : Move β}
    (hAttempted : ∀ id ∈ (session.touch router now move).attempted, id ∈ keys) :
    (session.act router now move).2.1.Within keys ∧
      ∀ id, id ∉ keys → (session.act router now move).1.limiter.cell? .deployment id =
        router.limiter.cell? .deployment id := by
  have hLimiter : (session.placesOn router.limiter).limiter = router.limiter := rfl
  have hLeads := leadsTo_act hLimiter (h.outOf_placesOn router.limiter) move now
  obtain ⟨hWithin, hSame⟩ :=
    (h.placesOn router.limiter).performAll (asksFor_limiterMoves hAttempted)
  rw [hLeads.limiter] at hSame
  exact ⟨within_of_outOf hWithin hLeads.places, hSame⟩

theorem within_begin (router : Router) (streamed : Bool) (request : Request) (now : Instant) :
    (Session.begin (β := β) router streamed request now).2.1.Within keys ∧
      ∀ id, id ∉ keys →
        (Session.begin (β := β) router streamed request now).1.limiter.cell? .deployment id =
          router.limiter.cell? .deployment id := by
  have hNothing : ∀ party, Limiter.Log.outOf { limiter := router.limiter } 0 party = [] :=
    fun _ => rfl
  have hLeads := leadsTo_begin (β := β) rfl hNothing streamed request now
  have hNone : Limiter.Log.Within { limiter := router.limiter } 0 keys := List.forall_mem_nil _
  obtain ⟨hWithin, hSame⟩ := hNone.performAll (asksFor_beginMoves router request now)
  rw [hLeads.limiter] at hSame
  exact ⟨within_of_outOf hWithin hLeads.places, hSame⟩

/-! ## Whole requests -/

variable {touches : List Touch}

/-- What was attempted bounds where places are and which counts have changed. -/
theorem Dealings.within (h : Dealings touches session)
    (hAttempted : ∀ touch ∈ touches, ∀ id ∈ touch.attempted, id ∈ keys) :
    session.Within keys ∧ ∀ touch ∈ touches, ∀ id, id ∉ keys →
      touch.after.limiter.cell? .deployment id = touch.before.limiter.cell? .deployment id := by
  induction h with
  | begin router streamed request now =>
      obtain ⟨hWithin, hSame⟩ := @within_begin β keys router streamed request now
      exact ⟨hWithin, List.forall_mem_singleton.mpr hSame⟩
  | act prior router now move hWaits ih =>
      obtain ⟨hEarlier, hLast⟩ := List.forall_mem_append.mp hAttempted
      obtain ⟨hWithin, hSame⟩ := ih hEarlier
      obtain ⟨hNext, hLastSame⟩ := hWithin.act (List.forall_mem_singleton.mp hLast)
      exact ⟨hNext, List.forall_mem_append.mpr ⟨hSame, List.forall_mem_singleton.mpr hLastSame⟩⟩

/-- The health hears of the attempts of a request and of nothing else. -/
theorem Dealings.health (h : Dealings touches session) :
    ∀ touch ∈ touches, touch.after.health =
      touch.ended?.elim touch.before.health touch.before.health.hear := by
  induction h with
  | begin router streamed request now =>
      refine List.forall_mem_singleton.mpr ?_
      obtain ⟨limiter, hCaller⟩ := router.reserveCaller_eq now request
      rw [router_begin, hCaller]
      rfl
  | act prior router now move hWaits ih =>
      exact List.forall_mem_append.mpr ⟨ih, List.forall_mem_singleton.mpr (health_touch ..)⟩

/-- Calls come to be attempts in the order in which they went out. -/
theorem Dealings.calls (h : Dealings touches session) :
    touches.filterMap Touch.sent? =
      (touches.filterMap Touch.ended?).filterMap Attempt.call? ++ session.pending?.toList := by
  have hBound : ∀ ended? : Option Attempt,
      ended?.toList.filterMap Attempt.call? = (ended?.bind Attempt.call?).toList := by
    rintro (_ | attempt)
    · rfl
    · cases hCall : attempt.call? <;> simp [hCall]
  have hOne : ∀ {γ : Type} (read : Touch → Option γ) (touch : Touch),
      [touch].filterMap read = (read touch).toList := by
    intro γ read touch
    cases hRead : read touch <;> simp [hRead]
  induction h with
  | begin router streamed request now =>
      rw [pending?_begin]
      rfl
  | act prior router now move hWaits ih =>
      rw [List.filterMap_append, List.filterMap_append, List.filterMap_append, ih, hOne, hOne,
        hBound, List.append_assoc, List.append_assoc, calls_touch router now _ move hWaits]

/-- Every call that a request sends out comes to be an attempt that is over, once and in the order
of the calls, unless it is still out. The health of the deployments hears of each attempt when it
is over and of nothing else: of a call it hears one outcome, that of the error if it failed and
a retriable error if it was cut off, and it gets a latency if the call succeeded. The health
record and the counts of a deployment that was not attempted are never touched. -/
theorem Dealings.heard_once (h : Dealings touches session) :
    touches.filterMap Touch.sent? =
        (touches.filterMap Touch.ended?).filterMap Attempt.call? ++ session.pending?.toList ∧
      (∀ touch ∈ touches, touch.after.health =
        touch.ended?.elim touch.before.health touch.before.health.hear) ∧
      ∀ id, (∀ touch ∈ touches, id ∉ touch.attempted) → ∀ touch ∈ touches,
        touch.after.health.records.get? id = touch.before.health.records.get? id ∧
          touch.after.limiter.cell? .deployment id = touch.before.limiter.cell? .deployment id := by
  refine ⟨h.calls, h.health, fun id hNever touch hTouch => ⟨?_, ?_⟩⟩
  · have hAttempted := hNever touch hTouch
    rw [h.health touch hTouch]
    cases hEnded : touch.ended? with
    | none => rfl
    | some attempt =>
        refine HealthTracker.get?_hear fun hId => hAttempted ?_
        rw [Touch.attempted, hEnded, ← hId]
        exact List.mem_append_left _ (List.mem_append_right _ (List.mem_singleton_self _))
  · have hAll : ∀ touch ∈ touches, ∀ id ∈ touch.attempted, id ∈ touches.flatMap Touch.attempted :=
      fun touch hMem id hId => List.mem_flatMap.mpr ⟨touch, hMem, hId⟩
    refine (h.within hAll).2 touch hTouch id fun hMem => ?_
    obtain ⟨other, hOther, hId⟩ := List.mem_flatMap.mp hMem
    exact hNever other hOther hId

/-- Moves one after the other on a router that nobody else touches, with what they do to it. -/
def actAlong :
    List (Move β × Instant) → List Touch × Router × Session β → List Touch × Router × Session β
  | [], state => state
  | (move, now) :: rest, (touches, router, session) =>
      actAlong rest
        (touches ++ [session.touch router now move], (session.act router now move).1,
          (session.act router now move).2.1)

/-- Moves one after the other, none of which drops the session, are dealings of it. -/
theorem Dealings.along {moves : List (Move β × Instant)}
    (hWaits : ∀ entry ∈ moves, entry.1 ≠ .drop)
    {state : List Touch × Router × Session β} (h : Dealings state.1 state.2.2) :
    Dealings (actAlong moves state).1 (actAlong moves state).2.2 := by
  induction moves generalizing state with
  | nil => exact h
  | cons entry rest ih =>
      obtain ⟨hHere, hLater⟩ := List.forall_mem_cons.mp hWaits
      exact ih hLater (h.act state.2.1 entry.2 entry.1 fun hDrop => absurd hDrop hHere)

/-- The first deployment is busy, the second one is cut off by its own deadline, and in the second
pass it serves the request. -/
def pairMoves : List (Move Unit × Instant) :=
  [(.step {}, 1), (.step {}, 2), (.step {}, 3), (.answerWhole (.failure (.server 503 "busy")), 10),
    (.step {}, 11), (.step {}, 12), (.step {}, 13), (.answerWhole .cutOff, 20), (.step {}, 21),
    (.step {}, 22), (.step {}, 23), (.step {}, 24), (.step {}, 25),
    (.answerWhole (.success { payload := .null }), 32)]

def pairBegun : List Touch × Router × Session Unit :=
  let (router, session, _) := begin pairRouter false Route.pairRequest 0
  ([{ before := pairRouter, after := router }], router, session)

/-- What becomes of a router with two deployments when nobody else touches it. -/
def pairDealings : List Touch × Router × Session Unit := actAlong pairMoves pairBegun

/-- The record of the first deployment tells of a failure, that of the second one of a failure and
a success with its latency, and there is none of a third one. -/
theorem Dealings.heard_once_pair :
    Dealings pairDealings.1 pairDealings.2.2 ∧
      pairDealings.1.getLast?.map Touch.after = some pairDealings.2.1 ∧
      (pairDealings.1.filterMap Touch.ended?).map
          (fun attempt => (attempt.deployment.id, attempt.outcome, attempt.latency?)) =
        [("d1", .retriableError, none), ("d2", .retriableError, none), ("d2", .success, some 7)] ∧
      pairDealings.2.1.health.records.get? "d1" =
        some { windowStart := some 10, failures := 1, consecutiveFailures := 1 } ∧
      pairDealings.2.1.health.records.get? "d2" =
        some { windowStart := some 20, successes := 1, failures := 1, averageLatency := some 7 } ∧
      pairDealings.2.1.health.records.get? "d3" = none ∧
      pairDealings.1.filterMap Touch.sent? =
        (pairDealings.1.filterMap Touch.ended?).filterMap Attempt.call? ∧
      ∀ touch ∈ pairDealings.1,
        touch.after.limiter.cell? .deployment "d3" =
          touch.before.limiter.cell? .deployment "d3" := by
  have hBegun : Dealings pairBegun.1 pairBegun.2.2 :=
    Dealings.begin pairRouter false Route.pairRequest 0
  have hWaits : ∀ entry ∈ pairMoves, entry.1 ≠ .drop := by simp [pairMoves]
  have hServed : Dealings (actAlong pairMoves pairBegun).1 (actAlong pairMoves pairBegun).2.2 :=
    hBegun.along hWaits
  obtain ⟨hCalls, _, hAlone⟩ := hServed.heard_once
  have hNever := hAlone "d3" (by decide +kernel)
  exact ⟨hServed, rfl, rfl, by decide +kernel, by decide +kernel, by decide +kernel, hCalls,
    fun touch hTouch => (hNever touch hTouch).2⟩

end Session

end DeploymentRouting
