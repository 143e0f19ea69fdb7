import DeploymentRouting.Proofs.Gateway.Capacity
import DeploymentRouting.Proofs.Gateway.Feedback
import DeploymentRouting.Proofs.Limiter.Standing
/-!
The turns of one request among others. A request is followed through its gateway from its beginning
on, whatever the others do between its turns. What it was granted and what it has paid, as the
limiter knows it, are the calls that went out with its turns and the places that came back with
them. The turns of the others have no part in either.
-/
namespace DeploymentRouting

/-! ## Steps of one holder -/

namespace Limiter

/-- Who makes a step. A key is removed in nobody's name. -/
def Move.holder? : Move → Option Nat
  | .reserve holder _ _ _ _ _ | .settle holder _ _ _ | .abandon holder _ _ => some holder
  | .forget _ => none

/-- The party whose place is asked for or comes back with a step. -/
def Move.party? : Move → Option Party
  | .reserve _ party _ _ _ _ | .settle _ party _ _ | .abandon _ party _ => some party
  | .forget _ => none

/-- Whether a place comes back with a step. -/
def Move.givesBack : Move → Bool
  | .settle _ _ _ _ | .abandon _ _ _ => true
  | .reserve _ _ _ _ _ _ | .forget _ => false

/-- The place that comes back with a step of a holder of some places, with its cost. -/
def Move.returns (place? : Party → Option Admission) : Move → List (Admission × Nat)
  | .settle _ party actual _ => (place? party).toList.map fun admission => (admission, actual)
  | .abandon _ party _ =>
      (place? party).toList.map fun admission => (admission, admission.estimate)
  | .reserve _ _ _ _ _ _ | .forget _ => []

/-- What the places on a key cost among some that have come back. -/
def costOn (places : List (Admission × Nat)) (party : Party) (key : String) : Nat :=
  tally (fun place => if place.1.isOn party key then place.2 else 0) places

/-- Costs of two lists add up. -/
theorem costOn_append (first second : List (Admission × Nat)) (party : Party) (key : String) :
    costOn (first ++ second) party key = costOn first party key + costOn second party key :=
  tally_append ..

namespace Log

variable {log : Log} {holder : Nat} {move : Move} {moves : List Move} {party : Party}
  {place? : Party → Option Admission} {keys : List String}

/-- A return of one party leaves the places of the other one out. -/
theorem outOf_giveBack_apart (log : Log) (holder : Nat) {party p : Party} (hApart : p ≠ party)
    (now : Instant) (cost : Admission → Nat) :
    (log.giveBack holder party now cost).outOf holder p = log.outOf holder p := by
  cases hOut : log.outOf holder party with
  | nil => rw [giveBack_of_nil hOut]
  | cons admission rest =>
      rw [outOf_giveBack hOut, if_neg fun hHere => hApart hHere.2]

/-- A step leaves the places for the other party as they are. -/
theorem outOf_perform_apart (hHolder : move.holder? = some holder)
    (hApart : move.party? ≠ some party) :
    (log.perform move).outOf holder party = log.outOf holder party := by
  cases move with
  | reserve other p key limits cost now =>
      rw [outOf_perform_reserve, if_neg]
      rintro ⟨_, rfl⟩
      exact hApart rfl
  | settle other p actual now =>
      cases hHolder
      exact outOf_giveBack_apart log holder (fun hSame => hApart (congrArg some hSame.symm)) now _
  | abandon other p now =>
      cases hHolder
      exact outOf_giveBack_apart log holder (fun hSame => hApart (congrArg some hSame.symm)) now _
  | forget key => cases hHolder

/-- A move pays what it returns, if the places that are out are those it knows of. -/
theorem paid_perform (hHolder : move.holder? = some holder)
    (hPlaces : ∀ party, move.party? = some party →
      log.outOf holder party = (place? party).toList) (p : Party) (k : String) :
    (log.perform move).paid holder p k =
      log.paid holder p k + costOn (move.returns place?) p k := by
  cases move with
  | reserve other party key limits cost now => exact paid_reserve ..
  | settle other party actual now =>
      cases hHolder
      refine (paid_giveBack (hPlaces party rfl) now _ p k).trans ?_
      simp only [Move.returns]
      cases place? party <;> rfl
  | abandon other party now =>
      cases hHolder
      refine (paid_giveBack (hPlaces party rfl) now _ p k).trans ?_
      simp only [Move.returns]
      cases place? party <;> rfl
  | forget key => cases hHolder

/-- Steps that touch the place of each party once at most return what the holder had before all
of them. -/
theorem paid_performAll (hHolder : ∀ move ∈ moves, move.holder? = some holder)
    (hOnce : (moves.map Move.party?).Nodup)
    (hPlaces : ∀ move ∈ moves, ∀ party, move.party? = some party →
      log.outOf holder party = (place? party).toList) (p : Party) (k : String) :
    (log.performAll moves).paid holder p k =
      log.paid holder p k + costOn (moves.flatMap (Move.returns place?)) p k := by
  induction moves generalizing log with
  | nil => rfl
  | cons move moves ih =>
      obtain ⟨hFirst, hRest⟩ := List.forall_mem_cons.mp hHolder
      obtain ⟨hNotAgain, hOnceRest⟩ := List.nodup_cons.mp hOnce
      obtain ⟨hFirstPlace, hRestPlaces⟩ := List.forall_mem_cons.mp hPlaces
      have hKept : ∀ other ∈ moves, ∀ party, other.party? = some party →
          (log.perform move).outOf holder party = (place? party).toList := by
        intro other hOther party hParty
        rw [outOf_perform_apart hFirst fun hSame =>
          hNotAgain (List.mem_map.mpr ⟨other, hOther, hParty.trans hSame.symm⟩)]
        exact hRestPlaces other hOther party hParty
      rw [performAll_cons, ih hRest hOnceRest hKept, paid_perform hFirst hFirstPlace,
        List.flatMap_cons, costOn_append, Nat.add_assoc]

/-- Moves that only give back are granted nothing. -/
theorem granted_performAll (hBack : ∀ move ∈ moves, move.givesBack = true) (p : Party)
    (k : String) : (log.performAll moves).granted holder p k = log.granted holder p k := by
  refine performAll_induction (motive := fun after =>
    after.granted holder p k = log.granted holder p k) rfl fun after move hMem hSame => ?_
  have hGivesBack := hBack move hMem
  cases move with
  | settle other party actual now => exact (granted_giveBack ..).trans hSame
  | abandon other party now => exact (granted_giveBack ..).trans hSame
  | reserve other party key limits cost now => cases hGivesBack
  | forget key => cases hGivesBack

/-- The grants of some holders are left alone by all others. -/
theorem filter_holder_perform {keep : Nat → Bool}
    (hNot : ∀ holder, move.holder? = some holder → keep holder = false) :
    (log.perform move).grants.filter (keep ·.holder) = log.grants.filter (keep ·.holder) := by
  have hMarked : ∀ (holder : Nat) (party : Party) (now : Instant) (cost : Nat)
      (grants : List Grant), keep holder = false →
      (Grant.markReturned holder party now cost grants).filter (keep ·.holder) =
        grants.filter (keep ·.holder) := by
    intro holder party now cost grants hKeep
    induction grants with
    | nil => rfl
    | cons grant grants ih =>
        unfold Grant.markReturned
        split
        next hWith =>
          simp only [Grant.isOutWith, Bool.and_eq_true, beq_iff_eq] at hWith
          simp [hWith.1.2, hKeep]
        next => simp only [List.filter_cons, ih]
  have hGiveBack : ∀ (holder : Nat) (party : Party) (now : Instant) (cost : Admission → Nat),
      keep holder = false →
      (log.giveBack holder party now cost).grants.filter (keep ·.holder) =
        log.grants.filter (keep ·.holder) := by
    intro holder party now cost hKeep
    unfold giveBack
    split
    · rfl
    · exact hMarked holder party now _ log.grants hKeep
  cases move with
  | reserve holder party key limits cost now =>
      obtain ⟨_, ⟨refusal, _, hGrants⟩ | ⟨_, hGrants⟩⟩ :=
        perform_reserve_cases log holder party key limits cost now
      · rw [hGrants]
      · rw [hGrants]
        simp [hNot holder rfl]
  | settle holder party actual now => exact hGiveBack holder party now _ (hNot holder rfl)
  | abandon holder party now => exact hGiveBack holder party now _ (hNot holder rfl)
  | forget key => rfl

/-- Moves of some holders leave what was granted to all others as it was. -/
theorem filter_holder_performAll {keep : Nat → Bool}
    (hNot : ∀ move ∈ moves, ∀ holder, move.holder? = some holder → keep holder = false) :
    (log.performAll moves).grants.filter (keep ·.holder) = log.grants.filter (keep ·.holder) :=
  performAll_induction (motive := fun after =>
    after.grants.filter (keep ·.holder) = log.grants.filter (keep ·.holder)) rfl
    fun _ move hMem hSame => (filter_holder_perform (hNot move hMem)).trans hSame

/-- What is granted after moves of others was granted before them. -/
theorem mem_of_mem_performAll {grant : Grant}
    (hNot : ∀ move ∈ moves, move.holder? ≠ some grant.holder)
    (hMem : grant ∈ (log.performAll moves).grants) : grant ∈ log.grants := by
  have hSame := @filter_holder_performAll log moves (· == grant.holder)
    fun move hMove other hOther =>
      beq_eq_false_iff_ne.mpr fun hEq => hNot move hMove (hEq ▸ hOther)
  have hIn : grant ∈ (log.performAll moves).grants.filter (·.holder == grant.holder) :=
    List.mem_filter.mpr ⟨hMem, BEq.rfl⟩
  rw [hSame] at hIn
  exact (List.mem_filter.mp hIn).1

/-- What a holder was granted and has paid is told by its own grants. -/
theorem sumOf_isOwn (amount : Grant → Nat) (holder : Nat) (p : Party) (k : String)
    (grants : List Grant) :
    Grant.sumOf amount (Grant.isOwn holder p k) (grants.filter (·.holder == holder)) =
      Grant.sumOf amount (Grant.isOwn holder p k) grants := by
  induction grants with
  | nil => rfl
  | cons grant grants ih =>
      rw [List.filter_cons, Grant.sumOf_cons, ← ih]
      split
      next => rfl
      next hOther => simp [Grant.isOwn, hOther]

/-- Moves of others neither pay for a holder nor are they granted to it. -/
theorem own_performAll (hNot : ∀ move ∈ moves, move.holder? ≠ some holder) (p : Party)
    (k : String) :
    (log.performAll moves).paid holder p k = log.paid holder p k ∧
      (log.performAll moves).granted holder p k = log.granted holder p k := by
  have hSame : (log.performAll moves).grants.filter (·.holder == holder) =
      log.grants.filter (·.holder == holder) :=
    @filter_holder_performAll log moves (· == holder) fun move hMem other hOther =>
      beq_eq_false_iff_ne.mpr fun hEq => hNot move hMem (hEq ▸ hOther)
  constructor
  · rw [paid, paid, ← sumOf_isOwn, hSame, sumOf_isOwn]
  · rw [granted, granted, ← sumOf_isOwn, hSame, sumOf_isOwn]

end Log

end Limiter

/-! ## Turns -/

namespace Dispatch

variable {α : Type} {dispatch after : Dispatch α}

/-- The place that a step takes: that of the call which goes out, or of the deployment that cannot
be called. -/
def taken (before after : Dispatch α) : List Admission :=
  (before.sent? after).toList.map PendingCall.admission ++
    (before.strands? after).toList.map Prod.snd

/-- Nothing is taken where nothing changes. -/
theorem taken_self : dispatch.taken dispatch = [] := by
  cases hPending : dispatch.pending? <;> cases hStranded : dispatch.stranded? <;>
    simp [taken, sent?, strands?, hPending, hStranded]

theorem taken_of_none (hPending : after.pending? = none) (hStranded : after.stranded? = none) :
    dispatch.taken after = [] := by
  rw [taken, sent?, strands?, hPending, hStranded, ite_self, ite_self]
  rfl

/-- A request that has no place has not taken any. -/
theorem taken_of_place?_none (hPlace : after.phase.place? = none) : dispatch.taken after = [] := by
  refine taken_of_none ?_ ?_
  · unfold pending?
    split
    next hPhase => rw [hPhase] at hPlace; cases hPlace
    next => rfl
  · unfold stranded?
    split
    next stranded hPhase =>
      cases stranded with
      | none => rfl
      | some stranded => rw [hPhase] at hPlace; cases hPlace
    next => rfl

/-- The end of a call takes no place. -/
theorem taken_answer (dispatch : Dispatch α) (router : Router) (now : Instant)
    (ended : CallEnd α) : dispatch.taken (dispatch.answer router now ended).2 = [] := by
  cases hPhase : dispatch.phase with
  | calling call =>
      have hReturn := returnsTo_answer hPhase router now ended
      generalize (dispatch.answer router now ended).2 = after at hReturn
      cases hReturn <;> exact taken_of_none rfl rfl
  | _ =>
      simp only [Dispatch.answer, hPhase]
      exact taken_self

end Dispatch

namespace Session

variable {β : Type}

/-- The place that a move takes on a deployment. -/
def taken (before after : Session β) : List Admission :=
  (before.sent? after).toList.map PendingCall.admission ++
    (before.strands? after).toList.map Prod.snd

/-- The places that come back with a move of a session, with their costs. -/
def returns (now : Instant) (session : Session β) (move : Move β) : List (Admission × Nat) :=
  (session.limiterMoves 0 now move).flatMap (Limiter.Move.returns (place? · session))

/-- A move of a session on the router as it was then. -/
structure Turn (β : Type) where
  router : Router
  now : Instant
  session : Session β
  move : Move β

namespace Turn

variable (turn : Turn β)

/-- The session after a turn. -/
def next : Session β := (turn.session.act turn.router turn.now turn.move).2.1

/-- The router after a turn. -/
def after : Router := (turn.session.act turn.router turn.now turn.move).1

def reply : Reply := (turn.session.act turn.router turn.now turn.move).2.2

/-- The call that goes out with a turn. -/
def sent? : Option PendingCall := turn.session.sent? turn.next

/-- What the request is stranded with in a turn. -/
def strands? : Option (Deployment × Admission) := turn.session.strands? turn.next

/-- The place that is taken on a deployment with a turn. -/
def taken : List Admission := turn.session.taken turn.next

/-- The attempt that is over with a turn. -/
def ended? : Option Attempt := turn.session.ended? turn.now turn.move turn.next

/-- The cost that is reported with a turn. -/
def event? : Option SpendEvent := turn.session.event? turn.move

def returns : List (Admission × Nat) := turn.session.returns turn.now turn.move

end Turn

theorem filterMap_concat {γ : Type} (read : Turn β → Option γ) (turns : List (Turn β))
    (turn : Turn β) :
    (turns ++ [turn]).filterMap read = turns.filterMap read ++ (read turn).toList := by
  rw [List.filterMap_append, List.filterMap_eq_flatMap_toList read [turn],
    List.flatMap_singleton]

theorem flatMap_concat {γ : Type} (read : Turn β → List γ) (turns : List (Turn β))
    (turn : Turn β) : (turns ++ [turn]).flatMap read = turns.flatMap read ++ read turn := by
  rw [List.flatMap_append, List.flatMap_singleton]

/-- A request from its beginning on, with the turns that it has taken. The router may be another one
at each turn, since others act on it in between. -/
inductive Path (router : Router) (streamed : Bool) (request : Request) (start : Instant) :
    List (Turn β) → Session β → Prop where
  | begin : Path router streamed request start [] (begin router streamed request start).2.1
  | turn {turns : List (Turn β)} {session : Session β}
      (prior : Path router streamed request start turns session) (meanwhile : Router)
      (now : Instant) (move : Move β) :
      Path router streamed request start
        (turns ++ [{ router := meanwhile, now, session, move }])
        (session.act meanwhile now move).2.1

variable {router : Router} {now : Instant} {session : Session β} {holder : Nat}
  {log : Limiter.Log}

theorem taken_self : session.taken session = [] := by
  cases hPending : session.pending? <;> cases hStranded : session.stranded? <;>
    simp [taken, sent?, strands?, hPending, hStranded]

theorem taken_of_none {after : Session β} (hPending : after.pending? = none)
    (hStranded : after.stranded? = none) : session.taken after = [] := by
  rw [taken, sent?, strands?, hPending, hStranded, ite_self, ite_self]
  rfl

/-- Unless it strands, a session takes the place of the call that it sends out. -/
theorem taken_of_unstranded {after : Session β} (h : session.strands? after = none) :
    session.taken after = (session.sent? after).toList.map PendingCall.admission := by
  rw [taken, h]
  exact List.append_nil _

/-- A move of a session asks for one place, or returns one place of each party at most. -/
theorem limiterMoves_apart (session : Session β) (move : Move β) (holder : Nat) (now : Instant) :
    (∀ step ∈ session.limiterMoves holder now move, step.holder? = some holder) ∧
      ((session.limiterMoves holder now move).map Limiter.Move.party?).Nodup := by
  unfold limiterMoves Dispatch.stepMoves Dispatch.answerMoves settleMoves abandonMoves
  repeat' split
  all_goals simp [Limiter.Move.holder?, Limiter.Move.party?]

/-- The places that a move of a session returns can be read off its moves on the limiter. -/
theorem returns_limiterMoves (session : Session β) (move : Move β) (holder : Nat)
    (now : Instant) :
    (session.limiterMoves holder now move).flatMap (Limiter.Move.returns (place? · session)) =
      session.returns now move := by
  unfold returns limiterMoves Dispatch.stepMoves Dispatch.answerMoves
  repeat' split
  all_goals rfl

/-- A move of a session pays what it returns. -/
theorem paid_act (hPlaces : ∀ party, log.outOf holder party = (session.place? party).toList)
    (move : Move β) (now : Instant) (p : Party) (k : String) :
    (log.performAll (session.limiterMoves holder now move)).paid holder p k =
      log.paid holder p k + Limiter.costOn (session.returns now move) p k := by
  obtain ⟨hHolder, hOnce⟩ := session.limiterMoves_apart move holder now
  rw [Limiter.Log.paid_performAll hHolder hOnce fun _ _ party _ => hPlaces party,
    returns_limiterMoves]

/-- Only a step takes a place. -/
theorem taken_of_not_step {move : Move β} (hNot : ∀ random, move ≠ .step random)
    (router : Router) (now : Instant) :
    session.taken (session.act router now move).2.1 = [] := by
  cases session with
  | whole route =>
      cases move with
      | step random => exact absurd rfl (hNot random)
      | answerWhole ended => exact route.dispatch.taken_answer router now ended
      | finish =>
          simp only [act]
          split
          · exact taken_of_none rfl rfl
          · exact taken_of_none rfl rfl
          · exact taken_self
      | drop => exact taken_of_none rfl rfl
      | _ => exact taken_self
  | opening route =>
      cases move with
      | step random => exact absurd rfl (hNot random)
      | answerStream ended => exact route.dispatch.taken_answer router now ended
      | finish =>
          simp only [act]
          split
          · exact taken_of_none rfl rfl
          · exact taken_of_none rfl rfl
          · exact taken_self
      | drop => exact taken_of_none rfl rfl
      | _ => exact taken_self
  | reading stream => cases move <;> exact taken_of_none rfl rfl
  | done => cases move <;> exact taken_of_none rfl rfl

/-- A place that is granted on a deployment is the one that the step takes. -/
theorem granted_step {α : Type} (dispatch : Dispatch α) (hLimiter : log.limiter = router.limiter)
    (now : Instant) (random : RandomSource) (p : Party) (k : String) :
    (log.performAll (dispatch.stepMoves holder)).granted holder p k =
      log.granted holder p k +
        Admission.countOn (dispatch.taken (dispatch.step router now random).2) p k := by
  cases hPhase : dispatch.phase with
  | reserving looked deployment =>
      have hAnswer : (router.limiter.reserve .deployment deployment.id deployment.limits
          dispatch.request.estimate looked).2 =
            (router.reserve deployment dispatch.request.estimate looked).2 := rfl
      simp only [Dispatch.stepMoves, hPhase, Limiter.Log.performAll_cons,
        Limiter.Log.performAll_nil, Limiter.Log.granted_reserve, hLimiter, hAnswer]
      obtain ⟨_, _, hPlace, hReserve⟩ | ⟨_, _, hPlace, _, hReserve⟩ | ⟨_, _, hPlace, _, hReserve⟩ :=
        dispatch.reserve_cases router now looked deployment
      all_goals
        simp only [hPlace, Dispatch.taken, Dispatch.sent?, Dispatch.pending?, Dispatch.strands?,
          Dispatch.stranded?, Dispatch.step, hPhase, hReserve]
        rfl
  | calling call | finished outcome | halted stranded =>
      have hSuspended : dispatch.isSuspended = true := by rw [Dispatch.isSuspended, hPhase]
      rw [Dispatch.step_of_suspended hSuspended, Dispatch.taken_self, Dispatch.stepMoves, hPhase]
      rfl
  | entering | checking | selecting looked =>
      have hNot : ∀ looked deployment, dispatch.phase ≠ .reserving looked deployment := by
        simp [hPhase]
      have hPlace := (Dispatch.step_frame hNot router now random).2
      rw [hPhase] at hPlace
      rw [Dispatch.taken_of_place?_none hPlace, Dispatch.stepMoves, hPhase]
      rfl

/-- Only a step may take a place. All other moves give back. -/
theorem givesBack_limiterMoves {move : Move β} (hNot : ∀ random, move ≠ .step random)
    (session : Session β) (holder : Nat) (now : Instant) :
    ∀ step ∈ session.limiterMoves holder now move, step.givesBack = true := by
  unfold limiterMoves Dispatch.answerMoves settleMoves abandonMoves
  split
  case h_1 | h_4 => exact absurd rfl (hNot _)
  all_goals
    repeat' split
    all_goals simp [Limiter.Move.givesBack]

/-- A move of a session is granted the place that it takes. -/
theorem granted_act (hLimiter : log.limiter = router.limiter) (session : Session β)
    (move : Move β) (now : Instant) (p : Party) (k : String) :
    (log.performAll (session.limiterMoves holder now move)).granted holder p k =
      log.granted holder p k +
        Admission.countOn (session.taken (session.act router now move).2.1) p k := by
  by_cases hStep : ∃ random, move = .step random
  · obtain ⟨random, rfl⟩ := hStep
    cases session with
    | whole route => exact granted_step route.dispatch hLimiter now random p k
    | opening route => exact granted_step route.dispatch hLimiter now random p k
    | reading stream => rfl
    | done => rfl
  · have hNot : ∀ random, move ≠ .step random := fun random hSame => hStep ⟨random, hSame⟩
    rw [taken_of_not_step hNot,
      Limiter.Log.granted_performAll (givesBack_limiterMoves hNot session holder now)]
    rfl

end Session

/-! ## A request among others -/

namespace Gateway

variable {β : Type} {settings : Settings} {before gateway : Gateway β} {streamed : Bool}
  {request : Request} {start : Instant} {turns : List (Session.Turn β)}

/-- A gateway in which a request is followed from its beginning on, with the turns that it has
taken. Between them others take theirs, begin or are dropped, and whoever manages the router may do
to it what they like. -/
inductive Follows (before : Gateway β) (streamed : Bool) (request : Request) (start : Instant) :
    List (Session.Turn β) → Gateway β → Prop where
  | begin : Follows before streamed request start [] (before.begin streamed request start)
  | turn {turns : List (Session.Turn β)} {gateway : Gateway β} {session : Session β}
      (prior : Follows before streamed request start turns gateway)
      (hSession : gateway.sessions[before.sessions.length]? = some session)
      (move : Session.Move β) (now : Instant) :
      Follows before streamed request start
        (turns ++ [{ router := gateway.router, now, session, move }])
        (gateway.act before.sessions.length move now)
  | actOther {turns : List (Session.Turn β)} {gateway : Gateway β}
      (prior : Follows before streamed request start turns gateway) (number : Nat)
      (hOther : number ≠ before.sessions.length) (move : Session.Move β) (now : Instant) :
      Follows before streamed request start turns (gateway.act number move now)
  | beginOther {turns : List (Session.Turn β)} {gateway : Gateway β}
      (prior : Follows before streamed request start turns gateway) (another : Bool)
      (other : Request) (now : Instant) :
      Follows before streamed request start turns (gateway.begin another other now)
  | manage {turns : List (Session.Turn β)} {gateway : Gateway β}
      (prior : Follows before streamed request start turns gateway) (router : Router)
      (ids : List String) (hLimiter : router.limiter = gateway.router.limiter.forgetAll ids) :
      Follows before streamed request start turns
        { gateway with router, history := gateway.history ++ ids.map Limiter.Move.forget }

/-- A gateway that a request is followed through is one that can be reached. -/
theorem Follows.reachable (hBefore : Reachable settings before)
    (h : Follows before streamed request start turns gateway) : Reachable settings gateway := by
  induction h with
  | begin => exact hBefore.begin streamed request start
  | turn prior hSession move now ih => exact ih.act _ move now
  | actOther prior number hOther move now ih => exact ih.act number move now
  | beginOther prior another other now ih => exact ih.begin another other now
  | manage prior router ids hLimiter ih => exact ih.manage router ids hLimiter

/-- The session of the request is the one that its turns lead to. -/
theorem Follows.path (h : Follows before streamed request start turns gateway) :
    ∃ session, gateway.sessions[before.sessions.length]? = some session ∧
      Session.Path before.router streamed request start turns session := by
  induction h with
  | begin => exact ⟨_, List.getElem?_concat_length .., .begin⟩
  | turn prior hSession move now ih =>
      obtain ⟨session, hSame, hPath⟩ := ih
      cases hSession.symm.trans hSame
      refine ⟨_, ?_, hPath.turn _ now move⟩
      rw [(act_of_some hSession move now).2, if_pos rfl]
  | @actOther turns gateway prior number hOther move now ih =>
      obtain ⟨session, hSession, hPath⟩ := ih
      refine ⟨session, ?_, hPath⟩
      cases hActs : gateway.sessions[number]? with
      | none => rw [act_of_none hActs]; exact hSession
      | some acting => rw [(act_of_some hActs move now).2, if_neg hOther.symm]; exact hSession
  | beginOther prior another other now ih =>
      obtain ⟨session, hSession, hPath⟩ := ih
      refine ⟨session, ?_, hPath⟩
      exact (List.getElem?_append_left (List.getElem?_eq_some_iff.mp hSession).1).trans hSession
  | manage prior router ids hLimiter ih => exact ih

/-- A move of a session is written into the log of the limiter with its holder. -/
theorem log_act {number : Nat} {session : Session β}
    (hSession : gateway.sessions[number]? = some session) (move : Session.Move β) (now : Instant) :
    (gateway.act number move now).log settings =
      (gateway.log settings).performAll (session.limiterMoves number now move) := by
  rw [Gateway.act, hSession, log_append]

/-- So is the beginning of a session, under the number that it gets. -/
theorem log_begin (gateway : Gateway β) (streamed : Bool) (request : Request) (now : Instant) :
    (gateway.begin streamed request now).log settings =
      (gateway.log settings).performAll
        (Session.beginMoves gateway.sessions.length gateway.router request now) := by
  rw [Gateway.begin, log_append]

theorem holder?_beginMoves (holder : Nat) (router : Router) (request : Request) (now : Instant) :
    ∀ step ∈ Session.beginMoves holder router request now, step.holder? = some holder := by
  unfold Session.beginMoves
  repeat' split
  all_goals simp [Limiter.Move.holder?]

theorem holder?_forget (ids : List String) :
    ∀ step ∈ ids.map Limiter.Move.forget, step.holder? = none := by
  simp [Limiter.Move.holder?]

/-- Nobody has a place who has not begun. -/
theorem Reachable.holder_lt (h : Reachable settings gateway) :
    ∀ grant ∈ (gateway.log settings).grants, grant.holder < gateway.sessions.length := by
  induction h with
  | start => exact List.forall_mem_nil _
  | manage prior router ids hLimiter ih =>
      intro grant hMem
      rw [log_append] at hMem
      refine ih grant (Limiter.Log.mem_of_mem_performAll (fun step hStep => ?_) hMem)
      rw [holder?_forget ids step hStep]
      nofun
  | @begin gateway prior streamed request now ih =>
      intro grant hMem
      have hLength : (gateway.begin streamed request now).sessions.length =
          gateway.sessions.length + 1 := List.length_append
      by_cases hNew : grant.holder = gateway.sessions.length
      · omega
      · rw [log_begin] at hMem
        have hOld := ih grant <| Limiter.Log.mem_of_mem_performAll (fun step hStep hHolder =>
          hNew (Option.some.inj (hHolder.symm.trans (holder?_beginMoves _ _ _ _ step hStep)))) hMem
        omega
  | @act gateway prior number move now ih =>
      cases hSession : gateway.sessions[number]? with
      | none => rw [act_of_none hSession]; exact ih
      | some session =>
          intro grant hMem
          have hLength : (gateway.act number move now).sessions.length =
              gateway.sessions.length := by rw [Gateway.act, hSession]; exact List.length_set
          have hLess := (List.getElem?_eq_some_iff.mp hSession).1
          by_cases hOwn : grant.holder = number
          · omega
          · rw [log_act hSession] at hMem
            have hOld := ih grant <| Limiter.Log.mem_of_mem_performAll (fun step hStep hHolder =>
              hOwn (Option.some.inj (hHolder.symm.trans
                ((session.limiterMoves_apart move number now).1 step hStep)))) hMem
            omega

end Gateway

/-- The place of the caller with which a request begins, if it needs one and gets it. -/
def Router.callerPlace? (router : Router) (request : Request) (now : Instant) : Option Admission :=
  (router.reserveCaller request now).2.toOption.join

theorem Admission.countOn_append (first second : List Admission) (party : Party) (key : String) :
    countOn (first ++ second) party key = countOn first party key + countOn second party key :=
  List.countP_append

namespace Limiter.Log

/-- The place of a caller is granted as the session begins, and nothing has been paid. -/
theorem own_beginMoves {log : Log} {router : Router} (hLimiter : log.limiter = router.limiter)
    (holder : Nat) (request : Request) (now : Instant) (p : Party) (k : String) :
    (log.performAll (Session.beginMoves holder router request now)).paid holder p k =
        log.paid holder p k ∧
      (log.performAll (Session.beginMoves holder router request now)).granted holder p k =
        log.granted holder p k +
          Admission.countOn (router.callerPlace? request now).toList p k := by
  unfold Session.beginMoves Router.callerPlace? Router.reserveCaller
  cases request.caller with
  | none => exact ⟨rfl, rfl⟩
  | some caller =>
      dsimp only
      cases router.callerLimits.get? caller with
      | none => exact ⟨rfl, rfl⟩
      | some limits =>
          refine ⟨paid_reserve .., (granted_reserve ..).trans ?_⟩
          rw [hLimiter]
          dsimp only
          rcases router.limiter.reserve .caller caller limits request.estimate now with
            ⟨limiter, refusal | admission⟩ <;> rfl

end Limiter.Log

namespace Gateway

variable {β : Type} {settings : Settings} {before gateway : Gateway β} {streamed : Bool}
  {request : Request} {start : Instant} {turns : List (Session.Turn β)}

/-- A session that is still to begin has been granted nothing and has paid nothing. -/
theorem Reachable.own_eq_zero (h : Reachable settings gateway) (p : Party) (k : String) :
    (gateway.log settings).paid gateway.sessions.length p k = 0 ∧
      (gateway.log settings).granted gateway.sessions.length p k = 0 := by
  have hNone : ∀ grant ∈ (gateway.log settings).grants,
      Limiter.Grant.isOwn gateway.sessions.length p k grant = false := by
    intro grant hMem
    have hNe := beq_eq_false_iff_ne.mpr (Nat.ne_of_lt (h.holder_lt grant hMem))
    rw [Limiter.Grant.isOwn, hNe, Bool.false_and]
  exact ⟨Limiter.Grant.sumOf_eq_zero hNone, Limiter.Grant.sumOf_eq_zero hNone⟩

/-- What a request was granted are the place of its caller and those that it has taken on
deployments, and it has paid for the places that it has returned. -/
theorem Follows.own (hBefore : Reachable settings before)
    (h : Follows before streamed request start turns gateway) (p : Party) (k : String) :
    (gateway.log settings).paid before.sessions.length p k =
        Limiter.costOn (turns.flatMap Session.Turn.returns) p k ∧
      (gateway.log settings).granted before.sessions.length p k =
        Admission.countOn ((before.router.callerPlace? request start).toList ++
          turns.flatMap Session.Turn.taken) p k := by
  -- The steps of others are in other names.
  have hOthers : ∀ {gateway : Gateway β} {moves : List Limiter.Move},
      (∀ step ∈ moves, step.holder? ≠ some before.sessions.length) →
      ((gateway.log settings).performAll moves).paid before.sessions.length p k =
          (gateway.log settings).paid before.sessions.length p k ∧
        ((gateway.log settings).performAll moves).granted before.sessions.length p k =
          (gateway.log settings).granted before.sessions.length p k := fun hNot =>
    Limiter.Log.own_performAll hNot p k
  induction h with
  | begin =>
      obtain ⟨hPaid, hGranted⟩ := hBefore.own_eq_zero p k
      obtain ⟨hPaidSame, hGrantedNext⟩ := Limiter.Log.own_beginMoves hBefore.balanced.limiter
        before.sessions.length request start p k
      rw [log_begin, hPaidSame, hGrantedNext, hPaid, hGranted]
      exact ⟨rfl, by simp⟩
  | @turn turns gateway session prior hSession move now ih =>
      obtain ⟨hPaid, hGranted⟩ := ih
      have hBalanced := (prior.reachable hBefore).balanced
      have hPlaces : ∀ party, (gateway.log settings).outOf before.sessions.length party =
          (session.place? party).toList := fun party => by
        rw [hBalanced.places, hSession, Option.bind_some]
      rw [log_act hSession, Session.paid_act hPlaces,
        Session.granted_act hBalanced.limiter session, hPaid, hGranted]
      constructor
      · rw [Session.flatMap_concat, Limiter.costOn_append]
        rfl
      · rw [Session.flatMap_concat, ← List.append_assoc]
        exact (Admission.countOn_append ..).symm
  | @actOther turns gateway prior number hOther move now ih =>
      cases hActs : gateway.sessions[number]? with
      | none => rw [act_of_none hActs]; exact ih
      | some acting =>
          obtain ⟨hPaid, hGranted⟩ := @hOthers gateway _ fun step hStep hHolder =>
            hOther (Option.some.inj
              (((acting.limiterMoves_apart move number now).1 step hStep).symm.trans hHolder))
          rw [log_act hActs, hPaid, hGranted]
          exact ih
  | @beginOther turns gateway prior another other now ih =>
      obtain ⟨session, hSession, _⟩ := prior.path
      have hLess := (List.getElem?_eq_some_iff.mp hSession).1
      obtain ⟨hPaid, hGranted⟩ := @hOthers gateway _ fun step hStep hHolder =>
        Nat.ne_of_gt hLess (Option.some.inj
          ((holder?_beginMoves _ gateway.router other now step hStep).symm.trans hHolder))
      rw [log_begin, hPaid, hGranted]
      exact ih
  | @manage turns gateway prior router ids hLimiter ih =>
      obtain ⟨hPaid, hGranted⟩ := @hOthers gateway _ fun step hStep hHolder => by
        rw [holder?_forget ids step hStep] at hHolder
        cases hHolder
      rw [log_append, hPaid, hGranted]
      exact ih

/-- Moves of several sessions, one after the other, with the turns that one of them takes. -/
def along (number : Nat) :
    List (Nat × Session.Move β × Instant) → List (Session.Turn β) × Gateway β →
      List (Session.Turn β) × Gateway β
  | [], state => state
  | (mover, move, now) :: rest, (turns, gateway) =>
      let taken := if mover = number then gateway.sessions[number]?.toList else []
      along number rest
        (turns ++ taken.map fun session => { router := gateway.router, now, session, move },
          gateway.act mover move now)

/-- A list of moves is one way for a request to be followed. -/
theorem Follows.along (moves : List (Nat × Session.Move β × Instant))
    {state : List (Session.Turn β) × Gateway β}
    (h : Follows before streamed request start state.1 state.2) :
    Follows before streamed request start (along before.sessions.length moves state).1
      (along before.sessions.length moves state).2 := by
  induction moves generalizing state with
  | nil => exact h
  | cons first rest ih =>
      obtain ⟨mover, move, now⟩ := first
      obtain ⟨turns, gateway⟩ := state
      obtain ⟨session, hSession, _⟩ := h.path
      by_cases hOwn : mover = before.sessions.length
      · have hTurn := h.turn hSession move now
        refine ih ?_
        simpa [hOwn, hSession] using hTurn
      · have hOther := h.actOther mover hOwn move now
        refine ih ?_
        simpa [hOwn] using hOther

end Gateway

end DeploymentRouting
