import DeploymentRouting.Proofs.Gateway.Accounting
import DeploymentRouting.Proofs.Stream.Delivery
/-!
What a stream costs. When it has told its end, the deployment and the caller are charged with the
last usage that was handed on, and that is the cost that is reported. When its reader has dropped it
before that, both are charged with what was estimated, whatever usage has been handed on, and no
cost is reported.
-/
namespace DeploymentRouting

/-- The chunk that an item brings. -/
def StreamItem.chunk? : StreamItem → Option Chunk
  | .chunk handed => some handed
  | .error _ | .ended => none

theorem lastUsage_concat (chunks : List Chunk) (chunk? : Option Chunk) :
    lastUsage (chunks ++ chunk?.toList) = (chunk?.bind Chunk.usage).or (lastUsage chunks) := by
  cases chunk? with
  | none => simp
  | some chunk => cases hUsage : chunk.usage <;> simp [lastUsage, hUsage]

/-- The event that reports the cost of a stream that has handed on some chunks. -/
def Routed.closingEvent (request : Request) (chunks : List Chunk) (routed : Routed Unit) :
    SpendEvent where
  caller := request.caller
  deployment := routed.deployment
  model := routed.modelUsed
  tokens := chargedTokens request (lastUsage chunks)

namespace RoutedStream

variable {stream : RoutedStream} {arrival : Arrival}

/-- A stream that was opened for a request, as its reader was told. -/
structure Serves (request : Request) (callerPlace? : Option Admission) (routed : Routed Unit)
    (stream : RoutedStream) : Prop where
  caller : stream.callerAdmission = callerPlace?
  place : ∃ deployment, deployment.id = routed.deployment ∧
    stream.admission.IsFor request deployment
  deployment : stream.deployment = routed.deployment
  model : stream.modelUsed = routed.modelUsed
  request : stream.request = request

/-- An item that does not close a stream changes its phase and the usage that is known. -/
theorem read_eq (h : stream.closesOn arrival = false) (router : Router) (now : Instant) :
    ∃ phase item, stream.read router now arrival =
        (router, { stream with phase, usage := (item.chunk?.bind Chunk.usage).or stream.usage },
          item) ∧
      phase.isClosed = stream.phase.isClosed ∧
      (item = .ended ↔ stream.phase.isClosed = true) := by
  have hAsked : stream.asksBackend = true → arrival ≠ .ended →
      ∃ phase item, stream.read router now arrival =
          (router, { stream with phase, usage := (item.chunk?.bind Chunk.usage).or stream.usage },
            item) ∧
        phase.isClosed = false ∧ item ≠ .ended := by
    intro hAsks hMore
    simp only [read, hAsks, if_true]
    cases arrival with
    | chunk chunk => exact ⟨.reading, .chunk chunk, rfl, rfl, by simp⟩
    | error error => exact ⟨.closing, .error error, rfl, rfl, by simp⟩
    | overdue => exact ⟨.closing, .error _, rfl, rfl, by simp⟩
    | ended => exact absurd rfl hMore
  unfold closesOn at h
  cases hPhase : stream.phase with
  | opening first =>
      cases first with
      | some chunk =>
          refine ⟨.reading, .chunk chunk, ?_, rfl, by simp [StreamPhase.isClosed]⟩
          simp only [read, asksBackend, poll, hPhase, Bool.false_eq_true, if_false]
          rfl
      | none =>
          obtain ⟨phase, item, hRead, hOpen, hItem⟩ :=
            hAsked (by simp only [asksBackend, hPhase]) (by rintro rfl; simp [hPhase] at h)
          exact ⟨phase, item, hRead, hOpen, by simp [hItem, StreamPhase.isClosed]⟩
  | reading =>
      obtain ⟨phase, item, hRead, hOpen, hItem⟩ :=
        hAsked (by simp only [asksBackend, hPhase]) (by rintro rfl; simp [hPhase] at h)
      exact ⟨phase, item, hRead, hOpen, by simp [hItem, StreamPhase.isClosed]⟩
  | closing => simp [hPhase] at h
  | closed =>
      refine ⟨stream.phase, .ended, ?_, by rw [hPhase], by simp [StreamPhase.isClosed]⟩
      change stream.read router now arrival = (router, stream, .ended)
      simp only [read, asksBackend, poll, hPhase, Bool.false_eq_true, if_false]

end RoutedStream

namespace Session

variable {β : Type} {request : Request} {session : Session β} {router : Router} {now : Instant}
  {start : Instant} {turns : List (Turn β)} {callerPlace? : Option Admission}
  {routed : Routed Unit} {left : Nat} {ended : Bool}

/-- The chunk that is handed on with a turn. -/
def Turn.chunk? (turn : Turn β) : Option Chunk :=
  match turn.reply with
  | .item item => item.chunk?
  | _ => none

/-- What has come of a stream. Once its end is told, its cost is known, and until then some tokens
are left on its keys. -/
structure Bills (request : Request) (callerPlace? : Option Admission) (turns : List (Turn β))
    (routed : Routed Unit) (left : Nat) (ended : Bool) : Prop where
  told : ∀ other, .stream other ∈ turns.map Turn.reply → other = routed
  isEnded : .item .ended ∈ turns.map Turn.reply ↔ ended = true
  events : turns.filterMap Turn.event? =
    if ended then [routed.closingEvent request (turns.filterMap Turn.chunk?)] else []
  costs : ∀ party key, Limiter.costOn (turns.flatMap Turn.returns) party key =
    chargedOn (fun caller => callerPlace?.any (·.isOn .caller caller)) routed.deployment
      (if ended then (routed.closingEvent request (turns.filterMap Turn.chunk?)).tokens else left)
      party key

/-- What can be told of a request for a stream from the turns that it has taken. -/
def TellsStream (request : Request) (callerPlace? : Option Admission) (turns : List (Turn β)) :
    Session β → Prop
  | .opening route => Underway request callerPlace? turns route
  | .reading stream => ∃ routed, stream.Serves request callerPlace? routed ∧
      stream.usage = lastUsage (turns.filterMap Turn.chunk?) ∧
      Bills request callerPlace? turns routed 0 stream.phase.isClosed
  | .done => ∀ routed, .stream routed ∈ turns.map Turn.reply →
      ∃ ended, Bills request callerPlace? turns routed request.estimate ended
  | .whole _ => False

theorem chargedOn_zero (limited : String → Bool) (deployment : String) (party : Party)
    (key : String) : chargedOn limited deployment 0 party key = 0 := by
  cases party <;> exact ite_self _

theorem tellsStream_begin (router : Router) (request : Request) (now : Instant) :
    (begin (β := β) router true request now).2.1.TellsStream request
      (router.callerPlace? request now) [] := by
  unfold begin Route.begin Router.callerPlace?
  rcases router.reserveCaller request now with ⟨after, refusal | place⟩
  · exact fun _ hMem => absurd hMem List.not_mem_nil
  · exact underway_begin place _

theorem mem_replies_concat {turn : Turn β} {reply : Reply} :
    reply ∈ (turns ++ [turn]).map Turn.reply ↔
      reply ∈ turns.map Turn.reply ∨ turn.reply = reply := by
  simp [eq_comm]

/-- A turn with which no place comes back and nothing is reported. -/
theorem Bills.quiet {turn : Turn β} (h : Bills request callerPlace? turns routed left ended)
    (hEvent : turn.event? = none) (hReturns : turn.returns = [])
    (hStream : ∀ other, turn.reply ≠ .stream other)
    (hEnded : turn.reply = .item .ended → ended = true)
    (hChunk : ended = true → turn.chunk? = none) :
    Bills request callerPlace? (turns ++ [turn]) routed left ended where
  told other hMem :=
    (mem_replies_concat.mp hMem).elim (h.told other) fun hLast => absurd hLast (hStream other)
  isEnded := by
    rw [mem_replies_concat, h.isEnded]
    exact ⟨fun hSome => hSome.elim id hEnded, .inl⟩
  events := by
    rw [filterMap_concat, filterMap_concat, hEvent, h.events]
    cases ended with
    | false => rfl
    | true => simp [hChunk rfl]
  costs party key := by
    rw [flatMap_concat, filterMap_concat, hReturns, List.append_nil, h.costs]
    cases ended with
    | false => rfl
    | true => simp [hChunk rfl]

/-- The turn with which the places of a stream come back, at its end or before. -/
theorem Bills.settle {turn : Turn β} (h : Bills request callerPlace? turns routed 0 false)
    (hStream : ∀ other, turn.reply ≠ .stream other) (hChunk : turn.chunk? = none)
    (hEnded : turn.reply = .item .ended ↔ ended = true)
    (hEvent : turn.event? =
      if ended then some (routed.closingEvent request (turns.filterMap Turn.chunk?)) else none)
    (hCosts : ∀ party key, Limiter.costOn turn.returns party key =
      chargedOn (fun caller => callerPlace?.any (·.isOn .caller caller)) routed.deployment
        (if ended then (routed.closingEvent request (turns.filterMap Turn.chunk?)).tokens else left)
        party key) :
    Bills request callerPlace? (turns ++ [turn]) routed left ended where
  told other hMem :=
    (mem_replies_concat.mp hMem).elim (h.told other) fun hLast => absurd hLast (hStream other)
  isEnded := by
    rw [mem_replies_concat, h.isEnded, hEnded]
    simp
  events := by
    rw [filterMap_concat, filterMap_concat, h.events, hEvent, hChunk, Option.toList_none,
      List.append_nil]
    cases ended <;> rfl
  costs party key := by
    have hBefore := h.costs party key
    simp only [Bool.false_eq_true, if_false, chargedOn_zero] at hBefore
    rw [flatMap_concat, filterMap_concat, Limiter.costOn_append, hBefore, hCosts, hChunk,
      Option.toList_none, List.append_nil, Nat.zero_add]

theorem TellsStream.idle {turn : Turn β}
    (h : turn.session.TellsStream request callerPlace? turns) (hIdle : turn.IsIdle) :
    turn.next.TellsStream request callerPlace? (turns ++ [turn]) := by
  have hChunk : turn.chunk? = none := by rw [Turn.chunk?, hIdle.reply]
  have hStream : ∀ other, turn.reply ≠ .stream other := fun other hTold => by
    cases hIdle.reply.symm.trans hTold
  have hBills : ∀ {routed left ended}, Bills request callerPlace? turns routed left ended →
      Bills request callerPlace? (turns ++ [turn]) routed left ended := fun hBills =>
    hBills.quiet hIdle.event hIdle.returns hStream
      (fun hTold => by cases hIdle.reply.symm.trans hTold) fun _ => hChunk
  rw [hIdle.next]
  generalize turn.session = session at h
  cases session with
  | opening route => exact Underway.idle h hIdle
  | reading stream =>
      obtain ⟨routed, hServes, hUsage, hEarlier⟩ := h
      refine ⟨routed, hServes, ?_, hBills hEarlier⟩
      rw [filterMap_concat, hChunk, Option.toList_none, List.append_nil]
      exact hUsage
  | done =>
      intro routed hMem
      obtain ⟨ended, hEarlier⟩ := h routed ((hIdle.mem_replies (by simp)).mp hMem)
      exact ⟨ended, hBills hEarlier⟩
  | whole route => exact h

/-- A request for a stream that is over before a stream was opened. -/
theorem tellsStream_done {route : Route (Option Chunk × β)} {turn : Turn β}
    (h : Underway request callerPlace? turns route)
    (hStream : ∀ other, turn.reply ≠ .stream other) :
    (done : Session β).TellsStream request callerPlace? (turns ++ [turn]) := by
  intro routed hMem
  rcases mem_replies_concat.mp hMem with hEarlier | hLast
  · obtain ⟨teller, hTeller, hReply⟩ := List.mem_map.mp hEarlier
    cases (h.replies teller hTeller).symm.trans hReply
  · exact absurd hLast (hStream routed)

/-- A stream that has just been opened has handed on nothing and has cost nothing. -/
theorem Underway.opens {route : Route (Option Chunk × β)} {turn : Turn β}
    {delivery : Delivery (Option Chunk × β)} (h : Underway request callerPlace? turns route)
    (hServed : route.dispatch.phase = .finished (.ok delivery))
    (hReply : turn.reply = .stream routed) (hEvent : turn.event? = none)
    (hReturns : turn.returns = []) :
    (turns ++ [turn]).filterMap Turn.chunk? = [] ∧
      Bills request callerPlace? (turns ++ [turn]) routed 0 false := by
  have hFirst : ∀ {reply : Reply}, reply ∈ (turns ++ [turn]).map Turn.reply → reply ≠ .nothing →
      .stream routed = reply := fun hMem hSome =>
    hReply.symm.trans (reply_of_mem h.replies hMem hSome)
  constructor
  · have hNone : turns.filterMap Turn.chunk? = [] :=
      List.filterMap_eq_nil_iff.mpr fun earlier hMem => by rw [Turn.chunk?, h.replies earlier hMem]
    rw [filterMap_concat, hNone, Turn.chunk?, hReply]
    rfl
  · refine ⟨fun other hMem => ?_, iff_of_false (fun hMem => ?_) Bool.false_ne_true, ?_,
      fun party key => ?_⟩
    · cases hFirst hMem (by simp)
      rfl
    · cases hFirst hMem (by simp)
    · rw [filterMap_concat, h.events, hEvent]
      rfl
    · rw [flatMap_concat, hReturns, List.append_nil, h.costOn_eq_zero hServed]
      exact (chargedOn_zero ..).symm

theorem TellsStream.finish {route : Route (Option Chunk × β)}
    (h : Underway request callerPlace? turns route) (hPlaced : route.dispatch.Placed request)
    (router : Router) (now : Instant) :
    ((opening route : Session β).act router now .finish).2.1.TellsStream request callerPlace?
      (turns ++ [⟨router, now, .opening route, .finish⟩]) := by
  obtain ⟨hFor, hRequest⟩ := hPlaced
  cases hPhase : route.dispatch.phase with
  | finished outcome =>
      cases outcome with
      | ok delivery =>
          rw [hPhase] at hFor
          have hNext : ((opening route : Session β).act router now .finish).2.1 =
              .reading (.ofDelivery route.dispatch.request route.callerAdmission delivery) := by
            simp only [Session.act, hPhase]
          have hReply : Turn.reply ⟨router, now, (opening route : Session β), .finish⟩ =
              .stream (delivery.routed ()) := by
            simp only [Turn.reply, Session.act, hPhase]
          have hReturns :
              Turn.returns ⟨router, now, (opening route : Session β), .finish⟩ = [] := by
            simp only [Turn.returns, Session.returns, limiterMoves, hPhase, List.flatMap_nil]
          obtain ⟨hChunks, hBills⟩ := h.opens hPhase hReply rfl hReturns
          rw [hNext]
          refine ⟨delivery.routed (),
            ⟨h.caller, ⟨delivery.deployment, rfl, hFor⟩, rfl, rfl, hRequest⟩, ?_, hBills⟩
          rw [hChunks]
          rfl
      | error fault =>
          have hNext : ((opening route : Session β).act router now .finish).2.1 = .done := by
            simp only [Session.act, hPhase]
          rw [hNext]
          refine tellsStream_done h fun other hTold => ?_
          simp only [Turn.reply, Session.act, hPhase] at hTold
          cases hTold
  | _ =>
      refine @TellsStream.idle β request turns callerPlace? ⟨router, now, opening route, .finish⟩ h
        ⟨?_, ?_, rfl, rfl, ?_⟩
      all_goals
        simp only [Turn.next, Turn.reply, Turn.returns, Session.act, Session.returns, limiterMoves,
          hPhase, List.flatMap_nil]

/-- Until a stream closes, its places stay where they are. -/
theorem TellsStream.readOn {stream : RoutedStream} {arrival : Arrival}
    (h : (reading stream : Session β).TellsStream request callerPlace? turns)
    (hCloses : stream.closesOn arrival = false) (router : Router) (now : Instant) :
    (reading (stream.read router now arrival).2.1 : Session β).TellsStream request callerPlace?
      (turns ++ [⟨router, now, reading stream, .read arrival⟩]) := by
  obtain ⟨routed, hServes, hUsage, hBills⟩ := h
  obtain ⟨phase, item, hRead, hSame, hEnded⟩ := stream.read_eq hCloses router now
  have hReply : Turn.reply ⟨router, now, (reading stream : Session β), .read arrival⟩ =
      .item item := by
    simp only [Turn.reply, Session.act, hRead]
  have hChunk : Turn.chunk? ⟨router, now, (reading stream : Session β), .read arrival⟩ =
      item.chunk? := by
    rw [Turn.chunk?, hReply]
  rw [hRead]
  refine ⟨routed, ⟨hServes.caller, hServes.place, hServes.deployment, hServes.model,
    hServes.request⟩, ?_, ?_⟩
  · rw [filterMap_concat, lastUsage_concat, hChunk, ← hUsage]
  · dsimp only
    rw [hSame]
    refine hBills.quiet ?_ ?_ (fun other hTold => ?_) (fun hTold => ?_) fun hClosed => ?_
    · simp only [Turn.event?, Session.event?, hCloses, Bool.false_eq_true, if_false]
    · simp only [Turn.returns, Session.returns, limiterMoves, hCloses, Bool.false_eq_true,
        if_false, List.flatMap_nil]
    · cases hReply.symm.trans hTold
    · exact hEnded.mp (Reply.item.inj (hReply.symm.trans hTold))
    · rw [hChunk, hEnded.mpr hClosed]
      rfl

/-- A stream that closes returns its places with the last usage that it has handed on. -/
theorem TellsStream.readEnd {stream : RoutedStream} {arrival : Arrival}
    (h : (reading stream : Session β).TellsStream request callerPlace? turns)
    (hCloses : stream.closesOn arrival = true)
    (hCaller : ∀ place, callerPlace? = some place → place.IsForCaller request)
    (router : Router) (now : Instant) :
    (reading (stream.read router now arrival).2.1 : Session β).TellsStream request callerPlace?
      (turns ++ [⟨router, now, reading stream, .read arrival⟩]) := by
  obtain ⟨routed, hServes, hUsage, hBills⟩ := h
  have hRead := stream.read_closing hCloses router now
  have hReply : Turn.reply ⟨router, now, (reading stream : Session β), .read arrival⟩ =
      .item .ended := by
    simp only [Turn.reply, Session.act, hRead]
  have hChunk : Turn.chunk? ⟨router, now, (reading stream : Session β), .read arrival⟩ = none := by
    rw [Turn.chunk?, hReply]
    rfl
  have hOpen := RoutedStream.isClosed_of_closesOn hCloses
  have hReturns : Turn.returns ⟨router, now, (reading stream : Session β), .read arrival⟩ =
      (stream.admission, chargedTokens request stream.usage) ::
        callerPlace?.toList.map fun place => (place, chargedTokens request stream.usage) := by
    simp [Turn.returns, Session.returns, limiterMoves, hCloses, settleMoves, Limiter.Move.returns,
      place?, RoutedStream.place?, hOpen, hServes.request, hServes.caller]
  rw [hOpen] at hBills
  rw [hRead]
  refine ⟨routed, ⟨hServes.caller, hServes.place, hServes.deployment, hServes.model,
    hServes.request⟩, ?_,
    hBills.settle (fun other hTold => ?_) hChunk (iff_of_true hReply rfl) ?_ fun party key => ?_⟩
  · rw [filterMap_concat, hChunk, Option.toList_none, List.append_nil]
    exact hUsage
  · cases hReply.symm.trans hTold
  · simp only [Turn.event?, Session.event?, hCloses, if_true, hServes.request,
      hServes.deployment, hServes.model, hUsage]
    rfl
  · obtain ⟨deployment, hId, hFor⟩ := hServes.place
    rw [hReturns, hUsage, ← hId]
    exact costOn_charged hFor hCaller _ party key

/-- A stream that is dropped returns its places with the estimate, unless it has closed. -/
theorem TellsStream.drop {stream : RoutedStream}
    (h : (reading stream : Session β).TellsStream request callerPlace? turns)
    (hCaller : ∀ place, callerPlace? = some place → place.IsForCaller request)
    (router : Router) (now : Instant) :
    (done : Session β).TellsStream request callerPlace?
      (turns ++ [⟨router, now, reading stream, .drop⟩]) := by
  obtain ⟨routed, hServes, hUsage, hBills⟩ := h
  intro told hMem
  have hEarlier : .stream told ∈ turns.map Turn.reply :=
    (mem_replies_concat.mp hMem).elim id fun hLast => by cases hLast
  have hReply : Turn.reply ⟨router, now, (reading stream : Session β), .drop⟩ = .nothing := rfl
  rw [hBills.told told hEarlier]
  cases hClosed : stream.phase.isClosed with
  | true =>
      rw [hClosed] at hBills
      have hReturns : Turn.returns ⟨router, now, (reading stream : Session β), .drop⟩ = [] := by
        simp [Turn.returns, Session.returns, limiterMoves, abandonMoves, Limiter.Move.returns,
          place?, RoutedStream.place?, hClosed]
      exact ⟨true, Bills.quiet ⟨hBills.told, hBills.isEnded, hBills.events, hBills.costs⟩ rfl
        hReturns (by simp [hReply]) (by simp [hReply]) fun _ => rfl⟩
  | false =>
      rw [hClosed] at hBills
      refine ⟨false, hBills.settle (by simp [hReply]) rfl (by simp [hReply]) rfl
        fun party key => ?_⟩
      obtain ⟨deployment, hId, hFor⟩ := hServes.place
      have hReturns : Turn.returns ⟨router, now, (reading stream : Session β), .drop⟩ =
          (stream.admission, request.estimate) ::
            callerPlace?.toList.map fun place => (place, request.estimate) := by
        cases hPlace : callerPlace? with
        | none =>
            simp [Turn.returns, Session.returns, limiterMoves, abandonMoves, Limiter.Move.returns,
              place?, RoutedStream.place?, hClosed, hServes.caller, hFor.estimate, hPlace]
        | some place =>
            simp [Turn.returns, Session.returns, limiterMoves, abandonMoves, Limiter.Move.returns,
              place?, RoutedStream.place?, hClosed, hServes.caller, hFor.estimate, hPlace,
              (hCaller place hPlace).estimate]
      rw [hReturns, ← hId]
      exact costOn_charged hFor hCaller _ party key

theorem TellsStream.turn (h : session.TellsStream request callerPlace? turns)
    (hPlaced : session.Placed request)
    (hCaller : ∀ place, callerPlace? = some place → place.IsForCaller request)
    (router : Router) (now : Instant) (move : Move β) :
    (session.act router now move).2.1.TellsStream request callerPlace?
      (turns ++ [⟨router, now, session, move⟩]) := by
  cases session with
  | opening route =>
      cases move with
      | step random => exact Underway.step h rfl rfl rfl rfl
      | answerStream ended => exact Underway.answer h hPlaced rfl rfl rfl rfl
      | finish => exact TellsStream.finish h hPlaced router now
      | drop => exact tellsStream_done h fun other hTold => by cases hTold
      | answerWhole ended => exact h.idle ⟨rfl, rfl, rfl, rfl, rfl⟩
      | read arrival => exact h.idle ⟨rfl, rfl, rfl, rfl, rfl⟩
  | reading stream =>
      cases move with
      | read arrival =>
          cases hCloses : stream.closesOn arrival with
          | false => exact h.readOn hCloses router now
          | true => exact h.readEnd hCloses hCaller router now
      | drop => exact h.drop hCaller router now
      | _ => exact h.idle ⟨rfl, rfl, rfl, rfl, rfl⟩
  | done => cases move <;> exact h.idle ⟨rfl, rfl, rfl, rfl, rfl⟩
  | whole route => exact h.elim

theorem Path.tellsStream (h : Path router true request start turns session) :
    session.TellsStream request (router.callerPlace? request start) turns := by
  induction h with
  | begin => exact tellsStream_begin router request start
  | turn prior meanwhile now move ih =>
      exact ih.turn prior.placed.1 (fun _ => Router.isForCaller) meanwhile now move

/-- Whoever is told something while its request is on its way has been admitted. -/
theorem Path.admitted {streamed : Bool} (h : Path router streamed request start turns session)
    {reply : Reply} (hMem : reply ∈ turns.map Turn.reply) (hSome : reply ≠ .nothing) :
    (router.reserveCaller request start).2.toOption.isSome = true := by
  suffices hRefused : (router.reserveCaller request start).2.toOption = none →
      session = .done ∧ ∀ turn ∈ turns, turn.reply = .nothing by
    refine Option.isSome_iff_ne_none.mpr fun hNone => ?_
    obtain ⟨turn, hTurn, hReply⟩ := List.mem_map.mp hMem
    exact hSome (hReply.symm.trans ((hRefused hNone).2 turn hTurn))
  clear hMem
  intro hNone
  induction h with
  | begin =>
      refine ⟨?_, List.forall_mem_nil _⟩
      unfold Session.begin Route.begin
      rcases hReserved : router.reserveCaller request start with ⟨after, refusal | place⟩
      · cases streamed <;> rfl
      · rw [hReserved] at hNone
        cases hNone
  | turn prior meanwhile now move ih =>
      obtain ⟨rfl, hNothing⟩ := ih
      refine ⟨by cases move <;> rfl, List.forall_mem_append.mpr ⟨hNothing, ?_⟩⟩
      exact List.forall_mem_singleton.mpr (by cases move <;> rfl)

/-- A stream that has told its end has no places any more, whether it is dropped or not. -/
theorem TellsStream.settled (h : session.TellsStream request callerPlace? turns)
    (hOpened : .stream routed ∈ turns.map Turn.reply)
    (hEnded : .item .ended ∈ turns.map Turn.reply) :
    (∃ left, Bills request callerPlace? turns routed left true) ∧
      ∀ party, session.place? party = none := by
  cases session with
  | opening route =>
      obtain ⟨turn, hTurn, hReply⟩ := List.mem_map.mp hEnded
      cases (h.replies turn hTurn).symm.trans hReply
  | reading stream =>
      obtain ⟨other, _, _, hBills⟩ := h
      have hClosed := hBills.isEnded.mp hEnded
      rw [hClosed] at hBills
      rw [hBills.told routed hOpened]
      exact ⟨⟨0, hBills⟩, fun party => by simp [place?, RoutedStream.place?, hClosed]⟩
  | done =>
      obtain ⟨ended, hBills⟩ := h routed hOpened
      rw [hBills.isEnded.mp hEnded] at hBills
      exact ⟨⟨_, hBills⟩, fun _ => rfl⟩
  | whole route => exact h.elim

end Session

/-! ## Beside all others -/

namespace Gateway

variable {β : Type} {settings : Settings} {before gateway : Gateway β} {request : Request}
  {start : Instant} {turns : List (Session.Turn β)} {routed : Routed Unit}

/-- When a stream that was opened is over, what its request was counted as and charged stands beside
what all others stand for, in the window of its places. If the stream has told its end, be it after
an error or at the end of the request, the deployment and the caller are charged with the last usage
that was handed on, or else the estimate, and that is the one cost that is reported. If it was
dropped before that, both are charged with the estimate, and no cost is reported. A cost that is
reported comes into the queue of the router behind all that wait there, if there is room. -/
theorem Follows.stream_costs (hBefore : Reachable settings before)
    (h : Follows before true request start turns gateway)
    (hOpened : .stream routed ∈ turns.map Session.Turn.reply) :
    let number := before.sessions.length
    let limited := before.router.limits request
    let calls := turns.filterMap Session.Turn.sent?
    let event := routed.closingEvent request (turns.filterMap Session.Turn.chunk?)
    (.item .ended ∈ turns.map Session.Turn.reply →
        turns.filterMap Session.Turn.event? = [event] ∧
          gateway.Shows settings number (countedOn limited calls)
            (chargedOn limited routed.deployment event.tokens)) ∧
      (.item .ended ∉ turns.map Session.Turn.reply → gateway.sessions[number]? = some .done →
        turns.filterMap Session.Turn.event? = [] ∧
          gateway.Shows settings number (countedOn limited calls)
            (chargedOn limited routed.deployment request.estimate)) ∧
      ∀ turn ∈ turns, turn.after.spend = (turn.router.notifySome turn.event?).spend ∧
        Option.Rel (SpendQueue.Takes turn.event?) turn.router.spend turn.after.spend := by
  intro number limited calls event
  obtain ⟨session, hSession, hPath⟩ := h.path
  have hTells := hPath.tellsStream
  have hAdmitted := hPath.admitted hOpened (by simp)
  have hLimited := Router.callerPlace?_any hAdmitted
  refine ⟨fun hEnded => ?_, fun hOpen hDone => ?_,
    fun turn _ => ⟨turn.session.spend_act turn.router turn.now turn.move,
      turn.session.takes_act turn.router turn.now turn.move⟩⟩
  · obtain ⟨⟨left, hBills⟩, hBack⟩ := hTells.settled hOpened hEnded
    refine ⟨hBills.events, h.shows hBefore hAdmitted hSession hOpened (by simp) hBack
      fun party key => ?_⟩
    rw [hBills.costs party key, hLimited]
    rfl
  · cases hSession.symm.trans hDone
    obtain ⟨ended, hBills⟩ := hTells routed hOpened
    have hNotEnded : ended = false :=
      Bool.eq_false_iff.mpr fun hEnded => hOpen (hBills.isEnded.mpr hEnded)
    rw [hNotEnded] at hBills
    refine ⟨hBills.events, h.shows hBefore hAdmitted hSession hOpened (by simp) (fun _ => rfl)
      fun party key => ?_⟩
    rw [hBills.costs party key, hLimited]
    rfl

/-- The call of the first request is out while the second one has its stream, whose first chunk
tells a usage. -/
def usageMoves : List (Nat × Session.Move Unit × Instant) :=
  [(1, .step {}, 1), (1, .step {}, 2), (1, .step {}, 3), (0, .step {}, 4), (0, .step {}, 5),
    (0, .step {}, 6),
    (1, .answerStream (.success (some { payload := .null, usage := some ⟨4, 6⟩ }, ())), 10),
    (1, .finish, 11), (1, .read .ended, 12)]

/-- The run that goes on from there. -/
def usageRun (moves : List (Nat × Session.Move Unit × Instant)) :
    List (Session.Turn Unit) × Gateway Unit :=
  along 1 (usageMoves ++ moves) ([], sharedStart.begin true (sharedCaller 7) 0)

theorem follows_usageRun (moves : List (Nat × Session.Move Unit × Instant)) :
    Follows sharedStart true (sharedCaller 7) 0 (usageRun moves).1 (usageRun moves).2 :=
  Follows.begin.along (usageMoves ++ moves)

/-- The stream breaks off, and its reader asks on. -/
def brokenEnd : List (Nat × Session.Move Unit × Instant) :=
  [(1, .read (.error (.server 500 "broken")), 13), (1, .read .ended, 14)]

/-- Read on to its end, behind an error, the stream costs the ten tokens that it has told, beside
the five of the other request. -/
theorem Follows.stream_costs_ended :
    ∃ (turns : List (Session.Turn Unit)) (gateway : Gateway Unit),
      Follows sharedStart true (sharedCaller 7) 0 turns gateway ∧
        turns.filterMap Session.Turn.event? =
          [{ caller := some "c", deployment := "d1", model := "m", tokens := 10 }] ∧
        (gateway.router.limiter.load .deployment "d1" 30).tokens = 0 + 10 ∧
        (gateway.router.limiter.load .caller "c" 30).tokens = 5 + 10 ∧
        gateway.router.spend.map SpendQueue.waiting =
          some [{ caller := some "c", deployment := "d1", model := "m", tokens := 10 }] := by
  have hFollows := follows_usageRun brokenEnd
  have hOpened : .stream (Routed.mk () "d1" "m" 1 false 10) ∈
      (usageRun brokenEnd).1.map Session.Turn.reply := List.mem_of_getElem? (i := 4) rfl
  have hEnded : .item .ended ∈ (usageRun brokenEnd).1.map Session.Turn.reply :=
    List.mem_of_getElem? (i := 7) rfl
  obtain ⟨hSettled, _⟩ := hFollows.stream_costs reachable_sharedStart hOpened
  obtain ⟨hEvents, hShows⟩ := hSettled hEnded
  obtain ⟨_, hServed⟩ := hShows .deployment "d1" 30 (by decide +kernel)
  obtain ⟨_, hCaller⟩ := hShows .caller "c" 30 (by decide +kernel)
  refine ⟨_, _, hFollows, hEvents.trans ?_, hServed.trans ?_, hCaller.trans ?_, ?_⟩
  all_goals decide +kernel

/-- Dropped after the same chunk, the stream costs the seven tokens that were estimated, for its
deployment and for its caller, and nothing is reported. -/
theorem Follows.told_usage_lost :
    ∃ (turns : List (Session.Turn Unit)) (gateway : Gateway Unit),
      Follows sharedStart true (sharedCaller 7) 0 turns gateway ∧
        gateway.sessions[1]? = some .done ∧
        (gateway.log { strategy := .roundRobin }).InWindow 1 .deployment "d1" ∧
        (gateway.log { strategy := .roundRobin }).InWindow 1 .caller "c" ∧
        lastUsage (turns.filterMap Session.Turn.chunk?) = some ⟨4, 6⟩ ∧
        turns.filterMap Session.Turn.event? = [] ∧
        gateway.router.spend.map SpendQueue.waiting = some [] ∧
        (gateway.router.limiter.load .deployment "d1" 30).tokens = 0 + 7 ∧
        (gateway.router.limiter.load .caller "c" 30).tokens = 5 + 7 := by
  refine ⟨_, _, follows_usageRun [(1, .drop, 13)], ?_, ?_, ?_, ?_, ?_, ?_, ?_, ?_⟩
  · rfl
  all_goals decide +kernel

end Gateway

end DeploymentRouting
