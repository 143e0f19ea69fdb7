import DeploymentRouting.Proofs.Gateway.Attribution
import DeploymentRouting.Proofs.Stream.Delivery
/-!
When a backend is asked for the next item of a stream. Its answers are kept stream by stream, and
what a backend would say after its end is left open, since it need not say anything then. After
an error, a deadline or an end that comes after a chunk it is never asked again. A stream that is
empty is the exception: its end is read while it is opened and is not remembered, and its reader
asks once more.
-/
namespace DeploymentRouting

/-- What a backend has said in one stream, in order. -/
abbrev Answers := List Arrival

namespace Answers

/-- Answers after each of which a stream may be asked for more. Apart from chunks that is the end
of a stream that is empty. -/
def GoOn (answers : Answers) : Prop :=
  ∀ earlier answer later, answers = earlier ++ answer :: later →
    (∃ chunk, answer = .chunk chunk) ∨ answer = .ended ∧ earlier = []

/-- Answers of which only the last one may be such that nothing should come after it. -/
def Orderly (answers : Answers) : Prop :=
  ∀ earlier answer later, answers = earlier ++ answer :: later → later ≠ [] →
    (∃ chunk, answer = .chunk chunk) ∨ answer = .ended ∧ earlier = []

variable {answers : Answers}

theorem GoOn.orderly (h : answers.GoOn) : answers.Orderly :=
  fun earlier answer later hAnswers _ => h earlier answer later hAnswers

/-- One more answer is the last one. -/
theorem GoOn.concat (h : answers.GoOn) (arrival : Arrival) : Orderly (answers ++ [arrival]) := by
  intro earlier answer later hAnswers hMore
  rcases List.eq_nil_or_concat later with rfl | ⟨rest, last, rfl⟩
  · exact absurd rfl hMore
  · rw [List.concat_eq_append, ← List.cons_append, ← List.append_assoc] at hAnswers
    exact h earlier answer rest (List.append_inj' hAnswers rfl).1

theorem GoOn.chunk (h : answers.GoOn) (chunk : Chunk) : GoOn (answers ++ [.chunk chunk]) := by
  intro earlier answer later hAnswers
  rcases List.eq_nil_or_concat later with rfl | ⟨rest, last, rfl⟩
  · obtain ⟨_, hLast⟩ := List.append_inj' hAnswers rfl
    exact .inl ⟨chunk, (List.singleton_inj.mp hLast).symm⟩
  · exact h.concat (.chunk chunk) earlier answer _ hAnswers (by simp)

theorem orderly_singleton (arrival : Arrival) : Orderly [arrival] :=
  have hNone : GoOn [] := fun earlier _ _ h => by simp at h
  hNone.concat arrival

end Answers

/-- What a backend has said of a stream when its call is at its end. A call that failed before it
had a stream counts like one whose stream began with the error. -/
def CallEnd.answers {β : Type} : CallEnd (Option Chunk × β) → Answers
  | .success (some chunk, _) => [.chunk chunk]
  | .success (none, _) => [.ended]
  | .failure error => [.error error]
  | .cutOff => [.overdue]

/-- The first item, read while the stream is opened, leaves the stream fit to be read. -/
theorem CallEnd.goOn_answers {β : Type} (value : Option Chunk × β) :
    (CallEnd.success value).answers.GoOn := by
  obtain ⟨first, rest⟩ := value
  intro earlier answer later hAnswers
  have hAlone : earlier = [] ∧ [answer] = (CallEnd.success (first, rest)).answers := by
    cases first <;> cases earlier <;> simp_all [CallEnd.answers]
  obtain ⟨rfl, hAnswer⟩ := hAlone
  cases first with
  | none => exact .inr ⟨List.singleton_inj.mp hAnswer, rfl⟩
  | some chunk => exact .inl ⟨chunk, List.singleton_inj.mp hAnswer⟩

/-- Whether a stream will ask its backend for more. -/
def RoutedStream.isOpen (stream : RoutedStream) : Bool :=
  match stream.phase with
  | .opening _ | .reading => true
  | .closing | .closed => false

namespace Session

variable {β : Type} {session : Session β} {record : List Answers}

/-- The answers of all streams of a request, the last stream first, after a move. -/
def heard (record : List Answers) : Session β → Move β → List Answers
  | .opening route, .answerStream ended =>
      if route.dispatch.pending?.isSome then ended.answers :: record else record
  | .reading stream, .read arrival =>
      if stream.asksBackend then
        match record with
        | [] => [[arrival]]
        | answers :: earlier => (answers ++ [arrival]) :: earlier
      else record
  | _, _ => record

/-- The sessions of a request, with the answers of its streams. Every answer may be any, and the
router may be another one at each move. -/
inductive Hears : List Answers → Session β → Prop where
  | begin (router : Router) (streamed : Bool) (request : Request) (now : Instant) :
      Hears [] (begin router streamed request now).2.1
  | act {record : List Answers} {session : Session β} (prior : Hears record session)
      (router : Router) (now : Instant) (move : Move β) :
      Hears (session.heard record move) (session.act router now move).2.1

/-- The stream at hand may go on. -/
def Goes (record : List Answers) : Prop :=
  ∃ answers earlier, record = answers :: earlier ∧ answers.GoOn

/-- A stream that is read, or is about to be, may go on as long as it asks its backend. -/
def Attends (record : List Answers) : Session β → Prop
  | .opening route => ∀ delivery, route.dispatch.phase = .finished (.ok delivery) → Goes record
  | .reading stream => stream.isOpen = true → Goes record
  | .whole _ | .done => True

/-- All streams are orderly, and the one at hand goes on only if it may. -/
structure Listens (record : List Answers) (session : Session β) : Prop where
  orderly : ∀ answers ∈ record, answers.Orderly
  attends : session.Attends record

theorem Goes.heard {stream : RoutedStream} (h : Goes record) (arrival : Arrival)
    (hOrderly : ∀ answers ∈ record, answers.Orderly) (hAsks : stream.asksBackend = true) :
    (∀ answers ∈ (reading stream : Session β).heard record (.read arrival), answers.Orderly) ∧
      ∀ chunk, arrival = .chunk chunk →
        Goes ((reading stream : Session β).heard record (.read arrival)) := by
  obtain ⟨answers, earlier, rfl, hGoOn⟩ := h
  simp only [Session.heard, hAsks, if_true]
  refine ⟨List.forall_mem_cons.mpr ⟨hGoOn.concat arrival, (List.forall_mem_cons.mp hOrderly).2⟩, ?_⟩
  rintro chunk rfl
  exact ⟨_, earlier, rfl, hGoOn.chunk chunk⟩

theorem listens_begin (router : Router) (streamed : Bool) (request : Request) (now : Instant) :
    Listens [] (begin (β := β) router streamed request now).2.1 := by
  refine ⟨List.forall_mem_nil _, begin_cases trivial (fun _ => trivial) (fun _ => ?_) streamed⟩
  intro delivery hPhase
  simp only [Dispatch.begin] at hPhase
  split at hPhase <;> cases hPhase

theorem Listens.answer {route : Route (Option Chunk × β)} (h : (opening route).Listens record)
    (router : Router) (now : Instant) (ended : CallEnd (Option Chunk × β)) :
    Listens ((opening route).heard record (.answerStream ended))
      (opening { route with dispatch := (route.dispatch.answer router now ended).2 }) := by
  cases hPhase : route.dispatch.phase with
  | calling call =>
      have hHeard : (opening route).heard record (.answerStream ended) =
          ended.answers :: record := by
        simp only [heard, Dispatch.pending?, hPhase, Option.isSome_some, if_true]
      rw [hHeard]
      refine ⟨List.forall_mem_cons.mpr ⟨?_, h.orderly⟩, fun delivery hServed => ?_⟩
      · cases ended with
        | success value => exact (CallEnd.goOn_answers value).orderly
        | failure error => exact Answers.orderly_singleton _
        | cutOff => exact Answers.orderly_singleton _
      · obtain ⟨value, rfl, _⟩ := Dispatch.served_of_answer hPhase hServed
        exact ⟨_, record, rfl, CallEnd.goOn_answers value⟩
  | _ =>
      simp only [heard, Dispatch.pending?, Dispatch.answer, hPhase]
      exact h

theorem Listens.step {route : Route (Option Chunk × β)} (h : (opening route).Listens record)
    (router : Router) (now : Instant) (random : RandomSource) :
    Listens record
      (opening { route with dispatch := (route.dispatch.step router now random).2 }) := by
  cases hActive : route.dispatch.isSuspended with
  | true =>
      rw [Dispatch.step_of_suspended hActive]
      exact h
  | false =>
      exact ⟨h.orderly, fun delivery hServed =>
        absurd hServed (Dispatch.phase_step_ne_ok hActive router now random delivery)⟩

/-- A stream that asks its backend goes on only if it gets a chunk. -/
theorem Listens.read {stream : RoutedStream} (h : (reading stream : Session β).Listens record)
    (router : Router) (now : Instant) (arrival : Arrival) :
    Listens ((reading stream : Session β).heard record (.read arrival))
      (reading (stream.read router now arrival).2.1 : Session β) := by
  cases hAsks : stream.asksBackend with
  | true =>
      have hOpen : stream.isOpen = true := by
        unfold RoutedStream.asksBackend at hAsks
        unfold RoutedStream.isOpen
        split at hAsks <;> simp_all
      obtain ⟨hOrderly, hGoes⟩ := (h.attends hOpen).heard (β := β) arrival h.orderly hAsks
      refine ⟨hOrderly, fun hStillOpen => ?_⟩
      simp only [RoutedStream.read, hAsks, if_true] at hStillOpen
      cases arrival with
      | chunk chunk => exact hGoes chunk rfl
      | error error => cases hStillOpen
      | ended => cases hStillOpen
      | overdue => cases hStillOpen
  | false =>
      have hHeard : (reading stream : Session β).heard record (.read arrival) = record := by
        simp only [heard, hAsks, Bool.false_eq_true, if_false]
      rw [hHeard]
      refine ⟨h.orderly, fun hStillOpen => h.attends ?_⟩
      simp only [RoutedStream.read, hAsks, Bool.false_eq_true, if_false] at hStillOpen
      unfold RoutedStream.poll at hStillOpen
      split at hStillOpen
      next hPhase => simp only [RoutedStream.isOpen, hPhase]
      next => cases hStillOpen
      all_goals exact hStillOpen

theorem Listens.act (h : session.Listens record) (router : Router) (now : Instant)
    (move : Move β) :
    Listens (session.heard record move) (session.act router now move).2.1 := by
  cases session with
  | whole route =>
      refine ⟨by cases move <;> exact h.orderly, ?_⟩
      cases move with
      | finish =>
          simp only [Session.act]
          split <;> trivial
      | _ => trivial
  | opening route =>
      cases move with
      | step random => exact h.step router now random
      | answerStream ended => exact h.answer router now ended
      | drop => exact ⟨h.orderly, trivial⟩
      | finish =>
          simp only [Session.act, heard]
          split
          next delivery hPhase => exact ⟨h.orderly, fun _ => h.attends delivery hPhase⟩
          · exact ⟨h.orderly, trivial⟩
          · exact h
      | _ => exact h
  | reading stream =>
      cases move with
      | read arrival => exact h.read router now arrival
      | drop => exact ⟨h.orderly, trivial⟩
      | _ => exact h
  | done => cases move <;> exact ⟨h.orderly, trivial⟩

theorem Hears.listens (h : Hears record session) : session.Listens record := by
  induction h with
  | begin router streamed request now => exact listens_begin router streamed request now
  | act prior router now move ih => exact ih.act router now move

/-- A stream is asked for more only after a chunk. It is never asked again after an error, be it
the first item or a later one, nor after it had nothing to say up to the end of the request, nor
after an end that comes behind a chunk. The one exception is a stream that is empty: when the end
is its very first answer, it may be asked once more. -/
theorem Hears.asked_again (h : Hears record session) :
    ∀ answers ∈ record, ∀ earlier answer later, answers = earlier ++ answer :: later →
      later ≠ [] → (∃ chunk, answer = .chunk chunk) ∨ answer = .ended ∧ earlier = [] :=
  h.listens.orderly

/-- A request for a stream whose call has gone out. -/
theorem hears_calling : Hears (β := Upstream) [] (.opening ⟨none, RoutedStream.openingDispatch⟩) :=
  (((Hears.begin pairRouter true Route.pairRequest 0).act pairRouter 1 (.step {})).act pairRouter 1
    (.step {})).act pairRouter 1 (.step {})

/-- After the error the reader polls twice more, and the backend is not asked. -/
theorem Hears.asked_again_broken :
    ∃ (record : List Answers) (session : Session Upstream), Hears record session ∧
      record =
        [[.chunk { payload := .null, usage := some ⟨4, 6⟩ }, .error (.server 500 "broken")]] ∧
      ∀ answers ∈ record, ∀ earlier answer later, answers = earlier ++ answer :: later →
        later ≠ [] → (∃ chunk, answer = .chunk chunk) ∨ answer = .ended ∧ earlier = [] := by
  have hOpened := (hears_calling.act pairRouter 10
    (.answerStream RoutedStream.brokenUpstream.opened)).act pairRouter 11 .finish
  have hFirst := hOpened.act pairRouter 20 (.read .ended)
  have hError := hFirst.act pairRouter 30 (.read (.error (.server 500 "broken")))
  have hLast := (hError.act pairRouter 40 (.read .ended)).act pairRouter 50 (.read .ended)
  exact ⟨_, _, hLast, rfl, hLast.asked_again⟩

/-- The reader of an empty stream asks the backend for an item that comes after its end. -/
theorem Hears.asks_beyond_end :
    ∃ (record : List Answers) (session : Session Upstream), Hears record session ∧
      ∃ answers ∈ record, ∃ earlier later,
        answers = earlier ++ .ended :: later ∧ later ≠ [] := by
  have hOpened := (hears_calling.act pairRouter 10
    (.answerStream (Upstream.opened .nil))).act pairRouter 11 .finish
  have hRead := hOpened.act pairRouter 20 (.read (Upstream.next .nil).1)
  exact ⟨_, _, hRead, [.ended, .ended], List.mem_singleton_self _, [], [.ended], rfl, by simp⟩

end Session

end DeploymentRouting
