import DeploymentRouting.Stream
import Mathlib.Data.Seq.Basic
/-!
How a routed stream is read. What a backend has to say is a sequence of items, with or without an
end. A reader polls whenever it likes. The backend takes its time for each item, and others act
on the router in between, so that it may be another one at each poll.
-/
namespace DeploymentRouting

/-- What a backend says in a stream. At its end it says that there is no more, as often as it is
asked. -/
abbrev Upstream := Stream'.Seq (Except BackendError Chunk)

namespace Upstream

/-- The next item, and what comes after it. -/
def next (upstream : Upstream) : Arrival × Upstream :=
  match upstream.destruct with
  | none => (.ended, upstream)
  | some (.ok chunk, rest) => (.chunk chunk, rest)
  | some (.error error, rest) => (.error error, rest)

/-- How the call for a stream ends when its first item is there. -/
def opened (upstream : Upstream) : CallEnd (Option Chunk × Upstream) :=
  match upstream.destruct with
  | none => .success (none, upstream)
  | some (.ok chunk, rest) => .success (some chunk, rest)
  | some (.error error, _) => .failure error

/-- Some chunks, and after them what is left. -/
def after (chunks : List Chunk) (rest : Upstream) : Upstream :=
  (Stream'.Seq.ofList (chunks.map Except.ok)).append rest

variable {upstream : Upstream} {value : Option Chunk × Upstream}

@[simp] theorem after_nil (rest : Upstream) : after [] rest = rest := by
  rw [after, List.map_nil, Stream'.Seq.ofList_nil, Stream'.Seq.nil_append]

@[simp] theorem after_cons (chunk : Chunk) (chunks : List Chunk) (rest : Upstream) :
    after (chunk :: chunks) rest = .cons (.ok chunk) (after chunks rest) := by
  rw [after, List.map_cons, Stream'.Seq.ofList_cons, Stream'.Seq.cons_append]
  rfl

/-- A stream that is opened has handed over its first chunk, or is at its end. -/
theorem eq_of_opened (h : upstream.opened = .success value) :
    (∃ chunk, value.1 = some chunk ∧ upstream = .cons (.ok chunk) value.2) ∨
      value.1 = none ∧ upstream = .nil ∧ value.2 = .nil := by
  unfold opened at h
  split at h
  next hNone =>
    cases h
    have hNil := Stream'.Seq.destruct_eq_none hNone
    exact .inr ⟨rfl, hNil, hNil⟩
  next chunk rest hSome =>
    cases h
    exact .inl ⟨chunk, rfl, Stream'.Seq.destruct_eq_cons hSome⟩
  next => cases h

theorem ofList_eq_cons {items : List (Except BackendError Chunk)}
    {item : Except BackendError Chunk} {rest : Upstream}
    (h : Stream'.Seq.ofList items = .cons item rest) :
    ∃ left, items = item :: left ∧ rest = .ofList left := by
  cases items with
  | nil => exact absurd h.symm Stream'.Seq.cons_ne_nil
  | cons other left =>
      rw [Stream'.Seq.ofList_cons] at h
      obtain ⟨hItem, hRest⟩ := Stream'.Seq.cons_eq_cons.mp h
      exact ⟨left, hItem ▸ rfl, hRest.symm⟩

end Upstream

/-- One poll. An item that never comes has no waiting time. -/
structure Poll where
  since : Instant
  /-- How long the backend takes for its next item, if it is asked for it. -/
  wait : Option Duration
  /-- The router when the poll is answered. -/
  router : Router

namespace Poll

/-- Whether the item is not there at the end of the request, nor at once. -/
def isLate (poll : Poll) (deadline : Instant) : Bool :=
  poll.wait.all fun wait => max poll.since deadline < poll.since + wait

/-- What comes of asking the backend, and when. -/
def ask (poll : Poll) (deadline : Instant) (upstream : Upstream) : Instant × Arrival × Upstream :=
  if poll.isLate deadline then (max poll.since deadline, .overdue, upstream)
  else (poll.since + poll.wait.getD 0, upstream.next)

end Poll

/-- What came of a poll. -/
structure Pull where
  poll : Poll
  now : Instant
  item : StreamItem
  /-- The router after it. -/
  after : Router

/-- A stream with the backend behind it. -/
structure Reader where
  stream : RoutedStream
  upstream : Upstream

namespace Reader

/-- A stream in the hands of whoever has asked for it. -/
def ofDelivery (request : Request) (callerAdmission : Option Admission)
    (delivery : Delivery (Option Chunk × Upstream)) : Reader where
  stream := .ofDelivery request callerAdmission delivery
  upstream := delivery.value.2

def read (reader : Reader) (poll : Poll) : Pull × Reader :=
  if reader.stream.asksBackend then
    let (now, arrival, upstream) := poll.ask reader.stream.request.deadline reader.upstream
    let (after, stream, item) := reader.stream.receive poll.router now arrival
    ({ poll, now, item, after }, { stream, upstream })
  else
    let (after, stream, item) := reader.stream.poll poll.router poll.since
    ({ poll, now := poll.since, item, after }, { reader with stream })

/-- One poll after the other. -/
def reads : Reader → List Poll → List Pull
  | _, [] => []
  | reader, poll :: polls => (reader.read poll).1 :: (reader.read poll).2.reads polls

variable {reader : Reader} {poll : Poll} {polls : List Poll}

/-- The places are settled, and the cost is reported, with some usage. -/
def Settles (reader : Reader) (usage : Option TokenUsage) (pull : Pull) : Prop :=
  pull.after = settleServed pull.poll.router pull.now reader.stream.request
    reader.stream.callerAdmission reader.stream.admission reader.stream.deployment
    reader.stream.modelUsed usage

theorem read_opening {first : Chunk} (h : reader.stream.phase = .opening (some first))
    (poll : Poll) :
    reader.read poll = (⟨poll, poll.since, .chunk first, poll.router⟩,
      { reader with stream := reader.stream.handOn first }) := by
  simp only [read, RoutedStream.asksBackend, RoutedStream.poll, h, Bool.false_eq_true, if_false]

theorem read_closing (h : reader.stream.phase = .closing) (poll : Poll) :
    ∃ pull, reader.read poll =
        (pull, { reader with stream := { reader.stream with phase := .closed } }) ∧
      pull.item = .ended ∧ reader.Settles reader.stream.usage pull := by
  simp only [read, RoutedStream.asksBackend, RoutedStream.poll, RoutedStream.close, h,
    Bool.false_eq_true, if_false]
  exact ⟨_, rfl, rfl, rfl⟩

theorem read_closed (h : reader.stream.phase = .closed) (poll : Poll) :
    reader.read poll = (⟨poll, poll.since, .ended, poll.router⟩, reader) := by
  simp only [read, RoutedStream.asksBackend, RoutedStream.poll, h, Bool.false_eq_true, if_false]

theorem read_late (hAsks : reader.stream.asksBackend = true)
    (hLate : poll.isLate reader.stream.request.deadline = true) :
    reader.read poll =
      (⟨poll, max poll.since reader.stream.request.deadline,
          .error (.timeout "request deadline exceeded mid-stream"), poll.router⟩,
        { reader with stream := { reader.stream with phase := .closing } }) := by
  simp only [read, Poll.ask, hAsks, hLate, if_true, RoutedStream.receive]

/-- What is there in time is handed on, and its end is told at once. -/
theorem read_inTime (hAsks : reader.stream.asksBackend = true)
    (hInTime : poll.isLate reader.stream.request.deadline = false) :
    (∃ chunk rest, reader.upstream = .cons (.ok chunk) rest ∧
      ∃ now, reader.read poll = (⟨poll, now, .chunk chunk, poll.router⟩,
        ⟨reader.stream.handOn chunk, rest⟩)) ∨
      (∃ error rest, reader.upstream = .cons (.error error) rest ∧
        ∃ now, reader.read poll = (⟨poll, now, .error error, poll.router⟩,
          ⟨{ reader.stream with phase := .closing }, rest⟩)) ∨
      reader.upstream = .nil ∧ ∃ pull, reader.read poll =
          (pull, { reader with stream := { reader.stream with phase := .closed } }) ∧
        pull.item = .ended ∧ reader.Settles reader.stream.usage pull := by
  simp only [read, Poll.ask, hAsks, hInTime, if_true, Bool.false_eq_true, if_false, Upstream.next]
  cases hNext : reader.upstream.destruct with
  | none => exact .inr (.inr ⟨Stream'.Seq.destruct_eq_none hNext, _, rfl, rfl, rfl⟩)
  | some first =>
      obtain ⟨item, rest⟩ := first
      have hUpstream := Stream'.Seq.destruct_eq_cons hNext
      cases item with
      | ok chunk => exact .inl ⟨chunk, rest, hUpstream, _, rfl⟩
      | error error => exact .inr (.inl ⟨error, rest, hUpstream, _, rfl⟩)

end Reader

end DeploymentRouting
