import DeploymentRouting.Time
/-!
Spend events on their way to a ledger. Events wait in a bounded queue, so that
routing never waits for accounting: an event that finds the queue full is lost. A
writer takes one event after the other out of the queue, which makes room at once,
and spends a while on each before the ledger has it.
-/
namespace DeploymentRouting

/-- The token cost of one completed call. -/
structure SpendEvent where
  caller : Option String
  deployment : String
  /-- The logical model that served the request. -/
  model : String
  tokens : Nat
deriving DecidableEq, Repr

structure SpendQueue where
  capacity : Nat
  waiting : List SpendEvent := []
  /-- Whether nobody takes events out any more. -/
  closed : Bool := false
deriving DecidableEq, Repr

namespace SpendQueue

/-- An empty queue. It has room for one event at least. -/
def new (buffer : Nat) : SpendQueue := { capacity := max buffer 1 }

/-- Puts an event into the queue and tells whether there was room. -/
def offer (queue : SpendQueue) (event : SpendEvent) : SpendQueue × Bool :=
  if queue.closed || queue.capacity ≤ queue.waiting.length then (queue, false)
  else ({ queue with waiting := queue.waiting ++ [event] }, true)

end SpendQueue

/-- Writes events to a ledger, one at a time. -/
structure SpendWriter where
  /-- The time that the ledger takes for an event. -/
  delay : Duration := 0
  /-- The event at hand, and the instant at which the ledger will have it. -/
  writing : Option (SpendEvent × Instant) := none
deriving DecidableEq, Repr

namespace SpendWriter

/-- Takes up events that wait, from an instant on, and finishes those that can be finished up
to another one. Tells the rest of the events that wait, and those that were written. -/
def work (writer : SpendWriter) (since upTo : Instant) :
    List SpendEvent → SpendWriter × List SpendEvent × List SpendEvent
  | [] =>
      match writer.writing with
      | some (event, done) =>
          if done ≤ upTo then ({ writer with writing := none }, [], [event]) else (writer, [], [])
      | none => (writer, [], [])
  | next :: rest =>
      match writer.writing with
      | some (event, done) =>
          if done ≤ upTo then
            let writer := { writer with writing := some (next, done + writer.delay) }
            let (writer, waiting, written) := work writer done upTo rest
            (writer, waiting, event :: written)
          else (writer, next :: rest, [])
      | none =>
          let writer := { writer with writing := some (next, since + writer.delay) }
          work writer since upTo rest

/-- Lets the writer work on a queue. A queue that is closed has no writer any more. -/
def run (writer : SpendWriter) (queue : SpendQueue) (since upTo : Instant) :
    SpendWriter × SpendQueue × List SpendEvent :=
  if queue.closed then (writer, queue, [])
  else
    let (writer, waiting, written) := writer.work since upTo queue.waiting
    (writer, { queue with waiting }, written)

end SpendWriter

end DeploymentRouting
