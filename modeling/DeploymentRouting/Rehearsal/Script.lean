import DeploymentRouting.Stream
/-!
Backends that answer by a script. A behavior says how one call goes: what comes
back, and after how long. A call is over when its answer comes, and is cut off at
its deadline; an answer right at the deadline still counts, and so does one that comes at once.
-/
namespace DeploymentRouting.Rehearsal

universe u

/-- One item of a scripted stream: a chunk, or an error in its place. -/
structure ScriptedItem where
  delay : Duration := 0
  error : Option BackendError := none
  usage : Option TokenUsage := none

inductive Reply where
  | ok (usage : Option TokenUsage)
  | fail (error : BackendError)
  /-- Nothing ever comes. -/
  | hang
  /-- A stream of items, which may not end after the last of them. -/
  | chunks (items : List ScriptedItem) (endless : Bool) (usage : Option TokenUsage)

structure Behavior where
  delay : Duration := 0
  reply : Reply

namespace Behavior

/-- What a backend does that has no script. -/
def standard : Behavior := { reply := .ok (some ⟨4, 6⟩) }

end Behavior

/-- The end of a call, and when it comes. -/
structure Completion (α : Type u) where
  instant : Instant
  ended : CallEnd α

namespace Completion

variable {α : Type u}

/-- An answer at some instant, or a cut at the deadline of the call if the answer comes later or not
at all. -/
def ofAnswer (call : PendingCall) (answer : Option (Instant × CallEnd α)) : Completion α :=
  match answer with
  | some (instant, ended) =>
      if instant ≤ max call.start call.deadline then ⟨instant, ended⟩
      else ⟨max call.start call.deadline, .cutOff⟩
  | none => ⟨max call.start call.deadline, .cutOff⟩

end Completion

/-- The side of a stream that a backend holds. -/
structure Feed where
  deployment : String
  /-- The number of the next item. -/
  position : Nat := 0
  items : List ScriptedItem
  endless : Bool

namespace Feed

/-- The next item from an instant on, unless none ever comes, and what is left of the stream. -/
def next (feed : Feed) (since : Instant) : Option (Instant × Arrival) × Feed :=
  match feed.items with
  | [] => (if feed.endless then none else some (since, .ended), feed)
  | item :: items =>
      let arrival := match item.error with
        | some error => Arrival.error error
        | none =>
            .chunk
              { payload := .array [.string feed.deployment, .integer feed.position]
                usage := item.usage }
      (some (since + item.delay, arrival),
        { feed with items, position := feed.position + 1 })

/-- The next item, if it comes before the end of the request. -/
def nextBefore (feed : Feed) (since deadline : Instant) : (Instant × Arrival) × Feed :=
  match feed.next since with
  | (some (instant, arrival), rest) =>
      if instant ≤ max since deadline then ((instant, arrival), rest)
      else ((max since deadline, .overdue), rest)
  | (none, rest) => ((max since deadline, .overdue), rest)

end Feed

namespace Behavior

/-- A call for a whole response. -/
def respond (behavior : Behavior) (payload : Json) (call : PendingCall) : Completion Response :=
  let instant := call.start + behavior.delay
  let response (usage : Option TokenUsage) : CallEnd Response :=
    .success
      { payload := .ofMembers
          [("by", .string call.deployment.id), ("model", .string call.deployment.model),
            ("echo", payload)]
        usage }
  Completion.ofAnswer call (match behavior.reply with
    | .ok usage | .chunks _ _ usage => some (instant, response usage)
    | .fail error => some (instant, .failure error)
    | .hang => none)

/-- The stream that a behavior opens, if it opens one. Without a script of its own it has two items,
of which the second one tells the usage. -/
def feed? (behavior : Behavior) (deployment : String) : Option Feed :=
  match behavior.reply with
  | .chunks items endless _ => some { deployment, items, endless }
  | .ok usage => some { deployment, items := [{}, { usage }], endless := false }
  | .fail _ | .hang => none

/-- A call for a stream: it is over when the first item is there. -/
def openStream (behavior : Behavior) (call : PendingCall) : Completion (Option Chunk × Feed) :=
  let instant := call.start + behavior.delay
  let first (feed : Feed) : Option (Instant × CallEnd (Option Chunk × Feed)) :=
    match feed.next instant with
    | (some (instant, .chunk chunk), rest) => some (instant, .success (some chunk, rest))
    | (some (instant, .error error), _) => some (instant, .failure error)
    | (some (instant, .ended), rest) => some (instant, .success (none, rest))
    | (some (_, .overdue), _) | (none, _) => none
  Completion.ofAnswer call (match behavior.reply, behavior.feed? call.deployment.id with
    | .fail error, _ => some (instant, .failure error)
    | _, some feed => first feed
    | _, none => none)

end Behavior

end DeploymentRouting.Rehearsal
