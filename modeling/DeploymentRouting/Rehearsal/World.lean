import DeploymentRouting.Rehearsal.Script
/-!
A router at work, in a time of its own. Time moves only while something waits: a
request for its call, a reader for the next item of a stream, or a pause. Requests
may run in the background, and what becomes due while something else waits happens
in the order of time.
-/
namespace DeploymentRouting.Rehearsal

universe u

/-- A call of a backend as it was made. -/
structure CallRecord where
  streamed : Bool
  deployment : String
  instant : Instant
  deadline : Instant

/-- A place that somebody else takes right after a choice of a request. -/
structure Steal where
  /-- The number of the choice, counted from one. -/
  selection : Nat
  deployment : String
  cost : Nat
  name : String

/-- What a request has come to. -/
inductive Ending (α : Type u) where
  | routed (routed : Routed α)
  | failed (error : RoutingError)
  /-- No deployment could be drawn. -/
  | halted

/-- A request that is waiting for a call. -/
structure Progress (α : Type u) where
  route : Route α
  completion : Completion α
  /-- Choices so far. -/
  selections : Nat := 0
  steals : List Steal := []

/-- A request in the background, which its starter may have lost sight of. -/
structure Task where
  name : Option String
  state : Progress Response ⊕ (Instant × Ending Response)

structure OpenStream where
  stream : RoutedStream
  feed : Feed

structure World where
  router : Router
  now : Instant := 0
  scripts : Table (List Behavior) := ∅
  defaults : Table Behavior := ∅
  /-- Whether the backends know no streams. -/
  unaryOnly : Bool := false
  tasks : List Task := []
  streams : Table OpenStream := ∅
  /-- Places that are held by hand. -/
  held : Table Admission := ∅
  writer : SpendWriter := {}
  /-- Calls since the last report, the last one first. -/
  calls : List CallRecord := []
  totalCalls : Nat := 0
  /-- Spend events in the ledger since the last report. -/
  recorded : List SpendEvent := []

namespace World

/-- The behavior of the next call: the next one of a script, or else the default. -/
def takeBehavior (world : World) (id : String) : World × Behavior :=
  match world.scripts.get? id with
  | some (behavior :: rest) => ({ world with scripts := world.scripts.insert id rest }, behavior)
  | _ => (world, (world.defaults.get? id).getD Behavior.standard)

def recordCall (world : World) (streamed : Bool) (call : PendingCall) : World :=
  { world with
    calls := ⟨streamed, call.deployment.id, call.start, call.deadline⟩ :: world.calls
    totalCalls := world.totalCalls + 1 }

/-- How a world answers calls for some kind of value. -/
abbrev Answering (α : Type u) := World → Request → PendingCall → World × Completion α

def answerWhole : Answering Response := fun world request call =>
  let (world, behavior) := (world.recordCall false call).takeBehavior call.deployment.id
  (world, behavior.respond request.payload call)

/-- A backend that knows no streams refuses them without a call. -/
def answerStream : Answering (Option Chunk × Feed) := fun world _ call =>
  if world.unaryOnly then
    let reason := "streaming is not supported by provider " ++ call.deployment.provider.name
    (world, ⟨call.start, .failure (.badRequest 400 reason)⟩)
  else
    let (world, behavior) := (world.recordCall true call).takeBehavior call.deployment.id
    (world, behavior.openStream call)

/-- Lets the writer of spend events work. -/
def writeSpend (world : World) : World :=
  match world.router.spend with
  | none => world
  | some queue =>
      let (writer, queue, written) := world.writer.run queue world.now world.now
      { world with
        router := { world.router with spend := some queue }
        writer
        recorded := world.recorded ++ written }

/-- Takes a place on a deployment, and gives back an older one under the same name. -/
def hold (router : Router) (held : Table Admission) (now : Instant) (id : String) (cost : Nat)
    (name : String) : Except Refusal Unit × Router × Table Admission :=
  let limits := ((router.registry.get? id).map (·.limits)).getD {}
  match router.limiter.reserve .deployment id limits cost now with
  | (limiter, .error refusal) => (.error refusal, { router with limiter }, held)
  | (limiter, .ok admission) =>
      let router := { router with limiter }
      (.ok (), router.abandonSome (held.get? name) now, held.insert name admission)

/-- Lets the steals of a choice happen, if the step before was one. -/
def bystander {α : Type u} (now : Instant) (steals : List Steal) (before _after : Dispatch α)
    (state : Router × (Nat × Table Admission)) : Router × (Nat × Table Admission) :=
  match before.phase with
  | .selecting _ =>
      let (router, selections, held) := state
      let selections := selections + 1
      let (router, held) :=
        (steals.filter (·.selection == selections)).foldl (fun (router, held) steal =>
          (hold router held now steal.deployment steal.cost steal.name).2) (router, held)
      (router, selections, held)
  | _ => state

/-- Steps of a request up to its next call, which is made, or up to its end. -/
def advance {α : Type u} (answering : Answering α) (world : World) (route : Route α)
    (selections : Nat) (steals : List Steal) : World × (Progress α ⊕ Route α) :=
  let bound := route.dispatch.stepBound world.router.settings.maxAttempts
  let ((router, selections, held), dispatch) :=
    Dispatch.run world.now {} (bystander world.now steals) bound
      (world.router, (selections, world.held)) route.dispatch
  let world := { world with router, held }
  let route := { route with dispatch }
  match dispatch.phase with
  | .calling call =>
      let (world, completion) := answering world dispatch.request call
      (world, .inl { route, completion, selections, steals })
  | _ => (world, .inr route)

/-- The return of the call of a request, and its steps up to the next one. -/
def resume {α : Type u} (answering : Answering α) (world : World) (progress : Progress α) :
    World × (Progress α ⊕ Route α) :=
  let (router, dispatch) :=
    progress.route.dispatch.answer world.router world.now progress.completion.ended
  advance answering { world with router } { progress.route with dispatch } progress.selections
    progress.steals

/-- Ends a request for a whole response. -/
def finish (world : World) (route : Route Response) : World × Ending Response :=
  match route.dispatch.phase with
  | .finished (.ok delivery) =>
      let (router, routed) := route.settleResponse world.router world.now delivery
      ({ world with router }.writeSpend, .routed routed)
  | .finished (.error error) =>
      ({ world with router := route.settleFailure world.router world.now }, .failed error)
  | _ => (world, .halted)

/-- Begins a request. -/
def begin {α : Type u} (answering : Answering α) (world : World) (request : Request)
    (steals : List Steal) : World × (Except RoutingError (Progress α ⊕ Route α)) :=
  match Route.begin (α := α) world.router request world.now with
  | (router, .error error) => ({ world with router }, .error error)
  | (router, .ok route) =>
      let (world, state) := advance answering { world with router } route 0 steals
      (world, .ok state)

/-- The instant at which a task goes on. -/
def due? (task : Task) : Option Instant :=
  match task.state with
  | .inl progress => some progress.completion.instant
  | .inr _ => none

/-- The place and the instant of the task that goes on first. -/
def nextDue? (tasks : List Task) : Option (Nat × Instant) :=
  let due := tasks.zipIdx.filterMap fun (task, position) => (due? task).map (position, ·)
  due.foldl (fun best entry =>
    match best with
    | some first => if entry.2 < first.2 then some entry else best
    | none => some entry) none

/-- What a task is after its next steps. -/
def settleTask (world : World) (state : Progress Response ⊕ Route Response) :
    World × (Progress Response ⊕ (Instant × Ending Response)) :=
  match state with
  | .inl progress => (world, .inl progress)
  | .inr route =>
      let (world, ending) := world.finish route
      (world, .inr (world.now, ending))

/-- Lets a task go on. -/
def resumeTask (world : World) (position : Nat) : World :=
  match world.tasks[position]? with
  | some ⟨name, .inl progress⟩ =>
      let (world, state) := resume answerWhole world progress
      let (world, state) := world.settleTask state
      { world with tasks := world.tasks.set position ⟨name, state⟩ }
  | _ => world

/-- The number of steps that all tasks together can still take. -/
def taskBound (world : World) : Nat :=
  (world.tasks.map fun task =>
    match task.state with
    | .inl progress => progress.route.dispatch.stepBound world.router.settings.maxAttempts + 1
    | .inr _ => 0).foldl (· + ·) 0

/-- Lets tasks go on that are due up to an instant, the earliest one first. -/
def runTasks (upTo : Instant) : Nat → World → World
  | 0, world => world
  | fuel + 1, world =>
      match nextDue? world.tasks with
      | some (position, instant) =>
          if instant ≤ upTo then
            runTasks upTo fuel ({ world with now := max world.now instant }.resumeTask position)
          else world
      | none => world

/-- Waits up to an instant. -/
def waitUntil (world : World) (instant : Instant) : World :=
  let world := runTasks instant world.taskBound world
  { world with now := max world.now instant }

/-- Drives a request to its end, and lets tasks go on while it waits. -/
def drive {α : Type u} (answering : Answering α) :
    Nat → World → Progress α → World × Option (Route α)
  | 0, world, _ => (world, none)
  | fuel + 1, world, progress =>
      let instant := progress.completion.instant
      let world := if instant ≤ world.now then world else world.waitUntil instant
      match resume answering world progress with
      | (world, .inl progress) => drive answering fuel world progress
      | (world, .inr route) => (world, some route)

/-- A bound on the calls of a request. -/
def callBound {α : Type u} (world : World) (progress : Progress α) : Nat :=
  progress.route.dispatch.stepBound world.router.settings.maxAttempts + 1

/-- Drives a request that has begun to its end. -/
def complete {α : Type u} (answering : Answering α) (world : World) (state : Progress α ⊕ Route α) :
    World × Option (Route α) :=
  match state with
  | .inl progress => drive answering (world.callBound progress) world progress
  | .inr route => (world, some route)

/-- Routes a request for a whole response. -/
def route (world : World) (request : Request) (steals : List Steal) : World × Ending Response :=
  match begin answerWhole world request steals with
  | (world, .error error) => (world, .failed error)
  | (world, .ok state) =>
      match complete answerWhole world state with
      | (world, some route) => world.finish route
      | (world, none) => (world, .halted)

def keepStream (world : World) (name : String) (held : OpenStream) : World :=
  { world with streams := world.streams.insert name held }

/-- Routes a request for a stream, which is kept under a name. -/
def openStream (world : World) (request : Request) (name : String) : World × Ending Unit :=
  match begin answerStream world request [] with
  | (world, .error error) => (world, .failed error)
  | (world, .ok state) =>
      match complete answerStream world state with
      | (world, none) => (world, .halted)
      | (world, some route) =>
          match route.dispatch.phase with
          | .finished (.ok delivery) =>
              let stream :=
                RoutedStream.ofDelivery route.dispatch.request route.callerAdmission delivery
              let router := match world.streams.get? name with
                | some older => older.stream.drop world.router world.now
                | none => world.router
              ({ world with router }.keepStream name { stream, feed := delivery.value.2 },
                .routed (delivery.routed ()))
          | .finished (.error error) =>
              ({ world with router := route.settleFailure world.router world.now }, .failed error)
          | _ => (world, .halted)

/-- Adds a task. An older one of the same name goes on out of sight. -/
def addTask (world : World) (name : String)
    (state : Progress Response ⊕ (Instant × Ending Response)) : World :=
  let older := world.tasks.map fun task =>
    if task.name == some name then { task with name := none } else task
  { world with tasks := older ++ [{ name := some name, state }] }

/-- Starts a request in the background. -/
def start (world : World) (request : Request) (name : String) : World :=
  let world := match begin answerWhole world request [] with
    | (world, .error error) => world.addTask name (.inr (world.now, .failed error))
    | (world, .ok state) =>
        let (world, state) := world.settleTask state
        world.addTask name state
  world.waitUntil world.now

/-- Takes a task out. -/
def removeTask (world : World) (name : String) : World :=
  { world with tasks := world.tasks.filter (·.name != some name) }

def findTask? (world : World) (name : String) : Option Task :=
  world.tasks.find? (·.name == some name)

/-- Waits for a task, and lets the others go on as long as it takes. -/
def join (name : String) : Nat → World → World × Option (Instant × Ending Response)
  | 0, world => (world, none)
  | fuel + 1, world =>
      match world.findTask? name with
      | none => (world, none)
      | some ⟨_, .inr done⟩ => (world.removeTask name, some done)
      | some ⟨_, .inl progress⟩ => join name fuel (world.waitUntil progress.completion.instant)

/-- Gives up a task, and tells whether there was one. -/
def cancel (world : World) (name : String) : World × Bool :=
  match world.findTask? name with
  | none => (world, false)
  | some ⟨_, .inr _⟩ => (world.removeTask name, true)
  | some ⟨_, .inl progress⟩ =>
      let router := progress.route.cancel world.router world.now
      ({ world with router }.removeTask name, true)

/-- The next item of a stream. -/
def readStream (world : World) (name : String) (held : OpenStream) : World × StreamItem :=
  if held.stream.asksBackend then
    let ((instant, arrival), feed) :=
      held.feed.nextBefore world.now held.stream.request.deadline
    let world := world.waitUntil instant
    let (router, stream, item) := held.stream.receive world.router world.now arrival
    (({ world with router }.keepStream name { stream, feed }).writeSpend, item)
  else
    let (router, stream, item) := held.stream.poll world.router world.now
    (({ world with router }.keepStream name { held with stream }).writeSpend, item)

/-- The items of a stream up to its end. -/
def drain (name : String) : Nat → World → World × List StreamItem
  | 0, world => (world, [])
  | fuel + 1, world =>
      match world.streams.get? name with
      | none => (world, [])
      | some held =>
          match world.readStream name held with
          | (world, .ended) => (world, [])
          | (world, item) =>
              let (world, items) := drain name fuel world
              (world, item :: items)

/-- Drops a stream, and tells whether there was one. -/
def dropStream (world : World) (name : String) : World × Bool :=
  match world.streams.get? name with
  | none => (world, false)
  | some held =>
      ({ world with
          router := held.stream.drop world.router world.now
          streams := world.streams.erase name }, true)

end World

end DeploymentRouting.Rehearsal
