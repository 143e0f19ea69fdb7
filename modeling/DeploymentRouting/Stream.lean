import DeploymentRouting.Route
/-!
A routed request that brings back a stream. The first chunk is read before the
request counts as served; from then on nothing is tried again, and an error ends
the stream as its last item. The places of the request stay taken until the stream
has said that it is at its end, or until it is dropped.
-/
namespace DeploymentRouting

/-- Where a stream is. -/
inductive StreamPhase where
  /-- The first chunk, if there was one, has not been handed on. -/
  | opening (first : Option Chunk)
  /-- The next item comes from the backend. -/
  | reading
  /-- The last item has been handed on, and the places are still taken. -/
  | closing
  | closed

/-- A stream in the hands of its reader. -/
structure RoutedStream where
  request : Request
  callerAdmission : Option Admission
  admission : Admission
  deployment : String
  modelUsed : String
  /-- The last usage that was handed on. -/
  usage : Option TokenUsage := none
  phase : StreamPhase

/-- What the backend says when it is asked for the next item. -/
inductive Arrival where
  | chunk (chunk : Chunk)
  | error (error : BackendError)
  | ended
  /-- It had said nothing by the end of the request. -/
  | overdue

/-- What the reader of a stream gets. -/
inductive StreamItem where
  | chunk (chunk : Chunk)
  | error (error : BackendError)
  | ended

namespace RoutedStream

/-- The stream of a delivery. -/
def ofDelivery {β : Type} (request : Request) (callerAdmission : Option Admission)
    (delivery : Delivery (Option Chunk × β)) : RoutedStream where
  request := request
  callerAdmission := callerAdmission
  admission := delivery.admission
  deployment := delivery.deployment.id
  modelUsed := delivery.modelUsed
  phase := .opening delivery.value.1

/-- Whether the backend has to be asked before the reader gets something. A stream that began
with no chunk asks again. -/
def asksBackend (stream : RoutedStream) : Bool :=
  match stream.phase with
  | .opening none | .reading => true
  | .opening (some _) | .closing | .closed => false

/-- Hands on a chunk. -/
def handOn (stream : RoutedStream) (chunk : Chunk) : RoutedStream :=
  { stream with phase := .reading, usage := chunk.usage.or stream.usage }

/-- Ends a stream: both places are settled, and the cost is reported. -/
def close (router : Router) (now : Instant) (stream : RoutedStream) : Router × RoutedStream :=
  (settleServed router now stream.request stream.callerAdmission stream.admission
      stream.deployment stream.modelUsed stream.usage,
    { stream with phase := .closed })

/-- What the reader gets without asking the backend. -/
def poll (router : Router) (now : Instant) (stream : RoutedStream) :
    Router × RoutedStream × StreamItem :=
  match stream.phase with
  | .opening (some first) => (router, stream.handOn first, .chunk first)
  | .closing =>
      let (router, stream) := stream.close router now
      (router, stream, .ended)
  | .opening none | .reading | .closed => (router, stream, .ended)

/-- What the reader gets after the backend was asked. -/
def receive (router : Router) (now : Instant) (stream : RoutedStream) :
    Arrival → Router × RoutedStream × StreamItem
  | .chunk chunk => (router, stream.handOn chunk, .chunk chunk)
  | .error error => (router, { stream with phase := .closing }, .error error)
  | .overdue =>
      (router, { stream with phase := .closing },
        .error (.timeout "request deadline exceeded mid-stream"))
  | .ended =>
      let (router, stream) := stream.close router now
      (router, stream, .ended)

/-- Drops a stream wherever it is. Places that are still taken go back with their estimates, and
no cost is reported. -/
def drop (router : Router) (now : Instant) (stream : RoutedStream) : Router :=
  match stream.phase with
  | .closed => router
  | .opening _ | .reading | .closing =>
      (router.abandon stream.admission now).abandonSome stream.callerAdmission now

end RoutedStream

end DeploymentRouting
